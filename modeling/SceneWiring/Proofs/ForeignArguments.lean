import SceneWiring.Proofs.ForeignAttributes
import SceneWiring.Proofs.NumberRange
import SceneWiring.Proofs.ReplacedValues
/-!
# Arguments of foreign attributes

Attributes that are no annotations may have any arguments. Their values are read as constants, of
whatever shape they are, and nothing looks at them. Main statement: when such arguments are replaced
in a text that holds a snapshot, by values that a reader can take, the text holds a snapshot again
and gives the same result. Whether a reader takes a number near the largest floating-point number
depends on how it is spelled, so that a number in range is not enough.
-/

namespace SceneWiring

namespace Json

/-! ## Values that can be taken -/

/-- A closed value whose keys and texts have a content, whose numbers are in range and that nests no
deeper than the room allows. -/
inductive Node.Sound (InRange : Numeral → Prop) : Nat → Node → Prop
  | null (room : Nat) : Sound InRange room .null
  | bool (room : Nat) (value : Bool) : Sound InRange room (.bool value)
  | number (room : Nat) {n : Numeral} (h : InRange n) : Sound InRange room (.number n)
  | text (room : Nat) {q : Quoted} {content : String} (h : q.content = .ok content) :
    Sound InRange room (.text q)
  | array {room : Nat} {items : List Node} (hroom : 1 < room)
    (hitems : ∀ item ∈ items, Sound InRange (room - 1) item) :
    Sound InRange room (.array items .closed)
  | object {room : Nat} {fields : List (Quoted × Node)} (hroom : 1 < room)
    (hkeys : ∀ field ∈ fields, ∃ content, field.1.content = .ok content)
    (hvalues : ∀ field ∈ fields, Sound InRange (room - 1) field.2) :
    Sound InRange room (.object fields .closed)

/-- The numerals that a reader takes. -/
def Numeral.Taken (n : Numeral) : Prop := n.fault = none

/-- A sound value can be taken, whatever it is. -/
theorem Node.Sound.readFault_eq_none {room : Nat} {node : Node}
    (h : node.Sound Numeral.Taken room) : node.readFault room = none := by
  induction h with
  | null | bool => rfl
  | number _ h => exact h
  | text _ h => rw [readFault, h]
  | array hroom _ ih =>
    rw [readFault, if_neg (Nat.not_le.2 hroom)]
    exact itemsFault_eq_none.2 ⟨rfl, ih⟩
  | object hroom hkeys _ ih =>
    rw [readFault, if_neg (Nat.not_le.2 hroom)]
    exact fieldsFault_eq_none.2 ⟨rfl, hkeys, ih⟩

section

variable {α : Type} {decode : Decoder α} {room : Nat}

/-- All items are read when each of them is. -/
theorem exists_mapM {items : List Node} (h : ∀ item ∈ items, ∃ v, decode room item = .ok v) :
    ∃ values, items.mapM (decode room) = .ok values := by
  induction items with
  | nil => exact ⟨[], rfl⟩
  | cons item items ih =>
    obtain ⟨⟨v, hv⟩, hitems⟩ := List.forall_mem_cons.1 h
    obtain ⟨values, hvalues⟩ := ih hitems
    refine ⟨v :: values, ?_⟩
    rw [List.mapM_cons]
    exact bind_eq_ok_iff.2 ⟨v, hv, bind_eq_ok_iff.2 ⟨values, hvalues, rfl⟩⟩

end

/-- Any sound array in place of another value. -/
def NewItems (InRange : Numeral → Prop) (room : Nat) (_ b : Node) : Prop :=
  b.Sound InRange room ∧ ∃ items, b = .array items .closed

/-- Any sound object in place of another value. -/
def NewEntries (InRange : Numeral → Prop) (room : Nat) (_ b : Node) : Prop :=
  b.Sound InRange room ∧ ∃ fields, b = .object fields .closed

end Json

open Json

/-! ## Snapshots with new arguments -/

section

variable (InRange : Numeral → Prop)

/-- The attribute is none of the annotations, going by its name. -/
def Attribute.Foreign (node : Node) : Prop :=
  ∃ q name, node.field? (fieldNames Attribute.jsonFields) "name" = some (.text q) ∧
    q.content = .ok name ∧ AnnotationKind.ofAttributeName name = none

/-- The attributes are the same, or they are foreign and differ in their arguments only. -/
def Attribute.NewArguments (room : Nat) (a b : Node) : Prop :=
  a = b ∨ Attribute.Foreign a ∧ FieldWise (fieldNames Attribute.jsonFields)
    [("args", NewItems InRange (room - 1)), ("named", NewEntries InRange (room - 1))] a b

/-- The fields or properties differ in arguments of foreign attributes only. -/
def Member.NewArguments (room : Nat) : Node → Node → Prop :=
  Changed (fieldNames Member.jsonFields)
    [("attributes", AlikeList (Attribute.NewArguments InRange (room - 1 - 1)))]

/-- The methods differ in arguments of foreign attributes only. -/
def Method.NewArguments (room : Nat) : Node → Node → Prop :=
  Changed (fieldNames Method.jsonFields)
    [("attributes", AlikeList (Attribute.NewArguments InRange (room - 1 - 1)))]

/-- The type declarations differ in arguments of foreign attributes only, of their own or of their
fields, properties and methods. -/
def TypeDecl.NewArguments (room : Nat) : Node → Node → Prop :=
  Changed (fieldNames TypeDecl.jsonFields)
    [("attributes", AlikeList (Attribute.NewArguments InRange (room - 1 - 1))),
     ("fields", AlikeList (Member.NewArguments InRange (room - 1 - 1))),
     ("properties", AlikeList (Member.NewArguments InRange (room - 1 - 1))),
     ("methods", AlikeList (Method.NewArguments InRange (room - 1 - 1)))]

/-- The snapshots differ in arguments of foreign attributes only. The new arguments are any values
that are whole and nest no deeper than a document may. -/
def Snapshot.NewArguments (a b : Node) : Prop :=
  Changed (fieldNames Snapshot.jsonFields)
    [("types", AlikeList (TypeDecl.NewArguments InRange (documentRoom - 1 - 1)))] a b

end

/-- The attribute without its arguments. -/
def Attribute.argumentless (a : Attribute) : Attribute := { a with args := [], named := [] }

/-- A constant is read from any sound value. -/
theorem Constant.exists_decoder {room : Nat} {node : Node} (h : node.Sound Numeral.Taken room) :
    ∃ c, Constant.decoder room node = .ok c := by
  refine ⟨Constant.ofNode node, ?_⟩
  rw [Constant.decoder, Node.wellRead, h.readFault_eq_none]
  rfl

/-- Any sound array can be given as positional arguments. -/
theorem newItems_carries (room : Nat) :
    (Decoder.list Constant.decoder).Carries room (NewItems Numeral.Taken room)
      fun _ => ([] : List Constant) := by
  rintro a b v ⟨hsound, items, rfl⟩ -
  cases hsound with
  | array hroom hitems =>
    obtain ⟨cs, hcs⟩ := exists_mapM fun item hmem => Constant.exists_decoder (hitems item hmem)
    exact ⟨cs, bind_eq_ok_iff.2 ⟨room - 1, enter_eq_ok_iff.2 ⟨hroom, rfl⟩,
      bind_eq_ok_iff.2 ⟨cs, hcs, rfl⟩⟩, rfl⟩

/-- Any sound object can be given as named arguments. -/
theorem newEntries_carries (room : Nat) :
    (Decoder.entries Constant.decoder).Carries room (NewEntries Numeral.Taken room)
      fun _ => ([] : List (String × Constant)) := by
  rintro a b v ⟨hsound, fields, rfl⟩ -
  cases hsound with
  | object hroom hkeys hvalues =>
    obtain ⟨entries, hentries⟩ := exists_addEntries hkeys
      (fun field hmem => Constant.exists_decoder (hvalues field hmem)) []
    exact ⟨entries, bind_eq_ok_iff.2 ⟨room - 1, enter_eq_ok_iff.2 ⟨hroom, rfl⟩,
      bind_eq_ok_iff.2 ⟨entries, hentries, rfl⟩⟩, rfl⟩

/-- An attribute has the name that is given. -/
theorem Attribute.name_of_decoder {room : Nat} {node : Node} {v : Attribute}
    (hread : Attribute.decoder room node = .ok v) {q : Quoted} {name : String}
    (hgiven : node.field? (fieldNames Attribute.jsonFields) "name" = some (.text q))
    (hcontent : q.content = .ok name) : v.name = name := by
  obtain ⟨-, -, -, -, -, hbuild⟩ := (record_eq_ok_iff Attribute.jsonFields_independent).1 hread
  rw [Attribute.jsonFields, buildRecord_given hgiven] at hbuild
  obtain ⟨change, hchange, hbuild⟩ := Option.bind_eq_some_iff.1 hbuild
  obtain ⟨content, htext, rfl⟩ := exists_of_map_eq_ok (toOption_eq_some_iff.1 hchange)
  obtain rfl : name = content := Except.ok.inj (hcontent.symm.trans htext)
  -- The other fields leave the name as it is.
  refine buildRecord_keeps (P := fun a => a.name = name) ?_ rfl hbuild
  simp only [List.forall_mem_cons]
  refine ⟨?_, ?_, ?_, fun _ hmem => absurd hmem List.not_mem_nil⟩
  all_goals
    rintro node change hread record rfl
    obtain ⟨_, -, rfl⟩ := exists_of_map_eq_ok hread
    rfl

/-- Attributes that differ in arguments of foreign ones only are read as the same annotation, or as
none. -/
theorem Attribute.decoder_carries (room : Nat) :
    Attribute.decoder.Carries room (Attribute.NewArguments Numeral.Taken room)
      fun a => annotationsOnly [a] := by
  rintro a b v (rfl | ⟨⟨q, name, hgiven, hcontent, hforeign⟩, hfieldWise⟩) hread
  · exact ⟨v, hread, rfl⟩
  have hrecord : Attribute.decoder.Carries room (Changed (fieldNames Attribute.jsonFields)
      [("args", NewItems Numeral.Taken (room - 1)), ("named", NewEntries Numeral.Taken (room - 1))])
      Attribute.argumentless := by
    refine record_carries Attribute.jsonFields_independent
      (by simp [fieldNames, Attribute.jsonFields]) ?_
    simp only [Attribute.jsonFields, List.forall_mem_cons]
    exact ⟨requiredField_carries (carries_eq _ _) fun _ _ => rfl,
      optionalField_carries (newItems_carries _) fun _ _ => rfl,
      optionalField_carries (newEntries_carries _) fun _ _ => rfl,
      optionalField_carries (carries_eq _ _) fun _ _ => rfl,
      fun _ hmem => absurd hmem List.not_mem_nil⟩
  obtain ⟨v', hread', hsame⟩ := hrecord a b v (.inr hfieldWise) hread
  have hname : v.name = name := name_of_decoder hread hgiven hcontent
  have hname' : v'.name = v.name := (congrArg Attribute.name hsame :)
  have hnone : v.annotation? = none := by rw [annotation?, hname, hforeign, Option.map_none]
  have hnone' : v'.annotation? = none := by
    rw [annotation?, hname', hname, hforeign, Option.map_none]
  refine ⟨v', hread', ?_⟩
  simp [annotationsOnly, hnone, hnone']

/-- Lists of attributes that differ in arguments of foreign ones only are read as the same
annotations. -/
theorem attributes_carries (room : Nat) :
    (Decoder.list Attribute.decoder).Carries room
      (AlikeList (Attribute.NewArguments Numeral.Taken (room - 1))) annotationsOnly := by
  intro a b values hchange hread
  obtain ⟨values', hread', hsame⟩ :=
    list_carries (Attribute.decoder_carries _) a b values hchange hread
  have hflatten (attributes : List Attribute) :
      annotationsOnly attributes = (attributes.map fun a => annotationsOnly [a]).flatten := by
    induction attributes with
    | nil => rfl
    | cons a rest ih =>
      rw [List.map_cons, List.flatten_cons, ← ih]
      exact List.filter_append [a] rest
  exact ⟨values', hread', by rw [hflatten, hflatten, hsame]⟩

/-- Fields or properties that differ in arguments of foreign attributes only are read the same, up
to foreign attributes. -/
theorem Member.decoder_carries (room : Nat) :
    Member.decoder.Carries room (Member.NewArguments Numeral.Taken room) Member.annotated := by
  refine record_carries Member.jsonFields_independent (by simp [fieldNames, Member.jsonFields]) ?_
  simp only [Member.jsonFields, List.forall_mem_cons]
  exact ⟨requiredField_carries (carries_eq _ _) fun _ _ => rfl,
    requiredField_carries (carries_eq _ _) fun _ _ => rfl,
    optionalField_carries (carries_eq _ _) fun _ _ => rfl,
    optionalField_carries (carries_eq _ _) fun _ _ => rfl,
    optionalField_carries (carries_eq _ _) fun _ _ => rfl,
    optionalField_carries (attributes_carries _) fun _ _ => rfl,
    optionalField_carries (carries_eq _ _) fun _ _ => rfl,
    fun _ hmem => absurd hmem List.not_mem_nil⟩

/-- Methods that differ in arguments of foreign attributes only are read the same, up to foreign
attributes. -/
theorem Method.decoder_carries (room : Nat) :
    Method.decoder.Carries room (Method.NewArguments Numeral.Taken room) Method.annotated := by
  refine record_carries Method.jsonFields_independent (by simp [fieldNames, Method.jsonFields]) ?_
  simp only [Method.jsonFields, List.forall_mem_cons]
  exact ⟨requiredField_carries (carries_eq _ _) fun _ _ => rfl,
    optionalField_carries (carries_eq _ _) fun _ _ => rfl,
    optionalField_carries (carries_eq _ _) fun _ _ => rfl,
    optionalField_carries (attributes_carries _) fun _ _ => rfl,
    optionalField_carries (carries_eq _ _) fun _ _ => rfl,
    fun _ hmem => absurd hmem List.not_mem_nil⟩

/-- Type declarations that differ in arguments of foreign attributes only are read the same, up to
foreign attributes. -/
theorem TypeDecl.decoder_carries (room : Nat) :
    TypeDecl.decoder.Carries room (TypeDecl.NewArguments Numeral.Taken room)
      TypeDecl.annotated := by
  refine record_carries TypeDecl.jsonFields_independent
    (by simp [fieldNames, TypeDecl.jsonFields]) ?_
  simp only [TypeDecl.jsonFields, List.forall_mem_cons]
  exact ⟨requiredField_carries (carries_eq _ _) fun _ _ => rfl,
    optionalField_carries (carries_eq _ _) fun _ _ => rfl,
    optionalField_carries (carries_eq _ _) fun _ _ => rfl,
    optionalField_carries (carries_eq _ _) fun _ _ => rfl,
    optionalField_carries (carries_eq _ _) fun _ _ => rfl,
    optionalField_carries (carries_eq _ _) fun _ _ => rfl,
    optionalField_carries (carries_eq _ _) fun _ _ => rfl,
    optionalField_carries (attributes_carries _) fun _ _ => rfl,
    optionalField_carries (list_carries (Member.decoder_carries _)) fun _ _ => rfl,
    optionalField_carries (list_carries (Member.decoder_carries _)) fun _ _ => rfl,
    optionalField_carries (list_carries (Method.decoder_carries _)) fun _ _ => rfl,
    optionalField_carries (carries_eq _ _) fun _ _ => rfl,
    fun _ hmem => absurd hmem List.not_mem_nil⟩

/-- Snapshots that differ in arguments of foreign attributes only are read the same, up to foreign
attributes. -/
theorem Snapshot.decoder_carries :
    Snapshot.decoder.Carries documentRoom (Snapshot.NewArguments Numeral.Taken)
      Snapshot.annotated := by
  refine record_carries Snapshot.jsonFields_independent
    (by simp [fieldNames, Snapshot.jsonFields]) ?_
  simp only [Snapshot.jsonFields, List.forall_mem_cons]
  exact ⟨optionalField_carries (list_carries (TypeDecl.decoder_carries _)) fun _ _ => rfl,
    optionalField_carries (carries_eq _ _) fun _ _ => rfl,
    optionalField_carries (carries_eq _ _) fun _ _ => rfl,
    fun _ hmem => absurd hmem List.not_mem_nil⟩

/-- A document that differs from a snapshot in arguments of foreign attributes only is a snapshot too
and gives the same result. -/
theorem Generation.ofDocument_of_newArguments {a b : Node} (hchange : Snapshot.NewArguments Numeral.Taken a b)
    {s : Snapshot} (h : Snapshot.ofDocument ⟨a, false⟩ = .ok s) :
    (∃ s', Snapshot.ofDocument ⟨b, false⟩ = .ok s') ∧
      Generation.ofDocument ⟨b, false⟩ = Generation.ofDocument ⟨a, false⟩ := by
  obtain ⟨read, hread, h⟩ := exists_of_bind_eq_ok h
  obtain rfl : read = s := Except.ok.inj h
  obtain ⟨s', hread', hsame⟩ := Snapshot.decoder_carries a b read hchange hread
  have hs : Snapshot.ofDocument ⟨a, false⟩ = .ok read := bind_eq_ok_iff.2 ⟨read, hread, rfl⟩
  have hs' : Snapshot.ofDocument ⟨b, false⟩ = .ok s' := bind_eq_ok_iff.2 ⟨s', hread', rfl⟩
  refine ⟨⟨s', hs'⟩, ?_⟩
  rw [Generation.ofDocument_eq, Generation.ofDocument_eq, hs, hs']
  exact Snapshot.context_eq_of_annotated hsame

/-- A text that holds a snapshot spells a JSON document. When arguments of its foreign attributes
are replaced by any sound values whose numbers a reader takes, the text of the new document holds a
snapshot too, and gives the same result. -/
theorem foreign_arguments_never_matter {text : String} {s : Snapshot}
    (h : Snapshot.ofDocument (Json.parse text) = .ok s) :
    Written (Json.parse text).root text ∧
    ∀ node' text', Snapshot.NewArguments Numeral.Taken (Json.parse text).root node' →
      Written node' text' →
      (∃ s', Snapshot.ofDocument (Json.parse text') = .ok s') ∧
        Generation.ofDocument (Json.parse text') = Generation.ofDocument (Json.parse text) := by
  have hwritten := written_of_read Snapshot.decoder_thorough h
  refine ⟨hwritten, fun node' text' hchange hwritten' => ?_⟩
  have hparse := hwritten.parse_eq
  generalize (Json.parse text).root = node at hchange hparse
  rw [hparse] at h ⊢
  rw [hwritten'.parse_eq]
  exact Generation.ofDocument_of_newArguments hchange h

/-- A document of the host types and a class with one foreign attribute, which has one argument. -/
def heroDocument (argument : Node) : Node :=
  .object [(.plain "types", .array
    [.array [textNode "Node", textNode "Godot"] .closed,
     .array [textNode "Resource", textNode "Godot"] .closed,
     .object [(.plain "name", textNode "Hero"), (.plain "attributes", .array
       [.array [textNode "Export", .array [argument] .closed] .closed] .closed)] .closed]
    .closed)] .closed

/-- The document with the argument 7. -/
def heroText : String :=
  "\x7b\"types\":[[\"Node\",\"Godot\"],[\"Resource\",\"Godot\"],\x7b\"name\":\"Hero\",\"attributes\":[[\"Export\",[7]]]\x7d]\x7d"

/-- The text is that of the document. -/
theorem parse_heroText :
    Json.parse heroText = ⟨heroDocument (.number ⟨false, [7], none, none⟩), false⟩ := by
  cbv

/-- The text holds a snapshot. -/
theorem exists_ofDocument_heroText : ∃ s, Snapshot.ofDocument (Json.parse heroText) = .ok s := by
  rw [parse_heroText]
  exact ⟨_, rfl⟩

/-- The argument may be any sound value. -/
theorem heroDocument_newArguments {InRange : Numeral → Prop} (argument : Node) {argument' : Node}
    (h : argument'.Sound InRange 122) :
    Snapshot.NewArguments InRange (heroDocument argument) (heroDocument argument') := by
  have hitems : NewItems InRange 123 (.array [argument] .closed) (.array [argument'] .closed) :=
    ⟨.array (by decide) (by simpa using h), _, rfl⟩
  have hattribute : Attribute.NewArguments InRange 124
      (.array [textNode "Export", .array [argument] .closed] .closed)
      (.array [textNode "Export", .array [argument'] .closed] .closed) :=
    .inr ⟨⟨_, "Export", rfl, rfl, by decide +kernel⟩,
      .array rfl (.cons ⟨rfl, rfl⟩ (.cons ⟨rfl, hitems⟩ .nil))⟩
  have hdecl : TypeDecl.NewArguments InRange 126
      (.object [(.plain "name", textNode "Hero"), (.plain "attributes", .array
        [.array [textNode "Export", .array [argument] .closed] .closed] .closed)] .closed)
      (.object [(.plain "name", textNode "Hero"), (.plain "attributes", .array
        [.array [textNode "Export", .array [argument'] .closed] .closed] .closed)] .closed) := by
    refine .inr (.object (.cons ⟨rfl, ?_⟩ (.cons ⟨rfl, ?_⟩ .nil)))
    · rintro _ ⟨⟩
      rfl
    · rintro _ ⟨⟩
      exact .inr ⟨_, _, rfl, rfl, .cons hattribute .nil⟩
  refine .inr (.object (.cons ⟨rfl, ?_⟩ .nil))
  rintro _ ⟨⟩
  exact .inr ⟨_, _, rfl, rfl, .cons (.inl rfl) (.cons (.inl rfl) (.cons hdecl .nil))⟩

/-- An object that holds a fraction and null. -/
def wildArgument : Node :=
  .object [(.plain "at", .array [.number ⟨true, [1], some [5], some 3⟩, .null] .closed)] .closed

/-- The document with that argument. -/
def wildText : String :=
  "\x7b\"types\":[[\"Node\",\"Godot\"],[\"Resource\",\"Godot\"],\x7b\"name\":\"Hero\",\"attributes\":[[\"Export\",[\x7b\"at\":[-1.5e3,null]\x7d]]]\x7d]\x7d"

/-- The text is that of the document. -/
theorem written_wildText : Written (heroDocument wildArgument) wildText :=
  written_of_parse (by cbv) (Node.whole_of_skipFault rfl)

/-- The argument is sound. -/
theorem wildArgument_sound : wildArgument.Sound Numeral.Taken 122 := by
  have hitems : (Node.array [.number ⟨true, [1], some [5], some 3⟩, .null] .closed).Sound
      Numeral.Taken 121 := by
    refine .array (by decide) ?_
    simp only [List.forall_mem_cons]
    exact ⟨.number _ (Numeral.fault_eq_none_of_atMost (by decide +kernel)), .null _,
      fun _ hmem => absurd hmem List.not_mem_nil⟩
  refine .object (by decide) ?_ ?_
  · simp [Quoted.plain]
  · simpa using hitems

/-- The argument of the foreign attribute may be an object that holds a fraction and null. -/
theorem export_takes_wild_argument :
    (∃ s, Snapshot.ofDocument (Json.parse heroText) = .ok s) ∧
    Snapshot.NewArguments Numeral.Taken (Json.parse heroText).root (heroDocument wildArgument) ∧
    Written (heroDocument wildArgument) wildText ∧
    (∃ s', Snapshot.ofDocument (Json.parse wildText) = .ok s') ∧
    Generation.ofDocument (Json.parse wildText) = Generation.ofDocument (Json.parse heroText) := by
  obtain ⟨s, hs⟩ := exists_ofDocument_heroText
  have hchange : Snapshot.NewArguments Numeral.Taken (Json.parse heroText).root
      (heroDocument wildArgument) := by
    rw [parse_heroText]
    exact heroDocument_newArguments _ wildArgument_sound
  obtain ⟨-, hreplaced⟩ := foreign_arguments_never_matter hs
  exact ⟨⟨s, hs⟩, hchange, written_wildText, hreplaced _ _ hchange written_wildText⟩

/-- The number 1.7976931348623157e308, which is less than the largest floating-point number. -/
def largeNumeral : Numeral :=
  ⟨false, [1, 7, 9, 7, 6, 9, 3, 1, 3, 4, 8, 6, 2, 3, 1, 5, 7, 0, 0, 0], none, some 289⟩

/-- The document with that number as the argument. -/
def largeText : String :=
  "\x7b\"types\":[[\"Node\",\"Godot\"],[\"Resource\",\"Godot\"],\x7b\"name\":\"Hero\",\"attributes\":[[\"Export\",[17976931348623157000e289]]]\x7d]\x7d"

/-- Spelled with enough digits a number below the largest floating-point number is refused, also as
an argument of a foreign attribute. -/
theorem number_in_range_is_refused :
    (∃ s, Snapshot.ofDocument (Json.parse heroText) = .ok s) ∧
    Snapshot.NewArguments (Numeral.AtMost largestDouble) (Json.parse heroText).root
      (heroDocument (.number largeNumeral)) ∧
    Written (heroDocument (.number largeNumeral)) largeText ∧
    Snapshot.ofDocument (Json.parse largeText) = .error .malformed := by
  have hparse : Json.parse largeText = ⟨heroDocument (.number largeNumeral), false⟩ := by cbv
  have hrange : largeNumeral.AtMost largestDouble := by decide +kernel
  refine ⟨exists_ofDocument_heroText, ?_, written_of_parse hparse (Node.whole_of_skipFault rfl), ?_⟩
  · rw [parse_heroText]
    exact heroDocument_newArguments _ (.number _ hrange)
  · rw [hparse]
    decide +kernel

end SceneWiring
