import Mathlib.Data.List.Forall2
import SceneWiring.Proofs.EntryMaps
/-!
# Layouts of a snapshot

A document can be laid out in many ways: blanks between its parts, the fields of a record in any
order or as an array, keys that nobody reads, fields that are left out because they hold what they
hold anyway. For each record there is a table of its fields, with the value that stands for a field
left out; two documents say the same when their records agree field by field. Main statement: of two
texts that say the same, either both are refused or both are read as the same snapshot.
-/

namespace SceneWiring

open Json

/-! ## Saying the same -/

/-- A field of a record: its name, the value that stands for it when it is left out, and when two
values of it say the same. -/
structure Rule where
  /-- The key of the field. -/
  name : String
  /-- The value of a field that is left out. A field without it has to be given. -/
  default? : Option Node
  /-- The values say the same. -/
  Alike : Node → Node → Prop

/-- A field whose values say the same only when they are the same. -/
def Rule.plain (name : String) (default? : Option Node) : Rule := ⟨name, default?, Eq⟩

/-- Two records agree: they are the same, or both are objects or arrays of the fields that agree
field by field, whatever other keys the objects hold. A key that is no text is no key at all. -/
def AlikeRecord (rules : List Rule) (a b : Node) : Prop :=
  let names := rules.map (·.name)
  a = b ∨ a.Layout names ∧ b.Layout names ∧ (a.Keyed ↔ b.Keyed) ∧
    ∀ rule ∈ rules, Option.Rel rule.Alike ((a.field? names rule.name).or rule.default?)
      ((b.field? names rule.name).or rule.default?)

/-- Two lists agree item by item. -/
def AlikeList (Alike : Node → Node → Prop) (a b : Node) : Prop :=
  a = b ∨ ∃ items items', a = .array items .closed ∧ b = .array items' .closed ∧
    List.Forall₂ Alike items items'

/-- Two objects hold the same entries in any order, and no key twice. -/
def AlikeEntries (a b : Node) : Prop :=
  a = b ∨ ∃ entries entries', a = .object entries .closed ∧ b = .object entries' .closed ∧
    entries.Perm entries' ∧
    entries.Pairwise fun e f => ∀ key, e.1.content = .ok key → f.1.content ≠ .ok key

/-- The value is a word, as a text or as the key of null. -/
def SaysWord (word : String) : Node → Prop
  | .text q => q.content = .ok word
  | .object [(key, .null)] .closed => key.content = .ok word
  | _ => False

/-- Two values are the same word. -/
def AlikeWord (a b : Node) : Prop := a = b ∨ ∃ word, SaysWord word a ∧ SaysWord word b

/-- A text without faults. -/
def textNode (content : String) : Node := .text (.plain content)

/-- The number zero. -/
def zeroNode : Node := .number ⟨false, [0], none, none⟩

/-- The array without items. -/
def emptyArray : Node := .array [] .closed

/-- The object without fields. -/
def emptyObject : Node := .object [] .closed

/-- The fields of a location. -/
def Location.rules : List Rule :=
  [.plain "file" (textNode ""), .plain "line" zeroNode, .plain "column" zeroNode]

/-- The fields of an attribute. -/
def Attribute.rules : List Rule :=
  [.plain "name" none, .plain "args" emptyArray, ⟨"named", emptyObject, AlikeEntries⟩,
   ⟨"location", emptyObject, AlikeRecord Location.rules⟩]

/-- The fields of a type parameter. -/
def TypeParameter.rules : List Rule := [.plain "name" none, .plain "constraints" emptyArray]

/-- The fields of a field or property. -/
def Member.rules : List Rule :=
  [.plain "name" none, .plain "type" none, .plain "static" (Node.bool false),
   .plain "readonly" (Node.bool false), .plain "implicit" (Node.bool false),
   ⟨"attributes", emptyArray, AlikeList (AlikeRecord Attribute.rules)⟩,
   ⟨"location", emptyObject, AlikeRecord Location.rules⟩]

/-- The fields of a parameter. -/
def Parameter.rules : List Rule := [.plain "name" none, .plain "type" none]

/-- The fields of a method. -/
def Method.rules : List Rule :=
  [.plain "name" none, ⟨"params", emptyArray, AlikeList (AlikeRecord Parameter.rules)⟩,
   .plain "static" (Node.bool false),
   ⟨"attributes", emptyArray, AlikeList (AlikeRecord Attribute.rules)⟩,
   ⟨"location", emptyObject, AlikeRecord Location.rules⟩]

/-- The fields of a type declaration. -/
def TypeDecl.rules : List Rule :=
  [.plain "name" none, .plain "namespace" Node.null, .plain "nested_in" Node.null,
   ⟨"kind", textNode "class", AlikeWord⟩, .plain "base" Node.null,
   .plain "interfaces" emptyArray,
   ⟨"type_params", emptyArray, AlikeList (AlikeRecord TypeParameter.rules)⟩,
   ⟨"attributes", emptyArray, AlikeList (AlikeRecord Attribute.rules)⟩,
   ⟨"fields", emptyArray, AlikeList (AlikeRecord Member.rules)⟩,
   ⟨"properties", emptyArray, AlikeList (AlikeRecord Member.rules)⟩,
   ⟨"methods", emptyArray, AlikeList (AlikeRecord Method.rules)⟩,
   ⟨"location", emptyObject, AlikeRecord Location.rules⟩]

/-- The fields of a mention. -/
def Mention.rules : List Rule :=
  [.plain "name" none, ⟨"location", emptyObject, AlikeRecord Location.rules⟩]

/-- The fields of settings. -/
def Config.rules : List Rule :=
  [.plain "node_type" (textNode "Godot.Node"), .plain "resource_type" (textNode "Godot.Resource"),
   .plain "usings" (Node.array [textNode "Godot", textNode "System"] .closed),
   .plain "lifecycle_method" (textNode "_Ready"),
   .plain "editor_hint" (textNode "Engine.EditorHint"),
   .plain "header" (textNode "// <auto-generated />")]

/-- The fields of a snapshot. -/
def Snapshot.rules : List Rule :=
  [⟨"types", emptyArray, AlikeList (AlikeRecord TypeDecl.rules)⟩,
   ⟨"classes", emptyArray, AlikeList (AlikeRecord Mention.rules)⟩,
   ⟨"config", emptyObject, AlikeRecord Config.rules⟩]

/-- Two documents describe the same snapshot. -/
def Snapshot.Alike (a b : Node) : Prop := AlikeRecord Snapshot.rules a b

/-! ## Reading the same -/

section

variable {α β : Type}

/-- The decoder gives the same for values that say the same and can be skipped. -/
def Json.Decoder.Respects (decode : Decoder α) (room : Nat) (Alike : Node → Node → Prop) : Prop :=
  ∀ a b, Alike a b → a.skipFault = none → b.skipFault = none →
    (decode room a).toOption = (decode room b).toOption

/-- Every decoder gives the same for the same value. -/
theorem respects_eq (decode : Decoder α) (room : Nat) : decode.Respects room Eq := by
  rintro a b rfl _ _
  rfl

/-- Two results that agree on what is there agree. -/
theorem toOption_eq_of_iff {x y : Except Fault α} (h : ∀ v, x = .ok v ↔ y = .ok v) :
    x.toOption = y.toOption := by
  refine Option.ext fun v => ?_
  rw [toOption_eq_some_iff, toOption_eq_some_iff]
  exact h v

/-- Of two results in a row, what is there is there in both. -/
theorem toOption_bind (x : Except Fault α) (f : α → Except Fault β) :
    (x >>= f).toOption = x.toOption.bind fun a => (f a).toOption := by
  cases x <;> rfl

/-- A value that is changed on its way is there when it was. -/
theorem toOption_map (x : Except Fault α) (f : α → β) : (x.map f).toOption = x.toOption.map f := by
  cases x <;> rfl

/-- The items of two lists that agree item by item are read the same. -/
theorem mapM_toOption {decode : Decoder α} {room : Nat} {Alike : Node → Node → Prop}
    (hdecode : decode.Respects room Alike) {items items' : List Node}
    (h : List.Forall₂ Alike items items') (hskip : ∀ item ∈ items, item.skipFault = none)
    (hskip' : ∀ item ∈ items', item.skipFault = none) :
    (items.mapM (decode room)).toOption = (items'.mapM (decode room)).toOption := by
  induction h with
  | nil => rfl
  | cons hitem _ ih =>
    obtain ⟨hfirst, hrest⟩ := List.forall_mem_cons.1 hskip
    obtain ⟨hfirst', hrest'⟩ := List.forall_mem_cons.1 hskip'
    have hsame := hdecode _ _ hitem hfirst hfirst'
    rw [List.mapM_cons, List.mapM_cons, toOption_bind, toOption_bind, hsame]
    refine Option.bind_congr fun value _ => ?_
    rw [toOption_bind, toOption_bind, ih hrest hrest']

/-- A list is read like every list that says the same. -/
theorem list_respects {decode : Decoder α} {room : Nat} {Alike : Node → Node → Prop}
    (hdecode : decode.Respects (room - 1) Alike) :
    (Decoder.list decode).Respects room (AlikeList Alike) := by
  rintro a b (rfl | ⟨items, items', rfl, rfl, hitems⟩) ha hb
  · rfl
  · rw [Node.skipFault, skipItems_eq_none] at ha hb
    rw [Decoder.list, Decoder.list, toOption_bind, toOption_bind]
    refine Option.bind_congr fun inner hinner => ?_
    obtain ⟨-, rfl⟩ := enter_eq_ok_iff.1 (toOption_eq_some_iff.1 hinner)
    rw [toOption_bind, toOption_bind, mapM_toOption hdecode hitems ha.2 hb.2]

/-- The keys of two entries are not the same text. -/
def KeysDiffer (e f : Quoted × Node) : Prop := ∀ key, e.1.content = .ok key → f.1.content ≠ .ok key

/-- The entries of an object are added in any order. -/
theorem addEntries_perm (decode : Decoder α) (room : Nat) {given given' : List (Quoted × Node)}
    (h : given.Perm given') (hkeys : given.Pairwise KeysDiffer) (entries : List (String × α)) :
    (addEntries decode room entries given).toOption =
      (addEntries decode room entries given').toOption := by
  induction h generalizing entries with
  | nil => rfl
  | cons entry _ ih =>
    have hrest := ih (List.pairwise_cons.1 hkeys).2
    rw [addEntries, addEntries]
    simp only [toOption_bind, hrest]
  | swap entry entry' given =>
    have hdiffer : KeysDiffer entry' entry :=
      (List.pairwise_cons.1 hkeys).1 entry List.mem_cons_self
    simp only [addEntries, toOption_bind]
    cases hkey : entry.1.content with
    | error fault => cases entry'.1.content <;> cases decode room entry'.2 <;> rfl
    | ok key =>
      cases hkey' : entry'.1.content with
      | error fault => cases decode room entry.2 <;> rfl
      | ok key' =>
        have hne : key ≠ key' := by
          rintro rfl
          exact hdiffer key hkey' hkey
        cases decode room entry.2 with
        | error fault => cases decode room entry'.2 <;> rfl
        | ok value =>
          cases decode room entry'.2 with
          | error fault => rfl
          | ok value' =>
            simp only [Except.toOption, Option.bind_some, setKey_comm hne]
  | trans hfirst _ ih ih' =>
    have hsymm {e f : Quoted × Node} (hef : KeysDiffer e f) : KeysDiffer f e :=
      fun key hf he => hef key he hf
    rw [ih hkeys, ih' ((hfirst.pairwise_iff hsymm).1 hkeys)]

/-- The entries of an object are read like the same entries in another order. -/
theorem entries_respects (decode : Decoder α) (room : Nat) :
    (Decoder.entries decode).Respects room AlikeEntries := by
  rintro a b (rfl | ⟨given, given', rfl, rfl, hperm, hkeys⟩) _ _
  · rfl
  · rw [Decoder.entries, Decoder.entries, toOption_bind, toOption_bind]
    refine Option.bind_congr fun inner _ => ?_
    rw [toOption_bind, toOption_bind, addEntries_perm decode inner hperm hkeys]

/-- A word is read as what it means. -/
theorem choice_of_saysWord (words : List (String × α)) {room : Nat} (hroom : 1 < room)
    {word : String} {node : Node} (h : SaysWord word node) :
    (Decoder.choice words room node).toOption = words.lookup word := by
  unfold SaysWord at h
  split at h
  · simp only [Decoder.choice, h, bind, Except.bind]
    cases words.lookup word <;> rfl
  · have henter : enter room = .ok (room - 1) := enter_eq_ok_iff.2 ⟨hroom, rfl⟩
    simp only [Decoder.choice, henter, h, bind, Except.bind]
    cases words.lookup word <;> rfl
  · contradiction

/-- A word is read like every value that is the same word. -/
theorem choice_respects (words : List (String × α)) {room : Nat} (hroom : 1 < room) :
    (Decoder.choice words).Respects room AlikeWord := by
  rintro a b (rfl | ⟨word, ha, hb⟩) _ _
  · rfl
  · rw [choice_of_saysWord words hroom ha, choice_of_saysWord words hroom hb]

/-- The value stands for a field that a record holds anyway. -/
def StandsFor (room : Nat) (record : α) (field : Json.Field α) (node : Node) : Prop :=
  ∃ change, field.read room node = .ok change ∧ change record = record

/-- A field of a record follows its rule: it is required when nothing stands for it, what stands for
it sets nothing new, and values that say the same are read the same. -/
structure Rule.Governs (initial : α) (room : Nat) (rule : Rule) (field : Json.Field α) : Prop where
  /-- The names are the same. -/
  name : rule.name = field.name
  /-- A field that nothing stands for has to be given. -/
  required : rule.default? = none → field.required = true
  /-- A field that a value stands for need not be given, and the value changes nothing. -/
  default : ∀ node, rule.default? = some node → field.required = false ∧ node.skipFault = none ∧
    StandsFor room initial field node
  /-- Values that say the same are read the same. -/
  alike : ∀ a b, rule.Alike a b → a.skipFault = none → b.skipFault = none →
    (field.read room a).toOption = (field.read room b).toOption

/-- A field that has to be given follows a rule without default. -/
theorem governs_required {initial : α} {room : Nat} {name : String} {Alike : Node → Node → Prop}
    {decode : Decoder β} {set : β → α → α} (h : decode.Respects room Alike) :
    Rule.Governs initial room ⟨name, none, Alike⟩ (requiredField name decode set) where
  name := rfl
  required _ := rfl
  default _ hnode := absurd hnode.symm (Option.some_ne_none _)
  alike a b hab ha hb := by
    rw [requiredField, toOption_map, toOption_map, h a b hab ha hb]

/-- A field that may be left out follows a rule whose default is read as what the field holds
anyway. -/
theorem governs_optional {initial : α} {room : Nat} {name : String} {Alike : Node → Node → Prop}
    {decode : Decoder β} {set : β → α → α} (h : decode.Respects room Alike) {node : Node}
    (hskip : node.skipFault = none) {value : β} (hvalue : decode room node = .ok value)
    (hset : set value initial = initial) :
    Rule.Governs initial room ⟨name, some node, Alike⟩ (optionalField name decode set) where
  name := rfl
  required hnone := absurd hnone (Option.some_ne_none _)
  default given hgiven := by
    obtain rfl : node = given := Option.some.inj hgiven
    exact ⟨rfl, hskip, set value, by simp [optionalField, hvalue, Except.map], hset⟩
  alike a b hab ha hb := by
    rw [optionalField, toOption_map, toOption_map, h a b hab ha hb]

/-- What stands for a field still does after another field has been set. -/
theorem StandsFor.after {room : Nat} {record : α} {field other : Json.Field α} {node : Node}
    (h : StandsFor room record field node) (hcommutes : other.Commutes field) {value : Node}
    {change : α → α} (hchange : other.read room value = .ok change) :
    StandsFor room (change record) field node := by
  obtain ⟨change', hchange', hkeeps⟩ := h
  refine ⟨change', hchange', ?_⟩
  rw [← hcommutes room value node change change' hchange hchange', hkeeps]

/-- A field that is left out may as well be given by what stands for it. -/
theorem buildRecord_or_default {room : Nat} {record : α} {field : Json.Field α}
    {default? : Option Node}
    (hdefault : ∀ node, default? = some node → StandsFor room record field node)
    (given? : String → Option Node) (fields : List (Json.Field α)) :
    buildRecord room given? (field :: fields) record =
      ((given? field.name).or default?).elim (buildRecord room given? fields record) fun node =>
        (field.read room node).toOption.bind fun change =>
          buildRecord room given? fields (change record) := by
  cases hgiven : given? field.name with
  | some node => exact buildRecord_given hgiven fields record
  | none =>
    rw [buildRecord_missing hgiven]
    cases default? with
    | none => rfl
    | some node =>
      obtain ⟨change, hchange, hkeeps⟩ := hdefault node rfl
      simp only [Option.none_or, Option.elim_some, hchange, Except.toOption, Option.bind_some,
        hkeeps]

/-- Two ways to give a field come to the same, for a record that holds what stands for the field. -/
def GivenAlike (room : Nat) (record : α) (given? given?' : Option Node) (field : Json.Field α) :
    Prop :=
  ∃ default? : Option Node, (∀ node, default? = some node → StandsFor room record field node) ∧
    Option.Rel (fun a b => (field.read room a).toOption = (field.read room b).toOption)
      (given?.or default?) (given?'.or default?)

/-- Fields given in two ways that come to the same make the same record. -/
theorem buildRecord_alike {room : Nat} {fields : List (Json.Field α)} (hfields : Independent fields)
    {given? given?' : String → Option Node} {record : α}
    (h : ∀ field ∈ fields, GivenAlike room record (given? field.name) (given?' field.name) field) :
    buildRecord room given? fields record = buildRecord room given?' fields record := by
  induction fields generalizing record with
  | nil => rfl
  | cons field fields ih =>
    obtain ⟨hfirst, hrest⟩ := List.pairwise_cons.1 hfields
    obtain ⟨⟨default?, hdefault, hrel⟩, hothers⟩ := List.forall_mem_cons.1 h
    rw [buildRecord_or_default hdefault, buildRecord_or_default hdefault]
    generalize (given? field.name).or default? = node? at hrel ⊢
    generalize (given?' field.name).or default? = node?' at hrel ⊢
    cases hrel with
    | none => exact ih hrest hothers
    | @some node node' hsame =>
      rw [Option.elim_some, Option.elim_some, ← hsame]
      refine Option.bind_congr fun change hchange => ih hrest fun other hother => ?_
      obtain ⟨otherDefault?, hotherDefault, hotherRel⟩ := hothers other hother
      have hread : field.read room node = .ok change := toOption_eq_some_iff.1 hchange
      exact ⟨otherDefault?,
        fun value hvalue => (hotherDefault value hvalue).after (hfirst other hother).2 hread,
        hotherRel⟩

/-- A field that is given can be skipped when the record can. -/
theorem skipFault_of_field? {names : List String} {name : String} {node value : Node}
    (hskip : node.skipFault = none) (h : node.field? names name = some value) :
    value.skipFault = none := by
  cases node with
  | object given ending =>
    rw [Node.skipFault, skipFields_eq_none] at hskip
    obtain ⟨entry, hentry, rfl⟩ := List.mem_map.1 (List.mem_of_mem_head? h)
    exact hskip.2.2 entry (List.mem_of_mem_filter hentry)
  | array items ending =>
    rw [Node.skipFault, skipItems_eq_none] at hskip
    obtain ⟨front, back, hzip, -⟩ := List.lookup_eq_some_iff.1 h
    have hmem : (name, value) ∈ names.zip items := by simp [hzip]
    exact hskip.2 value (List.of_mem_zip hmem).2
  | _ => cases h

/-- The values of a record can all be skipped when the record can. -/
theorem extrasSkippable_of_skipFault {names : List String} {node : Node}
    (hskip : node.skipFault = none) : node.ExtrasSkippable names := by
  cases node with
  | object given ending =>
    rw [Node.skipFault, skipFields_eq_none] at hskip
    exact fun entry hentry _ _ _ => hskip.2.2 entry hentry
  | _ => trivial

section

variable {initial : α} {room : Nat} {rules : List Rule} {fields : List (Json.Field α)}

/-- Rules have the names of their fields. -/
theorem names_of_governs (hrules : List.Forall₂ (Rule.Governs initial room) rules fields) :
    rules.map (·.name) = fieldNames fields := by
  induction hrules with
  | nil => rfl
  | cons hrule _ ih => rw [List.map_cons, hrule.name, ih]; rfl

/-- Every field has its rule. -/
theorem exists_rule (hrules : List.Forall₂ (Rule.Governs initial room) rules fields)
    {field : Json.Field α} (hfield : field ∈ fields) :
    ∃ rule ∈ rules, rule.Governs initial room field := by
  induction hrules with
  | nil => exact absurd hfield List.not_mem_nil
  | @cons rule _ _ _ hrule _ ih =>
    rcases List.mem_cons.1 hfield with rfl | hfield
    · exact ⟨rule, List.mem_cons_self, hrule⟩
    · obtain ⟨other, hother, hgoverns⟩ := ih hfield
      exact ⟨other, List.mem_cons_of_mem rule hother, hgoverns⟩

/-- Values that say the same by a rule are read the same, whether they are given or stand for what
is left out. -/
theorem Rule.Governs.given {rule : Rule} {field : Json.Field α}
    (h : rule.Governs initial room field)
    {given? given?' : Option Node} (hskip : ∀ node, given? = some node → node.skipFault = none)
    (hskip' : ∀ node, given?' = some node → node.skipFault = none)
    (halike : Option.Rel rule.Alike (given?.or rule.default?) (given?'.or rule.default?)) :
    GivenAlike room initial given? given?' field ∧
      (field.required = true → (given? = none ↔ given?' = none)) := by
  have hor {value? : Option Node} (hvalue : ∀ node, value? = some node → node.skipFault = none)
      {node : Node} (hnode : value?.or rule.default? = some node) : node.skipFault = none := by
    rcases Option.or_eq_some_iff.1 hnode with hvalue' | ⟨-, hdefault⟩
    · exact hvalue node hvalue'
    · exact (h.default node hdefault).2.1
  constructor
  · refine ⟨rule.default?, fun node hnode => (h.default node hnode).2.2, ?_⟩
    generalize hnode : given?.or rule.default? = node? at halike ⊢
    generalize hnode' : given?'.or rule.default? = node?' at halike ⊢
    cases halike with
    | none => exact .none
    | some hab => exact .some (h.alike _ _ hab (hor hskip hnode) (hor hskip' hnode'))
  · intro hrequired
    cases hdefault : rule.default? with
    | some node =>
      rw [(h.default node hdefault).1] at hrequired
      cases hrequired
    | none =>
      rw [hdefault, Option.or_none, Option.or_none] at halike
      cases halike <;> simp

/-- A record whose fields follow their rules is read like every record that agrees with it. -/
theorem record_respects (hfields : Independent fields)
    (hrules : List.Forall₂ (Rule.Governs initial (room - 1)) rules fields) :
    (Decoder.record initial fields).Respects room (AlikeRecord rules) := by
  rintro a b (rfl | ⟨ha, hb, hkeyed, halike⟩) hskip hskip'
  · rfl
  rw [names_of_governs hrules] at ha hb halike
  have hgiven (field : Json.Field α) (hfield : field ∈ fields) :
      GivenAlike (room - 1) initial (a.field? (fieldNames fields) field.name)
        (b.field? (fieldNames fields) field.name) field ∧
      (field.required = true → (a.field? (fieldNames fields) field.name = none ↔
        b.field? (fieldNames fields) field.name = none)) := by
    obtain ⟨rule, hrule, hgoverns⟩ := exists_rule hrules hfield
    have hrel := halike rule hrule
    rw [hgoverns.name] at hrel
    exact hgoverns.given (fun _ => skipFault_of_field? hskip) (fun _ => skipFault_of_field? hskip')
      hrel
  have hcomplete : Complete fields (fun name => a.field? (fieldNames fields) name) ↔
      Complete fields (fun name => b.field? (fieldNames fields) name) :=
    forall₂_congr fun field hfield => forall_congr' fun hrequired =>
      not_congr ((hgiven field hfield).2 hrequired)
  have hbuild : buildRecord (room - 1) (fun name => a.field? (fieldNames fields) name) fields
      initial = buildRecord (room - 1) (fun name => b.field? (fieldNames fields) name) fields
      initial := buildRecord_alike hfields fun field hfield => (hgiven field hfield).1
  refine toOption_eq_of_iff fun value => ?_
  rw [record_eq_ok_iff hfields, record_eq_ok_iff hfields, hbuild, hcomplete, hkeyed]
  simp only [ha, hb, extrasSkippable_of_skipFault hskip, extrasSkippable_of_skipFault hskip']

end

end

/-- A location is read like every location that agrees with it. -/
theorem Location.decoder_respects (room : Nat) :
    Location.decoder.Respects room (AlikeRecord Location.rules) := by
  refine record_respects Location.jsonFields_independent ?_
  refine .cons (governs_optional (respects_eq _ _) rfl rfl rfl) ?_
  refine .cons (governs_optional (respects_eq _ _) rfl rfl rfl) ?_
  refine .cons (governs_optional (respects_eq _ _) rfl rfl rfl) .nil

/-- The array without items is read as the empty list. -/
theorem list_emptyArray {α : Type} (decode : Decoder α) {room : Nat} (hroom : 1 < room) :
    Decoder.list decode room emptyArray = .ok [] :=
  bind_eq_ok_iff.2 ⟨room - 1, enter_eq_ok_iff.2 ⟨hroom, rfl⟩, rfl⟩

/-- The object without fields is read as the empty map. -/
theorem entries_emptyObject {α : Type} (decode : Decoder α) {room : Nat} (hroom : 1 < room) :
    Decoder.entries decode room emptyObject = .ok [] :=
  bind_eq_ok_iff.2 ⟨room - 1, enter_eq_ok_iff.2 ⟨hroom, rfl⟩, rfl⟩

/-- The object without fields is read as the initial record, when no field has to be given. -/
theorem record_emptyObject {α : Type} {initial : α} {fields : List (Json.Field α)}
    (hfields : ∀ field ∈ fields, field.required = false) {room : Nat} (hroom : 1 < room) :
    Decoder.record initial fields room emptyObject = .ok initial := by
  refine bind_eq_ok_iff.2 ⟨room - 1, enter_eq_ok_iff.2 ⟨hroom, rfl⟩, if_neg ?_⟩
  simpa using hfields

/-- A left out location is one that says nothing. -/
theorem Location.decoder_emptyObject {room : Nat} (hroom : 1 < room) :
    Location.decoder room emptyObject = .ok {} :=
  record_emptyObject (by simp [Location.jsonFields, optionalField]) hroom

/-- An attribute is read like every attribute that agrees with it. -/
theorem Attribute.decoder_respects {room : Nat} (hroom : 2 < room) :
    Attribute.decoder.Respects room (AlikeRecord Attribute.rules) := by
  have hinner : 1 < room - 1 := by omega
  refine record_respects Attribute.jsonFields_independent ?_
  refine .cons (governs_required (respects_eq _ _)) ?_
  refine .cons (governs_optional (respects_eq _ _) rfl (list_emptyArray _ hinner) rfl) ?_
  refine .cons (governs_optional (entries_respects _ _) rfl (entries_emptyObject _ hinner) rfl) ?_
  exact .cons (governs_optional (Location.decoder_respects _) rfl
    (Location.decoder_emptyObject hinner) rfl) .nil

/-- A type parameter is read like every type parameter that agrees with it. -/
theorem TypeParameter.decoder_respects {room : Nat} (hroom : 2 < room) :
    TypeParameter.decoder.Respects room (AlikeRecord TypeParameter.rules) := by
  have hinner : 1 < room - 1 := by omega
  refine record_respects TypeParameter.jsonFields_independent ?_
  refine .cons (governs_required (respects_eq _ _)) ?_
  exact .cons (governs_optional (respects_eq _ _) rfl (list_emptyArray _ hinner) rfl) .nil

/-- A field or property is read like every field or property that agrees with it. -/
theorem Member.decoder_respects {room : Nat} (hroom : 4 < room) :
    Member.decoder.Respects room (AlikeRecord Member.rules) := by
  have hinner : 1 < room - 1 := by omega
  have hattribute : 2 < room - 1 - 1 := by omega
  refine record_respects Member.jsonFields_independent ?_
  refine .cons (governs_required (respects_eq _ _)) ?_
  refine .cons (governs_required (respects_eq _ _)) ?_
  refine .cons (governs_optional (respects_eq _ _) rfl rfl rfl) ?_
  refine .cons (governs_optional (respects_eq _ _) rfl rfl rfl) ?_
  refine .cons (governs_optional (respects_eq _ _) rfl rfl rfl) ?_
  refine .cons (governs_optional (list_respects (Attribute.decoder_respects hattribute)) rfl
    (list_emptyArray _ hinner) rfl) ?_
  exact .cons (governs_optional (Location.decoder_respects _) rfl
    (Location.decoder_emptyObject hinner) rfl) .nil

/-- A parameter is read like every parameter that agrees with it. -/
theorem Parameter.decoder_respects (room : Nat) :
    Parameter.decoder.Respects room (AlikeRecord Parameter.rules) := by
  refine record_respects Parameter.jsonFields_independent ?_
  refine .cons (governs_required (respects_eq _ _)) ?_
  exact .cons (governs_required (respects_eq _ _)) .nil

/-- A method is read like every method that agrees with it. -/
theorem Method.decoder_respects {room : Nat} (hroom : 4 < room) :
    Method.decoder.Respects room (AlikeRecord Method.rules) := by
  have hinner : 1 < room - 1 := by omega
  have hattribute : 2 < room - 1 - 1 := by omega
  refine record_respects Method.jsonFields_independent ?_
  refine .cons (governs_required (respects_eq _ _)) ?_
  refine .cons (governs_optional (list_respects (Parameter.decoder_respects _)) rfl
    (list_emptyArray _ hinner) rfl) ?_
  refine .cons (governs_optional (respects_eq _ _) rfl rfl rfl) ?_
  refine .cons (governs_optional (list_respects (Attribute.decoder_respects hattribute)) rfl
    (list_emptyArray _ hinner) rfl) ?_
  exact .cons (governs_optional (Location.decoder_respects _) rfl
    (Location.decoder_emptyObject hinner) rfl) .nil

/-- A type declaration is read like every type declaration that agrees with it. -/
theorem TypeDecl.decoder_respects {room : Nat} (hroom : 6 < room) :
    TypeDecl.decoder.Respects room (AlikeRecord TypeDecl.rules) := by
  have hinner : 1 < room - 1 := by omega
  have hitem : 2 < room - 1 - 1 := by omega
  have hmember : 4 < room - 1 - 1 := by omega
  refine record_respects TypeDecl.jsonFields_independent ?_
  refine .cons (governs_required (respects_eq _ _)) ?_
  refine .cons (governs_optional (respects_eq _ _) rfl rfl rfl) ?_
  refine .cons (governs_optional (respects_eq _ _) rfl rfl rfl) ?_
  refine .cons (governs_optional (choice_respects _ hinner) rfl rfl rfl) ?_
  refine .cons (governs_optional (respects_eq _ _) rfl rfl rfl) ?_
  refine .cons (governs_optional (respects_eq _ _) rfl (list_emptyArray _ hinner) rfl) ?_
  refine .cons (governs_optional (list_respects (TypeParameter.decoder_respects hitem)) rfl
    (list_emptyArray _ hinner) rfl) ?_
  refine .cons (governs_optional (list_respects (Attribute.decoder_respects hitem)) rfl
    (list_emptyArray _ hinner) rfl) ?_
  refine .cons (governs_optional (list_respects (Member.decoder_respects hmember)) rfl
    (list_emptyArray _ hinner) rfl) ?_
  refine .cons (governs_optional (list_respects (Member.decoder_respects hmember)) rfl
    (list_emptyArray _ hinner) rfl) ?_
  refine .cons (governs_optional (list_respects (Method.decoder_respects hmember)) rfl
    (list_emptyArray _ hinner) rfl) ?_
  exact .cons (governs_optional (Location.decoder_respects _) rfl
    (Location.decoder_emptyObject hinner) rfl) .nil

/-- A mention is read like every mention that agrees with it. -/
theorem Mention.decoder_respects {room : Nat} (hroom : 2 < room) :
    Mention.decoder.Respects room (AlikeRecord Mention.rules) := by
  have hinner : 1 < room - 1 := by omega
  refine record_respects Mention.jsonFields_independent ?_
  refine .cons (governs_required (respects_eq _ _)) ?_
  exact .cons (governs_optional (Location.decoder_respects _) rfl
    (Location.decoder_emptyObject hinner) rfl) .nil

/-- Settings are read like all settings that agree with them. -/
theorem Config.decoder_respects {room : Nat} (hroom : 2 < room) :
    Config.decoder.Respects room (AlikeRecord Config.rules) := by
  have hinner : enter (room - 1) = .ok (room - 1 - 1) := enter_eq_ok_iff.2 ⟨by omega, rfl⟩
  have husings : Decoder.list Decoder.text (room - 1)
      (.array [textNode "Godot", textNode "System"] .closed) = .ok ["Godot", "System"] :=
    bind_eq_ok_iff.2 ⟨_, hinner, rfl⟩
  refine record_respects Config.jsonFields_independent ?_
  refine .cons (governs_optional (respects_eq _ _) rfl rfl rfl) ?_
  refine .cons (governs_optional (respects_eq _ _) rfl rfl rfl) ?_
  refine .cons (governs_optional (respects_eq _ _) rfl husings rfl) ?_
  refine .cons (governs_optional (respects_eq _ _) rfl rfl rfl) ?_
  refine .cons (governs_optional (respects_eq _ _) rfl rfl rfl) ?_
  exact .cons (governs_optional (respects_eq _ _) rfl rfl rfl) .nil

/-- A snapshot is read like every snapshot that agrees with it. -/
theorem Snapshot.decoder_respects {room : Nat} (hroom : 8 < room) :
    Snapshot.decoder.Respects room (AlikeRecord Snapshot.rules) := by
  have hinner : 1 < room - 1 := by omega
  have hdecl : 6 < room - 1 - 1 := by omega
  have hmention : 2 < room - 1 - 1 := by omega
  have hconfig : 2 < room - 1 := by omega
  refine record_respects Snapshot.jsonFields_independent ?_
  refine .cons (governs_optional (list_respects (TypeDecl.decoder_respects hdecl)) rfl
    (list_emptyArray _ hinner) rfl) ?_
  refine .cons (governs_optional (list_respects (Mention.decoder_respects hmention)) rfl
    (list_emptyArray _ hinner) rfl) ?_
  exact .cons (governs_optional (Config.decoder_respects hconfig) rfl
    (record_emptyObject (by simp [Config.jsonFields, optionalField]) hinner) rfl) .nil

/-- What is there is there in both of two results, or both are faults. -/
theorem ok_or_error_of_toOption {α : Type} {x y : Except Fault α} (h : x.toOption = y.toOption) :
    (∃ v, x = .ok v ∧ y = .ok v) ∨ ∃ fault fault', x = .error fault ∧ y = .error fault' := by
  cases x with
  | ok v => exact .inl ⟨v, rfl, toOption_eq_some_iff.1 h.symm⟩
  | error fault =>
    cases y with
    | ok v => cases h
    | error fault' => exact .inr ⟨fault, fault', rfl, rfl⟩

end SceneWiring
