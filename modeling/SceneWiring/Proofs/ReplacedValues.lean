import SceneWiring.Proofs.SnapshotLayouts
/-!
# Reading values that have been replaced

In a record some values are replaced by others, field by field, while its keys and the values under
other keys stay. Main statement: where every field can still be read, and gives the same to those who
look at a part of it only, the record is read again and gives the same part.
-/

namespace SceneWiring.Json

/-! ## Records with new values -/

/-- What may stand in place of the value of a field, for some fields. -/
abbrev Changes := List (String × (Node → Node → Prop))

/-- What may stand in place of the value under a key: nothing else, when the key is not listed. -/
def Changes.under (changes : Changes) (key : String) : Node → Node → Prop :=
  (changes.lookup key).getD Eq

/-- The records have the same keys, or as many items, and the values of the second may stand in
place of those of the first. -/
inductive FieldWise (names : List String) (changes : Changes) : Node → Node → Prop
  | object {given given' : List (Quoted × Node)}
    (h : List.Forall₂ (fun e e' => e'.1 = e.1 ∧
      ∀ key, e.1.content = .ok key → changes.under key e.2 e'.2) given given') :
    FieldWise names changes (.object given .closed) (.object given' .closed)
  | array {items items' : List Node} (hlength : items'.length = items.length)
    (h : List.Forall₂ (fun e e' => e'.1 = e.1 ∧ changes.under e.1 e.2 e'.2)
      (names.zip items) (names.zip items')) :
    FieldWise names changes (.array items .closed) (.array items' .closed)

/-- The records are the same, or some values of the first are replaced. -/
def Changed (names : List String) (changes : Changes) (a b : Node) : Prop :=
  a = b ∨ FieldWise names changes a b

section

variable {names : List String} {changes : Changes} {a b : Node}

/-- The values under a key are replaced one by one. -/
theorem forall₂_valuesUnder {given given' : List (Quoted × Node)}
    (h : List.Forall₂ (fun e e' => e'.1 = e.1 ∧
      ∀ key, e.1.content = .ok key → changes.under key e.2 e'.2) given given') (name : String) :
    List.Forall₂ (changes.under name) (valuesUnder name given) (valuesUnder name given') := by
  induction h with
  | nil => exact .nil
  | @cons e e' given given' hentry _ ih =>
    obtain ⟨key, value⟩ := e
    obtain ⟨key', value'⟩ := e'
    obtain ⟨rfl, hvalue⟩ := hentry
    cases hkey : key'.content with
    | error fault => simpa [valuesUnder, hkey] using ih
    | ok content =>
      rw [valuesUnder_cons hkey, valuesUnder_cons hkey]
      split
      · rename_i hname
        exact .cons (hvalue name (hname ▸ hkey)) ih
      · exact ih

/-- The value at a name is replaced. -/
theorem lookup_rel {entries entries' : List (String × Node)}
    (h : List.Forall₂ (fun e e' => e'.1 = e.1 ∧ changes.under e.1 e.2 e'.2) entries entries')
    (name : String) :
    Option.Rel (changes.under name) (entries.lookup name) (entries'.lookup name) := by
  induction h with
  | nil => exact .none
  | @cons e e' entries entries' hentry _ ih =>
    obtain ⟨key, value⟩ := e
    obtain ⟨key', value'⟩ := e'
    obtain ⟨rfl, hvalue⟩ := hentry
    rw [List.lookup_cons, List.lookup_cons]
    cases hname : name == key' with
    | true => exact .some (beq_iff_eq.1 hname ▸ hvalue)
    | false => exact ih

/-- What holds of all elements of a list holds of those that take their places. -/
theorem forall_mem_of_forall₂ {α β : Type} {R : α → β → Prop} {P : α → Prop} {Q : β → Prop}
    {xs : List α} {ys : List β} (h : List.Forall₂ R xs ys) (hR : ∀ x y, R x y → P x → Q y)
    (hP : ∀ x ∈ xs, P x) : ∀ y ∈ ys, Q y := by
  induction h with
  | nil => exact fun _ hmem => absurd hmem List.not_mem_nil
  | cons hhead _ ih =>
    obtain ⟨hfirst, hrest⟩ := List.forall_mem_cons.1 hP
    exact List.forall_mem_cons.2 ⟨hR _ _ hhead hfirst, ih hrest⟩

/-- A key that is not listed keeps its value. -/
theorem Changes.under_eq_of_notMem {key : String} (h : ∀ change ∈ changes, change.1 ≠ key) :
    changes.under key = Eq := by
  have hlookup : changes.lookup key = none :=
    List.lookup_eq_none_iff.2 fun change hchange => bne_iff_ne.2 (h change hchange).symm
  rw [Changes.under, hlookup, Option.getD_none]

namespace FieldWise

/-- Each field keeps its value or has a new one that may stand in its place. -/
theorem field?_rel (h : FieldWise names changes a b) (name : String) :
    Option.Rel (changes.under name) (a.field? names name) (b.field? names name) := by
  cases h with
  | @object given given' h =>
    have hvalues := forall₂_valuesUnder h name
    rw [Node.field?, Node.field?]
    generalize valuesUnder name given = values at hvalues
    generalize valuesUnder name given' = values' at hvalues
    cases hvalues with
    | nil => exact .none
    | cons hvalue _ => exact .some hvalue
  | array _ h => exact lookup_rel h name

/-- The form of the record stays the same. -/
theorem layout (h : FieldWise names changes a b) (ha : a.Layout names) : b.Layout names := by
  cases h with
  | object h =>
    refine ⟨rfl, fun name hname => ?_⟩
    rw [← (forall₂_valuesUnder h name).length_eq]
    exact ha.2 name hname
  | array hlength _ =>
    refine ⟨rfl, ?_⟩
    rw [hlength]
    exact ha.2

/-- The keys stay the same. -/
theorem keyed (h : FieldWise names changes a b) (ha : a.Keyed) : b.Keyed := by
  cases h with
  | object h => exact forall_mem_of_forall₂ h (fun e e' hentry he => hentry.1 ▸ he) ha
  | array => trivial

/-- The values under other keys stay the same. -/
theorem extrasSkippable (h : FieldWise names changes a b)
    (hchanges : ∀ change ∈ changes, change.1 ∈ names) (ha : a.ExtrasSkippable names) :
    b.ExtrasSkippable names := by
  cases h with
  | object h =>
    refine forall_mem_of_forall₂ h (fun e e' hentry he key hkey hname => ?_) ha
    have hother : changes.under key = Eq :=
      Changes.under_eq_of_notMem fun change hchange heq => hname (heq ▸ hchanges change hchange)
    have hvalue := hentry.2 key (hentry.1 ▸ hkey)
    rw [hother] at hvalue
    rw [← hvalue]
    exact he key (hentry.1 ▸ hkey) hname
  | array => trivial

end FieldWise

/-! ## Reading what has been replaced -/

variable {α β : Type}

/-- Where a value is read, one that may stand in its place is read too, and both give the same to
those who look at a part only. -/
def Decoder.Carries (decode : Decoder α) (room : Nat) (Change : Node → Node → Prop) (part : α → β) :
    Prop :=
  ∀ a b v, Change a b → decode room a = .ok v → ∃ v', decode room b = .ok v' ∧ part v' = part v

/-- Where the value of a field is read, one that may stand in its place is read too, and both change
a record in the same way for those who look at a part only. -/
def Field.Carries (field : Field α) (room : Nat) (Change : Node → Node → Prop) (part : α → β) :
    Prop :=
  ∀ a b change, Change a b → field.read room a = .ok change → ∃ change',
    field.read room b = .ok change' ∧ ∀ r r', part r' = part r → part (change' r') = part (change r)

/-- The same value is read the same. -/
theorem carries_eq (decode : Decoder α) (room : Nat) : decode.Carries room Eq id := by
  rintro a b v rfl hv
  exact ⟨v, hv, rfl⟩

/-- A field that may be missing is carried when its decoder is and its change of the part depends on
the part of the value only. -/
theorem optionalField_carries {decode : Decoder β} {room : Nat} {Change : Node → Node → Prop}
    {part : α → α} {part' : β → β} (h : decode.Carries room Change part') {name : String}
    {set : β → α → α} (hset : ∀ v r, part (set v r) = set (part' v) (part r)) :
    (optionalField name decode set).Carries room Change part := by
  intro a b change hchange hread
  obtain ⟨v, hv, rfl⟩ := exists_of_map_eq_ok hread
  obtain ⟨v', hv', hpart⟩ := h a b v hchange hv
  refine ⟨set v', by simp [optionalField, hv', Except.map], fun r r' hr => ?_⟩
  rw [hset, hset, hpart, hr]

/-- A field that has to be given is carried alike. -/
theorem requiredField_carries {decode : Decoder β} {room : Nat} {Change : Node → Node → Prop}
    {part : α → α} {part' : β → β} (h : decode.Carries room Change part') {name : String}
    {set : β → α → α} (hset : ∀ v r, part (set v r) = set (part' v) (part r)) :
    (requiredField name decode set).Carries room Change part := by
  have hoptional : (optionalField name decode set).Carries room Change part :=
    optionalField_carries h hset
  exact hoptional

/-- The items of a list are read one by one. -/
theorem mapM_carries {decode : Decoder α} {room : Nat} {Change : Node → Node → Prop} {part : α → β}
    (hdecode : decode.Carries room Change part) {items items' : List Node}
    (h : List.Forall₂ Change items items') {values : List α}
    (hread : items.mapM (decode room) = .ok values) :
    ∃ values', items'.mapM (decode room) = .ok values' ∧ values'.map part = values.map part := by
  induction h generalizing values with
  | nil => exact ⟨values, hread, rfl⟩
  | cons hitem _ ih =>
    rw [List.mapM_cons] at hread
    obtain ⟨v, hv, hread⟩ := exists_of_bind_eq_ok hread
    obtain ⟨more, hmore, hread⟩ := exists_of_bind_eq_ok hread
    obtain rfl := Except.ok.inj hread
    obtain ⟨v', hv', hpart⟩ := hdecode _ _ v hitem hv
    obtain ⟨more', hmore', hparts⟩ := ih hmore
    refine ⟨v' :: more', ?_, by rw [List.map_cons, List.map_cons, hpart, hparts]⟩
    rw [List.mapM_cons]
    exact bind_eq_ok_iff.2 ⟨v', hv', bind_eq_ok_iff.2 ⟨more', hmore', rfl⟩⟩

/-- A list is read where its items are. -/
theorem list_carries {decode : Decoder α} {room : Nat} {Change : Node → Node → Prop} {part : α → β}
    (hdecode : decode.Carries (room - 1) Change part) :
    (Decoder.list decode).Carries room (AlikeList Change) (List.map part) := by
  rintro a b values (rfl | ⟨items, items', rfl, rfl, hitems⟩) hread
  · exact ⟨values, hread, rfl⟩
  · obtain ⟨inner, hinner, hread⟩ := exists_of_bind_eq_ok hread
    obtain ⟨hroom, rfl⟩ := enter_eq_ok_iff.1 hinner
    obtain ⟨values', hvalues, hread⟩ := exists_of_bind_eq_ok hread
    obtain rfl := Except.ok.inj hread
    obtain ⟨values'', hvalues', hpart⟩ := mapM_carries hdecode hitems hvalues
    exact ⟨values'', bind_eq_ok_iff.2 ⟨_, hinner, bind_eq_ok_iff.2 ⟨_, hvalues', rfl⟩⟩, hpart⟩

variable {fields : List (Field α)} {room : Nat} {part : α → β}

/-- The fields of a record are read one by one. -/
theorem buildRecord_carries
    (hfields : ∀ field ∈ fields, field.Carries room (changes.under field.name) part)
    {given? given?' : String → Option Node}
    (hgiven : ∀ name, Option.Rel (changes.under name) (given? name) (given?' name))
    {record record' result : α} (hrecord : part record' = part record)
    (hbuild : buildRecord room given? fields record = some result) :
    ∃ result', buildRecord room given?' fields record' = some result' ∧
      part result' = part result := by
  induction fields generalizing record record' with
  | nil =>
    obtain rfl := Option.some.inj hbuild
    exact ⟨record', rfl, hrecord⟩
  | cons field fields ih =>
    obtain ⟨hfield, hothers⟩ := List.forall_mem_cons.1 hfields
    have hvalue := hgiven field.name
    rw [buildRecord] at hbuild ⊢
    generalize given? field.name = node? at hvalue hbuild
    generalize given?' field.name = node?' at hvalue
    cases hvalue with
    | none => exact ih hothers hrecord hbuild
    | @some node node' hchange =>
      obtain ⟨change, hread, hbuild⟩ := Option.bind_eq_some_iff.1 hbuild
      obtain ⟨change', hread', hpart⟩ :=
        hfield node node' change hchange (toOption_eq_some_iff.1 hread)
      obtain ⟨result', hresult', hsame⟩ := ih hothers (hpart record record' hrecord) hbuild
      refine ⟨result', ?_, hsame⟩
      exact Option.bind_eq_some_iff.2 ⟨change', toOption_eq_some_iff.2 hread', hresult'⟩

/-- A record is read where its fields are. -/
theorem record_carries (hindependent : Independent fields) {initial : α}
    (hchanges : ∀ change ∈ changes, change.1 ∈ fieldNames fields)
    (hfields : ∀ field ∈ fields, field.Carries (room - 1) (changes.under field.name) part) :
    (Decoder.record initial fields).Carries room (Changed (fieldNames fields) changes) part := by
  rintro a b v (rfl | hfieldWise) hread
  · exact ⟨v, hread, rfl⟩
  obtain ⟨hroom, hlayout, hkeyed, hextras, hcomplete, hbuild⟩ :=
    (record_eq_ok_iff hindependent).1 hread
  obtain ⟨v', hbuild', hpart⟩ := buildRecord_carries hfields hfieldWise.field?_rel rfl hbuild
  refine ⟨v', (record_eq_ok_iff hindependent).2 ⟨hroom, hfieldWise.layout hlayout,
    hfieldWise.keyed hkeyed, hfieldWise.extrasSkippable hchanges hextras, ?_, hbuild'⟩, hpart⟩
  intro field hfield hrequired (hmissing : b.field? (fieldNames fields) field.name = none)
  have hvalue := hfieldWise.field?_rel field.name
  rw [hmissing] at hvalue
  cases hgiven : a.field? (fieldNames fields) field.name with
  | none => exact hcomplete field hfield hrequired hgiven
  | some node =>
    rw [hgiven] at hvalue
    cases hvalue

/-- What every change of a record keeps holds of the record in the end. -/
theorem buildRecord_keeps {P : α → Prop} {given? : String → Option Node}
    (hfields : ∀ field ∈ fields, ∀ node change, field.read room node = .ok change →
      ∀ record, P record → P (change record))
    {record result : α} (hrecord : P record)
    (hbuild : buildRecord room given? fields record = some result) : P result := by
  induction fields generalizing record with
  | nil =>
    obtain rfl := Option.some.inj hbuild
    exact hrecord
  | cons field fields ih =>
    obtain ⟨hfield, hothers⟩ := List.forall_mem_cons.1 hfields
    rw [buildRecord] at hbuild
    split at hbuild
    · obtain ⟨change, hread, hbuild⟩ := Option.bind_eq_some_iff.1 hbuild
      exact ih hothers (hfield _ change (toOption_eq_some_iff.1 hread) record hrecord) hbuild
    · exact ih hothers hrecord hbuild

end

end SceneWiring.Json
