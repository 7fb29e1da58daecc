import SceneWiring.Proofs.Accepting
/-!
# How records are read

A record is an object that names each field at most once, in any order and among other keys, or an
array of its first fields. The fields change different parts of a record, so the order in which they
are given does not matter. Main statement: a record is read exactly when it has one of the two forms,
names every required field and each value given can be read; the outcome is what the values given
make of the initial record, taken in the order of the fields.
-/

namespace SceneWiring.Json

/-! ## The values given in a record -/

/-- The value of a field in a record: under its key, or at its position. -/
def Node.field? (names : List String) (name : String) : Node → Option Node
  | .object given _ => (valuesUnder name given).head?
  | .array items _ => (names.zip items).lookup name
  | _ => none

/-- An object that names no field twice, or an array of no more than the fields. -/
def Node.Layout (names : List String) : Node → Prop
  | .object given ending =>
    ending = .closed ∧ ∀ name ∈ names, (valuesUnder name given).length ≤ 1
  | .array items ending => ending = .closed ∧ items.length ≤ names.length
  | _ => False

/-- Every key is a text. -/
def Node.Keyed : Node → Prop
  | .object given _ => ∀ entry ∈ given, ∃ key, entry.1.content = .ok key
  | _ => True

/-- The values under keys that name no field can be skipped. -/
def Node.ExtrasSkippable (names : List String) : Node → Prop
  | .object given _ =>
    ∀ entry ∈ given, ∀ key, entry.1.content = .ok key → key ∉ names → entry.2.skipFault = none
  | _ => True

/-- A value under its key is found there. -/
theorem valuesUnder_cons {key : Quoted} {content : String} (hkey : key.content = .ok content)
    (node : Node) (given : List (Quoted × Node)) (name : String) :
    valuesUnder name ((key, node) :: given) =
      if content = name then node :: valuesUnder name given else valuesUnder name given := by
  by_cases hname : content = name
  · simp [valuesUnder, hkey, hname]
  · simp [valuesUnder, hkey, hname]

/-- A result counts when it is there. -/
theorem toOption_eq_some_iff {ε α : Type} {x : Except ε α} {a : α} :
    x.toOption = some a ↔ x = .ok a := by
  cases x with
  | ok b => exact ⟨fun h => congrArg Except.ok (Option.some.inj h), fun h => by rw [h]; rfl⟩
  | error e => constructor <;> intro h <;> cases h

/-! ## Independent fields -/

section

variable {α : Type}

/-- The changes that two fields make to a record do not meet. -/
def Field.Commutes (f g : Field α) : Prop :=
  ∀ room x y change change', f.read room x = .ok change → g.read room y = .ok change' →
    ∀ record, change (change' record) = change' (change record)

/-- The fields have different names and change different parts of a record. -/
def Independent (fields : List (Field α)) : Prop :=
  fields.Pairwise fun f g => f.name ≠ g.name ∧ f.Commutes g

/-- The names of the fields, in order. -/
def fieldNames (fields : List (Field α)) : List String := fields.map (·.name)

/-- Fields that set parts which can be set in either order make changes that do not meet. -/
theorem commutes_of_set {β γ : Type} {f g : Field α} {decode : Decoder β} {decode' : Decoder γ}
    {set : β → α → α} {set' : γ → α → α}
    (hf : f.read = fun room node => (decode room node).map set)
    (hg : g.read = fun room node => (decode' room node).map set')
    (h : ∀ u v record, set u (set' v record) = set' v (set u record)) : f.Commutes g := by
  intro room x y change change' hx hy record
  rw [hf] at hx
  rw [hg] at hy
  obtain ⟨u, -, rfl⟩ := exists_of_map_eq_ok hx
  obtain ⟨v, -, rfl⟩ := exists_of_map_eq_ok hy
  exact h u v record

/-- The name of a field that may be missing. -/
@[simp] theorem optionalField_name {β : Type} (name : String) (decode : Decoder β)
    (set : β → α → α) : (optionalField name decode set).name = name := rfl

/-- The name of a field that has to be given. -/
@[simp] theorem requiredField_name {β : Type} (name : String) (decode : Decoder β)
    (set : β → α → α) : (requiredField name decode set).name = name := rfl

/-- The record that the values given make of another one, field by field in order. -/
def buildRecord (room : Nat) (value? : String → Option Node) : List (Field α) → α → Option α
  | [], record => some record
  | field :: fields, record =>
    match value? field.name with
    | some node =>
      (field.read room node).toOption.bind fun change =>
        buildRecord room value? fields (change record)
    | none => buildRecord room value? fields record

/-- A value that is given makes its change before the other fields. -/
theorem buildRecord_given {room : Nat} {value? : String → Option Node} {field : Field α}
    {node : Node} (h : value? field.name = some node) (fields : List (Field α)) (record : α) :
    buildRecord room value? (field :: fields) record =
      (field.read room node).toOption.bind fun change =>
        buildRecord room value? fields (change record) := by
  rw [buildRecord, h]

/-- A field that is not given makes no change. -/
theorem buildRecord_missing {room : Nat} {value? : String → Option Node} {field : Field α}
    (h : value? field.name = none) (fields : List (Field α)) (record : α) :
    buildRecord room value? (field :: fields) record = buildRecord room value? fields record := by
  rw [buildRecord, h]

/-- Every required field is given. -/
def Complete (fields : List (Field α)) (value? : String → Option Node) : Prop :=
  ∀ field ∈ fields, field.required = true → value? field.name ≠ none

variable {fields : List (Field α)} {room : Nat}

/-- Only the values of the fields matter. -/
theorem buildRecord_congr {value? value?' : String → Option Node}
    (h : ∀ name ∈ fieldNames fields, value? name = value?' name) (record : α) :
    buildRecord room value? fields record = buildRecord room value?' fields record := by
  induction fields generalizing record with
  | nil => rfl
  | cons field fields ih =>
    obtain ⟨hfield, hothers⟩ := List.forall_mem_cons.1 h
    rw [buildRecord, buildRecord, hfield]
    cases value?' field.name with
    | none => exact ih hothers record
    | some node => exact Option.bind_congr fun change _ => ih hothers (change record)

/-- One more value can as well be taken first. -/
theorem buildRecord_insert (hfields : Independent fields) {field : Field α} (hmem : field ∈ fields)
    {value? value?' : String → Option Node} {node : Node} {change : α → α}
    (hnode : value? field.name = some node) (hnone : value?' field.name = none)
    (hsame : ∀ name, name ≠ field.name → value? name = value?' name)
    (hread : field.read room node = .ok change) (record : α) :
    buildRecord room value? fields record = buildRecord room value?' fields (change record) := by
  induction fields generalizing record with
  | nil => exact absurd hmem List.not_mem_nil
  | cons first fields ih =>
    obtain ⟨hfirst, hrest⟩ := List.pairwise_cons.1 hfields
    rcases List.mem_cons.1 hmem with rfl | hmem
    · rw [buildRecord, buildRecord, hnode, hnone]
      simp only [hread, Except.toOption, Option.bind_some]
      refine buildRecord_congr (fun name hname => ?_) _
      obtain ⟨other, hother, rfl⟩ := List.mem_map.1 hname
      exact hsame _ (hfirst other hother).1.symm
    · obtain ⟨hne, hcommutes⟩ := hfirst field hmem
      rw [buildRecord, buildRecord, hsame first.name hne]
      cases value?' first.name with
      | none => exact ih hrest hmem record
      | some other =>
        refine Option.bind_congr fun change' hchange' => ?_
        have hother : first.read room other = .ok change' := toOption_eq_some_iff.1 hchange'
        rw [ih hrest hmem, hcommutes room other node change' change hother hread]

/-- A value that cannot be read spoils the record. -/
theorem buildRecord_eq_none {field : Field α} (hmem : field ∈ fields)
    {value? : String → Option Node} {node : Node} {fault : Fault}
    (hnode : value? field.name = some node) (hread : field.read room node = .error fault)
    (record : α) : buildRecord room value? fields record = none := by
  induction fields generalizing record with
  | nil => exact absurd hmem List.not_mem_nil
  | cons first fields ih =>
    rcases List.mem_cons.1 hmem with rfl | hmem
    · rw [buildRecord, hnode]
      simp only [hread, Except.toOption, Option.bind_none]
    · rw [buildRecord]
      cases value? first.name with
      | none => exact ih hmem record
      | some other => exact Option.bind_eq_none_iff.2 fun change _ => ih hmem _

/-! ## Records written as objects -/

/-- The names of the fields met are the ones met before and the ones that the object names. -/
theorem mem_met_iff {met met' : List String} {record record' : α} {given : List (Quoted × Node)}
    (h : readKeyed fields room met record given = .ok (met', record')) {name : String}
    (hname : name ∈ fieldNames fields) :
    name ∈ met' ↔ name ∈ met ∨ valuesUnder name given ≠ [] := by
  induction given generalizing met record with
  | nil =>
    obtain ⟨rfl, -⟩ := Prod.ext_iff.1 (Except.ok.inj h)
    simp [valuesUnder]
  | cons entry given ih =>
    obtain ⟨key, node⟩ := entry
    rw [readKeyed] at h
    obtain ⟨content, hcontent, h⟩ := exists_of_bind_eq_ok h
    rw [valuesUnder_cons hcontent]
    split at h
    · rename_i field hfound
      have hfield : field.name = content := by simpa using List.find?_some hfound
      split at h
      · cases h
      · obtain ⟨change, hchange, h⟩ := exists_of_bind_eq_ok h
        rw [ih h, List.mem_cons]
        by_cases hsame : content = name
        · simp [hsame]
        · simp [hsame, Ne.symm hsame]
    · rename_i hfound
      have hother : content ≠ name := by
        rintro rfl
        obtain ⟨field, hfield, hfieldname⟩ := List.mem_map.1 hname
        simpa [hfieldname] using List.find?_eq_none.1 hfound field hfield
      split at h
      · cases h
      · rw [ih h, if_neg hother]

/-- The object names no field twice, and none of those met before. -/
def Fresh (names met : List String) (given : List (Quoted × Node)) : Prop :=
  ∀ name ∈ names, (valuesUnder name given).length ≤ 1 ∧ (name ∈ met → valuesUnder name given = [])

/-- Whether every key is a text, for one more entry. -/
theorem keyed_cons {key : Quoted} {node : Node} {given : List (Quoted × Node)} {ending : Ending} :
    (Node.object ((key, node) :: given) ending).Keyed ↔
      (∃ content, key.content = .ok content) ∧ (Node.object given ending).Keyed := by
  simp [Node.Keyed]

/-- Whether the other values can be skipped, for one more entry. -/
theorem extrasSkippable_cons {names : List String} {key : Quoted} {content : String} {node : Node}
    {given : List (Quoted × Node)} {ending : Ending} (hkey : key.content = .ok content) :
    (Node.object ((key, node) :: given) ending).ExtrasSkippable names ↔
      (content ∉ names → node.skipFault = none) ∧
        (Node.object given ending).ExtrasSkippable names := by
  simp [Node.ExtrasSkippable, hkey]

/-- An entry that names a field uses up its name. -/
theorem fresh_cons_of_mem {names met : List String} {key : Quoted} {content : String} {node : Node}
    {given : List (Quoted × Node)} (hkey : key.content = .ok content) (hmem : content ∈ names) :
    Fresh names met ((key, node) :: given) ↔ content ∉ met ∧ Fresh names (content :: met) given := by
  constructor
  · intro h
    have hhere := h content hmem
    rw [valuesUnder_cons hkey, if_pos rfl, List.length_cons] at hhere
    refine ⟨fun hmet => List.cons_ne_nil _ _ (hhere.2 hmet), fun name hname => ?_⟩
    by_cases hsame : content = name
    · subst hsame
      have hnone : valuesUnder content given = [] := List.eq_nil_of_length_eq_zero (by omega)
      exact ⟨by rw [hnone]; exact Nat.zero_le 1, fun _ => hnone⟩
    · have hother := h name hname
      rw [valuesUnder_cons hkey, if_neg hsame] at hother
      refine ⟨hother.1, fun hmet => hother.2 ?_⟩
      exact (List.mem_cons.1 hmet).resolve_left (Ne.symm hsame)
  · rintro ⟨hmet, h⟩ name hname
    rw [valuesUnder_cons hkey]
    by_cases hsame : content = name
    · subst hsame
      rw [if_pos rfl, (h content hmem).2 List.mem_cons_self]
      exact ⟨Nat.le_refl 1, fun hbefore => absurd hbefore hmet⟩
    · rw [if_neg hsame]
      exact ⟨(h name hname).1, fun hbefore => (h name hname).2 (List.mem_cons_of_mem content hbefore)⟩

/-- An entry that names no field uses up nothing. -/
theorem fresh_cons_of_notMem {names met : List String} {key : Quoted} {content : String}
    {node : Node} {given : List (Quoted × Node)} (hkey : key.content = .ok content)
    (hmem : content ∉ names) :
    Fresh names met ((key, node) :: given) ↔ Fresh names met given := by
  have hsame (name : String) (hname : name ∈ names) :
      valuesUnder name ((key, node) :: given) = valuesUnder name given := by
    rw [valuesUnder_cons hkey, if_neg]
    rintro rfl
    exact hmem hname
  constructor <;> intro h name hname
  · rw [← hsame name hname]
    exact h name hname
  · rw [hsame name hname]
    exact h name hname

/-- A name of a field finds a field of that name. -/
theorem exists_field_of_mem {name : String} (h : name ∈ fieldNames fields) :
    ∃ field ∈ fields, field.name = name ∧ fields.find? (·.name == name) = some field := by
  obtain ⟨field, hfield, hname⟩ := List.mem_map.1 h
  cases hfound : fields.find? (·.name == name) with
  | none => simpa [hname] using List.find?_eq_none.1 hfound field hfield
  | some found =>
    exact ⟨found, List.mem_of_find?_eq_some hfound, by simpa using List.find?_some hfound, rfl⟩

/-- Another name finds no field. -/
theorem find?_eq_none_of_notMem {name : String} (h : name ∉ fieldNames fields) :
    fields.find? (·.name == name) = none := by
  refine List.find?_eq_none.2 fun field hfield hname => h ?_
  exact List.mem_map.2 ⟨field, hfield, by simpa using hname⟩

/-- Without values the record stays as it is. -/
theorem buildRecord_of_none {value? : String → Option Node}
    (h : ∀ name ∈ fieldNames fields, value? name = none) (record : α) :
    buildRecord room value? fields record = some record := by
  induction fields with
  | nil => rfl
  | cons field fields ih =>
    obtain ⟨hfield, hothers⟩ := List.forall_mem_cons.1 h
    rw [buildRecord, hfield]
    exact ih hothers

/-- An entry that names a field can as well be taken before the others. -/
theorem buildRecord_cons_of_read (hfields : Independent fields) {field : Field α}
    (hfield : field ∈ fields) {key : Quoted} (hkey : key.content = .ok field.name) {node : Node}
    {change : α → α} (hread : field.read room node = .ok change) {given : List (Quoted × Node)}
    (hnone : valuesUnder field.name given = []) (record : α) :
    buildRecord room (fun name => (valuesUnder name ((key, node) :: given)).head?) fields record =
      buildRecord room (fun name => (valuesUnder name given).head?) fields (change record) := by
  refine buildRecord_insert hfields hfield ?_ ?_ (fun name hne => ?_) hread record
  · rw [valuesUnder_cons hkey, if_pos rfl, List.head?_cons]
  · rw [hnone, List.head?_nil]
  · rw [valuesUnder_cons hkey, if_neg (Ne.symm hne)]

/-- An entry that names a field spoils the record when its value cannot be read. -/
theorem buildRecord_cons_of_fault {field : Field α} (hfield : field ∈ fields) {key : Quoted}
    (hkey : key.content = .ok field.name) {node : Node} {fault : Fault}
    (hread : field.read room node = .error fault) (given : List (Quoted × Node)) (record : α) :
    buildRecord room (fun name => (valuesUnder name ((key, node) :: given)).head?) fields record =
      none := by
  refine buildRecord_eq_none hfield ?_ hread record
  rw [valuesUnder_cons hkey, if_pos rfl, List.head?_cons]

/-- An entry that names no field changes nothing. -/
theorem buildRecord_cons_of_notMem {key : Quoted} {content : String}
    (hkey : key.content = .ok content) (hname : content ∉ fieldNames fields) (node : Node)
    (given : List (Quoted × Node)) (record : α) :
    buildRecord room (fun name => (valuesUnder name ((key, node) :: given)).head?) fields record =
      buildRecord room (fun name => (valuesUnder name given).head?) fields record := by
  refine buildRecord_congr (fun name hmem => ?_) record
  rw [valuesUnder_cons hkey, if_neg]
  rintro rfl
  exact hname hmem

/-- An entry that names a field is read, when the field has not been met before and the value can be
read, and the other entries are read after it. -/
theorem readKeyed_cons_of_mem {met : List String} {record : α} {key : Quoted} {node : Node}
    {given : List (Quoted × Node)} {field : Field α} (hkey : key.content = .ok field.name)
    (hfound : fields.find? (·.name == field.name) = some field)
    {result : List String × α} :
    readKeyed fields room met record ((key, node) :: given) = .ok result ↔
      field.name ∉ met ∧ ∃ change, field.read room node = .ok change ∧
        readKeyed fields room (field.name :: met) (change record) given = .ok result := by
  rw [readKeyed, bind_eq_ok_iff]
  simp only [hkey, Except.ok.injEq, exists_eq_left', hfound]
  by_cases hmet : field.name ∈ met
  · simp [hmet]
  · rw [if_neg hmet, bind_eq_ok_iff, and_iff_right hmet]

/-- An entry that names no field is passed over, when its value can be skipped. -/
theorem readKeyed_cons_of_notMem {met : List String} {record : α} {key : Quoted} {content : String}
    {node : Node} {given : List (Quoted × Node)} (hkey : key.content = .ok content)
    (hname : content ∉ fieldNames fields) {result : List String × α} :
    readKeyed fields room met record ((key, node) :: given) = .ok result ↔
      node.skipFault = none ∧ readKeyed fields room met record given = .ok result := by
  rw [readKeyed, bind_eq_ok_iff]
  simp only [hkey, Except.ok.injEq, exists_eq_left', find?_eq_none_of_notMem hname]
  cases node.skipFault <;> simp

/-- The fields of an object are read exactly when every key is a text, every field is named at most
once, the other values can be skipped and the values of the fields can be read. -/
theorem readKeyed_eq_ok_iff (hfields : Independent fields) {met : List String} {record result : α}
    {given : List (Quoted × Node)} (ending : Ending) :
    (∃ met', readKeyed fields room met record given = .ok (met', result)) ↔
      (Node.object given ending).Keyed ∧
      (Node.object given ending).ExtrasSkippable (fieldNames fields) ∧
      Fresh (fieldNames fields) met given ∧
      buildRecord room (fun name => (valuesUnder name given).head?) fields record =
        some result := by
  induction given generalizing met record with
  | nil =>
    have hnone : buildRecord room (fun name => (valuesUnder name []).head?) fields record =
        some record := buildRecord_of_none (fun _ _ => rfl) record
    rw [hnone]
    simp [readKeyed, Node.Keyed, Node.ExtrasSkippable, Fresh, valuesUnder]
  | cons entry given ih =>
    obtain ⟨key, node⟩ := entry
    rw [keyed_cons]
    cases hkey : key.content with
    | error fault => simp [readKeyed, hkey, bind, Except.bind]
    | ok content =>
      rw [extrasSkippable_cons hkey]
      by_cases hname : content ∈ fieldNames fields
      · obtain ⟨field, hfield, rfl, hfound⟩ := exists_field_of_mem hname
        simp only [readKeyed_cons_of_mem hkey hfound, fresh_cons_of_mem hkey hname]
        constructor
        · rintro ⟨met', hmet, change, hread, hrest⟩
          obtain ⟨hkeyed, hextras, hfresh, hresult⟩ := ih.1 ⟨met', hrest⟩
          have hunder := (hfresh field.name hname).2 List.mem_cons_self
          exact ⟨⟨⟨_, rfl⟩, hkeyed⟩, ⟨fun hnot => absurd hname hnot, hextras⟩, ⟨hmet, hfresh⟩,
            (buildRecord_cons_of_read hfields hfield hkey hread hunder record).trans hresult⟩
        · rintro ⟨⟨-, hkeyed⟩, ⟨-, hextras⟩, ⟨hmet, hfresh⟩, hresult⟩
          have hunder := (hfresh field.name hname).2 List.mem_cons_self
          cases hread : field.read room node with
          | error fault =>
            rw [buildRecord_cons_of_fault hfield hkey hread] at hresult
            cases hresult
          | ok change =>
            rw [buildRecord_cons_of_read hfields hfield hkey hread hunder] at hresult
            obtain ⟨met', hrest⟩ := ih.2 ⟨hkeyed, hextras, hfresh, hresult⟩
            exact ⟨met', hmet, change, rfl, hrest⟩
      · simp only [readKeyed_cons_of_notMem hkey hname, fresh_cons_of_notMem hkey hname,
          buildRecord_cons_of_notMem hkey hname, exists_and_left, ih]
        simp [hname, and_assoc, and_left_comm]

/-! ## Records written as arrays -/

/-- The first item is the value of the first field. -/
theorem lookup_zip_first (field : Field α) (fields : List (Field α)) (node : Node)
    (nodes : List Node) :
    ((fieldNames (field :: fields)).zip (node :: nodes)).lookup field.name = some node := by
  simp [fieldNames]

/-- Behind the first field the positions are those of the other fields. -/
theorem lookup_zip_other {field : Field α} (hfirst : ∀ other ∈ fields, field.name ≠ other.name)
    (node : Node) (nodes : List Node) {name : String} (hname : name ∈ fieldNames fields) :
    ((fieldNames (field :: fields)).zip (node :: nodes)).lookup name =
      ((fieldNames fields).zip nodes).lookup name := by
  obtain ⟨other, hother, rfl⟩ := List.mem_map.1 hname
  have hbeq : (other.name == field.name) = false := beq_false_of_ne (hfirst other hother).symm
  rw [fieldNames, List.map_cons, List.zip_cons_cons, List.lookup_cons, hbeq]
  rfl

/-- With an item for the first field it is the other fields that may be missing. -/
theorem complete_zip_cons {field : Field α} (hfirst : ∀ other ∈ fields, field.name ≠ other.name)
    (node : Node) (nodes : List Node) :
    Complete (field :: fields)
        (fun name => ((fieldNames (field :: fields)).zip (node :: nodes)).lookup name) ↔
      Complete fields (fun name => ((fieldNames fields).zip nodes).lookup name) := by
  have hgiven : ((fieldNames (field :: fields)).zip (node :: nodes)).lookup field.name ≠ none := by
    rw [lookup_zip_first]
    exact Option.some_ne_none node
  rw [Complete, List.forall_mem_cons, and_iff_right fun _ => hgiven]
  refine forall₂_congr fun other hother => ?_
  rw [lookup_zip_other hfirst node nodes (List.mem_map_of_mem hother)]

/-- The first item makes its change before the others. -/
theorem buildRecord_zip_cons {field : Field α} (hfirst : ∀ other ∈ fields, field.name ≠ other.name)
    (node : Node) (nodes : List Node) (record : α) :
    buildRecord room
        (fun name => ((fieldNames (field :: fields)).zip (node :: nodes)).lookup name)
        (field :: fields) record =
      (field.read room node).toOption.bind fun change =>
        buildRecord room (fun name => ((fieldNames fields).zip nodes).lookup name) fields
          (change record) := by
  rw [buildRecord_given (lookup_zip_first field fields node nodes)]
  exact Option.bind_congr fun change _ =>
    buildRecord_congr (fun _ => lookup_zip_other hfirst node nodes) (change record)

/-- The items of an array are read exactly when the array is closed and has no more items than there
are fields, every required field has an item and the items can be read. -/
theorem readPositional_eq_ok_iff (hfields : Independent fields) {onExtra : Fault}
    {record result : α} {items : List Node} {ending : Ending} :
    readPositional onExtra room fields record items ending = .ok result ↔
      (Node.array items ending).Layout (fieldNames fields) ∧
      Complete fields (fun name => ((fieldNames fields).zip items).lookup name) ∧
      buildRecord room (fun name => ((fieldNames fields).zip items).lookup name) fields record =
        some result := by
  induction fields generalizing record items with
  | nil =>
    cases items with
    | nil =>
      cases ending <;>
        simp [readPositional, Ending.close, bind, Except.bind, Node.Layout, Complete, buildRecord,
          fieldNames, pure, Except.pure]
    | cons node items => simp [readPositional, Node.Layout, fieldNames]
  | cons field fields ih =>
    obtain ⟨hpairs, hrest⟩ := List.pairwise_cons.1 hfields
    have hfirst (other : Field α) (hother : other ∈ fields) := (hpairs other hother).1
    cases items with
    | nil =>
      have hzip (names : List String) : (fun name => (names.zip ([] : List Node)).lookup name) =
          fun _ => none := by
        funext name
        rw [List.zip_nil_right, List.lookup_nil]
      rw [hzip]
      cases ending with
      | stopped onMore onClose =>
        simp [readPositional, Ending.finish, bind, Except.bind, Node.Layout]
      | closed =>
        by_cases hrequired : field.required = true
        · simp [readPositional, Ending.finish, bind, Except.bind, hrequired, Complete]
        · have hstep : readPositional onExtra room (field :: fields) record [] .closed =
              readPositional onExtra room fields record [] .closed := by
            simp [readPositional, Ending.finish, bind, Except.bind, hrequired]
          rw [hstep, ih hrest, hzip]
          simp [Node.Layout, Complete, hrequired, buildRecord]
    | cons node items =>
      rw [complete_zip_cons hfirst, buildRecord_zip_cons hfirst, readPositional, bind_eq_ok_iff]
      simp only [ih hrest]
      cases field.read room node <;> simp [Node.Layout, fieldNames, Except.toOption]

/-! ## Records -/

/-- The check for missing fields finds none when all required fields are given. -/
theorem complete_iff {record value : α} {met : List String} {given : List (Quoted × Node)}
    (h : readKeyed fields room [] record given = .ok (met, value)) :
    Complete fields (fun name => (valuesUnder name given).head?) ↔
      fields.any (fun field => field.required && !(met.contains field.name)) = false := by
  rw [List.any_eq_false]
  refine forall₂_congr fun field hfield => ?_
  have hmet := mem_met_iff h (List.mem_map_of_mem hfield)
  simp [hmet]

/-- A bracket is entered as long as there is room inside it. -/
theorem enter_eq_ok_iff {inner : Nat} : enter room = .ok inner ↔ 1 < room ∧ inner = room - 1 := by
  unfold enter
  split <;> simp <;> omega

/-- An object is read as a record exactly when it is closed, its keys are texts, it names every
required field and no field twice, and its values can be read or skipped. -/
theorem record_object_eq_ok_iff (hfields : Independent fields) {initial result : α}
    {given : List (Quoted × Node)} {ending : Ending} :
    Decoder.record initial fields room (.object given ending) = .ok result ↔ 1 < room ∧
      (Node.object given ending).Layout (fieldNames fields) ∧ (Node.object given ending).Keyed ∧
      (Node.object given ending).ExtrasSkippable (fieldNames fields) ∧
      Complete fields (fun name => (valuesUnder name given).head?) ∧
      buildRecord (room - 1) (fun name => (valuesUnder name given).head?) fields initial =
        some result := by
  rw [Decoder.record, bind_eq_ok_iff]
  simp only [enter_eq_ok_iff]
  constructor
  · rintro ⟨_, ⟨hroom, rfl⟩, h⟩
    obtain ⟨⟨met, value⟩, hread, h⟩ := exists_of_bind_eq_ok h
    obtain ⟨_, hfinish, h⟩ := exists_of_bind_eq_ok h
    have hcheck := complete_iff hread
    split at h
    · cases h
    · rename_i hnone
      obtain rfl : value = result := Except.ok.inj h
      obtain ⟨hkeyed, hextras, hfresh, hbuild⟩ :=
        (readKeyed_eq_ok_iff hfields ending).1 ⟨met, hread⟩
      exact ⟨hroom, ⟨Ending.finish_eq_ok hfinish, fun name hname => (hfresh name hname).1⟩,
        hkeyed, hextras, hcheck.2 (by simpa using hnone), hbuild⟩
  · rintro ⟨hroom, ⟨rfl, honce⟩, hkeyed, hextras, hcomplete, hbuild⟩
    have hfresh : Fresh (fieldNames fields) [] given :=
      fun name hname => ⟨honce name hname, fun hmet => absurd hmet List.not_mem_nil⟩
    obtain ⟨met, hread⟩ :=
      (readKeyed_eq_ok_iff hfields .closed).2 ⟨hkeyed, hextras, hfresh, hbuild⟩
    have hcheck := (complete_iff hread).1 hcomplete
    refine ⟨_, ⟨hroom, rfl⟩, bind_eq_ok_iff.2 ⟨_, hread, bind_eq_ok_iff.2 ⟨(), rfl, if_neg ?_⟩⟩⟩
    rw [hcheck]
    exact Bool.false_ne_true

/-- A record is read exactly when it has one of the two forms, names every required field and each
value given can be read. -/
theorem record_eq_ok_iff (hfields : Independent fields) {initial result : α} {node : Node} :
    Decoder.record initial fields room node = .ok result ↔ 1 < room ∧
      node.Layout (fieldNames fields) ∧ node.Keyed ∧ node.ExtrasSkippable (fieldNames fields) ∧
      Complete fields (fun name => node.field? (fieldNames fields) name) ∧
      buildRecord (room - 1) (fun name => node.field? (fieldNames fields) name) fields initial =
        some result := by
  cases node with
  | array items ending =>
    rw [Decoder.record, bind_eq_ok_iff]
    simp only [enter_eq_ok_iff, readPositional_eq_ok_iff hfields]
    constructor
    · rintro ⟨_, ⟨hroom, rfl⟩, hlayout, hcomplete, hbuild⟩
      exact ⟨hroom, hlayout, trivial, trivial, hcomplete, hbuild⟩
    · rintro ⟨hroom, hlayout, -, -, hcomplete, hbuild⟩
      exact ⟨_, ⟨hroom, rfl⟩, hlayout, hcomplete, hbuild⟩
  | object given ending => exact record_object_eq_ok_iff hfields
  | _ => simp [Decoder.record, Node.Layout]

end

end SceneWiring.Json

namespace SceneWiring

open Json

/-! ## The records of a snapshot -/

/-- The fields of a location are independent. -/
theorem Location.jsonFields_independent : Independent Location.jsonFields := by
  simp only [Independent, Location.jsonFields, List.pairwise_cons, List.forall_mem_cons]
  and_intros
  all_goals first
    | exact commutes_of_set rfl rfl fun _ _ _ => rfl
    | simp

/-- The fields of an attribute are independent. -/
theorem Attribute.jsonFields_independent : Independent Attribute.jsonFields := by
  simp only [Independent, Attribute.jsonFields, List.pairwise_cons, List.forall_mem_cons]
  and_intros
  all_goals first
    | exact commutes_of_set rfl rfl fun _ _ _ => rfl
    | simp

/-- The fields of a type parameter are independent. -/
theorem TypeParameter.jsonFields_independent : Independent TypeParameter.jsonFields := by
  simp only [Independent, TypeParameter.jsonFields, List.pairwise_cons, List.forall_mem_cons]
  and_intros
  all_goals first
    | exact commutes_of_set rfl rfl fun _ _ _ => rfl
    | simp

/-- The fields of a field or property are independent. -/
theorem Member.jsonFields_independent : Independent Member.jsonFields := by
  simp only [Independent, Member.jsonFields, List.pairwise_cons, List.forall_mem_cons]
  and_intros
  all_goals first
    | exact commutes_of_set rfl rfl fun _ _ _ => rfl
    | simp

/-- The fields of a parameter are independent. -/
theorem Parameter.jsonFields_independent : Independent Parameter.jsonFields := by
  simp only [Independent, Parameter.jsonFields, List.pairwise_cons, List.forall_mem_cons]
  and_intros
  all_goals first
    | exact commutes_of_set rfl rfl fun _ _ _ => rfl
    | simp

/-- The fields of a method are independent. -/
theorem Method.jsonFields_independent : Independent Method.jsonFields := by
  simp only [Independent, Method.jsonFields, List.pairwise_cons, List.forall_mem_cons]
  and_intros
  all_goals first
    | exact commutes_of_set rfl rfl fun _ _ _ => rfl
    | simp

/-- The fields of a type declaration are independent. -/
theorem TypeDecl.jsonFields_independent : Independent TypeDecl.jsonFields := by
  simp only [Independent, TypeDecl.jsonFields, List.pairwise_cons, List.forall_mem_cons]
  and_intros
  all_goals first
    | exact commutes_of_set rfl rfl fun _ _ _ => rfl
    | simp

/-- The fields of a mention are independent. -/
theorem Mention.jsonFields_independent : Independent Mention.jsonFields := by
  simp only [Independent, Mention.jsonFields, List.pairwise_cons, List.forall_mem_cons]
  and_intros
  all_goals first
    | exact commutes_of_set rfl rfl fun _ _ _ => rfl
    | simp

/-- The fields of settings are independent. -/
theorem Config.jsonFields_independent : Independent Config.jsonFields := by
  simp only [Independent, Config.jsonFields, List.pairwise_cons, List.forall_mem_cons]
  and_intros
  all_goals first
    | exact commutes_of_set rfl rfl fun _ _ _ => rfl
    | simp

/-- The fields of a snapshot are independent. -/
theorem Snapshot.jsonFields_independent : Independent Snapshot.jsonFields := by
  simp only [Independent, Snapshot.jsonFields, List.pairwise_cons, List.forall_mem_cons]
  and_intros
  all_goals first
    | exact commutes_of_set rfl rfl fun _ _ _ => rfl
    | simp

end SceneWiring
