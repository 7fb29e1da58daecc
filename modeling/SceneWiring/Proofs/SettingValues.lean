import SceneWiring.Proofs.RecordReading
/-!
# The values of settings

Settings seen as values under keys, and what reading values does to them. Main statement: settings
are built from the values that are given exactly when under each key they have the value that is
given, and their former value where none is given.
-/

namespace SceneWiring

namespace Json

/-! ## Texts read as values -/

/-- The text is read as that value by a reader of any value. -/
def ReadsAs (text : String) (node : Node) : Prop := (parse text).read Node.wellRead = .ok node

/-- A value without a fault for its reader is well read. -/
theorem wellRead_eq_ok_iff {room : Nat} {node read : Node} :
    node.wellRead room = .ok read ↔ node.readFault room = none ∧ node = read := by
  unfold Node.wellRead
  cases node.readFault room <;> simp

/-- A document is read when its value is and nothing stands behind it. -/
theorem Document.read_eq_ok_iff {α : Type} {decode : Decoder α} {document : Document} {value : α} :
    document.read decode = .ok value ↔
      decode documentRoom document.root = .ok value ∧ document.trailing = false := by
  rw [Document.read, bind_eq_ok_iff]
  cases document.trailing <;> simp

/-- A text is read as a value when it consists of that value, in which no reader meets a fault. -/
theorem readsAs_iff {text : String} {node : Node} :
    ReadsAs text node ↔ parse text = ⟨node, false⟩ ∧ node.readFault documentRoom = none := by
  rw [ReadsAs, Document.read_eq_ok_iff, wellRead_eq_ok_iff]
  constructor
  · rintro ⟨⟨hfault, rfl⟩, htrailing⟩
    refine ⟨?_, hfault⟩
    rw [← htrailing]
  · rintro ⟨hparse, hfault⟩
    rw [hparse]
    exact ⟨⟨hfault, rfl⟩, rfl⟩

/-- What a text is read as is written there. -/
theorem ReadsAs.written {text : String} {node : Node} (h : ReadsAs text node) : Written node text :=
  written_of_parse (readsAs_iff.1 h).1 (Node.whole_of_readFault (readsAs_iff.1 h).2)

/-- An object that is read is closed, its keys are texts and its values are read, one level deeper. -/
theorem readFault_object_eq_none {room : Nat} {given : List (Quoted × Node)} {ending : Ending} :
    (Node.object given ending).readFault room = none ↔ 1 < room ∧ ending = .closed ∧
      (∀ field ∈ given, ∃ content, field.1.content = .ok content) ∧
      ∀ field ∈ given, field.2.readFault (room - 1) = none := by
  rw [Node.readFault]
  split
  · rename_i hroom
    simp [Nat.not_lt.2 hroom]
  · rename_i hroom
    simp [fieldsFault_eq_none, Nat.lt_of_not_le hroom]

/-- An array that is read is closed. -/
theorem closed_of_readFault_array {room : Nat} {items : List Node} {ending : Ending}
    (h : (Node.array items ending).readFault room = none) : ending = .closed := by
  rw [Node.readFault] at h
  split at h
  · cases h
  · exact (itemsFault_eq_none.1 h).1

/-- The values of an object that is read can be skipped. -/
theorem ReadsAs.skipFault_field {text : String} {given : List (Quoted × Node)} {ending : Ending}
    (h : ReadsAs text (.object given ending)) : ∀ field ∈ given, field.2.skipFault = none :=
  (skipFields_eq_none.1 h.written.skipFault_eq).2.2

/-- A value that is looked up is there under its key. -/
theorem mem_of_lookup_eq_some {entries : List (String × Node)} {key : String} {node : Node}
    (h : entries.lookup key = some node) : (key, node) ∈ entries := by
  obtain ⟨front, back, rfl, -⟩ := List.lookup_eq_some_iff.1 h
  exact List.mem_append_right front List.mem_cons_self

/-! ## Texts and lists of texts -/

/-- Texts are written alike only when they are the same. -/
@[simp] theorem string_inj {content content' : String} :
    Node.string content = Node.string content' ↔ content = content' := by
  simp [Node.string, Quoted.plain]

/-- Lists of texts are written alike only when they are the same. -/
@[simp] theorem texts_inj {contents contents' : List String} :
    Node.texts contents = Node.texts contents' ↔ contents = contents' := by
  have hinj : Function.Injective Node.string := fun _ _ => string_inj.1
  simp [Node.texts, Node.list, hinj.list_map.eq_iff]

/-- A text that can be skipped is read as its content. -/
theorem text_eq_ok_iff {room : Nat} {node : Node} (hskip : node.skipFault = none) {value : String} :
    Decoder.text room node = .ok value ↔ node = .string value := by
  cases node with
  | text q =>
    obtain ⟨content, skipped⟩ := q
    have hskipped : skipped = none := hskip
    simp [Decoder.text, Node.string, Quoted.plain, hskipped]
  | _ => simp [Decoder.text, Node.string]

/-- Texts that can be skipped are read as their contents. -/
theorem mapM_text_eq_ok_iff {room : Nat} {items : List Node}
    (hskip : ∀ item ∈ items, item.skipFault = none) {values : List String} :
    items.mapM (Decoder.text room) = .ok values ↔ items = values.map .string := by
  induction items generalizing values with
  | nil =>
    cases values <;> simp [pure, Except.pure]
  | cons item items ih =>
    obtain ⟨hitem, hitems⟩ := List.forall_mem_cons.1 hskip
    rw [List.mapM_cons, bind_eq_ok_iff]
    simp only [text_eq_ok_iff hitem, bind_eq_ok_iff, ih hitems, pure, Except.pure, Except.ok.injEq]
    constructor
    · rintro ⟨value, rfl, more, rfl, rfl⟩
      rfl
    · intro h
      cases values with
      | nil => cases h
      | cons value more =>
        obtain ⟨rfl, rfl⟩ := List.cons.inj h
        exact ⟨value, rfl, more, rfl, rfl⟩

/-- An array of texts that can be skipped is read as their contents. -/
theorem texts_eq_ok_iff {room : Nat} (hroom : 1 < room) {node : Node}
    (hskip : node.skipFault = none) {values : List String} :
    Decoder.list Decoder.text room node = .ok values ↔ node = .texts values := by
  cases node with
  | array items ending =>
    rw [Node.skipFault, skipItems_eq_none] at hskip
    obtain ⟨rfl, hitems⟩ := hskip
    simp only [Decoder.list, bind_eq_ok_iff, enter_eq_ok_iff, mapM_text_eq_ok_iff hitems, hroom,
      Ending.finish, pure, Except.pure, Except.ok.injEq, Node.texts, Node.list, Node.array.injEq]
    simp
  | _ => simp [Decoder.list, Node.texts, Node.list]

end Json

open Json

namespace Config

/-! ## Settings as values under keys -/

/-- The keys of the settings. -/
def keys : List String := fieldNames jsonFields

/-- The value of a setting as it is written. -/
def value? (c : Config) (key : String) : Option Node := c.written.lookup key

/-- The value is of the type of the setting: an array of texts for the namespaces that are opened,
and a text for every other one. -/
def Fits (key : String) (node : Node) : Prop :=
  if key = "usings" then ∃ contents, node = .texts contents else ∃ content, node = .string content

/-- The keys, spelled out. -/
theorem keys_eq : keys =
    ["node_type", "resource_type", "usings", "lifecycle_method", "editor_hint", "header"] := rfl

/-- Settings with the same values are the same. -/
theorem eq_of_value? {c c' : Config} (h : ∀ key ∈ keys, c.value? key = c'.value? key) : c = c' := by
  cases c
  cases c'
  simpa [keys_eq, value?, written, List.lookup_cons] using h

/-- The value of a setting fits it. -/
theorem fits_of_value? {c : Config} {key : String} {node : Node} (h : c.value? key = some node) :
    Fits key node := by
  have hmem : (key, node) ∈ c.written := mem_of_lookup_eq_some h
  simp only [written, List.mem_cons, Prod.mk.injEq, List.not_mem_nil, or_false] at hmem
  obtain h | h | h | h | h | h := hmem <;> obtain ⟨rfl, rfl⟩ := h <;> simp [Fits]

/-! ## Reading one value -/

/-- The field reads the values that fit its key, and sets that key only. -/
def Sets (field : Json.Field Config) : Prop :=
  ∀ room node, 1 < room → node.skipFault = none →
    ((∃ change, field.read room node = .ok change) ↔ Fits field.name node) ∧
      ∀ change, field.read room node = .ok change → ∀ c, ∀ key ∈ keys,
        (change c).value? key = if key = field.name then some node else c.value? key

/-- A field sets its key when its decoder reads what is written there. -/
theorem sets_optionalField {β : Type} {decode : Decoder β} {encode : β → Node} {name : String}
    {set : β → Config → Config}
    (hdecode : ∀ room node, 1 < room → node.skipFault = none →
      ∀ value, decode room node = .ok value ↔ node = encode value)
    (hfits : ∀ node, Fits name node ↔ ∃ value, node = encode value)
    (hset : ∀ value c, ∀ key ∈ keys,
      (set value c).value? key = if key = name then some (encode value) else c.value? key) :
    Sets (optionalField name decode set) := by
  intro room node hroom hskip
  have hread (change : Config → Config) :
      (optionalField name decode set).read room node = .ok change ↔
        ∃ value, node = encode value ∧ set value = change := by
    simp only [← hdecode room node hroom hskip]
    cases hvalue : decode room node <;> simp [optionalField, hvalue, Except.map]
  constructor
  · refine Iff.trans ?_ (hfits node).symm
    simp only [hread]
    constructor
    · rintro ⟨_, value, hvalue, -⟩
      exact ⟨value, hvalue⟩
    · rintro ⟨value, hvalue⟩
      exact ⟨set value, value, hvalue, rfl⟩
  · intro change hchange c key hkey
    obtain ⟨value, rfl, rfl⟩ := (hread change).1 hchange
    exact hset value c key hkey

/-- Every field of the settings sets its key. -/
theorem sets_of_mem : ∀ field ∈ jsonFields, Sets field := by
  have htext : ∀ room node, 1 < room → node.skipFault = none →
      ∀ value, Decoder.text room node = .ok value ↔ node = .string value :=
    fun _ _ _ hskip _ => text_eq_ok_iff hskip
  have htexts : ∀ room node, 1 < room → node.skipFault = none →
      ∀ value, Decoder.list Decoder.text room node = .ok value ↔ node = .texts value :=
    fun _ _ hroom hskip _ => texts_eq_ok_iff hroom hskip
  simp only [jsonFields, List.forall_mem_cons]
  refine ⟨sets_optionalField htext ?_ ?_, sets_optionalField htext ?_ ?_,
    sets_optionalField htexts ?_ ?_, sets_optionalField htext ?_ ?_,
    sets_optionalField htext ?_ ?_, sets_optionalField htext ?_ ?_, by simp⟩
  all_goals simp [Fits, keys_eq, value?, written, List.lookup_cons]

/-! ## Building settings -/

/-- No setting has to be given. -/
theorem complete_jsonFields (given? : String → Option Node) : Complete jsonFields given? := by
  simp [Complete, jsonFields, optionalField]

variable {room : Nat} {given? : String → Option Node}

/-- Settings can be built when each value that is given fits its key. -/
theorem exists_build_iff {fields : List (Json.Field Config)} (hfields : ∀ field ∈ fields, Sets field)
    (hroom : 1 < room) (hskip : ∀ key node, given? key = some node → node.skipFault = none)
    (c : Config) :
    (∃ r, buildRecord room given? fields c = some r) ↔
      ∀ key ∈ fieldNames fields, ∀ node, given? key = some node → Fits key node := by
  induction fields generalizing c with
  | nil => simp [buildRecord, fieldNames]
  | cons field fields ih =>
    obtain ⟨hfield, hothers⟩ := List.forall_mem_cons.1 hfields
    rw [fieldNames, List.map_cons, List.forall_mem_cons]
    cases hvalue : given? field.name with
    | none =>
      rw [buildRecord_missing hvalue, ih hothers]
      simp [fieldNames]
    | some node =>
      rw [buildRecord_given hvalue]
      have hread := (hfield room node hroom (hskip _ _ hvalue)).1
      simp only [Option.some.injEq, forall_eq', ← hread]
      cases hchange : field.read room node with
      | error fault => simp [Except.toOption]
      | ok change => simpa [Except.toOption, fieldNames] using ih hothers (change c)

/-- Settings that are built have the values that are given, and else the former ones. -/
theorem value?_of_build {fields : List (Json.Field Config)} (hfields : ∀ field ∈ fields, Sets field)
    (hroom : 1 < room) (hskip : ∀ key node, given? key = some node → node.skipFault = none)
    {c r : Config} (h : buildRecord room given? fields c = some r) :
    ∀ key ∈ keys, r.value? key =
      if key ∈ fieldNames fields then (given? key).or (c.value? key) else c.value? key := by
  induction fields generalizing c with
  | nil =>
    obtain rfl : c = r := Option.some.inj h
    simp [fieldNames]
  | cons field fields ih =>
    obtain ⟨hfield, hothers⟩ := List.forall_mem_cons.1 hfields
    intro key hkey
    cases hvalue : given? field.name with
    | none =>
      rw [buildRecord_missing hvalue] at h
      rw [ih hothers h key hkey]
      by_cases hname : key = field.name
      · simp [fieldNames, hname, hvalue]
      · simp [fieldNames, hname]
    | some node =>
      rw [buildRecord_given hvalue, Option.bind_eq_some_iff] at h
      obtain ⟨change, hchange, h⟩ := h
      have hset := (hfield room node hroom (hskip _ _ hvalue)).2 change
        (toOption_eq_some_iff.1 hchange) c key hkey
      rw [ih hothers h key hkey, hset]
      by_cases hname : key = field.name
      · simp [fieldNames, hname, hvalue]
      · simp [fieldNames, hname]

/-- Settings are built from values exactly when they have the values that are given, and else the
former ones. -/
theorem build_eq_some_iff (hroom : 1 < room)
    (hskip : ∀ key node, given? key = some node → node.skipFault = none) {c r : Config} :
    buildRecord room given? jsonFields c = some r ↔
      ∀ key ∈ keys, r.value? key = (given? key).or (c.value? key) := by
  constructor
  · intro h key hkey
    rw [value?_of_build sets_of_mem hroom hskip h key hkey, if_pos (show key ∈ fieldNames jsonFields from hkey)]
  · -- What the result has fits its key, so settings can be built; and no others have these values.
    intro h
    have hfits : ∀ key ∈ keys, ∀ node, given? key = some node → Fits key node := by
      intro key hkey node hnode
      refine fits_of_value? (c := r) ?_
      rw [h key hkey, hnode, Option.some_or]
    obtain ⟨r', hr'⟩ := (exists_build_iff sets_of_mem hroom hskip c).2 hfits
    rw [hr', Option.some.injEq]
    refine eq_of_value? fun key hkey => ?_
    rw [value?_of_build sets_of_mem hroom hskip hr' key hkey, if_pos (show key ∈ fieldNames jsonFields from hkey), h key hkey]

end Config

end SceneWiring
