import SceneWiring.Proofs.JsonReading
import SceneWiring.Snapshot
/-!
# Accepted documents

A reader that accepts a value has looked at all of it, so the value has no faulty place. Main
statement: a text that holds a snapshot spells a JSON value and nothing else.
-/

namespace SceneWiring

namespace Json

/-- The decoder accepts whole values only. -/
def Decoder.Thorough {α : Type} (decode : Decoder α) : Prop :=
  ∀ room node value, decode room node = .ok value → node.Whole

/-- A bracket that is asked for and found closes the value. -/
theorem Ending.close_eq_ok {ending : Ending} (h : ending.close = .ok ()) : ending = .closed := by
  cases ending with
  | closed => rfl
  | stopped _ _ => cases h

/-- A value with no further member is closed. -/
theorem Ending.finish_eq_ok {ending : Ending} (h : ending.finish = .ok ()) : ending = .closed := by
  cases ending with
  | closed => rfl
  | stopped _ _ => cases h

/-- A text that is read is whole. -/
@[simp] theorem Decoder.text_thorough : Decoder.text.Thorough := by
  intro room node value h
  cases node with
  | text q => exact .text (.inr ⟨value, h⟩)
  | _ => cases h

/-- A truth value that is read is whole. -/
@[simp] theorem Decoder.flag_thorough : Decoder.flag.Thorough := by
  intro room node value h
  cases node with
  | bool b => exact .bool b
  | _ => cases h

/-- A number that is read is whole. -/
@[simp] theorem Decoder.natural_thorough (bound : Nat) : (Decoder.natural bound).Thorough := by
  intro room node value h
  cases node with
  | number n => exact .number n
  | _ => cases h

section Combinators

variable {α : Type} {decode : Decoder α}

/-- A value that may be null is whole when it is read. -/
@[simp] theorem Decoder.nullable_thorough (hdecode : decode.Thorough) :
    (Decoder.nullable decode).Thorough := by
  intro room node value h
  by_cases hnull : node = .null
  · rw [hnull]
    exact .null
  · rw [Decoder.nullable] at h
    · obtain ⟨inner, hinner, -⟩ := exists_of_map_eq_ok h
      exact hdecode room node inner hinner
    · exact hnull

/-- Items that are all read are whole. -/
theorem whole_of_mapM (hdecode : decode.Thorough) {room : Nat} {items : List Node}
    {values : List α} (h : items.mapM (decode room) = .ok values) : ∀ item ∈ items, item.Whole := by
  induction items generalizing values with
  | nil => exact fun _ hmem => absurd hmem List.not_mem_nil
  | cons item items ih =>
    rw [List.mapM_cons] at h
    obtain ⟨value, hvalue, h⟩ := exists_of_bind_eq_ok h
    obtain ⟨more, hmore, -⟩ := exists_of_bind_eq_ok h
    exact List.forall_mem_cons.2 ⟨hdecode room item value hvalue, ih hmore⟩

/-- A list that is read is whole. -/
@[simp] theorem Decoder.list_thorough (hdecode : decode.Thorough) :
    (Decoder.list decode).Thorough := by
  intro room node value h
  cases node with
  | array items ending =>
    obtain ⟨inner, -, h⟩ := exists_of_bind_eq_ok h
    obtain ⟨values, hvalues, h⟩ := exists_of_bind_eq_ok h
    obtain ⟨_, hfinish, -⟩ := exists_of_bind_eq_ok h
    rw [Ending.finish_eq_ok hfinish]
    exact .array (whole_of_mapM hdecode hvalues)
  | _ => cases h

/-- Entries that are all read are whole. -/
theorem whole_of_addEntries (hdecode : decode.Thorough) {room : Nat}
    {fields : List (Quoted × Node)} {entries result : List (String × α)}
    (h : addEntries decode room entries fields = .ok result) :
    (∀ field ∈ fields, field.1.Whole) ∧ ∀ field ∈ fields, field.2.Whole := by
  induction fields generalizing entries with
  | nil => simp
  | cons field fields ih =>
    obtain ⟨key, node⟩ := field
    rw [addEntries] at h
    obtain ⟨content, hcontent, h⟩ := exists_of_bind_eq_ok h
    obtain ⟨value, hvalue, h⟩ := exists_of_bind_eq_ok h
    obtain ⟨hkeys, hvalues⟩ := ih h
    exact ⟨List.forall_mem_cons.2 ⟨.inr ⟨content, hcontent⟩, hkeys⟩,
      List.forall_mem_cons.2 ⟨hdecode room node value hvalue, hvalues⟩⟩

/-- An object with free keys is whole when it is read. -/
@[simp] theorem Decoder.entries_thorough (hdecode : decode.Thorough) :
    (Decoder.entries decode).Thorough := by
  intro room node value h
  cases node with
  | object fields ending =>
    obtain ⟨inner, -, h⟩ := exists_of_bind_eq_ok h
    obtain ⟨entries, hentries, h⟩ := exists_of_bind_eq_ok h
    obtain ⟨_, hfinish, -⟩ := exists_of_bind_eq_ok h
    obtain ⟨hkeys, hvalues⟩ := whole_of_addEntries hdecode hentries
    rw [Ending.finish_eq_ok hfinish]
    exact .object hkeys hvalues
  | _ => cases h

/-- A word that is read is whole. -/
@[simp] theorem Decoder.choice_thorough (words : List (String × α)) :
    (Decoder.choice words).Thorough := by
  intro room node value h
  cases node with
  | text q =>
    obtain ⟨content, hcontent, -⟩ := exists_of_bind_eq_ok h
    exact .text (.inr ⟨content, hcontent⟩)
  | object fields ending =>
    obtain ⟨_, -, h⟩ := exists_of_bind_eq_ok h
    cases fields with
    | nil =>
      obtain ⟨_, -, h⟩ := exists_of_bind_eq_ok h
      cases h
    | cons field rest =>
      obtain ⟨key, node⟩ := field
      obtain ⟨content, hcontent, h⟩ := exists_of_bind_eq_ok h
      split at h
      · cases h
      · split at h
        · obtain ⟨_, hclose, -⟩ := exists_of_bind_eq_ok h
          rw [Ending.close_eq_ok hclose]
          refine .object ?_ ?_
          · simpa using .inr ⟨content, hcontent⟩
          · simpa using .null
        · cases h
        · cases h
  | _ => cases h

/-- The field accepts whole values only. -/
def Field.Thorough (field : Field α) : Prop :=
  ∀ room node set, field.read room node = .ok set → node.Whole

/-- A field that may be missing is as thorough as its decoder. -/
@[simp] theorem optionalField_thorough {β : Type} (hdecode : decode.Thorough) (name : String)
    (set : α → β → β) : (optionalField name decode set).Thorough := by
  intro room node change h
  obtain ⟨value, hvalue, -⟩ := exists_of_map_eq_ok h
  exact hdecode room node value hvalue

/-- A field that has to be given is as thorough as its decoder. -/
@[simp] theorem requiredField_thorough {β : Type} (hdecode : decode.Thorough) (name : String)
    (set : α → β → β) : (requiredField name decode set).Thorough :=
  optionalField_thorough hdecode name set

variable {fields : List (Field α)}

/-- The fields of an object that are all read or skipped are whole. -/
theorem whole_of_readKeyed (hfields : ∀ field ∈ fields, field.Thorough) {room : Nat}
    {met : List String} {record : α} {given : List (Quoted × Node)} {result : List String × α}
    (h : readKeyed fields room met record given = .ok result) :
    (∀ field ∈ given, field.1.Whole) ∧ ∀ field ∈ given, field.2.Whole := by
  induction given generalizing met record with
  | nil => simp
  | cons entry given ih =>
    obtain ⟨key, node⟩ := entry
    rw [readKeyed] at h
    obtain ⟨content, hcontent, h⟩ := exists_of_bind_eq_ok h
    have hkey : key.Whole := .inr ⟨content, hcontent⟩
    suffices node.Whole ∧ ∃ met record, readKeyed fields room met record given = .ok result by
      obtain ⟨hnode, met, record, hmore⟩ := this
      obtain ⟨hkeys, hvalues⟩ := ih hmore
      exact ⟨List.forall_mem_cons.2 ⟨hkey, hkeys⟩, List.forall_mem_cons.2 ⟨hnode, hvalues⟩⟩
    split at h
    · rename_i field hfound
      split at h
      · cases h
      · obtain ⟨set, hset, h⟩ := exists_of_bind_eq_ok h
        exact ⟨hfields field (List.mem_of_find?_eq_some hfound) room node set hset, _, _, h⟩
    · split at h
      · cases h
      · rename_i hskip
        exact ⟨Node.whole_of_skipFault hskip, _, _, h⟩

/-- The items of an array that are all read are whole, and the array is closed. -/
theorem whole_of_readPositional (hfields : ∀ field ∈ fields, field.Thorough) {onExtra : Fault}
    {room : Nat} {record result : α} {items : List Node} {ending : Ending}
    (h : readPositional onExtra room fields record items ending = .ok result) :
    ending = .closed ∧ ∀ item ∈ items, item.Whole := by
  induction fields generalizing record items with
  | nil =>
    cases items with
    | nil =>
      obtain ⟨_, hclose, -⟩ := exists_of_bind_eq_ok h
      exact ⟨Ending.close_eq_ok hclose, fun _ hmem => absurd hmem List.not_mem_nil⟩
    | cons item items => cases h
  | cons field fields ih =>
    cases items with
    | nil =>
      obtain ⟨_, hfinish, -⟩ := exists_of_bind_eq_ok h
      exact ⟨Ending.finish_eq_ok hfinish, fun _ hmem => absurd hmem List.not_mem_nil⟩
    | cons item items =>
      obtain ⟨set, hset, h⟩ := exists_of_bind_eq_ok h
      obtain ⟨hfield, hothers⟩ := List.forall_mem_cons.1 hfields
      obtain ⟨hending, hitems⟩ := ih hothers h
      exact ⟨hending, List.forall_mem_cons.2 ⟨hfield room item set hset, hitems⟩⟩

/-- A record that is read is whole. -/
theorem Decoder.record_thorough (initial : α) (hfields : ∀ field ∈ fields, field.Thorough) :
    (Decoder.record initial fields).Thorough := by
  intro room node value h
  cases node with
  | object given ending =>
    obtain ⟨inner, -, h⟩ := exists_of_bind_eq_ok h
    obtain ⟨result, hread, h⟩ := exists_of_bind_eq_ok h
    obtain ⟨_, hfinish, -⟩ := exists_of_bind_eq_ok h
    obtain ⟨hkeys, hvalues⟩ := whole_of_readKeyed hfields hread
    rw [Ending.finish_eq_ok hfinish]
    exact .object hkeys hvalues
  | array items ending =>
    obtain ⟨inner, -, h⟩ := exists_of_bind_eq_ok h
    obtain ⟨rfl, hitems⟩ := whole_of_readPositional hfields h
    exact .array hitems
  | _ => cases h

end Combinators

/-- Items can be taken, whatever they are, when the array is closed and each of them can. -/
theorem itemsFault_eq_none {room : Nat} {items : List Node} {ending : Ending} :
    itemsFault room ending items = none ↔ ending = .closed ∧
      ∀ item ∈ items, item.readFault room = none := by
  induction items with
  | nil => cases ending <;> simp [itemsFault]
  | cons item items ih =>
    rw [itemsFault]
    cases hitem : item.readFault room with
    | some fault => simp [hitem]
    | none => simp [hitem, ih]

/-- Fields can be taken, whatever they are, when the object is closed, each key has a content and
each value can be taken. -/
theorem fieldsFault_eq_none {room : Nat} {fields : List (Quoted × Node)} {ending : Ending} :
    fieldsFault room ending fields = none ↔ ending = .closed ∧
      (∀ field ∈ fields, ∃ content, field.1.content = .ok content) ∧
      ∀ field ∈ fields, field.2.readFault room = none := by
  induction fields with
  | nil => cases ending <;> simp [fieldsFault]
  | cons field fields ih =>
    obtain ⟨key, value⟩ := field
    rw [fieldsFault]
    cases hkey : key.content with
    | error fault => simp [hkey]
    | ok content =>
      cases hvalue : value.readFault room with
      | some fault => simp [hvalue]
      | none => simp [hkey, hvalue, ih]

/-- A value that can be taken, whatever it is, is whole. -/
theorem Node.whole_of_readFault {room : Nat} {node : Node} (h : node.readFault room = none) :
    node.Whole := by
  induction node using Node.induct generalizing room with
  | null => exact .null
  | bool value => exact .bool value
  | number n => exact .number n
  | text q =>
    rw [Node.readFault] at h
    split at h
    · exact .text (.inr ⟨_, ‹_›⟩)
    · cases h
  | array items ending ih =>
    rw [Node.readFault] at h
    split at h
    · cases h
    · obtain ⟨rfl, hitems⟩ := itemsFault_eq_none.1 h
      exact .array fun item hmem => ih item hmem (hitems item hmem)
  | object fields ending ih =>
    rw [Node.readFault] at h
    split at h
    · cases h
    · obtain ⟨rfl, hkeys, hvalues⟩ := fieldsFault_eq_none.1 h
      exact .object (fun field hmem => .inr (hkeys field hmem))
        fun field hmem => ih field hmem (hvalues field hmem)
  | absent => exact absurd h (Option.some_ne_none _)
  | broken onRead onSkip => exact absurd h (Option.some_ne_none _)

/-- A text that is read in full spells the value that is read. -/
theorem written_of_read {α : Type} {decode : Decoder α} (hdecode : decode.Thorough) {text : String}
    {value : α} (h : (parse text).read decode = .ok value) :
    Written (parse text).root text := by
  obtain ⟨read, hread, h⟩ := exists_of_bind_eq_ok h
  have hwhole := hdecode documentRoom (parse text).root read hread
  have htrailing : (parse text).trailing = false := by
    cases htrailing : (parse text).trailing with
    | false => rfl
    | true => simp [htrailing] at h
  exact written_of_parse (by rw [← htrailing]) hwhole

end Json

open Json

/-- A constant that is read is whole. -/
@[simp] theorem Constant.decoder_thorough : Constant.decoder.Thorough := by
  intro room node value h
  obtain ⟨taken, htaken, -⟩ := exists_of_map_eq_ok h
  rw [Node.wellRead] at htaken
  split at htaken
  · cases htaken
  · exact Node.whole_of_readFault ‹_›

/-- A type that is read is whole. -/
@[simp] theorem TypeRef.decoder_thorough : TypeRef.decoder.Thorough := by
  intro room node value h
  obtain ⟨text, htext, -⟩ := exists_of_map_eq_ok h
  exact Decoder.text_thorough room node text htext

/-- A location that is read is whole. -/
@[simp] theorem Location.decoder_thorough : Location.decoder.Thorough :=
  Decoder.record_thorough _ (by simp [Location.jsonFields])

/-- An attribute that is read is whole. -/
@[simp] theorem Attribute.decoder_thorough : Attribute.decoder.Thorough :=
  Decoder.record_thorough _ (by simp [Attribute.jsonFields])

/-- A type parameter that is read is whole. -/
@[simp] theorem TypeParameter.decoder_thorough : TypeParameter.decoder.Thorough :=
  Decoder.record_thorough _ (by simp [TypeParameter.jsonFields])

/-- A field or property that is read is whole. -/
@[simp] theorem Member.decoder_thorough : Member.decoder.Thorough :=
  Decoder.record_thorough _ (by simp [Member.jsonFields])

/-- A parameter that is read is whole. -/
@[simp] theorem Parameter.decoder_thorough : Parameter.decoder.Thorough :=
  Decoder.record_thorough _ (by simp [Parameter.jsonFields])

/-- A method that is read is whole. -/
@[simp] theorem Method.decoder_thorough : Method.decoder.Thorough :=
  Decoder.record_thorough _ (by simp [Method.jsonFields])

/-- A type declaration that is read is whole. -/
@[simp] theorem TypeDecl.decoder_thorough : TypeDecl.decoder.Thorough :=
  Decoder.record_thorough _ (by simp [TypeDecl.jsonFields])

/-- A mention that is read is whole. -/
@[simp] theorem Mention.decoder_thorough : Mention.decoder.Thorough :=
  Decoder.record_thorough _ (by simp [Mention.jsonFields])

/-- Settings that are read are whole. -/
@[simp] theorem Config.decoder_thorough : Config.decoder.Thorough :=
  Decoder.record_thorough _ (by simp [Config.jsonFields])

/-- A snapshot that is read is whole. -/
theorem Snapshot.decoder_thorough : Snapshot.decoder.Thorough :=
  Decoder.record_thorough _ (by simp [Snapshot.jsonFields])

end SceneWiring
