import Mathlib.Data.String.Basic
import SceneWiring.Json.Print
import SceneWiring.Proofs.RecordReading
/-!
# Maps of entries

A map is a list of entries whose keys ascend. Setting a key keeps it one, and changes what is found
under that key only. Main statement: of the fields of an object that are read into a map the last one
under each key is found there, and an object that is written from a map has at most one field under
each key, with what is found there.
-/

namespace SceneWiring.Json

variable {α : Type}

/-! ## Setting keys -/

/-- The keys of the entries ascend, so that no two of them are the same. -/
def Ascending (entries : List (String × α)) : Prop := entries.Pairwise fun e f => e.1 < f.1

/-- No key of a map occurs twice. -/
theorem Ascending.nodup_keys {entries : List (String × α)} (h : Ascending entries) :
    (entries.map (·.1)).Nodup :=
  List.pairwise_map.2 (h.imp fun hlt => ne_of_lt hlt)

/-- An entry in front is found under its key. -/
theorem lookup_cons_eq_ite (k other : String) (v : α) (entries : List (String × α)) :
    ((k, v) :: entries).lookup other = if other = k then some v else entries.lookup other := by
  by_cases h : other = k
  · simp [h]
  · rw [if_neg h, List.lookup_cons, beq_false_of_ne h]

/-- What is there after a key is set was there before, or is the new entry. -/
theorem mem_setKey {key : String} {value : α} {entries : List (String × α)} {entry : String × α}
    (h : entry ∈ setKey key value entries) : entry = (key, value) ∨ entry ∈ entries := by
  induction entries with
  | nil => exact .inl (List.mem_singleton.1 h)
  | cons first entries ih =>
    rw [setKey] at h
    split at h
    · exact List.mem_cons.1 h
    · split at h
      · exact (List.mem_cons.1 h).imp_right (List.mem_cons_of_mem _)
      · obtain rfl | h := List.mem_cons.1 h
        · exact .inr List.mem_cons_self
        · exact (ih h).imp_right (List.mem_cons_of_mem _)

/-- Setting a key keeps the keys in order. -/
theorem Ascending.setKey {entries : List (String × α)} (h : Ascending entries) (key : String)
    (value : α) : Ascending (setKey key value entries) := by
  induction entries with
  | nil => exact List.pairwise_singleton _ _
  | cons first entries ih =>
    obtain ⟨hfirst, hentries⟩ := List.pairwise_cons.1 h
    rw [Json.setKey]
    split
    · rename_i hlt
      refine List.pairwise_cons.2 ⟨List.forall_mem_cons.2 ⟨hlt, fun entry hentry => ?_⟩, h⟩
      exact lt_trans hlt (hfirst entry hentry)
    · rename_i hnot
      split
      · rename_i heq
        rw [heq]
        exact List.pairwise_cons.2 ⟨hfirst, hentries⟩
      · rename_i hne
        refine List.pairwise_cons.2 ⟨fun entry hentry => ?_, ih hentries⟩
        obtain rfl | hentry := mem_setKey hentry
        · exact lt_of_le_of_ne (not_lt.1 hnot) (Ne.symm hne)
        · exact hfirst entry hentry

/-- A key that is set is found with its value; under every other key nothing changes. -/
theorem lookup_setKey (key other : String) (value : α) (entries : List (String × α)) :
    (setKey key value entries).lookup other =
      if other = key then some value else entries.lookup other := by
  induction entries with
  | nil => exact lookup_cons_eq_ite key other value []
  | cons first entries ih =>
    obtain ⟨k, v⟩ := first
    rw [setKey]
    split
    · exact lookup_cons_eq_ite key other value _
    · split
      · rename_i heq
        rw [lookup_cons_eq_ite, lookup_cons_eq_ite, ← heq]
        split <;> rfl
      · rename_i hne
        rw [lookup_cons_eq_ite, ih, lookup_cons_eq_ite]
        by_cases h : other = k
        · rw [if_pos h, if_pos h, if_neg (h ▸ Ne.symm hne)]
        · rw [if_neg h, if_neg h]

/-- Two different keys are set in either order. -/
theorem setKey_comm {key key' : String} (hne : key ≠ key') (value value' : α)
    (entries : List (String × α)) :
    setKey key value (setKey key' value' entries) =
      setKey key' value' (setKey key value entries) := by
  wlog hlt : key < key' generalizing key key' value value'
  · exact (this hne.symm value' value (lt_of_le_of_ne (not_lt.1 hlt) hne.symm)).symm
  have hnot : ¬key' < key := not_lt_of_gt hlt
  induction entries with
  | nil => simp [setKey, hlt, hnot, hne.symm]
  | cons entry entries ih =>
    obtain ⟨k, v⟩ := entry
    rcases lt_trichotomy key k with hk | rfl | hk
    · rcases lt_trichotomy key' k with hk' | rfl | hk'
      · simp [setKey, hk, hk', hlt, hnot, hne.symm]
      · simp [setKey, hlt, hnot, hne.symm]
      · simp [setKey, hk, not_lt_of_gt hk', hk'.ne', hnot, hne.symm]
    · simp [setKey, hnot, hne.symm]
    · have hk' : k < key' := hk.trans hlt
      simp [setKey, not_lt_of_gt hk, not_lt_of_gt hk', hk.ne', hk'.ne', ih]

/-! ## Extending maps -/

/-- What is there after a map is extended was in one of the two. -/
theorem mem_extend {entries more : List (String × α)} {entry : String × α}
    (h : entry ∈ extend entries more) : entry ∈ entries ∨ entry ∈ more := by
  induction more generalizing entries with
  | nil => exact .inl h
  | cons first more ih =>
    obtain h | h := ih h
    · obtain rfl | h := mem_setKey h
      · exact .inr List.mem_cons_self
      · exact .inl h
    · exact .inr (List.mem_cons_of_mem _ h)

/-- Extending a map keeps the keys in order. -/
theorem Ascending.extend {entries : List (String × α)} (h : Ascending entries)
    (more : List (String × α)) : Ascending (extend entries more) := by
  induction more generalizing entries with
  | nil => exact h
  | cons first more ih => exact ih (h.setKey first.1 first.2)

/-- In an extended map the entries come first that it was extended with. -/
theorem lookup_extend (entries : List (String × α)) {more : List (String × α)}
    (h : (more.map (·.1)).Nodup) (key : String) :
    (extend entries more).lookup key = (more.lookup key).or (entries.lookup key) := by
  induction more generalizing entries with
  | nil => rfl
  | cons first more ih =>
    obtain ⟨k, v⟩ := first
    rw [List.map_cons, List.nodup_cons] at h
    have hrest := ih (setKey k v entries) h.2
    rw [lookup_setKey] at hrest
    rw [extend, List.foldl_cons, ← extend, hrest, lookup_cons_eq_ite]
    by_cases hkey : key = k
    · have hnone : more.lookup k = none :=
        List.lookup_eq_none_iff.2 fun entry hentry => by
          simpa using fun heq : k = entry.1 => h.1 (List.mem_map.2 ⟨entry, hentry, heq.symm⟩)
      simp [hkey, hnone]
    · simp [hkey]

/-! ## Objects and maps -/

/-- All entries are read when each key and each value is. -/
theorem exists_addEntries {decode : Decoder α} {room : Nat} {given : List (Quoted × Node)}
    (hkeys : ∀ field ∈ given, ∃ content, field.1.content = .ok content)
    (hvalues : ∀ field ∈ given, ∃ v, decode room field.2 = .ok v) (entries : List (String × α)) :
    ∃ result, addEntries decode room entries given = .ok result := by
  induction given generalizing entries with
  | nil => exact ⟨entries, rfl⟩
  | cons field given ih =>
    obtain ⟨⟨key, hkey⟩, hkeys⟩ := List.forall_mem_cons.1 hkeys
    obtain ⟨⟨v, hv⟩, hvalues⟩ := List.forall_mem_cons.1 hvalues
    obtain ⟨result, hresult⟩ := ih hkeys hvalues (setKey key v entries)
    exact ⟨result, bind_eq_ok_iff.2 ⟨key, hkey, bind_eq_ok_iff.2 ⟨v, hv, hresult⟩⟩⟩

/-- A map that is read from the fields of an object and a map has its keys in order. It has no other
entries than these, and under each key the last field of it, or else what was there before. -/
theorem addEntries_spec {room : Nat} {given : List (Quoted × Node)}
    {entries result : List (String × Node)}
    (h : addEntries Decoder.value room entries given = .ok result) :
    (Ascending entries → Ascending result) ∧
      (∀ entry ∈ result, entry ∈ entries ∨ ∃ field ∈ given, field.2 = entry.2) ∧
      ∀ key, result.lookup key = (valuesUnder key given).getLast?.or (entries.lookup key) := by
  induction given generalizing entries with
  | nil =>
    cases h
    exact ⟨id, fun _ hentry => .inl hentry, fun _ => rfl⟩
  | cons field given ih =>
    obtain ⟨k, node⟩ := field
    obtain ⟨content, hcontent, h⟩ := bind_eq_ok_iff.1 h
    obtain ⟨_, hnode, h⟩ := bind_eq_ok_iff.1 h
    obtain rfl := Except.ok.inj hnode
    obtain ⟨hascending, hmem, hlookup⟩ := ih h
    refine ⟨fun hentries => hascending (hentries.setKey content node), fun entry hentry => ?_,
      fun key => ?_⟩
    · obtain hentry | ⟨field, hfield, heq⟩ := hmem entry hentry
      · obtain rfl | hentry := mem_setKey hentry
        · exact .inr ⟨(k, node), List.mem_cons_self, rfl⟩
        · exact .inl hentry
      · exact .inr ⟨field, List.mem_cons_of_mem _ hfield, heq⟩
    · rw [hlookup, lookup_setKey, valuesUnder_cons hcontent]
      by_cases hkey : content = key
      · rw [if_pos hkey.symm, if_pos hkey, List.getLast?_cons]
        cases (valuesUnder key given).getLast? <;> rfl
      · rw [if_neg (Ne.symm hkey), if_neg hkey]

/-- The values under a key of an object that is written from entries. -/
theorem valuesUnder_struct (key : String) (entries : List (String × Node)) :
    valuesUnder key (entries.map fun entry => (.plain entry.1, entry.2)) =
      (entries.filter (·.1 == key)).map (·.2) := by
  simp [valuesUnder, Quoted.plain, List.filter_map, Function.comp_def]

/-- The first value under a key of an object that is written from entries is what is found there. -/
theorem head?_valuesUnder_struct (key : String) (entries : List (String × Node)) :
    (valuesUnder key (entries.map fun entry => (.plain entry.1, entry.2))).head? =
      entries.lookup key := by
  rw [valuesUnder_struct]
  induction entries with
  | nil => rfl
  | cons entry entries ih =>
    obtain ⟨k, node⟩ := entry
    rw [lookup_cons_eq_ite]
    by_cases h : k = key
    · simp [h]
    · rw [if_neg (Ne.symm h), ← ih]
      simp [h]

/-- An object that is written from a map has no key twice. -/
theorem Ascending.valuesUnder_le_one {entries : List (String × Node)} (h : Ascending entries)
    (key : String) :
    (valuesUnder key (entries.map fun entry => (.plain entry.1, entry.2))).length ≤ 1 := by
  rw [valuesUnder_struct, List.length_map]
  have hcount := List.nodup_iff_count.1 h.nodup_keys key
  rwa [List.count, List.countP_map, List.countP_eq_length_filter] at hcount

end SceneWiring.Json
