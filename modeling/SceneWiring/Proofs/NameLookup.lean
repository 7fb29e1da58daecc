import SceneWiring.Proofs.Emission
/-!
# Names and the declarations they denote

A list of declarations makes a program exactly when no metadata name is repeated; reported is the
first declaration that repeats a name before it. What a written name denotes in a program is what a
scan of the list of declarations finds. The scan tries the metadata name, then for a name with type
arguments the definition with that many parameters, and for a name without arguments the definition
of that full name, provided there is only one.
-/

namespace SceneWiring

/-- The first repeat of a list stands behind names without a repeat, and is one of these or of those
seen before. -/
theorem exists_of_firstRepeat_eq_some {seen names : List String} {key : String}
    (h : firstRepeat seen names = some key) :
    ∃ before after, names = before ++ key :: after ∧ firstRepeat seen before = none ∧
      (key ∈ before ∨ key ∈ seen) := by
  induction names generalizing seen with
  | nil => cases h
  | cons name rest ih =>
    rw [firstRepeat] at h
    split at h
    · rename_i hseen
      cases h
      exact ⟨[], rest, rfl, rfl, .inr hseen⟩
    · rename_i hfresh
      obtain ⟨before, after, rfl, hnone, hkey⟩ := ih h
      refine ⟨name :: before, after, rfl, ?_, ?_⟩
      · rw [firstRepeat, if_neg hfresh, hnone]
      · rw [List.mem_cons] at hkey ⊢
        tauto

/-- The declaration at a position has the metadata name of an earlier one. -/
def Repeats (types : List TypeDecl) (i : Fin types.length) : Prop :=
  ∃ j < i, types[j].metadataName = types[i].metadataName

/-- Among declarations with distinct metadata names none repeats an earlier one. -/
theorem not_repeats_of_nodup_take {types : List TypeDecl} {n : Nat}
    (h : ((types.map TypeDecl.metadataName).take n).Nodup) {i : Fin types.length}
    (hi : i.val < n) : ¬Repeats types i := by
  rintro ⟨j, hji, hname⟩
  have hget (k : Fin types.length) (hk : k.val < n) :
      ((types.map TypeDecl.metadataName).take n)[k.val]? = some types[k].metadataName := by
    rw [List.getElem?_take_of_lt hk, List.getElem?_map, List.getElem?_eq_getElem k.isLt]
    rfl
  have hj : j.val < n := Nat.lt_trans hji hi
  have hlength : j.val < ((types.map TypeDecl.metadataName).take n).length := by
    rw [List.length_take, List.length_map]
    omega
  have hsame := (hget j hj).trans ((congrArg some hname).trans (hget i hi).symm)
  exact absurd ((List.getElem?_inj hlength h).1 hsame) (Nat.ne_of_lt hji)

/-- The first repeated metadata name is that of the first declaration that repeats one. -/
theorem exists_repeats_of_firstRepeat {types : List TypeDecl} {key : String}
    (h : firstRepeat [] (types.map TypeDecl.metadataName) = some key) :
    ∃ i : Fin types.length, Repeats types i ∧ (∀ j < i, ¬Repeats types j) ∧
      types[i].metadataName = key := by
  obtain ⟨before, after, hsplit, hnone, hkey⟩ := exists_of_firstRepeat_eq_some h
  have hnodup := ((firstRepeat_eq_none_iff _ _).1 hnone).1
  have hbefore : key ∈ before := hkey.resolve_right List.not_mem_nil
  have hlength := congrArg List.length hsplit
  rw [List.length_map, List.length_append, List.length_cons] at hlength
  have hget (k : Fin types.length) :
      (before ++ key :: after)[k.val]? = some types[k].metadataName := by
    rw [← hsplit, List.getElem?_map, List.getElem?_eq_getElem k.isLt]
    rfl
  have hi : types[before.length].metadataName = key := by
    have hhead := hget ⟨before.length, by omega⟩
    rw [List.getElem?_append_right (Nat.le_refl _), Nat.sub_self] at hhead
    exact (Option.some.inj hhead).symm
  refine ⟨⟨before.length, by omega⟩, ?_, fun j hj => ?_, hi⟩
  · obtain ⟨j, hj, hjkey⟩ := List.mem_iff_getElem.1 hbefore
    refine ⟨⟨j, by omega⟩, hj, ?_⟩
    have hearlier := hget ⟨j, by omega⟩
    rw [List.getElem?_append_left hj, List.getElem?_eq_getElem hj, hjkey] at hearlier
    exact (Option.some.inj hearlier).symm.trans hi.symm
  · refine not_repeats_of_nodup_take ?_ hj
    rw [hsplit, List.take_left]
    exact hnodup

/-- The position of the declaration with that metadata name. -/
def scanKey? (types : List TypeDecl) (key : String) : Option Nat :=
  types.findIdx? (·.metadataName == key)

/-- The position of the declaration with that full name, if there is exactly one. -/
def scanName? (types : List TypeDecl) (name : String) : Option Nat :=
  if types.countP (·.fullName == name) = 1 then types.findIdx? (·.fullName == name) else none

/-- The position of the declaration that a written name denotes, found without an index. -/
def scan? (types : List TypeDecl) (written : String) : Option Nat :=
  let name := dropRootMark written.toList
  let definition := String.ofList (definitionChars name)
  (scanKey? types (String.ofList name)).or <|
    if '<' ∈ name then
      scanKey? types (definition ++ "`" ++ toString (topCommas 0 (argumentsOf name) + 1))
    else scanName? types definition

/-- The scan looks at nothing but the names of the declarations. -/
theorem scan?_congr {types types' : List TypeDecl}
    (hkeys : types.map TypeDecl.metadataName = types'.map TypeDecl.metadataName)
    (hnames : types.map TypeDecl.fullName = types'.map TypeDecl.fullName) (written : String) :
    scan? types written = scan? types' written := by
  have hkey (key : String) : scanKey? types key = scanKey? types' key := by
    have hindex := congrArg (List.findIdx? (· == key)) hkeys
    rwa [List.findIdx?_map, List.findIdx?_map] at hindex
  have hname (name : String) : scanName? types name = scanName? types' name := by
    have hindex := congrArg (List.findIdx? (· == name)) hnames
    have hcount := congrArg (List.countP (· == name)) hnames
    rw [List.findIdx?_map, List.findIdx?_map] at hindex
    rw [List.countP_map, List.countP_map] at hcount
    unfold scanName?
    exact if_congr (Iff.of_eq (congrArg (· = 1) hcount)) hindex rfl
  unfold scan?
  simp only [hkey, hname]

namespace Compilation

/-- The index of metadata names holds what the scan finds. -/
theorem withKey?_eq_scan (c : Compilation) (key : String) :
    c.withKey? key = (scanKey? c.types key).bind (c.types[·]?) := by
  rw [withKey?_eq_find?, scanKey?, List.find?_eq_bind_findIdx?_getElem?]

/-- The index of full names holds what the scan finds. -/
theorem withName?_eq_scan (c : Compilation) (name : String) :
    c.withName? name = (scanName? c.types name).bind (c.types[·]?) := by
  rw [withName?_eq_filter, scanName?, List.countP_eq_length_filter]
  split
  · rename_i only hfilter
    have hfind : c.types.find? (·.fullName == name) = some only := by
      rw [← List.head?_filter, hfilter, List.head?_cons]
    rw [if_pos (by rw [hfilter, List.length_singleton]),
      ← List.find?_eq_bind_findIdx?_getElem?, hfind]
  · rename_i hfilter
    have hlength : ¬(c.types.filter (·.fullName == name)).length = 1 := by
      intro hone
      obtain ⟨only, honly⟩ := List.length_eq_one_iff.1 hone
      exact hfilter only honly
    rw [if_neg hlength, Option.bind_none]

/-- A written name denotes the declaration that the scan finds. -/
theorem lookup_eq_scan (c : Compilation) (written : String) :
    c.lookup written = (scan? c.types written).bind (c.types[·]?) := by
  unfold lookup scan?
  dsimp only
  generalize dropRootMark written.toList = name
  rw [withKey?_eq_scan]
  cases hkey : scanKey? c.types (String.ofList name) with
  | some i =>
    obtain ⟨hi, -⟩ := List.findIdx?_eq_some_iff_getElem.1 hkey
    rw [Option.some_or, Option.bind_some, List.getElem?_eq_getElem hi]
  | none =>
    rw [Option.none_or, Option.bind_none, arity?]
    by_cases harguments : '<' ∈ name
    · rw [if_pos harguments, if_pos harguments]
      exact c.withKey?_eq_scan _
    · rw [if_neg harguments, if_neg harguments]
      exact c.withName?_eq_scan _

/-- What a scan finds is a position in the list. -/
theorem lt_length_of_scan? {types : List TypeDecl} {written : String} {i : Nat}
    (h : scan? types written = some i) : i < types.length := by
  have hfound (p : TypeDecl → Bool) (hp : types.findIdx? p = some i) : i < types.length :=
    (List.findIdx?_eq_some_iff_getElem.1 hp).1
  unfold scan? at h
  rcases Option.or_eq_some_iff.1 h with hkey | ⟨-, hrest⟩
  · exact hfound _ hkey
  · split at hrest
    · exact hfound _ hrest
    · unfold scanName? at hrest
      split at hrest
      · exact hfound _ hrest
      · cases hrest

/-- The position of what a written name denotes is the one that the scan finds. -/
theorem map_position_lookup (c : Compilation) (written : String) :
    (c.lookup written).map c.position = scan? c.types written := by
  rw [lookup_eq_scan]
  cases hscan : scan? c.types written with
  | none => rfl
  | some i =>
    have hi := lt_length_of_scan? hscan
    rw [Option.bind_some, List.getElem?_eq_getElem hi, Option.map_some, c.position_getElem hi]

/-- A program that is made of declarations and mentions holds just these. -/
theorem ofTypes_eq_ok {types : List TypeDecl} {mentions : List Mention} {c : Compilation}
    (h : ofTypes types mentions = .ok c) : c.types = types ∧ c.mentions = mentions := by
  unfold ofTypes at h
  split at h
  · cases h
  · cases h
    exact ⟨rfl, rfl⟩

/-- A document that gives a program and settings holds a snapshot of them. -/
theorem ofDocument_eq_ok {document : Json.Document} {c : Compilation} {config : Config}
    (h : ofDocument document = .ok (c, config)) :
    ∃ s, Snapshot.ofDocument document = .ok s ∧ c.types = s.types ∧ c.mentions = s.mentions ∧
      config = s.config := by
  unfold ofDocument at h
  cases hs : Snapshot.ofDocument document with
  | error fault =>
    rw [hs] at h
    cases h
  | ok s =>
    rw [hs] at h
    obtain ⟨made, hmade, hpair⟩ := exists_of_map_eq_ok h
    obtain ⟨rfl, rfl⟩ := Prod.mk.inj hpair
    obtain ⟨htypes, hmentions⟩ := ofTypes_eq_ok hmade
    exact ⟨s, rfl, htypes, hmentions, rfl⟩

/-- Declarations with distinct metadata names make a program, whatever the mentions are. -/
theorem exists_ofTypes {types : List TypeDecl} (h : (types.map TypeDecl.metadataName).Nodup)
    (mentions : List Mention) : ∃ c, ofTypes types mentions = .ok c := by
  have hnone : firstRepeat [] (types.map TypeDecl.metadataName) = none :=
    (firstRepeat_eq_none_iff _ _).2 ⟨h, fun _ _ => List.not_mem_nil⟩
  unfold ofTypes
  split
  · rename_i key hrepeat
    rw [hnone] at hrepeat
    cases hrepeat
  · exact ⟨_, rfl⟩

/-- A program is made of its declarations and its mentions. -/
theorem ofTypes_self (c : Compilation) : ofTypes c.types c.mentions = .ok c := by
  obtain ⟨c', hc'⟩ := exists_ofTypes c.distinct c.mentions
  obtain ⟨htypes, hmentions⟩ := ofTypes_eq_ok hc'
  have hsame : c' = c := by
    obtain ⟨types, mentions, byKey, byName, distinct, rfl, rfl⟩ := c
    obtain ⟨types', mentions', byKey', byName', distinct', rfl, rfl⟩ := c'
    cases htypes
    cases hmentions
    rfl
  rw [hc', hsame]

/-- Declarations that make no program have a repeated metadata name. -/
theorem ofTypes_eq_error {types : List TypeDecl} {mentions : List Mention} {failure : Failure}
    (h : ofTypes types mentions = .error failure) :
    ∃ key, firstRepeat [] (types.map TypeDecl.metadataName) = some key ∧
      failure = .duplicateType key := by
  unfold ofTypes at h
  split at h
  · rename_i key hrepeat
    cases h
    exact ⟨key, hrepeat, rfl⟩
  · cases h

/-- Declarations make a program exactly when none repeats the metadata name of an earlier one. If
some do, the failure carries the name of the first that does. If none does, every written name
denotes the declaration that a scan of the list finds, and nothing where the scan finds none. -/
theorem ofTypes_indexes_declarations (types : List TypeDecl) (mentions : List Mention) :
    match ofTypes types mentions with
    | .error failure =>
      ∃ i : Fin types.length, Repeats types i ∧ (∀ j < i, ¬Repeats types j) ∧
        failure = .duplicateType types[i].metadataName
    | .ok c =>
      (∀ i : Fin types.length, ¬Repeats types i) ∧ c.types = types ∧
        ∀ written, (c.lookup written).map c.position = scan? types written ∧
          c.lookup written = (scan? types written).bind (types[·]?) := by
  cases hmade : ofTypes types mentions with
  | error failure =>
    obtain ⟨key, hrepeat, rfl⟩ := ofTypes_eq_error hmade
    obtain ⟨i, hi, hfirst, rfl⟩ := exists_repeats_of_firstRepeat hrepeat
    exact ⟨i, hi, hfirst, rfl⟩
  | ok c =>
    obtain ⟨rfl, -⟩ := ofTypes_eq_ok hmade
    refine ⟨fun i => ?_, rfl, fun written => ⟨c.map_position_lookup _, c.lookup_eq_scan _⟩⟩
    refine not_repeats_of_nodup_take (n := c.types.length) ?_ i.isLt
    rw [← List.length_map TypeDecl.metadataName, List.take_length]
    exact c.distinct

end Compilation

end SceneWiring
