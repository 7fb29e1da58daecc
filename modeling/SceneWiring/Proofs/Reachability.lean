import Mathlib.Data.List.Nodup
import Mathlib.Data.List.Perm.Subperm
import Mathlib.Logic.Relation
import SceneWiring.Hierarchy
/-!
# Reachability in the type hierarchy

One type reaches another when a chain of references in bases and interfaces leads there. The search
in rounds finds exactly the types reached, whatever cycles, diamonds and dangling references the
declarations hold. The bound on the rounds never cuts it short: a round that finds no new type ends
the search, and every other round finds one of the finitely many that are left. A search with a stack of
pending types, which stops as soon as it takes the target off, finds the same.
-/

namespace SceneWiring.Compilation

/-- Among the declared types the metadata name tells each from all others. -/
theorem eq_of_metadataName {c : Compilation} {d e : TypeDecl} (hd : d ∈ c.types)
    (he : e ∈ c.types) (h : d.metadataName = e.metadataName) : d = e :=
  List.inj_on_of_nodup_map c.distinct hd he h

/-- A metadata name finds the declared type that has it. -/
theorem withKey?_eq_some_iff {c : Compilation} {d : TypeDecl} {key : String} :
    c.withKey? key = some d ↔ d ∈ c.types ∧ d.metadataName = key := by
  refine ⟨mem_of_withKey?, fun ⟨hd, hkey⟩ => ?_⟩
  cases hfound : c.withKey? key with
  | none =>
    rw [withKey?_eq_find?] at hfound
    exact absurd (beq_iff_eq.2 hkey) (List.find?_eq_none.1 hfound d hd)
  | some e =>
    obtain ⟨he, hekey⟩ := mem_of_withKey? hfound
    rw [eq_of_metadataName he hd (hekey.trans hkey.symm)]

/-- A reference in the base or the interfaces of the first type denotes the second. -/
def Parent (c : Compilation) (d e : TypeDecl) : Prop :=
  ∃ written : TypeRef, (d.base? = some written ∨ written ∈ d.interfaces) ∧
    c.resolve written = some e

/-- A chain of bases and interfaces, perhaps an empty one, leads from the first type to the
second. -/
def Reaches (c : Compilation) : TypeDecl → TypeDecl → Prop := Relation.ReflTransGen c.Parent

/-- The parents listed for a type are those that its declaration refers to. -/
theorem mem_parents_iff (c : Compilation) (d e : TypeDecl) : e ∈ c.parents d ↔ c.Parent d e := by
  simp only [parents, Parent, List.mem_filterMap, List.mem_append, Option.mem_toList]

/-- A parent is a declared type. -/
theorem Parent.mem {c : Compilation} {d e : TypeDecl} (h : c.Parent d e) : e ∈ c.types := by
  obtain ⟨written, -, hr⟩ := h
  exact mem_of_lookup hr

/-- From a declared type only declared types are reached. -/
theorem Reaches.mem {c : Compilation} {d e : TypeDecl} (hd : d ∈ c.types) (h : c.Reaches d e) :
    e ∈ c.types := by
  cases h with
  | refl => exact hd
  | tail _ hstep => exact hstep.mem

/-- What is new in a list stands in the list. -/
theorem mem_of_mem_unknown {known : List String} {ds : List TypeDecl} {e : TypeDecl}
    (h : e ∈ unknown known ds) : e ∈ ds := by
  induction ds generalizing known with
  | nil => exact h
  | cons d rest ih =>
    rw [unknown] at h
    split at h
    · exact List.mem_cons_of_mem d (ih h)
    · rcases List.mem_cons.1 h with rfl | h
      · exact List.mem_cons_self
      · exact List.mem_cons_of_mem d (ih h)

/-- What is new in a list was not known before. -/
theorem metadataName_not_mem_of_mem_unknown {known : List String} {ds : List TypeDecl}
    {e : TypeDecl} (h : e ∈ unknown known ds) : e.metadataName ∉ known := by
  induction ds generalizing known with
  | nil => cases h
  | cons d rest ih =>
    rw [unknown] at h
    split at h
    · exact ih h
    · rename_i fresh
      rcases List.mem_cons.1 h with rfl | h
      · exact fresh
      · exact fun mem => ih h (List.mem_cons_of_mem _ mem)

/-- What is new in a list is listed once. -/
theorem nodup_unknown (known : List String) (ds : List TypeDecl) :
    ((unknown known ds).map TypeDecl.metadataName).Nodup := by
  induction ds generalizing known with
  | nil => exact List.nodup_nil
  | cons d rest ih =>
    rw [unknown]
    split
    · exact ih known
    · rw [List.map_cons, List.nodup_cons]
      refine ⟨fun mem => ?_, ih _⟩
      obtain ⟨e, he, hname⟩ := List.mem_map.1 mem
      exact metadataName_not_mem_of_mem_unknown he (hname ▸ List.mem_cons_self)

/-- After a list has been looked through, all its types are known. -/
theorem known_or_mem_unknown (known : List String) {ds : List TypeDecl} {e : TypeDecl}
    (h : e ∈ ds) :
    e.metadataName ∈ (unknown known ds).map TypeDecl.metadataName ++ known := by
  induction ds generalizing known with
  | nil => cases h
  | cons d rest ih =>
    rw [unknown]
    rcases List.mem_cons.1 h with rfl | h
    · split
      · exact List.mem_append_right _ ‹_›
      · exact List.mem_cons_self
    · split
      · exact ih known h
      · have mem := ih (d.metadataName :: known) h
        simp only [List.mem_append, List.mem_cons, List.map_cons] at mem ⊢
        tauto

/-- What holds of the search from a type between two rounds: the names known belong to types that
are reached, and each of them has all its parents known or is still to be looked at. -/
structure Explored (c : Compilation) (d : TypeDecl) (known : List String)
    (newest : List TypeDecl) : Prop where
  /-- No name is known twice. -/
  nodup : known.Nodup
  /-- The search knows where it started. -/
  start : d.metadataName ∈ known
  /-- Only types that are reached are known. -/
  reached : ∀ key ∈ known, ∃ e ∈ c.types, c.Reaches d e ∧ e.metadataName = key
  /-- The types to be looked at are reached. -/
  newest_reached : ∀ e ∈ newest, c.Reaches d e
  /-- Every known type has been looked at or is going to be. -/
  expanded : ∀ e ∈ c.types, e.metadataName ∈ known →
    e ∈ newest ∨ ∀ p, c.Parent e p → p.metadataName ∈ known

/-- Before the first round just the type itself is known. -/
theorem explored_start {c : Compilation} {d : TypeDecl} (hd : d ∈ c.types) :
    c.Explored d [d.metadataName] [d] where
  nodup := List.nodup_singleton _
  start := List.mem_singleton_self _
  reached _ hkey := ⟨d, hd, .refl, (List.mem_singleton.1 hkey).symm⟩
  newest_reached _ he := List.mem_singleton.1 he ▸ .refl
  expanded _ he hknown :=
    .inl (List.mem_singleton.2 (eq_of_metadataName he hd (List.mem_singleton.1 hknown)))

/-- A round keeps what holds of the search. -/
theorem Explored.round {c : Compilation} {d : TypeDecl} {known : List String}
    {newest : List TypeDecl} (hd : d ∈ c.types) (h : c.Explored d known newest) :
    c.Explored d
      ((unknown known (newest.flatMap c.parents)).map TypeDecl.metadataName ++ known)
      (unknown known (newest.flatMap c.parents)) := by
  have found (e : TypeDecl) (he : e ∈ unknown known (newest.flatMap c.parents)) :
      c.Reaches d e := by
    obtain ⟨child, hchild, hparent⟩ := List.mem_flatMap.1 (mem_of_mem_unknown he)
    exact (h.newest_reached child hchild).tail ((mem_parents_iff c child e).1 hparent)
  refine ⟨?_, List.mem_append_right _ h.start, ?_, found, ?_⟩
  · refine List.Nodup.append (nodup_unknown _ _) h.nodup fun key hnew hold => ?_
    obtain ⟨e, he, rfl⟩ := List.mem_map.1 hnew
    exact metadataName_not_mem_of_mem_unknown he hold
  · intro key hkey
    rcases List.mem_append.1 hkey with hnew | hold
    · obtain ⟨e, he, rfl⟩ := List.mem_map.1 hnew
      exact ⟨e, (found e he).mem hd, found e he, rfl⟩
    · exact h.reached key hold
  · intro e he hknown
    rcases List.mem_append.1 hknown with hnew | hold
    · obtain ⟨e', he', hname⟩ := List.mem_map.1 hnew
      have same : e' = e := eq_of_metadataName ((found e' he').mem hd) he hname
      exact .inl (same ▸ he')
    · refine .inr fun p hp => ?_
      rcases h.expanded e he hold with pending | done
      · exact known_or_mem_unknown known
          (List.mem_flatMap.2 ⟨e, pending, (mem_parents_iff c e p).2 hp⟩)
      · exact List.mem_append_right _ (done p hp)

/-- There are no more known names than declared types. -/
theorem Explored.length_le {c : Compilation} {d : TypeDecl} {known : List String}
    {newest : List TypeDecl} (h : c.Explored d known newest) :
    known.length ≤ c.types.length := by
  have sub : known ⊆ c.types.map TypeDecl.metadataName := fun key hkey => by
    obtain ⟨e, he, -, rfl⟩ := h.reached key hkey
    exact List.mem_map_of_mem he
  simpa using (List.subperm_of_subset h.nodup sub).length_le

/-- With nothing left to look at, rounds change nothing. -/
theorem reachedIn_nil (c : Compilation) (rounds : Nat) (known : List String) :
    c.reachedIn rounds known [] = known := by
  cases rounds <;> rfl

/-- A round for every declared type that is not known yet is enough: the search then ends with nothing
left to look at, and more rounds give the same. -/
theorem Explored.exists_reachedIn {c : Compilation} {d : TypeDecl} (hd : d ∈ c.types) (enough : Nat)
    {known : List String} {newest : List TypeDecl} (h : c.Explored d known newest)
    (hbound : c.types.length < known.length + enough) :
    ∃ names, c.Explored d names [] ∧
      ∀ rounds, enough ≤ rounds → c.reachedIn rounds known newest = names := by
  induction enough generalizing known newest with
  | zero => exact absurd h.length_le (by omega)
  | succ enough ih =>
    cases newest with
    | nil => exact ⟨known, h, fun rounds _ => c.reachedIn_nil rounds known⟩
    | cons e newest =>
      have next := h.round hd
      have hround (rounds : Nat) (hrounds : enough + 1 ≤ rounds) :
          c.reachedIn rounds known (e :: newest) =
            c.reachedIn (rounds - 1)
              ((unknown known ((e :: newest).flatMap c.parents)).map TypeDecl.metadataName ++ known)
              (unknown known ((e :: newest).flatMap c.parents)) := by
        obtain ⟨rounds, rfl⟩ := Nat.exists_eq_add_one_of_ne_zero (by omega : rounds ≠ 0)
        rfl
      cases hnew : unknown known ((e :: newest).flatMap c.parents) with
      | nil =>
        -- Nothing new was found, so the rounds that are left change nothing.
        rw [hnew] at next hround
        exact ⟨_, next, fun rounds hrounds => (hround rounds hrounds).trans (c.reachedIn_nil _ _)⟩
      | cons first others =>
        rw [hnew] at next hround
        have hshorter : c.types.length <
            ((first :: others).map TypeDecl.metadataName ++ known).length + enough := by
          simp only [List.length_append, List.length_map, List.length_cons]
          omega
        obtain ⟨names, hnames, hsettled⟩ := ih next hshorter
        refine ⟨names, hnames, fun rounds hrounds => ?_⟩
        rw [hround rounds hrounds]
        exact hsettled (rounds - 1) (by omega)

/-- The search from a declared type ends with nothing left to look at, and more rounds than there are
declared types give the same. -/
theorem explored_reached {c : Compilation} {d : TypeDecl} (hd : d ∈ c.types) :
    c.Explored d (c.reached d) [] ∧
      ∀ more, c.reachedIn (c.types.length + more) [d.metadataName] [d] = c.reached d := by
  have hbound : c.types.length < [d.metadataName].length + c.types.length := by
    rw [List.length_singleton]
    omega
  obtain ⟨names, hnames, hsettled⟩ := (explored_start hd).exists_reachedIn hd _ hbound
  have hreached : c.reached d = names := hsettled _ (Nat.le_refl _)
  rw [hreached]
  exact ⟨hnames, fun more => hsettled _ (Nat.le_add_right _ _)⟩

/-- When nothing is left to look at, every type reached is known. -/
theorem Explored.mem_of_reaches {c : Compilation} {d e : TypeDecl} {known : List String}
    (hd : d ∈ c.types) (h : c.Explored d known []) (hreach : c.Reaches d e) :
    e.metadataName ∈ known := by
  induction hreach with
  | refl => exact h.start
  | tail hpath hstep ih =>
    rcases h.expanded _ (Reaches.mem hd hpath) ih with pending | done
    · cases pending
    · exact done _ hstep

/-- Between declared types the search decides reachability. -/
theorem derivesFrom_iff_reaches {c : Compilation} {d target : TypeDecl} (hd : d ∈ c.types)
    (ht : target ∈ c.types) : c.derivesFrom d target = true ↔ c.Reaches d target := by
  rw [derivesFrom, List.contains_iff_mem]
  constructor
  · intro hmem
    obtain ⟨e, he, hreach, hname⟩ := (explored_reached hd).1.reached _ hmem
    exact eq_of_metadataName he ht hname ▸ hreach
  · exact (explored_reached hd).1.mem_of_reaches hd

/-! ## The search with a stack

One search finds the same types with a stack of types that are pending. It takes the top off and stops
if that is the target. Otherwise it puts the parents of the type on the stack, unless the type has been
taken off before. A type may stand on the stack several times.
-/

/-- The declared types whose metadata names have not been met. -/
def unmet (c : Compilation) (met : List String) : List TypeDecl :=
  c.types.filter fun d => d.metadataName ∉ met

/-- When a declared type is met for the first time fewer are left. -/
theorem length_unmet_lt {c : Compilation} {d : TypeDecl} {met : List String} (hd : d ∈ c.types)
    (hnew : d.metadataName ∉ met) :
    (c.unmet (d.metadataName :: met)).length < (c.unmet met).length := by
  have hfewer : c.unmet (d.metadataName :: met) =
      (c.unmet met).filter fun e => e.metadataName ≠ d.metadataName := by
    rw [unmet, unmet, List.filter_filter]
    refine List.filter_congr fun e _ => ?_
    simp only [List.mem_cons, not_or, Bool.decide_and]
  rw [hfewer, List.length_filter_lt_length_iff_exists]
  exact ⟨d, List.mem_filter.2 ⟨hd, decide_eq_true hnew⟩, by simp⟩

/-- The parents of a type as declared types of the compilation. -/
def declaredParents (c : Compilation) (d : TypeDecl) : List { e // e ∈ c.types } :=
  (c.parents d).attachWith (· ∈ c.types) fun e he => ((c.mem_parents_iff d e).1 he).mem

/-- A declared type stands among the parents when it is one. -/
theorem mem_declaredParents_iff (c : Compilation) (d : TypeDecl) (e : { e // e ∈ c.types }) :
    e ∈ c.declaredParents d ↔ c.Parent d e := by
  rw [declaredParents, List.mem_attachWith, mem_parents_iff]

/-- The search for a target with a stack of pending types, where `met` holds the names of those that
have been taken off. The parent written last comes to stand on top. Each turn leaves fewer types
unmet, or as many of them and a lower stack. -/
def findsFrom (c : Compilation) (target : TypeDecl) (met : List String) :
    List { d // d ∈ c.types } → Bool
  | [] => false
  | d :: pending =>
    if d.1.metadataName = target.metadataName then true
    else if d.1.metadataName ∈ met then c.findsFrom target met pending
    else
      c.findsFrom target (d.1.metadataName :: met) ((c.declaredParents d).reverse ++ pending)
termination_by pending => ((c.unmet met).length, pending.length)
decreasing_by
  · exact .right _ (Nat.lt_succ_self _)
  · exact .left _ _ (length_unmet_lt d.2 ‹_›)

/-- What the stack finds is reached from a type on it. -/
theorem reaches_of_findsFrom {c : Compilation} {target : TypeDecl} (ht : target ∈ c.types)
    {met : List String} {pending : List { d // d ∈ c.types }}
    (h : c.findsFrom target met pending = true) : ∃ d ∈ pending, c.Reaches d.1 target := by
  fun_induction findsFrom c target met pending with
  | case1 => cases h
  | case2 met d pending hname =>
    exact ⟨d, List.mem_cons_self, eq_of_metadataName d.2 ht hname ▸ .refl⟩
  | case3 met d pending _ _ ih =>
    obtain ⟨e, he, hreach⟩ := ih h
    exact ⟨e, List.mem_cons_of_mem d he, hreach⟩
  | case4 met d pending _ _ ih =>
    obtain ⟨e, he, hreach⟩ := ih h
    rcases List.mem_append.1 he with hparent | hpending
    · have hstep := (c.mem_declaredParents_iff d e).1 (List.mem_reverse.1 hparent)
      exact ⟨d, List.mem_cons_self, hreach.head hstep⟩
    · exact ⟨e, List.mem_cons_of_mem d hpending, hreach⟩

/-- The type has been met or is pending. -/
def Noted (c : Compilation) (met : List String) (pending : List { d // d ∈ c.types })
    (e : { d // d ∈ c.types }) : Prop :=
  e.1.metadataName ∈ met ∨ e ∈ pending

section Turn

variable {c : Compilation} {target : TypeDecl} {met : List String} {d e : { d // d ∈ c.types }}
  {pending : List { d // d ∈ c.types }}

/-- A type met before may be taken off. -/
theorem Noted.of_met (h : c.Noted met (d :: pending) e) (hmet : d.1.metadataName ∈ met) :
    c.Noted met pending e := by
  rcases h with hemet | hpending
  · exact .inl hemet
  · rcases List.mem_cons.1 hpending with rfl | hpending
    · exact .inl hmet
    · exact .inr hpending

/-- A type that is taken off and looked at has been met, and others may come on the stack. -/
theorem Noted.of_looked_at (h : c.Noted met (d :: pending) e) (above : List { d // d ∈ c.types }) :
    c.Noted (d.1.metadataName :: met) (above ++ pending) e := by
  rcases h with hemet | hpending
  · exact .inl (List.mem_cons_of_mem _ hemet)
  · rcases List.mem_cons.1 hpending with rfl | hpending
    · exact .inl List.mem_cons_self
    · exact .inr (List.mem_append_right above hpending)

/-- What holds of the search between two turns: a type met is not the target, and each of its parents
has been met or is pending. -/
def Searched (c : Compilation) (target : TypeDecl) (met : List String)
    (pending : List { d // d ∈ c.types }) : Prop :=
  ∀ e ∈ c.types, e.metadataName ∈ met → e ≠ target ∧
    ∀ p : { d // d ∈ c.types }, c.Parent e p → c.Noted met pending p

/-- A turn that takes off a type met before keeps what holds of the search. -/
theorem Searched.of_met (h : c.Searched target met (d :: pending))
    (hmet : d.1.metadataName ∈ met) : c.Searched target met pending :=
  fun b hb hbmet => ⟨(h b hb hbmet).1, fun p hp => ((h b hb hbmet).2 p hp).of_met hmet⟩

/-- A turn that looks at a type other than the target keeps what holds of the search. -/
theorem Searched.of_looked_at (h : c.Searched target met (d :: pending))
    (hother : d.1.metadataName ≠ target.metadataName) :
    c.Searched target (d.1.metadataName :: met) ((c.declaredParents d).reverse ++ pending) := by
  intro b hb hbmet
  rcases List.mem_cons.1 hbmet with hsame | hbmet
  · obtain rfl : b = d.1 := eq_of_metadataName hb d.2 hsame
    refine ⟨fun htarget => hother (congrArg _ htarget), fun p hp => .inr ?_⟩
    exact List.mem_append_left _ (List.mem_reverse.2 ((c.mem_declaredParents_iff _ p).2 hp))
  · exact ⟨(h b hb hbmet).1, fun p hp => ((h b hb hbmet).2 p hp).of_looked_at _⟩

/-- With nothing pending, a chain from a type met stays among the types met, where the target is
not. -/
theorem Searched.not_reaches (h : c.Searched target met []) (hmet : e.1.metadataName ∈ met) :
    ¬c.Reaches e.1 target := by
  intro hreach
  have hall (b : TypeDecl) (hpath : c.Reaches e.1 b) : b.metadataName ∈ met := by
    induction hpath with
    | refl => exact hmet
    | @tail b p hbefore hstep ih =>
      obtain ⟨-, hparents⟩ := h b (Reaches.mem e.2 hbefore) ih
      exact (hparents ⟨p, hstep.mem⟩ hstep).resolve_right List.not_mem_nil
  exact (h target (Reaches.mem e.2 hreach) (hall target hreach)).1 rfl

end Turn

/-- When the stack finds nothing the target is not reached from any type that was met or is
pending. -/
theorem not_reaches_of_findsFrom {c : Compilation} {target : TypeDecl} {met : List String}
    {pending : List { d // d ∈ c.types }} (hinv : c.Searched target met pending)
    (h : c.findsFrom target met pending = false) (e : { d // d ∈ c.types })
    (he : c.Noted met pending e) : ¬c.Reaches e.1 target := by
  fun_induction findsFrom c target met pending with
  | case1 met => exact hinv.not_reaches (he.resolve_right List.not_mem_nil)
  | case2 => cases h
  | case3 met d pending _ hmet ih => exact ih (hinv.of_met hmet) h (he.of_met hmet)
  | case4 met d pending hother _ ih =>
    exact ih (hinv.of_looked_at hother) h (he.of_looked_at _)

/-- Between declared types the search with a stack finds what the search in rounds finds. -/
theorem findsFrom_eq_derivesFrom {c : Compilation} {d target : TypeDecl} (hd : d ∈ c.types)
    (ht : target ∈ c.types) : c.findsFrom target [] [⟨d, hd⟩] = c.derivesFrom d target := by
  rw [Bool.eq_iff_iff, derivesFrom_iff_reaches hd ht]
  constructor
  · intro hfound
    obtain ⟨e, he, hreach⟩ := reaches_of_findsFrom ht hfound
    cases List.mem_singleton.1 he
    exact hreach
  · intro hreach
    by_contra hnot
    have hnothing : c.Searched target [] [⟨d, hd⟩] := fun _ _ hmet => absurd hmet List.not_mem_nil
    exact not_reaches_of_findsFrom hnothing (Bool.eq_false_iff.2 hnot) ⟨d, hd⟩
      (.inr List.mem_cons_self) hreach

/-- The search through the hierarchy comes to its end by itself: more rounds than there are declared
types change nothing, so that it lists the types reached, each once. It finds one type from another
exactly when a chain of bases and interfaces leads there, whatever cycles, shared parents and dangling
references there are. So every type derives from itself, and what derives from a type derives from all
that this one derives from. -/
theorem derivesFrom_decides_reachability (c : Compilation) :
    (∀ (i : Fin c.types.length) (more : Nat),
      c.reachedIn (c.types.length + more) [c.types[i].metadataName] [c.types[i]] =
        c.reached c.types[i] ∧ (c.reached c.types[i]).Nodup) ∧
    (∀ i j : Fin c.types.length,
      c.derivesFrom c.types[i] c.types[j] = true ↔
        Relation.ReflTransGen c.Parent c.types[i] c.types[j]) ∧
    (∀ i : Fin c.types.length, c.derivesFrom c.types[i] c.types[i] = true) ∧
    (∀ i j k : Fin c.types.length, c.derivesFrom c.types[i] c.types[j] = true →
      c.derivesFrom c.types[j] c.types[k] = true →
      c.derivesFrom c.types[i] c.types[k] = true) := by
  have hmem (i : Fin c.types.length) : c.types[i] ∈ c.types := List.getElem_mem i.isLt
  have hreach (i j : Fin c.types.length) : c.derivesFrom c.types[i] c.types[j] = true ↔
      Relation.ReflTransGen c.Parent c.types[i] c.types[j] :=
    derivesFrom_iff_reaches (hmem i) (hmem j)
  refine ⟨fun i more => ?_, hreach, fun i => (hreach i i).2 .refl, fun i j k hij hjk => ?_⟩
  · obtain ⟨hexplored, hsettled⟩ := explored_reached (hmem i)
    exact ⟨hsettled more, hexplored.nodup⟩
  · exact (hreach i k).2 (((hreach i j).1 hij).trans ((hreach j k).1 hjk))

end SceneWiring.Compilation
