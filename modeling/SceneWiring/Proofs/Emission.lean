import SceneWiring.Generation
import SceneWiring.Proofs.Outcomes
import SceneWiring.Proofs.Reachability
/-!
# Classes that are emitted

A class gets a unit exactly when it is met in the source, is not nested in another type and has
additions of its own. The classes with units come in the order of the type list, each once.
-/

namespace SceneWiring

/-- Inserting a number adds just that number. -/
theorem mem_insertOwner {n k : Nat} {ns : List Nat} : k ∈ insertOwner n ns ↔ k = n ∨ k ∈ ns := by
  induction ns with
  | nil => rw [insertOwner, List.mem_singleton, or_iff_left List.not_mem_nil]
  | cons m rest ih =>
    rw [insertOwner]
    split
    · exact List.mem_cons
    · split
      · rename_i heq
        rw [heq, List.mem_cons, or_iff_right_of_imp Or.inl]
      · rw [List.mem_cons, ih, List.mem_cons]
        exact or_left_comm

/-- Inserting a number keeps a list ascending. -/
theorem insertOwner_ascending (n : Nat) {ns : List Nat} (h : ns.Pairwise (· < ·)) :
    (insertOwner n ns).Pairwise (· < ·) := by
  induction ns with
  | nil => exact List.pairwise_singleton _ _
  | cons m rest ih =>
    obtain ⟨hm, hrest⟩ := List.pairwise_cons.1 h
    rw [insertOwner]
    split
    · rename_i hlt
      refine List.pairwise_cons.2 ⟨fun k hk => ?_, h⟩
      rcases List.mem_cons.1 hk with rfl | hk
      · exact hlt
      · have hlater := hm k hk
        omega
    · split
      · exact h
      · refine List.pairwise_cons.2 ⟨fun k hk => ?_, ih hrest⟩
        rcases mem_insertOwner.1 hk with rfl | hk
        · omega
        · exact hm k hk

/-- The owners are the classes that some addition is for. -/
theorem mem_owners {additions : List Addition} {n : Nat} :
    n ∈ owners additions ↔ ∃ a ∈ additions, a.owner = n := by
  induction additions with
  | nil => simp only [owners, List.foldr_nil, List.not_mem_nil, false_and, exists_false]
  | cons a rest ih =>
    rw [owners, List.foldr_cons, mem_insertOwner, List.exists_mem_cons_iff]
    rw [owners] at ih
    rw [ih, eq_comm]

/-- The owners are listed in ascending order. -/
theorem owners_ascending (additions : List Addition) : (owners additions).Pairwise (· < ·) := by
  induction additions with
  | nil => exact .nil
  | cons a rest ih => exact insertOwner_ascending a.owner ih

namespace Compilation

/-- A type stands at its position. -/
theorem getElem?_position {c : Compilation} {d : TypeDecl} (h : d ∈ c.types) :
    c.types[c.position d]? = some d := by
  obtain ⟨i, hi, rfl⟩ := List.mem_iff_getElem.1 h
  rw [c.position_getElem hi]
  exact List.getElem?_eq_getElem hi

/-- The type is met in the source. -/
def Met (c : Compilation) (d : TypeDecl) : Prop := ∃ m ∈ c.mentions, c.lookup m.name = some d

/-- A type met in the source is declared. -/
theorem Met.mem {c : Compilation} {d : TypeDecl} (h : c.Met d) : d ∈ c.types := by
  obtain ⟨m, -, hlookup⟩ := h
  exact mem_of_lookup hlookup

/-- A type is looked at when it is met and was not met before. -/
theorem exists_mem_visitsAfter_iff {c : Compilation} {d : TypeDecl} (met : List String)
    (ms : List Mention) :
    (∃ v ∈ c.visitsAfter met ms, v.decl? = some d) ↔
      d.metadataName ∉ met ∧ ∃ m ∈ ms, c.lookup m.name = some d := by
  induction ms generalizing met with
  | nil => simp [visitsAfter]
  | cons m rest ih =>
    rw [visitsAfter]
    cases hlookup : c.lookup m.name with
    | none => simp [ih, hlookup]
    | some e =>
      dsimp only
      by_cases hseen : e.metadataName ∈ met
      · rw [if_pos hseen, ih, List.exists_mem_cons_iff, hlookup]
        refine and_congr_right fun hnew => (or_iff_right ?_).symm
        intro heq
        cases heq
        exact hnew hseen
      · rw [if_neg hseen, List.exists_mem_cons_iff, List.exists_mem_cons_iff, ih, hlookup]
        by_cases hsame : e = d
        · subst hsame
          simp [hseen]
        · have hname : (∃ m ∈ rest, c.lookup m.name = some d) →
              d.metadataName ≠ e.metadataName := by
            intro hmentioned heq
            rcases hmentioned with ⟨m', -, hd⟩
            exact hsame (eq_of_metadataName (mem_of_lookup hlookup) (mem_of_lookup hd) heq.symm)
          simp only [Option.some.injEq, hsame, false_or, List.mem_cons, not_or]
          constructor
          · intro hgiven
            rcases hgiven with ⟨⟨-, hnew⟩, hmet⟩
            exact ⟨hnew, hmet⟩
          · intro hgiven
            rcases hgiven with ⟨hnew, hmet⟩
            exact ⟨⟨hname hmet, hnew⟩, hmet⟩

/-- The types that are looked at are those met in the source. -/
theorem exists_mem_visits_iff {c : Compilation} {d : TypeDecl} :
    (∃ v ∈ c.visits, v.decl? = some d) ↔ c.Met d := by
  rw [visits, exists_mem_visitsAfter_iff, and_iff_right List.not_mem_nil]
  rfl

end Compilation

namespace Context

variable {x : Context}

/-- The additions of all classes that are looked at. -/
def additions (x : Context) : List Addition :=
  (x.compilation.visits.map x.resolveVisit).flatMap (·.additions)

/-- The type gets a unit: it is met in the source, stands in no other type and has additions. -/
structure Emits (x : Context) (d : TypeDecl) : Prop where
  /-- It is met in the source. -/
  met : x.compilation.Met d
  /-- It is not nested in another type. -/
  outermost : d.nestedIn? = none
  /-- It has additions. -/
  additions_ne_nil : (x.resolveClass d).additions ≠ []

/-- Additions come from declared types that are not nested. -/
theorem mem_additions_resolveVisit {v : Visit} {a : Addition} :
    a ∈ (x.resolveVisit v).additions ↔
      ∃ d, v.decl? = some d ∧ d.nestedIn? = none ∧ a ∈ (x.resolveClass d).additions := by
  unfold resolveVisit
  cases hdecl : v.decl? with
  | none =>
    simp only [Resolution.additions_ofDiagnostics, List.not_mem_nil, reduceCtorEq, false_and,
      exists_false]
  | some d =>
    dsimp only
    cases hnested : d.nestedIn? with
    | none => simp only [Option.some.injEq, exists_eq_left', hnested, true_and]
    | some enclosing =>
      have hnone : ¬∃ e, some d = some e ∧ e.nestedIn? = none ∧
          a ∈ (x.resolveClass e).additions := by
        intro hgiven
        rcases hgiven with ⟨e, heq, houtermost, -⟩
        cases heq
        rw [hnested] at houtermost
        cases houtermost
      refine iff_of_false ?_ hnone
      dsimp only
      split
      · rename_i hempty
        rw [List.isEmpty_iff.1 hempty]
        exact List.not_mem_nil
      · exact List.not_mem_nil

/-- The additions of a class are for its position. -/
theorem owner_of_mem_resolveClass {d : TypeDecl} {a : Addition}
    (h : a ∈ (x.resolveClass d).additions) : a.owner = x.compilation.position d := by
  obtain ⟨k, hk⟩ := List.mem_iff_getElem?.1 h
  exact (x.numbered_resolveClass d k a hk).2

/-- The classes that additions are for are the positions of the types that get units. -/
theorem mem_owners_additions {n : Nat} :
    n ∈ owners x.additions ↔ ∃ d, x.Emits d ∧ x.compilation.position d = n := by
  rw [mem_owners]
  constructor
  · intro hgiven
    rcases hgiven with ⟨a, ha, rfl⟩
    obtain ⟨r, hr, har⟩ := List.mem_flatMap.1 ha
    obtain ⟨v, hv, rfl⟩ := List.mem_map.1 hr
    obtain ⟨d, hd, houtermost, had⟩ := mem_additions_resolveVisit.1 har
    have hmet := Compilation.exists_mem_visits_iff.1 ⟨v, hv, hd⟩
    exact ⟨d, ⟨hmet, houtermost, List.ne_nil_of_mem had⟩, (owner_of_mem_resolveClass had).symm⟩
  · intro hgiven
    rcases hgiven with ⟨d, hemits, rfl⟩
    obtain ⟨v, hv, hd⟩ := Compilation.exists_mem_visits_iff.2 hemits.met
    obtain ⟨a, had⟩ := List.exists_mem_of_ne_nil _ hemits.additions_ne_nil
    have har := mem_additions_resolveVisit.2 ⟨d, hd, hemits.outermost, had⟩
    exact ⟨a, List.mem_flatMap.2 ⟨_, List.mem_map_of_mem hv, har⟩,
      owner_of_mem_resolveClass had⟩

/-- The types that get units, in the order of the type list. -/
def emitted (x : Context) : List TypeDecl :=
  (owners x.additions).filterMap (x.compilation.types[·]?)

/-- A type that gets a unit is declared. -/
theorem Emits.mem {d : TypeDecl} (h : x.Emits d) : d ∈ x.compilation.types := h.met.mem

/-- The types listed are those that get units. -/
theorem mem_emitted {d : TypeDecl} : d ∈ x.emitted ↔ x.Emits d := by
  rw [emitted, List.mem_filterMap]
  constructor
  · intro hgiven
    rcases hgiven with ⟨n, hn, hd⟩
    obtain ⟨e, hemits, rfl⟩ := mem_owners_additions.1 hn
    rw [Compilation.getElem?_position hemits.mem] at hd
    cases hd
    exact hemits
  · intro hemits
    exact ⟨_, mem_owners_additions.2 ⟨d, hemits, rfl⟩, Compilation.getElem?_position hemits.mem⟩

/-- No type gets two units. -/
theorem nodup_emitted (x : Context) : x.emitted.Nodup := by
  rw [emitted, List.Nodup, List.pairwise_filterMap]
  refine (owners_ascending x.additions).imp ?_
  intro i j hlt d hi e hj heq
  subst heq
  obtain ⟨hi', hdi⟩ := List.getElem?_eq_some_iff.1 hi
  obtain ⟨hj', hdj⟩ := List.getElem?_eq_some_iff.1 hj
  have hpi := x.compilation.position_getElem hi'
  have hpj := x.compilation.position_getElem hj'
  rw [hdi] at hpi
  rw [hdj] at hpj
  omega

/-- The units go by the names of the types that get them. -/
theorem map_hintName_units (x : Context) :
    x.generate.units.map (·.hintName) = x.emitted.map ClassUnit.hintName := by
  have hunits : x.generate.units =
      (ClassUnit.group x.additions).filterMap (x.compilation.renderUnit? x.config) := rfl
  rw [hunits, ClassUnit.group, List.filterMap_map, List.map_filterMap, emitted, List.map_filterMap]
  refine List.filterMap_congr fun n _ => ?_
  rw [Function.comp_apply, Compilation.renderUnit?, Option.map_map]
  rfl

end Context

end SceneWiring
