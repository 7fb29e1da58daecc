import SceneWiring.Proofs.MetTypes
/-!
# The order of the types

The order in which the types of a program are listed does not matter to a run. Names denote the same
types and the same classes are visited, so the diagnostics are the same. The position of a class in
the list decides only where its unit comes among the others; the text of the unit does not show it.
-/

namespace SceneWiring

namespace Compilation

/-- Programs in which names denote the same types, with the same mentions, have the same visits. -/
theorem visits_eq {c c' : Compilation} (hlookup : ∀ name, c.lookup name = c'.lookup name)
    (hmentions : c.mentions = c'.mentions) : c.visits = c'.visits := by
  have each (met : List String) (ms : List Mention) :
      c.visitsAfter met ms = c'.visitsAfter met ms := by
    induction ms generalizing met with
    | nil => rfl
    | cons m rest ih =>
      rw [visitsAfter, visitsAfter, hlookup]
      simp only [ih]
  rw [visits, visits, hmentions, each]

end Compilation

namespace Context.Agrees

variable {x x' : Context}

/-- A visit gives the same diagnostics in programs that agree. -/
theorem diagnostics_resolveVisit (h : x.Agrees x') (v : Visit) :
    (x'.resolveVisit v).diagnostics = (x.resolveVisit v).diagnostics := by
  unfold resolveVisit
  cases v.decl? with
  | none => rfl
  | some d =>
    dsimp only
    rw [h.resolveClass_eq]
    cases d.nestedIn? with
    | none => rfl
    | some enclosing =>
      have hempty : ((x.resolveClass d).movedTo (x'.compilation.position d)).additions.isEmpty =
          (x.resolveClass d).additions.isEmpty := List.isEmpty_map
      dsimp only
      rw [hempty]
      split
      · rfl
      · rfl

end Context.Agrees

/-- The diagnostics are the same, and the units are the same in some order. -/
def Generation.SameUpToOrder (g g' : Generation) : Prop :=
  g'.diagnostics = g.diagnostics ∧ g'.units.Perm g.units

/-- The types of a program may be listed in any order: they make a program again, and the run misses
the same host type, or it gives the same diagnostics in the same order and the same units, names and
texts alike, in some order. -/
theorem generate_of_reordered_types {types types' : List TypeDecl} {mentions : List Mention}
    {c : Compilation} (config : Config) (horder : types'.Perm types)
    (hc : Compilation.ofTypes types mentions = .ok c) :
    ∃ c', Compilation.ofTypes types' mentions = .ok c' ∧
      Generation.Related Generation.SameUpToOrder (Generation.ofCompilation c config)
        (Generation.ofCompilation c' config) := by
  obtain ⟨rfl, rfl⟩ := Compilation.ofTypes_eq_ok hc
  have hdistinct := ((horder.map TypeDecl.metadataName).nodup_iff).2 c.distinct
  obtain ⟨c', hc'⟩ := Compilation.exists_ofTypes hdistinct c.mentions
  obtain ⟨rfl, hmentions⟩ := Compilation.ofTypes_eq_ok hc'
  have hlookup := Compilation.lookup_eq_of_perm horder.symm
  have hmet (d : TypeDecl) : c'.Met d ↔ c.Met d := by
    rw [Compilation.Met, Compilation.Met, hmentions, funext hlookup]
  refine ⟨c', hc', (Compilation.agrees_of_perm (horder.symm.map TypeDecl.bare)).related config ?_⟩
  rintro x x' rfl rfl hagrees
  constructor
  · have hvisits := Compilation.visits_eq hlookup hmentions.symm
    have hdiagnostics (y : Context) : y.generate.diagnostics =
        y.compilation.visits.flatMap fun v => (y.resolveVisit v).diagnostics := List.flatMap_map ..
    rw [hdiagnostics, hdiagnostics, hvisits]
    exact List.flatMap_congr fun v _ => hagrees.diagnostics_resolveVisit v
  · rw [hagrees.units_eq hmet, x.units_eq_map_unitOf]
    exact (horder.filter _).map _

/-- The types of the game may be listed backwards. -/
theorem generate_of_reversed_types :
    gameTypes.reverse.Perm gameTypes ∧
      ∃ c, Compilation.ofTypes gameTypes gameMentions = .ok c ∧
        ∃ c', Compilation.ofTypes gameTypes.reverse gameMentions = .ok c' ∧
          Generation.Related Generation.SameUpToOrder (Generation.ofCompilation c {})
            (Generation.ofCompilation c' {}) := by
  obtain ⟨c, hc⟩ := Compilation.exists_ofTypes nodup_metadataName_gameTypes gameMentions
  have horder := List.reverse_perm gameTypes
  exact ⟨horder, c, hc, generate_of_reordered_types {} horder hc⟩

end SceneWiring
