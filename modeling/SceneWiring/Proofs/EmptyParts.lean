import SceneWiring.Proofs.Independence
import SceneWiring.Proofs.Injection
/-!
# Empty parts of a name

A declaration may give its namespace and the types around it as empty texts. Left out instead, these
parts make the same names, the same namespace block and the same name of the unit, and every class is
resolved alike. Only one thing tells them apart: a class whose place inside other types is an empty
text is reported as nested and gets no unit. It gets its unit once the text is left out.
-/

namespace SceneWiring

/-- A part of a name is kept, or it is empty and left out. -/
inductive ClearedPart : Option String → Option String → Prop
  | kept (part? : Option String) : ClearedPart part? part?
  | cleared : ClearedPart (some "") none

namespace ClearedPart

variable {part? part'? : Option String}

/-- Either nothing is changed, or an empty part is left out. -/
theorem eq_or_cleared (h : ClearedPart part? part'?) :
    part? = part'? ∨ part? = some "" ∧ part'? = none := by
  cases h with
  | kept => exact .inl rfl
  | cleared => exact .inr ⟨rfl, rfl⟩

/-- An empty part is no part of a qualified name. -/
theorem filter_eq (h : ClearedPart part? part'?) :
    part?.toList.filter (· != "") = part'?.toList.filter (· != "") := by
  cases h with
  | kept => rfl
  | cleared => rfl

/-- The name of a unit has the same text for an empty part as for none. -/
theorem getD_eq (h : ClearedPart part? part'?) : part?.getD "" = part'?.getD "" := by
  cases h with
  | kept => rfl
  | cleared => rfl

/-- An empty namespace makes no block. -/
theorem chars_scope (h : ClearedPart part? part'?) (depth : Nat) (body : List Code) :
    (Code.scope part? body).chars depth = (Code.scope part'? body).chars depth := by
  cases h with
  | kept => rfl
  | cleared => rw [Code.chars, Code.chars, if_pos rfl]

end ClearedPart

/-- The second declaration is the first, save that its namespace and the types around it may be left
out where they are empty. -/
structure TypeDecl.Cleared (d d' : TypeDecl) : Prop where
  /-- The namespace is the same or left out. -/
  space : ClearedPart d.namespaceName? d'.namespaceName?
  /-- The types around the declaration are the same or left out. -/
  place : ClearedPart d.nestedIn? d'.nestedIn?
  /-- Nothing else differs. -/
  rest : d' = { d with namespaceName? := d'.namespaceName?, nestedIn? := d'.nestedIn? }

namespace TypeDecl.Cleared

variable {d d' : TypeDecl}

/-- Empty parts do not show in the outline of a declaration. -/
theorem outline_eq (h : d.Cleared d') : d.outline = d'.outline := by
  have hqualifiers : d.qualifiers = d'.qualifiers := by
    unfold qualifiers
    rw [List.filter_append, List.filter_append, h.space.filter_eq, h.place.filter_eq]
  have hrest : (d.name, d.base?, d.interfaces, d.typeParameters) =
      (d'.name, d'.base?, d'.interfaces, d'.typeParameters) :=
    congrArg (fun e => (e.name, e.base?, e.interfaces, e.typeParameters)) h.rest.symm
  simp only [Prod.mk.injEq] at hrest
  obtain ⟨hname, hbase, hinterfaces, hparameters⟩ := hrest
  unfold outline fullName
  rw [hqualifiers, hname, hbase, hinterfaces, hparameters]

/-- The annotations are the same. -/
theorem occurrences_eq (h : d.Cleared d') : d.occurrences = d'.occurrences :=
  (congrArg occurrences h.rest.symm :)

/-- The members that hold values are the same. -/
theorem members_eq (h : d.Cleared d') : d.members = d'.members :=
  (congrArg members h.rest.symm :)

/-- The fields that an enumeration lists are the same. -/
theorem listedFields_eq (h : d.Cleared d') :
    Context.listedFields d = Context.listedFields d' :=
  (congrArg Context.listedFields h.rest.symm :)

/-- A unit goes by the same name. -/
theorem hintName_eq (h : d.Cleared d') : ClassUnit.hintName d = ClassUnit.hintName d' := by
  have hname : d.name = d'.name := congrArg Outline.name h.outline_eq
  unfold ClassUnit.hintName
  rw [h.space.getD_eq, hname, typeParameters_eq_of_outline h.outline_eq]

/-- A unit has the same name and text. -/
theorem render_eq (h : d.Cleared d') (config : Config) (u : ClassUnit) :
    ClassUnit.render config d u = ClassUnit.render config d' u := by
  have hclass : ClassUnit.classCode config d u = ClassUnit.classCode config d' u :=
    (congrArg (ClassUnit.classCode config · u) h.rest.symm :)
  have hscope : bodyChars 0 [.blank, .scope d.namespaceName? (u.classCode config d)] =
      bodyChars 0 [.blank, .scope d'.namespaceName? (u.classCode config d')] := by
    simp only [bodyChars]
    rw [hclass, h.space.chars_scope]
  unfold ClassUnit.render ClassUnit.code renderCode
  rw [h.hintName_eq, bodyChars_append, bodyChars_append, hscope, bodyChars_append, bodyChars_append]

end TypeDecl.Cleared

namespace Context

/-- A class that an empty text hides: it is met in the source and has additions, and its place inside
other types is an empty text in the first program and left out in the second. -/
structure Freed (x x' : Context) (d : TypeDecl) : Prop where
  /-- It is met in the source. -/
  met : x.compilation.Met d
  /-- Its place is an empty text. -/
  place_empty : d.nestedIn? = some ""
  /-- The place is left out in the second program. -/
  place_cleared : ∃ d' ∈ x'.compilation.types,
    d'.metadataName = d.metadataName ∧ d'.nestedIn? = none
  /-- It has additions. -/
  additions_ne_nil : (x.resolveClass d).additions ≠ []

instance (x x' : Context) (d : TypeDecl) : Decidable (x.Freed x' d) :=
  decidable_of_iff
    (x.compilation.Met d ∧ d.nestedIn? = some "" ∧
      (∃ d' ∈ x'.compilation.types, d'.metadataName = d.metadataName ∧ d'.nestedIn? = none) ∧
      (x.resolveClass d).additions ≠ [])
    ⟨fun h => ⟨h.1, h.2.1, h.2.2.1, h.2.2.2⟩,
      fun h => ⟨h.met, h.place_empty, h.place_cleared, h.additions_ne_nil⟩⟩

/-- The additions and diagnostics of a visit, where classes that an empty text hides are taken for
classes of no place. -/
def resolveFreed (x x' : Context) (v : Visit) : Resolution :=
  match v.decl? with
  | some d => if x.Freed x' d then x.resolveClass d else x.resolveVisit v
  | none => x.resolveVisit v

/-- Where an empty text hides no class all visits bring the same into the run. -/
theorem resolveFreed_eq {x x' : Context} (hnone : ∀ d ∈ x.compilation.types, ¬x.Freed x' d)
    (v : Visit) : x.resolveFreed x' v = x.resolveVisit v := by
  unfold resolveFreed
  split
  · rename_i d _
    exact if_neg fun hfreed => hnone d hfreed.met.mem hfreed
  · rfl

namespace Matches

variable {x x' : Context} {d d' : TypeDecl}

/-- Empty parts left out, every class is resolved alike. -/
theorem resolveClass_eq (h : x.Matches TypeDecl.Cleared x') (hd : d.Cleared d') :
    x'.resolveClass d' = x.resolveClass d := by
  refine (Resolution.SameUpTo.eq (h.resolveClass_same (fun _ => rfl) (h.judgeInject_same
    (fun _ => rfl) fun {a a'} ha m name => ?_) hd.outline_eq hd.listedFields_eq
    hd.occurrences_eq)).symm
  have hsources : x.sources a m.type = x'.sources a' m.type := by
    rw [h.sources_eq]
    unfold sources
    rw [ha.members_eq]
  rw [hsources, takeOnly_congr m name ha.outline_eq]
  exact .refl (fun _ => rfl) _

/-- Empty parts left out, every class has the same unit. -/
theorem unitOf_eq (h : x.Matches TypeDecl.Cleared x') (hd : d.Cleared d') :
    x'.unitOf d' = x.unitOf d := by
  unfold unitOf
  rw [h.resolveClass_eq hd, ← h.config_eq, ← h.compilation.position_eq hd.outline_eq,
    hd.render_eq]

variable (h : x.Matches TypeDecl.Cleared x')
  (hmentions : x.compilation.mentions = x'.compilation.mentions) (hd : d.Cleared d')
  (hmem : d ∈ x.compilation.types) (hmem' : d' ∈ x'.compilation.types)

include h hd hmem' in
/-- A class that an empty text hides has no place in the second program. -/
theorem place_of_freed (hfreed : x.Freed x' d) : d'.nestedIn? = none := by
  obtain ⟨e', he', hname, hplace⟩ := hfreed.place_cleared
  have hsame := Compilation.eq_of_metadataName he' hmem'
    (hname.trans (h.compilation.metadataName_eq hd))
  exact hsame ▸ hplace

include h hmentions hd hmem hmem' in
/-- Empty parts left out, the classes that an empty text hides get units too. -/
theorem emits_iff : x'.Emits d' ↔ x.Emits d ∨ x.Freed x' d := by
  have hmet := h.compilation.met_iff hmentions hd hmem hmem'
  have hadditions := congrArg Resolution.additions (h.resolveClass_eq hd)
  constructor
  · intro hemits
    have hsome : (x.resolveClass d).additions ≠ [] := hadditions ▸ hemits.additions_ne_nil
    rcases hd.place.eq_or_cleared with hsame | ⟨hempty, hcleared⟩
    · exact .inl ⟨hmet.1 hemits.met, hsame.trans hemits.outermost, hsome⟩
    · exact .inr ⟨hmet.1 hemits.met, hempty,
        ⟨d', hmem', (h.compilation.metadataName_eq hd).symm, hcleared⟩, hsome⟩
  · rintro (hemits | hfreed)
    · refine ⟨hmet.2 hemits.met, ?_, hadditions ▸ hemits.additions_ne_nil⟩
      rcases hd.place.eq_or_cleared with hsame | ⟨-, hcleared⟩
      · exact hsame.symm.trans hemits.outermost
      · exact hcleared
    · exact ⟨hmet.2 hfreed.met, h.place_of_freed hd hmem' hfreed,
        hadditions ▸ hfreed.additions_ne_nil⟩

include h hd hmem' in
/-- Empty parts left out, a visit brings the same into the run, save that a class that an empty text
hides is no longer reported and keeps its additions. -/
theorem resolveVisit_eq (hmet : x.compilation.Met d) (m : Mention) :
    x'.resolveVisit ⟨m, some d'⟩ = x.resolveFreed x' ⟨m, some d⟩ := by
  have hname : d.name = d'.name := congrArg TypeDecl.Outline.name hd.outline_eq
  unfold resolveFreed
  dsimp only
  by_cases hfreed : x.Freed x' d
  · rw [if_pos hfreed, resolveVisit]
    dsimp only
    rw [h.place_of_freed hd hmem' hfreed, h.resolveClass_eq hd]
  · rw [if_neg hfreed, resolveVisit, resolveVisit]
    dsimp only
    rcases hd.place.eq_or_cleared with hsame | ⟨hempty, hcleared⟩
    · rw [h.resolveClass_eq hd, ← hsame, ← hname]
    · -- The class has no additions, or the empty text would hide it.
      have hnone : (x.resolveClass d).additions = [] := by
        by_contra hsome
        exact hfreed ⟨hmet, hempty,
          ⟨d', hmem', (h.compilation.metadataName_eq hd).symm, hcleared⟩, hsome⟩
      rw [h.resolveClass_eq hd, hempty, hcleared]
      dsimp only
      rw [hnone, if_pos List.isEmpty_nil]

include h hmentions in
/-- Empty parts left out, the units are those of before and those of the classes that an empty text
hides. -/
theorem units_eq :
    x'.generate.units =
      (x.compilation.types.filter fun d => x.Emits d ∨ x.Freed x' d).map x.unitOf := by
  rw [units_eq_map_unitOf]
  refine (map_eq_of_forall₂ (List.rel_filter ?_ h.and_mem.compilation.types) fun hd =>
    (h.unitOf_eq hd.1).symm).symm
  rintro d d' ⟨hd, hmem, hmem'⟩
  dsimp only
  rw [decide_eq_true_eq, decide_eq_true_eq, h.emits_iff hmentions hd hmem hmem']

include h hmentions in
/-- Empty parts left out, the diagnostics are those of before without the reports about classes that
an empty text hides. -/
theorem diagnostics_eq :
    x'.generate.diagnostics =
      x.compilation.visits.flatMap fun v => (x.resolveFreed x' v).diagnostics := by
  have hvisits := forall₂_and_mem (h.and_mem.compilation.visits_rel hmentions)
  rw [diagnostics_eq_flatMap, List.flatMap_def, List.flatMap_def]
  refine congrArg List.flatten (map_eq_of_forall₂ hvisits ?_).symm
  rintro ⟨m, decl?⟩ ⟨m', decl'?⟩ ⟨⟨rfl, hdecl⟩, hv, -⟩
  cases hdecl with
  | none => rfl
  | some hd =>
    have hmet := Compilation.exists_mem_visits_iff.1 ⟨_, hv, rfl⟩
    rw [h.resolveVisit_eq hd.1 hd.2.2 hmet]

include h hmentions in
/-- Empty parts left out, the run is the same exactly when an empty text hides no class. -/
theorem generate_eq_iff :
    x'.generate = x.generate ↔ ∀ d ∈ x.compilation.types, ¬x.Freed x' d := by
  constructor
  · -- No fewer classes get a unit, and were it as many, the hidden class would have had one before.
    intro hsame d hmem hfreed
    have hunits := congrArg Generation.units hsame
    rw [h.units_eq hmentions, units_eq_map_unitOf] at hunits
    have hlength := congrArg List.length hunits
    rw [List.length_map, List.length_map] at hlength
    have hsublist : (x.compilation.types.filter fun d => x.Emits d).Sublist
        (x.compilation.types.filter fun d => x.Emits d ∨ x.Freed x' d) :=
      List.monotone_filter_right _ fun e he => decide_eq_true (.inl (of_decide_eq_true he))
    have hfilter := hsublist.eq_of_length hlength.symm
    have hemitted : d ∈ x.compilation.types.filter fun d => x.Emits d := by
      rw [hfilter, List.mem_filter, decide_eq_true_eq]
      exact ⟨hmem, .inr hfreed⟩
    rw [List.mem_filter, decide_eq_true_eq] at hemitted
    exact Option.some_ne_none "" (hfreed.place_empty.symm.trans hemitted.2.outermost)
  · intro hnone
    have hunits : x'.generate.units = x.generate.units := by
      rw [h.units_eq hmentions, units_eq_map_unitOf]
      refine congrArg _ (List.filter_congr fun d hmem => ?_)
      rw [decide_eq_decide]
      exact or_iff_left (hnone d hmem)
    have hdiagnostics : x'.generate.diagnostics = x.generate.diagnostics := by
      rw [h.diagnostics_eq hmentions, diagnostics_eq_flatMap]
      simp only [resolveFreed_eq hnone]
    exact congrArg₂ Generation.mk hunits hdiagnostics

end Matches

end Context

/-- The second snapshot is the first with some of the empty namespaces and empty places of its types
left out. -/
structure Snapshot.Cleared (s s' : Snapshot) : Prop where
  /-- The types are the same, save for empty parts left out. -/
  types : List.Forall₂ TypeDecl.Cleared s.types s'.types
  /-- The mentions are the same. -/
  mentions_eq : s'.mentions = s.mentions
  /-- The settings are the same. -/
  config_eq : s'.config = s.config

/-- Snapshots that differ in empty parts left out fail alike, or they give contexts that match. -/
theorem Snapshot.Cleared.contexts {s s' : Snapshot} (h : s.Cleared s') :
    (∃ failure, s.context = .error failure ∧ s'.context = .error failure) ∨
    ∃ x x', s.context = .ok x ∧ s'.context = .ok x' ∧ x.Matches TypeDecl.Cleared x' ∧
      x.compilation.types = s.types ∧ x.compilation.mentions = x'.compilation.mentions := by
  have hmatches (c c' : Compilation) (htypes : c.types = s.types) (htypes' : c'.types = s'.types) :
      c.Matches TypeDecl.Cleared c' :=
    ⟨by rw [htypes, htypes']; exact h.types, TypeDecl.Cleared.outline_eq⟩
  have hnames := map_eq_of_forall₂ h.types fun hd =>
    TypeDecl.metadataName_eq_of_outline hd.outline_eq
  rcases Snapshot.contexts_of_metadataNames hnames.symm h.config_eq fun c c' htypes htypes' =>
      (hmatches c c' htypes htypes').isSome_lookup_eq with
    hfailure | ⟨x, x', hx, hx', hsettings, htypes, htypes', hmentions, hmentions'⟩
  · exact .inl hfailure
  · refine .inr ⟨x, x', hx, hx', ⟨hsettings, hmatches _ _ htypes htypes'⟩, htypes, ?_⟩
    rw [hmentions, hmentions', h.mentions_eq]

/-- Snapshots that differ in empty parts left out fail alike, or both are resolved. Then the second
run has the units of the first and besides them just those of the classes that an empty text hid in
the first, in the order of the list of types; it has the diagnostics of the first without the reports
about these classes. So the runs are the same exactly when no class with additions that is met in the
source has an empty text for its place, left out in the second snapshot. -/
theorem generate_of_cleared_parts {s s' : Snapshot} (h : s.Cleared s') :
    (∃ failure, s.context = .error failure ∧ s'.context = .error failure) ∨
    ∃ x x', s.context = .ok x ∧ s'.context = .ok x' ∧
      (x.generate.units = (s.types.filter fun d => x.Emits d).map x.unitOf ∧
        x'.generate.units = (s.types.filter fun d => x.Emits d ∨ x.Freed x' d).map x.unitOf) ∧
      (x.generate.diagnostics =
          x.compilation.visits.flatMap (fun v => (x.resolveVisit v).diagnostics) ∧
        x'.generate.diagnostics =
          x.compilation.visits.flatMap fun v => (x.resolveFreed x' v).diagnostics) ∧
      (x'.generate = x.generate ↔ ∀ d ∈ s.types, ¬x.Freed x' d) := by
  rcases h.contexts with hfailure | ⟨x, x', hx, hx', hmatches, htypes, hmentions⟩
  · exact .inl hfailure
  · refine .inr ⟨x, x', hx, hx', ?_, ⟨x.diagnostics_eq_flatMap, ?_⟩, ?_⟩
    · rw [← htypes]
      exact ⟨x.units_eq_map_unitOf, hmatches.units_eq hmentions⟩
    · exact hmatches.diagnostics_eq hmentions
    · rw [← htypes]
      exact hmatches.generate_eq_iff hmentions

/-- A class of no namespace and a class of the game, both with a method to call. The namespace of the
first and the place of the second inside other types are given as they are. -/
def lobbySnapshot (space? place? : Option String) : Snapshot where
  types :=
    [{ name := "Node", namespaceName? := some "Godot" },
     { name := "Resource", namespaceName? := some "Godot" },
     { name := "Hero", namespaceName? := space?,
       methods := [{ name := "Wake", attributes := [{ name := "OnReady" }] }] },
     { name := "Lobby", namespaceName? := some "Game", nestedIn? := place?,
       methods := [{ name := "Open", attributes := [{ name := "OnReady" }] }] }]
  mentions := [{ name := "Hero" }, { name := "Game.Lobby" }]

/-- The runs of the game are related when both empty texts are left out. -/
theorem generate_of_cleared_lobby :
    (lobbySnapshot (some "") (some "")).Cleared (lobbySnapshot none none) ∧
      ∃ x x', (lobbySnapshot (some "") (some "")).context = .ok x ∧
        (lobbySnapshot none none).context = .ok x' ∧
        x'.generate.units = ((lobbySnapshot (some "") (some "")).types.filter fun d =>
          x.Emits d ∨ x.Freed x' d).map x.unitOf := by
  have hcleared : (lobbySnapshot (some "") (some "")).Cleared (lobbySnapshot none none) :=
    { types := .cons ⟨.kept _, .kept _, rfl⟩ (.cons ⟨.kept _, .kept _, rfl⟩
        (.cons ⟨.cleared, .kept _, rfl⟩ (.cons ⟨.kept _, .cleared, rfl⟩ .nil)))
      mentions_eq := rfl
      config_eq := rfl }
  refine ⟨hcleared, ?_⟩
  rcases generate_of_cleared_parts hcleared with
    ⟨failure, hfails, -⟩ | ⟨x, x', hx, hx', hunits, -⟩
  · have hruns : (lobbySnapshot (some "") (some "")).context.isOk = true := by decide +kernel
    rw [hfails] at hruns
    cases hruns
  · exact ⟨x, x', hx, hx', hunits.2⟩

/-- The namespace of a class may be an empty text or left out. Its place makes a difference: with an
empty text the class is reported as nested inside nothing and gets no unit. -/
theorem lobby_hidden_by_empty_place :
    let run (s : Snapshot) := (s.context.map Context.generate).map fun g =>
      (g.units.map (·.hintName), g.diagnostics.map (·.message))
    (lobbySnapshot (some "") (some "")).Cleared (lobbySnapshot (some "") none) ∧
      run (lobbySnapshot (some "") (some "")) = .ok (["Partial__Hero"],
        ["Lobby is nested inside ; nested classes are not generated. Skipping."]) ∧
      run (lobbySnapshot (some "") none) = .ok (["Partial__Hero", "Partial_Game_Lobby"], []) ∧
      (lobbySnapshot (some "") (some "")).context.map Context.generate ≠
        (lobbySnapshot (some "") none).context.map Context.generate := by
  intro run
  have hcleared : (lobbySnapshot (some "") (some "")).Cleared (lobbySnapshot (some "") none) :=
    { types := .cons ⟨.kept _, .kept _, rfl⟩ (.cons ⟨.kept _, .kept _, rfl⟩
        (.cons ⟨.kept _, .kept _, rfl⟩ (.cons ⟨.kept _, .cleared, rfl⟩ .nil)))
      mentions_eq := rfl
      config_eq := rfl }
  have hhidden : run (lobbySnapshot (some "") (some "")) = .ok (["Partial__Hero"],
      ["Lobby is nested inside ; nested classes are not generated. Skipping."]) := by
    decide +kernel
  have hshown : run (lobbySnapshot (some "") none) =
      .ok (["Partial__Hero", "Partial_Game_Lobby"], []) := by
    decide +kernel
  refine ⟨hcleared, hhidden, hshown, fun hsame => ?_⟩
  have hruns : run (lobbySnapshot (some "") (some "")) = run (lobbySnapshot (some "") none) :=
    congrArg (Except.map _) hsame
  rw [hhidden, hshown] at hruns
  cases hruns

end SceneWiring
