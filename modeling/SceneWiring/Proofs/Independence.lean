import SceneWiring.Proofs.MetTypes
/-!
# Classes are independent

Two snapshots that differ in the attributes of one type alone fail alike or are both resolved. Every
other type then has the same additions and the same diagnostics in both, whether or not the type with
the other attributes is one that it derives from or takes values from, and the same unit in both or
none in either.
-/

namespace SceneWiring

/-- What decisions about the classes of a snapshot depend on. -/
def Snapshot.context (s : Snapshot) : Except Failure Context :=
  s.compile.bind fun (c, config) => Context.ofCompilation c config

/-- What is generated for the snapshot in a document is generated in the context of the snapshot. -/
theorem Generation.ofDocument_eq (document : Json.Document) :
    Generation.ofDocument document =
      ((Snapshot.ofDocument document).mapError .malformed).bind fun s =>
        s.context.map Context.generate := by
  unfold Generation.ofDocument Compilation.ofDocument Snapshot.context
  cases Snapshot.ofDocument document with
  | error fault => rfl
  | ok s =>
    simp only [Except.mapError, Except.bind]
    cases s.compile <;> rfl

/-- Snapshots with the same settings and the same metadata names, in whose types the same names denote
something, fail alike, or they give a context each. -/
theorem Snapshot.contexts_of_metadataNames {s s' : Snapshot}
    (hnames : s'.types.map TypeDecl.metadataName = s.types.map TypeDecl.metadataName)
    (hconfig : s'.config = s.config)
    (hsome : ∀ c c' : Compilation, c.types = s.types → c'.types = s'.types →
      ∀ name, (c.lookup name).isSome = (c'.lookup name).isSome) :
    (∃ failure, s.context = .error failure ∧ s'.context = .error failure) ∨
    ∃ x x', s.context = .ok x ∧ s'.context = .ok x' ∧ x.config = x'.config ∧
      x.compilation.types = s.types ∧ x'.compilation.types = s'.types ∧
      x.compilation.mentions = s.mentions ∧ x'.compilation.mentions = s'.mentions := by
  unfold Snapshot.context Snapshot.compile
  rw [hconfig]
  cases hc : Compilation.ofTypes s.types s.mentions with
  | error failure =>
    obtain ⟨key, hrepeat, rfl⟩ := Compilation.ofTypes_eq_error hc
    refine .inl ⟨_, rfl, ?_⟩
    cases hc' : Compilation.ofTypes s'.types s'.mentions with
    | error failure' =>
      obtain ⟨key', hrepeat', rfl⟩ := Compilation.ofTypes_eq_error hc'
      rw [hnames, hrepeat] at hrepeat'
      cases hrepeat'
      rfl
    | ok c' =>
      obtain ⟨htypes, -⟩ := Compilation.ofTypes_eq_ok hc'
      have hnone := (firstRepeat_eq_none_iff [] _).2 ⟨c'.distinct, fun _ _ => List.not_mem_nil⟩
      rw [htypes, hnames, hrepeat] at hnone
      cases hnone
  | ok c =>
    obtain ⟨htypes, hmentions⟩ := Compilation.ofTypes_eq_ok hc
    obtain ⟨c', hc'⟩ := Compilation.exists_ofTypes (hnames ▸ htypes ▸ c.distinct) s'.mentions
    obtain ⟨htypes', hmentions'⟩ := Compilation.ofTypes_eq_ok hc'
    rw [hc']
    rcases Context.contexts_of_isSome_lookup (hsome c c' htypes htypes') s.config with
      ⟨missing, hx, hx'⟩ | ⟨x, x', hx, hx', rfl, rfl, hsettings, hsettings'⟩
    · exact .inl ⟨_, hx, hx'⟩
    · exact .inr ⟨x, x', hx, hx', hsettings.trans hsettings'.symm, htypes, htypes', hmentions,
        hmentions'⟩

/-- Snapshots whose declarations differ in attributes alone fail alike, or they give contexts that
agree. -/
theorem Snapshot.contexts_of_bare {s s' : Snapshot}
    (hbare : s'.types.map TypeDecl.bare = s.types.map TypeDecl.bare)
    (hconfig : s'.config = s.config) :
    (∃ failure, s.context = .error failure ∧ s'.context = .error failure) ∨
    ∃ x x', s.context = .ok x ∧ s'.context = .ok x' ∧ x.Agrees x' ∧
      x.compilation.types = s.types ∧ x'.compilation.types = s'.types ∧
      x.compilation.mentions = s.mentions ∧ x'.compilation.mentions = s'.mentions := by
  have hnames : s'.types.map TypeDecl.metadataName = s.types.map TypeDecl.metadataName := by
    have hnames := congrArg (List.map TypeDecl.metadataName) hbare
    rw [List.map_map, List.map_map] at hnames
    exact hnames
  have hagrees (c c' : Compilation) (htypes : c.types = s.types) (htypes' : c'.types = s'.types) :
      c.Agrees c' :=
    Compilation.agrees_of_perm (.of_eq (by rw [htypes, htypes', hbare]))
  rcases Snapshot.contexts_of_metadataNames hnames hconfig fun c c' htypes htypes' =>
      (hagrees c c' htypes htypes').isSome_lookup_eq with
    hfailure | ⟨x, x', hx, hx', hsettings, htypes, htypes', hmentions, hmentions'⟩
  · exact .inl hfailure
  · exact .inr ⟨x, x', hx, hx', ⟨hsettings, hagrees _ _ htypes htypes'⟩, htypes, htypes', hmentions,
      hmentions'⟩

namespace Compilation.Agrees

variable {c c' : Compilation}

/-- A declaration that stands in both of two programs that agree is denoted by the same names. -/
theorem lookup_eq_some_iff (h : c.Agrees c') {d : TypeDecl} (hd : d ∈ c.types)
    (hd' : d ∈ c'.types) (name : String) : c'.lookup name = some d ↔ c.lookup name = some d := by
  rcases h.lookup_cases name with ⟨hnone, hnone'⟩ | ⟨e, e', he, he', hbare⟩
  · rw [hnone, hnone']
  · have hname := TypeDecl.metadataName_eq_of_bare hbare
    rw [he, he', Option.some.injEq, Option.some.injEq]
    constructor
    · rintro rfl
      exact eq_of_metadataName (mem_of_lookup he) hd hname
    · rintro rfl
      exact eq_of_metadataName (mem_of_lookup he') hd' hname.symm

/-- A declaration that stands in both of two programs that agree is met in both or in none, when the
mentions are the same. -/
theorem met_iff (h : c.Agrees c') (hmentions : c'.mentions = c.mentions) {d : TypeDecl}
    (hd : d ∈ c.types) (hd' : d ∈ c'.types) : c'.Met d ↔ c.Met d := by
  rw [Met, Met, hmentions]
  exact exists_congr fun m => and_congr_right fun _ => h.lookup_eq_some_iff hd hd' m.name

end Compilation.Agrees

namespace Context

/-- The unit of the type at a position, if it gets one. -/
def unitAt? (x : Context) (position : Nat) : Option GeneratedUnit :=
  (x.compilation.types[position]?).bind fun d => if x.Emits d then some (x.unitOf d) else none

/-- The units of a run are those of the types in order. -/
theorem units_eq_filterMap_unitAt? (x : Context) :
    x.generate.units = (List.range x.compilation.types.length).filterMap x.unitAt? := by
  have htypes : (List.range x.compilation.types.length).map (x.compilation.types[·]?) =
      x.compilation.types.map some :=
    List.ext_getElem (by simp) fun i _ _ => by simp
  have hunitAt : x.unitAt? = (fun found : Option TypeDecl => found.bind fun d =>
      if x.Emits d then some (x.unitOf d) else none) ∘ (x.compilation.types[·]?) := rfl
  rw [hunitAt, ← List.filterMap_map, htypes, List.filterMap_map, units_eq_map_unitOf,
    ← List.filterMap_eq_map, List.filterMap_filter]
  refine List.filterMap_congr fun d _ => ?_
  simp

namespace Agrees

variable {x x' : Context}

/-- A declaration that stands at the same position in both of two programs that agree has the same
additions and diagnostics. -/
theorem resolveClass_at (h : x.Agrees x') {i : Nat} {d : TypeDecl}
    (hd : x.compilation.types[i]? = some d) (hd' : x'.compilation.types[i]? = some d) :
    x'.resolveClass d = x.resolveClass d := by
  have hnumbered := x.numbered_resolveClass d
  rw [Compilation.position_of_getElem? hd] at hnumbered
  rw [h.resolveClass_eq, Compilation.position_of_getElem? hd', hnumbered.movedTo_eq_self]

/-- A declaration that stands at the same position in both of two programs that agree has the same
unit or none, when the mentions are the same. -/
theorem unitAt?_eq (h : x.Agrees x')
    (hmentions : x'.compilation.mentions = x.compilation.mentions) {i : Nat}
    (hi : x'.compilation.types[i]? = x.compilation.types[i]?) : x'.unitAt? i = x.unitAt? i := by
  rw [unitAt?, unitAt?, hi]
  cases hd : x.compilation.types[i]? with
  | none => rfl
  | some d =>
    have hmet := h.compilation.met_iff hmentions (List.mem_of_getElem? hd)
      (List.mem_of_getElem? (hi.trans hd))
    simp only [Option.bind_some, h.emits_iff hmet, h.unitOf_eq]

end Agrees

end Context

/-- The snapshots are the same but for the attributes of the type at a position, those on the type
itself and those on its fields, properties and methods. -/
structure Snapshot.SameBut (changed : Nat) (s s' : Snapshot) : Prop where
  /-- The mentions are the same. -/
  mentions_eq : s'.mentions = s.mentions
  /-- The settings are the same. -/
  config_eq : s'.config = s.config
  /-- The declarations differ in attributes alone. -/
  bare_eq : s'.types.map TypeDecl.bare = s.types.map TypeDecl.bare
  /-- The other declarations are the same. -/
  others_eq : ∀ other, other ≠ changed → s'.types[other]? = s.types[other]?

/-- Snapshots that are the same but for the attributes of one type fail alike, or both are resolved.
Then every other type has the same additions and diagnostics in both, and the same unit or none. -/
theorem classes_are_independent {s s' : Snapshot} {changed : Nat} (h : s.SameBut changed s') :
    (∃ failure, s.context = .error failure ∧ s'.context = .error failure) ∨
    ∃ x x', s.context = .ok x ∧ s'.context = .ok x' ∧
      x.generate.units = (List.range s.types.length).filterMap x.unitAt? ∧
      x'.generate.units = (List.range s.types.length).filterMap x'.unitAt? ∧
      ∀ other, other ≠ changed → x'.unitAt? other = x.unitAt? other ∧
        ∀ d, s.types[other]? = some d →
          s'.types[other]? = some d ∧ x'.resolveClass d = x.resolveClass d := by
  have hlength := congrArg List.length h.bare_eq
  rw [List.length_map, List.length_map] at hlength
  rcases Snapshot.contexts_of_bare h.bare_eq h.config_eq with
    hfailure | ⟨x, x', hx, hx', hagrees, htypes, htypes', hmentions, hmentions'⟩
  · exact .inl hfailure
  · refine .inr ⟨x, x', hx, hx', htypes ▸ x.units_eq_filterMap_unitAt?, ?_, ?_⟩
    · rw [x'.units_eq_filterMap_unitAt?, htypes', hlength]
    · intro other hother
      have hsame := h.others_eq other hother
      have hmentions_eq : x'.compilation.mentions = x.compilation.mentions := by
        rw [hmentions', hmentions, h.mentions_eq]
      refine ⟨hagrees.unitAt?_eq hmentions_eq (by rw [htypes', htypes, hsame]), fun d hd => ?_⟩
      exact ⟨hsame.trans hd, hagrees.resolveClass_at (htypes ▸ hd) (htypes' ▸ hsame.trans hd)⟩

/-- The menu of the game has the same unit, additions and diagnostics when the hero has no attributes
at all. -/
theorem menu_is_independent_of_hero :
    let s : Snapshot := { types := gameTypes, mentions := gameMentions }
    let s' : Snapshot := { s with types := gameTypes.set 2 gameTypes[2].bare }
    s.SameBut 2 s' ∧
      ∃ x x', s.context = .ok x ∧ s'.context = .ok x' ∧ x'.unitAt? 3 = x.unitAt? 3 ∧
        x'.resolveClass gameTypes[3] = x.resolveClass gameTypes[3] := by
  intro s s'
  have hsame : s.SameBut 2 s' :=
    ⟨rfl, rfl, by decide +kernel, fun other hother => List.getElem?_set_ne hother.symm⟩
  refine ⟨hsame, ?_⟩
  rcases classes_are_independent hsame with ⟨failure, hfails, -⟩ | ⟨x, x', hx, hx', -, -, hothers⟩
  · -- The game is a program, and it declares both host types.
    obtain ⟨c, hc⟩ := Compilation.exists_ofTypes nodup_metadataName_gameTypes gameMentions
    have hlookup (name : String) : c.lookup name = (scan? gameTypes name).bind (gameTypes[·]?) := by
      rw [c.lookup_eq_scan, (Compilation.ofTypes_eq_ok hc).1]
    have hnode : c.lookup "Godot.Node" = some gameTypes[0] := (hlookup _).trans (by decide +kernel)
    have hresource : c.lookup "Godot.Resource" = some gameTypes[1] :=
      (hlookup _).trans (by decide +kernel)
    have hcontext : s.context = Context.ofCompilation c {} := by
      simp only [s, Snapshot.context, Snapshot.compile, hc, Except.map, Except.bind]
    rw [hcontext] at hfails
    have hfound := Context.ofCompilation_self ⟨c, {}, ⟨_, _, hnode, hresource⟩⟩
    rw [hfails] at hfound
    cases hfound
  · obtain ⟨hunit, hresolution⟩ := hothers 3 (by decide)
    exact ⟨x, x', hx, hx', hunit, (hresolution gameTypes[3] rfl).2⟩

end SceneWiring
