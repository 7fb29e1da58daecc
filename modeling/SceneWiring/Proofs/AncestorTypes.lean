import SceneWiring.Proofs.RootedNames
/-!
# The type of an ancestor in generated code

The ancestor that a member takes its value from is found by a look-up that minds type arguments. The
cast in generated code is to its full name from the root, without arguments. So the cast is to the type
that was found when this has no type parameters or is the only one of its name. With a namesake that has
no parameters the cast is to that one, and with other namesakes to no declared type at all.
-/

namespace SceneWiring

namespace Context

variable {x : Context} {m : Member} {type name : Option String}

/-- The value taken from an ancestor is the ancestor itself, or a member of it. -/
inductive TakenFrom (x : Context) (m : Member) (ancestor : TypeDecl) : Option String → Prop
  | itself (same : x.compilation.resolve m.type = some ancestor) : x.TakenFrom m ancestor none
  | member {source : Member} (mem : source ∈ ancestor.properties ++ ancestor.fields)
      (suits : x.Suits source.type m.type) : x.TakenFrom m ancestor (some source.name)

/-- A request for a value from an ancestor that is granted takes it from the ancestor that was found. -/
theorem exists_takenFrom_of_judgeInject {request : Request}
    (h : x.judgeInject m type name = .ok request) :
    ∃ ancestor source, x.ancestor? m type = some ancestor ∧ x.TakenFrom m ancestor source ∧
      request = { strategy := fromAncestor m name ancestor source } := by
  cases hancestor : x.ancestor? m type with
  | none =>
    rw [judgeInject_of_unresolved hancestor] at h
    cases h
  | some ancestor =>
    by_cases hself : x.compilation.resolve m.type = some ancestor
    · rw [judgeInject_of_itself hancestor hself] at h
      exact ⟨ancestor, none, rfl, .itself hself, (Except.ok.inj h).symm⟩
    · rw [judgeInject_of_other hancestor hself, takeOnly_eq_ok_iff] at h
      obtain ⟨source, honly, hrequest⟩ := h
      have hsource : source ∈ x.sources ancestor m.type := honly ▸ List.mem_singleton_self source
      rw [sources_eq_filter, List.mem_filter, decide_eq_true_eq] at hsource
      exact ⟨ancestor, some source.name, rfl, .member hsource.1 hsource.2.2, hrequest⟩

end Context

/-- A member that gets a value from an ancestor is given a strategy with the full name of the ancestor
that was found, and the cast in the lifecycle method is to this text. The text denotes the ancestor
exactly when it has no type parameters or is the sole one of the name. Where declared names have no
marks of written types in them, being sole means that no other declared type has the full name, and
whatever the text denotes is the ancestor or the type of its name that has no parameters. -/
theorem ancestor_text_denotes_iff {x : Context} {m : Member} {type name : Option String}
    {request : Request} (h : x.judgeInject m type name = .ok request) :
    ∃ (ancestor : TypeDecl) (source : Option String),
      let text := "global::" ++ ancestor.fullName
      x.ancestor? m type = some ancestor ∧ x.TakenFrom m ancestor source ∧
      request.strategy = .injectAncestor m.name (name.getD ancestor.name) text source ∧
      (∃ search failure assignment, request.strategy.lifecycle =
        some [.block [search, .indented [.line ("as " :: .raw text :: failure)], assignment]]) ∧
      (x.compilation.lookup text = some ancestor ↔
        ancestor.typeParameters = [] ∨ x.compilation.IsSole ancestor) ∧
      (x.compilation.CleanNames →
        (x.compilation.lookup text = some ancestor ↔ ancestor.typeParameters = [] ∨
          x.compilation.types.countP (·.fullName == ancestor.fullName) = 1) ∧
        ∀ d, x.compilation.lookup text = some d →
          d = ancestor ∨ d.typeParameters = [] ∧ d.fullName = ancestor.fullName) := by
  obtain ⟨ancestor, source, hancestor, htaken, rfl⟩ := Context.exists_takenFrom_of_judgeInject h
  have hmem := Context.mem_of_ancestor? hancestor
  have hdenotes := Compilation.lookup_fullName_iff hmem
  refine ⟨ancestor, source, hancestor, htaken, rfl, ⟨_, _, _, rfl⟩, hdenotes, fun hclean => ?_⟩
  exact ⟨hdenotes.trans (hclean.recalls_nil_iff hmem), fun d hd => hclean.eq_or_of_lookup hmem hd⟩

/-- The boxes and the lid under the default settings. -/
def boxContext : Context where
  compilation := boxProgram
  config := {}
  host := ⟨boxTypes[0], boxTypes[1], by decide +kernel, by decide +kernel⟩

/-- The tray of the lid is an ancestor without type parameters, and the cast is to its type. -/
theorem tray_cast_to_itself :
    let tray := boxTypes[4].fields[1]
    boxContext.judgeInject tray none none =
        .ok { strategy := Context.fromAncestor tray none boxTypes[2] none } ∧
      boxContext.compilation.CleanNames ∧
      boxContext.compilation.lookup "global::Game.Box" = some boxTypes[2] := by
  intro tray
  have hjudge : boxContext.judgeInject tray none none =
      .ok { strategy := Context.fromAncestor tray none boxTypes[2] none } := by
    decide +kernel
  have hclean : boxContext.compilation.CleanNames := by decide +kernel
  obtain ⟨ancestor, source, hancestor, -, -, -, hdenotes, -⟩ := ancestor_text_denotes_iff hjudge
  have hsame : ancestor = boxTypes[2] := by
    have hfound : boxContext.ancestor? tray none = some boxTypes[2] := by decide +kernel
    exact Option.some.inj (hancestor.symm.trans hfound)
  subst hsame
  have hname : "global::" ++ boxTypes[2].fullName = "global::Game.Box" := by decide +kernel
  exact ⟨hjudge, hclean, hname ▸ hdenotes.2 (.inl rfl)⟩

/-- The box of the lid is found as the box of anything, and the cast is to the other box. -/
theorem generic_ancestor_cast_to_namesake :
    let lid := boxTypes[4]
    let box := lid.fields[0]
    boxContext.ancestor? box none = some boxTypes[3] ∧
      (boxContext.resolveClass lid).additions.map (·.strategy) =
        [.injectAncestor "_box" "Box" "global::Game.Box" none,
         .injectAncestor "_tray" "Box" "global::Game.Box" none] ∧
      boxContext.compilation.lookup "global::Game.Box" = some boxTypes[2] ∧
      boxTypes[2].metadataName ≠ boxTypes[3].metadataName := by
  decide +kernel

end SceneWiring
