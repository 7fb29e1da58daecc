import SceneWiring.Proofs.Companions
/-!
# Companions and declared members

Every annotation of a member that passes its checks claims a name for a companion: that of the member
with `Path`, `Resource` or `Mask` behind it. The companions of a class have just the names claimed,
since a claim is dropped only for an earlier one on the same name. What the class declares itself
plays no part in it. So no companion has the name of a declared member exactly when none is claimed.
-/

namespace SceneWiring

/-- The names of the properties, fields and methods that a type declares. -/
def TypeDecl.memberNames (d : TypeDecl) : List String :=
  d.properties.map (·.name) ++ d.fields.map (·.name) ++ d.methods.map (·.name)

/-- The names of the companions that a resolution has additions for. -/
def Resolution.companions (r : Resolution) : List String :=
  r.additions.filterMap (·.strategy.companion?)

/-- The annotations of a type at a member are those of its properties and fields. -/
theorem TypeDecl.mem_occurrences_member {d : TypeDecl} {m : Member} {a : Attribute}
    {said : Annotation} : ⟨.member m, a, said⟩ ∈ d.occurrences ↔
      (m ∈ d.properties ∨ m ∈ d.fields) ∧ a ∈ m.attributes ∧ a.annotation? = some said := by
  simp [occurrences, sites, or_and_right]

namespace Context

/-- The name that an annotation of a member claims for a companion, if it passes its checks. -/
def companionFor? (x : Context) (owner : TypeDecl) (m : Member) : Annotation → Option String
  | .get options =>
    if options.property.isSome then some (companionStem m.name ++ "Path")
    else
      match x.classify owner m.type with
      | .path => some (companionStem m.name ++ "Path")
      | .resource => some (companionStem m.name ++ "Resource")
      | .unsupported | .ambiguous => none
  | .find options _ _ =>
    if options.property.isSome ∨ x.classify owner m.type = .path then
      some (companionStem m.name ++ "Mask")
    else none
  | .injectAncestor _ _ | .onReady _ | .selectorEnum _ => none

/-- Some annotation of a property or field of the class claims the name for a companion. -/
def Claims (x : Context) (owner : TypeDecl) (name : String) : Prop :=
  ∃ m a said, (m ∈ owner.properties ∨ m ∈ owner.fields) ∧ a ∈ m.attributes ∧
    a.annotation? = some said ∧ x.companionFor? owner m said = some name

/-- The name that an annotation at a site of the class claims for a companion. -/
def companionAt? (x : Context) (owner : TypeDecl) (o : Occurrence) : Option String :=
  match o.site with
  | .member m => x.companionFor? owner m o.annotation
  | .type | .method _ => none

/-- A request for a node or resource is granted the companion that it claims. -/
theorem companion?_judgeGet (x : Context) (owner : TypeDecl) (m : Member)
    (options : FetchOptions) :
    ((x.judgeGet owner m options).toOption.bind fun request => request.strategy.companion?) =
      x.companionFor? owner m (.get options) := by
  unfold judgeGet companionFor?
  dsimp only
  cases options.property with
  | some property => rfl
  | none => cases x.classify owner m.type <;> rfl

/-- A request for a node by its name is granted the companion that it claims. -/
theorem companion?_judgeFind (x : Context) (owner : TypeDecl) (m : Member)
    (options : FetchOptions) (recursive owned : Bool) :
    ((x.judgeFind owner m options recursive owned).toOption.bind fun request =>
      request.strategy.companion?) = x.companionFor? owner m (.find options recursive owned) := by
  unfold judgeFind companionFor?
  dsimp only
  cases options.property with
  | some property => rfl
  | none =>
    by_cases hpath : x.classify owner m.type = .path
    · rw [if_neg fun h => h.2 hpath, if_pos (.inr hpath)]
      rfl
    · rw [if_pos ⟨rfl, hpath⟩, if_neg]
      · rfl
      · rintro (hnone | hpath')
        · cases hnone
        · exact hpath hpath'

/-- A judgement grants the companion that the annotation claims. -/
theorem companion?_judge (x : Context) (owner : TypeDecl) (o : Occurrence) :
    ((x.judge owner o).toOption.bind fun request => request.strategy.companion?) =
      x.companionAt? owner o := by
  -- What is granted to annotations of other kinds has no companion.
  have hother (hfetches : o.annotation.fetches = false) :
      ((x.judge owner o).toOption.bind fun request => request.strategy.companion?) = none := by
    have hjudged := x.judged owner o
    cases hgiven : x.judge owner o with
    | error d => rfl
    | ok request =>
      rw [hgiven] at hjudged
      obtain ⟨hserves, -⟩ := hjudged
      have hsome := hserves.isSome_companion?
      rw [hfetches] at hsome
      have hnone : request.strategy.companion? = none := by
        rw [← Option.not_isSome_iff_eq_none, hsome]
        exact Bool.false_ne_true
      exact hnone
  obtain ⟨site, written, annotation⟩ := o
  cases annotation with
  | get options =>
    cases site with
    | member m => exact x.companion?_judgeGet owner m options
    | type | method => rfl
  | find options recursive owned =>
    cases site with
    | member m => exact x.companion?_judgeFind owner m options recursive owned
    | type | method => rfl
  | injectAncestor | onReady | selectorEnum =>
    rw [hother rfl]
    cases site <;> rfl

/-- The annotations of the properties and fields of a class claim the names claimed. -/
theorem exists_companionAt?_iff (x : Context) (owner : TypeDecl) (name : String) :
    (∃ o ∈ owner.occurrences, x.companionAt? owner o = some name) ↔ x.Claims owner name := by
  constructor
  · rintro ⟨⟨site, written, annotation⟩, ho, hclaimed⟩
    cases site with
    | member m =>
      obtain ⟨hm, ha, hsaid⟩ := TypeDecl.mem_occurrences_member.1 ho
      exact ⟨m, written, annotation, hm, ha, hsaid, hclaimed⟩
    | type | method => cases hclaimed
  · rintro ⟨m, a, said, hm, ha, hsaid, hclaimed⟩
    exact ⟨⟨.member m, a, said⟩, TypeDecl.mem_occurrences_member.2 ⟨hm, ha, hsaid⟩, hclaimed⟩

end Context

namespace Resolution

variable {x : Context} {owner : TypeDecl}

/-- A name that a member holds is the name of a companion. -/
theorem mem_companions_of_holder? {r : Resolution} {companion holder : String}
    (h : r.holder? companion = some holder) : companion ∈ r.companions := by
  obtain ⟨a, ha, hheld, -⟩ := exists_of_holder?_eq_some h
  exact List.mem_filterMap.2 ⟨a, ha, hheld⟩

/-- One more addition brings its companion with it. -/
theorem companions_push (r : Resolution) (position : Nat) (request : Request) :
    (r.push position request).companions = r.companions ++ request.strategy.companion?.toList := by
  rw [companions, companions, additions_push, List.filterMap_append, List.filterMap_cons]
  cases request.strategy.companion? <;> rfl

/-- After a step there are the companions from before and the one that the annotation claims. -/
theorem mem_companions_step (r : Resolution) (o : Occurrence) (name : String) :
    name ∈ (r.step x owner o).companions ↔
      name ∈ r.companions ∨ x.companionAt? owner o = some name := by
  have hjudge := x.companion?_judge owner o
  cases hgiven : x.judge owner o with
  | error d =>
    rw [hgiven] at hjudge
    have hnone : x.companionAt? owner o = none := hjudge.symm
    rw [step_of_error r hgiven, hnone]
    exact (or_iff_left (Option.some_ne_none name).symm).symm
  | ok request =>
    rw [hgiven] at hjudge
    have hclaimed : request.strategy.companion? = x.companionAt? owner o := hjudge
    cases hclash : r.clash? o.site request with
    | none =>
      rw [step_of_no_clash hgiven hclash, companions_push, List.mem_append, Option.mem_toList,
        hclaimed]
    | some d =>
      -- The companion of a request that is dropped is there already.
      obtain ⟨m, companion, holder, -, hcompanion, hholder, -⟩ := clash?_eq_some hclash
      have hheld := mem_companions_of_holder? hholder
      rw [step_of_clash hgiven hclash, ← hclaimed, hcompanion, Option.some_inj]
      constructor
      · exact .inl
      · rintro (hbefore | rfl)
        · exact hbefore
        · exact hheld

/-- After a run there are the companions from before and those that its annotations claim. -/
theorem mem_companions_foldl_step (r : Resolution) (os : List Occurrence) (name : String) :
    name ∈ (os.foldl (Resolution.step x owner) r).companions ↔
      name ∈ r.companions ∨ ∃ o ∈ os, x.companionAt? owner o = some name := by
  induction os generalizing r with
  | nil => simp only [List.foldl_nil, List.not_mem_nil, false_and, exists_false, or_false]
  | cons o rest ih => rw [List.foldl_cons, ih, mem_companions_step, or_assoc, List.exists_mem_cons_iff]

end Resolution

namespace Context

/-- The companions of a class have the names that its annotations claim. -/
theorem mem_companions_resolveClass (x : Context) (owner : TypeDecl) (name : String) :
    name ∈ (x.resolveClass owner).companions ↔ x.Claims owner name := by
  have hstart : name ∉ Resolution.companions .start := List.not_mem_nil
  rw [resolveClass, Resolution.mem_companions_foldl_step, x.exists_companionAt?_iff]
  exact or_iff_right hstart

/-- A name claimed is that of a property or field with `Path`, `Resource` or `Mask` behind it. -/
theorem Claims.exists_member {x : Context} {owner : TypeDecl} {name : String}
    (h : x.Claims owner name) : ∃ m, (m ∈ owner.properties ∨ m ∈ owner.fields) ∧
      ∃ ending ∈ ["Path", "Resource", "Mask"], name = companionStem m.name ++ ending := by
  obtain ⟨m, a, said, hm, -, -, hclaimed⟩ := h
  refine ⟨m, hm, ?_⟩
  unfold companionFor? at hclaimed
  split at hclaimed
  · split at hclaimed
    · exact ⟨"Path", by decide, (Option.some.inj hclaimed).symm⟩
    · split at hclaimed
      · exact ⟨"Path", by decide, (Option.some.inj hclaimed).symm⟩
      · exact ⟨"Resource", by decide, (Option.some.inj hclaimed).symm⟩
      · cases hclaimed
      · cases hclaimed
  · split at hclaimed
    · exact ⟨"Mask", by decide, (Option.some.inj hclaimed).symm⟩
    · cases hclaimed
  · cases hclaimed
  · cases hclaimed
  · cases hclaimed

end Context

/-- The companions of a class have just the names that the annotations of its properties and fields
claim. So none has the name of a declared property, field or method exactly when none of these names
is claimed, and that is so when no declared name is the name of a property or field with `Path`,
`Resource` or `Mask` behind it. -/
theorem companions_disjoint_memberNames_iff (x : Context) (owner : TypeDecl) :
    (∀ name, name ∈ (x.resolveClass owner).companions ↔ x.Claims owner name) ∧
    ((x.resolveClass owner).companions.Disjoint owner.memberNames ↔
      ∀ name ∈ owner.memberNames, ¬x.Claims owner name) ∧
    ((∀ m, m ∈ owner.properties ∨ m ∈ owner.fields → ∀ ending ∈ ["Path", "Resource", "Mask"],
        companionStem m.name ++ ending ∉ owner.memberNames) →
      (x.resolveClass owner).companions.Disjoint owner.memberNames) := by
  have hdisjoint : (x.resolveClass owner).companions.Disjoint owner.memberNames ↔
      ∀ name ∈ owner.memberNames, ¬x.Claims owner name := by
    rw [List.disjoint_right]
    simp only [x.mem_companions_resolveClass owner]
  refine ⟨x.mem_companions_resolveClass owner, hdisjoint, fun hfree => hdisjoint.2 ?_⟩
  intro name hname hclaimed
  obtain ⟨m, hm, ending, hending, rfl⟩ := hclaimed.exists_member
  exact hfree m hm ending hending hname

/-- A node, a resource, and a class with a field that claims a path and a property of just that
name. -/
def playerTypes : List TypeDecl :=
  [{ name := "Node", namespaceName? := some "Godot" },
   { name := "Resource", namespaceName? := some "Godot" },
   { name := "Player", namespaceName? := some "Game", base? := some ⟨"Godot.Node", false⟩,
     properties := [{ name := "BodyPath", type := ⟨"Godot.NodePath", false⟩ }],
     fields :=
      [{ name := "_body", type := ⟨"Godot.Node", false⟩,
         attributes := [{ name := "OnReadyGet" }] }] }]

/-- The class under the default settings, met in the source. -/
def playerContext : Context where
  compilation := ⟨playerTypes, [{ name := "Game.Player" }], keyIndex playerTypes,
    nameIndex playerTypes, by decide +kernel, rfl, rfl⟩
  config := {}
  host := ⟨playerTypes[0], playerTypes[1], by decide +kernel, by decide +kernel⟩

/-- The class gets a companion with the name of its property, and nothing is reported. -/
theorem companion_named_like_property :
    let player := playerTypes[2]
    (playerContext.resolveClass player).diagnostics = [] ∧
      (playerContext.resolveClass player).companions = ["BodyPath"] ∧
      player.properties.map (·.name) = ["BodyPath"] ∧
      ¬(playerContext.resolveClass player).companions.Disjoint player.memberNames := by
  intro player
  have hrun : (playerContext.resolveClass player).diagnostics = [] ∧
      (playerContext.resolveClass player).companions = ["BodyPath"] := by
    decide +kernel
  have hdeclared : player.memberNames = ["BodyPath", "_body"] := by decide +kernel
  obtain ⟨hreported, hcompanions⟩ := hrun
  refine ⟨hreported, hcompanions, rfl, fun hdisjoint => ?_⟩
  rw [hcompanions, hdeclared] at hdisjoint
  exact hdisjoint List.mem_cons_self List.mem_cons_self

end SceneWiring
