import Mathlib.Logic.Relation
import SceneWiring.Proofs.Fetching
/-!
# Constraints that name other type parameters

A type parameter can be constrained by another one of its class, which is constrained in its turn,
along chains and cycles of any length. The classification takes every constraint of the written
parameter for a declared type and goes no further, so it finds what lies behind the chain only where
the chain has one link.
-/

namespace SceneWiring

namespace TypeDecl

/-- A constraint of the first type parameter names the second, which the class has too. -/
def Leads (owner : TypeDecl) (p q : TypeParameter) : Prop :=
  ∃ bound ∈ p.constraints, owner.typeParameter? bound.definitionName = some q

/-- A chain of constraints, perhaps an empty one, leads from the first type parameter to the
second. -/
def LeadsOn (owner : TypeDecl) : TypeParameter → TypeParameter → Prop :=
  Relation.ReflTransGen owner.Leads

/-- No constraint of the type parameter names one of the class. -/
def Unlinked (owner : TypeDecl) (p : TypeParameter) : Prop :=
  ∀ bound ∈ p.constraints, owner.typeParameter? bound.definitionName = none

/-- From a type parameter of the class only type parameters of the class are found. -/
theorem LeadsOn.mem {owner : TypeDecl} {p q : TypeParameter} (h : owner.LeadsOn p q)
    (hp : p ∈ owner.typeParameters) : q ∈ owner.typeParameters := by
  cases h with
  | refl => exact hp
  | tail _ hstep =>
    obtain ⟨bound, -, hq⟩ := hstep
    exact List.mem_of_find?_eq_some hq

/-- A type parameter none of whose constraints names one leads nowhere but to itself. -/
theorem LeadsOn.eq_of_unlinked {owner : TypeDecl} {p q : TypeParameter} (h : owner.LeadsOn p q)
    (hfree : owner.Unlinked p) : q = p := by
  rcases Relation.ReflTransGen.cases_head h with hself | ⟨next, ⟨bound, hbound, hnext⟩, -⟩
  · exact hself.symm
  · rw [hfree bound hbound] at hnext
    cases hnext

end TypeDecl

namespace Classification

/-- The classification tells that a type counts as a node just when the first statement holds, and
as a resource just when the second does. -/
def Tells : Classification → Prop → Prop → Prop
  | .path, asNode, asResource => asNode ∧ ¬asResource
  | .resource, asNode, asResource => ¬asNode ∧ asResource
  | .unsupported, asNode, asResource => ¬asNode ∧ ¬asResource
  | .ambiguous, asNode, asResource => asNode ∧ asResource

/-- The classification by two searches tells what the searches find. -/
theorem tells_ofRoots_iff {isNode isResource : Bool} {asNode asResource : Prop} :
    (ofRoots isNode isResource).Tells asNode asResource ↔
      (isNode = true ↔ asNode) ∧ (isResource = true ↔ asResource) := by
  cases isNode <;> cases isResource <;> simp [ofRoots, Tells]

/-- A classification settles both statements, so it tells just what is equivalent to them. -/
theorem Tells.tells_iff {k : Classification} {asNode asResource asNode' asResource' : Prop}
    (h : k.Tells asNode asResource) :
    k.Tells asNode' asResource' ↔ (asNode ↔ asNode') ∧ (asResource ↔ asResource') := by
  cases k <;> obtain ⟨hnode, hresource⟩ := h <;> simp [Tells, hnode, hresource]

/-- What counts as neither is unsupported. -/
theorem Tells.eq_unsupported {k : Classification} {asNode asResource : Prop}
    (h : k.Tells asNode asResource) (hnode : ¬asNode) (hresource : ¬asResource) :
    k = .unsupported := by
  cases k with
  | path => exact absurd h.1 hnode
  | resource => exact absurd h.2 hresource
  | unsupported => rfl
  | ambiguous => exact absurd h.1 hnode

end Classification

namespace Context

/-- A constraint of the type parameter denotes a declared type that reaches the root. -/
def ConstrainedTo (x : Context) (p : TypeParameter) (root : TypeDecl) : Prop :=
  ∃ bound ∈ p.constraints, ∃ d,
    x.compilation.resolve bound = some d ∧ x.compilation.Reaches d root

/-- Among the type parameters of the class that the given one leads to, itself included, one has a
constraint that names no type parameter and denotes a declared type that reaches the root. -/
def ConstrainedThrough (x : Context) (owner : TypeDecl) (p : TypeParameter) (root : TypeDecl) :
    Prop :=
  ∃ q, owner.LeadsOn p q ∧ ∃ bound ∈ q.constraints,
    owner.typeParameter? bound.definitionName = none ∧
      ∃ d, x.compilation.resolve bound = some d ∧ x.compilation.Reaches d root

/-- The constraints of the type parameter that name type parameters of the class denote no declared
types. -/
def LinksUndeclared (x : Context) (owner : TypeDecl) (p : TypeParameter) : Prop :=
  ∀ bound ∈ p.constraints, ∀ q, owner.typeParameter? bound.definitionName = some q →
    x.compilation.resolve bound = none

variable {x : Context} {owner : TypeDecl} {type : TypeRef} {p : TypeParameter} {root : TypeDecl}

/-- The types that stand for a type parameter are those its constraints denote, so that one of the
former reaches a root just when one of the latter does. -/
theorem capable_iff_constrainedTo (hp : owner.typeParameter? type.definitionName = some p) :
    x.Capable owner type root ↔ x.ConstrainedTo p root := by
  have hcandidate (d : TypeDecl) :
      x.Candidate owner type d ↔ ∃ bound ∈ p.constraints, x.compilation.resolve bound = some d := by
    rw [← x.mem_candidates_iff, candidates, hp]
    exact List.mem_filterMap
  constructor
  · rintro ⟨d, hd, hreach⟩
    obtain ⟨bound, hbound, hdenotes⟩ := (hcandidate d).1 hd
    exact ⟨bound, hbound, d, hdenotes, hreach⟩
  · rintro ⟨bound, hbound, d, hdenotes, hreach⟩
    exact ⟨d, (hcandidate d).2 ⟨bound, hbound, hdenotes⟩, hreach⟩

/-- A type parameter is classified by its own constraints. -/
theorem tells_classify_parameter (hp : owner.typeParameter? type.definitionName = some p) :
    (x.classify owner type).Tells (x.ConstrainedTo p x.host.node)
      (x.ConstrainedTo p x.host.resource) := by
  have hroot (root : TypeDecl) (hmem : root ∈ x.compilation.types) :
      (x.candidates owner type).any (x.compilation.derivesFrom · root) = true ↔
        x.ConstrainedTo p root :=
    (x.any_derivesFrom_iff_capable owner type hmem).trans (capable_iff_constrainedTo hp)
  exact Classification.tells_ofRoots_iff.2
    ⟨hroot _ (Compilation.mem_of_lookup x.host.lookup_node),
      hroot _ (Compilation.mem_of_lookup x.host.lookup_resource)⟩

/-- What is reached behind a constraint that names a type parameter is reached. -/
theorem ConstrainedThrough.head {q : TypeParameter} (hstep : owner.Leads p q)
    (h : x.ConstrainedThrough owner q root) : x.ConstrainedThrough owner p root := by
  obtain ⟨last, hlast, hreach⟩ := h
  exact ⟨last, Relation.ReflTransGen.head hstep hlast, hreach⟩

/-- What is reached along a chain is reached by an own constraint or behind a type parameter that an
own constraint names. -/
theorem ConstrainedThrough.own_or_behind (h : x.ConstrainedThrough owner p root) :
    x.ConstrainedTo p root ∨ ∃ q, owner.Leads p q ∧ x.ConstrainedThrough owner q root := by
  obtain ⟨last, hlast, hend⟩ := h
  rcases Relation.ReflTransGen.cases_head hlast with hself | ⟨q, hstep, hrest⟩
  · obtain ⟨bound, hbound, -, hreach⟩ := hend
    exact .inl ⟨bound, hself ▸ hbound, hreach⟩
  · exact .inr ⟨q, hstep, last, hrest, hend⟩

/-- The own constraints reach all that the chain does exactly when they reach all that lies behind
the type parameters that they name. -/
theorem constrainedThrough_imp_iff :
    (x.ConstrainedThrough owner p root → x.ConstrainedTo p root) ↔
      ∀ q, owner.Leads p q → x.ConstrainedThrough owner q root → x.ConstrainedTo p root := by
  constructor
  · exact fun hall q hstep hbehind => hall (hbehind.head hstep)
  · intro hbehind hthrough
    rcases hthrough.own_or_behind with hown | ⟨q, hstep, hrest⟩
    · exact hown
    · exact hbehind q hstep hrest

/-- What is reached along a chain is reached from some type parameter of the class. -/
theorem ConstrainedThrough.exists_constrainedTo (hp : p ∈ owner.typeParameters)
    (h : x.ConstrainedThrough owner p root) :
    ∃ q ∈ owner.typeParameters, x.ConstrainedTo q root := by
  obtain ⟨q, hq, bound, hbound, -, hreach⟩ := h
  exact ⟨q, hq.mem hp, bound, hbound, hreach⟩

/-- Where no constraint names a type parameter, the chain has one link. -/
theorem constrainedThrough_iff_of_unlinked (hfree : owner.Unlinked p) :
    x.ConstrainedThrough owner p root ↔ x.ConstrainedTo p root := by
  constructor
  · rintro ⟨q, hq, bound, hbound, -, hreach⟩
    rw [hq.eq_of_unlinked hfree] at hbound
    exact ⟨bound, hbound, hreach⟩
  · rintro ⟨bound, hbound, hreach⟩
    exact ⟨p, .refl, bound, hbound, hfree bound hbound, hreach⟩

/-- Where the constraints that name type parameters denote no declared types, the chain reaches
whatever its first link does. -/
theorem ConstrainedTo.through (hclear : x.LinksUndeclared owner p) (h : x.ConstrainedTo p root) :
    x.ConstrainedThrough owner p root := by
  obtain ⟨bound, hbound, d, hdenotes, hreach⟩ := h
  refine ⟨p, .refl, bound, hbound, Option.eq_none_iff_forall_ne_some.2 fun q hq => ?_,
    d, hdenotes, hreach⟩
  rw [hclear bound hbound q hq] at hdenotes
  cases hdenotes

end Context

/-- A type parameter is classified by the declared types that its own constraints denote. This is
the classification by the constraints of all type parameters that it leads to exactly when, for
either root, its own constraints reach it just where theirs do; in particular when it is constrained
by no type parameter. Where the type parameters that constrain it are no declared types as well, no
root is made up, and one is missed when it lies behind such a type parameter and its own constraints
do not reach it; with no other constraints it counts as nothing. -/
theorem classify_parameter_by_first_link {x : Context} {owner : TypeDecl} {type : TypeRef}
    {p : TypeParameter} (hp : owner.typeParameter? type.definitionName = some p) :
    let node := x.host.node
    let resource := x.host.resource
    let followed := (x.classify owner type).Tells (x.ConstrainedThrough owner p node)
      (x.ConstrainedThrough owner p resource)
    (x.classify owner type).Tells (x.ConstrainedTo p node) (x.ConstrainedTo p resource) ∧
    (followed ↔ (x.ConstrainedTo p node ↔ x.ConstrainedThrough owner p node) ∧
      (x.ConstrainedTo p resource ↔ x.ConstrainedThrough owner p resource)) ∧
    (owner.Unlinked p → followed) ∧
    (x.LinksUndeclared owner p →
      (followed ↔ ∀ q, owner.Leads p q →
        (x.ConstrainedThrough owner q node → x.ConstrainedTo p node) ∧
        (x.ConstrainedThrough owner q resource → x.ConstrainedTo p resource))) ∧
    ((∀ bound ∈ p.constraints, x.compilation.resolve bound = none) →
      x.classify owner type = .unsupported) := by
  intro node resource followed
  have htells : (x.classify owner type).Tells (x.ConstrainedTo p node)
      (x.ConstrainedTo p resource) := Context.tells_classify_parameter hp
  have hfollowed : followed ↔ (x.ConstrainedTo p node ↔ x.ConstrainedThrough owner p node) ∧
      (x.ConstrainedTo p resource ↔ x.ConstrainedThrough owner p resource) := htells.tells_iff
  refine ⟨htells, hfollowed, fun hfree => ?_, fun hclear => ?_, fun hnone => ?_⟩
  · exact hfollowed.2 ⟨(Context.constrainedThrough_iff_of_unlinked hfree).symm,
      (Context.constrainedThrough_iff_of_unlinked hfree).symm⟩
  · have hbehind (root : TypeDecl) : (x.ConstrainedTo p root ↔ x.ConstrainedThrough owner p root) ↔
        ∀ q, owner.Leads p q → x.ConstrainedThrough owner q root → x.ConstrainedTo p root := by
      rw [← Context.constrainedThrough_imp_iff]
      exact ⟨fun hsame => hsame.2, fun hback => ⟨fun hown => hown.through hclear, hback⟩⟩
    rw [hfollowed, hbehind, hbehind]
    simp only [imp_and, forall_and]
  · have hmissed (root : TypeDecl) : ¬x.ConstrainedTo p root := by
      rintro ⟨bound, hbound, d, hdenotes, -⟩
      rw [hnone bound hbound] at hdenotes
      cases hdenotes
    exact htells.eq_unsupported (hmissed node) (hmissed resource)

/-- A node, a resource, and a class with a type parameter that is constrained by another one, which
is constrained to be a node. -/
def chainedTypes : List TypeDecl :=
  [{ name := "Node", namespaceName? := some "Godot" },
   { name := "Resource", namespaceName? := some "Godot" },
   { name := "Holder", namespaceName? := some "Game", base? := some ⟨"Godot.Node", false⟩,
     typeParameters := [{ name := "T", constraints := [⟨"U", false⟩] },
       { name := "U", constraints := [⟨"Godot.Node", false⟩] }] }]

/-- The same types under the default settings. -/
def chainedContext : Context where
  compilation := ⟨chainedTypes, [], keyIndex chainedTypes, nameIndex chainedTypes,
    by decide +kernel, rfl, rfl⟩
  config := {}
  host := ⟨chainedTypes[0], chainedTypes[1], by decide +kernel, by decide +kernel⟩

/-- The second type parameter is constrained by no other, so that the chain is followed to its end,
which is the node. -/
theorem last_link_is_followed :
    let holder := chainedTypes[2]
    let u := holder.typeParameters[1]
    holder.typeParameter? (⟨"U", false⟩ : TypeRef).definitionName = some u ∧
      holder.Unlinked u ∧ chainedContext.classify holder ⟨"U", false⟩ = .path ∧
      chainedContext.ConstrainedThrough holder u chainedContext.host.node ∧
      ¬chainedContext.ConstrainedThrough holder u chainedContext.host.resource := by
  intro holder u
  have hu : holder.typeParameter? (⟨"U", false⟩ : TypeRef).definitionName = some u := by
    decide +kernel
  have hfree : holder.Unlinked u := by
    unfold TypeDecl.Unlinked
    decide +kernel
  have hpath : chainedContext.classify holder ⟨"U", false⟩ = .path := by decide +kernel
  have hfollowed := (classify_parameter_by_first_link (x := chainedContext) hu).2.2.1 hfree
  rw [hpath] at hfollowed
  exact ⟨hu, hfree, hpath, hfollowed⟩

/-- The first type parameter leads to the second and so to the node, and to no resource; the
classification, which stops at the first constraint, takes it for neither. -/
theorem node_behind_type_parameter_is_missed :
    let holder := chainedTypes[2]
    let t := holder.typeParameters[0]
    let node := chainedContext.host.node
    let resource := chainedContext.host.resource
    holder.typeParameter? (⟨"T", false⟩ : TypeRef).definitionName = some t ∧
      Classification.path.Tells (chainedContext.ConstrainedThrough holder t node)
        (chainedContext.ConstrainedThrough holder t resource) ∧
      chainedContext.classify holder ⟨"T", false⟩ = .unsupported ∧
      ¬(chainedContext.classify holder ⟨"T", false⟩).Tells
        (chainedContext.ConstrainedThrough holder t node)
        (chainedContext.ConstrainedThrough holder t resource) := by
  intro holder t node resource
  let u := holder.typeParameters[1]
  have ht : holder.typeParameter? (⟨"T", false⟩ : TypeRef).definitionName = some t := by
    decide +kernel
  have hu : holder.typeParameter? (⟨"U", false⟩ : TypeRef).definitionName = some u := by
    decide +kernel
  have htClass : chainedContext.classify holder ⟨"T", false⟩ = .unsupported := by decide +kernel
  have huClass : chainedContext.classify holder ⟨"U", false⟩ = .path := by decide +kernel
  have htTold := Context.tells_classify_parameter (x := chainedContext) ht
  have huTold := Context.tells_classify_parameter (x := chainedContext) hu
  rw [htClass] at htTold
  rw [huClass] at huTold
  have hnode : chainedContext.ConstrainedThrough holder t node := by
    refine .head ⟨⟨"U", false⟩, List.mem_singleton_self _, hu⟩ ?_
    refine (Context.constrainedThrough_iff_of_unlinked ?_).2 huTold.1
    unfold TypeDecl.Unlinked
    decide +kernel
  have hresource : ¬chainedContext.ConstrainedThrough holder t resource := by
    intro hthrough
    obtain ⟨q, hq, hreach⟩ := hthrough.exists_constrainedTo (List.getElem_mem _)
    have hparameter : q = t ∨ q = u := by simpa [holder, t, u, chainedTypes] using hq
    rcases hparameter with rfl | rfl
    · exact htTold.2 hreach
    · exact huTold.2 hreach
  exact ⟨ht, ⟨hnode, hresource⟩, htClass, fun h => (htClass ▸ h).1 hnode⟩

end SceneWiring
