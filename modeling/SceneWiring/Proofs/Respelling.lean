import SceneWiring.Proofs.Lockstep
import SceneWiring.Proofs.NameLookup
import SceneWiring.Proofs.Spelling
/-!
# Programs spelled anew

In a program some types may be spelled anew where they are used: the types of members, bases,
interfaces and constraints, as far as they denote a declaration. Both programs then have the same
names, every name denotes declarations that differ in spelling alone, and types derive from the same
types. So a member is classified alike and takes its value from the same members.
-/

namespace SceneWiring

/-- The second type stands for the first: it is the same, or the first denotes a declaration and the
second is a spelling of the same core. -/
inductive TypeRef.Respelled (c : Compilation) : TypeRef → TypeRef → Prop
  | same (type : TypeRef) : Respelled c type type
  | spelled {type type' : TypeRef} {d : TypeDecl} (hd : c.resolve type = some d)
      (h : type.SameCore type') : Respelled c type type'

/-- The second member is the first with its type spelled anew. -/
structure Member.Respelled (c : Compilation) (m m' : Member) : Prop where
  /-- The type is spelled anew. -/
  type : m.type.Respelled c m'.type
  /-- Nothing else differs. -/
  rest : m' = { m with type := m'.type }

/-- The second type parameter is the first with its constraints spelled anew. -/
structure TypeParameter.Respelled (c : Compilation) (p p' : TypeParameter) : Prop where
  /-- The constraints are spelled anew. -/
  constraints : List.Forall₂ (TypeRef.Respelled c) p.constraints p'.constraints
  /-- Nothing else differs. -/
  rest : p' = { p with constraints := p'.constraints }

/-- The second declaration is the first with its base, its interfaces, its constraints and the types
of its members spelled anew. -/
structure TypeDecl.Respelled (c : Compilation) (d d' : TypeDecl) : Prop where
  /-- The base is spelled anew. -/
  base : Option.Rel (TypeRef.Respelled c) d.base? d'.base?
  /-- The interfaces are spelled anew. -/
  interfaces : List.Forall₂ (TypeRef.Respelled c) d.interfaces d'.interfaces
  /-- The constraints are spelled anew. -/
  typeParameters : List.Forall₂ (TypeParameter.Respelled c) d.typeParameters d'.typeParameters
  /-- The types of fields are spelled anew. -/
  fields : List.Forall₂ (Member.Respelled c) d.fields d'.fields
  /-- The types of properties are spelled anew. -/
  properties : List.Forall₂ (Member.Respelled c) d.properties d'.properties
  /-- Nothing else differs. -/
  rest : d' =
    { d with
      base? := d'.base?
      interfaces := d'.interfaces
      typeParameters := d'.typeParameters
      fields := d'.fields
      properties := d'.properties }

/-- The second program is the first with some of its types spelled anew. -/
structure Compilation.Respelled (c c' : Compilation) : Prop where
  /-- The declarations are spelled anew. -/
  types : List.Forall₂ (TypeDecl.Respelled c) c.types c'.types
  /-- The mentions are the same. -/
  mentions_eq : c.mentions = c'.mentions

namespace TypeRef.Respelled

variable {c : Compilation} {type type' : TypeRef}

/-- A type spelled anew is the same but for the root mark. -/
theorem dropRootMark_eq (h : type.Respelled c type') :
    dropRootMark type.name.toList = dropRootMark type'.name.toList := by
  cases h with
  | same => rfl
  | spelled _ hcore => exact hcore.dropRootMark_eq

/-- Spelling does not count for the name of the definition. -/
theorem definitionName_eq (h : type.Respelled c type') :
    type.definitionName = type'.definitionName :=
  TypeRef.definitionName_congr h.dropRootMark_eq

/-- Spelling does not count for what a type denotes. -/
theorem resolve_eq (h : type.Respelled c type') : c.resolve type = c.resolve type' :=
  c.resolve_congr h.dropRootMark_eq

/-- Spelling does not count for how generated code writes a type. -/
theorem display_eq (h : type.Respelled c type') : c.display type = c.display type' := by
  cases h with
  | same => rfl
  | spelled hd hcore => exact Compilation.display_congr hd hcore.dropRootMark_eq

end TypeRef.Respelled

namespace Member.Respelled

variable {c : Compilation} {m m' : Member}

/-- A member spelled anew has the same name. -/
theorem name_eq (h : m.Respelled c m') : m.name = m'.name :=
  (congrArg Member.name h.rest.symm :)

/-- A member spelled anew is declared at the same place. -/
theorem location_eq (h : m.Respelled c m') : m.location = m'.location :=
  (congrArg Member.location h.rest.symm :)

/-- A member spelled anew has the same attributes. -/
theorem attributes_eq (h : m.Respelled c m') : m.attributes = m'.attributes :=
  (congrArg Member.attributes h.rest.symm :)

end Member.Respelled

namespace TypeDecl.Respelled

variable {c : Compilation} {d d' : TypeDecl}

/-- A declaration spelled anew has the same name. -/
theorem name_eq (h : d.Respelled c d') : d.name = d'.name :=
  (congrArg TypeDecl.name h.rest.symm :)

/-- A declaration spelled anew is in the same namespace. -/
theorem namespaceName?_eq (h : d.Respelled c d') : d.namespaceName? = d'.namespaceName? :=
  (congrArg TypeDecl.namespaceName? h.rest.symm :)

/-- A declaration spelled anew is nested in the same types. -/
theorem nestedIn?_eq (h : d.Respelled c d') : d.nestedIn? = d'.nestedIn? :=
  (congrArg TypeDecl.nestedIn? h.rest.symm :)

/-- A declaration spelled anew has type parameters of the same names. -/
theorem parameterNames_eq (h : d.Respelled c d') :
    d.typeParameters.map (·.name) = d'.typeParameters.map (·.name) :=
  map_eq_of_forall₂ h.typeParameters fun hp => (congrArg TypeParameter.name hp.rest.symm :)

/-- A declaration spelled anew has the same full name. -/
theorem fullName_eq (h : d.Respelled c d') : d.fullName = d'.fullName := by
  unfold TypeDecl.fullName TypeDecl.qualifiers
  rw [h.namespaceName?_eq, h.nestedIn?_eq, h.name_eq]

/-- A declaration spelled anew has the same metadata name. -/
theorem metadataName_eq (h : d.Respelled c d') : d.metadataName = d'.metadataName := by
  unfold TypeDecl.metadataName
  rw [h.fullName_eq, h.typeParameters.length_eq]

/-- A declaration spelled anew has the same name with type parameters. -/
theorem declaredName_eq (h : d.Respelled c d') : d.declaredName = d'.declaredName := by
  have hempty := congrArg List.isEmpty h.parameterNames_eq
  rw [List.isEmpty_map, List.isEmpty_map] at hempty
  unfold TypeDecl.declaredName
  rw [hempty, h.name_eq, h.parameterNames_eq]

/-- The type parameters of a name are spelled anew. -/
theorem typeParameter?_rel (h : d.Respelled c d') (name : String) :
    Option.Rel (TypeParameter.Respelled c) (d.typeParameter? name) (d'.typeParameter? name) := by
  unfold TypeDecl.typeParameter?
  generalize d.typeParameters = ps, d'.typeParameters = ps', h.typeParameters = hps
  induction hps with
  | nil => exact .none
  | @cons p p' _ _ hp _ ih =>
    have hname : p.name = p'.name := (congrArg TypeParameter.name hp.rest.symm :)
    rw [List.find?_cons, List.find?_cons, hname]
    split
    · exact .some hp
    · exact ih

/-- A declaration may be left as it is. -/
theorem refl (c : Compilation) (d : TypeDecl) : d.Respelled c d where
  base := by
    cases d.base? with
    | none => exact .none
    | some type => exact .some (.same type)
  interfaces := List.forall₂_same.2 fun type _ => .same type
  typeParameters := List.forall₂_same.2 fun _ _ =>
    ⟨List.forall₂_same.2 fun type _ => .same type, rfl⟩
  fields := List.forall₂_same.2 fun _ _ => ⟨.same _, rfl⟩
  properties := List.forall₂_same.2 fun _ _ => ⟨.same _, rfl⟩
  rest := rfl

/-- The members that hold values are spelled anew. -/
theorem members_rel (h : d.Respelled c d') :
    List.Forall₂ (Member.Respelled c) (d.members.map (·.2)) (d'.members.map (·.2)) := by
  simp only [TypeDecl.members, List.map_append, List.map_map]
  exact List.rel_append (List.rel_map (fun _ _ hm => hm) h.properties)
    (List.rel_map (fun _ _ hm => hm) h.fields)

end TypeDecl.Respelled

namespace Compilation.Respelled

variable {c c' : Compilation} {type type' : TypeRef} {d d' : TypeDecl}

/-- Both programs have the same metadata names. -/
theorem metadataNames_eq (h : c.Respelled c') :
    c.types.map TypeDecl.metadataName = c'.types.map TypeDecl.metadataName :=
  map_eq_of_forall₂ h.types TypeDecl.Respelled.metadataName_eq

/-- Both programs have the same full names. -/
theorem fullNames_eq (h : c.Respelled c') :
    c.types.map TypeDecl.fullName = c'.types.map TypeDecl.fullName :=
  map_eq_of_forall₂ h.types TypeDecl.Respelled.fullName_eq

/-- A name denotes a declaration in one program and the same one spelled anew in the other, or
nothing in both. -/
theorem lookup_rel (h : c.Respelled c') (name : String) :
    Option.Rel (TypeDecl.Respelled c) (c.lookup name) (c'.lookup name) := by
  rw [lookup_eq_scan, lookup_eq_scan, ← scan?_congr h.metadataNames_eq h.fullNames_eq]
  cases scan? c.types name with
  | none => exact .none
  | some i => exact rel_getElem? h.types i

/-- A type spelled anew denotes the same declaration spelled anew. -/
theorem resolve_rel (h : c.Respelled c') (htype : type.Respelled c type') :
    Option.Rel (TypeDecl.Respelled c) (c.resolve type) (c'.resolve type') := by
  rw [htype.resolve_eq]
  exact h.lookup_rel type'.name

/-- A declaration spelled anew stands at the same place. -/
theorem position_eq (h : c.Respelled c') (hd : d.Respelled c d') :
    c.position d = c'.position d' := by
  have hindex := congrArg (List.findIdx (· == d.metadataName)) h.metadataNames_eq
  rw [List.findIdx_map, List.findIdx_map] at hindex
  unfold position
  rw [← hd.metadataName_eq]
  exact hindex

/-- Spelling does not count in the hierarchy. -/
theorem follows (h : c.Respelled c') : c.Follows (TypeDecl.Respelled c) c' where
  name_eq := TypeDecl.Respelled.metadataName_eq
  parents {d d'} hd := by
    have hbase := rel_toList hd.base
    exact List.rel_filterMap (fun _ _ htype => h.resolve_rel htype)
      (List.rel_append hbase hd.interfaces)
  length_eq := h.types.length_eq

/-- Generated code writes a type alike however it is spelled. -/
theorem display_eq (h : c.Respelled c') (htype : type.Respelled c type') :
    c.display type = c'.display type' := by
  rw [htype.display_eq]
  have hlookup := h.lookup_rel type'.name
  unfold display resolve
  generalize c.lookup type'.name = found, c'.lookup type'.name = found' at hlookup ⊢
  cases hlookup with
  | none => rfl
  | some hd =>
    dsimp only
    rw [hd.fullName_eq]

end Compilation.Respelled

namespace Context

/-- The second context is for the same settings and the program spelled anew. -/
structure Respelled (x x' : Context) : Prop where
  /-- The settings are the same. -/
  config_eq : x.config = x'.config
  /-- The program is spelled anew. -/
  compilation : x.compilation.Respelled x'.compilation

namespace Respelled

variable {x x' : Context} {owner owner' : TypeDecl} {type type' source source' : TypeRef}
  {m m' : Member}

/-- A declaration found under one name is spelled anew in the other program. -/
theorem of_lookup (h : x.Respelled x') {name name' : String} {d d' : TypeDecl} (hname : name = name')
    (hd : x.compilation.lookup name = some d) (hd' : x'.compilation.lookup name' = some d') :
    d.Respelled x.compilation d' := by
  have hlookup := h.compilation.lookup_rel name
  rw [hd, hname, hd'] at hlookup
  cases hlookup with
  | some hrel => exact hrel

/-- The root of the types fetched by path is spelled anew. -/
theorem node (h : x.Respelled x') : x.host.node.Respelled x.compilation x'.host.node :=
  h.of_lookup (congrArg Config.nodeType h.config_eq) x.host.lookup_node x'.host.lookup_node

/-- The root of the types loaded as resources is spelled anew. -/
theorem resource (h : x.Respelled x') :
    x.host.resource.Respelled x.compilation x'.host.resource :=
  h.of_lookup (congrArg Config.resourceType h.config_eq) x.host.lookup_resource
    x'.host.lookup_resource

/-- A type spelled anew stands for the same declarations spelled anew. -/
theorem candidates_rel (h : x.Respelled x') (howner : owner.Respelled x.compilation owner')
    (htype : type.Respelled x.compilation type') :
    List.Forall₂ (TypeDecl.Respelled x.compilation) (x.candidates owner type)
      (x'.candidates owner' type') := by
  have hparameter := howner.typeParameter?_rel type.definitionName
  unfold candidates
  rw [← htype.definitionName_eq]
  generalize owner.typeParameter? type.definitionName = p,
    owner'.typeParameter? type.definitionName = p' at hparameter ⊢
  cases hparameter with
  | none => exact rel_toList (h.compilation.resolve_rel htype)
  | some hp => exact List.rel_filterMap (fun _ _ hc => h.compilation.resolve_rel hc) hp.constraints

/-- A type is fetched in the same way however it is spelled. -/
theorem classify_eq (h : x.Respelled x') (howner : owner.Respelled x.compilation owner')
    (htype : type.Respelled x.compilation type') :
    x.classify owner type = x'.classify owner' type' := by
  have hcandidates := h.candidates_rel howner htype
  unfold classify
  dsimp only
  rw [h.compilation.follows.any_derivesFrom_eq hcandidates h.node,
    h.compilation.follows.any_derivesFrom_eq hcandidates h.resource]

/-- A member spelled anew gets the same slot. -/
theorem slot_eq (h : x.Respelled x') (hm : m.Respelled x.compilation m')
    (options : FetchOptions) : x.slot m options = x'.slot m' options := by
  rw [slot, slot, h.compilation.display_eq hm.type, hm.name_eq]

/-- The same values can be assigned however types are spelled. -/
theorem assignable_eq (h : x.Respelled x') (hsource : source.Respelled x.compilation source')
    (htype : type.Respelled x.compilation type') :
    x.assignable source type = x'.assignable source' type' := by
  have hs := h.compilation.resolve_rel hsource
  have ht := h.compilation.resolve_rel htype
  unfold assignable
  rw [← hsource.definitionName_eq, ← htype.definitionName_eq]
  generalize x.compilation.resolve source = s, x'.compilation.resolve source' = s' at hs ⊢
  generalize x.compilation.resolve type = t, x'.compilation.resolve type' = t' at ht ⊢
  cases hs with
  | none => cases ht <;> rfl
  | some hs =>
    cases ht with
    | none => rfl
    | some ht => exact h.compilation.follows.derivesFrom_eq hs ht

/-- A member takes its value from the same members, spelled anew. -/
theorem sources_rel (h : x.Respelled x') (howner : owner.Respelled x.compilation owner')
    (htype : type.Respelled x.compilation type') :
    List.Forall₂ (Member.Respelled x.compilation) (x.sources owner type)
      (x'.sources owner' type') := by
  refine List.rel_filter (fun m m' hm => ?_) howner.members_rel
  have himplicit : m.implicit = m'.implicit := (congrArg Member.implicit hm.rest.symm :)
  dsimp only
  rw [himplicit, h.assignable_eq hm.type htype]

end Respelled

end Context

end SceneWiring
