import SceneWiring.Proofs.Lockstep
import SceneWiring.Proofs.Outcomes
import SceneWiring.Proofs.Reachability
/-!
# Programs that agree

Two programs agree when every name denotes the same declaration in both, or declarations that differ
in their attributes alone. Programs of the same declarations agree: neither the order in which these
are listed nor their attributes nor the mentions count. In programs that agree, and under the same
settings, types derive from the same types and annotations are judged alike.
-/

namespace SceneWiring

/-- The member without its attributes. -/
def Member.bare (m : Member) : Member := { m with attributes := [] }

/-- The method without its attributes. -/
def Method.bare (m : Method) : Method := { m with attributes := [] }

/-- The declaration without any attributes. -/
def TypeDecl.bare (d : TypeDecl) : TypeDecl :=
  { d with
    attributes := []
    fields := d.fields.map Member.bare
    properties := d.properties.map Member.bare
    methods := d.methods.map Method.bare }

/-- The site without the attributes that stand there. -/
def Site.bare : Site → Site
  | .type => .type
  | .member m => .member m.bare
  | .method m => .method m.bare

/-- The annotation at its site without the other attributes there. -/
def Occurrence.bare (o : Occurrence) : Occurrence := { o with site := o.site.bare }

/-- The metadata name does not depend on attributes. -/
theorem TypeDecl.metadataName_eq_of_bare {d d' : TypeDecl} (h : d.bare = d'.bare) :
    d.metadataName = d'.metadataName :=
  (congrArg TypeDecl.metadataName h :)

namespace Compilation

/-- Every name denotes the same in both programs, up to attributes, and the programs are of one
size. -/
structure Agrees (c c' : Compilation) : Prop where
  /-- A name denotes declarations that differ in their attributes alone. -/
  lookup_eq : ∀ name, (c.lookup name).map TypeDecl.bare = (c'.lookup name).map TypeDecl.bare
  /-- There are as many declarations. -/
  length_eq : c.types.length = c'.types.length

variable {c c' : Compilation} {d d' e e' : TypeDecl}

namespace Agrees

/-- A name denotes nothing in both programs, or declarations that differ in attributes alone. -/
theorem lookup_cases (h : c.Agrees c') (name : String) :
    (c.lookup name = none ∧ c'.lookup name = none) ∨
      ∃ d d', c.lookup name = some d ∧ c'.lookup name = some d' ∧ d.bare = d'.bare := by
  have hlookup := h.lookup_eq name
  cases hd : c.lookup name with
  | none =>
    rw [hd, Option.map_none, eq_comm, Option.map_eq_none_iff] at hlookup
    exact .inl ⟨rfl, hlookup⟩
  | some d =>
    rw [hd, Option.map_some, eq_comm, Option.map_eq_some_iff] at hlookup
    obtain ⟨d', hd', hbare⟩ := hlookup
    exact .inr ⟨d, d', rfl, hd', hbare.symm⟩

/-- What one name denotes in programs that agree differs in attributes alone. -/
theorem bare_eq_of_lookup (h : c.Agrees c') {name name' : String} (hname : name = name')
    (hd : c.lookup name = some d) (hd' : c'.lookup name' = some d') : d.bare = d'.bare := by
  have hlookup := h.lookup_eq name
  rw [hd, hname, hd', Option.map_some, Option.map_some] at hlookup
  exact Option.some.inj hlookup

/-- A written type denotes the same in programs that agree. -/
theorem resolve_eq (h : c.Agrees c') (type : TypeRef) :
    (c.resolve type).map TypeDecl.bare = (c'.resolve type).map TypeDecl.bare :=
  h.lookup_eq type.name

/-- A declaration has the same parents in programs that agree. -/
theorem parents_eq (h : c.Agrees c') (d : TypeDecl) :
    (c.parents d).map TypeDecl.bare = (c'.parents d).map TypeDecl.bare := by
  rw [parents, parents, List.map_filterMap, List.map_filterMap]
  exact List.filterMap_congr fun type _ => h.resolve_eq type

/-- Declarations that differ in attributes alone have the same parents, so that the searches through
the hierarchies of programs that agree go in lockstep. -/
theorem follows (h : c.Agrees c') : c.Follows (fun d d' => d.bare = d'.bare) c' where
  name_eq := TypeDecl.metadataName_eq_of_bare
  parents {d d'} hd := by
    have hbare : c'.parents d = c'.parents d' := (congrArg c'.parents hd :)
    exact forall₂_of_map_eq ((h.parents_eq d).trans (congrArg _ hbare))
  length_eq := h.length_eq

/-- Types derive from the same types in programs that agree. -/
theorem derivesFrom_eq (h : c.Agrees c') (hd : d.bare = d'.bare) (he : e.bare = e'.bare) :
    c.derivesFrom d e = c'.derivesFrom d' e' :=
  h.follows.derivesFrom_eq hd he

/-- Some declaration of a list derives from a type in both programs or in none. -/
theorem any_derivesFrom_eq (h : c.Agrees c') {ds ds' : List TypeDecl}
    (hds : ds.map TypeDecl.bare = ds'.map TypeDecl.bare) (he : e.bare = e'.bare) :
    ds.any (c.derivesFrom · e) = ds'.any (c'.derivesFrom · e') :=
  h.follows.any_derivesFrom_eq (forall₂_of_map_eq hds) he

/-- Generated code shows a written type alike in programs that agree. -/
theorem display_eq (h : c.Agrees c') (type : TypeRef) : c.display type = c'.display type := by
  unfold display resolve
  rcases h.lookup_cases type.name with ⟨hd, hd'⟩ | ⟨d, d', hd, hd', hbare⟩
  · rw [hd, hd']
  · have hname : d.fullName = d'.fullName := (congrArg TypeDecl.fullName hbare :)
    rw [hd, hd']
    dsimp only
    rw [hname]

end Agrees

end Compilation

namespace Compilation

/-- The declaration of a metadata name is, up to attributes, the only one of that name. -/
theorem map_bare_withKey?_eq_some_iff {c : Compilation} {key : String} {b : TypeDecl} :
    (c.withKey? key).map TypeDecl.bare = some b ↔
      b ∈ c.types.map TypeDecl.bare ∧ b.metadataName = key := by
  simp only [Option.map_eq_some_iff, List.mem_map, withKey?_eq_some_iff]
  constructor
  · rintro ⟨d, ⟨hmem, hkey⟩, rfl⟩
    exact ⟨⟨d, hmem, rfl⟩, hkey⟩
  · rintro ⟨⟨d, hmem, rfl⟩, hkey⟩
    exact ⟨d, ⟨hmem, hkey⟩, rfl⟩

/-- The declaration of a full name is, up to attributes, the only one of that name. -/
theorem map_bare_withName?_eq_some_iff {c : Compilation} {name : String} {b : TypeDecl} :
    (c.withName? name).map TypeDecl.bare = some b ↔
      (c.types.map TypeDecl.bare).filter (·.fullName == name) = [b] := by
  have hfilter : (c.types.map TypeDecl.bare).filter (·.fullName == name) =
      (c.types.filter (·.fullName == name)).map TypeDecl.bare := List.filter_map
  rw [withName?_eq_filter, hfilter]
  generalize c.types.filter (·.fullName == name) = found
  match found with
  | [] => simp
  | [d] => simp
  | d :: e :: rest => simp

/-- Programs with the same declarations agree, whatever the order and the attributes of these. -/
theorem agrees_of_perm {c c' : Compilation}
    (h : (c.types.map TypeDecl.bare).Perm (c'.types.map TypeDecl.bare)) : c.Agrees c' where
  lookup_eq name := by
    have hkey (key : String) :
        (c.withKey? key).map TypeDecl.bare = (c'.withKey? key).map TypeDecl.bare := by
      ext b
      rw [map_bare_withKey?_eq_some_iff, map_bare_withKey?_eq_some_iff, h.mem_iff]
    have hname (full : String) :
        (c.withName? full).map TypeDecl.bare = (c'.withName? full).map TypeDecl.bare := by
      have hfilter := h.filter (·.fullName == full)
      ext b
      rw [map_bare_withName?_eq_some_iff, map_bare_withName?_eq_some_iff]
      constructor
      · intro hone
        rw [hone] at hfilter
        exact List.perm_singleton.1 hfilter.symm
      · intro hone
        rw [hone] at hfilter
        exact List.perm_singleton.1 hfilter
    unfold lookup
    dsimp only
    generalize dropRootMark name.toList = chars
    have hfirst := hkey (String.ofList chars)
    cases hd : c.withKey? (String.ofList chars) with
    | some d =>
      rw [hd, Option.map_some, eq_comm, Option.map_eq_some_iff] at hfirst
      obtain ⟨d', hd', hbare⟩ := hfirst
      rw [hd']
      exact congrArg some hbare.symm
    | none =>
      rw [hd, Option.map_none, eq_comm, Option.map_eq_none_iff] at hfirst
      rw [hfirst]
      cases arity? chars with
      | some n => exact hkey _
      | none => exact hname _
  length_eq := by
    have hlength := h.length_eq
    rw [List.length_map, List.length_map] at hlength
    exact hlength

/-- In whatever order declarations are listed, a name denotes the same one. -/
theorem lookup_eq_of_perm {c c' : Compilation} (h : c.types.Perm c'.types) (name : String) :
    c.lookup name = c'.lookup name := by
  rcases (agrees_of_perm (h.map TypeDecl.bare)).lookup_cases name with
    ⟨hd, hd'⟩ | ⟨d, d', hd, hd', hbare⟩
  · rw [hd, hd']
  · have hmem := h.mem_iff.1 (mem_of_lookup hd)
    have hsame := eq_of_metadataName hmem (mem_of_lookup hd')
      (TypeDecl.metadataName_eq_of_bare hbare)
    rw [hd, hd', hsame]

end Compilation

namespace Context

/-- The programs agree and the settings are the same. -/
structure Agrees (x x' : Context) : Prop where
  /-- The settings are the same. -/
  config_eq : x.config = x'.config
  /-- The programs agree. -/
  compilation : x.compilation.Agrees x'.compilation

variable {x x' : Context}

/-- The fields that an enumeration lists do not depend on attributes. -/
theorem listedFields_bare (owner : TypeDecl) : listedFields owner.bare = listedFields owner := by
  have hfields : owner.bare.fields = owner.fields.map Member.bare := rfl
  rw [listedFields, listedFields, hfields, List.filter_map, List.map_map]
  rfl

/-- The judgement of an annotation does not depend on other attributes. -/
theorem judge_bare (x : Context) (owner : TypeDecl) (o : Occurrence) :
    x.judge owner.bare o.bare = x.judge owner o := by
  obtain ⟨site, written, annotation⟩ := o
  cases site with
  | type =>
    cases annotation with
    | selectorEnum name =>
      change judgeEnum owner.bare name written.location = judgeEnum owner name written.location
      unfold judgeEnum
      rw [listedFields_bare]
      rfl
    | get | find | injectAncestor | onReady => rfl
  | member m => cases annotation <;> rfl
  | method m => cases annotation <;> rfl

/-- The members of an ancestor to take a value from do not depend on attributes. -/
theorem sources_bare (x : Context) (ancestor : TypeDecl) (type : TypeRef) :
    x.sources ancestor.bare type = (x.sources ancestor type).map Member.bare := by
  have hmembers : ancestor.bare.members.map (·.2) =
      (ancestor.members.map (·.2)).map Member.bare := by
    simp only [TypeDecl.members, TypeDecl.bare, List.map_append, List.map_map]
    rfl
  rw [sources, sources, hmembers, List.filter_map]
  rfl

namespace Agrees

/-- The root of the types fetched by path is the same. -/
theorem node_eq (h : x.Agrees x') : x.host.node.bare = x'.host.node.bare :=
  h.compilation.bare_eq_of_lookup (congrArg Config.nodeType h.config_eq) x.host.lookup_node
    x'.host.lookup_node

/-- The root of the types loaded as resources is the same. -/
theorem resource_eq (h : x.Agrees x') : x.host.resource.bare = x'.host.resource.bare :=
  h.compilation.bare_eq_of_lookup (congrArg Config.resourceType h.config_eq)
    x.host.lookup_resource x'.host.lookup_resource

/-- A written type stands for the same declarations. -/
theorem candidates_eq (h : x.Agrees x') (owner : TypeDecl) (type : TypeRef) :
    (x.candidates owner type).map TypeDecl.bare =
      (x'.candidates owner type).map TypeDecl.bare := by
  unfold candidates
  cases owner.typeParameter? type.definitionName with
  | some p =>
    dsimp only
    rw [List.map_filterMap, List.map_filterMap]
    exact List.filterMap_congr fun written _ => h.compilation.resolve_eq written
  | none =>
    dsimp only
    rw [← Option.toList_map, ← Option.toList_map, h.compilation.resolve_eq type]

/-- A written type is fetched in the same way. -/
theorem classify_eq (h : x.Agrees x') (owner : TypeDecl) (type : TypeRef) :
    x.classify owner type = x'.classify owner type := by
  have hcandidates := h.candidates_eq owner type
  unfold classify
  dsimp only
  rw [h.compilation.any_derivesFrom_eq hcandidates h.node_eq,
    h.compilation.any_derivesFrom_eq hcandidates h.resource_eq]

/-- A member gets the same slot. -/
theorem slot_eq (h : x.Agrees x') (m : Member) (options : FetchOptions) :
    x.slot m options = x'.slot m options := by
  rw [slot, slot, h.compilation.display_eq m.type]

/-- The same values can be assigned. -/
theorem assignable_eq (h : x.Agrees x') (source target : TypeRef) :
    x.assignable source target = x'.assignable source target := by
  unfold assignable Compilation.resolve
  rcases h.compilation.lookup_cases source.name with ⟨hs, hs'⟩ | ⟨s, s', hs, hs', hsource⟩ <;>
    rcases h.compilation.lookup_cases target.name with ⟨ht, ht'⟩ | ⟨t, t', ht, ht', htarget⟩ <;>
    rw [hs, hs', ht, ht']
  exact h.compilation.derivesFrom_eq hsource htarget

/-- A member can take its value from members of the same names. -/
theorem sources_eq (h : x.Agrees x') {ancestor ancestor' : TypeDecl}
    (ha : ancestor.bare = ancestor'.bare) (type : TypeRef) :
    (x.sources ancestor type).map (·.name) = (x'.sources ancestor' type).map (·.name) := by
  have hsame : x.sources ancestor.bare type = x'.sources ancestor'.bare type := by
    rw [ha, sources, sources]
    simp only [h.assignable_eq]
  rw [sources_bare, sources_bare] at hsame
  have hnames := congrArg (List.map Member.name) hsame
  rw [List.map_map, List.map_map] at hnames
  exact hnames

/-- Requests for a node or resource are judged alike. -/
theorem judgeGet_eq (h : x.Agrees x') (owner : TypeDecl) (m : Member) (options : FetchOptions) :
    x.judgeGet owner m options = x'.judgeGet owner m options := by
  rw [judgeGet, judgeGet, h.slot_eq, h.classify_eq, h.config_eq]

/-- Requests for a node by its name are judged alike. -/
theorem judgeFind_eq (h : x.Agrees x') (owner : TypeDecl) (m : Member) (options : FetchOptions)
    (recursive owned : Bool) :
    x.judgeFind owner m options recursive owned = x'.judgeFind owner m options recursive owned := by
  rw [judgeFind, judgeFind, h.slot_eq, h.classify_eq, h.config_eq]

/-- Requests for a value from an ancestor of a type are judged alike. -/
theorem judgeInject_some_eq (h : x.Agrees x') (m : Member) (type : String)
    (ancestorName : Option String) :
    x.judgeInject m (some type) ancestorName = x'.judgeInject m (some type) ancestorName := by
  have hmember : (x.compilation.resolve m.type).map TypeDecl.metadataName =
      (x'.compilation.resolve m.type).map TypeDecl.metadataName := by
    have hbare := congrArg (Option.map TypeDecl.metadataName) (h.compilation.resolve_eq m.type)
    rw [Option.map_map, Option.map_map] at hbare
    exact hbare
  unfold judgeInject
  dsimp only
  rcases h.compilation.lookup_cases type with ⟨ha, ha'⟩ | ⟨a, a', ha, ha', hbare⟩
  · rw [ha, ha']
  · have hkey := TypeDecl.metadataName_eq_of_bare hbare
    have hname : a.name = a'.name := (congrArg TypeDecl.name hbare :)
    have hfull : a.fullName = a'.fullName := (congrArg TypeDecl.fullName hbare :)
    have hsources := h.sources_eq hbare m.type
    rw [ha, ha']
    dsimp only
    rw [hmember, hkey, hname, hfull]
    split
    · rfl
    · -- Of the sources only their number and their names count.
      generalize x.sources a m.type = found at hsources ⊢
      generalize x'.sources a' m.type = found' at hsources ⊢
      cases found with
      | nil =>
        rw [List.map_nil, eq_comm, List.map_eq_nil_iff] at hsources
        rw [hsources]
      | cons s rest =>
        obtain ⟨s', rest', rfl, hs, hrest⟩ := List.map_eq_cons_iff.1 hsources.symm
        cases rest with
        | nil =>
          rw [List.map_nil, List.map_eq_nil_iff] at hrest
          rw [hrest]
          dsimp only
          rw [hs]
        | cons t rest =>
          obtain ⟨t', rest', rfl, -, -⟩ := List.map_eq_cons_iff.1 hrest
          dsimp only
          rw [hsources]

/-- Requests for a value from an ancestor are judged alike. Without a type of its own the ancestor
is of the type of the member. -/
theorem judgeInject_eq (h : x.Agrees x') (m : Member) (ancestorType ancestorName : Option String) :
    x.judgeInject m ancestorType ancestorName = x'.judgeInject m ancestorType ancestorName := by
  cases ancestorType with
  | none => exact h.judgeInject_some_eq m m.type.name ancestorName
  | some type => exact h.judgeInject_some_eq m type ancestorName

/-- Every annotation is judged alike. -/
theorem judge_eq (h : x.Agrees x') {owner owner' : TypeDecl} (howner : owner.bare = owner'.bare)
    {o o' : Occurrence} (ho : o.bare = o'.bare) : x.judge owner o = x'.judge owner' o' := by
  rw [← x.judge_bare, ← x'.judge_bare, howner, ho]
  generalize owner'.bare = owner
  generalize o'.bare = o
  obtain ⟨site, written, annotation⟩ := o
  cases site with
  | type => cases annotation <;> rfl
  | member m =>
    cases annotation with
    | get options => exact h.judgeGet_eq owner m options
    | find options recursive owned => exact h.judgeFind_eq owner m options recursive owned
    | injectAncestor type name => exact h.judgeInject_eq m type name
    | onReady | selectorEnum => rfl
  | method m => cases annotation <;> rfl

end Agrees

end Context

end SceneWiring
