import Mathlib.Data.List.TakeWhile
import SceneWiring.Proofs.Fetching
import SceneWiring.Proofs.NameLookup
/-!
# Members typed by a type parameter

A member whose type is written as a type parameter of its class is classified by the constraints of
that parameter, whatever types are declared. The type that generated code gives to it is found by a
look-up that knows nothing of the class, so it is the parameter exactly when no declared type goes
by the same name.
-/

namespace SceneWiring

/-- A name that neither starts at the root nor has type arguments, as every identifier. -/
structure PlainName (name : String) : Prop where
  /-- It does not start at the root. -/
  rootless : ¬rootMark <+: name.toList
  /-- It has no type arguments. -/
  unapplied : '<' ∉ name.toList

namespace PlainName

variable {name : String}

/-- Nothing is passed over in a plain name. -/
theorem dropRootMark_eq (h : PlainName name) : dropRootMark name.toList = name.toList :=
  dropRootMark_eq_self_iff.2 h.rootless

/-- A plain name is the name of its definition. -/
theorem definitionChars_eq (h : PlainName name) : definitionChars name.toList = name.toList :=
  (definitionChars_of_unapplied h.unapplied).trans h.dropRootMark_eq

end PlainName

namespace Compilation

/-- A plain name is taken as a metadata name first and then as a full name. -/
theorem lookup_of_plain (c : Compilation) {name : String} (h : PlainName name) :
    c.lookup name = (c.withKey? name).or (c.withName? name) := by
  have harity : arity? name.toList = none := if_neg h.unapplied
  unfold lookup
  rw [h.dropRootMark_eq]
  dsimp only
  rw [h.definitionChars_eq, harity, String.ofList_toList]
  cases c.withKey? name <;> rfl

/-- A plain name denotes nothing exactly when it is no metadata name and not the full name of one
declaration alone. -/
theorem lookup_eq_none_iff_of_plain (c : Compilation) {name : String} (h : PlainName name) :
    c.lookup name = none ↔
      (∀ d ∈ c.types, d.metadataName ≠ name) ∧ c.types.countP (·.fullName == name) ≠ 1 := by
  have hname : c.withName? name = none ↔ c.types.countP (·.fullName == name) ≠ 1 := by
    rw [c.withName?_eq_filter, List.countP_eq_length_filter]
    split
    · rename_i only honly
      simp [honly]
    · rename_i hmany
      refine iff_of_true rfl fun hone => ?_
      obtain ⟨only, honly⟩ := List.length_eq_one_iff.1 hone
      exact hmany only honly
  rw [c.lookup_of_plain h, Option.or_eq_none_iff, withKey?_eq_none_iff, hname]

/-- A written type stays as it is exactly when what it denotes, if anything, is displayed so. -/
theorem display_eq_name_iff (c : Compilation) (type : TypeRef) :
    c.display type = type.name ↔ ∀ d, c.lookup type.name = some d →
      "global::" ++ d.fullName ++ String.ofList (argumentsOf type.name.toList) = type.name := by
  unfold display resolve
  cases hlookup : c.lookup type.name with
  | none => simp
  | some d => simp

/-- A plain name stays as it is exactly when it denotes nothing. -/
theorem display_eq_name_iff_of_plain (c : Compilation) (type : TypeRef)
    (h : PlainName type.name) : c.display type = type.name ↔ c.lookup type.name = none := by
  rw [c.display_eq_name_iff]
  constructor
  · intro hdisplay
    cases hlookup : c.lookup type.name with
    | none => rfl
    | some d =>
      have hname := hdisplay d hlookup
      have hmark : rootMark <+: type.name.toList := by
        rw [← hname, String.toList_append, String.toList_append, List.append_assoc]
        exact List.prefix_append _ _
      exact absurd hmark h.rootless
  · intro hnone d hd
    rw [hnone] at hd
    cases hd

end Compilation

namespace Context

variable {x : Context} {owner : TypeDecl}

/-- A type parameter of the class is classified by its constraints, whatever is declared. -/
theorem exists_candidates_of_parameter {p : TypeParameter} (hp : p ∈ owner.typeParameters)
    {type : TypeRef} (htype : type.name = p.name) (hplain : PlainName p.name) :
    ∃ q ∈ owner.typeParameters, q.name = p.name ∧
      x.candidates owner type = q.constraints.filterMap x.compilation.resolve := by
  have hdefinition : type.definitionName = p.name := by
    rw [TypeRef.definitionName, definitionName, htype, hplain.definitionChars_eq,
      String.ofList_toList]
  cases hfind : owner.typeParameter? p.name with
  | none =>
    have hother := List.find?_eq_none.1 hfind p hp
    simp at hother
  | some q =>
    have hname : q.name = p.name := by simpa using List.find?_some hfind
    refine ⟨q, List.mem_of_find?_eq_some hfind, hname, ?_⟩
    rw [candidates, hdefinition, hfind]

/-- The member that a strategy serves has the type that is displayed for it. -/
theorem Serves.type_of_slot {m : Member} {said : Annotation} {s : Strategy} {slot : Slot}
    (h : x.Serves owner (.member m) said s) (hslot : s.slot? = some slot) :
    slot.type = x.compilation.display m.type := by
  cases h with
  | getNode | loadResource | findNode =>
    cases hslot
    rfl
  | injectAncestor => cases hslot

/-- An accepted outcome gives an addition of the class, and the strategy serves the annotation. -/
theorem serves_of_outcome {k : Nat} {o : Occurrence} {a : Addition}
    (ho : owner.occurrences[k]? = some o) (hout : (x.outcomes owner)[k]? = some (.accepted a)) :
    a ∈ (x.resolveClass owner).additions ∧ x.Serves owner o.site o.annotation a.strategy := by
  obtain ⟨hk, hoccurrence⟩ := List.getElem?_eq_some_iff.1 ho
  obtain ⟨hk', houtcome⟩ := List.getElem?_eq_some_iff.1 hout
  have hanswers := (List.forall₂_iff_get.1 (x.answers_outcomes owner)).2 k hk hk'
  rw [List.get_eq_getElem, List.get_eq_getElem, hoccurrence, houtcome] at hanswers
  have hmem : a ∈ (x.resolveClass owner).additions := by
    rw [x.additions_resolveClass]
    exact List.mem_filterMap.2 ⟨_, List.mem_of_getElem? hout, rfl⟩
  cases hanswers with
  | accepted serves turn => exact ⟨hmem, serves⟩

end Context

/-- A member whose type is written as a type parameter of its class, and that is given a node or
resource, has the parameter as its type in generated code exactly when the name denotes no declared
type, or one that is displayed by the same text. For a plain name that is when it is no metadata
name and not the full name of one declaration alone; the classification takes it as the parameter
in any case. -/
theorem slot_type_eq_parameter_iff {x : Context} {owner : TypeDecl} {p : TypeParameter}
    {m : Member} {k : Nat} {o : Occurrence} {a : Addition} {slot : Slot}
    (hp : p ∈ owner.typeParameters) (hm : m.type.name = p.name)
    (ho : owner.occurrences[k]? = some o) (hsite : o.site = .member m)
    (hout : (x.outcomes owner)[k]? = some (.accepted a)) (hslot : a.strategy.slot? = some slot) :
    a ∈ (x.resolveClass owner).additions ∧
    (slot.type = p.name ↔ ∀ d, x.compilation.lookup p.name = some d →
      "global::" ++ d.fullName ++ String.ofList (argumentsOf p.name.toList) = p.name) ∧
    (PlainName p.name →
      (slot.type = p.name ↔ (∀ d ∈ x.compilation.types, d.metadataName ≠ p.name) ∧
        x.compilation.types.countP (·.fullName == p.name) ≠ 1) ∧
      ∃ q ∈ owner.typeParameters, q.name = p.name ∧
        x.candidates owner m.type = q.constraints.filterMap x.compilation.resolve) := by
  obtain ⟨hmem, hserves⟩ := Context.serves_of_outcome ho hout
  rw [hsite] at hserves
  have htype := hserves.type_of_slot hslot
  refine ⟨hmem, ?_, fun hplain => ⟨?_, ?_⟩⟩
  · rw [htype, ← hm]
    exact x.compilation.display_eq_name_iff m.type
  · have hplain' : PlainName m.type.name := hm ▸ hplain
    rw [htype, ← hm, x.compilation.display_eq_name_iff_of_plain m.type hplain',
      x.compilation.lookup_eq_none_iff_of_plain hplain']
  · exact Context.exists_candidates_of_parameter hp hm hplain

/-- A node, a resource, a class named like the type parameter of another, and that other class, with
a member typed by its parameter. -/
def shadowedTypes : List TypeDecl :=
  [{ name := "Node", namespaceName? := some "Godot" },
   { name := "Resource", namespaceName? := some "Godot" },
   { name := "T" },
   { name := "Holder", namespaceName? := some "Game",
     typeParameters := [{ name := "T", constraints := [⟨"Godot.Node", false⟩] }],
     fields :=
      [{ name := "_item", type := ⟨"T", false⟩, attributes := [{ name := "OnReadyGet" }] }] }]

/-- The same types under the default settings. -/
def shadowedContext : Context where
  compilation := ⟨shadowedTypes, [], keyIndex shadowedTypes, nameIndex shadowedTypes,
    by decide +kernel, rfl, rfl⟩
  config := {}
  host := ⟨shadowedTypes[0], shadowedTypes[1], by decide +kernel, by decide +kernel⟩

/-- The member is classified as a node by the constraint of its type parameter, and generated code
gives it the class named like the parameter. -/
theorem parameter_taken_for_declared_type :
    let holder := shadowedTypes[3]
    shadowedContext.compilation.types = shadowedTypes ∧
      holder.typeParameters.map (·.name) = ["T"] ∧ holder.fields.map (·.type.name) = ["T"] ∧
      shadowedContext.classify holder ⟨"T", false⟩ = .path ∧
      (shadowedContext.resolveClass holder).additions.map
        (fun a => a.strategy.slot?.map (·.type)) = [some "global::T"] := by
  refine ⟨rfl, ?_⟩
  decide +kernel

/-- The types without the class named like the parameter. -/
def unshadowedContext : Context where
  compilation := ⟨shadowedTypes.eraseIdx 2, [], keyIndex (shadowedTypes.eraseIdx 2),
    nameIndex (shadowedTypes.eraseIdx 2), by decide +kernel, rfl, rfl⟩
  config := {}
  host := ⟨shadowedTypes[0], shadowedTypes[1], by decide +kernel, by decide +kernel⟩

/-- The member of the class that is not shadowed has its parameter as its type. -/
theorem parameter_kept_when_unshadowed :
    let holder := shadowedTypes[3]
    let item := holder.fields[0]
    ∃ (p : TypeParameter) (o : Occurrence) (a : Addition) (slot : Slot),
      p ∈ holder.typeParameters ∧ item.type.name = p.name ∧ PlainName p.name ∧
        holder.occurrences[0]? = some o ∧ o.site = .member item ∧
        (unshadowedContext.outcomes holder)[0]? = some (.accepted a) ∧
        a.strategy.slot? = some slot ∧ slot.type = p.name := by
  intro holder item
  let slot : Slot := unshadowedContext.slot item ⟨none, false, false, none⟩
  let o : Occurrence := ⟨.member item, item.attributes[0], .get ⟨none, false, false, none⟩⟩
  let a : Addition := ⟨2, 0, 0, .getNode slot none⟩
  have hplain : PlainName holder.typeParameters[0].name := ⟨by decide, by decide⟩
  have hp : holder.typeParameters[0] ∈ holder.typeParameters := List.getElem_mem _
  have ho : holder.occurrences[0]? = some o := by decide +kernel
  have hout : (unshadowedContext.outcomes holder)[0]? = some (.accepted a) := by decide +kernel
  obtain ⟨-, -, hiff⟩ := slot_type_eq_parameter_iff hp rfl ho rfl hout rfl
  have hfree : (∀ d ∈ unshadowedContext.compilation.types,
      d.metadataName ≠ holder.typeParameters[0].name) ∧
      unshadowedContext.compilation.types.countP
        (·.fullName == holder.typeParameters[0].name) ≠ 1 := by
    decide +kernel
  exact ⟨_, o, a, slot, hp, rfl, hplain, ho, rfl, hout, rfl, (hiff hplain).1.2 hfree⟩

end SceneWiring
