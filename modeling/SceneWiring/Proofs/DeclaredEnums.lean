import Mathlib.Data.List.Nodup
import Mathlib.Data.List.Pairwise
import SceneWiring.Proofs.MetTypes
/-!
# Declared enumerations

The enumerations that the units of a run declare, each in the namespace of its class. They are just
those that the annotations of the classes ask for: none is dropped, whatever the other annotations
are. So no enumeration is declared twice exactly when no class asks for one name twice and no two
classes of one namespace ask for the same name.
-/

namespace SceneWiring

/-- The name of the enumeration that an annotation asks for. -/
def Annotation.enumName? : Annotation → Option String
  | .selectorEnum name => name
  | .get _ | .find _ _ _ | .injectAncestor _ _ | .onReady _ => none

namespace TypeDecl

/-- The names of the enumerations that the annotations of a type ask for, in order. There are none
for a generic type. -/
def enumNames (d : TypeDecl) : List String :=
  if d.typeParameters.isEmpty then
    d.attributes.filterMap fun a => a.annotation?.bind Annotation.enumName?
  else []

/-- The name of the enumeration that an annotation of a type asks for. -/
def enumAt? (d : TypeDecl) (o : Occurrence) : Option String :=
  match o.site with
  | .type => if d.typeParameters.isEmpty then o.annotation.enumName? else none
  | .member _ | .method _ => none

/-- The annotations at a site ask for enumerations only when the site is the type itself. -/
theorem filterMap_enumAt?_at (d : TypeDecl) (site : Site) (attributes : List Attribute) :
    (attributes.filterMap fun a => a.annotation?.map (Occurrence.mk site a)).filterMap d.enumAt? =
      match site with
      | .type =>
        if d.typeParameters.isEmpty then
          attributes.filterMap fun a => a.annotation?.bind Annotation.enumName?
        else []
      | .member _ | .method _ => [] := by
  rw [List.filterMap_filterMap]
  cases site with
  | type =>
    dsimp only
    by_cases hplain : d.typeParameters.isEmpty
    · rw [if_pos hplain]
      refine List.filterMap_congr fun a _ => ?_
      rw [Option.bind_map]
      refine congrArg _ (funext fun annotation => ?_)
      exact if_pos hplain
    · rw [if_neg hplain, List.filterMap_eq_nil_iff]
      intro a _
      rw [Option.bind_map, Option.bind_eq_none_iff]
      exact fun annotation _ => if_neg hplain
  | member | method =>
    rw [List.filterMap_eq_nil_iff]
    intro a _
    rw [Option.bind_map, Option.bind_eq_none_iff]
    exact fun annotation _ => rfl

/-- All annotations of a type together ask for the enumerations that those on itself ask for. -/
theorem filterMap_enumAt?_occurrences (d : TypeDecl) :
    d.occurrences.filterMap d.enumAt? = d.enumNames := by
  have hnone {β : Type} (bs : List β) : (bs.flatMap fun _ => ([] : List String)) = [] :=
    List.flatMap_eq_nil_iff.2 fun _ _ => rfl
  simp only [occurrences, sites, List.flatMap_append, List.flatMap_cons, List.flatMap_map,
    List.filterMap_append, List.filterMap_flatMap, filterMap_enumAt?_at, hnone, List.append_nil]
  rfl

end TypeDecl

namespace Strategy

/-- The enumeration that a strategy declares. -/
def enum? : Strategy → Option String
  | .selectorEnum _ enumName _ => some enumName
  | .getNode _ _ | .loadResource _ _ | .findNode _ _ _ _ => none
  | .injectAncestor _ _ _ _ | .callMethod _ => none

/-- The enumeration of a strategy is the one that a line after the class declares. -/
theorem enum?_eq_some_iff (s : Strategy) (name : String) :
    s.enum? = some name ↔
      ∃ lines, s.outside = some lines ∧ Code.line ["public enum ", name] ∈ lines := by
  cases s with
  | selectorEnum className enumName fields =>
    have hname : (enumName = name) = (name = enumName) := propext eq_comm
    simp [enum?, outside, outsideTokens, enumTokens, extensionTokens, hname]
  | getNode | loadResource | findNode | injectAncestor | callMethod =>
    simp [enum?, outside, outsideTokens]

/-- A strategy with a companion declares no enumeration. -/
theorem enum?_of_companion {s : Strategy} {companion : String}
    (h : s.companion? = some companion) : s.enum? = none := by
  cases s with
  | selectorEnum | injectAncestor | callMethod => cases h
  | getNode | loadResource | findNode => rfl

end Strategy

namespace Context

variable {x : Context} {owner : TypeDecl}

/-- What serves an annotation of a member or method declares no enumeration. -/
theorem Serves.enum?_eq_none {site : Site} {said : Annotation} {s : Strategy}
    (h : x.Serves owner site said s) (hsite : site.target ≠ .type) : s.enum? = none := by
  cases h with
  | selectorEnum name => exact absurd rfl hsite
  | getNode | loadResource | findNode | injectAncestor | callMethod => rfl

/-- A request for an enumeration is granted unless it has no name or the type is generic. -/
theorem enum?_judgeEnum (owner : TypeDecl) (name : Option String) (location : Location) :
    ((judgeEnum owner name location).toOption.bind fun request => request.strategy.enum?) =
      if owner.typeParameters.isEmpty then name else none := by
  unfold judgeEnum
  cases name with
  | none => exact (ite_self none).symm
  | some name =>
    dsimp only
    split <;> rfl

/-- A judgement grants the enumeration that the annotation asks for. -/
theorem enum?_judge (x : Context) (owner : TypeDecl) (o : Occurrence) :
    ((x.judge owner o).toOption.bind fun request => request.strategy.enum?) = owner.enumAt? o := by
  have hmember (htarget : o.site.target ≠ .type) :
      ((x.judge owner o).toOption.bind fun request => request.strategy.enum?) = none := by
    have hjudged := x.judged owner o
    cases hgiven : x.judge owner o with
    | error d => rfl
    | ok request =>
      rw [hgiven] at hjudged
      obtain ⟨hserves, -⟩ := hjudged
      exact hserves.enum?_eq_none htarget
  obtain ⟨site, written, annotation⟩ := o
  cases site with
  | type =>
    cases annotation with
    | selectorEnum name => exact enum?_judgeEnum owner name written.location
    | get | find | injectAncestor | onReady => exact (ite_self none).symm
  | member | method => exact hmember Target.noConfusion

/-- What becomes of an annotation declares the enumeration that the annotation asks for: no request
for one is dropped. -/
theorem enum?_outcome (x : Context) (owner : TypeDecl) (r : Resolution) (o : Occurrence) :
    ((r.outcome x owner o).addition?.bind fun a => a.strategy.enum?) = owner.enumAt? o := by
  have hjudge := x.enum?_judge owner o
  unfold Resolution.outcome
  cases hgiven : x.judge owner o with
  | error d =>
    rw [hgiven] at hjudge
    exact hjudge
  | ok request =>
    rw [hgiven] at hjudge
    dsimp only
    cases hclash : r.clash? o.site request with
    | none => exact hjudge
    | some d =>
      obtain ⟨m, companion, holder, -, hcompanion, -, -⟩ := Resolution.clash?_eq_some hclash
      exact (Strategy.enum?_of_companion hcompanion).symm.trans hjudge

/-- The additions of a class declare the enumerations that its annotations ask for. -/
theorem enums_resolveClass (x : Context) (owner : TypeDecl) :
    (x.resolveClass owner).additions.filterMap (·.strategy.enum?) = owner.enumNames := by
  have each (r : Resolution) (os : List Occurrence) :
      ((x.outcomesAfter owner r os).filterMap fun out =>
        out.addition?.bind fun a => a.strategy.enum?) = os.filterMap owner.enumAt? := by
    induction os generalizing r with
    | nil => rfl
    | cons o rest ih =>
      rw [outcomesAfter, List.filterMap_cons, List.filterMap_cons, x.enum?_outcome, ih]
  rw [additions_resolveClass, List.filterMap_filterMap, ← owner.filterMap_enumAt?_occurrences]
  exact each .start owner.occurrences

/-- The enumerations that the units of a run declare, each with the namespace of its class, in the
order of the units. -/
def declaredEnums (x : Context) : List (Option String × String) :=
  (ClassUnit.group x.additions).flatMap fun u =>
    (x.compilation.types[u.owner]?).toList.flatMap fun d =>
      (u.additions.filterMap (·.strategy.enum?)).map (d.namespaceName?, ·)

/-- The enumerations declared are those that the types with units ask for. -/
theorem declaredEnums_eq_flatMap (x : Context) :
    x.declaredEnums = x.emitted.flatMap fun d => d.enumNames.map (d.namespaceName?, ·) := by
  rw [declaredEnums, x.group_additions, x.emitted_eq_filter, List.flatMap_map]
  refine List.flatMap_congr fun d hd => ?_
  have hmem := (List.mem_filter.1 hd).1
  rw [Compilation.getElem?_position hmem, Option.toList_some, List.flatMap_singleton,
    x.enums_resolveClass]

/-- A type met in the source that is not nested gets a unit unless it asks for no enumeration. -/
theorem emits_or_enumNames_eq_nil (x : Context) {d : TypeDecl} (hmet : x.compilation.Met d)
    (houtermost : d.nestedIn? = none) : x.Emits d ∨ d.enumNames = [] := by
  by_cases hnone : (x.resolveClass d).additions = []
  · have hnames := x.enums_resolveClass d
    rw [hnone] at hnames
    exact .inr hnames.symm
  · exact .inl ⟨hmet, houtermost, hnone⟩

/-- Two types declare no enumeration of one name in one namespace exactly when their namespaces
differ or they ask for different names. -/
theorem disjoint_enums_iff (d e : TypeDecl) :
    (d.enumNames.map (d.namespaceName?, ·)).Disjoint (e.enumNames.map (e.namespaceName?, ·)) ↔
      (d.namespaceName? = e.namespaceName? → d.enumNames.Disjoint e.enumNames) := by
  constructor
  · intro h hspace name hd he
    have hdeclared : (d.namespaceName?, name) ∈ e.enumNames.map (e.namespaceName?, ·) := by
      rw [hspace]
      exact List.mem_map_of_mem he
    exact h (List.mem_map_of_mem hd) hdeclared
  · intro h pair hd he
    obtain ⟨name, hname, rfl⟩ := List.mem_map.1 hd
    obtain ⟨name', hname', hpair⟩ := List.mem_map.1 he
    obtain ⟨hspace, rfl⟩ := Prod.mk.inj hpair
    exact h hspace.symm hname hname'

end Context

/-- The units of a run declare the enumerations that the annotations of their classes ask for, and no
enumeration is declared twice exactly when among the classes met in the source that are not nested
none asks for one name twice and no two of one namespace ask for the same name. -/
theorem nodup_declaredEnums_iff (x : Context) :
    (x.declaredEnums = x.emitted.flatMap fun d => d.enumNames.map (d.namespaceName?, ·)) ∧
    (x.declaredEnums.Nodup ↔
      (∀ d, x.compilation.Met d → d.nestedIn? = none → d.enumNames.Nodup) ∧
      ∀ d e, x.compilation.Met d → x.compilation.Met e → d.nestedIn? = none →
        e.nestedIn? = none → d ≠ e → d.namespaceName? = e.namespaceName? →
        d.enumNames.Disjoint e.enumNames) := by
  refine ⟨x.declaredEnums_eq_flatMap, ?_⟩
  have hinjective (d : TypeDecl) : (d.enumNames.map (d.namespaceName?, ·)).Nodup ↔
      d.enumNames.Nodup := List.nodup_map_iff (Prod.mk_right_injective d.namespaceName?)
  rw [x.declaredEnums_eq_flatMap, List.nodup_flatMap]
  simp only [Context.mem_emitted, hinjective]
  constructor
  · rintro ⟨heach, hpairs⟩
    have hsymm : Std.Symm (Function.onFun List.Disjoint fun d : TypeDecl =>
        d.enumNames.map (d.namespaceName?, ·)) := ⟨fun _ _ => List.disjoint_symm⟩
    constructor
    · intro d hmet houtermost
      rcases x.emits_or_enumNames_eq_nil hmet houtermost with hemits | hnone
      · exact heach d hemits
      · rw [hnone]
        exact List.nodup_nil
    · intro d e hmet hmet' houtermost houtermost' hne
      rw [← Context.disjoint_enums_iff]
      rcases x.emits_or_enumNames_eq_nil hmet houtermost with hemits | hnone
      · rcases x.emits_or_enumNames_eq_nil hmet' houtermost' with hemits' | hnone
        · exact hpairs.forall (Context.mem_emitted.2 hemits) (Context.mem_emitted.2 hemits') hne
        · rw [hnone]
          exact List.disjoint_nil_right _
      · rw [hnone]
        exact List.disjoint_nil_left _
  · rintro ⟨heach, hpairs⟩
    constructor
    · exact fun d hd => heach d hd.met hd.outermost
    · refine x.nodup_emitted.pairwise_of_forall_ne fun d hd e he hne => ?_
      have hemits := Context.mem_emitted.1 hd
      have hemits' := Context.mem_emitted.1 he
      exact (Context.disjoint_enums_iff d e).2
        (hpairs d e hemits.met hemits'.met hemits.outermost hemits'.outermost hne)

/-- The attribute that asks for an enumeration `Kind`. -/
def kindAttribute : Attribute := { name := "GenerateDataSelectorEnum", args := [.text "Kind"] }

/-- A node, a resource, a class that asks for the enumeration `Kind` twice, and a class of the same
namespace that asks for it too. -/
def armouryTypes : List TypeDecl :=
  [{ name := "Node", namespaceName? := some "Godot" },
   { name := "Resource", namespaceName? := some "Godot" },
   { name := "Swords", namespaceName? := some "Game", attributes := [kindAttribute, kindAttribute],
     fields :=
      [{ name := "Iron", type := ⟨"Game.Swords", false⟩, isStatic := true, isReadonly := true }] },
   { name := "Shields", namespaceName? := some "Game", attributes := [kindAttribute],
     fields :=
      [{ name := "Oak", type := ⟨"Game.Shields", false⟩, isStatic := true, isReadonly := true }] }]

/-- The armoury under the default settings, with both classes met. -/
def armouryContext : Context where
  compilation := ⟨armouryTypes, [{ name := "Game.Swords" }, { name := "Game.Shields" }],
    keyIndex armouryTypes, nameIndex armouryTypes, by decide +kernel, rfl, rfl⟩
  config := {}
  host := ⟨armouryTypes[0], armouryTypes[1], by decide +kernel, by decide +kernel⟩

/-- The units of the armoury declare one enumeration three times, twice for one class and once more
for another, and nothing is reported. -/
theorem kind_declared_three_times :
    armouryContext.generate.diagnostics = [] ∧
      armouryContext.declaredEnums =
        [(some "Game", "Kind"), (some "Game", "Kind"), (some "Game", "Kind")] ∧
      ¬armouryContext.declaredEnums.Nodup := by
  decide +kernel

end SceneWiring
