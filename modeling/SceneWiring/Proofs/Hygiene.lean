import SceneWiring.Resolution
import SceneWiring.Proofs.NameScopes
/-!
# Members and bindings in generated code

What the names denote in the code that strategies contribute. Main statement: the names of bindings
always denote the binding that they are meant for, and the names of members denote the member except
in four cases: an injected member named `ancestor`, a loaded member named `value`, a listed field
named `key`, and a class named `v` whose fields are listed.
-/

namespace SceneWiring

namespace Strategy

/-! ## The names in a strategy -/

/-- The names in what is contributed to a part of a class. The class and the methods that the parts go
into have no parameters and declare no variables, so nothing is in force where a part begins. -/
def namesOf (part : Option (List TokenCode)) : List NameUse :=
  part.toList.flatMap fun body => namesIn [] [] (bodyTokens body)

/-- The names in all that a strategy contributes. -/
def nameUses (s : Strategy) : List NameUse :=
  namesOf s.declarationTokens ++ namesOf s.constructorTokens ++ namesOf s.lifecycleTokens ++
    namesOf s.outsideTokens

/-- Every name that is meant for a member denotes it. -/
def MembersReached (uses : List NameUse) : Prop :=
  ∀ u ∈ uses, u.own = true → u.denotation = .member u.name

/-- Every name that is meant for a binding denotes it. -/
def BindingsReached (uses : List NameUse) : Prop :=
  ∀ u ∈ uses, u.own = false → u.denotation = .binding u.name

/-- Members are reached by all names when they are by those of each part. -/
theorem membersReached_append (us vs : List NameUse) :
    MembersReached (us ++ vs) ↔ MembersReached us ∧ MembersReached vs := by
  simp only [MembersReached, List.forall_mem_append]

/-- Bindings are reached by all names when they are by those of each part. -/
theorem bindingsReached_append (us vs : List NameUse) :
    BindingsReached (us ++ vs) ↔ BindingsReached us ∧ BindingsReached vs := by
  simp only [BindingsReached, List.forall_mem_append]

/-- What is contributed to a part of a class binds nothing. -/
def Unbinding (part : Option (List TokenCode)) : Prop :=
  ∀ body ∈ part, ∀ t ∈ bodyTokens body, t.Unbinding

/-- Nothing is bound where nothing is contributed. -/
@[simp] theorem unbinding_none : Unbinding none := nofun

/-- Steps bind nothing when none of their tokens does. -/
@[simp] theorem unbinding_some (body : List TokenCode) :
    Unbinding (some body) ↔ ∀ t ∈ bodyTokens body, t.Unbinding := by
  simp [Unbinding]

/-- Where nothing is bound every name reaches what it is meant for. -/
theorem reached_of_unbinding {part : Option (List TokenCode)} (h : Unbinding part) :
    MembersReached (namesOf part) ∧ BindingsReached (namesOf part) := by
  have hreach : ∀ u ∈ namesOf part, u.own = true ∧ u.denotation = .member u.name := by
    intro u hu
    obtain ⟨body, hbody, hu⟩ := List.mem_flatMap.1 hu
    exact denotation_of_unbinding (h body (Option.mem_toList.1 hbody)) u hu
  refine ⟨fun u hu _ => (hreach u hu).2, fun u hu hbound => ?_⟩
  rw [(hreach u hu).1] at hbound
  exact absurd hbound Bool.noConfusion

/-- The check of a slot binds nothing. -/
theorem unbinding_slotCheckTokens (slot : Slot) (companion : String) :
    ∀ t ∈ bodyTokens (slotCheckTokens slot companion), t.Unbinding := by
  unfold slotCheckTokens
  split
  · simp [bodyTokens]
  · simp [nullCheckTokens, bodyTokens, TokenCode.tokens]

/-- The call that finds a node binds nothing. -/
theorem unbinding_findCallTokens (mask : String) (recursive owned : Bool) :
    ∀ t ∈ findCallTokens mask recursive owned, t.Unbinding := by
  cases recursive <;> cases owned <;> simp [findCallTokens]

/-- No part of a fetched node binds anything. -/
theorem unbinding_getNode (slot : Slot) (property : Option String) :
    Unbinding (getNode slot property).declarationTokens ∧
      Unbinding (getNode slot property).lifecycleTokens := by
  have hcheck := unbinding_slotCheckTokens slot slot.pathName
  constructor
  · cases hfallback : slot.fallback <;>
      simp [declarationTokens, hfallback, companionTokens, initialValueTokens, bodyTokens,
        TokenCode.tokens]
  · cases property <;>
      simpa [lifecycleTokens, propertyAssignmentTokens, getCallTokens, bodyTokens, bodyTokens_append,
        TokenCode.tokens, or_imp, forall_and] using hcheck

/-- No part of a found node binds anything. -/
theorem unbinding_findNode (slot : Slot) (property : Option String) (recursive owned : Bool) :
    Unbinding (findNode slot property recursive owned).declarationTokens ∧
      Unbinding (findNode slot property recursive owned).lifecycleTokens := by
  have hcheck := unbinding_slotCheckTokens slot slot.maskName
  have hcall := unbinding_findCallTokens slot.maskName recursive owned
  constructor
  · simp [declarationTokens, companionTokens, initialValueTokens, bodyTokens, TokenCode.tokens]
  · cases property <;>
      simpa [lifecycleTokens, propertyAssignmentTokens, castAssignmentTokens,
        bodyTokens, bodyTokens_append, TokenCode.tokens, or_imp, forall_and] using ⟨hcall, hcheck⟩

/-- The statements that load a resource bind nothing. -/
theorem unbinding_loadResource (slot : Slot) (hint : String) :
    Unbinding (loadResource slot hint).constructorTokens ∧
      Unbinding (loadResource slot hint).lifecycleTokens := by
  have hcheck := unbinding_slotCheckTokens slot slot.resourceName
  constructor
  · cases hfallback : slot.fallback <;>
      simp [constructorTokens, hfallback, loadAssignmentTokens, bodyTokens, TokenCode.tokens]
  · rw [lifecycleTokens]
    split
    · exact unbinding_none
    · cases slot.fallback <;>
        simpa [loadAssignmentTokens, bodyTokens, bodyTokens_append, TokenCode.tokens, or_imp, forall_and]
          using hcheck

/-! ## Names beside bindings -/

/-- The names in the statement that injects an ancestor: all stand where `ancestor` is declared. -/
theorem namesOf_injectAncestor (member name type : String) (source : Option String) :
    namesOf (injectAncestor member name type source).lifecycleTokens =
      [⟨"FindParent", true, ["ancestor"]⟩, ⟨member, true, ["ancestor"]⟩,
        ⟨"ancestor", false, ["ancestor"]⟩] := by
  cases source <;> rfl

/-- The names in the property of a loaded resource: the setter has its new value. -/
theorem namesOf_loadResource (slot : Slot) (hint : String) :
    namesOf (loadResource slot hint).declarationTokens =
      [⟨slot.member, true, []⟩, ⟨slot.flagName, true, ["value"]⟩, ⟨slot.member, true, ["value"]⟩,
        ⟨"value", false, ["value"]⟩] := rfl

/-- The tokens of the look-up's lines bind nothing. -/
theorem flat_caseTokens (enumName : String) (fields : List String) :
    ∀ t ∈ fields.flatMap (caseTokens enumName), t.Flat :=
  List.forall_mem_flatMap.2 fun field _ => by simp [caseTokens]

/-- The look-up's lines have the fields for their names. -/
theorem ownNames_caseTokens (enumName : String) (fields : List String) :
    (fields.flatMap (caseTokens enumName)).filterMap Token.ownName? = fields := by
  induction fields with
  | nil => rfl
  | cons field rest ih =>
    rw [List.flatMap_cons, List.filterMap_append, ih]
    rfl

/-- The tokens of the enumeration's lines bind nothing. -/
theorem flat_entryTokens (fields : List String) :
    ∀ t ∈ fields.flatMap entryTokens, t.Flat :=
  List.forall_mem_flatMap.2 fun field _ => by simp [entryTokens]

/-- The enumeration's lines have no names of members. -/
theorem ownNames_entryTokens (fields : List String) :
    (fields.flatMap entryTokens).filterMap Token.ownName? = [] := by
  induction fields with
  | nil => rfl
  | cons field rest ih =>
    rw [List.flatMap_cons, List.filterMap_append, ih]
    rfl

/-- The names in the look-up of an enumeration: the fields stand where the key is bound. -/
theorem namesOf_selectorEnum_declaration (className enumName : String) (fields : List String) :
    namesOf (selectorEnum className enumName fields).declarationTokens =
      ⟨"key", false, ["key"]⟩ :: fields.map (⟨·, true, ["key"]⟩) := by
  simp [namesOf, declarationTokens, lookupTokens, bodyTokens, TokenCode.tokens, bodyTokens_map_line,
    namesIn, declaredHere, declaredHere_append (flat_caseTokens enumName fields),
    namesIn_append (flat_caseTokens enumName fields), ownNames_caseTokens]

/-- The names after the class of an enumeration: the class stands where an entry is bound. -/
theorem namesOf_selectorEnum_outside (className enumName : String) (fields : List String) :
    namesOf (selectorEnum className enumName fields).outsideTokens =
      [⟨className, true, ["v"]⟩, ⟨"v", false, ["v"]⟩] := by
  simp [namesOf, outsideTokens, enumTokens, extensionTokens, bodyTokens, TokenCode.tokens,
    bodyTokens_map_line, namesIn, declaredHere, declaredHere_append (flat_entryTokens fields),
    namesIn_append (flat_entryTokens fields), ownNames_entryTokens]

/-- The flag of a loaded resource is never the new value of its setter. -/
theorem not_sameIdentifier_flagName (slot : Slot) : ¬SameIdentifier "value" slot.flagName := by
  intro h
  have hfirst := congrArg List.head? h
  simp [identifierChars, Slot.flagName] at hfirst

/-! ## The names meant for members -/

/-- The names of members in the check of a slot. -/
def checkedNames (slot : Slot) : List String :=
  if slot.orNull then [] else [slot.member, "Name"]

/-- The names that are meant for members of the class or of what it derives from, and for the class
itself, in the order in which the code has them. -/
def ownNames : Strategy → List String
  | .getNode slot _ =>
    [slot.pathName, slot.member, "GetNodeOrNull", slot.pathName] ++ checkedNames slot
  | .loadResource slot _ =>
    [slot.member, slot.flagName, slot.member] ++
      (if slot.fallback.isSome then [slot.member, slot.flagName, slot.member] else []) ++
      checkedNames slot
  | .findNode slot _ _ _ =>
    [slot.maskName, slot.member, "FindNode", slot.maskName] ++ checkedNames slot
  | .injectAncestor member _ _ _ => ["FindParent", member]
  | .callMethod method => [method]
  | .selectorEnum className _ fields => fields ++ [className]

/-- The names of members in the tokens of a part. -/
theorem ownNames_namesOf (part : Option (List TokenCode)) :
    ((namesOf part).filter (·.own)).map (·.name) =
      part.toList.flatMap fun body => (bodyTokens body).filterMap Token.ownName? := by
  cases part with
  | none => rfl
  | some body =>
    rw [namesOf, Option.toList_some, List.flatMap_singleton, List.flatMap_singleton,
      ownNames_namesIn]

/-- The names of members in the tokens of the check of a slot. -/
theorem ownNames_slotCheckTokens (slot : Slot) (companion : String) :
    (bodyTokens (slotCheckTokens slot companion)).filterMap Token.ownName? = checkedNames slot := by
  unfold slotCheckTokens checkedNames
  split <;> rfl

/-- The names of members in the tokens of the call that finds a node. -/
theorem ownNames_findCallTokens (mask : String) (recursive owned : Bool) :
    (findCallTokens mask recursive owned).filterMap Token.ownName? = ["FindNode", mask] := by
  cases recursive <;> cases owned <;> rfl

/-- The names of members in the assignment of a property are the member and those of the node. -/
theorem ownNames_propertyAssignmentTokens (slot : Slot) (node : List Token) (property : String) :
    (propertyAssignmentTokens slot node property).tokens.filterMap Token.ownName? =
      slot.member :: node.filterMap Token.ownName? := by
  simp [propertyAssignmentTokens, TokenCode.tokens, List.filterMap_cons, Token.ownName?,
    Token.literal]

/-- The names of members in the assignment of a node are the member and those of the node. -/
theorem ownNames_castAssignmentTokens (slot : Slot) (node : List Token) :
    (castAssignmentTokens slot node).tokens.filterMap Token.ownName? =
      slot.member :: node.filterMap Token.ownName? := by
  simp [castAssignmentTokens, TokenCode.tokens, List.filterMap_cons, Token.ownName?]

/-- The names in a strategy that are meant for members. -/
theorem ownNames_nameUses (s : Strategy) :
    (s.nameUses.filter (·.own)).map (·.name) = s.ownNames := by
  simp only [nameUses, List.filter_append, List.map_append, ownNames_namesOf]
  cases s with
  | getNode slot property =>
    have hcheck := ownNames_slotCheckTokens slot slot.pathName
    cases hfallback : slot.fallback <;> cases property <;>
      simp [declarationTokens, constructorTokens, lifecycleTokens, outsideTokens, ownNames, hfallback,
        companionTokens, initialValueTokens, getCallTokens, bodyTokens, TokenCode.tokens,
        List.filterMap_cons, Token.ownName?, Token.literal, ownNames_propertyAssignmentTokens, hcheck]
  | loadResource slot hint =>
    have hcheck := ownNames_slotCheckTokens slot slot.resourceName
    rw [lifecycleTokens]
    cases hfallback : slot.fallback <;> cases hnull : slot.orNull <;>
      simp [declarationTokens, constructorTokens, outsideTokens, ownNames, checkedNames, hfallback,
        hnull, loadAssignmentTokens, bodyTokens, TokenCode.tokens, List.filterMap_cons, Token.ownName?,
        Token.literal, hcheck]
  | findNode slot property recursive owned =>
    have hcheck := ownNames_slotCheckTokens slot slot.maskName
    have hcall := ownNames_findCallTokens slot.maskName recursive owned
    cases property <;>
      simp [declarationTokens, constructorTokens, lifecycleTokens, outsideTokens, ownNames,
        companionTokens, initialValueTokens, bodyTokens, TokenCode.tokens, List.filterMap_cons,
        Token.ownName?, Token.literal, ownNames_propertyAssignmentTokens,
        ownNames_castAssignmentTokens, hcall, hcheck]
  | injectAncestor member name type source => cases source <;> rfl
  | callMethod method => rfl
  | selectorEnum className enumName fields =>
    simp [declarationTokens, constructorTokens, lifecycleTokens, outsideTokens, ownNames, lookupTokens,
      enumTokens, extensionTokens, bodyTokens, bodyTokens_map_line, TokenCode.tokens,
      List.filterMap_cons, Token.ownName?, ownNames_caseTokens, ownNames_entryTokens]

/-! ## When members are reached -/

/-- No binding that the strategy comes with has the name of a member that the strategy uses beside
it. -/
def ApartFromBindings : Strategy → Prop
  | .injectAncestor member _ _ _ => ¬SameIdentifier "ancestor" member
  | .loadResource slot _ => ¬SameIdentifier "value" slot.member
  | .selectorEnum className _ fields =>
    ¬SameIdentifier "v" className ∧ ∀ field ∈ fields, ¬SameIdentifier "key" field
  | .getNode _ _ | .findNode _ _ _ _ | .callMethod _ => True

/-- A strategy that binds nothing reaches all that it names. -/
theorem reached_of_parts_unbinding {s : Strategy} (hdeclaration : Unbinding s.declarationTokens)
    (hconstructor : Unbinding s.constructorTokens) (hlifecycle : Unbinding s.lifecycleTokens)
    (houtside : Unbinding s.outsideTokens) :
    BindingsReached s.nameUses ∧ MembersReached s.nameUses := by
  simp only [nameUses, membersReached_append, bindingsReached_append]
  have hd := reached_of_unbinding hdeclaration
  have hc := reached_of_unbinding hconstructor
  have hl := reached_of_unbinding hlifecycle
  have ho := reached_of_unbinding houtside
  exact ⟨⟨⟨⟨hd.2, hc.2⟩, hl.2⟩, ho.2⟩, ⟨⟨hd.1, hc.1⟩, hl.1⟩, ho.1⟩

/-- An injected ancestor reaches its binding, and the member unless it has the name of it. -/
theorem reached_injectAncestor (member name type : String) (source : Option String) :
    BindingsReached (injectAncestor member name type source).nameUses ∧
      (MembersReached (injectAncestor member name type source).nameUses ↔
        ¬SameIdentifier "ancestor" member) := by
  have huses : (injectAncestor member name type source).nameUses =
      namesOf (injectAncestor member name type source).lifecycleTokens := by
    simp [nameUses, namesOf, declarationTokens, constructorTokens, outsideTokens]
  have hfind : ¬SameIdentifier "ancestor" "FindParent" := by decide
  have hbound : SameIdentifier "ancestor" "ancestor" := rfl
  rw [huses, namesOf_injectAncestor]
  simp [BindingsReached, MembersReached, denotation_of_one_bound, hfind, hbound]

/-- A loaded resource reaches the new value of its setter, and the member unless it has the name of
it. -/
theorem reached_loadResource (slot : Slot) (hint : String) :
    BindingsReached (loadResource slot hint).nameUses ∧
      (MembersReached (loadResource slot hint).nameUses ↔ ¬SameIdentifier "value" slot.member) := by
  obtain ⟨hconstructor, hlifecycle⟩ := unbinding_loadResource slot hint
  have hc := reached_of_unbinding hconstructor
  have hl := reached_of_unbinding hlifecycle
  have houtside : namesOf (loadResource slot hint).outsideTokens = [] := rfl
  have hflag := not_sameIdentifier_flagName slot
  have hbound : SameIdentifier "value" "value" := rfl
  simp only [nameUses, houtside, List.append_nil, bindingsReached_append, membersReached_append,
    hc, hl, and_true, namesOf_loadResource]
  simp [BindingsReached, MembersReached, denotation_of_none_bound, denotation_of_one_bound, hflag,
    hbound]

/-- An enumeration of fields reaches its parameters, and the fields and their class unless one of
them has the name of the parameter beside it. -/
theorem reached_selectorEnum (className enumName : String) (fields : List String) :
    BindingsReached (selectorEnum className enumName fields).nameUses ∧
      (MembersReached (selectorEnum className enumName fields).nameUses ↔
        ¬SameIdentifier "v" className ∧ ∀ field ∈ fields, ¬SameIdentifier "key" field) := by
  have huses : (selectorEnum className enumName fields).nameUses =
      ⟨"key", false, ["key"]⟩ :: (fields.map (⟨·, true, ["key"]⟩) ++
        [⟨className, true, ["v"]⟩, ⟨"v", false, ["v"]⟩]) := by
    rw [nameUses, namesOf_selectorEnum_declaration, namesOf_selectorEnum_outside]
    simp [namesOf, constructorTokens, lifecycleTokens]
  have hkey : SameIdentifier "key" "key" := rfl
  have hv : SameIdentifier "v" "v" := rfl
  rw [huses]
  constructor
  · simp [BindingsReached, denotation_of_one_bound, hkey, hv, or_imp, forall_and]
  · simp [MembersReached, denotation_of_one_bound, or_imp, forall_and, and_comm]

/-- For each strategy all that is meant for a binding reaches it, and all that is meant for a member
reaches it exactly when the members it uses are apart from its bindings. -/
theorem nameUses_reached (s : Strategy) :
    BindingsReached s.nameUses ∧ (MembersReached s.nameUses ↔ s.ApartFromBindings) := by
  cases s with
  | getNode slot property =>
    obtain ⟨hdeclaration, hlifecycle⟩ := unbinding_getNode slot property
    have h := reached_of_parts_unbinding hdeclaration unbinding_none hlifecycle unbinding_none
    exact ⟨h.1, iff_of_true h.2 trivial⟩
  | findNode slot property recursive owned =>
    obtain ⟨hdeclaration, hlifecycle⟩ := unbinding_findNode slot property recursive owned
    have h := reached_of_parts_unbinding hdeclaration unbinding_none hlifecycle unbinding_none
    exact ⟨h.1, iff_of_true h.2 trivial⟩
  | callMethod method =>
    have hlifecycle : Unbinding (callMethod method).lifecycleTokens := by
      simp [lifecycleTokens, bodyTokens, TokenCode.tokens]
    have h := reached_of_parts_unbinding (s := callMethod method) unbinding_none unbinding_none
      hlifecycle unbinding_none
    exact ⟨h.1, iff_of_true h.2 trivial⟩
  | injectAncestor member name type source => exact reached_injectAncestor member name type source
  | loadResource slot hint => exact reached_loadResource slot hint
  | selectorEnum className enumName fields => exact reached_selectorEnum className enumName fields

/-- A strategy is written as its tokens say. Every name in it that is meant for a binding denotes it.
Every name that is meant for a member denotes the member exactly when no injected member is named
`ancestor`, no loaded member `value`, no listed field `key`, and no class with listed fields `v`. The
names that are meant for members are the member that is filled and what goes with it, wherever the code
reads or assigns them. -/
theorem members_reached_iff (s : Strategy) :
    (WritesOut s.declarationTokens s.declaration ∧ WritesOut s.constructorTokens s.constructorPart ∧
      WritesOut s.lifecycleTokens s.lifecycle ∧ WritesOut s.outsideTokens s.outside) ∧
      BindingsReached s.nameUses ∧ (MembersReached s.nameUses ↔ s.ApartFromBindings) ∧
      (s.nameUses.filter (·.own)).map (·.name) = s.ownNames := by
  refine ⟨⟨?_, ?_, ?_, ?_⟩, (nameUses_reached s).1, (nameUses_reached s).2, ownNames_nameUses s⟩
  all_goals exact writesOut_plainBody _

end Strategy

/-- A node, a resource, a class that others take an ancestor from, a class with an injected member
`ancestor` and a loaded member `value`, and a class that lists a field `key`. -/
def capturingTypes : List TypeDecl :=
  [{ name := "Node", namespaceName? := some "Godot" },
   { name := "Resource", namespaceName? := some "Godot" },
   { name := "Arena", namespaceName? := some "Game", base? := some ⟨"Godot.Node", false⟩ },
   { name := "Hud", namespaceName? := some "Game", base? := some ⟨"Godot.Node", false⟩,
     fields :=
      [{ name := "ancestor", type := ⟨"Game.Arena", false⟩,
         attributes := [{ name := "InjectAncestorValue" }] },
       { name := "value", type := ⟨"Godot.Resource", false⟩,
         attributes := [{ name := "OnReadyGet" }] }] },
   { name := "Items", namespaceName? := some "Game",
     attributes := [{ name := "GenerateDataSelectorEnum", args := [.text "Kind"] }],
     fields :=
      [{ name := "key", type := ⟨"Game.Items", false⟩, isStatic := true, isReadonly := true }] }]

/-- The same types under the default settings. -/
def capturingContext : Context where
  compilation := ⟨capturingTypes, [], keyIndex capturingTypes, nameIndex capturingTypes,
    by decide +kernel, rfl, rfl⟩
  config := {}
  host := ⟨capturingTypes[0], capturingTypes[1], by decide +kernel, by decide +kernel⟩

/-- The three members are each taken for the binding beside them. -/
theorem members_captured_by_bindings :
    let hud := capturingTypes[3]
    let items := capturingTypes[4]
    let captured (a : Addition) : List Denotation :=
      (a.strategy.nameUses.filter fun u => u.own && u.denotation ≠ .member u.name).map
        NameUse.denotation
    capturingContext.compilation.types = capturingTypes ∧
      (capturingContext.resolveClass hud).additions.map captured =
        [[.binding "ancestor"], [.binding "value"]] ∧
      (capturingContext.resolveClass items).additions.map captured = [[.binding "key"]] := by
  intro hud items captured
  refine ⟨rfl, ?_⟩
  decide +kernel

end SceneWiring
