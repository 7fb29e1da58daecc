import SceneWiring.Proofs.Fetching
import SceneWiring.Proofs.Outlines
/-!
# Values taken from ancestors

A member can take its value from an ancestor node: the ancestor itself when that is what the type of
the member denotes, and else the only member of the ancestor that suits the type. None or several such
members are an error, and the error about several names them all. The order in which the ancestor
declares its properties and its fields decides about the order of these names and about nothing else.
-/

namespace SceneWiring

namespace Context

/-- A value of the first type suits the second: both are declared and the first reaches the second,
or neither is and their definitions have one name. -/
inductive Suits (x : Context) (source target : TypeRef) : Prop
  | declared {s t : TypeDecl} (hs : x.compilation.resolve source = some s)
      (ht : x.compilation.resolve target = some t) (reaches : x.compilation.Reaches s t)
  | unknown (hs : x.compilation.resolve source = none) (ht : x.compilation.resolve target = none)
      (same : source.definitionName = target.definitionName)

/-- The values that can be assigned are those that suit the type. -/
theorem assignable_iff_suits (x : Context) (source target : TypeRef) :
    x.assignable source target = true ↔ x.Suits source target := by
  unfold assignable
  cases hs : x.compilation.resolve source with
  | some s =>
    cases ht : x.compilation.resolve target with
    | some t =>
      have hreaches := Compilation.derivesFrom_iff_reaches (Compilation.mem_of_lookup hs)
        (Compilation.mem_of_lookup ht)
      dsimp only
      rw [hreaches]
      constructor
      · exact .declared hs ht
      · rintro (⟨hs', ht', reaches⟩ | ⟨hs', -, -⟩)
        · cases hs.symm.trans hs'
          cases ht.symm.trans ht'
          exact reaches
        · cases hs.symm.trans hs'
    | none =>
      refine iff_of_false Bool.false_ne_true ?_
      rintro (⟨-, ht', -⟩ | ⟨hs', -, -⟩)
      · cases ht.symm.trans ht'
      · cases hs.symm.trans hs'
  | none =>
    cases ht : x.compilation.resolve target with
    | some t =>
      refine iff_of_false Bool.false_ne_true ?_
      rintro (⟨hs', -, -⟩ | ⟨-, ht', -⟩)
      · cases hs.symm.trans hs'
      · cases ht.symm.trans ht'
    | none =>
      dsimp only
      rw [beq_iff_eq]
      constructor
      · exact .unknown hs ht
      · rintro (⟨hs', -, -⟩ | ⟨-, -, same⟩)
        · cases hs.symm.trans hs'
        · exact same

instance (x : Context) (source target : TypeRef) : Decidable (x.Suits source target) :=
  decidable_of_iff _ (x.assignable_iff_suits source target)

/-- The members to take a value from are the properties, then the fields of the ancestor that are not
made by the compiler and suit the type. -/
theorem sources_eq_filter (x : Context) (ancestor : TypeDecl) (type : TypeRef) :
    x.sources ancestor type = (ancestor.properties ++ ancestor.fields).filter fun s =>
      s.implicit = false ∧ x.Suits s.type type := by
  have hmembers : ancestor.members.map (·.2) = ancestor.properties ++ ancestor.fields := by
    unfold TypeDecl.members
    rw [List.map_append, List.map_map, List.map_map]
    exact congrArg₂ _ (List.map_id _) (List.map_id _)
  unfold sources
  rw [hmembers]
  refine List.filter_congr fun s _ => ?_
  rw [Bool.eq_iff_iff, Bool.and_eq_true, Bool.not_eq_true', x.assignable_iff_suits,
    decide_eq_true_eq]

/-- The declared type of the ancestor: the one that the annotation names, or else the one that the
type of the member denotes. -/
def ancestor? (x : Context) (m : Member) : Option String → Option TypeDecl
  | some type => x.compilation.lookup type
  | none => x.compilation.resolve m.type

/-- The strategy that gives a member its value from an ancestor, or from a member of the ancestor. -/
def fromAncestor (m : Member) (name : Option String) (ancestor : TypeDecl)
    (source : Option String) : Strategy :=
  .injectAncestor m.name (name.getD ancestor.name) ("global::" ++ ancestor.fullName) source

/-- The judgement about a member when it can take its value from these members of the ancestor. -/
def takeOnly (m : Member) (name : Option String) (ancestor : TypeDecl) :
    List Member → Except Diagnostic Request
  | [] => .error ((Cause.noSource m.type.name ancestor.fullName m.name).diagnosticAt m.location)
  | [source] => .ok { strategy := fromAncestor m name ancestor (some source.name) }
  | found =>
    .error ((Cause.manySources m.type.name ancestor.fullName m.name
      (found.map (·.name))).diagnosticAt m.location)

/-- A request for a value from an ancestor is judged in three steps: the ancestor has to be declared,
it is taken itself if the type of the member denotes it, and else the only member that suits. -/
theorem judgeInject_eq_cases (x : Context) (m : Member) (type name : Option String) :
    x.judgeInject m type name =
      match x.ancestor? m type with
      | none =>
        .error ((Cause.unresolvedAncestor (type.getD m.type.name) m.name).diagnosticAt m.location)
      | some ancestor =>
        if (x.compilation.resolve m.type).map TypeDecl.metadataName = some ancestor.metadataName then
          .ok { strategy := fromAncestor m name ancestor none }
        else takeOnly m name ancestor (x.sources ancestor m.type) := by
  unfold judgeInject ancestor? takeOnly fromAncestor
  cases type <;> rfl

variable {x : Context} {m : Member} {type name : Option String} {ancestor : TypeDecl}

/-- An ancestor whose type is not declared is an error. -/
theorem judgeInject_of_unresolved (h : x.ancestor? m type = none) :
    x.judgeInject m type name =
      .error ((Cause.unresolvedAncestor (type.getD m.type.name) m.name).diagnosticAt
        m.location) := by
  rw [judgeInject_eq_cases, h]

/-- An ancestor is a declared type. -/
theorem mem_of_ancestor? (h : x.ancestor? m type = some ancestor) :
    ancestor ∈ x.compilation.types := by
  cases type with
  | none => exact Compilation.mem_of_lookup h
  | some type => exact Compilation.mem_of_lookup h

/-- A member of the type of the ancestor takes the ancestor itself. -/
theorem judgeInject_of_itself (h : x.ancestor? m type = some ancestor)
    (hself : x.compilation.resolve m.type = some ancestor) :
    x.judgeInject m type name = .ok { strategy := fromAncestor m name ancestor none } := by
  rw [judgeInject_eq_cases, h, hself]
  exact if_pos rfl

/-- A member of any other type takes its value from the only member of the ancestor that suits. -/
theorem judgeInject_of_other (h : x.ancestor? m type = some ancestor)
    (hother : x.compilation.resolve m.type ≠ some ancestor) :
    x.judgeInject m type name = takeOnly m name ancestor (x.sources ancestor m.type) := by
  rw [judgeInject_eq_cases, h]
  refine if_neg fun hkey => hother ?_
  obtain ⟨d, hd, hname⟩ := Option.map_eq_some_iff.1 hkey
  rw [hd, Compilation.eq_of_metadataName (Compilation.mem_of_lookup hd) (mem_of_ancestor? h) hname]

section Place

variable {owner : TypeDecl} {k : Nat} {o : Occurrence}

/-- A value from an ancestor needs no companion, so that it is never refused for one. -/
theorem adds_fromAncestor {source : Option String} (hk : owner.occurrences[k]? = some o)
    (hjudge : x.judge owner o = .ok { strategy := fromAncestor m name ancestor source }) :
    x.Adds owner k (fromAncestor m name ancestor source) :=
  adds_of_judge hk hjudge fun _ _ => nofun

/-- A request for a value from an ancestor is judged by the arguments that the attribute gives. -/
theorem judge_of_kind_injectAncestor (hk : owner.occurrences[k]? = some o)
    (hsite : o.site = .member m) (hkind : o.annotation.kind = .injectAncestor) (x : Context)
    (owner' : TypeDecl) :
    x.judge owner' o = x.judgeInject m ((o.written.args[0]?).bind Constant.type?)
      ((o.written.args[1]?).bind Constant.text?) := by
  have hsaid := TypeDecl.annotation_eq_readAs (List.mem_of_getElem? hk)
  rw [hkind] at hsaid
  unfold judge
  rw [hsite, hsaid]
  rfl

end Place

end Context

namespace Cause

/-- An ancestor of no declared type is an error about the member. -/
theorem isErrorAbout_unresolvedAncestor (m : Member) (type : String) :
    ((unresolvedAncestor type m.name).diagnosticAt m.location).IsErrorAbout "ORG0009" m := by
  refine ⟨rfl, rfl, rfl, ("Can't resolve ancestor type '" ++ type ++
    "' for injected member ").toList, ".".toList, ?_⟩
  change _ = ("Can't resolve ancestor type '" ++ type ++ "' for injected member " ++ m.name ++
    ".").toList
  simp only [String.toList_append, List.append_assoc]

/-- An ancestor without a member that suits is an error about the member. -/
theorem isErrorAbout_noSource (m : Member) (type ancestor : String) :
    ((noSource type ancestor m.name).diagnosticAt m.location).IsErrorAbout "ORG0004" m := by
  refine ⟨rfl, rfl, rfl, ("No field or property of type \"" ++ type ++
    "\" found in injection source \"" ++ ancestor ++ "\" for ").toList,
    ". Expected exactly one.".toList, ?_⟩
  change _ = ("No field or property of type \"" ++ type ++ "\" found in injection source \"" ++
    ancestor ++ "\" for " ++ m.name ++ ". Expected exactly one.").toList
  simp only [String.toList_append, List.append_assoc]

/-- An ancestor with several members that suit is an error about the member. -/
theorem isErrorAbout_manySources (m : Member) (type ancestor : String) (found : List String) :
    ((manySources type ancestor m.name found).diagnosticAt m.location).IsErrorAbout
      "ORG0005" m := by
  refine ⟨rfl, rfl, rfl, ("Multiple members of type \"" ++ type ++
    "\" found in injection source \"" ++ ancestor ++ "\" for ").toList,
    (", but expected exactly one. Found: " ++ ", ".intercalate found).toList, ?_⟩
  change _ = ("Multiple members of type \"" ++ type ++ "\" found in injection source \"" ++
    ancestor ++ "\" for " ++ m.name ++ ", but expected exactly one. Found: " ++
    ", ".intercalate found).toList
  simp only [String.toList_append, List.append_assoc]

/-- The wording of the error about several sources ends with their names. -/
theorem names_suffix_manySources (type ancestor member : String) (found : List String) :
    (", ".intercalate found).toList <:+ (manySources type ancestor member found).message.toList := by
  change _ <:+ ("Multiple members of type \"" ++ type ++ "\" found in injection source \"" ++
    ancestor ++ "\" for " ++ member ++ ", but expected exactly one. Found: " ++
    ", ".intercalate found).toList
  rw [String.toList_append]
  exact List.suffix_append _ _

end Cause

/-- The diagnostics are the same, or they name the same sources in another order. -/
inductive Diagnostic.SameUpToOrder : Diagnostic → Diagnostic → Prop
  | same (d : Diagnostic) : SameUpToOrder d d
  | reordered (type ancestor member : String) {found found' : List String}
      (h : found.Perm found') (l : Location) :
    SameUpToOrder ((Cause.manySources type ancestor member found).diagnosticAt l)
      ((Cause.manySources type ancestor member found').diagnosticAt l)

/-- The second declaration is the first with its properties and its fields in another order. -/
structure TypeDecl.Reordered (d d' : TypeDecl) : Prop where
  /-- The properties are the same up to order. -/
  properties : d.properties.Perm d'.properties
  /-- The fields are the same up to order. -/
  fields : d.fields.Perm d'.fields
  /-- Nothing else differs. -/
  rest : d' = { d with properties := d'.properties, fields := d'.fields }

/-- The order of its members does not show in the outline of a declaration. -/
theorem TypeDecl.Reordered.outline_eq {d d' : TypeDecl} (h : d.Reordered d') :
    d.outline = d'.outline :=
  (congrArg TypeDecl.outline h.rest.symm :)

namespace Context

/-- Of the ancestor only its outline counts. -/
theorem takeOnly_congr (m : Member) (name : Option String) {a a' : TypeDecl}
    (ha : a.outline = a'.outline) (found : List Member) :
    takeOnly m name a found = takeOnly m name a' found := by
  have hname : a.name = a'.name := congrArg TypeDecl.Outline.name ha
  unfold takeOnly fromAncestor
  rw [hname, TypeDecl.fullName_eq_of_outline ha]

/-- Of the members that a value can be taken from only their number and their names count. -/
theorem takeOnly_same (m : Member) (name : Option String) {a a' : TypeDecl}
    (ha : a.outline = a'.outline) {found found' : List Member} (h : found.Perm found') :
    SameJudgement Diagnostic.SameUpToOrder (takeOnly m name a found)
      (takeOnly m name a' found') := by
  rw [takeOnly_congr m name ha]
  match found, found' with
  | [], [] => exact .refl .same _
  | [s], [s'] =>
    obtain rfl := List.singleton_perm_singleton.1 h
    exact .refl .same _
  | s :: t :: rest, s' :: t' :: rest' => exact .refused (.reordered _ _ _ (h.map _) _)
  | [], _ :: _ => exact absurd h.length_eq (by simp)
  | [_], [] => exact absurd h.length_eq (by simp)
  | [_], _ :: _ :: _ => exact absurd h.length_eq (by simp)
  | _ :: _ :: _, [] => exact absurd h.length_eq (by simp)
  | _ :: _ :: _, [_] => exact absurd h.length_eq (by simp)

/-- Requests for a value from an ancestor are judged alike in programs that match, provided that they
are judged alike where a member of the ancestor has to be taken. -/
theorem Matches.judgeInject_same {R : TypeDecl → TypeDecl → Prop} {x x' : Context}
    (h : x.Matches R x') {T : Diagnostic → Diagnostic → Prop} (hrefl : ∀ d, T d d)
    (htake : ∀ {a a'}, R a a' → ∀ m name, SameJudgement T
      (takeOnly m name a (x.sources a m.type)) (takeOnly m name a' (x'.sources a' m.type)))
    (m : Member) (type name : Option String) :
    SameJudgement T (x.judgeInject m type name) (x'.judgeInject m type name) := by
  have hmember := map_eq_of_rel (h.compilation.lookup_rel m.type.name)
    h.compilation.metadataName_eq
  have hancestor : Option.Rel R (x.ancestor? m type) (x'.ancestor? m type) := by
    cases type with
    | none => exact h.compilation.lookup_rel m.type.name
    | some type => exact h.compilation.lookup_rel type
  rw [judgeInject_eq_cases, judgeInject_eq_cases, Compilation.resolve, Compilation.resolve, hmember]
  generalize x.ancestor? m type = a, x'.ancestor? m type = a' at hancestor ⊢
  cases hancestor with
  | none => exact .refl hrefl _
  | @some a a' ha =>
    have hname : a.name = a'.name := congrArg TypeDecl.Outline.name (h.compilation.outline_eq ha)
    dsimp only
    rw [h.compilation.metadataName_eq ha]
    split
    · unfold fromAncestor
      rw [hname, TypeDecl.fullName_eq_of_outline (h.compilation.outline_eq ha)]
      exact .refl hrefl _
    · exact htake ha m name

/-- Where members of the types stand in another order, requests for a value from an ancestor are
judged the same up to the order of names. -/
theorem judgeInject_of_reordered {x x' : Context} (h : x.Matches TypeDecl.Reordered x')
    (m : Member) (type name : Option String) :
    SameJudgement Diagnostic.SameUpToOrder (x.judgeInject m type name)
      (x'.judgeInject m type name) := by
  refine h.judgeInject_same .same (fun {a a'} ha m name => ?_) m type name
  have hsources : (x.sources a m.type).Perm (x'.sources a' m.type) := by
    rw [← h.sources_eq, sources_eq_filter, sources_eq_filter]
    exact (ha.properties.append ha.fields).filter _
  exact takeOnly_same m name ha.outline_eq hsources

end Context

/-- A member with an annotation for a value from an ancestor gets one addition or one error, and that
is what it brings into the lists of the class. Without a declared type of the ancestor it is an error.
The ancestor itself is taken when the type of the member denotes it. Otherwise let `found` be the
properties, then the fields of the ancestor that are not made by the compiler and suit the type of the
member: the only one is taken, none is an error, and several are an error whose wording ends with all
their names in this order. Where properties and fields of the ancestor stand in another order the
outcome is the same up to the order of these names, and so is the resolution of every class that is
declared alike. -/
theorem injection_takes_only_match (x : Context) (owner : TypeDecl) {k : Nat} {o : Occurrence}
    {m : Member} (hk : owner.occurrences[k]? = some o) (hsite : o.site = .member m)
    (hkind : o.annotation.kind = .injectAncestor) :
    let type := (o.written.args[0]?).bind Constant.type?
    let name := (o.written.args[1]?).bind Constant.text?
    (x.outcomes owner).length = owner.occurrences.length ∧
    (x.ancestor? m type = none → x.Refuses owner k "ORG0009" m) ∧
    (∀ a, x.ancestor? m type = some a →
      (x.compilation.resolve m.type = some a →
        x.Adds owner k (Context.fromAncestor m name a none)) ∧
      (x.compilation.resolve m.type ≠ some a →
        let found := (a.properties ++ a.fields).filter fun s =>
          s.implicit = false ∧ x.Suits s.type m.type
        (∀ s, found = [s] →
          x.Adds owner k (Context.fromAncestor m name a (some s.name))) ∧
        (found = [] → x.Refuses owner k "ORG0004" m) ∧
        (1 < found.length → ∃ d : Diagnostic, d.IsErrorAbout "ORG0005" m ∧
          (", ".intercalate (found.map (·.name))).toList <:+ d.message.toList ∧
          x.Yields owner k (.rejected d)))) ∧
    (∀ x' : Context, x.Matches TypeDecl.Reordered x' →
      (∀ owner', SameJudgement Diagnostic.SameUpToOrder (x.judge owner o)
        (x'.judge owner' o)) ∧
      ∀ d, (x.resolveClass d).SameUpTo Diagnostic.SameUpToOrder (x'.resolveClass d)) := by
  intro type name
  have hjudge := Context.judge_of_kind_injectAncestor hk hsite hkind
  refine ⟨x.length_outcomes owner, fun hnone => ?_,
    fun a ha => ⟨fun hself => ?_, fun hother => ?_⟩, fun x' h => ⟨?_, ?_⟩⟩
  · exact Context.refuses_of_judge hk (Cause.isErrorAbout_unresolvedAncestor m _)
      ((hjudge x owner).trans (Context.judgeInject_of_unresolved hnone))
  · exact Context.adds_fromAncestor hk
      ((hjudge x owner).trans (Context.judgeInject_of_itself ha hself))
  · intro found
    have htake : x.judge owner o = Context.takeOnly m name a found := by
      rw [hjudge, Context.judgeInject_of_other ha hother, Context.sources_eq_filter]
    refine ⟨fun s hs => ?_, fun hnone => ?_, fun hmany => ?_⟩
    · rw [hs] at htake
      exact Context.adds_fromAncestor hk htake
    · rw [hnone] at htake
      exact Context.refuses_of_judge hk (Cause.isErrorAbout_noSource m _ _) htake
    · have herror : Context.takeOnly m name a found =
          .error ((Cause.manySources m.type.name a.fullName m.name
            (found.map (·.name))).diagnosticAt m.location) := by
        generalize found = found at hmany ⊢
        match found with
        | [] => cases hmany
        | [_] => exact absurd hmany (Nat.lt_irrefl 1)
        | _ :: _ :: _ => rfl
      exact ⟨_, Cause.isErrorAbout_manySources m _ _ _, Cause.names_suffix_manySources _ _ _ _,
        Context.yields_of_judge_error hk (htake.trans herror)⟩
  · exact fun owner' => by
      rw [hjudge, hjudge]
      exact Context.judgeInject_of_reordered h m type name
  · exact fun d => h.resolveClass_same .same (Context.judgeInject_of_reordered h) rfl rfl rfl

/-- A game with a score and two doors, and a gate that takes a score and a door from it. -/
def gateTypes : List TypeDecl :=
  [{ name := "Node", namespaceName? := some "Godot" },
   { name := "Resource", namespaceName? := some "Godot" },
   { name := "Game", base? := some ⟨"Godot.Node", false⟩,
     properties := [{ name := "Score", type := ⟨"int", false⟩ }],
     fields :=
      [{ name := "_score", type := ⟨"int", false⟩, implicit := true },
       { name := "Left", type := ⟨"Door", false⟩ }, { name := "Right", type := ⟨"Door", false⟩ }] },
   { name := "Gate", base? := some ⟨"Godot.Node", false⟩,
     fields :=
      [{ name := "_score", type := ⟨"int", false⟩,
         attributes := [{ name := "InjectAncestorValue", args := [.type "Game"] }] },
       { name := "_door", type := ⟨"Door", false⟩,
         attributes := [{ name := "InjectAncestorValue", args := [.type "Game"] }] }] }]

/-- The gate under the default settings, met in the source. -/
def gateContext : Context where
  compilation := ⟨gateTypes, [{ name := "Gate" }], keyIndex gateTypes, nameIndex gateTypes,
    by decide +kernel, rfl, rfl⟩
  config := {}
  host := ⟨gateTypes[0], gateTypes[1], by decide +kernel, by decide +kernel⟩

/-- The gate takes the score, of which there is only one. About the doors there is one error, which
ends with the names of both, and the gate has nothing else. -/
theorem score_of_game_is_taken :
    let gate := gateTypes[3]
    ∃ d : Diagnostic, d.IsErrorAbout "ORG0005" gate.fields[1] ∧
      "Left, Right".toList <:+ d.message.toList ∧
      (gateContext.resolveClass gate).diagnostics = [d] ∧
      (gateContext.resolveClass gate).additions =
        [⟨3, 0, 0, .injectAncestor "_score" "Game" "global::Game" (some "Score")⟩] := by
  intro gate
  let said : Attribute := { name := "InjectAncestorValue", args := [.type "Game"] }
  have hscore : gate.occurrences[0]? =
      some ⟨.member gate.fields[0], said, .injectAncestor (some "Game") none⟩ := by
    decide +kernel
  have hdoor : gate.occurrences[1]? =
      some ⟨.member gate.fields[1], said, .injectAncestor (some "Game") none⟩ := by
    decide +kernel
  have htwo : gate.occurrences.length = 2 := by decide +kernel
  have hposition : gateContext.compilation.position gate = 3 := by decide +kernel
  have hgame : gateContext.compilation.lookup "Game" = some gateTypes[2] := by decide +kernel
  obtain ⟨-, -, htaken, -⟩ := injection_takes_only_match gateContext gate hscore rfl rfl
  obtain ⟨honly, -, -⟩ := (htaken _ hgame).2 (by decide +kernel)
  have hadds := honly gateTypes[2].properties[0] (by decide +kernel)
  obtain ⟨-, -, htaken, -⟩ := injection_takes_only_match gateContext gate hdoor rfl rfl
  obtain ⟨-, -, hseveral⟩ := (htaken _ hgame).2 (by decide +kernel)
  obtain ⟨d, habout, hnames, hyields⟩ := hseveral (by decide +kernel)
  have houtcomes := Context.outcomes_eq_pair htwo hadds hyields
  refine ⟨d, habout, ?_, ?_, ?_⟩
  · refine Eq.mp (congrArg (fun text : String => text.toList <:+ d.message.toList) ?_) hnames
    decide +kernel
  · rw [gateContext.diagnostics_resolveClass, houtcomes]
    rfl
  · rw [gateContext.additions_resolveClass, houtcomes, hposition]
    rfl

end SceneWiring
