import Mathlib.Data.List.Pairwise
import SceneWiring.Proofs.Outcomes
/-!
# Names of companions

No two additions of a class declare companions of one name, nor flags of one name. A request for a
node or resource is dropped exactly when an addition before it has the name of its companion. What
is refused for another reason holds no name.
-/

namespace SceneWiring

/-- The annotation asks for a node or resource. -/
def Annotation.fetches : Annotation → Bool
  | .get _ | .find _ _ _ => true
  | .injectAncestor _ _ | .onReady _ | .selectorEnum _ => false

namespace Strategy

/-- The flag that a strategy declares. -/
def flag? : Strategy → Option String
  | .loadResource slot _ => some slot.flagName
  | .getNode _ _ | .findNode _ _ _ _ => none
  | .injectAncestor _ _ _ _ | .callMethod _ | .selectorEnum _ _ _ => none

/-- The flag of a strategy is the one that its declaration has a line for. -/
theorem flag?_eq_some_iff (s : Strategy) (flag : String) :
    s.flag? = some flag ↔
      ∃ lines, s.declaration = some lines ∧ Code.line ["private bool ", flag, ";"] ∈ lines := by
  cases s with
  | loadResource slot editorHint =>
    have hflag : (slot.flagName = flag) = (flag = slot.flagName) := propext eq_comm
    simp [flag?, declaration, declarationTokens, hflag]
  | getNode slot property =>
    simp [flag?, declaration, declarationTokens, companionTokens, initialValueTokens, plainBody_eq_map]
  | findNode slot property recursive owned =>
    simp [flag?, declaration, declarationTokens, companionTokens, initialValueTokens]
  | injectAncestor | callMethod =>
    simp [flag?, declaration, declarationTokens]
  | selectorEnum className enumName fields =>
    simp [flag?, declaration, declarationTokens]

/-- A strategy that fills a member declares a companion, and no other strategy does. -/
theorem isSome_companion? (s : Strategy) : s.companion?.isSome = s.slot?.isSome := by
  cases s <;> rfl

/-- A strategy claims the companion that it declares for the member that it fills. -/
theorem claim?_eq_some_iff (s : Strategy) (companion member : String) :
    s.claim? = some (companion, member) ↔
      s.companion? = some companion ∧ ∃ slot, s.slot? = some slot ∧ slot.member = member := by
  simp [claim?, Option.bind_eq_some_iff, Option.map_eq_some_iff]

/-- No companion is declared by both strategies. -/
def Apart (s t : Strategy) : Prop :=
  ∀ companion, s.companion? = some companion → t.companion? ≠ some companion

/-- Being apart has no direction. -/
theorem Apart.symm {s t : Strategy} (h : s.Apart t) : t.Apart s :=
  fun companion ht hs => h companion hs ht

/-- The companion of a strategy is named after the member that it fills. -/
def Stemmed (s : Strategy) : Prop :=
  ∀ slot, s.slot? = some slot → slot.stem = companionStem slot.member

/-- Flags of one name belong to members of one name, and those have companions of one name. -/
theorem flag?_ne_of_apart {s t : Strategy} {flag : String} (hs : s.Stemmed) (ht : t.Stemmed)
    (hapart : s.Apart t) (hflag : s.flag? = some flag) : t.flag? ≠ some flag := by
  intro hflag'
  cases s with
  | loadResource slot editorHint =>
    cases t with
    | loadResource slot' editorHint' =>
      have heq : slot.flagName = slot'.flagName :=
        (Option.some.inj hflag).trans (Option.some.inj hflag').symm
      have hmember : slot.member = slot'.member := (String.append_right_inj "_hasBeenSet").1 heq
      have hstem : slot.stem = slot'.stem := by
        rw [hs slot rfl, ht slot' rfl, hmember]
      have hname : slot'.resourceName = slot.resourceName := by
        rw [Slot.resourceName, Slot.resourceName, hstem]
      exact hapart slot.resourceName rfl (congrArg some hname)
    | getNode | findNode | injectAncestor | callMethod | selectorEnum => cases hflag'
  | getNode | findNode | injectAncestor | callMethod | selectorEnum => cases hflag

end Strategy

namespace Cause

/-- A companion that is already there is an error about the member that would get it. -/
theorem isErrorAbout_companionClash (m : Member) (companion holder : String) :
    ((companionClash m.name companion holder).diagnosticAt m.location).IsErrorAbout
      "ORG0013" m := by
  refine (companionClash m.name companion holder).isErrorAbout_of_begins rfl ?_
  change m.name.toList <+: (m.name ++ " would generate '" ++ companion ++ "', which " ++ holder ++
    " already generates. Rename one of the members.").toList
  simp only [String.toList_append, List.append_assoc, List.prefix_append]

/-- The wording about a companion names it, and the member that has it. -/
theorem names_companionClash (member companion holder : String) (l : Location) :
    ((companionClash member companion holder).diagnosticAt l).Names companion ∧
      ((companionClash member companion holder).diagnosticAt l).Names holder := by
  have hmessage : ((companionClash member companion holder).diagnosticAt l).message.toList =
      (member ++ " would generate '").toList ++ companion.toList ++ "', which ".toList ++
        holder.toList ++ " already generates. Rename one of the members.".toList := by
    change (member ++ " would generate '" ++ companion ++ "', which " ++ holder ++
      " already generates. Rename one of the members.").toList = _
    simp only [String.toList_append]
  unfold Diagnostic.Names
  rw [hmessage]
  refine ⟨?_, List.infix_append _ _ _⟩
  rw [List.append_assoc, List.append_assoc]
  exact List.infix_append _ _ _

end Cause

namespace Context

variable {x : Context} {owner : TypeDecl}

/-- Whatever an annotation is given has a companion named after the member. -/
theorem Serves.stemmed {site : Site} {said : Annotation} {s : Strategy}
    (h : x.Serves owner site said s) : s.Stemmed := by
  intro slot hslot
  cases h with
  | getNode | loadResource | findNode =>
    cases hslot
    rfl
  | injectAncestor | callMethod | selectorEnum => cases hslot

/-- An annotation is given a companion exactly when it asks for a node or resource. -/
theorem Serves.isSome_companion? {site : Site} {said : Annotation} {s : Strategy}
    (h : x.Serves owner site said s) : s.companion?.isSome = said.fetches := by
  cases h <;> rfl

/-- Only on a member is anything with a companion given. -/
theorem Serves.site_of_companion {site : Site} {said : Annotation} {s : Strategy}
    {companion : String} (h : x.Serves owner site said s) (hs : s.companion? = some companion) :
    ∃ m, site = .member m := by
  cases h with
  | getNode m | loadResource m | findNode m => exact ⟨m, rfl⟩
  | injectAncestor | callMethod | selectorEnum => cases hs

end Context

namespace Resolution

instance : Std.Symm fun a b : Addition => a.strategy.Apart b.strategy where
  symm _ _ := Strategy.Apart.symm

/-- The additions of a resolution are pairwise apart, and their companions are named after the
members. -/
structure Separate (r : Resolution) : Prop where
  /-- No two additions declare a companion of one name. -/
  apart : r.additions.Pairwise fun a b => a.strategy.Apart b.strategy
  /-- Each companion is named after the member of its addition. -/
  stemmed : ∀ a ∈ r.additions, a.strategy.Stemmed

namespace Separate

variable {r : Resolution}

/-- The companions of additions that are apart have names of their own. -/
theorem nodup_companions (h : r.Separate) :
    (r.additions.filterMap (·.strategy.companion?)).Nodup := by
  rw [List.Nodup, List.pairwise_filterMap]
  refine h.apart.imp ?_
  intro a b hapart companion ha other hb heq
  subst heq
  exact hapart companion ha hb

/-- The flags of additions that are apart have names of their own. -/
theorem nodup_flags (h : r.Separate) : (r.additions.filterMap (·.strategy.flag?)).Nodup := by
  rw [List.Nodup, List.pairwise_filterMap]
  refine h.apart.imp_of_mem ?_
  intro a b hmem hmem' hapart flag ha other hb heq
  subst heq
  exact Strategy.flag?_ne_of_apart (h.stemmed a hmem) (h.stemmed b hmem') hapart ha hb

end Separate

/-- A name of a companion has no holder exactly when no addition has it. -/
theorem holder?_eq_none_iff {r : Resolution} {companion : String} :
    r.holder? companion = none ↔ ∀ a ∈ r.additions, a.strategy.companion? ≠ some companion := by
  rw [holder?, List.lookup_eq_none_iff, r.holders_eq]
  constructor
  · intro hnone a ha hheld
    have hsome : a.strategy.slot?.isSome = true := by
      rw [← Strategy.isSome_companion?, hheld]
      rfl
    obtain ⟨slot, hslot⟩ := Option.isSome_iff_exists.1 hsome
    have hclaim := (a.strategy.claim?_eq_some_iff companion slot.member).2 ⟨hheld, slot, hslot, rfl⟩
    have hne := hnone _ (List.mem_filterMap.2 ⟨a, ha, hclaim⟩)
    rw [bne_self_eq_false] at hne
    cases hne
  · intro hfree claim hclaim
    obtain ⟨a, ha, hclaimed⟩ := List.mem_filterMap.1 hclaim
    rw [bne_iff_ne]
    rintro rfl
    exact hfree a ha ((a.strategy.claim?_eq_some_iff claim.1 claim.2).1 hclaimed).1

/-- The holder of a companion is the member of an addition that has the companion. -/
theorem exists_of_holder?_eq_some {r : Resolution} {companion holder : String}
    (h : r.holder? companion = some holder) :
    ∃ a ∈ r.additions, a.strategy.companion? = some companion ∧
      ∃ slot, a.strategy.slot? = some slot ∧ slot.member = holder := by
  obtain ⟨before, behind, hholders, -⟩ := List.lookup_eq_some_iff.1 h
  have hclaim : (companion, holder) ∈ r.holders := by
    rw [hholders]
    exact List.mem_append_right _ List.mem_cons_self
  rw [r.holders_eq] at hclaim
  obtain ⟨a, ha, hclaimed⟩ := List.mem_filterMap.1 hclaim
  exact ⟨a, ha, (a.strategy.claim?_eq_some_iff companion holder).1 hclaimed⟩

/-- A name of a companion has one holder: the member of the only addition with that companion. -/
theorem Separate.holder?_eq_some {r : Resolution} (h : r.Separate) {a : Addition}
    (hmem : a ∈ r.additions) {companion : String} (ha : a.strategy.companion? = some companion) :
    ∃ slot, a.strategy.slot? = some slot ∧ r.holder? companion = some slot.member := by
  cases hholder : r.holder? companion with
  | none => exact absurd ha (holder?_eq_none_iff.1 hholder a hmem)
  | some holder =>
    obtain ⟨b, hb, hheld, slot, hslot, rfl⟩ := exists_of_holder?_eq_some hholder
    have hsame : b = a := by
      by_contra hne
      -- Two additions with one companion would not be apart.
      exact h.apart.forall hb hmem hne companion hheld ha
    exact ⟨slot, hsame ▸ hslot, rfl⟩

/-- No addition has the companion of the request. -/
def Free (r : Resolution) (request : Request) : Prop :=
  ∀ a ∈ r.additions, request.strategy.Apart a.strategy

/-- A request whose companion no addition has meets with no clash. -/
theorem clash?_eq_none {r : Resolution} {request : Request} (hfree : r.Free request)
    (site : Site) : r.clash? site request = none := by
  cases hclash : r.clash? site request with
  | none => rfl
  | some d =>
    obtain ⟨m, companion, holder, -, hcompanion, hholder, -⟩ := clash?_eq_some hclash
    have hnone := holder?_eq_none_iff.2 fun a ha => hfree a ha companion hcompanion
    rw [hnone] at hholder
    cases hholder

/-- A request at a member that meets with no clash has a companion that no addition has. -/
theorem free_of_clash?_eq_none {r : Resolution} {request : Request} {m : Member}
    (h : r.clash? (.member m) request = none) : r.Free request := by
  intro a ha companion hcompanion
  unfold clash? at h
  rw [hcompanion] at h
  exact holder?_eq_none_iff.1 (Option.map_eq_none_iff.1 h) a ha

/-- A request at a member whose companion some addition has clashes with that addition. -/
theorem Separate.clash?_eq_some {r : Resolution} (h : r.Separate) (request : Request)
    (m : Member) {companion : String} {a : Addition}
    (hcompanion : request.strategy.companion? = some companion) (hmem : a ∈ r.additions)
    (ha : a.strategy.companion? = some companion) :
    ∃ slot, a.strategy.slot? = some slot ∧ r.clash? (.member m) request =
      some ((Cause.companionClash m.name companion slot.member).diagnosticAt m.location) := by
  obtain ⟨slot, hslot, hholder⟩ := h.holder?_eq_some hmem ha
  refine ⟨slot, hslot, ?_⟩
  unfold clash?
  rw [hcompanion]
  dsimp only
  rw [hholder, Option.map_some]

section Step

variable {x : Context} {owner : TypeDecl} {r : Resolution} {o : Occurrence} {request : Request}

/-- Additions stay apart under one more whose companion none of them has. -/
theorem Separate.push (h : r.Separate) (position : Nat) (hstemmed : request.strategy.Stemmed)
    (hfree : r.Free request) : (r.push position request).Separate where
  apart := by
    rw [additions_push]
    refine List.pairwise_append.2 ⟨h.apart, List.pairwise_singleton _ _, ?_⟩
    intro a ha b hb
    cases List.mem_singleton.1 hb
    exact (hfree a ha).symm
  stemmed := by
    intro a ha
    rw [additions_push] at ha
    rcases List.mem_append.1 ha with hbefore | hnew
    · exact h.stemmed a hbefore
    · cases List.mem_singleton.1 hnew
      exact hstemmed

/-- A step keeps the additions apart. -/
theorem Separate.step (h : r.Separate) (x : Context) (owner : TypeDecl) (o : Occurrence) :
    (r.step x owner o).Separate := by
  have hjudged := x.judged owner o
  cases hjudge : x.judge owner o with
  | error d =>
    rw [step_of_error r hjudge]
    exact ⟨h.apart, h.stemmed⟩
  | ok request =>
    rw [hjudge] at hjudged
    obtain ⟨hserves, -⟩ := hjudged
    cases hclash : r.clash? o.site request with
    | some d =>
      rw [step_of_clash hjudge hclash]
      exact ⟨h.apart, h.stemmed⟩
    | none =>
      have hfree : r.Free request := by
        intro a ha companion hcompanion
        obtain ⟨m, hsite⟩ := hserves.site_of_companion hcompanion
        rw [hsite] at hclash
        exact free_of_clash?_eq_none hclash a ha companion hcompanion
      rw [step_of_no_clash hjudge hclash]
      exact h.push _ hserves.stemmed hfree

/-- A run keeps the additions apart. -/
theorem Separate.foldl_step (h : r.Separate) (x : Context) (owner : TypeDecl)
    (os : List Occurrence) : (os.foldl (Resolution.step x owner) r).Separate := by
  induction os generalizing r with
  | nil => exact h
  | cons o rest ih => exact ih (h.step x owner o)

/-- What becomes of an annotation depends on the additions before and not on the diagnostics. -/
theorem outcome_congr {r' : Resolution} (h : r.additions = r'.additions) (x : Context)
    (owner : TypeDecl) (o : Occurrence) : r.outcome x owner o = r'.outcome x owner o := by
  unfold outcome
  simp only [clash?_congr h o.site, h]

/-- What a step adds depends on the additions before and not on the diagnostics. -/
theorem additions_step_congr {r' : Resolution} (h : r.additions = r'.additions) (x : Context)
    (owner : TypeDecl) (o : Occurrence) :
    (r.step x owner o).additions = (r'.step x owner o).additions := by
  rw [step_eq_record, step_eq_record, additions_record, additions_record, h,
    outcome_congr h x owner o]

/-- Without the annotations that the judgement refuses a run gives the same additions. -/
theorem additions_foldl_filter {r' : Resolution} (h : r.additions = r'.additions) (x : Context)
    (owner : TypeDecl) (os : List Occurrence) :
    ((os.filter fun o => (x.judge owner o).isOk).foldl (Resolution.step x owner) r).additions =
      (os.foldl (Resolution.step x owner) r').additions := by
  induction os generalizing r r' with
  | nil => exact h
  | cons o rest ih =>
    cases hjudge : x.judge owner o with
    | error d =>
      rw [List.filter_cons_of_neg (by rw [hjudge]; exact Bool.false_ne_true), List.foldl_cons,
        step_of_error r' hjudge]
      exact ih h
    | ok request =>
      rw [List.filter_cons_of_pos (by rw [hjudge]; rfl), List.foldl_cons, List.foldl_cons]
      exact ih (additions_step_congr h x owner o)

end Step

end Resolution

namespace Context

variable (x : Context) (owner : TypeDecl)

/-- The additions of the first annotations are apart. -/
theorem separate_resolveFirst (k : Nat) : (x.resolveFirst owner k).Separate :=
  Resolution.Separate.foldl_step ⟨.nil, fun _ ha => absurd ha List.not_mem_nil⟩ x owner _

/-- The annotation at a place of a class brings one addition of that strategy, with the next number,
and no diagnostic. -/
def Adds (k : Nat) (s : Strategy) : Prop :=
  x.Yields owner k
    (.accepted ⟨x.compilation.position owner, 0, (x.additionsBefore owner k).length, s⟩)

/-- The annotation at a place of a class brings one error of that code about the member and no
addition. -/
def Refuses (k : Nat) (code : String) (m : Member) : Prop :=
  ∃ d : Diagnostic, d.IsErrorAbout code m ∧ x.Yields owner k (.rejected d)

/-- The annotation at a place of a class is given the strategy for the member, unless an annotation
before it has been given the companion. -/
structure Grants (k : Nat) (m : Member) (s : Strategy) : Prop where
  /-- It brings an addition when no addition before it has the companion. -/
  kept : (∀ a ∈ x.additionsBefore owner k, s.Apart a.strategy) → x.Adds owner k s
  /-- When an addition has the companion it brings one error about the member, which names the
  companion and the member whose addition has it. -/
  dropped : ∀ companion, s.companion? = some companion →
    ∀ a ∈ x.additionsBefore owner k, a.strategy.companion? = some companion →
      ∃ slot d, a.strategy.slot? = some slot ∧ d.IsErrorAbout "ORG0013" m ∧ d.Names companion ∧
        d.Names slot.member ∧ x.Yields owner k (.rejected d)

variable {x owner} {k : Nat} {o : Occurrence} {m : Member} {s : Strategy}

/-- An annotation that the judgement refuses brings the diagnostic. -/
theorem yields_of_judge_error {d : Diagnostic} (hk : owner.occurrences[k]? = some o)
    (hjudge : x.judge owner o = .error d) : x.Yields owner k (.rejected d) := by
  have hyields := x.yields_of_occurrence hk
  rw [Resolution.outcome_of_error _ hjudge] at hyields
  exact hyields

/-- An annotation judged to be an error about a member is refused. -/
theorem refuses_of_judge {code : String} {d : Diagnostic} (hk : owner.occurrences[k]? = some o)
    (habout : d.IsErrorAbout code m) (hjudge : x.judge owner o = .error d) :
    x.Refuses owner k code m :=
  ⟨d, habout, yields_of_judge_error hk hjudge⟩

/-- An annotation judged to deserve a strategy brings it when no addition before has the
companion. -/
theorem adds_of_judge (hk : owner.occurrences[k]? = some o)
    (hjudge : x.judge owner o = .ok { strategy := s })
    (hfree : ∀ a ∈ x.additionsBefore owner k, s.Apart a.strategy) : x.Adds owner k s := by
  have hfree' : (x.resolveFirst owner k).Free { strategy := s } := by
    rw [Resolution.Free, additions_resolveFirst]
    exact hfree
  have hyields := x.yields_of_occurrence hk
  rw [Resolution.outcome_of_no_clash hjudge (Resolution.clash?_eq_none hfree' o.site),
    additions_resolveFirst] at hyields
  exact hyields

/-- An annotation of a member judged to deserve a strategy is given it, unless an annotation before
it has been given the companion. -/
theorem grants_of_judge (hk : owner.occurrences[k]? = some o) (hsite : o.site = .member m)
    (hjudge : x.judge owner o = .ok { strategy := s }) : x.Grants owner k m s where
  kept := adds_of_judge hk hjudge
  dropped := by
    intro companion hcompanion a ha hheld
    have hyields := x.yields_of_occurrence hk
    rw [← additions_resolveFirst] at ha
    obtain ⟨slot, hslot, hclash⟩ := (x.separate_resolveFirst owner k).clash?_eq_some
      { strategy := s } m hcompanion ha hheld
    rw [← hsite] at hclash
    rw [Resolution.outcome_of_clash hjudge hclash] at hyields
    obtain ⟨hnames, hnames'⟩ := Cause.names_companionClash m.name companion slot.member m.location
    exact ⟨slot, _, hslot, Cause.isErrorAbout_companionClash m companion slot.member, hnames,
      hnames', hyields⟩

/-- What the judgement grants to an annotation that asks for a node or resource has a companion and
the first rank. -/
theorem judge_of_fetches {request : Request} (hfetches : o.annotation.fetches = true)
    (hjudge : x.judge owner o = .ok request) :
    request.strategy.companion?.isSome = true ∧
      x.judge owner o = .ok { strategy := request.strategy } := by
  have hjudged := x.judged owner o
  rw [hjudge] at hjudged
  obtain ⟨hserves, hturn⟩ := hjudged
  have horder : request.order = 0 := by
    rw [hturn]
    generalize o.annotation = said at hfetches
    cases said with
    | get | find => rfl
    | injectAncestor | onReady | selectorEnum => cases hfetches
  refine ⟨hserves.isSome_companion?.trans hfetches, hjudge.trans ?_⟩
  rw [← horder]

end Context

/-- The companions of a class have names of their own, and so have its flags. A request for a node
or resource that passes its checks has a companion; it is given an addition, unless an addition given
before it has the companion, and then it is dropped with one error at the member that names the
companion and the member that has it. What is refused by its checks brings its diagnostic and takes
no name: without it the additions of the class are the same. -/
theorem companions_kept_by_first (x : Context) (owner : TypeDecl) :
    ((x.resolveClass owner).additions.filterMap (·.strategy.companion?)).Nodup ∧
      ((x.resolveClass owner).additions.filterMap (·.strategy.flag?)).Nodup ∧
      (x.outcomes owner).length = owner.occurrences.length ∧
      (∀ k o m request, owner.occurrences[k]? = some o → o.site = .member m →
        o.annotation.fetches = true → x.judge owner o = .ok request →
        request.strategy.companion?.isSome = true ∧ x.Grants owner k m request.strategy) ∧
      (∀ k o d, owner.occurrences[k]? = some o → x.judge owner o = .error d →
        x.Yields owner k (.rejected d)) ∧
      ((owner.occurrences.filter fun o => (x.judge owner o).isOk).foldl
        (Resolution.step x owner) .start).additions = (x.resolveClass owner).additions := by
  have hseparate : (x.resolveClass owner).Separate :=
    Resolution.Separate.foldl_step ⟨.nil, fun _ ha => absurd ha List.not_mem_nil⟩ x owner _
  refine ⟨hseparate.nodup_companions, hseparate.nodup_flags, x.length_outcomes owner, ?_,
    fun k o d => Context.yields_of_judge_error, Resolution.additions_foldl_filter rfl x owner _⟩
  intro k o m request hk hsite hfetches hjudge
  obtain ⟨hsome, hjudge⟩ := Context.judge_of_fetches hfetches hjudge
  exact ⟨hsome, Context.grants_of_judge hk hsite hjudge⟩

/-- A class with two fields whose companions would have the same name. -/
def avatarTypes : List TypeDecl :=
  [{ name := "Node", namespaceName? := some "Godot" },
   { name := "Resource", namespaceName? := some "Godot" },
   { name := "Avatar", namespaceName? := some "Game", base? := some ⟨"Godot.Node", false⟩,
     fields :=
      [{ name := "_body", type := ⟨"Godot.Node", false⟩,
         attributes := [{ name := "OnReadyGet" }] },
       { name := "Body", type := ⟨"Godot.Node", false⟩,
         attributes := [{ name := "OnReadyGet" }] }] }]

/-- The class under the default settings, met in the source. -/
def avatarContext : Context where
  compilation := ⟨avatarTypes, [{ name := "Game.Avatar" }], keyIndex avatarTypes,
    nameIndex avatarTypes, by decide +kernel, rfl, rfl⟩
  config := {}
  host := ⟨avatarTypes[0], avatarTypes[1], by decide +kernel, by decide +kernel⟩

/-- The first of the two fields keeps the companion. The second gets nothing but an error that names
the companion and the first. -/
theorem first_body_keeps_companion :
    let avatar := avatarTypes[2]
    let slot := avatarContext.slot avatar.fields[0] {}
    ∃ d : Diagnostic, slot.pathName = "BodyPath" ∧ slot.member = "_body" ∧
      (avatarContext.resolveClass avatar).additions = [⟨2, 0, 0, .getNode slot none⟩] ∧
      (avatarContext.resolveClass avatar).diagnostics = [d] ∧
      d.IsErrorAbout "ORG0013" avatar.fields[1] ∧ d.Names "BodyPath" ∧ d.Names "_body" := by
  intro avatar slot
  let said : Attribute := { name := "OnReadyGet" }
  let other := avatarContext.slot avatar.fields[1] {}
  have hfirst : avatar.occurrences[0]? = some ⟨.member avatar.fields[0], said, .get {}⟩ := by
    decide +kernel
  have hsecond : avatar.occurrences[1]? = some ⟨.member avatar.fields[1], said, .get {}⟩ := by
    decide +kernel
  have htwo : avatar.occurrences.length = 2 := by decide +kernel
  have hposition : avatarContext.compilation.position avatar = 2 := by decide +kernel
  have hpath : slot.pathName = "BodyPath" := by decide +kernel
  have hother : other.pathName = "BodyPath" := by decide +kernel
  have hmember : slot.member = "_body" := by decide +kernel
  obtain ⟨-, -, -, hgranted, -⟩ := companions_kept_by_first avatarContext avatar
  obtain ⟨-, hkept⟩ := hgranted 0 _ _ { strategy := .getNode slot none } hfirst rfl rfl
    (by decide +kernel)
  obtain ⟨-, hdropped⟩ := hgranted 1 _ _ { strategy := .getNode other none } hsecond rfl rfl
    (by decide +kernel)
  -- Nothing stands before the first field, and what it gets stands before the second.
  have hadds : avatarContext.Yields avatar 0 (.accepted ⟨2, 0, 0, .getNode slot none⟩) :=
    hposition ▸ hkept.kept nofun
  have hbefore : (⟨2, 0, 0, .getNode slot none⟩ : Addition) ∈
      avatarContext.additionsBefore avatar 1 := by
    rw [hadds.additionsBefore_one]
    exact List.mem_singleton_self _
  obtain ⟨held, d, hheld, habout, hnames, hnames', hyields⟩ := hdropped.dropped "BodyPath"
    (congrArg some hother) _ hbefore (congrArg some hpath)
  cases hheld
  have houtcomes := Context.outcomes_eq_pair htwo hadds hyields
  refine ⟨d, hpath, hmember, ?_, ?_, habout, hnames, hmember ▸ hnames'⟩
  · rw [avatarContext.additions_resolveClass, houtcomes]
    rfl
  · rw [avatarContext.diagnostics_resolveClass, houtcomes]
    rfl

end SceneWiring
