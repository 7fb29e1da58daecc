import Mathlib.Data.List.Sigma
import SceneWiring.Proofs.Companions
import SceneWiring.Proofs.MetTypes
/-!
# Rejected annotations are contained

The resolution of a class accounts for each of its annotations by itself, so annotations that are
answered with diagnostics can be deleted from it without any other effect. The additions of the
class stay the same, strategies, ranks and numbers alike, and the diagnostics of the other
annotations stay as they are and in their order.
-/

namespace SceneWiring

/-- What attributes of a declaration stand on. -/
inductive Part where
  /-- The type itself. -/
  | type
  | property
  | field
  | method
deriving DecidableEq, Repr

/-- Where an attribute stands in a declaration. -/
structure Spot where
  /-- What it stands on. -/
  part : Part
  /-- The position of that among its like. -/
  among : Nat
  /-- The position of the attribute there. -/
  position : Nat
deriving DecidableEq, Repr

/-- A list without the elements at some positions. -/
def dropAt {α : Type} (gone : Nat → Bool) (xs : List α) : List α :=
  (xs.zipIdx.filter fun p => !gone p.2).map (·.1)

/-- The member without the attributes at some positions. -/
def Member.without (m : Member) (gone : Nat → Bool) : Member :=
  { m with attributes := dropAt gone m.attributes }

/-- The method without the attributes at some positions. -/
def Method.without (m : Method) (gone : Nat → Bool) : Method :=
  { m with attributes := dropAt gone m.attributes }

/-- The declaration without the attributes at some spots. -/
def TypeDecl.without (d : TypeDecl) (gone : Spot → Bool) : TypeDecl :=
  { d with
    attributes := dropAt (fun k => gone ⟨.type, 0, k⟩) d.attributes
    properties := d.properties.zipIdx.map fun (m, i) => m.without fun k => gone ⟨.property, i, k⟩
    fields := d.fields.zipIdx.map fun (m, i) => m.without fun k => gone ⟨.field, i, k⟩
    methods := d.methods.zipIdx.map fun (m, i) => m.without fun k => gone ⟨.method, i, k⟩ }

/-- The annotations among attributes at a site. -/
def annotationsAt (site : Site) (attributes : List Attribute) : List Occurrence :=
  attributes.filterMap fun a => a.annotation?.map (⟨site, a, ·⟩)

/-- The annotations among attributes at a site, each with its spot. -/
def spottedAt (part : Part) (among : Nat) (site : Site) (attributes : List Attribute) :
    List (Spot × Occurrence) :=
  attributes.zipIdx.filterMap fun (a, k) =>
    a.annotation?.map fun said => (⟨part, among, k⟩, ⟨site, a, said⟩)

/-- The annotations at what a list holds, each with its spot. -/
def spottedAmong {α : Type} (part : Part) (site : α → Site) (attributes : α → List Attribute)
    (ms : List α) : List (Spot × Occurrence) :=
  ms.zipIdx.flatMap fun (m, i) => spottedAt part i (site m) (attributes m)

/-- The annotations at one part of a type, each with its spot. -/
def TypeDecl.spottedIn (d : TypeDecl) : Part → List (Spot × Occurrence)
  | .type => spottedAmong .type (fun _ => .type) TypeDecl.attributes [d]
  | .property => spottedAmong .property .member Member.attributes d.properties
  | .field => spottedAmong .field .member Member.attributes d.fields
  | .method => spottedAmong .method .method Method.attributes d.methods

/-- The annotations of a type in the order of judgement, each with its spot. -/
def TypeDecl.spottedOccurrences (d : TypeDecl) : List (Spot × Occurrence) :=
  [Part.type, .property, .field, .method].flatMap d.spottedIn

/-- What does not depend on positions can be gathered without them. -/
theorem flatMap_zipIdx {α β : Type} (f : α → List β) (xs : List α) :
    (xs.zipIdx.flatMap fun p => f p.1) = xs.flatMap f := by
  have hmap := List.flatMap_map Prod.fst f (l := xs.zipIdx)
  rw [List.zipIdx_map_fst] at hmap
  exact hmap.symm

/-- Changes by position that a function does not show can be left out before it. -/
theorem map_map_zipIdx {α β : Type} {f : α × Nat → α} {g : α → β} (hf : ∀ p, g (f p) = g p.1)
    (xs : List α) : (xs.zipIdx.map f).map g = xs.map g := by
  have hcomp : g ∘ f = g ∘ Prod.fst := funext hf
  rw [List.map_map, hcomp, ← List.map_map, List.zipIdx_map_fst]

/-- Without their spots they are the annotations at the site. -/
theorem map_snd_spottedAt (part : Part) (among : Nat) (site : Site) (attributes : List Attribute) :
    (spottedAt part among site attributes).map (·.2) = annotationsAt site attributes := by
  have hspot : (fun p : Attribute × Nat => (p.1.annotation?.map fun said =>
        (Spot.mk part among p.2, Occurrence.mk site p.1 said)).map (·.2)) =
      (fun a => a.annotation?.map (Occurrence.mk site a)) ∘ Prod.fst := by
    funext p
    rw [Option.map_map]
    rfl
  rw [spottedAt, List.map_filterMap]
  dsimp only
  rw [hspot, ← List.filterMap_map, List.zipIdx_map_fst, annotationsAt]

/-- Without their spots they are the annotations at what the list holds. -/
theorem map_snd_spottedAmong {α : Type} (part : Part) (site : α → Site)
    (attributes : α → List Attribute) (ms : List α) :
    (spottedAmong part site attributes ms).map (·.2) =
      ms.flatMap fun m => annotationsAt (site m) (attributes m) := by
  simp only [spottedAmong, List.map_flatMap, map_snd_spottedAt]
  exact flatMap_zipIdx (fun m => annotationsAt (site m) (attributes m)) ms

/-- The spot of an annotation at a site is there. -/
theorem spot_of_mem_spottedAt {part : Part} {among : Nat} {site : Site}
    {attributes : List Attribute} {p : Spot × Occurrence}
    (h : p ∈ spottedAt part among site attributes) : p.1.part = part ∧ p.1.among = among := by
  obtain ⟨⟨a, k⟩, -, ha⟩ := List.mem_filterMap.1 h
  obtain ⟨said, -, rfl⟩ := Option.map_eq_some_iff.1 ha
  exact ⟨rfl, rfl⟩

/-- The spot of an annotation at what a list holds is of that part. -/
theorem part_of_mem_spottedAmong {α : Type} {part : Part} {site : α → Site}
    {attributes : α → List Attribute} {ms : List α} {p : Spot × Occurrence}
    (h : p ∈ spottedAmong part site attributes ms) : p.1.part = part := by
  obtain ⟨⟨m, i⟩, -, hp⟩ := List.mem_flatMap.1 h
  exact (spot_of_mem_spottedAt hp).1

/-- The annotations at a site have spots of their own. -/
theorem pairwise_spottedAt (part : Part) (among : Nat) (site : Site)
    (attributes : List Attribute) :
    (spottedAt part among site attributes).Pairwise fun p q => p.1 ≠ q.1 := by
  have hpositions := List.nodup_zipIdx_map_snd attributes
  rw [List.Nodup, List.pairwise_map] at hpositions
  rw [spottedAt, List.pairwise_filterMap]
  refine hpositions.imp ?_
  rintro ⟨a, k⟩ ⟨b, l⟩ hne p hp q hq heq
  obtain ⟨said, -, rfl⟩ := Option.map_eq_some_iff.1 hp
  obtain ⟨other, -, rfl⟩ := Option.map_eq_some_iff.1 hq
  exact hne (congrArg Spot.position heq)

/-- The annotations at what a list holds have spots of their own. -/
theorem pairwise_spottedAmong {α : Type} (part : Part) (site : α → Site)
    (attributes : α → List Attribute) (ms : List α) :
    (spottedAmong part site attributes ms).Pairwise fun p q => p.1 ≠ q.1 := by
  have hpositions := List.nodup_zipIdx_map_snd ms
  rw [List.Nodup, List.pairwise_map] at hpositions
  rw [spottedAmong, List.pairwise_flatMap]
  refine ⟨fun m _ => pairwise_spottedAt _ _ _ _, hpositions.imp ?_⟩
  intro m m' hne p hp q hq heq
  have hamong := congrArg Spot.among heq
  rw [(spot_of_mem_spottedAt hp).2, (spot_of_mem_spottedAt hq).2] at hamong
  exact hne hamong

/-- The annotations that are left at a site are those whose spots are left. -/
theorem map_bare_annotationsAt_dropAt (gone : Spot → Bool) (part : Part) (among : Nat)
    (site site' : Site) (hsite : site'.bare = site.bare) (attributes : List Attribute) :
    (annotationsAt site' (dropAt (fun k => gone ⟨part, among, k⟩) attributes)).map
        Occurrence.bare =
      ((spottedAt part among site attributes).filter fun p => !gone p.1).map (·.2.bare) := by
  unfold annotationsAt dropAt spottedAt
  generalize attributes.zipIdx = placed
  induction placed with
  | nil => rfl
  | cons p rest ih =>
    obtain ⟨a, k⟩ := p
    cases hgone : gone ⟨part, among, k⟩ with
    | true =>
      cases hsaid : a.annotation? with
      | none => simpa [hgone, hsaid] using ih
      | some said => simpa [hgone, hsaid] using ih
    | false =>
      cases hsaid : a.annotation? with
      | none => simpa [hgone, hsaid] using ih
      | some said => simpa [hgone, hsaid, Occurrence.bare, hsite] using ih

namespace TypeDecl

/-- The annotations of a type are those at the type itself, at its properties, at its fields and at
its methods. -/
theorem occurrences_eq (d : TypeDecl) :
    d.occurrences = annotationsAt .type d.attributes ++
      (d.properties.flatMap (fun m => annotationsAt (.member m) m.attributes) ++
      (d.fields.flatMap (fun m => annotationsAt (.member m) m.attributes) ++
      d.methods.flatMap (fun m => annotationsAt (.method m) m.attributes))) := by
  simp only [occurrences, sites, List.flatMap_append, List.flatMap_cons, List.flatMap_map,
    List.append_assoc]
  rfl

/-- Without their spots they are the annotations of the type. -/
theorem map_snd_spottedOccurrences (d : TypeDecl) :
    d.spottedOccurrences.map (·.2) = d.occurrences := by
  rw [occurrences_eq]
  simp only [spottedOccurrences, List.flatMap_cons, List.flatMap_nil, List.append_nil, spottedIn,
    List.map_append, map_snd_spottedAmong]

/-- No two annotations of a type have the same spot. -/
theorem nodup_spots (d : TypeDecl) : (d.spottedOccurrences.map (·.1)).Nodup := by
  have hparts : [Part.type, .property, .field, .method].Nodup := by decide
  have hpart {part : Part} {p : Spot × Occurrence} (hp : p ∈ d.spottedIn part) :
      p.1.part = part := by
    cases part <;> rw [spottedIn] at hp <;> exact part_of_mem_spottedAmong hp
  rw [List.Nodup, List.pairwise_map, spottedOccurrences, List.pairwise_flatMap]
  constructor
  · intro part _
    cases part <;> rw [spottedIn] <;> exact pairwise_spottedAmong _ _ _ _
  · refine hparts.imp ?_
    intro part part' hne p hp q hq heq
    rw [← hpart hp, ← hpart hq, heq] at hne
    exact hne rfl

/-- The annotations that are left of a type are those whose spots are left. -/
theorem map_bare_occurrences_without (d : TypeDecl) (gone : Spot → Bool) :
    (d.without gone).occurrences.map Occurrence.bare =
      ((d.spottedOccurrences.filter fun p => !gone p.1).map (·.2)).map Occurrence.bare := by
  have hmember (part : Part) (i : Nat) (m : Member) :=
    map_bare_annotationsAt_dropAt gone part i (.member m)
      (.member (m.without fun k => gone ⟨part, i, k⟩)) rfl m.attributes
  have hmethod (i : Nat) (m : Method) :=
    map_bare_annotationsAt_dropAt gone .method i (.method m)
      (.method (m.without fun k => gone ⟨.method, i, k⟩)) rfl m.attributes
  rw [occurrences_eq, List.map_map]
  simp only [without, spottedOccurrences, spottedIn, spottedAmong, List.flatMap_cons,
    List.flatMap_nil, List.append_nil, List.map_append, List.filter_append, List.filter_flatMap,
    List.flatMap_map, List.map_flatMap, List.zipIdx_cons, List.zipIdx_nil]
  refine congrArg₂ _ ?_ (congrArg₂ _ ?_ (congrArg₂ _ ?_ ?_))
  · exact map_bare_annotationsAt_dropAt gone .type 0 .type .type rfl d.attributes
  · exact List.flatMap_congr fun p _ => hmember .property p.2 p.1
  · exact List.flatMap_congr fun p _ => hmember .field p.2 p.1
  · exact List.flatMap_congr fun p _ => hmethod p.2 p.1

/-- Attributes are all that is deleted. -/
theorem bare_without (d : TypeDecl) (gone : Spot → Bool) : (d.without gone).bare = d.bare := by
  have hmembers (part : Part) (ms : List Member) :
      (ms.zipIdx.map fun p => p.1.without fun k => gone ⟨part, p.2, k⟩).map Member.bare =
        ms.map Member.bare := by
    refine map_map_zipIdx (fun p => ?_) ms
    rfl
  have hmethods (ms : List Method) :
      (ms.zipIdx.map fun p => p.1.without fun k => gone ⟨.method, p.2, k⟩).map Method.bare =
        ms.map Method.bare := by
    refine map_map_zipIdx (fun p => ?_) ms
    rfl
  unfold bare without
  dsimp only
  rw [hmembers .property, hmembers .field, hmethods]

end TypeDecl

namespace Outcome

/-- What is answered with a diagnostic is given no addition. -/
theorem addition?_eq_none {out : Outcome} (h : out.diagnostic?.isSome = true) :
    out.addition? = none := by
  cases out with
  | accepted a => cases h
  | rejected d => rfl

/-- Without some rejected outcomes the additions are the same. -/
theorem filterMap_addition?_filter {gone : Spot → Bool} {spotted : List (Spot × Outcome)}
    (h : ∀ p ∈ spotted, gone p.1 = true → p.2.diagnostic?.isSome = true) :
    (spotted.filter fun p => !gone p.1).filterMap (·.2.addition?) =
      spotted.filterMap (·.2.addition?) := by
  rw [List.filterMap_filter]
  refine List.filterMap_congr fun p hp => ?_
  cases hgone : gone p.1 with
  | false => rfl
  | true =>
    rw [addition?_eq_none (h p hp hgone)]
    rfl

end Outcome

namespace Context

/-- The outcomes of the annotations of a class, in the order of judgement, each with the spot of its
annotation. -/
def spottedOutcomes (x : Context) (owner : TypeDecl) : List (Spot × Outcome) :=
  (owner.spottedOccurrences.map (·.1)).zip (x.outcomes owner)

/-- Without their spots they are the outcomes of the class. -/
theorem map_snd_spottedOutcomes (x : Context) (owner : TypeDecl) :
    (x.spottedOutcomes owner).map (·.2) = x.outcomes owner := by
  have hlength := congrArg List.length owner.map_snd_spottedOccurrences
  rw [List.length_map] at hlength
  refine List.map_snd_zip (Nat.le_of_eq ?_)
  rw [List.length_map, hlength, (x.answers_outcomes owner).length_eq]

/-- Without some annotations that are rejected anyway, each of the others has the outcome that it has
among all. -/
theorem outcomesAfter_filter (x : Context) (owner : TypeDecl) {gone : Spot → Bool}
    {spotted : List (Spot × Occurrence)} {r r' : Resolution} (hr : r.additions = r'.additions)
    (h : ∀ p ∈ (spotted.map (·.1)).zip (x.outcomesAfter owner r (spotted.map (·.2))),
      gone p.1 = true → p.2.diagnostic?.isSome = true) :
    x.outcomesAfter owner r' ((spotted.filter fun p => !gone p.1).map (·.2)) =
      (((spotted.map (·.1)).zip (x.outcomesAfter owner r (spotted.map (·.2)))).filter
        fun p => !gone p.1).map (·.2) := by
  -- The two runs may differ in their diagnostics, but not in their additions.
  induction spotted generalizing r r' with
  | nil => rfl
  | cons p rest ih =>
    obtain ⟨spot, o⟩ := p
    simp only [List.map_cons, outcomesAfter, List.zip_cons_cons, List.forall_mem_cons] at h ⊢
    obtain ⟨hfirst, hrest⟩ := h
    cases hgone : gone spot with
    | true =>
      have hnone := Outcome.addition?_eq_none (hfirst hgone)
      have hsame : (r.step x owner o).additions = r'.additions := by
        rw [Resolution.step_eq_record, Resolution.additions_record, hnone, hr]
        exact List.append_nil _
      simpa [hgone] using ih hsame hrest
    | false =>
      have hnext := ih (Resolution.additions_step_congr hr x owner o) hrest
      simpa [hgone, outcomesAfter, Resolution.outcome_congr hr x owner o] using hnext

/-- Without some annotations of a class that are rejected anyway, each of the others has the outcome
that it has among all. -/
theorem outcomesAfter_left (x : Context) (owner : TypeDecl) {gone : Spot → Bool}
    (h : ∀ p ∈ x.spottedOutcomes owner, gone p.1 = true → p.2.diagnostic?.isSome = true) :
    x.outcomesAfter owner .start ((owner.spottedOccurrences.filter fun p => !gone p.1).map (·.2)) =
      ((x.spottedOutcomes owner).filter fun p => !gone p.1).map (·.2) := by
  unfold spottedOutcomes outcomes at h ⊢
  rw [← owner.map_snd_spottedOccurrences] at h ⊢
  exact x.outcomesAfter_filter owner rfl h

end Context

namespace Compilation

/-- Nothing but attributes of one declaration is changed by deleting some of these. -/
theorem map_bare_set_without {types : List TypeDecl} {i : Nat} (hi : i < types.length)
    (gone : Spot → Bool) :
    (types.set i (types[i].without gone)).map TypeDecl.bare = types.map TypeDecl.bare := by
  have hi' : i < (types.map TypeDecl.bare).length := by rwa [List.length_map]
  have hget : types[i].bare = (types.map TypeDecl.bare)[i] := (List.getElem_map _).symm
  rw [List.map_set, TypeDecl.bare_without, hget, List.set_getElem_self]

/-- After attributes of one declaration are deleted the declarations make a program that agrees. -/
theorem exists_agrees_of_without (c : Compilation) {i : Nat} (hi : i < c.types.length)
    (gone : Spot → Bool) :
    ∃ c', ofTypes (c.types.set i (c.types[i].without gone)) c.mentions = .ok c' ∧
      c'.types = c.types.set i (c.types[i].without gone) ∧ c.Agrees c' := by
  have hbare := map_bare_set_without hi gone
  have hnames := congrArg (List.map TypeDecl.metadataName) hbare
  rw [List.map_map, List.map_map] at hnames
  have hdistinct : ((c.types.set i (c.types[i].without gone)).map TypeDecl.metadataName).Nodup :=
    hnames ▸ c.distinct
  obtain ⟨c', hc'⟩ := exists_ofTypes hdistinct c.mentions
  obtain ⟨htypes, -⟩ := ofTypes_eq_ok hc'
  exact ⟨c', hc', htypes, agrees_of_perm (by rw [htypes, hbare])⟩

end Compilation

/-- A class that some of its annotations are deleted from is resolved as if the others had been
judged alone. -/
theorem Context.Agrees.resolveClass_without {x x' : Context} (h : x.Agrees x') {owner : TypeDecl}
    {gone : Spot → Bool}
    (hposition : x'.compilation.position (owner.without gone) = x.compilation.position owner) :
    x'.resolveClass (owner.without gone) =
      ((owner.spottedOccurrences.filter fun p => !gone p.1).map (·.2)).foldl
        (Resolution.step x owner) .start := by
  have hrun := h.foldl_step_eq (owner.bare_without gone).symm
    (owner.map_bare_occurrences_without gone).symm .start
  have hnumbered := Resolution.numbered_start (x.compilation.position owner)
  rw [hposition, (hnumbered.foldl_step _).movedTo_eq_self] at hrun
  exact hrun

/-- The resolution of a class accounts for every recognised annotation, in the order of judgement.
Each has exactly one outcome, which answers it; the additions are the accepted outcomes, the
diagnostics the rejected ones. The additions are numbered from zero and are for the class resolved,
and none but a call has a rank other than zero. -/
theorem resolveClass_accounts_for_annotations (x : Context)
    (i : Fin x.compilation.types.length) :
    let owner := x.compilation.types[i]
    let r := x.resolveClass owner
    owner.occurrences.map (fun o => (o.site, o.written)) =
        owner.scan.filter (fun sited => sited.2.annotation?.isSome) ∧
      (∀ o ∈ owner.occurrences, o.written.annotation? = some o.annotation) ∧
      List.Forall₂ (x.Answers owner) owner.occurrences (x.outcomes owner) ∧
      r.additions = (x.outcomes owner).filterMap Outcome.addition? ∧
      r.diagnostics = (x.outcomes owner).filterMap Outcome.diagnostic? ∧
      (∀ (k : Nat) (a : Addition), r.additions[k]? = some a → a.seq = k ∧ a.owner = i ∧
        ((∀ method, a.strategy ≠ .callMethod method) → a.order = 0)) ∧
      r.additions.length + r.diagnostics.length =
        owner.scan.countP (fun sited => sited.2.annotation?.isSome) := by
  intro owner r
  have hanswers := x.answers_outcomes owner
  have hnumbered : r.Numbered (x.compilation.position owner) :=
    Resolution.Numbered.foldl_step (fun k a h => by simp at h) owner.occurrences
  have hposition : x.compilation.position owner = i :=
    x.compilation.position_getElem i.isLt
  refine ⟨owner.map_occurrences, fun o => TypeDecl.annotation?_of_mem_occurrences, hanswers,
    x.additions_resolveClass owner, x.diagnostics_resolveClass owner, ?_, ?_⟩
  · intro k a hk
    obtain ⟨hseq, howner⟩ := hnumbered k a hk
    exact ⟨hseq, howner.trans hposition,
      Context.order_eq_zero_of_mem (List.mem_of_getElem? hk)⟩
  · have hcount := congrArg List.length owner.map_occurrences
    rw [List.length_map, ← List.countP_eq_length_filter] at hcount
    rw [x.additions_resolveClass, x.diagnostics_resolveClass,
      Outcome.length_additions_add_length_diagnostics, ← hanswers.length_eq, hcount]

/-- No two annotations of a class are at the same spot, so any of those that are answered with
diagnostics can be chosen and deleted from the class. The types make a program again, in which the
host types are found. The class has the same additions as before and the diagnostics of the
annotations that are left, as they were before and in the same order. -/
theorem rejected_annotations_are_contained (x : Context) (i : Fin x.compilation.types.length)
    (gone : Spot → Bool)
    (h : ∀ p ∈ x.spottedOutcomes x.compilation.types[i], gone p.1 = true →
      p.2.diagnostic?.isSome = true) :
    let owner := x.compilation.types[i]
    let left := owner.without gone
    (owner.spottedOccurrences.map (·.1)).Nodup ∧
      owner.spottedOccurrences.map (·.2) = owner.occurrences ∧
      (x.resolveClass owner).diagnostics =
        (x.spottedOutcomes owner).filterMap (·.2.diagnostic?) ∧
      ∃ c' x',
        Compilation.ofTypes (x.compilation.types.set i left) x.compilation.mentions = .ok c' ∧
        Context.ofCompilation c' x.config = .ok x' ∧ x'.compilation.types[i.val]? = some left ∧
        (x'.resolveClass left).additions = (x.resolveClass owner).additions ∧
        (x'.resolveClass left).diagnostics =
          ((x.spottedOutcomes owner).filter fun p => !gone p.1).filterMap (·.2.diagnostic?) := by
  intro owner left
  have hall := x.map_snd_spottedOutcomes owner
  have hkept := x.outcomesAfter_left owner h
  refine ⟨owner.nodup_spots, owner.map_snd_spottedOccurrences, ?_, ?_⟩
  · rw [x.diagnostics_resolveClass, ← hall, List.filterMap_map]
    rfl
  obtain ⟨c', hc', htypes, hagrees⟩ := x.compilation.exists_agrees_of_without i.isLt gone
  rcases hagrees.contexts x.config with ⟨missing, hx, -⟩ | ⟨y, x', hy, hx', -, rfl, -, hagrees'⟩
  · rw [x.ofCompilation_self] at hx
    cases hx
  · cases x.ofCompilation_self.symm.trans hy
    have hleft : x'.compilation.types[i.val]? = some left := by
      rw [htypes, List.getElem?_set_self i.isLt]
      rfl
    have hposition : x'.compilation.position left = x.compilation.position owner := by
      rw [Compilation.position_of_getElem? hleft]
      exact (Compilation.position_getElem _ i.isLt).symm
    have hresolution := hagrees'.resolveClass_without hposition
    refine ⟨x'.compilation, x', hc', hx', hleft, ?_, ?_⟩
    · rw [hresolution, x.additions_foldl_step, hkept, List.filterMap_map, x.additions_resolveClass,
        ← hall, List.filterMap_map]
      exact Outcome.filterMap_addition?_filter h
    · rw [hresolution, x.diagnostics_foldl_step, hkept, List.filterMap_map]
      rfl

/-- The game under the default settings. -/
def gameContext : Context where
  compilation := ⟨gameTypes, gameMentions, keyIndex gameTypes, nameIndex gameTypes,
    nodup_metadataName_gameTypes, rfl, rfl⟩
  config := {}
  host := ⟨gameTypes[0], gameTypes[1], by decide +kernel, by decide +kernel⟩

/-- The score of the hero is rejected. Without its annotation the hero has the same additions and no
diagnostic is left. -/
theorem score_of_hero_is_contained :
    let gone : Spot → Bool := (· == ⟨.field, 1, 0⟩)
    let hero := gameTypes[2]
    (gameContext.spottedOutcomes hero).map (fun p => (p.1, p.2.diagnostic?.isSome)) =
        [(⟨.field, 0, 0⟩, false), (⟨.field, 1, 0⟩, true)] ∧
      (∀ p ∈ gameContext.spottedOutcomes hero, gone p.1 = true → p.2.diagnostic?.isSome = true) ∧
      ∃ c' x', Compilation.ofTypes (gameTypes.set 2 (hero.without gone)) gameMentions = .ok c' ∧
        Context.ofCompilation c' {} = .ok x' ∧
        (x'.resolveClass (hero.without gone)).additions =
          (gameContext.resolveClass hero).additions ∧
        (x'.resolveClass (hero.without gone)).diagnostics = [] := by
  intro gone hero
  have hrejected : ∀ p ∈ gameContext.spottedOutcomes hero, gone p.1 = true →
      p.2.diagnostic?.isSome = true := by
    decide +kernel
  obtain ⟨-, -, -, c', x', hc', hx', -, hadditions, hdiagnostics⟩ :=
    rejected_annotations_are_contained gameContext ⟨2, by decide +kernel⟩ gone hrejected
  refine ⟨by decide +kernel, hrejected, c', x', hc', hx', hadditions, hdiagnostics.trans ?_⟩
  decide +kernel

end SceneWiring
