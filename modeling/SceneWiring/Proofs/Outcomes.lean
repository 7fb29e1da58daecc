import Mathlib.Data.List.Forall2
import SceneWiring.Proofs.Judgement
/-!
# Outcomes of annotations

The resolution of a class taken apart by annotation. Every recognised annotation, in the order of
judgement, has one outcome: an addition that serves it, or a diagnostic that points at it. The
additions of the class are the accepted outcomes in that order, numbered from zero, and its
diagnostics are the rejected ones. So what one annotation brings stands there between what those before
it and those behind it bring.
-/

namespace SceneWiring

/-- What becomes of an annotation. -/
inductive Outcome where
  /-- It is given an addition. -/
  | accepted (addition : Addition)
  /-- It is answered with a diagnostic. -/
  | rejected (diagnostic : Diagnostic)
deriving DecidableEq, Repr

namespace Outcome

/-- The addition, if there is one. -/
def addition? : Outcome → Option Addition
  | .accepted a => some a
  | .rejected _ => none

/-- The diagnostic, if there is one. -/
def diagnostic? : Outcome → Option Diagnostic
  | .accepted _ => none
  | .rejected d => some d

/-- Every outcome is an addition or a diagnostic, and none is both. -/
theorem length_additions_add_length_diagnostics (outcomes : List Outcome) :
    (outcomes.filterMap addition?).length + (outcomes.filterMap diagnostic?).length =
      outcomes.length := by
  induction outcomes with
  | nil => rfl
  | cons out rest ih =>
    cases out with
    | accepted a =>
      simp only [List.filterMap_cons, addition?, diagnostic?, List.length_cons]
      omega
    | rejected d =>
      simp only [List.filterMap_cons, addition?, diagnostic?, List.length_cons]
      omega

end Outcome

namespace Resolution

/-- What becomes of an annotation after some others have been judged. -/
def outcome (x : Context) (owner : TypeDecl) (r : Resolution) (o : Occurrence) : Outcome :=
  match x.judge owner o with
  | .error d => .rejected d
  | .ok request =>
    match r.clash? o.site request with
    | some d => .rejected d
    | none =>
      .accepted
        ⟨x.compilation.position owner, request.order, r.additions.length, request.strategy⟩

section Judged

variable {x : Context} {owner : TypeDecl} {o : Occurrence}

/-- What the judgement refuses is rejected. -/
theorem outcome_of_error {d : Diagnostic} (r : Resolution) (hjudge : x.judge owner o = .error d) :
    r.outcome x owner o = .rejected d := by
  rw [outcome, hjudge]

/-- A request with a clash is rejected. -/
theorem outcome_of_clash {r : Resolution} {request : Request} {d : Diagnostic}
    (hjudge : x.judge owner o = .ok request) (hclash : r.clash? o.site request = some d) :
    r.outcome x owner o = .rejected d := by
  rw [outcome, hjudge]
  dsimp only
  rw [hclash]

/-- A request without a clash is accepted. -/
theorem outcome_of_no_clash {r : Resolution} {request : Request}
    (hjudge : x.judge owner o = .ok request) (hclash : r.clash? o.site request = none) :
    r.outcome x owner o = .accepted
      ⟨x.compilation.position owner, request.order, r.additions.length, request.strategy⟩ := by
  rw [outcome, hjudge]
  dsimp only
  rw [hclash]

end Judged

/-- The resolution with one more outcome. -/
def record (r : Resolution) : Outcome → Resolution
  | .accepted a => r.add a
  | .rejected d => r.report d

/-- A step records the outcome of its annotation and nothing else. -/
theorem step_eq_record (x : Context) (owner : TypeDecl) (r : Resolution) (o : Occurrence) :
    r.step x owner o = r.record (r.outcome x owner o) := by
  cases hjudge : x.judge owner o with
  | error d =>
    rw [step_of_error r hjudge, outcome_of_error r hjudge]
    rfl
  | ok request =>
    cases hclash : r.clash? o.site request with
    | some d =>
      rw [step_of_clash hjudge hclash, outcome_of_clash hjudge hclash]
      rfl
    | none =>
      rw [step_of_no_clash hjudge hclash, outcome_of_no_clash hjudge hclash]
      rfl

/-- A recorded addition comes after those before. -/
theorem additions_record (r : Resolution) (out : Outcome) :
    (r.record out).additions = r.additions ++ out.addition?.toList := by
  cases out with
  | accepted a => rfl
  | rejected d => exact (List.append_nil _).symm

/-- A recorded diagnostic comes after those before. -/
theorem diagnostics_record (r : Resolution) (out : Outcome) :
    (r.record out).diagnostics = r.diagnostics ++ out.diagnostic?.toList := by
  cases out with
  | accepted a => exact (List.append_nil _).symm
  | rejected d => rfl

end Resolution

namespace Context

/-- The outcomes of annotations in order, after some others have been judged. -/
def outcomesAfter (x : Context) (owner : TypeDecl) (r : Resolution) :
    List Occurrence → List Outcome
  | [] => []
  | o :: rest => r.outcome x owner o :: x.outcomesAfter owner (r.step x owner o) rest

/-- The outcomes of the annotations of a class, in the order of judgement. -/
def outcomes (x : Context) (owner : TypeDecl) : List Outcome :=
  x.outcomesAfter owner .start owner.occurrences

/-- The additions of a run are those of its outcomes. -/
theorem additions_foldl_step (x : Context) (owner : TypeDecl) (r : Resolution)
    (os : List Occurrence) :
    (os.foldl (Resolution.step x owner) r).additions =
      r.additions ++ (x.outcomesAfter owner r os).filterMap Outcome.addition? := by
  induction os generalizing r with
  | nil => simp only [List.foldl_nil, outcomesAfter, List.filterMap_nil, List.append_nil]
  | cons o rest ih =>
    rw [List.foldl_cons, ih, Resolution.step_eq_record, Resolution.additions_record, outcomesAfter,
      List.append_assoc, ← Resolution.step_eq_record]
    cases r.outcome x owner o <;> rfl

/-- The diagnostics of a run are those of its outcomes. -/
theorem diagnostics_foldl_step (x : Context) (owner : TypeDecl) (r : Resolution)
    (os : List Occurrence) :
    (os.foldl (Resolution.step x owner) r).diagnostics =
      r.diagnostics ++ (x.outcomesAfter owner r os).filterMap Outcome.diagnostic? := by
  induction os generalizing r with
  | nil => simp only [List.foldl_nil, outcomesAfter, List.filterMap_nil, List.append_nil]
  | cons o rest ih =>
    rw [List.foldl_cons, ih, Resolution.step_eq_record, Resolution.diagnostics_record,
      outcomesAfter, List.append_assoc, ← Resolution.step_eq_record]
    cases r.outcome x owner o <;> rfl

/-- The additions of a class are its accepted outcomes. -/
theorem additions_resolveClass (x : Context) (owner : TypeDecl) :
    (x.resolveClass owner).additions = (x.outcomes owner).filterMap Outcome.addition? :=
  x.additions_foldl_step owner .start owner.occurrences

/-- The diagnostics of a class are its rejected outcomes. -/
theorem diagnostics_resolveClass (x : Context) (owner : TypeDecl) :
    (x.resolveClass owner).diagnostics = (x.outcomes owner).filterMap Outcome.diagnostic? :=
  x.diagnostics_foldl_step owner .start owner.occurrences

end Context

/-- An outcome answers an annotation: an addition serves it, at the rank it asks for; a diagnostic
points at it, and is an error unless the annotation stands on the wrong thing. -/
inductive Context.Answers (x : Context) (owner : TypeDecl) (o : Occurrence) : Outcome → Prop
  | accepted {a : Addition} (serves : x.Serves owner o.site o.annotation a.strategy)
      (turn : a.order = o.annotation.turn) : x.Answers owner o (.accepted a)
  | rejected {d : Diagnostic} (place : d.location? = some o.place)
      (severity : d.isError = true ↔ o.Fits) : x.Answers owner o (.rejected d)

namespace Resolution

/-- A clash is about a member, and about an addition that holds the name of its companion. -/
theorem clash?_eq_some {r : Resolution} {site : Site} {request : Request} {d : Diagnostic}
    (h : r.clash? site request = some d) :
    ∃ m companion holder, site = .member m ∧ request.strategy.companion? = some companion ∧
      r.holder? companion = some holder ∧
      d = (Cause.companionClash m.name companion holder).diagnosticAt m.location := by
  unfold clash? at h
  split at h
  · rename_i companion m hcompanion
    obtain ⟨holder, hholder, hd⟩ := Option.map_eq_some_iff.1 h
    exact ⟨m, companion, holder, rfl, hcompanion, hholder, hd.symm⟩
  · cases h

/-- A clash depends on the additions before and not on the diagnostics. -/
theorem clash?_congr {r r' : Resolution} (h : r.additions = r'.additions) (site : Site)
    (request : Request) : r.clash? site request = r'.clash? site request := by
  unfold clash?
  simp only [holder?_congr h]

/-- The additions of a resolution are numbered from zero and are all for one class. -/
def Numbered (r : Resolution) (position : Nat) : Prop :=
  ∀ (k : Nat) (a : Addition), r.additions[k]? = some a → a.seq = k ∧ a.owner = position

/-- A new addition is for the class resolved and has the next number. -/
theorem seq_owner_of_outcome {x : Context} {owner : TypeDecl} {r : Resolution} {o : Occurrence}
    {a : Addition} (h : r.outcome x owner o = .accepted a) :
    a.seq = r.additions.length ∧ a.owner = x.compilation.position owner := by
  unfold outcome at h
  split at h
  · cases h
  · split at h
    · cases h
    · cases h
      exact ⟨rfl, rfl⟩

/-- A step keeps the additions numbered. -/
theorem Numbered.step {x : Context} {owner : TypeDecl} {r : Resolution}
    (h : r.Numbered (x.compilation.position owner)) (o : Occurrence) :
    (r.step x owner o).Numbered (x.compilation.position owner) := by
  rw [step_eq_record]
  cases hout : r.outcome x owner o with
  | rejected d => exact h
  | accepted a =>
    obtain ⟨hseq, howner⟩ := seq_owner_of_outcome hout
    intro k b hk
    rw [additions_record, List.getElem?_append] at hk
    split at hk
    · exact h k b hk
    · -- Behind the additions before stands just the new one.
      rw [Outcome.addition?, Option.toList_some, List.getElem?_singleton] at hk
      split at hk
      · cases hk
        exact ⟨by omega, howner⟩
      · cases hk

/-- Where there are no additions, all are numbered. -/
theorem numbered_start (position : Nat) : Numbered .start position :=
  fun _ _ h => by simp at h

/-- A run keeps the additions numbered. -/
theorem Numbered.foldl_step {x : Context} {owner : TypeDecl} {r : Resolution}
    (h : r.Numbered (x.compilation.position owner)) (os : List Occurrence) :
    (os.foldl (Resolution.step x owner) r).Numbered (x.compilation.position owner) := by
  induction os generalizing r with
  | nil => exact h
  | cons o rest ih => exact ih (h.step o)

end Resolution

/-- The additions of a class are numbered and are for its position. -/
theorem Context.numbered_resolveClass (x : Context) (owner : TypeDecl) :
    (x.resolveClass owner).Numbered (x.compilation.position owner) :=
  (Resolution.numbered_start _).foldl_step owner.occurrences

/-- A declared type is found at its position. -/
theorem Compilation.position_getElem (c : Compilation) {i : Nat} (h : i < c.types.length) :
    c.position c.types[i] = i := by
  rw [position, List.findIdx_eq h]
  refine ⟨beq_self_eq_true _, fun j hj => ?_⟩
  have hne : c.types[j].metadataName ≠ c.types[i].metadataName := by
    intro heq
    have hlength : (c.types.map TypeDecl.metadataName).length = c.types.length := List.length_map _
    have hlt := List.pairwise_iff_getElem.1 c.distinct j i (by omega) (by omega) hj
    exact hlt (by simpa only [List.getElem_map] using heq)
  exact beq_eq_false_iff_ne.2 hne

/-- The declaration at a position is found there. -/
theorem Compilation.position_of_getElem? {c : Compilation} {i : Nat} {d : TypeDecl}
    (h : c.types[i]? = some d) : c.position d = i := by
  obtain ⟨hi, rfl⟩ := List.getElem?_eq_some_iff.1 h
  exact c.position_getElem hi

namespace Context

variable {x : Context} {owner : TypeDecl}

/-- An outcome answers its annotation. -/
theorem answers_outcome (r : Resolution) (o : Occurrence) :
    x.Answers owner o (r.outcome x owner o) := by
  have h := x.judged owner o
  unfold Resolution.outcome
  cases hjudge : x.judge owner o with
  | error d =>
    rw [hjudge] at h
    cases h with
    | refused place severity => exact .rejected place severity
  | ok request =>
    rw [hjudge] at h
    cases h with
    | granted serves turn =>
      dsimp only
      cases hclash : r.clash? o.site request with
      | none => exact .accepted serves turn
      | some d =>
        obtain ⟨m, companion, holder, hsite, -, -, rfl⟩ := Resolution.clash?_eq_some hclash
        have hplace : o.place = m.location := by
          unfold Occurrence.place
          rw [hsite]
          exact if_pos serves.fits
        exact .rejected (congrArg some hplace.symm) (iff_of_true rfl serves.fits)

/-- The outcomes of a class answer its annotations, one by one. -/
theorem answers_outcomes (x : Context) (owner : TypeDecl) :
    List.Forall₂ (x.Answers owner) owner.occurrences (x.outcomes owner) := by
  have each (r : Resolution) (os : List Occurrence) :
      List.Forall₂ (x.Answers owner) os (x.outcomesAfter owner r os) := by
    induction os generalizing r with
    | nil => exact .nil
    | cons o rest ih => exact .cons (answers_outcome r o) (ih _)
  exact each .start owner.occurrences

/-- Every outcome of a class answers one of its annotations. -/
theorem exists_answers_of_mem_outcomes {out : Outcome} (h : out ∈ x.outcomes owner) :
    ∃ o ∈ owner.occurrences, x.Answers owner o out := by
  obtain ⟨k, hk, rfl⟩ := List.mem_iff_getElem.1 h
  have hall := x.answers_outcomes owner
  have hk' : k < owner.occurrences.length := hall.length_eq ▸ hk
  exact ⟨owner.occurrences[k], List.getElem_mem hk', List.forall₂_iff_get.1 hall |>.2 k hk' hk⟩

/-- Only a call has a rank other than zero. -/
theorem order_eq_zero_of_mem {a : Addition} (ha : a ∈ (x.resolveClass owner).additions)
    (hcall : ∀ method, a.strategy ≠ .callMethod method) : a.order = 0 := by
  rw [additions_resolveClass] at ha
  obtain ⟨out, hout, haddition⟩ := List.mem_filterMap.1 ha
  obtain ⟨o, -, hanswers⟩ := exists_answers_of_mem_outcomes hout
  cases hanswers with
  | rejected => cases haddition
  | accepted serves turn =>
    cases haddition
    rw [turn]
    generalize o.site = site at serves
    generalize o.annotation = annotation at serves
    generalize hs : a.strategy = strategy at serves
    cases serves with
    | callMethod m order => exact absurd hs (hcall m.name)
    | getNode | loadResource | findNode | injectAncestor | selectorEnum => rfl

/-! ## What one annotation brings -/

/-- There is one outcome for each annotation of a run. -/
theorem length_outcomesAfter (r : Resolution) (os : List Occurrence) :
    (x.outcomesAfter owner r os).length = os.length := by
  induction os generalizing r with
  | nil => rfl
  | cons o rest ih => rw [outcomesAfter, List.length_cons, List.length_cons, ih]

/-- There is one outcome for each annotation of a class. -/
theorem length_outcomes (x : Context) (owner : TypeDecl) :
    (x.outcomes owner).length = owner.occurrences.length :=
  length_outcomesAfter .start owner.occurrences

/-- The first outcomes of a run are those of its first annotations. -/
theorem take_outcomesAfter (r : Resolution) (os : List Occurrence) (k : Nat) :
    (x.outcomesAfter owner r os).take k = x.outcomesAfter owner r (os.take k) := by
  induction os generalizing r k with
  | nil => rw [outcomesAfter, List.take_nil, List.take_nil, outcomesAfter]
  | cons o rest ih =>
    cases k with
    | zero => rfl
    | succ k => rw [outcomesAfter, List.take_succ_cons, List.take_succ_cons, outcomesAfter, ih]

/-- The outcome at a place of a run comes of what the annotations before have given. -/
theorem getElem?_outcomesAfter (r : Resolution) (os : List Occurrence) (k : Nat) :
    (x.outcomesAfter owner r os)[k]? = os[k]?.map
      (((os.take k).foldl (Resolution.step x owner) r).outcome x owner) := by
  induction os generalizing r k with
  | nil => rfl
  | cons o rest ih =>
    cases k with
    | zero => rfl
    | succ k =>
      rw [outcomesAfter, List.getElem?_cons_succ, List.getElem?_cons_succ, List.take_succ_cons,
        List.foldl_cons, ih]

/-- The resolution of a class after its first annotations. -/
def resolveFirst (x : Context) (owner : TypeDecl) (k : Nat) : Resolution :=
  (owner.occurrences.take k).foldl (Resolution.step x owner) .start

/-- The additions that the first annotations of a class are given. -/
def additionsBefore (x : Context) (owner : TypeDecl) (k : Nat) : List Addition :=
  ((x.outcomes owner).take k).filterMap Outcome.addition?

/-- They are the additions of the resolution up to there. -/
theorem additions_resolveFirst (x : Context) (owner : TypeDecl) (k : Nat) :
    (x.resolveFirst owner k).additions = x.additionsBefore owner k := by
  rw [resolveFirst, additionsBefore, outcomes, take_outcomesAfter, additions_foldl_step,
    Resolution.additions_start, List.nil_append]

/-- The annotation at a place of a class has that outcome. In the lists of the class the outcome
stands between what the annotations before it bring and what those behind it bring, and the
annotation brings nothing else. -/
structure Yields (x : Context) (owner : TypeDecl) (k : Nat) (out : Outcome) : Prop where
  /-- It is the outcome at the place. -/
  outcome : (x.outcomes owner)[k]? = some out
  /-- The addition of an accepted annotation is one of the class. -/
  additions : (x.resolveClass owner).additions =
    x.additionsBefore owner k ++ out.addition?.toList ++
      ((x.outcomes owner).drop (k + 1)).filterMap Outcome.addition?
  /-- The diagnostic of a rejected annotation is one of the class. -/
  diagnostics : (x.resolveClass owner).diagnostics =
    ((x.outcomes owner).take k).filterMap Outcome.diagnostic? ++ out.diagnostic?.toList ++
      ((x.outcomes owner).drop (k + 1)).filterMap Outcome.diagnostic?

/-- An outcome brings what it is into the lists of the class. -/
theorem yields_of_outcome {k : Nat} {out : Outcome} (h : (x.outcomes owner)[k]? = some out) :
    x.Yields owner k out := by
  have hsplit : x.outcomes owner =
      (x.outcomes owner).take k ++ [out] ++ (x.outcomes owner).drop (k + 1) := by
    obtain ⟨hk, rfl⟩ := List.getElem?_eq_some_iff.1 h
    rw [List.append_assoc, List.singleton_append, ← List.drop_eq_getElem_cons hk,
      List.take_append_drop]
  have hbrings {β : Type} (part? : Outcome → Option β) : (x.outcomes owner).filterMap part? =
      ((x.outcomes owner).take k).filterMap part? ++ (part? out).toList ++
        ((x.outcomes owner).drop (k + 1)).filterMap part? := by
    rw [hsplit, List.filterMap_append, List.filterMap_append, ← hsplit, List.filterMap_cons,
      List.filterMap_nil]
    cases part? out <;> rfl
  exact ⟨h, (x.additions_resolveClass owner).trans (hbrings _),
    (x.diagnostics_resolveClass owner).trans (hbrings _)⟩

/-- An annotation of a class yields what becomes of it after those before. -/
theorem yields_of_occurrence {k : Nat} {o : Occurrence} (h : owner.occurrences[k]? = some o) :
    x.Yields owner k ((x.resolveFirst owner k).outcome x owner o) := by
  refine yields_of_outcome ?_
  rw [outcomes, getElem?_outcomesAfter, h, Option.map_some, resolveFirst]

/-- Behind the first annotation stand the additions that it brings. -/
theorem Yields.additionsBefore_one {out : Outcome} (h : x.Yields owner 0 out) :
    x.additionsBefore owner 1 = out.addition?.toList := by
  rw [additionsBefore, List.take_one, List.head?_eq_getElem?, h.outcome, Option.toList_some,
    List.filterMap_cons, List.filterMap_nil]
  cases out.addition? <;> rfl

/-- A class with two annotations has just the two outcomes. -/
theorem outcomes_eq_pair {first second : Outcome} (hlength : owner.occurrences.length = 2)
    (hfirst : x.Yields owner 0 first) (hsecond : x.Yields owner 1 second) :
    x.outcomes owner = [first, second] := by
  refine List.ext_getElem? fun k => ?_
  match k with
  | 0 => exact hfirst.outcome
  | 1 => exact hsecond.outcome
  | k + 2 =>
    refine List.getElem?_eq_none ?_
    rw [length_outcomes, hlength]
    exact Nat.le_add_left 2 k

end Context

namespace TypeDecl

/-- The attributes of a type with what they stand on: those of the type itself, then those of its
properties, of its fields and of its methods, each in the order of declaration. -/
def scan (d : TypeDecl) : List (Site × Attribute) :=
  d.attributes.map (Site.type, ·) ++
    d.properties.flatMap (fun m => m.attributes.map (Site.member m, ·)) ++
    d.fields.flatMap (fun m => m.attributes.map (Site.member m, ·)) ++
    d.methods.flatMap (fun m => m.attributes.map (Site.method m, ·))

/-- The annotations at a site are its recognised attributes. -/
theorem map_occurrences_at (site : Site) (attributes : List Attribute) :
    (attributes.filterMap fun a => a.annotation?.map (Occurrence.mk site a)).map
        (fun o => (o.site, o.written)) =
      (attributes.map (site, ·)).filter fun sited => sited.2.annotation?.isSome := by
  induction attributes with
  | nil => rfl
  | cons a rest ih =>
    rw [List.filterMap_cons, List.map_cons, List.filter_cons]
    cases a.annotation? with
    | none => simpa using ih
    | some annotation => simpa using ih

/-- The annotations of a type are the recognised ones among its attributes, in order. -/
theorem map_occurrences (d : TypeDecl) :
    d.occurrences.map (fun o => (o.site, o.written)) =
      d.scan.filter fun sited => sited.2.annotation?.isSome := by
  simp only [occurrences, sites, scan, List.flatMap_append, List.flatMap_cons, List.flatMap_map,
    List.map_append, List.map_flatMap, List.filter_append, List.filter_flatMap,
    map_occurrences_at]

/-- An annotation of a type says what its attribute says. -/
theorem annotation?_of_mem_occurrences {d : TypeDecl} {o : Occurrence} (h : o ∈ d.occurrences) :
    o.written.annotation? = some o.annotation := by
  obtain ⟨⟨site, attributes⟩, -, ho⟩ := List.mem_flatMap.1 h
  obtain ⟨a, -, ha⟩ := List.mem_filterMap.1 ho
  obtain ⟨said, hsaid, rfl⟩ := Option.map_eq_some_iff.1 ha
  exact hsaid

/-- An annotation of a type is its attribute read as its kind. -/
theorem annotation_eq_readAs {d : TypeDecl} {o : Occurrence} (h : o ∈ d.occurrences) :
    o.annotation = o.written.readAs o.annotation.kind := by
  obtain ⟨kind, -, hread⟩ := Option.map_eq_some_iff.1 (annotation?_of_mem_occurrences h)
  rw [← hread, kind_readAs]

end TypeDecl

end SceneWiring
