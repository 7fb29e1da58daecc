import Mathlib.Data.List.Forall2
import SceneWiring.Hierarchy
/-!
# Hierarchies in lockstep

A relation between the declarations of two programs follows their hierarchies when related
declarations have one metadata name and related parents. Searches through both hierarchies that start
from related declarations then go in lockstep: each round adds related declarations, and in the end
the same metadata names are reached.
-/

namespace SceneWiring

/-- Functions that agree on related elements give one list for lists related element by element. -/
theorem map_eq_of_forall₂ {α β γ : Type} {R : α → β → Prop} {f : α → γ} {g : β → γ} {as : List α}
    {bs : List β} (h : List.Forall₂ R as bs) (hfg : ∀ {a b}, R a b → f a = g b) :
    as.map f = bs.map g := by
  have hpairs : List.Forall₂ (· = ·) (as.map f) (bs.map g) :=
    List.rel_map (fun _ _ hab => hfg hab) h
  rwa [List.forall₂_eq_eq_eq] at hpairs

/-- Lists with one image under a function are related element by element by having one image. -/
theorem forall₂_of_map_eq {α β : Type} {f : α → β} {as bs : List α} (h : as.map f = bs.map f) :
    List.Forall₂ (fun a b => f a = f b) as bs := by
  rw [← List.forall₂_eq_eq_eq, List.forall₂_map_left_iff, List.forall₂_map_right_iff] at h
  exact h

/-- In lists related element by element the elements at one place are related. -/
theorem rel_getElem? {α β : Type} {R : α → β → Prop} {as : List α} {bs : List β}
    (h : List.Forall₂ R as bs) (i : Nat) : Option.Rel R as[i]? bs[i]? := by
  induction h generalizing i with
  | nil => exact .none
  | cons hab hrest ih =>
    cases i with
    | zero => exact .some hab
    | succ i => exact ih i

/-- Related lists are related as lists of their elements. -/
theorem forall₂_and_mem {α β : Type} {R : α → β → Prop} {as : List α} {bs : List β}
    (h : List.Forall₂ R as bs) :
    List.Forall₂ (fun a b => R a b ∧ a ∈ as ∧ b ∈ bs) as bs := by
  obtain ⟨hlength, hpairs⟩ := List.forall₂_iff_zip.1 h
  exact List.forall₂_iff_zip.2 ⟨hlength, fun hab => ⟨hpairs hab, List.of_mem_zip hab⟩⟩

/-- Functions that agree on related elements agree on optional elements that are related. -/
theorem map_eq_of_rel {α β γ : Type} {R : α → β → Prop} {f : α → γ} {g : β → γ} {a : Option α}
    {b : Option β} (h : Option.Rel R a b) (hfg : ∀ {a b}, R a b → f a = g b) :
    a.map f = b.map g := by
  cases h with
  | none => rfl
  | some hab => exact congrArg some (hfg hab)

/-- Optional elements that are related make lists that are. -/
theorem rel_toList {α β : Type} {R : α → β → Prop} {a : Option α} {b : Option β}
    (h : Option.Rel R a b) : List.Forall₂ R a.toList b.toList := by
  cases h with
  | none => exact .nil
  | some hab => exact .cons hab .nil

namespace Compilation

/-- Related declarations have one metadata name and related parents, and the programs are of one
size. -/
structure Follows (R : TypeDecl → TypeDecl → Prop) (c c' : Compilation) : Prop where
  /-- Related declarations have one metadata name. -/
  name_eq : ∀ {d d'}, R d d' → d.metadataName = d'.metadataName
  /-- Related declarations have related parents. -/
  parents : ∀ {d d'}, R d d' → List.Forall₂ R (c.parents d) (c'.parents d')
  /-- There are as many declarations. -/
  length_eq : c.types.length = c'.types.length

namespace Follows

variable {R : TypeDecl → TypeDecl → Prop} {c c' : Compilation} {ds ds' : List TypeDecl}

/-- Of related declarations the new ones are related. -/
theorem unknown (h : c.Follows R c') (known : List String) (hds : List.Forall₂ R ds ds') :
    List.Forall₂ R (Compilation.unknown known ds) (Compilation.unknown known ds') := by
  induction hds generalizing known with
  | nil => exact .nil
  | cons hd hrest ih =>
    rw [Compilation.unknown, Compilation.unknown, ← h.name_eq hd]
    split
    · exact ih known
    · exact .cons hd (ih _)

/-- From related declarations the searches find the same names. -/
theorem reachedIn_eq (h : c.Follows R c') (rounds : Nat) (known : List String)
    (hds : List.Forall₂ R ds ds') : c.reachedIn rounds known ds = c'.reachedIn rounds known ds' := by
  induction rounds generalizing known ds ds' with
  | zero => rfl
  | succ rounds ih =>
    cases hds with
    | nil => rfl
    | cons hd hrest =>
      have hall := List.Forall₂.cons hd hrest
      have hnext := h.unknown known (List.rel_flatMap hall fun _ _ => h.parents)
      rw [reachedIn, reachedIn, map_eq_of_forall₂ hnext h.name_eq]
      exact ih _ hnext

variable {d d' e e' : TypeDecl}

/-- Related declarations derive from the same types. -/
theorem derivesFrom_eq (h : c.Follows R c') (hd : R d d') (he : R e e') :
    c.derivesFrom d e = c'.derivesFrom d' e' := by
  have hstart : List.Forall₂ R [d] [d'] := .cons hd .nil
  rw [derivesFrom, derivesFrom, reached, reached, h.length_eq, h.name_eq hd, h.name_eq he,
    h.reachedIn_eq _ _ hstart]

/-- Some of related declarations derives from a type in both programs or in none. -/
theorem any_derivesFrom_eq (h : c.Follows R c') (hds : List.Forall₂ R ds ds') (he : R e e') :
    ds.any (c.derivesFrom · e) = ds'.any (c'.derivesFrom · e') := by
  have hmap := map_eq_of_forall₂ hds fun hd => h.derivesFrom_eq hd he
  have hany := congrArg (List.any · id) hmap
  rwa [List.any_map, List.any_map] at hany

end Follows

end Compilation

end SceneWiring
