/-!
# Stable sorting

Sorting by insertion that keeps elements of equal rank in their order.
-/

namespace SceneWiring

/-- An element put before the first one that it may precede. -/
def insertBy {α : Type} (le : α → α → Bool) (x : α) : List α → List α
  | [] => [x]
  | y :: rest => if le x y then x :: y :: rest else y :: insertBy le x rest

/-- A list in order, elements of equal rank as before. -/
def sortBy {α : Type} (le : α → α → Bool) (xs : List α) : List α := xs.foldr (insertBy le) []

theorem insertBy_perm {α : Type} (le : α → α → Bool) (x : α) (xs : List α) :
    (insertBy le x xs).Perm (x :: xs) := by
  induction xs with
  | nil => exact .refl _
  | cons y rest ih =>
    rw [insertBy]
    split
    · exact .refl _
    · exact (ih.cons y).trans (.swap x y rest)

/-- Sorting moves elements and neither drops nor adds any. -/
theorem sortBy_perm {α : Type} (le : α → α → Bool) (xs : List α) : (sortBy le xs).Perm xs := by
  induction xs with
  | nil => exact .refl _
  | cons x rest ih => exact (insertBy_perm le x _).trans (ih.cons x)

/-- A list that is in order already stays as it is. -/
theorem sortBy_eq_self {α : Type} {le : α → α → Bool} {xs : List α}
    (h : xs.Pairwise fun x y => le x y = true) : sortBy le xs = xs := by
  induction xs with
  | nil => rfl
  | cons x rest ih =>
    obtain ⟨hx, hrest⟩ := List.pairwise_cons.1 h
    have hsort : sortBy le (x :: rest) = insertBy le x (sortBy le rest) := rfl
    rw [hsort, ih hrest]
    cases rest with
    | nil => rfl
    | cons y rest => rw [insertBy, if_pos (hx y List.mem_cons_self)]

/-- Sorting by ranks that a map keeps comes to the same before and after the map. -/
theorem sortBy_map {α β : Type} {le : α → α → Bool} {le' : β → β → Bool} {f : α → β}
    (h : ∀ x y, le' (f x) (f y) = le x y) (xs : List α) :
    sortBy le' (xs.map f) = (sortBy le xs).map f := by
  have hinsert (x : α) (ys : List α) :
      insertBy le' (f x) (ys.map f) = (insertBy le x ys).map f := by
    induction ys with
    | nil => rfl
    | cons y rest ih =>
      rw [List.map_cons, insertBy, insertBy, h]
      split
      · rfl
      · rw [ih, List.map_cons]
  induction xs with
  | nil => rfl
  | cons x rest ih =>
    have hsort : sortBy le (x :: rest) = insertBy le x (sortBy le rest) := rfl
    have hsort' : sortBy le' (f x :: rest.map f) = insertBy le' (f x) (sortBy le' (rest.map f)) :=
      rfl
    rw [List.map_cons, hsort, hsort', ih, hinsert]

end SceneWiring
