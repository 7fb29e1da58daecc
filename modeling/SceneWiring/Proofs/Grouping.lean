import Mathlib.Data.List.Sort
import Mathlib.Data.Prod.Lex
import SceneWiring.Proofs.Emission
/-!
# Groups of additions

Grouping partitions the additions by class. Each group is in the order of discovery, and its
statements come in ascending rank, the order first and then the number of discovery. Where the
numbers in a class are distinct, both arrangements are the only ones of their kind, so the order in
which additions are handed in decides nothing.
-/

namespace SceneWiring

/-- Sorting is the insertion sort of the library. -/
theorem sortBy_eq_insertionSort {α : Type} (le : α → α → Bool) (xs : List α) :
    sortBy le xs = xs.insertionSort fun x y => le x y = true := by
  have hinsert (x : α) (ys : List α) :
      insertBy le x ys = ys.orderedInsert (fun x y => le x y = true) x := by
    induction ys with
    | nil => rfl
    | cons y rest ih => rw [insertBy, List.orderedInsert_cons, ih]
  induction xs with
  | nil => rfl
  | cons x rest ih =>
    have hsort : sortBy le (x :: rest) = insertBy le x (sortBy le rest) := rfl
    rw [hsort, hinsert, ih, List.insertionSort_cons]

section Ranks

variable {α β : Type} [LinearOrder β] {le : α → α → Bool} {rank : α → β}

/-- What is sorted by ranks has ascending ranks. -/
theorem pairwise_sortBy (hle : ∀ x y, le x y = true ↔ rank x ≤ rank y) (xs : List α) :
    (sortBy le xs).Pairwise fun x y => rank x ≤ rank y := by
  have htotal : Std.Total fun x y => le x y = true := by
    refine ⟨fun x y => ?_⟩
    rw [hle, hle]
    exact le_total (rank x) (rank y)
  have htrans : IsTrans α fun x y => le x y = true := by
    refine ⟨fun x y z hxy hyz => ?_⟩
    rw [hle] at hxy hyz ⊢
    exact hxy.trans hyz
  have hsorted := List.pairwise_insertionSort (fun x y => le x y = true) xs
  rw [← sortBy_eq_insertionSort] at hsorted
  exact hsorted.imp fun h => (hle _ _).1 h

/-- Elements that may stand on either side of each other keep their order. -/
theorem filter_sortBy {p : α → Bool} (hp : ∀ x y, p x = true → p y = true → le x y = true)
    (xs : List α) : (sortBy le xs).filter p = xs.filter p := by
  have hpairwise : (xs.filter p).Pairwise fun x y => le x y = true := by
    refine List.pairwise_of_forall_mem_list fun x hx y hy => ?_
    exact hp x y (List.mem_filter.1 hx).2 (List.mem_filter.1 hy).2
  have hsub : (xs.filter p).Sublist (sortBy le xs) := by
    rw [sortBy_eq_insertionSort]
    exact List.sublist_insertionSort hpairwise List.filter_sublist
  have hfilter := hsub.filter p
  rw [List.filter_filter] at hfilter
  simp only [Bool.and_self] at hfilter
  have hlength := ((sortBy_perm le xs).filter p).length_eq
  exact (hfilter.eq_of_length hlength.symm).symm

/-- Where ranks are distinct, sorting by them gives the only arrangement with ascending ranks. -/
theorem eq_sortBy_iff (hle : ∀ x y, le x y = true ↔ rank x ≤ rank y) {xs : List α}
    (hdistinct : xs.Pairwise fun x y => rank x ≠ rank y) (ys : List α) :
    ys = sortBy le xs ↔ ys.Perm xs ∧ ys.Pairwise fun x y => rank x ≤ rank y := by
  have hinjective : ∀ x ∈ xs, ∀ y ∈ xs, rank x = rank y → x = y := by
    have hnodup : (xs.map rank).Nodup := List.pairwise_map.2 hdistinct
    exact fun x hx y hy => List.inj_on_of_nodup_map hnodup hx hy
  constructor
  · rintro rfl
    exact ⟨sortBy_perm le xs, pairwise_sortBy hle xs⟩
  · rintro ⟨hperm, hsorted⟩
    refine List.Perm.eq_of_pairwise (fun x y hx hy hxy hyx => ?_) hsorted
      (pairwise_sortBy hle xs) (hperm.trans (sortBy_perm le xs).symm)
    exact hinjective x (hperm.mem_iff.1 hx) y ((sortBy_perm le xs).mem_iff.1 hy)
      (le_antisymm hxy hyx)

end Ranks

namespace Addition

/-- The rank among the statements of a class: the order, then the number of discovery. -/
def rank (a : Addition) : Int ×ₗ Nat := toLex (a.order, a.seq)

/-- Discovery is compared by number. -/
theorem seqLe_iff (a b : Addition) : a.seqLe b = true ↔ a.seq ≤ b.seq := decide_eq_true_iff

/-- Statements are compared by rank. -/
theorem orderLe_iff (a b : Addition) : a.orderLe b = true ↔ a.rank ≤ b.rank := by
  rw [rank, rank, Prod.Lex.toLex_le_toLex]
  simp [orderLe, seqLe]

/-- The additions of each class have numbers of their own. -/
def Numbered (additions : List Addition) : Prop :=
  additions.Pairwise fun a b => a.owner = b.owner → a.seq ≠ b.seq

instance (additions : List Addition) : Decidable (Numbered additions) :=
  inferInstanceAs (Decidable (List.Pairwise _ _))

/-- The additions of one class have distinct numbers. -/
theorem Numbered.pairwise_filter {additions : List Addition} (h : Numbered additions)
    (owner : Nat) : (additions.filter (·.owner == owner)).Pairwise fun a b => a.seq ≠ b.seq := by
  refine (h.sublist List.filter_sublist).imp_of_mem fun {a b} ha hb hab => ?_
  have hao : a.owner = owner := by simpa using (List.mem_filter.1 ha).2
  have hbo : b.owner = owner := by simpa using (List.mem_filter.1 hb).2
  exact hab (hao.trans hbo.symm)

end Addition

/-- Classes do not depend on the order of the additions. -/
theorem owners_eq_of_perm {additions others : List Addition} (h : others.Perm additions) :
    owners others = owners additions := by
  refine List.Pairwise.eq_of_mem_iff (owners_ascending _) (owners_ascending _) fun n => ?_
  rw [mem_owners, mem_owners]
  exact exists_congr fun a => and_congr_left fun _ => h.mem_iff

/-- Lists of elements by key, over distinct keys that cover all elements, put together again. -/
theorem flatMap_filter_perm {α : Type} (key : α → Nat) {keys : List Nat} (hkeys : keys.Nodup)
    {xs : List α} (hcover : ∀ x ∈ xs, key x ∈ keys) :
    (keys.flatMap fun k => xs.filter (key · == k)).Perm xs := by
  induction keys generalizing xs with
  | nil =>
    cases xs with
    | nil => exact .refl _
    | cons x rest => exact absurd (hcover x List.mem_cons_self) List.not_mem_nil
  | cons k rest ih =>
    obtain ⟨hk, hrest⟩ := List.nodup_cons.1 hkeys
    have hcover' : ∀ x ∈ xs.filter fun x => !(key x == k), key x ∈ rest := by
      intro x hx
      obtain ⟨hmem, hne⟩ := List.mem_filter.1 hx
      have hne' : key x ≠ k := by simpa using hne
      exact (List.mem_cons.1 (hcover x hmem)).resolve_left hne'
    -- The elements of other keys than the first are split by the remaining keys.
    have hothers := ih hrest hcover'
    have hsame : (rest.flatMap fun l => (xs.filter fun x => !(key x == k)).filter (key · == l)) =
        rest.flatMap fun l => xs.filter (key · == l) := by
      refine List.flatMap_congr fun l hl => ?_
      have hlk : l ≠ k := fun heq => hk (heq ▸ hl)
      rw [List.filter_filter]
      refine List.filter_congr fun x _ => ?_
      by_cases hx : key x = l
      · simp [hx, hlk]
      · simp [hx]
    rw [hsame] at hothers
    rw [List.flatMap_cons]
    exact (hothers.append_left _).trans (List.filter_append_perm _ xs)

namespace ClassUnit

/-- A group is the additions of its class, sorted by number of discovery. -/
theorem additions_of_mem_group {additions : List Addition} {u : ClassUnit}
    (h : u ∈ group additions) :
    u.owner ∈ owners additions ∧
      u.additions = sortBy Addition.seqLe (additions.filter (·.owner == u.owner)) := by
  obtain ⟨owner, howner, rfl⟩ := List.mem_map.1 h
  exact ⟨howner, rfl⟩

/-- A group holds exactly the additions of its class. -/
theorem mem_additions_of_mem_group {additions : List Addition} {u : ClassUnit}
    (h : u ∈ group additions) (a : Addition) :
    a ∈ u.additions ↔ a ∈ additions ∧ a.owner = u.owner := by
  obtain ⟨-, hu⟩ := additions_of_mem_group h
  rw [hu, (sortBy_perm _ _).mem_iff, List.mem_filter, beq_iff_eq]

/-- The groups hold all additions and nothing else. -/
theorem flatMap_group_perm (additions : List Addition) :
    ((group additions).flatMap (·.additions)).Perm additions := by
  have hsorted : ((group additions).flatMap (·.additions)).Perm
      ((owners additions).flatMap fun owner => additions.filter (·.owner == owner)) := by
    rw [group, List.flatMap_map]
    exact List.Perm.flatMap_left _ fun owner _ => sortBy_perm _ _
  have hnodup : (owners additions).Nodup := (owners_ascending additions).imp fun h => h.ne
  have hcover : ∀ a ∈ additions, a.owner ∈ owners additions := fun a ha =>
    mem_owners.2 ⟨a, ha, rfl⟩
  exact hsorted.trans (flatMap_filter_perm Addition.owner hnodup hcover)

/-- Additions with numbers of their own may be handed in in any order. -/
theorem group_eq_of_perm {additions others : List Addition} (h : Addition.Numbered additions)
    (hperm : others.Perm additions) : group others = group additions := by
  rw [group, group, owners_eq_of_perm hperm]
  refine List.map_congr_left fun owner _ => ?_
  have hsorted : sortBy Addition.seqLe (others.filter (·.owner == owner)) =
      sortBy Addition.seqLe (additions.filter (·.owner == owner)) := by
    refine (eq_sortBy_iff Addition.seqLe_iff (h.pairwise_filter owner) _).2 ⟨?_, ?_⟩
    · exact (sortBy_perm _ _).trans (hperm.filter _)
    · exact pairwise_sortBy Addition.seqLe_iff _
  rw [hsorted]

/-- The statements of a unit are those of its additions. -/
theorem ordered_perm (u : ClassUnit) : u.ordered.Perm u.additions := sortBy_perm _ _

/-- The statements of a unit come in ascending rank. -/
theorem pairwise_ordered (u : ClassUnit) : u.ordered.Pairwise fun a b => a.rank ≤ b.rank :=
  pairwise_sortBy Addition.orderLe_iff _

/-- Statements of equal rank come in the order of the additions. -/
theorem filter_ordered (u : ClassUnit) (r : Int ×ₗ Nat) :
    (u.ordered.filter fun a => a.rank = r) = u.additions.filter fun a => a.rank = r := by
  refine filter_sortBy (fun a b ha hb => ?_) _
  have ha' : a.rank = r := by simpa using ha
  have hb' : b.rank = r := by simpa using hb
  rw [Addition.orderLe_iff, ha', hb']

/-- Grouping is a partition by class. The classes ascend, and each group is not empty, is for one
class only, and is in the order of discovery, additions of one number in the order in which they are
handed in; together the groups hold just the additions. If the additions of each class have numbers
of their own, then in whatever order they are handed in the groups are the same, and so are the
units that are rendered; and the statements of a group are the only arrangement of its additions
with ascending ranks. -/
theorem group_partitions_additions (additions : List Addition) :
    ((group additions).map (·.owner)).Pairwise (· < ·) ∧
    (∀ u ∈ group additions, u.additions ≠ [] ∧ (∀ a ∈ u.additions, a.owner = u.owner) ∧
      (u.additions.Pairwise fun a b => a.seq ≤ b.seq) ∧
      ∀ seq, (u.additions.filter fun a => a.seq = seq) =
        additions.filter fun a => a.owner = u.owner ∧ a.seq = seq) ∧
    ((group additions).flatMap (·.additions)).Perm additions ∧
    (Addition.Numbered additions →
      (∀ others : List Addition, others.Perm additions → group others = group additions ∧
        ∀ (c : Compilation) (config : Config),
          (group others).filterMap (c.renderUnit? config) =
            (group additions).filterMap (c.renderUnit? config)) ∧
      ∀ u ∈ group additions, ∀ arranged : List Addition, arranged = u.ordered ↔
        arranged.Perm u.additions ∧ arranged.Pairwise fun a b => a.rank ≤ b.rank) := by
  refine ⟨?_, fun u hu => ⟨?_, ?_, ?_, ?_⟩, flatMap_group_perm additions, fun h => ⟨?_, ?_⟩⟩
  · have hmap : (group additions).map (·.owner) = owners additions := by
      rw [group, List.map_map]
      exact List.map_id _
    rw [hmap]
    exact owners_ascending additions
  · obtain ⟨howner, -⟩ := additions_of_mem_group hu
    obtain ⟨a, ha, hau⟩ := mem_owners.1 howner
    exact List.ne_nil_of_mem ((mem_additions_of_mem_group hu a).2 ⟨ha, hau⟩)
  · intro a ha
    exact ((mem_additions_of_mem_group hu a).1 ha).2
  · rw [(additions_of_mem_group hu).2]
    exact pairwise_sortBy Addition.seqLe_iff _
  · intro seq
    have hstable : ∀ a b : Addition, decide (a.seq = seq) = true → decide (b.seq = seq) = true →
        a.seqLe b = true := by
      intro a b ha hb
      rw [Addition.seqLe_iff]
      have ha' : a.seq = seq := by simpa using ha
      have hb' : b.seq = seq := by simpa using hb
      omega
    rw [(additions_of_mem_group hu).2, filter_sortBy hstable, List.filter_filter]
    refine List.filter_congr fun a _ => ?_
    rw [Bool.decide_and, Bool.and_comm, beq_eq_decide]
  · intro others hperm
    have hgroup := group_eq_of_perm h hperm
    exact ⟨hgroup, fun c config => by rw [hgroup]⟩
  · intro u hu arranged
    refine eq_sortBy_iff Addition.orderLe_iff ?_ arranged
    have hnumbers : u.additions.Pairwise fun a b => a.seq ≠ b.seq := by
      rw [(additions_of_mem_group hu).2]
      refine (sortBy_perm _ _).symm.pairwise (h.pairwise_filter u.owner) fun {a b} hab => ?_
      exact hab.symm
    refine hnumbers.imp fun hab hrank => hab ?_
    exact congrArg (fun r => (ofLex r).2) hrank

/-- Calls for two classes, not in the order of their classes, ranks or numbers. -/
def mixedCalls : List Addition :=
  [⟨1, 0, 1, .callMethod "Draw"⟩, ⟨0, 0, 0, .callMethod "Load"⟩, ⟨1, 5, 0, .callMethod "Show"⟩,
   ⟨1, -2, 2, .callMethod "Open"⟩]

/-- The mixed calls make the same two groups when they are handed in backwards, and in the second
group the calls can be arranged by rank in one way only. -/
theorem group_of_reversed_calls :
    Addition.Numbered mixedCalls ∧ mixedCalls.reverse.Perm mixedCalls ∧
      group mixedCalls.reverse = group mixedCalls ∧
      ∀ arranged : List Addition,
        arranged.Perm [⟨1, 5, 0, .callMethod "Show"⟩, ⟨1, 0, 1, .callMethod "Draw"⟩,
          ⟨1, -2, 2, .callMethod "Open"⟩] ∧
            (arranged.Pairwise fun a b => a.rank ≤ b.rank) →
          arranged = [⟨1, -2, 2, .callMethod "Open"⟩, ⟨1, 0, 1, .callMethod "Draw"⟩,
            ⟨1, 5, 0, .callMethod "Show"⟩] := by
  have hnumbered : Addition.Numbered mixedCalls := by decide
  have hreverse := List.reverse_perm mixedCalls
  obtain ⟨-, -, -, hunique⟩ := group_partitions_additions mixedCalls
  obtain ⟨hgroup, harranged⟩ := hunique hnumbered
  refine ⟨hnumbered, hreverse, (hgroup _ hreverse).1, fun arranged h => ?_⟩
  have hmem : (⟨1, [⟨1, 5, 0, .callMethod "Show"⟩, ⟨1, 0, 1, .callMethod "Draw"⟩,
      ⟨1, -2, 2, .callMethod "Open"⟩]⟩ : ClassUnit) ∈ group mixedCalls := by decide
  exact ((harranged _ hmem arranged).2 h).trans (by decide)

end ClassUnit

end SceneWiring
