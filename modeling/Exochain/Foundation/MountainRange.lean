/-
**Mountain ranges.**

A range of perfect trees of strictly decreasing height, the shape of a binary counter: a new leaf is
a tree of height zero, and equal heights at the end of the range are joined until none is left. The
heights are in the type of a range, so a range is always in that shape.

* `leaves_ofLeaves` — the leaves, read along the range, are what was pushed, in order.
* `heights_eq` — **the heights are the positions of the one bits of the number of leaves**.
* `getElem?_leaves_offset` — the leaf that a position leads to in the `k`-th mountain, as a leaf of
  the range: the mountain's offset plus the remainder of the position.
* `offset_add_mod` — **a position inside a mountain is its offset plus its own remainder**. The
  offset of a mountain is a sum of larger powers of two, so it is aligned (`dvd_offset`).
-/

import Exochain.Foundation.Merkle

set_option linter.unusedSectionVars false

namespace Foundation

/-- A perfect tree with its height. -/
structure Mountain (α : Type*) where
  height : ℕ
  tree : PerfectTree α height

namespace Mountain

variable {α β δ : Type*}

/-- A mountain of one leaf. -/
def single (x : α) : Mountain α := ⟨0, .leaf x⟩

/-- Join two mountains of one height. -/
def merge (left right : Mountain α) (same : left.height = right.height) : Mountain α :=
  ⟨left.height + 1, .node left.tree (same.symm ▸ right.tree)⟩

/-- The leaves of the mountain. -/
def leaves (mountain : Mountain α) : List α := mountain.tree.leaves

@[simp] theorem length_leaves (mountain : Mountain α) :
    mountain.leaves.length = 2 ^ mountain.height := mountain.tree.length_leaves

@[simp] theorem leaves_merge (left right : Mountain α) (same : left.height = right.height) :
    (merge left right same).leaves = left.leaves ++ right.leaves := by
  obtain ⟨height, left⟩ := left
  obtain ⟨height', right⟩ := right
  obtain rfl : height = height' := same
  rfl

/-- Join the last mountains of a range, given last first, with a new one while the heights agree. -/
def joinTrailing : List (Mountain α) → Mountain α → List (Mountain α)
  | [], new => [new]
  | last :: rest, new =>
    if same : last.height = new.height then joinTrailing rest (merge last new same)
    else new :: last :: rest

/-- Joining keeps the heights apart. -/
theorem joinTrailing_pairwise {trailing : List (Mountain α)} {new : Mountain α}
    (increasing : trailing.Pairwise (fun low high => low.height < high.height))
    (least : ∀ mountain ∈ trailing, new.height ≤ mountain.height) :
    (joinTrailing trailing new).Pairwise (fun low high => low.height < high.height) := by
  induction trailing generalizing new with
  | nil => exact List.pairwise_singleton _ _
  | cons last rest ih =>
    obtain ⟨above, increasing'⟩ := List.pairwise_cons.mp increasing
    rw [joinTrailing]
    split
    · exact ih increasing' above
    · rename_i different
      have less : new.height < last.height :=
        lt_of_le_of_ne (least last List.mem_cons_self) fun equal => different equal.symm
      refine List.pairwise_cons.mpr ⟨fun mountain member => ?_, increasing⟩
      rcases List.mem_cons.mp member with rfl | later
      · exact less
      · exact less.trans (above mountain later)

/-- Joining keeps the leaves in order. -/
theorem leaves_joinTrailing (trailing : List (Mountain α)) (new : Mountain α) :
    (joinTrailing trailing new).reverse.flatMap leaves =
      trailing.reverse.flatMap leaves ++ new.leaves := by
  induction trailing generalizing new with
  | nil => simp [joinTrailing]
  | cons last rest ih =>
    rw [joinTrailing]
    split
    · rw [ih, leaves_merge]
      simp
    · simp

end Mountain

open Mountain

/-- **A range of mountains of strictly decreasing height.** -/
structure MountainRange (α : Type*) where
  mountains : List (Mountain α)
  decreasing : mountains.Pairwise fun high low => low.height < high.height

namespace MountainRange

variable {α : Type*}

/-- The range without leaves. -/
def empty : MountainRange α := ⟨[], List.Pairwise.nil⟩

/-- Push a leaf at the end. -/
def push (range : MountainRange α) (x : α) : MountainRange α where
  mountains := (joinTrailing range.mountains.reverse (single x)).reverse
  decreasing := by
    rw [List.pairwise_reverse]
    refine joinTrailing_pairwise (List.pairwise_reverse.mpr range.decreasing) ?_
    exact fun mountain _ => Nat.zero_le mountain.height

/-- The range of a list of leaves. -/
def ofLeaves (xs : List α) : MountainRange α := xs.foldl push empty

/-- The leaves along the range. -/
def leaves (range : MountainRange α) : List α := range.mountains.flatMap Mountain.leaves

theorem leaves_push (range : MountainRange α) (x : α) : (range.push x).leaves = range.leaves ++ [x] := by
  show (joinTrailing range.mountains.reverse (single x)).reverse.flatMap Mountain.leaves = _
  rw [leaves_joinTrailing, List.reverse_reverse]
  rfl

theorem ofLeaves_append_singleton (xs : List α) (x : α) :
    ofLeaves (xs ++ [x]) = (ofLeaves xs).push x := by
  rw [ofLeaves, List.foldl_append]
  rfl

/-- **The leaves of a range are what was pushed.** -/
@[simp] theorem leaves_ofLeaves (xs : List α) : (ofLeaves xs).leaves = xs := by
  induction xs using List.reverseRecOn with
  | nil => rfl
  | append_singleton xs x ih => rw [ofLeaves_append_singleton, leaves_push, ih]

/-- The number of leaves before the `k`-th mountain. -/
def offset (range : MountainRange α) (k : ℕ) : ℕ :=
  ((range.mountains.take k).map fun mountain => 2 ^ mountain.height).sum

theorem length_flatMap_leaves (mountains : List (Mountain α)) :
    (mountains.flatMap Mountain.leaves).length =
      (mountains.map fun mountain => 2 ^ mountain.height).sum := by
  rw [List.length_flatMap]
  simp only [Mountain.length_leaves]

/-- **The heights of a range are the positions of the one bits of its length**, the greatest first. -/
theorem heights_eq (range : MountainRange α) :
    range.mountains.map Mountain.height = range.leaves.length.bitIndices.reverse := by
  have increasing : (range.mountains.map Mountain.height).reverse.SortedLT := by
    rw [List.sortedLT_iff_pairwise, List.pairwise_reverse, List.pairwise_map]
    exact range.decreasing
  have total : range.leaves.length =
      ((range.mountains.map Mountain.height).reverse.map fun height => 2 ^ height).sum := by
    rw [leaves, length_flatMap_leaves, List.map_reverse, List.sum_reverse, List.map_map]
    rfl
  rw [total, Nat.bitIndices_sum_map_two_pow increasing, List.reverse_reverse]
/-- The leaf that a position leads to in the `k`-th mountain. -/
theorem getElem?_leaves_offset {range : MountainRange α} {k : ℕ} {mountain : Mountain α}
    (found : range.mountains[k]? = some mountain) (position : ℕ) :
    range.leaves[range.offset k + position % 2 ^ mountain.height]? =
      some (mountain.tree.leafAt position) := by
  obtain ⟨inside, here⟩ := List.getElem?_eq_some_iff.mp found
  have split : range.mountains = range.mountains.take k ++ mountain :: range.mountains.drop (k + 1) := by
    rw [← here, List.cons_getElem_drop_succ, List.take_append_drop]
  have before : ((range.mountains.take k).flatMap Mountain.leaves).length = range.offset k :=
    length_flatMap_leaves _
  have small : position % 2 ^ mountain.height < mountain.leaves.length := by
    rw [Mountain.length_leaves]
    exact Nat.mod_lt _ (by positivity)
  rw [leaves, split, List.flatMap_append, List.flatMap_cons,
    List.getElem?_append_right (by omega), before, Nat.add_sub_cancel_left,
    List.getElem?_append_left small]
  exact mountain.tree.getElem?_leaves_mod position

/-- A mountain is no larger than its range. -/
theorem pow_height_le {range : MountainRange α} {mountain : Mountain α}
    (member : mountain ∈ range.mountains) : 2 ^ mountain.height ≤ range.leaves.length := by
  rw [leaves, length_flatMap_leaves]
  exact List.single_le_sum (fun _ _ => Nat.zero_le _) _ (List.mem_map.mpr ⟨mountain, member, rfl⟩)

/-- **The offset of a mountain is a multiple of its size.** -/
theorem dvd_offset {range : MountainRange α} {k : ℕ} {mountain : Mountain α}
    (found : range.mountains[k]? = some mountain) : 2 ^ mountain.height ∣ range.offset k := by
  obtain ⟨inside, here⟩ := List.getElem?_eq_some_iff.mp found
  refine List.dvd_sum fun size member => ?_
  obtain ⟨taller, inFront, rfl⟩ := List.mem_map.mp member
  obtain ⟨j, below, there⟩ := List.getElem_of_mem inFront
  rw [List.length_take] at below
  rw [List.getElem_take] at there
  have less := List.pairwise_iff_getElem.mp range.decreasing j k (by omega) inside (by omega)
  rw [there, here] at less
  exact pow_dvd_pow 2 less.le

/-- A position inside a mountain is its offset plus its own remainder. -/
theorem offset_add_mod {range : MountainRange α} {k : ℕ} {mountain : Mountain α}
    (found : range.mountains[k]? = some mountain) {position : ℕ} (low : range.offset k ≤ position)
    (high : position < range.offset k + 2 ^ mountain.height) :
    range.offset k + position % 2 ^ mountain.height = position := by
  obtain ⟨multiple, aligned⟩ := dvd_offset found
  obtain ⟨inner, rfl⟩ := Nat.exists_eq_add_of_le low
  rw [aligned, Nat.mul_add_mod, Nat.mod_eq_of_lt (by omega)]

/-- The leaf at a position inside a mountain. -/
theorem getElem?_leaves_of_inside {range : MountainRange α} {k : ℕ} {mountain : Mountain α}
    (found : range.mountains[k]? = some mountain) {position : ℕ} (low : range.offset k ≤ position)
    (high : position < range.offset k + 2 ^ mountain.height) :
    range.leaves[position]? = some (mountain.tree.leafAt position) := by
  have here := getElem?_leaves_offset found position
  rwa [offset_add_mod found low high] at here

end MountainRange

end Foundation
