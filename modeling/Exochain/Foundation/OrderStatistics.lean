/-
**Entries of a sorted list, by counting.**

The entry at a place of a sorted list is told apart by two counts: more entries are at most it than stand
before the place, and of the entries below it none has that many at most it. Ties do not matter, and neither
does the order of the list that was sorted.

* `getElem_le_getElem` — the entries grow with their places.
* `lt_countP_le_getElem`, `countP_le_of_lt_getElem` — the two counts at a place of a sorted list.
* `NearestRank` — a percentile by the nearest rank, as a condition on counts.
* `nearestRank_getElem` — which place of a sorted list has it; `NearestRank.unique` — there is one value.
-/

import Mathlib

namespace Foundation

section OrderStatistics

variable {α : Type*} [LinearOrder α] {xs ys : List α} {v w : α} {percent : ℕ}

/-- The entries of a sorted list grow with their places. -/
theorem getElem_le_getElem (sorted : xs.Pairwise (· ≤ ·)) {i j : ℕ} (before : i ≤ j) (inside : j < xs.length) :
    xs[i] ≤ xs[j] := by
  rcases before.eq_or_lt with rfl | less
  · exact le_rfl
  · exact List.pairwise_iff_getElem.mp sorted i j _ inside less

/-- More entries are at most the one at a place than stand before the place. -/
theorem lt_countP_le_getElem (sorted : xs.Pairwise (· ≤ ·)) {index : ℕ} (inside : index < xs.length) :
    index < xs.countP (· ≤ xs[index]) := by
  have first : ∀ x ∈ xs.take (index + 1), decide (x ≤ xs[index]) = true := by
    intro x member
    obtain ⟨place, here, rfl⟩ := List.mem_iff_getElem.mp member
    rw [List.length_take] at here
    rw [List.getElem_take]
    exact decide_eq_true (getElem_le_getElem sorted (by omega) inside)
  have counted : (xs.take (index + 1)).countP (· ≤ xs[index]) = index + 1 := by
    rw [List.countP_eq_length.mpr first, List.length_take]
    omega
  have within := (List.take_sublist (index + 1) xs).countP_le (p := (· ≤ xs[index]))
  omega

/-- Of less than the entry at a place, at most so many are as stand before the place. -/
theorem countP_le_of_lt_getElem (sorted : xs.Pairwise (· ≤ ·)) {index : ℕ} (inside : index < xs.length)
    (less : w < xs[index]) : xs.countP (· ≤ w) ≤ index := by
  have later : (xs.drop index).countP (· ≤ w) = 0 := by
    rw [List.countP_eq_zero]
    intro x member small
    obtain ⟨place, here, rfl⟩ := List.mem_iff_getElem.mp member
    rw [List.length_drop] at here
    rw [List.getElem_drop, decide_eq_true_eq] at small
    have above : xs[index] ≤ xs[index + place] := getElem_le_getElem sorted (by omega) (by omega)
    exact absurd (above.trans small) (not_le.mpr less)
  calc xs.countP (· ≤ w) = (xs.take index).countP (· ≤ w) + (xs.drop index).countP (· ≤ w) := by
        rw [← List.countP_append, List.take_append_drop]
    _ ≤ index := by
        rw [later, Nat.add_zero]
        exact List.countP_le_length.trans (List.length_take_le _ _)

/-! ### Percentiles -/

/-- **The nearest-rank percentile of a list**: an entry that so many percent of the entries are at most,
and no lesser entry. -/
structure NearestRank (percent : ℕ) (xs : List α) (v : α) : Prop where
  mem : v ∈ xs
  enough : percent * xs.length ≤ 100 * xs.countP (· ≤ v)
  least : ∀ w ∈ xs, w < v → 100 * xs.countP (· ≤ w) < percent * xs.length

/-- The place in a sorted list. -/
theorem nearestRank_getElem (sorted : xs.Pairwise (· ≤ ·)) {index : ℕ} (inside : index < xs.length)
    (enough : percent * xs.length ≤ 100 * (index + 1)) (least : 100 * index < percent * xs.length) :
    NearestRank percent xs xs[index] := by
  have reached := lt_countP_le_getElem sorted inside
  refine ⟨List.getElem_mem inside, by omega, fun w _ less => ?_⟩
  have below := countP_le_of_lt_getElem sorted inside less
  omega

/-- The order of the list does not matter. -/
theorem NearestRank.perm (rank : NearestRank percent xs v) (perm : xs.Perm ys) :
    NearestRank percent ys v := by
  refine ⟨perm.mem_iff.mp rank.mem, ?_, fun w member less => ?_⟩
  · rw [← perm.length_eq, ← perm.countP_eq]
    exact rank.enough
  · rw [← perm.length_eq, ← perm.countP_eq]
    exact rank.least w (perm.mem_iff.mpr member) less

/-- **There is one value.** -/
theorem NearestRank.unique (rank : NearestRank percent xs v) (rank' : NearestRank percent xs w) :
    v = w := by
  rcases lt_trichotomy v w with less | same | more
  · exact absurd rank.enough (not_le.mpr (rank'.least v rank.mem less))
  · exact same
  · exact absurd rank'.enough (not_le.mpr (rank.least w rank'.mem more))

end OrderStatistics

end Foundation
