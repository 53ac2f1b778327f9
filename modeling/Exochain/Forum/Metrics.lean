/-
**`decision-forum` — the latency percentile of the metrics.**

The percentile is read at one place of a sorted copy: the number of entries times 95, divided by 100 and
rounded up, less one. An empty list has the percentile zero.

* `percentileIndex_spec` — where the place is.
* **`percentile95_nearestRank`** — the place is in range, and what stands there is the nearest-rank
  percentile of the list, in whatever order its entries are.
-/

import Exochain.Foundation.Machine
import Exochain.Foundation.OrderStatistics

namespace Exochain.DecisionForum

open Foundation

/-- The place of the percentile among `count` entries, from their number times 95. -/
def percentileIndex (count product : ℕ) : ℕ := min ((product + 99) / 100) count - 1

/-- The 95th percentile of a latency distribution. -/
def percentile95 (build : Build) (values : List UInt64) : Except Fault UInt64 :=
  if values.isEmpty then .ok 0
  else do
    let sorted := values.mergeSort
    let product ← build.mul 64 sorted.length 95
    indexVec sorted (percentileIndex sorted.length product)

/-- **The place is in range**, and as many entries as it has before it are too few. -/
theorem percentileIndex_spec {count : ℕ} (positive : 0 < count) :
    percentileIndex count (count * 95) < count ∧
      95 * count ≤ 100 * (percentileIndex count (count * 95) + 1) ∧
        100 * percentileIndex count (count * 95) < 95 * count := by
  unfold percentileIndex
  omega

/-- The value of the percentile, from the sorted copy. -/
theorem percentile95_spec (build : Build) {values : List UInt64} (nonempty : values ≠ [])
    (fits : values.length * 95 < 2 ^ 64) :
    ∃ v, percentile95 build values = .ok v ∧ NearestRank 95 values v := by
  have copy : values.mergeSort.Perm values := List.mergeSort_perm values _
  have sorted : values.mergeSort.Pairwise (· ≤ ·) := List.pairwise_mergeSort' (· ≤ ·) values
  have positive : 0 < values.mergeSort.length := by
    rw [copy.length_eq]
    exact List.length_pos_iff.mpr nonempty
  obtain ⟨inside, enough, least⟩ := percentileIndex_spec positive
  have rank := (nearestRank_getElem sorted inside enough least).perm copy
  refine ⟨_, ?_, rank⟩
  have product : build.mul 64 values.mergeSort.length 95 = .ok (values.mergeSort.length * 95) :=
    Build.mul_of_lt (copy.length_eq.symm ▸ fits)
  simp only [percentile95, List.isEmpty_iff, if_neg nonempty, product]
  exact indexVec_eq_ok_iff.mpr (List.getElem?_eq_getElem inside)

/-- **`percentile_95` is the nearest-rank 95th percentile** of every list that is not empty and whose length
times 95 fits the word, whatever the order of its entries. -/
theorem percentile95_nearestRank (build : Build) {values : List UInt64} (nonempty : values ≠ [])
    (fits : values.length * 95 < 2 ^ 64) :
    ∃ v, percentile95 build values = .ok v ∧ NearestRank 95 values v ∧
      ∀ permuted : List UInt64, permuted.Perm values → percentile95 build permuted = .ok v := by
  obtain ⟨v, computed, rank⟩ := percentile95_spec build nonempty fits
  refine ⟨v, computed, rank, fun permuted perm => ?_⟩
  have some_entry : permuted ≠ [] := fun empty => nonempty (List.nil_perm.mp (empty ▸ perm))
  obtain ⟨w, computed', rank'⟩ := percentile95_spec build some_entry (perm.length_eq ▸ fits)
  rw [computed', rank.unique (rank'.perm perm)]

/-- Of three values, two of them equal, the greatest. -/
theorem percentile95_three :
    ∃ v, percentile95 ⟨true⟩ [7, 3, 7] = .ok v ∧ NearestRank 95 [7, 3, 7] v ∧
      ∀ permuted : List UInt64, permuted.Perm [7, 3, 7] → percentile95 ⟨true⟩ permuted = .ok v :=
  percentile95_nearestRank ⟨true⟩ (by decide) (by decide)

end Exochain.DecisionForum
