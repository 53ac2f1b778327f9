/-
**How the peaks of the Merkle mountain range lie in memory.**

What the refinement to mountains says, read off the peaks themselves: their heights, the arrays of their
nodes and the bottom rows of these.

* `Peak.Represents.laidOut` — a peak that represents a mountain is a tree in heap order.
* `Peak.Represents.bottomRow_eq` — its bottom row is the hashes of the mountain's leaves.
* **`peaks_laid_out`** — after any list of appends.
-/

import Exochain.Dag.MmrTrees

set_option linter.unusedSectionVars false

namespace Exochain.ExoDag

open Foundation ExoCore

namespace Mmr

namespace Peak

/-- **The peak is a perfect tree in heap order**: every entry above the bottom row is the hash of its two
children, and the first one is the hash of the peak. -/
structure LaidOut (blake3 : Blake3) (peak : Peak) : Prop where
  leafCount_eq : peak.leafCount = 2 ^ peak.height
  length_nodes : peak.nodes.length = 2 ^ (peak.height + 1) - 1
  top : peak.nodes[0]? = some peak.hash
  inner : ∀ index < 2 ^ peak.height - 1, ∃ left right,
    peak.nodes[2 * index + 1]? = some left ∧ peak.nodes[2 * index + 2]? = some right ∧
      peak.nodes[index]? = some (hashPair blake3 left right)

/-- The leaves of the tree, which start at index `leafCount - 1`. -/
def bottomRow (peak : Peak) : List Hash256 := peak.nodes.drop (peak.leafCount - 1)

variable {blake3 : Blake3} {peak : Peak} {mountain : Mountain Hash256}

theorem Represents.laidOut (represents : peak.Represents blake3 mountain) : peak.LaidOut blake3 := by
  obtain ⟨hash, height, leafCount, length, heap⟩ := represents
  refine ⟨?_, ?_, ?_, fun index above => ?_⟩
  · rw [leafCount, height]
  · rw [height]
    omega
  · rw [hash]
    exact heap.top
  · rw [height] at above
    exact heap.inner (by omega)

/-- The bottom row of a peak is the hashes of the leaves. -/
theorem Represents.bottomRow_eq (represents : peak.Represents blake3 mountain) :
    peak.bottomRow = mountain.leaves.map (hashLeaf blake3) := by
  obtain ⟨-, -, leafCount, length, heap⟩ := represents
  have row := heap.bottom_row
  have all : (peak.nodes.drop (2 ^ mountain.height - 1)).length ≤ 2 ^ mountain.height := by
    rw [List.length_drop]
    rw [pow_succ] at length
    omega
  rw [Nat.zero_add, Nat.one_mul, List.take_of_length_le all] at row
  rw [bottomRow, leafCount]
  exact row

end Peak

/-- **The layout of the peaks.** After any list of appends the heights of the peaks decrease and are the
positions of the one bits of the number of leaves; every peak is a perfect tree in heap order; and the bottom
rows, one peak after the other, are the hashes of the leaves in the order of the appends. -/
theorem peaks_laid_out (blake3 : Blake3) (leaves : List Hash256) :
    ((appendAll blake3 leaves).peaks.map Peak.height).Pairwise (fun high low => low < high) ∧
    (∀ k, k ∈ (appendAll blake3 leaves).peaks.map Peak.height ↔ leaves.length.testBit k = true) ∧
    (∀ peak ∈ (appendAll blake3 leaves).peaks, peak.LaidOut blake3) ∧
    (appendAll blake3 leaves).peaks.flatMap Peak.bottomRow = leaves.map (hashLeaf blake3) := by
  obtain ⟨-, represent⟩ := appendAll_represents blake3 leaves
  have heights : (appendAll blake3 leaves).peaks.map Peak.height =
      (MountainRange.ofLeaves leaves).mountains.map Mountain.height :=
    map_eq_of_represents represent fun _ _ represents => represents.height_eq
  have rows : (appendAll blake3 leaves).peaks.map Peak.bottomRow =
      (MountainRange.ofLeaves leaves).mountains.map fun mountain =>
        mountain.leaves.map (hashLeaf blake3) :=
    map_eq_of_represents represent fun _ _ represents => represents.bottomRow_eq
  have inOrder : (MountainRange.ofLeaves leaves).mountains.flatMap Mountain.leaves = leaves :=
    MountainRange.leaves_ofLeaves leaves
  refine ⟨?_, fun k => ?_, ?_, ?_⟩
  · rw [heights, List.pairwise_map]
    exact (MountainRange.ofLeaves leaves).decreasing
  · rw [heights, MountainRange.heights_eq, MountainRange.leaves_ofLeaves, List.mem_reverse,
      Nat.mem_bitIndices]
  · have both := represent.imp fun _ _ represents => And.intro represents.laidOut represents
    exact ((List.forall₂_and_left _ _).mp both).1
  · rw [List.flatMap_def, rows, ← List.flatMap_def, ← List.map_flatMap, inOrder]

end Mmr

end Exochain.ExoDag
