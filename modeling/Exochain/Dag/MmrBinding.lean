/-
**Membership and position binding of mountain range proofs.**

An accepted proof shows that the leaf is in the range (`accepted_mem_leaves`). It says less about the
position. The verifier keeps only as many low bits of it as the proof has siblings and has no
number of leaves to compare it with, so at one position every peak has its own accepted leaf:
`position_bound_iff` gives the positions at which they are all the same.

The root says all about the leaves: `root_binds_leaves`.
-/

import Exochain.Dag.MmrProofs

set_option linter.unusedSectionVars false

namespace Exochain.ExoDag

open Foundation ExoCore

namespace Mmr

/-! ### Membership -/

/-- **Membership.** The leaf of an accepted proof was appended, unless two distinct strings hashed to
build the range, to compute its root or to verify the proof have one digest. Any number of siblings
is allowed, in both builds. -/
theorem accepted_mem_leaves (build : Build) (blake3 : Blake3) (leaves : List Hash256)
    (leaf : Hash256) (position : ℕ) (proof : MmrProof)
    (accepted : verifyProof build blake3 (root blake3 (appendAll blake3 leaves)) leaf position proof =
      .ok true) :
    leaf ∈ leaves ∨
      CollisionIn blake3
        (rootInputs blake3 leaves ++ verifyInputs build blake3 leaf position proof) := by
  by_cases free : CollisionIn blake3
      (rootInputs blake3 leaves ++ verifyInputs build blake3 leaf position proof)
  · exact .inr free
  · have accepts : Accepts build blake3 (root blake3 (appendAll blake3 leaves)) leaf position proof :=
      accepted
    obtain ⟨mountain, found, member, _⟩ := accepts.sound free
      (fun s => List.mem_append_left _) (fun s => List.mem_append_right _)
    have inRange : leaf ∈ (MountainRange.ofLeaves leaves).leaves :=
      List.mem_flatMap.mpr ⟨mountain, List.mem_of_getElem? found, member⟩
    rw [MountainRange.leaves_ofLeaves] at inRange
    exact .inl inRange

namespace ThreeLeaves

/-- The proof of the last leaf: it is a peak of its own. -/
def lastProof : MmrProof := { siblings := [], peakIndex := 1, peaks := [pairHash, leafHash 3] }

/-- The last leaf of three, accepted at its position. -/
theorem accepted_mem_leaves_last :
    verifyProof ⟨true⟩ blake3 (root blake3 (appendAll blake3 leaves)) (data 3) 2 lastProof =
      .ok true ∧
    (data 3 ∈ leaves ∨ CollisionIn blake3
      (rootInputs blake3 leaves ++ verifyInputs ⟨true⟩ blake3 (data 3) 2 lastProof)) := by
  have accepted : verifyProof ⟨true⟩ blake3 (root blake3 (appendAll blake3 leaves)) (data 3) 2
      lastProof = .ok true := by decide
  exact ⟨accepted, accepted_mem_leaves ⟨true⟩ blake3 leaves (data 3) 2 lastProof accepted⟩

end ThreeLeaves

/-! ### Positions -/

section Position

variable (build : Build) (blake3 : Blake3) (leaves : List Hash256) (position : ℕ)

/-- Two proofs accepted at the position are for one leaf, and none is accepted past the last leaf,
unless two distinct strings hashed in these computations have one digest. -/
def PositionBound : Prop :=
  (∀ leaf leaf' proof proof',
    Accepts build blake3 (root blake3 (appendAll blake3 leaves)) leaf position proof →
    Accepts build blake3 (root blake3 (appendAll blake3 leaves)) leaf' position proof' →
    leaf = leaf' ∨ CollisionIn blake3 (rootInputs blake3 leaves ++
      (verifyInputs build blake3 leaf position proof ++
        verifyInputs build blake3 leaf' position proof'))) ∧
  (leaves.length ≤ position → ∀ leaf proof,
    Accepts build blake3 (root blake3 (appendAll blake3 leaves)) leaf position proof →
    CollisionIn blake3
      (rootInputs blake3 leaves ++ verifyInputs build blake3 leaf position proof))

/-- The position is in range, and every peak has the same leaf at the remainder of the position. -/
def OneLeaf : Prop :=
  position < leaves.length ∧ ∀ k peak, (appendAll blake3 leaves).peaks[k]? = some peak →
    leaves[(appendAll blake3 leaves).peakOffset k + position % peak.leafCount]? = leaves[position]?

end Position

/-- The leaf of the `k`-th peak at the remainder of a position. -/
theorem getElem?_peak_remainder {blake3 : Blake3} {leaves : List Hash256} {k : ℕ} {peak : Peak}
    {mountain : Mountain Hash256} (represents : peak.Represents blake3 mountain)
    (found : (MountainRange.ofLeaves leaves).mountains[k]? = some mountain) (position : ℕ) :
    leaves[(appendAll blake3 leaves).peakOffset k + position % peak.leafCount]? =
      some (mountain.tree.leafAt position) := by
  have here := MountainRange.getElem?_leaves_offset found position
  rwa [MountainRange.leaves_ofLeaves, ← peakOffset_appendAll blake3, ← represents.leafCount_eq] at here

section Bound

variable {build : Build} {blake3 : Blake3} {leaves : List Hash256} {position : ℕ}

/-- Without a collision, an accepted leaf is the one of some peak at the remainder of the
position. -/
theorem Accepts.exists_peak (fits : leaves.length < 2 ^ 64) {leaf : Hash256} {proof : MmrProof}
    {inputs : List (List UInt8)}
    (accepted : Accepts build blake3 (root blake3 (appendAll blake3 leaves)) leaf position proof)
    (free : ¬ CollisionIn blake3 inputs) (rootIn : ∀ s ∈ rootInputs blake3 leaves, s ∈ inputs)
    (verifyIn : ∀ s ∈ verifyInputs build blake3 leaf position proof, s ∈ inputs) :
    ∃ k peak, (appendAll blake3 leaves).peaks[k]? = some peak ∧
      leaves[(appendAll blake3 leaves).peakOffset k + position % peak.leafCount]? = some leaf := by
  obtain ⟨mountain, found, _, isLeaf⟩ := accepted.sound free rootIn verifyIn
  obtain ⟨peak, foundPeak, represents⟩ := peak_of_mountain blake3 found
  refine ⟨_, peak, foundPeak, ?_⟩
  rw [getElem?_peak_remainder represents found, isLeaf (height_lt_of_fits fits found)]

/-- Strings that the range has hashed already add no collision. -/
theorem honest_free (free : ¬ CollisionIn blake3 (rootInputs blake3 leaves))
    {inputs : List (List UInt8)} (known : ∀ s ∈ inputs, s ∈ rootInputs blake3 leaves) :
    ¬ CollisionIn blake3 (rootInputs blake3 leaves ++ inputs) := by
  refine fun collision => free (collision.mono fun s member => ?_)
  rcases List.mem_append.mp member with old | new
  · exact old
  · exact known s new

/-- One leaf at the remainder in all peaks binds the position. -/
theorem positionBound_of_oneLeaf (fits : leaves.length < 2 ^ 64)
    (one : OneLeaf blake3 leaves position) : PositionBound build blake3 leaves position := by
  obtain ⟨inside, agree⟩ := one
  refine ⟨fun leaf leaf' proof proof' accepted accepted' => ?_, fun outside => by omega⟩
  by_cases collision : CollisionIn blake3 (rootInputs blake3 leaves ++
      (verifyInputs build blake3 leaf position proof ++
        verifyInputs build blake3 leaf' position proof'))
  · exact .inr collision
  · left
    have rootIn : ∀ s ∈ rootInputs blake3 leaves, s ∈ rootInputs blake3 leaves ++
        (verifyInputs build blake3 leaf position proof ++
          verifyInputs build blake3 leaf' position proof') :=
      fun s member => List.mem_append_left _ member
    obtain ⟨k, peak, found, here⟩ := accepted.exists_peak fits collision rootIn
      fun s member => List.mem_append_right _ (List.mem_append_left _ member)
    obtain ⟨k', peak', found', here'⟩ := accepted'.exists_peak fits collision rootIn
      fun s member => List.mem_append_right _ (List.mem_append_right _ member)
    rw [agree k peak found] at here
    rw [agree k' peak' found', here] at here'
    exact Option.some.inj here'

/-- A bound position of a range with leaves and without collisions has one leaf. -/
theorem oneLeaf_of_positionBound (fits : leaves.length < 2 ^ 64)
    (free : ¬ CollisionIn blake3 (rootInputs blake3 leaves)) (some_leaf : leaves ≠ [])
    (bound : PositionBound build blake3 leaves position) : OneLeaf blake3 leaves position := by
  have inside : position < leaves.length := by
    -- otherwise the first mountain has an accepted path at this position
    by_contra outside
    obtain ⟨k, mountain, found, _⟩ :=
      prove_eq build blake3 (List.length_pos_iff.mpr some_leaf)
    obtain ⟨accepted, known⟩ := accepts_path build blake3 position found
      (height_lt_of_fits fits found)
    exact honest_free free known (bound.2 (not_lt.mp outside) _ _ accepted)
  refine ⟨inside, fun k peak foundPeak => ?_⟩
  obtain ⟨mountain, found, represents⟩ := mountain_of_peak foundPeak
  obtain ⟨own, ownMountain, foundOwn, here, _⟩ := prove_eq build blake3 inside
  obtain ⟨accepted, known⟩ := accepts_path build blake3 position found
      (height_lt_of_fits fits found)
  obtain ⟨acceptedOwn, knownOwn⟩ := accepts_path build blake3 position foundOwn
      (height_lt_of_fits fits foundOwn)
  rw [getElem?_peak_remainder represents found, here, Option.some.injEq]
  rcases bound.1 _ _ _ _ accepted acceptedOwn with same | collision
  · exact same
  · refine absurd collision (honest_free free fun s member => ?_)
    rcases List.mem_append.mp member with first | second
    · exact known s first
    · exact knownOwn s second

/-- Nothing is accepted against the root of the empty range without a collision. -/
theorem positionBound_nil : PositionBound build blake3 [] position := by
  have never : ∀ leaf proof,
      Accepts build blake3 (root blake3 (appendAll blake3 [])) leaf position proof →
      CollisionIn blake3
        (rootInputs blake3 [] ++ verifyInputs build blake3 leaf position proof) := by
    intro leaf proof accepted
    by_contra free
    obtain ⟨mountain, found, _⟩ := accepted.sound free
      (fun s => List.mem_append_left _) (fun s => List.mem_append_right _)
    cases found
  refine ⟨fun leaf leaf' proof proof' accepted _ => .inr ?_, fun _ => never⟩
  refine (never leaf proof accepted).mono fun s member => ?_
  rw [← List.append_assoc]
  exact List.mem_append_left _ member

end Bound

/-- **Position binding, exactly.** A position is bound precisely when the strings of the range
themselves collide, or the range is empty, or the position is in range and every peak carries the
same leaf at the remainder of the position. -/
theorem position_bound_iff (build : Build) (blake3 : Blake3) (leaves : List Hash256)
    (fits : leaves.length < 2 ^ 64) (position : ℕ) :
    PositionBound build blake3 leaves position ↔
      CollisionIn blake3 (rootInputs blake3 leaves) ∨ leaves = [] ∨
        OneLeaf blake3 leaves position := by
  constructor
  · intro bound
    by_cases collision : CollisionIn blake3 (rootInputs blake3 leaves)
    · exact .inl collision
    by_cases nothing : leaves = []
    · exact .inr (.inl nothing)
    · exact .inr (.inr (oneLeaf_of_positionBound fits collision nothing bound))
  · rintro (collision | rfl | one)
    · refine ⟨fun _ _ _ _ _ _ => .inr ?_, fun _ _ _ _ => ?_⟩
      · exact collision.mono fun s member => List.mem_append_left _ member
      · exact collision.mono fun s member => List.mem_append_left _ member
    · exact positionBound_nil
    · exact positionBound_of_oneLeaf fits one

namespace ThreeLeaves

/-- The exact condition at the position of the last leaf. -/
theorem position_bound_iff_last :
    leaves.length < 2 ^ 64 ∧ (PositionBound ⟨true⟩ blake3 leaves 2 ↔
      CollisionIn blake3 (rootInputs blake3 leaves) ∨ leaves = [] ∨ OneLeaf blake3 leaves 2) :=
  ⟨by decide, position_bound_iff ⟨true⟩ blake3 leaves (by decide) 2⟩

end ThreeLeaves

/-- Whatever the digest function, a range of one leaf accepts the proof of that leaf at position 1
as well. -/
theorem not_positionBound_past_end (build : Build) (blake3 : Blake3) (leaf : Hash256) :
    ¬ PositionBound build blake3 [leaf] 1 := by
  rintro ⟨_, bound⟩
  have found : (MountainRange.ofLeaves [leaf]).mountains[0]? = some (Mountain.single leaf) := rfl
  obtain ⟨accepted, known⟩ := accepts_path build blake3 1 found (Nat.zero_lt_succ 63)
  -- only one string is hashed at all
  have free : ¬ CollisionIn blake3 (rootInputs blake3 [leaf]) := by
    rintro ⟨x, xIn, y, yIn, different, _⟩
    exact different ((List.mem_singleton.mp xIn).trans (List.mem_singleton.mp yIn).symm)
  exact honest_free free known (bound (Nat.le_refl 1) _ _ accepted)

/-- **A position is not bound**: past the end of a range of one leaf, for every digest function, and
in range, where with three leaves the first and the last are both accepted at position 2. -/
theorem position_not_bound :
    (¬ ∃ (build : Build) (blake3 : Blake3),
      PositionBound build blake3 [ThreeLeaves.data 1] 1) ∧
    ¬ PositionBound ⟨true⟩ ThreeLeaves.blake3 ThreeLeaves.leaves 2 := by
  constructor
  · rintro ⟨build, blake3, bound⟩
    exact not_positionBound_past_end build blake3 _ bound
  · intro bound
    have free : ¬ CollisionIn ThreeLeaves.blake3
        (rootInputs ThreeLeaves.blake3 ThreeLeaves.leaves) := by decide
    obtain ⟨_, agree⟩ := oneLeaf_of_positionBound (by decide) free (by decide) bound
    obtain ⟨peak, found, represents⟩ := peak_of_mountain ThreeLeaves.blake3
      (rfl : (MountainRange.ofLeaves ThreeLeaves.leaves).mountains[0]? = some
        ⟨1, .node (.leaf (ThreeLeaves.data 1)) (.leaf (ThreeLeaves.data 2))⟩)
    have same := agree 0 peak found
    rw [represents.leafCount_eq] at same
    exact absurd same (by decide)

/-! ### The root -/

section Root

variable {blake3 : Blake3} {leaves leaves' : List Hash256} {inputs : List (List UInt8)}

/-- Ranges with the same peak hashes have the same leaves. -/
theorem leaves_eq_of_peakHashes_eq (free : ¬ CollisionIn blake3 inputs)
    (rootIn : ∀ s ∈ rootInputs blake3 leaves, s ∈ inputs)
    (rootIn' : ∀ s ∈ rootInputs blake3 leaves', s ∈ inputs)
    (same : (appendAll blake3 leaves).peakHashes = (appendAll blake3 leaves').peakHashes) :
    leaves = leaves' := by
  rw [peakHashes_appendAll, peakHashes_appendAll] at same
  have treesIn : ∀ m ∈ (MountainRange.ofLeaves leaves).mountains,
      ∀ s ∈ m.tree.inputs (mmrHasher blake3), s ∈ inputs := fun m member s input =>
    rootIn s (List.mem_append_left _ (inputs_subset_buildInputs blake3 leaves m member s input))
  have treesIn' : ∀ m ∈ (MountainRange.ofLeaves leaves').mountains,
      ∀ s ∈ m.tree.inputs (mmrHasher blake3), s ∈ inputs := fun m member s input =>
    rootIn' s (List.mem_append_left _ (inputs_subset_buildInputs blake3 leaves' m member s input))
  -- mountain by mountain
  have ranges : (MountainRange.ofLeaves leaves).leaves = (MountainRange.ofLeaves leaves').leaves := by
    unfold MountainRange.leaves
    generalize (MountainRange.ofLeaves leaves).mountains = mountains at same treesIn
    generalize (MountainRange.ofLeaves leaves').mountains = mountains' at same treesIn'
    induction mountains generalizing mountains' with
    | nil => rw [List.map_eq_nil_iff.mp same.symm]
    | cons mountain mountains ih =>
      cases mountains' with
      | nil => cases same
      | cons mountain' mountains' =>
        rw [List.map_cons, List.map_cons, List.cons.injEq] at same
        obtain ⟨here, later⟩ := List.forall_mem_cons.mp treesIn
        obtain ⟨here', later'⟩ := List.forall_mem_cons.mp treesIn'
        have first := digest_binds (mmrHasher blake3) free mountain.tree mountain'.tree here here'
          same.1
        rw [List.flatMap_cons, List.flatMap_cons, ih later mountains' same.2 later', Mountain.leaves,
          Mountain.leaves, first]
  rwa [MountainRange.leaves_ofLeaves, MountainRange.leaves_ofLeaves] at ranges

variable (blake3) in
/-- A range with leaves has a peak, hashed from a string of a tree. -/
theorem exists_peak_of_leaves (some_leaf : leaves ≠ []) :
    ∃ s ∈ rootInputs blake3 leaves, TreeString s ∧
      blake3 s ∈ (appendAll blake3 leaves).peakHashes := by
  have someMountain : (MountainRange.ofLeaves leaves).mountains ≠ [] := by
    intro none
    have empty : (MountainRange.ofLeaves leaves).leaves = [] := by
      rw [MountainRange.leaves, none, List.flatMap_nil]
    rw [MountainRange.leaves_ofLeaves] at empty
    exact some_leaf empty
  have somePeak : (appendAll blake3 leaves).peakHashes ≠ [] := by
    rw [peakHashes_appendAll]
    exact fun none => someMountain (List.map_eq_nil_iff.mp none)
  obtain ⟨peak, member⟩ := List.exists_mem_of_ne_nil _ somePeak
  obtain ⟨s, hashed, rfl, shape⟩ := peaksFrom_appendAll blake3 leaves peak member
  exact ⟨s, hashed, shape, member⟩

/-- Equal roots, equal leaves, where one of the ranges has leaves. -/
theorem leaves_eq_of_root_eq_of_ne_nil (free : ¬ CollisionIn blake3 inputs)
    (rootIn : ∀ s ∈ rootInputs blake3 leaves, s ∈ inputs)
    (rootIn' : ∀ s ∈ rootInputs blake3 leaves', s ∈ inputs) (some_leaf : leaves ≠ [])
    (same : root blake3 (appendAll blake3 leaves) = root blake3 (appendAll blake3 leaves')) :
    leaves = leaves' := by
  obtain ⟨s, hashed, shape, named⟩ := exists_peak_of_leaves blake3 some_leaf
  have fromTrees : PeaksFrom blake3 inputs (appendAll blake3 leaves').peakHashes := by
    intro peak member
    obtain ⟨s', hashed', equal, shape'⟩ := peaksFrom_appendAll blake3 leaves' peak member
    exact ⟨s', rootIn' s' hashed', equal, shape'⟩
  have peaks := peaks_eq_of_bag_eq free (fun s member => rootIn s (List.mem_append_right _ member))
    (fun s member => rootIn' s (List.mem_append_right _ member)) (rootIn s hashed) shape named
    fromTrees same
  exact leaves_eq_of_peakHashes_eq free rootIn rootIn' peaks

/-- **Equal roots, equal leaves**, unless two of the strings hashed for them collide. -/
theorem leaves_eq_of_root_eq (free : ¬ CollisionIn blake3 inputs)
    (rootIn : ∀ s ∈ rootInputs blake3 leaves, s ∈ inputs)
    (rootIn' : ∀ s ∈ rootInputs blake3 leaves', s ∈ inputs)
    (same : root blake3 (appendAll blake3 leaves) = root blake3 (appendAll blake3 leaves')) :
    leaves = leaves' := by
  by_cases empty : leaves = []
  · by_cases empty' : leaves' = []
    · rw [empty, empty']
    · exact (leaves_eq_of_root_eq_of_ne_nil free rootIn' rootIn empty' same.symm).symm
  · exact leaves_eq_of_root_eq_of_ne_nil free rootIn rootIn' empty same

/-- **The root binds the leaves**, their order and their number: two ranges with one root are of one
list, unless two distinct strings that were hashed for them have one digest. -/
theorem root_binds_leaves (blake3 : Blake3) (leaves leaves' : List Hash256) :
    root blake3 (appendAll blake3 leaves) = root blake3 (appendAll blake3 leaves') →
      leaves = leaves' ∨
        CollisionIn blake3 (rootInputs blake3 leaves ++ rootInputs blake3 leaves') := by
  intro same
  rw [or_iff_not_imp_right]
  exact fun free => leaves_eq_of_root_eq free (fun s => List.mem_append_left _)
    (fun s => List.mem_append_right _) same

end Root

namespace ThreeLeaves

/-- The sum of the bytes, which forgets their order. -/
def checksum : Blake3 := fun bytes => digestOf (bytes.map UInt8.toNat).sum

/-- The leaves with the first two exchanged. -/
def exchanged : List Hash256 := [data 2, data 1, data 3]

/-- Under the checksum both orders have one root, and the strings of the pairs collide. -/
theorem exchanged_collide :
    root checksum (appendAll checksum leaves) = root checksum (appendAll checksum exchanged) ∧
      CollisionIn checksum (rootInputs checksum leaves ++ rootInputs checksum exchanged) := by
  have same : root checksum (appendAll checksum leaves) =
      root checksum (appendAll checksum exchanged) := by decide +kernel
  exact ⟨same, (root_binds_leaves checksum leaves exchanged same).resolve_left (by decide)⟩

end ThreeLeaves

end Mmr

end Exochain.ExoDag
