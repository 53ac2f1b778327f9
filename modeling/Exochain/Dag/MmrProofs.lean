/-
**What a mountain range proof proves.**

The verifier sees a leaf, a position, siblings, a peak index and peak hashes; it never sees the
number of leaves. Over the refinement of `Dag.MmrTrees` its walk is `climb`
(`walk_eq_climb`, `walk_of_index`), and:

* `accepts_path` — the path of a position in *any* mountain is accepted, together with that
  position: the verifier reads only as many low bits of it as there are siblings.
* `Accepts.sound` — **an accepted proof is such a path**, unless two of the strings hashed to build
  the range, to compute its root and to verify the proof collide.

Hence every leaf's proof verifies at its position (`prove_verifies`). What an accepted proof says
about the leaf and about the position is in `Dag.MmrBinding`.

The number of siblings of a proof is nowhere checked, and the verifier shifts by it:
`returnsInRange_iff` — **it stays within machine words exactly below 64 siblings**.
-/

import Exochain.Foundation.Blake3
import Exochain.Dag.MmrTrees

set_option linter.unusedSectionVars false

namespace Exochain.ExoDag

open Foundation ExoCore

namespace Mmr

/-! ### The verifier's walk -/

section Walk

variable {build : Build} {blake3 : Blake3}

/-- The string of one level, as a level of the tree hasher. -/
theorem walkInput_eq_levelInput (nodeIdx : ℕ) (current sibling : Hash256) :
    walkInput nodeIdx current sibling =
      (mmrHasher blake3).levelInput (decide (nodeIdx % 2 = 0), sibling) current := by
  unfold walkInput TreeHasher.levelInput
  rcases Nat.mod_two_eq_zero_or_one nodeIdx with even | odd
  · simp only [even, Nat.zero_ne_one, if_false, decide_true, if_true]
    rfl
  · simp only [odd, if_true, Nat.one_ne_zero, decide_false, Bool.false_eq_true, if_false]
    rfl

theorem walk_cons (sibling : Hash256) (rest : List Hash256) (nodeIdx : ℕ) (current : Hash256) :
    walk build blake3 (sibling :: rest) nodeIdx current = (build.sub 64 nodeIdx 1 >>= fun less =>
      walk build blake3 rest (less / 2) (blake3 (walkInput nodeIdx current sibling))) := by
  unfold walkInput
  rcases Nat.mod_two_eq_zero_or_one nodeIdx with even | odd
  · simp only [walk, even, Nat.zero_ne_one, if_false]
    rfl
  · simp only [walk, odd, if_true]
    rfl

/-- **A walk that ends is a climb**, along the given siblings and some sides. -/
theorem walk_eq_climb {siblings : List Hash256} {nodeIdx : ℕ} {current top : Hash256}
    (ended : walk build blake3 siblings nodeIdx current = .ok top) :
    ∃ path, path.map Prod.snd = siblings ∧ top = climb (mmrHasher blake3) path current ∧
      walkInputs build blake3 siblings nodeIdx current =
        climbInputs (mmrHasher blake3) path current := by
  induction siblings generalizing nodeIdx current with
  | nil =>
    cases ended
    exact ⟨[], rfl, rfl, rfl⟩
  | cons sibling rest ih =>
    rw [walk_cons, bind_eq_ok_iff] at ended
    obtain ⟨less, moved, above⟩ := ended
    obtain ⟨path, siblings, reaches, inputs⟩ := ih above
    refine ⟨(decide (nodeIdx % 2 = 0), sibling) :: path, ?_, ?_, ?_⟩
    · rw [List.map_cons, siblings]
    · rw [reaches, climb, ← walkInput_eq_levelInput]
      rfl
    · rw [walkInputs, moved, climbInputs, ← walkInput_eq_levelInput]
      exact congrArg _ inputs

/-- The index above a bottom index, and the side it is reached from. -/
theorem bottom_index_up (position depth : ℕ) :
    (2 ^ (depth + 1) - 1 + position % 2 ^ (depth + 1) - 1) / 2 =
        2 ^ depth - 1 + position / 2 % 2 ^ depth ∧
      decide ((2 ^ (depth + 1) - 1 + position % 2 ^ (depth + 1)) % 2 = 0) = position.testBit 0 := by
  have positive : 0 < 2 ^ depth := by positivity
  have half : position % (2 * 2 ^ depth) / 2 = position / 2 % 2 ^ depth :=
    Nat.mod_mul_right_div_self position 2 (2 ^ depth)
  have parity : position % (2 * 2 ^ depth) % 2 = position % 2 :=
    Nat.mod_mul_right_mod position 2 (2 ^ depth)
  rw [pow_succ', Nat.testBit_zero]
  constructor
  · omega
  · rw [decide_eq_decide]
    omega

/-- **From a bottom index the sides are the bits of the position.** -/
theorem walk_of_index (build : Build) (blake3 : Blake3) (siblings : List Hash256) (position : ℕ)
    (current : Hash256) :
    walk build blake3 siblings (2 ^ siblings.length - 1 + position % 2 ^ siblings.length) current =
        .ok (climb (mmrHasher blake3) (withSides position siblings) current) ∧
      walkInputs build blake3 siblings (2 ^ siblings.length - 1 + position % 2 ^ siblings.length)
          current =
        climbInputs (mmrHasher blake3) (withSides position siblings) current := by
  induction siblings generalizing position current with
  | nil => exact ⟨rfl, rfl⟩
  | cons sibling rest ih =>
    obtain ⟨up, side⟩ := bottom_index_up position rest.length
    have two : 2 ≤ 2 ^ (rest.length + 1) := Nat.le_self_pow (by omega) 2
    have moved : build.sub 64 (2 ^ (rest.length + 1) - 1 + position % 2 ^ (rest.length + 1)) 1 =
        .ok (2 ^ (rest.length + 1) - 1 + position % 2 ^ (rest.length + 1) - 1) :=
      Build.sub_of_le (by omega)
    obtain ⟨walked, inputs⟩ := ih (position / 2) (blake3 (walkInput
      (2 ^ (rest.length + 1) - 1 + position % 2 ^ (rest.length + 1)) current sibling))
    rw [List.length_cons]
    constructor
    · rw [walk_cons, moved]
      show walk build blake3 rest _ _ = _
      rw [up, walked, withSides, climb, ← side, ← walkInput_eq_levelInput]
      rfl
    · rw [walkInputs, moved]
      show _ :: walkInputs build blake3 rest _ _ = _
      rw [up, inputs, withSides, climbInputs, ← side, ← walkInput_eq_levelInput]
      rfl

/-- Below the word size the start index does not overflow, in any build. -/
theorem startIndex_of_lt (build : Build) (position : ℕ) {depth : ℕ} (shallow : depth < 64) :
    startIndex build position depth = .ok (2 ^ depth - 1 + position % 2 ^ depth) := by
  have positive : 0 < 2 ^ depth := by positivity
  have small : position % 2 ^ depth < 2 ^ depth := Nat.mod_lt _ positive
  have half : 2 ^ depth ≤ 2 ^ 63 := Nat.pow_le_pow_right (by omega) (by omega)
  unfold startIndex
  rw [Build.shl_one_of_lt shallow]
  show (build.sub 64 (2 ^ depth) 1 >>= _) = _
  rw [Build.sub_of_le (by omega)]
  exact Build.add_of_lt (by omega)

end Walk

/-! ### What acceptance is -/

section Accepts

variable {build : Build} {blake3 : Blake3} {mmrRoot leaf : Hash256} {position : ℕ} {proof : MmrProof}

/-- **The verifier accepts exactly when its walk ends in the named peak and the bag is the root.** -/
theorem accepts_iff : Accepts build blake3 mmrRoot leaf position proof ↔
    ∃ nodeIdx top, startIndex build position proof.siblings.length = .ok nodeIdx ∧
      walk build blake3 proof.siblings nodeIdx (hashLeaf blake3 leaf) = .ok top ∧
      proof.peaks[proof.peakIndex]? = some top ∧ bagPeaks blake3 proof.peaks = mmrRoot := by
  unfold Accepts verifyProof
  by_cases none : proof.peaks.isEmpty = true
  · rw [if_pos none, List.isEmpty_iff.mp none]
    simp
  by_cases outside : proof.peaks.length ≤ proof.peakIndex
  · rw [if_neg none, if_pos outside, List.getElem?_eq_none outside]
    simp
  rw [if_neg none, if_neg outside]
  simp only [bind_eq_ok_iff, indexVec_eq_ok_iff]
  constructor
  · rintro ⟨nodeIdx, started, current, walked, peak, found, answer⟩
    by_cases differs : current ≠ peak
    · rw [if_pos differs] at answer
      cases answer
    · rw [not_not] at differs
      subst differs
      rw [if_neg (by simp)] at answer
      exact ⟨nodeIdx, current, started, walked, found, by simpa [pure, Except.pure] using answer⟩
  · rintro ⟨nodeIdx, top, started, walked, found, bag⟩
    refine ⟨nodeIdx, started, top, walked, top, found, ?_⟩
    rw [if_neg (by simp), bag]
    simp [pure, Except.pure]

/-- The strings of a verification, once its start index is known. -/
theorem verifyInputs_of_start {nodeIdx : ℕ}
    (started : startIndex build position proof.siblings.length = .ok nodeIdx) :
    verifyInputs build blake3 leaf position proof = hashLeafInput leaf ::
      (walkInputs build blake3 proof.siblings nodeIdx (hashLeaf blake3 leaf) ++
        bagInputs proof.peaks) := by
  rw [verifyInputs, started]

/-- **An accepted proof climbs to the peak it names**, along its own siblings. The sides are the bits
of the position as long as the siblings are fewer than the bits of a word. -/
theorem Accepts.climbs (accepted : Accepts build blake3 mmrRoot leaf position proof) :
    ∃ path, path.map Prod.snd = proof.siblings ∧
      (proof.siblings.length < 64 → path = withSides position proof.siblings) ∧
      proof.peaks[proof.peakIndex]? =
        some (climb (mmrHasher blake3) path (hashLeaf blake3 leaf)) ∧
      bagPeaks blake3 proof.peaks = mmrRoot ∧
      verifyInputs build blake3 leaf position proof = (hashLeafInput leaf ::
        climbInputs (mmrHasher blake3) path (hashLeaf blake3 leaf)) ++ bagInputs proof.peaks := by
  obtain ⟨nodeIdx, top, started, walked, found, bag⟩ := accepts_iff.mp accepted
  rw [verifyInputs_of_start started]
  by_cases shallow : proof.siblings.length < 64
  · rw [startIndex_of_lt build position shallow] at started
    cases started
    obtain ⟨climbed, inputs⟩ := walk_of_index build blake3 proof.siblings position
      (hashLeaf blake3 leaf)
    rw [climbed, Except.ok.injEq] at walked
    refine ⟨withSides position proof.siblings, map_snd_withSides _ _, fun _ => rfl, ?_, bag, ?_⟩
    · rw [walked]
      exact found
    · rw [inputs, List.cons_append]
  · obtain ⟨path, siblings, reaches, inputs⟩ := walk_eq_climb walked
    refine ⟨path, siblings, fun less => absurd less shallow, ?_, bag, ?_⟩
    · rw [← reaches]
      exact found
    · rw [inputs, List.cons_append]

end Accepts

/-! ### The bag of peaks -/

/-- A leaf string or an inner string. -/
def TreeString (s : List UInt8) : Prop :=
  (∃ x, s = hashLeafInput x) ∨ ∃ left right, s = hashPairInput left right

/-- No string of a tree is the string of an empty bag. -/
theorem TreeString.ne_empty {s : List UInt8} (tree : TreeString s) : s ≠ tag "mmr:empty" := by
  rw [← List.append_nil (tag "mmr:empty")]
  rcases tree with ⟨x, rfl⟩ | ⟨left, right, rfl⟩
  · exact tagged_ne (by decide) (by decide) (by decide) _ _
  · exact tagged_ne (by decide) (by decide) (by decide) _ _

/-- No string of a tree is the string of a bag. -/
theorem TreeString.ne_peaks {s : List UInt8} (tree : TreeString s) (peaks : List Hash256) :
    s ≠ tag "mmr:peaks:" ++ concatBlocks peaks := by
  rcases tree with ⟨x, rfl⟩ | ⟨left, right, rfl⟩
  · exact tagged_ne (by decide) (by decide) (by decide) _ _
  · exact tagged_ne (by decide) (by decide) (by decide) _ _

theorem empty_ne_peaks (peaks : List Hash256) :
    tag "mmr:empty" ≠ tag "mmr:peaks:" ++ concatBlocks peaks := by
  rw [← List.append_nil (tag "mmr:empty")]
  exact tagged_ne (by decide) (by decide) (by decide) _ _

/-- A list of peaks hashed from tree strings among the inputs. -/
def PeaksFrom (blake3 : Blake3) (inputs : List (List UInt8)) (peaks : List Hash256) : Prop :=
  ∀ peak ∈ peaks, ∃ s ∈ inputs, peak = blake3 s ∧ TreeString s

/-- **Equal bags have equal peaks**, unless two of the inputs collide: if one list is hashed from
tree strings throughout, and the other names at least one such hash. -/
theorem peaks_eq_of_bag_eq {blake3 : Blake3} {inputs : List (List UInt8)}
    (free : ¬ CollisionIn blake3 inputs) {peaks peaks' : List Hash256}
    (bagIn : ∀ s ∈ bagInputs peaks, s ∈ inputs) (bagIn' : ∀ s ∈ bagInputs peaks', s ∈ inputs)
    {s : List UInt8} (sIn : s ∈ inputs) (tree : TreeString s) (named : blake3 s ∈ peaks)
    (fromTrees : PeaksFrom blake3 inputs peaks')
    (same : bagPeaks blake3 peaks = bagPeaks blake3 peaks') : peaks = peaks' := by
  match peaks, peaks' with
  | [], _ => cases named
  | [peak], [] =>
    rw [List.mem_singleton] at named
    subst named
    exact absurd (eq_of_hash_eq free sIn (bagIn' _ List.mem_cons_self) same) tree.ne_empty
  | [peak], [peak'] => exact congrArg (fun hash => [hash]) same
  | [peak], first :: second :: rest =>
    rw [List.mem_singleton] at named
    subst named
    exact absurd (eq_of_hash_eq free sIn (bagIn' _ List.mem_cons_self) same) (tree.ne_peaks _)
  | first :: second :: rest, [] =>
    exact absurd (eq_of_hash_eq free (bagIn' _ List.mem_cons_self) (bagIn _ List.mem_cons_self)
      same.symm) (empty_ne_peaks _)
  | first :: second :: rest, [peak'] =>
    obtain ⟨s', sIn', rfl, tree'⟩ := fromTrees peak' List.mem_cons_self
    exact absurd (eq_of_hash_eq free sIn' (bagIn _ List.mem_cons_self) same.symm) (tree'.ne_peaks _)
  | first :: second :: rest, first' :: second' :: rest' =>
    have strings := eq_of_hash_eq free (bagIn _ List.mem_cons_self) (bagIn' _ List.mem_cons_self) same
    exact concatBlocks_injective (by omega) (List.append_cancel_left strings)

/-! ### The peaks of a range built by appends -/

section Range

variable (blake3 : Blake3) (leaves : List Hash256)

/-- Peaks and mountains stand side by side. -/
theorem represents_getElem? {blake3 : Blake3} {leaves : List Hash256} {k : ℕ} {peak : Peak}
    {mountain : Mountain Hash256} (foundPeak : (appendAll blake3 leaves).peaks[k]? = some peak)
    (found : (MountainRange.ofLeaves leaves).mountains[k]? = some mountain) :
    peak.Represents blake3 mountain := by
  obtain ⟨inside, rfl⟩ := List.getElem?_eq_some_iff.mp foundPeak
  obtain ⟨inside', rfl⟩ := List.getElem?_eq_some_iff.mp found
  exact (appendAll_represents blake3 leaves).2.get inside inside'

/-- There is a mountain behind every peak. -/
theorem mountain_of_peak {blake3 : Blake3} {leaves : List Hash256} {k : ℕ} {peak : Peak}
    (found : (appendAll blake3 leaves).peaks[k]? = some peak) :
    ∃ mountain, (MountainRange.ofLeaves leaves).mountains[k]? = some mountain ∧
      peak.Represents blake3 mountain := by
  have inside : k < (MountainRange.ofLeaves leaves).mountains.length := by
    rw [← (appendAll_represents blake3 leaves).2.length_eq]
    exact (List.getElem?_eq_some_iff.mp found).1
  exact ⟨_, List.getElem?_eq_getElem inside,
    represents_getElem? found (List.getElem?_eq_getElem inside)⟩

/-- There is a peak before every mountain. -/
theorem peak_of_mountain (blake3 : Blake3) {leaves : List Hash256} {k : ℕ}
    {mountain : Mountain Hash256}
    (found : (MountainRange.ofLeaves leaves).mountains[k]? = some mountain) :
    ∃ peak, (appendAll blake3 leaves).peaks[k]? = some peak ∧ peak.Represents blake3 mountain := by
  have inside : k < (appendAll blake3 leaves).peaks.length := by
    rw [(appendAll_represents blake3 leaves).2.length_eq]
    exact (List.getElem?_eq_some_iff.mp found).1
  exact ⟨_, List.getElem?_eq_getElem inside,
    represents_getElem? (List.getElem?_eq_getElem inside) found⟩

/-- The peak hashes are the roots of the mountains. -/
theorem peakHashes_appendAll : (appendAll blake3 leaves).peakHashes =
    (MountainRange.ofLeaves leaves).mountains.map
      fun mountain => mountain.tree.digest (mmrHasher blake3) :=
  map_eq_of_represents (appendAll_represents blake3 leaves).2 fun _ _ is => is.hash_eq

/-- The leaf counts are the sizes of the mountains. -/
theorem leafCounts_appendAll : (appendAll blake3 leaves).peaks.map Peak.leafCount =
    (MountainRange.ofLeaves leaves).mountains.map fun mountain => 2 ^ mountain.height :=
  map_eq_of_represents (appendAll_represents blake3 leaves).2 fun _ _ is => is.leafCount_eq

/-- The number of leaves before the `k`-th peak. -/
def MerkleMountainRange.peakOffset (mmr : MerkleMountainRange) (k : ℕ) : ℕ :=
  ((mmr.peaks.take k).map Peak.leafCount).sum

theorem peakOffset_appendAll (k : ℕ) : (appendAll blake3 leaves).peakOffset k =
    (MountainRange.ofLeaves leaves).offset k := by
  unfold MerkleMountainRange.peakOffset MountainRange.offset
  rw [List.map_take, leafCounts_appendAll, List.map_take]

/-- The root hash of a mountain comes from a tree string hashed by an append. -/
theorem peaksFrom_appendAll :
    PeaksFrom blake3 (rootInputs blake3 leaves) (appendAll blake3 leaves).peakHashes := by
  intro peak member
  rw [peakHashes_appendAll] at member
  obtain ⟨mountain, mountainIn, rfl⟩ := List.mem_map.mp member
  obtain ⟨s, sIn, hashed, shape⟩ := mountain.tree.digest_eq_hash (mmrHasher blake3)
  refine ⟨s, ?_, hashed, shape⟩
  exact List.mem_append_left _ (inputs_subset_buildInputs blake3 leaves mountain mountainIn s sIn)

end Range

/-! ### Accepted proofs -/

section Sound

variable {build : Build} {blake3 : Blake3} {leaves : List Hash256} {leaf : Hash256} {position : ℕ}

/-- The path of a position in the `k`-th mountain, as a proof. -/
def honestProof (blake3 : Blake3) (leaves : List Hash256) (k : ℕ) (mountain : Mountain Hash256)
    (position : ℕ) : MmrProof :=
  { siblings := mountain.tree.siblings (mmrHasher blake3) position
    peakIndex := k
    peaks := (appendAll blake3 leaves).peakHashes }

/-- **The path of a position in any mountain is accepted with that position**, whether or not the
position belongs to the mountain, and its verification hashes nothing new. -/
theorem accepts_path (build : Build) (blake3 : Blake3) (position : ℕ) {k : ℕ}
    {mountain : Mountain Hash256}
    (found : (MountainRange.ofLeaves leaves).mountains[k]? = some mountain)
    (shallow : mountain.height < 64) :
    Accepts build blake3 (root blake3 (appendAll blake3 leaves)) (mountain.tree.leafAt position)
        position (honestProof blake3 leaves k mountain position) ∧
      ∀ s ∈ verifyInputs build blake3 (mountain.tree.leafAt position) position
        (honestProof blake3 leaves k mountain position), s ∈ rootInputs blake3 leaves := by
  have member : mountain ∈ (MountainRange.ofLeaves leaves).mountains := List.mem_of_getElem? found
  have depth : (honestProof blake3 leaves k mountain position).siblings.length = mountain.height :=
    mountain.tree.length_siblings (mmrHasher blake3) position
  have started := startIndex_of_lt build position shallow
  rw [← depth] at started
  obtain ⟨walked, inputs⟩ := walk_of_index build blake3
    (honestProof blake3 leaves k mountain position).siblings position
    (hashLeaf blake3 (mountain.tree.leafAt position))
  constructor
  · refine accepts_iff.mpr ⟨_, _, started, walked, ?_, rfl⟩
    show (appendAll blake3 leaves).peakHashes[k]? = some _
    rw [peakHashes_appendAll, List.getElem?_map, found, Option.map_some, Option.some.injEq]
    exact (climb_path (mmrHasher blake3) mountain.tree position).symm
  · intro s sIn
    rw [verifyInputs_of_start started, inputs, ← List.cons_append, List.mem_append] at sIn
    rcases sIn with inTree | inBag
    · have treeIn := climbInputs_path (mmrHasher blake3) mountain.tree position s inTree
      exact List.mem_append_left _ (inputs_subset_buildInputs blake3 leaves mountain member s treeIn)
    · exact List.mem_append_right _ inBag

/-- **An accepted proof is the path of a leaf in the mountain it names**, unless two of the inputs
collide, among which are the strings hashed for the root and by the verification. -/
theorem Accepts.sound {proof : MmrProof} {inputs : List (List UInt8)}
    (accepted : Accepts build blake3 (root blake3 (appendAll blake3 leaves)) leaf position proof)
    (free : ¬ CollisionIn blake3 inputs) (rootIn : ∀ s ∈ rootInputs blake3 leaves, s ∈ inputs)
    (verifyIn : ∀ s ∈ verifyInputs build blake3 leaf position proof, s ∈ inputs) :
    ∃ mountain, (MountainRange.ofLeaves leaves).mountains[proof.peakIndex]? = some mountain ∧
      leaf ∈ mountain.leaves ∧ (mountain.height < 64 → leaf = mountain.tree.leafAt position) := by
  obtain ⟨path, siblings, sides, found, bag, verified⟩ := accepted.climbs
  rw [verified, List.forall_mem_append] at verifyIn
  obtain ⟨pathIn, bagIn⟩ := verifyIn
  -- the proof carries the peaks of the range
  have peaks : proof.peaks = (appendAll blake3 leaves).peakHashes := by
    obtain ⟨s, sIn, hashed, shape⟩ := climb_eq_hash (mmrHasher blake3) path leaf
    have top : climb (mmrHasher blake3) path (hashLeaf blake3 leaf) = blake3 s := hashed
    have tree : TreeString s := shape.imp_left fun isLeaf => ⟨leaf, isLeaf⟩
    refine peaks_eq_of_bag_eq free bagIn ?_ (pathIn s sIn) tree ?_ ?_ bag
    · exact fun s member => rootIn s (List.mem_append_right _ member)
    · rw [← top]
      exact List.mem_of_getElem? found
    · intro peak member
      obtain ⟨s, sIn, both⟩ := peaksFrom_appendAll blake3 leaves peak member
      exact ⟨s, rootIn s sIn, both⟩
  rw [peaks, peakHashes_appendAll, List.getElem?_map, Option.map_eq_some_iff] at found
  obtain ⟨mountain, here, reaches⟩ := found
  have treeIn : ∀ s ∈ mountain.tree.inputs (mmrHasher blake3), s ∈ inputs := fun s member =>
    rootIn s (List.mem_append_left _
      (inputs_subset_buildInputs blake3 leaves mountain (List.mem_of_getElem? here) s member))
  obtain ⟨position', isPath, rfl⟩ :=
    climb_sound (mmrHasher blake3) free mountain.tree treeIn pathIn reaches.symm
  refine ⟨mountain, here, mountain.tree.leafAt_mem_leaves position', fun shallow => ?_⟩
  have depth : proof.siblings.length = mountain.height := by
    rw [← siblings, isPath, List.length_map, PerfectTree.path, length_withSides,
      PerfectTree.length_siblings]
  rw [sides (by omega), PerfectTree.path] at isPath
  obtain ⟨_, bits⟩ := withSides_eq_iff.mp isPath
  refine mountain.tree.leafAt_congr fun k below => ?_
  exact (bits k (by omega)).symm

end Sound

/-- A range that fits a vector has no tree as deep as a word. -/
theorem height_lt_of_fits {leaves : List Hash256} (fits : leaves.length < 2 ^ 64) {k : ℕ}
    {mountain : Mountain Hash256}
    (found : (MountainRange.ofLeaves leaves).mountains[k]? = some mountain) :
    mountain.height < 64 := by
  have size := MountainRange.pow_height_le (List.mem_of_getElem? found)
  rw [MountainRange.leaves_ofLeaves] at size
  exact (Nat.pow_lt_pow_iff_right (by omega)).mp (size.trans_lt fits)

/-! ### Completeness -/

/-- The search finds the peak whose range of positions contains the given one. -/
theorem findPeak_spec {peaks : List Peak} {position : ℕ} (i leafOffset : ℕ)
    (low : leafOffset ≤ position)
    (high : position < leafOffset + (peaks.map Peak.leafCount).sum) :
    ∃ k peak, peaks[k]? = some peak ∧
      findPeak position peaks i leafOffset =
        (i + k, leafOffset + ((peaks.take k).map Peak.leafCount).sum) ∧
      leafOffset + ((peaks.take k).map Peak.leafCount).sum ≤ position ∧
      position < leafOffset + ((peaks.take k).map Peak.leafCount).sum + peak.leafCount := by
  induction peaks generalizing i leafOffset with
  | nil => simp at high; omega
  | cons peak rest ih =>
    rw [findPeak]
    by_cases here : position < leafOffset + peak.leafCount
    · rw [if_pos here]
      exact ⟨0, peak, rfl, by simp, by simpa using low, by simpa using here⟩
    · rw [if_neg here]
      rw [List.map_cons, List.sum_cons] at high
      obtain ⟨k, found, inside, answer, below, above⟩ :=
        ih (i + 1) (leafOffset + peak.leafCount) (by omega) (by omega)
      refine ⟨k + 1, found, inside, ?_, ?_, ?_⟩
      · rw [answer, List.take_succ_cons, List.map_cons, List.sum_cons, Prod.mk.injEq]
        omega
      · rw [List.take_succ_cons, List.map_cons, List.sum_cons]
        omega
      · rw [List.take_succ_cons, List.map_cons, List.sum_cons]
        omega

/-- The path of a leaf in its peak. -/
theorem proofPath_eq {blake3 : Blake3} {peak : Peak} {mountain : Mountain Hash256}
    (represents : peak.Represents blake3 mountain) {localIdx : ℕ} (position : ℕ)
    (remainder : localIdx = position % 2 ^ mountain.height) :
    peak.proofPath localIdx = mountain.tree.siblings (mmrHasher blake3) position := by
  have walked := Peak.siblingsFrom_bottom mountain.tree position represents.heap
  rw [Nat.zero_add, Nat.one_mul, ← remainder, Peak.siblingsFrom_zero, List.append_nil] at walked
  unfold Peak.proofPath
  rw [represents.leafCount_eq]
  by_cases small : 2 ^ mountain.height ≤ 1
  · rw [if_pos small]
    have flat : mountain.height = 0 := by
      by_contra positive
      exact absurd small (not_le.mpr (Nat.one_lt_two_pow positive))
    symm
    rw [← List.length_eq_zero_iff, PerfectTree.length_siblings, flat]
  · rw [if_neg small]
    exact walked

/-- The mountain that a position falls in, and what `prove` answers for it. -/
theorem prove_eq (build : Build) (blake3 : Blake3) {leaves : List Hash256} {position : ℕ}
    (inside : position < leaves.length) :
    ∃ k mountain, (MountainRange.ofLeaves leaves).mountains[k]? = some mountain ∧
      leaves[position]? = some (mountain.tree.leafAt position) ∧
      prove build (appendAll blake3 leaves) position =
        .ok (honestProof blake3 leaves k mountain position) := by
  obtain ⟨sameLeaves, _⟩ := appendAll_represents blake3 leaves
  have total : ((appendAll blake3 leaves).peaks.map Peak.leafCount).sum = leaves.length := by
    rw [leafCounts_appendAll, ← MountainRange.length_flatMap_leaves]
    exact congrArg List.length (MountainRange.leaves_ofLeaves leaves)
  obtain ⟨k, peak, foundPeak, answer, low, high⟩ :=
    findPeak_spec 0 0 (Nat.zero_le position) (by rw [Nat.zero_add, total]; exact inside)
  obtain ⟨mountain, found, represents⟩ := mountain_of_peak foundPeak
  have offset : ((List.take k (appendAll blake3 leaves).peaks).map Peak.leafCount).sum =
      (MountainRange.ofLeaves leaves).offset k := peakOffset_appendAll blake3 leaves k
  rw [Nat.zero_add, Nat.zero_add, offset] at answer
  rw [Nat.zero_add, offset] at low high
  rw [represents.leafCount_eq] at high
  have aligned := MountainRange.offset_add_mod found low high
  refine ⟨k, mountain, found, ?_, ?_⟩
  · have here := MountainRange.getElem?_leaves_of_inside found low high
    rwa [MountainRange.leaves_ofLeaves] at here
  · unfold prove
    rw [sameLeaves, if_neg (by omega), answer]
    show (build.sub 64 position ((MountainRange.ofLeaves leaves).offset k) >>= _) = _
    rw [Build.sub_of_le low]
    show (indexVec (appendAll blake3 leaves).peaks k >>= _) = _
    rw [indexVec_eq_ok_iff.mpr foundPeak]
    show Except.ok _ = _
    rw [proofPath_eq represents position (by omega)]
    rfl

/-- **Completeness.** The proof of every leaf of every range verifies at its position. -/
theorem prove_verifies (build build' : Build) (blake3 : Blake3) (leaves : List Hash256)
    (fits : leaves.length < 2 ^ 64) (position : ℕ) (inside : position < leaves.length) :
    ∃ proof, prove build (appendAll blake3 leaves) position = .ok proof ∧
      verifyProof build' blake3 (root blake3 (appendAll blake3 leaves)) leaves[position] position
        proof = .ok true := by
  obtain ⟨k, mountain, found, here, answer⟩ := prove_eq build blake3 inside
  refine ⟨_, answer, ?_⟩
  rw [List.getElem?_eq_getElem inside, Option.some.injEq] at here
  rw [here]
  exact (accepts_path build' blake3 position found (height_lt_of_fits fits found)).1

/-! ### Faults of the verifier -/

section Faults

variable {build : Build} {blake3 : Blake3} {mmrRoot leaf : Hash256} {position : ℕ} {proof : MmrProof}

/-- The verifier turns the proof down before it looks at the siblings. -/
def TurnedDown (proof : MmrProof) : Prop :=
  proof.peaks = [] ∨ proof.peaks.length ≤ proof.peakIndex

theorem verifyProof_of_turnedDown (down : TurnedDown proof) :
    verifyProof build blake3 mmrRoot leaf position proof = .ok false := by
  rcases down with none | outside
  · exact if_pos (List.isEmpty_iff.mpr none)
  · unfold verifyProof
    rw [if_pos outside, ite_self]

/-- **With fewer siblings than bits of a word** the walk stays above index 0, and the verifier answers
the same in every build. -/
theorem verifyProof_of_shallow (blake3 : Blake3) (mmrRoot leaf : Hash256) (position : ℕ)
    (considered : ¬ TurnedDown proof) (shallow : proof.siblings.length < 64) :
    ∃ answer, ∀ build, verifyProof build blake3 mmrRoot leaf position proof = .ok answer := by
  unfold TurnedDown at considered
  rw [not_or, not_le] at considered
  obtain ⟨listed, inside⟩ := considered
  refine ⟨climb (mmrHasher blake3) (withSides position proof.siblings) (hashLeaf blake3 leaf) ==
    proof.peaks[proof.peakIndex] && bagPeaks blake3 proof.peaks == mmrRoot, fun build => ?_⟩
  unfold verifyProof
  rw [if_neg (by rwa [List.isEmpty_iff]), if_neg (by omega), startIndex_of_lt build position shallow]
  show (walk build blake3 _ _ _ >>= _) = _
  rw [(walk_of_index build blake3 proof.siblings position _).1]
  show (indexVec proof.peaks proof.peakIndex >>= _) = _
  rw [indexVec_eq_ok_iff.mpr (List.getElem?_eq_getElem inside)]
  by_cases same : climb (mmrHasher blake3) (withSides position proof.siblings)
      (hashLeaf blake3 leaf) = proof.peaks[proof.peakIndex]
  · simp [bind, Except.bind, pure, Except.pure, same]
  · simp [bind, Except.bind, pure, Except.pure, same]

/-- With more siblings a checked build stops at the shift. -/
theorem verifyProof_of_deep (considered : ¬ TurnedDown proof) (deep : 64 ≤ proof.siblings.length) :
    verifyProof ⟨true⟩ blake3 mmrRoot leaf position proof = .error .shiftOverflow := by
  unfold TurnedDown at considered
  rw [not_or, not_le] at considered
  obtain ⟨listed, inside⟩ := considered
  have shifted : startIndex ⟨true⟩ position proof.siblings.length = .error .shiftOverflow := by
    unfold startIndex Build.shl
    rw [if_neg (by omega)]
    rfl
  unfold verifyProof
  rw [if_neg (by rwa [List.isEmpty_iff]), if_neg (by omega), shifted]
  rfl

/-- The verifier returns a boolean and no operation leaves its width on the way: a checked build, which
would stop there, returns the same. -/
def ReturnsInRange (build : Build) (blake3 : Blake3) (mmrRoot leaf : Hash256) (position : ℕ)
    (proof : MmrProof) : Prop :=
  ∃ answer, verifyProof build blake3 mmrRoot leaf position proof = .ok answer ∧
    verifyProof ⟨true⟩ blake3 mmrRoot leaf position proof = .ok answer

/-- **When the verifier does not fault**: on the proofs it turns down at once, and on those with fewer
than 64 siblings. -/
theorem returnsInRange_iff (build : Build) (blake3 : Blake3) (mmrRoot leaf : Hash256) (position : ℕ)
    (proof : MmrProof) :
    ReturnsInRange build blake3 mmrRoot leaf position proof ↔
      (proof.peaks = [] ∨ proof.peaks.length ≤ proof.peakIndex ∨ proof.siblings.length < 64) := by
  rw [← or_assoc]
  show _ ↔ TurnedDown proof ∨ _
  constructor
  · rintro ⟨answer, _, checked⟩
    by_contra bad
    rw [not_or, not_lt] at bad
    rw [verifyProof_of_deep bad.1 bad.2] at checked
    cases checked
  · intro good
    by_cases down : TurnedDown proof
    · exact ⟨false, verifyProof_of_turnedDown down, verifyProof_of_turnedDown down⟩
    · have shallow := good.resolve_left down
      obtain ⟨answer, returned⟩ :=
        verifyProof_of_shallow blake3 mmrRoot leaf position down shallow
      exact ⟨answer, returned build, returned ⟨true⟩⟩

end Faults

/-- A proof with one peak and 64 siblings. -/
def deepProof : MmrProof :=
  ⟨List.replicate 64 Hash256.zero, 0, [Hash256.zero]⟩

/-- **64 siblings stop a checked build**; the length of a deserialized proof is not checked. -/
theorem deepProof_faults :
    ¬ ∀ (build : Build) (mmrRoot leaf : Hash256) (position : ℕ) (proof : MmrProof),
      ReturnsInRange build Blake3.hash mmrRoot leaf position proof := by
  intro claimed
  obtain ⟨answer, _, checked⟩ := claimed ⟨true⟩ .zero .zero 0 deepProof
  have faulted : verifyProof ⟨true⟩ Blake3.hash .zero .zero 0 deepProof = .error .shiftOverflow := by
    decide +kernel
  rw [faulted] at checked
  cases checked

namespace ThreeLeaves

/-- A digest from its bytes, written as one number with the first byte lowest. -/
def digestOf (value : ℕ) : Hash256 := ⟨leBytes 32 value, length_leBytes 32 value⟩

/-- The leaf data: 32 times the byte 1, 2 or 3. -/
def data (byte : UInt8) : Hash256 := FixedBytes.fill 32 byte

def leaves : List Hash256 := [data 1, data 2, data 3]

/-- The digests of the leaf strings. -/
def leafHash : UInt8 → Hash256
  | 1 => digestOf 0x8c0898aca4a6d0678232635f0346a4b67f128fdf299c70a345bc081f4e3c8ddf
  | 2 => digestOf 0xa754f6a10a172b139a189c399323edb27ec735108f5ddaa8e25b7de05edc3465
  | _ => digestOf 0x38ebc16c3113815ec0b6f3c0fce8e41029019e47b675ac470883c8869f0c666b

/-- The digest of the string of the first two leaves. -/
def pairHash : Hash256 :=
  digestOf 0x2546246fb8b1061d5a6cb332d73495a8661f26681b54171969312735987c9b77

/-- BLAKE3 on the strings hashed for this range, zero elsewhere. -/
def blake3 : Blake3 := fun input =>
  if input = hashLeafInput (data 1) then leafHash 1
  else if input = hashLeafInput (data 2) then leafHash 2
  else if input = hashLeafInput (data 3) then leafHash 3
  else if input = hashPairInput (leafHash 1) (leafHash 2) then pairHash
  else if input = tag "mmr:peaks:" ++ concatBlocks [pairHash, leafHash 3] then
    digestOf 0x32145cbd9f5704d576ec0b580261ae535b83827dc3856c42b4ca4cd307c8baa2
  else Hash256.zero

/-- The second leaf of three, under the first of two peaks. -/
theorem prove_verifies_second :
    leaves.length < 2 ^ 64 ∧ 1 < leaves.length ∧
      ∃ proof, prove ⟨true⟩ (appendAll blake3 leaves) 1 = .ok proof ∧
        verifyProof ⟨true⟩ blake3 (root blake3 (appendAll blake3 leaves)) (data 2) 1 proof =
          .ok true :=
  ⟨by decide, by decide,
    prove_verifies ⟨true⟩ ⟨true⟩ blake3 leaves (by decide) 1 (by decide)⟩

end ThreeLeaves

end Mmr

end Exochain.ExoDag
