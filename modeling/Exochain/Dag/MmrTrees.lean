/-
**The peak arrays are the trees of a mountain range.**

`Peak.Represents` says that a peak is a mountain of `Foundation.MountainRange` laid out in its
array. The two algorithms on arrays are settled here once:

* `heapAt_copySubtree` — **copying a subtree** writes exactly the tree under the target index and
  touches nothing else (`getElem?_copySubtree`), so merging two peaks represents the merged mountain
  (`represents_merge`);
* `siblingsFrom_bottom` — **walking up from a bottom index** collects the siblings of the leaf there.

`appendAll_represents` is the refinement: the peaks after any list of appends represent the mountain
range of the leaves, and every string hashed inside one of its trees was hashed by an append.
-/

import Exochain.Dag.Mmr

set_option linter.unusedSectionVars false

namespace Exochain.ExoDag

open Foundation ExoCore

namespace Mmr

/-! ### The hash inputs are kept apart by their tags -/

/-- Strings that differ in the first five bytes of their tags differ. -/
theorem tagged_ne {first second : List UInt8} (differ : first.take 5 ≠ second.take 5)
    (long : 5 ≤ first.length) (long' : 5 ≤ second.length) (rest rest' : List UInt8) :
    first ++ rest ≠ second ++ rest' := by
  intro same
  have heads := congrArg (List.take 5) same
  rw [List.take_append_of_le_length long, List.take_append_of_le_length long'] at heads
  exact differ heads

/-- Leaves and inner nodes of the range, as inputs of one hash. -/
def mmrHasher (blake3 : Blake3) : TreeHasher Hash256 (List UInt8) Hash256 where
  hash := blake3
  leafInput := hashLeafInput
  nodeInput := hashPairInput
  leafInput_injective := fun first second same =>
    FixedBytes.ext (List.append_cancel_left same)
  nodeInput_injective := fun left right left' right' same => by
    have pairs := List.append_cancel_left same
    obtain ⟨lefts, rights⟩ := List.append_inj pairs (left.length_eq.trans left'.length_eq.symm)
    exact ⟨FixedBytes.ext lefts, FixedBytes.ext rights⟩
  leaf_ne_node := fun _ _ _ => tagged_ne (by decide) (by decide) (by decide) _ _

namespace Peak

/-! ### Copying a subtree -/

@[simp] theorem length_copySubtree (dst : List Hash256) (dstIdx : ℕ) (src : List Hash256)
    (srcIdx : ℕ) : (copySubtree dst dstIdx src srcIdx).length = dst.length := by
  fun_induction copySubtree dst dstIdx src srcIdx with
  | case1 => rfl
  | case2 dst dstIdx srcIdx inside here left ihLeft _ ihRight =>
    rw [ihRight, ihLeft, List.length_set]

/-- **Copying touches only what lies under the target.** -/
theorem getElem?_copySubtree {dst : List Hash256} {dstIdx : ℕ} {src : List Hash256} {srcIdx : ℕ}
    {index : ℕ} (away : ¬ Under dstIdx index) :
    (copySubtree dst dstIdx src srcIdx)[index]? = dst[index]? := by
  fun_induction copySubtree dst dstIdx src srcIdx with
  | case1 => rfl
  | case2 dst dstIdx srcIdx inside here left ihLeft _ ihRight =>
    have different : dstIdx ≠ index := by
      rintro rfl
      exact away (under_self dstIdx)
    rw [ihRight fun under => away (.parent (.inr under)),
      ihLeft fun under => away (.parent (.inl under)), List.getElem?_set_ne different]

/-- **Copying a tree puts it under the target**, if the target array has room for its bottom row and
the source array ends with the tree's own bottom row. -/
theorem heapAt_copySubtree {blake3 : Blake3} {height : ℕ} (tree : PerfectTree Hash256 height)
    {dst src : List Hash256} {dstIdx srcIdx : ℕ} (heap : HeapAt (mmrHasher blake3) src srcIdx tree)
    (ends : src.length < (srcIdx + 1) * 2 ^ (height + 1))
    (room : (dstIdx + 2) * 2 ^ height ≤ dst.length + 1) :
    HeapAt (mmrHasher blake3) (copySubtree dst dstIdx src srcIdx) dstIdx tree := by
  induction tree generalizing dst dstIdx srcIdx with
  | leaf x =>
    obtain ⟨inside, value⟩ := List.getElem?_eq_some_iff.mp heap
    have fits : dstIdx < dst.length := by simp at room; omega
    rw [HeapAt, copySubtree, dif_neg (by omega)]
    -- below a leaf the source array has ended
    have stop : ∀ into, copySubtree into (2 * dstIdx + 1) src (2 * srcIdx + 1) = into := by
      intro into
      rw [copySubtree, dif_pos (by simp at ends; omega)]
    have stop' : ∀ into, copySubtree into (2 * dstIdx + 2) src (2 * srcIdx + 2) = into := by
      intro into
      rw [copySubtree, dif_pos (by simp at ends; omega)]
    simp only [stop, stop', List.getElem?_set_self fits, List.get_eq_getElem, value]
  | @node height left right ihLeft ihRight =>
    obtain ⟨here, leftHeap, rightHeap⟩ := heap
    obtain ⟨inside, value⟩ := List.getElem?_eq_some_iff.mp here
    have positive : 0 < 2 ^ height := by positivity
    have fits : dstIdx < dst.length := by
      rw [pow_succ] at room
      nlinarith
    rw [copySubtree, dif_neg (by omega)]
    have notLeft : ¬ Under (2 * dstIdx + 1) dstIdx := not_under_of_lt (by omega)
    have notRight : ¬ Under (2 * dstIdx + 2) dstIdx := not_under_of_lt (by omega)
    refine ⟨?_, ?_, ?_⟩
    · rw [getElem?_copySubtree notRight, getElem?_copySubtree notLeft, List.getElem?_set_self fits,
        List.get_eq_getElem, value]
    · refine HeapAt.congr (ihLeft leftHeap ?_ ?_) fun index under =>
        getElem?_copySubtree under.disjoint
      · rw [pow_succ] at ends ⊢
        rw [pow_succ] at ends
        nlinarith
      · rw [List.length_set]
        rw [pow_succ] at room
        nlinarith
    · refine ihRight rightHeap ?_ ?_
      · rw [pow_succ] at ends ⊢
        rw [pow_succ] at ends
        nlinarith
      · rw [length_copySubtree, List.length_set]
        rw [pow_succ] at room
        nlinarith

/-! ### Walking up -/

theorem siblingsFrom_zero (nodes : List Hash256) : siblingsFrom nodes 0 = [] := by
  rw [siblingsFrom, if_pos rfl]

/-- Up from a left child: the sibling is the next index. -/
theorem siblingsFrom_left (nodes : List Hash256) (top : ℕ) :
    siblingsFrom nodes (2 * top + 1) = nodes[2 * top + 2]?.toList ++ siblingsFrom nodes top := by
  have odd : (2 * top + 1) % 2 = 1 := by omega
  have parent : (2 * top + 1 - 1) / 2 = top := by omega
  rw [siblingsFrom, if_neg (by omega), parent]
  simp only [odd, if_true]

/-- Up from a right child: the sibling is the index before. -/
theorem siblingsFrom_right (nodes : List Hash256) (top : ℕ) :
    siblingsFrom nodes (2 * top + 2) = nodes[2 * top + 1]?.toList ++ siblingsFrom nodes top := by
  have even : ¬ (2 * top + 2) % 2 = 1 := by omega
  have parent : (2 * top + 2 - 1) / 2 = top := by omega
  rw [siblingsFrom, if_neg (by omega), parent]
  simp only [even, if_false]
  rfl

/-- **From an index of the bottom row, the walk up collects the siblings of that leaf**, and then
goes on above the tree. -/
theorem siblingsFrom_bottom {blake3 : Blake3} {height : ℕ} (tree : PerfectTree Hash256 height)
    (position : ℕ) {nodes : List Hash256} {top : ℕ}
    (heap : HeapAt (mmrHasher blake3) nodes top tree) :
    siblingsFrom nodes ((top + 1) * 2 ^ height - 1 + position % 2 ^ height) =
      tree.siblings (mmrHasher blake3) position ++ siblingsFrom nodes top := by
  induction tree generalizing top with
  | leaf x => simp [PerfectTree.siblings, Nat.mod_one]
  | @node height left right ihLeft ihRight =>
    obtain ⟨_, leftHeap, rightHeap⟩ := heap
    have double : (top + 1) * 2 ^ (height + 1) = (2 * top + 1 + 1) * 2 ^ height := by
      rw [pow_succ]
      ring
    have enough : 0 < (2 * top + 1 + 1) * 2 ^ height := by positivity
    cases bit : position.testBit height with
    | false =>
      have index : (top + 1) * 2 ^ (height + 1) - 1 + position % 2 ^ (height + 1) =
          (2 * top + 1 + 1) * 2 ^ height - 1 + position % 2 ^ height := by
        rw [mod_two_pow_succ_of_low bit, double]
      rw [index, ihLeft leftHeap, siblingsFrom_left, rightHeap.top, PerfectTree.siblings,
        if_neg (by simp [bit]), List.append_assoc, Option.toList_some]
    | true =>
      have index : (top + 1) * 2 ^ (height + 1) - 1 + position % 2 ^ (height + 1) =
          (2 * top + 2 + 1) * 2 ^ height - 1 + position % 2 ^ height := by
        have next : (2 * top + 2 + 1) * 2 ^ height = (2 * top + 1 + 1) * 2 ^ height + 2 ^ height := by
          ring
        rw [mod_two_pow_succ_of_high bit, double, next]
        omega
      rw [index, ihRight rightHeap, siblingsFrom_right, leftHeap.top, PerfectTree.siblings,
        if_pos bit, List.append_assoc, Option.toList_some]

/-! ### Peaks as mountains -/

/-- **The peak is the mountain, laid out in its array.** -/
structure Represents (blake3 : Blake3) (peak : Peak) (mountain : Mountain Hash256) : Prop where
  hash_eq : peak.hash = mountain.tree.digest (mmrHasher blake3)
  height_eq : peak.height = mountain.height
  leafCount_eq : peak.leafCount = 2 ^ mountain.height
  length_nodes : peak.nodes.length + 1 = 2 ^ (mountain.height + 1)
  heap : HeapAt (mmrHasher blake3) peak.nodes 0 mountain.tree

theorem represents_fromLeaf (blake3 : Blake3) (leaf : Hash256) :
    Represents blake3 (fromLeaf (hashLeaf blake3 leaf)) (Mountain.single leaf) :=
  ⟨rfl, rfl, rfl, rfl, rfl⟩

/-- **Merging two peaks represents the merged mountain.** -/
theorem represents_merge {blake3 : Blake3} {left right : Peak} {mountain mountain' : Mountain Hash256}
    (leftIs : Represents blake3 left mountain) (rightIs : Represents blake3 right mountain')
    (same : mountain.height = mountain'.height) :
    Represents blake3 (merge blake3 left right) (mountain.merge mountain' same) := by
  obtain ⟨height, tree⟩ := mountain
  obtain ⟨height', tree'⟩ := mountain'
  obtain rfl : height = height' := same
  obtain ⟨leftHash, leftHeight, leftCount, leftLength, leftHeap⟩ := leftIs
  obtain ⟨rightHash, rightHeight, rightCount, rightLength, rightHeap⟩ := rightIs
  have positive : 0 < 2 ^ height := by positivity
  have rootHash : hashPair blake3 left.hash right.hash =
      (PerfectTree.node tree tree').digest (mmrHasher blake3) := by
    rw [leftHash, rightHash]
    rfl
  have count : left.leafCount + right.leafCount = 2 ^ (height + 1) := by
    rw [leftCount, rightCount, pow_succ]
    ring
  have total : 2 * (left.leafCount + right.leafCount) - 1 + 1 = 2 ^ (height + 2) := by
    rw [count, pow_succ 2 (height + 1)]
    omega
  refine ⟨rootHash, ?_, count, ?_, ?_⟩
  · show left.height + 1 = height + 1
    rw [leftHeight]
  · show (copySubtree _ 2 right.nodes 0).length + 1 = _
    rw [length_copySubtree, length_copySubtree, List.length_set, List.length_replicate]
    exact total
  · have notOne : ¬ Under 1 0 := not_under_of_lt (by omega)
    have notTwo : ¬ Under 2 0 := not_under_of_lt (by omega)
    have four : 2 ^ (height + 2) = 4 * 2 ^ height := by rw [pow_add]; ring
    refine ⟨?_, ?_, ?_⟩
    · show (copySubtree _ 2 right.nodes 0)[0]? = _
      rw [getElem?_copySubtree notTwo, getElem?_copySubtree notOne, List.getElem?_set_self]
      · exact congrArg some rootHash
      · rw [List.length_replicate]
        omega
    · refine HeapAt.congr (heapAt_copySubtree tree leftHeap ?_ ?_) fun index under =>
        getElem?_copySubtree under.disjoint
      · simp only at leftLength
        omega
      · rw [List.length_set, List.length_replicate]
        omega
    · refine heapAt_copySubtree tree' rightHeap ?_ ?_
      · simp only at rightLength
        omega
      · rw [length_copySubtree, List.length_set, List.length_replicate]
        omega

end Peak

/-! ### The refinement -/

/-- Merging with the trailing peaks joins with the trailing mountains. -/
theorem represents_mergeTrailing {blake3 : Blake3} {trailing : List Peak}
    {mountains : List (Mountain Hash256)} {newPeak : Peak} {mountain : Mountain Hash256}
    (represent : List.Forall₂ (Peak.Represents blake3) trailing mountains)
    (newIs : newPeak.Represents blake3 mountain) :
    List.Forall₂ (Peak.Represents blake3) (mergeTrailing blake3 trailing newPeak)
      (Mountain.joinTrailing mountains mountain) := by
  induction represent generalizing newPeak mountain with
  | nil => exact .cons newIs .nil
  | @cons last high rest highs lastIs restAre ih =>
    rw [mergeTrailing, Mountain.joinTrailing, lastIs.height_eq, newIs.height_eq]
    by_cases same : high.height = mountain.height
    · rw [if_pos same, dif_pos same]
      exact ih (Peak.represents_merge lastIs newIs same)
    · rw [if_neg same, dif_neg same]
      exact .cons newIs (.cons lastIs restAre)

/-- The inputs of a merged mountain: the pair of the two roots, and the inputs of both. -/
theorem inputs_merge {blake3 : Blake3} {left right : Peak} {mountain mountain' : Mountain Hash256}
    (leftIs : left.Represents blake3 mountain) (rightIs : right.Represents blake3 mountain')
    (same : mountain.height = mountain'.height) :
    (mountain.merge mountain' same).tree.inputs (mmrHasher blake3) =
      hashPairInput left.hash right.hash :: (mountain.tree.inputs (mmrHasher blake3) ++
        mountain'.tree.inputs (mmrHasher blake3)) := by
  rw [leftIs.hash_eq, rightIs.hash_eq]
  obtain ⟨height, tree⟩ := mountain
  obtain ⟨height', tree'⟩ := mountain'
  obtain rfl : height = height' := same
  rfl

/-- Every string of a joined tree was a string of one of the parts, or is hashed now. -/
theorem inputs_joinTrailing {blake3 : Blake3} {trailing : List Peak}
    {mountains : List (Mountain Hash256)} {newPeak : Peak} {mountain : Mountain Hash256}
    (represent : List.Forall₂ (Peak.Represents blake3) trailing mountains)
    (newIs : newPeak.Represents blake3 mountain) {hashed : List (List UInt8)}
    (old : ∀ m ∈ mountains, ∀ s ∈ m.tree.inputs (mmrHasher blake3), s ∈ hashed)
    (fresh : ∀ s ∈ mountain.tree.inputs (mmrHasher blake3), s ∈ hashed)
    (merged : ∀ s ∈ mergeInputs blake3 trailing newPeak, s ∈ hashed) :
    ∀ m ∈ Mountain.joinTrailing mountains mountain, ∀ s ∈ m.tree.inputs (mmrHasher blake3),
      s ∈ hashed := by
  induction represent generalizing newPeak mountain with
  | nil =>
    intro m member
    rw [List.mem_singleton.mp member]
    exact fresh
  | @cons last high rest highs lastIs restAre ih =>
    obtain ⟨oldHigh, oldRest⟩ := List.forall_mem_cons.mp old
    rw [mergeInputs, lastIs.height_eq, newIs.height_eq] at merged
    rw [Mountain.joinTrailing]
    by_cases same : high.height = mountain.height
    · rw [if_pos same] at merged
      obtain ⟨pair, later⟩ := List.forall_mem_cons.mp merged
      rw [dif_pos same]
      refine ih (Peak.represents_merge lastIs newIs same) oldRest ?_ later
      rw [inputs_merge lastIs newIs same]
      refine List.forall_mem_cons.mpr ⟨pair, fun s member => ?_⟩
      rcases List.mem_append.mp member with left | right
      · exact oldHigh s left
      · exact fresh s right
    · rw [dif_neg same]
      exact List.forall_mem_cons.mpr ⟨fresh, old⟩

/-- What each peak shares with its mountain, the peaks share with the mountains. -/
theorem map_eq_of_represents {β : Type} {blake3 : Blake3} {peaks : List Peak}
    {mountains : List (Mountain Hash256)} {read : Peak → β} {read' : Mountain Hash256 → β}
    (represent : List.Forall₂ (Peak.Represents blake3) peaks mountains)
    (same : ∀ peak mountain, peak.Represents blake3 mountain → read peak = read' mountain) :
    peaks.map read = mountains.map read' := by
  induction represent with
  | nil => rfl
  | cons first _ ih => rw [List.map_cons, List.map_cons, ih, same _ _ first]

theorem appendAll_append_singleton (blake3 : Blake3) (leaves : List Hash256) (leaf : Hash256) :
    appendAll blake3 (leaves ++ [leaf]) = (append blake3 (appendAll blake3 leaves) leaf).2 := by
  rw [appendAll, run_append]
  rfl

theorem buildInputs_append_singleton (blake3 : Blake3) (mmr : MerkleMountainRange)
    (leaves : List Hash256) (leaf : Hash256) :
    buildInputs blake3 mmr (leaves ++ [leaf]) = buildInputs blake3 mmr leaves ++
      appendInputs blake3 (run (fun mmr leaf => (append blake3 mmr leaf).2) mmr leaves) leaf := by
  induction leaves generalizing mmr with
  | nil => simp [buildInputs]
  | cons first rest ih => rw [List.cons_append, buildInputs, ih, buildInputs, List.append_assoc, run_cons]

/-- **The refinement.** After any appends the peaks represent the mountain range of the leaves. -/
theorem appendAll_represents (blake3 : Blake3) (leaves : List Hash256) :
    (appendAll blake3 leaves).leaves = leaves ∧
      List.Forall₂ (Peak.Represents blake3) (appendAll blake3 leaves).peaks
        (MountainRange.ofLeaves leaves).mountains := by
  induction leaves using List.reverseRecOn with
  | nil => exact ⟨rfl, .nil⟩
  | append_singleton leaves leaf ih =>
    obtain ⟨same, represent⟩ := ih
    rw [appendAll_append_singleton, MountainRange.ofLeaves_append_singleton]
    refine ⟨?_, ?_⟩
    · show (appendAll blake3 leaves).leaves ++ [leaf] = leaves ++ [leaf]
      rw [same]
    · refine List.forall₂_reverse_iff.mpr ?_
      exact represents_mergeTrailing (List.forall₂_reverse_iff.mpr represent)
        (Peak.represents_fromLeaf blake3 leaf)

/-- **Every string hashed inside a tree of the range was hashed by an append.** -/
theorem inputs_subset_buildInputs (blake3 : Blake3) (leaves : List Hash256) :
    ∀ m ∈ (MountainRange.ofLeaves leaves).mountains,
      ∀ s ∈ m.tree.inputs (mmrHasher blake3), s ∈ buildInputs blake3 new leaves := by
  induction leaves using List.reverseRecOn with
  | nil => exact fun m member => absurd member List.not_mem_nil
  | append_singleton leaves leaf ih =>
    obtain ⟨_, represent⟩ := appendAll_represents blake3 leaves
    rw [MountainRange.ofLeaves_append_singleton, buildInputs_append_singleton]
    intro m member
    refine inputs_joinTrailing (List.forall₂_reverse_iff.mpr represent)
      (Peak.represents_fromLeaf blake3 leaf) ?_ ?_ ?_ m (List.mem_reverse.mp member)
    · exact fun old oldMember s input =>
        List.mem_append_left _ (ih old (List.mem_reverse.mp oldMember) s input)
    · intro s input
      rw [List.mem_singleton.mp input]
      exact List.mem_append_right _ List.mem_cons_self
    · exact fun s input => List.mem_append_right _ (List.mem_cons_of_mem _ input)

end Mmr

end Exochain.ExoDag
