/-
**`exo-dag` — the sparse Merkle tree is a perfect tree.**

`subtree contents level path` is the tree over all the keys that start with `path`: one leaf for
each, holding what the contents have there, with `2 ^ 256` leaves at the top. Nothing computes it.

* **`computeNode_eq_digest`** — the pruned recursion of the source computes its digest: a subtree
  without an entry has the digest that was precomputed for its level.
* **`inputText_mem_nodeStrings`** — every input of the perfect tree is written to a string that the
  pruned recursion hashes.
* `position key` — the leaf of a key, counted from the left. `leafAt_position`, `siblings_position`
  and `climb_position` say that the value, the proof and the verifier's loop of a key are those of
  its position.
-/

import Exochain.Foundation.Merkle
import Exochain.Dag.Smt

set_option linter.unusedSectionVars false

namespace Exochain.ExoDag

open Foundation ExoCore

namespace Smt

/-! ### The hasher -/

section Hasher

variable (blake3 : Blake3)

/-- A leaf is hashed with its tag, two children without one. -/
def smtHasher : TreeHasher (Option (List UInt8)) (Option (List UInt8) ⊕ Hash256 × Hash256) Hash256 :=
  TreeHasher.free (startHash blake3) (hashPair blake3)

/-- The string that an input is hashed as. -/
def inputText : Option (List UInt8) ⊕ Hash256 × Hash256 → List UInt8 :=
  Sum.elim startString (Function.uncurry pairString)

theorem startHash_eq (value : Option (List UInt8)) :
    startHash blake3 value = blake3 (startString value) := by
  cases value with
  | none => rfl
  | some bytes => rfl

theorem hash_eq_inputText (input : Option (List UInt8) ⊕ Hash256 × Hash256) :
    (smtHasher blake3).hash input = blake3 (inputText input) := by
  cases input with
  | inl value => exact startHash_eq blake3 value
  | inr pair => rfl

/-- **The string of a leaf gives its value back**, absence included. -/
theorem startString_injective {value value' : Option (List UInt8)}
    (same : startString value = startString value') : value = value' := by
  -- the fifth byte tells the two tags apart
  have tags : ∀ bytes : List UInt8, emptyLeafString ≠ leafString bytes := by
    intro bytes equal
    have fifth := congrArg (fun text => text[4]?) equal
    simp only [leafString] at fifth
    rw [List.getElem?_append_left (by decide)] at fifth
    exact absurd fifth (by decide)
  cases value with
  | none =>
    cases value' with
    | none => rfl
    | some bytes' => exact absurd same (tags bytes')
  | some bytes =>
    cases value' with
    | none => exact absurd same.symm (tags bytes)
    | some bytes' => exact congrArg some (List.append_cancel_left same)

end Hasher

/-! ### The tree over all keys -/

/-- The perfect tree over the keys that start with a path. -/
def subtree (contents : Hash256 → Option (List UInt8)) :
    (level : ℕ) → List Bool → PerfectTree (Option (List UInt8)) level
  | 0, path => .leaf (contents (bitsToKey path))
  | level + 1, path =>
    .node (subtree contents level (path ++ [false])) (subtree contents level (path ++ [true]))

section Pruning

variable {tree : SparseMerkleTree} {level : ℕ} {path : List Bool}

theorem fits_below (fits : path.length + (level + 1) = treeDepth) (bit : Bool) :
    (path ++ [bit]).length + level = treeDepth := by
  rw [List.length_append, List.length_singleton]
  omega

/-- An entry below a child is an entry below the node. -/
theorem hasLeafWithPrefix_of_append {bit : Bool}
    (below : tree.hasLeafWithPrefix (path ++ [bit]) = true) :
    tree.hasLeafWithPrefix path = true := by
  rw [SparseMerkleTree.hasLeafWithPrefix, List.any_eq_true] at below ⊢
  obtain ⟨key, entry, starts⟩ := below
  refine ⟨key, entry, ?_⟩
  rw [beq_iff_eq, List.length_append, List.length_singleton, keyBits_succ] at starts
  rw [beq_iff_eq]
  exact (List.append_inj starts (length_keyBits _ _)).1

/-- A node without an entry has no entry below its children. -/
theorem no_entry_below (empty : tree.hasLeafWithPrefix path = false) (bit : Bool) :
    tree.hasLeafWithPrefix (path ++ [bit]) = false := by
  rw [← Bool.not_eq_true] at empty ⊢
  exact fun below => empty (hasLeafWithPrefix_of_append below)

/-- A whole path without an entry has no value. -/
theorem get_eq_none_of_no_entry (whole : path.length = treeDepth)
    (empty : tree.hasLeafWithPrefix path = false) : get tree (bitsToKey path) = none := by
  by_contra present
  rw [← Bool.not_eq_true, SparseMerkleTree.hasLeafWithPrefix, List.any_eq_true] at empty
  refine empty ⟨bitsToKey path, ?_, ?_⟩
  · rw [Std.ExtTreeMap.mem_keys, Std.ExtTreeMap.mem_iff_isSome_getElem?]
    exact Option.isSome_iff_ne_none.mpr present
  · rw [beq_iff_eq, whole, keyBits_bitsToKey whole]

variable (blake3 : Blake3)

/-- A subtree without an entry has the default digest of its level. -/
theorem digest_of_no_entry (fits : path.length + level = treeDepth)
    (empty : tree.hasLeafWithPrefix path = false) :
    (subtree (get tree) level path).digest (smtHasher blake3) = defaultHash blake3 level := by
  induction level generalizing path with
  | zero =>
    rw [subtree, get_eq_none_of_no_entry fits empty]
    rfl
  | succ level ih =>
    rw [subtree, PerfectTree.digest, ih (fits_below fits false) (no_entry_below empty false),
      ih (fits_below fits true) (no_entry_below empty true)]
    rfl

/-- **The pruned recursion computes the digest of the whole tree.** -/
theorem computeNode_eq_digest (fits : path.length + level = treeDepth) :
    tree.computeNode blake3 level path =
      (subtree (get tree) level path).digest (smtHasher blake3) := by
  induction level generalizing path with
  | zero =>
    rw [Nat.add_zero] at fits
    rw [SparseMerkleTree.computeNode, if_pos fits, subtree, PerfectTree.digest, get]
    cases tree.leaves[bitsToKey path]? with
    | none => rfl
    | some value => rfl
  | succ level ih =>
    rw [SparseMerkleTree.computeNode]
    cases entry : tree.hasLeafWithPrefix path with
    | false => rw [if_pos (by simp), digest_of_no_entry blake3 fits entry]
    | true =>
      rw [if_neg (by simp), ih (fits_below fits false), ih (fits_below fits true)]
      rfl

/-- The inputs of a subtree without an entry are written to the strings of its default digest. -/
theorem inputText_of_no_entry (fits : path.length + level = treeDepth)
    (empty : tree.hasLeafWithPrefix path = false)
    {input : Option (List UInt8) ⊕ Hash256 × Hash256}
    (member : input ∈ (subtree (get tree) level path).inputs (smtHasher blake3)) :
    inputText input ∈ defaultStrings blake3 level := by
  induction level generalizing path with
  | zero =>
    rw [subtree, PerfectTree.inputs, List.mem_singleton, get_eq_none_of_no_entry fits empty] at member
    rw [member]
    exact List.mem_cons_self
  | succ level ih =>
    rw [subtree, PerfectTree.inputs, List.mem_cons, List.mem_append,
      digest_of_no_entry blake3 (fits_below fits false) (no_entry_below empty false),
      digest_of_no_entry blake3 (fits_below fits true) (no_entry_below empty true)] at member
    rcases member with top | inLeft | inRight
    · rw [top]
      exact List.mem_cons_self
    · exact List.mem_cons_of_mem _ (ih (fits_below fits false) (no_entry_below empty false) inLeft)
    · exact List.mem_cons_of_mem _ (ih (fits_below fits true) (no_entry_below empty true) inRight)

/-- **Every input of the whole tree is written to a string that the pruned recursion hashes.** -/
theorem inputText_mem_nodeStrings (fits : path.length + level = treeDepth)
    {input : Option (List UInt8) ⊕ Hash256 × Hash256}
    (member : input ∈ (subtree (get tree) level path).inputs (smtHasher blake3)) :
    inputText input ∈ tree.nodeStrings blake3 level path := by
  induction level generalizing path with
  | zero =>
    rw [subtree, PerfectTree.inputs, List.mem_singleton, get] at member
    rw [Nat.add_zero] at fits
    rw [SparseMerkleTree.nodeStrings, if_pos fits, member]
    cases tree.leaves[bitsToKey path]? with
    | none => exact List.mem_cons_self
    | some value => exact List.mem_cons_self
  | succ level ih =>
    rw [SparseMerkleTree.nodeStrings]
    cases entry : tree.hasLeafWithPrefix path with
    | false =>
      rw [if_pos (by simp)]
      exact inputText_of_no_entry blake3 fits entry member
    | true =>
      rw [if_neg (by simp), computeNode_eq_digest blake3 (fits_below fits false),
        computeNode_eq_digest blake3 (fits_below fits true), List.mem_cons, List.mem_append]
      rw [subtree, PerfectTree.inputs, List.mem_cons, List.mem_append] at member
      rcases member with top | inLeft | inRight
      · exact .inl (by rw [top]; rfl)
      · exact .inr (.inl (ih (fits_below fits false) inLeft))
      · exact .inr (.inr (ih (fits_below fits true) inRight))

end Pruning

/-! ### The root -/

section Root

variable (blake3 : Blake3) (tree : SparseMerkleTree)

/-- The perfect tree over all keys. -/
def wholeTree : PerfectTree (Option (List UInt8)) treeDepth := subtree (get tree) treeDepth []

theorem no_entry_of_isEmpty (empty : tree.leaves.isEmpty = true) (bits : List Bool) :
    tree.hasLeafWithPrefix bits = false := by
  rw [← Bool.not_eq_true, SparseMerkleTree.hasLeafWithPrefix, List.any_eq_true]
  intro entry
  obtain ⟨key, listed, _⟩ := entry
  rw [Std.ExtTreeMap.mem_keys, Std.ExtTreeMap.isEmpty_iff.mp empty] at listed
  exact Std.ExtTreeMap.not_mem_empty listed

/-- **The root is the digest of the tree over all keys.** -/
theorem root_eq_digest : tree.root blake3 = (wholeTree tree).digest (smtHasher blake3) := by
  rw [SparseMerkleTree.root, wholeTree]
  split
  · rename_i empty
    exact (digest_of_no_entry blake3 (Nat.zero_add treeDepth) (no_entry_of_isEmpty tree empty [])).symm
  · exact computeNode_eq_digest blake3 (Nat.zero_add treeDepth)

theorem inputText_mem_rootStrings {input : Option (List UInt8) ⊕ Hash256 × Hash256}
    (member : input ∈ (wholeTree tree).inputs (smtHasher blake3)) :
    inputText input ∈ tree.rootStrings blake3 := by
  rw [SparseMerkleTree.rootStrings]
  split
  · rename_i empty
    exact inputText_of_no_entry blake3 (Nat.zero_add treeDepth)
      (no_entry_of_isEmpty tree empty []) member
  · exact inputText_mem_nodeStrings blake3 (Nat.zero_add treeDepth) member

end Root

/-! ### The position of a key -/

/-- The number of the leaf of a key: its bits, read as a binary number. -/
def position (key : Hash256) : ℕ := Nat.ofBits fun i : Fin treeDepth => getBit key (treeDepth - 1 - i)

theorem testBit_position (key : Hash256) {level : ℕ} (inside : level < treeDepth) :
    (position key).testBit level = getBit key (treeDepth - 1 - level) :=
  Nat.testBit_ofBits_lt _ _ inside

section Position

variable (blake3 : Blake3) (tree : SparseMerkleTree) (key : Hash256)

/-- The path of a key one level further down. -/
theorem keyBits_below {level : ℕ} (inside : level < treeDepth) :
    keyBits key (treeDepth - level) =
      keyBits key (treeDepth - (level + 1)) ++ [(position key).testBit level] := by
  have above : treeDepth - (level + 1) = treeDepth - 1 - level := by omega
  have here : treeDepth - level = treeDepth - 1 - level + 1 := by omega
  rw [testBit_position key inside, above, here, keyBits_succ]

/-- The leaf at the position of a key holds its value, in every subtree on the path. -/
theorem leafAt_subtree (contents : Hash256 → Option (List UInt8)) {level : ℕ}
    (inside : level ≤ treeDepth) :
    (subtree contents level (keyBits key (treeDepth - level))).leafAt (position key) =
      contents key := by
  induction level with
  | zero =>
    rw [subtree, PerfectTree.leafAt, Nat.sub_zero, bitsToKey_keyBits]
  | succ level ih =>
    have below := keyBits_below key inside
    rw [subtree, PerfectTree.leafAt]
    cases bit : (position key).testBit level with
    | true =>
      rw [bit] at below
      rw [if_pos rfl, ← below, ih (by omega)]
    | false =>
      rw [bit] at below
      rw [if_neg (by simp), ← below, ih (by omega)]

/-- **The leaf at the position of a key holds its value.** -/
theorem leafAt_position : (wholeTree tree).leafAt (position key) = get tree key := by
  have whole := leafAt_subtree key (get tree) (le_refl treeDepth)
  rwa [Nat.sub_self] at whole

/-- The sibling that the source computes for a level. -/
theorem siblingHash_eq_digest {level : ℕ} (inside : level < treeDepth) :
    tree.siblingHash blake3 key level =
      (subtree (get tree) level (keyBits key (treeDepth - (level + 1)) ++
        [!(position key).testBit level])).digest (smtHasher blake3) := by
  have turned : SparseMerkleTree.flipLast (keyBits key (treeDepth - level)) =
      keyBits key (treeDepth - (level + 1)) ++ [!(position key).testBit level] := by
    rw [keyBits_below key inside, SparseMerkleTree.flipLast, List.dropLast_concat,
      List.getLast?_concat]
    rfl
  simp only [SparseMerkleTree.siblingHash]
  rw [turned]
  apply computeNode_eq_digest
  rw [List.length_append, length_keyBits, List.length_singleton]
  omega

theorem siblings_subtree {level : ℕ} (inside : level ≤ treeDepth) :
    (subtree (get tree) level (keyBits key (treeDepth - level))).siblings (smtHasher blake3)
        (position key) =
      (List.range level).map (tree.siblingHash blake3 key) := by
  induction level with
  | zero => rfl
  | succ level ih =>
    have below := keyBits_below key inside
    rw [List.range_succ, List.map_append, List.map_singleton, ← ih (by omega),
      siblingHash_eq_digest blake3 tree key inside, below, subtree, PerfectTree.siblings]
    cases bit : (position key).testBit level with
    | true => rw [if_pos rfl]; rfl
    | false => rw [if_neg (by simp)]; rfl

/-- **The proof of a key** holds the siblings of its position. -/
theorem siblings_position :
    (prove blake3 tree key).siblings =
      (wholeTree tree).siblings (smtHasher blake3) (position key) := by
  have whole := siblings_subtree blake3 tree key (le_refl treeDepth)
  rw [Nat.sub_self] at whole
  exact whole.symm

theorem length_siblings_prove : (prove blake3 tree key).siblings.length = treeDepth := by
  rw [siblings_position, PerfectTree.length_siblings]

/-! ### The verifier's loop -/

theorem levelInput_position {i : ℕ} (inside : i < treeDepth) (sibling current : Hash256) :
    (smtHasher blake3).levelInput ((position key / 2 ^ i).testBit 0, sibling) current =
      if getBit key (treeDepth - 1 - i) then Sum.inr (sibling, current)
      else Sum.inr (current, sibling) := by
  rw [Nat.testBit_div_two_pow, Nat.zero_add, testBit_position key inside]
  rfl

/-- The loop from a level on is the climb along the remaining bits of the position. -/
theorem climb_fold {siblings : List Hash256} {i : ℕ} (fits : i + siblings.length ≤ treeDepth)
    (current : Hash256) :
    climb (smtHasher blake3) (withSides (position key / 2 ^ i) siblings) current =
      foldSiblings blake3 key siblings i current := by
  induction siblings generalizing i current with
  | nil => rfl
  | cons sibling rest ih =>
    rw [List.length_cons] at fits
    rw [withSides, climb, levelInput_position blake3 key (by omega), Nat.div_div_eq_div_mul,
      ← pow_succ, ih (by omega), foldSiblings]
    congr 1
    split
    · rfl
    · rfl

theorem climbInputs_fold {siblings : List Hash256} {i : ℕ}
    (fits : i + siblings.length ≤ treeDepth) (current : Hash256) :
    (climbInputs (smtHasher blake3) (withSides (position key / 2 ^ i) siblings) current).map
        inputText =
      foldStrings blake3 key siblings i current := by
  induction siblings generalizing i current with
  | nil => rfl
  | cons sibling rest ih =>
    rw [List.length_cons] at fits
    rw [withSides, climbInputs, levelInput_position blake3 key (by omega), Nat.div_div_eq_div_mul,
      ← pow_succ, List.map_cons, ih (by omega), foldStrings]
    split
    · rfl
    · rfl

/-- **The verifier climbs along the position of the key.** -/
theorem climb_position {siblings : List Hash256} (length : siblings.length = treeDepth)
    (current : Hash256) :
    climb (smtHasher blake3) (withSides (position key) siblings) current =
      foldSiblings blake3 key siblings 0 current := by
  have whole := climb_fold blake3 key (Nat.zero_add siblings.length ▸ length.le) current
  rwa [pow_zero, Nat.div_one] at whole

/-- The strings of the verifier are those of the climb. -/
theorem climbInputs_position {siblings : List Hash256} (length : siblings.length = treeDepth)
    (current : Hash256) :
    (climbInputs (smtHasher blake3) (withSides (position key) siblings) current).map inputText =
      foldStrings blake3 key siblings 0 current := by
  have whole := climbInputs_fold blake3 key (Nat.zero_add siblings.length ▸ length.le) current
  rwa [pow_zero, Nat.div_one] at whole

end Position

end Smt

end Exochain.ExoDag
