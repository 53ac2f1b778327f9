/-
**`exo-dag` — the sparse Merkle tree, as `smt.rs` computes it.**

A map from 256-bit keys to values, committed to by a tree with one leaf for each key. The tree is
never built: `computeNode` recurses from the root and stops at a subtree without an entry, whose
hash is the precomputed `defaultHash` of its level.

* A leaf is hashed with a tag and without its key; inner nodes are hashed without a tag. What binds
  a value to its key is the path alone, and what keeps leaves and inner nodes apart is the fixed
  length of a proof.
* `getBit` and `bitsToKey` number the bits of a key from the most significant one. They are inverse
  to each other (`bitsToKey_keyBits`, `keyBits_bitsToKey`).

Beside each hashing function stands the list of the strings it hashes.
-/

import Exochain.Foundation.Collections
import Exochain.Core.Hash
import Exochain.Dag.Graph

set_option linter.unusedSectionVars false

namespace Exochain.ExoDag

open Foundation ExoCore

namespace Smt

/-! ### Bits of a key -/

/-- The number of levels between the root and a leaf. -/
def treeDepth : ℕ := 256

/-- The bit of a key at a position, the most significant bit of the first byte at zero. -/
def getBit (key : Hash256) (pos : ℕ) : Bool :=
  let byteIdx := pos / 8
  let bitIdx := 7 - pos % 8
  (key.toList.getD byteIdx 0 >>> UInt8.ofNat bitIdx) &&& 1 == 1

/-- Set one bit in an array of bytes. -/
def setBit (bytes : List UInt8) (i : ℕ) : List UInt8 :=
  bytes.modify (i / 8) fun byte => byte ||| (1 <<< UInt8.ofNat (7 - i % 8))

@[simp] theorem length_setBit (bytes : List UInt8) (i : ℕ) : (setBit bytes i).length = bytes.length :=
  List.length_modify ..

/-- The loop of `bitsToKey`, from the bit at `i` on. -/
def setBits : List Bool → ℕ → List UInt8 → List UInt8
  | [], _, bytes => bytes
  | bit :: rest, i, bytes =>
    if 256 ≤ i then bytes
    else setBits rest (i + 1) (if bit then setBit bytes i else bytes)

@[simp] theorem length_setBits (bits : List Bool) (i : ℕ) (bytes : List UInt8) :
    (setBits bits i bytes).length = bytes.length := by
  induction bits generalizing i bytes with
  | nil => rfl
  | cons bit rest ih =>
    rw [setBits]
    split
    · rfl
    · rw [ih]
      split
      · exact length_setBit bytes i
      · rfl

/-- The key with the given leading bits; the others are zero. -/
def bitsToKey (bits : List Bool) : Hash256 where
  toList := setBits bits 0 (List.replicate 32 0)
  length_eq := by rw [length_setBits, List.length_replicate]

/-- The leading bits of a key. -/
def keyBits (key : Hash256) (depth : ℕ) : List Bool := (List.range depth).map (getBit key)

/-! ### A key is its bits -/

/-- The bit of an array of bytes at a position, the most significant bit of the first byte at zero. -/
def bitAt (bytes : List UInt8) (pos : ℕ) : Bool :=
  (bytes.getD (pos / 8) 0).toNat.testBit (7 - pos % 8)

theorem toNat_ofNat_bitIdx (pos : ℕ) : (UInt8.ofNat (7 - pos % 8)).toNat % 8 = 7 - pos % 8 := by
  rw [UInt8.toNat_ofNat']
  omega

theorem getBit_eq_bitAt (key : Hash256) (pos : ℕ) : getBit key pos = bitAt key.toList pos := by
  rw [getBit, bitAt, Nat.testBit_eq_decide_div_mod_eq, ← Nat.shiftRight_eq_div_pow,
    ← Nat.and_one_is_mod, beq_eq_decide, decide_eq_decide, ← UInt8.toNat_inj, UInt8.toNat_and,
    UInt8.toNat_shiftRight, toNat_ofNat_bitIdx]
  rfl

theorem toNat_bitMask (pos : ℕ) :
    (1 <<< UInt8.ofNat (7 - pos % 8) : UInt8).toNat = 2 ^ (7 - pos % 8) := by
  have small : 2 ^ (7 - pos % 8) < 2 ^ 8 := Nat.pow_lt_pow_right (by norm_num) (by omega)
  rw [UInt8.toNat_shiftLeft, toNat_ofNat_bitIdx, UInt8.toNat_one, Nat.one_shiftLeft,
    Nat.mod_eq_of_lt small]

theorem bitAt_setBit {bytes : List UInt8} {i : ℕ} (inside : i / 8 < bytes.length) (pos : ℕ) :
    bitAt (setBit bytes i) pos = (bitAt bytes pos || decide (i = pos)) := by
  rw [bitAt, bitAt, setBit, List.getD_eq_getElem?_getD, List.getD_eq_getElem?_getD,
    List.getElem?_modify]
  by_cases same : i / 8 = pos / 8
  · simp only [if_pos same]
    rw [← same, List.getElem?_eq_getElem inside]
    show (bytes[i / 8] ||| (1 <<< UInt8.ofNat (7 - i % 8))).toNat.testBit _ =
      (bytes[i / 8].toNat.testBit _ || _)
    rw [UInt8.toNat_or, toNat_bitMask, Nat.testBit_or, Nat.testBit_two_pow]
    congr 1
    rw [decide_eq_decide]
    omega
  · have apart : i ≠ pos := fun equal => same (by rw [equal])
    simp only [if_neg same, decide_eq_false apart, Bool.or_false, id_map']

theorem bitAt_setBits {bits : List Bool} {i : ℕ} {bytes : List UInt8} (fits : i + bits.length ≤ 256)
    (length : bytes.length = 32) (pos : ℕ) :
    bitAt (setBits bits i bytes) pos =
      (bitAt bytes pos || (decide (i ≤ pos) && bits.getD (pos - i) false)) := by
  induction bits generalizing i bytes with
  | nil => simp [setBits]
  | cons bit rest ih =>
    rw [List.length_cons] at fits
    have here : bitAt (if bit then setBit bytes i else bytes) pos =
        (bitAt bytes pos || (decide (i = pos) && bit)) := by
      cases bit with
      | false => rw [Bool.and_false, Bool.or_false, if_neg (by simp)]
      | true => rw [Bool.and_true, if_pos rfl, bitAt_setBit (by omega)]
    have kept : (if bit then setBit bytes i else bytes).length = 32 := by
      rw [apply_ite List.length, length_setBit, length, ite_self]
    rw [setBits, if_neg (by omega), ih (by omega) kept, here, Bool.or_assoc]
    congr 1
    rcases Nat.lt_trichotomy pos i with before | rfl | after
    · simp [Nat.not_le.mpr before, show ¬ i + 1 ≤ pos by omega, show i ≠ pos by omega]
    · simp
    · obtain ⟨gap, rfl⟩ := Nat.exists_eq_add_of_lt after
      rw [show i + gap + 1 - i = gap + 1 by omega, show i + gap + 1 - (i + 1) = gap by omega,
        List.getD_cons_succ]
      simp [show i ≤ i + gap + 1 by omega, show i ≠ i + gap + 1 by omega]

theorem bitAt_replicate (pos : ℕ) : bitAt (List.replicate 32 0) pos = false := by
  have zero : (List.replicate 32 (0 : UInt8)).getD (pos / 8) 0 = 0 := by
    rw [List.getD_eq_getElem?_getD, List.getElem?_replicate]
    split
    · rfl
    · rfl
  rw [bitAt, zero]
  exact Nat.zero_testBit _

/-- **The bits of a built key** are the given ones. -/
theorem getBit_bitsToKey {bits : List Bool} (fits : bits.length ≤ treeDepth) (pos : ℕ) :
    getBit (bitsToKey bits) pos = bits.getD pos false := by
  rw [getBit_eq_bitAt, bitsToKey, bitAt_setBits (by unfold treeDepth at fits; omega) (by simp),
    bitAt_replicate]
  simp

/-- **A key is its bits.** -/
theorem eq_of_getBit_eq {key other : Hash256}
    (same : ∀ pos < treeDepth, getBit key pos = getBit other pos) : key = other := by
  apply FixedBytes.ext
  apply List.ext_getElem (by rw [key.length_eq, other.length_eq])
  intro i inKey inOther
  rw [← UInt8.toNat_inj]
  apply Nat.eq_of_testBit_eq
  intro b
  rw [key.length_eq] at inKey
  by_cases inByte : b < 8
  · have bit := same (8 * i + (7 - b)) (by unfold treeDepth; omega)
    rw [getBit_eq_bitAt, getBit_eq_bitAt, bitAt, bitAt, show (8 * i + (7 - b)) / 8 = i by omega,
      show 7 - (8 * i + (7 - b)) % 8 = b by omega, List.getD_eq_getElem _ _ ‹_›,
      List.getD_eq_getElem _ _ inOther] at bit
    exact bit
  · have high : ∀ byte : UInt8, byte.toNat.testBit b = false := by
      intro byte
      apply Nat.testBit_lt_two_pow
      exact byte.toNat_lt.trans_le (Nat.pow_le_pow_right (by norm_num) (by omega))
    rw [high, high]

@[simp] theorem length_keyBits (key : Hash256) (depth : ℕ) : (keyBits key depth).length = depth := by
  rw [keyBits, List.length_map, List.length_range]

theorem keyBits_succ (key : Hash256) (depth : ℕ) :
    keyBits key (depth + 1) = keyBits key depth ++ [getBit key depth] := by
  rw [keyBits, keyBits, List.range_succ, List.map_append, List.map_singleton]

theorem getD_keyBits {key : Hash256} {depth pos : ℕ} (inside : pos < depth) :
    (keyBits key depth).getD pos false = getBit key pos := by
  rw [keyBits, List.getD_eq_getElem?_getD, List.getElem?_map, List.getElem?_range inside]
  rfl

/-- **Taking a key apart and building it again.** -/
theorem bitsToKey_keyBits (key : Hash256) : bitsToKey (keyBits key treeDepth) = key := by
  apply eq_of_getBit_eq
  intro pos inside
  rw [getBit_bitsToKey (length_keyBits key treeDepth).le, getD_keyBits inside]

/-- **Building a key and taking it apart again.** -/
theorem keyBits_bitsToKey {bits : List Bool} (whole : bits.length = treeDepth) :
    keyBits (bitsToKey bits) treeDepth = bits := by
  apply List.ext_getElem (by rw [length_keyBits, whole])
  intro pos inKey inBits
  rw [← List.getD_eq_getElem _ false inKey, ← List.getD_eq_getElem _ false inBits,
    getD_keyBits (by rwa [length_keyBits] at inKey), getBit_bitsToKey whole.le]

/-! ### Hashing -/

section Hashing

variable (blake3 : Blake3)

/-- The string of an empty leaf. -/
def emptyLeafString : List UInt8 := "smt:empty:leaf".toUTF8.data.toList

/-- The string of a leaf with a value. -/
def leafString (value : List UInt8) : List UInt8 := "smt:leaf:".toUTF8.data.toList ++ value

/-- The hash of two children. -/
def hashPair (left right : Hash256) : Hash256 := blake3 (pairString left right)

/-- The hash of a value. -/
def hashLeaf (value : List UInt8) : Hash256 := blake3 (leafString value)

/-- The hash of a subtree without an entry. -/
def defaultHash : ℕ → Hash256
  | 0 => Hash256.digest blake3 emptyLeafString
  | level + 1 => hashPair blake3 (defaultHash level) (defaultHash level)

/-- The strings that `defaultHash` hashes. -/
def defaultStrings : ℕ → List (List UInt8)
  | 0 => [emptyLeafString]
  | level + 1 =>
    pairString (defaultHash blake3 level) (defaultHash blake3 level) :: defaultStrings level

end Hashing

/-! ### The tree -/

/-- A Merkle proof for inclusion or non-inclusion. -/
structure MerkleProof where
  siblings : List Hash256
  key : Hash256
  value : Option (List UInt8)
  deriving DecidableEq

/-- A sparse Merkle tree with a 256-bit key space. -/
structure SparseMerkleTree where
  leaves : BTreeMap Hash256 (List UInt8)

namespace SparseMerkleTree

/-- The empty tree. -/
def new : SparseMerkleTree := ⟨∅⟩

/-- Some entry's key starts with the given bits. -/
def hasLeafWithPrefix (tree : SparseMerkleTree) (bits : List Bool) : Bool :=
  tree.leaves.keys.any fun key => keyBits key bits.length == bits

variable (blake3 : Blake3)

/-- The hash of the subtree of a level below the given path. -/
def computeNode (tree : SparseMerkleTree) : ℕ → List Bool → Hash256
  | 0, pathBits =>
    if pathBits.length = treeDepth then
      match tree.leaves[bitsToKey pathBits]? with
      | some value => hashLeaf blake3 value
      | none => defaultHash blake3 0
    else defaultHash blake3 0
  | level + 1, pathBits =>
    if !tree.hasLeafWithPrefix pathBits then defaultHash blake3 (level + 1)
    else
      hashPair blake3 (computeNode tree level (pathBits ++ [false]))
        (computeNode tree level (pathBits ++ [true]))

/-- The strings that `computeNode` hashes. -/
def nodeStrings (tree : SparseMerkleTree) : ℕ → List Bool → List (List UInt8)
  | 0, pathBits =>
    if pathBits.length = treeDepth then
      match tree.leaves[bitsToKey pathBits]? with
      | some value => [leafString value]
      | none => defaultStrings blake3 0
    else defaultStrings blake3 0
  | level + 1, pathBits =>
    if !tree.hasLeafWithPrefix pathBits then defaultStrings blake3 (level + 1)
    else
      pairString (tree.computeNode blake3 level (pathBits ++ [false]))
          (tree.computeNode blake3 level (pathBits ++ [true])) ::
        (nodeStrings tree level (pathBits ++ [false]) ++
          nodeStrings tree level (pathBits ++ [true]))

/-- The root hash. -/
def root (tree : SparseMerkleTree) : Hash256 :=
  if tree.leaves.isEmpty then defaultHash blake3 treeDepth else tree.computeNode blake3 treeDepth []

/-- The strings that `root` hashes. -/
def rootStrings (tree : SparseMerkleTree) : List (List UInt8) :=
  if tree.leaves.isEmpty then defaultStrings blake3 treeDepth
  else tree.nodeStrings blake3 treeDepth []

/-- The last bit of a path turned to the other side. -/
def flipLast (bits : List Bool) : List Bool :=
  bits.dropLast ++ (bits.getLast?.map (!·)).toList

/-- The hash of the sibling of the node on a key's path at a level. -/
def siblingHash (tree : SparseMerkleTree) (key : Hash256) (level : ℕ) : Hash256 :=
  let depth := treeDepth - level
  tree.computeNode blake3 level (flipLast (keyBits key depth))

end SparseMerkleTree

/-! ### Operations -/

section Operations

variable (blake3 : Blake3)

/-- Insert a key-value pair. The answer is the new root hash. -/
def insert (tree : SparseMerkleTree) (key : Hash256) (value : List UInt8) :
    Except DagError Hash256 × SparseMerkleTree :=
  if value.isEmpty then (.error (.smtError "empty value"), tree)
  else
    let tree : SparseMerkleTree := ⟨tree.leaves.insert key value⟩
    (.ok (tree.root blake3), tree)

/-- The value at a key. -/
def get (tree : SparseMerkleTree) (key : Hash256) : Option (List UInt8) := tree.leaves[key]?

/-- A Merkle proof for a key. -/
def prove (tree : SparseMerkleTree) (key : Hash256) : MerkleProof :=
  { siblings := (List.range treeDepth).map (tree.siblingHash blake3 key)
    key
    value := tree.leaves[key]? }

/-- The loop of `verifyProof`, from the sibling at `i` on. -/
def foldSiblings (key : Hash256) : List Hash256 → ℕ → Hash256 → Hash256
  | [], _, current => current
  | sibling :: rest, i, current =>
    let depth := treeDepth - 1 - i
    foldSiblings key rest (i + 1)
      (if getBit key depth then hashPair blake3 sibling current else hashPair blake3 current sibling)

/-- The hash a proof starts from. -/
def startHash : Option (List UInt8) → Hash256
  | some value => hashLeaf blake3 value
  | none => defaultHash blake3 0

/-- Verify a Merkle proof against a root. -/
def verifyProof (root key : Hash256) (value : Option (List UInt8)) (proof : MerkleProof) : Bool :=
  if proof.siblings.length ≠ treeDepth then false
  else foldSiblings blake3 key proof.siblings 0 (startHash blake3 value) == root

/-- The strings that the loop of `verifyProof` hashes. -/
def foldStrings (key : Hash256) : List Hash256 → ℕ → Hash256 → List (List UInt8)
  | [], _, _ => []
  | sibling :: rest, i, current =>
    let pair := if getBit key (treeDepth - 1 - i) then (sibling, current) else (current, sibling)
    pairString pair.1 pair.2 :: foldStrings key rest (i + 1) (hashPair blake3 pair.1 pair.2)

/-- The string a proof starts from. -/
def startString : Option (List UInt8) → List UInt8
  | some value => leafString value
  | none => emptyLeafString

/-- The strings that `verifyProof` hashes. -/
def verifyStrings (key : Hash256) (value : Option (List UInt8)) (proof : MerkleProof) :
    List (List UInt8) :=
  startString value :: foldStrings blake3 key proof.siblings 0 (startHash blake3 value)

end Operations

end Smt

end Exochain.ExoDag
