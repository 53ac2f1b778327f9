/-
**What a Merkle root and a Merkle proof bind.**

`merkleRoot` is the digest of the perfect tree over the list (`merkleRoot_eq_digest`), with the
leaves as they are. Two consequences of the way the tree is built:

* an odd last node is duplicated, so the root binds the `completion` of the list and not the list:
  `merkleRoot_eq_iff_completion`. Lists of one length are bound.
* the verifier does not know the height of the tree. `merkle_proof_sound_iff` — **the exact law**: a
  proof speaks for the leaf at its index unless it opens an inner node, being too short, or goes on
  below a leaf, being too long.
-/

import Exochain.Foundation.Blake3
import Exochain.Core.Hash

set_option linter.unusedSectionVars false

namespace Exochain.ExoCore

open Foundation

/-! ### The tree behind the loops -/

section Tree

variable (blake3 : Blake3)

/-- Leaves are taken as they are; inner nodes are hashed by `hashPair`. -/
def merkleHasher : TreeHasher Hash256 (Hash256 ⊕ Hash256 × Hash256) Hash256 :=
  TreeHasher.free id (hashPair blake3)

theorem digest_leaves (first : Hash256) (rest : List Hash256) :
    (.leaf first :: rest.map PerfectTree.leaf).map (PerfectTree.digest (merkleHasher blake3)) =
      first :: rest := by
  rw [← List.map_cons, List.map_map]
  exact List.map_id _

/-- **The root is the digest of the tree over the list.** -/
theorem merkleRoot_eq_digest (first : Hash256) (rest : List Hash256) :
    merkleRoot blake3 (first :: rest) = (treeOver first rest).2.digest (merkleHasher blake3) := by
  have reduced := pairReduce_digest (merkleHasher blake3) (.leaf first) (rest.map PerfectTree.leaf)
  rw [digest_leaves] at reduced
  have loop : pairReduce (hashPair blake3) (first :: rest) =
      [(treeOver first rest).2.digest (merkleHasher blake3)] := reduced
  cases rest with
  | nil =>
    rw [pairReduce_singleton, List.singleton_inj] at loop
    exact loop
  | cons second rest =>
    show (pairReduce (hashPair blake3) (first :: second :: rest)).headD .zero = _
    rw [loop]
    rfl

/-- The pair of one level of a proof. -/
theorem levelInput_eq_pair (index : ℕ) (sibling current : Hash256) :
    (merkleHasher blake3).levelInput (index.testBit 0, sibling) current =
      Sum.inr (if index % 2 = 0 then (current, sibling) else (sibling, current)) := by
  unfold TreeHasher.levelInput
  by_cases even : index % 2 = 0
  · rw [if_pos even, if_neg (by simp [Nat.testBit_zero, even])]
    rfl
  · have odd : index % 2 = 1 := by omega
    rw [if_neg even, if_pos (by simp [Nat.testBit_zero, odd])]
    rfl

/-- The verifier's loop is the climb along the sides of the index. -/
theorem climb_eq_foldProof (proof : List Hash256) (index : ℕ) (current : Hash256) :
    climb (merkleHasher blake3) (withSides index proof) current =
      foldProof blake3 proof index current := by
  induction proof generalizing index current with
  | nil => rfl
  | cons sibling rest ih =>
    rw [withSides, climb, foldProof, levelInput_eq_pair, ih]
    split
    · rfl
    · rfl

theorem climbInputs_eq_proofPairs (proof : List Hash256) (index : ℕ) (current : Hash256) :
    climbInputs (merkleHasher blake3) (withSides index proof) current =
      (proofPairs blake3 proof index current).map Sum.inr := by
  induction proof generalizing index current with
  | nil => rfl
  | cons sibling rest ih =>
    rw [withSides, climbInputs, levelInput_eq_pair, ih]
    rfl

/-- Pairs that collide are strings that collide. -/
theorem collision_of_pairs {pairs : List (Hash256 × Hash256)}
    (collision : CollisionIn (merkleHasher blake3).hash (pairs.map Sum.inr)) :
    CollisionIn blake3 (pairs.map (Function.uncurry pairString)) := by
  obtain ⟨x, xIn, y, yIn, different, same⟩ := collision
  obtain ⟨⟨left, right⟩, pairIn, rfl⟩ := List.mem_map.mp xIn
  obtain ⟨⟨left', right'⟩, pairIn', rfl⟩ := List.mem_map.mp yIn
  refine ⟨_, List.mem_map_of_mem pairIn, _, List.mem_map_of_mem pairIn', ?_, same⟩
  intro strings
  exact different (congrArg Sum.inr (pairString_injective strings))

/-- The inner inputs of the tree are the pairs that the root computation hashes. -/
theorem nodeInputs_treeOver (first : Hash256) (rest : List Hash256) :
    ∀ s ∈ (treeOver first rest).2.nodeInputs (merkleHasher blake3),
      s ∈ (reducedPairs (hashPair blake3) (first :: rest)).map Sum.inr := by
  intro s member
  rcases nodeInputs_grow (merkleHasher blake3) _ _ member with
    ⟨tree, among, inTree⟩ | ⟨left, right, combined, rfl⟩
  · rw [← List.map_cons] at among
    obtain ⟨leaf, _, rfl⟩ := List.mem_map.mp among
    cases inTree
  · rw [digest_leaves] at combined
    exact List.mem_map_of_mem combined

end Tree

/-! ### What the root binds -/

section Root

variable {blake3 : Blake3}

/-- A leaf is the digest of one of the hashed strings. -/
def LeafIsDigest (blake3 : Blake3) (leaves : List Hash256) (strings : List (List UInt8)) : Prop :=
  ∃ leaf ∈ leaves, ∃ string ∈ strings, leaf = blake3 string

instance (leaves : List Hash256) (strings : List (List UInt8)) :
    Decidable (LeafIsDigest blake3 leaves strings) :=
  inferInstanceAs (Decidable (∃ leaf ∈ leaves, ∃ string ∈ strings, leaf = blake3 string))

/-- An input of the tree over a list is a leaf of the list or a string of its root computation. -/
theorem leaf_or_string {first : Hash256} {rest : List Hash256} {s : Hash256 ⊕ Hash256 × Hash256}
    (member : s ∈ (treeOver first rest).2.inputs (merkleHasher blake3)) :
    (∃ leaf ∈ first :: rest, s = Sum.inl leaf) ∨
      ∃ left right, s = Sum.inr (left, right) ∧
        pairString left right ∈ rootStrings blake3 (first :: rest) := by
  rcases PerfectTree.leaf_or_node_of_mem_inputs _ _ member with ⟨leaf, among, same⟩ | inner
  · obtain ⟨more, complete, repeated⟩ := completion_eq_append (first :: rest)
    have inCompletion : leaf ∈ completion (first :: rest) := among
    rw [complete] at inCompletion
    rcases List.mem_append.mp inCompletion with listed | again
    · exact .inl ⟨leaf, listed, same⟩
    · exact .inl ⟨leaf, repeated leaf again, same⟩
  · obtain ⟨⟨left, right⟩, combined, rfl⟩ :=
      List.mem_map.mp (nodeInputs_treeOver blake3 first rest s inner)
    exact .inr ⟨left, right, rfl, List.mem_map_of_mem combined⟩

/-- Without a collision of strings and without a leaf among the digests, the inputs of trees do not
collide. -/
theorem not_collision_inputs {leaves : List Hash256} {strings : List (List UInt8)}
    {inputs : List (Hash256 ⊕ Hash256 × Hash256)}
    (free : ¬ CollisionIn blake3 strings) (apart : ¬ LeafIsDigest blake3 leaves strings)
    (kinds : ∀ s ∈ inputs, (∃ leaf ∈ leaves, s = Sum.inl leaf) ∨
      ∃ left right, s = Sum.inr (left, right) ∧ pairString left right ∈ strings) :
    ¬ CollisionIn (merkleHasher blake3).hash inputs := by
  rintro ⟨x, xIn, y, yIn, different, same⟩
  rcases kinds x xIn with ⟨leaf, listed, rfl⟩ | ⟨left, right, rfl, hashed⟩
  · rcases kinds y yIn with ⟨leaf', _, rfl⟩ | ⟨left, right, rfl, hashed⟩
    · exact different (congrArg Sum.inl same)
    · exact apart ⟨leaf, listed, _, hashed, same⟩
  · rcases kinds y yIn with ⟨leaf, listed, rfl⟩ | ⟨left', right', rfl, hashed'⟩
    · exact apart ⟨leaf, listed, _, hashed, same.symm⟩
    · refine free ⟨_, hashed, _, hashed', fun strings => ?_, same⟩
      exact different (congrArg Sum.inr (pairString_injective strings))

/-- **The root binds the completion of the list**, and so every list among those of its length,
unless two of the hashed strings collide or a leaf is the digest of one. -/
theorem merkleRoot_eq_iff_completion (xs ys : List Hash256) (someX : xs ≠ []) (someY : ys ≠ [])
    (free : ¬ CollisionIn blake3 (rootStrings blake3 xs ++ rootStrings blake3 ys))
    (apart : ¬ LeafIsDigest blake3 (xs ++ ys)
      (rootStrings blake3 xs ++ rootStrings blake3 ys)) :
    (merkleRoot blake3 xs = merkleRoot blake3 ys ↔ completion xs = completion ys) ∧
      (xs.length = ys.length → merkleRoot blake3 xs = merkleRoot blake3 ys → xs = ys) := by
  obtain ⟨x, xs, rfl⟩ := List.exists_cons_of_ne_nil someX
  obtain ⟨y, ys, rfl⟩ := List.exists_cons_of_ne_nil someY
  have exact_binding : merkleRoot blake3 (x :: xs) = merkleRoot blake3 (y :: ys) ↔
      completion (x :: xs) = completion (y :: ys) := by
    rw [merkleRoot_eq_digest, merkleRoot_eq_digest]
    refine ⟨fun same => ?_, fun same => PerfectTree.digest_eq_of_leaves_eq _ _ _ same⟩
    have kinds : ∀ s ∈ (treeOver x xs).2.inputs (merkleHasher blake3) ++
          (treeOver y ys).2.inputs (merkleHasher blake3),
        (∃ leaf ∈ x :: xs ++ y :: ys, s = Sum.inl leaf) ∨
          ∃ left right, s = Sum.inr (left, right) ∧ pairString left right ∈
            rootStrings blake3 (x :: xs) ++ rootStrings blake3 (y :: ys) := by
      intro s member
      rcases List.mem_append.mp member with inX | inY
      · rcases leaf_or_string inX with ⟨leaf, listed, same⟩ | ⟨left, right, same, hashed⟩
        · exact .inl ⟨leaf, List.mem_append_left _ listed, same⟩
        · exact .inr ⟨left, right, same, List.mem_append_left _ hashed⟩
      · rcases leaf_or_string inY with ⟨leaf, listed, same⟩ | ⟨left, right, same, hashed⟩
        · exact .inl ⟨leaf, List.mem_append_right _ listed, same⟩
        · exact .inr ⟨left, right, same, List.mem_append_right _ hashed⟩
    exact digest_binds (merkleHasher blake3) (not_collision_inputs free apart kinds) _ _
      (fun s member => List.mem_append_left _ member)
      (fun s member => List.mem_append_right _ member) same
  exact ⟨exact_binding, fun length same => eq_of_completion_eq length (exact_binding.mp same)⟩

end Root

namespace OddLeaves

/-- Three leaves, and the same leaves with the last one repeated. -/
def three : List Hash256 := [FixedBytes.fill 32 1, FixedBytes.fill 32 2, FixedBytes.fill 32 3]

def four : List Hash256 := three ++ [FixedBytes.fill 32 3]

theorem same_root : merkleRoot Blake3.hash three = merkleRoot Blake3.hash four := by
  decide +kernel

theorem no_collision : ¬ CollisionIn Blake3.hash
    (rootStrings Blake3.hash three ++ rootStrings Blake3.hash four) := by
  decide +kernel

theorem no_leaf_digest : ¬ LeafIsDigest Blake3.hash (three ++ four)
    (rootStrings Blake3.hash three ++ rootStrings Blake3.hash four) := by
  decide +kernel

/-- **A list and its duplicated end have one root**, without a collision and without a leaf among
the digests. -/
theorem duplicated_leaf_same_root :
    ¬ ∀ xs ys : List Hash256, xs ≠ [] → ys ≠ [] →
      merkleRoot Blake3.hash xs = merkleRoot Blake3.hash ys →
      xs = ys ∨
        CollisionIn Blake3.hash (rootStrings Blake3.hash xs ++ rootStrings Blake3.hash ys) ∨
        LeafIsDigest Blake3.hash (xs ++ ys)
          (rootStrings Blake3.hash xs ++ rootStrings Blake3.hash ys) := by
  intro binds
  rcases binds three four (by decide) (by decide) same_root with same | collision | digest
  · exact absurd same (by decide)
  · exact no_collision collision
  · exact no_leaf_digest digest

/-- What the one root of the two lists stands for. -/
theorem one_root_one_completion :
    merkleRoot Blake3.hash three = merkleRoot Blake3.hash four ∧
      completion three = completion four :=
  ⟨same_root, (merkleRoot_eq_iff_completion three four (by decide) (by decide) no_collision
    no_leaf_digest).1.mp same_root⟩

end OddLeaves

/-! ### What a proof binds -/

section Proof

variable {blake3 : Blake3} {leaves : List Hash256} {index : ℕ} {x : Hash256} {proof : List Hash256}

/-- The value and the siblings are those of a position in the tree over the list. -/
def Opens (blake3 : Blake3) : List Hash256 → ℕ → Hash256 → List Hash256 → Prop
  | [], _, _, _ => False
  | first :: rest, index, x, proof =>
    x = (treeOver first rest).2.leafAt index ∧
      proof = (treeOver first rest).2.siblings (merkleHasher blake3) index

theorem treeOver_height (first : Hash256) (rest : List Hash256) :
    (treeOver first rest).1 = Nat.clog 2 (first :: rest).length := by
  rw [treeOver, grow_height, List.length_map, List.length_cons, Nat.zero_add]

/-- The proof of a position is as long as the tree is high. -/
theorem Opens.length (opens : Opens blake3 leaves index x proof) :
    proof.length = Nat.clog 2 leaves.length := by
  cases leaves with
  | nil => cases opens
  | cons first rest => rw [opens.2, PerfectTree.length_siblings, treeOver_height]

/-- A position of the tree is accepted. -/
theorem Opens.verifies (opens : Opens blake3 leaves index x proof) :
    verifyMerkleProof blake3 (merkleRoot blake3 leaves) x proof index = true := by
  cases leaves with
  | nil => cases opens
  | cons first rest =>
    obtain ⟨rfl, rfl⟩ := opens
    rw [verifyMerkleProof, beq_iff_eq, merkleRoot_eq_digest, ← climb_eq_foldProof]
    exact climb_path (merkleHasher blake3) (treeOver first rest).2 index

/-- A position below the length of the list holds the element there. -/
theorem Opens.getElem? (opens : Opens blake3 leaves index x proof) (inside : index < leaves.length) :
    leaves[index]? = some x := by
  cases leaves with
  | nil => cases opens
  | cons first rest =>
    have bound : index < 2 ^ (treeOver first rest).1 := by
      rw [treeOver_height]
      exact inside.trans_le (Nat.le_pow_clog (by omega) _)
    have position := (treeOver first rest).2.getElem?_leaves_mod index
    rw [Nat.mod_eq_of_lt bound, ← opens.1] at position
    obtain ⟨more, complete, _⟩ := completion_eq_append (first :: rest)
    have listed : (completion (first :: rest))[index]? = some x := position
    rw [complete, List.getElem?_append_left inside] at listed
    exact listed

/-- **A proof of the right length** is accepted only for a position of the tree. -/
theorem opens_of_length {strings : List (List UInt8)} (free : ¬ CollisionIn blake3 strings)
    (some_leaf : leaves ≠ []) (rootIn : ∀ s ∈ rootStrings blake3 leaves, s ∈ strings)
    (proofIn : ∀ s ∈ proofStrings blake3 x proof index, s ∈ strings)
    (length : proof.length = Nat.clog 2 leaves.length)
    (accepted : verifyMerkleProof blake3 (merkleRoot blake3 leaves) x proof index = true) :
    Opens blake3 leaves index x proof := by
  obtain ⟨first, rest, rfl⟩ := List.exists_cons_of_ne_nil some_leaf
  rw [verifyMerkleProof, beq_iff_eq, merkleRoot_eq_digest, ← climb_eq_foldProof] at accepted
  let pairs := reducedPairs (hashPair blake3) (first :: rest) ++ proofPairs blake3 proof index x
  have noCollision : ¬ CollisionIn (merkleHasher blake3).hash (pairs.map Sum.inr) := by
    intro collision
    refine free ((collision_of_pairs blake3 collision).mono fun s member => ?_)
    rw [List.map_append] at member
    rcases List.mem_append.mp member with inRoot | inProof
    · exact rootIn s inRoot
    · exact proofIn s inProof
  refine climb_sound_of_length (merkleHasher blake3) noCollision (treeOver first rest).2 ?_ ?_ ?_
    accepted
  · intro s member
    rw [List.map_append]
    exact List.mem_append_left _ (nodeInputs_treeOver blake3 first rest s member)
  · rw [length, treeOver_height]
  · intro s member
    rw [climbInputs_eq_proofPairs] at member
    rw [List.map_append]
    exact List.mem_append_right _ member

/-! ### Proofs of another length -/

theorem merkleRoot_eq_headD (some_leaf : leaves ≠ []) :
    merkleRoot blake3 leaves = (pairReduce (hashPair blake3) leaves).headD .zero := by
  obtain ⟨first, rest, rfl⟩ := List.exists_cons_of_ne_nil some_leaf
  cases rest with
  | nil => rw [pairReduce_singleton]; rfl
  | cons second rest => rfl

/-- A level of several nodes and the level above it have one root. -/
theorem merkleRoot_pairLevel (several : 1 < leaves.length) :
    merkleRoot blake3 (pairLevel (hashPair blake3) leaves) = merkleRoot blake3 leaves := by
  have some_leaf : leaves ≠ [] := List.ne_nil_of_length_pos (by omega)
  have some_node : pairLevel (hashPair blake3) leaves ≠ [] := by
    apply List.ne_nil_of_length_pos
    rw [length_pairLevel]
    omega
  rw [merkleRoot_eq_headD some_leaf, merkleRoot_eq_headD some_node, pairReduce_of_several several]

theorem clog_pairLevel (blake3 : Blake3) (several : 1 < leaves.length) :
    Nat.clog 2 leaves.length = Nat.clog 2 (pairLevel (hashPair blake3) leaves).length + 1 := by
  rw [Nat.clog_of_two_le (by omega) several, length_pairLevel]
  rfl

/-- Every level above a list is not empty and has the root of the list. -/
theorem root_of_levelsAbove (leaves : List Hash256) :
    ∀ level ∈ levelsAbove (hashPair blake3) leaves,
      merkleRoot blake3 level = merkleRoot blake3 leaves := by
  fun_induction levelsAbove (hashPair blake3) leaves with
  | case1 leaves several ih =>
    intro level member
    rcases List.mem_cons.mp member with rfl | above
    · exact merkleRoot_pairLevel several
    · exact (ih level above).trans (merkleRoot_pairLevel several)
  | case2 leaves few =>
    intro level member
    cases member

/-- **A proof that is too short** is accepted only for an inner node. -/
theorem inner_of_short {strings : List (List UInt8)} (free : ¬ CollisionIn blake3 strings)
    (some_leaf : leaves ≠ []) (rootIn : ∀ s ∈ rootStrings blake3 leaves, s ∈ strings)
    (proofIn : ∀ s ∈ proofStrings blake3 x proof index, s ∈ strings)
    (short : proof.length < Nat.clog 2 leaves.length)
    (accepted : verifyMerkleProof blake3 (merkleRoot blake3 leaves) x proof index = true) :
    ∃ level ∈ levelsAbove (hashPair blake3) leaves, Opens blake3 level index x proof := by
  -- from the leaves up: the level whose height is the length of the proof is the one opened
  fun_induction levelsAbove (hashPair blake3) leaves with
  | case1 leaves several ih =>
    rw [← merkleRoot_pairLevel several] at accepted
    have levelIn : ∀ s ∈ rootStrings blake3 (pairLevel (hashPair blake3) leaves), s ∈ strings := by
      intro s member
      refine rootIn s ?_
      rw [rootStrings, reducedPairs_of_several several, List.map_append]
      exact List.mem_append_right _ member
    have some_node : pairLevel (hashPair blake3) leaves ≠ [] := by
      apply List.ne_nil_of_length_pos
      rw [length_pairLevel]
      omega
    have height := clog_pairLevel blake3 several
    by_cases reached : proof.length = Nat.clog 2 (pairLevel (hashPair blake3) leaves).length
    · exact ⟨_, List.mem_cons_self, opens_of_length free some_node levelIn proofIn reached accepted⟩
    · obtain ⟨level, above, opens⟩ := ih some_node levelIn (by omega) accepted
      exact ⟨level, List.mem_cons_of_mem _ above, opens⟩
  | case2 leaves few =>
    have flat : Nat.clog 2 leaves.length = 0 := Nat.clog_of_right_le_one (by omega) 2
    omega

theorem foldProof_append (below above : List Hash256) (index : ℕ) (current : Hash256) :
    foldProof blake3 (below ++ above) index current =
      foldProof blake3 above (index / 2 ^ below.length) (foldProof blake3 below index current) := by
  induction below generalizing index current with
  | nil => simp [foldProof]
  | cons sibling below ih =>
    rw [List.cons_append, foldProof, foldProof, ih, Nat.div_div_eq_div_mul, List.length_cons,
      pow_succ']

theorem proofPairs_append (below above : List Hash256) (index : ℕ) (current : Hash256) :
    proofPairs blake3 (below ++ above) index current =
      proofPairs blake3 below index current ++
        proofPairs blake3 above (index / 2 ^ below.length) (foldProof blake3 below index current) := by
  induction below generalizing index current with
  | nil => simp [proofPairs, foldProof]
  | cons sibling below ih =>
    rw [List.cons_append, proofPairs, proofPairs, foldProof, ih, Nat.div_div_eq_div_mul,
      List.length_cons, pow_succ', List.cons_append]
    split
    · rfl
    · rfl

/-- The proof opens a node of a level above the leaves. -/
def OpensInnerNode (blake3 : Blake3) (leaves : List Hash256) (index : ℕ) (x : Hash256)
    (proof : List Hash256) : Prop :=
  ∃ level ∈ levelsAbove (hashPair blake3) leaves, Opens blake3 level index x proof

/-- The proof opens a leaf after hashing the value up to that leaf with one or more siblings. -/
def GoesBelowLeaf (blake3 : Blake3) (leaves : List Hash256) (index : ℕ) (x : Hash256)
    (proof : List Hash256) : Prop :=
  ∃ below above, proof = below ++ above ∧ below ≠ [] ∧
    Opens blake3 leaves (index / 2 ^ below.length) (foldProof blake3 below index x) above

/-- **A proof that is too long** is accepted only through a leaf. -/
theorem below_of_long {strings : List (List UInt8)} (free : ¬ CollisionIn blake3 strings)
    (some_leaf : leaves ≠ []) (rootIn : ∀ s ∈ rootStrings blake3 leaves, s ∈ strings)
    (proofIn : ∀ s ∈ proofStrings blake3 x proof index, s ∈ strings)
    (long : Nat.clog 2 leaves.length < proof.length)
    (accepted : verifyMerkleProof blake3 (merkleRoot blake3 leaves) x proof index = true) :
    GoesBelowLeaf blake3 leaves index x proof := by
  let below := proof.take (proof.length - Nat.clog 2 leaves.length)
  let above := proof.drop (proof.length - Nat.clog 2 leaves.length)
  have split : proof = below ++ above := (List.take_append_drop _ _).symm
  have aboveLength : above.length = Nat.clog 2 leaves.length := by
    rw [List.length_drop]
    omega
  have someBelow : below ≠ [] := by
    apply List.ne_nil_of_length_pos
    rw [List.length_take]
    omega
  rw [verifyMerkleProof, split, foldProof_append] at accepted
  refine ⟨below, above, split, someBelow, ?_⟩
  refine opens_of_length free some_leaf rootIn (fun s member => proofIn s ?_) aboveLength accepted
  rw [proofStrings, split, proofPairs_append, List.map_append]
  exact List.mem_append_right _ member

/-- The opening of an inner node is accepted. -/
theorem OpensInnerNode.verifies (inner : OpensInnerNode blake3 leaves index x proof) :
    verifyMerkleProof blake3 (merkleRoot blake3 leaves) x proof index = true := by
  obtain ⟨level, above, opens⟩ := inner
  have accepted := opens.verifies
  rwa [root_of_levelsAbove leaves level above] at accepted

/-- A proof that starts below a leaf is accepted. -/
theorem GoesBelowLeaf.verifies (deeper : GoesBelowLeaf blake3 leaves index x proof) :
    verifyMerkleProof blake3 (merkleRoot blake3 leaves) x proof index = true := by
  obtain ⟨below, above, rfl, _, opens⟩ := deeper
  have accepted := opens.verifies
  rwa [verifyMerkleProof, ← foldProof_append] at accepted

/-- The strings hashed to compute the root and to verify the proof. -/
def openingStrings (blake3 : Blake3) (leaves : List Hash256) (index : ℕ) (x : Hash256)
    (proof : List Hash256) : List (List UInt8) :=
  rootStrings blake3 leaves ++ proofStrings blake3 x proof index

/-- An accepted proof is about the leaf at its index, unless two of the hashed strings collide. -/
def SpeaksForLeaf (blake3 : Blake3) (leaves : List Hash256) (index : ℕ) (x : Hash256)
    (proof : List Hash256) : Prop :=
  verifyMerkleProof blake3 (merkleRoot blake3 leaves) x proof index = true →
    leaves[index]? = some x ∨ CollisionIn blake3 (openingStrings blake3 leaves index x proof)

/-- **Which proofs speak for the leaf, exactly**: those that name its value, and those that neither
open an inner node nor go on below a leaf. -/
theorem merkle_proof_sound_iff (blake3 : Blake3) (leaves : List Hash256) (index : ℕ)
    (inside : index < leaves.length) (x : Hash256) (proof : List Hash256) :
    SpeaksForLeaf blake3 leaves index x proof ↔
      leaves[index]? = some x ∨ CollisionIn blake3 (openingStrings blake3 leaves index x proof) ∨
        (¬ OpensInnerNode blake3 leaves index x proof ∧ ¬ GoesBelowLeaf blake3 leaves index x proof) := by
  have some_leaf : leaves ≠ [] := List.ne_nil_of_length_pos (by omega)
  by_cases named : leaves[index]? = some x
  · exact ⟨fun _ => .inl named, fun _ _ => .inl named⟩
  by_cases collides : CollisionIn blake3 (openingStrings blake3 leaves index x proof)
  · exact ⟨fun _ => .inr (.inl collides), fun _ _ => .inr collides⟩
  have rootIn : ∀ s ∈ rootStrings blake3 leaves, s ∈ openingStrings blake3 leaves index x proof :=
    fun s member => List.mem_append_left _ member
  have proofIn : ∀ s ∈ proofStrings blake3 x proof index,
      s ∈ openingStrings blake3 leaves index x proof :=
    fun s member => List.mem_append_right _ member
  constructor
  · intro speaks
    have refused : ¬ verifyMerkleProof blake3 (merkleRoot blake3 leaves) x proof index = true := by
      intro accepted
      rcases speaks accepted with isNamed | isCollision
      · exact named isNamed
      · exact collides isCollision
    refine .inr (.inr ⟨?_, ?_⟩)
    · exact fun inner => refused inner.verifies
    · exact fun deeper => refused deeper.verifies
  · intro condition accepted
    rcases condition with isNamed | isCollision | ⟨notInner, notBelow⟩
    · exact .inl isNamed
    · exact .inr isCollision
    · rcases Nat.lt_trichotomy proof.length (Nat.clog 2 leaves.length) with short | fits | long
      · exact absurd (inner_of_short collides some_leaf rootIn proofIn short accepted) notInner
      · have opens := opens_of_length collides some_leaf rootIn proofIn fits accepted
        exact .inl (opens.getElem? inside)
      · exact absurd (below_of_long collides some_leaf rootIn proofIn long accepted) notBelow

end Proof

namespace TwoLeaves

/-- Two leaves. -/
def leaves : List Hash256 := [FixedBytes.fill 32 1, FixedBytes.fill 32 2]

theorem root_string_no_collision : ¬ CollisionIn Blake3.hash
    (openingStrings Blake3.hash leaves 0 (merkleRoot Blake3.hash leaves) []) := by
  decide +kernel

/-- **The empty proof of the root** is accepted as a proof of the first leaf. -/
theorem root_accepted_as_leaf :
    ¬ ∀ (index : ℕ) (x : Hash256) (proof : List Hash256), index < leaves.length →
      SpeaksForLeaf Blake3.hash leaves index x proof := by
  intro sound
  rcases sound 0 (merkleRoot Blake3.hash leaves) [] (by decide) (by decide +kernel) with
    named | collision
  · exact absurd named (by decide +kernel)
  · exact root_string_no_collision collision

/-- The honest proof of the first leaf. -/
theorem honest_proof_speaks :
    0 < leaves.length ∧
      SpeaksForLeaf Blake3.hash leaves 0 (FixedBytes.fill 32 1) [FixedBytes.fill 32 2] :=
  ⟨by decide, (merkle_proof_sound_iff Blake3.hash leaves 0 (by decide) (FixedBytes.fill 32 1)
    [FixedBytes.fill 32 2]).mpr (.inl rfl)⟩

end TwoLeaves

end Exochain.ExoCore
