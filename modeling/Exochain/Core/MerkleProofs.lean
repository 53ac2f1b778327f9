/-
**`exo-core` — the proofs that `merkle_proof` writes.**

`merkleProof` walks the same levels as `merkleRoot`, but it fills an odd level by pushing a copy of the
last node and then reads the nodes by index; the root computation never writes the copy down. Reads past
the end of a vector stop the program, so the model answers a `Fault` there.

* `nextLevel_duplicateOdd` — the two ways to duplicate build one level.
* `proofFrom_verifies` — from any node of any level the loop reads inside the vector, and the verifier's
  loop takes the node to the root; by induction on the number of nodes.
* `merkleProof_complete` — **every leaf of every list has a proof that verifies**, and no index past the
  end has one.
-/

import Exochain.Foundation.Blake3
import Exochain.Core.Hash

set_option linter.unusedSectionVars false

namespace Exochain.ExoCore

open Foundation

/-! ### The generator -/

section Generator

variable (blake3 : Blake3)

/-- Push a copy of the last node if their number is odd. -/
def duplicateOdd (current : List Hash256) : List Hash256 :=
  if current.length % 2 ≠ 0 then current ++ current.getLast?.toList else current

/-- Build the next level from the nodes two by two. -/
def nextLevel : List Hash256 → Except Fault (List Hash256)
  | [] => .ok []
  -- the second node of the pair is read past the end
  | [_] => .error .indexOutOfBounds
  | left :: right :: rest => do
    let next ← nextLevel rest
    return hashPair blake3 left right :: next

theorem length_of_nextLevel {current next : List Hash256}
    (built : nextLevel blake3 current = .ok next) : current.length = 2 * next.length := by
  induction current using nextLevel.induct generalizing next with
  | case1 =>
    cases built
    rfl
  | case2 => cases built
  | case3 left right rest ih =>
    obtain ⟨above, rested, whole⟩ := bind_eq_ok_iff.mp built
    cases whole
    simp only [List.length_cons, ih rested]
    omega

theorem length_duplicateOdd (current : List Hash256) :
    (duplicateOdd current).length = 2 * ((current.length + 1) / 2) := by
  unfold duplicateOdd
  split
  · have some : current ≠ [] := by
      rintro rfl
      simp at *
    rw [List.getLast?_eq_some_getLast some, Option.toList_some, List.length_append, List.length_singleton]
    omega
  · omega

/-- The loop of `merkleProof`: the siblings from the node at `idx` up. -/
def proofFrom (current : List Hash256) (idx : ℕ) : Except Fault (List Hash256) :=
  if 1 < current.length then do
    let siblingIdx := if idx % 2 = 0 then idx + 1 else idx - 1
    let sibling ← indexVec (duplicateOdd current) siblingIdx
    match built : nextLevel blake3 (duplicateOdd current) with
    | .error fault => .error fault
    | .ok next =>
      let rest ← proofFrom next (idx / 2)
      return sibling :: rest
  else .ok []
termination_by current.length
decreasing_by
  have halved := length_of_nextLevel blake3 built
  rw [length_duplicateOdd] at halved
  omega

/-- Generate a Merkle proof for the leaf at `index`. -/
def merkleProof (leaves : List Hash256) (index : ℕ) : Except Fault (Except ExoError (List Hash256)) :=
  if leaves.length ≤ index ∨ leaves.isEmpty then .ok (.error .invalidMerkleProof)
  else if leaves.length = 1 then .ok (.ok [])
  else do
    let proof ← proofFrom blake3 leaves index
    return .ok proof

end Generator

/-! ### One level -/

section Level

variable {blake3 : Blake3} {current : List Hash256} {idx : ℕ}

/-- On an even number of nodes the level is the one of the root computation. -/
theorem nextLevel_of_even (even : current.length % 2 = 0) :
    nextLevel blake3 current = .ok (pairLevel (hashPair blake3) current) := by
  induction current using nextLevel.induct with
  | case1 => rfl
  | case2 => cases even
  | case3 left right rest ih =>
    have even : rest.length % 2 = 0 := by
      simp only [List.length_cons] at even
      omega
    rw [nextLevel, ih even]
    rfl

/-- **A copy that is pushed and one that is not build the same level.** -/
theorem nextLevel_duplicateOdd (blake3 : Blake3) (current : List Hash256) :
    nextLevel blake3 (duplicateOdd current) = .ok (pairLevel (hashPair blake3) current) := by
  have even : (duplicateOdd current).length % 2 = 0 := by
    rw [length_duplicateOdd]
    omega
  rw [nextLevel_of_even even, Except.ok.injEq]
  unfold duplicateOdd
  split
  · exact pairLevel_concat_last _ (by omega)
  · rfl

theorem getElem?_duplicateOdd {node : Hash256} (found : current[idx]? = some node) :
    (duplicateOdd current)[idx]? = some node := by
  obtain ⟨inside, _⟩ := List.getElem?_eq_some_iff.mp found
  unfold duplicateOdd
  split
  · rw [List.getElem?_append_left inside]
    exact found
  · exact found

/-- **The sibling is there**, and the two are hashed to the node above in the order of the verifier. -/
theorem exists_sibling (blake3 : Blake3) {node : Hash256} (found : current[idx]? = some node) :
    ∃ sibling, (duplicateOdd current)[if idx % 2 = 0 then idx + 1 else idx - 1]? = some sibling ∧
      (pairLevel (hashPair blake3) current)[idx / 2]? =
        some (if idx % 2 = 0 then hashPair blake3 node sibling else hashPair blake3 sibling node) := by
  obtain ⟨inside, _⟩ := List.getElem?_eq_some_iff.mp found
  have here := getElem?_duplicateOdd found
  have length := length_duplicateOdd current
  have level : nextLevel blake3 (duplicateOdd current) =
      .ok (pairLevel (hashPair blake3) (duplicateOdd current)) := nextLevel_of_even (by omega)
  rw [nextLevel_duplicateOdd, Except.ok.injEq] at level
  rw [level]
  by_cases even : idx % 2 = 0
  · have bound : idx + 1 < (duplicateOdd current).length := by omega
    have twice : 2 * (idx / 2) = idx := by omega
    refine ⟨(duplicateOdd current)[idx + 1], ?_, ?_⟩
    · rw [if_pos even]
      exact List.getElem?_eq_getElem bound
    · rw [if_pos even]
      refine getElem?_pairLevel ?_ ?_
      · rw [twice]
        exact here
      · rw [twice]
        exact List.getElem?_eq_getElem bound
  · have bound : idx - 1 < (duplicateOdd current).length := by omega
    have before : 2 * (idx / 2) = idx - 1 := by omega
    have after : 2 * (idx / 2) + 1 = idx := by omega
    refine ⟨(duplicateOdd current)[idx - 1], ?_, ?_⟩
    · rw [if_neg even]
      exact List.getElem?_eq_getElem bound
    · rw [if_neg even]
      refine getElem?_pairLevel ?_ ?_
      · rw [before]
        exact List.getElem?_eq_getElem bound
      · rw [after]
        exact here

end Level

/-! ### Completeness -/

variable {blake3 : Blake3}

/-- **From every node of a level the loop runs to its end, and the verifier's loop takes the node to the
root** along the siblings it has collected. -/
theorem proofFrom_verifies (blake3 : Blake3) {current : List Hash256} {idx : ℕ} {node : Hash256}
    (found : current[idx]? = some node) :
    ∃ proof, proofFrom blake3 current idx = .ok proof ∧
      pairReduce (hashPair blake3) current = [foldProof blake3 proof idx node] := by
  induction length : current.length using Nat.strong_induction_on generalizing current idx node with
  | _ count ih =>
    obtain ⟨inside, _⟩ := List.getElem?_eq_some_iff.mp found
    by_cases several : 1 < current.length
    · obtain ⟨sibling, beside, above⟩ := exists_sibling blake3 found
      obtain ⟨rest, collected, reduced⟩ := ih (pairLevel (hashPair blake3) current).length
        (length ▸ length_pairLevel_lt _ several) above rfl
      refine ⟨sibling :: rest, ?_, ?_⟩
      · rw [proofFrom, if_pos several]
        simp only [indexVec_eq_ok_iff.mpr beside, bind, Except.bind]
        split
        · rename_i built
          rw [nextLevel_duplicateOdd] at built
          cases built
        · rename_i built
          rw [nextLevel_duplicateOdd] at built
          cases built
          rw [collected]
          rfl
      · rw [pairReduce_of_several several, reduced, foldProof]
    · have single : current = [node] := by
        obtain ⟨only, rfl⟩ := List.length_eq_one_iff.mp (by omega : current.length = 1)
        obtain ⟨_, rfl⟩ := List.getElem?_eq_some_iff.mp found
        simp
      refine ⟨[], ?_, ?_⟩
      · rw [proofFrom, if_neg several]
      · rw [single, pairReduce_singleton, foldProof]

/-- The root is what the levels reduce to. -/
theorem merkleRoot_of_reduced {leaves : List Hash256} {root : Hash256}
    (reduced : pairReduce (hashPair blake3) leaves = [root]) : merkleRoot blake3 leaves = root := by
  match leaves, reduced with
  | [], reduced =>
    rw [pairReduce, if_neg (by simp)] at reduced
    cases reduced
  | [leaf], reduced =>
    rw [pairReduce_singleton] at reduced
    cases reduced
    rfl
  | first :: second :: rest, reduced =>
    show (pairReduce (hashPair blake3) (first :: second :: rest)).headD .zero = root
    rw [reduced]
    rfl

/-- **Completeness**: at every index of a list the generator returns a proof, without a read past the
end, and the proof verifies against the root; at every other index it returns an error. -/
theorem merkleProof_complete (blake3 : Blake3) (leaves : List Hash256) (index : ℕ) :
    (∀ inside : index < leaves.length, ∃ proof,
      merkleProof blake3 leaves index = .ok (.ok proof) ∧
        verifyMerkleProof blake3 (merkleRoot blake3 leaves) leaves[index] proof index = true) ∧
      (leaves.length ≤ index →
        merkleProof blake3 leaves index = .ok (.error .invalidMerkleProof)) := by
  refine ⟨fun inside => ?_, fun outside => if_pos (.inl outside)⟩
  obtain ⟨proof, collected, reduced⟩ := proofFrom_verifies blake3 (List.getElem?_eq_getElem inside)
  refine ⟨proof, ?_, ?_⟩
  · have accepted : ¬ (leaves.length ≤ index ∨ leaves.isEmpty = true) := by
      rw [List.isEmpty_iff]
      rintro (outside | rfl)
      · omega
      · cases inside
    rw [merkleProof, if_neg accepted]
    split
    · rename_i single
      rw [proofFrom, if_neg (by omega)] at collected
      cases collected
      rfl
    · rw [collected]
      rfl
  · rw [verifyMerkleProof, merkleRoot_of_reduced reduced, beq_self_eq_true]

namespace OddProof

/-- Five leaves: the last one is copied on the first level, the node above it on the second. -/
def five : List Hash256 := (List.range 5).map fun k => FixedBytes.fill 32 (UInt8.ofNat k)

/-- The last of the five leaves has a proof, and there is none after it. -/
theorem five_complete :
    (∃ proof, merkleProof Blake3.hash five 4 = .ok (.ok proof) ∧
      verifyMerkleProof Blake3.hash (merkleRoot Blake3.hash five) (FixedBytes.fill 32 4) proof 4 =
        true) ∧
      merkleProof Blake3.hash five 5 = .ok (.error .invalidMerkleProof) :=
  ⟨(merkleProof_complete Blake3.hash five 4).1 (by decide),
    (merkleProof_complete Blake3.hash five 5).2 (by decide)⟩

end OddProof

end Exochain.ExoCore
