/-
**`exo-core` — canonical hashing.**

The helpers of `hash.rs`. Structured values are serialized first; the serializer is the CBOR writer
of another crate, a function from values to bytes or an error.

The Merkle tree over a list of hashes pairs neighbours and duplicates an odd last one. Leaves are
taken as they are: nothing keeps a leaf apart from the digest of a pair. The verifier folds the
siblings it is given, however many there are.
-/

import Exochain.Foundation.Pairing
import Exochain.Core.Types

set_option linter.unusedSectionVars false

namespace Exochain.ExoCore

open Foundation

/-- A serializer of one type of values. -/
abbrev Cbor (α : Type) := α → Except ExoError (List UInt8)

/-- The digest of raw bytes. -/
def canonicalHash (blake3 : Blake3) (data : List UInt8) : Hash256 := Hash256.digest blake3 data

/-- Serialize a value, then compute the digest. -/
def hashStructured {α : Type} (cbor : Cbor α) (blake3 : Blake3) (value : α) :
    Except ExoError Hash256 := do
  let buf ← cbor value
  return canonicalHash blake3 buf

theorem hashStructured_of_written {α : Type} {cbor : Cbor α} {value : α} {buf : List UInt8}
    (written : cbor value = .ok buf) (blake3 : Blake3) :
    hashStructured cbor blake3 value = .ok (canonicalHash blake3 buf) := by
  rw [hashStructured, written]
  rfl

/-! ### Merkle roots and proofs -/

section Merkle

variable (blake3 : Blake3)

/-- The 64 bytes that two nodes are hashed as. -/
def pairString (left right : Hash256) : List UInt8 := left.asBytes ++ right.asBytes

/-- Two nodes can be read back from their string. -/
theorem pairString_injective {left right left' right' : Hash256}
    (same : pairString left right = pairString left' right') : (left, right) = (left', right') := by
  obtain ⟨lefts, rights⟩ := List.append_inj same (left.length_eq.trans left'.length_eq.symm)
  rw [FixedBytes.ext lefts, FixedBytes.ext rights]

/-- Hash two nodes together. -/
def hashPair (left right : Hash256) : Hash256 := canonicalHash blake3 (pairString left right)

/-- The Merkle root of a list of leaf hashes. -/
def merkleRoot (leaves : List Hash256) : Hash256 :=
  if leaves.isEmpty then .zero
  else if leaves.length = 1 then leaves.headD .zero
  else (pairReduce (hashPair blake3) leaves).headD .zero

/-- The loop of `verifyMerkleProof`: fold the siblings from the leaf up. -/
def foldProof : List Hash256 → ℕ → Hash256 → Hash256
  | [], _, current => current
  | sibling :: rest, index, current =>
    foldProof rest (index / 2)
      (if index % 2 = 0 then hashPair blake3 current sibling else hashPair blake3 sibling current)

/-- Verify a Merkle proof. -/
def verifyMerkleProof (root leaf : Hash256) (proof : List Hash256) (index : ℕ) : Bool :=
  foldProof blake3 proof index leaf == root

/-- The strings hashed while computing the root. -/
def rootStrings (leaves : List Hash256) : List (List UInt8) :=
  (reducedPairs (hashPair blake3) leaves).map (Function.uncurry pairString)

/-- The pairs that the verifier's loop hashes. -/
def proofPairs : List Hash256 → ℕ → Hash256 → List (Hash256 × Hash256)
  | [], _, _ => []
  | sibling :: rest, index, current =>
    let pair := if index % 2 = 0 then (current, sibling) else (sibling, current)
    pair :: proofPairs rest (index / 2) (hashPair blake3 pair.1 pair.2)

/-- The strings hashed while verifying a proof. -/
def proofStrings (leaf : Hash256) (proof : List Hash256) (index : ℕ) : List (List UInt8) :=
  (proofPairs blake3 proof index leaf).map (Function.uncurry pairString)

end Merkle

end Exochain.ExoCore
