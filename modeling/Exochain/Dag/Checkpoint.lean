/-
**`exo-dag` — checkpoints.**

A checkpoint collects the root of the finalized events (a mountain range), the root of the derived
state (a sparse Merkle tree), its height, the number of events it covers and the tips of the graph.
Validators sign `checkpoint_signing_preimage`, a domain tag followed by the fields.

* `signingPreimage_eq_iff` — the preimage can be read back: it determines every field but the
  signatures themselves.
* **`checkpoint_binds_history`** — so what is signed is the history: two checkpoints with one preimage
  stand for the same list of finalized events and the same state at every key, unless two of the
  strings hashed for their roots collide.
-/

import Exochain.Dag.MmrBinding
import Exochain.Dag.SmtProofs

namespace Exochain.ExoDag

open Foundation ExoCore

/-! ### The payload -/

/-- A single validator's attestation to a checkpoint. -/
structure ValidatorSignature where
  validatorDid : Did
  keyVersion : UInt64
  signature : Signature

/-- A checkpoint. -/
structure CheckpointPayload where
  eventRoot : Hash256
  stateRoot : Hash256
  height : UInt64
  finalizedEvents : UInt64
  frontier : List Hash256
  validatorSigs : List ValidatorSignature

/-- Domain separation tag for checkpoint signing. -/
def checkpointDomainSep : List UInt8 := textBytes "EXOCHAIN-CHECKPOINT-v1"

/-- The string that validators sign. -/
def checkpointSigningPreimage (cp : CheckpointPayload) : List UInt8 :=
  checkpointDomainSep ++ cp.eventRoot.asBytes ++ cp.stateRoot.asBytes ++ wordBytes cp.height ++
    wordBytes cp.finalizedEvents ++ concatBlocks cp.frontier

/-- Two checkpoints say the same; who signed them is left open. -/
def CheckpointPayload.Agrees (cp cp' : CheckpointPayload) : Prop :=
  cp.eventRoot = cp'.eventRoot ∧ cp.stateRoot = cp'.stateRoot ∧ cp.height = cp'.height ∧
    cp.finalizedEvents = cp'.finalizedEvents ∧ cp.frontier = cp'.frontier

/-- **The preimage can be read back**: every field before the frontier has a fixed width, and so has
each hash of the frontier. -/
theorem signingPreimage_eq_iff {cp cp' : CheckpointPayload} :
    checkpointSigningPreimage cp = checkpointSigningPreimage cp' ↔ cp.Agrees cp' := by
  constructor
  · intro same
    have hashes : ∀ hash hash' : Hash256, hash.asBytes.length = hash'.asBytes.length :=
      fun hash hash' => hash.length_eq.trans hash'.length_eq.symm
    simp only [checkpointSigningPreimage, List.append_assoc] at same
    have fields := List.append_cancel_left same
    obtain ⟨events, fields⟩ := List.append_inj fields (hashes _ _)
    obtain ⟨states, fields⟩ := List.append_inj fields (hashes _ _)
    obtain ⟨heights, fields⟩ := List.append_inj fields (by simp)
    obtain ⟨counts, frontiers⟩ := List.append_inj fields (by simp)
    exact ⟨FixedBytes.ext events, FixedBytes.ext states, wordBytes_injective heights,
      wordBytes_injective counts, concatBlocks_injective (by omega) frontiers⟩
  · rintro ⟨events, states, heights, counts, frontiers⟩
    simp only [checkpointSigningPreimage, events, states, heights, counts, frontiers]

/-! ### The history behind a checkpoint -/

/-- The checkpoint carries the root of these events and the root of the state that these calls
built. -/
def CheckpointPayload.Anchors (blake3 : Blake3) (cp : CheckpointPayload) (events : List Hash256)
    (calls : List (Hash256 × List UInt8)) : Prop :=
  cp.eventRoot = Mmr.root blake3 (Mmr.appendAll blake3 events) ∧
    cp.stateRoot = (Smt.insertAll blake3 calls).root blake3

/-- The strings hashed for the two roots of a checkpoint. -/
def anchorInputs (blake3 : Blake3) (events : List Hash256) (calls : List (Hash256 × List UInt8)) :
    List (List UInt8) :=
  Mmr.rootInputs blake3 events ++ (Smt.insertAll blake3 calls).rootStrings blake3

/-- **A signed checkpoint is a signed history.** If what validators sign for two checkpoints is one
string, both have the same height, number of events and frontier; and whatever events and state calls
their roots were built from, the events are the same, in order, and so is the state at every key,
unless two distinct strings hashed for the roots have one digest. -/
theorem checkpoint_binds_history (blake3 : Blake3) (cp cp' : CheckpointPayload)
    (events events' : List Hash256) (calls calls' : List (Hash256 × List UInt8))
    (anchors : cp.Anchors blake3 events calls) (anchors' : cp'.Anchors blake3 events' calls')
    (same : checkpointSigningPreimage cp = checkpointSigningPreimage cp') :
    (cp.height = cp'.height ∧ cp.finalizedEvents = cp'.finalizedEvents ∧
      cp.frontier = cp'.frontier) ∧
    ((events = events' ∧ ∀ key, Smt.get (Smt.insertAll blake3 calls) key =
        Smt.get (Smt.insertAll blake3 calls') key) ∨
      CollisionIn blake3 (anchorInputs blake3 events calls ++ anchorInputs blake3 events' calls')) := by
  obtain ⟨eventRoots, stateRoots, heights, counts, frontiers⟩ := signingPreimage_eq_iff.mp same
  refine ⟨⟨heights, counts, frontiers⟩, ?_⟩
  rw [anchors.1, anchors'.1] at eventRoots
  rw [anchors.2, anchors'.2] at stateRoots
  rw [or_iff_not_imp_right]
  intro free
  constructor
  · refine Mmr.leaves_eq_of_root_eq free (fun s member => ?_) (fun s member => ?_) eventRoots
    · exact List.mem_append_left _ (List.mem_append_left _ member)
    · exact List.mem_append_right _ (List.mem_append_left _ member)
  · have apart : ¬ CollisionIn blake3 ((Smt.insertAll blake3 calls).rootStrings blake3 ++
        (Smt.insertAll blake3 calls').rootStrings blake3) := by
      refine fun collision => free (collision.mono fun s member => ?_)
      rcases List.mem_append.mp member with first | second
      · exact List.mem_append_left _ (List.mem_append_right _ first)
      · exact List.mem_append_right _ (List.mem_append_right _ second)
    exact Smt.get_eq_of_root_eq apart stateRoots

namespace SignedTwice

/-- The events and the state calls. -/
def events : List Hash256 := [FixedBytes.fill 32 1, FixedBytes.fill 32 2]

def calls : List (Hash256 × List UInt8) := [(FixedBytes.fill 32 7, [10])]

/-- The checkpoint, with the signatures of some validators. -/
def checkpoint (validatorSigs : List ValidatorSignature) : CheckpointPayload where
  eventRoot := Mmr.root Blake3.hash (Mmr.appendAll Blake3.hash events)
  stateRoot := (Smt.insertAll Blake3.hash calls).root Blake3.hash
  height := 5
  finalizedEvents := 2
  frontier := [FixedBytes.fill 32 2]
  validatorSigs

/-- An attestation. -/
def attestation : ValidatorSignature := ⟨⟨"did:exo:validator-1"⟩, 1, .empty⟩

/-- A checkpoint before and after a signature was collected. -/
theorem checkpoint_binds_signed :
    ((checkpoint []).height = (checkpoint [attestation]).height ∧
      (checkpoint []).finalizedEvents = (checkpoint [attestation]).finalizedEvents ∧
      (checkpoint []).frontier = (checkpoint [attestation]).frontier) ∧
    ((events = events ∧ ∀ key, Smt.get (Smt.insertAll Blake3.hash calls) key =
        Smt.get (Smt.insertAll Blake3.hash calls) key) ∨
      CollisionIn Blake3.hash
        (anchorInputs Blake3.hash events calls ++ anchorInputs Blake3.hash events calls)) :=
  checkpoint_binds_history Blake3.hash (checkpoint []) (checkpoint [attestation]) events events calls
    calls ⟨rfl, rfl⟩ ⟨rfl, rfl⟩ rfl

end SignedTwice

end Exochain.ExoDag
