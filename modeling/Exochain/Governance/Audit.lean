/-
**`exo-governance` — the audit trail.**

The hash-chained log of governance actions. An entry is hashed as its identifier and timestamp, then
the actor, the action and the result one after the other, then the evidence hash and the chain hash.
Nothing marks where the actor ends or the action does.

* `preimage_eq_iff_text` — what the hashed string determines.
* **`entries_eq_iff`** — two verified logs with one head have the same entries exactly if no two
  entries at one position cut one text at different places.
* `Sample.recut` — two logs of one head and different entries.
-/

import Exochain.Foundation.Codes
import Exochain.Foundation.HashChain
import Exochain.Foundation.Blake3
import Exochain.Governance.Types

set_option linter.unusedSectionVars false

namespace Exochain.ExoGovernance

open Foundation ExoCore

/-! ### Entries -/

/-- One governance action. -/
structure AuditEntry where
  id : FixedBytes 16
  timestamp : Timestamp
  actor : Did
  action : String
  result : String
  evidenceHash : FixedBytes 32
  chainHash : FixedBytes 32
  deriving DecidableEq

namespace AuditEntry

/-- The bytes that an entry is hashed as. -/
def preimage (entry : AuditEntry) : List UInt8 :=
  entry.id.toList ++ entry.timestamp.toLeBytes ++ entry.actor.asBytes ++ textBytes entry.action ++
    textBytes entry.result ++ entry.evidenceHash.toList ++ entry.chainHash.toList

end AuditEntry

/-- The digest of an entry. -/
def hashEntry (blake3 : Blake3) (entry : AuditEntry) : Hash256 := blake3 entry.preimage

/-- The log, the list of its entries. -/
abbrev AuditLog := List AuditEntry

namespace AuditLog

/-- The empty log. -/
def new : AuditLog := []

/-- The digest of the last entry; zero for an empty log. -/
def headHash (blake3 : Blake3) (log : AuditLog) : Hash256 := handedOn (hashEntry blake3) .zero log

/-- Append an entry; one with another chain hash than the head is refused. -/
def append (blake3 : Blake3) (log : AuditLog) (entry : AuditEntry) :
    Except GovernanceError AuditLog :=
  appendLinked AuditEntry.chainHash (hashEntry blake3) .auditChainBroken Hash256.zero log entry

/-- Verify the chain from its start. -/
def verifyChain (blake3 : Blake3) (log : AuditLog) : Except GovernanceError Unit :=
  verifyLinks AuditEntry.chainHash (hashEntry blake3) .auditChainBroken Hash256.zero 0 log

/-- An entry linked to the head, with the identifier and the time it is given. -/
def createEntry (blake3 : Blake3) (log : AuditLog) (id : FixedBytes 16) (now : Timestamp)
    (actor : Did) (action result : String) (evidenceHash : FixedBytes 32) : AuditEntry where
  id := id
  timestamp := now
  actor := actor
  action := action
  result := result
  evidenceHash := evidenceHash
  chainHash := log.headHash blake3

/-- The byte strings that the entries are hashed as. -/
def strings (log : AuditLog) : List (List UInt8) := log.map AuditEntry.preimage

/-- A created entry can be appended. -/
theorem append_createEntry (blake3 : Blake3) (log : AuditLog) (id : FixedBytes 16) (now : Timestamp)
    (actor : Did) (action result : String) (evidenceHash : FixedBytes 32) :
    log.append blake3 (log.createEntry blake3 id now actor action result evidenceHash) =
      .ok (log ++ [log.createEntry blake3 id now actor action result evidenceHash]) :=
  appendLinked_eq_ok_iff.mpr ⟨rfl, rfl⟩

end AuditLog

/-! ### What an entry is hashed as -/

namespace AuditEntry

variable {entry entry' : AuditEntry}

/-- The actor, the action and the result, as they are hashed. -/
def text (entry : AuditEntry) : String := entry.actor.value ++ entry.action ++ entry.result

/-- The fields that can be read back from the hashed string. -/
def SameFrame (entry entry' : AuditEntry) : Prop :=
  entry.id = entry'.id ∧ entry.timestamp = entry'.timestamp ∧
    entry.evidenceHash = entry'.evidenceHash ∧ entry.chainHash = entry'.chainHash

/-- The two entries hold one text, cut at different places. -/
def Recut (entry entry' : AuditEntry) : Prop :=
  entry.SameFrame entry' ∧ entry.text = entry'.text ∧
    (entry.actor.value.length ≠ entry'.actor.value.length ∨
      entry.action.length ≠ entry'.action.length)

theorem preimage_eq (entry : AuditEntry) :
    entry.preimage = entry.id.toList ++ entry.timestamp.toLeBytes ++ textBytes entry.text ++
      entry.evidenceHash.toList ++ entry.chainHash.toList := by
  rw [preimage, text, textBytes_append, textBytes_append]
  simp only [List.append_assoc]
  rfl

/-- **What the string determines**: the frame, and the text in the middle. -/
theorem preimage_eq_iff_text :
    entry.preimage = entry'.preimage ↔ entry.SameFrame entry' ∧ entry.text = entry'.text := by
  rw [preimage_eq, preimage_eq]
  constructor
  · intro same
    obtain ⟨front, chain⟩ := List.append_inj' same
      (entry.chainHash.length_eq.trans entry'.chainHash.length_eq.symm)
    obtain ⟨front, evidence⟩ := List.append_inj' front
      (entry.evidenceHash.length_eq.trans entry'.evidenceHash.length_eq.symm)
    obtain ⟨fixed, texts⟩ := List.append_inj front (by simp [FixedBytes.length_eq])
    obtain ⟨ids, times⟩ := List.append_inj fixed (entry.id.length_eq.trans entry'.id.length_eq.symm)
    exact ⟨⟨FixedBytes.ext ids, Timestamp.toLeBytes_injective times, FixedBytes.ext evidence,
      FixedBytes.ext chain⟩, textBytes_injective texts⟩
  · rintro ⟨⟨ids, times, evidence, chain⟩, texts⟩
    rw [ids, times, evidence, chain, texts]

/-- Entries hashed as one string are the same, or cut it at different places. -/
theorem eq_iff_not_recut (same : entry.preimage = entry'.preimage) :
    entry = entry' ↔ ¬ entry.Recut entry' := by
  obtain ⟨frame, texts⟩ := preimage_eq_iff_text.mp same
  constructor
  · rintro rfl ⟨-, -, actors | actions⟩
    · exact actors rfl
    · exact actions rfl
  · intro uncut
    have lengths : entry.actor.value.length = entry'.actor.value.length ∧
        entry.action.length = entry'.action.length := by
      by_contra apart
      rw [not_and_or] at apart
      exact uncut ⟨frame, texts, apart⟩
    rw [← String.length_toList, ← String.length_toList, ← String.length_toList,
      ← String.length_toList] at lengths
    have chars := congrArg String.toList texts
    simp only [text, String.toList_append] at chars
    obtain ⟨fronts, results⟩ := List.append_inj chars (by
      rw [List.length_append, List.length_append, lengths.1, lengths.2])
    obtain ⟨actors, actions⟩ := List.append_inj fronts lengths.1
    obtain ⟨ids, times, evidence, chain⟩ := frame
    have sameActor := Did.ext (String.toList_injective actors)
    have sameAction := String.toList_injective actions
    have sameResult := String.toList_injective results
    cases entry
    cases entry'
    simp_all

end AuditEntry

/-! ### Logs with one head -/

/-- **The verifier accepts exactly the logs that `append` builds.** -/
theorem verifyChain_eq_ok_iff (blake3 : Blake3) (log : AuditLog) :
    log.verifyChain blake3 = .ok () ↔
      ∃ calls : List AuditEntry, calls.foldlM (AuditLog.append blake3) .new = .ok log :=
  built_iff

/-- **Entries of logs with one head.** Of two verified logs with the same head, whose hashed strings
neither collide nor hash to zero, the entries are the same exactly if no two entries at one position
cut one text at different places. And the verifier accepts exactly the logs that `append` builds. -/
theorem entries_eq_iff (blake3 : Blake3) {log log' : AuditLog}
    (verified : log.verifyChain blake3 = .ok ()) (verified' : log'.verifyChain blake3 = .ok ())
    (same : log.headHash blake3 = log'.headHash blake3)
    (free : ¬ CollisionIn blake3 (log.strings ++ log'.strings))
    (nonzero : ∀ s ∈ log.strings ++ log'.strings, blake3 s ≠ Hash256.zero) :
    (log = log' ↔ ∀ pair ∈ log.zip log', ¬ pair.1.Recut pair.2) ∧
      ∀ any : AuditLog, any.verifyChain blake3 = .ok () ↔
        ∃ calls : List AuditEntry, calls.foldlM (AuditLog.append blake3) .new = .ok any := by
  refine ⟨eq_iff_of_verified AuditEntry.preimage blake3 (fun entry entry' equal => ?_)
    (fun entry entry' equal => ?_) verified verified' same free nonzero, verifyChain_eq_ok_iff blake3⟩
  · exact (AuditEntry.preimage_eq_iff_text.mp equal).1.2.2.2
  · exact AuditEntry.eq_iff_not_recut equal

namespace Sample

/-- An entry of an action that was denied. -/
def denied : AuditEntry where
  id := FixedBytes.fill 16 7
  timestamp := ⟨1000, 0⟩
  actor := ⟨"did:exo:auditor"⟩
  action := "transfer"
  result := "not ok"
  evidenceHash := FixedBytes.fill 32 1
  chainHash := Hash256.zero

/-- The same text, with a part of the result in the action. -/
def passed : AuditEntry := { denied with action := "transfernot ", result := "ok" }

/-- One string is hashed for the two. -/
theorem one_string : AuditLog.strings [denied] = AuditLog.strings [passed] := by decide +kernel

theorem one_head :
    AuditLog.headHash Blake3.hash [denied] = AuditLog.headHash Blake3.hash [passed] := by
  have strings := List.singleton_inj.mp one_string
  exact congrArg Blake3.hash strings

theorem no_collision : ¬ CollisionIn Blake3.hash
    (AuditLog.strings [denied] ++ AuditLog.strings [passed]) := by
  rw [one_string]
  exact not_collisionIn_pair _ _

theorem nonzero : ∀ s ∈ AuditLog.strings [denied] ++ AuditLog.strings [passed],
    Blake3.hash s ≠ Hash256.zero := by
  decide +kernel

/-- **One head, two logs**: a denied action reads as one that passed. -/
theorem recut :
    ¬ ∀ log log' : AuditLog, (∀ entry ∈ log ++ log', entry.actor.Accepted) →
      log.verifyChain Blake3.hash = .ok () → log'.verifyChain Blake3.hash = .ok () →
      log.headHash Blake3.hash = log'.headHash Blake3.hash →
      log = log' ∨ CollisionIn Blake3.hash (log.strings ++ log'.strings) ∨
        ∃ s ∈ log.strings ++ log'.strings, Blake3.hash s = Hash256.zero := by
  intro evident
  rcases evident [denied] [passed] (by decide +kernel) rfl rfl one_head with
    same | collision | ⟨s, member, zero⟩
  · exact absurd same (by decide)
  · exact no_collision collision
  · exact nonzero s member zero

/-- The two entries are what the difference comes down to. -/
theorem position_recut : ∃ pair ∈ [denied].zip [passed], pair.1.Recut pair.2 := by
  have exactly := (@entries_eq_iff Blake3.hash [denied] [passed] rfl rfl one_head no_collision
    nonzero).1
  by_contra unique
  push Not at unique
  exact absurd (exactly.mpr unique) (by decide)

end Sample

end Exochain.ExoGovernance
