/-
**`decision-forum` — the content hash of a decision.**

The content hash is taken over the identifier, the title, the class, the constitutional hash, the state
and how many votes, pieces of evidence and receipts there are. What the votes, the evidence and the
receipts say is not hashed, nor are the authority chain, the time of creation and the metadata.

* `hashInput_eq_of_contentHash_eq` — what the hash determines.
* **`decision_eq_iff`** — two decisions with one content hash are the same exactly if they agree in what
  is not hashed.
* `Sample.vote_turned` — a rejection turned into an approval under one hash.
-/

import Exochain.Foundation.Merkle
import Exochain.Foundation.Blake3
import Exochain.Core.Cbor
import Exochain.Forum.DecisionObject

set_option linter.unusedSectionVars false

namespace Exochain.DecisionForum

open Foundation ExoCore

/-- The structure the content hash is the hash of. -/
structure HashInput where
  id : FixedBytes 16
  title : String
  decisionClass : DecisionClass
  constitutionalHash : Hash256
  state : BctsState
  voteCount : ℕ
  evidenceCount : ℕ
  receiptCount : ℕ
  deriving DecidableEq

namespace DecisionObject

section Hash

variable (cbor : Cbor HashInput) (blake3 : Blake3)

/-- What is hashed of a decision. -/
def hashInput (decision : DecisionObject) : HashInput where
  id := decision.id
  title := decision.title
  decisionClass := decision.decisionClass
  constitutionalHash := decision.constitutionalHash
  state := decision.state
  voteCount := decision.votes.length
  evidenceCount := decision.evidenceBundle.length
  receiptCount := decision.receiptChain.length

/-- The content hash of a decision. -/
def contentHash (decision : DecisionObject) : Except ForumError Hash256 :=
  (hashStructured cbor blake3 decision.hashInput).mapError .ofCore

/-- The string that is hashed for a decision, if it can be serialized. -/
def contentStrings (decision : DecisionObject) : List (List UInt8) :=
  (cbor decision.hashInput).toOption.toList

end Hash

/-- The two decisions agree in what is not hashed. -/
structure SameUnhashed (decision other : DecisionObject) : Prop where
  authorityChain : decision.authorityChain = other.authorityChain
  votes : decision.votes = other.votes
  evidenceBundle : decision.evidenceBundle = other.evidenceBundle
  receiptChain : decision.receiptChain = other.receiptChain
  createdAt : decision.createdAt = other.createdAt
  metadata : decision.metadata = other.metadata

section Binding

variable {cbor : Cbor HashInput} {blake3 : Blake3} {decision other : DecisionObject} {hash : Hash256}

/-- A content hash is the digest of the serialized structure. -/
theorem contentHash_eq_ok_iff :
    decision.contentHash cbor blake3 = .ok hash ↔
      ∃ bytes, cbor decision.hashInput = .ok bytes ∧ blake3 bytes = hash := by
  unfold contentHash hashStructured
  cases cbor decision.hashInput with
  | error error =>
    constructor
    · intro returned
      cases returned
    · rintro ⟨_, written, -⟩
      cases written
  | ok bytes =>
    constructor
    · intro returned
      cases returned
      exact ⟨bytes, rfl, rfl⟩
    · rintro ⟨_, written, rfl⟩
      cases written
      rfl

/-- **What the content hash determines**, unless the two strings collide. -/
theorem hashInput_eq_of_contentHash_eq
    (injective : cbor decision.hashInput = cbor other.hashInput →
      decision.hashInput = other.hashInput)
    (free : ¬ CollisionIn blake3 (decision.contentStrings cbor ++ other.contentStrings cbor))
    (returned : decision.contentHash cbor blake3 = .ok hash)
    (returned' : other.contentHash cbor blake3 = .ok hash) :
    decision.hashInput = other.hashInput := by
  obtain ⟨bytes, written, digest⟩ := contentHash_eq_ok_iff.mp returned
  obtain ⟨bytes', written', digest'⟩ := contentHash_eq_ok_iff.mp returned'
  have hashed : bytes ∈ decision.contentStrings cbor ++ other.contentStrings cbor := by
    simp [contentStrings, written, Except.toOption]
  have hashed' : bytes' ∈ decision.contentStrings cbor ++ other.contentStrings cbor := by
    simp [contentStrings, written', Except.toOption]
  have same : bytes = bytes' := eq_of_hash_eq free hashed hashed' (digest.trans digest'.symm)
  apply injective
  rw [written, written', same]

/-- What is hashed and what is not make up the decision. -/
theorem eq_iff_sameUnhashed (same : decision.hashInput = other.hashInput) :
    decision = other ↔ decision.SameUnhashed other := by
  constructor
  · rintro rfl
    exact ⟨rfl, rfl, rfl, rfl, rfl, rfl⟩
  · rintro ⟨authorities, votes, evidence, receipts, created, metadata⟩
    obtain ⟨ids, titles, classes, hashes, states, -⟩ := HashInput.mk.inj same
    cases decision
    cases other
    simp_all

/-- **Decisions with one content hash.** Where the serializer tells the two apart and the two hashed
strings do not collide, decisions with the same content hash agree in identifier, title, class,
constitutional hash, state and the three counts, and they are the same exactly if they agree in the
authority chain, the votes, the evidence, the receipts, the time of creation and the metadata. -/
theorem decision_eq_iff
    (injective : cbor decision.hashInput = cbor other.hashInput →
      decision.hashInput = other.hashInput)
    (free : ¬ CollisionIn blake3 (decision.contentStrings cbor ++ other.contentStrings cbor))
    (returned : decision.contentHash cbor blake3 = .ok hash)
    (returned' : other.contentHash cbor blake3 = .ok hash) :
    decision.hashInput = other.hashInput ∧ (decision = other ↔ decision.SameUnhashed other) := by
  have same := hashInput_eq_of_contentHash_eq injective free returned returned'
  exact ⟨same, eq_iff_sameUnhashed same⟩

end Binding

end DecisionObject

namespace Sample

/-- What the writer writes for the structure. -/
def writeHashInput : Cbor HashInput := fun input => .ok (Cbor.map
  [("id", Cbor.bytes input.id.toList), ("title", Cbor.text input.title),
    ("class", Cbor.text input.decisionClass.debug),
    ("constitutional_hash", Cbor.array input.constitutionalHash),
    ("state", Cbor.text input.state.display), ("vote_count", Cbor.unsigned input.voteCount),
    ("evidence_count", Cbor.unsigned input.evidenceCount),
    ("receipt_count", Cbor.unsigned input.receiptCount)])

/-- A decision with one vote. -/
def voted (choice : VoteChoice) : DecisionObject :=
  { DecisionObject.new (FixedBytes.fill 16 7) "Budget" .strategic (FixedBytes.fill 32 1) ⟨1000, 0⟩ with
    votes := [⟨⟨"did:exo:alice"⟩, choice, .human, ⟨1001, 0⟩, FixedBytes.fill 32 2⟩] }

/-- The content hash of the decision, whatever the vote says. -/
def votedHash : Hash256 :=
  Blake3.hash (((writeHashInput (voted .approve).hashInput).toOption).getD [])

theorem voted_hash (choice : VoteChoice) :
    (voted choice).contentHash writeHashInput Blake3.hash = .ok votedHash := rfl

theorem voted_no_collision (choice choice' : VoteChoice) : ¬ CollisionIn Blake3.hash
    ((voted choice).contentStrings writeHashInput ++ (voted choice').contentStrings writeHashInput) :=
  not_collisionIn_pair _ _

theorem voted_ne : voted .reject ≠ voted .approve := by
  intro same
  have votes := congrArg DecisionObject.votes same
  exact absurd votes (by decide)

/-- **A rejection turned into an approval** does not change the content hash. -/
theorem vote_turned :
    ¬ ∀ (decision other : DecisionObject) (hash : Hash256),
      decision.contentHash writeHashInput Blake3.hash = .ok hash →
      other.contentHash writeHashInput Blake3.hash = .ok hash →
      decision = other ∨ CollisionIn Blake3.hash
        (decision.contentStrings writeHashInput ++ other.contentStrings writeHashInput) := by
  intro covers
  rcases covers (voted .reject) (voted .approve) votedHash (voted_hash _) (voted_hash _) with
    same | collision
  · exact voted_ne same
  · exact voted_no_collision _ _ collision

/-- The two decisions differ in what is not hashed. -/
theorem voted_unhashed : ¬ (voted .reject).SameUnhashed (voted .approve) := by
  have exactly := (@DecisionObject.decision_eq_iff writeHashInput Blake3.hash (voted .reject)
    (voted .approve) votedHash (fun _ => rfl) (voted_no_collision _ _) (voted_hash _)
    (voted_hash _)).2
  exact fun alike => voted_ne (exactly.mpr alike)

end Sample

end Exochain.DecisionForum
