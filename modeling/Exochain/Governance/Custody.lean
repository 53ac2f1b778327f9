/-
**`exo-governance` — the chain of custody.**

The events of a decision record, each with the hash of the one before it and a hash of its own. The
verifier recomputes every hash. The hash is taken over the sequence number, the record hash, the
previous hash if there is one, the actor, the digest of the serialized action and the timestamp: the
identifier of the event, the role of the actor and the signature are not in it.

A previous hash has no mark of its own in the hashed string, but the sequence number has: in a verified
chain the event of number zero is the one without a previous hash.

* `checkEvent_eq_ok_iff`, `of_verifyEvents` — what the verifier checks.
* `canonical_eq_of_eventHash_eq` — what the hash of a verified event determines.
* **`events_eq_iff`** — two verified chains with the same last hash have the same events exactly if the
  events agree in what is not hashed.
* `Sample.resigned` — one chain with two roles and two signatures.
-/

import Exochain.Foundation.HashChain
import Exochain.Foundation.Blake3
import Exochain.Core.Cbor
import Exochain.Governance.Types

set_option linter.unusedSectionVars false

namespace Exochain.ExoGovernance

open Foundation ExoCore

/-! ### Events -/

/-- The actions that produce events. -/
inductive CustodyAction where
  | create
  | edit
  | attachCrosscheck (reportId : String)
  | approve
  | reject
  | abstain
  | veto
  | issueClearance (certificateId : String)
  | anchor (receiptId : String)
  | advanceStatus (source target : String)
  | supersede (successorId : String)
  | deprecate
  | emergencyAction (reason : String)
  | challenge (challengeId : String)
  | comment (content : String)
  | custom (action : String) (metadata : Option String)
  deriving DecidableEq

/-- The role of the actor. -/
inductive CustodyRole where
  | proposer
  | reviewer
  | steward
  | observer
  | system
  | aiAgent (delegationId : Hash256)
  | custom (role : String)
  deriving DecidableEq

/-- A single event. -/
structure CustodyEvent where
  id : String
  sequence : UInt64
  recordHash : Hash256
  prevEventHash : Option Hash256
  actorId : Did
  role : CustodyRole
  action : CustodyAction
  timestamp : Timestamp
  signature : Option GovernanceSignature
  eventHash : Hash256
  deriving DecidableEq

/-- The chain of a decision record. -/
structure CustodyChain where
  decisionId : Hash256
  events : List CustodyEvent
  nextSequence : UInt64
  deriving DecidableEq

/-- The errors of the verifier. -/
inductive CustodyChainError where
  | sequenceGap (expected actual : UInt64)
  | invalidGenesisLink
  | brokenLink (sequence : UInt64) (expected actual : Hash256)
  | missingLink (sequence : UInt64)
  | hashMismatch (sequence : UInt64) (expected actual : Hash256)
  deriving DecidableEq

namespace CustodyChain

/-- A chain without events. -/
def new (decisionId : Hash256) : CustodyChain := ⟨decisionId, [], 0⟩

/-- The last event. -/
def latest (chain : CustodyChain) : Option CustodyEvent := chain.events.getLast?

end CustodyChain

/-! ### Hashes and verification -/

section Verification

variable (cbor : Cbor CustodyAction) (blake3 : Blake3)

/-- The digest of an action; zero where it cannot be serialized. -/
def actionHash (action : CustodyAction) : Hash256 :=
  match hashStructured cbor blake3 action with
  | .ok hash => hash
  | .error _ => .zero

/-- The string that an event is hashed as. -/
def eventString (sequence : UInt64) (recordHash : Hash256) (prevEventHash : Option Hash256)
    (actorId : Did) (action : CustodyAction) (timestamp : Timestamp) : List UInt8 :=
  leBytes 8 sequence.toNat ++ recordHash.asBytes ++
    (match prevEventHash with
      | some prev => prev.asBytes
      | none => []) ++
    actorId.asBytes ++ (actionHash cbor blake3 action).asBytes ++ timestamp.toLeBytes

/-- The hash of an event from its canonical fields. -/
def computeEventHash (sequence : UInt64) (recordHash : Hash256) (prevEventHash : Option Hash256)
    (actorId : Did) (action : CustodyAction) (timestamp : Timestamp) : Hash256 :=
  blake3 (eventString cbor blake3 sequence recordHash prevEventHash actorId action timestamp)

/-- The string that an event is hashed as, from the event. -/
def CustodyEvent.string (event : CustodyEvent) : List UInt8 :=
  eventString cbor blake3 event.sequence event.recordHash event.prevEventHash event.actorId
    event.action event.timestamp

/-- The link of an event to the one before it, which the first event does not have. -/
def checkLink (previous : Option Hash256) (event : CustodyEvent) : Except CustodyChainError Unit :=
  match previous with
  | none => if event.prevEventHash.isSome then .error .invalidGenesisLink else .ok ()
  | some expectedPrev =>
    match event.prevEventHash with
    | some prev =>
      if prev ≠ expectedPrev then .error (.brokenLink event.sequence expectedPrev prev) else .ok ()
    | none => .error (.missingLink event.sequence)

/-- The number of an event, which has to be its index; the index is first converted to 64 bits. -/
def checkSequence (index : ℕ) (event : CustodyEvent) : Except CustodyChainError Unit :=
  if index < 2 ^ 64 then
    if event.sequence ≠ UInt64.ofNat index then
      .error (.sequenceGap (UInt64.ofNat index) event.sequence)
    else .ok ()
  else .error (.sequenceGap 0 event.sequence)

/-- The hash of an event, recomputed. -/
def checkHash (event : CustodyEvent) : Except CustodyChainError Unit :=
  let recomputed := computeEventHash cbor blake3 event.sequence event.recordHash
    event.prevEventHash event.actorId event.action event.timestamp
  if recomputed ≠ event.eventHash then
    .error (.hashMismatch event.sequence recomputed event.eventHash)
  else .ok ()

/-- One turn of the verifier's loop. -/
def checkEvent (index : ℕ) (previous : Option Hash256) (event : CustodyEvent) :
    Except CustodyChainError Unit := do
  checkSequence index event
  checkLink previous event
  checkHash cbor blake3 event

/-- The verifier's loop. -/
def verifyEvents : ℕ → Option Hash256 → List CustodyEvent → Except CustodyChainError Unit
  | _, _, [] => .ok ()
  | index, previous, event :: rest => do
    checkEvent cbor blake3 index previous event
    verifyEvents (index + 1) (some event.eventHash) rest

namespace CustodyChain

/-- Verify the hashes and links of a chain. -/
def verifyIntegrity (chain : CustodyChain) : Except CustodyChainError Unit :=
  verifyEvents cbor blake3 0 none chain.events

/-- The strings hashed while verifying the chain: those of the events and those of the actions. -/
def strings (chain : CustodyChain) : List (List UInt8) :=
  chain.events.map (CustodyEvent.string cbor blake3) ++
    chain.events.filterMap fun event => (cbor event.action).toOption

end CustodyChain

end Verification

/-! ### What the verifier checks -/

section Checks

variable {cbor : Cbor CustodyAction} {blake3 : Blake3}

theorem checkSequence_eq_ok_iff {index : ℕ} {event : CustodyEvent} :
    checkSequence index event = .ok () ↔ event.sequence.toNat = index := by
  unfold checkSequence
  split
  · rename_i fits
    have number : event.sequence = UInt64.ofNat index ↔ event.sequence.toNat = index := by
      rw [← UInt64.toNat_inj, UInt64.toNat_ofNat_of_lt' fits]
    rw [← number]
    split
    · rename_i other
      exact iff_of_false (by simp) other
    · rename_i numbered
      exact iff_of_true rfl (not_not.mp numbered)
  · rename_i tooLarge
    have small := event.sequence.toNat_lt
    exact iff_of_false (by simp) (by omega)

theorem checkLink_eq_ok_iff {previous : Option Hash256} {event : CustodyEvent} :
    checkLink previous event = .ok () ↔ event.prevEventHash = previous := by
  unfold checkLink
  cases previous with
  | none => cases held : event.prevEventHash <;> simp
  | some expected => cases held : event.prevEventHash <;> simp

theorem checkHash_eq_ok_iff {event : CustodyEvent} :
    checkHash cbor blake3 event = .ok () ↔ blake3 (event.string cbor blake3) = event.eventHash := by
  unfold checkHash
  simp only [ite_not]
  split
  · rename_i held
    exact iff_of_true rfl held
  · rename_i other
    exact iff_of_false (by simp) other

/-- One turn of the loop accepts the event of that number, linked to the one before it, with the hash
of its fields. -/
theorem checkEvent_eq_ok_iff {index : ℕ} {previous : Option Hash256} {event : CustodyEvent} :
    checkEvent cbor blake3 index previous event = .ok () ↔
      event.sequence.toNat = index ∧ event.prevEventHash = previous ∧
        blake3 (event.string cbor blake3) = event.eventHash := by
  unfold checkEvent
  rw [check_bind_eq_ok_iff, check_bind_eq_ok_iff, checkSequence_eq_ok_iff, checkLink_eq_ok_iff,
    checkHash_eq_ok_iff]

/-- An event with the hash of its fields, whose number says whether it has a previous hash. -/
structure CustodyEvent.Sound (cbor : Cbor CustodyAction) (blake3 : Blake3) (event : CustodyEvent) :
    Prop where
  hashed : blake3 (event.string cbor blake3) = event.eventHash
  first_iff : event.sequence.toNat = 0 ↔ event.prevEventHash = none

/-- **What a verified list of events is**: linked, and every event sound. -/
theorem of_verifyEvents {index : ℕ} {previous : Option Hash256} {events : List CustodyEvent}
    (first : index = 0 ↔ previous = none)
    (verified : verifyEvents cbor blake3 index previous events = .ok ()) :
    Linked CustodyEvent.prevEventHash (fun event => some event.eventHash) previous events ∧
      ∀ event ∈ events, event.Sound cbor blake3 := by
  induction events generalizing index previous with
  | nil => exact ⟨trivial, by simp⟩
  | cons event rest ih =>
    rw [verifyEvents, check_bind_eq_ok_iff, checkEvent_eq_ok_iff] at verified
    obtain ⟨⟨number, link, hashed⟩, remaining⟩ := verified
    obtain ⟨linked, sound⟩ := ih (by simp) remaining
    refine ⟨⟨link, linked⟩, List.forall_mem_cons.mpr ⟨⟨hashed, ?_⟩, sound⟩⟩
    rw [number, link, first]

end Checks

/-! ### What the hash determines -/

namespace CustodyEvent

variable {event event' : CustodyEvent}

/-- The event with what is not hashed taken out. -/
def canonical (event : CustodyEvent) : CustodyEvent :=
  { event with id := "", role := .system, signature := none }

theorem canonical_eq_iff :
    event.canonical = event'.canonical ↔
      event.sequence = event'.sequence ∧ event.recordHash = event'.recordHash ∧
        event.prevEventHash = event'.prevEventHash ∧ event.actorId = event'.actorId ∧
        event.action = event'.action ∧ event.timestamp = event'.timestamp ∧
        event.eventHash = event'.eventHash := by
  simp [canonical]

/-- The two events agree in what is not hashed. -/
def SameUnhashed (event event' : CustodyEvent) : Prop :=
  event.id = event'.id ∧ event.role = event'.role ∧ event.signature = event'.signature

/-- What is hashed and what is not make up the event. -/
theorem eq_iff_sameUnhashed (same : event.canonical = event'.canonical) :
    event = event' ↔ ¬ ¬ event.SameUnhashed event' := by
  rw [not_not]
  constructor
  · rintro rfl
    exact ⟨rfl, rfl, rfl⟩
  · rintro ⟨ids, roles, signatures⟩
    obtain ⟨sequences, records, links, actors, actions, times, hashes⟩ := canonical_eq_iff.mp same
    cases event
    cases event'
    simp_all

end CustodyEvent

section Binding

variable {cbor : Cbor CustodyAction} {blake3 : Blake3} {strings : List (List UInt8)}
  {event event' : CustodyEvent}

/-- A serialized action can be read back from its digest. -/
theorem cbor_eq_of_actionHash_eq (free : ¬ CollisionIn blake3 strings)
    {action action' : CustodyAction} {bytes bytes' : List UInt8} (written : cbor action = .ok bytes)
    (written' : cbor action' = .ok bytes') (hashed : bytes ∈ strings) (hashed' : bytes' ∈ strings)
    (same : actionHash cbor blake3 action = actionHash cbor blake3 action') :
    cbor action = cbor action' := by
  simp only [actionHash, hashStructured_of_written written, hashStructured_of_written written'] at same
  have equal : bytes = bytes' := eq_of_hash_eq free hashed hashed' same
  rw [written, written', equal]

/-- **What one string determines** of two sound events. -/
theorem fields_eq_of_string_eq (sound : event.Sound cbor blake3) (sound' : event'.Sound cbor blake3)
    (same : event.string cbor blake3 = event'.string cbor blake3) :
    event.sequence = event'.sequence ∧ event.recordHash = event'.recordHash ∧
      event.prevEventHash = event'.prevEventHash ∧ event.actorId = event'.actorId ∧
      actionHash cbor blake3 event.action = actionHash cbor blake3 event'.action ∧
      event.timestamp = event'.timestamp := by
  simp only [CustodyEvent.string, eventString, List.append_assoc] at same
  obtain ⟨numbers, same⟩ := List.append_inj same (by simp)
  have sequences : event.sequence = event'.sequence :=
    UInt64.toNat_inj.mp (leBytes_injective event.sequence.toNat_lt event'.sequence.toNat_lt numbers)
  obtain ⟨records, same⟩ := List.append_inj same
    (event.recordHash.length_eq.trans event'.recordHash.length_eq.symm)
  -- the number says whether a previous hash follows
  have linksAlike : event.prevEventHash = none ↔ event'.prevEventHash = none := by
    rw [← sound.first_iff, ← sound'.first_iff, sequences]
  have links : event.prevEventHash = event'.prevEventHash ∧
      event.actorId.asBytes ++ ((actionHash cbor blake3 event.action).asBytes ++
          event.timestamp.toLeBytes) =
        event'.actorId.asBytes ++ ((actionHash cbor blake3 event'.action).asBytes ++
          event'.timestamp.toLeBytes) := by
    cases held : event.prevEventHash with
    | none =>
      rw [held, linksAlike.mp held] at same
      exact ⟨(linksAlike.mp held).symm, same⟩
    | some prev =>
      cases held' : event'.prevEventHash with
      | none => exact absurd (linksAlike.mpr held') (by simp [held])
      | some prev' =>
        rw [held, held'] at same
        obtain ⟨prevs, rest⟩ := List.append_inj same (prev.length_eq.trans prev'.length_eq.symm)
        exact ⟨congrArg some (FixedBytes.ext prevs), rest⟩
  rw [← List.append_assoc, ← List.append_assoc] at links
  obtain ⟨front, times⟩ := List.append_inj' links.2 (by simp)
  obtain ⟨actors, actions⟩ := List.append_inj' front
    ((actionHash cbor blake3 event.action).length_eq.trans
      (actionHash cbor blake3 event'.action).length_eq.symm)
  exact ⟨sequences, FixedBytes.ext records, links.1, Did.asBytes_injective actors,
    FixedBytes.ext actions, Timestamp.toLeBytes_injective times⟩

/-- **What the hash of a sound event determines**, unless two strings collide. -/
theorem canonical_eq_of_eventHash_eq
    (injective : cbor event.action = cbor event'.action → event.action = event'.action)
    (free : ¬ CollisionIn blake3 strings) (sound : event.Sound cbor blake3)
    (sound' : event'.Sound cbor blake3) (hashed : event.string cbor blake3 ∈ strings)
    (hashed' : event'.string cbor blake3 ∈ strings)
    (written : ∃ bytes ∈ strings, cbor event.action = .ok bytes)
    (written' : ∃ bytes ∈ strings, cbor event'.action = .ok bytes)
    (same : event.eventHash = event'.eventHash) : event.canonical = event'.canonical := by
  have digests : blake3 (event.string cbor blake3) = blake3 (event'.string cbor blake3) := by
    rw [sound.hashed, sound'.hashed, same]
  obtain ⟨sequences, records, links, actors, actions, times⟩ :=
    fields_eq_of_string_eq sound sound' (eq_of_hash_eq free hashed hashed' digests)
  obtain ⟨bytes, bytesIn, here⟩ := written
  obtain ⟨bytes', bytesIn', here'⟩ := written'
  exact CustodyEvent.canonical_eq_iff.mpr ⟨sequences, records, links, actors,
    injective (cbor_eq_of_actionHash_eq free here here' bytesIn bytesIn' actions), times, same⟩

/-- The strings of a chain are those of its events and of their actions. -/
theorem mem_strings (cbor : Cbor CustodyAction) (blake3 : Blake3) {chain : CustodyChain}
    (member : event ∈ chain.events) (infallible : ∃ bytes, cbor event.action = .ok bytes) :
    event.string cbor blake3 ∈ chain.strings cbor blake3 ∧
      ∃ bytes ∈ chain.strings cbor blake3, cbor event.action = .ok bytes := by
  obtain ⟨bytes, written⟩ := infallible
  refine ⟨List.mem_append_left _ (List.mem_map_of_mem member), bytes, ?_, written⟩
  refine List.mem_append_right _ (List.mem_filterMap.mpr ⟨event, member, ?_⟩)
  rw [written]
  rfl

/-- What the last event of a chain hands on. -/
theorem handedOn_events (chain : CustodyChain) :
    handedOn (fun event => some event.eventHash) none chain.events =
      chain.latest.map CustodyEvent.eventHash := by
  unfold handedOn CustodyChain.latest
  cases chain.events.getLast? with
  | none => rfl
  | some event => rfl

/-- **Chains with one last hash.** Two verified chains whose last events have the same hash, whose
actions the serializer writes and tells apart, and where no two of the hashed strings collide, have
equally many events, and the events are the same exactly if at every position they agree in the
identifier, the role and the signature. -/
theorem events_eq_iff {chain chain' : CustodyChain}
    (infallible : ∀ event ∈ chain.events ++ chain'.events, ∃ bytes, cbor event.action = .ok bytes)
    (injective : ∀ event ∈ chain.events, ∀ event' ∈ chain'.events,
      cbor event.action = cbor event'.action → event.action = event'.action)
    (verified : chain.verifyIntegrity cbor blake3 = .ok ())
    (verified' : chain'.verifyIntegrity cbor blake3 = .ok ())
    (same : chain.latest.map CustodyEvent.eventHash = chain'.latest.map CustodyEvent.eventHash)
    (free : ¬ CollisionIn blake3 (chain.strings cbor blake3 ++ chain'.strings cbor blake3)) :
    chain.events.length = chain'.events.length ∧
      (chain.events = chain'.events ↔
        ∀ pair ∈ chain.events.zip chain'.events, pair.1.SameUnhashed pair.2) := by
  obtain ⟨linked, sound⟩ := of_verifyEvents (by simp) verified
  obtain ⟨linked', sound'⟩ := of_verifyEvents (by simp) verified'
  have canonical : chain.events.map CustodyEvent.canonical =
      chain'.events.map CustodyEvent.canonical := by
    refine map_eq_of_handedOn_eq (fun event event' equal => ?_)
      (fun event member event' member' equal => ?_) (by simp) (by simp) linked linked'
      (by rw [handedOn_events, handedOn_events, same])
    · exact (CustodyEvent.canonical_eq_iff.mp equal).2.2.1
    · obtain ⟨hashed, bytes, bytesIn, written⟩ := mem_strings cbor blake3 member
        (infallible event (List.mem_append_left _ member))
      obtain ⟨hashed', bytes', bytesIn', written'⟩ := mem_strings cbor blake3 member'
        (infallible event' (List.mem_append_right _ member'))
      exact canonical_eq_of_eventHash_eq (injective event member event' member') free
        (sound event member) (sound' event' member') (List.mem_append_left _ hashed)
        (List.mem_append_right _ hashed') ⟨bytes, List.mem_append_left _ bytesIn, written⟩
        ⟨bytes', List.mem_append_right _ bytesIn', written'⟩ (Option.some_inj.mp equal)
  refine ⟨by simpa using congrArg List.length canonical, ?_⟩
  have exactly := eq_iff_of_map_eq (fun _ _ => CustodyEvent.eq_iff_sameUnhashed) canonical
  simpa only [not_not] using exactly

end Binding

namespace Sample

/-- What the writer writes for an action. -/
def writeAction : Cbor CustodyAction
  | .create => .ok (Cbor.text "Create")
  | .edit => .ok (Cbor.text "Edit")
  | .attachCrosscheck reportId =>
    .ok (Cbor.variant "AttachCrosscheck" [("report_id", Cbor.text reportId)])
  | .approve => .ok (Cbor.text "Approve")
  | .reject => .ok (Cbor.text "Reject")
  | .abstain => .ok (Cbor.text "Abstain")
  | .veto => .ok (Cbor.text "Veto")
  | .issueClearance certificateId =>
    .ok (Cbor.variant "IssueClearance" [("certificate_id", Cbor.text certificateId)])
  | .anchor receiptId => .ok (Cbor.variant "Anchor" [("receipt_id", Cbor.text receiptId)])
  | .advanceStatus source target =>
    .ok (Cbor.variant "AdvanceStatus" [("from", Cbor.text source), ("to", Cbor.text target)])
  | .supersede successorId =>
    .ok (Cbor.variant "Supersede" [("successor_id", Cbor.text successorId)])
  | .deprecate => .ok (Cbor.text "Deprecate")
  | .emergencyAction reason => .ok (Cbor.variant "EmergencyAction" [("reason", Cbor.text reason)])
  | .challenge challengeId =>
    .ok (Cbor.variant "Challenge" [("challenge_id", Cbor.text challengeId)])
  | .comment content => .ok (Cbor.variant "Comment" [("content", Cbor.text content)])
  | .custom action metadata =>
    .ok (Cbor.variant "Custom"
      [("action", Cbor.text action), ("metadata", metadata.elim (Cbor.head 7 22) Cbor.text)])

/-- An approval by a steward, signed. -/
def signed : CustodyEvent where
  id := "ce-7-0"
  sequence := 0
  recordHash := FixedBytes.fill 32 1
  prevEventHash := none
  actorId := ⟨"did:exo:alice"⟩
  role := .steward
  action := .approve
  timestamp := ⟨1000, 0⟩
  signature := some ⟨⟨"did:exo:alice"⟩, .human, .ed25519 (FixedBytes.fill 64 9), 1, ⟨1000, 0⟩⟩
  eventHash := computeEventHash writeAction Blake3.hash 0 (FixedBytes.fill 32 1) none
    ⟨"did:exo:alice"⟩ .approve ⟨1000, 0⟩

/-- The same approval by an observer, without a signature. -/
def unsigned : CustodyEvent := { signed with id := "ce-8-0", role := .observer, signature := none }

/-- The chain of one event. -/
def chainOf (event : CustodyEvent) : CustodyChain := ⟨FixedBytes.fill 32 7, [event], 1⟩

theorem signed_verified : (chainOf signed).verifyIntegrity writeAction Blake3.hash = .ok () := by
  decide +kernel

theorem unsigned_verified : (chainOf unsigned).verifyIntegrity writeAction Blake3.hash = .ok () := by
  decide +kernel

theorem no_event_collision : ¬ CollisionIn Blake3.hash
    ((chainOf signed).strings writeAction Blake3.hash ++
      (chainOf unsigned).strings writeAction Blake3.hash) := by
  decide +kernel

/-- **One hash, two events**: who approved in which role, and with which signature, is not covered. -/
theorem resigned :
    ¬ ∀ chain chain' : CustodyChain,
      (∀ event ∈ chain.events ++ chain'.events, event.actorId.Accepted) →
      chain.verifyIntegrity writeAction Blake3.hash = .ok () →
      chain'.verifyIntegrity writeAction Blake3.hash = .ok () →
      chain.latest.map CustodyEvent.eventHash = chain'.latest.map CustodyEvent.eventHash →
      chain.events = chain'.events ∨
        CollisionIn Blake3.hash (chain.strings writeAction Blake3.hash ++
          chain'.strings writeAction Blake3.hash) := by
  intro covers
  rcases covers (chainOf signed) (chainOf unsigned) (by decide +kernel) signed_verified
    unsigned_verified rfl with same | collision
  · have events : [signed] = [unsigned] := same
    exact absurd (congrArg CustodyEvent.role (List.singleton_inj.mp events)) (by decide)
  · exact no_event_collision collision

/-- The two events differ in what is not hashed. -/
theorem unhashed_differs :
    ¬ ∀ pair ∈ [signed].zip [unsigned], pair.1.SameUnhashed pair.2 := by
  intro alike
  have exactly := (@events_eq_iff writeAction Blake3.hash (chainOf signed) (chainOf unsigned)
    (fun event member => ⟨Cbor.text "Approve", by
      rcases List.mem_pair.mp member with rfl | rfl
      · rfl
      · rfl⟩)
    (fun event member event' member' _ => by
      rw [List.mem_singleton.mp member, List.mem_singleton.mp member']
      rfl)
    signed_verified unsigned_verified rfl no_event_collision).2
  have events : [signed] = [unsigned] := exactly.mpr alike
  exact absurd (congrArg CustodyEvent.role (List.singleton_inj.mp events)) (by decide)

end Sample

end Exochain.ExoGovernance
