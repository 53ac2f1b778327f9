/-
**`exo-governance` — appending to a chain of custody.**

The writer takes the previous hash from the last event and the number from a counter; the verifier takes
both from the position in the list. A call stops at the greatest number in a checked build, and where the
vector of events cannot grow any further, which is before.

* `verifyEvents_append_iff` — the verifier on a list in two parts.
* `append_eq_some_iff` — what a call does while the counter is the number of events.
* `Written.append`, `written_appendAll` — the invariant of the writer, one call and a run.
* `appendAll_replay` — the writer on the arguments of a verified list.
* **`verifiable_iff_appended`** — the chains that were appended are verified, and every verified chain is
  what the appends of its events make, but for the identifiers of the events.
-/

import Exochain.Governance.Custody

namespace Exochain.ExoGovernance

open Foundation ExoCore

/-! ### The writer -/

/-- The arguments of an append. -/
structure CustodyCall where
  actorId : Did
  role : CustodyRole
  action : CustodyAction
  recordHash : Hash256
  timestamp : Timestamp
  signature : Option GovernanceSignature
  deriving DecidableEq

/-- The identifier of an event: the first byte of the decision's, and the number. -/
def eventId (decisionId : Hash256) (sequence : UInt64) : String :=
  "ce-" ++ toString (decisionId.asBytes.headD 0) ++ "-" ++ toString sequence

namespace CustodyChain

variable (build : Build) (cbor : Cbor CustodyAction) (blake3 : Blake3)

/-- The event that an append adds. -/
def newEvent (chain : CustodyChain) (call : CustodyCall) : CustodyEvent :=
  let prevEventHash := chain.latest.map CustodyEvent.eventHash
  let sequence := chain.nextSequence
  { id := eventId chain.decisionId sequence
    sequence := sequence
    recordHash := call.recordHash
    prevEventHash := prevEventHash
    actorId := call.actorId
    role := call.role
    action := call.action
    timestamp := call.timestamp
    signature := call.signature
    eventHash := computeEventHash cbor blake3 sequence call.recordHash prevEventHash call.actorId
      call.action call.timestamp }

/-- Append an event, unless the call stops. -/
def append (chain : CustodyChain) (call : CustodyCall) : Option CustodyChain := do
  let event := chain.newEvent cbor blake3 call
  let nextSequence ← (build.add 64 chain.nextSequence.toNat 1).toOption
  let events ← pushVec chain.events event
  return { chain with events := events, nextSequence := UInt64.ofNat nextSequence }

/-- Append one event after the other. -/
def appendAll (chain : CustodyChain) (calls : List CustodyCall) : Option CustodyChain :=
  calls.foldlM (append build cbor blake3) chain

/-! ### What appends keep -/

/-- The counter is the number of events. -/
def Counted (chain : CustodyChain) : Prop := chain.nextSequence.toNat = chain.events.length

/-- A verified chain whose counter is the number of events. -/
structure Written (chain : CustodyChain) : Prop where
  verified : chain.verifyIntegrity cbor blake3 = .ok ()
  counted : chain.Counted

/-- The chain with one more event. -/
def afterAppend (chain : CustodyChain) (call : CustodyCall) : CustodyChain :=
  { chain with
    events := chain.events ++ [chain.newEvent cbor blake3 call]
    nextSequence := UInt64.ofNat (chain.events.length + 1) }

variable {build} {cbor} {blake3} {chain after : CustodyChain} {call : CustodyCall}

/-- **What an append does** while the counter is the number of events. -/
theorem append_eq_some_iff (counted : chain.Counted) :
    chain.append build cbor blake3 call = some after ↔
      chain.events.length < maxVecLength ∧ after = chain.afterAppend cbor blake3 call := by
  have fits : chain.events.length < maxVecLength →
      build.add 64 chain.nextSequence.toNat 1 = .ok (chain.events.length + 1) := by
    intro room
    unfold maxVecLength at room
    rw [counted]
    exact Build.add_of_lt (by omega)
  constructor
  · intro appended
    obtain ⟨next, added, rest⟩ := Option.bind_eq_some_iff.mp appended
    obtain ⟨events, pushed, whole⟩ := Option.bind_eq_some_iff.mp rest
    obtain ⟨room, rfl⟩ := pushVec_eq_some_iff.mp pushed
    rw [fits room] at added
    cases added
    cases whole
    exact ⟨room, rfl⟩
  · rintro ⟨room, rfl⟩
    refine Option.bind_eq_some_iff.mpr ⟨chain.events.length + 1, by rw [fits room]; rfl, ?_⟩
    exact Option.bind_eq_some_iff.mpr ⟨_, pushVec_eq_some_iff.mpr ⟨room, rfl⟩, rfl⟩

theorem counted_afterAppend (room : chain.events.length < maxVecLength) :
    (chain.afterAppend cbor blake3 call).Counted := by
  unfold Counted afterAppend
  rw [List.length_append, List.length_singleton]
  refine UInt64.toNat_ofNat_of_lt' ?_
  unfold maxVecLength at room
  show chain.events.length + 1 < 2 ^ 64
  omega

/-- **The verifier on a list in two parts.** -/
theorem verifyEvents_append_iff {index : ℕ} {previous : Option Hash256}
    {first second : List CustodyEvent} :
    verifyEvents cbor blake3 index previous (first ++ second) = .ok () ↔
      verifyEvents cbor blake3 index previous first = .ok () ∧
        verifyEvents cbor blake3 (index + first.length)
          (handedOn (fun event => some event.eventHash) previous first) second = .ok () := by
  induction first generalizing index previous with
  | nil => simp [verifyEvents]
  | cons event rest ih =>
    have count : index + 1 + rest.length = index + (event :: rest).length := by
      rw [List.length_cons]
      omega
    rw [List.cons_append, verifyEvents, verifyEvents, check_bind_eq_ok_iff, check_bind_eq_ok_iff,
      ih, handedOn_cons, count, and_assoc]

/-- The new event has the number, the link and the hash that the verifier asks for. -/
theorem checkEvent_newEvent (counted : chain.Counted) :
    checkEvent cbor blake3 chain.events.length (chain.latest.map CustodyEvent.eventHash)
      (chain.newEvent cbor blake3 call) = .ok () :=
  checkEvent_eq_ok_iff.mpr ⟨counted, rfl, rfl⟩

/-- **One append** keeps the chain verified and the counter right. -/
theorem Written.append (written : chain.Written cbor blake3)
    (appended : chain.append build cbor blake3 call = some after) : after.Written cbor blake3 := by
  obtain ⟨room, rfl⟩ := (append_eq_some_iff written.counted).mp appended
  refine ⟨?_, counted_afterAppend room⟩
  have earlier : verifyEvents cbor blake3 0 none chain.events = .ok () := written.verified
  have checked : checkEvent cbor blake3 (0 + chain.events.length)
      (handedOn (fun event => some event.eventHash) none chain.events)
        (chain.newEvent cbor blake3 call) = .ok () := by
    rw [Nat.zero_add, handedOn_events]
    exact checkEvent_newEvent written.counted
  refine verifyEvents_append_iff.mpr ⟨earlier, ?_⟩
  rw [verifyEvents, check_bind_eq_ok_iff]
  exact ⟨checked, rfl⟩

/-- A run of appends does too. -/
theorem written_appendAll {calls : List CustodyCall} (written : chain.Written cbor blake3)
    (appended : chain.appendAll build cbor blake3 calls = some after) :
    after.Written cbor blake3 := by
  induction calls generalizing chain with
  | nil =>
    cases appended
    exact written
  | cons call calls ih =>
    rw [appendAll, List.foldlM_cons] at appended
    obtain ⟨between, first, rest⟩ := Option.bind_eq_some_iff.mp appended
    exact ih (written.append first) rest

theorem written_new (decisionId : Hash256) : (new decisionId).Written cbor blake3 := ⟨rfl, rfl⟩

/-! ### The arguments of a verified list -/

/-- The event with the identifier it has in the chain of another decision. -/
def renamed (decisionId : Hash256) (event : CustodyEvent) : CustodyEvent :=
  { event with id := eventId decisionId event.sequence }

/-- The arguments from which an event was made. -/
def argumentsOf (event : CustodyEvent) : CustodyCall where
  actorId := event.actorId
  role := event.role
  action := event.action
  recordHash := event.recordHash
  timestamp := event.timestamp
  signature := event.signature

/-- The writer makes the event that the verifier accepts. -/
theorem newEvent_argumentsOf {event : CustodyEvent} (counted : chain.Counted)
    (checked : checkEvent cbor blake3 chain.events.length (chain.latest.map CustodyEvent.eventHash)
      event = .ok ()) :
    chain.newEvent cbor blake3 (argumentsOf event) = renamed chain.decisionId event := by
  obtain ⟨number, link, hashed⟩ := checkEvent_eq_ok_iff.mp checked
  have sequence : chain.nextSequence = event.sequence :=
    UInt64.toNat_inj.mp (counted.trans number.symm)
  unfold newEvent argumentsOf renamed
  rw [← hashed, ← link, sequence]
  rfl

/-- **The writer on the arguments of a verified list** appends the list, but for the identifiers. -/
theorem appendAll_replay {events : List CustodyEvent} (counted : chain.Counted)
    (room : chain.events.length + events.length ≤ maxVecLength)
    (verified : verifyEvents cbor blake3 chain.events.length
      (chain.latest.map CustodyEvent.eventHash) events = .ok ()) :
    ∃ replayed, chain.appendAll build cbor blake3 (events.map argumentsOf) = some replayed ∧
      replayed.events = chain.events ++ events.map (renamed chain.decisionId) := by
  induction events generalizing chain with
  | nil => exact ⟨chain, rfl, (List.append_nil _).symm⟩
  | cons event rest ih =>
    rw [verifyEvents, check_bind_eq_ok_iff] at verified
    obtain ⟨checked, remaining⟩ := verified
    rw [List.length_cons] at room
    have new := newEvent_argumentsOf counted checked
    have first : chain.append build cbor blake3 (argumentsOf event) =
        some (chain.afterAppend cbor blake3 (argumentsOf event)) :=
      (append_eq_some_iff counted).mpr ⟨by omega, rfl⟩
    have events : (chain.afterAppend cbor blake3 (argumentsOf event)).events =
        chain.events ++ [renamed chain.decisionId event] := by rw [afterAppend, new]
    have length : (chain.afterAppend cbor blake3 (argumentsOf event)).events.length =
        chain.events.length + 1 := by rw [events, List.length_append, List.length_singleton]
    have latest : (chain.afterAppend cbor blake3 (argumentsOf event)).latest.map
        CustodyEvent.eventHash = some event.eventHash := by
      rw [latest, events, List.getLast?_concat]
      rfl
    have verified : verifyEvents cbor blake3
        (chain.afterAppend cbor blake3 (argumentsOf event)).events.length
        ((chain.afterAppend cbor blake3 (argumentsOf event)).latest.map CustodyEvent.eventHash)
        rest = .ok () := by
      rw [length, latest]
      exact remaining
    obtain ⟨replayed, appended, all⟩ := ih (counted_afterAppend (by omega)) (by omega) verified
    refine ⟨replayed, ?_, ?_⟩
    · rw [List.map_cons, appendAll, List.foldlM_cons]
      exact Option.bind_eq_some_iff.mpr ⟨_, first, appended⟩
    · rw [all, events, List.map_cons, List.append_assoc]
      rfl

end CustodyChain

/-! ### Appended and verified -/

/-- A chain in memory: its events are in a vector. -/
structure HeldChain where
  chain : CustodyChain
  held : chain.events.length ≤ maxVecLength

/-- **Custody chains are exactly the verifiable ones.** What appends make of a new chain is verified and
its counter is the number of its events; and the arguments of the events of a verified chain, appended to a
new one, make the same events with the same numbers, links and hashes. -/
theorem verifiable_iff_appended (build : Build) (cbor : Cbor CustodyAction) (blake3 : Blake3) :
    (∀ (decisionId : Hash256) (calls : List CustodyCall) (chain : CustodyChain),
      (CustodyChain.new decisionId).appendAll build cbor blake3 calls = some chain →
        chain.verifyIntegrity cbor blake3 = .ok () ∧
          chain.nextSequence.toNat = chain.events.length) ∧
    ∀ (held : HeldChain) (decisionId : Hash256),
      held.chain.verifyIntegrity cbor blake3 = .ok () →
        ∃ replayed, (CustodyChain.new decisionId).appendAll build cbor blake3
            (held.chain.events.map CustodyChain.argumentsOf) = some replayed ∧
          replayed.events = held.chain.events.map (CustodyChain.renamed decisionId) := by
  constructor
  · intro decisionId calls chain appended
    have written := CustodyChain.written_appendAll (CustodyChain.written_new decisionId) appended
    exact ⟨written.verified, written.counted⟩
  · intro held decisionId verified
    have room : (CustodyChain.new decisionId).events.length + held.chain.events.length ≤
        maxVecLength := by
      rw [CustodyChain.new, List.length_nil, Nat.zero_add]
      exact held.held
    exact CustodyChain.appendAll_replay rfl room verified

namespace Sample

/-- A proposal and its approval. -/
def twoCalls : List CustodyCall :=
  [⟨⟨"did:exo:alice"⟩, .proposer, .create, FixedBytes.fill 32 1, ⟨1000, 0⟩, none⟩,
    ⟨⟨"did:exo:bob"⟩, .steward, .approve, FixedBytes.fill 32 1, ⟨2000, 0⟩, none⟩]

/-- The chain of the two. -/
def twoEvents : CustodyChain :=
  ((CustodyChain.new (FixedBytes.fill 32 7)).appendAll ⟨true⟩ writeAction Blake3.hash twoCalls).getD
    (.new (FixedBytes.fill 32 7))

/-- It is verified, and its events make those of the chain of another decision. -/
theorem twoEvents_replayed :
    (twoEvents.verifyIntegrity writeAction Blake3.hash = .ok () ∧
      twoEvents.nextSequence.toNat = twoEvents.events.length) ∧
    ∃ replayed, (CustodyChain.new (FixedBytes.fill 32 8)).appendAll ⟨true⟩ writeAction Blake3.hash
        (twoEvents.events.map CustodyChain.argumentsOf) = some replayed ∧
      replayed.events = twoEvents.events.map (CustodyChain.renamed (FixedBytes.fill 32 8)) := by
  obtain ⟨appended, verified⟩ := verifiable_iff_appended ⟨true⟩ writeAction Blake3.hash
  have two := appended (FixedBytes.fill 32 7) twoCalls twoEvents rfl
  exact ⟨two, verified ⟨twoEvents, by decide⟩ (FixedBytes.fill 32 8) two.1⟩

end Sample

end Exochain.ExoGovernance
