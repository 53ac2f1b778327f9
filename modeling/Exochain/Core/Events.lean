/-
**`exo-core` — signed events.**

An event is signed over the CBOR form of its content. The writer is a parameter; the format it writes is fixed.

* `toCbor_inj` — **the form determines the content**: the identifier, the timestamp, the type with the name of a
  custom one, the payload and the source. The signature is not part of it.
* `toCbor_head` — the form starts with the head of a map of five entries, whatever the content.
-/

import Exochain.Core.CborReading
import Exochain.Core.Bcts

namespace Exochain.ExoCore

open Foundation

/-! ### Events -/

/-- Classification of events. -/
inductive EventType where
  | transactionStateChanged
  | identityResolved
  | consentGranted
  | consentRevoked
  | invariantChecked
  | invariantViolated
  | governanceDecision
  | escalationTriggered
  | sybilAlert
  | keyRotated
  | entityRegistered
  | auditEntry
  | custom (name : String)
  deriving DecidableEq

/-- A signed event. -/
structure Event where
  id : CorrelationId
  timestamp : Timestamp
  eventType : EventType
  payload : List UInt8
  sourceDid : Did
  signature : Signature
  deriving DecidableEq

/-- What of an event is signed. -/
structure Signable where
  id : CorrelationId
  timestamp : Timestamp
  eventType : EventType
  payload : List UInt8
  sourceDid : Did
  deriving DecidableEq

namespace Event

def signable (event : Event) : Signable where
  id := event.id
  timestamp := event.timestamp
  eventType := event.eventType
  payload := event.payload
  sourceDid := event.sourceDid

variable (cbor : Cbor Signable)

/-- The bytes that are signed. -/
def signableBytes (event : Event) : List UInt8 :=
  match cbor event.signable with
  | .ok buf => buf
  | .error _ => []

/-- Whether the signature of an event passes under a key. -/
def verifyEvent (ed25519 : Ed25519) (event : Event) (publicKey : PublicKey) : Bool :=
  verify ed25519 (signableBytes cbor event) event.signature publicKey

/-- Create an event, signed with a key. -/
def createSignedEvent (sign : List UInt8 → FixedBytes 64) (id : CorrelationId) (timestamp : Timestamp)
    (eventType : EventType) (payload : List UInt8) (sourceDid : Did) : Event :=
  let event : Event := ⟨id, timestamp, eventType, payload, sourceDid, .ed25519 (FixedBytes.fill 64 0)⟩
  { event with signature := .ed25519 (sign (signableBytes cbor event)) }

end Event

/-! ### The format -/

/-- The name of a type without data. -/
def EventType.variantName : EventType → String
  | transactionStateChanged => "TransactionStateChanged"
  | identityResolved => "IdentityResolved"
  | consentGranted => "ConsentGranted"
  | consentRevoked => "ConsentRevoked"
  | invariantChecked => "InvariantChecked"
  | invariantViolated => "InvariantViolated"
  | governanceDecision => "GovernanceDecision"
  | escalationTriggered => "EscalationTriggered"
  | sybilAlert => "SybilAlert"
  | keyRotated => "KeyRotated"
  | entityRegistered => "EntityRegistered"
  | auditEntry => "AuditEntry"
  | custom _ => "Custom"

/-- The types without data. -/
def EventType.units : List EventType :=
  [transactionStateChanged, identityResolved, consentGranted, consentRevoked, invariantChecked,
    invariantViolated, governanceDecision, escalationTriggered, sybilAlert, keyRotated, entityRegistered,
    auditEntry]

/-- A type without data is its name, a custom one a map of one entry. -/
def EventType.toCbor : EventType → List UInt8
  | custom name => Cbor.map [("Custom", Cbor.text name)]
  | unit => Cbor.text unit.variantName

def Timestamp.toCbor (timestamp : Timestamp) : List UInt8 :=
  Cbor.map [("physical_ms", Cbor.unsigned timestamp.physicalMs.toNat),
    ("logical", Cbor.unsigned timestamp.logical.toNat)]

/-- What the writer writes for the content of an event. -/
def Signable.toCbor (signable : Signable) : List UInt8 :=
  Cbor.map [("id", Cbor.bytes signable.id.uuid.toList), ("timestamp", signable.timestamp.toCbor),
    ("event_type", signable.eventType.toCbor), ("payload", Cbor.numbers signable.payload),
    ("source_did", Cbor.text signable.sourceDid.value)]

/-- A text that fits in memory. -/
def TextInMemory (string : String) : Prop := (textBytes string).length ≤ maxVecLength

/-- The parts of the content that have no fixed size fit in memory. -/
structure Signable.InMemory (signable : Signable) : Prop where
  eventType : ∀ name, signable.eventType = .custom name → TextInMemory name
  payload : signable.payload.length ≤ maxVecLength
  source : TextInMemory signable.sourceDid.value

/-! ### Reading the content back -/

theorem lt_of_le_maxVecLength {length : ℕ} (fits : length ≤ maxVecLength) : length < 2 ^ 64 := by
  unfold maxVecLength at fits
  omega

theorem EventType.mem_units_or (eventType : EventType) :
    eventType ∈ units ∨ ∃ name, eventType = custom name := by
  cases eventType with
  | custom name => exact .inr ⟨name, rfl⟩
  | _ => exact .inl (by decide)

theorem EventType.toCbor_of_mem {eventType : EventType} (unit : eventType ∈ units) :
    eventType.toCbor = Cbor.text eventType.variantName := by
  cases eventType with
  | custom name => exact absurd unit (by simp [units])
  | _ => rfl

/-- The names of the types without data are short and differ. -/
theorem EventType.variantNames :
    (∀ eventType ∈ units, (textBytes eventType.variantName).length < 2 ^ 64) ∧
      ∀ eventType ∈ units, ∀ eventType' ∈ units,
        eventType.variantName = eventType'.variantName → eventType = eventType' := by
  decide +kernel

/-- **Types can be cut off and read back.** -/
theorem EventType.selfDelimiting :
    SelfDelimiting (fun eventType => ∀ name, eventType = custom name → TextInMemory name) toCbor := by
  intro eventType eventType' fits fits' rest rest' same
  obtain ⟨short, distinct⟩ := variantNames
  rcases mem_units_or eventType with unit | ⟨name, rfl⟩
  · rw [toCbor_of_mem unit] at same
    rcases mem_units_or eventType' with unit' | ⟨name', rfl⟩
    · rw [toCbor_of_mem unit'] at same
      obtain ⟨names, rests⟩ :=
        Cbor.selfDelimiting_text (short _ unit) (short _ unit') same
      exact ⟨distinct _ unit _ unit' names, rests⟩
    · exact absurd same.symm (Cbor.map_ne_text _ _ _ _)
  · rcases mem_units_or eventType' with unit' | ⟨name', rfl⟩
    · rw [toCbor_of_mem unit'] at same
      exact absurd same (Cbor.map_ne_text _ _ _ _)
    · have long := lt_of_le_maxVecLength (fits name rfl)
      have long' := lt_of_le_maxVecLength (fits' name' rfl)
      simp only [toCbor, Cbor.map, List.flatMap_cons, List.flatMap_nil, List.length_cons, List.length_nil,
        List.append_nil, List.append_assoc, List.append_cancel_left_eq] at same
      obtain ⟨names, rests⟩ := Cbor.selfDelimiting_text long long' same
      exact ⟨congrArg custom names, rests⟩

theorem Timestamp.selfDelimiting : SelfDelimiting (fun _ => True) Timestamp.toCbor := by
  intro timestamp timestamp' _ _ rest rest' same
  simp only [toCbor, Cbor.map, List.flatMap_cons, List.flatMap_nil, List.length_cons, List.length_nil,
    List.append_nil, List.append_assoc, List.append_cancel_left_eq] at same
  obtain ⟨physical, same⟩ :=
    Cbor.selfDelimiting_unsigned timestamp.physicalMs.toNat_lt timestamp'.physicalMs.toNat_lt same
  obtain ⟨logical, rests⟩ := Cbor.selfDelimiting_unsigned
    (by have := timestamp.logical.toNat_lt; omega) (by have := timestamp'.logical.toNat_lt; omega)
    (List.append_cancel_left same)
  exact ⟨Timestamp.ext (UInt64.toNat_inj.mp physical) (UInt32.toNat_inj.mp logical), rests⟩

/-- **The form determines the content.** -/
theorem Signable.toCbor_inj {signable signable' : Signable} (fits : signable.InMemory)
    (fits' : signable'.InMemory) (same : signable.toCbor = signable'.toCbor) : signable = signable' := by
  obtain ⟨⟨id⟩, timestamp, eventType, payload, ⟨source⟩⟩ := signable
  obtain ⟨⟨id'⟩, timestamp', eventType', payload', ⟨source'⟩⟩ := signable'
  simp only [toCbor, Cbor.map, List.flatMap_cons, List.flatMap_nil, List.length_cons, List.length_nil,
    List.append_nil, List.append_assoc, List.append_cancel_left_eq] at same
  have idWidth (uuid : FixedBytes 16) : uuid.toList.length < 2 ^ 64 := by
    rw [uuid.length_eq]
    decide
  obtain ⟨ids, afterId⟩ := Cbor.selfDelimiting_bytes (idWidth id) (idWidth id') same
  obtain ⟨rfl, afterTime⟩ := Timestamp.selfDelimiting trivial trivial (List.append_cancel_left afterId)
  obtain ⟨rfl, afterType⟩ := EventType.selfDelimiting fits.eventType fits'.eventType
    (List.append_cancel_left afterTime)
  obtain ⟨rfl, afterPayload⟩ := Cbor.selfDelimiting_numbers (lt_of_le_maxVecLength fits.payload)
    (lt_of_le_maxVecLength fits'.payload) (List.append_cancel_left afterType)
  obtain rfl := Cbor.selfDelimiting_text.eq_of_eq (lt_of_le_maxVecLength fits.source)
    (lt_of_le_maxVecLength fits'.source) (List.append_cancel_left afterPayload)
  rw [FixedBytes.ext ids]

/-- Every form starts with the head of a map of five entries. -/
theorem Signable.toCbor_head (signable : Signable) : signable.toCbor.head? = some 0xa5 := rfl

end Exochain.ExoCore
