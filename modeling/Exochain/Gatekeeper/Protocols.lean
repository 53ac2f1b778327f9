/-
**`exo-gatekeeper`, `exo-core`, `exo-identity` — one key in three protocols.**

Nothing in a signature says what it is for. A key that signs events, typed messages and the revocation of
identifiers is safe only as far as the bytes tell these apart: an event starts with the head of a map of five
entries, a typed message with the prefix of its type, an accepted identifier with its scheme.

* `Purpose.eq_of_bytes_eq` — the bytes determine what they were signed for.
* **`signatures_separate`** — so what passes in one protocol was signed in it, with that content.
-/

import Exochain.Core.Events
import Exochain.Identity.Risk
import Exochain.Gatekeeper.Mcp

set_option linter.unusedSectionVars false

namespace Exochain.ExoGatekeeper

open Foundation ExoCore ExoIdentity

/-! ### What is signed -/

/-- What the holder of a key signs. -/
inductive Purpose where
  | event (content : Signable)
  | typed (signerType : SignerType) (message : List UInt8)
  | revocation (did : Did)
  deriving DecidableEq

namespace Purpose

/-- The bytes that are signed. -/
def bytes : Purpose → List UInt8
  | event content => content.toCbor
  | typed signerType message => buildSignedPayload signerType message
  | revocation did => did.asBytes

/-- Events fit in memory, identifiers are accepted. -/
def WellFormed : Purpose → Prop
  | event content => content.InMemory
  | typed _ _ => True
  | revocation did => did.Accepted

/-! ### The first byte -/

/-- Where the bytes say what they are for. -/
def Marks : Purpose → Option UInt8 → Prop
  | event _, first => first = some 0xa5
  | typed _ _, first => first = some signerPrefixHuman ∨ first = some signerPrefixAi
  | revocation _, first => first = some 0x64

/-- An accepted identifier starts with the first letter of the scheme. -/
theorem head_asBytes {did : Did} (accepted : did.Accepted) : did.asBytes.head? = some 0x64 := by
  obtain ⟨rest, split⟩ := RiskAttestation.starts_with_scheme accepted
  have value : did.value = Did.scheme ++ String.ofList rest := by
    rw [← String.toList_inj, String.toList_append, String.toList_ofList, split]
  have bytes : did.asBytes = textBytes Did.scheme ++ textBytes (String.ofList rest) := by
    rw [← textBytes_append, ← value]
    rfl
  have scheme : textBytes Did.scheme = 0x64 :: [0x69, 0x64, 0x3a, 0x65, 0x78, 0x6f, 0x3a] := by
    decide +kernel
  rw [bytes, scheme]
  rfl

theorem marks_head {purpose : Purpose} (wellFormed : purpose.WellFormed) :
    purpose.Marks purpose.bytes.head? := by
  cases purpose with
  | event content => exact content.toCbor_head
  | typed signerType message =>
    cases signerType with
    | human => exact .inl rfl
    | ai delegationId => exact .inr rfl
  | revocation did => exact head_asBytes wellFormed

/-- **The bytes determine what they were signed for.** -/
theorem eq_of_bytes_eq {purpose purpose' : Purpose} (wellFormed : purpose.WellFormed)
    (wellFormed' : purpose'.WellFormed) (same : purpose.bytes = purpose'.bytes) : purpose = purpose' := by
  have first := marks_head wellFormed
  have second := marks_head wellFormed'
  rw [same] at first
  generalize purpose'.bytes.head? = head at first second
  cases purpose with
  | event content =>
    cases purpose' with
    | event content' => rw [Signable.toCbor_inj wellFormed wellFormed' same]
    | typed => rcases second with prefixed | prefixed <;> exact nomatch first.symm.trans prefixed
    | revocation => exact nomatch Eq.trans (Eq.symm first) second
  | typed signerType message =>
    cases purpose' with
    | event => rcases first with prefixed | prefixed <;> exact nomatch prefixed.symm.trans second
    | typed signerType' message' =>
      obtain ⟨rfl, rfl⟩ := buildSignedPayload_eq_iff.mp same
      rfl
    | revocation => rcases first with prefixed | prefixed <;> exact nomatch prefixed.symm.trans second
  | revocation did =>
    cases purpose' with
    | event => exact nomatch Eq.trans (Eq.symm first) second
    | typed => rcases second with prefixed | prefixed <;> exact nomatch first.symm.trans prefixed
    | revocation did' => rw [Did.asBytes_injective same]

end Purpose

/-! ### What passes -/

/-- Signatures under the key pass only for what its holder signed. -/
def SignsOnly (ed25519 : Ed25519) (key : PublicKey) (purposes : List Purpose) : Prop :=
  ∀ message signature, ed25519 key message signature = true →
    ∃ purpose ∈ purposes, purpose.bytes = message

variable {ed25519 : Ed25519} {key : PublicKey} {purposes : List Purpose}

/-- What passes was signed for the purpose whose bytes it is. -/
theorem mem_of_verify (signsOnly : SignsOnly ed25519 key purposes)
    (wellFormed : ∀ purpose ∈ purposes, purpose.WellFormed) {purpose : Purpose}
    (asked : purpose.WellFormed) {signature : Signature}
    (verified : verify ed25519 purpose.bytes signature key = true) : purpose ∈ purposes := by
  have passed : ∃ bytes, ed25519 key purpose.bytes bytes = true := by
    cases signature with
    | ed25519 bytes => exact ⟨bytes, verified⟩
    | postQuantum => exact nomatch verified
    | hybrid => exact nomatch verified
    | empty => exact nomatch verified
  obtain ⟨bytes, passed⟩ := passed
  obtain ⟨signed, member, same⟩ := signsOnly _ bytes passed
  rwa [Purpose.eq_of_bytes_eq asked (wellFormed signed member) same.symm]

/-- A document is revoked only with a signature of its identifier under one of its keys. -/
theorem verify_of_revoke {registry after : DidRegistry} {did : Did} {doc : RegisteredDocument}
    {proof : RevocationProof} (found : registry[did.value]? = some doc)
    (revoked : DidRegistry.revoke ed25519 registry did proof = (.done, after)) :
    ∃ key ∈ doc.publicKeys, verify ed25519 did.asBytes proof.signature key = true := by
  unfold DidRegistry.revoke at revoked
  rw [found] at revoked
  dsimp only at revoked
  cases authorized : DidRegistry.authorizes ed25519 doc did.asBytes proof.signature with
  | false =>
    rw [authorized] at revoked
    exact nomatch (Prod.mk.inj revoked).1
  | true => exact DidRegistry.authorizes_iff.mp authorized

/-- **Signatures of one key do not pass from one protocol to another.** If the holder of a key only signs
events, typed messages and revocations, then an event verifies under the key only if one with its content was
signed; a typed signature verifies only if that message was signed as that type; and a document that holds no
other key is revoked only if its revocation was signed. -/
theorem signatures_separate (cbor : Cbor Signable) (ed25519 : Ed25519) (key : PublicKey)
    (purposes : List Purpose) (writes : ∀ content, cbor content = .ok content.toCbor)
    (signsOnly : SignsOnly ed25519 key purposes)
    (wellFormed : ∀ purpose ∈ purposes, purpose.WellFormed) :
    (∀ event : Event, event.signable.InMemory → event.verifyEvent cbor ed25519 key = true →
      .event event.signable ∈ purposes) ∧
    (∀ signerType message signature,
      verifyTypedSignature ed25519 signerType message signature key = true →
        .typed signerType message ∈ purposes) ∧
    ∀ (registry after : DidRegistry) (did : Did) (doc : RegisteredDocument) (proof : RevocationProof),
      did.Accepted → registry[did.value]? = some doc → (∀ held ∈ doc.publicKeys, held = key) →
        DidRegistry.revoke ed25519 registry did proof = (.done, after) → .revocation did ∈ purposes := by
  refine ⟨fun event fits verified => ?_, fun signerType message signature verified => ?_,
    fun registry after did doc proof accepted found only revoked => ?_⟩
  · rw [Event.verifyEvent, Event.signableBytes, writes] at verified
    exact mem_of_verify signsOnly wellFormed (show (Purpose.event event.signable).WellFormed from fits) verified
  · exact mem_of_verify signsOnly wellFormed (show (Purpose.typed signerType message).WellFormed from trivial)
      verified
  · obtain ⟨held, member, verified⟩ := verify_of_revoke found revoked
    rw [only held member] at verified
    exact mem_of_verify signsOnly wellFormed (show (Purpose.revocation did).WellFormed from accepted) verified

/-! ### One holder -/

namespace OneHolder

/-- The holder signs its revocation, nothing else. -/
def did : Did := ⟨"did:exo:holder"⟩

def library : Ed25519 := fun _ message _ => decide (message = did.asBytes)

theorem separate_of_revocation :
    (∀ event : Event, event.signable.InMemory →
      event.verifyEvent (fun content => .ok content.toCbor) library (FixedBytes.fill 32 4) = true →
        .event event.signable ∈ [Purpose.revocation did]) ∧
    (∀ signerType message signature,
      verifyTypedSignature library signerType message signature (FixedBytes.fill 32 4) = true →
        .typed signerType message ∈ [Purpose.revocation did]) ∧
    ∀ (registry after : DidRegistry) (revoked : Did) (doc : RegisteredDocument) (proof : RevocationProof),
      revoked.Accepted → registry[revoked.value]? = some doc →
        (∀ held ∈ doc.publicKeys, held = FixedBytes.fill 32 4) →
          DidRegistry.revoke library registry revoked proof = (.done, after) →
            .revocation revoked ∈ [Purpose.revocation did] :=
  signatures_separate (fun content => .ok content.toCbor) library (FixedBytes.fill 32 4)
    [.revocation did] (fun _ => rfl)
    (fun _ _ passed => ⟨_, List.mem_singleton_self _, (of_decide_eq_true passed).symm⟩)
    (fun _ member => by
      rw [List.mem_singleton.mp member]
      exact (by decide : did.Accepted))

end OneHolder

end Exochain.ExoGatekeeper
