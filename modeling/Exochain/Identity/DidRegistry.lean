/-
**`exo-identity` — the registry of DID documents.**

A registry files a document under its identifier, once. A revocation and a new key are both authorized by a
signature under some key of the document, of the identifier and of the new key alone; keys are added, never
taken out. The `did` field of a revocation proof is not read. A new key is in the document before the time of
its update is advanced, so a checked build that stops there keeps the key.

* `call_cases` — what a call can do: nothing, or one of three changes.
* `Descends` — how a document may change: keys are added at the end, each endorsed by a chain of signatures
  that starts at a key it had; a revoked one gets none; and it becomes revoked only by a signature of its
  identifier under a key it had or one so endorsed.
* **`registry_evolves`** — so does every document over every run of calls, whoever makes them.
-/

import Exochain.Identity.DidVerification
import Exochain.Identity.Error

set_option linter.unusedSectionVars false

namespace Exochain.ExoIdentity

open Foundation ExoCore

/-! ### Documents and registries -/

/-- An authentication method associated with an identifier. -/
structure AuthenticationMethod where
  id : String
  methodType : String
  publicKey : PublicKey
  deriving DecidableEq

/-- A service endpoint. -/
structure ServiceEndpoint where
  id : String
  serviceType : String
  endpoint : String
  deriving DecidableEq

/-- A document with all its fields. -/
structure RegisteredDocument extends DidDocument where
  publicKeys : List PublicKey
  authentication : List AuthenticationMethod
  serviceEndpoints : List ServiceEndpoint
  created : Timestamp
  revoked : Bool

/-- A proof that a holder authorized a revocation. -/
structure RevocationProof where
  did : Did
  signature : Signature

/-- The documents, by identifier. -/
abbrev DidRegistry := BTreeMap String RegisteredDocument

/-- What a call answers. -/
inductive RegistryReply where
  | done
  | failed (error : IdentityError)
  | stopped (fault : Fault)
  deriving DecidableEq

/-- A call that may change the registry. -/
inductive RegistryCall where
  | register (doc : RegisteredDocument)
  | revoke (did : Did) (proof : RevocationProof)
  | rotateKey (did : Did) (newKey : PublicKey) (proof : Signature)

namespace DidRegistry

variable (build : Build) (ed25519 : Ed25519)

/-- The document of an identifier, unless it is revoked. -/
def resolve (registry : DidRegistry) (did : Did) : Option RegisteredDocument :=
  registry[did.value]?.filter fun doc => !doc.revoked

/-- Register a document. -/
def register (registry : DidRegistry) (doc : RegisteredDocument) : RegistryReply × DidRegistry :=
  if registry.contains doc.id.value then (.failed (.duplicateDid doc.id), registry)
  else (.done, registry.insert doc.id.value doc)

/-- Whether a signature of the message passes under some key of the document. -/
def authorizes (doc : RegisteredDocument) (message : List UInt8) (signature : Signature) : Bool :=
  doc.publicKeys.any fun key => verify ed25519 message signature key

/-- Revoke a document. -/
def revoke (registry : DidRegistry) (did : Did) (proof : RevocationProof) :
    RegistryReply × DidRegistry :=
  match registry[did.value]? with
  | none => (.failed (.didNotFound did), registry)
  | some doc =>
    if !authorizes ed25519 doc did.asBytes proof.signature then
      (.failed (.invalidRevocationProof did), registry)
    else (.done, registry.insert did.value { doc with revoked := true })

/-- The document with one more key. -/
def withKey (doc : RegisteredDocument) (newKey : PublicKey) : RegisteredDocument :=
  { doc with publicKeys := doc.publicKeys ++ [newKey] }

/-- Add a key to a document. -/
def rotateKey (registry : DidRegistry) (did : Did) (newKey : PublicKey) (proof : Signature) :
    RegistryReply × DidRegistry :=
  match registry[did.value]? with
  | none => (.failed (.didNotFound did), registry)
  | some doc =>
    if doc.revoked then (.failed (.didRevoked did), registry)
    else if !authorizes ed25519 doc newKey.toList proof then (.failed .invalidSignature, registry)
    else
      match build.add 64 doc.updated.physicalMs.toNat 1 with
      -- the panic comes after the key was added
      | .error fault => (.stopped fault, registry.insert did.value (withKey doc newKey))
      | .ok physical =>
        (.done, registry.insert did.value
          { withKey doc newKey with updated := ⟨UInt64.ofNat physical, 0⟩ })

/-- The answer of a call and the registry after it. -/
def call (registry : DidRegistry) : RegistryCall → RegistryReply × DidRegistry
  | .register doc => register registry doc
  | .revoke did proof => revoke ed25519 registry did proof
  | .rotateKey did newKey proof => rotateKey build ed25519 registry did newKey proof

/-- The registry after a call. -/
def step (registry : DidRegistry) (called : RegistryCall) : DidRegistry :=
  (call build ed25519 registry called).2

/-! ### One call -/

/-- **What a call can do.** -/
inductive Outcome (registry : DidRegistry) : DidRegistry → Prop
  | unchanged : Outcome registry registry
  | registered (doc : RegisteredDocument) (fresh : registry[doc.id.value]? = none) :
    Outcome registry (registry.insert doc.id.value doc)
  | revoked (did : Did) (doc : RegisteredDocument) (found : registry[did.value]? = some doc)
      (key : PublicKey) (held : key ∈ doc.publicKeys) (signature : Signature)
      (signed : verify ed25519 did.asBytes signature key = true) :
    Outcome registry (registry.insert did.value { doc with revoked := true })
  | keyAdded (did : Did) (doc : RegisteredDocument) (found : registry[did.value]? = some doc)
      (running : doc.revoked = false) (key newKey : PublicKey) (held : key ∈ doc.publicKeys)
      (signature : Signature) (signed : verify ed25519 newKey.toList signature key = true)
      (updated : Timestamp)
      (advanced : build.overflowChecks = true → doc.updated ≤ updated) :
    Outcome registry (registry.insert did.value { withKey doc newKey with updated := updated })

variable {build} {ed25519} {registry : DidRegistry}

theorem authorizes_iff {doc : RegisteredDocument} {message : List UInt8} {signature : Signature} :
    authorizes ed25519 doc message signature = true ↔
      ∃ key ∈ doc.publicKeys, verify ed25519 message signature key = true := List.any_eq_true

/-- In a checked build the time of an update is later than the one before. -/
theorem le_advanced {updated : Timestamp} {physical : ℕ} (checked : build.overflowChecks = true)
    (added : build.add 64 updated.physicalMs.toNat 1 = .ok physical) :
    updated ≤ ⟨UInt64.ofNat physical, 0⟩ := by
  have fits : updated.physicalMs.toNat + 1 < 2 ^ 64 :=
    Build.exists_add_eq_ok_iff.mp ⟨physical, added⟩ checked
  rw [Build.add_of_lt fits] at added
  obtain rfl := Except.ok.inj added
  refine (Timestamp.lt_iff.mpr (.inl ?_)).le
  rw [UInt64.lt_iff_toNat_lt, UInt64.toNat_ofNat_of_lt' fits]
  exact Nat.lt_succ_self _

theorem call_cases (registry : DidRegistry) (called : RegistryCall) :
    Outcome build ed25519 registry (step build ed25519 registry called) := by
  unfold step
  cases called with
  | register doc =>
    show Outcome _ _ _ (register registry doc).2
    unfold register
    split
    · exact .unchanged
    · rename_i fresh
      exact .registered doc (BTreeMap.not_mem_iff.mp fresh)
  | revoke did proof =>
    show Outcome _ _ _ (revoke ed25519 registry did proof).2
    unfold revoke
    cases found : registry[did.value]? with
    | none => exact .unchanged
    | some doc =>
      dsimp only
      cases authorized : authorizes ed25519 doc did.asBytes proof.signature with
      | false => exact .unchanged
      | true =>
        obtain ⟨key, held, signed⟩ := authorizes_iff.mp authorized
        exact .revoked did doc found key held proof.signature signed
  | rotateKey did newKey proof =>
    show Outcome _ _ _ (rotateKey build ed25519 registry did newKey proof).2
    unfold rotateKey
    cases found : registry[did.value]? with
    | none => exact .unchanged
    | some doc =>
      dsimp only
      split
      · exact .unchanged
      rename_i running
      cases authorized : authorizes ed25519 doc newKey.toList proof with
      | false => exact .unchanged
      | true =>
        obtain ⟨key, held, signed⟩ := authorizes_iff.mp authorized
        have active : doc.revoked = false := by simpa using running
        cases added : build.add 64 doc.updated.physicalMs.toNat 1 with
        | error fault =>
          exact .keyAdded did doc found active key newKey held proof signed doc.updated fun _ => le_refl _
        | ok physical =>
          exact .keyAdded did doc found active key newKey held proof signed _
            fun checked => le_advanced checked added

/-! ### How a document changes -/

variable (build ed25519)

/-- A key endorses another one: some signature of its bytes passes under it. -/
def Endorses (key other : PublicKey) : Prop := ∃ signature, verify ed25519 other.toList signature key = true

/-- A key of the document, or one endorsed by a chain of signatures that starts at such a key. -/
def Endorsed (doc : RegisteredDocument) (key : PublicKey) : Prop :=
  ∃ root ∈ doc.publicKeys, Relation.ReflTransGen (Endorses ed25519) root key

/-- **How a document may change.** -/
structure Descends (did : Did) (doc after : RegisteredDocument) : Prop where
  same : after.id = doc.id ∧ after.verificationMethods = doc.verificationMethods ∧
    after.authentication = doc.authentication ∧ after.serviceEndpoints = doc.serviceEndpoints ∧
    after.created = doc.created
  keys : ∃ added, after.publicKeys = doc.publicKeys ++ added ∧ ∀ key ∈ added, Endorsed ed25519 doc key
  updated : build.overflowChecks = true → doc.updated ≤ after.updated
  final : doc.revoked = true → after.revoked = true ∧ after.publicKeys = doc.publicKeys
  revocation : after.revoked = true → doc.revoked = true ∨
    ∃ key, Endorsed ed25519 doc key ∧ ∃ signature, verify ed25519 did.asBytes signature key = true

/-- Every document is still there, changed as documents may change. -/
def Evolved (registry after : DidRegistry) : Prop :=
  ∀ did doc, registry[did.value]? = some doc →
    ∃ doc', after[did.value]? = some doc' ∧ Descends build ed25519 did doc doc'

variable {build} {ed25519} {did : Did} {doc after : RegisteredDocument}

theorem Endorsed.of_mem {key : PublicKey} (held : key ∈ doc.publicKeys) : Endorsed ed25519 doc key :=
  ⟨key, held, .refl⟩

/-- What a key of a descendant endorses is endorsed. -/
theorem Descends.endorsed (descends : Descends build ed25519 did doc after) {key : PublicKey}
    (later : Endorsed ed25519 after key) : Endorsed ed25519 doc key := by
  obtain ⟨root, held, path⟩ := later
  obtain ⟨added, keys, endorsed⟩ := descends.keys
  rw [keys] at held
  rcases List.mem_append.mp held with old | new
  · exact ⟨root, old, path⟩
  · obtain ⟨first, old, earlier⟩ := endorsed root new
    exact ⟨first, old, earlier.trans path⟩

theorem Descends.refl (did : Did) (doc : RegisteredDocument) : Descends build ed25519 did doc doc where
  same := ⟨rfl, rfl, rfl, rfl, rfl⟩
  keys := ⟨[], (List.append_nil _).symm, fun _ none => absurd none List.not_mem_nil⟩
  updated _ := le_refl _
  final revoked := ⟨revoked, rfl⟩
  revocation revoked := .inl revoked

theorem Descends.trans {last : RegisteredDocument} (first : Descends build ed25519 did doc after)
    (second : Descends build ed25519 did after last) : Descends build ed25519 did doc last where
  same := by
    obtain ⟨id, methods, authentication, endpoints, created⟩ := first.same
    obtain ⟨id', methods', authentication', endpoints', created'⟩ := second.same
    exact ⟨id'.trans id, methods'.trans methods, authentication'.trans authentication,
      endpoints'.trans endpoints, created'.trans created⟩
  keys := by
    obtain ⟨added, keys, endorsed⟩ := first.keys
    obtain ⟨added', keys', endorsed'⟩ := second.keys
    refine ⟨added ++ added', by rw [keys', keys, List.append_assoc], fun key member => ?_⟩
    rcases List.mem_append.mp member with early | late
    · exact endorsed key early
    · exact first.endorsed (endorsed' key late)
  updated checked := (first.updated checked).trans (second.updated checked)
  final revoked := by
    obtain ⟨revoked', keys⟩ := first.final revoked
    obtain ⟨revoked'', keys'⟩ := second.final revoked'
    exact ⟨revoked'', keys'.trans keys⟩
  revocation revoked := by
    rcases second.revocation revoked with earlier | ⟨key, endorsed, signed⟩
    · exact first.revocation earlier
    · exact .inr ⟨key, first.endorsed endorsed, signed⟩

theorem Evolved.refl (registry : DidRegistry) : Evolved build ed25519 registry registry :=
  fun did doc found => ⟨doc, found, .refl did doc⟩

theorem Evolved.trans {first second third : DidRegistry} (early : Evolved build ed25519 first second)
    (late : Evolved build ed25519 second third) : Evolved build ed25519 first third := by
  intro did doc found
  obtain ⟨doc', found', descends⟩ := early did doc found
  obtain ⟨doc'', found'', descends'⟩ := late did doc' found'
  exact ⟨doc'', found'', descends.trans descends'⟩

/-- A document replaced by a descendant, the others left alone. -/
theorem evolved_insert (found : registry[did.value]? = some doc)
    (descends : Descends build ed25519 did doc after) :
    Evolved build ed25519 registry (registry.insert did.value after) := by
  intro other otherDoc here
  rw [BTreeMap.getElem?_insert_eq_ite]
  split
  · rename_i same
    obtain rfl := Did.ext same
    cases found.symm.trans here
    exact ⟨after, rfl, descends⟩
  · exact ⟨otherDoc, here, .refl other otherDoc⟩

/-- **One call** keeps every document, changed as documents may change. -/
theorem Outcome.evolved {after : DidRegistry} (outcome : Outcome build ed25519 registry after) :
    Evolved build ed25519 registry after := by
  cases outcome with
  | unchanged => exact .refl registry
  | registered doc fresh =>
    intro did found here
    refine ⟨found, ?_, .refl did found⟩
    have different : doc.id.value ≠ did.value := by
      intro same
      rw [same, here] at fresh
      exact nomatch fresh
    rw [BTreeMap.getElem?_insert_of_ne _ different]
    exact here
  | revoked did doc found key held signature signed =>
    refine evolved_insert found
      ⟨⟨rfl, rfl, rfl, rfl, rfl⟩, ?_, fun _ => le_refl _, fun _ => ⟨rfl, rfl⟩, ?_⟩
    · exact ⟨[], (List.append_nil _).symm, fun _ none => absurd none List.not_mem_nil⟩
    · exact fun _ => .inr ⟨key, .of_mem held, signature, signed⟩
  | keyAdded did doc found running key newKey held signature signed updated advanced =>
    refine evolved_insert found ⟨⟨rfl, rfl, rfl, rfl, rfl⟩, ⟨[newKey], rfl, ?_⟩, advanced, ?_, ?_⟩
    · intro added member
      obtain rfl := List.mem_singleton.mp member
      exact ⟨key, held, .single ⟨signature, signed⟩⟩
    · exact fun revoked => nomatch running.symm.trans revoked
    · exact fun revoked => .inl revoked

/-- **Documents evolve under the control of their keys.** Over every run of calls, whoever makes them, between
every earlier registry and every later one: no document disappears, its keys are added at the end and each is
endorsed by a chain of signatures that starts at a key it had, a revoked document stays revoked and gets no
keys, and an unrevoked one becomes revoked only by a signature of its identifier under an endorsed key. -/
theorem registry_evolves (build : Build) (ed25519 : Ed25519) (registry : DidRegistry)
    (calls : List RegistryCall) :
    Evolves (step build ed25519) (Evolved build ed25519) registry calls :=
  (evolves_iff_along .refl fun _ _ _ => .trans).mpr
    (along_of_forall (fun registry called => (call_cases registry called).evolved) registry calls)

/-- A revoked document stays revoked. -/
theorem step_revoked (registry : DidRegistry) (called : RegistryCall)
    (revoked : ∃ doc, registry[did.value]? = some doc ∧ doc.revoked = true) :
    ∃ doc, (step build ed25519 registry called)[did.value]? = some doc ∧ doc.revoked = true := by
  obtain ⟨doc, found, revoked⟩ := revoked
  obtain ⟨after, found', descends⟩ := (call_cases registry called).evolved did doc found
  exact ⟨after, found', (descends.final revoked).1⟩

/-- So an identifier that was revoked is never resolved again. -/
theorem resolve_after_revocation (revoked : ∃ doc, registry[did.value]? = some doc ∧ doc.revoked = true)
    (calls : List RegistryCall) : resolve (run (step build ed25519) registry calls) did = none := by
  obtain ⟨doc, found, revoked⟩ := (throughout_of_preserved step_revoked revoked calls).last
  rw [resolve, found, Option.filter_some, revoked]
  rfl

end DidRegistry

end Exochain.ExoIdentity
