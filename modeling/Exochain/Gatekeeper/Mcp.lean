/-
**`exo-gatekeeper` — the rules for agents, and the signer type that they hang on.**

The rules are only checked for a signer that is an agent, and whether it is one is read off the signer type
that its signature was verified with. A typed signature is one of the message behind the prefix of its type.

* `buildSignedPayload_eq_iff` — the payload determines the type and the message: no payload of an agent is one
  of a human.
* `enforce_eq_ok_iff`, `enforce_eq_error_iff` — which contexts pass, and what is reported otherwise: the first
  rule of the list that is broken.
* **`verified_agent_is_bound`** — a key that its holder only ever used for typed signatures as an agent
  verifies as nothing else; so an action verified under it passes all rules exactly if all six conditions hold.
* `human_of_rotation` — signatures outside the scheme are not kept apart from it: the authorization of a new
  key whose first byte is one is a human signature of the other bytes.
-/

import Exochain.Gatekeeper.McpAudit
import Exochain.Identity.DidRegistry

set_option linter.unusedSectionVars false

namespace Exochain.ExoCore

open Foundation

/-! ### Signer types -/

def signerPrefixHuman : UInt8 := 0x01

def signerPrefixAi : UInt8 := 0x02

/-- Who signs, as it is embedded in the payload. -/
inductive SignerType where
  | human
  | ai (delegationId : Hash256)
  deriving DecidableEq

namespace SignerType

/-- The first byte of the payloads of a type. -/
def prefixByte : SignerType → UInt8
  | human => signerPrefixHuman
  | ai _ => signerPrefixAi

/-- The canonical prefix of the payloads of a type. -/
def toPayloadPrefix : SignerType → List UInt8
  | human => [signerPrefixHuman]
  | ai delegationId => signerPrefixAi :: delegationId.asBytes

def isHuman : SignerType → Bool
  | human => true
  | ai _ => false

def isAi : SignerType → Bool
  | human => false
  | ai _ => true

end SignerType

end Exochain.ExoCore

namespace Exochain.ExoGatekeeper

open Foundation ExoCore

/-! ### Typed signatures -/

/-- A signable message that embeds the signer type. -/
def buildSignedPayload (signerType : SignerType) (message : List UInt8) : List UInt8 :=
  signerType.toPayloadPrefix ++ message

/-- Verify a signature with a claimed signer type. -/
def verifyTypedSignature (ed25519 : Ed25519) (signerType : SignerType) (message : List UInt8)
    (signature : Signature) (publicKey : PublicKey) : Bool :=
  verify ed25519 (buildSignedPayload signerType message) signature publicKey

/-- **The payload determines the type and the message.** -/
theorem buildSignedPayload_eq_iff {signerType signerType' : SignerType} {message message' : List UInt8} :
    buildSignedPayload signerType message = buildSignedPayload signerType' message' ↔
      signerType = signerType' ∧ message = message' := by
  constructor
  · intro same
    cases signerType with
    | human =>
      cases signerType' with
      | human => exact ⟨rfl, (List.cons.inj same).2⟩
      | ai delegationId' => exact absurd (List.cons.inj same).1 (by decide)
    | ai delegationId =>
      cases signerType' with
      | human => exact absurd (List.cons.inj same).1 (by decide)
      | ai delegationId' =>
        have widths : delegationId.asBytes.length = delegationId'.asBytes.length :=
          delegationId.length_eq.trans delegationId'.length_eq.symm
        obtain ⟨ids, messages⟩ := List.append_inj (List.cons.inj same).2 widths
        rw [FixedBytes.ext ids]
        exact ⟨rfl, messages⟩
  · rintro ⟨rfl, rfl⟩
    rfl

/-! ### The rules -/

/-- What a rule is checked against. -/
structure McpContext where
  actorDid : Did
  signerType : SignerType
  bctsScope : Option String
  action : String
  hasProvenance : Bool
  forgingIdentity : Bool
  outputMarkedAi : Bool
  consentActive : Bool
  selfEscalation : Bool

/-- Whether the actor is an agent. -/
def McpContext.isAi (ctx : McpContext) : Bool := ctx.signerType.isAi

/-- A broken rule. -/
structure McpViolation where
  rule : McpRule
  description : String
  evidence : List String
  severity : ℕ
  deriving DecidableEq, Repr

/-- Check one rule. -/
def checkRule (rule : McpRule) (ctx : McpContext) : Except McpViolation Unit :=
  let actor := "actor: " ++ ctx.actorDid.value
  let action := "action: " ++ ctx.action
  match rule with
  | .mcp001BctsScope =>
    if ctx.bctsScope.isNone then .error ⟨rule, "AI operating outside BCTS scope", [actor], 5⟩ else .ok ()
  | .mcp002NoSelfEscalation =>
    if ctx.selfEscalation then .error ⟨rule, "AI attempted self-escalation", [actor, action], 5⟩
    else .ok ()
  | .mcp003ProvenanceRequired =>
    if !ctx.hasProvenance then .error ⟨rule, "AI action lacks provenance", [action], 4⟩ else .ok ()
  | .mcp004NoIdentityForge =>
    if ctx.forgingIdentity then .error ⟨rule, "AI attempted identity forge", [actor], 5⟩ else .ok ()
  | .mcp005Distinguishable =>
    if !ctx.outputMarkedAi then .error ⟨rule, "AI output not marked", [action], 3⟩ else .ok ()
  | .mcp006ConsentBoundaries =>
    if !ctx.consentActive then .error ⟨rule, "AI operating without consent", [actor], 5⟩ else .ok ()

/-- The loop over the rules. -/
def checkRules (ctx : McpContext) : List McpRule → Except McpViolation Unit
  | [] => .ok ()
  | rule :: rules =>
    match checkRule rule ctx with
    | .error violation => .error violation
    | .ok () => checkRules ctx rules

/-- Enforce rules on a context. -/
def enforce (rules : List McpRule) (ctx : McpContext) : Except McpViolation Unit :=
  if !ctx.isAi then .ok () else checkRules ctx rules

/-- The condition of a rule. -/
def McpRule.Holds (rule : McpRule) (ctx : McpContext) : Prop :=
  match rule with
  | .mcp001BctsScope => ctx.bctsScope ≠ none
  | .mcp002NoSelfEscalation => ctx.selfEscalation = false
  | .mcp003ProvenanceRequired => ctx.hasProvenance = true
  | .mcp004NoIdentityForge => ctx.forgingIdentity = false
  | .mcp005Distinguishable => ctx.outputMarkedAi = true
  | .mcp006ConsentBoundaries => ctx.consentActive = true

theorem checkRule_cases (rule : McpRule) (ctx : McpContext) :
    (checkRule rule ctx = .ok () ∧ rule.Holds ctx) ∨
      ∃ violation, checkRule rule ctx = .error violation ∧ violation.rule = rule ∧ ¬ rule.Holds ctx := by
  cases rule <;> simp only [checkRule, McpRule.Holds] <;> split <;> simp_all

theorem checkRule_eq_ok_iff {rule : McpRule} {ctx : McpContext} :
    checkRule rule ctx = .ok () ↔ rule.Holds ctx := by
  rcases checkRule_cases rule ctx with ⟨passed, holds⟩ | ⟨violation, failed, -, broken⟩
  · exact iff_of_true passed holds
  · rw [failed]
    exact iff_of_false (by simp) broken

/-- An error names the rule that was checked. -/
theorem rule_of_checkRule {rule : McpRule} {ctx : McpContext} {violation : McpViolation}
    (failed : checkRule rule ctx = .error violation) : violation.rule = rule := by
  rcases checkRule_cases rule ctx with ⟨passed, -⟩ | ⟨violation', failed', named, -⟩
  · rw [passed] at failed
    exact nomatch failed
  · rw [failed'] at failed
    cases failed
    exact named

theorem checkRules_eq_ok_iff {rules : List McpRule} {ctx : McpContext} :
    checkRules ctx rules = .ok () ↔ ∀ rule ∈ rules, rule.Holds ctx := by
  induction rules with
  | nil => exact iff_of_true rfl fun _ none => absurd none List.not_mem_nil
  | cons rule rules ih =>
    rw [List.forall_mem_cons, checkRules, ← ih, ← checkRule_eq_ok_iff]
    cases checkRule rule ctx with
    | error violation => simp
    | ok => simp

/-- The loop reports the first broken rule. -/
theorem checkRules_eq_error_iff {rules : List McpRule} {ctx : McpContext} {violation : McpViolation} :
    checkRules ctx rules = .error violation ↔
      ∃ before rule after, rules = before ++ rule :: after ∧ (∀ kept ∈ before, kept.Holds ctx) ∧
        checkRule rule ctx = .error violation := by
  induction rules with
  | nil =>
    refine iff_of_false (fun failed => nomatch failed) ?_
    rintro ⟨before, rule, after, split, -⟩
    simp at split
  | cons first rules ih =>
    rw [checkRules]
    cases checked : checkRule first ctx with
    | error violation' =>
      constructor
      · rintro ⟨rfl⟩
        exact ⟨[], first, rules, rfl, fun _ none => absurd none List.not_mem_nil, checked⟩
      · rintro ⟨before, rule, after, split, kept, failed⟩
        cases before with
        | nil =>
          obtain ⟨rfl, -⟩ := List.cons.inj split
          exact checked.symm.trans failed
        | cons other before =>
          obtain ⟨rfl, -⟩ := List.cons.inj split
          have holds := checkRule_eq_ok_iff.mpr (kept first List.mem_cons_self)
          exact nomatch checked.symm.trans holds
    | ok =>
      have holds := checkRule_eq_ok_iff.mp checked
      dsimp only
      rw [ih]
      constructor
      · rintro ⟨before, rule, after, split, kept, failed⟩
        exact ⟨first :: before, rule, after, by rw [split]; rfl, List.forall_mem_cons.mpr ⟨holds, kept⟩,
          failed⟩
      · rintro ⟨before, rule, after, split, kept, failed⟩
        cases before with
        | nil =>
          obtain ⟨rfl, -⟩ := List.cons.inj split
          exact nomatch checked.symm.trans failed
        | cons other before =>
          obtain ⟨rfl, rest⟩ := List.cons.inj split
          exact ⟨before, rule, after, rest, (List.forall_mem_cons.mp kept).2, failed⟩

/-- Human signers pass, and agents that keep every rule. -/
theorem enforce_eq_ok_iff {rules : List McpRule} {ctx : McpContext} :
    enforce rules ctx = .ok () ↔ (ctx.isAi = true → ∀ rule ∈ rules, rule.Holds ctx) := by
  unfold enforce
  cases ctx.isAi with
  | false => simp
  | true =>
    rw [Bool.not_true, if_neg Bool.false_ne_true, checkRules_eq_ok_iff]
    simp

/-- An agent that breaks a rule is refused for the first rule it breaks. -/
theorem enforce_eq_error_iff {rules : List McpRule} {ctx : McpContext} {violation : McpViolation} :
    enforce rules ctx = .error violation ↔
      ctx.isAi = true ∧ ∃ before rule after, rules = before ++ rule :: after ∧
        (∀ kept ∈ before, kept.Holds ctx) ∧ checkRule rule ctx = .error violation := by
  unfold enforce
  cases ctx.isAi with
  | false => simp
  | true =>
    rw [Bool.not_true, if_neg Bool.false_ne_true, checkRules_eq_error_iff]
    simp

/-! ### Who signed -/

/-- What the holder of a key signs: a message as a signer of a type, or bytes of another protocol. -/
inductive Signing where
  | typed (signerType : SignerType) (message : List UInt8)
  | raw (bytes : List UInt8)
  deriving DecidableEq

/-- The bytes that are signed. -/
def Signing.bytes : Signing → List UInt8
  | typed signerType message => buildSignedPayload signerType message
  | raw bytes => bytes

/-- Signatures under the key pass only for what its holder signed. -/
def Unforged (ed25519 : Ed25519) (key : PublicKey) (signings : List Signing) : Prop :=
  ∀ message signature, ed25519 key message signature = true →
    ∃ signing ∈ signings, signing.bytes = message

variable {ed25519 : Ed25519} {key : PublicKey} {signings : List Signing}

theorem exists_bytes_of_verify {message : List UInt8} {signature : Signature}
    (unforged : Unforged ed25519 key signings) (verified : verify ed25519 message signature key = true) :
    ∃ signing ∈ signings, signing.bytes = message := by
  cases signature with
  | ed25519 bytes => exact unforged message bytes verified
  | postQuantum => exact nomatch verified
  | hybrid => exact nomatch verified
  | empty => exact nomatch verified

/-- **Where a typed signature comes from**: its holder signed that message as that type, or signed the payload
in another protocol. -/
theorem origin_of_verify {signerType : SignerType} {message : List UInt8} {signature : Signature}
    (unforged : Unforged ed25519 key signings)
    (verified : verifyTypedSignature ed25519 signerType message signature key = true) :
    .typed signerType message ∈ signings ∨ .raw (buildSignedPayload signerType message) ∈ signings := by
  obtain ⟨signing, member, bytes⟩ := exists_bytes_of_verify unforged verified
  cases signing with
  | typed signerType' message' =>
    obtain ⟨rfl, rfl⟩ := buildSignedPayload_eq_iff.mp bytes
    exact .inl member
  | raw payload =>
    obtain rfl : payload = buildSignedPayload signerType message := bytes
    exact .inr member

/-- **An agent's key binds its holder to the rules.** If the holder of a key only ever signed as an agent, a
signature verified under the key with the signer type of a context was made by it as that type, for that
message; the type is one of an agent; and the context passes all rules exactly if the conditions of all of them
hold. A refusal names a broken rule. -/
theorem verified_agent_is_bound (ed25519 : Ed25519) (key : PublicKey) (signings : List Signing)
    (ctx : McpContext) (message : List UInt8) (signature : Signature)
    (unforged : Unforged ed25519 key signings)
    (agent : ∀ signing ∈ signings, ∃ delegationId message, signing = .typed (.ai delegationId) message)
    (verified : verifyTypedSignature ed25519 ctx.signerType message signature key = true) :
    .typed ctx.signerType message ∈ signings ∧ ctx.isAi = true ∧
      (enforce McpRule.all ctx = .ok () ↔ ∀ rule : McpRule, rule.Holds ctx) ∧
      ∀ violation, enforce McpRule.all ctx = .error violation → ¬ violation.rule.Holds ctx := by
  have signed : .typed ctx.signerType message ∈ signings := by
    rcases origin_of_verify unforged verified with typed | raw
    · exact typed
    · obtain ⟨_, _, same⟩ := agent _ raw
      exact nomatch same
  have ai : ctx.isAi = true := by
    obtain ⟨delegationId, _, same⟩ := agent _ signed
    rw [McpContext.isAi, (Signing.typed.inj same).1]
    rfl
  refine ⟨signed, ai, ?_, fun violation refused => ?_⟩
  · rw [enforce_eq_ok_iff]
    exact ⟨fun kept rule => kept ai rule (McpRule.mem_all rule), fun all _ rule _ => all rule⟩
  · obtain ⟨-, before, rule, after, -, -, failed⟩ := enforce_eq_error_iff.mp refused
    rw [rule_of_checkRule failed, ← checkRule_eq_ok_iff, failed]
    exact fun passed => nomatch passed

/-- A signature that authorizes a new key whose first byte is one is a human signature of the other bytes. -/
theorem human_of_rotation {newKey : PublicKey} {rest : List UInt8} {signature : Signature}
    (first : newKey.toList = signerPrefixHuman :: rest)
    (endorsed : verify ed25519 newKey.toList signature key = true) :
    verifyTypedSignature ed25519 .human rest signature key = true := by
  rw [first] at endorsed
  exact endorsed

/-! ### An agent that skips its provenance -/

namespace SkippedProvenance

/-- A signature library in which one agent signed one message, and its context. -/
def delegation : Hash256 := FixedBytes.fill 32 9

def request : List UInt8 := [1, 2, 3]

def signedRequest : List UInt8 := buildSignedPayload (.ai delegation) request

def library : Ed25519 := fun _ message _ => decide (message = signedRequest)

def unmarked : McpContext where
  actorDid := ⟨"did:exo:agent"⟩
  signerType := .ai delegation
  bctsScope := some "data:medical"
  action := "summarize"
  hasProvenance := false
  forgingIdentity := false
  outputMarkedAi := true
  consentActive := true
  selfEscalation := false

theorem unmarked_is_bound :
    .typed unmarked.signerType request ∈ [Signing.typed (.ai delegation) request] ∧
      unmarked.isAi = true ∧
      (enforce McpRule.all unmarked = .ok () ↔ ∀ rule : McpRule, rule.Holds unmarked) ∧
      ∀ violation, enforce McpRule.all unmarked = .error violation → ¬ violation.rule.Holds unmarked :=
  verified_agent_is_bound library (FixedBytes.fill 32 4) [.typed (.ai delegation) request] unmarked request
    (.ed25519 (FixedBytes.fill 64 5))
    (fun _ _ passed => ⟨_, List.mem_singleton_self _, (of_decide_eq_true passed).symm⟩)
    (fun _ member => ⟨delegation, request, List.mem_singleton.mp member⟩)
    (by
      show decide (signedRequest = signedRequest) = true
      exact decide_eq_true rfl)

end SkippedProvenance

end Exochain.ExoGatekeeper
