/-
**`exo-gatekeeper` — the eight constitutional checks.**

The types of the judicial branch and the invariant engine: an engine runs its checks in the order of
its set and collects one violation for each that fails. A violation names its invariant, describes
what failed and lists evidence.

The checks take four things from outside, the fields of `Platform`: the table of printable characters
of debug renderings, the digest, Ed25519 verification, and the order in which a hash set of branches
is listed, which the standard library leaves open.

* `Holds` — what each invariant asks of a context, as a condition on its fields.
* **`checkInvariant_eq_ok_iff`** — each check passes exactly where its condition holds.
* `names_checkInvariant` — a violation names the invariant that was checked.
* `invariants_of_violations` — the violations of a list are those of the conditions that fail.
-/

import Exochain.Authority.Chain

set_option linter.unusedSectionVars false

namespace Exochain.ExoGatekeeper

open Foundation ExoCore
open ExoAuthority (debugString)

/-! ### Permissions, branches and roles -/

/-- A named permission. -/
structure Permission where
  name : String
  deriving DecidableEq, Repr

/-- A set of permissions. -/
structure PermissionSet where
  permissions : List Permission
  deriving DecidableEq, Repr

/-- Whether a permission is in the set. -/
def PermissionSet.contains (set : PermissionSet) (p : Permission) : Bool :=
  set.permissions.contains p

/-- Branch of government. -/
inductive GovernmentBranch where
  | legislative
  | executive
  | judicial
  deriving DecidableEq, Repr

/-- The debug rendering of a branch. -/
def GovernmentBranch.debug : GovernmentBranch → String
  | .legislative => "Legislative"
  | .executive => "Executive"
  | .judicial => "Judicial"

/-- Role held by an actor in the constitutional fabric. -/
structure Role where
  name : String
  branch : GovernmentBranch
  deriving DecidableEq, Repr

/-! ### Bailments, consent, authority, quorums and provenance -/

/-- Whether an active bailment with consent exists for a data scope. -/
inductive BailmentState where
  | none
  | active (bailor bailee : Did) (scope : String)
  | suspended (reason : String)
  | terminated
  deriving DecidableEq, Repr

/-- Whether the bailment is active. -/
def BailmentState.isActive : BailmentState → Bool
  | .active _ _ _ => true
  | _ => false

/-- A consent record. -/
structure ConsentRecord where
  subject : Did
  grantedTo : Did
  scope : String
  active : Bool
  deriving DecidableEq, Repr

/-- A single link of an authority chain. The key is that of the grantor, if it is embedded. -/
structure AuthorityLink where
  grantor : Did
  grantee : Did
  permissions : PermissionSet
  signature : List UInt8
  grantorPublicKey : Option (List UInt8)
  deriving DecidableEq, Repr

/-- The delegation path from root to actor. -/
structure AuthorityChain where
  links : List AuthorityLink
  deriving DecidableEq, Repr

/-- A single quorum vote. -/
structure QuorumVote where
  voter : Did
  approved : Bool
  signature : List UInt8
  deriving DecidableEq, Repr

/-- Quorum decision evidence. -/
structure QuorumEvidence where
  threshold : UInt32
  votes : List QuorumVote
  deriving DecidableEq, Repr

/-- How many votes approve. -/
def QuorumEvidence.approvals (evidence : QuorumEvidence) : ℕ :=
  (evidence.votes.filter QuorumVote.approved).length

/-- Whether the approving votes, counted up to the greatest `u32`, reach the threshold. -/
def QuorumEvidence.isMet (evidence : QuorumEvidence) : Bool :=
  decide (evidence.threshold.toNat ≤ min evidence.approvals (2 ^ 32 - 1))

/-- Provenance metadata for an action. -/
structure Provenance where
  actor : Did
  timestamp : String
  actionHash : List UInt8
  signature : List UInt8
  deriving DecidableEq, Repr

/-- Whether there is a signature. -/
def Provenance.isSigned (provenance : Provenance) : Bool := !provenance.signature.isEmpty

/-! ### Invariants and violations -/

/-- The invariants enforced by the kernel. -/
inductive ConstitutionalInvariant where
  | separationOfPowers
  | consentRequired
  | noSelfGrant
  | humanOverride
  | kernelImmutability
  | authorityChainValid
  | quorumLegitimate
  | provenanceVerifiable
  deriving DecidableEq, Repr

/-- A set of invariants to enforce, in order. -/
structure InvariantSet where
  invariants : List ConstitutionalInvariant
  deriving DecidableEq, Repr

/-- The complete set. -/
def InvariantSet.all : InvariantSet where
  invariants := [.separationOfPowers, .consentRequired, .noSelfGrant, .humanOverride,
    .kernelImmutability, .authorityChainValid, .quorumLegitimate, .provenanceVerifiable]

theorem InvariantSet.mem_all (invariant : ConstitutionalInvariant) :
    invariant ∈ InvariantSet.all.invariants := by
  cases invariant <;> decide

/-- An engine that enforces a set. -/
structure InvariantEngine where
  invariantSet : InvariantSet
  deriving DecidableEq, Repr

/-- What the checks look at. -/
structure InvariantContext where
  actor : Did
  actorRoles : List Role
  bailmentState : BailmentState
  consentRecords : List ConsentRecord
  authorityChain : AuthorityChain
  isSelfGrant : Bool
  humanOverridePreserved : Bool
  kernelModificationAttempted : Bool
  quorumEvidence : Option QuorumEvidence
  provenance : Option Provenance
  actorPermissions : PermissionSet
  requestedPermissions : PermissionSet

/-- A detailed report of an invariant violation. -/
structure InvariantViolation where
  invariant : ConstitutionalInvariant
  description : String
  evidence : List String
  deriving DecidableEq, Repr

/-- What the checks take from outside. -/
structure Platform where
  printable : Char → Bool
  blake3 : Blake3
  ed25519 : Ed25519
  listBranches : Finset GovernmentBranch → List GovernmentBranch

/-! ### Debug renderings -/

/-- The debug rendering of an identifier. -/
def debugDid (did : Did) : String := "Did(" ++ did.value ++ ")"

/-- The debug rendering of a role. -/
def Role.debug (printable : Char → Bool) (role : Role) : String :=
  "Role \x7b name: " ++ debugString printable role.name ++ ", branch: " ++ role.branch.debug ++
    " \x7d"

/-- The debug rendering of a bailment state. -/
def BailmentState.debug (printable : Char → Bool) : BailmentState → String
  | .none => "None"
  | .active bailor bailee scope =>
    "Active \x7b bailor: " ++ debugDid bailor ++ ", bailee: " ++ debugDid bailee ++ ", scope: " ++
      debugString printable scope ++ " \x7d"
  | .suspended reason => "Suspended \x7b reason: " ++ debugString printable reason ++ " \x7d"
  | .terminated => "Terminated"

/-! ### The checks -/

/-- Return early with a violation. -/
def rejectIf (bad : Bool) (violation : InvariantViolation) : Except InvariantViolation Unit :=
  if bad then .error violation else .ok ()

section Checks

variable (platform : Platform) (ctx : InvariantContext)

/-- No actor holds roles in more than one branch. -/
def checkSeparationOfPowers : Except InvariantViolation Unit := do
  let branches := (ctx.actorRoles.map Role.branch).toFinset
  rejectIf (.legislative ∈ branches ∧ .executive ∈ branches ∧ .judicial ∈ branches)
    { invariant := .separationOfPowers
      description := "Actor holds roles in all three branches of government"
      evidence :=
        ["actor: " ++ ctx.actor.value,
          "roles: [" ++ ", ".intercalate (ctx.actorRoles.map (Role.debug platform.printable)) ++
            "]"] }
  rejectIf (1 < branches.card)
    { invariant := .separationOfPowers
      description := "Actor holds roles in multiple branches of government"
      evidence :=
        ["actor: " ++ ctx.actor.value,
          "branches: \x7b" ++
            ", ".intercalate ((platform.listBranches branches).map GovernmentBranch.debug) ++
            "\x7d"] }

/-- There is an active bailment and an active consent record for the actor. -/
def checkConsentRequired : Except InvariantViolation Unit := do
  rejectIf (!ctx.bailmentState.isActive)
    { invariant := .consentRequired
      description := "No active bailment for this action"
      evidence := ["bailment_state: " ++ ctx.bailmentState.debug platform.printable] }
  rejectIf (!ctx.consentRecords.any fun c => c.grantedTo == ctx.actor && c.active)
    { invariant := .consentRequired
      description := "No active consent record for actor"
      evidence :=
        ["actor: " ++ ctx.actor.value, "records: " ++ toString ctx.consentRecords.length] }

/-- The actor does not expand its own permissions. -/
def checkNoSelfGrant : Except InvariantViolation Unit :=
  rejectIf ctx.isSelfGrant
    { invariant := .noSelfGrant
      description := "Actor attempted to expand own permissions"
      evidence := ["actor: " ++ ctx.actor.value] }

/-- Human intervention stays possible. -/
def checkHumanOverride : Except InvariantViolation Unit :=
  rejectIf (!ctx.humanOverridePreserved)
    { invariant := .humanOverride
      description := "Human override capability is not preserved"
      evidence := ["human_override_preserved: false"] }

/-- The kernel configuration is not modified. -/
def checkKernelImmutability : Except InvariantViolation Unit :=
  rejectIf ctx.kernelModificationAttempted
    { invariant := .kernelImmutability
      description := "Attempted to modify immutable kernel configuration"
      evidence := ["kernel_modification_attempted: true"] }

/-- Each grantee is the next grantor, from the link at index `i` on. -/
def checkTopology : ℕ → List AuthorityLink → Except InvariantViolation Unit
  | i, link :: next :: rest => do
    rejectIf (link.grantee ≠ next.grantor)
      { invariant := .authorityChainValid
        description := "Authority chain is broken — delegation gap"
        evidence :=
          ["link[" ++ toString i ++ "].grantee: " ++ link.grantee.value,
            "link[" ++ toString (i + 1) ++ "].grantor: " ++ next.grantor.value] }
    checkTopology (i + 1) (next :: rest)
  | _, _ => .ok ()

/-- The chain ends at the actor. -/
def checkTerminal : Except InvariantViolation Unit :=
  match ctx.authorityChain.links.getLast? with
  | some last =>
    rejectIf (last.grantee ≠ ctx.actor)
      { invariant := .authorityChainValid
        description := "Authority chain does not terminate at actor"
        evidence := ["terminal: " ++ last.grantee.value, "actor: " ++ ctx.actor.value] }
  | none => .ok ()

/-- What the signature of a link is over: the identifiers and the permissions, each closed by a zero
byte. -/
def AuthorityLink.payload (link : AuthorityLink) : List UInt8 :=
  link.grantor.asBytes ++ [0] ++ link.grantee.asBytes ++ [0] ++
    link.permissions.permissions.flatMap fun perm => textBytes perm.name ++ [0]

/-- A byte string as one of a fixed width, if it has the width. -/
def fixedBytes (width : ℕ) (bytes : List UInt8) : Option (FixedBytes width) :=
  if length : bytes.length = width then some ⟨bytes, length⟩ else none

/-- The signature of the link at index `idx`: verified if the link carries a key, and present
otherwise. -/
def checkLinkSignature (idx : ℕ) (link : AuthorityLink) : Except InvariantViolation Unit :=
  match link.grantorPublicKey with
  | some pkBytes =>
    match fixedBytes 32 pkBytes with
    | none =>
      .error
        { invariant := .authorityChainValid
          description := "link[" ++ toString idx ++ "] grantor_public_key is not 32 bytes"
          evidence := ["key_len: " ++ toString pkBytes.length] }
    | some pubkey =>
      match fixedBytes 64 link.signature with
      | none =>
        .error
          { invariant := .authorityChainValid
            description :=
              "link[" ++ toString idx ++ "] signature is not 64 bytes (required for Ed25519)"
            evidence := ["sig_len: " ++ toString link.signature.length] }
      | some sig =>
        let message := Hash256.digest platform.blake3 link.payload
        rejectIf (!verify platform.ed25519 message.asBytes (.ed25519 sig) pubkey)
          { invariant := .authorityChainValid
            description :=
              "link[" ++ toString idx ++ "] Ed25519 signature is cryptographically invalid"
            evidence := ["grantor: " ++ link.grantor.value, "grantee: " ++ link.grantee.value] }
  | none =>
    rejectIf link.signature.isEmpty
      { invariant := .authorityChainValid
        description := "link[" ++ toString idx ++ "] has empty signature"
        evidence := ["grantor: " ++ link.grantor.value] }

/-- The signatures of the links, from the one at index `idx` on. -/
def checkSignatures : ℕ → List AuthorityLink → Except InvariantViolation Unit
  | _, [] => .ok ()
  | idx, link :: rest => do
    checkLinkSignature platform idx link
    checkSignatures (idx + 1) rest

/-- The authority chain is a signed path to the actor. -/
def checkAuthorityChainValid : Except InvariantViolation Unit := do
  rejectIf ctx.authorityChain.links.isEmpty
    { invariant := .authorityChainValid
      description := "Authority chain is empty — no delegation path"
      evidence := ["authority_chain: empty"] }
  checkTopology 0 ctx.authorityChain.links
  checkTerminal ctx
  checkSignatures platform 0 ctx.authorityChain.links

/-- A quorum, where one is given, is met. -/
def checkQuorumLegitimate : Except InvariantViolation Unit :=
  match ctx.quorumEvidence with
  | none => .ok ()
  | some evidence =>
    rejectIf (!evidence.isMet)
      { invariant := .quorumLegitimate
        description := "Quorum threshold not met"
        evidence :=
          ["threshold: " ++ toString evidence.threshold.toNat,
            "approvals: " ++ toString evidence.approvals] }

/-- There is provenance, signed and by the actor. -/
def checkProvenanceVerifiable : Except InvariantViolation Unit :=
  match ctx.provenance with
  | none =>
    .error
      { invariant := .provenanceVerifiable
        description := "No provenance metadata provided"
        evidence := ["provenance: None"] }
  | some prov => do
    rejectIf (!prov.isSigned)
      { invariant := .provenanceVerifiable
        description := "Provenance metadata is not signed"
        evidence := ["actor: " ++ prov.actor.value] }
    rejectIf (prov.actor ≠ ctx.actor)
      { invariant := .provenanceVerifiable
        description := "Provenance actor does not match request actor"
        evidence :=
          ["provenance.actor: " ++ prov.actor.value, "context.actor: " ++ ctx.actor.value] }

/-- One check. -/
def checkInvariant (invariant : ConstitutionalInvariant) : Except InvariantViolation Unit :=
  match invariant with
  | .separationOfPowers => checkSeparationOfPowers platform ctx
  | .consentRequired => checkConsentRequired platform ctx
  | .noSelfGrant => checkNoSelfGrant ctx
  | .humanOverride => checkHumanOverride ctx
  | .kernelImmutability => checkKernelImmutability ctx
  | .authorityChainValid => checkAuthorityChainValid platform ctx
  | .quorumLegitimate => checkQuorumLegitimate ctx
  | .provenanceVerifiable => checkProvenanceVerifiable ctx

/-- The violations of a list of checks, in order. -/
def violationsOf (invariants : List ConstitutionalInvariant) : List InvariantViolation :=
  invariants.filterMap fun invariant =>
    match checkInvariant platform ctx invariant with
    | .ok () => none
    | .error violation => some violation

/-- Enforce the invariants of an engine. -/
def enforceAll (engine : InvariantEngine) : Except (List InvariantViolation) Unit :=
  let violations := violationsOf platform ctx engine.invariantSet.invariants
  if violations.isEmpty then .ok () else .error violations

end Checks

/-! ### What the checks ask -/

section Conditions

variable (platform : Platform) (ctx : InvariantContext)

/-- The signature of a link is valid: over the payload under the embedded key, or just present. -/
def SignatureValid (link : AuthorityLink) : Prop :=
  match link.grantorPublicKey with
  | some pkBytes =>
    ∃ pubkey : FixedBytes 32, ∃ sig : FixedBytes 64, pkBytes = pubkey.toList ∧
      link.signature = sig.toList ∧
      platform.ed25519 pubkey (Hash256.digest platform.blake3 link.payload).asBytes sig = true
  | none => link.signature ≠ []

/-- A signed path of links to the actor. -/
structure ChainValid (actor : Did) (links : List AuthorityLink) : Prop where
  nonempty : links ≠ []
  connected : links.IsChain fun link next => link.grantee = next.grantor
  terminal : ∀ last ∈ links.getLast?, last.grantee = actor
  signed : ∀ link ∈ links, SignatureValid platform link

/-- **What each invariant asks of a context.** -/
def Holds : ConstitutionalInvariant → Prop
  | .separationOfPowers =>
    ∀ role ∈ ctx.actorRoles, ∀ other ∈ ctx.actorRoles, role.branch = other.branch
  | .consentRequired =>
    ctx.bailmentState.isActive = true ∧
      ∃ record ∈ ctx.consentRecords, record.grantedTo = ctx.actor ∧ record.active = true
  | .noSelfGrant => ctx.isSelfGrant = false
  | .humanOverride => ctx.humanOverridePreserved = true
  | .kernelImmutability => ctx.kernelModificationAttempted = false
  | .authorityChainValid => ChainValid platform ctx.actor ctx.authorityChain.links
  | .quorumLegitimate =>
    ∀ evidence ∈ ctx.quorumEvidence, evidence.threshold.toNat ≤ evidence.approvals
  | .provenanceVerifiable =>
    ∃ prov, ctx.provenance = some prov ∧ prov.signature ≠ [] ∧ prov.actor = ctx.actor

variable {platform ctx}

theorem rejectIf_eq_ok_iff {bad : Bool} {violation : InvariantViolation} :
    rejectIf bad violation = .ok () ↔ bad = false := by
  unfold rejectIf
  cases bad with
  | true => simp
  | false => simp

theorem checkSeparationOfPowers_eq_ok_iff :
    checkSeparationOfPowers platform ctx = .ok () ↔ Holds platform ctx .separationOfPowers := by
  unfold checkSeparationOfPowers
  simp only [check_bind_eq_ok_iff, rejectIf_eq_ok_iff, decide_eq_false_iff_not, not_lt,
    Finset.card_le_one]
  have branches : ∀ branch, branch ∈ (ctx.actorRoles.map Role.branch).toFinset ↔
      ∃ role ∈ ctx.actorRoles, role.branch = branch := by
    intro branch
    rw [List.mem_toFinset, List.mem_map]
  constructor
  · rintro ⟨_, one⟩ role member other otherMember
    exact one _ ((branches _).mpr ⟨role, member, rfl⟩) _ ((branches _).mpr ⟨other, otherMember, rfl⟩)
  · intro same
    have one : ∀ a ∈ (ctx.actorRoles.map Role.branch).toFinset,
        ∀ b ∈ (ctx.actorRoles.map Role.branch).toFinset, a = b := by
      intro a aIn b bIn
      obtain ⟨role, member, rfl⟩ := (branches a).mp aIn
      obtain ⟨other, otherMember, rfl⟩ := (branches b).mp bIn
      exact same role member other otherMember
    -- two branches are already too many, so three need no case of their own
    refine ⟨fun three => ?_, one⟩
    exact absurd (one _ three.1 _ three.2.1) (by decide)

theorem checkConsentRequired_eq_ok_iff :
    checkConsentRequired platform ctx = .ok () ↔ Holds platform ctx .consentRequired := by
  unfold checkConsentRequired
  simp only [check_bind_eq_ok_iff, rejectIf_eq_ok_iff, Holds, Bool.not_eq_false', List.any_eq_true,
    Bool.and_eq_true, beq_iff_eq]

theorem checkTopology_eq_ok_iff {i : ℕ} {links : List AuthorityLink} :
    checkTopology i links = .ok () ↔ links.IsChain fun link next => link.grantee = next.grantor := by
  induction links generalizing i with
  | nil => simp [checkTopology]
  | cons link rest ih =>
    cases rest with
    | nil => simp [checkTopology]
    | cons next rest =>
      rw [checkTopology, check_bind_eq_ok_iff, rejectIf_eq_ok_iff, ih, List.isChain_cons_cons,
        decide_eq_false_iff_not, not_not]

theorem checkTerminal_eq_ok_iff :
    checkTerminal ctx = .ok () ↔
      ∀ last ∈ ctx.authorityChain.links.getLast?, last.grantee = ctx.actor := by
  unfold checkTerminal
  cases ctx.authorityChain.links.getLast? with
  | none => simp
  | some last => simp [rejectIf_eq_ok_iff]

theorem fixedBytes_eq_some_iff {width : ℕ} {bytes : List UInt8} {fixed : FixedBytes width} :
    fixedBytes width bytes = some fixed ↔ bytes = fixed.toList := by
  unfold fixedBytes
  constructor
  · intro found
    split at found
    · cases found
      rfl
    · cases found
  · rintro rfl
    rw [dif_pos fixed.length_eq]

theorem checkLinkSignature_eq_ok_iff {idx : ℕ} {link : AuthorityLink} :
    checkLinkSignature platform idx link = .ok () ↔ SignatureValid platform link := by
  unfold checkLinkSignature SignatureValid
  cases link.grantorPublicKey with
  | none =>
    simp only [rejectIf_eq_ok_iff]
    simp
  | some pkBytes =>
    simp only [← fixedBytes_eq_some_iff]
    cases fixedBytes 32 pkBytes with
    | none => simp
    | some pubkey =>
      cases fixedBytes 64 link.signature with
      | none => simp
      | some sig => simp [rejectIf_eq_ok_iff, verify]

theorem checkSignatures_eq_ok_iff {idx : ℕ} {links : List AuthorityLink} :
    checkSignatures platform idx links = .ok () ↔ ∀ link ∈ links, SignatureValid platform link := by
  induction links generalizing idx with
  | nil => simp [checkSignatures]
  | cons link rest ih =>
    rw [checkSignatures, check_bind_eq_ok_iff, checkLinkSignature_eq_ok_iff, ih,
      List.forall_mem_cons]

theorem checkAuthorityChainValid_eq_ok_iff :
    checkAuthorityChainValid platform ctx = .ok () ↔ Holds platform ctx .authorityChainValid := by
  unfold checkAuthorityChainValid
  rw [check_bind_eq_ok_iff, check_bind_eq_ok_iff, check_bind_eq_ok_iff, rejectIf_eq_ok_iff,
    checkTopology_eq_ok_iff, checkTerminal_eq_ok_iff, checkSignatures_eq_ok_iff]
  constructor
  · rintro ⟨nonempty, connected, terminal, signed⟩
    exact ⟨by simpa using nonempty, connected, terminal, signed⟩
  · intro valid
    exact ⟨by simpa using valid.nonempty, valid.connected, valid.terminal, valid.signed⟩

theorem isMet_iff {evidence : QuorumEvidence} :
    evidence.isMet = true ↔ evidence.threshold.toNat ≤ evidence.approvals := by
  have bound := evidence.threshold.toNat_lt
  unfold QuorumEvidence.isMet
  rw [decide_eq_true_iff]
  omega

theorem checkQuorumLegitimate_eq_ok_iff :
    checkQuorumLegitimate ctx = .ok () ↔ Holds platform ctx .quorumLegitimate := by
  unfold checkQuorumLegitimate
  simp only [Holds]
  cases ctx.quorumEvidence with
  | none => simp
  | some evidence => simp [rejectIf_eq_ok_iff, isMet_iff]

theorem checkProvenanceVerifiable_eq_ok_iff :
    checkProvenanceVerifiable ctx = .ok () ↔ Holds platform ctx .provenanceVerifiable := by
  unfold checkProvenanceVerifiable
  simp only [Holds]
  cases ctx.provenance with
  | none => simp
  | some prov =>
    simp [check_bind_eq_ok_iff, rejectIf_eq_ok_iff, Provenance.isSigned]

/-- **A check passes exactly where its condition holds.** -/
theorem checkInvariant_eq_ok_iff (invariant : ConstitutionalInvariant) :
    checkInvariant platform ctx invariant = .ok () ↔ Holds platform ctx invariant := by
  cases invariant with
  | separationOfPowers => exact checkSeparationOfPowers_eq_ok_iff
  | consentRequired => exact checkConsentRequired_eq_ok_iff
  | noSelfGrant => exact rejectIf_eq_ok_iff
  | humanOverride => exact rejectIf_eq_ok_iff.trans (by simp [Holds])
  | kernelImmutability => exact rejectIf_eq_ok_iff
  | authorityChainValid => exact checkAuthorityChainValid_eq_ok_iff
  | quorumLegitimate => exact checkQuorumLegitimate_eq_ok_iff
  | provenanceVerifiable => exact checkProvenanceVerifiable_eq_ok_iff

end Conditions

/-! ### What a violation names -/

/-- Every violation a check can report names the invariant. -/
def Names (invariant : ConstitutionalInvariant) (check : Except InvariantViolation Unit) : Prop :=
  ∀ violation, check = .error violation → violation.invariant = invariant

section Names

variable {invariant : ConstitutionalInvariant} {platform : Platform} {ctx : InvariantContext}

theorem names_ok : Names invariant (.ok ()) := by
  intro violation failed
  cases failed

theorem names_error {violation : InvariantViolation} (named : violation.invariant = invariant) :
    Names invariant (.error violation) := by
  intro found failed
  cases failed
  exact named

theorem names_rejectIf {bad : Bool} {violation : InvariantViolation}
    (named : violation.invariant = invariant) : Names invariant (rejectIf bad violation) := by
  unfold rejectIf
  cases bad with
  | true => exact names_error named
  | false => exact names_ok

theorem Names.bind {check : Except InvariantViolation Unit}
    {next : Unit → Except InvariantViolation Unit} (first : Names invariant check)
    (second : Names invariant (next ())) : Names invariant (check >>= next) := by
  intro violation failed
  cases check with
  | error found => exact first violation failed
  | ok done => exact second violation failed

theorem names_checkTopology (i : ℕ) (links : List AuthorityLink) :
    Names .authorityChainValid (checkTopology i links) := by
  induction links generalizing i with
  | nil => exact names_ok
  | cons link rest ih =>
    cases rest with
    | nil => exact names_ok
    | cons next rest => exact (names_rejectIf rfl).bind (ih (i + 1))

theorem names_checkTerminal : Names .authorityChainValid (checkTerminal ctx) := by
  unfold checkTerminal
  split
  · exact names_rejectIf rfl
  · exact names_ok

theorem names_checkLinkSignature (idx : ℕ) (link : AuthorityLink) :
    Names .authorityChainValid (checkLinkSignature platform idx link) := by
  unfold checkLinkSignature
  split
  · split
    · exact names_error rfl
    · split
      · exact names_error rfl
      · exact names_rejectIf rfl
  · exact names_rejectIf rfl

theorem names_checkSignatures (idx : ℕ) (links : List AuthorityLink) :
    Names .authorityChainValid (checkSignatures platform idx links) := by
  induction links generalizing idx with
  | nil => exact names_ok
  | cons link rest ih => exact (names_checkLinkSignature idx link).bind (ih (idx + 1))

theorem names_checkProvenanceVerifiable :
    Names .provenanceVerifiable (checkProvenanceVerifiable ctx) := by
  unfold checkProvenanceVerifiable
  split
  · exact names_error rfl
  · exact (names_rejectIf rfl).bind (names_rejectIf rfl)

theorem names_checkQuorumLegitimate : Names .quorumLegitimate (checkQuorumLegitimate ctx) := by
  unfold checkQuorumLegitimate
  split
  · exact names_ok
  · exact names_rejectIf rfl

/-- **A violation names the invariant that was checked.** -/
theorem names_checkInvariant (invariant : ConstitutionalInvariant) :
    Names invariant (checkInvariant platform ctx invariant) := by
  cases invariant with
  | separationOfPowers => exact (names_rejectIf rfl).bind (names_rejectIf rfl)
  | consentRequired => exact (names_rejectIf rfl).bind (names_rejectIf rfl)
  | noSelfGrant => exact names_rejectIf rfl
  | humanOverride => exact names_rejectIf rfl
  | kernelImmutability => exact names_rejectIf rfl
  | authorityChainValid =>
    exact (names_rejectIf rfl).bind ((names_checkTopology 0 _).bind
      (names_checkTerminal.bind (names_checkSignatures 0 _)))
  | quorumLegitimate => exact names_checkQuorumLegitimate
  | provenanceVerifiable => exact names_checkProvenanceVerifiable

end Names

/-! ### The violations of a set -/

section Violations

variable {platform : Platform} {ctx : InvariantContext}

open Classical in
/-- **One violation for each condition that fails, in order.** -/
theorem invariants_of_violations (invariants : List ConstitutionalInvariant) :
    (violationsOf platform ctx invariants).map InvariantViolation.invariant =
      invariants.filter fun invariant => ¬ Holds platform ctx invariant := by
  unfold violationsOf
  induction invariants with
  | nil => rfl
  | cons invariant rest ih =>
    cases checked : checkInvariant platform ctx invariant with
    | ok done =>
      have holds := checkInvariant_eq_ok_iff invariant |>.mp checked
      rw [List.filterMap_cons_none (by rw [checked]), ih,
        List.filter_cons_of_neg (by simpa using holds)]
    | error violation =>
      have fails : ¬ Holds platform ctx invariant := by
        rw [← checkInvariant_eq_ok_iff, checked]
        intro passed
        cases passed
      rw [List.filterMap_cons_some (by rw [checked]), List.map_cons, ih,
        List.filter_cons_of_pos (by simpa using fails),
        names_checkInvariant invariant violation checked]

/-- A violation that is listed is the one its check reports. -/
theorem checkInvariant_of_mem_violationsOf {invariants : List ConstitutionalInvariant}
    {violation : InvariantViolation} (member : violation ∈ violationsOf platform ctx invariants) :
    checkInvariant platform ctx violation.invariant = .error violation := by
  obtain ⟨invariant, _, found⟩ := List.mem_filterMap.mp member
  cases checked : checkInvariant platform ctx invariant with
  | ok done =>
    rw [checked] at found
    cases found
  | error reported =>
    rw [checked] at found
    cases found
    rw [names_checkInvariant invariant violation checked, checked]

end Violations

end Exochain.ExoGatekeeper
