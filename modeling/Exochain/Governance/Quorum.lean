/-
**`exo-governance` — quorum computation.**

A quorum needs a number of approvals, a role for each required one, and a number of valid independence
attestations. The approvals are counted as they are listed: an approver may be listed twice, and an
attestation counts whoever its attester is.

* `computeQuorum_eq_met_iff` — when the quorum is met.
* **`independent_people_iff`** — a quorum that is met is one of independent people exactly where the
  repeated approvers and the attestations by others are not needed for it.
* `Sample.one_approver_twice` — a quorum of two by one approver.
-/

import Exochain.Foundation.Collections
import Exochain.Governance.Types

set_option linter.unusedSectionVars false

namespace Exochain.ExoGovernance

open Foundation ExoCore

/-! ### Approvals and policies -/

/-- The roles that take part in governance. -/
inductive Role where
  | steward
  | governor
  | reviewer
  | contributor
  | observer
  deriving DecidableEq, Repr

/-- The name of a role in texts. -/
def Role.debug : Role → String
  | steward => "Steward"
  | governor => "Governor"
  | reviewer => "Reviewer"
  | contributor => "Contributor"
  | observer => "Observer"

/-- A signed declaration of independence. -/
structure IndependenceAttestation where
  attesterDid : Did
  noCommonControl : Bool
  noCoordination : Bool
  identityVerified : Bool
  signature : Signature
  deriving DecidableEq

/-- All three declarations are made. -/
def IndependenceAttestation.isValid (attestation : IndependenceAttestation) : Bool :=
  attestation.noCommonControl && attestation.noCoordination && attestation.identityVerified

/-- A single approval. -/
structure Approval where
  approverDid : Did
  role : Role
  timestamp : Timestamp
  signature : Signature
  independenceAttestation : Option IndependenceAttestation
  deriving DecidableEq

/-- What a quorum needs. -/
structure QuorumPolicy where
  minApprovals : ℕ
  minIndependent : ℕ
  requiredRoles : List Role
  timeout : Timestamp
  deriving DecidableEq

/-- The result of a quorum computation. -/
inductive QuorumResult where
  | met (independentCount totalCount : ℕ)
  | notMet (reason : String)
  | contested (challenge : String)
  deriving DecidableEq, Repr

/-- Whether an approval counts as independent. -/
def Approval.isIndependent (approval : Approval) : Bool :=
  approval.independenceAttestation.any IndependenceAttestation.isValid

/-- The number of approvals that count as independent. -/
def independentCount (approvals : List Approval) : ℕ :=
  (approvals.filter Approval.isIndependent).length

/-- Compute whether a quorum is met. -/
def computeQuorum (approvals : List Approval) (policy : QuorumPolicy) : QuorumResult :=
  let totalCount := approvals.length
  if totalCount < policy.minApprovals then
    .notMet ("insufficient approvals: " ++ toString totalCount ++ " < " ++
      toString policy.minApprovals)
  else
    match policy.requiredRoles.find? fun requiredRole =>
      !approvals.any fun approval => approval.role = requiredRole with
    | some requiredRole => .notMet ("missing required role: " ++ requiredRole.debug)
    | none =>
      let independent := independentCount approvals
      if independent < policy.minIndependent then
        .notMet ("insufficient independence: " ++ toString independent ++ " independent of " ++
          toString policy.minIndependent ++ " required (numerical multiplicity without " ++
          "attributable independence is theater, not legitimacy)")
      else .met independent totalCount

/-- Validate the structure of an approval. -/
def validateApproval (approval : Approval) : Except GovernanceError Unit :=
  if approval.approverDid.value.isEmpty then .error (.quorumNotMet "empty approver DID") else .ok ()

/-! ### When a quorum is met -/

section Quorum

variable {approvals : List Approval} {policy : QuorumPolicy}

/-- Every required role is held by some approver. -/
def RolesHeld (approvals : List Approval) (policy : QuorumPolicy) : Prop :=
  ∀ role ∈ policy.requiredRoles, ∃ approval ∈ approvals, approval.role = role

instance : Decidable (RolesHeld approvals policy) :=
  inferInstanceAs (Decidable (∀ role ∈ policy.requiredRoles, ∃ approval ∈ approvals,
    approval.role = role))

/-- **When the quorum is met**: enough approvals, all roles, enough attestations. -/
theorem computeQuorum_eq_met_iff {independent total : ℕ} :
    computeQuorum approvals policy = .met independent total ↔
      independent = independentCount approvals ∧ total = approvals.length ∧
        policy.minApprovals ≤ approvals.length ∧ RolesHeld approvals policy ∧
        policy.minIndependent ≤ independentCount approvals := by
  unfold computeQuorum
  simp only
  split
  · rename_i few
    exact iff_of_false (by simp) fun needed => by omega
  · rename_i enough
    split
    · rename_i role found
      refine iff_of_false (by simp) fun needed => ?_
      obtain ⟨approval, member, held⟩ := needed.2.2.2.1 role (List.mem_of_find?_eq_some found)
      have missing := List.find?_some found
      rw [Bool.not_eq_true', List.any_eq_false] at missing
      exact missing approval member (decide_eq_true held)
    · rename_i found
      have roles : RolesHeld approvals policy := by
        intro role required
        have held := List.find?_eq_none.mp found role required
        simpa using held
      split
      · rename_i dependent
        exact iff_of_false (by simp) fun needed => by omega
      · rename_i independents
        rw [QuorumResult.met.injEq]
        constructor
        · rintro ⟨rfl, rfl⟩
          exact ⟨rfl, rfl, by omega, roles, by omega⟩
        · rintro ⟨rfl, rfl, -⟩
          exact ⟨rfl, rfl⟩

/-! ### Quorums of people -/

/-- Whether a valid attestation is the approver's own. -/
def Approval.isOwnIndependent (approval : Approval) : Bool :=
  approval.independenceAttestation.any fun attestation =>
    attestation.isValid && attestation.attesterDid = approval.approverDid

/-- The approvers, one entry for each approval. -/
def approvers (approvals : List Approval) : List Did := approvals.map Approval.approverDid

/-- The approvers with a valid attestation of their own, one entry for each approval. -/
def ownIndependents (approvals : List Approval) : List Did :=
  (approvals.filter Approval.isOwnIndependent).map Approval.approverDid

/-- The number of approvals whose valid attestation is by somebody else. -/
def foreignCount (approvals : List Approval) : ℕ :=
  approvals.countP fun approval => approval.isIndependent && !approval.isOwnIndependent

/-- The approvals come from as many people as the policy asks for, as many of them have attested their
own independence as it asks for, and the roles are held. -/
structure OfIndependentPeople (approvals : List Approval) (policy : QuorumPolicy) : Prop where
  approved : ∃ people : Finset Did, policy.minApprovals ≤ people.card ∧
    ∀ person ∈ people, ∃ approval ∈ approvals, approval.approverDid = person
  independent : ∃ people : Finset Did, policy.minIndependent ≤ people.card ∧
    ∀ person ∈ people, ∃ approval ∈ approvals, approval.approverDid = person ∧
      ∃ attestation, approval.independenceAttestation = some attestation ∧
        attestation.isValid = true ∧ attestation.attesterDid = person
  roles : RolesHeld approvals policy

theorem isOwnIndependent_iff {approval : Approval} :
    approval.isOwnIndependent = true ↔
      ∃ attestation, approval.independenceAttestation = some attestation ∧
        attestation.isValid = true ∧ attestation.attesterDid = approval.approverDid := by
  unfold Approval.isOwnIndependent
  cases approval.independenceAttestation with
  | none => simp
  | some attestation => simp

/-- An own attestation is one of the valid ones. -/
theorem isIndependent_of_own {approval : Approval} (own : approval.isOwnIndependent = true) :
    approval.isIndependent = true := by
  obtain ⟨attestation, held, valid, -⟩ := isOwnIndependent_iff.mp own
  rw [Approval.isIndependent, held, Option.any_some, valid]

theorem mem_ownIndependents_iff {person : Did} :
    person ∈ ownIndependents approvals ↔
      ∃ approval ∈ approvals, approval.approverDid = person ∧
        ∃ attestation, approval.independenceAttestation = some attestation ∧
          attestation.isValid = true ∧ attestation.attesterDid = person := by
  unfold ownIndependents
  rw [List.mem_map]
  constructor
  · rintro ⟨approval, member, rfl⟩
    obtain ⟨member, own⟩ := List.mem_filter.mp member
    exact ⟨approval, member, rfl, isOwnIndependent_iff.mp own⟩
  · rintro ⟨approval, member, rfl, own⟩
    exact ⟨approval, List.mem_filter.mpr ⟨member, isOwnIndependent_iff.mpr own⟩, rfl⟩

/-- The attestations that are counted are the own ones and those by others. -/
theorem independentCount_eq (approvals : List Approval) :
    independentCount approvals = (ownIndependents approvals).length + foreignCount approvals := by
  rw [ownIndependents, List.length_map]
  unfold independentCount foreignCount
  rw [← List.countP_eq_length_filter, ← List.countP_eq_length_filter]
  induction approvals with
  | nil => rfl
  | cons approval rest ih =>
    rw [List.countP_cons, List.countP_cons, List.countP_cons, ih]
    by_cases own : approval.isOwnIndependent = true
    · simp [own, isIndependent_of_own own]
      omega
    · simp [own]
      omega

theorem approved_iff :
    (∃ people : Finset Did, policy.minApprovals ≤ people.card ∧
        ∀ person ∈ people, ∃ approval ∈ approvals, approval.approverDid = person) ↔
      policy.minApprovals + surplus (approvers approvals) ≤ approvals.length := by
  rw [exists_distinct_iff fun person => List.mem_map, List.length_map]
  rfl

theorem independent_iff :
    (∃ people : Finset Did, policy.minIndependent ≤ people.card ∧
        ∀ person ∈ people, ∃ approval ∈ approvals, approval.approverDid = person ∧
          ∃ attestation, approval.independenceAttestation = some attestation ∧
            attestation.isValid = true ∧ attestation.attesterDid = person) ↔
      policy.minIndependent + (foreignCount approvals + surplus (ownIndependents approvals)) ≤
        independentCount approvals := by
  rw [exists_distinct_iff fun person => mem_ownIndependents_iff, independentCount_eq]
  omega

/-- **When a quorum that is met is one of independent people.** Approvals are counted, not approvers,
and valid attestations, not the approvers' own: the quorum is refused, or it is one of independent
people, exactly where there are too few approvals or attestations or a role is missing, or where the
approvals that repeat an approver, the attestations by others and those of an approver with another
one are not needed. -/
theorem independent_people_iff (approvals : List Approval) (policy : QuorumPolicy) :
    ((∃ independent total, computeQuorum approvals policy = .met independent total) →
        OfIndependentPeople approvals policy) ↔
      approvals.length < policy.minApprovals ∨
      (∃ role ∈ policy.requiredRoles, ∀ approval ∈ approvals, approval.role ≠ role) ∨
      independentCount approvals < policy.minIndependent ∨
      policy.minApprovals + surplus (approvers approvals) ≤ approvals.length ∧
        policy.minIndependent + (foreignCount approvals + surplus (ownIndependents approvals)) ≤
          independentCount approvals := by
  have met : (∃ independent total, computeQuorum approvals policy = .met independent total) ↔
      policy.minApprovals ≤ approvals.length ∧ RolesHeld approvals policy ∧
        policy.minIndependent ≤ independentCount approvals := by
    simp only [computeQuorum_eq_met_iff, exists_and_left, exists_eq_left]
  have missing : (∃ role ∈ policy.requiredRoles, ∀ approval ∈ approvals, approval.role ≠ role) ↔
      ¬ RolesHeld approvals policy := by
    unfold RolesHeld
    push Not
    rfl
  rw [met, missing]
  constructor
  · intro people
    by_contra otherwise
    push Not at otherwise
    obtain ⟨enough, roles, independent, needed⟩ := otherwise
    obtain ⟨approved, own, -⟩ := people ⟨enough, roles, independent⟩
    have short := needed (approved_iff.mp approved)
    have reached := independent_iff.mp own
    omega
  · rintro (few | unheld | dependent | ⟨approved, own⟩) ⟨enough, roles, independent⟩
    · omega
    · exact absurd roles unheld
    · omega
    · exact ⟨approved_iff.mpr approved, independent_iff.mpr own, roles⟩

end Quorum

namespace Sample

/-- One approval, with the approver's own attestation. -/
def approval : Approval where
  approverDid := ⟨"did:exo:alice"⟩
  role := .steward
  timestamp := ⟨1000, 0⟩
  signature := .ed25519 (FixedBytes.fill 64 9)
  independenceAttestation :=
    some ⟨⟨"did:exo:alice"⟩, true, true, true, .ed25519 (FixedBytes.fill 64 9)⟩

/-- A quorum of two independent approvals. -/
def twoIndependent : QuorumPolicy := ⟨2, 2, [.steward], ⟨5000, 0⟩⟩

/-- **A quorum of two by one approver**, listed twice. -/
theorem one_approver_twice :
    computeQuorum [approval, approval] twoIndependent = .met 2 2 ∧
      ¬ OfIndependentPeople [approval, approval] twoIndependent := by
  refine ⟨by decide +kernel, fun people => ?_⟩
  have needed := approved_iff.mp people.approved
  exact absurd needed (by decide +kernel)

end Sample

end Exochain.ExoGovernance
