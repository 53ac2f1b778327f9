/-
**`exo-gatekeeper` — the kernel and its verdicts.**

The kernel runs its engine over an action and its context. No violation permits the action; a single
one of the quorum or of the authority chain escalates it; anything else denies it with the list of
violations.

* `adjudicate_eq` — the verdict by the shape of that list.
* **`adjudicate_spec`** — the verdict of a kernel with all invariants, by which of the eight
  conditions fail.
* `permitted_consent` — what a permitted action says about consent, and what it does not: the parties
  and scopes of bailment and records have no influence on the verdict.
* **`quorum_of_people_iff`** — the quorum counts votes, so it is one of people exactly where the votes
  that repeat a voter are not needed.
-/

import Exochain.Foundation.Blake3
import Exochain.Gatekeeper.Invariants

set_option linter.unusedSectionVars false

namespace Exochain.ExoGatekeeper

open Foundation ExoCore

/-! ### The kernel -/

/-- The verdict on an action. -/
inductive Verdict where
  | permitted
  | denied (violations : List InvariantViolation)
  | escalated (reason : String)
  deriving DecidableEq, Repr

/-- A request to act. -/
structure ActionRequest where
  actor : Did
  action : String
  requiredPermissions : PermissionSet
  isSelfGrant : Bool
  modifiesKernel : Bool

/-- The context a request is adjudicated in. -/
structure AdjudicationContext where
  actorRoles : List Role
  authorityChain : AuthorityChain
  consentRecords : List ConsentRecord
  bailmentState : BailmentState
  humanOverridePreserved : Bool
  actorPermissions : PermissionSet
  provenance : Option Provenance
  quorumEvidence : Option QuorumEvidence

/-- The kernel: the digest of its constitution and the engine. -/
structure Kernel where
  constitutionHash : Hash256
  invariantEngine : InvariantEngine

/-- A kernel for a constitution. -/
def Kernel.new (blake3 : Blake3) (constitution : List UInt8) (invariants : InvariantSet) :
    Kernel where
  constitutionHash := blake3 constitution
  invariantEngine := ⟨invariants⟩

/-- What the checks look at, from the action and its context. -/
def invariantContext (action : ActionRequest) (context : AdjudicationContext) :
    InvariantContext where
  actor := action.actor
  actorRoles := context.actorRoles
  bailmentState := context.bailmentState
  consentRecords := context.consentRecords
  authorityChain := context.authorityChain
  isSelfGrant := action.isSelfGrant
  humanOverridePreserved := context.humanOverridePreserved
  kernelModificationAttempted := action.modifiesKernel
  quorumEvidence := context.quorumEvidence
  provenance := context.provenance
  actorPermissions := context.actorPermissions
  requestedPermissions := action.requiredPermissions

/-- The invariants whose violation alone escalates. -/
def ConstitutionalInvariant.escalates (invariant : ConstitutionalInvariant) : Bool :=
  invariant == .quorumLegitimate || invariant == .authorityChainValid

/-- Adjudicate an action. -/
def Kernel.adjudicate (platform : Platform) (kernel : Kernel) (action : ActionRequest)
    (context : AdjudicationContext) : Verdict :=
  match enforceAll platform (invariantContext action context) kernel.invariantEngine with
  | .ok () => .permitted
  | .error violations =>
    let needsEscalation := violations.any fun v => v.invariant.escalates
    if needsEscalation && violations.length == 1 then
      .escalated ((violations.head?.map InvariantViolation.description).getD "")
    else .denied violations

/-! ### The verdict by the violations -/

section Verdicts

variable {platform : Platform} {action : ActionRequest} {context : AdjudicationContext}
  {kernel : Kernel}

/-- The verdict that goes with a list of violations. -/
def verdictOf : List InvariantViolation → Verdict
  | [] => .permitted
  | [violation] =>
    if violation.invariant.escalates then .escalated violation.description
    else .denied [violation]
  | violations => .denied violations

theorem adjudicate_eq :
    kernel.adjudicate platform action context =
      verdictOf (violationsOf platform (invariantContext action context)
        kernel.invariantEngine.invariantSet.invariants) := by
  unfold Kernel.adjudicate enforceAll
  rcases violationsOf platform (invariantContext action context)
    kernel.invariantEngine.invariantSet.invariants with _ | ⟨violation, _ | ⟨second, rest⟩⟩
  · rfl
  · cases escalates : violation.invariant.escalates with
    | true => simp [verdictOf, escalates]
    | false => simp [verdictOf, escalates]
  · simp [verdictOf]

theorem verdictOf_eq_permitted_iff {violations : List InvariantViolation} :
    verdictOf violations = .permitted ↔ violations = [] := by
  rcases violations with _ | ⟨violation, _ | ⟨second, rest⟩⟩
  · simp [verdictOf]
  · simp only [verdictOf]
    split <;> simp
  · simp [verdictOf]

theorem verdictOf_eq_escalated_iff {violations : List InvariantViolation} {reason : String} :
    verdictOf violations = .escalated reason ↔
      ∃ violation, violations = [violation] ∧ violation.invariant.escalates = true ∧
        reason = violation.description := by
  rcases violations with _ | ⟨violation, _ | ⟨second, rest⟩⟩
  · simp [verdictOf]
  · cases escalates : violation.invariant.escalates with
    | true =>
      simp only [verdictOf, escalates, if_true, Verdict.escalated.injEq, List.cons.injEq, and_true]
      constructor
      · intro same
        exact ⟨violation, rfl, escalates, same.symm⟩
      · rintro ⟨found, rfl, _, rfl⟩
        rfl
    | false => simp [verdictOf, escalates]
  · simp [verdictOf]

theorem eq_of_verdictOf_eq_denied {violations found : List InvariantViolation}
    (denied : verdictOf violations = .denied found) : found = violations := by
  rcases violations with _ | ⟨violation, _ | ⟨second, rest⟩⟩
  · cases denied
  · simp only [verdictOf] at denied
    split at denied
    · cases denied
    · cases denied
      rfl
  · cases denied
    rfl

end Verdicts

/-! ### The violations of the full set -/

section Failing

variable {platform : Platform} {ctx : InvariantContext}

/-- One condition fails and no other does. -/
def OnlyFails (platform : Platform) (ctx : InvariantContext) (invariant : ConstitutionalInvariant) :
    Prop :=
  ∀ other, ¬ Holds platform ctx other ↔ other = invariant

theorem violationsOf_all_eq_nil_iff :
    violationsOf platform ctx InvariantSet.all.invariants = [] ↔
      ∀ invariant, Holds platform ctx invariant := by
  classical
  rw [← List.map_eq_nil_iff, invariants_of_violations, List.filter_eq_nil_iff]
  simp only [decide_eq_true_eq, not_not]
  constructor
  · intro holds invariant
    exact holds invariant (InvariantSet.mem_all invariant)
  · intro holds invariant _
    exact holds invariant

theorem violationsOf_all_eq_singleton_iff {violation : InvariantViolation} :
    violationsOf platform ctx InvariantSet.all.invariants = [violation] ↔
      OnlyFails platform ctx violation.invariant ∧
        checkInvariant platform ctx violation.invariant = .error violation := by
  classical
  have listed := @invariants_of_violations platform ctx InvariantSet.all.invariants
  constructor
  · intro single
    rw [single, List.map_singleton] at listed
    constructor
    · intro other
      have member : other ∈ [violation.invariant] ↔ ¬ Holds platform ctx other := by
        rw [listed, List.mem_filter, decide_eq_true_eq]
        exact and_iff_right (InvariantSet.mem_all other)
      rw [← member, List.mem_singleton]
    · exact checkInvariant_of_mem_violationsOf (single ▸ List.mem_singleton_self violation)
  · rintro ⟨only, failed⟩
    have filtered : InvariantSet.all.invariants.filter (fun other => ¬ Holds platform ctx other) =
        [violation.invariant] := by
      simp only [only _]
      cases violation.invariant <;> decide
    rw [filtered, List.map_eq_singleton_iff] at listed
    obtain ⟨found, single, same⟩ := listed
    have reported := checkInvariant_of_mem_violationsOf (single ▸ List.mem_singleton_self found)
    rw [same, failed] at reported
    cases reported
    exact single

end Failing

/-! ### The verdict of a kernel with all invariants -/

section Specification

variable {platform : Platform} {constitution : List UInt8} {action : ActionRequest}
  {context : AdjudicationContext}

theorem adjudicate_all_eq_permitted_iff :
    (Kernel.new platform.blake3 constitution .all).adjudicate platform action context = .permitted ↔
      ∀ invariant, Holds platform (invariantContext action context) invariant := by
  rw [adjudicate_eq, verdictOf_eq_permitted_iff]
  exact violationsOf_all_eq_nil_iff

theorem adjudicate_all_eq_escalated_iff {reason : String} :
    (Kernel.new platform.blake3 constitution .all).adjudicate platform action context =
        .escalated reason ↔
      ∃ invariant violation, (invariant = .quorumLegitimate ∨ invariant = .authorityChainValid) ∧
        OnlyFails platform (invariantContext action context) invariant ∧
        checkInvariant platform (invariantContext action context) invariant = .error violation ∧
        reason = violation.description := by
  have escalates_iff : ∀ invariant : ConstitutionalInvariant, invariant.escalates = true ↔
      invariant = .quorumLegitimate ∨ invariant = .authorityChainValid := by
    intro invariant
    cases invariant <;> decide
  rw [adjudicate_eq, verdictOf_eq_escalated_iff]
  constructor
  · rintro ⟨violation, single, escalates, same⟩
    obtain ⟨only, failed⟩ := violationsOf_all_eq_singleton_iff.mp single
    exact ⟨_, violation, (escalates_iff _).mp escalates, only, failed, same⟩
  · rintro ⟨invariant, violation, kind, only, failed, same⟩
    have named := names_checkInvariant invariant violation failed
    subst named
    exact ⟨violation, violationsOf_all_eq_singleton_iff.mpr ⟨only, failed⟩,
      (escalates_iff _).mpr kind, same⟩

theorem exists_escalated_iff :
    (∃ reason, (Kernel.new platform.blake3 constitution .all).adjudicate platform action context =
        .escalated reason) ↔
      OnlyFails platform (invariantContext action context) .quorumLegitimate ∨
        OnlyFails platform (invariantContext action context) .authorityChainValid := by
  constructor
  · rintro ⟨reason, escalated⟩
    obtain ⟨invariant, violation, kind, only, _⟩ := adjudicate_all_eq_escalated_iff.mp escalated
    rcases kind with rfl | rfl
    · exact .inl only
    · exact .inr only
  · intro only
    obtain ⟨invariant, kind, only⟩ : ∃ invariant, (invariant = .quorumLegitimate ∨
        invariant = .authorityChainValid) ∧
        OnlyFails platform (invariantContext action context) invariant := by
      rcases only with only | only
      · exact ⟨_, .inl rfl, only⟩
      · exact ⟨_, .inr rfl, only⟩
    cases checked : checkInvariant platform (invariantContext action context) invariant with
    | ok done =>
      exact absurd ((checkInvariant_eq_ok_iff invariant).mp checked) ((only invariant).mpr rfl)
    | error violation =>
      exact ⟨_, adjudicate_all_eq_escalated_iff.mpr ⟨_, violation, kind, only, checked, rfl⟩⟩

/-- A denial is what is left. -/
theorem exists_denied_iff :
    (∃ violations, (Kernel.new platform.blake3 constitution .all).adjudicate platform action context =
        .denied violations) ↔
      (¬ ∀ invariant, Holds platform (invariantContext action context) invariant) ∧
        ¬ (OnlyFails platform (invariantContext action context) .quorumLegitimate ∨
          OnlyFails platform (invariantContext action context) .authorityChainValid) := by
  rw [← @adjudicate_all_eq_permitted_iff platform constitution, ← @exists_escalated_iff platform
    constitution]
  cases (Kernel.new platform.blake3 constitution .all).adjudicate platform action context with
  | permitted => simp
  | escalated reason => simp
  | denied violations => simp

theorem adjudicate_all_denied {violations : List InvariantViolation}
    (denied : (Kernel.new platform.blake3 constitution .all).adjudicate platform action context =
      .denied violations) :
    violations = violationsOf platform (invariantContext action context)
      InvariantSet.all.invariants := by
  rw [adjudicate_eq] at denied
  exact eq_of_verdictOf_eq_denied denied

open Classical in
/-- **The verdict is the constitutional specification.** With all invariants, the kernel permits
where the eight conditions hold, escalates with the report of the failing check where only the
quorum or only the authority chain fails, and otherwise denies with one violation, that of its check,
for each condition that fails, in the order of the engine. -/
theorem adjudicate_spec (platform : Platform) (constitution : List UInt8) (action : ActionRequest)
    (context : AdjudicationContext) :
    let kernel := Kernel.new platform.blake3 constitution .all
    let ctx := invariantContext action context
    (kernel.adjudicate platform action context = .permitted ↔
      ∀ invariant, Holds platform ctx invariant) ∧
    (∀ reason, kernel.adjudicate platform action context = .escalated reason ↔
      ∃ invariant violation, (invariant = .quorumLegitimate ∨ invariant = .authorityChainValid) ∧
        OnlyFails platform ctx invariant ∧
        checkInvariant platform ctx invariant = .error violation ∧
        reason = violation.description) ∧
    ((∃ violations, kernel.adjudicate platform action context = .denied violations ∧
        violations.map InvariantViolation.invariant =
          InvariantSet.all.invariants.filter (fun invariant => ¬ Holds platform ctx invariant) ∧
        ∀ violation ∈ violations,
          checkInvariant platform ctx violation.invariant = .error violation) ↔
      (¬ ∀ invariant, Holds platform ctx invariant) ∧
        ¬ (OnlyFails platform ctx .quorumLegitimate ∨
          OnlyFails platform ctx .authorityChainValid)) := by
  intro kernel ctx
  refine ⟨adjudicate_all_eq_permitted_iff, fun reason => adjudicate_all_eq_escalated_iff, ?_⟩
  rw [← @exists_denied_iff platform constitution]
  constructor
  · rintro ⟨violations, denied, _⟩
    exact ⟨violations, denied⟩
  · rintro ⟨violations, denied⟩
    refine ⟨violations, denied, ?_⟩
    rw [adjudicate_all_denied denied]
    exact ⟨invariants_of_violations _,
      fun violation member => checkInvariant_of_mem_violationsOf member⟩

end Specification

/-! ### Consent -/

/-- What a permitted action would say if bailment and record were matched: the actor is the bailee,
and an active record in its favour is of the bailor and for the scope of the bailment. -/
def ConsentMatches (action : ActionRequest) (context : AdjudicationContext) : Prop :=
  ∃ bailor scope, context.bailmentState = .active bailor action.actor scope ∧
    ∃ record ∈ context.consentRecords, record.active = true ∧ record.grantedTo = action.actor ∧
      record.subject = bailor ∧ record.scope = scope

/-- A record with its subject and scope replaced. -/
def ConsentRecord.relabel (subject : ConsentRecord → Did) (scope : ConsentRecord → String)
    (record : ConsentRecord) : ConsentRecord :=
  { record with subject := subject record, scope := scope record }

/-- **What a permitted action says about consent.** The bailment is active and an active record is in
favour of the actor. The parties and the scope of the bailment, and the subjects and scopes of the
records, have no part in it: with any others the action is permitted as well. -/
theorem permitted_consent (platform : Platform) (constitution : List UInt8) (action : ActionRequest)
    (context : AdjudicationContext)
    (permitted : (Kernel.new platform.blake3 constitution .all).adjudicate platform action context =
      .permitted) :
    (∃ bailor bailee scope, context.bailmentState = .active bailor bailee scope) ∧
    (∃ record ∈ context.consentRecords,
      record.grantedTo = action.actor ∧ record.active = true) ∧
    ∀ bailor bailee scope subjectOf scopeOf,
      (Kernel.new platform.blake3 constitution .all).adjudicate platform action
        { context with
          bailmentState := .active bailor bailee scope
          consentRecords := context.consentRecords.map (.relabel subjectOf scopeOf) } =
        .permitted := by
  rw [adjudicate_all_eq_permitted_iff] at permitted
  obtain ⟨active, record, member, granted, recordActive⟩ := permitted .consentRequired
  refine ⟨?_, ⟨record, member, granted, recordActive⟩, ?_⟩
  · have active : context.bailmentState.isActive = true := active
    revert active
    cases context.bailmentState with
    | active bailor bailee scope => exact fun _ => ⟨bailor, bailee, scope, rfl⟩
    | none => exact fun active => by cases active
    | suspended reason => exact fun active => by cases active
    | terminated => exact fun active => by cases active
  · intro bailor bailee scope subjectOf scopeOf
    rw [adjudicate_all_eq_permitted_iff]
    intro invariant
    cases invariant with
    | consentRequired =>
      exact ⟨rfl, record.relabel subjectOf scopeOf, List.mem_map_of_mem member, granted,
        recordActive⟩
    | separationOfPowers => exact permitted .separationOfPowers
    | noSelfGrant => exact permitted .noSelfGrant
    | humanOverride => exact permitted .humanOverride
    | kernelImmutability => exact permitted .kernelImmutability
    | authorityChainValid => exact permitted .authorityChainValid
    | quorumLegitimate => exact permitted .quorumLegitimate
    | provenanceVerifiable => exact permitted .provenanceVerifiable

namespace Sample

/-- A platform for contexts that carry no keys. -/
def keyless : Platform where
  printable := fun c => decide (c.toNat < 127)
  blake3 := Blake3.hash
  ed25519 := fun _ _ _ => false
  listBranches := fun branches =>
    [.legislative, .executive, .judicial].filter fun branch => branch ∈ branches

/-- A request of `did:exo:actor`. -/
def request : ActionRequest where
  actor := ⟨"did:exo:actor"⟩
  action := "read"
  requiredPermissions := ⟨[]⟩
  isSelfGrant := false
  modifiesKernel := false

/-- A bailment between two others, and a record of a fourth party for another scope. -/
def context : AdjudicationContext where
  actorRoles := []
  authorityChain := ⟨[⟨⟨"did:exo:root"⟩, ⟨"did:exo:actor"⟩, ⟨[]⟩, List.replicate 64 1, none⟩]⟩
  consentRecords := [⟨⟨"did:exo:subject"⟩, ⟨"did:exo:actor"⟩, "calendar", true⟩]
  bailmentState := .active ⟨"did:exo:bailor"⟩ ⟨"did:exo:bailee"⟩ "medical"
  humanOverridePreserved := true
  actorPermissions := ⟨[]⟩
  provenance := some ⟨⟨"did:exo:actor"⟩, "2026-03-20T00:00:00Z", List.replicate 32 1,
    List.replicate 64 2⟩
  quorumEvidence := none

theorem adjudicate_request (constitution : List UInt8) :
    (Kernel.new keyless.blake3 constitution .all).adjudicate keyless request context =
      .permitted := by
  rfl

/-- The request is permitted on a consent that does not match. -/
theorem permitted_without_match :
    (Kernel.new keyless.blake3 [] .all).adjudicate keyless request context = .permitted ∧
      ¬ ConsentMatches request context := by
  refine ⟨adjudicate_request [], ?_⟩
  rintro ⟨bailor, scope, active, _⟩
  have parties := (BailmentState.active.injEq _ _ _ _ _ _).mp active
  exact absurd parties.2.1 (by decide)

/-- The mismatched request is permitted under a bailment of any other scope too. -/
theorem permitted_for_any_scope :
    (Kernel.new keyless.blake3 [] .all).adjudicate keyless request context = .permitted ∧
      (Kernel.new keyless.blake3 [] .all).adjudicate keyless request
        { context with
          bailmentState := .active ⟨"did:exo:bailor"⟩ ⟨"did:exo:bailee"⟩ "payroll"
          consentRecords := context.consentRecords.map
            (.relabel ConsentRecord.subject ConsentRecord.scope) } = .permitted :=
  ⟨adjudicate_request [],
    (permitted_consent keyless [] request context (adjudicate_request [])).2.2 _ _ _ _ _⟩

end Sample

/-! ### Quorums of people -/

section Quorum

/-- How many entries occur again further on. -/
def repeats {α : Type} [DecidableEq α] : List α → ℕ
  | [] => 0
  | entry :: rest => if entry ∈ rest then repeats rest + 1 else repeats rest

theorem card_add_repeats {α : Type} [DecidableEq α] (entries : List α) :
    entries.toFinset.card + repeats entries = entries.length := by
  induction entries with
  | nil => rfl
  | cons entry rest ih =>
    rw [List.toFinset_cons, List.length_cons, repeats]
    by_cases again : entry ∈ rest
    · rw [if_pos again, Finset.insert_eq_of_mem (List.mem_toFinset.mpr again)]
      omega
    · rw [if_neg again, Finset.card_insert_of_notMem (mt List.mem_toFinset.mp again)]
      omega

/-- The voters of the approving votes, one entry for each vote. -/
def QuorumEvidence.approvers (evidence : QuorumEvidence) : List Did :=
  (evidence.votes.filter QuorumVote.approved).map QuorumVote.voter

theorem QuorumEvidence.mem_approvers_iff {evidence : QuorumEvidence} {voter : Did} :
    voter ∈ evidence.approvers ↔
      ∃ vote ∈ evidence.votes, vote.voter = voter ∧ vote.approved = true := by
  unfold approvers
  rw [List.mem_map]
  constructor
  · rintro ⟨vote, member, same⟩
    obtain ⟨member, approved⟩ := List.mem_filter.mp member
    exact ⟨vote, member, same, approved⟩
  · rintro ⟨vote, member, same, approved⟩
    exact ⟨vote, List.mem_filter.mpr ⟨member, approved⟩, same⟩

/-- At least as many different voters as the threshold cast an approving vote. -/
def QuorumEvidence.OfPeople (evidence : QuorumEvidence) : Prop :=
  ∃ voters : Finset Did, evidence.threshold.toNat ≤ voters.card ∧
    ∀ voter ∈ voters, ∃ vote ∈ evidence.votes, vote.voter = voter ∧ vote.approved = true

theorem QuorumEvidence.ofPeople_iff {evidence : QuorumEvidence} :
    evidence.OfPeople ↔
      evidence.threshold.toNat + repeats evidence.approvers ≤ evidence.approvals := by
  have count := card_add_repeats evidence.approvers
  have length : evidence.approvers.length = evidence.approvals := List.length_map _
  constructor
  · rintro ⟨voters, enough, cast⟩
    have within : voters ⊆ evidence.approvers.toFinset := by
      intro voter member
      exact List.mem_toFinset.mpr (mem_approvers_iff.mpr (cast voter member))
    have bound := Finset.card_le_card within
    omega
  · intro enough
    refine ⟨evidence.approvers.toFinset, by omega, ?_⟩
    intro voter member
    exact mem_approvers_iff.mp (List.mem_toFinset.mp member)

/-- **When a quorum that is met is one of people.** Votes are counted, not voters: an evidence that
is met has as many different approving voters as its threshold exactly where the votes that repeat an
approving voter are not needed for it. -/
theorem quorum_of_people_iff (evidence : QuorumEvidence) :
    (evidence.isMet = true → evidence.OfPeople) ↔
      evidence.approvals < evidence.threshold.toNat ∨
        evidence.threshold.toNat + repeats evidence.approvers ≤ evidence.approvals := by
  rw [isMet_iff, QuorumEvidence.ofPeople_iff]
  constructor
  · intro people
    rcases Nat.lt_or_ge evidence.approvals evidence.threshold.toNat with short | met
    · exact .inl short
    · exact .inr (people met)
  · rintro (short | enough) met
    · omega
    · exact enough

/-- One voter who approves twice. -/
def doubleVote : QuorumEvidence where
  threshold := 2
  votes := [⟨⟨"did:exo:v1"⟩, true, [1]⟩, ⟨⟨"did:exo:v1"⟩, true, [1]⟩]

/-- A threshold of two is met by one voter. -/
theorem doubleVote_met : doubleVote.isMet = true ∧ ¬ doubleVote.OfPeople := by
  rw [QuorumEvidence.ofPeople_iff]
  decide

end Quorum

end Exochain.ExoGatekeeper
