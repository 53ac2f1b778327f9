/-
**`exo-legal` — what the hash of a compliance report binds.**

A report attests every invariant; three counts of the period show in the evidence. The hash is taken over
the tenant, three timestamps, the jurisdiction, the mode and the attestations, written one after the other
without lengths.

* `compile_eq` — the report that a transparency report is built into, if the count of events does not
  overflow.
* `content_eq_iff` — what the hashed string determines: the mode, the counts, and the tenant, the
  timestamps and the jurisdiction as one string.
* `Recut` — two inputs whose tenants end at different places of one string.
* `reports_bound_iff` — **the hash binds two reports, up to a collision, exactly if their inputs are not
  recut**; tenants of one length never are (`not_recut_of_length`).
* `TwoTenants.tenant_absorbs_timestamp` — two reports with one hash.
-/

import Exochain.Foundation.Blake3
import Exochain.Foundation.Codes
import Exochain.Foundation.Merkle
import Exochain.Gatekeeper.Invariants

set_option linter.unusedSectionVars false

namespace Exochain.ExoLegal

open Foundation ExoCore ExoGatekeeper

/-! ### The mapping -/

/-- The four functions of the risk management framework. -/
inductive NistFunction where
  | govern
  | map
  | measure
  | manage
  deriving DecidableEq, Repr

/-- A single mapping from an invariant to functions and subcategories of the framework. -/
structure NistMappingEntry where
  invariant : ConstitutionalInvariant
  exochainLabel : String
  nistFunctions : List NistFunction
  nistSubcategories : List String
  regulatoryRefs : List String
  deriving DecidableEq, Repr

/-- The complete mapping for all invariants. -/
structure NistMapping where
  schemaVersion : String
  entries : List NistMappingEntry
  deriving DecidableEq, Repr

namespace NistMapping

/-- The authoritative mapping. -/
def canonical : NistMapping where
  schemaVersion := "1.0.0"
  entries :=
    [{ invariant := .humanOverride
       exochainLabel := "HumanOversight"
       nistFunctions := [.govern, .manage]
       nistSubcategories := ["GV.1", "GV.6", "MG.2"]
       regulatoryRefs := ["EU AI Act Art. 14 (Human oversight)",
         "GDPR Art. 22 (Automated decision-making)",
         "GDPR Art. 22(3) (Human intervention safeguards)"] },
     { invariant := .provenanceVerifiable
       exochainLabel := "TransparencyAccountability"
       nistFunctions := [.govern, .measure]
       nistSubcategories := ["GV.1", "MS.2", "MS.4"]
       regulatoryRefs := ["EU AI Act Art. 13 (Transparency — high-risk AI)",
         "EU AI Act Art. 12 (Record-keeping)",
         "GDPR Art. 5(1)(f) (Integrity and confidentiality)",
         "GDPR Art. 30 (Records of processing activities)"] },
     { invariant := .authorityChainValid
       exochainLabel := "DelegationGovernance"
       nistFunctions := [.govern, .map]
       nistSubcategories := ["GV.6", "MP.2", "MP.5"]
       regulatoryRefs := ["EU AI Act Art. 16 (Obligations of providers)",
         "EU AI Act Art. 26 (Obligations of deployers)",
         "GDPR Art. 5(2) (Accountability)",
         "GDPR Art. 28 (Processor obligations)"] },
     { invariant := .separationOfPowers
       exochainLabel := "DemocraticLegitimacy"
       nistFunctions := [.govern]
       nistSubcategories := ["GV.1", "GV.4"]
       regulatoryRefs := ["EU AI Act Art. 9 (Risk management — separation of roles)",
         "EU AI Act Art. 17 (Quality management system)"] },
     { invariant := .consentRequired
       exochainLabel := "DataSovereignty"
       nistFunctions := [.map, .manage]
       nistSubcategories := ["MP.5", "MG.3"]
       regulatoryRefs := ["GDPR Art. 6 (Lawfulness of processing)",
         "GDPR Art. 7 (Conditions for consent)",
         "GDPR Art. 22 (Automated decision-making — explicit consent)"] },
     { invariant := .noSelfGrant
       exochainLabel := "PrivilegeEscalationPrevention"
       nistFunctions := [.govern, .manage]
       nistSubcategories := ["GV.1", "MG.2"]
       regulatoryRefs := ["EU AI Act Art. 9(7) (Risk management — containment)",
         "EU AI Act Art. 14(4) (Human oversight — stop capability)"] },
     { invariant := .kernelImmutability
       exochainLabel := "ExistentialSafeguard"
       nistFunctions := [.govern, .manage]
       nistSubcategories := ["GV.1", "MG.4"]
       regulatoryRefs := ["EU AI Act Art. 9 (Risk management — systemic integrity)",
         "EU AI Act Annex IV (Technical documentation)"] },
     { invariant := .quorumLegitimate
       exochainLabel := "DualControl"
       nistFunctions := [.govern, .measure]
       nistSubcategories := ["GV.1", "GV.4", "MS.2"]
       regulatoryRefs := ["EU AI Act Art. 17 (Quality management — governance processes)",
         "EU AI Act Art. 9 (Risk management — multi-actor verification)"] }]

/-- The mapping entry for a specific invariant, if present. -/
def entryFor (mapping : NistMapping) (invariant : ConstitutionalInvariant) : Option NistMappingEntry :=
  mapping.entries.find? (·.invariant = invariant)

end NistMapping

/-! ### Transparency reports -/

/-- Summary of a single delegation event. -/
structure AiDelegationEvent where
  delegator : Did
  delegatee : Did
  modelId : String
  grantedAt : Timestamp
  expiresAt : Option Timestamp
  depth : ℕ
  deriving DecidableEq

/-- The outcomes of one rule. -/
structure McpOutcomeSummary where
  rule : String
  allowed : UInt64
  blocked : UInt64
  escalated : UInt64
  deriving DecidableEq

/-- A transparency report for a single tenant and time period. -/
structure AiTransparencyReport where
  tenantId : Did
  periodStart : Timestamp
  periodEnd : Timestamp
  legalJurisdiction : String
  aiAgentActionCount : UInt64
  aiDelegationGrants : List AiDelegationEvent
  aiDelegationRevocations : UInt64
  mcpRuleOutcomes : List McpOutcomeSummary
  deriving DecidableEq

/-! ### Compliance reports -/

/-- Whether model identifiers appear in plaintext or as hashes. -/
inductive ComplianceReportMode where
  | full
  | redacted (redactionSalt : FixedBytes 32)

/-- The name of a mode in a report. -/
def ComplianceReportMode.name : ComplianceReportMode → String
  | full => "Full"
  | redacted _ => "Redacted"

/-- The attestation status of a single invariant. -/
inductive AttestationStatus where
  | compliant
  | gap
  | notApplicable
  deriving DecidableEq, Repr

/-- The debug rendering of a status. -/
def AttestationStatus.debug : AttestationStatus → String
  | compliant => "Compliant"
  | gap => "Gap"
  | notApplicable => "NotApplicable"

/-- Attestation of a single invariant. -/
structure InvariantAttestation where
  invariant : String
  exochainLabel : String
  nistFunctions : List NistFunction
  nistSubcategories : List String
  status : AttestationStatus
  evidenceSummary : String
  regulatoryRefs : List String
  deriving DecidableEq

/-- A compliance report covering all invariants. -/
structure ComplianceReport where
  schemaVersion : String
  tenantId : Did
  generatedAt : Timestamp
  periodStart : Timestamp
  periodEnd : Timestamp
  legalJurisdiction : String
  reportMode : String
  attestations : List InvariantAttestation
  reportHash : Hash256
  deriving DecidableEq

/-- The debug rendering of an invariant. -/
def debugName : ConstitutionalInvariant → String
  | .separationOfPowers => "SeparationOfPowers"
  | .consentRequired => "ConsentRequired"
  | .noSelfGrant => "NoSelfGrant"
  | .humanOverride => "HumanOverride"
  | .kernelImmutability => "KernelImmutability"
  | .authorityChainValid => "AuthorityChainValid"
  | .quorumLegitimate => "QuorumLegitimate"
  | .provenanceVerifiable => "ProvenanceVerifiable"

/-- The enforcement events of the period, a 64-bit sum. -/
def mcpCount (build : Build) (outcomes : List McpOutcomeSummary) : Except Fault ℕ :=
  outcomes.foldlM (fun total outcome => do
    let decided ← build.add 64 outcome.allowed.toNat outcome.blocked.toNat
    let events ← build.add 64 decided outcome.escalated.toNat
    build.add 64 total events) 0

/-- The delegation grants; the count is not sensitive. -/
def redactDelegationCount (report : AiTransparencyReport) : ComplianceReportMode → ℕ
  | .full => report.aiDelegationGrants.length
  | .redacted _ => report.aiDelegationGrants.length

def deriveStatusAndEvidence (build : Build) (invariant : ConstitutionalInvariant)
    (report : AiTransparencyReport) (mode : ComplianceReportMode) :
    Except Fault (AttestationStatus × String) :=
  match invariant with
  | .humanOverride =>
    .ok (.compliant, "HumanOverride invariant enforced at kernel level (exo-gatekeeper). " ++
      "Strategic/Constitutional DecisionClass requires human gate. GDPR Art. 22 safeguard active.")
  | .provenanceVerifiable => do
    let count ← mcpCount build report.mcpRuleOutcomes
    return (.compliant, "Hash-chained AuditLog provides tamper-evident provenance. " ++
      toString count ++ " MCP enforcement events recorded this period. " ++
      "BLAKE3 chain verified. GDPR Art. 5(1)(f) satisfied.")
  | .authorityChainValid =>
    .ok (.compliant, "Authority chain verified for all actions. " ++
      toString (redactDelegationCount report mode) ++
      " AI agent delegation grants recorded (DelegateeKind::AiAgent tagged). " ++
      toString report.aiDelegationRevocations.toNat ++
      " revocations. GDPR Art. 5(2) accountability chain intact.")
  | .separationOfPowers | .consentRequired | .noSelfGrant | .kernelImmutability | .quorumLegitimate =>
    .ok (.compliant, debugName invariant ++
      " enforced synchronously by InvariantEngine::enforce_all(). No violations recorded this period.")

def buildAttestation (build : Build) (invariant : ConstitutionalInvariant) (mapping : NistMapping)
    (report : AiTransparencyReport) (mode : ComplianceReportMode) :
    Except Fault InvariantAttestation := do
  let (label, functions, subcategories, regRefs) :=
    match mapping.entryFor invariant with
    | some entry =>
      (entry.exochainLabel, entry.nistFunctions, entry.nistSubcategories, entry.regulatoryRefs)
    | none => (debugName invariant, [], [], [])
  let (status, evidenceSummary) ← deriveStatusAndEvidence build invariant report mode
  return {
    invariant := debugName invariant
    exochainLabel := label
    nistFunctions := functions
    nistSubcategories := subcategories
    status
    evidenceSummary
    regulatoryRefs := regRefs }

/-- What of an attestation is hashed. -/
def InvariantAttestation.content (attestation : InvariantAttestation) : List UInt8 :=
  textBytes attestation.invariant ++ textBytes attestation.exochainLabel ++
    textBytes attestation.evidenceSummary ++ textBytes attestation.status.debug

/-- The string that the hash of a report is taken over. -/
def reportContent (tenantId : Did) (generatedAt periodStart periodEnd : Timestamp)
    (legalJurisdiction reportMode : String) (attestations : List InvariantAttestation) : List UInt8 :=
  tenantId.asBytes ++ generatedAt.toLeBytes ++ periodStart.toLeBytes ++ periodEnd.toLeBytes ++
    textBytes legalJurisdiction ++ textBytes reportMode ++
    attestations.flatMap InvariantAttestation.content

def hashReportContent (blake3 : Blake3) (tenantId : Did) (generatedAt periodStart periodEnd : Timestamp)
    (legalJurisdiction reportMode : String) (attestations : List InvariantAttestation) : Hash256 :=
  blake3 (reportContent tenantId generatedAt periodStart periodEnd legalJurisdiction reportMode
    attestations)

/-- The string that the hash of a report has been taken over. -/
def ComplianceReport.content (report : ComplianceReport) : List UInt8 :=
  reportContent report.tenantId report.generatedAt report.periodStart report.periodEnd
    report.legalJurisdiction report.reportMode report.attestations

/-- Build a report from a transparency report and the canonical mapping. -/
def buildReport (build : Build) (blake3 : Blake3) (transparencyReport : AiTransparencyReport)
    (mode : ComplianceReportMode) (generatedAt : Timestamp) : Except Fault ComplianceReport := do
  let attestations ← InvariantSet.all.invariants.mapM fun invariant =>
    buildAttestation build invariant NistMapping.canonical transparencyReport mode
  return {
    schemaVersion := "1.0.0"
    tenantId := transparencyReport.tenantId
    generatedAt
    periodStart := transparencyReport.periodStart
    periodEnd := transparencyReport.periodEnd
    legalJurisdiction := transparencyReport.legalJurisdiction
    reportMode := mode.name
    attestations
    reportHash := hashReportContent blake3 transparencyReport.tenantId generatedAt
      transparencyReport.periodStart transparencyReport.periodEnd
      transparencyReport.legalJurisdiction mode.name attestations }

/-! ### The report that is built -/

/-- What a report is built from. -/
structure ReportInput where
  report : AiTransparencyReport
  mode : ComplianceReportMode
  generatedAt : Timestamp

/-- The counts of a period: the grants, the revocations, and the enforcement events. -/
structure Counts where
  grants : ℕ
  revocations : ℕ
  events : ℕ
  deriving DecidableEq

/-- What stands before and after the counts. -/
def grantsLead : String := "Authority chain verified for all actions. "

def revocationsLead : String :=
  " AI agent delegation grants recorded (DelegateeKind::AiAgent tagged). "

def accountabilityNote : String := " revocations. GDPR Art. 5(2) accountability chain intact."

def eventsLead : String := "Hash-chained AuditLog provides tamper-evident provenance. "

def eventsNote : String := " MCP enforcement events recorded this period. "

def provenanceNote : String := "BLAKE3 chain verified. GDPR Art. 5(1)(f) satisfied."

/-- The evidence for an invariant. -/
def evidence (counts : Counts) : ConstitutionalInvariant → String
  | .humanOverride => "HumanOverride invariant enforced at kernel level (exo-gatekeeper). " ++
      "Strategic/Constitutional DecisionClass requires human gate. GDPR Art. 22 safeguard active."
  | .provenanceVerifiable => eventsLead ++ toString counts.events ++ eventsNote ++ provenanceNote
  | .authorityChainValid => grantsLead ++ toString counts.grants ++ revocationsLead ++
      toString counts.revocations ++ accountabilityNote
  | invariant => debugName invariant ++
      " enforced synchronously by InvariantEngine::enforce_all(). No violations recorded this period."

/-- The entry of an invariant in the canonical mapping. -/
def entryOf (invariant : ConstitutionalInvariant) : NistMappingEntry :=
  (NistMapping.canonical.entryFor invariant).getD ⟨invariant, debugName invariant, [], [], []⟩

/-- The attestation of an invariant. -/
def attestation (counts : Counts) (invariant : ConstitutionalInvariant) : InvariantAttestation where
  invariant := debugName invariant
  exochainLabel := (entryOf invariant).exochainLabel
  nistFunctions := (entryOf invariant).nistFunctions
  nistSubcategories := (entryOf invariant).nistSubcategories
  status := .compliant
  evidenceSummary := evidence counts invariant
  regulatoryRefs := (entryOf invariant).regulatoryRefs

def attestations (counts : Counts) : List InvariantAttestation :=
  InvariantSet.all.invariants.map (attestation counts)

namespace ReportInput

/-- The report that an input is built into. -/
def compile (build : Build) (blake3 : Blake3) (input : ReportInput) : Except Fault ComplianceReport :=
  buildReport build blake3 input.report input.mode input.generatedAt

/-- The counts of an input, with the number of its events. -/
def counts (input : ReportInput) (events : ℕ) : Counts :=
  ⟨input.report.aiDelegationGrants.length, input.report.aiDelegationRevocations.toNat, events⟩

/-- The timestamps and the jurisdiction, which follow the tenant in the hashed string. -/
def window (input : ReportInput) : List UInt8 :=
  input.generatedAt.toLeBytes ++ (input.report.periodStart.toLeBytes ++
    (input.report.periodEnd.toLeBytes ++ textBytes input.report.legalJurisdiction))

/-- The hashed string, from the counts. -/
def content (input : ReportInput) (counts : Counts) : List UInt8 :=
  input.report.tenantId.asBytes ++ input.window ++ textBytes input.mode.name ++
    (attestations counts).flatMap InvariantAttestation.content

/-- The report, from the counts. -/
def reportOf (blake3 : Blake3) (input : ReportInput) (counts : Counts) : ComplianceReport where
  schemaVersion := "1.0.0"
  tenantId := input.report.tenantId
  generatedAt := input.generatedAt
  periodStart := input.report.periodStart
  periodEnd := input.report.periodEnd
  legalJurisdiction := input.report.legalJurisdiction
  reportMode := input.mode.name
  attestations := attestations counts
  reportHash := blake3 (input.content counts)

variable {build : Build} {blake3 : Blake3} {input : ReportInput}

theorem redactDelegationCount_eq (report : AiTransparencyReport) (mode : ComplianceReportMode) :
    redactDelegationCount report mode = report.aiDelegationGrants.length := by
  cases mode with
  | full => rfl
  | redacted salt => rfl

/-- Every invariant is attested if the events can be counted. -/
theorem buildAttestation_eq {events : ℕ} (counted : mcpCount build input.report.mcpRuleOutcomes = .ok events)
    (invariant : ConstitutionalInvariant) :
    buildAttestation build invariant NistMapping.canonical input.report input.mode =
      .ok (attestation (input.counts events) invariant) := by
  unfold buildAttestation deriveStatusAndEvidence
  rw [redactDelegationCount_eq, counted]
  cases invariant <;> rfl

/-- **The report that an input is built into.** -/
theorem compile_eq {events : ℕ} (counted : mcpCount build input.report.mcpRuleOutcomes = .ok events) :
    input.compile build blake3 = .ok (input.reportOf blake3 (input.counts events)) := by
  unfold compile buildReport
  rw [mapM_eq_ok_of_forall fun invariant _ => buildAttestation_eq counted invariant]
  simp only [reportOf, content, window, hashReportContent, reportContent, attestations, List.append_assoc]
  rfl

theorem content_reportOf (blake3 : Blake3) (input : ReportInput) (counts : Counts) :
    (input.reportOf blake3 counts).content = input.content counts := by
  simp only [ComplianceReport.content, reportContent, reportOf, content, window, List.append_assoc]

/-- A report is built only if the events can be counted. -/
theorem counted_of_compile {built : ComplianceReport} (compiled : input.compile build blake3 = .ok built) :
    ∃ events, mcpCount build input.report.mcpRuleOutcomes = .ok events ∧
      built = input.reportOf blake3 (input.counts events) := by
  obtain ⟨_, attested, _⟩ := bind_eq_ok_iff.mp compiled
  obtain ⟨_, provenance⟩ := exists_mapM_eq_ok_iff.mp ⟨_, attested⟩ .provenanceVerifiable
    (InvariantSet.mem_all _)
  obtain ⟨_, derived, _⟩ := bind_eq_ok_iff.mp provenance
  obtain ⟨events, counted, _⟩ := bind_eq_ok_iff.mp derived
  rw [compile_eq counted, Except.ok.injEq] at compiled
  exact ⟨events, counted, compiled.symm⟩

end ReportInput

/-! ### What the hashed string determines -/

/-- The invariants before the first one whose evidence holds a count. -/
def leadingInvariants : List ConstitutionalInvariant :=
  [.separationOfPowers, .consentRequired, .noSelfGrant, .humanOverride, .kernelImmutability]

/-- The hashed attestations up to the number of grants. -/
def beforeGrants : List UInt8 :=
  (leadingInvariants.map (attestation ⟨0, 0, 0⟩)).flatMap InvariantAttestation.content ++
    textBytes (debugName .authorityChainValid) ++
    textBytes (entryOf .authorityChainValid).exochainLabel ++ textBytes grantsLead

/-- The hashed attestations between the numbers of revocations and events. -/
def beforeEvents : List UInt8 :=
  textBytes accountabilityNote ++ textBytes AttestationStatus.compliant.debug ++
    (attestation ⟨0, 0, 0⟩ .quorumLegitimate).content ++
    textBytes (debugName .provenanceVerifiable) ++
    textBytes (entryOf .provenanceVerifiable).exochainLabel ++ textBytes eventsLead

/-- The end of the hashed attestations. -/
def afterEvents : List UInt8 :=
  textBytes eventsNote ++ textBytes provenanceNote ++ textBytes AttestationStatus.compliant.debug

theorem content_attestation (counts : Counts) (invariant : ConstitutionalInvariant) :
    (attestation counts invariant).content =
      textBytes (debugName invariant) ++ textBytes (entryOf invariant).exochainLabel ++
        textBytes (evidence counts invariant) ++ textBytes AttestationStatus.compliant.debug := rfl

/-- The counts show in two attestations. -/
theorem attestation_eq (counts : Counts) {invariant : ConstitutionalInvariant}
    (authority : invariant ≠ .authorityChainValid) (provenance : invariant ≠ .provenanceVerifiable) :
    attestation counts invariant = attestation ⟨0, 0, 0⟩ invariant := by
  have same : evidence counts invariant = evidence ⟨0, 0, 0⟩ invariant := by
    cases invariant <;> first | contradiction | rfl
  rw [attestation, attestation, same]

/-- The hashed attestations: the counts, between fixed strings. -/
theorem attestations_content (counts : Counts) :
    (attestations counts).flatMap InvariantAttestation.content =
      beforeGrants ++ textBytes (toString counts.grants) ++ textBytes revocationsLead ++
        textBytes (toString counts.revocations) ++ beforeEvents ++
        textBytes (toString counts.events) ++ afterEvents := by
  have leading : leadingInvariants.map (attestation counts) =
      leadingInvariants.map (attestation ⟨0, 0, 0⟩) := by
    refine List.map_congr_left fun invariant listed => attestation_eq counts ?_ ?_
    · rintro rfl
      exact absurd listed (by decide)
    · rintro rfl
      exact absurd listed (by decide)
  have split : attestations counts = leadingInvariants.map (attestation counts) ++
      [attestation counts .authorityChainValid, attestation counts .quorumLegitimate,
        attestation counts .provenanceVerifiable] := rfl
  have authority : evidence counts .authorityChainValid = grantsLead ++ toString counts.grants ++
      revocationsLead ++ toString counts.revocations ++ accountabilityNote := rfl
  have provenance : evidence counts .provenanceVerifiable = eventsLead ++ toString counts.events ++
      eventsNote ++ provenanceNote := rfl
  have quorum : attestation counts .quorumLegitimate = attestation ⟨0, 0, 0⟩ .quorumLegitimate :=
    attestation_eq counts nofun nofun
  rw [split, leading, quorum, List.flatMap_append, List.flatMap_cons,
    List.flatMap_cons, List.flatMap_cons, List.flatMap_nil,
    content_attestation counts .authorityChainValid, content_attestation counts .provenanceVerifiable,
    authority, provenance, beforeGrants, beforeEvents, afterEvents]
  simp only [textBytes_append, List.append_assoc, List.append_nil]

theorem blank_grants : beforeGrants.getLast? = some 32 := by decide +kernel

theorem blank_revocations : (textBytes revocationsLead).getLast? = some 32 := by decide +kernel

theorem blank_events : beforeEvents.getLast? = some 32 := by decide +kernel

/-- **The counts can be read back** from the end of a string, whatever stands before them. -/
theorem attestations_read {front front' : List UInt8} {counts counts' : Counts}
    (same : front ++ (attestations counts).flatMap InvariantAttestation.content =
      front' ++ (attestations counts').flatMap InvariantAttestation.content) :
    front = front' ∧ counts = counts' := by
  have blank {before lead : List UInt8} (ends : lead.getLast? = some 32) :
      (before ++ lead).getLast? = some 32 := by
    rw [List.getLast?_append, ends, Option.some_or]
  rw [attestations_content, attestations_content] at same
  simp only [← List.append_assoc] at same
  obtain ⟨toEvents, events⟩ := cut_at_number (blank blank_events) (blank blank_events)
    (List.append_cancel_right same)
  obtain ⟨toRevocations, revocations⟩ := cut_at_number (blank blank_revocations)
    (blank blank_revocations) (List.append_cancel_right toEvents)
  obtain ⟨toGrants, grants⟩ := cut_at_number (blank blank_grants) (blank blank_grants)
    (List.append_cancel_right toRevocations)
  refine ⟨List.append_cancel_right toGrants, ?_⟩
  cases counts
  cases counts'
  rw [Counts.mk.injEq]
  exact ⟨grants, revocations, events⟩

/-- The name of the mode can be read back. -/
theorem name_read {front front' : List UInt8} {mode mode' : ComplianceReportMode}
    (same : front ++ textBytes mode.name = front' ++ textBytes mode'.name) :
    front = front' ∧ mode.name = mode'.name := by
  have last (text : String) (letter : UInt8) (ends : (textBytes text).getLast? = some letter)
      (front : List UInt8) : (front ++ textBytes text).getLast? = some letter := by
    rw [List.getLast?_append, ends, Option.some_or]
  have full := last "Full" 108 (by decide +kernel)
  have redacted := last "Redacted" 100 (by decide +kernel)
  have letters := congrArg List.getLast? same
  cases mode with
  | full =>
    cases mode' with
    | full => exact ⟨List.append_cancel_right same, rfl⟩
    | redacted salt =>
      rw [ComplianceReportMode.name, ComplianceReportMode.name, full, redacted] at letters
      exact absurd letters (by decide)
  | redacted salt =>
    cases mode' with
    | full =>
      rw [ComplianceReportMode.name, ComplianceReportMode.name, full, redacted] at letters
      exact absurd letters (by decide)
    | redacted salt' => exact ⟨List.append_cancel_right same, rfl⟩

namespace ReportInput

variable {build : Build} {blake3 : Blake3} {input other : ReportInput} {counts counts' : Counts}

/-- **What the hashed string determines**: the mode, the counts, and the rest as one string. -/
theorem content_eq_iff :
    input.content counts = other.content counts' ↔
      input.report.tenantId.asBytes ++ input.window = other.report.tenantId.asBytes ++ other.window ∧
        input.mode.name = other.mode.name ∧ counts = counts' := by
  constructor
  · intro same
    obtain ⟨fronts, rfl⟩ := attestations_read same
    obtain ⟨texts, names⟩ := name_read fronts
    exact ⟨texts, names, rfl⟩
  · rintro ⟨texts, names, rfl⟩
    rw [content, content, texts, names]

/-- The window determines the timestamps and the jurisdiction. -/
theorem window_eq_iff :
    input.window = other.window ↔ input.generatedAt = other.generatedAt ∧
      input.report.periodStart = other.report.periodStart ∧
      input.report.periodEnd = other.report.periodEnd ∧
      input.report.legalJurisdiction = other.report.legalJurisdiction := by
  constructor
  · intro same
    obtain ⟨generated, rest⟩ := List.append_inj same (by simp)
    obtain ⟨start, rest⟩ := List.append_inj rest (by simp)
    obtain ⟨finish, jurisdiction⟩ := List.append_inj rest (by simp)
    exact ⟨Timestamp.toLeBytes_injective generated, Timestamp.toLeBytes_injective start,
      Timestamp.toLeBytes_injective finish, textBytes_injective jurisdiction⟩
  · rintro ⟨generated, start, finish, jurisdiction⟩
    rw [window, window, generated, start, finish, jurisdiction]

/-- Reports with one hashed string are the same exactly if their tenants are. -/
theorem reportOf_eq_iff (same : input.content counts = other.content counts') :
    input.reportOf blake3 counts = other.reportOf blake3 counts' ↔
      input.report.tenantId = other.report.tenantId := by
  constructor
  · exact fun reports => congrArg ComplianceReport.tenantId reports
  · intro tenants
    obtain ⟨texts, names, rfl⟩ := content_eq_iff.mp same
    rw [tenants] at texts
    obtain ⟨generated, start, finish, jurisdiction⟩ :=
      window_eq_iff.mp (List.append_cancel_left texts)
    rw [reportOf, reportOf, same, tenants, generated, start, finish, jurisdiction, names]

/-! ### Recut inputs -/

/-- The mode and the counts show alike in the two reports, and the tenant of the second input takes in the
beginning of what follows the tenant of the first one. -/
structure Recut (build : Build) (input other : ReportInput) : Prop where
  mode : input.mode.name = other.mode.name
  grants : input.report.aiDelegationGrants.length = other.report.aiDelegationGrants.length
  revocations : input.report.aiDelegationRevocations = other.report.aiDelegationRevocations
  events : mcpCount build input.report.mcpRuleOutcomes = mcpCount build other.report.mcpRuleOutcomes
  absorbed : ∃ more, more ≠ [] ∧
    other.report.tenantId.asBytes = input.report.tenantId.asBytes ++ more ∧
    input.window = more ++ other.window

/-- Tenants of one length are not recut. -/
theorem not_recut_of_length
    (same : input.report.tenantId.asBytes.length = other.report.tenantId.asBytes.length) :
    ¬ Recut build input other := by
  intro recut
  obtain ⟨more, nonempty, tenants, _⟩ := recut.absorbed
  rw [tenants, List.length_append] at same
  exact nonempty (List.length_eq_zero_iff.mp (by omega))

theorem Recut.tenant_ne (recut : Recut build input other) :
    input.report.tenantId ≠ other.report.tenantId := by
  intro same
  exact not_recut_of_length (congrArg (fun tenant : Did => tenant.asBytes.length) same) recut

theorem Recut.content_eq {events events' : ℕ} (recut : Recut build input other)
    (counted : mcpCount build input.report.mcpRuleOutcomes = .ok events)
    (counted' : mcpCount build other.report.mcpRuleOutcomes = .ok events') :
    input.content (input.counts events) = other.content (other.counts events') := by
  obtain ⟨more, _, tenants, windows⟩ := recut.absorbed
  have same := recut.events
  rw [counted, counted', Except.ok.injEq] at same
  refine content_eq_iff.mpr ⟨?_, recut.mode, ?_⟩
  · rw [tenants, windows, List.append_assoc]
  · rw [counts, counts, recut.grants, recut.revocations, same]

/-- Inputs with one hashed string have one tenant, or are recut. -/
theorem recut_of_content_eq {events events' : ℕ}
    (counted : mcpCount build input.report.mcpRuleOutcomes = .ok events)
    (counted' : mcpCount build other.report.mcpRuleOutcomes = .ok events')
    (same : input.content (input.counts events) = other.content (other.counts events')) :
    input.report.tenantId = other.report.tenantId ∨ Recut build input other ∨
      Recut build other input := by
  obtain ⟨texts, names, numbers⟩ := content_eq_iff.mp same
  rw [counts, counts, Counts.mk.injEq] at numbers
  obtain ⟨grants, revocations, equal⟩ := numbers
  have revocations := UInt64.toNat_inj.mp revocations
  have eventsEq : mcpCount build input.report.mcpRuleOutcomes =
      mcpCount build other.report.mcpRuleOutcomes := by rw [counted, counted', equal]
  rcases List.append_eq_append_iff.mp texts with ⟨more, tenants, windows⟩ | ⟨more, tenants, windows⟩
  · by_cases empty : more = []
    · rw [empty, List.append_nil] at tenants
      exact .inl (Did.asBytes_injective tenants.symm)
    · exact .inr (.inl ⟨names, grants, revocations, eventsEq, more, empty, tenants, windows⟩)
  · by_cases empty : more = []
    · rw [empty, List.append_nil] at tenants
      exact .inl (Did.asBytes_injective tenants)
    · exact .inr (.inr ⟨names.symm, grants.symm, revocations.symm, eventsEq.symm, more, empty, tenants,
        windows⟩)

/-- **What the hash of a report binds.** Of two reports that are built, one hash means one report or a
collision of the two hashed strings, exactly if the inputs are not recut, either way. -/
theorem reports_bound_iff (build : Build) (blake3 : Blake3) {input other : ReportInput}
    {built built' : ComplianceReport} (compiled : input.compile build blake3 = .ok built)
    (compiled' : other.compile build blake3 = .ok built') :
    (built.reportHash = built'.reportHash → built = built' ∨
      CollisionIn blake3 [built.content, built'.content]) ↔
      ¬ (Recut build input other ∨ Recut build other input) := by
  obtain ⟨events, counted, rfl⟩ := counted_of_compile compiled
  obtain ⟨events', counted', rfl⟩ := counted_of_compile compiled'
  rw [content_reportOf, content_reportOf]
  show (blake3 (input.content (input.counts events)) = blake3 (other.content (other.counts events')) →
    _) ↔ _
  constructor
  · intro bound recut
    have strings : input.content (input.counts events) = other.content (other.counts events') := by
      rcases recut with recut | recut
      · exact recut.content_eq counted counted'
      · exact (recut.content_eq counted' counted).symm
    have tenants : input.report.tenantId ≠ other.report.tenantId := by
      rcases recut with recut | recut
      · exact recut.tenant_ne
      · exact recut.tenant_ne.symm
    rcases bound (congrArg blake3 strings) with reports | collision
    · exact tenants ((reportOf_eq_iff strings).mp reports)
    · rw [strings] at collision
      exact not_collisionIn_pair _ _ collision
  · intro uncut hashes
    by_cases collision : CollisionIn blake3 [input.content (input.counts events),
        other.content (other.counts events')]
    · exact .inr collision
    · have strings := eq_of_hash_eq collision (by simp) (by simp) hashes
      have tenants := (recut_of_content_eq counted counted' strings).resolve_right uncut
      exact .inl ((reportOf_eq_iff strings).mpr tenants)

end ReportInput

namespace TwoTenants

open ReportInput

/-- A report in full mode of a period without events. -/
def quiet (tenant : String) (generatedAt periodEnd : Timestamp) (jurisdiction : String) : ReportInput :=
  ⟨⟨⟨tenant⟩, .zero, periodEnd, jurisdiction, 0, [], 0, []⟩, .full, generatedAt⟩

/-- The first byte of the timestamp is the letter `a`. -/
def shorter : ReportInput := quiet "did:exo:t" ⟨97, 0⟩ .zero "EU-AI-ACT"

/-- The tenant ends in that letter, and the last byte of the last timestamp is the first letter of the
other jurisdiction. -/
def longer : ReportInput := quiet "did:exo:ta" .zero ⟨0, 0x45000000⟩ "U-AI-ACT"

theorem shorter_recut : Recut ⟨true⟩ shorter longer where
  mode := rfl
  grants := rfl
  revocations := rfl
  events := rfl
  absorbed := ⟨[97], by decide, by decide +kernel, by decide +kernel⟩

/-- **One hash, two tenants.** -/
theorem tenant_absorbs_timestamp :
    ¬ ∀ (input other : ReportInput) (built built' : ComplianceReport),
      input.report.tenantId.Accepted → other.report.tenantId.Accepted →
      input.compile ⟨true⟩ Blake3.hash = .ok built → other.compile ⟨true⟩ Blake3.hash = .ok built' →
      built.reportHash = built'.reportHash →
      built = built' ∨ CollisionIn Blake3.hash [built.content, built'.content] := by
  intro claimed
  have strings : shorter.content (shorter.counts 0) = longer.content (longer.counts 0) :=
    shorter_recut.content_eq rfl rfl
  rcases claimed shorter longer _ _ (by decide) (by decide) (compile_eq rfl) (compile_eq rfl)
    (congrArg Blake3.hash strings) with reports | collision
  · exact shorter_recut.tenant_ne ((reportOf_eq_iff strings).mp reports)
  · rw [content_reportOf, content_reportOf, strings] at collision
    exact not_collisionIn_pair _ _ collision

/-- A tenant with a name as long as the first one. -/
def neighbour : ReportInput := quiet "did:exo:u" .zero .zero "CCPA"

theorem neighbour_bound :
    shorter.report.tenantId ≠ neighbour.report.tenantId ∧
      ((shorter.reportOf Blake3.hash (shorter.counts 0)).reportHash =
          (neighbour.reportOf Blake3.hash (neighbour.counts 0)).reportHash →
        shorter.reportOf Blake3.hash (shorter.counts 0) =
            neighbour.reportOf Blake3.hash (neighbour.counts 0) ∨
          CollisionIn Blake3.hash [(shorter.reportOf Blake3.hash (shorter.counts 0)).content,
            (neighbour.reportOf Blake3.hash (neighbour.counts 0)).content]) := by
  refine ⟨by decide +kernel, ?_⟩
  refine (reports_bound_iff ⟨true⟩ Blake3.hash (compile_eq rfl) (compile_eq rfl)).mpr ?_
  rintro (recut | recut)
  · exact not_recut_of_length (by decide +kernel) recut
  · exact not_recut_of_length (by decide +kernel) recut

end TwoTenants

end Exochain.ExoLegal
