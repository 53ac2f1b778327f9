/-
**`decision-forum` — the workflow of a decision and its receipts.**

The standard workflow lists the states of a decision from draft to closed, one stage each. Denial, escalation
and remediation are in the table of transitions and not in the workflow.

* `stagesTo`, `stagesTo_step` — which stages a state has behind it since the last submission, in their order;
  one edge of the table keeps that.
* **`workflow_followed`** — whatever detours a transaction took, when it is closed it has entered every later
  stage since its last submission, in the order of the workflow; ten moves close it only along the workflow.
* **`receipt_binds`** — a receipt hash determines the workflow, the decision, the time and the stage.
-/

import Exochain.Core.BctsHistory
import Exochain.Foundation.Merkle
import Exochain.Foundation.Blake3

set_option linter.unusedSectionVars false

namespace Exochain.DecisionForum

open Foundation ExoCore

/-! ### The workflow -/

/-- A stage of a workflow. -/
structure WorkflowStage where
  state : BctsState
  name : String
  description : String
  requiresReceipt : Bool
  deriving DecidableEq

/-- A workflow. -/
structure WorkflowDefinition where
  id : Uuid
  name : String
  stages : List WorkflowStage
  deriving DecidableEq

namespace WorkflowDefinition

/-- The standard governance workflow, under a new identifier. -/
def standardGovernance (id : Uuid) : WorkflowDefinition where
  id := id
  name := "Standard Governance Workflow"
  stages :=
    [⟨.draft, "Draft", "Initial proposal creation", false⟩,
      ⟨.submitted, "Submitted", "Proposal submitted for review", true⟩,
      ⟨.identityResolved, "Identity Resolved", "Actor identities verified", true⟩,
      ⟨.consentValidated, "Consent Validated", "All required consents collected", true⟩,
      ⟨.deliberated, "Deliberated", "Discussion and debate completed", true⟩,
      ⟨.verified, "Verified", "Evidence and authority verified", true⟩,
      ⟨.governed, "Governed", "Constitutional compliance confirmed", true⟩,
      ⟨.approved, "Approved", "Decision approved by quorum", true⟩,
      ⟨.executed, "Executed", "Decision enacted", true⟩,
      ⟨.recorded, "Recorded", "Decision recorded in permanent ledger", true⟩,
      ⟨.closed, "Closed", "Decision lifecycle complete", true⟩]

/-- The stage of a state. -/
def stageFor (workflow : WorkflowDefinition) (state : BctsState) : Option WorkflowStage :=
  workflow.stages.find? (·.state == state)

/-- The stage after that of a state. -/
def nextStage (workflow : WorkflowDefinition) (current : BctsState) : Option WorkflowStage := do
  let position ← workflow.stages.findIdx? (·.state == current)
  workflow.stages[position + 1]?

/-- Whether a state requires a receipt. -/
def requiresReceipt (workflow : WorkflowDefinition) (state : BctsState) : Bool :=
  (workflow.stageFor state).any WorkflowStage.requiresReceipt

/-- The number of stages. -/
def stageCount (workflow : WorkflowDefinition) : ℕ := workflow.stages.length

/-- The states that the workflow moves to, one after the other. -/
def moves (workflow : WorkflowDefinition) : List BctsState := workflow.stages.tail.map WorkflowStage.state

end WorkflowDefinition

open WorkflowDefinition (standardGovernance)

/-! ### The stages behind a state -/

/-- The stages entered since the last submission, for the states that have one behind them. From an escalation
a transaction goes on with the deliberation. -/
def stagesTo : BctsState → Option (List BctsState)
  | .draft => none
  | .denied => none
  | .remediated => none
  | .submitted => some []
  | .identityResolved => some [.identityResolved]
  | .consentValidated => some [.identityResolved, .consentValidated]
  | .deliberated => some [.identityResolved, .consentValidated, .deliberated]
  | .escalated => some [.identityResolved, .consentValidated, .deliberated]
  | .verified => some [.identityResolved, .consentValidated, .deliberated, .verified]
  | .governed => some [.identityResolved, .consentValidated, .deliberated, .verified, .governed]
  | .approved =>
    some [.identityResolved, .consentValidated, .deliberated, .verified, .governed, .approved]
  | .executed =>
    some [.identityResolved, .consentValidated, .deliberated, .verified, .governed, .approved, .executed]
  | .recorded =>
    some [.identityResolved, .consentValidated, .deliberated, .verified, .governed, .approved, .executed,
      .recorded]
  | .closed =>
    some [.identityResolved, .consentValidated, .deliberated, .verified, .governed, .approved, .executed,
      .recorded, .closed]

/-- **One edge of the table**: the stages behind its target are behind its source, the target itself apart. -/
theorem stagesTo_step {source target : BctsState} (allowed : BctsState.Allowed source target)
    (other : target ≠ .submitted) {stages : List BctsState} (behind : stagesTo target = some stages) :
    ∃ earlier, stagesTo source = some earlier ∧ stages.Sublist (earlier ++ [target]) := by
  have member : target ∈ source.validTransitions := by
    simpa [BctsState.Allowed, BctsState.canTransitionTo] using allowed
  cases source <;> simp only [BctsState.validTransitions, List.mem_cons, List.not_mem_nil, or_false] at member
  all_goals
    rcases member with rfl | rfl | rfl <;> cases behind
  all_goals
    first
    | exact absurd rfl other
    | exact ⟨_, rfl, by decide⟩

/-- **A walk has them behind it, since the last submission and in their order.** -/
theorem walk_stagesTo {states stages : List BctsState} (walk : BctsState.Walk .draft states)
    (behind : stagesTo (handedOn id .draft states) = some stages) :
    ∃ earlier since, states = earlier ++ .submitted :: since ∧ .submitted ∉ since ∧
      stages.Sublist since := by
  induction states using List.reverseRecOn generalizing stages with
  | nil => cases behind
  | append_singleton states last ih =>
    rw [handedOn_concat, id_eq] at behind
    obtain ⟨walk, allowed⟩ := threaded_concat_iff.mp walk
    by_cases again : last = .submitted
    · subst again
      cases behind
      exact ⟨states, [], rfl, List.not_mem_nil, .refl _⟩
    · obtain ⟨before, behindSource, covered⟩ := stagesTo_step allowed again behind
      obtain ⟨earlier, since, rfl, notSince, kept⟩ := ih walk behindSource
      refine ⟨earlier, since ++ [last], by simp, ?_, covered.trans (kept.append (.refl _))⟩
      rw [List.mem_append, List.mem_singleton]
      rintro (old | same)
      · exact notSince old
      · exact again same.symm

/-- A closed walk has entered every later stage since its last submission. -/
theorem walk_closed (workflowId : Uuid) {states : List BctsState} (walk : BctsState.Walk .draft states)
    (isClosed : .closed ∈ states) :
    ∃ earlier since, states = earlier ++ .submitted :: since ∧ .submitted ∉ since ∧
      (standardGovernance workflowId).moves.Sublist (.submitted :: since) := by
  have last := walk.closed_last isClosed
  obtain ⟨earlier, since, split, notSince, entered⟩ :=
    walk_stagesTo walk (by rw [last]; exact rfl)
  exact ⟨earlier, since, split, notSince, entered.cons_cons _⟩

/-- **The workflow is followed.** In every run of attempts on a new transaction: if it is closed, then since its
last submission it entered every later stage of the workflow, in the order of the workflow; it took ten moves
at least, and exactly ten only if they are those of the workflow. -/
theorem workflow_followed (cbor : Cbor ReceiptInput) (blake3 : Blake3) (correlationId : CorrelationId)
    (workflowId : Uuid) (attempts : List Attempt)
    (isClosed : (run (Transaction.attempted cbor blake3) (.new correlationId) attempts).currentState =
      .closed) :
    let history := (Transaction.new correlationId).entered cbor blake3 attempts
    let moves := (standardGovernance workflowId).moves
    (∃ earlier since, history = earlier ++ .submitted :: since ∧ .submitted ∉ since ∧
      moves.Sublist (.submitted :: since)) ∧
    moves.length ≤ history.length ∧ (history.length = moves.length ↔ history = moves) := by
  intro history moves
  have walk : BctsState.Walk .draft history :=
    Transaction.walk_entered cbor blake3 (.new correlationId) attempts
  have last : handedOn id .draft history = .closed :=
    (Transaction.handedOn_entered cbor blake3 (.new correlationId) attempts).trans isClosed
  have entered : .closed ∈ history := by
    obtain ⟨earlier, state, split, same⟩ := exists_concat_of_handedOn_ne (by rw [last]; decide)
    rw [split, ← last, ← same]
    exact List.mem_append_right _ (List.mem_singleton_self _)
  obtain ⟨earlier, since, split, notSince, followed⟩ := walk_closed workflowId walk entered
  have within : moves.Sublist history := by
    rw [split]
    exact followed.trans (List.sublist_append_right _ _)
  refine ⟨⟨earlier, since, split, notSince, followed⟩, within.length_le, fun lengths => ?_, fun same => ?_⟩
  · exact (within.eq_of_length lengths.symm).symm
  · rw [same]

/-- Each stage leads to the next one by an edge of the table. -/
theorem allowed_nextStage {workflowId : Uuid} {state : BctsState} {next : WorkflowStage}
    (found : (standardGovernance workflowId).nextStage state = some next) :
    BctsState.Allowed state next.state := by
  cases state <;> cases found <;> decide

/-- Where the serializer does not fail, ten attempts along the workflow are all accepted. -/
theorem entered_moves {cbor : Cbor ReceiptInput} {blake3 : Blake3}
    (total : ∀ input, ∃ bytes, cbor input = .ok bytes) (correlationId : CorrelationId) (workflowId : Uuid)
    (actor : Did) (clock : HybridClock) (wall : UInt64) :
    (Transaction.new correlationId).entered cbor blake3
        ((standardGovernance workflowId).moves.map fun state => ⟨state, actor, clock, wall⟩) =
      (standardGovernance workflowId).moves := by
  have walk : BctsState.Walk .draft [.submitted, .identityResolved, .consentValidated, .deliberated,
      .verified, .governed, .approved, .executed, .recorded, .closed] := by decide
  exact Transaction.entered_of_walk total actor clock wall walk

/-! ### Receipts -/

/-- A receipt for a stage. -/
structure WorkflowReceipt where
  workflowId : Uuid
  stage : BctsState
  decisionId : Uuid
  timestamp : Timestamp
  receiptHash : Hash256
  deriving DecidableEq

/-- The string that a receipt hash is of. -/
def receiptPreimage (workflowId : Uuid) (stage : BctsState) (decisionId : Uuid) (timestamp : Timestamp) :
    List UInt8 :=
  workflowId.toList ++ decisionId.toList ++ leBytes 8 timestamp.physicalMs.toNat ++
    leBytes 8 timestamp.logical.toNat ++ textBytes stage.display

/-- Generate a receipt for a stage. -/
def generateReceipt (blake3 : Blake3) (workflowId : Uuid) (stage : BctsState) (decisionId : Uuid)
    (timestamp : Timestamp) : WorkflowReceipt where
  workflowId := workflowId
  stage := stage
  decisionId := decisionId
  timestamp := timestamp
  receiptHash := blake3 (receiptPreimage workflowId stage decisionId timestamp)

/-- The name of a state determines it. -/
theorem display_injective : Function.Injective BctsState.display := by
  intro state state' same
  cases state <;> cases state' <;> first | rfl | exact absurd same (by decide)

/-- **A receipt hash determines the receipt.** -/
theorem receipt_binds (blake3 : Blake3) {workflowId workflowId' : Uuid} {stage stage' : BctsState}
    {decisionId decisionId' : Uuid} {timestamp timestamp' : Timestamp}
    (free : ¬ CollisionIn blake3 [receiptPreimage workflowId stage decisionId timestamp,
      receiptPreimage workflowId' stage' decisionId' timestamp'])
    (same : (generateReceipt blake3 workflowId stage decisionId timestamp).receiptHash =
      (generateReceipt blake3 workflowId' stage' decisionId' timestamp').receiptHash) :
    generateReceipt blake3 workflowId stage decisionId timestamp =
      generateReceipt blake3 workflowId' stage' decisionId' timestamp' := by
  have preimages := eq_of_hash_eq free (by simp) (by simp) same
  simp only [receiptPreimage, List.append_assoc] at preimages
  have widths (id id' : Uuid) : id.toList.length = id'.toList.length :=
    id.length_eq.trans id'.length_eq.symm
  obtain ⟨workflows, rest⟩ := List.append_inj preimages (widths _ _)
  obtain ⟨decisions, rest⟩ := List.append_inj rest (widths _ _)
  obtain ⟨physicals, rest⟩ := List.append_inj rest (by simp)
  obtain ⟨logicals, stages⟩ := List.append_inj rest (by simp)
  have physical := leBytes_injective timestamp.physicalMs.toNat_lt timestamp'.physicalMs.toNat_lt physicals
  have logical := leBytes_injective (by have := timestamp.logical.toNat_lt; omega)
    (by have := timestamp'.logical.toNat_lt; omega) logicals
  have times : timestamp = timestamp' :=
    Timestamp.ext (UInt64.toNat_inj.mp physical) (UInt32.toNat_inj.mp logical)
  rw [FixedBytes.ext workflows, FixedBytes.ext decisions, times,
    display_injective (textBytes_injective stages)]

/-! ### Ten moves -/

namespace TenMoves

/-- The writer of the receipts does not matter here. -/
def cbor : Cbor ReceiptInput := fun _ => .ok []

/-- Ten attempts, all at once. -/
def attempts : List Attempt :=
  (standardGovernance (FixedBytes.fill 16 7)).moves.map fun state => ⟨state, ⟨"did:exo:chair"⟩, .new, 1000⟩

theorem workflow_followed_closed :
    let history := (Transaction.new ⟨FixedBytes.fill 16 1⟩).entered cbor Blake3.hash attempts
    let moves := (standardGovernance (FixedBytes.fill 16 7)).moves
    (∃ earlier since, history = earlier ++ .submitted :: since ∧ .submitted ∉ since ∧
      moves.Sublist (.submitted :: since)) ∧
    moves.length ≤ history.length ∧ (history.length = moves.length ↔ history = moves) := by
  refine workflow_followed cbor Blake3.hash ⟨FixedBytes.fill 16 1⟩ (FixedBytes.fill 16 7) attempts ?_
  have total : ∀ input, ∃ bytes, cbor input = .ok bytes := fun _ => ⟨[], rfl⟩
  rw [← Transaction.handedOn_entered, attempts, entered_moves total]
  rfl

end TenMoves

end Exochain.DecisionForum
