/-
**`exo-gatekeeper` — the human approval of a monitored cycle.**

A gate is decided by signers of the human type, as often as they like: neither call looks at the status.

* `step_eq` — a decision of an agent changes nothing, one of a human sets the status.
* **`status_run`** — after a run of decisions the status is that of the last human one, so a gate is approved
  exactly if the last human decision approved it and pending exactly if there was none.
-/

import Exochain.Foundation.Run
import Exochain.Gatekeeper.CircuitBreaker
import Exochain.Gatekeeper.Mcp

set_option linter.unusedSectionVars false

namespace Exochain.ExoGatekeeper

open Foundation ExoCore

/-! ### The gate -/

/-- The approval status of a cycle. -/
inductive ApprovalStatus where
  | pending
  | approved (approvedBy : Did) (approvedAt : Timestamp)
  | rejected (rejectedBy : Did) (rejectedAt : Timestamp)
  deriving DecidableEq

structure ApprovalGate where
  runId : String
  status : ApprovalStatus
  deriving DecidableEq

namespace ApprovalGate

/-- A new gate. -/
def new (runId : String) : ApprovalGate := ⟨runId, .pending⟩

/-- Approve the gate. -/
def approve (gate : ApprovalGate) (approverDid : Did) (signerType : SignerType) (timestamp : Timestamp) :
    Except GovernanceMonitorError Unit × ApprovalGate :=
  if signerType ≠ .human then (.error .approverNotHuman, gate)
  else (.ok (), { gate with status := .approved approverDid timestamp })

/-- Reject the gate. -/
def reject (gate : ApprovalGate) (rejectorDid : Did) (signerType : SignerType) (timestamp : Timestamp) :
    Except GovernanceMonitorError Unit × ApprovalGate :=
  if signerType ≠ .human then (.error .approverNotHuman, gate)
  else (.ok (), { gate with status := .rejected rejectorDid timestamp })

def isApproved (gate : ApprovalGate) : Bool :=
  match gate.status with
  | .approved _ _ => true
  | _ => false

def isPending (gate : ApprovalGate) : Bool := gate.status = .pending

end ApprovalGate

/-- Whether findings need an approval. -/
def requiresApprovalGate (criticalCount highCount : UInt64) : Bool := 0 < criticalCount ∨ 0 < highCount

/-! ### Runs of decisions -/

/-- A call on a gate. -/
structure GateDecision where
  approves : Bool
  did : Did
  signerType : SignerType
  timestamp : Timestamp
  deriving DecidableEq

namespace GateDecision

/-- The status that a decision sets. -/
def status (decision : GateDecision) : ApprovalStatus :=
  if decision.approves then .approved decision.did decision.timestamp
  else .rejected decision.did decision.timestamp

/-- Whether the signer says that it is human. -/
def byHuman (decision : GateDecision) : Bool := decision.signerType.isHuman

end GateDecision

namespace ApprovalGate

/-- The gate after a call. -/
def step (gate : ApprovalGate) (decision : GateDecision) : ApprovalGate :=
  if decision.approves then (gate.approve decision.did decision.signerType decision.timestamp).2
  else (gate.reject decision.did decision.signerType decision.timestamp).2

variable {gate : ApprovalGate} {decision : GateDecision} {decisions : List GateDecision}

/-- **One decision.** -/
theorem step_eq : gate.step decision =
    if decision.byHuman then { gate with status := decision.status } else gate := by
  unfold step approve reject GateDecision.byHuman GateDecision.status
  cases decision.signerType with
  | human => cases decision.approves <;> rfl
  | ai delegationId => cases decision.approves <;> rfl

/-- **The last human decision stands.** -/
theorem status_run : (run step gate decisions).status =
    (((decisions.filter GateDecision.byHuman).getLast?.map GateDecision.status).getD gate.status) := by
  induction decisions using List.reverseRecOn with
  | nil => rfl
  | append_singleton decisions last ih =>
    rw [run_append, run_cons, run_nil, step_eq, List.filter_append]
    by_cases human : last.byHuman = true
    · rw [if_pos human, List.filter_singleton, human]
      simp
    · rw [if_neg human, ih, List.filter_singleton, Bool.eq_false_iff.mpr human]
      simp

theorem status_ne_pending : decision.status ≠ .pending := by
  unfold GateDecision.status
  split
  · exact fun same => nomatch same
  · exact fun same => nomatch same

/-- A new gate is pending exactly until a human decides. -/
theorem isPending_run_iff (runId : String) (decisions : List GateDecision) :
    (run step (new runId) decisions).isPending = true ↔ ∀ decision ∈ decisions, decision.byHuman = false := by
  unfold isPending
  rw [decide_eq_true_iff, status_run]
  cases last : (decisions.filter GateDecision.byHuman).getLast? with
  | none =>
    refine iff_of_true rfl fun decision member => ?_
    simpa using List.filter_eq_nil_iff.mp (List.getLast?_eq_none_iff.mp last) decision member
  | some decision =>
    have member := List.mem_filter.mp (List.mem_of_getLast? last)
    refine iff_of_false status_ne_pending fun none => ?_
    exact Bool.noConfusion ((none decision member.1).symm.trans member.2)

end ApprovalGate

end Exochain.ExoGatekeeper
