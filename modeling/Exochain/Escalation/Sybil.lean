/-
**`exo-escalation` — Sybil adjudication.**

A detection signal is escalated to a case on one of four paths. A case on the Sybil path is advanced
through seven stages: `advanceSybilStage` notes whatever stage it is given, and resolves the case at the
last one. A separate check lists what a case lacks.

`advanceSybilStage` is described as advancing to the next stage, and does not look at the stages noted so
far. So the order is the callers': a case follows its due process precisely when every call names the
stage that is next (`NextStage`).

* `inOrder_step_iff` — one call keeps the order exactly when it names the next stage.
* `noStageMissing_of_resolved` — a case that is resolved in order has all its stages.
* **`due_process_iff`** — the whole law over every sequence of calls.
-/

import Exochain.Foundation.Run
import Exochain.Core.Types

namespace Exochain.ExoEscalation

open Foundation ExoCore

/-! ### Signals and cases -/

/-- The kinds of signals. -/
inductive SignalType where
  | sybilSuspicion
  | unauthorizedAccess
  | consentViolation
  | invariantBreach
  | anomalousPattern
  | emergencyCondition
  deriving DecidableEq, Repr

/-- A signal of a detector. -/
structure DetectionSignal where
  source : String
  signalType : SignalType
  confidence : UInt8
  evidenceHash : FixedBytes 32
  timestamp : Timestamp
  deriving DecidableEq

/-- The paths a case can take. -/
inductive EscalationPath where
  | standard
  | sybilAdjudication
  | emergency
  | constitutional
  deriving DecidableEq, Repr

/-- The name of a path in texts. -/
def EscalationPath.debug : EscalationPath → String
  | standard => "Standard"
  | sybilAdjudication => "SybilAdjudication"
  | emergency => "Emergency"
  | constitutional => "Constitutional"

/-- The stages of the Sybil path. -/
inductive SybilStage where
  | detection
  | triage
  | quarantine
  | evidentaryReview
  | clearanceDowngrade
  | reinstatement
  | auditLog
  deriving DecidableEq, Repr

/-- The name of a stage, as a case notes it. -/
def SybilStage.display : SybilStage → String
  | detection => "Detection"
  | triage => "Triage"
  | quarantine => "Quarantine"
  | evidentaryReview => "EvidentaryReview"
  | clearanceDowngrade => "ClearanceDowngrade"
  | reinstatement => "Reinstatement"
  | auditLog => "AuditLog"

/-- Where a case stands. -/
inductive CaseStatus where
  | open
  | inProgress
  | pendingReview
  | resolved
  | closed
  deriving DecidableEq, Repr

/-- How urgent a case is. -/
inductive CasePriority where
  | low
  | medium
  | high
  | critical
  deriving DecidableEq, Repr

/-- An escalated case. -/
structure EscalationCase where
  id : Uuid
  path : EscalationPath
  status : CaseStatus
  priority : CasePriority
  stagesCompleted : List String
  evidence : List (FixedBytes 32)
  assignee : Option Did
  created : Timestamp
  deriving DecidableEq

/-- The error of an operation on cases. -/
inductive EscalationError where
  | caseNotFound (caseId : String)
  | invalidStateTransition (source target : String)
  | incompleteCase (reason : String)
  | invalidSignal (reason : String)
  | columnNotFound (column : String)
  deriving DecidableEq, Repr

/-- The text of an error. -/
def EscalationError.display : EscalationError → String
  | .caseNotFound caseId => "case not found: " ++ caseId
  | .invalidStateTransition source target =>
    "invalid state transition: " ++ source ++ " -> " ++ target
  | .incompleteCase reason => "incomplete case: " ++ reason
  | .invalidSignal reason => "invalid signal: " ++ reason
  | .columnNotFound column => "column not found: " ++ column

/-! ### The operations -/

/-- The priority that a confidence stands for. -/
def priorityOf (confidence : UInt8) : CasePriority :=
  if confidence ≤ 30 then .low
  else if confidence ≤ 60 then .medium
  else if confidence ≤ 85 then .high
  else .critical

/-- The stage a case starts with. -/
def EscalationPath.initialStage : EscalationPath → String
  | sybilAdjudication => SybilStage.detection.display
  | emergency => "emergency_activated"
  | constitutional => "constitutional_review"
  | standard => "intake"

/-- Escalate a signal along a path, with the identifier and the time it is given. -/
def escalate (id : Uuid) (now : Timestamp) (signal : DetectionSignal) (path : EscalationPath) :
    EscalationCase where
  id := id
  path := path
  status := .open
  priority := priorityOf signal.confidence
  stagesCompleted := [path.initialStage]
  evidence := [signal.evidenceHash]
  assignee := none
  created := now

/-- Note a stage of a Sybil case; the last one resolves it. -/
def advanceSybilStage (escalation : EscalationCase) (stage : SybilStage) :
    Except EscalationError Unit × EscalationCase :=
  if escalation.path ≠ .sybilAdjudication then
    (.error (.invalidStateTransition escalation.path.debug stage.display), escalation)
  else
    (.ok (),
      { escalation with
        stagesCompleted := escalation.stagesCompleted ++ [stage.display]
        status := if stage = .auditLog then .resolved else .inProgress })

/-- The case after a call. -/
def afterStage (escalation : EscalationCase) (stage : SybilStage) : EscalationCase :=
  (advanceSybilStage escalation stage).2

/-! ### Completeness -/

/-- The stages of the Sybil path, in order. -/
def sybilStages : List SybilStage :=
  [.detection, .triage, .quarantine, .evidentaryReview, .clearanceDowngrade, .reinstatement,
    .auditLog]

/-- The stages a path requires. -/
def EscalationPath.required : EscalationPath → List String
  | sybilAdjudication => sybilStages.map SybilStage.display
  | standard => ["intake"]
  | emergency => ["emergency_activated"]
  | constitutional => ["constitutional_review"]

/-- What a check of a case finds. -/
inductive CompletenessResult where
  | complete
  | incomplete (missing : List String)
  deriving DecidableEq, Repr

/-- What is missing, if anything. -/
def CompletenessResult.missing : CompletenessResult → List String
  | complete => []
  | incomplete missing => missing

/-- What a case lacks: evidence, stages, and an assignee once it is resolved. -/
def missingIn (escalation : EscalationCase) : List String :=
  (if escalation.evidence.isEmpty then ["no evidence collected"] else []) ++
  (escalation.path.required.filter (!escalation.stagesCompleted.contains ·)).map
    ("missing stage: " ++ ·) ++
  (if (escalation.status = .resolved || escalation.status = .closed) && escalation.assignee.isNone
    then ["resolved case has no assignee"] else [])

/-- Check whether a case is complete. -/
def checkCompleteness (escalation : EscalationCase) : CompletenessResult :=
  if (missingIn escalation).isEmpty then .complete else .incomplete (missingIn escalation)

@[simp] theorem missing_checkCompleteness (escalation : EscalationCase) :
    (checkCompleteness escalation).missing = missingIn escalation := by
  unfold checkCompleteness
  by_cases nothing : (missingIn escalation).isEmpty = true
  · rw [if_pos nothing, List.isEmpty_iff.mp nothing]
    rfl
  · rw [if_neg nothing]
    rfl

/-- The check reports no stage of the Sybil path. -/
def NoStageMissing (escalation : EscalationCase) : Prop :=
  ∀ stage ∈ sybilStages,
    "missing stage: " ++ stage.display ∉ (checkCompleteness escalation).missing

/-! ### One call -/

section Stage

variable {escalation : EscalationCase} {stage : SybilStage}

/-- The names of the stages, in order. -/
def dueProcess : List String := sybilStages.map SybilStage.display

/-- The stages noted so far are the first ones, in order. -/
def InOrder (escalation : EscalationCase) : Prop := escalation.stagesCompleted <+: dueProcess

instance : Decidable (InOrder escalation) :=
  inferInstanceAs (Decidable (escalation.stagesCompleted <+: dueProcess))

/-- The call names the stage that follows those noted so far. -/
def NextStage (escalation : EscalationCase) (stage : SybilStage) : Prop :=
  sybilStages[escalation.stagesCompleted.length]? = some stage

instance : Decidable (NextStage escalation stage) :=
  inferInstanceAs (Decidable (sybilStages[escalation.stagesCompleted.length]? = some stage))

theorem display_injective : Function.Injective SybilStage.display := by
  intro first second
  cases first <;> cases second <;> decide

/-- What a call does to a case on the Sybil path. -/
theorem afterStage_eq (sybil : escalation.path = .sybilAdjudication) (stage : SybilStage) :
    afterStage escalation stage =
      { escalation with
        stagesCompleted := escalation.stagesCompleted ++ [stage.display]
        status := if stage = .auditLog then .resolved else .inProgress } := by
  rw [afterStage, advanceSybilStage, if_neg (not_not.mpr sybil)]

theorem path_afterStage (sybil : escalation.path = .sybilAdjudication) (stage : SybilStage) :
    (afterStage escalation stage).path = .sybilAdjudication := by
  rw [afterStage_eq sybil]
  exact sybil

/-- A list that starts another one does so with one more entry if that is the entry that follows. -/
theorem concat_prefix_iff {α : Type*} {xs ys : List α} {x : α} (starts : xs <+: ys) :
    xs ++ [x] <+: ys ↔ ys[xs.length]? = some x := by
  obtain ⟨rest, rfl⟩ := starts
  rw [List.prefix_append_right_inj]
  cases rest with
  | nil => simp
  | cons y rest => simp [eq_comm]

/-- **One call keeps the order exactly when it names the next stage.** -/
theorem inOrder_step_iff (sybil : escalation.path = .sybilAdjudication)
    (ordered : InOrder escalation) :
    InOrder (afterStage escalation stage) ↔ NextStage escalation stage := by
  unfold InOrder NextStage at *
  rw [afterStage_eq sybil]
  show escalation.stagesCompleted ++ [stage.display] <+: dueProcess ↔ _
  rw [concat_prefix_iff ordered, dueProcess, List.getElem?_map, Option.map_eq_some_iff]
  constructor
  · rintro ⟨named, found, same⟩
    rw [found, display_injective same]
  · exact fun found => ⟨stage, found, rfl⟩

/-- The case has followed its due process so far: in order, and resolved at the end only. -/
structure Followed (escalation : EscalationCase) : Prop where
  sybil : escalation.path = .sybilAdjudication
  evidence : escalation.evidence ≠ []
  ordered : InOrder escalation
  finished : escalation.status = .resolved → escalation.stagesCompleted = dueProcess

/-- A call that names the next stage keeps to the process. -/
theorem Followed.step (followed : Followed escalation) (next : NextStage escalation stage) :
    Followed (afterStage escalation stage) := by
  have ordered := (inOrder_step_iff followed.sybil followed.ordered).mpr next
  refine ⟨path_afterStage followed.sybil stage, ?_, ordered, ?_⟩
  · rw [afterStage_eq followed.sybil]
    exact followed.evidence
  · intro resolved
    rw [afterStage_eq followed.sybil] at resolved ordered ⊢
    by_cases last : stage = .auditLog
    · -- the audit log is the seventh stage, so six were noted before
      subst last
      have six : escalation.stagesCompleted.length = 6 := by
        have position : ∀ index, index < 7 → sybilStages[index]? = some .auditLog → index = 6 := by
          decide
        obtain ⟨inside, -⟩ := List.getElem?_eq_some_iff.mp next
        exact position _ inside next
      exact List.IsPrefix.eq_of_length ordered (by simp [six, dueProcess, sybilStages])
    · simp [last] at resolved

/-- A case that is resolved in order has no next stage. -/
theorem Followed.not_nextStage (followed : Followed escalation)
    (resolved : escalation.status = .resolved) : ¬ NextStage escalation stage := by
  rw [NextStage, followed.finished resolved]
  simp [dueProcess, sybilStages]

/-- **A case that is resolved in order has all its stages.** -/
theorem noStageMissing_of_resolved (followed : Followed escalation)
    (resolved : escalation.status = .resolved) : NoStageMissing escalation := by
  intro stage _ reported
  have complete : escalation.path.required.filter (!escalation.stagesCompleted.contains ·) = [] := by
    rw [followed.sybil, followed.finished resolved]
    decide
  rw [missing_checkCompleteness, missingIn, complete] at reported
  simp only [List.isEmpty_iff, followed.evidence, if_false, List.map_nil, List.nil_append] at reported
  have other : "missing stage: " ++ stage.display ≠ "resolved case has no assignee" := by
    cases stage <;> decide
  by_cases unassigned : ((escalation.status = .resolved || escalation.status = .closed) &&
      escalation.assignee.isNone) = true
  · rw [if_pos unassigned, List.mem_singleton] at reported
    exact other reported
  · rw [if_neg unassigned] at reported
    exact absurd reported List.not_mem_nil

end Stage

/-! ### Sequences of calls -/

/-- The due process of a case, over a sequence of calls. -/
structure DueProcess (start : EscalationCase) (stages : List SybilStage) : Prop where
  ordered : Throughout afterStage InOrder start stages
  complete : Throughout afterStage
    (fun escalation => escalation.status = .resolved → NoStageMissing escalation) start stages
  settled : Evolves afterStage
    (fun earlier later => earlier.status = .resolved → later.status ≠ .inProgress) start stages

theorem followed_escalate (id : Uuid) (now : Timestamp) (signal : DetectionSignal) :
    Followed (escalate id now signal .sybilAdjudication) where
  sybil := rfl
  evidence := List.cons_ne_nil _ _
  ordered := ⟨dueProcess.tail, rfl⟩
  finished := fun resolved => nomatch resolved

/-- **A case follows its due process exactly when every call names the next stage.** -/
theorem due_process_iff (id : Uuid) (now : Timestamp) (signal : DetectionSignal)
    (stages : List SybilStage) :
    DueProcess (escalate id now signal .sybilAdjudication) stages ↔
      Along afterStage NextStage (escalate id now signal .sybilAdjudication) stages := by
  have start := followed_escalate id now signal
  have ordered_iff : Throughout afterStage InOrder (escalate id now signal .sybilAdjudication) stages ↔
      Along afterStage NextStage (escalate id now signal .sybilAdjudication) stages :=
    throughout_iff_along (I := fun escalation => escalation.path = .sybilAdjudication)
      (fun _ stage sybil => path_afterStage sybil stage)
      (fun _ _ sybil ordered => inOrder_step_iff sybil ordered) start.sybil start.ordered
  constructor
  · exact fun process => ordered_iff.mp process.ordered
  · intro inTurn
    have followed : Throughout afterStage Followed _ stages :=
      throughout_of_along (fun _ _ followed next => followed.step next) start inTurn
    refine ⟨ordered_iff.mpr inTurn, ?_, ?_⟩
    · exact fun before after split resolved =>
        noStageMissing_of_resolved (followed before after split) resolved
    · -- a resolved case has no next stage, so no call comes after it
      have frozen : Evolves afterStage
          (fun earlier later => earlier.status = .resolved → later = earlier)
          (escalate id now signal .sybilAdjudication) stages := by
        refine (evolves_iff_along (fun _ _ => rfl) ?_).mpr ?_
        · intro first second third same next resolved
          have second_eq := same resolved
          rw [next (second_eq ▸ resolved), second_eq]
        · intro before stage after split resolved
          have here := followed before (stage :: after) split
          exact absurd (inTurn before stage after split) (here.not_nextStage resolved)
      intro before between after split resolved inProgress
      rw [frozen before between after split resolved, resolved] at inProgress
      cases inProgress

namespace Sample

/-- A suspicion with a confidence of 75. -/
def suspicion : DetectionSignal :=
  ⟨"mesh", .sybilSuspicion, 75, FixedBytes.fill 32 1, ⟨1000, 0⟩⟩

/-- The case of the suspicion. -/
def suspected : EscalationCase :=
  escalate (FixedBytes.fill 16 1) ⟨2000, 0⟩ suspicion .sybilAdjudication

/-- A case is resolved by its audit log without a triage, which the check then reports missing, and
goes back into progress when the triage is noted. -/
theorem audited_untriaged :
    ¬ DueProcess suspected [.auditLog, .triage] ∧
      (run afterStage suspected [.auditLog]).status = .resolved ∧
      "missing stage: Triage" ∈ (checkCompleteness (run afterStage suspected [.auditLog])).missing ∧
      (run afterStage suspected [.auditLog, .triage]).status = .inProgress := by
  refine ⟨fun process => ?_, by decide, by decide, by decide⟩
  have ordered := process.ordered [.auditLog] [.triage] rfl
  revert ordered
  decide

end Sample

end Exochain.ExoEscalation
