/-
**`decision-forum` — accountability actions.**

An action is proposed, may go through due process, is enacted and may be reversed. Due process is no condition
of enactment, for no type of action, and its deadline stops nothing. Only a suspension is held to a time: it has
to be enacted within a minute of its proposal, where a clock that went back counts as no time at all.

* `History` — the six courses an action can take, with the calls that are accepted on each.
* `history_iff` — these are exactly the call sequences that are accepted from a proposal.
* **`accountability_history`** — every run of calls on a proposed action takes one of these courses, and due
  process counts as expired exactly after its begin alone, past the deadline.
-/

import Exochain.Foundation.Attempts
import Exochain.Forum.DecisionObject

set_option linter.unusedSectionVars false

namespace Exochain.DecisionForum

open Foundation ExoCore

/-! ### Actions -/

/-- The type of an accountability action. -/
inductive AccountabilityActionType where
  | censure
  | suspension
  | revocation
  | recall
  deriving DecidableEq, Repr

/-- Where an action stands. -/
inductive AccountabilityStatus where
  | proposed
  | dueProcess
  | enacted
  | reversed
  deriving DecidableEq, Repr

/-- The name of a status in texts. -/
def AccountabilityStatus.debug : AccountabilityStatus → String
  | proposed => "Proposed"
  | dueProcess => "DueProcess"
  | enacted => "Enacted"
  | reversed => "Reversed"

/-- An action against an actor. -/
structure AccountabilityAction where
  id : Uuid
  actionType : AccountabilityActionType
  targetDid : Did
  proposerDid : Did
  reason : String
  evidenceHash : Hash256
  status : AccountabilityStatus
  decisionId : Option Uuid
  proposedAt : Timestamp
  enactedAt : Option Timestamp
  dueProcessDeadline : Timestamp
  deriving DecidableEq

/-- A minute, in milliseconds. -/
def suspensionEnactLimitMs : UInt64 := 60000

/-- Seven days, in milliseconds. -/
def dueProcessWindowMs : UInt64 := 7 * 24 * 60 * 60 * 1000

namespace AccountabilityAction

/-- Propose an action, with the identifier it is given. -/
def propose (id : Uuid) (actionType : AccountabilityActionType) (target proposer : Did) (reason : String)
    (evidenceHash : Hash256) (timestamp : Timestamp) : AccountabilityAction where
  id
  actionType
  targetDid := target
  proposerDid := proposer
  reason
  evidenceHash
  status := .proposed
  decisionId := none
  proposedAt := timestamp
  enactedAt := none
  dueProcessDeadline :=
    ⟨UInt64.ofNat (saturatingAdd 64 timestamp.physicalMs.toNat dueProcessWindowMs.toNat), 0⟩

/-- Move an action into due process. -/
def beginDueProcess (action : AccountabilityAction) : Except ForumError AccountabilityAction :=
  if action.status ≠ .proposed then
    .error (.accountabilityFailed ("cannot begin due process from " ++ action.status.debug))
  else .ok { action with status := .dueProcess }

/-- The milliseconds since the proposal. -/
def elapsedMs (action : AccountabilityAction) (timestamp : Timestamp) : UInt64 :=
  saturatingSub timestamp.physicalMs action.proposedAt.physicalMs

/-- Enact an action. -/
def enact (action : AccountabilityAction) (decisionId : Uuid) (timestamp : Timestamp) :
    Except ForumError AccountabilityAction :=
  match action.status with
  | .proposed | .dueProcess =>
    if action.actionType = .suspension ∧ suspensionEnactLimitMs < action.elapsedMs timestamp then
      .error (.accountabilityFailed ("suspension enactment exceeded 60s limit: " ++
        toString (action.elapsedMs timestamp) ++ "ms elapsed"))
    else
      .ok { action with status := .enacted, decisionId := some decisionId, enactedAt := some timestamp }
  | .enacted | .reversed =>
    .error (.accountabilityFailed ("cannot enact from " ++ action.status.debug))

/-- Reverse an enacted action. -/
def reverse (action : AccountabilityAction) : Except ForumError AccountabilityAction :=
  if action.status ≠ .enacted then .error (.accountabilityFailed "can only reverse enacted actions")
  else .ok { action with status := .reversed }

/-- Whether the deadline of due process has passed. -/
def isDueProcessExpired (action : AccountabilityAction) (now : Timestamp) : Bool :=
  decide (action.status = .dueProcess) && decide (action.dueProcessDeadline < now)

/-! ### Calls -/

/-- A call that may change an action. -/
inductive Call where
  | beginDueProcess
  | enact (decisionId : Uuid) (timestamp : Timestamp)
  | reverse
  deriving DecidableEq

/-- The answer of a call. -/
def call (action : AccountabilityAction) : Call → Except ForumError AccountabilityAction
  | .beginDueProcess => action.beginDueProcess
  | .enact decisionId timestamp => action.enact decisionId timestamp
  | .reverse => action.reverse

/-- The action after an accepted call. -/
def attempt (action : AccountabilityAction) (called : Call) : Option AccountabilityAction :=
  (action.call called).toOption

/-- A suspension is enacted within a minute of its proposal. -/
def Prompt (action : AccountabilityAction) (timestamp : Timestamp) : Prop :=
  action.actionType = .suspension → action.elapsedMs timestamp ≤ suspensionEnactLimitMs

/-- The action as it is enacted. -/
def enactedBy (action : AccountabilityAction) (decisionId : Uuid) (timestamp : Timestamp) :
    AccountabilityAction :=
  { action with status := .enacted, decisionId := some decisionId, enactedAt := some timestamp }

variable {action after : AccountabilityAction}

theorem attempt_begin_eq_some_iff :
    action.attempt .beginDueProcess = some after ↔
      action.status = .proposed ∧ { action with status := .dueProcess } = after := by
  show action.beginDueProcess.toOption = some after ↔ _
  unfold beginDueProcess
  by_cases here : action.status = .proposed
  · simp [here, Except.toOption]
  · simp [here, Except.toOption]

theorem attempt_enact_eq_some_iff {decisionId : Uuid} {timestamp : Timestamp} :
    action.attempt (.enact decisionId timestamp) = some after ↔
      (action.status = .proposed ∨ action.status = .dueProcess) ∧ action.Prompt timestamp ∧
        action.enactedBy decisionId timestamp = after := by
  show (action.enact decisionId timestamp).toOption = some after ↔ _
  unfold enact Prompt enactedBy
  cases here : action.status with
  | proposed | dueProcess =>
    dsimp only
    by_cases late : action.actionType = .suspension ∧ suspensionEnactLimitMs < action.elapsedMs timestamp
    · rw [if_pos late]
      simp only [Except.toOption, reduceCtorEq, false_iff]
      rintro ⟨-, prompt, -⟩
      exact absurd (prompt late.1) (not_le.mpr late.2)
    · rw [if_neg late]
      have prompt : action.actionType = .suspension →
          action.elapsedMs timestamp ≤ suspensionEnactLimitMs :=
        fun suspension => not_lt.mp fun slow => late ⟨suspension, slow⟩
      rw [and_iff_right (by simp), and_iff_right prompt]
      simp [Except.toOption]
  | enacted | reversed => simp [Except.toOption]

theorem attempt_reverse_eq_some_iff :
    action.attempt .reverse = some after ↔
      action.status = .enacted ∧ { action with status := .reversed } = after := by
  show action.reverse.toOption = some after ↔ _
  unfold reverse
  by_cases here : action.status = .enacted
  · simp [here, Except.toOption]
  · simp [here, Except.toOption]

/-! ### Courses -/

/-- The calls of due process, held or left out. -/
def hearing (heard : Bool) : List Call := if heard then [.beginDueProcess] else []

/-- **The courses an action can take**: the calls accepted so far, and the action after them. -/
inductive History (action : AccountabilityAction) : List Call → AccountabilityAction → Prop
  | proposed : History action [] action
  | dueProcess : History action [.beginDueProcess] { action with status := .dueProcess }
  | enacted (heard : Bool) (decisionId : Uuid) (timestamp : Timestamp) (prompt : action.Prompt timestamp) :
    History action (hearing heard ++ [.enact decisionId timestamp]) (action.enactedBy decisionId timestamp)
  | reversed (heard : Bool) (decisionId : Uuid) (timestamp : Timestamp) (prompt : action.Prompt timestamp) :
    History action (hearing heard ++ [.enact decisionId timestamp, .reverse])
      { action.enactedBy decisionId timestamp with status := .reversed }

/-- **One more accepted call** continues the course. -/
theorem History.concat {before : List Call} {current : AccountabilityAction} {called : Call}
    (fresh : action.status = .proposed) (history : History action before current)
    (done : current.attempt called = some after) : History action (before ++ [called]) after := by
  cases history with
  | proposed =>
    cases called with
    | beginDueProcess =>
      obtain ⟨-, rfl⟩ := attempt_begin_eq_some_iff.mp done
      exact .dueProcess
    | enact decisionId timestamp =>
      obtain ⟨-, prompt, rfl⟩ := attempt_enact_eq_some_iff.mp done
      exact .enacted false decisionId timestamp prompt
    | reverse =>
      obtain ⟨here, -⟩ := attempt_reverse_eq_some_iff.mp done
      exact nomatch fresh.symm.trans here
  | dueProcess =>
    cases called with
    | beginDueProcess =>
      obtain ⟨here, -⟩ := attempt_begin_eq_some_iff.mp done
      exact nomatch here
    | enact decisionId timestamp =>
      obtain ⟨-, prompt, rfl⟩ := attempt_enact_eq_some_iff.mp done
      exact .enacted true decisionId timestamp prompt
    | reverse =>
      obtain ⟨here, -⟩ := attempt_reverse_eq_some_iff.mp done
      exact nomatch here
  | enacted heard decisionId timestamp prompt =>
    cases called with
    | beginDueProcess =>
      obtain ⟨here, -⟩ := attempt_begin_eq_some_iff.mp done
      exact nomatch here
    | enact =>
      obtain ⟨here, -⟩ := attempt_enact_eq_some_iff.mp done
      exact here.elim (fun here => nomatch here) fun here => nomatch here
    | reverse =>
      obtain ⟨-, rfl⟩ := attempt_reverse_eq_some_iff.mp done
      rw [List.append_assoc]
      exact .reversed heard decisionId timestamp prompt
  | reversed heard decisionId timestamp prompt =>
    cases called with
    | beginDueProcess =>
      obtain ⟨here, -⟩ := attempt_begin_eq_some_iff.mp done
      exact nomatch here
    | enact =>
      obtain ⟨here, -⟩ := attempt_enact_eq_some_iff.mp done
      exact here.elim (fun here => nomatch here) fun here => nomatch here
    | reverse =>
      obtain ⟨here, -⟩ := attempt_reverse_eq_some_iff.mp done
      exact nomatch here

/-- An enactment is accepted, with or without a hearing before it. -/
theorem enactment (fresh : action.status = .proposed) (heard : Bool) (decisionId : Uuid)
    {timestamp : Timestamp} (prompt : action.Prompt timestamp) (rest : List Call) :
    (Admitted attempt (action.enactedBy decisionId timestamp) rest →
      Admitted attempt action (hearing heard ++ .enact decisionId timestamp :: rest)) ∧
    run (attempted attempt) action (hearing heard ++ .enact decisionId timestamp :: rest) =
      run (attempted attempt) (action.enactedBy decisionId timestamp) rest := by
  cases heard with
  | false =>
    have done : action.attempt (.enact decisionId timestamp) = some (action.enactedBy decisionId timestamp) :=
      attempt_enact_eq_some_iff.mpr ⟨.inl fresh, prompt, rfl⟩
    refine ⟨fun later => ⟨_, done, later⟩, ?_⟩
    rw [hearing, if_neg Bool.false_ne_true, List.nil_append, run_cons, attempted_of_some done]
  | true =>
    have begun : action.attempt .beginDueProcess = some { action with status := .dueProcess } :=
      attempt_begin_eq_some_iff.mpr ⟨fresh, rfl⟩
    have done : attempt { action with status := .dueProcess } (.enact decisionId timestamp) =
        some (action.enactedBy decisionId timestamp) :=
      attempt_enact_eq_some_iff.mpr ⟨.inr rfl, prompt, rfl⟩
    refine ⟨fun later => ⟨_, begun, _, done, later⟩, ?_⟩
    rw [hearing, if_pos rfl, List.cons_append, List.nil_append, run_cons, run_cons,
      attempted_of_some begun, attempted_of_some done]

/-- The courses are accepted, and lead where they say. -/
theorem History.realized (fresh : action.status = .proposed) {calls : List Call}
    (history : History action calls after) :
    Admitted attempt action calls ∧ run (attempted attempt) action calls = after := by
  cases history with
  | proposed => exact ⟨trivial, rfl⟩
  | dueProcess =>
    have begun : action.attempt .beginDueProcess = some { action with status := .dueProcess } :=
      attempt_begin_eq_some_iff.mpr ⟨fresh, rfl⟩
    exact ⟨⟨_, begun, trivial⟩, attempted_of_some begun⟩
  | enacted heard decisionId timestamp prompt =>
    obtain ⟨admitted, leads⟩ := enactment fresh heard decisionId prompt []
    exact ⟨admitted trivial, leads⟩
  | reversed heard decisionId timestamp prompt =>
    have undone : (action.enactedBy decisionId timestamp).attempt .reverse =
        some { action.enactedBy decisionId timestamp with status := .reversed } :=
      attempt_reverse_eq_some_iff.mpr ⟨rfl, rfl⟩
    obtain ⟨admitted, leads⟩ := enactment fresh heard decisionId prompt [.reverse]
    exact ⟨admitted ⟨_, undone, trivial⟩, leads.trans (attempted_of_some undone)⟩

/-- Every run on a proposed action takes one of the courses. -/
theorem history_of_run (fresh : action.status = .proposed) (calls : List Call) :
    History action (accepted attempt action calls) (run (attempted attempt) action calls) :=
  history_run .proposed (fun _ _ _ _ history done => history.concat fresh done) calls

/-- **The accepted call sequences are the courses**, and they lead where the courses say. -/
theorem history_iff (fresh : action.status = .proposed) {course : List Call} :
    History action course after ↔
      Admitted attempt action course ∧ run (attempted attempt) action course = after := by
  constructor
  · exact fun history => history.realized fresh
  · rintro ⟨all, rfl⟩
    have history := history_of_run fresh course
    rwa [accepted_of_admitted all] at history

/-- Due process has expired if the action is in it and the deadline has passed. -/
theorem History.expired_iff (fresh : action.status = .proposed) {calls : List Call}
    (history : History action calls after) {now : Timestamp} :
    after.isDueProcessExpired now = true ↔
      calls = [.beginDueProcess] ∧ action.dueProcessDeadline < now := by
  unfold isDueProcessExpired
  rw [Bool.and_eq_true, decide_eq_true_iff, decide_eq_true_iff]
  cases history with
  | proposed => simp [fresh]
  | dueProcess => simp
  | enacted heard => cases heard <;> simp [enactedBy, hearing]
  | reversed heard => cases heard <;> simp [enactedBy, hearing]

/-- **The history of an accountability action.** Whatever calls are made on a proposed action, the accepted ones
are one of six courses: none, due process, enactment with or without due process before it, and reversal after
that. They leave the action as it is proposed but for its status and the decision and time of its enactment; a
suspension is enacted within a minute of its proposal. Every course is accepted from every proposal, and due
process has expired exactly if it was begun, nothing came after it, and its deadline has passed. -/
theorem accountability_history (id : Uuid) (actionType : AccountabilityActionType) (target proposer : Did)
    (reason : String) (evidenceHash : Hash256) (timestamp : Timestamp) (calls : List Call) :
    let action := propose id actionType target proposer reason evidenceHash timestamp
    let after := run (attempted attempt) action calls
    History action (accepted attempt action calls) after ∧
      (∀ course last, History action course last ↔
        Admitted attempt action course ∧ run (attempted attempt) action course = last) ∧
      ∀ now, after.isDueProcessExpired now = true ↔
        accepted attempt action calls = [.beginDueProcess] ∧ action.dueProcessDeadline < now := by
  intro action after
  have history := history_of_run (show action.status = .proposed from rfl) calls
  exact ⟨history, fun course last => history_iff rfl, fun now => history.expired_iff rfl⟩

end AccountabilityAction

end Exochain.DecisionForum
