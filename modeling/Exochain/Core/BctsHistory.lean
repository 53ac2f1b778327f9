/-
**What a transaction must have gone through.**

A history is the list of the states that a run of attempts enters. It is a walk through the table of
successors, and nothing more is needed to bound it:

* the only way into `executed` is the pipeline from `deliberated` on, by the unique predecessors of
  its states (`Walk.preceded`);
* `gatesSince` says for each state which gates must have been entered since the last submission.
  One edge of the table preserves it (`gatesSince_step`), so a walk does (`Walk.submitted_with`).

`execution_gated` is the result for the transaction, for every run with its denials, escalations and
resubmissions. `entered_of_walk` is the converse of `walk_entered`: with a serializer that does not
fail, every walk is the history of some run.
-/

import Exochain.Core.Bcts

set_option linter.unusedSectionVars false

namespace Exochain.ExoCore

open Foundation

/-! ### Walks -/

namespace BctsState

/-- An edge of the table. -/
def Allowed (state target : BctsState) : Prop := state.canTransitionTo target = true

instance (state target : BctsState) : Decidable (Allowed state target) :=
  inferInstanceAs (Decidable (_ = true))

/-- A sequence of states that can be entered one after the other from `start`. -/
abbrev Walk (start : BctsState) (states : List BctsState) : Prop := Threaded Allowed id start states

instance decidableWalk : ∀ (start : BctsState) (states : List BctsState), Decidable (Walk start states)
  | _, [] => .isTrue trivial
  | start, state :: states =>
    have : Decidable (Walk state states) := decidableWalk state states
    inferInstanceAs (Decidable (Allowed start state ∧ Walk state states))

/-- The gates that must have been entered since the last submission, for the states that are only
reached after one. -/
def gatesSince : BctsState → Option (List BctsState)
  | draft => none
  | denied => none
  | remediated => none
  | submitted => some []
  | identityResolved => some [identityResolved]
  | _ => some [identityResolved, consentValidated]

/-- An edge into a state with gates comes from a state with all of them but the state itself. -/
theorem gatesSince_step {source target : BctsState} (allowed : Allowed source target)
    (other : target ≠ submitted) {gates : List BctsState} (needs : target.gatesSince = some gates) :
    ∃ earlier, source.gatesSince = some earlier ∧ ∀ gate ∈ gates, gate = target ∨ gate ∈ earlier := by
  have member : target ∈ source.validTransitions := by
    simpa [Allowed, canTransitionTo] using allowed
  -- one case for each edge; what is left is to compare two constant lists
  cases source <;> simp only [validTransitions, List.mem_cons, List.not_mem_nil, or_false] at member
  all_goals
    rcases member with rfl | rfl | rfl <;> cases needs <;> simp_all [gatesSince]

/-- **Since the last submission every gate of the state reached was entered.** -/
theorem Walk.submitted_with {states gates : List BctsState} (walk : Walk draft states)
    (needs : (handedOn id draft states).gatesSince = some gates) :
    ∃ earlier since, states = earlier ++ submitted :: since ∧ submitted ∉ since ∧
      ∀ gate ∈ gates, gate ∈ since := by
  -- from the end of the walk: the last edge gives the gates before it
  induction states using List.reverseRecOn generalizing gates with
  | nil => cases needs
  | append_singleton states last ih =>
    rw [handedOn_concat, id_eq] at needs
    obtain ⟨walk, allowed⟩ := threaded_concat_iff.mp walk
    by_cases again : last = submitted
    · subst again
      cases needs
      exact ⟨states, [], rfl, List.not_mem_nil, fun _ member => absurd member List.not_mem_nil⟩
    · obtain ⟨before, needsBefore, covered⟩ := gatesSince_step allowed again needs
      obtain ⟨earlier, since, rfl, notSince, entered⟩ := ih walk needsBefore
      refine ⟨earlier, since ++ [last], by simp, ?_, fun gate member => ?_⟩
      · rw [List.mem_append, List.mem_singleton]
        rintro (old | same)
        · exact notSince old
        · exact again same.symm
      · rw [List.mem_append, List.mem_singleton]
        rcases covered gate member with same | old
        · exact .inr same
        · exact .inl (entered gate old)

theorem Walk.take {start : BctsState} {first second : List BctsState}
    (walk : Walk start (first ++ second)) : Walk start first := (threaded_append_iff.mp walk).1

/-- The only predecessor of each later state of the pipeline. -/
def onlySource : BctsState → Option BctsState
  | verified => some deliberated
  | governed => some verified
  | approved => some governed
  | executed => some approved
  | _ => none

theorem eq_of_onlySource {state source target : BctsState} (only : target.onlySource = some source)
    (allowed : Allowed state target) : state = source := by
  cases target <;> cases only <;> revert allowed <;> cases state <;> decide

/-- A state with one predecessor is entered from there. -/
theorem Walk.preceded {states : List BctsState} {last source : BctsState}
    (walk : Walk draft (states ++ [last])) (only : last.onlySource = some source)
    (moved : source ≠ draft) : ∃ earlier, states = earlier ++ [source] := by
  obtain ⟨_, allowed⟩ := threaded_concat_iff.mp walk
  have reached := eq_of_onlySource only allowed
  obtain ⟨earlier, state, split, same⟩ :=
    exists_concat_of_handedOn_ne (by rw [reached]; exact moved)
  rw [reached] at same
  exact ⟨earlier, by rw [split, ← same]; rfl⟩

/-- Each time `executed` is entered, the pipeline was just walked and both gates were passed since
the last submission. -/
def ExecutionGated (history : List BctsState) : Prop :=
  ∀ before after, history = before ++ executed :: after →
    (∃ earlier, before = earlier ++ [deliberated, verified, governed, approved]) ∧
    ∃ earlier since, before = earlier ++ submitted :: since ∧ submitted ∉ since ∧
      identityResolved ∈ since ∧ consentValidated ∈ since

/-- **Every walk from the draft state is gated.** -/
theorem Walk.executionGated {states : List BctsState} (walk : Walk draft states) :
    ExecutionGated (draft :: states) := by
  intro before after split
  cases before with
  | nil => cases split
  | cons first before =>
    rw [List.cons_append, List.cons.injEq] at split
    obtain ⟨rfl, rfl⟩ := split
    rw [List.append_cons] at walk
    have whole := walk.take
    obtain ⟨toApproved, rfl⟩ := whole.preceded rfl (by decide)
    obtain ⟨toGoverned, rfl⟩ := whole.take.preceded rfl (by decide)
    obtain ⟨toVerified, rfl⟩ := whole.take.take.preceded rfl (by decide)
    obtain ⟨toDeliberated, rfl⟩ := whole.take.take.take.preceded rfl (by decide)
    refine ⟨⟨draft :: toDeliberated, by simp⟩, ?_⟩
    obtain ⟨earlier, since, same, notSince, gates⟩ := whole.take.submitted_with (by
      rw [handedOn_concat]
      rfl)
    refine ⟨draft :: earlier, since, by rw [same, List.cons_append], notSince, ?_, ?_⟩
    · exact gates identityResolved (by decide)
    · exact gates consentValidated (by decide)

/-- Nothing is entered after `closed`. -/
theorem Walk.closed_last {start : BctsState} {states : List BctsState} (walk : Walk start states)
    (member : closed ∈ states) : handedOn id start states = closed := by
  obtain ⟨before, after, rfl⟩ := List.append_of_mem member
  obtain ⟨-, -, walk⟩ := threaded_append_iff.mp walk
  cases after with
  | nil => exact handedOn_concat _ _ _
  | cons next after => exact absurd walk.1 (by cases next <;> decide)

end BctsState

namespace Transaction

/-! ### Histories -/

section Histories

variable (cbor : Cbor ReceiptInput) (blake3 : Blake3)

/-- The states that a sequence of attempts enters, in order. -/
def entered (transaction : Transaction) : List Attempt → List BctsState
  | [] => []
  | attempt :: rest =>
    let after := transaction.attempted cbor blake3 attempt
    match (transaction.transition cbor blake3 attempt).1 with
    | .ok _ => after.currentState :: after.entered rest
    | .error _ => after.entered rest

/-- **A history is a walk through the table.** -/
theorem walk_entered (transaction : Transaction) (attempts : List Attempt) :
    BctsState.Walk transaction.currentState (transaction.entered cbor blake3 attempts) := by
  induction attempts generalizing transaction with
  | nil => exact trivial
  | cons attempt rest ih =>
    rcases transition_cases cbor blake3 transaction attempt with
      ⟨error, answer, same, _⟩ | ⟨transition, answer, after, recorded⟩
    · rw [entered, answer, same]
      exact ih transaction
    · rw [entered, answer, after]
      refine ⟨?_, ih _⟩
      show transaction.currentState.canTransitionTo transition.toState = true
      rw [recorded.target]
      exact recorded.allowed

/-- A history ends in the current state. -/
theorem handedOn_entered (transaction : Transaction) (attempts : List Attempt) :
    handedOn id transaction.currentState (transaction.entered cbor blake3 attempts) =
      (run (attempted cbor blake3) transaction attempts).currentState := by
  induction attempts generalizing transaction with
  | nil => rfl
  | cons attempt rest ih =>
    rw [run_cons]
    rcases transition_cases cbor blake3 transaction attempt with
      ⟨error, answer, same, _⟩ | ⟨transition, answer, after, recorded⟩
    · rw [entered, answer, same]
      exact ih transaction
    · rw [entered, answer, after, handedOn_cons]
      exact ih _

variable {cbor blake3} {transaction : Transaction}

/-- A closed transaction refuses every attempt. -/
theorem refused_of_closed (isClosed : transaction.currentState = .closed) (attempt : Attempt) :
    ∃ error, (transaction.transition cbor blake3 attempt).1 = .error error := by
  rcases transition_cases cbor blake3 transaction attempt with
    ⟨error, answer, _, _⟩ | ⟨transition, _, _, recorded⟩
  · exact ⟨error, answer⟩
  · have allowed := recorded.allowed
    rw [isClosed] at allowed
    cases allowed

/-- Once `closed` was entered, every further attempt answers an error. -/
def ClosedIsFinal (cbor : Cbor ReceiptInput) (blake3 : Blake3) (transaction : Transaction)
    (attempts : List Attempt) : Prop :=
  .closed ∈ transaction.entered cbor blake3 attempts → ∀ attempt, ∃ error,
    ((run (attempted cbor blake3) transaction attempts).transition cbor blake3 attempt).1 =
      .error error

/-- **No execution without the gates, and nothing after closing**, in every run of attempts on a new
transaction. -/
theorem execution_gated (cbor : Cbor ReceiptInput) (blake3 : Blake3) (correlationId : CorrelationId)
    (attempts : List Attempt) :
    BctsState.ExecutionGated (.draft :: (new correlationId).entered cbor blake3 attempts) ∧
      ClosedIsFinal cbor blake3 (new correlationId) attempts := by
  have walk := walk_entered cbor blake3 (new correlationId) attempts
  refine ⟨walk.executionGated, fun member attempt => ?_⟩
  have last := walk.closed_last member
  rw [handedOn_entered] at last
  exact refused_of_closed last attempt

/-- **Every walk is a history**, if the serializer does not fail. -/
theorem entered_of_walk (total : ∀ input, ∃ bytes, cbor input = .ok bytes) (actor : Did)
    (clock : HybridClock) (wall : UInt64) {states : List BctsState}
    (walk : BctsState.Walk transaction.currentState states) :
    transaction.entered cbor blake3 (states.map fun state => ⟨state, actor, clock, wall⟩) =
      states := by
  induction states generalizing transaction with
  | nil => rfl
  | cons state states ih =>
    obtain ⟨allowed, walk⟩ := walk
    rw [List.map_cons, entered]
    rcases transition_cases cbor blake3 transaction ⟨state, actor, clock, wall⟩ with
      ⟨error, answer, _, refused⟩ | ⟨transition, answer, after, recorded⟩
    · rcases refused with forbidden | ⟨failure, receipt⟩
      · have impossible := allowed.symm.trans forbidden
        cases impossible
      · -- the receipt of an allowed edge fails only in the serializer
        obtain ⟨bytes, written⟩ := total ⟨transaction.currentState, state, (clock.now wall).1,
          actor.value, transaction.receiptChain.getLast?.getD .zero⟩
        have computed := hashStructured_of_written written blake3
        have impossible := computed.symm.trans receipt
        cases impossible
    · rw [answer, after]
      have target : (transaction.record transition).currentState = state := recorded.target
      rw [← target] at walk
      show (transaction.record transition).currentState :: _ = _
      rw [ih walk, target]

/-- The way to the end that no denial or escalation leaves. -/
example : BctsState.Walk .draft [.submitted, .identityResolved, .consentValidated, .deliberated,
    .verified, .governed, .approved, .executed, .recorded, .closed] := by decide

end Histories

end Transaction

end Exochain.ExoCore
