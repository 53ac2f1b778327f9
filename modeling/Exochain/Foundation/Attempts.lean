/-
**Calls that may be refused.**

A call is either accepted, and changes the state, or refused, and leaves it. What a run of calls does is done
by the calls of it that were accepted.

* `Admitted` — the call sequences that are accepted from a state, call by call.
* `history_run` — the induction rule for what the accepted calls say about the state.
* `docketStep` — a docket keeps several states side by side, calls are addressed by position and new states
  are filed at the end; **each state sees only the calls addressed to it since it was filed**
  (`getElem?_run_docket_iff`).
-/

import Exochain.Foundation.Run

namespace Foundation

section Attempts

variable {State Call : Type*} (attempt : State → Call → Option State)

/-- The state after a call, accepted or refused. -/
def attempted (state : State) (call : Call) : State := (attempt state call).getD state

/-- The calls of a run that are accepted. -/
def accepted : State → List Call → List Call
  | _, [] => []
  | state, call :: calls =>
    match attempt state call with
    | some after => call :: accepted after calls
    | none => accepted state calls

/-- Every call of the sequence is accepted where it is made. -/
def Admitted : State → List Call → Prop
  | _, [] => True
  | state, call :: calls => ∃ after, attempt state call = some after ∧ Admitted after calls

variable {attempt}

theorem attempted_of_some {state after : State} {call : Call} (done : attempt state call = some after) :
    attempted attempt state call = after := by
  rw [attempted, done]
  rfl

theorem attempted_of_none {state : State} {call : Call} (refused : attempt state call = none) :
    attempted attempt state call = state := by
  rw [attempted, refused]
  rfl

theorem accepted_append (state : State) (first second : List Call) :
    accepted attempt state (first ++ second) =
      accepted attempt state first ++ accepted attempt (run (attempted attempt) state first) second := by
  induction first generalizing state with
  | nil => rfl
  | cons call first ih =>
    rw [List.cons_append, accepted, accepted, run_cons]
    cases done : attempt state call with
    | none => rw [attempted_of_none done, ih state]
    | some after =>
      dsimp only
      rw [attempted_of_some done, ih after, List.cons_append]

/-- Calls that are all accepted are the accepted ones. -/
theorem accepted_of_admitted {state : State} {calls : List Call} (all : Admitted attempt state calls) :
    accepted attempt state calls = calls := by
  induction calls generalizing state with
  | nil => rfl
  | cons call calls ih =>
    obtain ⟨after, done, rest⟩ := all
    rw [accepted, done]
    dsimp only
    rw [ih rest]

/-- **The history rule.** What relates no calls to the start, and one more accepted call to the state after it,
relates the accepted calls of every run to its last state. -/
theorem history_run {H : List Call → State → Prop} {state : State} (start : H [] state)
    (concat : ∀ before current call after, H before current → attempt current call = some after →
      H (before ++ [call]) after) (calls : List Call) :
    H (accepted attempt state calls) (run (attempted attempt) state calls) := by
  induction calls using List.reverseRecOn with
  | nil => exact start
  | append_singleton calls call ih =>
    rw [accepted_append, run_append, run_cons, run_nil, accepted]
    cases done : attempt (run (attempted attempt) state calls) call with
    | none =>
      rw [attempted_of_none done, accepted, List.append_nil]
      exact ih
    | some after =>
      rw [attempted_of_some done]
      exact concat _ _ call after ih done

end Attempts

/-! ### Dockets -/

section Docket

variable {State Call : Type*} (attempt : State → Call → Option State)

/-- What happens to a docket: a new state is filed at the end, or a call is made on one of them. -/
inductive DocketOp (State Call : Type*) where
  | file (state : State)
  | call (index : ℕ) (call : Call)

/-- Whether an operation files a state. -/
def DocketOp.isFile {State Call : Type*} : DocketOp State Call → Bool
  | .file _ => true
  | .call _ _ => false

/-- The docket after an operation; a call that is addressed to no state is none. -/
def docketStep (docket : List State) : DocketOp State Call → List State
  | .file state => docket ++ [state]
  | .call index call => docket.modify index fun state => attempted attempt state call

/-- The calls that are addressed to a position. -/
def addressed (index : ℕ) (ops : List (DocketOp State Call)) : List Call :=
  ops.filterMap fun
    | .file _ => none
    | .call other call => if other = index then some call else none

variable {attempt}

/-- **Each state sees only the calls addressed to it.** -/
theorem getElem?_run_docket {docket : List State} {index : ℕ} {state : State}
    (filed : docket[index]? = some state) (ops : List (DocketOp State Call)) :
    (run (docketStep attempt) docket ops)[index]? =
      some (run (attempted attempt) state (addressed index ops)) := by
  induction ops generalizing docket state with
  | nil => exact filed
  | cons op ops ih =>
    rw [run_cons]
    cases op with
    | file new =>
      refine ih ?_
      rw [docketStep, List.getElem?_append_left (List.getElem?_eq_some_iff.mp filed).1]
      exact filed
    | call other call =>
      by_cases same : other = index
      · subst same
        have stepped : (docketStep attempt docket (.call other call))[other]? =
            some (attempted attempt state call) := by
          rw [docketStep, List.getElem?_modify_eq, filed]
          rfl
        rw [ih stepped]
        simp [addressed]
      · have kept : (docketStep attempt docket (.call other call))[index]? = some state := by
          rw [docketStep, List.getElem?_modify_ne _ _ same]
          exact filed
        rw [ih kept]
        simp [addressed, same]

/-- Every filing makes a docket one longer. -/
theorem length_run_docket (docket : List State) (ops : List (DocketOp State Call)) :
    (run (docketStep attempt) docket ops).length = docket.length + ops.countP DocketOp.isFile := by
  induction ops generalizing docket with
  | nil => rfl
  | cons op ops ih =>
    rw [run_cons, ih]
    cases op with
    | file =>
      rw [List.countP_cons_of_pos rfl, docketStep, List.length_append, List.length_singleton]
      omega
    | call => rw [List.countP_cons_of_neg Bool.false_ne_true, docketStep, List.length_modify]

/-- **Where the states of a docket come from**: each one was filed, at the position that the number of filings
before gives it, and has seen the calls addressed to it since. -/
theorem getElem?_run_docket_iff {index : ℕ} {last : State} {ops : List (DocketOp State Call)} :
    (run (docketStep attempt) [] ops)[index]? = some last ↔
      ∃ before state after, ops = before ++ .file state :: after ∧ before.countP DocketOp.isFile = index ∧
        run (attempted attempt) state (addressed index after) = last := by
  constructor
  · intro found
    induction ops using List.reverseRecOn generalizing last with
    | nil => simp at found
    | append_singleton ops op ih =>
      rw [run_append] at found
      by_cases inside : index < (run (docketStep attempt) [] ops).length
      · -- the state was there before the last operation
        have earlier := List.getElem?_eq_getElem inside
        obtain ⟨before, state, after, split, place, history⟩ := ih earlier
        refine ⟨before, state, after ++ [op], by rw [split]; simp, place, ?_⟩
        rw [getElem?_run_docket earlier [op], ← history] at found
        rw [addressed, List.filterMap_append, run_append]
        exact Option.some.inj found
      · have bound := (List.getElem?_eq_some_iff.mp found).1
        rw [length_run_docket] at bound inside
        cases op with
        | call => exact absurd bound (by simpa [DocketOp.isFile, length_run_docket] using inside)
        | file state =>
          have place : ops.countP DocketOp.isFile = index := by
            simp [DocketOp.isFile, length_run_docket] at bound inside
            omega
          refine ⟨ops, state, [], rfl, place, ?_⟩
          have last_place : index = (run (docketStep attempt) [] ops).length := by
            rw [length_run_docket, ← place, List.length_nil, Nat.zero_add]
          rw [last_place] at found
          simpa [docketStep, addressed] using found
  · rintro ⟨before, state, after, rfl, place, history⟩
    have filed : (run (docketStep attempt) [] (before ++ [.file state]))[index]? = some state := by
      have last_place : index = (run (docketStep attempt) [] before).length := by
        rw [length_run_docket, ← place, List.length_nil, Nat.zero_add]
      rw [run_append, run_cons, run_nil, docketStep, last_place, List.getElem?_concat_length]
    rw [List.append_cons, run_append, getElem?_run_docket filed, history]

end Docket

end Foundation
