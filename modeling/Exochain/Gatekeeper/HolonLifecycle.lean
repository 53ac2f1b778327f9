/-
**`exo-gatekeeper` — the lifecycle of a holon over its calls.**

A call of `step`, `suspend` or `resume` leaves the holon in one of four states. A terminated holon
refuses every call, and the last output is that of the last step or resume that succeeded. A step sets
the state to `Executing` before the program runs and takes it back after; the program's error is
returned in between.

* `call_terminated`, `lastOutput_call` — what every call keeps.
* `state_call_eq_executing_iff` — a holon is left executing exactly by a step whose program fails.
* **`lifecycle_kept_iff`** — the lifecycle of a run is as documented exactly if no step of it gets to
  a program that fails.
* `Sample.left_executing` — a permitted step with a program that fails.
-/

import Exochain.Gatekeeper.Holon

set_option linter.unusedSectionVars false

namespace Exochain.ExoGatekeeper

open Foundation ExoCore

section Lifecycle

variable {platform : Platform} {holon : Holon} {call : HolonCall}

/-! ### What a call does -/

/-- Whether a call returns without an error. -/
def Holon.succeeds (platform : Platform) (holon : Holon) : HolonCall → Bool
  | .step kernel input context => (holon.step platform kernel input context).1.isOk
  | .suspend => holon.suspend.1.isOk
  | .resume checkpoint => (holon.resume checkpoint).1.isOk

/-- The call is a step that gets to its program, and the program fails. -/
def FailsMidway (platform : Platform) (holon : Holon) (call : HolonCall) : Prop :=
  ∃ kernel input context error, call = .step kernel input context ∧
    (holon.state ≠ .terminated ∧ holon.state ≠ .suspended) ∧
    kernel.adjudicate platform holon.stepRequest context = .permitted ∧
    reduce holon.combinatorChain input = .error error

/-- A terminated holon refuses every call. -/
theorem call_terminated (terminated : holon.state = .terminated) (call : HolonCall) :
    holon.call platform call = holon ∧ holon.succeeds platform call = false := by
  obtain ⟨id, capabilities, state, program, lastOutput⟩ := holon
  subst terminated
  cases call with
  | step kernel input context => exact ⟨rfl, rfl⟩
  | suspend => exact ⟨rfl, rfl⟩
  | resume checkpoint => exact ⟨rfl, rfl⟩

/-- What a step does when its checks end it. -/
theorem step_of_refused {kernel : Kernel} {input : CombinatorInput} {context : AdjudicationContext}
    {error : GatekeeperError} {state : HolonState}
    (refused : holon.authorize platform kernel context = .error (error, state)) :
    holon.step platform kernel input context = (.error error, { holon with state }) := by
  unfold Holon.step
  rw [refused]

/-- The checks never leave a holon executing. -/
theorem state_of_refused {kernel : Kernel} {context : AdjudicationContext}
    {error : GatekeeperError} {state : HolonState}
    (refused : holon.authorize platform kernel context = .error (error, state)) :
    state ≠ .executing := by
  unfold Holon.authorize at refused
  split at refused
  · cases refused
    decide
  · cases refused
    decide
  · split at refused
    · cases refused
    · cases refused
      decide
    · cases refused
      decide

/-- The last output is kept by a call that fails, and by `suspend`. -/
theorem lastOutput_call (kept : holon.succeeds platform call = false ∨ call = .suspend) :
    (holon.call platform call).lastOutput = holon.lastOutput := by
  cases call with
  | step kernel input context =>
    rcases kept with failed | other
    · have failed : (holon.step platform kernel input context).1.isOk = false := failed
      show (holon.step platform kernel input context).2.lastOutput = _
      cases checked : holon.authorize platform kernel context with
      | error refusal => rw [step_of_refused checked]
      | ok passed =>
        unfold Holon.step at failed ⊢
        rw [checked] at failed ⊢
        cases reduced : reduce holon.combinatorChain input with
        | error error => rfl
        | ok output =>
          rw [reduced] at failed
          cases failed
    · cases other
  | suspend =>
    show holon.suspend.2.lastOutput = _
    unfold Holon.suspend
    split
    · rfl
    · rfl
  | resume checkpoint =>
    rcases kept with failed | other
    · have failed : (holon.resume checkpoint).1.isOk = false := failed
      show (holon.resume checkpoint).2.lastOutput = _
      unfold Holon.resume at failed ⊢
      split
      · rfl
      · rename_i suspended
        rw [if_neg suspended] at failed
        split
        · rfl
        · rename_i own
          rw [if_neg own] at failed
          cases failed
    · cases other

/-- A step that gets to a failing program leaves the holon executing. -/
theorem call_of_failsMidway (fails : FailsMidway platform holon call) :
    holon.call platform call = { holon with state := .executing } := by
  obtain ⟨kernel, input, context, error, rfl, opened, permitted, failed⟩ := fails
  have checked := authorize_eq_ok_iff.mpr ⟨opened, permitted⟩
  show (holon.step platform kernel input context).2 = _
  unfold Holon.step
  rw [checked, failed]

/-- **A holon is left executing exactly by a step whose program fails.** -/
theorem state_call_eq_executing_iff (observed : holon.state ≠ .executing) :
    (holon.call platform call).state = .executing ↔ FailsMidway platform holon call := by
  refine ⟨fun executing => ?_, fun fails => by rw [call_of_failsMidway fails]⟩
  cases call with
  | step kernel input context =>
    have executing : (holon.step platform kernel input context).2.state = .executing := executing
    cases checked : holon.authorize platform kernel context with
    | error refusal =>
      rw [step_of_refused checked] at executing
      exact absurd executing (state_of_refused checked)
    | ok passed =>
      obtain ⟨opened, permitted⟩ := authorize_eq_ok_iff.mp checked
      unfold Holon.step at executing
      rw [checked] at executing
      cases reduced : reduce holon.combinatorChain input with
      | error error => exact ⟨kernel, input, context, error, rfl, opened, permitted, reduced⟩
      | ok output =>
        rw [reduced] at executing
        cases executing
  | suspend =>
    have executing : holon.suspend.2.state = .executing := executing
    unfold Holon.suspend at executing
    split at executing
    · exact absurd executing observed
    · cases executing
  | resume checkpoint =>
    have executing : (holon.resume checkpoint).2.state = .executing := executing
    unfold Holon.resume at executing
    split at executing
    · exact absurd executing observed
    · split at executing
      · exact absurd executing observed
      · cases executing

/-! ### Runs -/

/-- **The lifecycle of a run**: termination is final and refuses every call, the state is never
`Executing` between calls, the last output changes only by a step or resume that succeeds, and a step
whose program fails leaves the holon as it was. -/
structure LifecycleKept (platform : Platform) (start : Holon) (calls : List HolonCall) : Prop where
  final : Evolves (Holon.call platform)
    (fun earlier later => earlier.state = .terminated → later.state = .terminated) start calls
  refuses : Along (Holon.call platform)
    (fun holon call => holon.state = .terminated → holon.succeeds platform call = false) start calls
  observable : Throughout (Holon.call platform) (fun holon => holon.state ≠ .executing) start calls
  output : Along (Holon.call platform)
    (fun holon call => (holon.call platform call).lastOutput ≠ holon.lastOutput →
      holon.succeeds platform call = true ∧ call ≠ .suspend) start calls
  restored : Along (Holon.call platform)
    (fun holon call => FailsMidway platform holon call → holon.call platform call = holon)
    start calls

/-- **When the lifecycle is kept.** A run of calls on a new holon keeps the lifecycle exactly if no
step of it is let through to a program that fails on its input. -/
theorem lifecycle_kept_iff (platform : Platform) (id : Did) (capabilities : PermissionSet)
    (program : Combinator) (calls : List HolonCall) :
    LifecycleKept platform (spawn id capabilities program) calls ↔
      Along (Holon.call platform) (fun holon call => ¬ FailsMidway platform holon call)
        (spawn id capabilities program) calls := by
  have observed : Throughout (Holon.call platform) (fun holon => holon.state ≠ .executing)
        (spawn id capabilities program) calls ↔
      Along (Holon.call platform) (fun holon call => ¬ FailsMidway platform holon call)
        (spawn id capabilities program) calls := by
    refine @throughout_iff_along _ _ (Holon.call platform) (fun _ => True) _ _ (fun _ _ _ => trivial)
      (fun holon call _ idle => ?_) _ _ trivial HolonState.noConfusion
    exact not_congr (state_call_eq_executing_iff idle)
  refine ⟨fun kept => observed.mp kept.observable, fun running => ?_⟩
  refine ⟨?_, ?_, observed.mpr running, ?_, ?_⟩
  · refine (evolves_iff_along (fun _ same => same) fun _ _ _ first second terminated =>
      second (first terminated)).mpr ?_
    refine along_of_forall (fun holon call terminated => ?_) _ calls
    rw [(call_terminated terminated call).1, terminated]
  · exact along_of_forall (fun holon call terminated => (call_terminated terminated call).2) _ calls
  · refine along_of_forall (fun holon call changed => ?_) _ calls
    by_contra unsuccessful
    refine changed (lastOutput_call ?_)
    rw [not_and_or, Bool.not_eq_true, not_not] at unsuccessful
    exact unsuccessful
  · exact fun before call after split fails => absurd fails (running before call after split)

end Lifecycle

namespace Sample

/-- A holon whose program is a choice without alternatives. -/
def helpless : Holon := spawn ⟨"did:exo:actor"⟩ ⟨[]⟩ (.choice [])

/-- A permitted step of it leaves it executing. -/
theorem left_executing :
    (helpless.step keyless (Kernel.new keyless.blake3 [] .all) ⟨∅⟩ context).2.state = .executing ∧
      ¬ LifecycleKept keyless helpless
        [.step (Kernel.new keyless.blake3 [] .all) ⟨∅⟩ context] := by
  have left : (helpless.step keyless (Kernel.new keyless.blake3 [] .all) ⟨∅⟩ context).2.state =
      .executing := rfl
  refine ⟨left, fun kept => ?_⟩
  exact kept.observable [.step (Kernel.new keyless.blake3 [] .all) ⟨∅⟩ context] [] rfl left

end Sample

end Exochain.ExoGatekeeper
