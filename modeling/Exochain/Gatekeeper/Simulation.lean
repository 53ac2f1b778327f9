/-
**`exo-gatekeeper` — simulation between terms, up to hidden fields.**

Two sets of fields agree off some hidden keys. A term simulates another one if on inputs that agree off
the hidden keys both fail, or both succeed with fields that agree off them and with the same checkpoint.
Simulation goes through every constructor of the algebra: a hidden field can flow into the input of a later
step, into a merge or past a choice, but only a guard can ask for it.

* `simulates_sequence`, `simulates_parallel`, `simulates_choice` — the lists, position by position.
* `simulates_guard`, `simulates_transform`, `simulates_retry`, `simulates_timeout`,
  `simulates_checkpoint` — the wrappers.
* `simulates_nil_iff` — with nothing hidden, simulation is equality of the results.
-/

import Exochain.Gatekeeper.Combinator
import Exochain.Foundation.Alike

namespace Exochain.ExoGatekeeper

open Foundation ExoCore

/-! ### Fields up to hidden keys -/

section Fields

variable {hidden : List String} {first second layer layer' : BTreeMap String String}

/-- The same fields, but for those with a hidden key. -/
def AgreeOff (hidden : List String) (first second : BTreeMap String String) : Prop :=
  ∀ key, key ∉ hidden → first[key]? = second[key]?

theorem AgreeOff.refl (fields : BTreeMap String String) : AgreeOff hidden fields fields :=
  fun _ _ => rfl

/-- Both sides set the same field. -/
theorem AgreeOff.insert (agree : AgreeOff hidden first second) (key value : String) :
    AgreeOff hidden (first.insert key value) (second.insert key value) := by
  intro other shown
  rw [BTreeMap.getElem?_insert_eq_ite, BTreeMap.getElem?_insert_eq_ite, agree other shown]

/-- One side sets a hidden field. -/
theorem AgreeOff.insert_hidden (agree : AgreeOff hidden first second) {key : String}
    (inside : key ∈ hidden) (value : String) : AgreeOff hidden (first.insert key value) second := by
  intro other shown
  have apart : key ≠ other := by
    rintro rfl
    exact shown inside
  rw [BTreeMap.getElem?_insert_of_ne value apart, agree other shown]

/-- Both sides are overlaid. -/
theorem AgreeOff.overlay (agree : AgreeOff hidden first second)
    (layers : AgreeOff hidden layer layer') :
    AgreeOff hidden (first.overlay layer) (second.overlay layer') := by
  intro key shown
  rw [BTreeMap.getElem?_overlay, BTreeMap.getElem?_overlay, layers key shown, agree key shown]

/-- With nothing hidden, the fields are the same. -/
theorem agreeOff_nil_iff : AgreeOff [] first second ↔ first = second := by
  constructor
  · intro agree
    exact Std.ExtTreeMap.ext_getElem? fun key => agree key List.not_mem_nil
  · rintro rfl
    exact .refl first

end Fields

/-! ### Outputs and terms -/

section Outputs

variable {hidden : List String} {out out' other other' : CombinatorOutput}

/-- The same output, but for hidden fields. -/
structure Matches (hidden : List String) (out out' : CombinatorOutput) : Prop where
  fields : AgreeOff hidden out.fields out'.fields
  checkpoint : out.checkpoint = out'.checkpoint

theorem Matches.refl (out : CombinatorOutput) : Matches hidden out out := ⟨.refl _, rfl⟩

theorem Matches.set (same : Matches hidden out out') (key value : String) :
    Matches hidden (out.set key value) (out'.set key value) :=
  ⟨same.fields.insert key value, same.checkpoint⟩

theorem Matches.set_hidden (same : Matches hidden out out') {key : String} (inside : key ∈ hidden)
    (value : String) : Matches hidden (out.set key value) out' :=
  ⟨same.fields.insert_hidden inside value, same.checkpoint⟩

theorem Matches.merge (same : Matches hidden out out') (branches : Matches hidden other other') :
    Matches hidden (out.merge other) (out'.merge other') := by
  refine ⟨same.fields.overlay branches.fields, ?_⟩
  rw [CombinatorOutput.merge_checkpoint, CombinatorOutput.merge_checkpoint, branches.checkpoint,
    same.checkpoint]

theorem matches_nil_iff : Matches [] out out' ↔ out = out' := by
  constructor
  · rintro ⟨fields, checkpoint⟩
    cases out
    cases out'
    exact congrArg₂ CombinatorOutput.mk (agreeOff_nil_iff.mp fields) checkpoint
  · rintro rfl
    exact .refl out

end Outputs

/-- **Simulation**: on inputs that agree off the hidden keys both terms fail, or both succeed with
outputs that match off them. -/
def Simulates (hidden : List String) (term term' : Combinator) : Prop :=
  ∀ input input' : CombinatorInput, AgreeOff hidden input.fields input'.fields →
    Alike (Matches hidden) (reduce term input) (reduce term' input')

section Simulation

variable {hidden : List String} {inner inner' term term' : Combinator}
  {combinators combinators' : List Combinator} {input input' : CombinatorInput}

/-- **With nothing hidden**, both fail or both have the same output. -/
theorem simulates_nil_iff :
    Simulates [] term term' ↔ ∀ input, Alike (· = ·) (reduce term input) (reduce term' input) := by
  constructor
  · intro simulates input
    exact (simulates input input (.refl _)).mono fun _ _ => matches_nil_iff.mp
  · intro same input input' agree
    obtain ⟨fields⟩ := input
    obtain ⟨fields'⟩ := input'
    cases agreeOff_nil_iff.mp agree
    exact (same _).mono fun _ _ => matches_nil_iff.mpr

theorem simulates_identity : Simulates hidden .identity .identity := by
  intro input input' agree
  rw [reduce_identity, reduce_identity]
  exact .ok ⟨agree, rfl⟩

/-! ### Lists of terms -/

theorem alike_reduceSequence (terms : List.Forall₂ (Simulates hidden) combinators combinators')
    {i i' : ℕ} {last last' : CombinatorOutput} (agree : AgreeOff hidden input.fields input'.fields)
    (same : Matches hidden last last') :
    Alike (Matches hidden) (reduceSequence combinators i input last)
      (reduceSequence combinators' i' input' last') := by
  induction terms generalizing i i' input input' last last' with
  | nil =>
    rw [reduceSequence, reduceSequence]
    exact .ok same
  | cons first rest ih =>
    rw [reduceSequence, reduceSequence]
    rcases (first input input' agree).ok_or_error with
      ⟨out, out', one, two, related⟩ | ⟨e, e', one, two⟩
    · rw [one, two]
      exact ih related.fields related
    · rw [one, two]
      exact .error _ _

theorem alike_reduceParallel (terms : List.Forall₂ (Simulates hidden) combinators combinators')
    {i i' : ℕ} {merged merged' : CombinatorOutput}
    (agree : AgreeOff hidden input.fields input'.fields) (same : Matches hidden merged merged') :
    Alike (Matches hidden) (reduceParallel combinators i input merged)
      (reduceParallel combinators' i' input' merged') := by
  induction terms generalizing i i' merged merged' with
  | nil =>
    rw [reduceParallel, reduceParallel]
    exact .ok same
  | cons first rest ih =>
    rw [reduceParallel, reduceParallel]
    rcases (first input input' agree).ok_or_error with
      ⟨out, out', one, two, related⟩ | ⟨e, e', one, two⟩
    · rw [one, two]
      exact ih (same.merge related)
    · rw [one, two]
      exact .error _ _

theorem alike_reduceChoice (terms : List.Forall₂ (Simulates hidden) combinators combinators')
    (agree : AgreeOff hidden input.fields input'.fields) :
    Alike (Matches hidden) (reduceChoice combinators input) (reduceChoice combinators' input') := by
  induction terms with
  | nil =>
    rw [reduceChoice, reduceChoice]
    exact .error _ _
  | cons first rest ih =>
    rw [reduceChoice, reduceChoice]
    rcases (first input input' agree).ok_or_error with
      ⟨out, out', one, two, related⟩ | ⟨e, e', one, two⟩
    · rw [one, two]
      exact .ok related
    · rw [one, two]
      exact ih

theorem simulates_sequence (terms : List.Forall₂ (Simulates hidden) combinators combinators') :
    Simulates hidden (.sequence combinators) (.sequence combinators') := by
  intro input input' agree
  rw [reduce_sequence, reduce_sequence]
  exact alike_reduceSequence terms agree ⟨agree, rfl⟩

theorem simulates_parallel (terms : List.Forall₂ (Simulates hidden) combinators combinators') :
    Simulates hidden (.parallel combinators) (.parallel combinators') := by
  intro input input' agree
  rw [reduce_parallel, reduce_parallel]
  exact alike_reduceParallel terms agree ⟨agree, rfl⟩

theorem simulates_choice (terms : List.Forall₂ (Simulates hidden) combinators combinators') :
    Simulates hidden (.choice combinators) (.choice combinators') := by
  intro input input' agree
  rw [reduce_choice, reduce_choice]
  exact alike_reduceChoice terms agree

/-! ### Wrappers -/

/-- A predicate that asks for no hidden field answers the same. -/
theorem evaluate_eq_of_agreeOff {predicate : Predicate} (shown : predicate.requiredKey ∉ hidden)
    (agree : AgreeOff hidden input.fields input'.fields) :
    predicate.evaluate input = predicate.evaluate input' := by
  rw [Predicate.evaluate, Predicate.evaluate, agree _ shown]

theorem simulates_guard {predicate : Predicate} (shown : predicate.requiredKey ∉ hidden)
    (simulates : Simulates hidden inner inner') :
    Simulates hidden (.guard inner predicate) (.guard inner' predicate) := by
  intro input input' agree
  rw [reduce, reduce, evaluate_eq_of_agreeOff shown agree]
  split_ifs with failed
  · exact .error _ _
  · exact simulates input input' agree

theorem simulates_transform (transform : TransformFn) (simulates : Simulates hidden inner inner') :
    Simulates hidden (.transform inner transform) (.transform inner' transform) := by
  intro input input' agree
  rw [reduce, reduce]
  exact (simulates input input' agree).bind fun _ _ same => .ok (same.set _ _)

theorem simulates_checkpoint (checkpointId : CheckpointId)
    (simulates : Simulates hidden inner inner') :
    Simulates hidden (.checkpoint inner checkpointId) (.checkpoint inner' checkpointId) := by
  intro input input' agree
  rw [reduce, reduce]
  exact (simulates input input' agree).bind fun _ _ same => .ok ⟨same.fields, rfl⟩

theorem simulates_timeout (duration : Duration) (simulates : Simulates hidden inner inner') :
    Simulates hidden (.timeout inner duration) (.timeout inner' duration) := by
  intro input input' agree
  rw [reduce, reduce]
  exact (simulates input input' agree).bind fun _ _ same => .ok (same.set _ _)

/-- **The first attempt of a retry decides**, and its number is what the retry adds. -/
theorem alike_reduce_retry (inner : Combinator) (policy : RetryPolicy) (input : CombinatorInput) :
    Alike (· = ·) (reduce (.retry inner policy) input)
      (reduce inner input >>= fun found => .ok (found.set "retry_attempts" (toString 0))) := by
  rw [alike_eq_iff]
  intro out
  rw [reduce_retry_eq_ok_iff, bind_eq_ok_iff]
  simp only [Except.ok.injEq, eq_comm]

theorem simulates_retry (policy : RetryPolicy) (simulates : Simulates hidden inner inner') :
    Simulates hidden (.retry inner policy) (.retry inner' policy) := by
  intro input input' agree
  have first := alike_reduce_retry inner policy input
  have second := (alike_reduce_retry inner' policy input').symm fun _ _ => Eq.symm
  have between := (simulates input input' agree).bind fun _ _ same =>
    Alike.ok (same.set "retry_attempts" (toString 0))
  have here : Alike (Matches hidden) _ _ :=
    first.trans between fun _ _ _ equal same => equal ▸ same
  exact here.trans second fun _ _ _ same equal => equal ▸ same

/-! ### Wrappers on one side -/

/-- A retry whose field is hidden simulates what it wraps. -/
theorem simulates_of_retry (policy : RetryPolicy) (inside : "retry_attempts" ∈ hidden)
    (simulates : Simulates hidden inner term') : Simulates hidden (.retry inner policy) term' := by
  intro input input' agree
  have wrapped := (simulates input input' agree).map_left fun _ _ same =>
    same.set_hidden inside (toString 0)
  exact (alike_reduce_retry inner policy input).trans wrapped fun _ _ _ equal same => equal ▸ same

/-- A timeout whose field is hidden simulates what it wraps. -/
theorem simulates_of_timeout (duration : Duration) (inside : "timeout_budget_ms" ∈ hidden)
    (simulates : Simulates hidden inner term') :
    Simulates hidden (.timeout inner duration) term' := by
  intro input input' agree
  rw [reduce]
  exact (simulates input input' agree).map_left fun _ _ same => same.set_hidden inside _

end Simulation

end Exochain.ExoGatekeeper
