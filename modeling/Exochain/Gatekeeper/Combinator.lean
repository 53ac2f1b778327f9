/-
**`exo-gatekeeper` — the combinator algebra.**

Governance operations are composed from nine kinds of terms and reduced on an input of text fields. A
reduction threads the fields through a `Sequence`, merges the outputs of the branches of a `Parallel`
over the input and takes the first success of a `Choice`; the other terms wrap one inner term.

The loops of `reduce` over the terms of a list are functions of their own, recursive together with
it. A retry loops over its attempts; reduction is pure, so every attempt has the same result.

* `Combinator.induction` — induction over terms, with the hypothesis for each member of a list.
* `reduce_*_eq_ok_iff` — what a successful reduction of each kind of term is made of.
* **`reduce_keeps_keys`** — no reduction removes a field.
-/

import Exochain.Core.Types
import Exochain.Foundation.Overlay

set_option linter.unusedSectionVars false

namespace Exochain.ExoGatekeeper

open Foundation ExoCore

/-! ### Errors -/

/-- The errors of the gatekeeper. -/
inductive GatekeeperError where
  | kernelIntegrityFailure (expected actual : String)
  | invariantViolation (reason : String)
  | combinatorError (reason : String)
  | holonError (reason : String)
  | mcpViolation (reason : String)
  | teeError (reason : String)
  | capabilityDenied (reason : String)
  | timeout (milliseconds : UInt64)
  | checkpointError (reason : String)
  | core (reason : String)
  | mcpAuditChainBroken (index : ℕ)
  deriving DecidableEq, Repr

/-- The text of an error. -/
def GatekeeperError.display : GatekeeperError → String
  | .kernelIntegrityFailure expected actual =>
    "kernel integrity check failed: expected " ++ expected ++ ", got " ++ actual
  | .invariantViolation reason => "invariant violation: " ++ reason
  | .combinatorError reason => "combinator reduction failed: " ++ reason
  | .holonError reason => "holon error: " ++ reason
  | .mcpViolation reason => "MCP violation: " ++ reason
  | .teeError reason => "TEE attestation failed: " ++ reason
  | .capabilityDenied reason => "capability denied: " ++ reason
  | .timeout milliseconds => "timeout after " ++ toString milliseconds ++ " ms"
  | .checkpointError reason => "checkpoint error: " ++ reason
  | .core reason => "core error: " ++ reason
  | .mcpAuditChainBroken index => "MCP audit chain broken at index " ++ toString index

/-! ### Inputs and outputs -/

/-- A checkpoint identifier for resumable combinators. -/
structure CheckpointId where
  value : String
  deriving DecidableEq, Repr

/-- The input of a reduction. -/
structure CombinatorInput where
  fields : BTreeMap String String

/-- The output of a reduction: its fields, and the checkpoint if one was reached. -/
structure CombinatorOutput where
  fields : BTreeMap String String
  checkpoint : Option CheckpointId

namespace CombinatorOutput

/-- The input as an output. -/
def fromInput (input : CombinatorInput) : CombinatorOutput := ⟨input.fields, none⟩

/-- Set one field. -/
def set (output : CombinatorOutput) (key value : String) : CombinatorOutput :=
  { output with fields := output.fields.insert key value }

/-- Lay another output over this one; its checkpoint counts if it has one. -/
def merge (output other : CombinatorOutput) : CombinatorOutput where
  fields := output.fields.overlay other.fields
  checkpoint := if other.checkpoint.isSome then other.checkpoint else output.checkpoint

@[simp] theorem fromInput_fields (input : CombinatorInput) :
    (fromInput input).fields = input.fields := rfl

@[simp] theorem fromInput_checkpoint (input : CombinatorInput) :
    (fromInput input).checkpoint = none := rfl

@[simp] theorem set_fields (output : CombinatorOutput) (key value : String) :
    (output.set key value).fields = output.fields.insert key value := rfl

@[simp] theorem set_checkpoint (output : CombinatorOutput) (key value : String) :
    (output.set key value).checkpoint = output.checkpoint := rfl

@[simp] theorem merge_fields (output other : CombinatorOutput) :
    (output.merge other).fields = output.fields.overlay other.fields := rfl

@[simp] theorem merge_checkpoint (output other : CombinatorOutput) :
    (output.merge other).checkpoint = other.checkpoint.or output.checkpoint := by
  unfold merge
  cases other.checkpoint with
  | none => rfl
  | some id => rfl

end CombinatorOutput

/-! ### Terms -/

/-- A predicate that guards execution. -/
structure Predicate where
  name : String
  requiredKey : String
  expectedValue : Option String
  deriving DecidableEq, Repr

/-- Whether the key is there, with the expected value if there is one. -/
def Predicate.evaluate (predicate : Predicate) (input : CombinatorInput) : Bool :=
  match input.fields[predicate.requiredKey]? with
  | none => false
  | some val =>
    match predicate.expectedValue with
    | none => true
    | some expected => val == expected

/-- A transform of an output. -/
structure TransformFn where
  name : String
  outputKey : String
  outputValue : String
  deriving DecidableEq, Repr

/-- Policy for retrying. -/
structure RetryPolicy where
  maxRetries : UInt32
  currentAttempt : UInt32
  deriving DecidableEq, Repr

/-- Duration in milliseconds. -/
structure Duration where
  milliseconds : UInt64
  deriving DecidableEq, Repr

/-- The terms of the algebra. -/
inductive Combinator where
  | identity
  | sequence (combinators : List Combinator)
  | parallel (combinators : List Combinator)
  | choice (combinators : List Combinator)
  | guard (inner : Combinator) (predicate : Predicate)
  | transform (inner : Combinator) (transform : TransformFn)
  | retry (inner : Combinator) (policy : RetryPolicy)
  | timeout (inner : Combinator) (duration : Duration)
  | checkpoint (inner : Combinator) (checkpointId : CheckpointId)

/-! ### Reduction -/

/-- The attempts of a retry, from number `attempt` on, while there are some left. -/
def retryAttempts (inner : Except GatekeeperError CombinatorOutput) :
    ℕ → ℕ → Option GatekeeperError → Except GatekeeperError CombinatorOutput
  | _, 0, lastErr => .error (lastErr.getD (.combinatorError "Retry exhausted"))
  | attempt, left + 1, _ =>
    match inner with
    | .ok output => .ok (output.set "retry_attempts" (toString attempt))
    | .error e => retryAttempts inner (attempt + 1) left (some e)

mutual

/-- Reduce a term on an input. -/
def reduce : Combinator → CombinatorInput → Except GatekeeperError CombinatorOutput
  | .identity, input => .ok (.fromInput input)
  | .sequence combinators, input => reduceSequence combinators 0 input (.fromInput input)
  | .parallel combinators, input => reduceParallel combinators 0 input (.fromInput input)
  | .choice combinators, input => reduceChoice combinators input
  | .guard inner predicate, input =>
    if !predicate.evaluate input then
      .error (.combinatorError ("Guard predicate '" ++ predicate.name ++ "' failed"))
    else reduce inner input
  | .transform inner transform, input => do
    let output ← reduce inner input
    .ok (output.set transform.outputKey transform.outputValue)
  | .retry inner policy, input =>
    retryAttempts (reduce inner input) 0 (policy.maxRetries.toNat + 1) none
  | .timeout inner duration, input => do
    let output ← reduce inner input
    .ok (output.set "timeout_budget_ms" (toString duration.milliseconds))
  | .checkpoint inner checkpointId, input => do
    let output ← reduce inner input
    .ok { output with checkpoint := some checkpointId }

/-- The steps of a sequence, from step `i` on: each is fed the fields of the one before. -/
def reduceSequence :
    List Combinator → ℕ → CombinatorInput → CombinatorOutput →
      Except GatekeeperError CombinatorOutput
  | [], _, _, lastOutput => .ok lastOutput
  | c :: rest, i, currentInput, _ =>
    match reduce c currentInput with
    | .ok output => reduceSequence rest (i + 1) ⟨output.fields⟩ output
    | .error e =>
      .error (.combinatorError ("Sequence step " ++ toString i ++ " failed: " ++ e.display))

/-- The branches of a parallel, from branch `i` on: each has the same input. -/
def reduceParallel :
    List Combinator → ℕ → CombinatorInput → CombinatorOutput →
      Except GatekeeperError CombinatorOutput
  | [], _, _, merged => .ok merged
  | c :: rest, i, input, merged =>
    match reduce c input with
    | .ok output => reduceParallel rest (i + 1) input (merged.merge output)
    | .error e =>
      .error (.combinatorError ("Parallel branch " ++ toString i ++ " failed: " ++ e.display))

/-- The alternatives of a choice. -/
def reduceChoice : List Combinator → CombinatorInput → Except GatekeeperError CombinatorOutput
  | [], _ => .error (.combinatorError "Choice: all alternatives failed")
  | c :: rest, input =>
    match reduce c input with
    | .ok output => .ok output
    | .error _ => reduceChoice rest input

end

/-! ### Induction over terms -/

/-- **Induction over terms**: for a list, the hypothesis holds of each of its members. -/
@[elab_as_elim]
theorem Combinator.induction {motive : Combinator → Prop} (identity : motive .identity)
    (sequence : ∀ combinators, (∀ c ∈ combinators, motive c) → motive (.sequence combinators))
    (parallel : ∀ combinators, (∀ c ∈ combinators, motive c) → motive (.parallel combinators))
    (choice : ∀ combinators, (∀ c ∈ combinators, motive c) → motive (.choice combinators))
    (guard : ∀ inner predicate, motive inner → motive (.guard inner predicate))
    (transform : ∀ inner transform, motive inner → motive (.transform inner transform))
    (retry : ∀ inner policy, motive inner → motive (.retry inner policy))
    (timeout : ∀ inner duration, motive inner → motive (.timeout inner duration))
    (checkpoint : ∀ inner checkpointId, motive inner → motive (.checkpoint inner checkpointId))
    (term : Combinator) : motive term := by
  refine @Combinator.rec motive (fun list => ∀ c ∈ list, motive c) identity sequence parallel choice
    guard transform retry timeout checkpoint ?_ ?_ term
  · intro c member
    cases member
  · intro head tail first others
    exact List.forall_mem_cons.mpr ⟨first, others⟩

/-! ### Successful reductions -/

section Success

variable {inner c : Combinator} {rest combinators : List Combinator} {input : CombinatorInput}
  {out last merged : CombinatorOutput} {i : ℕ}

theorem reduce_identity (input : CombinatorInput) :
    reduce .identity input = .ok (.fromInput input) := by
  rw [reduce]

theorem reduce_sequence (combinators : List Combinator) (input : CombinatorInput) :
    reduce (.sequence combinators) input =
      reduceSequence combinators 0 input (.fromInput input) := by
  rw [reduce]

theorem reduce_parallel (combinators : List Combinator) (input : CombinatorInput) :
    reduce (.parallel combinators) input =
      reduceParallel combinators 0 input (.fromInput input) := by
  rw [reduce]

theorem reduce_choice (combinators : List Combinator) (input : CombinatorInput) :
    reduce (.choice combinators) input = reduceChoice combinators input := by
  rw [reduce]

theorem reduceSequence_cons_eq_ok_iff :
    reduceSequence (c :: rest) i input last = .ok out ↔
      ∃ mid, reduce c input = .ok mid ∧ reduceSequence rest (i + 1) ⟨mid.fields⟩ mid = .ok out := by
  rw [reduceSequence]
  cases reduce c input with
  | ok mid => simp
  | error e => simp

theorem reduceParallel_cons_eq_ok_iff :
    reduceParallel (c :: rest) i input merged = .ok out ↔
      ∃ branch, reduce c input = .ok branch ∧
        reduceParallel rest (i + 1) input (merged.merge branch) = .ok out := by
  rw [reduceParallel]
  cases reduce c input with
  | ok branch => simp
  | error e => simp

theorem reduceChoice_cons_eq_ok_iff :
    reduceChoice (c :: rest) input = .ok out ↔
      reduce c input = .ok out ∨
        (∃ e, reduce c input = .error e) ∧ reduceChoice rest input = .ok out := by
  rw [reduceChoice]
  cases reduce c input with
  | ok found => simp
  | error e => simp

theorem reduce_guard_eq_ok_iff {predicate : Predicate} :
    reduce (.guard inner predicate) input = .ok out ↔
      predicate.evaluate input = true ∧ reduce inner input = .ok out := by
  rw [reduce]
  cases predicate.evaluate input with
  | true => simp
  | false => simp

theorem reduce_transform_eq_ok_iff {transform : TransformFn} :
    reduce (.transform inner transform) input = .ok out ↔
      ∃ found, reduce inner input = .ok found ∧
        out = found.set transform.outputKey transform.outputValue := by
  rw [reduce, bind_eq_ok_iff]
  simp only [Except.ok.injEq, eq_comm]

/-- The first attempt decides. -/
theorem reduce_retry_eq_ok_iff {policy : RetryPolicy} :
    reduce (.retry inner policy) input = .ok out ↔
      ∃ found, reduce inner input = .ok found ∧ out = found.set "retry_attempts" (toString 0) := by
  rw [reduce]
  cases reduce inner input with
  | ok found => simp [retryAttempts, eq_comm]
  | error e =>
    have exhausted : ∀ left attempt lastErr,
        retryAttempts (.error e) attempt left lastErr ≠ .ok out := by
      intro left
      induction left with
      | zero =>
        intro attempt lastErr
        simp [retryAttempts]
      | succ left ih =>
        intro attempt lastErr
        exact ih (attempt + 1) (some e)
    simp [exhausted]

theorem reduce_timeout_eq_ok_iff {duration : Duration} :
    reduce (.timeout inner duration) input = .ok out ↔
      ∃ found, reduce inner input = .ok found ∧
        out = found.set "timeout_budget_ms" (toString duration.milliseconds) := by
  rw [reduce, bind_eq_ok_iff]
  simp only [Except.ok.injEq, eq_comm]

theorem reduce_checkpoint_eq_ok_iff {checkpointId : CheckpointId} :
    reduce (.checkpoint inner checkpointId) input = .ok out ↔
      ∃ found, reduce inner input = .ok found ∧
        out = { found with checkpoint := some checkpointId } := by
  rw [reduce, bind_eq_ok_iff]
  simp only [Except.ok.injEq, eq_comm]

end Success

/-! ### Fields stay -/

section Keys

variable {input : CombinatorInput} {out : CombinatorOutput} {combinators : List Combinator}

/-- Every field of the input is in the output, with some value. -/
def KeepsKeys (input : CombinatorInput) (out : CombinatorOutput) : Prop :=
  ∀ key ∈ input.fields, key ∈ out.fields

/-- The term keeps the fields of every input it succeeds on. -/
def Combinator.Keeping (term : Combinator) : Prop :=
  ∀ {input out}, reduce term input = .ok out → KeepsKeys input out

theorem keepsKeys_fromInput (input : CombinatorInput) : KeepsKeys input (.fromInput input) :=
  fun _ present => present

theorem KeepsKeys.set (keeps : KeepsKeys input out) (name value : String) :
    KeepsKeys input (out.set name value) := by
  intro key present
  rw [CombinatorOutput.set_fields, Std.ExtTreeMap.mem_insert]
  exact .inr (keeps key present)

theorem KeepsKeys.merge (keeps : KeepsKeys input out) (other : CombinatorOutput) :
    KeepsKeys input (out.merge other) := by
  intro key present
  obtain ⟨value, found⟩ := BTreeMap.mem_iff_exists.mp (keeps key present)
  rw [CombinatorOutput.merge_fields, BTreeMap.mem_iff_exists]
  cases layer : other.fields[key]? with
  | none => exact ⟨value, by rw [BTreeMap.getElem?_overlay, layer, found, Option.none_or]⟩
  | some top => exact ⟨top, by rw [BTreeMap.getElem?_overlay, layer, Option.some_or]⟩

theorem keepsKeys_reduceSequence (keeping : ∀ c ∈ combinators, c.Keeping) {i : ℕ}
    {current : CombinatorInput} {last : CombinatorOutput} (before : KeepsKeys input last)
    (fed : current.fields = last.fields)
    (reduced : reduceSequence combinators i current last = .ok out) : KeepsKeys input out := by
  induction combinators generalizing i current last with
  | nil =>
    rw [reduceSequence] at reduced
    cases reduced
    exact before
  | cons c rest ih =>
    obtain ⟨mid, first, others⟩ := reduceSequence_cons_eq_ok_iff.mp reduced
    obtain ⟨keepingFirst, keepingRest⟩ := List.forall_mem_cons.mp keeping
    have through : KeepsKeys input mid := by
      intro key present
      exact keepingFirst first key (fed ▸ before key present)
    exact ih keepingRest through rfl others

theorem keepsKeys_reduceParallel {i : ℕ} {merged : CombinatorOutput}
    (before : KeepsKeys input merged)
    (reduced : reduceParallel combinators i input merged = .ok out) : KeepsKeys input out := by
  induction combinators generalizing i merged with
  | nil =>
    rw [reduceParallel] at reduced
    cases reduced
    exact before
  | cons c rest ih =>
    obtain ⟨branch, _, others⟩ := reduceParallel_cons_eq_ok_iff.mp reduced
    exact ih (before.merge branch) others

/-- A choice succeeds with the output of one of its alternatives. -/
theorem exists_of_reduceChoice_eq_ok (reduced : reduceChoice combinators input = .ok out) :
    ∃ c ∈ combinators, reduce c input = .ok out := by
  induction combinators with
  | nil =>
    rw [reduceChoice] at reduced
    cases reduced
  | cons c rest ih =>
    rcases reduceChoice_cons_eq_ok_iff.mp reduced with first | ⟨_, others⟩
    · exact ⟨c, List.mem_cons_self, first⟩
    · obtain ⟨chosen, member, found⟩ := ih others
      exact ⟨chosen, List.mem_cons_of_mem _ member, found⟩

/-- **No reduction removes a field.** -/
theorem reduce_keeps_keys (term : Combinator) : term.Keeping := by
  induction term using Combinator.induction with
  | identity =>
    intro input out reduced
    rw [reduce_identity] at reduced
    cases reduced
    exact keepsKeys_fromInput input
  | sequence combinators ih =>
    intro input out reduced
    exact keepsKeys_reduceSequence ih (keepsKeys_fromInput input) rfl reduced
  | parallel combinators ih =>
    intro input out reduced
    exact keepsKeys_reduceParallel (keepsKeys_fromInput input) reduced
  | choice combinators ih =>
    intro input out reduced
    obtain ⟨c, member, found⟩ := exists_of_reduceChoice_eq_ok reduced
    exact ih c member found
  | guard inner predicate ih =>
    intro input out reduced
    exact ih (reduce_guard_eq_ok_iff.mp reduced).2
  | transform inner transform ih =>
    intro input out reduced
    obtain ⟨found, within, rfl⟩ := reduce_transform_eq_ok_iff.mp reduced
    exact (ih within).set _ _
  | retry inner policy ih =>
    intro input out reduced
    obtain ⟨found, within, rfl⟩ := reduce_retry_eq_ok_iff.mp reduced
    exact (ih within).set _ _
  | timeout inner duration ih =>
    intro input out reduced
    obtain ⟨found, within, rfl⟩ := reduce_timeout_eq_ok_iff.mp reduced
    exact (ih within).set _ _
  | checkpoint inner checkpointId ih =>
    intro input out reduced
    obtain ⟨found, within, rfl⟩ := reduce_checkpoint_eq_ok_iff.mp reduced
    have keeps : KeepsKeys input found := ih within
    exact keeps

end Keys

end Exochain.ExoGatekeeper
