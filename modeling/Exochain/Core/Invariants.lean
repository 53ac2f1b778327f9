/-
**`exo-core` — sets of invariants.**

An invariant is checked against a context and may report a violation of one of three severities, the least of
them advisory. A set is checked in two ways: `checkAll` stops at the first violation and returns it as an error,
`checkAllCollect` returns them all. Neither looks at the severity.

* `checkAll_eq` — the first of the violations that are collected is the error.
* `FirstBlocks` — the first invariant that fails does so with more than a warning.
* **`only_blocking_blocks_iff`** — exactly then only violations that block are errors.
* `Advisory.warning_blocks` — a set with one advisory invariant.
-/

import Exochain.Foundation.Machine
import Exochain.Foundation.Collections
import Exochain.Core.Types

namespace Exochain.ExoCore.Invariants

open Foundation

/-! ### Violations -/

/-- How severe a violation is. -/
inductive ViolationSeverity where
  | warning
  | error
  | critical
  deriving DecidableEq, Repr

/-- The text of a severity. -/
def ViolationSeverity.display : ViolationSeverity → String
  | warning => "WARNING"
  | error => "ERROR"
  | critical => "CRITICAL"

/-- Whether a violation blocks the operation: a warning is logged and does not. -/
def ViolationSeverity.blocks : ViolationSeverity → Bool
  | warning => false
  | error => true
  | critical => true

/-- The report of a violation. -/
structure InvariantViolation where
  invariantName : String
  description : String
  severity : ViolationSeverity
  context : BTreeMap String String

/-- The error of a violation. -/
def InvariantViolation.toError (violation : InvariantViolation) : ExoError :=
  .invariantViolation ("[" ++ violation.severity.display ++ "] " ++ violation.invariantName ++ ": " ++
    violation.description)

/-- The error shows the severity. -/
theorem severity_eq_of_toError_eq {first second : InvariantViolation}
    (same : first.toError = second.toError) : first.severity = second.severity := by
  have texts := congrArg String.toList (ExoError.invariantViolation.inj same)
  simp only [String.toList_append] at texts
  cases one : first.severity <;> cases two : second.severity <;>
    first
    | rfl
    | simp [one, two, ViolationSeverity.display] at texts

/-! ### Invariants -/

/-- What invariants are checked against. -/
structure InvariantContext where
  actorDid : Did
  timestamp : Timestamp
  stateHash : Hash256
  properties : BTreeMap String String

/-- An invariant: its name, and its check. -/
structure Invariant where
  name : String
  check : InvariantContext → Except InvariantViolation Unit

/-- A set of invariants, in the order in which they were added. -/
structure InvariantSet where
  invariants : List Invariant

namespace InvariantSet

/-- Check the invariants up to the first that fails. -/
def checkAll (set : InvariantSet) (context : InvariantContext) : Except ExoError Unit :=
  set.invariants.forM fun invariant => (invariant.check context).mapError InvariantViolation.toError

/-- The violation that an invariant reports. -/
def violation? (context : InvariantContext) (invariant : Invariant) : Option InvariantViolation :=
  match invariant.check context with
  | .ok () => none
  | .error violation => some violation

/-- Check all invariants and collect the violations. -/
def checkAllCollect (set : InvariantSet) (context : InvariantContext) : List InvariantViolation :=
  set.invariants.filterMap (violation? context)

/-- **Only violations that block are errors**: there is an error exactly if one of them is collected, it is
the first one that is, and a set whose violations are all warnings passes. -/
structure OnlyBlockingBlocks (set : InvariantSet) (context : InvariantContext) : Prop where
  blocks : (∃ error, set.checkAll context = .error error) ↔
    ∃ violation ∈ set.checkAllCollect context, violation.severity.blocks = true
  first : ∀ error, set.checkAll context = .error error →
    ((set.checkAllCollect context).find? (·.severity.blocks)).map InvariantViolation.toError = some error
  passes : (∀ violation ∈ set.checkAllCollect context, violation.severity = .warning) →
    set.checkAll context = .ok ()

/-- The first invariant that fails, if one does, fails with more than a warning. -/
def FirstBlocks (set : InvariantSet) (context : InvariantContext) : Prop :=
  ∀ earlier invariant later violation, set.invariants = earlier ++ invariant :: later →
    (∀ passed ∈ earlier, passed.check context = .ok ()) → invariant.check context = .error violation →
    violation.severity ≠ .warning

variable {set : InvariantSet} {context : InvariantContext}

theorem violation?_eq_none_iff {invariant : Invariant} :
    violation? context invariant = none ↔ invariant.check context = .ok () := by
  unfold violation?
  cases checked : invariant.check context with
  | ok passed => simp
  | error violation => simp

theorem violation?_eq_some_iff {invariant : Invariant} {violation : InvariantViolation} :
    violation? context invariant = some violation ↔ invariant.check context = .error violation := by
  unfold violation?
  cases checked : invariant.check context with
  | ok passed => simp
  | error violation => simp

/-- **The error is the first of the violations.** -/
theorem checkAll_eq (set : InvariantSet) (context : InvariantContext) :
    set.checkAll context =
      match (set.checkAllCollect context).head? with
      | none => .ok ()
      | some violation => .error violation.toError := by
  obtain ⟨invariants⟩ := set
  unfold checkAll checkAllCollect
  dsimp only
  induction invariants with
  | nil => rfl
  | cons invariant invariants ih =>
    show ((invariant.check context).mapError _ >>= fun _ => invariants.forM _) = _
    cases checked : invariant.check context with
    | ok passed => rw [List.filterMap_cons_none (violation?_eq_none_iff.mpr checked), ← ih]; rfl
    | error violation => rw [List.filterMap_cons_some (violation?_eq_some_iff.mpr checked)]; rfl

/-- The first violation is that of the first invariant that fails. -/
theorem firstBlocks_iff :
    set.FirstBlocks context ↔
      ∀ violation, (set.checkAllCollect context).head? = some violation → violation.severity ≠ .warning := by
  constructor
  · intro blocks violation first
    rw [checkAllCollect, List.head?_filterMap] at first
    obtain ⟨earlier, invariant, later, split, fails, passed⟩ := List.findSome?_eq_some_iff.mp first
    refine blocks earlier invariant later violation split ?_ (violation?_eq_some_iff.mp fails)
    exact fun before member => violation?_eq_none_iff.mp (passed before member)
  · intro first earlier invariant later violation split passed fails
    refine first violation ?_
    rw [checkAllCollect, List.head?_filterMap]
    refine List.findSome?_eq_some_iff.mpr ⟨earlier, invariant, later, split, ?_, ?_⟩
    · exact violation?_eq_some_iff.mpr fails
    · exact fun before member => violation?_eq_none_iff.mpr (passed before member)

theorem blocks_iff {severity : ViolationSeverity} : severity.blocks = true ↔ severity ≠ .warning := by
  cases severity <;> simp [ViolationSeverity.blocks]

/-- **When only blocking violations block**: the first invariant that fails, if one does, fails with more than
a warning. -/
theorem only_blocking_blocks_iff (set : InvariantSet) (context : InvariantContext) :
    OnlyBlockingBlocks set context ↔ FirstBlocks set context := by
  rw [firstBlocks_iff]
  have answer := checkAll_eq set context
  cases collected : set.checkAllCollect context with
  | nil =>
    rw [collected] at answer
    refine iff_of_true ⟨?_, ?_, fun _ => answer⟩ (by simp)
    · simp [answer, collected]
    · simp [answer]
  | cons first later =>
    rw [collected] at answer
    have answer : set.checkAll context = .error first.toError := answer
    constructor
    · intro sound violation first_eq advisory
      obtain rfl : first = violation := Option.some.inj first_eq
      obtain ⟨blocking, found, same⟩ := Option.map_eq_some_iff.mp (sound.first _ answer)
      have blocks := List.find?_some found
      exact blocks_iff.mp blocks ((severity_eq_of_toError_eq same).trans advisory)
    · intro reported
      have blocks : first.severity.blocks = true := blocks_iff.mpr (reported first rfl)
      refine ⟨?_, fun error failed => ?_, fun advisory => ?_⟩
      · exact iff_of_true ⟨_, answer⟩ ⟨first, collected ▸ List.mem_cons_self, blocks⟩
      · rw [answer, Except.error.injEq] at failed
        have here : (first :: later).find? (·.severity.blocks) = some first :=
          List.find?_cons_of_pos blocks
        rw [collected, here, Option.map_some, failed]
      · exact absurd (advisory first (collected ▸ List.mem_cons_self)) (reported first rfl)

namespace Advisory

/-- An invariant that always reports a violation of some severity. -/
def alwaysFail (severity : ViolationSeverity) : Invariant where
  name := "always_fail"
  check _ := .error ⟨"always_fail", "this always fails", severity, ∅⟩

/-- **A set whose only violation is a warning does not pass.** -/
theorem warning_blocks : ¬ ∀ set context, OnlyBlockingBlocks set context := by
  intro sound
  have passes := (sound ⟨[alwaysFail .warning]⟩ ⟨⟨"did:exo:tester"⟩, ⟨1000, 0⟩, Hash256.zero, ∅⟩).passes
  have advisory := passes fun violation member => by
    obtain rfl := List.mem_singleton.mp member
    rfl
  cases advisory

end Advisory

end InvariantSet

end Exochain.ExoCore.Invariants
