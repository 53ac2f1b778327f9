/-
**Specifications and their behaviours.**

A specification is a condition on the first state and a relation between a state and the next. A
behaviour is an infinite sequence of states: it starts as the specification asks, and every step is one
of the specification or leaves the state as it is.

* `Behaves.always` — the invariant rule for behaviours; `Reachable.invariant` is its form for the states
  that finitely many steps reach.
* `Behaves.always_iff` — the exact rule: where a step from inside a property leaves it precisely when the
  step is bad, a behaviour stays inside precisely when it takes no bad step.
* `Behaves.reachable` — the states of behaviours are reachable.
* `Reachable.simulated` — the simulation rule: a step of one specification is answered by some steps of
  another, so that every reachable state of the first stands for a reachable one of the second.
-/

import Mathlib

namespace Foundation

/-- A condition on the first state, and the steps. -/
structure Specification (State : Type*) where
  Init : State → Prop
  Next : State → State → Prop

namespace Specification

variable {State : Type*} (spec : Specification State)

/-- A behaviour: it starts well, and every step is one of the specification or stutters. -/
structure Behaves (behavior : ℕ → State) : Prop where
  init : spec.Init (behavior 0)
  next : ∀ n, spec.Next (behavior n) (behavior (n + 1)) ∨ behavior (n + 1) = behavior n

/-- What some steps from a first state reach. -/
def Reachable (state : State) : Prop :=
  ∃ start, spec.Init start ∧ Relation.ReflTransGen spec.Next start state

variable {spec}

/-! ### Invariants -/

/-- **The invariant rule.** What every first state satisfies and every step keeps holds in every state of
every behaviour. -/
theorem Behaves.always {behavior : ℕ → State} {P : State → Prop} (behaves : spec.Behaves behavior)
    (init : ∀ state, spec.Init state → P state)
    (kept : ∀ state after, P state → spec.Next state after → P after) (n : ℕ) : P (behavior n) := by
  induction n with
  | zero => exact init _ behaves.init
  | succ n ih =>
    rcases behaves.next n with stepped | stuttered
    · exact kept _ _ ih stepped
    · rw [stuttered]
      exact ih

/-- What every step does to two states next to each other, under an invariant. -/
theorem Behaves.always_step {behavior : ℕ → State} {P : State → Prop} {R : State → State → Prop}
    (behaves : spec.Behaves behavior) (here : ∀ n, P (behavior n)) (refl : ∀ state, R state state)
    (stepped : ∀ state after, P state → spec.Next state after → R state after) (n : ℕ) :
    R (behavior n) (behavior (n + 1)) := by
  rcases behaves.next n with step | stuttered
  · exact stepped _ _ (here n) step
  · rw [stuttered]
    exact refl _

/-- **The exact rule.** Under an invariant, if a step from inside `P` leaves it precisely when the step is
bad, and a bad step changes the state, a behaviour stays inside `P` precisely when no step is bad. -/
theorem Behaves.always_iff {behavior : ℕ → State} {I P : State → Prop} {Bad : State → State → Prop}
    (behaves : spec.Behaves behavior) (invariant : ∀ n, I (behavior n))
    (init : ∀ state, spec.Init state → P state)
    (exact_step : ∀ state after, I state → P state → spec.Next state after →
      (P after ↔ ¬ Bad state after))
    (changes : ∀ state, ¬ Bad state state) :
    (∀ n, P (behavior n)) ↔ ∀ n, ¬ Bad (behavior n) (behavior (n + 1)) := by
  constructor
  · intro inside n
    rcases behaves.next n with stepped | stuttered
    · exact (exact_step _ _ (invariant n) (inside n) stepped).mp (inside (n + 1))
    · rw [stuttered]
      exact changes _
  · intro good n
    induction n with
    | zero => exact init _ behaves.init
    | succ n ih =>
      rcases behaves.next n with stepped | stuttered
      · exact (exact_step _ _ (invariant n) ih stepped).mpr (good n)
      · rw [stuttered]
        exact ih

/-- The invariant rule for reachable states. -/
theorem Reachable.invariant {P : State → Prop} {state : State} (reachable : spec.Reachable state)
    (init : ∀ state, spec.Init state → P state)
    (kept : ∀ state after, P state → spec.Next state after → P after) : P state := by
  obtain ⟨start, starts, path⟩ := reachable
  induction path with
  | refl => exact init start starts
  | tail _ step ih => exact kept _ _ ih step

/-! ### Reachable states -/

theorem Reachable.of_init {state : State} (init : spec.Init state) : spec.Reachable state :=
  ⟨state, init, .refl⟩

theorem Reachable.step {state after : State} (reachable : spec.Reachable state)
    (next : spec.Next state after) : spec.Reachable after := by
  obtain ⟨start, starts, path⟩ := reachable
  exact ⟨start, starts, path.tail next⟩

theorem Reachable.trans {state after : State} (reachable : spec.Reachable state)
    (path : Relation.ReflTransGen spec.Next state after) : spec.Reachable after := by
  obtain ⟨start, starts, first⟩ := reachable
  exact ⟨start, starts, first.trans path⟩

theorem Behaves.reachable {behavior : ℕ → State} (behaves : spec.Behaves behavior) (n : ℕ) :
    spec.Reachable (behavior n) :=
  behaves.always (fun _ init => .of_init init) (fun _ _ reachable next => reachable.step next) n

/-! ### Simulation -/

/-- **The simulation rule.** If every first state stands for a reachable state, and a step between states
within bounds is answered by some steps on the other side, every reachable state within bounds stands for a
reachable one, provided that no step comes back from outside. -/
theorem Reachable.simulated {State' : Type*} {state : State} (reachable : spec.Reachable state)
    (other : Specification State') (R : State → State' → Prop) (Within : State → Prop)
    (init : ∀ state, spec.Init state → ∃ image, other.Reachable image ∧ R state image)
    (back : ∀ state after, spec.Next state after → Within after → Within state)
    (answered : ∀ state after image, other.Reachable image → R state image → Within state →
      spec.Next state after → Within after →
      ∃ image', Relation.ReflTransGen other.Next image image' ∧ R after image')
    (within : Within state) : ∃ image, other.Reachable image ∧ R state image := by
  obtain ⟨start, starts, path⟩ := reachable
  induction path with
  | refl => exact init start starts
  | tail _ step ih =>
    obtain ⟨image, reached, related⟩ := ih (back _ _ step within)
    obtain ⟨image', path', related'⟩ :=
      answered _ _ image reached related (back _ _ step within) step within
    exact ⟨image', reached.trans path', related'⟩

end Specification

end Foundation
