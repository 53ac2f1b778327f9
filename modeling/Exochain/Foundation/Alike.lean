/-
**Two fallible computations side by side.**

`Alike R` relates two computations that both fail, with whatever errors, and two that both succeed with
values that `R` relates.

* `Alike.bind` — the rule for a computation in two parts; `Alike.map_left` for a part that only one side
  has.
* `Alike.trans` — relations compose through a computation between.
* `alike_eq_iff` — two computations are alike for equality when they return the same values.
-/

import Mathlib

namespace Foundation

/-- Both computations fail, or both succeed with related values. -/
inductive Alike {ε α β : Type} (R : α → β → Prop) : Except ε α → Except ε β → Prop
  | ok {a : α} {b : β} (related : R a b) : Alike R (.ok a) (.ok b)
  | error (first second : ε) : Alike R (.error first) (.error second)

namespace Alike

variable {ε α β γ δ : Type} {R : α → β → Prop} {first : Except ε α} {second : Except ε β}

/-- Alike computations succeed together or fail together. -/
theorem ok_or_error (alike : Alike R first second) :
    (∃ a b, first = .ok a ∧ second = .ok b ∧ R a b) ∨
      ∃ e e', first = .error e ∧ second = .error e' := by
  cases alike with
  | ok related => exact .inl ⟨_, _, rfl, rfl, related⟩
  | error e e' => exact .inr ⟨e, e', rfl, rfl⟩

/-- A weaker relation relates at least as much. -/
theorem mono {S : α → β → Prop} (weaker : ∀ a b, R a b → S a b) (alike : Alike R first second) :
    Alike S first second := by
  cases alike with
  | ok related => exact .ok (weaker _ _ related)
  | error e e' => exact .error e e'

/-- **Two parts**: if the first parts are alike, and the second parts on related values, so is the
whole. -/
theorem bind {S : γ → δ → Prop} {next : α → Except ε γ} {next' : β → Except ε δ}
    (alike : Alike R first second) (parts : ∀ a b, R a b → Alike S (next a) (next' b)) :
    Alike S (first >>= next) (second >>= next') := by
  cases alike with
  | ok related => exact parts _ _ related
  | error e e' => exact .error e e'

/-- One side goes on to change its value. -/
theorem map_left {S : γ → β → Prop} {change : α → γ} (alike : Alike R first second)
    (changed : ∀ a b, R a b → S (change a) b) :
    Alike S (first >>= fun a => .ok (change a)) second := by
  cases alike with
  | ok related => exact .ok (changed _ _ related)
  | error e e' => exact .error e e'

theorem symm {S : β → α → Prop} (symmetric : ∀ a b, R a b → S b a) (alike : Alike R first second) :
    Alike S second first := by
  cases alike with
  | ok related => exact .ok (symmetric _ _ related)
  | error e e' => exact .error e' e

/-- Three computations, the outer ones related through the one between. -/
theorem trans {S : β → γ → Prop} {T : α → γ → Prop} {third : Except ε γ}
    (one : Alike R first second) (two : Alike S second third)
    (composed : ∀ a b c, R a b → S b c → T a c) : Alike T first third := by
  cases one with
  | ok related =>
    cases two with
    | ok related' => exact .ok (composed _ _ _ related related')
  | error e e' =>
    cases two with
    | error _ e'' => exact .error e e''

end Alike

/-- **Alike for equality**: the same values are returned. -/
theorem alike_eq_iff {ε α : Type} {first second : Except ε α} :
    Alike (· = ·) first second ↔ ∀ a, first = .ok a ↔ second = .ok a := by
  constructor
  · intro alike a
    cases alike with
    | ok related => rw [related]
    | error e e' => simp
  · intro same
    cases first with
    | ok a =>
      rw [(same a).mp rfl]
      exact .ok rfl
    | error e =>
      cases second with
      | ok b => cases (same b).mpr rfl
      | error e' => exact .error e e'

end Foundation
