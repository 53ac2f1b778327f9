/-
**Reading a list page by page.**

A reader asks for the pages at the multiples of a stride, each of at most some size.

* `flatMap_page` — what it has read after so many pages.
* **`pages_eq_self_iff`** — where no page is longer than the stride, it has read the whole list exactly if the
  pages are as long as the stride, or one page holds everything.
-/

import Mathlib.Data.List.Basic

namespace Foundation

variable {α : Type*}

/-- A page of a list. -/
def page (offset size : ℕ) (items : List α) : List α := (items.drop offset).take size

/-- The first pages, one after the other. -/
def pages (stride size : ℕ) : ℕ → List α → List α
  | 0, _ => []
  | count + 1, items => items.take size ++ pages stride size count (items.drop stride)

theorem flatMap_page (stride size count : ℕ) (items : List α) :
    ((List.range count).flatMap fun index => page (index * stride) size items) =
      pages stride size count items := by
  induction count generalizing items with
  | zero => rfl
  | succ count ih =>
    rw [List.range_succ_eq_map, List.flatMap_cons, List.flatMap_map, pages, ← ih]
    simp only [page, Nat.zero_mul, List.drop_zero, List.drop_drop, Nat.succ_mul, Nat.add_comm]

theorem pages_nil (stride size count : ℕ) : pages stride size count ([] : List α) = [] := by
  induction count with
  | zero => rfl
  | succ count ih => rw [pages, List.drop_nil, ih, List.take_nil, List.append_nil]

/-- Pages as long as the stride leave nothing out. -/
theorem pages_self (size count : ℕ) (items : List α) :
    pages size size count items = items.take (count * size) := by
  induction count generalizing items with
  | zero => rw [pages, Nat.zero_mul, List.take_zero]
  | succ count ih => rw [pages, ih, Nat.succ_mul, Nat.add_comm, List.take_add]

/-- Pages that do not overlap hold no more than the list. -/
theorem length_pages_le {stride size : ℕ} (apart : size ≤ stride) (count : ℕ) (items : List α) :
    (pages stride size count items).length ≤ items.length := by
  induction count generalizing items with
  | zero => exact Nat.zero_le _
  | succ count ih =>
    have rest := ih (items.drop stride)
    rw [List.length_drop] at rest
    rw [pages, List.length_append, List.length_take]
    omega

/-- **The reader has read the whole list** exactly if the pages are as long as the stride, or one page holds
everything. -/
theorem pages_eq_self_iff {stride size count : ℕ} {items : List α} (apart : size ≤ stride)
    (enough : items.length ≤ count * stride) :
    pages stride size count items = items ↔ stride = size ∨ items.length ≤ size := by
  constructor
  · intro whole
    by_contra missed
    obtain ⟨longer, more⟩ := not_or.mp missed
    cases count with
    | zero => omega
    | succ count =>
      -- what lies between the end of the first page and the second one is on no page
      have lengths := congrArg List.length whole
      have rest := length_pages_le apart count (items.drop stride)
      rw [List.length_drop] at rest
      rw [pages, List.length_append, List.length_take] at lengths
      omega
  · rintro (rfl | short)
    · rw [pages_self, List.take_of_length_le enough]
    · cases count with
      | zero =>
        rw [Nat.zero_mul, Nat.le_zero, List.length_eq_zero_iff] at enough
        rw [enough, pages]
      | succ count =>
        rw [pages, List.drop_eq_nil_of_le (Nat.le_trans short apart), pages_nil, List.append_nil,
          List.take_of_length_le short]

end Foundation
