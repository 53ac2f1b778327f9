/-
**Codes whose words end by themselves.**

A code is self-delimiting on a domain if a word of the domain can be cut off whatever follows it: the word and
the rest are read back. Unlike a prefix-free code it may have an empty word.

* `SelfDelimiting.comap` — what is written through an injection.
* `SelfDelimiting.counted`, `SelfDelimiting.block` — a list of words behind their number, and symbols behind
  theirs.
-/

import Exochain.Foundation.Codes

namespace Foundation

variable {α α' β : Type*}

/-- A word of the domain can be cut off whatever follows it. -/
def SelfDelimiting (P : α → Prop) (code : α → List β) : Prop :=
  ∀ ⦃a b : α⦄, P a → P b → ∀ ⦃rest rest' : List β⦄,
    code a ++ rest = code b ++ rest' → a = b ∧ rest = rest'

namespace SelfDelimiting

variable {P : α → Prop} {code : α → List β}

/-- Words of the domain are told apart. -/
theorem eq_of_eq (delimits : SelfDelimiting P code) {a b : α} (here : P a) (there : P b)
    (same : code a = code b) : a = b := by
  refine (delimits here there (?_ : code a ++ [] = code b ++ [])).1
  rw [same]

/-- What is written through an injection. -/
theorem comap (delimits : SelfDelimiting P code) {write : α' → α} (injective : Function.Injective write) :
    SelfDelimiting (fun a => P (write a)) (fun a => code (write a)) := by
  intro a b here there rest rest' same
  obtain ⟨words, rests⟩ := delimits here there same
  exact ⟨injective words, rests⟩

/-- As many words of the domain as the other side has. -/
theorem flatMap_append_inj (delimits : SelfDelimiting P code) {xs ys : List α} (here : ∀ x ∈ xs, P x)
    (there : ∀ y ∈ ys, P y) (lengths : xs.length = ys.length) {rest rest' : List β}
    (same : xs.flatMap code ++ rest = ys.flatMap code ++ rest') : xs = ys ∧ rest = rest' := by
  induction xs generalizing ys with
  | nil =>
    obtain rfl := List.length_eq_zero_iff.mp lengths.symm
    exact ⟨rfl, same⟩
  | cons x xs ih =>
    cases ys with
    | nil => exact absurd lengths (Nat.succ_ne_zero _)
    | cons y ys =>
      rw [List.flatMap_cons, List.flatMap_cons, List.append_assoc, List.append_assoc] at same
      obtain ⟨rfl, same'⟩ := delimits (here x List.mem_cons_self) (there y List.mem_cons_self) same
      obtain ⟨rfl, rests⟩ := ih (fun x member => here x (List.mem_cons_of_mem _ member))
        (fun y member => there y (List.mem_cons_of_mem _ member)) (Nat.succ_injective lengths) same'
      exact ⟨rfl, rests⟩

/-- **A list of words behind their number.** -/
theorem counted {Q : ℕ → Prop} {count : ℕ → List β} (counts : SelfDelimiting Q count)
    (delimits : SelfDelimiting P code) :
    SelfDelimiting (fun xs : List α => Q xs.length ∧ ∀ x ∈ xs, P x)
      (fun xs => count xs.length ++ xs.flatMap code) := by
  rintro xs ys ⟨fits, here⟩ ⟨fits', there⟩ rest rest' same
  rw [List.append_assoc, List.append_assoc] at same
  obtain ⟨lengths, same'⟩ := counts fits fits' same
  exact delimits.flatMap_append_inj here there lengths same'

/-- Symbols behind their number. -/
theorem block {Q : ℕ → Prop} {count : ℕ → List β} (counts : SelfDelimiting Q count) :
    SelfDelimiting (fun symbols : List β => Q symbols.length)
      (fun symbols => count symbols.length ++ symbols) := by
  intro symbols symbols' fits fits' rest rest' same
  rw [List.append_assoc, List.append_assoc] at same
  obtain ⟨lengths, same'⟩ := counts fits fits' same
  exact List.append_inj same' lengths

end SelfDelimiting

end Foundation
