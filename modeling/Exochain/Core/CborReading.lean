/-
**`exo-core` — CBOR items end by themselves.**

* **`selfDelimiting_head`** — a head says its argument: which of the five forms it has is read off its first
  byte, and no two forms share an argument.
* `selfDelimiting_unsigned`, `selfDelimiting_bytes`, `selfDelimiting_text`, `selfDelimiting_numbers` — so
  numbers, strings and arrays of bytes can be cut off whatever follows them.
* `head_ne_head`, `map_ne_text` — items of two major types start apart.
-/

import Exochain.Foundation.SelfDelimiting
import Exochain.Core.Cbor

namespace Exochain.ExoCore.Cbor

open Foundation

/-- A byte sequence as an array of numbers. -/
def numbers (sequence : List UInt8) : List UInt8 :=
  head 4 sequence.length ++ sequence.flatMap fun byte => unsigned byte.toNat

/-! ### Heads -/

/-- The low five bits of the first byte. -/
def info (argument : ℕ) : ℕ :=
  if argument < 24 then argument
  else if argument < 2 ^ 8 then 24
  else if argument < 2 ^ 16 then 25
  else if argument < 2 ^ 32 then 26
  else 27

/-- How many bytes follow the first one. -/
def width (argument : ℕ) : ℕ :=
  if argument < 24 then 0
  else if argument < 2 ^ 8 then 1
  else if argument < 2 ^ 16 then 2
  else if argument < 2 ^ 32 then 4
  else 8

theorem head_eq (major argument : ℕ) :
    head major argument =
      UInt8.ofNat (32 * major + info argument) :: (leBytes (width argument) argument).reverse := by
  unfold head info width
  split_ifs <;> rfl

theorem info_lt (argument : ℕ) : info argument < 28 := by
  unfold info
  split_ifs <;> omega

/-- The first byte says how many follow. -/
theorem width_eq_of_info_eq {argument argument' : ℕ} (same : info argument = info argument') :
    width argument = width argument' := by
  unfold info at same
  unfold width
  split_ifs at same ⊢ <;> omega

/-- Short arguments are in the first byte. -/
theorem eq_of_info_eq {argument argument' : ℕ} (same : info argument = info argument')
    (short : width argument = 0) : argument = argument' := by
  unfold info at same
  unfold width at short
  split_ifs at same short <;> omega

/-- Other ones in the bytes that follow. -/
theorem lt_pow_width {argument : ℕ} (fits : argument < 2 ^ 64) (long : width argument ≠ 0) :
    argument < 256 ^ width argument := by
  unfold width at long ⊢
  split_ifs at long ⊢ with _ byte two four
  · exact absurd rfl long
  · exact byte
  · exact two
  · exact four
  · exact fits

theorem initial_inj {major major' argument argument' : ℕ} (known : major < 8) (known' : major' < 8)
    (same : UInt8.ofNat (32 * major + info argument) = UInt8.ofNat (32 * major' + info argument')) :
    major = major' ∧ info argument = info argument' := by
  have low := info_lt argument
  have low' := info_lt argument'
  have numbers : 32 * major + info argument = 32 * major' + info argument' := by
    have bytes := congrArg UInt8.toNat same
    rwa [UInt8.toNat_ofNat', UInt8.toNat_ofNat', Nat.mod_eq_of_lt (by omega),
      Nat.mod_eq_of_lt (by omega)] at bytes
  omega

/-- **A head says its argument.** -/
theorem selfDelimiting_head {major : ℕ} (known : major < 8) :
    SelfDelimiting (fun argument => argument < 2 ^ 64) (head major) := by
  intro argument argument' fits fits' rest rest' same
  rw [head_eq, head_eq, List.cons_append, List.cons_append, List.cons.injEq] at same
  obtain ⟨first, others⟩ := same
  have infos := (initial_inj known known first).2
  have widths := width_eq_of_info_eq infos
  obtain ⟨words, rests⟩ := List.append_inj others (by simp [widths])
  refine ⟨?_, rests⟩
  by_cases short : width argument = 0
  · exact eq_of_info_eq infos short
  · have bytes : leBytes (width argument) argument = leBytes (width argument) argument' := by
      rw [List.reverse_inj.mp words, widths]
    refine leBytes_injective (lt_pow_width fits short) ?_ bytes
    rw [widths] at short ⊢
    exact lt_pow_width fits' short

/-- **Items of two major types start apart.** -/
theorem head_ne_head {major major' : ℕ} (known : major < 8) (known' : major' < 8)
    (different : major ≠ major') (argument argument' : ℕ) (rest rest' : List UInt8) :
    head major argument ++ rest ≠ head major' argument' ++ rest' := by
  intro same
  rw [head_eq, head_eq, List.cons_append, List.cons_append, List.cons.injEq] at same
  exact different (initial_inj known known' same.1).1

/-- So a map is no text. -/
theorem map_ne_text (fields : List (String × List UInt8)) (string : String) (rest rest' : List UInt8) :
    map fields ++ rest ≠ text string ++ rest' := by
  rw [map, text, List.append_assoc, List.append_assoc]
  exact head_ne_head (by decide) (by decide) (by decide) _ _ _ _

/-! ### Items -/

theorem selfDelimiting_unsigned : SelfDelimiting (fun n => n < 2 ^ 64) unsigned :=
  selfDelimiting_head (by decide)

theorem selfDelimiting_bytes :
    SelfDelimiting (fun string : List UInt8 => string.length < 2 ^ 64) bytes :=
  .block (selfDelimiting_head (by decide))

theorem selfDelimiting_text :
    SelfDelimiting (fun string : String => (textBytes string).length < 2 ^ 64) text :=
  .comap (.block (selfDelimiting_head (by decide))) textBytes_injective

/-- A byte as a number. -/
theorem selfDelimiting_byte : SelfDelimiting (fun _ => True) fun byte : UInt8 => unsigned byte.toNat := by
  intro byte byte' _ _ rest rest' same
  obtain ⟨numbers, rests⟩ := selfDelimiting_unsigned (by have := byte.toNat_lt; omega)
    (by have := byte'.toNat_lt; omega) same
  exact ⟨UInt8.toNat_inj.mp numbers, rests⟩

theorem selfDelimiting_numbers :
    SelfDelimiting (fun sequence : List UInt8 => sequence.length < 2 ^ 64) numbers := by
  intro sequence sequence' fits fits'
  exact SelfDelimiting.counted (selfDelimiting_head (by decide)) selfDelimiting_byte
    ⟨fits, fun _ _ => trivial⟩ ⟨fits', fun _ _ => trivial⟩

end Exochain.ExoCore.Cbor
