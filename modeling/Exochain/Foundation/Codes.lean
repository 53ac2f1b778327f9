/-
**Codes: reading words back from their concatenation.**

* `PrefixFree code` — no word starts another one, as where all words have one length
  (`PrefixFree.of_length`). Then a concatenation of words determines them
  (`PrefixFree.flatMap_injective`). So it does where their lengths are known (`eq_of_flatMap_eq`).
* `Marked mark code` — moreover a word starts with a marked symbol and has no other one. Then a
  concatenation can only end in another one at a word (**`Marked.flatMap_eq_append_iff`**), whatever
  stands before it, and two readings of a text with a word in it never overlap in their words
  (**`Marked.append_eq_append_iff`**).
* `wordBytes` — a 64-bit word as its bytes; a list of words can be read back
  (`flatMap_wordBytes_injective`).
* `textBytes` — a text as UTF-8, where a byte below 128 comes from the character of that number
  alone (`toNat_of_mem_utf8EncodeChar`).
* Hexadecimal numerals determine their number (`toDigits_injective`), and so do the digits of a byte
  string (`flatMap_hexByte_injective`).
* A text that ends in a clean field is cut at its last separator in one way (`cut_at_last_separator`);
  so is a text that ends in a number after a blank (`cut_at_number`).
-/

import Exochain.Foundation.Machine

set_option linter.unusedSectionVars false

namespace Foundation

/-! ### Words -/

section Words

variable {α β : Type*} {code : α → List β}

/-- No word is empty, and none starts another one. -/
structure PrefixFree (code : α → List β) : Prop where
  nonempty : ∀ a, code a ≠ []
  eq_of_starts : ∀ a b, code a <+: code b → a = b

namespace PrefixFree

/-- The first word of a concatenation. -/
theorem head_eq (free : PrefixFree code) {a b : α} {rest rest' : List β}
    (same : code a ++ rest = code b ++ rest') : a = b := by
  have first : code a <+: code a ++ rest := List.prefix_append _ _
  have second : code b <+: code a ++ rest := same ▸ List.prefix_append _ _
  rcases List.prefix_or_prefix_of_prefix first second with starts | starts
  · exact free.eq_of_starts a b starts
  · exact (free.eq_of_starts b a starts).symm

theorem flatMap_eq_nil (free : PrefixFree code) {xs : List α} (empty : xs.flatMap code = []) :
    xs = [] := by
  cases xs with
  | nil => rfl
  | cons x xs =>
    rw [List.flatMap_cons, List.append_eq_nil_iff] at empty
    exact absurd empty.1 (free.nonempty x)

/-- **The words can be read back.** -/
theorem flatMap_injective (free : PrefixFree code) :
    Function.Injective fun xs : List α => xs.flatMap code := by
  intro xs
  induction xs with
  | nil => exact fun ys same => (free.flatMap_eq_nil same.symm).symm
  | cons x xs ih =>
    intro ys same
    cases ys with
    | nil => exact free.flatMap_eq_nil same
    | cons y ys =>
      simp only [List.flatMap_cons] at same
      obtain rfl := free.head_eq same
      rw [ih (List.append_cancel_left same)]

/-- Words of one length start no other word. -/
theorem of_length {length : ℕ} (positive : 0 < length) (width : ∀ a, (code a).length = length)
    (injective : Function.Injective code) : PrefixFree code where
  nonempty a empty := by
    have lengths := width a
    rw [empty, List.length_nil] at lengths
    omega
  eq_of_starts a b starts :=
    injective (starts.eq_of_length ((width a).trans (width b).symm))

end PrefixFree

/-- **Words of known lengths can be read back**: here a key of the word determines its length. -/
theorem eq_of_flatMap_eq {κ : Type*} (key : α → κ)
    (length : ∀ a b, key a = key b → (code a).length = (code b).length) {xs ys : List α}
    (keys : xs.map key = ys.map key)
    (injective : ∀ x ∈ xs, ∀ y ∈ ys, key x = key y → code x = code y → x = y)
    (same : xs.flatMap code = ys.flatMap code) : xs = ys := by
  induction xs generalizing ys with
  | nil => exact (List.map_eq_nil_iff.mp keys.symm).symm
  | cons x xs ih =>
    cases ys with
    | nil => cases keys
    | cons y ys =>
      rw [List.map_cons, List.map_cons, List.cons.injEq] at keys
      rw [List.flatMap_cons, List.flatMap_cons] at same
      obtain ⟨words, rest⟩ := List.append_inj same (length x y keys.1)
      rw [injective x List.mem_cons_self y List.mem_cons_self keys.1 words,
        ih keys.2 (fun a aIn b bIn => injective a (List.mem_cons_of_mem x aIn) b
          (List.mem_cons_of_mem y bIn)) rest]

/-- **A text is cut at its last separator** in one way only. -/
theorem cut_at_last_separator {separator : β} {front front' last last' : List β}
    (clean : separator ∉ last) (clean' : separator ∉ last')
    (same : front ++ separator :: last = front' ++ separator :: last') :
    front = front' ∧ last = last' := by
  rcases List.append_eq_append_iff.mp same with ⟨more, frontEq, lastEq⟩ | ⟨more, frontEq, lastEq⟩
  · cases more with
    | nil =>
      rw [List.nil_append, List.cons.injEq] at lastEq
      exact ⟨by rw [frontEq, List.append_nil], lastEq.2⟩
    | cons _ more =>
      rw [List.cons_append, List.cons.injEq] at lastEq
      exact absurd (lastEq.2 ▸ List.mem_append_right more List.mem_cons_self) clean
  · cases more with
    | nil =>
      rw [List.nil_append, List.cons.injEq] at lastEq
      exact ⟨by rw [frontEq, List.append_nil], lastEq.2.symm⟩
    | cons _ more =>
      rw [List.cons_append, List.cons.injEq] at lastEq
      exact absurd (lastEq.2 ▸ List.mem_append_right more List.mem_cons_self) clean'

/-- Words with a mark: the first symbol and no other one. -/
structure Marked (mark : β → Bool) (code : α → List β) : Prop extends PrefixFree code where
  head_marked : ∀ a, ∀ b ∈ (code a).head?, mark b = true
  tail_unmarked : ∀ a, ∀ b ∈ (code a).tail, mark b = false

namespace Marked

variable {mark : β → Bool}

/-- No word starts inside another one. -/
theorem eq_nil_of_word_inside (marked : Marked mark code) {a b : α}
    {before inside more rest : List β} (split : code a = before ++ inside) (started : before ≠ [])
    (same : code b ++ more = inside ++ rest) : inside = [] := by
  cases inside with
  | nil => rfl
  | cons first inside =>
    have unmarked : mark first = false := by
      apply marked.tail_unmarked a
      rw [split, List.tail_append_of_ne_nil started]
      exact List.mem_append_right _ List.mem_cons_self
    have head : (code b).head? = some first := by
      rw [← List.head?_append_of_ne_nil _ (marked.nonempty b), same]
      rfl
    rw [marked.head_marked b first head] at unmarked
    cases unmarked

/-- A concatenation that starts inside a word is empty. -/
theorem eq_nil_of_inside (marked : Marked mark code) {a : α} {before inside : List β}
    {ys : List α} {rest : List β} (split : code a = before ++ inside) (started : before ≠ [])
    (same : ys.flatMap code = inside ++ rest) : inside = [] := by
  cases ys with
  | nil => exact (List.append_eq_nil_iff.mp same.symm).1
  | cons y ys =>
    rw [List.flatMap_cons] at same
    exact marked.eq_nil_of_word_inside split started same

/-- A text with a word in it, read again with a word further on. -/
theorem eq_or_of_append_eq (marked : Marked mark code) {a b : α} {shift rest rest' : List β}
    (same : code a ++ rest = shift ++ (code b ++ rest')) :
    (shift = [] ∧ a = b ∧ rest = rest') ∨
      ∃ between, shift = code a ++ between ∧ rest = between ++ code b ++ rest' := by
  by_cases started : shift = []
  · subst started
    rw [List.nil_append] at same
    obtain rfl := marked.head_eq same
    exact .inl ⟨rfl, rfl, List.append_cancel_left same⟩
  · rcases List.append_eq_append_iff.mp same with ⟨between, further, rests⟩ | ⟨inside, split, below⟩
    · exact .inr ⟨between, further, by rw [rests, List.append_assoc]⟩
    · obtain rfl := marked.eq_nil_of_word_inside split started below
      rw [List.append_nil] at split
      exact .inr ⟨[], by rw [split, List.append_nil], by simpa using below.symm⟩

/-- **The readings of a text with a word in it**: the same word at the same place, or the word of
one reading lies whole in what follows the word of the other. -/
theorem append_eq_append_iff (marked : Marked mark code) {front front' rest rest' : List β}
    {a b : α} :
    front ++ code a ++ rest = front' ++ code b ++ rest' ↔
      (front = front' ∧ a = b ∧ rest = rest') ∨
      (∃ between, front' = front ++ code a ++ between ∧ rest = between ++ code b ++ rest') ∨
      ∃ between, front = front' ++ code b ++ between ∧ rest' = between ++ code a ++ rest := by
  constructor
  · intro same
    rw [List.append_assoc, List.append_assoc] at same
    rcases List.append_eq_append_iff.mp same with ⟨shift, further, rests⟩ | ⟨shift, further, rests⟩
    · rcases marked.eq_or_of_append_eq rests with ⟨rfl, words, ends⟩ | ⟨between, rfl, ends⟩
      · exact .inl ⟨by rw [further, List.append_nil], words, ends⟩
      · exact .inr (.inl ⟨between, by rw [further, List.append_assoc], ends⟩)
    · rcases marked.eq_or_of_append_eq rests with ⟨rfl, words, ends⟩ | ⟨between, rfl, ends⟩
      · exact .inl ⟨by rw [further, List.append_nil], words.symm, ends.symm⟩
      · exact .inr (.inr ⟨between, by rw [further, List.append_assoc], ends⟩)
  · rintro (⟨rfl, rfl, rfl⟩ | ⟨between, rfl, rfl⟩ | ⟨between, rfl, rfl⟩)
    · rfl
    · simp only [List.append_assoc]
    · simp only [List.append_assoc]

/-- **Only whole words can be cut off**: where a concatenation ends in another one, its last words
are those of the other one. -/
theorem flatMap_eq_append_iff (marked : Marked mark code) {xs ys : List α} {before : List β} :
    xs.flatMap code = before ++ ys.flatMap code ↔
      ∃ cut, xs = cut ++ ys ∧ before = cut.flatMap code := by
  refine ⟨fun same => ?_, ?_⟩
  · induction xs generalizing before with
    | nil =>
      obtain ⟨rfl, none⟩ := List.append_eq_nil_iff.mp same.symm
      exact ⟨[], (marked.flatMap_eq_nil none).symm, rfl⟩
    | cons x xs ih =>
      rw [List.flatMap_cons] at same
      by_cases started : before = []
      · subst started
        rw [List.nil_append, ← List.flatMap_cons] at same
        exact ⟨[], marked.flatMap_injective same, rfl⟩
      · rcases List.append_eq_append_iff.mp same with ⟨more, rfl, below⟩ | ⟨inside, split, below⟩
        · obtain ⟨cut, rfl, rfl⟩ := ih below
          exact ⟨x :: cut, rfl, rfl⟩
        · -- the other concatenation would start inside the word
          obtain rfl := marked.eq_nil_of_inside split started below
          rw [List.append_nil] at split
          have above : xs.flatMap code = [] ++ ys.flatMap code := below.symm
          obtain ⟨cut, rfl, none⟩ := ih above
          exact ⟨x :: cut, rfl, by rw [List.flatMap_cons, ← none, List.append_nil, split]⟩
  · rintro ⟨cut, rfl, rfl⟩
    rw [List.flatMap_append]

end Marked

end Words

/-! ### Machine words -/

/-- The bytes of a 64-bit word, least significant first. -/
def wordBytes (word : UInt64) : List UInt8 := leBytes 8 word.toNat

@[simp] theorem length_wordBytes (word : UInt64) : (wordBytes word).length = 8 := length_leBytes 8 _

theorem wordBytes_injective : Function.Injective wordBytes := by
  intro word word' same
  exact UInt64.toNat_inj.mp (leBytes_injective word.toNat_lt word'.toNat_lt same)

/-- **The words of a list can be read back from their bytes.** -/
theorem flatMap_wordBytes_injective :
    Function.Injective fun words : List UInt64 => words.flatMap wordBytes :=
  (PrefixFree.of_length (by omega) length_wordBytes wordBytes_injective).flatMap_injective

/-! ### Text -/

/-- A text as UTF-8. -/
def textBytes (text : String) : List UInt8 := text.toUTF8.data.toList

theorem textBytes_injective : Function.Injective textBytes := by
  intro text text' same
  apply String.toByteArray_inj.mp
  apply ByteArray.ext
  exact Array.toList_inj.mp same

theorem textBytes_append (text text' : String) :
    textBytes (text ++ text') = textBytes text ++ textBytes text' := by
  rw [textBytes, String.toUTF8_eq_toByteArray, String.toByteArray_append, ByteArray.data_append,
    Array.toList_append]
  rfl

theorem textBytes_ofList (chars : List Char) :
    textBytes (String.ofList chars) = chars.flatMap String.utf8EncodeChar := by
  rw [textBytes, String.toUTF8_eq_toByteArray, String.toByteArray_ofList, List.utf8Encode]
  simp

/-- **A byte below 128 stands for its own character alone.** -/
theorem toNat_of_mem_utf8EncodeChar {c : Char} {byte : UInt8}
    (member : byte ∈ String.utf8EncodeChar c) (ascii : byte.toNat < 128) :
    c.toNat = byte.toNat := by
  have high : ∀ n : ℕ, n < 128 → byte ≠ UInt8.ofNat (n + 128) := by
    intro n small same
    rw [same, UInt8.toNat_ofNat'] at ascii
    omega
  simp only [String.utf8EncodeChar] at member
  split at member
  · rename_i small
    rw [List.mem_singleton] at member
    rw [member, UInt8.toNat_ofNat', Nat.mod_eq_of_lt (by omega)]
    rfl
  -- the bytes of a longer encoding are all at least 128
  exfalso
  split at member
  · simp only [List.mem_cons, List.not_mem_nil, or_false] at member
    rcases member with same | same
    · exact high (c.val.toNat / 64 % 32 + 64) (by omega) same
    · exact high (c.val.toNat % 64) (by omega) same
  split at member
  · simp only [List.mem_cons, List.not_mem_nil, or_false] at member
    rcases member with same | same | same
    · exact high (c.val.toNat / 4096 % 16 + 96) (by omega) same
    · exact high (c.val.toNat / 64 % 64) (by omega) same
    · exact high (c.val.toNat % 64) (by omega) same
  · simp only [List.mem_cons, List.not_mem_nil, or_false] at member
    rcases member with same | same | same | same
    · exact high (c.val.toNat / 262144 % 8 + 112) (by omega) same
    · exact high (c.val.toNat / 4096 % 64) (by omega) same
    · exact high (c.val.toNat / 64 % 64) (by omega) same
    · exact high (c.val.toNat % 64) (by omega) same

/-! ### Decimal numerals -/

/-- The digits of a number hold no blank. -/
theorem blank_not_mem_decimal (n : ℕ) : 32 ∉ textBytes (toString n) := by
  intro member
  rw [← String.ofList_toList (s := toString n), textBytes_ofList] at member
  obtain ⟨c, digit, byte⟩ := List.mem_flatMap.mp member
  have code : c.toNat = 32 := toNat_of_mem_utf8EncodeChar byte (by decide)
  have listed : c ∈ Nat.toDigits 10 n := Nat.toList_repr ▸ digit
  have isDigit := Nat.isDigit_of_mem_toDigits (by omega) le_rfl listed
  simp only [Char.isDigit, Bool.and_eq_true, decide_eq_true_eq, ge_iff_le, UInt32.le_iff_toNat_le]
    at isDigit
  have low : 48 ≤ c.toNat := isDigit.1
  omega

/-- **A number after a blank can be read back from the end.** -/
theorem cut_at_number {front front' : List UInt8} (blank : front.getLast? = some 32)
    (blank' : front'.getLast? = some 32) {n n' : ℕ}
    (same : front ++ textBytes (toString n) = front' ++ textBytes (toString n')) :
    front = front' ∧ n = n' := by
  obtain ⟨before, rfl⟩ := List.getLast?_eq_some_iff.mp blank
  obtain ⟨before', rfl⟩ := List.getLast?_eq_some_iff.mp blank'
  rw [List.append_assoc, List.append_assoc, List.singleton_append, List.singleton_append] at same
  obtain ⟨fronts, numbers⟩ :=
    cut_at_last_separator (blank_not_mem_decimal n) (blank_not_mem_decimal n') same
  exact ⟨congrArg (· ++ [32]) fronts, Nat.repr_injective (textBytes_injective numbers)⟩

/-! ### Hexadecimal numerals -/

theorem exists_of_mem_toDigits {n : ℕ} {c : Char} (member : c ∈ Nat.toDigits 16 n) :
    ∃ digit < 16, c = digit.digitChar := by
  induction n using Nat.strong_induction_on with
  | _ n ih =>
    rw [Nat.toDigits_eq_if (by omega)] at member
    split at member
    · rename_i small
      exact ⟨n, small, List.mem_singleton.mp member⟩
    · rcases List.mem_append.mp member with inFront | last
      · exact ih (n / 16) (by omega) inFront
      · exact ⟨n % 16, Nat.mod_lt n (by omega), List.mem_singleton.mp last⟩

theorem digitChar_inj {digit digit' : ℕ} (small : digit < 16) (small' : digit' < 16)
    (same : digit.digitChar = digit'.digitChar) : digit = digit' := by
  have table : ∀ x y : Fin 16, (x : ℕ).digitChar = (y : ℕ).digitChar → x = y := by decide
  exact congrArg Fin.val (table ⟨digit, small⟩ ⟨digit', small'⟩ same)

/-- A byte as two hexadecimal digits. -/
def hexByte (byte : UInt8) : List Char :=
  [Nat.digitChar (byte.toNat / 16), Nat.digitChar (byte.toNat % 16)]

theorem hexByte_injective : Function.Injective hexByte := by
  intro byte byte' same
  rw [hexByte, hexByte, List.cons.injEq, List.cons.injEq] at same
  have small := byte.toNat_lt
  have small' := byte'.toNat_lt
  have high := digitChar_inj (by omega) (by omega) same.1
  have low := digitChar_inj (Nat.mod_lt _ (by omega)) (Nat.mod_lt _ (by omega)) same.2.1
  exact UInt8.toNat_inj.mp (by omega)

/-- **Bytes can be read back from their hexadecimal digits.** -/
theorem flatMap_hexByte_injective :
    Function.Injective fun bytes : List UInt8 => bytes.flatMap hexByte :=
  (PrefixFree.of_length Nat.two_pos (fun _ => rfl) hexByte_injective).flatMap_injective

/-- **A numeral determines its number.** -/
theorem toDigits_injective : Function.Injective (Nat.toDigits 16) := by
  intro n
  induction n using Nat.strong_induction_on with
  | _ n ih =>
    intro m same
    rw [Nat.toDigits_eq_if (by omega), Nat.toDigits_eq_if (b := 16) (n := m) (by omega)] at same
    split at same
    · rename_i small
      split at same
      · rename_i small'
        exact digitChar_inj small small' (List.singleton_inj.mp same)
      · have lengths := congrArg List.length same
        rw [List.length_append, List.length_singleton, List.length_singleton] at lengths
        have some_digit := Nat.length_toDigits_pos (b := 16) (n := m / 16)
        omega
    · split at same
      · have lengths := congrArg List.length same
        rw [List.length_append, List.length_singleton, List.length_singleton] at lengths
        have some_digit := Nat.length_toDigits_pos (b := 16) (n := n / 16)
        omega
      · obtain ⟨fronts, lasts⟩ := List.append_inj' same rfl
        have quotients := ih (n / 16) (by omega) fronts
        have remainders := digitChar_inj (Nat.mod_lt n (by omega)) (Nat.mod_lt m (by omega))
          (List.singleton_inj.mp lasts)
        omega

end Foundation
