/-
**Machine words and byte strings.**

The two things every encoder and every counter of a systems program is made of.

* `Build` — the two ways one source is compiled. A checked build stops at an arithmetic overflow
  with a `Fault`; an unchecked one wraps. Arithmetic that can leave its width goes through
  `Build.add`, `Build.sub`, `Build.mul`, `Build.shl`, which take the width and answer for both builds.
* `FixedBytes width` — a byte string that carries its width, ordered lexicographically.
* `concatBlocks` — blocks of one width written one after the other. Two such concatenations, each
  followed by a tail, are equal exactly when one block list continues the other and its tail
  absorbs the difference (`concatBlocks_append_eq_iff`).
* `leBytes` — the little-endian bytes of a number, injective below the width
  (`leBytes_injective`).
-/

import Mathlib

namespace Foundation

/-! ### Faults and builds -/

/-- What stops a checked build. -/
inductive Fault where
  | arithmeticOverflow
  | shiftOverflow
  | indexOutOfBounds
  deriving DecidableEq, Repr

/-- How the program was compiled: with overflow checks or with wrapping arithmetic. -/
structure Build where
  overflowChecks : Bool
  deriving DecidableEq, Repr

namespace Build

/-- A result that left its width: a fault in a checked build, the wrapped value otherwise. -/
def overflow (build : Build) (fault : Fault) (wrapped : ℕ) : Except Fault ℕ :=
  if build.overflowChecks then .error fault else .ok wrapped

/-- `x + y` on `width` bits. -/
def add (build : Build) (width x y : ℕ) : Except Fault ℕ :=
  if x + y < 2 ^ width then .ok (x + y)
  else build.overflow .arithmeticOverflow ((x + y) % 2 ^ width)

/-- `x - y` on `width` bits. -/
def sub (build : Build) (width x y : ℕ) : Except Fault ℕ :=
  if y ≤ x then .ok (x - y)
  else build.overflow .arithmeticOverflow ((x + 2 ^ width - y) % 2 ^ width)

/-- `x * y` on `width` bits. -/
def mul (build : Build) (width x y : ℕ) : Except Fault ℕ :=
  if x * y < 2 ^ width then .ok (x * y)
  else build.overflow .arithmeticOverflow (x * y % 2 ^ width)

/-- `x << amount` on `width` bits: an unchecked build reduces the amount modulo the width. -/
def shl (build : Build) (width x amount : ℕ) : Except Fault ℕ :=
  if amount < width then .ok (x * 2 ^ amount % 2 ^ width)
  else build.overflow .shiftOverflow (x * 2 ^ (amount % width) % 2 ^ width)

@[simp] theorem add_of_lt {build : Build} {width x y : ℕ} (fits : x + y < 2 ^ width) :
    build.add width x y = .ok (x + y) := if_pos fits

@[simp] theorem sub_of_le {build : Build} {width x y : ℕ} (fits : y ≤ x) :
    build.sub width x y = .ok (x - y) := if_pos fits

@[simp] theorem mul_of_lt {build : Build} {width x y : ℕ} (fits : x * y < 2 ^ width) :
    build.mul width x y = .ok (x * y) := if_pos fits

/-- An addition returns unless a checked build finds an overflow. -/
theorem exists_add_eq_ok_iff {build : Build} {width x y : ℕ} :
    (∃ sum, build.add width x y = .ok sum) ↔ (build.overflowChecks = true → x + y < 2 ^ width) := by
  unfold add overflow
  by_cases fits : x + y < 2 ^ width
  · simp [fits]
  · cases checks : build.overflowChecks <;> simp [fits]

/-- A sum fits its width. -/
theorem lt_of_add_eq_ok {build : Build} {width x y sum : ℕ} (added : build.add width x y = .ok sum) :
    sum < 2 ^ width := by
  unfold add overflow at added
  split_ifs at added with fits
  · cases added
    exact fits
  · cases added
    exact Nat.mod_lt _ (Nat.two_pow_pos width)

theorem shl_one_of_lt {build : Build} {width amount : ℕ} (fits : amount < width) :
    build.shl width 1 amount = .ok (2 ^ amount) := by
  have below : 2 ^ amount < 2 ^ width := Nat.pow_lt_pow_right (by omega) fits
  rw [shl, if_pos fits, Nat.one_mul, Nat.mod_eq_of_lt below]

end Build

/-- `x + y` on `width` bits, held at the greatest value on overflow; the same in every build. -/
def saturatingAdd (width x y : ℕ) : ℕ := min (x + y) (2 ^ width - 1)

/-- `x * y` on `width` bits, held at the greatest value on overflow; the same in every build. -/
def saturatingMul (width x y : ℕ) : ℕ := min (x * y) (2 ^ width - 1)

/-- `x - y` on 64 bits, held at zero; the same in every build. -/
def saturatingSub (x y : UInt64) : UInt64 := if y ≤ x then x - y else 0

@[simp] theorem toNat_saturatingSub (x y : UInt64) : (saturatingSub x y).toNat = x.toNat - y.toNat := by
  unfold saturatingSub
  split
  · rename_i fits
    exact UInt64.toNat_sub_of_le x y fits
  · rename_i less
    rw [UInt64.le_iff_toNat_le] at less
    show 0 = _
    omega

/-- Reading a vector at an index, which faults past its end in every build. -/
def indexVec {α : Type*} (xs : List α) (index : ℕ) : Except Fault α :=
  match xs[index]? with
  | some x => .ok x
  | none => .error .indexOutOfBounds

theorem indexVec_eq_ok_iff {α : Type*} {xs : List α} {index : ℕ} {x : α} :
    indexVec xs index = .ok x ↔ xs[index]? = some x := by
  unfold indexVec
  cases found : xs[index]? with
  | none => simp
  | some y => simp

/-- The greatest length of a vector: it takes at most `isize::MAX` bytes, and each of its elements at
least one. -/
def maxVecLength : ℕ := 2 ^ 63 - 1

/-- Adding an element to a vector, which stops where there can be no room for it. -/
def pushVec {α : Type*} (xs : List α) (x : α) : Option (List α) :=
  if xs.length < maxVecLength then some (xs ++ [x]) else none

/-- Reserving room for elements of so many bytes each, which stops where there can be none: a vector takes
at most `isize::MAX` bytes. -/
def withCapacity (bytes count : ℕ) : Option Unit := if count * bytes ≤ maxVecLength then some () else none

theorem pushVec_eq_some_iff {α : Type*} {xs ys : List α} {x : α} :
    pushVec xs x = some ys ↔ xs.length < maxVecLength ∧ ys = xs ++ [x] := by
  unfold pushVec
  by_cases room : xs.length < maxVecLength
  · simp [room, eq_comm]
  · simp [room]

/-- An `Except` computation that succeeds did both of its parts. -/
theorem bind_eq_ok_iff {ε α β : Type} {first : Except ε α} {next : α → Except ε β} {out : β} :
    (first >>= next) = .ok out ↔ ∃ value, first = .ok value ∧ next value = .ok out := by
  cases first with
  | error fault =>
    constructor
    · intro impossible
      cases impossible
    · rintro ⟨_, impossible, _⟩
      cases impossible
  | ok value =>
    constructor
    · exact fun same => ⟨value, rfl, same⟩
    · rintro ⟨_, here, same⟩
      cases here
      exact same

/-- A check followed by a computation succeeds when both do. -/
theorem check_bind_eq_ok_iff {ε β : Type} {check : Except ε Unit} {next : Unit → Except ε β}
    {out : β} : (check >>= next) = .ok out ↔ check = .ok () ∧ next () = .ok out := by
  rw [bind_eq_ok_iff]
  constructor
  · rintro ⟨⟨⟩, passed, rest⟩
    exact ⟨passed, rest⟩
  · rintro ⟨passed, rest⟩
    exact ⟨(), passed, rest⟩

/-- A loop of checks succeeds when every one of them does. -/
theorem forM_eq_ok_iff {ε α : Type} {check : α → Except ε Unit} {xs : List α} :
    xs.forM check = .ok () ↔ ∀ x ∈ xs, check x = .ok () := by
  induction xs with
  | nil => exact ⟨fun _ _ member => absurd member List.not_mem_nil, fun _ => rfl⟩
  | cons x xs ih =>
    show (check x >>= fun _ => xs.forM check) = .ok () ↔ _
    rw [check_bind_eq_ok_iff, ih, List.forall_mem_cons]

/-- A loop of checks fails with the error of one of them. -/
theorem exists_of_forM_eq_error {ε α : Type} {check : α → Except ε Unit} {xs : List α} {error : ε}
    (failed : xs.forM check = .error error) : ∃ x ∈ xs, check x = .error error := by
  induction xs with
  | nil => cases failed
  | cons x xs ih =>
    change (check x >>= fun _ => xs.forM check) = .error error at failed
    cases checked : check x with
    | error here =>
      rw [checked] at failed
      cases failed
      exact ⟨x, List.mem_cons_self, checked⟩
    | ok done =>
      rw [checked] at failed
      obtain ⟨later, member, error_eq⟩ := ih failed
      exact ⟨later, List.mem_cons_of_mem x member, error_eq⟩

/-- A change of the error leaves the results as they are. -/
theorem mapError_eq_ok_iff {ε ε' α : Type} {change : ε → ε'} {first : Except ε α} {value : α} :
    first.mapError change = .ok value ↔ first = .ok value := by
  cases first with
  | error error => simp [Except.mapError]
  | ok here => simp [Except.mapError]

/-- A loop whose every pass succeeds collects the results. -/
theorem mapM_eq_ok_of_forall {ε α β : Type} {compute : α → Except ε β} {result : α → β} {xs : List α}
    (each : ∀ x ∈ xs, compute x = .ok (result x)) : xs.mapM compute = .ok (xs.map result) := by
  induction xs with
  | nil => rfl
  | cons x xs ih =>
    obtain ⟨here, rest⟩ := List.forall_mem_cons.mp each
    rw [List.mapM_cons, here, ih rest]
    rfl

/-- What a loop that succeeds has collected, where a pass that succeeds has a known result. -/
theorem of_mapM_eq_ok {ε α β : Type} {compute : α → Except ε β} {result : α → β} {Allowed : α → Prop}
    (each : ∀ x y, compute x = .ok y → Allowed x ∧ y = result x) {xs : List α} {ys : List β}
    (done : xs.mapM compute = .ok ys) : (∀ x ∈ xs, Allowed x) ∧ ys = xs.map result := by
  induction xs generalizing ys with
  | nil =>
    cases done
    exact ⟨fun _ member => absurd member List.not_mem_nil, rfl⟩
  | cons x xs ih =>
    rw [List.mapM_cons] at done
    obtain ⟨y, first, rest⟩ := bind_eq_ok_iff.mp done
    obtain ⟨more, others, all⟩ := bind_eq_ok_iff.mp rest
    cases all
    obtain ⟨allowed, rfl⟩ := each x y first
    obtain ⟨alls, rfl⟩ := ih others
    exact ⟨List.forall_mem_cons.mpr ⟨allowed, alls⟩, rfl⟩

/-- A loop succeeds when every pass of it does. -/
theorem exists_mapM_eq_ok_iff {ε α β : Type} {compute : α → Except ε β} {xs : List α} :
    (∃ ys, xs.mapM compute = .ok ys) ↔ ∀ x ∈ xs, ∃ y, compute x = .ok y := by
  induction xs with
  | nil => exact iff_of_true ⟨[], rfl⟩ fun _ member => absurd member List.not_mem_nil
  | cons x xs ih =>
    rw [List.forall_mem_cons, ← ih]
    constructor
    · rintro ⟨ys, done⟩
      rw [List.mapM_cons] at done
      obtain ⟨y, first, rest⟩ := bind_eq_ok_iff.mp done
      obtain ⟨more, others, _⟩ := bind_eq_ok_iff.mp rest
      exact ⟨⟨y, first⟩, more, others⟩
    · rintro ⟨⟨y, first⟩, more, others⟩
      refine ⟨y :: more, ?_⟩
      rw [List.mapM_cons, first, others]
      rfl

/-- A loop of tests that cannot fail is the conjunction of its answers. -/
theorem allM_eq_ok {ε α : Type} (test : α → Bool) (xs : List α) :
    xs.allM (fun x => (.ok (test x) : Except ε Bool)) = .ok (xs.all test) := by
  induction xs with
  | nil => rfl
  | cons x xs ih =>
    rw [List.allM, List.all_cons]
    cases passed : test x with
    | false => simp [bind, Except.bind, pure, Except.pure]
    | true => simpa [bind, Except.bind] using ih

/-! ### Fixed-width byte strings -/

instance linearOrderUInt8 : LinearOrder UInt8 where
  le_refl := UInt8.le_refl
  le_trans _ _ _ := UInt8.le_trans
  le_antisymm _ _ := UInt8.le_antisymm
  le_total := UInt8.le_total
  lt_iff_le_not_ge first second := by
    simp only [UInt8.lt_iff_toNat_lt, UInt8.le_iff_toNat_le]
    omega
  toDecidableLE := inferInstance
  toDecidableLT := inferInstance
  toDecidableEq := inferInstance

instance linearOrderUInt64 : LinearOrder UInt64 where
  le_refl := UInt64.le_refl
  le_trans _ _ _ := UInt64.le_trans
  le_antisymm _ _ := UInt64.le_antisymm
  le_total := UInt64.le_total
  lt_iff_le_not_ge first second := by
    simp only [UInt64.lt_iff_toNat_lt, UInt64.le_iff_toNat_le]
    omega
  toDecidableLE := inferInstance
  toDecidableLT := inferInstance
  toDecidableEq := inferInstance

/-- A byte string of exactly `width` bytes. -/
@[ext]
structure FixedBytes (width : ℕ) where
  toList : List UInt8
  length_eq : toList.length = width
  deriving DecidableEq

namespace FixedBytes

variable {width : ℕ}

theorem toList_injective : Function.Injective (toList : FixedBytes width → List UInt8) :=
  fun _ _ same => FixedBytes.ext same

/-- The order of byte arrays: lexicographic. -/
instance : LinearOrder (FixedBytes width) := LinearOrder.lift' toList toList_injective

instance : Std.LawfulEqOrd (FixedBytes width) where
  eq_of_compare same := compare_eq_iff_eq.mp same

/-- The byte string that repeats one byte. -/
def fill (width : ℕ) (byte : UInt8) : FixedBytes width :=
  ⟨List.replicate width byte, List.length_replicate⟩

end FixedBytes

/-! ### Blocks of one width -/

section Blocks

variable {width : ℕ}

/-- The blocks, one after the other. -/
def concatBlocks (blocks : List (FixedBytes width)) : List UInt8 :=
  blocks.flatMap FixedBytes.toList

@[simp] theorem concatBlocks_nil : concatBlocks ([] : List (FixedBytes width)) = [] := rfl

@[simp] theorem concatBlocks_cons (block : FixedBytes width) (blocks : List (FixedBytes width)) :
    concatBlocks (block :: blocks) = block.toList ++ concatBlocks blocks := rfl

theorem concatBlocks_append (first second : List (FixedBytes width)) :
    concatBlocks (first ++ second) = concatBlocks first ++ concatBlocks second :=
  List.flatMap_append

theorem length_concatBlocks (blocks : List (FixedBytes width)) :
    (concatBlocks blocks).length = blocks.length * width := by
  induction blocks with
  | nil => simp
  | cons block blocks ih =>
    rw [concatBlocks_cons, List.length_append, block.length_eq, ih, List.length_cons]
    ring

/-- **Two block strings with tails are equal exactly when the longer block list continues the
shorter one and the shorter one's tail starts with the extra blocks.** -/
theorem concatBlocks_append_eq_iff {first second : List (FixedBytes width)}
    {tail tail' : List UInt8} (shorter : first.length ≤ second.length) :
    concatBlocks first ++ tail = concatBlocks second ++ tail' ↔
      ∃ extra, second = first ++ extra ∧ tail = concatBlocks extra ++ tail' := by
  constructor
  · induction first generalizing second with
    | nil => exact fun same => ⟨second, rfl, same⟩
    | cons block first ih =>
      cases second with
      | nil => simp at shorter
      | cons block' second =>
        intro same
        rw [concatBlocks_cons, concatBlocks_cons, List.append_assoc, List.append_assoc] at same
        obtain ⟨head, rest⟩ := List.append_inj same (block.length_eq.trans block'.length_eq.symm)
        obtain ⟨extra, rfl, tailEq⟩ := ih (Nat.le_of_succ_le_succ shorter) rest
        exact ⟨extra, by rw [FixedBytes.ext head, List.cons_append], tailEq⟩
  · rintro ⟨extra, rfl, rfl⟩
    rw [concatBlocks_append, List.append_assoc]

/-- Blocks of a positive width can be read back from their concatenation. -/
theorem concatBlocks_injective (positive : 0 < width) :
    Function.Injective (concatBlocks : List (FixedBytes width) → List UInt8) := by
  intro first second same
  have lengths := congrArg List.length same
  rw [length_concatBlocks, length_concatBlocks] at lengths
  have sameLength := Nat.eq_of_mul_eq_mul_right positive lengths
  have tails : concatBlocks first ++ [] = concatBlocks second ++ [] := by rw [same]
  obtain ⟨extra, continued, nothing⟩ := (concatBlocks_append_eq_iff sameLength.le).mp tails
  have none : extra = [] := by
    rw [continued, List.length_append] at sameLength
    exact List.length_eq_zero_iff.mp (by omega)
  rw [continued, none, List.append_nil]

end Blocks

/-! ### Little-endian numbers -/

/-- The `width` low bytes of a number, least significant first. -/
def leBytes : ℕ → ℕ → List UInt8
  | 0, _ => []
  | width + 1, value => UInt8.ofNat (value % 256) :: leBytes width (value / 256)

@[simp] theorem length_leBytes (width value : ℕ) : (leBytes width value).length = width := by
  induction width generalizing value with
  | zero => rfl
  | succ width ih => rw [leBytes, List.length_cons, ih]

/-- **A number below `256 ^ width` can be read back from its little-endian bytes.** -/
theorem leBytes_injective {width value value' : ℕ} (fits : value < 256 ^ width)
    (fits' : value' < 256 ^ width) (same : leBytes width value = leBytes width value') :
    value = value' := by
  induction width generalizing value value' with
  | zero =>
    simp only [pow_zero, Nat.lt_one_iff] at fits fits'
    rw [fits, fits']
  | succ width ih =>
    simp only [leBytes, List.cons.injEq] at same
    have low : value % 256 = value' % 256 := by
      have bytes := congrArg UInt8.toNat same.1
      simpa using bytes
    have high : value / 256 = value' / 256 := by
      refine ih ?_ ?_ same.2
      · exact Nat.div_lt_of_lt_mul (by rwa [pow_succ, Nat.mul_comm] at fits)
      · exact Nat.div_lt_of_lt_mul (by rwa [pow_succ, Nat.mul_comm] at fits')
    omega

end Foundation
