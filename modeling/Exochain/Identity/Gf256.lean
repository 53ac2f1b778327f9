/-
**`exo-identity` — the byte arithmetic behind secret sharing.**

`gf256Mul` multiplies in eight rounds of shift and conditional exclusive or, without a branch on its
arguments; `gf256Inv` raises to the 254th power by a fixed chain of products.

* Both rounds are linear in the two arguments, so the product is bilinear over exclusive or
  (`gf256Mul_bilinear`) and its laws are those of the powers of two.
* Every byte but zero has the inverse that the chain computes (`mul_inv`).

**`Gf256`** — bytes with exclusive or as addition and this product are a field.
-/

import Exochain.Foundation.Bytes

namespace Exochain.ExoIdentity

open Foundation

/-! ### The two functions -/

/-- The rounds of the product that are left, with the running `a`, `b` and result. -/
def gf256Loop : ℕ → UInt8 → UInt8 → UInt8 → UInt8
  | 0, _, _, result => result
  | rounds + 1, a, b, result =>
    let mask := 0 - (b &&& 1)
    let carry := (a >>> 7) &&& 1
    gf256Loop rounds ((a <<< 1) ^^^ (0x1b &&& (0 - carry))) (b >>> 1) (result ^^^ (a &&& mask))

/-- The product of two bytes. -/
def gf256Mul (a b : UInt8) : UInt8 := gf256Loop 8 a b 0

/-- The inverse of a byte; zero for zero. -/
def gf256Inv (a : UInt8) : UInt8 :=
  if a = 0 then 0
  else
    let a2 := gf256Mul a a
    let a3 := gf256Mul a2 a
    let a6 := gf256Mul a3 a3
    let a7 := gf256Mul a6 a
    let a14 := gf256Mul a7 a7
    let a15 := gf256Mul a14 a
    let a30 := gf256Mul a15 a15
    let a31 := gf256Mul a30 a
    let a62 := gf256Mul a31 a31
    let a63 := gf256Mul a62 a
    let a126 := gf256Mul a63 a63
    let a127 := gf256Mul a126 a
    gf256Mul a127 a127

/-! ### The product is bilinear -/

/-- The mask of a bit: all ones or all zeros. -/
def bitMask (a : UInt8) : UInt8 := 0 - (a &&& 1)

theorem and_xor_distrib (a b c : UInt8) : a &&& (b ^^^ c) = (a &&& b) ^^^ (a &&& c) := by
  apply UInt8.eq_of_toBitVec_eq
  apply BitVec.eq_of_getElem_eq
  intro i inside
  simp [Bool.and_xor_distrib_left]

theorem bitMask_linear : XorLinear bitMask := by
  intro a b
  have low : ∀ x : UInt8, x &&& 1 = 0 ∨ x &&& 1 = 1 := by decide +kernel
  have bits : (a ^^^ b) &&& 1 = (a &&& 1) ^^^ (b &&& 1) := by
    rw [UInt8.and_comm, and_xor_distrib, UInt8.and_comm 1, UInt8.and_comm 1]
  rw [bitMask, bitMask, bitMask, bits]
  rcases low a with zero | one <;> rcases low b with zero' | one' <;> simp [*]

/-- What a round makes of `a`: shifted, and reduced if a bit falls out. -/
def xtime (a : UInt8) : UInt8 := (a <<< 1) ^^^ ((0x1b : UInt8) &&& bitMask (a >>> 7))

theorem xtime_linear : XorLinear xtime := by
  intro a b
  rw [xtime, xtime, xtime, UInt8.shiftLeft_xor, UInt8.shiftRight_xor, bitMask_linear,
    and_xor_distrib]
  ac_rfl

theorem gf256Loop_succ (rounds : ℕ) (a b result : UInt8) :
    gf256Loop (rounds + 1) a b result =
      gf256Loop rounds (xtime a) (b >>> 1) (result ^^^ (a &&& bitMask b)) := rfl

/-- Two products of one `b` add up, round by round. -/
theorem gf256Loop_xor_left (rounds : ℕ) (a a' b result result' : UInt8) :
    gf256Loop rounds (a ^^^ a') b (result ^^^ result') =
      gf256Loop rounds a b result ^^^ gf256Loop rounds a' b result' := by
  induction rounds generalizing a a' b result result' with
  | zero => rfl
  | succ rounds ih =>
    have added : result ^^^ result' ^^^ ((a ^^^ a') &&& bitMask b) =
        (result ^^^ (a &&& bitMask b)) ^^^ (result' ^^^ (a' &&& bitMask b)) := by
      rw [UInt8.and_comm (a ^^^ a'), and_xor_distrib, UInt8.and_comm a, UInt8.and_comm a']
      ac_rfl
    rw [gf256Loop_succ, gf256Loop_succ, gf256Loop_succ, xtime_linear, added, ih]

/-- Two products of one `a` add up, round by round. -/
theorem gf256Loop_xor_right (rounds : ℕ) (a b b' result result' : UInt8) :
    gf256Loop rounds a (b ^^^ b') (result ^^^ result') =
      gf256Loop rounds a b result ^^^ gf256Loop rounds a b' result' := by
  induction rounds generalizing a b b' result result' with
  | zero => rfl
  | succ rounds ih =>
    have added : result ^^^ result' ^^^ (a &&& bitMask (b ^^^ b')) =
        (result ^^^ (a &&& bitMask b)) ^^^ (result' ^^^ (a &&& bitMask b')) := by
      rw [bitMask_linear, and_xor_distrib]
      ac_rfl
    rw [gf256Loop_succ, gf256Loop_succ, gf256Loop_succ, UInt8.shiftRight_xor, added, ih]

/-- **The product is linear in each argument.** -/
theorem gf256Mul_bilinear : XorBilinear gf256Mul where
  left b a a' := gf256Loop_xor_left 8 a a' b 0 0
  right a b b' := gf256Loop_xor_right 8 a b b' 0 0

/-- A mask keeps all of a byte or nothing, so the shift goes past it. -/
theorem xtime_and_bitMask (a b : UInt8) : xtime (a &&& bitMask b) = xtime a &&& bitMask b := by
  have masks : ∀ b : UInt8, bitMask b = 0 ∨ bitMask b = -1 := by decide +kernel
  rcases masks b with none | all
  · rw [none, UInt8.and_zero, UInt8.and_zero, xtime_linear.map_zero]
  · rw [all, UInt8.and_neg_one, UInt8.and_neg_one]

/-- The rounds commute with the shift. -/
theorem gf256Loop_xtime (rounds : ℕ) (a b result : UInt8) :
    gf256Loop rounds (xtime a) b (xtime result) = xtime (gf256Loop rounds a b result) := by
  induction rounds generalizing a b result with
  | zero => rfl
  | succ rounds ih =>
    rw [gf256Loop_succ, gf256Loop_succ, ← xtime_and_bitMask, ← xtime_linear, ih]

/-- **The product is that of a shift**: it commutes with `xtime`, which doubles one up to `128`. -/
theorem gf256Mul_shiftProduct : ShiftProduct gf256Mul xtime where
  toXorBilinear := gf256Mul_bilinear
  shift_mul a b := gf256Loop_xtime 8 a b 0
  one_mul := gf256Mul_bilinear.one_of_basis (by decide +kernel)
  basis part member := by
    have table : ∀ part ∈ byteBasis, ∃ n : Fin 8, part = xtime^[n] 1 := by decide +kernel
    obtain ⟨n, same⟩ := table part member
    exact ⟨n, same⟩

/-! ### The ring -/

/-- A byte as an element of the field. -/
@[ext]
structure Gf256 where
  byte : UInt8
  deriving DecidableEq

namespace Gf256

instance : Zero Gf256 := ⟨⟨0⟩⟩
instance : One Gf256 := ⟨⟨1⟩⟩
instance : Add Gf256 := ⟨fun x y => ⟨x.byte ^^^ y.byte⟩⟩
instance : Neg Gf256 := ⟨fun x => x⟩
instance : Mul Gf256 := ⟨fun x y => ⟨gf256Mul x.byte y.byte⟩⟩
instance : Inv Gf256 := ⟨fun x => ⟨gf256Inv x.byte⟩⟩

instance : CommRing Gf256 where
  add_assoc x y z := Gf256.ext (UInt8.xor_assoc _ _ _)
  zero_add x := Gf256.ext UInt8.zero_xor
  add_zero x := Gf256.ext UInt8.xor_zero
  add_comm x y := Gf256.ext (UInt8.xor_comm _ _)
  neg_add_cancel x := Gf256.ext UInt8.xor_self
  nsmul := nsmulRec
  zsmul := zsmulRec
  left_distrib x y z := Gf256.ext (gf256Mul_bilinear.right _ _ _)
  right_distrib x y z := Gf256.ext (gf256Mul_bilinear.left _ _ _)
  zero_mul x := Gf256.ext (gf256Mul_bilinear.zero_mul _)
  mul_zero x := Gf256.ext (gf256Mul_bilinear.mul_zero _)
  mul_assoc x y z := Gf256.ext (gf256Mul_shiftProduct.assoc _ _ _)
  one_mul x := Gf256.ext (gf256Mul_shiftProduct.one_mul _)
  mul_one x := Gf256.ext ((gf256Mul_shiftProduct.comm _ _).trans (gf256Mul_shiftProduct.one_mul _))
  mul_comm x y := Gf256.ext (gf256Mul_shiftProduct.comm _ _)

@[simp] theorem byte_zero : (0 : Gf256).byte = 0 := rfl
@[simp] theorem byte_one : (1 : Gf256).byte = 1 := rfl
@[simp] theorem byte_add (x y : Gf256) : (x + y).byte = x.byte ^^^ y.byte := rfl
@[simp] theorem byte_sub (x y : Gf256) : (x - y).byte = x.byte ^^^ y.byte := rfl
@[simp] theorem byte_mul (x y : Gf256) : (x * y).byte = gf256Mul x.byte y.byte := rfl
@[simp] theorem byte_inv (x : Gf256) : x⁻¹.byte = gf256Inv x.byte := rfl

/-! ### The inverse -/

/-- The square of a byte. -/
def square (a : UInt8) : UInt8 := gf256Mul a a

theorem square_linear : XorLinear square := by
  intro a b
  have first : gf256Mul (a ^^^ b) (a ^^^ b) = gf256Mul a (a ^^^ b) ^^^ gf256Mul b (a ^^^ b) :=
    gf256Mul_bilinear.left _ a b
  have crossed : gf256Mul b a = gf256Mul a b := gf256Mul_shiftProduct.comm b a
  rw [square, square, square, first, gf256Mul_bilinear.right a, gf256Mul_bilinear.right b, crossed,
    UInt8.xor_assoc, ← UInt8.xor_assoc (gf256Mul a b), UInt8.xor_self, UInt8.zero_xor]

theorem iterate_square (n : ℕ) (x : Gf256) : x ^ 2 ^ n = ⟨square^[n] x.byte⟩ := by
  induction n with
  | zero => exact pow_one x
  | succ n ih =>
    rw [pow_succ, pow_mul, ih, sq, Function.iterate_succ_apply']
    rfl

/-- **Squaring eight times changes nothing**; squaring is linear, so eight bytes decide it. -/
theorem pow_256 (x : Gf256) : x ^ 256 = x := by
  have linear : ∀ n, XorLinear square^[n] := by
    intro n
    induction n with
    | zero => exact XorLinear.id
    | succ n ih => exact ih.comp square_linear
  have fixed : square^[8] x.byte = x.byte :=
    (linear 8).eq_of_basis XorLinear.id (by decide +kernel) x.byte
  exact (iterate_square 8 x).trans (Gf256.ext fixed)

/-- The chain of products is the 254th power. -/
theorem inv_eq_pow {x : Gf256} (nonzero : x ≠ 0) : x⁻¹ = x ^ 254 := by
  have apart : x.byte ≠ 0 := fun zero => nonzero (Gf256.ext zero)
  let x7 := x * x * x * (x * x * x) * x
  let x31 := x7 * x7 * x * (x7 * x7 * x) * x
  let x127 := x31 * x31 * x * (x31 * x31 * x) * x
  have chain : x⁻¹ = x127 * x127 := by
    apply Gf256.ext
    rw [byte_inv, gf256Inv, if_neg apart]
    simp only [x127, x31, x7, byte_mul]
  rw [chain]
  ring

/-- **The chain of products computes the inverse.** The product of the two is idempotent, and only
zero and one are. -/
theorem mul_inv {x : Gf256} (nonzero : x ≠ 0) : x * x⁻¹ = 1 := by
  have idempotent : ∀ a : UInt8, gf256Mul a a = a → a = 0 ∨ a = 1 := by decide +kernel
  have twice : x * x⁻¹ * (x * x⁻¹) = x * x⁻¹ := by
    calc x * x⁻¹ * (x * x⁻¹) = x ^ 254 * x ^ 256 := by rw [inv_eq_pow nonzero]; ring
      _ = x * x⁻¹ := by rw [pow_256, inv_eq_pow nonzero]; ring
  have again : x * x⁻¹ * x = x := by
    calc x * x⁻¹ * x = x ^ 256 := by rw [inv_eq_pow nonzero]; ring
      _ = x := pow_256 x
  rcases idempotent (x * x⁻¹).byte (congrArg byte twice) with zero | one
  · have vanishes : x * x⁻¹ = 0 := Gf256.ext zero
    rw [vanishes, zero_mul] at again
    exact absurd again.symm nonzero
  · exact Gf256.ext one

/-- **The field of 256 elements**, with the arithmetic of the program. -/
instance : Field Gf256 where
  exists_pair_ne := ⟨0, 1, fun same => absurd (congrArg byte same) (by decide)⟩
  mul_inv_cancel _ := mul_inv
  inv_zero := rfl
  nnqsmul := _
  nnqsmul_def _ _ := rfl
  qsmul := _
  qsmul_def _ _ := rfl

end Gf256

end Exochain.ExoIdentity
