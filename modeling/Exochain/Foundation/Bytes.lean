/-
**Operations on bytes that respect exclusive or.**

A byte is a vector of eight bits, exclusive or its addition. A map that turns exclusive or into
exclusive or is determined by its values at the eight powers of two (`XorLinear.eq_of_basis`).

`ShiftProduct` — a product that is linear in each argument, has one as its unit and commutes with a
shift that takes one through the powers of two. **It is commutative and associative** (`comm`,
`assoc`), since a power of two multiplies by shifting.
-/

import Mathlib

namespace Foundation

/-- The powers of two. -/
def byteBasis : List UInt8 := [1, 2, 4, 8, 16, 32, 64, 128]

/-- Every byte is the exclusive or of powers of two. -/
theorem exists_basis (a : UInt8) :
    ∃ parts : List UInt8, (∀ part ∈ parts, part ∈ byteBasis) ∧ a = parts.foldr (· ^^^ ·) 0 := by
  have inside : ∀ part ∈ byteBasis.filter fun part => a &&& part ≠ 0, part ∈ byteBasis :=
    fun part member => (List.mem_filter.mp member).1
  refine ⟨_, inside, ?_⟩
  have table : ∀ a : UInt8, a = (byteBasis.filter fun part => a &&& part ≠ 0).foldr (· ^^^ ·) 0 := by
    decide +kernel
  exact table a

/-- The map turns exclusive or into exclusive or. -/
def XorLinear (f : UInt8 → UInt8) : Prop := ∀ a b, f (a ^^^ b) = f a ^^^ f b

namespace XorLinear

variable {f g : UInt8 → UInt8}

theorem map_zero (linear : XorLinear f) : f 0 = 0 := by
  have twice := linear 0 0
  rwa [UInt8.xor_self, UInt8.xor_self] at twice

/-- **A linear map of bytes is determined by its values at the powers of two.** -/
theorem eq_of_basis (first : XorLinear f) (second : XorLinear g)
    (same : ∀ part ∈ byteBasis, f part = g part) (a : UInt8) : f a = g a := by
  obtain ⟨parts, inside, rfl⟩ := exists_basis a
  induction parts with
  | nil => rw [List.foldr_nil, first.map_zero, second.map_zero]
  | cons part parts ih =>
    obtain ⟨here, rest⟩ := List.forall_mem_cons.mp inside
    rw [List.foldr_cons, first, second, same part here, ih rest]

theorem comp (first : XorLinear f) (second : XorLinear g) : XorLinear fun a => f (g a) := by
  intro a b
  show f (g (a ^^^ b)) = _
  rw [second, first]

theorem id : XorLinear fun a => a := fun _ _ => rfl

end XorLinear

/-- A product that is linear in each argument. -/
structure XorBilinear (mul : UInt8 → UInt8 → UInt8) : Prop where
  left : ∀ b, XorLinear fun a => mul a b
  right : ∀ a, XorLinear (mul a)

namespace XorBilinear

variable {mul : UInt8 → UInt8 → UInt8}

theorem zero_mul (bilinear : XorBilinear mul) (b : UInt8) : mul 0 b = 0 :=
  (bilinear.left b).map_zero

theorem mul_zero (bilinear : XorBilinear mul) (a : UInt8) : mul a 0 = 0 :=
  (bilinear.right a).map_zero

theorem one_of_basis (bilinear : XorBilinear mul) (same : ∀ x ∈ byteBasis, mul 1 x = x)
    (a : UInt8) : mul 1 a = a :=
  (bilinear.right 1).eq_of_basis XorLinear.id same a

end XorBilinear

/-- A bilinear product with a unit that commutes with a shift, where the shift takes one through the
powers of two. -/
structure ShiftProduct (mul : UInt8 → UInt8 → UInt8) (shift : UInt8 → UInt8) : Prop
    extends XorBilinear mul where
  shift_mul : ∀ a b, mul (shift a) b = shift (mul a b)
  one_mul : ∀ b, mul 1 b = b
  basis : ∀ part ∈ byteBasis, ∃ n, part = shift^[n] 1

namespace ShiftProduct

variable {mul : UInt8 → UInt8 → UInt8} {shift : UInt8 → UInt8}

theorem iterate_mul (product : ShiftProduct mul shift) (n : ℕ) (a b : UInt8) :
    mul (shift^[n] a) b = shift^[n] (mul a b) := by
  induction n with
  | zero => rfl
  | succ n ih => rw [Function.iterate_succ_apply', product.shift_mul, ih,
      Function.iterate_succ_apply']

theorem iterate_one_mul (product : ShiftProduct mul shift) (n : ℕ) (b : UInt8) :
    mul (shift^[n] 1) b = shift^[n] b := by
  rw [product.iterate_mul, product.one_mul]

/-- **The product commutes**: powers of two shift each other. -/
theorem comm (product : ShiftProduct mul shift) (a b : UInt8) : mul a b = mul b a := by
  have powers : ∀ x ∈ byteBasis, ∀ y ∈ byteBasis, mul x y = mul y x := by
    intro x xIn y yIn
    obtain ⟨m, rfl⟩ := product.basis x xIn
    obtain ⟨n, rfl⟩ := product.basis y yIn
    rw [product.iterate_one_mul, product.iterate_one_mul, ← Function.iterate_add_apply,
      ← Function.iterate_add_apply, Nat.add_comm]
  have first : ∀ x ∈ byteBasis, ∀ b, mul x b = mul b x := fun x member =>
    (product.right x).eq_of_basis (product.left x) (powers x member)
  exact (product.left b).eq_of_basis (product.right b) (fun x member => first x member b) a

/-- **The product is associative**: a power of two shifts either way. -/
theorem assoc (product : ShiftProduct mul shift) (a b c : UInt8) :
    mul (mul a b) c = mul a (mul b c) := by
  have first : ∀ x ∈ byteBasis, mul (mul x b) c = mul x (mul b c) := by
    intro x member
    obtain ⟨n, rfl⟩ := product.basis x member
    rw [product.iterate_one_mul, product.iterate_one_mul, product.iterate_mul]
  exact ((product.left c).comp (product.left b)).eq_of_basis (product.left (mul b c)) first a

end ShiftProduct

end Foundation
