/-
**Polynomials by their coefficients, and what a few values say about the constant one.**

Over any field. A polynomial of degree below `k` is a list of `k` coefficients, lowest first.

* `evalLoop` — the loop that evaluates it, carrying the sum and the power (`evalLoop_eq`).
* `valueAtZero` — the double loop of Lagrange's formula at zero. **It recovers the constant
  coefficient** from any `k` values at distinct points (`valueAtZero_eq`).
* **Fewer values say nothing** (`existsUnique_coefficients`): for any constant coefficient and any
  values at `k - 1` distinct points other than zero, exactly one choice of the other coefficients
  gives these values.
* A bijection leaves the uniform distribution alone (`map_uniformOfFintype`), so that the last point
  is a statement about distributions too.
-/

import Mathlib

set_option linter.unusedSectionVars false

namespace Foundation

open Polynomial

/-! ### Coefficients -/

section Coefficients

variable {R : Type*} [CommRing R]

/-- The polynomial with the given coefficients, lowest first. -/
noncomputable def polyOf : List R → R[X]
  | [] => 0
  | c :: cs => C c + X * polyOf cs

theorem coeff_polyOf (cs : List R) (n : ℕ) : (polyOf cs).coeff n = cs[n]?.getD 0 := by
  induction cs generalizing n with
  | nil => simp [polyOf]
  | cons c cs ih =>
    cases n with
    | zero => simp [polyOf]
    | succ n => simp [polyOf, coeff_C_succ, ih]

theorem degree_polyOf_lt (cs : List R) : (polyOf cs).degree < cs.length := by
  rw [degree_lt_iff_coeff_zero]
  intro n beyond
  rw [coeff_polyOf, List.getElem?_eq_none beyond, Option.getD_none]

/-- A list of coefficients can be read back if its length is known. -/
theorem eq_of_polyOf_eq {cs cs' : List R} (lengths : cs.length = cs'.length)
    (same : polyOf cs = polyOf cs') : cs = cs' := by
  refine List.ext_getElem lengths fun n inside inside' => ?_
  have coeffs := congrArg (coeff · n) same
  simpa [coeff_polyOf, inside, inside'] using coeffs

/-- A polynomial of degree below `n` has `n` coefficients. -/
theorem exists_polyOf {p : R[X]} {n : ℕ} (low : p.degree < n) :
    ∃ cs : List R, cs.length = n ∧ polyOf cs = p := by
  refine ⟨(List.range n).map p.coeff, by simp, ?_⟩
  ext i
  rw [coeff_polyOf]
  by_cases inside : i < n
  · simp [inside]
  · rw [List.getElem?_eq_none (by simpa using inside), Option.getD_none]
    exact ((degree_lt_iff_coeff_zero p n).mp low i (not_lt.mp inside)).symm

/-- Evaluate from the lowest coefficient up, with the sum so far and the next power. -/
def evalLoop (x : R) : List R → R → R → R
  | [], y, _ => y
  | c :: cs, y, pow => evalLoop x cs (y + c * pow) (pow * x)

/-- **The loop evaluates the polynomial.** -/
theorem evalLoop_eq (x : R) (cs : List R) (y pow : R) :
    evalLoop x cs y pow = y + pow * (polyOf cs).eval x := by
  induction cs generalizing y pow with
  | nil => simp [evalLoop, polyOf]
  | cons c cs ih =>
    rw [evalLoop, ih, polyOf, eval_add, eval_C, eval_mul, eval_X]
    ring

end Coefficients

/-! ### Sums and products over positions -/

theorem zipIdx_eq_ofFn {α : Type*} (xs : List α) :
    xs.zipIdx = List.ofFn fun i : Fin xs.length => (xs[i], (i : ℕ)) := by
  refine List.ext_getElem (by simp) fun n inside inside' => ?_
  simp

section Formula

variable {F : Type*} [Field F]

/-- The weight of the `i`-th point, which lies at `x`, in the value at zero. -/
def weightAtZero (points : List (F × F)) (i : ℕ) (x : F) : F :=
  (points.zipIdx.map fun entry => if i = entry.2 then 1 else entry.1.1 * (entry.1.1 - x)⁻¹).prod

/-- Lagrange's formula at zero. -/
def valueAtZero (points : List (F × F)) : F :=
  (points.zipIdx.map fun entry => entry.1.2 * weightAtZero points entry.2 entry.1.1).sum

theorem weightAtZero_eq (points : List (F × F)) (i : Fin points.length) :
    weightAtZero points i points[i].1 =
      (Lagrange.basis Finset.univ (fun j : Fin points.length => points[j].1) i).eval 0 := by
  rw [weightAtZero, zipIdx_eq_ofFn, List.map_ofFn, List.prod_ofFn, Lagrange.basis, eval_prod]
  rw [← Finset.prod_erase Finset.univ (a := i) (by simp)]
  refine Finset.prod_congr rfl fun j other => ?_
  have apart : ¬ (i : ℕ) = (j : ℕ) := fun same => (Finset.mem_erase.mp other).1 (Fin.ext same.symm)
  simp only [Function.comp_apply, if_neg apart, Lagrange.basisDivisor, eval_mul, eval_C, eval_sub,
    eval_X, zero_sub]
  rw [← neg_sub, inv_neg]
  ring

/-- **Values at as many distinct points as coefficients determine the value at zero.** -/
theorem valueAtZero_eq {points : List (F × F)} (distinct : (points.map Prod.fst).Nodup) {f : F[X]}
    (low : f.degree < points.length) (through : ∀ p ∈ points, f.eval p.1 = p.2) :
    valueAtZero points = f.eval 0 := by
  have injective : Set.InjOn (fun i : Fin points.length => points[i].1)
      (Finset.univ : Finset (Fin points.length)) := by
    intro i _ j _ same
    have entries : (points.map Prod.fst).get ⟨i, by simp⟩ = (points.map Prod.fst).get ⟨j, by simp⟩ :=
      by simpa using same
    exact Fin.ext (Fin.mk.inj (List.nodup_iff_injective_get.mp distinct entries))
  have formula : f = Lagrange.interpolate Finset.univ (fun i : Fin points.length => points[i].1)
      fun i => points[i].2 := by
    refine Lagrange.eq_interpolate_of_eval_eq _ injective (by simpa using low) fun i _ => ?_
    exact through _ (List.getElem_mem _)
  rw [valueAtZero, zipIdx_eq_ofFn, List.map_ofFn, List.sum_ofFn]
  rw [formula, Lagrange.interpolate_apply, eval_finsetSum]
  refine Finset.sum_congr rfl fun i _ => ?_
  rw [eval_mul, eval_C, ← weightAtZero_eq]
  rfl

/-- **One value fewer leaves every constant coefficient possible, each in exactly one way.** -/
theorem existsUnique_coefficients [DecidableEq F] {xs : List F} (distinct : xs.Nodup)
    (nonzero : 0 ∉ xs) (values : F → F) (constant : F) :
    ∃! cs : List F, cs.length = xs.length ∧
      ∀ x ∈ xs, (polyOf (constant :: cs)).eval x = values x := by
  let nodes : Finset F := insert 0 xs.toFinset
  have size : nodes.card = xs.length + 1 := by
    rw [Finset.card_insert_of_notMem (by simpa using nonzero), List.toFinset_card_of_nodup distinct]
  let wanted : F → F := fun x => if x = 0 then constant else values x
  have here : ∀ x ∈ xs, wanted x = values x := by
    intro x member
    exact if_neg fun zero : x = 0 => nonzero (zero ▸ member)
  -- the polynomial through the wanted values, the constant at zero among them
  let p := Lagrange.interpolate nodes id wanted
  have value : ∀ x ∈ nodes, p.eval x = wanted x := fun x member =>
    Lagrange.eval_interpolate_at_node wanted (Set.injOn_id _) member
  have low : p.degree < (xs.length + 1 : ℕ) := by
    rw [← size]
    exact Lagrange.degree_interpolate_lt wanted (Set.injOn_id _)
  obtain ⟨all, length, isP⟩ := exists_polyOf low
  obtain ⟨first, cs, rfl⟩ : ∃ first cs, all = first :: cs := by
    cases all with
    | nil => simp at length
    | cons first cs => exact ⟨first, cs, rfl⟩
  have atZero := value 0 (Finset.mem_insert_self _ _)
  rw [← isP] at atZero value
  have isConstant : first = constant := by
    simpa [polyOf, wanted] using atZero
  subst isConstant
  refine ⟨cs, ⟨by simpa using length, fun x member => ?_⟩, ?_⟩
  · rw [value x (Finset.mem_insert_of_mem (by simpa using member)), here x member]
  · rintro other ⟨otherLength, otherValue⟩
    have sameLength : (first :: other).length = (first :: cs).length := by
      rw [length, List.length_cons, otherLength]
    have polys : polyOf (first :: other) = polyOf (first :: cs) := by
      refine eq_of_degrees_lt_of_eval_finset_eq nodes ?_ ?_ fun x member => ?_
      · rw [size, ← length, ← sameLength]
        exact degree_polyOf_lt _
      · rw [size, ← length]
        exact degree_polyOf_lt _
      · rcases Finset.mem_insert.mp member with rfl | among
        · simp [polyOf]
        · rw [otherValue x (by simpa using among), value x member,
            here x (by simpa using among)]
    exact (List.cons.inj (eq_of_polyOf_eq sameLength polys)).2

end Formula

/-! ### Uniform choices -/

/-- **A bijection leaves the uniform distribution alone.** -/
theorem map_uniformOfFintype {α : Type*} [Fintype α] [Nonempty α] (shift : α ≃ α) :
    (PMF.uniformOfFintype α).map shift = PMF.uniformOfFintype α := by
  ext a
  rw [PMF.map_apply, tsum_eq_single (shift.symm a)]
  · rw [if_pos (shift.apply_symm_apply a).symm, PMF.uniformOfFintype_apply,
      PMF.uniformOfFintype_apply]
  · intro b other
    refine if_neg fun hit => other ?_
    rw [hit, Equiv.symm_apply_apply]

end Foundation
