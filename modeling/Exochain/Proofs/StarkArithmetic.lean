/-
**`exo-proofs` — the arithmetic of STARK constraints.**

The value of a constraint is a sum over its columns, reduced after each column. The products are taken modulo
2^64 and not modulo the field size, and the sum of the two of them and of the value so far has to fit a word.
With a field size below 2^32 or so both are harmless; the configuration allows every word.

* `exactSum` — the sum that the documentation of a constraint states.
* `evaluateConstraint_exact_iff` — when the evaluation of a constraint returns that sum modulo the field
  size, in both builds.
* `exists_proveStark_iff` — which traces are accepted, where it does so on every two rows: those that meet the
  constraints, if the room for the queries and the layers can be reserved.
* **`field_arithmetic_iff`** — the configurations for which it does so on all reduced rows and constraints, and
  for which exactly the traces that meet the constraints are accepted.
* `Doubled.product_vanishes` — a product that is not zero in the field, evaluated as zero.
-/

import Exochain.Proofs.Stark

namespace Exochain.ExoProofs

open Foundation ExoCore

/-! ### The sum of a constraint -/

section Evaluation

variable {build : Build} {constraint : StarkConstraint} {current next : List UInt64}
  {fieldSize : UInt64}

/-- A column of a constraint: its index, the coefficient of the current row and that of the next one. -/
abbrev Column : Type := ℕ × UInt64 × UInt64

/-- The columns of a constraint that have coefficients. -/
def StarkConstraint.columns (constraint : StarkConstraint) : List Column :=
  constraint.columnIndices.zip constraint.coefficients

/-- What a column adds to the sum. An entry that a row does not have counts as zero. -/
def exactTerm (current next : List UInt64) (column : Column) : ℕ :=
  column.2.1.toNat * (current[column.1]?.getD 0).toNat + column.2.2.toNat * (next[column.1]?.getD 0).toNat

/-- What a column adds when its products are taken modulo 2^64. -/
def wrappedTerm (current next : List UInt64) (column : Column) : ℕ :=
  (column.2.1 * current[column.1]?.getD 0).toNat + (column.2.2 * next[column.1]?.getD 0).toNat

/-- How often 2^64 goes into the products of a column. -/
def lostWords (current next : List UInt64) (column : Column) : ℕ :=
  column.2.1.toNat * (current[column.1]?.getD 0).toNat / 2 ^ 64 +
    column.2.2.toNat * (next[column.1]?.getD 0).toNat / 2 ^ 64

/-- The exact sum of a constraint on two rows. -/
def exactSum (constraint : StarkConstraint) (current next : List UInt64) : ℕ :=
  (constraint.columns.map (exactTerm current next)).sum

theorem exactTerm_eq (current next : List UInt64) (column : Column) :
    exactTerm current next column =
      wrappedTerm current next column + 2 ^ 64 * lostWords current next column := by
  simp only [exactTerm, wrappedTerm, lostWords, UInt64.toNat_mul]
  omega

/-- The exact sum, split into the wrapped products and the multiples of 2^64. -/
theorem exactSum_eq (constraint : StarkConstraint) (current next : List UInt64) :
    exactSum constraint current next =
      (constraint.columns.map (wrappedTerm current next)).sum +
        2 ^ 64 * (constraint.columns.map (lostWords current next)).sum := by
  rw [← List.sum_map_mul_left, ← List.sum_map_add]
  exact congrArg List.sum (List.map_congr_left fun column _ => exactTerm_eq current next column)

/-! ### One column, and all of them -/

/-- A column that fits the word. -/
theorem addColumn_of_lt (positive : 0 < fieldSize.toNat) {sum : ℕ} {column : Column}
    (fits : sum + wrappedTerm current next column < 2 ^ 64) :
    addColumn build current next fieldSize sum column =
      .ok ((sum + wrappedTerm current next column) % fieldSize.toNat) := by
  obtain ⟨index, currCoeff, nextCoeff⟩ := column
  have nonzero : fieldSize ≠ 0 := fun zero => absurd positive (by simp [zero])
  simp only [wrappedTerm] at fits ⊢
  have first : build.add 64 sum (currCoeff * current[index]?.getD 0).toNat = .ok _ :=
    Build.add_of_lt (by omega)
  have second : build.add 64 (sum + (currCoeff * current[index]?.getD 0).toNat)
      (nextCoeff * next[index]?.getD 0).toNat = .ok _ := Build.add_of_lt (by omega)
  simp only [addColumn, first, Except.mapError, bind, Except.bind, second, if_neg nonzero, Nat.add_assoc]
  rfl

/-- In a checked build a column that returns fits the word. -/
theorem lt_of_addColumn_eq_ok {sum value : ℕ} {column : Column}
    (added : addColumn ⟨true⟩ current next fieldSize sum column = .ok value) :
    sum + wrappedTerm current next column < 2 ^ 64 := by
  obtain ⟨index, currCoeff, nextCoeff⟩ := column
  obtain ⟨first, firstAdded, rest⟩ := bind_eq_ok_iff.mp added
  obtain ⟨second, secondAdded, -⟩ := bind_eq_ok_iff.mp rest
  have firstFits := Build.exists_add_eq_ok_iff.mp ⟨first, mapError_eq_ok_iff.mp firstAdded⟩ rfl
  have secondFits := Build.exists_add_eq_ok_iff.mp ⟨second, mapError_eq_ok_iff.mp secondAdded⟩ rfl
  have first_eq := mapError_eq_ok_iff.mp firstAdded
  rw [Build.add_of_lt firstFits, Except.ok.injEq] at first_eq
  simp only [wrappedTerm]
  omega

/-- Each column fits the word beside what the columns before it have left. -/
def Fits (current next : List UInt64) (fieldSize sum : ℕ) (columns : List Column) : Prop :=
  ∀ before column after, columns = before ++ column :: after →
    (sum + (before.map (wrappedTerm current next)).sum) % fieldSize + wrappedTerm current next column <
      2 ^ 64

theorem fits_cons_iff {modulus sum : ℕ} (reduced : sum < modulus) {column : Column}
    {columns : List Column} :
    Fits current next modulus sum (column :: columns) ↔
      sum + wrappedTerm current next column < 2 ^ 64 ∧
        Fits current next modulus ((sum + wrappedTerm current next column) % modulus) columns := by
  constructor
  · intro fits
    refine ⟨?_, fun before later after split => ?_⟩
    · have here := fits [] column columns rfl
      rwa [List.map_nil, List.sum_nil, Nat.add_zero, Nat.mod_eq_of_lt reduced] at here
    · have here := fits (column :: before) later after (congrArg (column :: ·) split)
      rwa [List.map_cons, List.sum_cons, ← Nat.add_assoc, ← Nat.mod_add_mod] at here
  · rintro ⟨here, rest⟩ before later after split
    cases before with
    | nil =>
      obtain ⟨rfl, rfl⟩ := List.cons.inj split
      rwa [List.map_nil, List.sum_nil, Nat.add_zero, Nat.mod_eq_of_lt reduced]
    | cons first before =>
      obtain ⟨rfl, tail⟩ := List.cons.inj split
      have fits := rest before later after tail
      rwa [Nat.mod_add_mod, Nat.add_assoc] at fits

/-- The loop over columns that fit. -/
theorem foldlM_addColumn_of_fits {sum : ℕ} {columns : List Column} (reduced : sum < fieldSize.toNat)
    (fits : Fits current next fieldSize.toNat sum columns) :
    columns.foldlM (addColumn build current next fieldSize) sum =
      .ok ((sum + (columns.map (wrappedTerm current next)).sum) % fieldSize.toNat) := by
  have positive : 0 < fieldSize.toNat := Nat.zero_lt_of_lt reduced
  induction columns generalizing sum with
  | nil =>
    rw [List.map_nil, List.sum_nil, Nat.add_zero, Nat.mod_eq_of_lt reduced]
    rfl
  | cons column columns ih =>
    obtain ⟨here, rest⟩ := (fits_cons_iff reduced).mp fits
    rw [List.foldlM_cons, addColumn_of_lt positive here]
    show columns.foldlM _ _ = _
    rw [ih (Nat.mod_lt _ positive) rest, List.map_cons, List.sum_cons, Nat.mod_add_mod, Nat.add_assoc]

/-- In a checked build the columns of a loop that returns fit. -/
theorem fits_of_foldlM_addColumn {sum value : ℕ} {columns : List Column}
    (reduced : sum < fieldSize.toNat)
    (done : columns.foldlM (addColumn ⟨true⟩ current next fieldSize) sum = .ok value) :
    Fits current next fieldSize.toNat sum columns := by
  have positive : 0 < fieldSize.toNat := Nat.zero_lt_of_lt reduced
  induction columns generalizing sum with
  | nil =>
    intro before column after split
    exact absurd split.symm (by simp)
  | cons column columns ih =>
    rw [List.foldlM_cons] at done
    obtain ⟨first, added, rest⟩ := bind_eq_ok_iff.mp done
    have here := lt_of_addColumn_eq_ok added
    rw [addColumn_of_lt positive here, Except.ok.injEq] at added
    exact (fits_cons_iff reduced).mpr ⟨here, ih (Nat.mod_lt _ positive) (added ▸ rest)⟩

/-- **The arithmetic does no harm**: the columns fit the word, and what the products lose is a multiple of
the field size. -/
structure Harmless (fieldSize : ℕ) (constraint : StarkConstraint) (current next : List UInt64) : Prop where
  fits : Fits current next fieldSize 0 constraint.columns
  lost : fieldSize ∣ 2 ^ 64 * (constraint.columns.map (lostWords current next)).sum

/-- **The evaluation of a constraint is exact in both builds** exactly if the arithmetic does no harm. -/
theorem evaluateConstraint_exact_iff (positive : 0 < fieldSize.toNat) :
    (∀ build, evaluateConstraint build constraint current next fieldSize =
      .ok (exactSum constraint current next % fieldSize.toNat)) ↔
        Harmless fieldSize.toNat constraint current next := by
  constructor
  · intro exact_sum
    have fits := fits_of_foldlM_addColumn positive (exact_sum ⟨true⟩)
    have value := (foldlM_addColumn_of_fits positive fits).symm.trans (exact_sum ⟨true⟩)
    rw [Except.ok.injEq, exactSum_eq, Nat.zero_add] at value
    refine ⟨fits, ?_⟩
    exact (Nat.modEq_iff_dvd' (Nat.le_add_right _ _)).mp value |>.trans (by rw [Nat.add_sub_cancel_left])
  · rintro ⟨fits, lost⟩ build
    have value : evaluateConstraint build constraint current next fieldSize = .ok _ :=
      foldlM_addColumn_of_fits positive fits
    rw [exactSum_eq, Nat.add_mod, Nat.mod_eq_zero_of_dvd lost, Nat.add_zero,
      Nat.mod_mod]
    rwa [Nat.zero_add] at value

end Evaluation

/-! ### Traces -/

section Traces

variable {blake3 : Blake3} {build : Build} {trace : List (List UInt64)}
  {constraints : List StarkConstraint} {config : StarkConfig} {fieldSize : UInt64}

/-- The number with the given bytes fits so many bytes. -/
theorem fromLeBytes_lt (bytes : List UInt8) : fromLeBytes bytes < 256 ^ bytes.length := by
  induction bytes with
  | nil => exact Nat.one_pos
  | cons byte bytes ih =>
    have here : byte.toNat < 256 := byte.toNat_lt
    show byte.toNat + 256 * fromLeBytes bytes < 256 ^ (bytes.length + 1)
    rw [pow_succ]
    omega

/-- Four bytes are an index on a 64-bit target, so every round derives one. -/
theorem exists_deriveQuery (seed : Hash256) (traceLen round : ℕ) :
    ∃ index, deriveQuery seed traceLen round = .ok index := by
  have small := fromLeBytes_lt ((List.range 4).map fun j => seed.asBytes[(round * 4 % 32 + j) % 32]?.getD 0)
  rw [List.length_map, List.length_range] at small
  simp only [deriveQuery, usizeFromU32, if_pos (small.trans (show 256 ^ 4 < 2 ^ 64 by decide))]
  exact ⟨_, rfl⟩

/-- **The query indices**: as many as were asked for, if the room for them can be reserved. -/
theorem deriveQueries_spec (blake3 : Blake3) (traceCommitment constraintCommitment : Hash256)
    (numQueries : ℕ) {traceLen : ℕ} (nonempty : traceLen ≠ 0) :
    ∃ indices : List ℕ, indices.length = numQueries ∧ ∀ queries,
      deriveQueries blake3 traceCommitment constraintCommitment numQueries traceLen = .ok queries ↔
        numQueries * 8 ≤ maxVecLength ∧ queries = indices := by
  choose index derived using
    exists_deriveQuery (blake3 (queriesString traceCommitment constraintCommitment)) traceLen
  refine ⟨(List.range numQueries).map index, by simp, fun queries => ?_⟩
  have rounds := mapM_eq_ok_of_forall fun round (_ : round ∈ List.range numQueries) => derived round
  rw [deriveQueries, if_neg nonempty]
  dsimp only
  rw [check_bind_eq_ok_iff, reserve_eq_ok_iff, rounds]
  exact and_congr_right fun _ => ⟨fun same => (Except.ok.inj same).symm, fun same => congrArg Except.ok same.symm⟩

/-- A constraint is met when its value is zero. -/
theorem checkConstraint_eq_ok_iff {row value : ℕ} {current next : List UInt64}
    {constraint : StarkConstraint}
    (evaluated : evaluateConstraint build constraint current next fieldSize = .ok value) :
    checkConstraint build fieldSize row current next constraint = .ok () ↔ value = 0 := by
  unfold checkConstraint
  rw [evaluated]
  show (if value ≠ 0 then Except.error _ else Except.ok ()) = .ok () ↔ _
  by_cases zero : value = 0
  · simp [zero]
  · simp [zero]

/-- The trace is consistent: all its rows have as many columns as the first one. -/
def Rectangular (trace : List (List UInt64)) : Prop :=
  ∀ row ∈ trace, ∀ row' ∈ trace, row.length = row'.length

/-- The constraints are met when their exact sums are multiples of the field size. -/
theorem checkTransitions_eq_ok_iff (positive : 0 < fieldSize.toNat)
    (harmless : ∀ window ∈ windows trace, ∀ constraint ∈ constraints,
      Harmless fieldSize.toNat constraint window.1 window.2) :
    checkTransitions build trace constraints fieldSize = .ok () ↔
      ∀ window ∈ windows trace, ∀ constraint ∈ constraints,
        exactSum constraint window.1 window.2 % fieldSize.toNat = 0 := by
  have checked : ∀ window ∈ windows trace, ∀ row, ∀ constraint ∈ constraints,
      checkConstraint build fieldSize row window.1 window.2 constraint = .ok () ↔
        exactSum constraint window.1 window.2 % fieldSize.toNat = 0 := by
    intro window member row constraint posed
    have exact_sum := (evaluateConstraint_exact_iff positive).mpr (harmless window member constraint posed)
    exact checkConstraint_eq_ok_iff (exact_sum build)
  unfold checkTransitions
  rw [forM_eq_ok_iff]
  constructor
  · intro passed window member constraint posed
    obtain ⟨row, found⟩ := List.mem_iff_getElem?.mp member
    have here := passed (window, row) (List.mk_mem_zipIdx_iff_getElem?.mpr found)
    exact (checked window member row constraint posed).mp (forM_eq_ok_iff.mp here constraint posed)
  · rintro sums ⟨window, row⟩ here
    have member := List.mem_of_getElem? (List.mk_mem_zipIdx_iff_getElem?.mp here)
    exact forM_eq_ok_iff.mpr fun constraint posed =>
      (checked window member row constraint posed).mpr (sums window member constraint posed)

/-- The values of the constraints can be committed to. -/
theorem exists_commitConstraints (blake3 : Blake3) (build : Build) (positive : 0 < fieldSize.toNat)
    (harmless : ∀ window ∈ windows trace, ∀ constraint ∈ constraints,
      Harmless fieldSize.toNat constraint window.1 window.2) :
    ∃ commitment, commitConstraints blake3 build trace constraints fieldSize = .ok commitment := by
  have values : ∃ values, ((windows trace).mapM fun window => constraints.mapM fun constraint =>
      evaluateConstraint build constraint window.1 window.2 fieldSize) = .ok values := by
    refine exists_mapM_eq_ok_iff.mpr fun window member => exists_mapM_eq_ok_iff.mpr fun constraint posed => ?_
    exact ⟨_, (evaluateConstraint_exact_iff positive).mpr (harmless window member constraint posed) build⟩
  obtain ⟨values, computed⟩ := values
  have string : constraintsString build trace constraints fieldSize =
      .ok (textBytes "stark:constraints:" ++ values.flatten.flatMap (leBytes 8)) :=
    bind_eq_ok_iff.mpr ⟨values, computed, rfl⟩
  exact ⟨_, bind_eq_ok_iff.mpr ⟨_, string, rfl⟩⟩

/-- **The room for a proof can be reserved**: for the rows at the query indices, of 24 bytes each, and for the
layers. The indices themselves take less than the rows. -/
structure StarkConfig.Reservable (config : StarkConfig) : Prop where
  queries : config.numQueries * 24 ≤ maxVecLength
  layers : config.expansionFactor * 32 ≤ maxVecLength

/-- **Which traces are accepted**, where the arithmetic does no harm: those that meet the constraints, if the
room for the proof can be reserved. -/
theorem exists_proveStark_iff (positive : 0 < config.fieldSize.toNat) (long : 2 ≤ trace.length)
    (rectangular : Rectangular trace)
    (harmless : ∀ window ∈ windows trace, ∀ constraint ∈ constraints,
      Harmless config.fieldSize.toNat constraint window.1 window.2) :
    (∃ proof, proveStark blake3 build trace constraints config = .ok proof) ↔
      (∀ window ∈ windows trace, ∀ constraint ∈ constraints,
        exactSum constraint window.1 window.2 % config.fieldSize.toNat = 0) ∧ config.Reservable := by
  have transitions : checkTransitions build trace constraints config.fieldSize = .ok () ↔ _ :=
    checkTransitions_eq_ok_iff positive harmless
  rw [← transitions]
  cases trace with
  | nil => exact absurd long (by simp)
  | cons first rest =>
    have consistent : ¬ ((first :: rest).any fun row => row.length ≠ first.length) = true := by
      intro odd
      obtain ⟨row, member, differs⟩ := List.any_eq_true.mp odd
      exact of_decide_eq_true differs (rectangular row member first List.mem_cons_self)
    obtain ⟨commitment, committed⟩ := exists_commitConstraints blake3 build positive harmless
    obtain ⟨indices, asked, derived⟩ := deriveQueries_spec blake3 (commitTrace blake3 (first :: rest))
      commitment config.numQueries (Nat.ne_of_gt (Nat.zero_lt_of_lt long))
    rw [proveStark, if_neg (not_lt.mpr long), if_neg consistent]
    constructor
    · rintro ⟨proof, proved⟩
      obtain ⟨passed, proved⟩ := check_bind_eq_ok_iff.mp proved
      obtain ⟨commitment', committed', proved⟩ := bind_eq_ok_iff.mp proved
      obtain rfl := Except.ok.inj (committed.symm.trans committed')
      obtain ⟨queries, found, proved⟩ := bind_eq_ok_iff.mp proved
      obtain ⟨friProof, built, -⟩ := bind_eq_ok_iff.mp proved
      obtain ⟨-, rfl⟩ := (derived queries).mp found
      obtain ⟨layers, rows, -⟩ := buildFriProof_eq_ok_iff.mp built
      exact ⟨passed, asked ▸ rows, layers⟩
    · rintro ⟨passed, room⟩
      have rows := room.queries
      have found := (derived indices).mpr ⟨by omega, rfl⟩
      have built : buildFriProof blake3 (first :: rest) indices config
          (commitTrace blake3 (first :: rest)) commitment = .ok _ :=
        buildFriProof_eq_ok_iff.mpr ⟨room.layers, asked.symm ▸ rows, rfl⟩
      simp only [passed, committed, found, built, bind, Except.bind]
      exact ⟨_, rfl⟩

end Traces

/-! ### Field sizes -/

section FieldSizes

variable {fieldSize : UInt64}

/-- The entries of a row are reduced. -/
def ReducedRow (fieldSize : UInt64) (row : List UInt64) : Prop := ∀ entry ∈ row, entry < fieldSize

/-- The coefficients of a constraint are reduced. -/
def ReducedConstraint (fieldSize : UInt64) (constraint : StarkConstraint) : Prop :=
  ∀ coefficient ∈ constraint.coefficients, coefficient.1 < fieldSize ∧ coefficient.2 < fieldSize

instance (fieldSize : UInt64) (row : List UInt64) : Decidable (ReducedRow fieldSize row) :=
  List.decidableBAll _ row

instance (fieldSize : UInt64) (constraint : StarkConstraint) :
    Decidable (ReducedConstraint fieldSize constraint) :=
  List.decidableBAll _ constraint.coefficients

/-- **The evaluation of constraints is arithmetic modulo the field size**, for reduced rows and constraints,
and the prover accepts the traces that meet the constraints. -/
structure FieldArithmetic (blake3 : Blake3) (config : StarkConfig) : Prop where
  evaluates : ∀ build constraint current next, ReducedConstraint config.fieldSize constraint →
    ReducedRow config.fieldSize current → ReducedRow config.fieldSize next →
    evaluateConstraint build constraint current next config.fieldSize =
      .ok (exactSum constraint current next % config.fieldSize.toNat)
  accepts : ∀ build trace constraints, 2 ≤ trace.length → Rectangular trace →
    (∀ row ∈ trace, ReducedRow config.fieldSize row) →
    (∀ constraint ∈ constraints, ReducedConstraint config.fieldSize constraint) →
    ((∃ proof, proveStark blake3 build trace constraints config = .ok proof) ↔
      ∀ window ∈ windows trace, ∀ constraint ∈ constraints,
        exactSum constraint window.1 window.2 % config.fieldSize.toNat = 0)

/-- The greatest two products and the greatest remainder fit a word together. -/
def Roomy (fieldSize : ℕ) : Prop := 2 * ((fieldSize - 1) * (fieldSize - 1)) + (fieldSize - 1) < 2 ^ 64

instance (fieldSize : ℕ) : Decidable (Roomy fieldSize) := inferInstanceAs (Decidable (_ < _))

theorem ReducedRow.getD_lt {row : List UInt64} (reduced : ReducedRow fieldSize row)
    (positive : 0 < fieldSize.toNat) (index : ℕ) : (row[index]?.getD 0).toNat ≤ fieldSize.toNat - 1 := by
  cases found : row[index]? with
  | none => exact Nat.zero_le _
  | some entry =>
    have small := UInt64.lt_iff_toNat_lt.mp (reduced entry (List.mem_of_getElem? found))
    rw [Option.getD_some]
    omega

/-- In a roomy field reduced rows and constraints do no harm. -/
theorem harmless_of_roomy (roomy : Roomy fieldSize.toNat) (positive : 0 < fieldSize.toNat)
    {constraint : StarkConstraint} {current next : List UInt64}
    (reduced : ReducedConstraint fieldSize constraint) (reducedCurrent : ReducedRow fieldSize current)
    (reducedNext : ReducedRow fieldSize next) :
    Harmless fieldSize.toNat constraint current next := by
  have products : ∀ column ∈ constraint.columns,
      column.2.1.toNat * (current[column.1]?.getD 0).toNat ≤ (fieldSize.toNat - 1) * (fieldSize.toNat - 1) ∧
        column.2.2.toNat * (next[column.1]?.getD 0).toNat ≤ (fieldSize.toNat - 1) * (fieldSize.toNat - 1) := by
    intro column member
    obtain ⟨curr, nxt⟩ := reduced column.2 (List.of_mem_zip member).2
    rw [UInt64.lt_iff_toNat_lt] at curr nxt
    exact ⟨Nat.mul_le_mul (by omega) (reducedCurrent.getD_lt positive _),
      Nat.mul_le_mul (by omega) (reducedNext.getD_lt positive _)⟩
  unfold Roomy at roomy
  refine ⟨fun before column after split => ?_, ?_⟩
  · have remainder := Nat.mod_lt (0 + (before.map (wrappedTerm current next)).sum) positive
    obtain ⟨curr, nxt⟩ := products column (split ▸ List.mem_append_right before List.mem_cons_self)
    have wrapped : wrappedTerm current next column ≤
        column.2.1.toNat * (current[column.1]?.getD 0).toNat +
          column.2.2.toNat * (next[column.1]?.getD 0).toNat := by
      simp only [wrappedTerm, UInt64.toNat_mul]
      exact Nat.add_le_add (Nat.mod_le _ _) (Nat.mod_le _ _)
    omega
  · have none_lost : ∀ lost ∈ constraint.columns.map (lostWords current next), lost = 0 := by
      intro lost member
      obtain ⟨column, posed, rfl⟩ := List.mem_map.mp member
      obtain ⟨curr, nxt⟩ := products column posed
      unfold lostWords
      rw [Nat.div_eq_of_lt (by omega), Nat.div_eq_of_lt (by omega)]
    rw [List.sum_eq_zero none_lost, Nat.mul_zero]
    exact Nat.dvd_zero _

/-- Where two products of the greatest remainder leave no room for it, a factor can be chosen so that the
products fit the word each but not together. -/
theorem exists_factor {t word : ℕ} (positive : 0 < word) (crowded : word ≤ 2 * (t * t) + t) :
    ∃ c ≤ t, c * t < word ∧ word ≤ t + 2 * (c * t) := by
  have t_pos : 0 < t := by
    rcases Nat.eq_zero_or_pos t with rfl | t_pos
    · omega
    · exact t_pos
  rcases Nat.lt_or_ge (t * t) word with small | large
  · exact ⟨t, le_rfl, small, by omega⟩
  · have quotient := Nat.div_mul_le_self (word - 1) t
    have next_multiple := Nat.lt_div_mul_add t_pos (a := word - 1)
    refine ⟨(word - 1) / t, ?_, by omega, by omega⟩
    exact (Nat.div_le_div_right (by omega)).trans_eq (Nat.mul_div_cancel t t_pos)

/-- The first column, and twice the second one times a factor. -/
def crowded (factor : UInt64) : StarkConstraint := ⟨"crowded", [0, 1], [(1, 0), (factor, factor)]⟩

/-- **In a field that is not roomy** a reduced constraint overflows on reduced rows. -/
theorem roomy_of_harmless (positive : 0 < fieldSize.toNat)
    (harmless : ∀ constraint current next, ReducedConstraint fieldSize constraint →
      ReducedRow fieldSize current → ReducedRow fieldSize next →
      Harmless fieldSize.toNat constraint current next) : Roomy fieldSize.toNat := by
  by_contra crowd
  obtain ⟨c, small, fits, overflows⟩ := exists_factor (by decide : 0 < 2 ^ 64) (not_lt.mp crowd)
  have word := fieldSize.toNat_lt
  have large : 1 < fieldSize.toNat := by
    by_contra tiny
    obtain one : fieldSize.toNat = 1 := by omega
    exact crowd (by rw [one]; decide)
  obtain ⟨t, t_eq⟩ : ∃ t : UInt64, t.toNat = fieldSize.toNat - 1 :=
    ⟨UInt64.ofNat (fieldSize.toNat - 1),
      UInt64.toNat_ofNat_of_lt' (show fieldSize.toNat - 1 < 2 ^ 64 by omega)⟩
  obtain ⟨factor, factor_eq⟩ : ∃ factor : UInt64, factor.toNat = c :=
    ⟨UInt64.ofNat c, UInt64.toNat_ofNat_of_lt' (show c < 2 ^ 64 by omega)⟩
  have row : ReducedRow fieldSize [t, t] := by
    simp only [ReducedRow, List.mem_cons, List.not_mem_nil, or_false, or_self, forall_eq,
      UInt64.lt_iff_toNat_lt]
    omega
  have posed : ReducedConstraint fieldSize (crowded factor) := by
    simp only [ReducedConstraint, crowded, List.mem_cons, List.not_mem_nil, or_false, forall_eq_or_imp,
      forall_eq, UInt64.lt_iff_toNat_lt, factor_eq, UInt64.toNat_one, UInt64.toNat_zero]
    omega
  have crossed := (harmless _ _ _ posed row row).fits [(0, 1, 0)] (1, factor, factor) [] rfl
  have first : wrappedTerm [t, t] [t, t] (0, 1, 0) = fieldSize.toNat - 1 := by
    simp [wrappedTerm, t_eq]
  have second : wrappedTerm [t, t] [t, t] (1, factor, factor) = 2 * (c * (fieldSize.toNat - 1)) := by
    simp only [wrappedTerm, UInt64.toNat_mul, List.getElem?_cons_succ, List.getElem?_cons_zero,
      Option.getD_some, t_eq, factor_eq, Nat.mod_eq_of_lt fits]
    omega
  rw [List.map_singleton, List.sum_singleton, Nat.zero_add, first, second,
    Nat.mod_eq_of_lt (by omega)] at crossed
  omega

/-- In a roomy field exactly the reduced traces that meet the constraints are accepted, if the room for the
proof can be reserved. -/
theorem exists_proveStark_of_roomy {blake3 : Blake3} {build : Build} {trace : List (List UInt64)}
    {constraints : List StarkConstraint} {config : StarkConfig} (roomy : Roomy config.fieldSize.toNat)
    (positive : 0 < config.fieldSize.toNat) (long : 2 ≤ trace.length) (rectangular : Rectangular trace)
    (rows : ∀ row ∈ trace, ReducedRow config.fieldSize row)
    (posed : ∀ constraint ∈ constraints, ReducedConstraint config.fieldSize constraint) :
    (∃ proof, proveStark blake3 build trace constraints config = .ok proof) ↔
      (∀ window ∈ windows trace, ∀ constraint ∈ constraints,
        exactSum constraint window.1 window.2 % config.fieldSize.toNat = 0) ∧ config.Reservable := by
  refine exists_proveStark_iff positive long rectangular fun window member constraint asked => ?_
  obtain ⟨current, next⟩ := List.of_mem_zip member
  exact harmless_of_roomy roomy positive (posed constraint asked) (rows _ current)
    (rows _ (List.mem_of_mem_tail next))

/-- A prover that accepts two empty rows without constraints has room for the proof. -/
theorem FieldArithmetic.reservable {blake3 : Blake3} {config : StarkConfig}
    (arithmetic : FieldArithmetic blake3 config) (positive : 0 < config.fieldSize.toNat) :
    config.Reservable := by
  have rectangular : Rectangular [[], []] := by simp [Rectangular]
  have accepted := (arithmetic.accepts ⟨true⟩ [[], []] [] le_rfl rectangular (by simp [ReducedRow])
    (by simp)).mpr (by simp)
  exact ((exists_proveStark_iff positive le_rfl rectangular (by simp)).mp accepted).2

/-- **When the arithmetic of constraints is that of the field**: on a constraint and two rows, if it does no
harm there; on all that are reduced, and for the prover, if the field is roomy and the room for the proof can
be reserved. -/
theorem field_arithmetic_iff (blake3 : Blake3) (config : StarkConfig) (positive : 0 < config.fieldSize) :
    (∀ constraint current next,
      (∀ build, evaluateConstraint build constraint current next config.fieldSize =
        .ok (exactSum constraint current next % config.fieldSize.toNat)) ↔
      Harmless config.fieldSize.toNat constraint current next) ∧
    (FieldArithmetic blake3 config ↔ Roomy config.fieldSize.toNat ∧ config.Reservable) := by
  have positive : 0 < config.fieldSize.toNat := UInt64.lt_iff_toNat_lt.mp positive
  refine ⟨fun constraint current next => evaluateConstraint_exact_iff positive, fun arithmetic => ⟨?_, ?_⟩,
    fun ⟨roomy, room⟩ => ⟨?_, ?_⟩⟩
  · refine roomy_of_harmless positive fun constraint current next posed reduced reduced' => ?_
    refine (evaluateConstraint_exact_iff positive).mp fun build => ?_
    exact arithmetic.evaluates build constraint current next posed reduced reduced'
  · exact arithmetic.reservable positive
  · intro build constraint current next posed reduced reduced'
    exact (evaluateConstraint_exact_iff positive).mpr
      (harmless_of_roomy roomy positive posed reduced reduced') build
  · intro build trace constraints long rectangular rows posed
    rw [exists_proveStark_of_roomy roomy positive long rectangular rows posed, and_iff_left room]

/-- The arithmetic of the default configuration is that of its field. -/
theorem default_field_arithmetic :
    FieldArithmetic Blake3.hash .defaultConfig :=
  (field_arithmetic_iff Blake3.hash .defaultConfig (by decide)).2.mpr
    ⟨by decide, by decide, by decide⟩

end FieldSizes

namespace Doubled

/-- The greatest prime below 2^64. -/
def largePrime : UInt64 := 18446744073709551557

/-- 2^32 times the only column is zero. -/
def scaled : StarkConstraint := ⟨"scaled", [0], [(4294967296, 0)]⟩

/-- **A product that is not zero in the field, evaluated as zero.** -/
theorem product_vanishes :
    ¬ ∀ config : StarkConfig, 0 < config.fieldSize → FieldArithmetic Blake3.hash config := by
  intro arithmetic
  have evaluated := (arithmetic { StarkConfig.defaultConfig with fieldSize := largePrime }
    (by decide)).evaluates ⟨true⟩ scaled [4294967296] [0] (by decide) (by decide) (by decide)
  exact absurd evaluated (by decide)

end Doubled

end Exochain.ExoProofs
