/-
**`exo-proofs` — SNARK proofs.**

Setup hashes a circuit into a fingerprint, which both keys carry. The prover synthesizes the circuit that
it is given, compares its fingerprint with that of its key, and ties the values of the public input
variables to the fingerprint with a hash that the verifier computes again.

The fingerprint counts variables, constraints and public inputs and strings together the terms of the
constraints, each combination followed by one separating byte. It does not say which variables are public,
nor how many terms a combination has, and the separating bytes also occur inside the terms. So two
circuits can have one fingerprint.

* `constraints_eq_of_shapes` — the fingerprint determines the constraints once the numbers of terms are
  known.
* `prove_ne_panicked` — the prover never reads past the witness.
* **`accepted_about_iff`** — an accepted proof is about the circuit of the keys exactly if the witness meets
  the constraints in which the two circuits differ, and has the same values where their public input
  variables differ.
* `Sample.factor_swapped` — a proof about one factor, accepted as one about the other.
-/

import Exochain.Foundation.Blake3
import Exochain.Foundation.Codes
import Exochain.Foundation.Collections
import Exochain.Foundation.Merkle
import Exochain.Core.Types
import Exochain.Proofs.Circuit

set_option linter.unusedSectionVars false

namespace Exochain.ExoProofs

open Foundation ExoCore

/-! ### The fingerprint -/

/-- An index or a counter as a 64-bit word. -/
def usizeToU64 (n : ℕ) : Except ProofError UInt64 :=
  if n < 2 ^ 64 then .ok (.ofNat n)
  else .error (.setupError ("value " ++ toString n ++ " overflows u64"))

/-- The bytes of a term. -/
def termString (term : UInt64 × ℕ) : Except ProofError (List UInt8) := do
  let index ← usizeToU64 term.2
  return wordBytes term.1 ++ wordBytes index

/-- The bytes of a linear combination. -/
def termsString (sum : LinearCombination) : Except ProofError (List UInt8) := do
  let terms ← sum.terms.mapM termString
  return terms.flatten

/-- The bytes of a constraint: the combinations, each followed by a separating byte. -/
def constraintString (constraint : Constraint) : Except ProofError (List UInt8) := do
  let a ← termsString constraint.aTerms
  let b ← termsString constraint.bTerms
  let c ← termsString constraint.cTerms
  return a ++ textBytes "|" ++ (b ++ textBytes "|") ++ (c ++ textBytes "#")

/-- The string that is hashed into the fingerprint. -/
def circuitString (cs : ConstraintSystem) : Except ProofError (List UInt8) := do
  let numVariables ← usizeToU64 cs.numVariables
  let numConstraints ← usizeToU64 cs.numConstraints
  let numPublicInputs ← usizeToU64 cs.numPublicInputs
  let constraints ← cs.constraints.mapM constraintString
  return textBytes "snark:circuit:" ++ (wordBytes numVariables ++ (wordBytes numConstraints ++
    (wordBytes numPublicInputs ++ constraints.flatten)))

section Hashing

variable (blake3 : Blake3)

/-- The fingerprint of a circuit. -/
def computeCircuitHash (cs : ConstraintSystem) : Except ProofError Hash256 := do
  let string ← circuitString cs
  return Hash256.digest blake3 string

/-- The component of a proof that is derived from the whole witness. -/
def computeProofComponent (domain : String) (circuitHash : Hash256) (witness : List UInt64) :
    FixedBytes 32 :=
  blake3 (textBytes domain ++ (circuitHash.asBytes ++ witness.flatMap wordBytes))

/-- The string that ties the public inputs to the fingerprint. -/
def cString (circuitHash : Hash256) (publicInputs : List UInt64) (a b : FixedBytes 32) : List UInt8 :=
  textBytes "snark:c:verify:" ++ (circuitHash.asBytes ++
    (publicInputs.flatMap wordBytes ++ (a.toList ++ b.toList)))

/-- The component of a proof that the verifier computes again. -/
def computeCComponent (circuitHash : Hash256) (publicInputs : List UInt64) (a b : FixedBytes 32) :
    FixedBytes 32 :=
  blake3 (cString circuitHash publicInputs a b)

end Hashing

/-! ### Setup, prover and verifier -/

/-- The key of the prover. -/
structure ProvingKey where
  numVariables : ℕ
  numConstraints : ℕ
  numPublicInputs : ℕ
  circuitHash : Hash256
  deriving DecidableEq

/-- The key of the verifier. -/
structure VerifyingKey where
  numPublicInputs : ℕ
  circuitHash : Hash256
  deriving DecidableEq

/-- A proof. -/
structure Proof where
  a : FixedBytes 32
  b : FixedBytes 32
  c : FixedBytes 32
  deriving DecidableEq

section Protocol

variable (blake3 : Blake3)

/-- Derive the keys of a circuit. -/
def setup (circuit : Circuit) : Except ProofError (ProvingKey × VerifyingKey) := do
  let cs ← (circuit.synthesize .new).mapError fun error => .setupError error.display
  if cs.numConstraints = 0 then .error (.setupError "circuit has no constraints")
  else
    let circuitHash ← (computeCircuitHash blake3 cs).mapError fun error => .setupError error.display
    return (⟨cs.numVariables, cs.numConstraints, cs.numPublicInputs, circuitHash⟩,
      ⟨cs.numPublicInputs, circuitHash⟩)

/-- An error of the prover. -/
def proofGenerationFailed (reason : String) : Stop := .returned (.proofGenerationFailed reason)

/-- Prove that a witness meets the constraints of a circuit. -/
def prove (key : ProvingKey) (circuit : Circuit) (witness : List UInt64) : Except Stop Proof := do
  let cs ← (circuit.synthesize .new).mapError fun error => proofGenerationFailed error.display
  if witness.length ≠ cs.numVariables then
    .error (.returned (.invalidWitness ("expected " ++ toString cs.numVariables ++
      " witness values, got " ++ toString witness.length)))
  else
    let cs := cs.assign witness
    let circuitHash ← (computeCircuitHash blake3 cs).mapError fun error =>
      proofGenerationFailed error.display
    if circuitHash ≠ key.circuitHash then
      .error (proofGenerationFailed "circuit structure does not match proving key")
    else if !cs.isSatisfied then
      .error (proofGenerationFailed "witness does not satisfy constraints")
    else
      let a := computeProofComponent blake3 "snark:a:" circuitHash witness
      let b := computeProofComponent blake3 "snark:b:" circuitHash witness
      let publicInputs ← (cs.publicInputIndices.mapM (indexVec witness)).mapError .panicked
      return ⟨a, b, computeCComponent blake3 circuitHash publicInputs a b⟩

/-- Verify a proof against public inputs. -/
def verify (key : VerifyingKey) (proof : Proof) (publicInputs : List UInt64) : Bool :=
  if publicInputs.length ≠ key.numPublicInputs then false
  else proof.c = computeCComponent blake3 key.circuitHash publicInputs proof.a proof.b

end Protocol

/-! ### What is hashed -/

/-- The bytes of the terms, where their indices fit a word. -/
def LinearCombination.bytes (sum : LinearCombination) : List UInt8 :=
  sum.terms.flatMap fun term => wordBytes term.1 ++ leBytes 8 term.2

/-- The bytes of a constraint, where its indices fit a word. -/
def Constraint.bytes (constraint : Constraint) : List UInt8 :=
  constraint.aTerms.bytes ++ textBytes "|" ++ (constraint.bTerms.bytes ++ textBytes "|") ++
    (constraint.cTerms.bytes ++ textBytes "#")

/-- The string of a system, where all numbers fit a word. -/
def ConstraintSystem.string (cs : ConstraintSystem) : List UInt8 :=
  textBytes "snark:circuit:" ++ (leBytes 8 cs.numVariables ++ (leBytes 8 cs.numConstraints ++
    (leBytes 8 cs.numPublicInputs ++ cs.constraints.flatMap Constraint.bytes)))

/-- The indices of a combination fit a word. -/
def LinearCombination.Fits (sum : LinearCombination) : Prop := ∀ term ∈ sum.terms, term.2 < 2 ^ 64

/-- The indices of a constraint fit a word. -/
structure Constraint.Fits (constraint : Constraint) : Prop where
  a : constraint.aTerms.Fits
  b : constraint.bTerms.Fits
  c : constraint.cTerms.Fits

/-- The numbers of a system fit a word. -/
structure ConstraintSystem.Fits (cs : ConstraintSystem) : Prop where
  numVariables : cs.numVariables < 2 ^ 64
  numConstraints : cs.numConstraints < 2 ^ 64
  numPublicInputs : cs.numPublicInputs < 2 ^ 64
  constraints : ∀ constraint ∈ cs.constraints, constraint.Fits

section Strings

theorem usizeToU64_eq_ok {n : ℕ} {word : UInt64} (converted : usizeToU64 n = .ok word) :
    n < 2 ^ 64 ∧ wordBytes word = leBytes 8 n := by
  unfold usizeToU64 at converted
  by_cases fits : n < 2 ^ 64
  · rw [if_pos fits] at converted
    cases converted
    exact ⟨fits, by rw [wordBytes, UInt64.toNat_ofNat', Nat.mod_eq_of_lt fits]⟩
  · rw [if_neg fits] at converted
    cases converted

theorem termString_eq_ok (term : UInt64 × ℕ) (string : List UInt8)
    (written : termString term = .ok string) :
    term.2 < 2 ^ 64 ∧ string = wordBytes term.1 ++ leBytes 8 term.2 := by
  obtain ⟨index, converted, rest⟩ := bind_eq_ok_iff.mp written
  cases rest
  obtain ⟨fits, bytes⟩ := usizeToU64_eq_ok converted
  exact ⟨fits, by rw [bytes]⟩

theorem termsString_eq_ok {sum : LinearCombination} {string : List UInt8}
    (written : termsString sum = .ok string) : sum.Fits ∧ string = sum.bytes := by
  obtain ⟨terms, each, rest⟩ := bind_eq_ok_iff.mp written
  cases rest
  obtain ⟨fits, rfl⟩ := of_mapM_eq_ok termString_eq_ok each
  exact ⟨fits, rfl⟩

theorem constraintString_eq_ok (constraint : Constraint) (string : List UInt8)
    (written : constraintString constraint = .ok string) :
    constraint.Fits ∧ string = constraint.bytes := by
  obtain ⟨_, a, rest⟩ := bind_eq_ok_iff.mp written
  obtain ⟨_, b, rest⟩ := bind_eq_ok_iff.mp rest
  obtain ⟨_, c, rest⟩ := bind_eq_ok_iff.mp rest
  cases rest
  obtain ⟨aFits, rfl⟩ := termsString_eq_ok a
  obtain ⟨bFits, rfl⟩ := termsString_eq_ok b
  obtain ⟨cFits, rfl⟩ := termsString_eq_ok c
  exact ⟨⟨aFits, bFits, cFits⟩, rfl⟩

/-- **What is hashed**, when a fingerprint is computed at all. -/
theorem circuitString_eq_ok {cs : ConstraintSystem} {string : List UInt8}
    (written : circuitString cs = .ok string) : cs.Fits ∧ string = cs.string := by
  obtain ⟨_, vars, rest⟩ := bind_eq_ok_iff.mp written
  obtain ⟨_, constraints, rest⟩ := bind_eq_ok_iff.mp rest
  obtain ⟨_, inputs, rest⟩ := bind_eq_ok_iff.mp rest
  obtain ⟨_, each, rest⟩ := bind_eq_ok_iff.mp rest
  cases rest
  obtain ⟨varsFit, varBytes⟩ := usizeToU64_eq_ok vars
  obtain ⟨constraintsFit, constraintBytes⟩ := usizeToU64_eq_ok constraints
  obtain ⟨inputsFit, inputBytes⟩ := usizeToU64_eq_ok inputs
  obtain ⟨fit, rfl⟩ := of_mapM_eq_ok constraintString_eq_ok each
  refine ⟨⟨varsFit, constraintsFit, inputsFit, fit⟩, ?_⟩
  rw [varBytes, constraintBytes, inputBytes]
  rfl

end Strings

/-! ### What the fingerprint determines -/

/-- The numbers of terms of a constraint. -/
def Constraint.shape (constraint : Constraint) : ℕ × ℕ × ℕ :=
  (constraint.aTerms.terms.length, constraint.bTerms.terms.length, constraint.cTerms.terms.length)

/-- Two systems with the same numbers of variables, constraints and public inputs. -/
structure ConstraintSystem.SameCounts (cs cs' : ConstraintSystem) : Prop where
  numVariables : cs.numVariables = cs'.numVariables
  numConstraints : cs.numConstraints = cs'.numConstraints
  numPublicInputs : cs.numPublicInputs = cs'.numPublicInputs

section Fingerprint

variable {cs cs' : ConstraintSystem}

theorem length_bytes (sum : LinearCombination) : sum.bytes.length = 16 * sum.terms.length := by
  unfold LinearCombination.bytes
  induction sum.terms with
  | nil => rfl
  | cons term terms ih =>
    rw [List.flatMap_cons, List.length_append, ih, List.length_append, length_wordBytes,
      length_leBytes, List.length_cons]
    omega

/-- The terms can be read back from their bytes. -/
theorem LinearCombination.eq_of_bytes_eq {sum sum' : LinearCombination} (fits : sum.Fits)
    (fits' : sum'.Fits) (same : sum.bytes = sum'.bytes) : sum = sum' := by
  have counts : sum.terms.length = sum'.terms.length := by
    have lengths := congrArg List.length same
    rw [length_bytes, length_bytes] at lengths
    omega
  have terms : sum.terms = sum'.terms := by
    refine eq_of_flatMap_eq (fun _ => ()) ?_ ?_ ?_ same
    · intro term term' _
      simp
    · rw [List.map_const', List.map_const', counts]
    · intro term member term' member' _ bytes
      obtain ⟨coeffs, indices⟩ := List.append_inj bytes (by simp)
      exact Prod.ext (wordBytes_injective coeffs)
        (leBytes_injective (fits term member) (fits' term' member') indices)
  obtain ⟨_⟩ := sum
  obtain ⟨_⟩ := sum'
  rw [LinearCombination.mk.injEq]
  exact terms

/-- A constraint can be read back once the numbers of terms are known. -/
theorem Constraint.eq_of_bytes_eq {constraint constraint' : Constraint} (fits : constraint.Fits)
    (fits' : constraint'.Fits) (shapes : constraint.shape = constraint'.shape)
    (same : constraint.bytes = constraint'.bytes) : constraint = constraint' := by
  simp only [shape, Prod.mk.injEq] at shapes
  obtain ⟨first, third⟩ := List.append_inj' same (by simp [length_bytes, shapes.2.2])
  obtain ⟨first, second⟩ := List.append_inj' first (by simp [length_bytes, shapes.2.1])
  have a := LinearCombination.eq_of_bytes_eq fits.a fits'.a (List.append_cancel_right first)
  have b := LinearCombination.eq_of_bytes_eq fits.b fits'.b (List.append_cancel_right second)
  have c := LinearCombination.eq_of_bytes_eq fits.c fits'.c (List.append_cancel_right third)
  obtain ⟨_, _, _⟩ := constraint
  obtain ⟨_, _, _⟩ := constraint'
  exact Constraint.mk.injEq .. ▸ ⟨a, b, c⟩

theorem length_constraint_bytes {constraint constraint' : Constraint}
    (shapes : constraint.shape = constraint'.shape) :
    constraint.bytes.length = constraint'.bytes.length := by
  simp only [Constraint.shape, Prod.mk.injEq] at shapes
  simp only [Constraint.bytes, List.length_append, length_bytes, shapes]

/-- The parts of the string of a system. -/
theorem parts_eq_of_string_eq (fits : cs.Fits) (fits' : cs'.Fits) (same : cs.string = cs'.string) :
    cs.SameCounts cs' ∧
      cs.constraints.flatMap Constraint.bytes = cs'.constraints.flatMap Constraint.bytes := by
  have rest := List.append_cancel_left same
  obtain ⟨vars, rest⟩ := List.append_inj rest (by simp)
  obtain ⟨constraints, rest⟩ := List.append_inj rest (by simp)
  obtain ⟨inputs, rest⟩ := List.append_inj rest (by simp)
  exact ⟨⟨leBytes_injective fits.numVariables fits'.numVariables vars,
    leBytes_injective fits.numConstraints fits'.numConstraints constraints,
    leBytes_injective fits.numPublicInputs fits'.numPublicInputs inputs⟩, rest⟩

/-- **The fingerprint determines the constraints once the numbers of terms are known.** -/
theorem constraints_eq_of_shapes (fits : cs.Fits) (fits' : cs'.Fits) (same : cs.string = cs'.string)
    (shapes : cs.constraints.map Constraint.shape = cs'.constraints.map Constraint.shape) :
    cs.constraints = cs'.constraints := by
  refine eq_of_flatMap_eq Constraint.shape (fun _ _ => length_constraint_bytes) shapes ?_
    (parts_eq_of_string_eq fits fits' same).2
  intro constraint member constraint' member' alike
  exact Constraint.eq_of_bytes_eq (fits.constraints constraint member)
    (fits'.constraints constraint' member') alike

end Fingerprint

/-! ### What setup, prover and verifier did -/

/-- The values of the public input variables. They are all allocated. -/
def ConstraintSystem.publicValues (cs : ConstraintSystem) (witness : List UInt64) : List UInt64 :=
  cs.publicInputIndices.map fun index => witness[index]?.getD 0

section Protocol

variable {blake3 : Blake3} {circuit : Circuit} {cs : ConstraintSystem} {witness inputs : List UInt64}
  {provingKey : ProvingKey} {verifyingKey : VerifyingKey} {proof : Proof}

theorem computeCircuitHash_eq_ok {hash : Hash256} (hashed : computeCircuitHash blake3 cs = .ok hash) :
    cs.Fits ∧ hash = blake3 cs.string := by
  obtain ⟨string, written, rest⟩ := bind_eq_ok_iff.mp hashed
  cases rest
  obtain ⟨fits, rfl⟩ := circuitString_eq_ok written
  exact ⟨fits, rfl⟩

/-- What setup did. -/
theorem setup_eq_ok (keys : setup blake3 circuit = .ok (provingKey, verifyingKey))
    (synthesized : circuit.synthesize .new = .ok cs) :
    cs.Fits ∧ provingKey.circuitHash = blake3 cs.string ∧
      verifyingKey = ⟨cs.numPublicInputs, blake3 cs.string⟩ := by
  unfold setup at keys
  rw [synthesized] at keys
  obtain ⟨_, here, rest⟩ := bind_eq_ok_iff.mp keys
  cases here
  split at rest
  · cases rest
  · obtain ⟨hash, hashed, rest⟩ := bind_eq_ok_iff.mp rest
    obtain ⟨fits, rfl⟩ := computeCircuitHash_eq_ok (mapError_eq_ok_iff.mp hashed)
    cases rest
    exact ⟨fits, rfl, rfl⟩

theorem numVariables_assign (complete : witness.length = cs.numVariables) :
    (cs.assign witness).numVariables = cs.numVariables := by
  unfold ConstraintSystem.assign ConstraintSystem.numVariables at *
  rw [List.length_zipWith, complete, min_self]

theorem string_assign (complete : witness.length = cs.numVariables) :
    (cs.assign witness).string = cs.string := by
  unfold ConstraintSystem.string
  rw [numVariables_assign complete]
  rfl

theorem fits_of_assign (complete : witness.length = cs.numVariables)
    (fits : (cs.assign witness).Fits) : cs.Fits :=
  ⟨numVariables_assign complete ▸ fits.numVariables, fits.numConstraints, fits.numPublicInputs,
    fits.constraints⟩

theorem publicValues_of_mapM {values : List UInt64}
    (read : cs.publicInputIndices.mapM (indexVec witness) = .ok values) :
    values = cs.publicValues witness := by
  have each : ∀ index value, indexVec witness index = .ok value →
      index < witness.length ∧ value = witness[index]?.getD 0 := by
    intro index value found
    rw [indexVec_eq_ok_iff] at found
    rw [found]
    exact ⟨(List.getElem?_eq_some_iff.mp found).1, rfl⟩
  exact (of_mapM_eq_ok each read).2

/-- What the prover did: the fingerprint was that of its key, the witness met the constraints, and the
values of the public inputs went into the last component. -/
theorem prove_eq_ok (proved : prove blake3 provingKey circuit witness = .ok proof)
    (synthesized : circuit.synthesize .new = .ok cs) :
    cs.Fits ∧ provingKey.circuitHash = blake3 cs.string ∧ cs.numVariables = witness.length ∧
      (∀ constraint ∈ cs.constraints, constraint.holds witness = true) ∧
      proof.c = computeCComponent blake3 provingKey.circuitHash (cs.publicValues witness)
        proof.a proof.b := by
  unfold prove at proved
  rw [synthesized] at proved
  obtain ⟨_, here, rest⟩ := bind_eq_ok_iff.mp proved
  cases here
  split at rest
  · cases rest
  · rename_i complete
    rw [not_not] at complete
    obtain ⟨hash, hashed, rest⟩ := bind_eq_ok_iff.mp rest
    obtain ⟨fits, rfl⟩ := computeCircuitHash_eq_ok (mapError_eq_ok_iff.mp hashed)
    split at rest
    · cases rest
    · rename_i fingerprint
      rw [not_not] at fingerprint
      split at rest
      · cases rest
      · rename_i satisfied
        rw [Bool.not_eq_true', Bool.not_eq_false] at satisfied
        obtain ⟨values, read, rest⟩ := bind_eq_ok_iff.mp rest
        obtain rfl := publicValues_of_mapM (mapError_eq_ok_iff.mp read)
        cases rest
        refine ⟨fits_of_assign complete fits, ?_, complete.symm, ?_, ?_⟩
        · rw [← fingerprint, string_assign complete]
        · intro constraint member
          have held := ConstraintSystem.isSatisfied_iff.mp satisfied constraint member
          rwa [ConstraintSystem.values_assign complete] at held
        · rw [fingerprint]
          rfl

/-- The prover never reads past the witness: the public input variables are allocated. -/
theorem prove_ne_panicked (key : ProvingKey) (circuit : Circuit) (witness : List UInt64) (fault : Fault) :
    prove blake3 key circuit witness ≠ .error (.panicked fault) := by
  unfold prove
  cases synthesized : circuit.synthesize .new with
  | error error => exact fun stopped => by cases stopped
  | ok cs =>
    have formed := Circuit.wellFormed_synthesize ConstraintSystem.wellFormed_new synthesized
    show (if witness.length ≠ cs.numVariables then _ else _) ≠ _
    split
    · exact fun stopped => by cases stopped
    · rename_i complete
      rw [not_not] at complete
      cases computeCircuitHash blake3 (cs.assign witness) with
      | error error => exact fun stopped => by cases stopped
      | ok hash =>
        show (if hash ≠ key.circuitHash then _ else _) ≠ _
        split
        · exact fun stopped => by cases stopped
        · split
          · exact fun stopped => by cases stopped
          · have read : (cs.assign witness).publicInputIndices.mapM (indexVec witness) =
                .ok (cs.publicValues witness) := by
              refine mapM_eq_ok_of_forall fun index member => indexVec_eq_ok_iff.mpr ?_
              rw [List.getElem?_eq_getElem (complete ▸ formed.allocated index member)]
              rfl
            rw [read]
            exact fun stopped => by cases stopped

/-- What the verifier did. -/
theorem verify_eq_true (verified : verify blake3 verifyingKey proof inputs = true) :
    inputs.length = verifyingKey.numPublicInputs ∧
      proof.c = computeCComponent blake3 verifyingKey.circuitHash inputs proof.a proof.b := by
  unfold verify at verified
  split at verified
  · cases verified
  · rename_i count
    exact ⟨not_not.mp count, of_decide_eq_true verified⟩

/-- The public inputs can be read back from the string of the last component. -/
theorem inputs_eq_of_cString_eq {hash : Hash256} {inputs' : List UInt64} {a b : FixedBytes 32}
    (same : cString hash inputs a b = cString hash inputs' a b) : inputs = inputs' := by
  have rest := List.append_cancel_left (List.append_cancel_left same)
  exact flatMap_wordBytes_injective (List.append_cancel_right rest)

end Protocol

/-! ### What an accepted proof is about -/

/-- The witness meets the constraints of the system, and the public inputs are its values at the public
input variables. -/
structure About (cs : ConstraintSystem) (witness inputs : List UInt64) : Prop where
  satisfied : ∀ constraint ∈ cs.constraints, constraint.holds witness = true
  inputs : inputs = cs.publicValues witness

/-- The witness meets the constraints of the first system that are not those of the second one, and has the
same values where their public input variables are not the same. -/
structure Covered (cs cs' : ConstraintSystem) (witness : List UInt64) : Prop where
  constraints : ∀ pair ∈ cs.constraints.zip cs'.constraints, pair.1 ≠ pair.2 →
    pair.1.holds witness = true
  inputs : ∀ pair ∈ cs.publicInputIndices.zip cs'.publicInputIndices, pair.1 ≠ pair.2 →
    witness[pair.1]? = witness[pair.2]?

section Accepted

variable {blake3 : Blake3} {circuit circuit' : Circuit} {cs cs' : ConstraintSystem}
  {witness inputs : List UInt64} {provingKey : ProvingKey} {verifyingKey : VerifyingKey} {proof : Proof}

theorem getD_eq_iff {index index' : ℕ} (bound : index < witness.length)
    (bound' : index' < witness.length) :
    witness[index]?.getD 0 = witness[index']?.getD 0 ↔ witness[index]? = witness[index']? := by
  rw [List.getElem?_eq_getElem bound, List.getElem?_eq_getElem bound', Option.some.injEq]
  rfl

/-- Where the proof is about the second circuit, it is about the first one exactly if the witness covers
the differences. -/
theorem about_iff_covered (formed : cs.WellFormed) (formed' : cs'.WellFormed)
    (counts : cs.SameCounts cs') (complete : cs'.numVariables = witness.length)
    (held : ∀ constraint ∈ cs'.constraints, constraint.holds witness = true)
    (inputs_eq : inputs = cs'.publicValues witness) :
    About cs witness inputs ↔ Covered cs cs' witness := by
  have satisfied := forall_iff_of_zip counts.numConstraints held
  have lengths : cs.publicInputIndices.length = cs'.publicInputIndices.length := by
    rw [← formed.counted, ← formed'.counted, counts.numPublicInputs]
  have values : inputs = cs.publicValues witness ↔
      ∀ pair ∈ cs.publicInputIndices.zip cs'.publicInputIndices, pair.1 ≠ pair.2 →
        witness[pair.1]? = witness[pair.2]? := by
    rw [inputs_eq, eq_comm]
    refine (map_eq_map_iff_of_zip lengths).trans (forall₂_congr fun pair member => ?_)
    obtain ⟨first, second⟩ := List.of_mem_zip member
    have bound := formed.allocated _ first
    have bound' := formed'.allocated _ second
    rw [getD_eq_iff (by rwa [counts.numVariables, complete] at bound) (by rwa [complete] at bound')]
  exact ⟨fun about => ⟨satisfied.mp about.satisfied, values.mp about.inputs⟩,
    fun covered => ⟨satisfied.mpr covered.constraints, values.mpr covered.inputs⟩⟩

/-- The strings that are hashed into fingerprints, and into the last components of prover and verifier. -/
def hashedStrings (cs cs' : ConstraintSystem) (key : VerifyingKey) (proof : Proof)
    (witness inputs : List UInt64) : List (List UInt8) :=
  [cs.string, cs'.string, cString key.circuitHash inputs proof.a proof.b,
    cString key.circuitHash (cs'.publicValues witness) proof.a proof.b]

/-- **What an accepted proof is about**: the two circuits have the same counts, and the same constraints
if the numbers of terms are the same. The proof is about the circuit of the keys exactly if the witness
covers what may differ. -/
theorem accepted_about_iff (synthesized : circuit.synthesize .new = .ok cs)
    (synthesized' : circuit'.synthesize .new = .ok cs')
    (keys : setup blake3 circuit = .ok (provingKey, verifyingKey))
    (proved : prove blake3 provingKey circuit' witness = .ok proof)
    (verified : verify blake3 verifyingKey proof inputs = true)
    (free : ¬ CollisionIn blake3 (hashedStrings cs cs' verifyingKey proof witness inputs)) :
    cs.SameCounts cs' ∧
      (cs.constraints.map Constraint.shape = cs'.constraints.map Constraint.shape →
        cs.constraints = cs'.constraints) ∧
      (About cs witness inputs ↔ Covered cs cs' witness) := by
  obtain ⟨fits, provingHash, rfl⟩ := setup_eq_ok keys synthesized
  obtain ⟨fits', provedHash, complete, held, component⟩ := prove_eq_ok proved synthesized'
  obtain ⟨-, component'⟩ := verify_eq_true verified
  have strings : cs.string = cs'.string :=
    eq_of_hash_eq free (by simp [hashedStrings]) (by simp [hashedStrings])
      (provingHash.symm.trans provedHash)
  obtain ⟨counts, -⟩ := parts_eq_of_string_eq fits fits' strings
  rw [provingHash] at component
  have components : cString (blake3 cs.string) inputs proof.a proof.b =
      cString (blake3 cs.string) (cs'.publicValues witness) proof.a proof.b :=
    eq_of_hash_eq free (by simp [hashedStrings]) (by simp [hashedStrings])
      (component'.symm.trans component)
  exact ⟨counts, constraints_eq_of_shapes fits fits' strings,
    about_iff_covered (Circuit.wellFormed_synthesize ConstraintSystem.wellFormed_new synthesized)
      (Circuit.wellFormed_synthesize ConstraintSystem.wellFormed_new synthesized') counts complete held
      (inputs_eq_of_cString_eq components)⟩

end Accepted

namespace Sample

/-- `x * y = z` with `x` and `z` public. -/
def firstFactor : Circuit :=
  .allocatePublic none fun x => .allocate none fun y => .allocatePublic none fun z =>
    .enforce (.fromVariable x) (.fromVariable y) (.fromVariable z) (.finish (.ok ()))

/-- `x * y = z` with `y` and `z` public. -/
def secondFactor : Circuit :=
  .allocate none fun x => .allocatePublic none fun y => .allocatePublic none fun z =>
    .enforce (.fromVariable x) (.fromVariable y) (.fromVariable z) (.finish (.ok ()))

/-- The constraint of both circuits. -/
def factors : Constraint := ⟨⟨[(1, 0)]⟩, ⟨[(1, 1)]⟩, ⟨[(1, 2)]⟩⟩

/-- The system with the given public variables. -/
def factorSystem (publics : List ℕ) : ConstraintSystem :=
  ⟨[⟨0, none⟩, ⟨1, none⟩, ⟨2, none⟩], [factors], 2, publics⟩

/-- The fingerprint of both circuits. -/
def factorHash : Hash256 := Blake3.hash (factorSystem [0, 2]).string

/-- The keys of both circuits. -/
def factorKeys : ProvingKey × VerifyingKey := (⟨3, 1, 2, factorHash⟩, ⟨2, factorHash⟩)

/-- The proof that twelve has the second factor four. -/
def factorProof : Proof :=
  let a := computeProofComponent Blake3.hash "snark:a:" factorHash [3, 4, 12]
  let b := computeProofComponent Blake3.hash "snark:b:" factorHash [3, 4, 12]
  ⟨a, b, computeCComponent Blake3.hash factorHash [4, 12] a b⟩

theorem factor_keys : setup Blake3.hash firstFactor = .ok factorKeys := by decide +kernel

theorem second_proved :
    prove Blake3.hash factorKeys.1 secondFactor [3, 4, 12] = .ok factorProof := by decide +kernel

theorem second_verified : verify Blake3.hash factorKeys.2 factorProof [4, 12] = true := by
  decide +kernel

theorem no_factor_collision : ¬ CollisionIn Blake3.hash
    (hashedStrings (factorSystem [0, 2]) (factorSystem [1, 2]) factorKeys.2 factorProof [3, 4, 12]
      [4, 12]) := by
  decide +kernel

/-- **A proof about one factor, accepted as one about the other**: the fingerprint does not say which
variables are public. -/
theorem factor_swapped :
    ¬ ∀ (circuit circuit' : Circuit) (cs cs' : ConstraintSystem) (witness inputs : List UInt64)
        (provingKey : ProvingKey) (verifyingKey : VerifyingKey) (proof : Proof),
      circuit.synthesize .new = .ok cs → circuit'.synthesize .new = .ok cs' →
      setup Blake3.hash circuit = .ok (provingKey, verifyingKey) →
      prove Blake3.hash provingKey circuit' witness = .ok proof →
      verify Blake3.hash verifyingKey proof inputs = true →
      About cs witness inputs ∨
        CollisionIn Blake3.hash (hashedStrings cs cs' verifyingKey proof witness inputs) := by
  intro binds
  rcases binds firstFactor secondFactor (factorSystem [0, 2]) (factorSystem [1, 2]) [3, 4, 12] [4, 12]
    factorKeys.1 factorKeys.2 factorProof rfl rfl factor_keys second_proved second_verified with
    about | collision
  · exact absurd about.inputs (by decide)
  · exact no_factor_collision collision

/-- The two circuits differ in a public variable, and the witness in its values there. -/
theorem factor_uncovered :
    ¬ Covered (factorSystem [0, 2]) (factorSystem [1, 2]) [3, 4, 12] := by
  have exactly := (@accepted_about_iff Blake3.hash firstFactor secondFactor _ _ [3, 4, 12] [4, 12]
    factorKeys.1 factorKeys.2 factorProof rfl rfl factor_keys second_proved second_verified
    no_factor_collision).2.2
  intro covered
  exact absurd (exactly.mpr covered).inputs (by decide)

/-- `31868 * x * y = 0`. -/
def annihilates : Constraint := ⟨⟨[(31868, 0)]⟩, ⟨[(1, 1)]⟩, ⟨[]⟩⟩

/-- A constraint with the same bytes, whose terms are all out of range. -/
def regrouped : Constraint :=
  ⟨⟨[]⟩, ⟨[]⟩, ⟨[(0, 124 * 2 ^ 48 + 2 ^ 56), (2 ^ 56, 124 * 2 ^ 56)]⟩⟩

/-- **One string, two constraints**: the separating bytes are read as bytes of a coefficient, and a
constraint that the witness does not meet as one that every witness meets. -/
theorem constraint_regrouped : annihilates.bytes = regrouped.bytes ∧
    annihilates.holds [1, 1] = false ∧ regrouped.holds [1, 1] = true := by
  decide +kernel

end Sample

end Exochain.ExoProofs
