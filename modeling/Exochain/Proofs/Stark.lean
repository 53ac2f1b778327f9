/-
**`exo-proofs` — STARK proofs.**

The prover checks the transition constraints on the trace, commits to the trace and to the values of the
constraints, derives query indices from the two commitments and folds them into a chain of layers. The
verifier derives the indices and the chain again, and compares the hash of the public inputs with the one
in the proof. Counters are those of a 64-bit target, and a vector takes at most `isize::MAX` bytes: reserving
room for more panics.

* `verifyStark_iff` — what the verifier checks.
* **`stark_complete_and_binding`** — the verifier accepts what the prover returns with the first row of the
  trace, and no proof with two lists of public inputs.
* **`first_row_iff`** — a proof with the commitments of another one is accepted with the first row of that
  trace alone exactly if it has its public input hash as well; none of the checks ties that hash to the
  trace (`verifyStark_rehashed`).
* `Sample.inputs_replaced` — a proof about a trace, accepted with public inputs that are not in it.
-/

import Exochain.Foundation.Blake3
import Exochain.Foundation.Codes
import Exochain.Foundation.Merkle
import Exochain.Core.Types
import Exochain.Proofs.Circuit

set_option linter.unusedSectionVars false

namespace Exochain.ExoProofs

open Foundation ExoCore

/-! ### Configuration, constraints and proofs -/

/-- The configuration of a proof. -/
structure StarkConfig where
  fieldSize : UInt64
  expansionFactor : ℕ
  numQueries : ℕ
  deriving DecidableEq

/-- The default configuration. -/
def StarkConfig.defaultConfig : StarkConfig := ⟨2 ^ 31 - 1, 4, 8⟩

/-- A constraint on consecutive rows: for each column a coefficient of the current row and one of the
next row. -/
structure StarkConstraint where
  name : String
  columnIndices : List ℕ
  coefficients : List (UInt64 × UInt64)
  deriving DecidableEq

/-- The chain of layers, and the rows at the query indices. -/
structure FriProof where
  layerCommitments : List Hash256
  queryValues : List (List UInt64)
  deriving DecidableEq

/-- A proof. -/
structure StarkProof where
  traceCommitment : Hash256
  constraintCommitment : Hash256
  queryIndices : List ℕ
  friProof : FriProof
  config : StarkConfig
  traceLength : ℕ
  publicInputHash : Hash256
  deriving DecidableEq

/-! ### Constraints on the trace -/

/-- The consecutive pairs of a list. -/
def windows {α : Type} (xs : List α) : List (α × α) := xs.zip xs.tail

section Constraints

variable (build : Build)

/-- Add the products of one column, modulo the field size. The products wrap; the sums are checked as the
build says. -/
def addColumn (current next : List UInt64) (fieldSize : UInt64) (sum : ℕ)
    (column : ℕ × UInt64 × UInt64) : Except Stop ℕ := do
  let (index, currCoeff, nextCoeff) := column
  let currVal := current[index]?.getD 0
  let nextVal := next[index]?.getD 0
  let sum ← (build.add 64 sum (currCoeff * currVal).toNat).mapError .panicked
  let sum ← (build.add 64 sum (nextCoeff * nextVal).toNat).mapError .panicked
  if fieldSize = 0 then .error .dividedByZero else return sum % fieldSize.toNat

/-- The value of a constraint on two rows. A column without coefficients is left out. -/
def evaluateConstraint (constraint : StarkConstraint) (current next : List UInt64)
    (fieldSize : UInt64) : Except Stop ℕ :=
  (constraint.columnIndices.zip constraint.coefficients).foldlM
    (addColumn build current next fieldSize) 0

/-- Check a constraint on two rows. -/
def checkConstraint (fieldSize : UInt64) (row : ℕ) (current next : List UInt64)
    (constraint : StarkConstraint) : Except Stop Unit := do
  let val ← evaluateConstraint build constraint current next fieldSize
  if val ≠ 0 then
    .error (.returned (.proofGenerationFailed ("constraint '" ++ constraint.name ++
      "' not satisfied at row " ++ toString row)))
  else return ()

/-- Check the constraints on the whole trace. -/
def checkTransitions (trace : List (List UInt64)) (constraints : List StarkConstraint)
    (fieldSize : UInt64) : Except Stop Unit :=
  (windows trace).zipIdx.forM fun window =>
    constraints.forM (checkConstraint build fieldSize window.2 window.1.1 window.1.2)

/-- The string of the values of the constraints. -/
def constraintsString (trace : List (List UInt64)) (constraints : List StarkConstraint)
    (fieldSize : UInt64) : Except Stop (List UInt8) := do
  let values ← (windows trace).mapM fun window => constraints.mapM fun constraint =>
    evaluateConstraint build constraint window.1 window.2 fieldSize
  return textBytes "stark:constraints:" ++ values.flatten.flatMap (leBytes 8)

end Constraints

/-! ### Commitments -/

/-- The string of a row. -/
def rowString (row : List UInt64) : List UInt8 := textBytes "stark:row:" ++ row.flatMap wordBytes

theorem rowString_injective : Function.Injective rowString := fun _ _ same =>
  flatMap_wordBytes_injective (List.append_cancel_left same)

/-- The string that the query indices come from. -/
def queriesString (traceCommitment constraintCommitment : Hash256) : List UInt8 :=
  textBytes "stark:queries:" ++ (traceCommitment.asBytes ++ constraintCommitment.asBytes)

/-- The string of the first layer. -/
def friBaseString (traceCommitment constraintCommitment : Hash256) : List UInt8 :=
  textBytes "stark:fri:base:" ++ (traceCommitment.asBytes ++ constraintCommitment.asBytes)

/-- The string of the layer after another one. -/
def friFoldString (current : Hash256) : List UInt8 := textBytes "stark:fri:fold:" ++ current.asBytes

/-- Reserve room for so many elements of so many bytes each. -/
def reserve (bytes count : ℕ) : Except Stop Unit :=
  match withCapacity bytes count with
  | some () => .ok ()
  | none => .error .capacityOverflow

theorem reserve_eq_ok_iff {bytes count : ℕ} :
    reserve bytes count = .ok () ↔ count * bytes ≤ maxVecLength := by
  unfold reserve withCapacity
  by_cases room : count * bytes ≤ maxVecLength
  · simp [room]
  · simp [room]

/-- The number with the given bytes, least significant first. -/
def fromLeBytes (bytes : List UInt8) : ℕ := bytes.foldr (fun byte rest => byte.toNat + 256 * rest) 0

/-- A 32-bit number as an index. -/
def usizeFromU32 (raw : ℕ) : Except ProofError ℕ :=
  if raw < 2 ^ 64 then .ok raw
  else .error (.proofGenerationFailed ("query index " ++ toString raw ++ " overflows usize"))

section Hashing

variable (blake3 : Blake3)

/-- The hash of a row. -/
def hashRow (row : List UInt64) : Hash256 := Hash256.digest blake3 (rowString row)

/-- The string of the hashes of the rows. -/
def traceString (trace : List (List UInt64)) : List UInt8 :=
  textBytes "stark:trace:" ++ trace.flatMap fun row => (hashRow blake3 row).asBytes

/-- The commitment to the trace. -/
def commitTrace (trace : List (List UInt64)) : Hash256 := Hash256.digest blake3 (traceString blake3 trace)

/-- The commitment to the values of the constraints. -/
def commitConstraints (build : Build) (trace : List (List UInt64)) (constraints : List StarkConstraint)
    (fieldSize : UInt64) : Except Stop Hash256 := do
  let string ← constraintsString build trace constraints fieldSize
  return Hash256.digest blake3 string

/-- The query index of a round: four bytes of the seed, modulo the length of the trace. -/
def deriveQuery (seed : Hash256) (traceLen round : ℕ) : Except ProofError ℕ := do
  let byteOffset := round * 4 % 32
  let idxBytes := (List.range 4).map fun j => seed.asBytes[(byteOffset + j) % 32]?.getD 0
  let raw ← usizeFromU32 (fromLeBytes idxBytes)
  return raw % traceLen

/-- The query indices, of eight bytes each. The room for them is reserved before the loop. -/
def deriveQueries (traceCommitment constraintCommitment : Hash256) (numQueries traceLen : ℕ) :
    Except Stop (List ℕ) :=
  if traceLen = 0 then .ok []
  else do
    let seed := blake3 (queriesString traceCommitment constraintCommitment)
    reserve 8 numQueries
    ((List.range numQueries).mapM (deriveQuery seed traceLen)).mapError .returned

/-- The first layer. -/
def computeFriBaseCommitment (traceCommitment constraintCommitment : Hash256) : Hash256 :=
  Hash256.digest blake3 (friBaseString traceCommitment constraintCommitment)

/-- The layer after another one. -/
def friFold (current : Hash256) : Hash256 := Hash256.digest blake3 (friFoldString current)

/-- A layer and the given number of layers after it. -/
def friLayers : ℕ → Hash256 → List Hash256
  | 0, current => [current]
  | more + 1, current => current :: friLayers more (friFold blake3 current)

/-- The chain of layers, and the rows at the query indices. There is a first layer whatever the
configuration says. A layer takes 32 bytes and a row, which is a vector itself, 24; the room for the rows is
reserved when they are collected. -/
def buildFriProof (trace : List (List UInt64)) (queryIndices : List ℕ) (config : StarkConfig)
    (traceCommitment constraintCommitment : Hash256) : Except Stop FriProof := do
  let base := computeFriBaseCommitment blake3 traceCommitment constraintCommitment
  reserve 32 config.expansionFactor
  let layerCommitments := friLayers blake3 (config.expansionFactor - 1) base
  reserve 24 queryIndices.length
  let queryValues := queryIndices.map fun index => trace.getD index []
  return { layerCommitments := layerCommitments, queryValues := queryValues }

/-! ### Prover and verifier -/

/-- Prove that a trace meets the constraints. -/
def proveStark (build : Build) (trace : List (List UInt64)) (constraints : List StarkConstraint)
    (config : StarkConfig) : Except Stop StarkProof :=
  match trace with
  | [] => .error (.returned (.proofGenerationFailed "empty trace"))
  | first :: rest =>
    if (first :: rest).length < 2 then
      .error (.returned (.proofGenerationFailed "trace must have at least 2 rows"))
    else if (first :: rest).any fun row => row.length ≠ first.length then
      .error (.returned (.proofGenerationFailed "inconsistent column count"))
    else do
      checkTransitions build (first :: rest) constraints config.fieldSize
      let traceCommitment := commitTrace blake3 (first :: rest)
      let constraintCommitment ←
        commitConstraints blake3 build (first :: rest) constraints config.fieldSize
      let queryIndices ← deriveQueries blake3 traceCommitment constraintCommitment config.numQueries
        (first :: rest).length
      let friProof ← buildFriProof blake3 (first :: rest) queryIndices config traceCommitment
        constraintCommitment
      return {
        traceCommitment := traceCommitment
        constraintCommitment := constraintCommitment
        queryIndices := queryIndices
        friProof := friProof
        config := config
        traceLength := (first :: rest).length
        publicInputHash := hashRow blake3 first }

/-- Verify a proof against public inputs. An error of the query indices is a refusal, and a panic of theirs is
one of the verifier. -/
def verifyStark (proof : StarkProof) (publicInputs : List UInt64) : Except Stop Bool :=
  match deriveQueries blake3 proof.traceCommitment proof.constraintCommitment proof.config.numQueries
    proof.traceLength with
  | .error (.returned _) => return false
  | .error stop => .error stop
  | .ok expectedQueries =>
    if expectedQueries ≠ proof.queryIndices then return false
    else if proof.friProof.layerCommitments.isEmpty then return false
    else if hashRow blake3 publicInputs ≠ proof.publicInputHash then return false
    else if proof.friProof.layerCommitments.head? ≠
        some (computeFriBaseCommitment blake3 proof.traceCommitment proof.constraintCommitment) then
      return false
    else
      return (windows proof.friProof.layerCommitments).all fun window =>
        window.2 = friFold blake3 window.1

end Hashing

/-! ### What prover and verifier did -/

section Accepted

variable {blake3 : Blake3} {build : Build} {trace : List (List UInt64)}
  {constraints : List StarkConstraint} {config : StarkConfig} {proof : StarkProof}
  {inputs : List UInt64}

/-- What the verifier checks. -/
structure Accepted (blake3 : Blake3) (proof : StarkProof) (inputs : List UInt64) : Prop where
  queries : deriveQueries blake3 proof.traceCommitment proof.constraintCommitment
    proof.config.numQueries proof.traceLength = .ok proof.queryIndices
  inputs : hashRow blake3 inputs = proof.publicInputHash
  base : proof.friProof.layerCommitments.head? =
    some (computeFriBaseCommitment blake3 proof.traceCommitment proof.constraintCommitment)
  layers : ∀ window ∈ windows proof.friProof.layerCommitments, window.2 = friFold blake3 window.1

theorem verifyStark_iff : verifyStark blake3 proof inputs = .ok true ↔ Accepted blake3 proof inputs := by
  unfold verifyStark
  constructor
  · intro verified
    split at verified
    · cases verified
    · cases verified
    · rename_i expected derived
      split_ifs at verified with queries empty hash base
      · cases verified
      · cases verified
      · cases verified
      · cases verified
      · rw [not_not] at queries hash base
        refine ⟨queries ▸ derived, hash, base, fun window member => ?_⟩
        exact of_decide_eq_true (List.all_eq_true.mp (Except.ok.inj verified) window member)
  · intro accepted
    have nonempty : ¬ proof.friProof.layerCommitments.isEmpty = true := by
      intro empty
      have base := accepted.base
      rw [List.isEmpty_iff.mp empty] at base
      cases base
    rw [accepted.queries]
    show (if proof.queryIndices ≠ proof.queryIndices then Except.ok false else _) = _
    rw [if_neg (not_not_intro rfl), if_neg nonempty, if_neg (not_not_intro accepted.inputs),
      if_neg (not_not_intro accepted.base)]
    refine congrArg Except.ok (List.all_eq_true.mpr fun window member => ?_)
    exact decide_eq_true (accepted.layers window member)

/-- The layers start with the first one. -/
theorem head?_friLayers (more : ℕ) (current : Hash256) :
    (friLayers blake3 more current).head? = some current := by
  cases more with
  | zero => rfl
  | succ more => rfl

/-- **The chain of layers**, whatever its length: each one is the fold of the one before it. -/
theorem windows_friLayers {more : ℕ} {current : Hash256} {window : Hash256 × Hash256}
    (member : window ∈ windows (friLayers blake3 more current)) :
    window.2 = friFold blake3 window.1 := by
  induction more generalizing current with
  | zero => cases member
  | succ more ih =>
    cases more with
    | zero =>
      obtain rfl := List.mem_singleton.mp member
      rfl
    | succ more =>
      rcases List.mem_cons.mp member with rfl | later
      · rfl
      · exact ih later

/-- What is built, where there is room for it. -/
theorem buildFriProof_eq_ok_iff {queries : List ℕ} {traceCommitment constraintCommitment : Hash256}
    {friProof : FriProof} :
    buildFriProof blake3 trace queries config traceCommitment constraintCommitment = .ok friProof ↔
      config.expansionFactor * 32 ≤ maxVecLength ∧ queries.length * 24 ≤ maxVecLength ∧
        friProof = ⟨friLayers blake3 (config.expansionFactor - 1)
          (computeFriBaseCommitment blake3 traceCommitment constraintCommitment),
          queries.map fun index => trace.getD index []⟩ := by
  rw [buildFriProof, check_bind_eq_ok_iff, check_bind_eq_ok_iff, reserve_eq_ok_iff, reserve_eq_ok_iff]
  refine and_congr_right fun _ => and_congr_right fun _ => ?_
  exact ⟨fun same => (Except.ok.inj same).symm, fun same => congrArg Except.ok same.symm⟩

/-- What the prover did. -/
theorem proveStark_eq_ok (proved : proveStark blake3 build trace constraints config = .ok proof) :
    ∃ first, trace.head? = some first ∧ proof.publicInputHash = hashRow blake3 first ∧
      Accepted blake3 proof first := by
  unfold proveStark at proved
  split at proved
  · cases proved
  · rename_i first rest
    split_ifs at proved
    obtain ⟨-, proved⟩ := check_bind_eq_ok_iff.mp proved
    obtain ⟨constraintCommitment, -, proved⟩ := bind_eq_ok_iff.mp proved
    obtain ⟨queries, derived, proved⟩ := bind_eq_ok_iff.mp proved
    obtain ⟨friProof, built, proved⟩ := bind_eq_ok_iff.mp proved
    cases proved
    obtain ⟨-, -, rfl⟩ := buildFriProof_eq_ok_iff.mp built
    exact ⟨first, rfl, rfl, derived, rfl, head?_friLayers _ _, fun _ => windows_friLayers⟩

/-- **The verifier accepts what the prover returns, with the first row of the trace**, whatever the
configuration says; and it accepts no proof with two lists of public inputs, unless their rows collide. -/
theorem stark_complete_and_binding
    (proved : proveStark blake3 build trace constraints config = .ok proof) :
    (∃ first, trace.head? = some first ∧ verifyStark blake3 proof first = .ok true) ∧
      ∀ inputs inputs', verifyStark blake3 proof inputs = .ok true →
        verifyStark blake3 proof inputs' = .ok true →
        inputs = inputs' ∨ CollisionIn blake3 [rowString inputs, rowString inputs'] := by
  refine ⟨?_, fun inputs inputs' verified verified' => ?_⟩
  · obtain ⟨first, head, -, accepted⟩ := proveStark_eq_ok proved
    exact ⟨first, head, verifyStark_iff.mpr accepted⟩
  · refine or_iff_not_imp_right.mpr fun free => rowString_injective ?_
    exact eq_of_hash_eq free (by simp) (by simp)
      ((verifyStark_iff.mp verified).inputs.trans (verifyStark_iff.mp verified').inputs.symm)

end Accepted

/-! ### Proofs with the same commitments -/

/-- A proof with the commitments, the configuration and the trace length of another one. -/
structure SameCommitments (proof' proof : StarkProof) : Prop where
  traceCommitment : proof'.traceCommitment = proof.traceCommitment
  constraintCommitment : proof'.constraintCommitment = proof.constraintCommitment
  config : proof'.config = proof.config
  traceLength : proof'.traceLength = proof.traceLength

section Substitution

variable {blake3 : Blake3} {build : Build} {trace : List (List UInt64)}
  {constraints : List StarkConstraint} {config : StarkConfig} {proof proof' : StarkProof}
  {inputs first : List UInt64}

/-- A chain is determined by its first layer and its length. -/
theorem exists_eq_friLayers {layers : List Hash256} {base : Hash256} (head : layers.head? = some base)
    (folds : ∀ window ∈ windows layers, window.2 = friFold blake3 window.1) :
    ∃ more, layers = friLayers blake3 more base := by
  induction layers generalizing base with
  | nil => cases head
  | cons current rest ih =>
    cases head
    cases rest with
    | nil => exact ⟨0, rfl⟩
    | cons next rest =>
      obtain rfl : next = friFold blake3 current := folds (current, next) List.mem_cons_self
      obtain ⟨more, rest_eq⟩ := ih rfl fun window member => folds window (List.mem_cons_of_mem _ member)
      exact ⟨more + 1, congrArg (current :: ·) rest_eq⟩

/-- **Any public inputs are accepted** with the commitments of a proof, once their hash is put into it. -/
theorem verifyStark_rehashed (proved : proveStark blake3 build trace constraints config = .ok proof)
    (inputs : List UInt64) :
    verifyStark blake3 { proof with publicInputHash := hashRow blake3 inputs } inputs = .ok true := by
  obtain ⟨first, -, -, accepted⟩ := proveStark_eq_ok proved
  exact verifyStark_iff.mpr ⟨accepted.queries, rfl, accepted.base, accepted.layers⟩

/-- **What the commitments of a proof determine** in another one that is accepted with them: the query
indices, and the layers up to their number. The public inputs are the first row of the trace exactly if the
other proof has the public input hash as well. -/
theorem first_row_iff (proved : proveStark blake3 build trace constraints config = .ok proof)
    (head : trace.head? = some first) (same : SameCommitments proof' proof)
    (verified : verifyStark blake3 proof' inputs = .ok true)
    (free : ¬ CollisionIn blake3 [rowString inputs, rowString first]) :
    proof'.queryIndices = proof.queryIndices ∧
      (∃ more, proof'.friProof.layerCommitments = friLayers blake3 more
        (computeFriBaseCommitment blake3 proof.traceCommitment proof.constraintCommitment)) ∧
      (inputs = first ↔ proof'.publicInputHash = proof.publicInputHash) := by
  obtain ⟨row, head', hash, accepted⟩ := proveStark_eq_ok proved
  obtain rfl : row = first := Option.some.inj (head'.symm.trans head)
  have accepted' := verifyStark_iff.mp verified
  refine ⟨?_, ?_, fun equal => ?_, fun hashes => rowString_injective ?_⟩
  · have queries := accepted'.queries
    rw [same.traceCommitment, same.constraintCommitment, same.config, same.traceLength,
      accepted.queries] at queries
    exact (Except.ok.inj queries).symm
  · have base := accepted'.base
    rw [same.traceCommitment, same.constraintCommitment] at base
    exact exists_eq_friLayers base accepted'.layers
  · rw [← accepted'.inputs, hash, equal]
  · refine eq_of_hash_eq free (by simp) (by simp) ?_
    exact accepted'.inputs.trans (hashes.trans hash)

/-- The strings that are hashed for the commitments to a trace. -/
def traceStrings (blake3 : Blake3) (build : Build) (trace : List (List UInt64))
    (constraints : List StarkConstraint) (fieldSize : UInt64) : List (List UInt8) :=
  trace.map rowString ++ [traceString blake3 trace] ++
    (constraintsString build trace constraints fieldSize).toOption.toList

/-- The strings that are hashed for the query indices and the layers of a proof. -/
def layerStrings (proof : StarkProof) : List (List UInt8) :=
  [queriesString proof.traceCommitment proof.constraintCommitment,
    friBaseString proof.traceCommitment proof.constraintCommitment] ++
    proof.friProof.layerCommitments.map friFoldString

end Substitution

namespace Sample

/-- A trace that stays at one. -/
def constantTrace : List (List UInt64) := [[1], [1]]

/-- The next value is the current one, modulo 97. -/
def unchanged : StarkConstraint := ⟨"unchanged", [0], [(1, 96)]⟩

/-- Two layers and one query. -/
def smallConfig : StarkConfig := ⟨97, 2, 1⟩

/-- The proof of the trace. -/
def constantProof : StarkProof :=
  let traceCommitment := commitTrace Blake3.hash constantTrace
  let constraintCommitment := Blake3.hash (textBytes "stark:constraints:" ++ leBytes 8 0)
  let base := computeFriBaseCommitment Blake3.hash traceCommitment constraintCommitment
  { traceCommitment := traceCommitment
    constraintCommitment := constraintCommitment
    queryIndices := [0]
    friProof := ⟨[base, friFold Blake3.hash base], [[1]]⟩
    config := smallConfig
    traceLength := 2
    publicInputHash := hashRow Blake3.hash [1] }

theorem constant_proved :
    proveStark Blake3.hash ⟨true⟩ constantTrace [unchanged] smallConfig = .ok constantProof := by
  decide +kernel

/-- The same proof with the hash of other public inputs. -/
def rehashedProof : StarkProof := { constantProof with publicInputHash := hashRow Blake3.hash [9] }

theorem no_stark_collision : ¬ CollisionIn Blake3.hash
    (traceStrings Blake3.hash ⟨true⟩ constantTrace [unchanged] smallConfig.fieldSize ++
      layerStrings constantProof ++ layerStrings rehashedProof ++ [rowString [9]]) := by
  decide +kernel

/-- **A proof about a trace, accepted with public inputs that are not in it.** -/
theorem inputs_replaced :
    ¬ ∀ (trace : List (List UInt64)) (constraints : List StarkConstraint) (config : StarkConfig)
        (proof proof' : StarkProof) (first inputs : List UInt64),
      proveStark Blake3.hash ⟨true⟩ trace constraints config = .ok proof →
      trace.head? = some first → SameCommitments proof' proof →
      verifyStark Blake3.hash proof' inputs = .ok true →
      inputs = first ∨ CollisionIn Blake3.hash
        (traceStrings Blake3.hash ⟨true⟩ trace constraints config.fieldSize ++ layerStrings proof ++
          layerStrings proof' ++ [rowString inputs]) := by
  intro binds
  rcases binds constantTrace [unchanged] smallConfig constantProof rehashedProof [1] [9] constant_proved
    rfl ⟨rfl, rfl, rfl, rfl⟩ (verifyStark_rehashed constant_proved [9]) with equal | collision
  · exact absurd equal (by decide)
  · exact no_stark_collision collision

/-- The other proof has another public input hash. -/
theorem rehashed_differs : rehashedProof.publicInputHash ≠ constantProof.publicInputHash := by
  have same : SameCommitments rehashedProof constantProof := ⟨rfl, rfl, rfl, rfl⟩
  have exactly := (first_row_iff constant_proved rfl same (verifyStark_rehashed constant_proved [9])
    (by decide +kernel)).2.2
  exact fun hashes => absurd (exactly.mpr hashes) (by decide)

/-- The proof is accepted with the first row of the trace. -/
theorem constant_verified : verifyStark Blake3.hash constantProof [1] = .ok true := by
  obtain ⟨⟨first, head, verified⟩, -⟩ := stark_complete_and_binding constant_proved
  obtain rfl : [1] = first := Option.some.inj head
  exact verified

end Sample

end Exochain.ExoProofs
