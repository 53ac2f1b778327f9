/-
**`exo-proofs` — circuits and constraint systems.**

A circuit writes variables and rank-1 constraints `A * B = C` into a constraint system; `A`, `B` and `C`
are linear combinations, evaluated with wrapping arithmetic. What a circuit does to the system is a
program of three operations, and an operation that allocates hands the new variable back to it.

Indices and counters are those of a 64-bit target; they are kept as numbers.

* `ConstraintSystem.WellFormed` — the invariant of the systems that circuits write: the public input
  variables are allocated, and counted.
* `wellFormed_synthesize` — every circuit keeps it.
* `isSatisfied_iff` — the check of a system is that of each constraint.
-/

import Exochain.Foundation.Machine

set_option linter.unusedSectionVars false

namespace Exochain.ExoProofs

open Foundation

/-! ### Errors -/

/-- The errors of the proof system. -/
inductive ProofError where
  | constraintError (reason : String)
  | proofGenerationFailed (reason : String)
  | verificationFailed (reason : String)
  | invalidProofFormat (reason : String)
  | setupError (reason : String)
  | invalidWitness (reason : String)
  | deserializationError (reason : String)
  deriving DecidableEq, Repr

/-- The text of an error. -/
def ProofError.display : ProofError → String
  | constraintError reason => "constraint system error: " ++ reason
  | proofGenerationFailed reason => "proof generation failed: " ++ reason
  | verificationFailed reason => "proof verification failed: " ++ reason
  | invalidProofFormat reason => "invalid proof format: " ++ reason
  | setupError reason => "setup error: " ++ reason
  | invalidWitness reason => "invalid witness: " ++ reason
  | deserializationError reason => "deserialization error: " ++ reason

/-- How a computation ends without a result: it returns an error, or it panics. -/
inductive Stop where
  | returned (error : ProofError)
  | panicked (fault : Fault)
  | dividedByZero
  | capacityOverflow
  deriving DecidableEq, Repr

/-! ### Linear combinations -/

/-- The greatest index, which stands for the variable that is always one. -/
def usizeMax : ℕ := 2 ^ 64 - 1

/-- A variable of a constraint system. -/
structure Variable where
  index : ℕ
  value : Option UInt64
  deriving DecidableEq

/-- A sum of coefficients times variables. -/
structure LinearCombination where
  terms : List (UInt64 × ℕ)
  deriving DecidableEq

namespace LinearCombination

/-- The empty sum. -/
def zero : LinearCombination := ⟨[]⟩

/-- One variable. -/
def fromVariable (var : Variable) : LinearCombination := ⟨[(1, var.index)]⟩

/-- A constant. -/
def constant (value : UInt64) : LinearCombination := ⟨[(value, usizeMax)]⟩

/-- Add a term. -/
def addTerm (sum : LinearCombination) (coeff : UInt64) (index : ℕ) : LinearCombination :=
  ⟨sum.terms ++ [(coeff, index)]⟩

/-- The value of a variable; one that is not assigned counts as zero. -/
def valueAt (vars : List UInt64) (index : ℕ) : UInt64 :=
  if index = usizeMax then 1 else vars[index]?.getD 0

/-- The value of a linear combination. -/
def evaluate (sum : LinearCombination) (vars : List UInt64) : UInt64 :=
  sum.terms.foldl (fun acc term => acc + term.1 * valueAt vars term.2) 0

end LinearCombination

/-! ### Constraint systems -/

/-- A constraint `A * B = C`. -/
structure Constraint where
  aTerms : LinearCombination
  bTerms : LinearCombination
  cTerms : LinearCombination
  deriving DecidableEq

/-- Whether an assignment meets a constraint. -/
def Constraint.holds (constraint : Constraint) (vars : List UInt64) : Bool :=
  constraint.aTerms.evaluate vars * constraint.bTerms.evaluate vars = constraint.cTerms.evaluate vars

/-- A constraint system. -/
structure ConstraintSystem where
  vars : List Variable
  constraints : List Constraint
  numPublicInputs : ℕ
  publicInputIndices : List ℕ
  deriving DecidableEq

namespace ConstraintSystem

/-- The empty system. -/
def new : ConstraintSystem := ⟨[], [], 0, []⟩

/-- The number of variables. -/
def numVariables (cs : ConstraintSystem) : ℕ := cs.vars.length

/-- The number of constraints. -/
def numConstraints (cs : ConstraintSystem) : ℕ := cs.constraints.length

/-- The values of the variables; one without a value counts as zero. -/
def values (cs : ConstraintSystem) : List UInt64 := cs.vars.map fun var => var.value.getD 0

/-- Whether the values meet all constraints. -/
def isSatisfied (cs : ConstraintSystem) : Bool :=
  cs.constraints.all fun constraint => constraint.holds cs.values

/-- Allocate a variable. -/
def allocate (cs : ConstraintSystem) (value : Option UInt64) : Variable × ConstraintSystem :=
  let var : Variable := ⟨cs.vars.length, value⟩
  (var, { cs with vars := cs.vars ++ [var] })

/-- Allocate a public input variable. -/
def allocatePublic (cs : ConstraintSystem) (value : Option UInt64) : Variable × ConstraintSystem :=
  let (var, cs) := cs.allocate value
  (var, { cs with
    publicInputIndices := cs.publicInputIndices ++ [var.index]
    numPublicInputs := cs.numPublicInputs + 1 })

/-- Add a constraint. -/
def enforce (cs : ConstraintSystem) (a b c : LinearCombination) : ConstraintSystem :=
  { cs with constraints := cs.constraints ++ [⟨a, b, c⟩] }

theorem isSatisfied_iff {cs : ConstraintSystem} :
    cs.isSatisfied = true ↔ ∀ constraint ∈ cs.constraints, constraint.holds cs.values = true :=
  List.all_eq_true

/-- Give the variables the values of a witness. -/
def assign (cs : ConstraintSystem) (witness : List UInt64) : ConstraintSystem :=
  { cs with
    vars := cs.vars.zipWith (fun var value => { var with value := some value }) witness }

theorem values_assign {cs : ConstraintSystem} {witness : List UInt64}
    (complete : witness.length = cs.numVariables) : (cs.assign witness).values = witness := by
  unfold values assign
  rw [List.map_zipWith]
  show List.zipWith (fun _ value => value) cs.vars witness = witness
  apply List.ext_getElem
  · rw [List.length_zipWith, complete, numVariables, min_self]
  · intro index _ _
    rw [List.getElem_zipWith]

/-! ### Circuits -/

/-- The systems that circuits write. -/
structure WellFormed (cs : ConstraintSystem) : Prop where
  counted : cs.numPublicInputs = cs.publicInputIndices.length
  allocated : ∀ index ∈ cs.publicInputIndices, index < cs.numVariables

theorem wellFormed_new : WellFormed new := ⟨rfl, fun _ member => absurd member List.not_mem_nil⟩

theorem WellFormed.allocate {cs : ConstraintSystem} (formed : cs.WellFormed) (value : Option UInt64) :
    (cs.allocate value).2.WellFormed where
  counted := formed.counted
  allocated index member := by
    have before := formed.allocated index member
    simp only [ConstraintSystem.allocate, numVariables, List.length_append,
      List.length_singleton] at before ⊢
    omega

theorem WellFormed.allocatePublic {cs : ConstraintSystem} (formed : cs.WellFormed)
    (value : Option UInt64) : (cs.allocatePublic value).2.WellFormed where
  counted := by
    simp only [ConstraintSystem.allocatePublic, ConstraintSystem.allocate, List.length_append,
      List.length_singleton, formed.counted]
  allocated index member := by
    simp only [ConstraintSystem.allocatePublic, ConstraintSystem.allocate, numVariables,
      List.mem_append, List.mem_singleton, List.length_append, List.length_singleton] at member ⊢
    rcases member with earlier | rfl
    · have before := formed.allocated index earlier
      unfold numVariables at before
      omega
    · omega

theorem WellFormed.enforce {cs : ConstraintSystem} (formed : cs.WellFormed)
    (a b c : LinearCombination) : (cs.enforce a b c).WellFormed :=
  ⟨formed.counted, formed.allocated⟩

end ConstraintSystem

/-- What a circuit does to a constraint system: a program of the three operations, which goes on with the
variable that it is given. -/
inductive Circuit where
  | finish (result : Except ProofError Unit)
  | allocate (value : Option UInt64) (next : Variable → Circuit)
  | allocatePublic (value : Option UInt64) (next : Variable → Circuit)
  | enforce (a b c : LinearCombination) (next : Circuit)

namespace Circuit

/-- Synthesize the constraints into a system. The callers drop the system of a circuit that fails. -/
def synthesize : Circuit → ConstraintSystem → Except ProofError ConstraintSystem
  | .finish (.ok ()), cs => .ok cs
  | .finish (.error error), _ => .error error
  | .allocate value next, cs => (next (cs.allocate value).1).synthesize (cs.allocate value).2
  | .allocatePublic value next, cs =>
    (next (cs.allocatePublic value).1).synthesize (cs.allocatePublic value).2
  | .enforce a b c next, cs => next.synthesize (cs.enforce a b c)

/-- Every circuit keeps the invariant. -/
theorem wellFormed_synthesize {circuit : Circuit} {cs done : ConstraintSystem} (formed : cs.WellFormed)
    (synthesized : circuit.synthesize cs = .ok done) : done.WellFormed := by
  induction circuit generalizing cs with
  | finish result =>
    cases result with
    | ok _ =>
      cases synthesized
      exact formed
    | error error => cases synthesized
  | allocate value next ih => exact ih _ (formed.allocate value) synthesized
  | allocatePublic value next ih => exact ih _ (formed.allocatePublic value) synthesized
  | enforce a b c next ih => exact ih (formed.enforce a b c) synthesized

end Circuit

end Exochain.ExoProofs
