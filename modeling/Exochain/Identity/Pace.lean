/-
**`exo-identity` — continuity of operators.**

The operator is the first of the list that the state selects. The state moves by one level at a time, no further
than the first and the last.

* `validate_eq_ok_iff` — which configurations are valid: three lists that are not empty and no identifier twice.
* **`resolveOperator_injective`** — the operators of a valid configuration, one for each state, are distinct.
* `level_run_escalate` — how far escalations reach.
-/

import Exochain.Foundation.Machine
import Exochain.Foundation.Run
import Exochain.Identity.Error

set_option linter.unusedSectionVars false

namespace Exochain.ExoIdentity

open Foundation ExoCore

/-! ### Configurations -/

/-- The operators, level by level. -/
structure PaceConfig where
  primary : Did
  alternates : List Did
  contingency : List Did
  emergency : List Did
  deriving DecidableEq

namespace PaceConfig

/-- All operators, level by level. -/
def allDids (config : PaceConfig) : List Did :=
  config.primary :: (config.alternates ++ config.contingency ++ config.emergency)

/-- Report the first identifier that has been seen before. -/
def checkDistinct (seen : Finset String) : List Did → Except IdentityError Unit
  | [] => .ok ()
  | did :: rest =>
    if did.value ∈ seen then .error (.duplicatePaceDid did)
    else checkDistinct (insert did.value seen) rest

/-- Check a configuration. -/
def validate (config : PaceConfig) : Except IdentityError Unit :=
  if config.alternates.isEmpty then .error (.invalidPaceConfig "alternates must not be empty")
  else if config.contingency.isEmpty then .error (.invalidPaceConfig "contingency must not be empty")
  else if config.emergency.isEmpty then .error (.invalidPaceConfig "emergency must not be empty")
  else checkDistinct ∅ config.allDids

/-- The loop passes exactly if nothing comes twice. -/
theorem checkDistinct_eq_ok_iff {seen : Finset String} {dids : List Did} :
    checkDistinct seen dids = .ok () ↔ dids.Nodup ∧ ∀ did ∈ dids, did.value ∉ seen := by
  induction dids generalizing seen with
  | nil => simp [checkDistinct]
  | cons did rest ih =>
    unfold checkDistinct
    by_cases known : did.value ∈ seen
    · rw [if_pos known]
      exact iff_of_false (fun same => nomatch same) fun all => all.2 did List.mem_cons_self known
    · rw [if_neg known, ih, List.nodup_cons, List.forall_mem_cons]
      constructor
      · rintro ⟨distinct, fresh⟩
        have apart : did ∉ rest := fun member => fresh did member (Finset.mem_insert_self _ _)
        exact ⟨⟨apart, distinct⟩, known, fun other member old =>
          fresh other member (Finset.mem_insert_of_mem old)⟩
      · rintro ⟨⟨apart, distinct⟩, -, fresh⟩
        refine ⟨distinct, fun other member listed => ?_⟩
        rcases Finset.mem_insert.mp listed with same | old
        · rw [Did.value_injective same] at member
          exact apart member
        · exact fresh other member old

/-- **Which configurations are valid.** -/
theorem validate_eq_ok_iff {config : PaceConfig} :
    config.validate = .ok () ↔
      config.alternates ≠ [] ∧ config.contingency ≠ [] ∧ config.emergency ≠ [] ∧ config.allDids.Nodup := by
  unfold validate
  have distinct : checkDistinct ∅ config.allDids = .ok () ↔ config.allDids.Nodup := by
    rw [checkDistinct_eq_ok_iff]
    exact and_iff_left fun did _ member => Finset.notMem_empty _ member
  rw [← distinct]
  cases config.alternates with
  | nil => simp
  | cons _ _ =>
    cases config.contingency with
    | nil => simp
    | cons _ _ =>
      cases config.emergency with
      | nil => simp
      | cons _ _ => simp

end PaceConfig

/-! ### States -/

/-- The level that is in charge. -/
inductive PaceState where
  | normal
  | alternateActive
  | contingencyActive
  | emergencyActive
  deriving DecidableEq, Repr

/-- The operator in charge; a list that is empty faults. -/
def resolveOperator (config : PaceConfig) : PaceState → Except Fault Did
  | .normal => .ok config.primary
  | .alternateActive => indexVec config.alternates 0
  | .contingencyActive => indexVec config.contingency 0
  | .emergencyActive => indexVec config.emergency 0

/-- Move to the next level. -/
def escalate : PaceState → Except IdentityError PaceState × PaceState
  | .normal => (.ok .alternateActive, .alternateActive)
  | .alternateActive => (.ok .contingencyActive, .contingencyActive)
  | .contingencyActive => (.ok .emergencyActive, .emergencyActive)
  | .emergencyActive => (.error .cannotEscalate, .emergencyActive)

/-- Move back to the level before. -/
def deescalate : PaceState → Except IdentityError PaceState × PaceState
  | .emergencyActive => (.ok .contingencyActive, .contingencyActive)
  | .contingencyActive => (.ok .alternateActive, .alternateActive)
  | .alternateActive => (.ok .normal, .normal)
  | .normal => (.error .cannotDeescalate, .normal)

/-! ### Operators over a run -/

section Operators

variable {config : PaceConfig}

/-- Where the operator of a state is among all of them. -/
def PaceConfig.position (config : PaceConfig) : PaceState → ℕ
  | .normal => 0
  | .alternateActive => 1
  | .contingencyActive => 1 + config.alternates.length
  | .emergencyActive => 1 + config.alternates.length + config.contingency.length

/-- **A valid configuration has an operator for every state**, each at a place of its own. -/
theorem exists_operator (valid : config.validate = .ok ()) (state : PaceState) :
    ∃ did, resolveOperator config state = .ok did ∧ config.allDids[config.position state]? = some did := by
  obtain ⟨alternates, contingency, emergency, -⟩ := PaceConfig.validate_eq_ok_iff.mp valid
  obtain ⟨alternate, alternates', alternatesAre⟩ := List.exists_cons_of_ne_nil alternates
  obtain ⟨backup, contingency', contingencyIs⟩ := List.exists_cons_of_ne_nil contingency
  obtain ⟨last, emergency', emergencyIs⟩ := List.exists_cons_of_ne_nil emergency
  have listed : config.allDids =
      config.primary :: (config.alternates ++ (config.contingency ++ config.emergency)) := by
    rw [PaceConfig.allDids, List.append_assoc]
  cases state with
  | normal => exact ⟨config.primary, rfl, rfl⟩
  | alternateActive =>
    refine ⟨alternate, by rw [resolveOperator, alternatesAre]; rfl, ?_⟩
    rw [listed, PaceConfig.position, alternatesAre]
    rfl
  | contingencyActive =>
    refine ⟨backup, by rw [resolveOperator, contingencyIs]; rfl, ?_⟩
    rw [listed, PaceConfig.position, Nat.add_comm, List.getElem?_cons_succ,
      List.getElem?_append_right le_rfl, Nat.sub_self, contingencyIs]
    rfl
  | emergencyActive =>
    refine ⟨last, by rw [resolveOperator, emergencyIs]; rfl, ?_⟩
    rw [listed, PaceConfig.position, Nat.add_assoc, Nat.add_comm, List.getElem?_cons_succ,
      List.getElem?_append_right (Nat.le_add_right _ _), Nat.add_sub_cancel_left,
      List.getElem?_append_right le_rfl, Nat.sub_self, emergencyIs]
    rfl

/-- The places of the operators differ. -/
theorem position_injective (valid : config.validate = .ok ()) : Function.Injective config.position := by
  obtain ⟨alternates, contingency, -, -⟩ := PaceConfig.validate_eq_ok_iff.mp valid
  have some := List.length_pos_of_ne_nil alternates
  have some' := List.length_pos_of_ne_nil contingency
  intro state other same
  cases state <;> cases other <;> first | rfl | (simp only [PaceConfig.position] at same; omega)

/-- **The operators of a valid configuration are distinct.** -/
theorem resolveOperator_injective (valid : config.validate = .ok ()) :
    Function.Injective (resolveOperator config) := by
  obtain ⟨-, -, -, distinct⟩ := PaceConfig.validate_eq_ok_iff.mp valid
  intro state other same
  obtain ⟨did, resolved, placed⟩ := exists_operator valid state
  obtain ⟨did', resolved', placed'⟩ := exists_operator valid other
  rw [resolved, resolved'] at same
  obtain rfl := Except.ok.inj same
  refine position_injective valid ?_
  exact (List.getElem?_inj (List.getElem?_eq_some_iff.mp placed).1 distinct).mp (placed.trans placed'.symm)

/-- The number of a state, the first one zero. -/
def level : PaceState → ℕ
  | .normal => 0
  | .alternateActive => 1
  | .contingencyActive => 2
  | .emergencyActive => 3

/-- A call on the state, up or down. -/
def move (state : PaceState) (up : Bool) : PaceState := if up then (escalate state).2 else (deescalate state).2

/-- One call. -/
theorem level_move (state : PaceState) (up : Bool) :
    level (move state up) = if up then min (level state + 1) 3 else level state - 1 := by
  cases state <;> cases up <;> rfl

/-- **So many escalations without a return** reach the level so far up, or the last. -/
theorem level_run_escalate (state : PaceState) (count : ℕ) :
    level (run move state (List.replicate count true)) = min (level state + count) 3 := by
  induction count generalizing state with
  | zero => cases state <;> rfl
  | succ count ih =>
    rw [List.replicate_succ, run_cons, ih, level_move, if_pos rfl]
    omega

end Operators

end Exochain.ExoIdentity
