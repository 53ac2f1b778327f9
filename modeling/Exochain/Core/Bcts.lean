/-
**`exo-core` — the transaction lifecycle.**

The state machine of `bcts.rs`: fourteen states, a table of successors, and a transaction that
records each transition with a receipt chained to the one before.

* `Transaction.transition` checks the edge, reads the clock, computes the receipt and records all
  three; `transition_cases` says once what it can do. The receipt is chained to the last entry of
  `receiptChain`.
* `Transaction.verifyReceiptChain` recomputes the receipts from the transitions, with a running
  previous hash of its own.
* `attempts_attested` — **the two agree in every run of attempts**: the invariant `Coherent` threads
  both the states and the receipts through the transitions.
-/

import Exochain.Foundation.Run
import Exochain.Core.Hash
import Exochain.Core.Hlc

set_option linter.unusedSectionVars false

namespace Exochain.ExoCore

open Foundation

/-! ### States -/

/-- The lifecycle states of a transaction. -/
inductive BctsState where
  | draft
  | submitted
  | identityResolved
  | consentValidated
  | deliberated
  | verified
  | governed
  | approved
  | executed
  | recorded
  | closed
  | denied
  | escalated
  | remediated
  deriving DecidableEq, Repr

namespace BctsState

/-- The states that are valid successors. -/
def validTransitions : BctsState → List BctsState
  | draft => [submitted]
  | submitted => [identityResolved, denied]
  | identityResolved => [consentValidated, denied]
  | consentValidated => [deliberated, denied]
  | deliberated => [verified, denied, escalated]
  | verified => [governed, denied, escalated]
  | governed => [approved, denied, escalated]
  | approved => [executed, denied]
  | executed => [recorded, escalated]
  | recorded => [closed, escalated]
  | closed => []
  | denied => [remediated]
  | escalated => [deliberated, denied, remediated]
  | remediated => [submitted]

/-- Whether moving to `target` is allowed. -/
def canTransitionTo (state target : BctsState) : Bool := state.validTransitions.contains target

/-- The name of a state in texts. -/
def display : BctsState → String
  | draft => "Draft"
  | submitted => "Submitted"
  | identityResolved => "IdentityResolved"
  | consentValidated => "ConsentValidated"
  | deliberated => "Deliberated"
  | verified => "Verified"
  | governed => "Governed"
  | approved => "Approved"
  | executed => "Executed"
  | recorded => "Recorded"
  | closed => "Closed"
  | denied => "Denied"
  | escalated => "Escalated"
  | remediated => "Remediated"

end BctsState

/-! ### Transactions -/

/-- A correlation identifier, the sixteen bytes of a UUID. -/
structure CorrelationId where
  uuid : FixedBytes 16
  deriving DecidableEq

/-- Record of a single state transition. -/
structure BctsTransition where
  fromState : BctsState
  toState : BctsState
  timestamp : Timestamp
  receiptHash : Hash256
  actorDid : Did
  deriving DecidableEq

/-- The structure a receipt is the hash of. -/
structure ReceiptInput where
  source : BctsState
  target : BctsState
  timestamp : Timestamp
  actor : String
  prevHash : Hash256
  deriving DecidableEq

/-- A transaction with its chain of receipts. -/
structure Transaction where
  correlationId : CorrelationId
  currentState : BctsState
  receiptChain : List Hash256
  transitions : List BctsTransition
  deriving DecidableEq

/-- One call of `transition`: the arguments, the clock as it is then, and the wall clock's answer. -/
structure Attempt where
  target : BctsState
  actor : Did
  clock : HybridClock
  wall : UInt64

namespace Transaction

/-- A new transaction in the draft state. -/
def new (correlationId : CorrelationId) : Transaction := ⟨correlationId, .draft, [], []⟩

section Receipts

variable (cbor : Cbor ReceiptInput) (blake3 : Blake3)

/-- A receipt hash that chains to the previous receipt. -/
def computeReceipt (transaction : Transaction) (source target : BctsState) (timestamp : Timestamp)
    (actor : Did) : Except ExoError Hash256 :=
  let prev := transaction.receiptChain.getLast?.getD .zero
  hashStructured cbor blake3 ⟨source, target, timestamp, actor.value, prev⟩

/-- The loop of `verifyReceiptChain`, from the transition at `index` on. -/
def verifyFrom (receiptChain : List Hash256) :
    Hash256 → ℕ → List BctsTransition → Except ExoError Unit
  | _, _, [] => .ok ()
  | prev, index, transition :: rest => do
    let computed ← hashStructured cbor blake3 ⟨transition.fromState, transition.toState,
      transition.timestamp, transition.actorDid.value, prev⟩
    if computed ≠ transition.receiptHash then throw (.receiptChainBroken index)
    if receiptChain[index]?.any (· ≠ computed) then throw (.receiptChainBroken index)
    verifyFrom receiptChain computed (index + 1) rest

/-- Recompute every receipt and compare it with the stored ones. -/
def verifyReceiptChain (transaction : Transaction) : Except ExoError Unit :=
  verifyFrom cbor blake3 transaction.receiptChain .zero 0 transaction.transitions

/-- Attempt a state transition. The answer comes with the transaction and the clock after the
call. -/
def transition (transaction : Transaction) (attempt : Attempt) :
    Except ExoError BctsTransition × Transaction × HybridClock :=
  let source := transaction.currentState
  if !source.canTransitionTo attempt.target then
    (.error (.invalidTransition source.display attempt.target.display), transaction, attempt.clock)
  else
    let (timestamp, clock) := attempt.clock.now attempt.wall
    match transaction.computeReceipt cbor blake3 source attempt.target timestamp attempt.actor with
    | .error error => (.error error, transaction, clock)
    | .ok receiptHash =>
      let transition : BctsTransition :=
        ⟨source, attempt.target, timestamp, receiptHash, attempt.actor⟩
      (.ok transition,
        { transaction with
          currentState := attempt.target
          receiptChain := transaction.receiptChain ++ [receiptHash]
          transitions := transaction.transitions ++ [transition] },
        clock)

/-- The transaction after an attempt, whatever the answer was. -/
def attempted (transaction : Transaction) (attempt : Attempt) : Transaction :=
  (transaction.transition cbor blake3 attempt).2.1

/-! ### What one attempt can do -/

variable {cbor blake3} {transaction : Transaction} {attempt : Attempt}

/-- The attempt recorded `transition`: the edge is allowed and the receipt chains to the last
one. -/
structure Recorded (cbor : Cbor ReceiptInput) (blake3 : Blake3) (transaction : Transaction)
    (attempt : Attempt) (transition : BctsTransition) : Prop where
  source : transition.fromState = transaction.currentState
  target : transition.toState = attempt.target
  allowed : transaction.currentState.canTransitionTo attempt.target = true
  receipt : transaction.computeReceipt cbor blake3 transition.fromState transition.toState
    transition.timestamp transition.actorDid = .ok transition.receiptHash

/-- The transaction with one more transition. -/
def record (transaction : Transaction) (transition : BctsTransition) : Transaction :=
  { transaction with
    currentState := transition.toState
    receiptChain := transaction.receiptChain ++ [transition.receiptHash]
    transitions := transaction.transitions ++ [transition] }

/-- The attempt is refused: the edge is not allowed, or the receipt cannot be computed. -/
def Refused (cbor : Cbor ReceiptInput) (blake3 : Blake3) (transaction : Transaction)
    (attempt : Attempt) : Prop :=
  transaction.currentState.canTransitionTo attempt.target = false ∨
    ∃ error, transaction.computeReceipt cbor blake3 transaction.currentState attempt.target
      (attempt.clock.now attempt.wall).1 attempt.actor = .error error

/-- **What an attempt can do**: answer an error and change nothing, or record one transition. -/
theorem transition_cases (cbor : Cbor ReceiptInput) (blake3 : Blake3) (transaction : Transaction)
    (attempt : Attempt) :
    (∃ error, (transaction.transition cbor blake3 attempt).1 = .error error ∧
      transaction.attempted cbor blake3 attempt = transaction ∧
      Refused cbor blake3 transaction attempt) ∨
    ∃ transition, (transaction.transition cbor blake3 attempt).1 = .ok transition ∧
      transaction.attempted cbor blake3 attempt = transaction.record transition ∧
      Recorded cbor blake3 transaction attempt transition := by
  unfold attempted
  by_cases allowed : transaction.currentState.canTransitionTo attempt.target = true
  · cases receipt : transaction.computeReceipt cbor blake3 transaction.currentState attempt.target
        (attempt.clock.now attempt.wall).1 attempt.actor with
    | error error =>
      have answer : transaction.transition cbor blake3 attempt =
          (.error error, transaction, (attempt.clock.now attempt.wall).2) := by
        simp [Transaction.transition, allowed, receipt]
      rw [answer]
      exact .inl ⟨error, rfl, rfl, .inr ⟨error, receipt⟩⟩
    | ok receiptHash =>
      let transition : BctsTransition := ⟨transaction.currentState, attempt.target,
        (attempt.clock.now attempt.wall).1, receiptHash, attempt.actor⟩
      have answer : transaction.transition cbor blake3 attempt =
          (.ok transition, transaction.record transition, (attempt.clock.now attempt.wall).2) := by
        simp [Transaction.transition, allowed, receipt, record, transition]
      rw [answer]
      exact .inr ⟨transition, rfl, rfl, rfl, rfl, allowed, receipt⟩
  · have answer : transaction.transition cbor blake3 attempt =
        (.error (.invalidTransition transaction.currentState.display attempt.target.display),
          transaction, attempt.clock) := by
      simp [Transaction.transition, allowed]
    rw [answer]
    exact .inl ⟨_, rfl, rfl, .inl (Bool.eq_false_of_not_eq_true allowed)⟩

/-! ### The receipt chain -/

/-- The receipt of a transition is the hash of its fields and of the previous receipt. -/
def ReceiptLink (cbor : Cbor ReceiptInput) (blake3 : Blake3) (prev : Hash256)
    (transition : BctsTransition) : Prop :=
  hashStructured cbor blake3 ⟨transition.fromState, transition.toState, transition.timestamp,
    transition.actorDid.value, prev⟩ = .ok transition.receiptHash

/-- **The verifier's loop accepts threaded receipts** that agree with the stored chain. -/
theorem verifyFrom_eq_ok {receiptChain : List Hash256} {transitions : List BctsTransition}
    {prev : Hash256} {index : ℕ}
    (threaded : Threaded (ReceiptLink cbor blake3) BctsTransition.receiptHash prev transitions)
    (stored : receiptChain.drop index = transitions.map BctsTransition.receiptHash) :
    verifyFrom cbor blake3 receiptChain prev index transitions = .ok () := by
  induction transitions generalizing prev index with
  | nil => rfl
  | cons transition rest ih =>
    obtain ⟨receipt, threaded⟩ := threaded
    have here : receiptChain[index]? = some transition.receiptHash := by
      rw [← List.head?_drop, stored, List.map_cons, List.head?_cons]
    have after : receiptChain.drop (index + 1) = rest.map BctsTransition.receiptHash := by
      rw [← List.tail_drop, stored, List.map_cons, List.tail_cons]
    unfold ReceiptLink at receipt
    rw [verifyFrom, receipt]
    simpa [here, bind, Except.bind] using ih threaded after

/-! ### The invariant -/

/-- The edge of a transition starts in `state` and is allowed. -/
def Edge (state : BctsState) (transition : BctsTransition) : Prop :=
  transition.fromState = state ∧ state.canTransitionTo transition.toState = true

/-- **The invariant of a transaction.** -/
structure Coherent (cbor : Cbor ReceiptInput) (blake3 : Blake3) (transaction : Transaction) :
    Prop where
  /-- One receipt for each transition, the one it carries. -/
  receipts : transaction.receiptChain = transaction.transitions.map BctsTransition.receiptHash
  /-- The transitions are a path of allowed edges from the draft state. -/
  path : Threaded Edge BctsTransition.toState .draft transaction.transitions
  /-- The path ends in the current state. -/
  ends : handedOn BctsTransition.toState .draft transaction.transitions = transaction.currentState
  /-- Each receipt chains to the one before. -/
  chained : Threaded (ReceiptLink cbor blake3) BctsTransition.receiptHash .zero
    transaction.transitions

theorem coherent_new (correlationId : CorrelationId) :
    (new correlationId).Coherent cbor blake3 :=
  ⟨rfl, trivial, rfl, trivial⟩

/-- The last receipt is what the transitions hand on. -/
theorem Coherent.last_receipt (coherent : transaction.Coherent cbor blake3) :
    transaction.receiptChain.getLast?.getD .zero =
      handedOn BctsTransition.receiptHash .zero transaction.transitions := by
  rw [coherent.receipts, List.getLast?_map, handedOn]

theorem coherent_record {transition : BctsTransition} (coherent : transaction.Coherent cbor blake3)
    (recorded : Recorded cbor blake3 transaction attempt transition) :
    (transaction.record transition).Coherent cbor blake3 := by
  refine ⟨?_, ?_, ?_, ?_⟩
  · show transaction.receiptChain ++ [_] = (transaction.transitions ++ [_]).map _
    rw [coherent.receipts, List.map_append, List.map_singleton]
  · refine threaded_concat_iff.mpr ⟨coherent.path, ?_⟩
    rw [coherent.ends]
    exact ⟨recorded.source, recorded.target ▸ recorded.allowed⟩
  · exact handedOn_concat _ _ _
  · refine threaded_concat_iff.mpr ⟨coherent.chained, ?_⟩
    rw [← coherent.last_receipt]
    exact recorded.receipt

theorem coherent_attempted (cbor : Cbor ReceiptInput) (blake3 : Blake3)
    (transaction : Transaction) (attempt : Attempt) (coherent : transaction.Coherent cbor blake3) :
    (transaction.attempted cbor blake3 attempt).Coherent cbor blake3 := by
  rcases transition_cases cbor blake3 transaction attempt with
    ⟨_, _, same, _⟩ | ⟨transition, _, after, recorded⟩
  · rw [same]
    exact coherent
  · rw [after]
    exact coherent_record coherent recorded

theorem Coherent.verifies (coherent : transaction.Coherent cbor blake3) :
    transaction.verifyReceiptChain cbor blake3 = .ok () :=
  verifyFrom_eq_ok coherent.chained coherent.receipts

/-- What every transaction satisfies: as many receipts as transitions, each the one the transition
carries; a path of allowed edges from the draft state to the current one; a chain that verifies. -/
structure Attested (cbor : Cbor ReceiptInput) (blake3 : Blake3) (transaction : Transaction) :
    Prop where
  receipts : transaction.receiptChain = transaction.transitions.map BctsTransition.receiptHash
  path : Threaded Edge BctsTransition.toState .draft transaction.transitions
  ends : handedOn BctsTransition.toState .draft transaction.transitions = transaction.currentState
  verifies : transaction.verifyReceiptChain cbor blake3 = .ok ()

/-- An attempt that answers an error leaves the transaction unchanged. -/
def ErrorKeeps (cbor : Cbor ReceiptInput) (blake3 : Blake3) (transaction : Transaction)
    (attempt : Attempt) : Prop :=
  ∀ error, (transaction.transition cbor blake3 attempt).1 = .error error →
    transaction.attempted cbor blake3 attempt = transaction

theorem errorKeeps (transaction : Transaction) (attempt : Attempt) :
    transaction.ErrorKeeps cbor blake3 attempt := by
  intro error answer
  rcases transition_cases cbor blake3 transaction attempt with
    ⟨_, _, same, _⟩ | ⟨transition, done, _, _⟩
  · exact same
  · rw [answer] at done
    cases done

/-- **Every sequence of attempts keeps the receipt chain and the path**, whatever the targets, the
actors and the clocks, and an attempt that fails changes nothing. -/
theorem attempts_attested (cbor : Cbor ReceiptInput) (blake3 : Blake3)
    (correlationId : CorrelationId) (attempts : List Attempt) :
    Throughout (attempted cbor blake3) (Attested cbor blake3) (new correlationId) attempts ∧
      Along (attempted cbor blake3) (ErrorKeeps cbor blake3) (new correlationId) attempts := by
  have coherent := throughout_of_preserved (coherent_attempted cbor blake3)
    (coherent_new correlationId) attempts
  refine ⟨fun before after split => ?_, along_of_forall errorKeeps _ attempts⟩
  have here := coherent before after split
  exact ⟨here.receipts, here.path, here.ends, here.verifies⟩

end Receipts

end Transaction

end Exochain.ExoCore
