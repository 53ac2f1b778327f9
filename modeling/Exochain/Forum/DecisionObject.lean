/-
**`decision-forum` — the decision object.**

A decision goes through the states of a BCTS transaction, with a receipt for every transition, and
collects votes, evidence and authority links on the way. A closed decision refuses every call.

The transaction that a decision stands for is a function of it (`toTransaction`). A transition of the
decision is one of that transaction, and the other calls leave it alone.

* `transition_cases`, `call_cases` — what a call can do.
* `transition_simulates` — an attempt on both: one answer, and the two still correspond.
* **`decision_refines_transaction`** — the same over whole runs, with the votes by distinct voters,
  errors that change nothing and closed decisions that refuse every call.
-/

import Exochain.Foundation.Collections
import Exochain.Core.Bcts

set_option linter.unusedSectionVars false

namespace Exochain.DecisionForum

open Foundation ExoCore

/-! ### Errors -/

/-- The errors of the decision forum. -/
inductive ForumError where
  | authorityInvalid (reason : String)
  | delegationExpired
  | delegationScopeExceeded (reason : String)
  | subDelegationNotPermitted
  | notRatified (reason : String)
  | amendmentFailed (reason : String)
  | constitutionalConflict (reason : String)
  | quorumNotMet (required actual : ℕ)
  | quorumPolicyMissing
  | decisionNotFound (id : String)
  | enactmentFailed (reason : String)
  | decisionImmutable
  | invalidTransition (source target : String)
  | humanGateRequired
  | aiCeilingExceeded (reason : String)
  | tncViolation (tncId : UInt32) (reason : String)
  | challengeError (reason : String)
  | executionPaused
  | emergencyInvalid (reason : String)
  | emergencyCapExceeded (reason : String)
  | accountabilityFailed (reason : String)
  | termsNotAccepted (who : String)
  | core (reason : String)
  | governance (reason : String)
  deriving DecidableEq, Repr

/-- An error of the core as one of the forum. -/
def ForumError.ofCore (error : ExoError) : ForumError := .core error.display

/-! ### The object -/

/-- The class of a decision. -/
inductive DecisionClass where
  | routine
  | operational
  | strategic
  | constitutional
  deriving DecidableEq, Repr

namespace DecisionClass

/-- The name of a class in texts. -/
def debug : DecisionClass → String
  | routine => "Routine"
  | operational => "Operational"
  | strategic => "Strategic"
  | constitutional => "Constitutional"

/-- The place of a class in the order of the classes. -/
def rank : DecisionClass → ℕ
  | routine => 0
  | operational => 1
  | strategic => 2
  | constitutional => 3

end DecisionClass

/-- Human and agent actors. -/
inductive ActorKind where
  | human
  | aiAgent (delegationId : String) (ceilingClass : DecisionClass)
  deriving DecidableEq, Repr

/-- What a vote says. -/
inductive VoteChoice where
  | approve
  | reject
  | abstain
  deriving DecidableEq, Repr

/-- A single vote. -/
structure Vote where
  voterDid : Did
  choice : VoteChoice
  actorKind : ActorKind
  timestamp : Timestamp
  signatureHash : Hash256
  deriving DecidableEq

/-- A link of the authority chain. -/
structure AuthorityLink where
  actorDid : Did
  actorKind : ActorKind
  delegationHash : Hash256
  timestamp : Timestamp
  deriving DecidableEq

/-- A piece of evidence. -/
structure EvidenceItem where
  hash : Hash256
  description : String
  attachedAt : Timestamp
  deriving DecidableEq

/-- A receipt of a transition. -/
structure LifecycleReceipt where
  fromState : BctsState
  toState : BctsState
  actorDid : Did
  timestamp : Timestamp
  receiptHash : Hash256
  deriving DecidableEq

/-- The decision object. -/
structure DecisionObject where
  id : FixedBytes 16
  title : String
  decisionClass : DecisionClass
  constitutionalHash : Hash256
  state : BctsState
  authorityChain : List AuthorityLink
  votes : List Vote
  evidenceBundle : List EvidenceItem
  receiptChain : List LifecycleReceipt
  createdAt : Timestamp
  metadata : BTreeMap String String

namespace DecisionObject

/-- A new decision in the draft state, with the identifier and the clock reading it is given. -/
def new (id : FixedBytes 16) (title : String) (decisionClass : DecisionClass)
    (constitutionalHash : Hash256) (now : Timestamp) : DecisionObject where
  id := id
  title := title
  decisionClass := decisionClass
  constitutionalHash := constitutionalHash
  state := .draft
  authorityChain := []
  votes := []
  evidenceBundle := []
  receiptChain := []
  createdAt := now
  metadata := ∅

/-- Whether the decision is closed. -/
def isTerminal (decision : DecisionObject) : Bool := decision.state = .closed

section Calls

variable (cbor : Cbor ReceiptInput) (blake3 : Blake3)

/-- A receipt hash that chains to the previous receipt. -/
def computeReceiptHash (decision : DecisionObject) (source target : BctsState)
    (timestamp : Timestamp) (actor : Did) : Except ForumError Hash256 :=
  let prev := (decision.receiptChain.getLast?.map LifecycleReceipt.receiptHash).getD .zero
  (hashStructured cbor blake3 ⟨source, target, timestamp, actor.value, prev⟩).mapError .ofCore

/-- Move to another state and record a receipt. The answer comes with the decision and the clock after
the call. -/
def transition (decision : DecisionObject) (attempt : Attempt) :
    Except ForumError Unit × DecisionObject × HybridClock :=
  if decision.isTerminal then (.error .decisionImmutable, decision, attempt.clock)
  else if !decision.state.canTransitionTo attempt.target then
    (.error (.invalidTransition decision.state.display attempt.target.display), decision,
      attempt.clock)
  else
    let (timestamp, clock) := attempt.clock.now attempt.wall
    match decision.computeReceiptHash cbor blake3 decision.state attempt.target timestamp
        attempt.actor with
    | .error error => (.error error, decision, clock)
    | .ok receiptHash =>
      let receipt : LifecycleReceipt :=
        ⟨decision.state, attempt.target, attempt.actor, timestamp, receiptHash⟩
      (.ok (),
        { decision with
          receiptChain := decision.receiptChain ++ [receipt]
          state := attempt.target },
        clock)

/-- Add a vote; a second one of a voter is refused. -/
def addVote (decision : DecisionObject) (vote : Vote) : Except ForumError DecisionObject :=
  if decision.isTerminal then .error .decisionImmutable
  else if decision.votes.any fun cast => cast.voterDid = vote.voterDid then
    .error (.enactmentFailed ("duplicate vote from " ++ vote.voterDid.value))
  else .ok { decision with votes := decision.votes ++ [vote] }

/-- Add a piece of evidence. -/
def addEvidence (decision : DecisionObject) (item : EvidenceItem) :
    Except ForumError DecisionObject :=
  if decision.isTerminal then .error .decisionImmutable
  else .ok { decision with evidenceBundle := decision.evidenceBundle ++ [item] }

/-- Add a link to the authority chain. -/
def addAuthorityLink (decision : DecisionObject) (link : AuthorityLink) :
    Except ForumError DecisionObject :=
  if decision.isTerminal then .error .decisionImmutable
  else .ok { decision with authorityChain := decision.authorityChain ++ [link] }

/-- A call that may change a decision. -/
inductive Call where
  | transition (attempt : Attempt)
  | addVote (vote : Vote)
  | addEvidence (item : EvidenceItem)
  | addAuthorityLink (link : AuthorityLink)

/-- The answer of a call that returns the changed decision, and the decision after it. -/
def answered (decision : DecisionObject) (changed : Except ForumError DecisionObject) :
    Except ForumError Unit × DecisionObject :=
  match changed with
  | .ok after => (.ok (), after)
  | .error error => (.error error, decision)

/-- The answer of a call and the decision after it. -/
def call (decision : DecisionObject) : Call → Except ForumError Unit × DecisionObject
  | .transition attempt =>
    ((decision.transition cbor blake3 attempt).1, (decision.transition cbor blake3 attempt).2.1)
  | .addVote vote => decision.answered (decision.addVote vote)
  | .addEvidence item => decision.answered (decision.addEvidence item)
  | .addAuthorityLink link => decision.answered (decision.addAuthorityLink link)

end Calls

/-! ### What a call can do -/

section Cases

variable {cbor : Cbor ReceiptInput} {blake3 : Blake3} {decision : DecisionObject}

/-- The decision with one more receipt. -/
def record (decision : DecisionObject) (receipt : LifecycleReceipt) : DecisionObject :=
  { decision with
    receiptChain := decision.receiptChain ++ [receipt]
    state := receipt.toState }

/-- **What an attempt can do**: answer an error and change nothing, or record one receipt. -/
theorem transition_cases (cbor : Cbor ReceiptInput) (blake3 : Blake3) (decision : DecisionObject)
    (attempt : Attempt) :
    (∃ error, (decision.transition cbor blake3 attempt).1 = .error error ∧
      (decision.transition cbor blake3 attempt).2.1 = decision ∧
      (decision.isTerminal = true ∨ decision.state.canTransitionTo attempt.target = false ∨
        decision.computeReceiptHash cbor blake3 decision.state attempt.target
          (attempt.clock.now attempt.wall).1 attempt.actor = .error error)) ∨
    ∃ receiptHash, (decision.transition cbor blake3 attempt).1 = .ok () ∧
      (decision.transition cbor blake3 attempt).2.1 =
        decision.record ⟨decision.state, attempt.target, attempt.actor,
          (attempt.clock.now attempt.wall).1, receiptHash⟩ ∧
      decision.isTerminal = false ∧ decision.state.canTransitionTo attempt.target = true ∧
      decision.computeReceiptHash cbor blake3 decision.state attempt.target
        (attempt.clock.now attempt.wall).1 attempt.actor = .ok receiptHash := by
  unfold transition
  cases terminal : decision.isTerminal with
  | true => exact .inl ⟨.decisionImmutable, rfl, rfl, .inl rfl⟩
  | false =>
    cases allowed : decision.state.canTransitionTo attempt.target with
    | false => exact .inl ⟨_, rfl, rfl, .inr (.inl rfl)⟩
    | true =>
      cases receipt : decision.computeReceiptHash cbor blake3 decision.state attempt.target
          (attempt.clock.now attempt.wall).1 attempt.actor with
      | error error => simp [receipt]
      | ok receiptHash => simp [receipt, record]

/-- The voters, one entry for each vote. -/
def voters (decision : DecisionObject) : List Did := decision.votes.map Vote.voterDid

/-- What a vote does. -/
theorem addVote_eq_ok_iff {after : DecisionObject} {vote : Vote} :
    decision.addVote vote = .ok after ↔
      decision.isTerminal = false ∧ vote.voterDid ∉ decision.voters ∧
        after = { decision with votes := decision.votes ++ [vote] } := by
  have again : (decision.votes.any fun cast => cast.voterDid = vote.voterDid) = true ↔
      vote.voterDid ∈ decision.voters := by
    simp [voters]
  unfold addVote
  split
  · rename_i terminal
    exact iff_of_false (by simp) fun accepted => by simp [terminal] at accepted
  · rename_i running
    split
    · rename_i cast
      exact iff_of_false (by simp) fun accepted => accepted.2.1 (again.mp cast)
    · rename_i fresh
      rw [Except.ok.injEq, eq_comm, and_iff_right (Bool.eq_false_of_not_eq_true running),
        and_iff_right (mt again.mpr fresh)]

/-- **What a call can do**: answer an error and change nothing, or, on a decision that is not closed,
make its one change. -/
inductive Outcome (decision : DecisionObject) :
    Call → Except ForumError Unit × DecisionObject → Prop
  | refused {called : Call} {error : ForumError} : decision.Outcome called (.error error, decision)
  | moved {attempt : Attempt} {receipt : LifecycleReceipt} (running : decision.isTerminal = false) :
      decision.Outcome (.transition attempt) (.ok (), decision.record receipt)
  | voted {vote : Vote} (running : decision.isTerminal = false)
      (fresh : vote.voterDid ∉ decision.voters) :
      decision.Outcome (.addVote vote) (.ok (), { decision with votes := decision.votes ++ [vote] })
  | evidenced {item : EvidenceItem} (running : decision.isTerminal = false) :
      decision.Outcome (.addEvidence item)
        (.ok (), { decision with evidenceBundle := decision.evidenceBundle ++ [item] })
  | linked {link : AuthorityLink} (running : decision.isTerminal = false) :
      decision.Outcome (.addAuthorityLink link)
        (.ok (), { decision with authorityChain := decision.authorityChain ++ [link] })

theorem call_cases (cbor : Cbor ReceiptInput) (blake3 : Blake3) (decision : DecisionObject)
    (called : Call) : decision.Outcome called (decision.call cbor blake3 called) := by
  cases called with
  | transition attempt =>
    show decision.Outcome _ (_, _)
    rcases transition_cases cbor blake3 decision attempt with
      ⟨error, answer, same, -⟩ | ⟨receiptHash, answer, after, running, -⟩
    · rw [answer, same]
      exact .refused
    · rw [answer, after]
      exact .moved running
  | addVote vote =>
    show decision.Outcome _ (decision.answered (decision.addVote vote))
    cases added : decision.addVote vote with
    | error error => exact .refused
    | ok after =>
      obtain ⟨running, fresh, rfl⟩ := addVote_eq_ok_iff.mp added
      exact .voted running fresh
  | addEvidence item =>
    show decision.Outcome _ (decision.answered (decision.addEvidence item))
    unfold addEvidence
    split
    · exact .refused
    · rename_i running
      exact .evidenced (Bool.eq_false_of_not_eq_true running)
  | addAuthorityLink link =>
    show decision.Outcome _ (decision.answered (decision.addAuthorityLink link))
    unfold addAuthorityLink
    split
    · exact .refused
    · rename_i running
      exact .linked (Bool.eq_false_of_not_eq_true running)

namespace Outcome

variable {called : Call} {result : Except ForumError Unit × DecisionObject}

/-- A call that answers an error leaves the decision as it was. -/
theorem unchanged (outcome : decision.Outcome called result) {error : ForumError}
    (failed : result.1 = .error error) : result.2 = decision := by
  cases outcome with
  | refused => rfl
  | moved running => cases failed
  | voted running fresh => cases failed
  | evidenced running => cases failed
  | linked running => cases failed

/-- A closed decision refuses every call. -/
theorem refuses (outcome : decision.Outcome called result) (closed : decision.state = .closed) :
    ∃ error, result.1 = .error error := by
  have terminal : ¬ decision.isTerminal = false := by
    rw [Bool.not_eq_false]
    exact decide_eq_true closed
  cases outcome with
  | refused => exact ⟨_, rfl⟩
  | moved running => exact absurd running terminal
  | voted running fresh => exact absurd running terminal
  | evidenced running => exact absurd running terminal
  | linked running => exact absurd running terminal

/-- The voters stay distinct. -/
theorem nodup_voters (outcome : decision.Outcome called result) (distinct : decision.voters.Nodup) :
    result.2.voters.Nodup := by
  cases outcome with
  | refused => exact distinct
  | moved running => exact distinct
  | voted running fresh =>
    rw [voters, List.map_append, List.map_singleton]
    exact List.Nodup.append distinct (List.nodup_singleton _) (List.disjoint_singleton.mpr fresh)
  | evidenced running => exact distinct
  | linked running => exact distinct

end Outcome

end Cases

/-! ### The transaction of a decision -/

/-- A receipt as a transition of a transaction. -/
def transitionOf (receipt : LifecycleReceipt) : BctsTransition :=
  ⟨receipt.fromState, receipt.toState, receipt.timestamp, receipt.receiptHash, receipt.actorDid⟩

/-- **The transaction that a decision stands for.** -/
def toTransaction (correlationId : CorrelationId) (decision : DecisionObject) : Transaction where
  correlationId := correlationId
  currentState := decision.state
  receiptChain := decision.receiptChain.map LifecycleReceipt.receiptHash
  transitions := decision.receiptChain.map transitionOf

section Simulation

variable {cbor : Cbor ReceiptInput} {blake3 : Blake3} {correlationId : CorrelationId}
  {decision : DecisionObject}

/-- Both compute the same receipt. -/
theorem computeReceiptHash_eq (source target : BctsState) (timestamp : Timestamp) (actor : Did) :
    decision.computeReceiptHash cbor blake3 source target timestamp actor =
      ((decision.toTransaction correlationId).computeReceipt cbor blake3 source target timestamp
        actor).mapError .ofCore := by
  unfold computeReceiptHash Transaction.computeReceipt toTransaction
  rw [List.getLast?_map]

theorem toTransaction_record (receipt : LifecycleReceipt) :
    (decision.record receipt).toTransaction correlationId =
      (decision.toTransaction correlationId).record (transitionOf receipt) := by
  unfold toTransaction record Transaction.record
  rw [List.map_append, List.map_append]
  rfl

/-- The calls that are not transitions leave the transaction alone. -/
theorem Outcome.toTransaction_eq {called : Call} {result : Except ForumError Unit × DecisionObject}
    (outcome : decision.Outcome called result) (other : ∀ attempt, called ≠ .transition attempt) :
    result.2.toTransaction correlationId = decision.toTransaction correlationId := by
  cases outcome with
  | refused => rfl
  | moved running => exact absurd rfl (other _)
  | voted running fresh => rfl
  | evidenced running => rfl
  | linked running => rfl

/-- **An attempt on both**: with one timestamp, the decision and its transaction give one answer, and
the decision after the attempt stands for the transaction after it. -/
theorem transition_simulates {attempt attempt' : Attempt} (targets : attempt.target = attempt'.target)
    (actors : attempt.actor = attempt'.actor)
    (times : (attempt.clock.now attempt.wall).1 = (attempt'.clock.now attempt'.wall).1) :
    (decision.transition cbor blake3 attempt).1.isOk =
        ((decision.toTransaction correlationId).transition cbor blake3 attempt').1.isOk ∧
      (decision.transition cbor blake3 attempt).2.1.toTransaction correlationId =
        (decision.toTransaction correlationId).attempted cbor blake3 attempt' := by
  have receipts := @computeReceiptHash_eq cbor blake3 correlationId decision decision.state
    attempt.target (attempt.clock.now attempt.wall).1 attempt.actor
  have states : (decision.toTransaction correlationId).currentState = decision.state := rfl
  unfold Transaction.attempted Transaction.transition
  rw [states, ← targets, ← actors]
  simp only [← times]
  rcases transition_cases cbor blake3 decision attempt with
    ⟨error, answer, same, refused⟩ | ⟨receiptHash, answer, after, -, allowed, receipt⟩
  · rw [answer, same]
    cases allowed : decision.state.canTransitionTo attempt.target with
    | false => exact ⟨rfl, rfl⟩
    | true =>
      -- the edge is there, so the decision is not closed and the receipt could not be computed
      cases computed : (decision.toTransaction correlationId).computeReceipt cbor blake3
          decision.state attempt.target (attempt.clock.now attempt.wall).1 attempt.actor with
      | error error => exact ⟨rfl, rfl⟩
      | ok receiptHash =>
        rcases refused with terminal | forbidden | failed
        · rw [of_decide_eq_true terminal] at allowed
          cases allowed
        · rw [allowed] at forbidden
          cases forbidden
        · rw [receipts, computed] at failed
          cases failed
  · rw [answer, after, toTransaction_record, allowed]
    cases computed : (decision.toTransaction correlationId).computeReceipt cbor blake3
        decision.state attempt.target (attempt.clock.now attempt.wall).1 attempt.actor with
    | error error =>
      rw [receipts, computed] at receipt
      cases receipt
    | ok computedHash =>
      rw [receipts, computed] at receipt
      cases receipt
      exact ⟨rfl, rfl⟩

end Simulation

end DecisionObject

/-! ### Runs of both -/

/-- An attempt made on a decision and on a transaction, with clocks that return one timestamp. -/
structure TwinAttempt where
  target : BctsState
  actor : Did
  decisionClock : HybridClock
  decisionWall : UInt64
  transactionClock : HybridClock
  transactionWall : UInt64
  one_time : (decisionClock.now decisionWall).1 = (transactionClock.now transactionWall).1

namespace TwinAttempt

/-- The attempt on the decision. -/
def onDecision (attempt : TwinAttempt) : Attempt :=
  ⟨attempt.target, attempt.actor, attempt.decisionClock, attempt.decisionWall⟩

/-- The attempt on the transaction. -/
def onTransaction (attempt : TwinAttempt) : Attempt :=
  ⟨attempt.target, attempt.actor, attempt.transactionClock, attempt.transactionWall⟩

end TwinAttempt

/-- A call of a run on both: an attempt on both, or a call on the decision alone. -/
inductive TwinCall where
  | transition (attempt : TwinAttempt)
  | addVote (vote : Vote)
  | addEvidence (item : EvidenceItem)
  | addAuthorityLink (link : AuthorityLink)

/-- What the call is on the decision. -/
def TwinCall.onDecision : TwinCall → DecisionObject.Call
  | .transition attempt => .transition attempt.onDecision
  | .addVote vote => .addVote vote
  | .addEvidence item => .addEvidence item
  | .addAuthorityLink link => .addAuthorityLink link

/-- A twin attempt on a decision and its transaction. -/
theorem TwinAttempt.simulates {cbor : Cbor ReceiptInput} {blake3 : Blake3}
    (attempt : TwinAttempt) (correlationId : CorrelationId) (decision : DecisionObject) :
    (decision.transition cbor blake3 attempt.onDecision).1.isOk =
        ((decision.toTransaction correlationId).transition cbor blake3
          attempt.onTransaction).1.isOk ∧
      (decision.transition cbor blake3 attempt.onDecision).2.1.toTransaction correlationId =
        (decision.toTransaction correlationId).attempted cbor blake3 attempt.onTransaction := by
  have targets : attempt.onDecision.target = attempt.onTransaction.target := rfl
  have actors : attempt.onDecision.actor = attempt.onTransaction.actor := rfl
  exact DecisionObject.transition_simulates targets actors attempt.one_time

section Twins

variable (cbor : Cbor ReceiptInput) (blake3 : Blake3)

/-- The transaction after a call. -/
def TwinCall.onTransaction (transaction : Transaction) : TwinCall → Transaction
  | .transition attempt => transaction.attempted cbor blake3 attempt.onTransaction
  | _ => transaction

/-- The two after a call. -/
def twinStep (twins : DecisionObject × Transaction) (called : TwinCall) :
    DecisionObject × Transaction :=
  ((twins.1.call cbor blake3 called.onDecision).2, called.onTransaction cbor blake3 twins.2)

/-- Both accept the attempt, or both reject it. -/
def SameAnswer (twins : DecisionObject × Transaction) (called : TwinCall) : Prop :=
  ∀ attempt, called = .transition attempt →
    (twins.1.transition cbor blake3 attempt.onDecision).1.isOk =
      (twins.2.transition cbor blake3 attempt.onTransaction).1.isOk

/-- The two are in one state and have recorded the same receipt hashes. -/
def InStep (twins : DecisionObject × Transaction) : Prop :=
  twins.1.state = twins.2.currentState ∧
    twins.1.receiptChain.map LifecycleReceipt.receiptHash = twins.2.receiptChain

/-- **What is claimed of a run on both.** -/
structure Lockstep (start : DecisionObject × Transaction) (calls : List TwinCall) : Prop where
  answers : Along (twinStep cbor blake3) (SameAnswer cbor blake3) start calls
  inStep : Throughout (twinStep cbor blake3) InStep start calls
  distinct : Throughout (twinStep cbor blake3) (fun twins => twins.1.voters.Nodup) start calls
  errorKeeps : Along (twinStep cbor blake3) (fun twins called =>
    ∀ error, (twins.1.call cbor blake3 called.onDecision).1 = .error error →
      (twinStep cbor blake3 twins called).1 = twins.1) start calls
  closedRefuses : Along (twinStep cbor blake3) (fun twins called =>
    twins.1.state = .closed → ∃ error, (twins.1.call cbor blake3 called.onDecision).1 = .error error)
    start calls

variable {cbor blake3}

/-- The transaction is the one the decision stands for. -/
def Corresponds (correlationId : CorrelationId) (twins : DecisionObject × Transaction) : Prop :=
  twins.1.toTransaction correlationId = twins.2

/-- **One call keeps the correspondence.** -/
theorem corresponds_twinStep {correlationId : CorrelationId} (twins : DecisionObject × Transaction)
    (called : TwinCall) (corresponds : Corresponds correlationId twins) :
    Corresponds correlationId (twinStep cbor blake3 twins called) := by
  obtain ⟨decision, transaction⟩ := twins
  obtain rfl : decision.toTransaction correlationId = transaction := corresponds
  cases called with
  | transition attempt =>
    exact (attempt.simulates correlationId decision).2
  | addVote vote =>
    exact (DecisionObject.call_cases cbor blake3 decision _).toTransaction_eq fun _ => nofun
  | addEvidence item =>
    exact (DecisionObject.call_cases cbor blake3 decision _).toTransaction_eq fun _ => nofun
  | addAuthorityLink link =>
    exact (DecisionObject.call_cases cbor blake3 decision _).toTransaction_eq fun _ => nofun

/-- **The decision object refines the transaction.** In every run of attempts on a new decision and a
new transaction whose clocks return the same timestamps, with any other calls on the decision in
between, both accept and reject the same attempts and stay in one state with the same receipt hashes;
the votes are by distinct voters, a call that answers an error changes nothing, and a closed decision
refuses every call. -/
theorem decision_refines_transaction (cbor : Cbor ReceiptInput) (blake3 : Blake3)
    (id : FixedBytes 16) (title : String) (decisionClass : DecisionClass)
    (constitutionalHash : Hash256) (now : Timestamp) (correlationId : CorrelationId)
    (calls : List TwinCall) :
    Lockstep cbor blake3
      (DecisionObject.new id title decisionClass constitutionalHash now,
        Transaction.new correlationId) calls := by
  have corresponds : Throughout (twinStep cbor blake3) (Corresponds correlationId)
      (DecisionObject.new id title decisionClass constitutionalHash now,
        Transaction.new correlationId) calls := by
    refine throughout_of_preserved corresponds_twinStep ?_ calls
    rfl
  refine ⟨?_, ?_, ?_, ?_, ?_⟩
  · rintro before _ after split attempt rfl
    have here := corresponds before _ split
    unfold Corresponds at here
    rw [← here]
    exact (attempt.simulates correlationId _).1
  · intro before after split
    have here := corresponds before after split
    unfold Corresponds at here
    rw [InStep, ← here]
    exact ⟨rfl, rfl⟩
  · refine throughout_of_preserved (fun twins called distinct => ?_) ?_ calls
    · exact (DecisionObject.call_cases cbor blake3 twins.1 called.onDecision).nodup_voters distinct
    · exact List.nodup_nil
  · refine along_of_forall (fun twins called error failed => ?_) _ calls
    exact (DecisionObject.call_cases cbor blake3 twins.1 called.onDecision).unchanged failed
  · refine along_of_forall (fun twins called closed => ?_) _ calls
    exact (DecisionObject.call_cases cbor blake3 twins.1 called.onDecision).refuses closed

end Twins

end Exochain.DecisionForum
