/-
**`exo-bcts` against `exo-core` — two state machines of one lifecycle.**

Both crates take a transaction through the same fourteen states. Each has its own table; `exo-bcts` also
guards its terminal states. The two are compared on a sequence of requests: what each one accepts, and
where it ends.

* `allows_iff_canTransitionTo` — the tables, compared: six moves are in one and not in the other
  (`differingMoves`).
* `accepts_bcts`, `accepts_core` — a request is accepted according to the table of the crate.
* **`lifecycles_agree_iff`** — the two crates answer a sequence alike exactly when it asks for none of the
  six moves, by induction on the sequence.
* `Sample.lifecycles_differ` — one sequence for each of the six.
-/

import Exochain.Foundation.Blake3
import Exochain.Core.Cbor
import Exochain.Bcts.Transaction

namespace Exochain.ExoBcts

open Foundation
open ExoCore (BctsState Cbor Did Blake3 Attempt ReceiptInput Transaction CorrelationId HybridClock)

/-! ### The tables -/

/-- The moves that one crate allows and the other does not: the first is allowed by `exo-bcts` only. -/
def differingMoves : List (BctsState × BctsState) :=
  [(.consentValidated, .escalated), (.verified, .escalated), (.executed, .escalated),
    (.recorded, .escalated), (.escalated, .remediated), (.denied, .remediated)]

/-- **The two tables agree on all other moves, and on none of these.** -/
theorem allows_iff_canTransitionTo (source target : BctsState) :
    (Allows source target ↔ source.canTransitionTo target = true) ↔
      (source, target) ∉ differingMoves := by
  cases source <;> cases target <;> decide

/-! ### Sequences of requests -/

/-- A request to both crates: the target, and what each of the two calls takes besides. -/
structure PairedRequest where
  target : BctsState
  moment : Moment
  actorDid : String
  evidence : Option String
  actor : Did
  clock : HybridClock
  wall : UInt64

section Comparison

variable (sha256 : List UInt8 → FixedBytes 32) (toRfc3339 : DateTime → String)
  (cbor : Cbor ReceiptInput) (blake3 : Blake3)

/-- One request to `exo-bcts`: whether it is accepted, and the transaction after it. -/
def stepBcts (tx : BctsTransaction) (request : PairedRequest) : Bool × BctsTransaction :=
  match transition sha256 toRfc3339 request.moment tx request.target request.actorDid
      request.evidence with
  | .ok after => (true, after)
  | .error _ => (false, tx)

/-- One request to `exo-core`. -/
def stepCore (transaction : Transaction) (request : PairedRequest) : Bool × Transaction :=
  let attempt : Attempt := ⟨request.target, request.actor, request.clock, request.wall⟩
  ((transaction.transition cbor blake3 attempt).1.isOk, transaction.attempted cbor blake3 attempt)

/-- The transaction of `exo-bcts` after a request. -/
def nextBcts (tx : BctsTransaction) (request : PairedRequest) : BctsTransaction :=
  (stepBcts sha256 toRfc3339 tx request).2

/-- The transaction of `exo-core` after a request. -/
def nextCore (transaction : Transaction) (request : PairedRequest) : Transaction :=
  (stepCore cbor blake3 transaction request).2

/-- The two crates accept the same requests and end in the same state. -/
def Agree (tx : BctsTransaction) (transaction : Transaction) (requests : List PairedRequest) : Prop :=
  (answers (stepBcts sha256 toRfc3339) tx requests).map Prod.snd =
      (answers (stepCore cbor blake3) transaction requests).map Prod.snd ∧
    (run (nextBcts sha256 toRfc3339) tx requests).state =
      (run (nextCore cbor blake3) transaction requests).currentState

/-- The request asks, at the state reached, for a move that both crates treat alike. -/
def SharedMove (tx : BctsTransaction) (request : PairedRequest) : Prop :=
  (tx.state, request.target) ∉ differingMoves

instance (tx : BctsTransaction) (request : PairedRequest) : Decidable (SharedMove tx request) :=
  inferInstanceAs (Decidable (_ ∉ _))

variable {sha256 toRfc3339 cbor blake3}

theorem accepts_bcts (tx : BctsTransaction) (request : PairedRequest) :
    (stepBcts sha256 toRfc3339 tx request).1 = decide (Allows tx.state request.target) ∧
      (nextBcts sha256 toRfc3339 tx request).state =
        if Allows tx.state request.target then request.target else tx.state := by
  unfold nextBcts stepBcts
  cases moved : transition sha256 toRfc3339 request.moment tx request.target request.actorDid
      request.evidence with
  | ok after =>
    obtain ⟨allowed, rfl⟩ := (transition_eq_ok_iff sha256 toRfc3339).mp moved
    rw [if_pos allowed]
    exact ⟨(decide_eq_true allowed).symm, rfl⟩
  | error error =>
    have refused : ¬ Allows tx.state request.target := by
      intro allowed
      rw [(transition_eq_ok_iff sha256 toRfc3339).mpr ⟨allowed, rfl⟩] at moved
      cases moved
    rw [if_neg refused]
    exact ⟨(decide_eq_false refused).symm, rfl⟩

/-- A writer that writes every receipt lets `exo-core` accept what its table allows. -/
theorem accepts_core (total : ∀ input, ∃ bytes, cbor input = .ok bytes) (transaction : Transaction)
    (request : PairedRequest) :
    (stepCore cbor blake3 transaction request).1 =
        transaction.currentState.canTransitionTo request.target ∧
      (nextCore cbor blake3 transaction request).currentState =
        if transaction.currentState.canTransitionTo request.target then request.target
        else transaction.currentState := by
  unfold nextCore stepCore
  rcases Transaction.transition_cases cbor blake3 transaction
      ⟨request.target, request.actor, request.clock, request.wall⟩ with
    ⟨error, answer, same, refused⟩ | ⟨transition, answer, after, recorded⟩
  · have impossible : transaction.currentState.canTransitionTo request.target = false := by
      rcases refused with impossible | ⟨error', receipt⟩
      · exact impossible
      · obtain ⟨bytes, written⟩ := total ⟨transaction.currentState, request.target,
          (request.clock.now request.wall).1, request.actor.value,
          transaction.receiptChain.getLast?.getD .zero⟩
        have computed := ExoCore.hashStructured_of_written written blake3
        cases computed.symm.trans receipt
    dsimp only
    rw [answer, same, impossible, if_neg Bool.false_ne_true]
    exact ⟨rfl, rfl⟩
  · have allowed := recorded.allowed
    dsimp only at allowed ⊢
    rw [answer, after, allowed, if_pos rfl]
    exact ⟨rfl, recorded.target⟩

/-- **The two crates answer a sequence alike exactly when it asks for shared moves**, from any two
transactions in the same state. -/
theorem agree_iff (total : ∀ input, ∃ bytes, cbor input = .ok bytes) {tx : BctsTransaction}
    {transaction : Transaction} (same : tx.state = transaction.currentState)
    (requests : List PairedRequest) :
    Agree sha256 toRfc3339 cbor blake3 tx transaction requests ↔
      Along (nextBcts sha256 toRfc3339) SharedMove tx requests := by
  induction requests generalizing tx transaction with
  | nil => exact ⟨fun _ => along_nil, fun _ => ⟨rfl, same⟩⟩
  | cons request requests ih =>
    obtain ⟨acceptedB, stateB⟩ := @accepts_bcts sha256 toRfc3339 tx request
    obtain ⟨acceptedC, stateC⟩ := @accepts_core cbor blake3 total transaction request
    have tables := allows_iff_canTransitionTo tx.state request.target
    rw [along_cons_iff]
    by_cases shared : SharedMove tx request
    · -- both accept or both refuse, and the states stay the same
      have alike := tables.mpr shared
      have answer : (stepBcts sha256 toRfc3339 tx request).1 =
          (stepCore cbor blake3 transaction request).1 := by
        rw [acceptedB, acceptedC, ← same]
        exact Bool.eq_iff_iff.mpr (decide_eq_true_iff.trans alike)
      have next : (nextBcts sha256 toRfc3339 tx request).state =
          (nextCore cbor blake3 transaction request).currentState := by
        rw [stateB, stateC, ← same]
        exact if_congr alike rfl rfl
      have later := ih next
      unfold Agree at later ⊢
      rw [answers, answers, List.map_cons, List.map_cons, List.cons.injEq, run_cons, run_cons]
      rw [and_iff_right shared, ← later]
      exact ⟨fun both => ⟨both.1.2, both.2⟩, fun both => ⟨⟨answer, both.1⟩, both.2⟩⟩
    · -- one accepts what the other refuses
      refine ⟨fun agree => absurd ?_ shared, fun both => absurd both.1 shared⟩
      have heads : (stepBcts sha256 toRfc3339 tx request).1 =
          (stepCore cbor blake3 transaction request).1 := (List.cons.inj agree.1).1
      rw [acceptedB, acceptedC, ← same] at heads
      exact tables.mp (decide_eq_true_iff.symm.trans (Bool.eq_iff_iff.mp heads))

end Comparison

/-- **When the two lifecycles agree**: from fresh transactions, on every sequence that asks for none of
the six moves at the state it has reached, and on no other. -/
theorem lifecycles_agree_iff (sha256 : List UInt8 → FixedBytes 32) (toRfc3339 : DateTime → String)
    (cbor : Cbor ReceiptInput) (blake3 : Blake3)
    (total : ∀ input, ∃ bytes, cbor input = .ok bytes) (id : String) (now : DateTime)
    (correlationId : CorrelationId) (requests : List PairedRequest) :
    Agree sha256 toRfc3339 cbor blake3 (.draft id now) (Transaction.new correlationId) requests ↔
      Along (nextBcts sha256 toRfc3339) SharedMove (.draft id now) requests :=
  agree_iff total rfl requests

namespace Sample

/-- The bytes that the CBOR writer writes for a receipt. -/
def receiptCbor : Cbor ReceiptInput := fun input =>
  .ok (Cbor.map
    [("from", Cbor.text input.source.display),
      ("to", Cbor.text input.target.display),
      ("timestamp", Cbor.map [("physical_ms", Cbor.unsigned input.timestamp.physicalMs.toNat),
        ("logical", Cbor.unsigned input.timestamp.logical.toNat)]),
      ("actor", Cbor.text input.actor),
      ("prev_hash", Cbor.array input.prevHash)])

/-- Requests of alice for some targets, at the epoch. -/
def requests (targets : List BctsState) : List PairedRequest :=
  targets.map fun target =>
    ⟨target, ⟨epoch, "00000000-0000-4000-8000-000000000000"⟩, "did:exo:alice", none,
      ⟨"did:exo:alice"⟩, ⟨0, 0⟩, 0⟩

/-- What each crate answers to the requests. -/
def answersBcts (targets : List BctsState) : List Bool :=
  (answers (stepBcts Sha256.hash epochText) (.draft "tx-1" epoch) (requests targets)).map Prod.snd

def answersCore (targets : List BctsState) : List Bool :=
  (answers (stepCore receiptCbor Blake3.hash) (Transaction.new ⟨FixedBytes.fill 16 1⟩)
    (requests targets)).map Prod.snd

/-- The way to a state, and one of the six moves from it. -/
def differingSequences : List (List BctsState) :=
  [[.submitted, .identityResolved, .consentValidated, .escalated],
    [.submitted, .identityResolved, .consentValidated, .deliberated, .verified, .escalated],
    [.submitted, .identityResolved, .consentValidated, .deliberated, .verified, .governed, .approved,
      .executed, .escalated],
    [.submitted, .identityResolved, .consentValidated, .deliberated, .verified, .governed, .approved,
      .executed, .recorded, .escalated],
    [.submitted, .identityResolved, .consentValidated, .deliberated, .escalated, .remediated],
    [.submitted, .denied, .remediated]]

/-- **The crates differ on each of the six sequences**, and so on the resubmission of a denied
transaction. -/
theorem lifecycles_differ :
    (∀ targets ∈ differingSequences, answersBcts targets ≠ answersCore targets) ∧
      ¬ Agree Sha256.hash epochText receiptCbor Blake3.hash (.draft "tx-1" epoch)
        (Transaction.new ⟨FixedBytes.fill 16 1⟩) (requests [.submitted, .denied, .remediated]) := by
  have differ : ∀ targets ∈ differingSequences, answersBcts targets ≠ answersCore targets := by
    decide +kernel
  refine ⟨differ, fun agree => ?_⟩
  exact differ [.submitted, .denied, .remediated] (by decide) agree.1

/-- The way from the draft to the closed state is the same in both crates. -/
theorem straight_agrees :
    Agree Sha256.hash epochText receiptCbor Blake3.hash (.draft "tx-1" epoch)
      (Transaction.new ⟨FixedBytes.fill 16 1⟩)
      (requests [.submitted, .identityResolved, .consentValidated, .deliberated, .verified, .governed,
        .approved, .executed, .recorded, .closed]) :=
  (lifecycles_agree_iff Sha256.hash epochText receiptCbor Blake3.hash (fun _ => ⟨_, rfl⟩) "tx-1" epoch
    ⟨FixedBytes.fill 16 1⟩ _).mpr (by decide +kernel)

end Sample

end Exochain.ExoBcts
