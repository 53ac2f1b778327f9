/-
**What an accepted receipt chain says.**

A transaction can come from anywhere: its two lists, the recorded transitions and the stored receipts, are
deserialized side by side. `verifyReceiptChain` walks the transitions and looks at the stored receipt of
each, if there is one.

* `verifyReceiptChain_eq_ok_iff` — the exact reading of the verifier: the transitions carry threaded
  receipts, and the stored receipts agree with them **as far as both lists go**.
* `Intact` — what a verified chain is meant to be: one stored receipt for each transition, both the
  recomputed hash. It is what the verifier checks and one thing more, the number of receipts
  (`intact_iff`).
* `verifies_iff_intact_iff` — **the exact law**: the verifier decides `Intact` on the transactions whose
  lists have one length, and on those that are tampered with where both lists have an entry.
-/

import Exochain.Foundation.Blake3
import Exochain.Core.Cbor
import Exochain.Core.Bcts

set_option linter.unusedSectionVars false

namespace Exochain.ExoCore

open Foundation

namespace Transaction

variable {cbor : Cbor ReceiptInput} {blake3 : Blake3} {transaction : Transaction}

/-! ### What the verifier accepts -/

/-- The stored receipts are those that the transitions carry, as far as both lists go. -/
def AgreeWhereBoth (receipts : List Hash256) (transitions : List BctsTransition) : Prop :=
  ∀ (index : ℕ) (receipt : Hash256) (transition : BctsTransition), receipts[index]? = some receipt →
    transitions[index]? = some transition → receipt = transition.receiptHash

theorem agreeWhereBoth_cons_iff {receipts : List Hash256} {transition : BctsTransition}
    {rest : List BctsTransition} :
    AgreeWhereBoth receipts (transition :: rest) ↔
      (∀ receipt, receipts[0]? = some receipt → receipt = transition.receiptHash) ∧
        AgreeWhereBoth (receipts.drop 1) rest := by
  constructor
  · intro agree
    refine ⟨fun receipt here => agree 0 receipt transition here rfl, ?_⟩
    intro index receipt later stored carried
    rw [List.getElem?_drop, Nat.add_comm] at stored
    exact agree (index + 1) receipt later stored carried
  · rintro ⟨first, others⟩ index receipt later stored carried
    cases index with
    | zero =>
      cases carried
      exact first receipt stored
    | succ index =>
      refine others index receipt later ?_ carried
      rw [List.getElem?_drop, Nat.add_comm]
      exact stored

/-- One pass of the verifier's loop: both comparisons pass and the rest is accepted. -/
theorem verifyFrom_cons_eq_ok_iff {receiptChain : List Hash256} {transition : BctsTransition}
    {rest : List BctsTransition} {prev : Hash256} {index : ℕ} :
    verifyFrom cbor blake3 receiptChain prev index (transition :: rest) = .ok () ↔
      ReceiptLink cbor blake3 prev transition ∧
        (∀ receipt, receiptChain[index]? = some receipt → receipt = transition.receiptHash) ∧
          verifyFrom cbor blake3 receiptChain transition.receiptHash (index + 1) rest = .ok () := by
  rw [verifyFrom, ReceiptLink]
  cases computed : hashStructured cbor blake3 ⟨transition.fromState, transition.toState,
      transition.timestamp, transition.actorDid.value, prev⟩ with
  | error error => simp [bind, Except.bind]
  | ok receipt =>
    rw [Except.ok.injEq]
    by_cases carried : receipt = transition.receiptHash
    · subst carried
      cases receiptChain[index]? with
      | none => simp [bind, Except.bind]
      | some stored =>
        by_cases same : stored = transition.receiptHash
        · simp [bind, Except.bind, same]
        · simp [bind, Except.bind, throw, throwThe, MonadExceptOf.throw, same]
    · simp [bind, Except.bind, throw, throwThe, MonadExceptOf.throw, carried]

/-- **The verifier's loop**, from the transition at `index` on. -/
theorem verifyFrom_eq_ok_iff {receiptChain : List Hash256} {transitions : List BctsTransition}
    {prev : Hash256} {index : ℕ} :
    verifyFrom cbor blake3 receiptChain prev index transitions = .ok () ↔
      Threaded (ReceiptLink cbor blake3) BctsTransition.receiptHash prev transitions ∧
        AgreeWhereBoth (receiptChain.drop index) transitions := by
  induction transitions generalizing prev index with
  | nil =>
    refine iff_of_true rfl ⟨trivial, ?_⟩
    intro _ _ _ _ carried
    simp at carried
  | cons transition rest ih =>
    rw [verifyFrom_cons_eq_ok_iff, ih, Threaded, agreeWhereBoth_cons_iff, List.getElem?_drop,
      List.drop_drop]
    tauto

/-- **What the verifier accepts.** -/
theorem verifyReceiptChain_eq_ok_iff :
    transaction.verifyReceiptChain cbor blake3 = .ok () ↔
      Threaded (ReceiptLink cbor blake3) BctsTransition.receiptHash .zero transaction.transitions ∧
        AgreeWhereBoth transaction.receiptChain transaction.transitions := by
  rw [verifyReceiptChain, verifyFrom_eq_ok_iff, List.drop_zero]

/-! ### An intact chain -/

/-- The stored receipt before a transition; the zero hash before the first one. -/
def previousReceipt (transaction : Transaction) : ℕ → Hash256
  | 0 => .zero
  | index + 1 => transaction.receiptChain.getD index .zero

/-- **An intact chain**: exactly one stored receipt for each transition, and both the stored receipt and
the one that the transition carries are the hash recomputed from the transition and the previous
receipt. -/
structure Intact (cbor : Cbor ReceiptInput) (blake3 : Blake3) (transaction : Transaction) : Prop where
  counted : transaction.receiptChain.length = transaction.transitions.length
  recomputed : ∀ (index : ℕ) (transition : BctsTransition),
    transaction.transitions[index]? = some transition →
      ∃ receipt, hashStructured cbor blake3 ⟨transition.fromState, transition.toState,
          transition.timestamp, transition.actorDid.value, transaction.previousReceipt index⟩ =
            .ok receipt ∧
        transaction.receiptChain[index]? = some receipt ∧ transition.receiptHash = receipt

/-- Where there are as many receipts as transitions, agreement is equality. -/
theorem agreeWhereBoth_iff_eq_map {receipts : List Hash256} {transitions : List BctsTransition}
    (counted : receipts.length = transitions.length) :
    AgreeWhereBoth receipts transitions ↔ receipts = transitions.map BctsTransition.receiptHash := by
  constructor
  · intro agree
    refine List.ext_getElem (by rw [counted, List.length_map]) fun index inside inside' => ?_
    rw [List.length_map] at inside'
    rw [List.getElem_map]
    exact agree index _ _ (List.getElem?_eq_getElem inside) (List.getElem?_eq_getElem inside')
  · rintro rfl index receipt transition stored carried
    rw [List.getElem?_map, carried, Option.map_some, Option.some.injEq] at stored
    exact stored.symm

/-- With the stored receipts in step, the previous receipt is what the transitions before hand on. -/
theorem handedOn_eq_previousReceipt
    (stored : transaction.receiptChain = transaction.transitions.map BctsTransition.receiptHash)
    {index : ℕ} (inside : index ≤ transaction.transitions.length) :
    handedOn BctsTransition.receiptHash .zero (transaction.transitions.take index) =
      transaction.previousReceipt index := by
  cases index with
  | zero => rfl
  | succ index => rw [handedOn_take_succ _ inside, ← stored, previousReceipt]

/-- **An intact chain is an accepted one with the right number of receipts.** -/
theorem intact_iff :
    transaction.Intact cbor blake3 ↔
      transaction.receiptChain.length = transaction.transitions.length ∧
        transaction.verifyReceiptChain cbor blake3 = .ok () := by
  rw [verifyReceiptChain_eq_ok_iff]
  constructor
  · rintro ⟨counted, recomputed⟩
    have agree : AgreeWhereBoth transaction.receiptChain transaction.transitions := by
      intro index receipt transition stored carried
      obtain ⟨computed, _, here, same⟩ := recomputed index transition carried
      rw [stored, Option.some.injEq] at here
      rw [here, same]
    refine ⟨counted, threaded_iff_forall_getElem?.mpr fun index transition found => ?_, agree⟩
    obtain ⟨inside, _⟩ := List.getElem?_eq_some_iff.mp found
    obtain ⟨receipt, computed, _, same⟩ := recomputed index transition found
    rw [handedOn_eq_previousReceipt ((agreeWhereBoth_iff_eq_map counted).mp agree) inside.le,
      ReceiptLink, computed, same]
  · rintro ⟨counted, threaded, agree⟩
    have stored := (agreeWhereBoth_iff_eq_map counted).mp agree
    refine ⟨counted, fun index transition found => ⟨transition.receiptHash, ?_, ?_, rfl⟩⟩
    · obtain ⟨inside, _⟩ := List.getElem?_eq_some_iff.mp found
      rw [← handedOn_eq_previousReceipt stored inside.le]
      exact threaded_iff_forall_getElem?.mp threaded index transition found
    · rw [stored, List.getElem?_map, found, Option.map_some]

/-! ### The exact law -/

/-- The transaction is tampered with where both lists have an entry: some transition does not carry the
hash recomputed from it and the receipt that the transition before carries, or its stored receipt is not
the one it carries. -/
def TamperedInside (cbor : Cbor ReceiptInput) (blake3 : Blake3) (transaction : Transaction) : Prop :=
  ∃ (index : ℕ) (transition : BctsTransition), transaction.transitions[index]? = some transition ∧
    (¬ ReceiptLink cbor blake3 (handedOn BctsTransition.receiptHash .zero
        (transaction.transitions.take index)) transition ∨
      ∃ receipt, transaction.receiptChain[index]? = some receipt ∧ receipt ≠ transition.receiptHash)

/-- The verifier accepts exactly what is not tampered with inside. -/
theorem verifyReceiptChain_eq_ok_iff_not_tampered :
    transaction.verifyReceiptChain cbor blake3 = .ok () ↔ ¬ transaction.TamperedInside cbor blake3 := by
  rw [verifyReceiptChain_eq_ok_iff, threaded_iff_forall_getElem?]
  constructor
  · rintro ⟨linked, agree⟩ ⟨index, transition, found, unlinked | ⟨receipt, stored, different⟩⟩
    · exact unlinked (linked index transition found)
    · exact different (agree index receipt transition stored found)
  · intro untampered
    refine ⟨fun index transition found => ?_, fun index receipt transition stored found => ?_⟩
    · by_contra unlinked
      exact untampered ⟨index, transition, found, .inl unlinked⟩
    · by_contra different
      exact untampered ⟨index, transition, found, .inr ⟨receipt, stored, different⟩⟩

/-- **When the verifier decides whether a chain is intact**: if the transaction stores as many receipts
as transitions, or it is tampered with inside; on no other transaction. -/
theorem verifies_iff_intact_iff (cbor : Cbor ReceiptInput) (blake3 : Blake3)
    (transaction : Transaction) :
    (transaction.verifyReceiptChain cbor blake3 = .ok () ↔ transaction.Intact cbor blake3) ↔
      (transaction.receiptChain.length = transaction.transitions.length ∨
        transaction.TamperedInside cbor blake3) := by
  rw [intact_iff, verifyReceiptChain_eq_ok_iff_not_tampered]
  tauto

end Transaction

/-- The bytes that the CBOR writer writes for a receipt. -/
def Cbor.receipt : Cbor ReceiptInput := fun input =>
  .ok (Cbor.map
    [("from", Cbor.text input.source.display),
      ("to", Cbor.text input.target.display),
      ("timestamp", Cbor.map [("physical_ms", Cbor.unsigned input.timestamp.physicalMs.toNat),
        ("logical", Cbor.unsigned input.timestamp.logical.toNat)]),
      ("actor", Cbor.text input.actor),
      ("prev_hash", Cbor.array input.prevHash)])

namespace TruncatedReceipts

/-- A transaction that alice submitted, and the same transaction without its stored receipts. -/
def submitted : Transaction :=
  (Transaction.new ⟨FixedBytes.fill 16 1⟩).attempted Cbor.receipt Blake3.hash
    ⟨.submitted, ⟨"did:exo:alice"⟩, ⟨0, 0⟩, 1000⟩

def truncated : Transaction := { submitted with receiptChain := [] }

/-- **A chain without its receipts is accepted.** -/
theorem truncated_verifies :
    ¬ ∀ transaction : Transaction,
      transaction.verifyReceiptChain Cbor.receipt Blake3.hash = .ok () ↔
        transaction.Intact Cbor.receipt Blake3.hash := by
  intro claimed
  have accepted : truncated.verifyReceiptChain Cbor.receipt Blake3.hash = .ok () := by
    decide +kernel
  have counted := ((claimed truncated).mp accepted).counted
  revert counted
  decide +kernel

end TruncatedReceipts

end Exochain.ExoCore
