/-
**`AuditLogContinuity.tla` — the hash chain of the audit log.**

The specification of the tamper-evident log: an entry takes the next sequence number, the hash of the entry
before it, and a hash of all its parts. Hashes are numbers.

* **`reachable_iff`** — the invariants of the module are complete: a state is reachable exactly if its
  sequence numbers have no gap, its chain is unbroken, its entry hashes are computed from their parts, the
  counter is the length of the log, and its events are among those that are appended.
* `log_eq_of_lastHash_eq` — for a hash that is injective in both arguments, the last entry hash determines the
  whole log.
* `TwoLogs.one_lastHash` — the hash that the module models is not: two reachable logs with one last hash.
-/

import Exochain.Foundation.Run
import Exochain.Foundation.Specification

set_option linter.unusedSectionVars false

namespace Exochain.AuditLogContinuity

open Foundation

/-! ### The specification -/

/-- An audit entry. -/
structure Entry where
  sequence : ℕ
  prevHash : ℕ
  eventHash : ℕ
  entryHash : ℕ
  deriving DecidableEq

/-- The variables. -/
structure State where
  log : List Entry
  nextSequence : ℕ
  deriving DecidableEq

/-- The hash that the module models. -/
def modelHash (a b : ℕ) : ℕ := a * 31 + b

def genesisHash : ℕ := 0

/-- The first state. -/
def init : State where
  log := []
  nextSequence := 0

section Hash

variable (hash : ℕ → ℕ → ℕ)

/-- The hash of an entry, from its parts. -/
def entryHashOf (sequence prevHash eventHash : ℕ) : ℕ := hash (hash sequence prevHash) eventHash

/-- The hash that the next entry is linked to. -/
def lastHash (log : List Entry) : ℕ := handedOn Entry.entryHash genesisHash log

/-- Append a new audit entry. -/
def appendEntry (state : State) (eventHash : ℕ) : State where
  log := state.log ++
    [{ sequence := state.nextSequence
       prevHash := lastHash state.log
       eventHash
       entryHash := entryHashOf hash state.nextSequence (lastHash state.log) eventHash }]
  nextSequence := state.nextSequence + 1

/-- The specification: append any of the event hashes. -/
def spec : Specification State where
  Init state := state = init
  Next state after := ∃ eventHash ∈ Finset.Icc 1 100, after = appendEntry hash state eventHash

/-! ### The invariants -/

/-- Sequence numbers grow with no gap. -/
def MonotonicSequence (log : List Entry) : Prop :=
  ∀ (i : ℕ) (inside : i < log.length), log[i].sequence = i

/-- Each entry is linked to the one before it, the first one to the genesis hash. -/
def UnbrokenChain (log : List Entry) : Prop :=
  ∀ (i : ℕ) (inside : i < log.length), log[i].prevHash = if i = 0 then genesisHash else log[i - 1].entryHash

/-- Entry hashes are computed from their parts. -/
def HashIntegrity (log : List Entry) : Prop :=
  ∀ entry ∈ log, entry.entryHash = entryHashOf hash entry.sequence entry.prevHash entry.eventHash

/-- No gaps in the log. -/
def NoGaps (log : List Entry) : Prop :=
  ∀ (i : ℕ) (inside : i + 1 < log.length), log[i + 1].sequence = log[i].sequence + 1

/-- The invariants of the module, and what they leave open: the counter, and the events. -/
structure Continuous (state : State) : Prop where
  monotonic : MonotonicSequence state.log
  unbroken : UnbrokenChain state.log
  integrity : HashIntegrity hash state.log
  counter : state.nextSequence = state.log.length
  events : ∀ entry ∈ state.log, entry.eventHash ∈ Finset.Icc 1 100

variable {hash}

theorem MonotonicSequence.noGaps {log : List Entry} (monotonic : MonotonicSequence log) : NoGaps log := by
  intro i inside
  rw [monotonic (i + 1) inside, monotonic i (Nat.lt_of_succ_lt inside)]

/-! ### One more entry -/

section Concat

variable {log : List Entry} {entry : Entry}

theorem lastHash_concat : lastHash (log ++ [entry]) = entry.entryHash := handedOn_concat _ _ _

theorem lastHash_eq (some : 0 < log.length) : lastHash log = log[log.length - 1].entryHash := by
  unfold lastHash handedOn
  rw [List.getLast?_eq_some_getLast (List.ne_nil_of_length_pos some), List.getLast_eq_getElem]
  rfl

/-- What holds of every position of a longer log: it holds of the positions of the log, and of the last
one. -/
theorem forall_getElem_concat {P : ℕ → Entry → Prop} :
    (∀ (i : ℕ) (inside : i < (log ++ [entry]).length), P i (log ++ [entry])[i]) ↔
      (∀ (i : ℕ) (inside : i < log.length), P i log[i]) ∧ P log.length entry := by
  constructor
  · intro all
    refine ⟨fun i inside => ?_, ?_⟩
    · have earlier := all i (by simp only [List.length_append, List.length_singleton]; omega)
      rwa [List.getElem_append_left inside] at earlier
    · have last := all log.length (by simp)
      rwa [List.getElem_concat_length rfl] at last
  · rintro ⟨earlier, last⟩ i inside
    rw [List.length_append, List.length_singleton] at inside
    rcases Nat.lt_succ_iff_lt_or_eq.mp inside with before | rfl
    · rw [List.getElem_append_left before]
      exact earlier i before
    · rw [List.getElem_concat_length rfl]
      exact last

theorem monotonicSequence_concat_iff :
    MonotonicSequence (log ++ [entry]) ↔ MonotonicSequence log ∧ entry.sequence = log.length :=
  forall_getElem_concat (P := fun i entry => entry.sequence = i)

theorem unbrokenChain_concat_iff :
    UnbrokenChain (log ++ [entry]) ↔ UnbrokenChain log ∧ entry.prevHash = lastHash log := by
  -- what the entry at the end is linked to
  have linked : ∀ inside : log.length - 1 < (log ++ [entry]).length,
      (if log.length = 0 then genesisHash else (log ++ [entry])[log.length - 1].entryHash) = lastHash log := by
    intro inside
    split
    · rename_i none
      rw [List.eq_nil_of_length_eq_zero none]
      rfl
    · rename_i some
      have positive := Nat.pos_of_ne_zero some
      rw [lastHash_eq positive, List.getElem_append_left (Nat.sub_lt positive Nat.one_pos)]
  -- what an earlier entry is linked to
  have same : ∀ (i : ℕ) (inside : i < log.length) (wider : i - 1 < (log ++ [entry]).length),
      (log ++ [entry])[i - 1].entryHash = log[i - 1].entryHash :=
    fun i inside wider => by rw [List.getElem_append_left (by omega)]
  constructor
  · intro all
    refine ⟨fun i inside => ?_, ?_⟩
    · have earlier := all i (by simp only [List.length_append, List.length_singleton]; omega)
      rwa [List.getElem_append_left inside, same i inside] at earlier
    · have last := all log.length (by simp)
      rwa [List.getElem_concat_length rfl, linked] at last
  · rintro ⟨earlier, last⟩ i inside
    have here := inside
    rw [List.length_append, List.length_singleton] at here
    rcases Nat.lt_succ_iff_lt_or_eq.mp here with before | rfl
    · rw [List.getElem_append_left before, same i before]
      exact earlier i before
    · rw [List.getElem_concat_length rfl, linked]
      exact last

theorem hashIntegrity_concat_iff :
    HashIntegrity hash (log ++ [entry]) ↔
      HashIntegrity hash log ∧
        entry.entryHash = entryHashOf hash entry.sequence entry.prevHash entry.eventHash := by
  unfold HashIntegrity
  simp [or_imp, forall_and]

/-- **One more entry**, and the counter moved on. -/
theorem continuous_concat_iff {counter : ℕ} :
    Continuous hash ⟨log ++ [entry], counter⟩ ↔
      Continuous hash ⟨log, log.length⟩ ∧ entry.eventHash ∈ Finset.Icc 1 100 ∧
        (⟨log ++ [entry], counter⟩ : State) = appendEntry hash ⟨log, log.length⟩ entry.eventHash := by
  constructor
  · rintro ⟨monotonic, unbroken, integrity, counted, events⟩
    obtain ⟨monotonic, sequence⟩ := monotonicSequence_concat_iff.mp monotonic
    obtain ⟨unbroken, link⟩ := unbrokenChain_concat_iff.mp unbroken
    obtain ⟨integrity, computed⟩ := hashIntegrity_concat_iff.mp integrity
    have earlier : Continuous hash ⟨log, log.length⟩ :=
      ⟨monotonic, unbroken, integrity, rfl, fun e member => events e (List.mem_append_left _ member)⟩
    refine ⟨earlier, events entry (by simp), ?_⟩
    have appended : entry = ⟨log.length, lastHash log, entry.eventHash,
        entryHashOf hash log.length (lastHash log) entry.eventHash⟩ := by
      rw [sequence, link] at computed
      cases entry
      simp_all
    have counter_eq : counter = log.length + 1 := counted.trans (by simp)
    rw [counter_eq]
    show State.mk (log ++ [entry]) _ = State.mk (log ++ [_]) _
    rw [← appended]
  · rintro ⟨⟨monotonic, unbroken, integrity, -, events⟩, event, appended⟩
    obtain ⟨concat, counted⟩ := State.mk.inj appended
    have last : entry = ⟨log.length, lastHash log, entry.eventHash,
        entryHashOf hash log.length (lastHash log) entry.eventHash⟩ := by
      simpa using List.append_cancel_left concat
    have sequence : entry.sequence = log.length := by rw [last]
    have link : entry.prevHash = lastHash log := by rw [last]
    refine ⟨monotonicSequence_concat_iff.mpr ⟨monotonic, sequence⟩,
      unbrokenChain_concat_iff.mpr ⟨unbroken, link⟩, hashIntegrity_concat_iff.mpr ⟨integrity, ?_⟩,
      by simp [counted], fun e member => ?_⟩
    · rw [sequence, link]
      exact congrArg Entry.entryHash last
    · rcases List.mem_append.mp member with earlier | here
      · exact events e earlier
      · rwa [List.mem_singleton.mp here]

end Concat

/-! ### The reachable states -/

theorem continuous_init : Continuous hash init where
  monotonic i inside := absurd inside (Nat.not_lt_zero i)
  unbroken i inside := absurd inside (Nat.not_lt_zero i)
  integrity _ member := absurd member List.not_mem_nil
  counter := rfl
  events _ member := absurd member List.not_mem_nil

theorem Continuous.next {state after : State} (continuous : Continuous hash state)
    (step : (spec hash).Next state after) : Continuous hash after := by
  obtain ⟨eventHash, event, rfl⟩ := step
  obtain ⟨log, counter⟩ := state
  obtain rfl : counter = log.length := continuous.counter
  exact continuous_concat_iff.mpr ⟨continuous, event, rfl⟩

/-- **The invariants are complete.** A state is reachable exactly if its sequence numbers have no gap, its chain
is unbroken, its entry hashes are computed from their parts, the counter is the length of the log, and the
events are among those that are appended. -/
theorem reachable_iff (hash : ℕ → ℕ → ℕ) (state : State) :
    (spec hash).Reachable state ↔ Continuous hash state := by
  constructor
  · intro reachable
    refine reachable.invariant ?_ fun _ _ continuous step => continuous.next step
    rintro start rfl
    exact continuous_init
  · obtain ⟨log, counter⟩ := state
    -- induction on the log, from its last entry
    induction log using List.reverseRecOn generalizing counter with
    | nil =>
      intro continuous
      obtain rfl : counter = 0 := continuous.counter
      exact .of_init rfl
    | append_singleton log entry ih =>
      intro continuous
      obtain ⟨earlier, event, appended⟩ := continuous_concat_iff.mp continuous
      rw [appended]
      exact (ih log.length earlier).step ⟨entry.eventHash, event, rfl⟩

/-! ### What the last hash binds -/

/-- **With an injective hash the last entry hash determines the log**, if there is an entry. -/
theorem log_eq_of_lastHash_eq (injective : Function.Injective2 hash) {state state' : State}
    (continuous : Continuous hash state) (continuous' : Continuous hash state') (some : state.log ≠ [])
    (some' : state'.log ≠ []) (same : lastHash state.log = lastHash state'.log) : state = state' := by
  obtain ⟨log, counter⟩ := state
  obtain ⟨log', counter'⟩ := state'
  induction log using List.reverseRecOn generalizing log' counter counter' with
  | nil => exact absurd rfl some
  | append_singleton log entry ih =>
    rcases log'.eq_nil_or_concat with rfl | ⟨log', entry', rfl⟩
    · exact absurd rfl some'
    rw [List.concat_eq_append] at continuous' same ⊢
    obtain ⟨earlier, -, appended⟩ := continuous_concat_iff.mp continuous
    obtain ⟨earlier', -, appended'⟩ := continuous_concat_iff.mp continuous'
    rw [appended, appended'] at same ⊢
    -- the last hash determines the number, the link and the event of the last entry
    simp only [appendEntry, lastHash_concat, entryHashOf] at same
    obtain ⟨parts, event⟩ := injective same
    obtain ⟨length, link⟩ := injective parts
    rw [event]
    congr 1
    by_cases none : log = []
    · subst none
      obtain rfl : log' = [] := List.eq_nil_of_length_eq_zero length.symm
      rfl
    · have none' : log' ≠ [] := by
        rintro rfl
        exact none (List.eq_nil_of_length_eq_zero length)
      exact ih log.length earlier none log' log'.length earlier' none' link

end Hash

/-! ### Two logs with one last hash -/

namespace TwoLogs

/-- The log of two events. -/
def afterTwo (first second : ℕ) : State :=
  appendEntry modelHash (appendEntry modelHash init first) second

theorem reachable_afterTwo {first second : ℕ} (inside : first ∈ Finset.Icc 1 100)
    (inside' : second ∈ Finset.Icc 1 100) : (spec modelHash).Reachable (afterTwo first second) := by
  have start : (spec modelHash).Reachable init := .of_init rfl
  exact (start.step ⟨first, inside, rfl⟩).step ⟨second, inside', rfl⟩

/-- Both logs are reachable, they differ, and their last hashes are the same. -/
theorem one_lastHash :
    (spec modelHash).Reachable (afterTwo 1 32) ∧ (spec modelHash).Reachable (afterTwo 2 1) ∧
      afterTwo 1 32 ≠ afterTwo 2 1 ∧ lastHash (afterTwo 1 32).log = lastHash (afterTwo 2 1).log :=
  ⟨reachable_afterTwo (by decide) (by decide), reachable_afterTwo (by decide) (by decide), by decide, rfl⟩

end TwoLogs

end Exochain.AuditLogContinuity
