/-
**`exo-bcts` — transactions and their ledger.**

The crate has its own state machine over the fourteen states of `exo-core`: its own table of
transitions, its own list of terminal states and its own names. A transition is guarded by both, and
appends an event to the ledger with a hash of what happened. `verifyLedger` walks the ledger again: it
compares the states of the events with the table, and looks at nothing else of an event.

The digest and the formatting of times are parameters. What the system gives a transition, the time and a
new identifier, comes as a `Moment`.

* `transition_eq_ok_iff` — when a transition succeeds, and with what.
* `verifyLedger_iff` — the ledgers that are accepted: paths of the table from the draft state.
* `producible_iff` — the ledgers that transitions produce: accepted, with no event that leaves a denied
  transaction, and with every event's identifier and hash as `transition` writes them.
* **`ledger_verification_exact_iff`** — where the two are the same.
* `Sample.unproducible_accepted` — where they are not.
-/

import Exochain.Foundation.Run
import Exochain.Foundation.Codes
import Exochain.Foundation.Sha256
import Exochain.Core.Bcts

namespace Exochain.ExoBcts

open Foundation
open ExoCore (BctsState Hash256)

/-! ### States -/

/-- The name of a state in texts. -/
def display : BctsState → String
  | .draft => "Draft"
  | .submitted => "Submitted"
  | .identityResolved => "Identity Resolved"
  | .consentValidated => "Consent Validated"
  | .deliberated => "Deliberated"
  | .verified => "Verified"
  | .governed => "Governed"
  | .approved => "Approved"
  | .executed => "Executed"
  | .recorded => "Recorded"
  | .closed => "Closed"
  | .denied => "Denied"
  | .escalated => "Escalated"
  | .remediated => "Remediated"

/-- The states without further transitions. -/
def terminalStates : List BctsState := [.closed, .denied]

/-- The valid transitions. -/
def validTransitions : BctsState → List BctsState
  | .draft => [.submitted]
  | .submitted => [.identityResolved, .denied]
  | .identityResolved => [.consentValidated, .denied]
  | .consentValidated => [.deliberated, .denied, .escalated]
  | .deliberated => [.verified, .denied, .escalated]
  | .verified => [.governed, .denied]
  | .governed => [.approved, .denied, .escalated]
  | .approved => [.executed, .denied]
  | .executed => [.recorded]
  | .recorded => [.closed]
  | .closed => []
  | .denied => [.remediated]
  | .escalated => [.deliberated, .denied]
  | .remediated => [.submitted]

def canTransition (source target : BctsState) : Bool := (validTransitions source).contains target

def isTerminal (state : BctsState) : Bool := terminalStates.contains state

/-! ### Transactions -/

/-- A time of day, as nanoseconds of the epoch. -/
structure DateTime where
  nanos : ℤ
  deriving DecidableEq, Repr

/-- A ledger event. -/
structure LedgerEvent where
  id : String
  transactionId : String
  fromState : BctsState
  toState : BctsState
  actorDid : String
  timestamp : DateTime
  evidence : Option String
  proofHash : String
  deriving DecidableEq, Repr

/-- A transaction; its envelope and its metadata are carried along unread. -/
structure BctsTransaction where
  id : String
  state : BctsState
  ledger : List LedgerEvent
  updatedAt : DateTime
  deriving DecidableEq, Repr

/-- A new transaction: in the draft state, with an empty ledger. -/
def BctsTransaction.draft (id : String) (now : DateTime) : BctsTransaction := ⟨id, .draft, [], now⟩

/-- What the system gives one transition: the time, and the identifier of the event. -/
structure Moment where
  now : DateTime
  id : String
  deriving DecidableEq, Repr

section Ledger

variable (sha256 : List UInt8 → FixedBytes 32) (toRfc3339 : DateTime → String)

/-- The hash of an event, in hexadecimal digits. -/
def proofHashOf (id : String) (source target : BctsState) (actorDid : String) (now : DateTime) :
    String :=
  let proofData := id ++ "|" ++ display source ++ "|" ++ display target ++ "|" ++ actorDid ++ "|" ++
    toRfc3339 now
  Hash256.display (sha256 (textBytes proofData))

/-- The event that a transition records. -/
def eventOf (moment : Moment) (tx : BctsTransaction) (toState : BctsState) (actorDid : String)
    (evidence : Option String) : LedgerEvent where
  id := moment.id
  transactionId := tx.id
  fromState := tx.state
  toState := toState
  actorDid := actorDid
  timestamp := moment.now
  evidence := evidence
  proofHash := proofHashOf sha256 toRfc3339 tx.id tx.state toState actorDid moment.now

/-- The transaction with one more event, in the state the event leads to. -/
def BctsTransaction.push (tx : BctsTransaction) (event : LedgerEvent) : BctsTransaction :=
  { tx with state := event.toState, ledger := tx.ledger ++ [event], updatedAt := event.timestamp }

/-- Move a transaction to a new state. -/
def transition (moment : Moment) (tx : BctsTransaction) (toState : BctsState) (actorDid : String)
    (evidence : Option String) : Except String BctsTransaction :=
  if isTerminal tx.state then
    .error ("transaction " ++ tx.id ++ " is in terminal state: " ++ display tx.state)
  else if !canTransition tx.state toState then
    .error ("invalid transition: " ++ display tx.state ++ " -> " ++ display toState ++
      " for transaction " ++ tx.id)
  else .ok (tx.push (eventOf sha256 toRfc3339 moment tx toState actorDid evidence))

/-- The loop of `verifyLedger`: the state that the events lead to from `expected`, if every one fits. -/
def walk : BctsState → List LedgerEvent → Option BctsState
  | expected, [] => some expected
  | expected, event :: events =>
    if event.fromState ≠ expected then none
    else if !canTransition event.fromState event.toState then none
    else walk event.toState events

/-- Whether the ledger is consistent. -/
def verifyLedger (tx : BctsTransaction) : Bool := walk .draft tx.ledger = some tx.state

/-! ### What the two functions do -/

/-- A transition is allowed: the state is not terminal, and the table has the move. -/
def Allows (source target : BctsState) : Prop :=
  isTerminal source = false ∧ canTransition source target = true

instance (source target : BctsState) : Decidable (Allows source target) :=
  inferInstanceAs (Decidable (_ ∧ _))

/-- **When a transition succeeds, and with what.** -/
theorem transition_eq_ok_iff {moment : Moment} {tx after : BctsTransaction} {toState : BctsState}
    {actorDid : String} {evidence : Option String} :
    transition sha256 toRfc3339 moment tx toState actorDid evidence = .ok after ↔
      Allows tx.state toState ∧
        after = tx.push (eventOf sha256 toRfc3339 moment tx toState actorDid evidence) := by
  unfold transition Allows
  cases terminal : isTerminal tx.state with
  | true => simp
  | false =>
    cases possible : canTransition tx.state toState with
    | false => simp
    | true => simp [eq_comm]

/-- The edge of an event starts in `state` and is in the table. -/
def Edge (state : BctsState) (event : LedgerEvent) : Prop :=
  event.fromState = state ∧ canTransition state event.toState = true

/-- The events are a path of the table from the draft state to the state of the transaction. -/
def Chained (tx : BctsTransaction) : Prop :=
  Threaded Edge LedgerEvent.toState .draft tx.ledger ∧
    handedOn LedgerEvent.toState .draft tx.ledger = tx.state

theorem walk_eq_some_iff {expected state : BctsState} {events : List LedgerEvent} :
    walk expected events = some state ↔
      Threaded Edge LedgerEvent.toState expected events ∧
        handedOn LedgerEvent.toState expected events = state := by
  induction events generalizing expected with
  | nil => simp [walk, Threaded]
  | cons event events ih =>
    rw [walk, Threaded, handedOn_cons, Edge]
    by_cases starts : event.fromState = expected
    · subst starts
      cases allowed : canTransition event.fromState event.toState with
      | false => simp
      | true => simp [ih]
    · simp [starts]

/-- **The ledgers that are accepted.** -/
theorem verifyLedger_iff {tx : BctsTransaction} : verifyLedger tx = true ↔ Chained tx := by
  rw [verifyLedger, decide_eq_true_iff, walk_eq_some_iff, Chained]

/-- One more event that fits. -/
theorem chained_push {tx : BctsTransaction} (chained : Chained tx) {event : LedgerEvent}
    (edge : Edge tx.state event) : Chained (tx.push event) := by
  obtain ⟨path, ends⟩ := chained
  refine ⟨threaded_concat_iff.mpr ⟨path, ?_⟩, handedOn_concat _ _ _⟩
  rw [ends]
  exact edge

/-- A successful transition keeps the ledger consistent. -/
theorem chained_transition {moment : Moment} {tx after : BctsTransaction} {toState : BctsState}
    {actorDid : String} {evidence : Option String} (chained : Chained tx)
    (moved : transition sha256 toRfc3339 moment tx toState actorDid evidence = .ok after) :
    Chained after := by
  obtain ⟨⟨-, possible⟩, rfl⟩ := (transition_eq_ok_iff sha256 toRfc3339).mp moved
  exact chained_push chained ⟨rfl, possible⟩

/-! ### What transitions produce -/

/-- The arguments of a call of `transition`. -/
structure Request where
  moment : Moment
  toState : BctsState
  actorDid : String
  evidence : Option String
  deriving DecidableEq, Repr

/-- The transaction after calls that all succeed. -/
inductive Reaches : BctsTransaction → BctsTransaction → Prop
  | refl (tx : BctsTransaction) : Reaches tx tx
  | step {start tx after : BctsTransaction} (request : Request) (reached : Reaches start tx)
      (moved : transition sha256 toRfc3339 request.moment tx request.toState request.actorDid
        request.evidence = .ok after) : Reaches start after

/-- The state and the ledger come from a draft with the same identifier and an empty ledger, by
successful transitions. -/
def Producible (tx : BctsTransaction) : Prop :=
  ∃ start reached, start.id = tx.id ∧ start.state = .draft ∧ start.ledger = [] ∧
    Reaches sha256 toRfc3339 start reached ∧ reached.state = tx.state ∧ reached.ledger = tx.ledger

/-- The event is what `transition` records of its own states, actor and time: it does not leave a denied
transaction, and it carries the transaction's identifier and the hash. -/
structure Genuine (id : String) (event : LedgerEvent) : Prop where
  undenied : event.fromState ≠ .denied
  transactionId : event.transactionId = id
  proofHash : event.proofHash =
    proofHashOf sha256 toRfc3339 id event.fromState event.toState event.actorDid event.timestamp

instance (id : String) (event : LedgerEvent) : Decidable (Genuine sha256 toRfc3339 id event) :=
  decidable_of_iff (event.fromState ≠ .denied ∧ event.transactionId = id ∧ event.proofHash =
      proofHashOf sha256 toRfc3339 id event.fromState event.toState event.actorDid event.timestamp)
    ⟨fun ⟨undenied, own, hash⟩ => ⟨undenied, own, hash⟩, fun genuine =>
      ⟨genuine.undenied, genuine.transactionId, genuine.proofHash⟩⟩

variable {sha256 toRfc3339}

theorem isTerminal_iff {state : BctsState} : isTerminal state = true ↔ state = .closed ∨ state = .denied := by
  cases state <;> decide

/-- The terminal state that the table has a move from is the denied one. -/
theorem allows_iff {source target : BctsState} :
    Allows source target ↔ canTransition source target = true ∧ source ≠ .denied := by
  unfold Allows
  constructor
  · rintro ⟨standing, possible⟩
    refine ⟨possible, fun denied => ?_⟩
    rw [isTerminal_iff.mpr (.inr denied)] at standing
    cases standing
  · rintro ⟨possible, undenied⟩
    refine ⟨?_, possible⟩
    rw [Bool.eq_false_iff, ne_eq, isTerminal_iff]
    rintro (rfl | denied)
    · cases possible
    · exact undenied denied

theorem Reaches.id {start tx : BctsTransaction} (reached : Reaches sha256 toRfc3339 start tx) :
    tx.id = start.id := by
  induction reached with
  | refl => rfl
  | step request _ moved ih =>
    obtain ⟨-, rfl⟩ := (transition_eq_ok_iff sha256 toRfc3339).mp moved
    exact ih

/-- Calls that succeed write genuine events, along the table. -/
theorem Reaches.genuine {start tx : BctsTransaction} (reached : Reaches sha256 toRfc3339 start tx)
    (draft : start.state = .draft) (empty : start.ledger = []) :
    Chained tx ∧ ∀ event ∈ tx.ledger, Genuine sha256 toRfc3339 start.id event := by
  induction reached with
  | refl =>
    refine ⟨⟨?_, ?_⟩, ?_⟩
    · rw [empty]
      trivial
    · rw [empty, draft, handedOn_nil]
    · rw [empty]
      exact fun event member => absurd member List.not_mem_nil
  | step request reached moved ih =>
    obtain ⟨chained, genuine⟩ := ih
    refine ⟨chained_transition sha256 toRfc3339 chained moved, ?_⟩
    obtain ⟨allowed, rfl⟩ := (transition_eq_ok_iff sha256 toRfc3339).mp moved
    intro event member
    rcases List.mem_append.mp member with old | last
    · exact genuine event old
    · rw [List.mem_singleton.mp last]
      have sameId := reached.id
      exact ⟨(allows_iff.mp allowed).2, sameId, by rw [← sameId]; rfl⟩

/-- **A path of genuine events is what transitions write**, by induction from the last event. -/
theorem exists_reaches (id : String) (updatedAt : DateTime) {events : List LedgerEvent}
    (path : Threaded Edge LedgerEvent.toState .draft events)
    (genuine : ∀ event ∈ events, Genuine sha256 toRfc3339 id event) :
    ∃ reached : BctsTransaction,
      Reaches sha256 toRfc3339 (.draft id updatedAt) reached ∧
        reached.state = handedOn LedgerEvent.toState .draft events ∧ reached.ledger = events := by
  induction events using List.reverseRecOn with
  | nil => exact ⟨_, .refl _, rfl, rfl⟩
  | append_singleton events last ih =>
    obtain ⟨before, starts, possible⟩ := threaded_concat_iff.mp path
    obtain ⟨tx, reached, state, ledger⟩ :=
      ih before fun event member => genuine event (List.mem_append_left _ member)
    have sound := genuine last (List.mem_append_right _ (List.mem_singleton_self last))
    have sameId : tx.id = id := reached.id
    have source : last.fromState = tx.state := starts.trans state.symm
    -- the request that writes the event is the event itself
    let request : Request := ⟨⟨last.timestamp, last.id⟩, last.toState, last.actorDid, last.evidence⟩
    have event : eventOf sha256 toRfc3339 request.moment tx request.toState request.actorDid
        request.evidence = last := by
      have hash := sound.proofHash
      rw [source, ← sameId] at hash
      unfold eventOf
      rw [← hash, sameId, ← source, ← sound.transactionId]
    have allowed : Allows tx.state last.toState :=
      allows_iff.mpr ⟨state ▸ possible, source ▸ sound.undenied⟩
    refine ⟨tx.push last, .step request reached ?_, ?_, ?_⟩
    · exact (transition_eq_ok_iff sha256 toRfc3339).mpr ⟨allowed, by rw [event]⟩
    · rw [handedOn_concat]
      rfl
    · show tx.ledger ++ [last] = events ++ [last]
      rw [ledger]

/-- **The ledgers that transitions produce.** -/
theorem producible_iff {tx : BctsTransaction} :
    Producible sha256 toRfc3339 tx ↔
      Chained tx ∧ ∀ event ∈ tx.ledger, Genuine sha256 toRfc3339 tx.id event := by
  constructor
  · rintro ⟨start, reached, sameId, draft, empty, reaches, state, ledger⟩
    obtain ⟨chained, genuine⟩ := reaches.genuine draft empty
    rw [sameId, ledger] at genuine
    unfold Chained at chained
    rw [ledger, state] at chained
    exact ⟨chained, genuine⟩
  · rintro ⟨⟨path, ends⟩, genuine⟩
    obtain ⟨reached, reaches, state, ledger⟩ := exists_reaches tx.id tx.updatedAt path genuine
    exact ⟨.draft tx.id tx.updatedAt, reached, rfl, rfl, rfl, reaches, state.trans ends, ledger⟩

/-- **Where ledger verification is exact**: the ledger is no path of the table to the state, or every
event of it is genuine. -/
theorem ledger_verification_exact_iff (sha256 : List UInt8 → FixedBytes 32)
    (toRfc3339 : DateTime → String) (tx : BctsTransaction) :
    (verifyLedger tx = true ↔ Producible sha256 toRfc3339 tx) ↔
      (Chained tx → ∀ event ∈ tx.ledger, Genuine sha256 toRfc3339 tx.id event) := by
  rw [verifyLedger_iff, producible_iff]
  constructor
  · exact fun same chained => (same.mp chained).2
  · exact fun genuine => ⟨fun chained => ⟨chained, genuine chained⟩, fun both => both.1⟩

end Ledger

namespace Sample

/-- The epoch, and how it is formatted. -/
def epoch : DateTime := ⟨0⟩

def epochText : DateTime → String := fun _ => "1970-01-01T00:00:00+00:00"

/-- An event of a transaction at the epoch, as `transition` writes it. -/
def honest (id : String) (source target : BctsState) : LedgerEvent where
  id := "00000000-0000-4000-8000-000000000000"
  transactionId := id
  fromState := source
  toState := target
  actorDid := "did:exo:alice"
  timestamp := epoch
  evidence := none
  proofHash := proofHashOf Sha256.hash epochText id source target "did:exo:alice" epoch

/-- A transaction that was denied, remediated and submitted again. -/
def resubmitted : BctsTransaction where
  id := "tx-1"
  state := .submitted
  ledger := [honest "tx-1" .draft .submitted, honest "tx-1" .submitted .denied,
    honest "tx-1" .denied .remediated, honest "tx-1" .remediated .submitted]
  updatedAt := epoch

/-- A transaction whose event belongs to another one. -/
def foreign : BctsTransaction where
  id := "tx-1"
  state := .submitted
  ledger := [honest "tx-2" .draft .submitted]
  updatedAt := epoch

/-- A transaction with the hash of another event. -/
def tampered : BctsTransaction where
  id := "tx-1"
  state := .submitted
  ledger := [{ honest "tx-1" .draft .submitted with proofHash := "00" }]
  updatedAt := epoch

/-- **Ledgers that no transition writes are accepted**: the resubmission that the table has and the
terminal guard excludes, an event of another transaction, and a hash that is not the event's. -/
theorem unproducible_accepted :
    (verifyLedger resubmitted = true ∧ ¬ Producible Sha256.hash epochText resubmitted) ∧
    (verifyLedger foreign = true ∧ ¬ Producible Sha256.hash epochText foreign) ∧
    (verifyLedger tampered = true ∧ ¬ Producible Sha256.hash epochText tampered) := by
  refine ⟨⟨by decide, fun made => ?_⟩, ⟨by decide, fun made => ?_⟩, ⟨by decide, fun made => ?_⟩⟩
  · obtain ⟨-, genuine⟩ := producible_iff.mp made
    have event := genuine (honest "tx-1" .denied .remediated) (by simp [resubmitted])
    exact event.undenied rfl
  · obtain ⟨-, genuine⟩ := producible_iff.mp made
    have event := genuine (honest "tx-2" .draft .submitted) (by simp [foreign])
    have own : "tx-2" = "tx-1" := event.transactionId
    exact absurd own (by decide)
  · obtain ⟨-, genuine⟩ := producible_iff.mp made
    have event := genuine _ (List.mem_singleton_self _)
    exact absurd event.proofHash (by decide +kernel)

end Sample

end Exochain.ExoBcts
