/-
**The demo gateway — transitions of a stored decision.**

`POST /api/decisions/transition` reads the payload of a decision, moves it with the binding, and writes the
payload and the status column back in a second query. Requests of any number of clients take these two
steps in any order; the write does not ask for the row that was read.

The service is an instance of read, modify, write: the value is the row, an operation is a request, and
what is computed is the row after the transition. The binding makes a new clock for every call and reads
the wall clock once.

* `transitioned_cases` — what is computed from a row: nothing, or the payload with one more receipt.
* `Lossless` — what is asked of the row: the receipts are those of the acknowledged transitions, on a path
  of valid edges, and the status is the state.
* `inTurn_undisturbed` — requests that are handled one after the other meet the condition.
* `transitions_lossless_iff` — **the row is lossless in every state of exactly the runs in which each write
  finds the row that its request has read, and each state is sent as a string.**
-/

import Exochain.Foundation.Blake3
import Exochain.Foundation.ReadModifyWrite
import Exochain.Core.BctsEvidence
import Exochain.Forum.DecisionObject

set_option linter.unusedSectionVars false

namespace Exochain.GatewayApi

open Foundation ReadModifyWrite ExoCore DecisionForum

/-! ### The binding -/

/-- The target state of a request: a string, or an object with the string as its one key, which the parser
takes for the same state. -/
inductive ToState where
  | string (name : String)
  | object (name : String)
  deriving DecidableEq, Repr

/-- The states, in the order of their declaration. -/
def allStates : List BctsState :=
  [.draft, .submitted, .identityResolved, .consentValidated, .deliberated, .verified, .governed,
    .approved, .executed, .recorded, .closed, .denied, .escalated, .remediated]

/-- Parse the name of a state. -/
def parseState (name : String) : Option BctsState := allStates.find? (·.display = name)

namespace ToState

/-- The name in a target. -/
def name : ToState → String
  | string name => name
  | object name => name

/-- What the driver writes into a text column: a string as it is, an object as its JSON. -/
def column : ToState → String
  | string name => name
  | object name => "\x7b\"" ++ name ++ "\":null\x7d"

end ToState

/-- A request for a transition, with the answer of the wall clock. -/
structure TransitionRequest where
  toState : ToState
  actorDid : String
  wall : UInt64
  deriving DecidableEq

/-- The columns of a decision that the endpoint reads and writes. -/
structure DecisionRow where
  payload : DecisionObject
  status : String

section Service

variable (cbor : Cbor ReceiptInput) (blake3 : Blake3)

/-- What the binding throws. -/
inductive WasmError where
  | json
  | did (error : ExoError)
  | transition (error : ForumError)

/-- Transition a decision to a new state. -/
def wasmTransitionDecision (decision : DecisionObject) (toState actorDid : String) (wall : UInt64) :
    Except WasmError DecisionObject := do
  let some toState := parseState toState | throw .json
  let actor ← (Did.new actorDid).mapError .did
  match decision.transition cbor blake3 ⟨toState, actor, HybridClock.new, wall⟩ with
  | (.error error, _, _) => throw (.transition error)
  | (.ok _, decision, _) => return decision

/-- The row that a request computes from the one it reads; none if the binding throws. -/
def transitioned (row : DecisionRow) (request : TransitionRequest) : Option DecisionRow :=
  match wasmTransitionDecision cbor blake3 row.payload request.toState.name request.actorDid
      request.wall with
  | .error _ => none
  | .ok updated => some ⟨updated, request.toState.column⟩

/-- The service: the row, the requests between their two queries, and those answered with 200. -/
abbrev Service := Store DecisionRow TransitionRequest

/-- One query. -/
abbrev query : Service → Event TransitionRequest → Service := step (transitioned cbor blake3)

end Service

/-! ### What is computed -/

section Transitions

variable {cbor : Cbor ReceiptInput} {blake3 : Blake3}

/-- A receipt of an edge of the table from a state. -/
def Edge (state : BctsState) (receipt : LifecycleReceipt) : Prop :=
  receipt.fromState = state ∧ state.canTransitionTo receipt.toState = true

theorem display_of_parseState {name : String} {state : BctsState}
    (parsed : parseState name = some state) : state.display = name := by
  simpa using List.find?_some parsed

/-- What the binding returns is what the decision's own transition makes of it. -/
theorem wasmTransitionDecision_eq_ok {decision updated : DecisionObject} {toState actorDid : String}
    {wall : UInt64}
    (returned : wasmTransitionDecision cbor blake3 decision toState actorDid wall = .ok updated) :
    ∃ target actor, parseState toState = some target ∧
      (decision.transition cbor blake3 ⟨target, actor, HybridClock.new, wall⟩).1 = .ok () ∧
      updated = (decision.transition cbor blake3 ⟨target, actor, HybridClock.new, wall⟩).2.1 := by
  unfold wasmTransitionDecision at returned
  cases parsed : parseState toState with
  | none =>
    rw [parsed] at returned
    cases returned
  | some target =>
    rw [parsed] at returned
    obtain ⟨actor, _, returned⟩ := bind_eq_ok_iff.mp returned
    refine ⟨target, actor, rfl, ?_⟩
    rcases moved : decision.transition cbor blake3 ⟨target, actor, HybridClock.new, wall⟩ with
      ⟨answer | ⟨⟩, after, clock⟩
    · rw [moved] at returned
      cases returned
    · rw [moved] at returned
      cases returned
      exact ⟨rfl, rfl⟩

/-- **What a request computes**: the payload with one more receipt, of a valid edge to the state that it
names. -/
theorem transitioned_cases {row result : DecisionRow} {request : TransitionRequest}
    (computed : transitioned cbor blake3 row request = some result) :
    ∃ receipt, result = ⟨row.payload.record receipt, request.toState.column⟩ ∧
      Edge row.payload.state receipt ∧ receipt.toState.display = request.toState.name := by
  unfold transitioned at computed
  cases returned : wasmTransitionDecision cbor blake3 row.payload request.toState.name
      request.actorDid request.wall with
  | error error =>
    rw [returned] at computed
    cases computed
  | ok updated =>
    rw [returned] at computed
    cases computed
    obtain ⟨target, actor, parsed, answer, rfl⟩ := wasmTransitionDecision_eq_ok returned
    rcases DecisionObject.transition_cases cbor blake3 row.payload
        ⟨target, actor, HybridClock.new, request.wall⟩ with
      ⟨error, failed, _⟩ | ⟨receiptHash, _, after, _, allowed, _⟩
    · rw [answer] at failed
      cases failed
    · rw [after]
      exact ⟨_, rfl, ⟨rfl, allowed⟩, display_of_parseState parsed⟩

/-- Every transition adds one receipt. -/
theorem transitioned_advances (row : DecisionRow) (request : TransitionRequest) (result : DecisionRow)
    (computed : transitioned cbor blake3 row request = some result) :
    result.payload.receiptChain.length = row.payload.receiptChain.length + 1 := by
  obtain ⟨receipt, rfl, _⟩ := transitioned_cases computed
  show (row.payload.receiptChain ++ [receipt]).length = _
  rw [List.length_append, List.length_singleton]

/-- No state has the name of an object. -/
theorem column_eq_display_iff {toState : ToState} {state : BctsState}
    (named : state.display = toState.name) :
    toState.column = state.display ↔ ∃ name, toState = .string name := by
  cases toState with
  | string name => exact iff_of_true named.symm ⟨name, rfl⟩
  | object name =>
    refine iff_of_false (fun same => ?_) nofun
    have heads := congrArg (fun text : String => text.toList.head?) same
    simp only [ToState.column, String.toList_append] at heads
    cases state <;> simp [BctsState.display] at heads

/-! ### What is asked of the row -/

/-- The receipt that a 200 answer shows: the last one of the payload in it. -/
def answeredReceipt (answered : Pending DecisionRow TransitionRequest) : Option LifecycleReceipt :=
  answered.result.payload.receiptChain.getLast?

/-- The receipts are a path of valid edges from the draft to the state of the payload. -/
def OnPath (payload : DecisionObject) : Prop :=
  Threaded Edge LifecycleReceipt.toState .draft payload.receiptChain ∧
    handedOn LifecycleReceipt.toState .draft payload.receiptChain = payload.state

/-- **No acknowledged transition is lost**: the receipts are those of the start and of the acknowledged
transitions, in order; they are a path of valid edges to the state; the status column is the state. -/
structure Lossless (start : DecisionRow) (service : Service) : Prop where
  receipts : service.value.payload.receiptChain =
    start.payload.receiptChain ++ service.acknowledged.filterMap answeredReceipt
  path : OnPath service.value.payload
  status : service.value.status = service.value.payload.state.display

/-- A write finds the row that its request has read, and the request sends its state as a string. -/
def Undisturbed (service : Service) : Event TransitionRequest → Prop
  | .read _ _ => True
  | .write request => ∀ pending, service.find request = some pending →
      pending.read = service.value ∧ ∃ name, pending.op.toState = .string name

theorem onPath_record {payload : DecisionObject} {receipt : LifecycleReceipt} (path : OnPath payload)
    (edge : Edge payload.state receipt) : OnPath (payload.record receipt) := by
  refine ⟨threaded_concat_iff.mpr ⟨path.1, ?_⟩, handedOn_concat _ _ _⟩
  rw [path.2]
  exact edge

/-- A request that has read the present row answers with one more receipt. -/
theorem lossless_write_iff {start : DecisionRow} {service : Service}
    {pending : Pending DecisionRow TransitionRequest}
    (tracked : Tracked (transitioned cbor blake3) start service) (lossless : Lossless start service)
    (member : pending ∈ service.pending) :
    Lossless start (service.write pending) ↔
      pending.read = service.value ∧ ∃ name, pending.op.toState = .string name := by
  obtain ⟨receipt, result, edge, named⟩ := transitioned_cases (tracked.computed pending member)
  have answered : (service.acknowledged ++ [pending]).filterMap answeredReceipt =
      service.acknowledged.filterMap answeredReceipt ++ [receipt] := by
    rw [List.filterMap_append]
    simp [answeredReceipt, result, DecisionObject.record]
  constructor
  · intro after
    have receipts := after.receipts
    have status := after.status
    rw [show (service.write pending).value = pending.result from rfl, result] at receipts status
    rw [show (service.write pending).acknowledged = service.acknowledged ++ [pending] from rfl,
      answered, ← List.append_assoc, ← lossless.receipts] at receipts
    have chains : pending.read.payload.receiptChain = service.value.payload.receiptChain :=
      List.append_cancel_right receipts
    refine ⟨tracked.read_eq_of_version transitioned_advances member (congrArg List.length chains), ?_⟩
    exact (column_eq_display_iff named).mp status
  · rintro ⟨current, text⟩
    rw [current] at result edge
    refine ⟨?_, ?_, ?_⟩
    · show pending.result.payload.receiptChain = _ ++ (service.acknowledged ++ [pending]).filterMap _
      rw [answered, ← List.append_assoc, ← lossless.receipts, result]
      rfl
    · show OnPath pending.result.payload
      rw [result]
      exact onPath_record lossless.path edge
    · show pending.result.status = pending.result.payload.state.display
      rw [result]
      exact (column_eq_display_iff named).mpr text

/-- A step keeps the row lossless exactly if it is undisturbed. -/
theorem lossless_query_iff {start : DecisionRow} (service : Service) (event : Event TransitionRequest)
    (tracked : Tracked (transitioned cbor blake3) start service) (lossless : Lossless start service) :
    Lossless start (query cbor blake3 service event) ↔ Undisturbed service event := by
  have outcome := step_outcome (transitioned cbor blake3) service event
  unfold query
  generalize step (transitioned cbor blake3) service event = after at outcome ⊢
  cases outcome with
  | nothing missing =>
    refine iff_of_true lossless ?_
    cases event with
    | read request op => trivial
    | write request =>
      intro pending found
      rw [missing request rfl] at found
      cases found
  | begun => exact iff_of_true ⟨lossless.receipts, lossless.path, lossless.status⟩ trivial
  | @written request pending found =>
    rw [lossless_write_iff tracked lossless (mem_of_find found)]
    constructor
    · intro fine other same
      rw [found, Option.some.injEq] at same
      exact same ▸ fine
    · exact fun undisturbed => undisturbed pending found

theorem Undisturbed.current {service : Service} {event : Event TransitionRequest}
    (undisturbed : Undisturbed service event) : Current service event := by
  cases event with
  | read request op => trivial
  | write request => exact fun pending found => (undisturbed pending found).1

/-- **When no acknowledged transition is lost**: the row of a decision is lossless in every state of a
run, with any interleaving of the queries of any number of requests, exactly if every write of the run
finds the row that its request has read, and its request sends the state as a string. -/
theorem transitions_lossless_iff (cbor : Cbor ReceiptInput) (blake3 : Blake3) {start : DecisionRow}
    (path : OnPath start.payload) (status : start.status = start.payload.state.display)
    (events : List (Event TransitionRequest)) :
    Throughout (query cbor blake3) (Lossless start) (Store.new start) events ↔
      Along (query cbor blake3) Undisturbed (Store.new start) events := by
  refine throughout_iff_along_of_stronger
    (I := fun service => Tracked (transitioned cbor blake3) start service ∧ Lossless start service)
    (fun _ both => both.2) (fun service event both => lossless_query_iff service event both.1 both.2)
    (fun service event both undisturbed => ?_) ?_
  · exact ⟨tracked_step service event both.1 undisturbed.current,
      (lossless_query_iff service event both.1 both.2).mpr undisturbed⟩
  · exact ⟨tracked_new start, (List.append_nil _).symm, path, status⟩

/-! ### Requests in turn -/

/-- The queries of requests that are handled one after the other. -/
def inTurn (requests : List TransitionRequest) : List (Event TransitionRequest) :=
  requests.flatMap fun request => [.read 0 request, .write 0]

/-- **Requests in turn do not disturb each other.** -/
theorem inTurn_undisturbed {service : Service} (idle : service.pending = [])
    {requests : List TransitionRequest}
    (strings : ∀ request ∈ requests, ∃ name, request.toState = .string name) :
    Along (query cbor blake3) Undisturbed service (inTurn requests) := by
  induction requests generalizing service with
  | nil => exact along_nil
  | cons request requests ih =>
    obtain ⟨here, later⟩ := List.forall_mem_cons.mp strings
    have vacant : service.find 0 = none := by rw [Store.find, idle]; rfl
    rw [inTurn, List.flatMap_cons, List.cons_append, List.cons_append, List.nil_append,
      along_cons_iff, along_cons_iff]
    refine ⟨trivial, ?_⟩
    rw [query, step_read _ vacant]
    cases transitioned cbor blake3 service.value request with
    | none =>
      have write : step (transitioned cbor blake3) service (.write 0) = service := by rw [step, vacant]
      refine ⟨fun pending found => ?_, ?_⟩
      · rw [vacant] at found
        cases found
      · rw [write]
        exact ih idle later
    | some result =>
      have begun : (service.begin ⟨0, request, service.value, result⟩).find 0 =
          some ⟨0, request, service.value, result⟩ := by
        rw [Store.find, Store.begin, idle]
        rfl
      refine ⟨fun pending found => ?_, ?_⟩
      · rw [begun, Option.some.injEq] at found
        subst found
        exact ⟨rfl, here⟩
      · show Along _ _ (step _ (service.begin _) _) _
        rw [step, begun]
        refine ih ?_ later
        show ((service.pending ++ [_]).filter _) = []
        rw [idle]
        simp

end Transitions

namespace TwoClients

/-- A decision as it is created, with its status. -/
def created : DecisionRow :=
  ⟨DecisionObject.new (FixedBytes.fill 16 1) "Charter" .operational .zero ⟨1000, 0⟩, "Draft"⟩

/-- A request of a client. -/
def request (target actor : String) (wall : UInt64) : TransitionRequest :=
  ⟨.string target, "did:exo:" ++ actor, wall⟩

def requests : List TransitionRequest :=
  [request "Submitted" "alice" 2000, request "IdentityResolved" "bob" 3000]

/-- Two requests that both read before either writes. -/
def atOnce : List (Event TransitionRequest) :=
  [.read 1 (request "Submitted" "alice" 2000), .read 2 (request "Submitted" "bob" 2001), .write 1,
    .write 2]

theorem onPath_created : OnPath created.payload := by
  refine ⟨?_, rfl⟩
  show True
  trivial

/-- In turn nothing is lost. -/
theorem inTurn_lossless :
    Throughout (query Cbor.receipt Blake3.hash) (Lossless created) (Store.new created)
      (inTurn requests) ∧
      (run (query Cbor.receipt Blake3.hash) (Store.new created)
        (inTurn requests)).acknowledged.length = 2 := by
  refine ⟨(transitions_lossless_iff Cbor.receipt Blake3.hash onPath_created rfl _).mpr ?_,
    by decide +kernel⟩
  exact inTurn_undisturbed rfl fun request member => by
    rcases List.mem_cons.mp member with rfl | other
    · exact ⟨_, rfl⟩
    · rw [List.mem_singleton.mp other]
      exact ⟨_, rfl⟩

/-- **At once the first of two acknowledged transitions is lost.** -/
theorem atOnce_loses_alice :
    ¬ ∀ events : List (Event TransitionRequest),
      Throughout (query Cbor.receipt Blake3.hash) (Lossless created) (Store.new created) events := by
  intro claimed
  have receipts := (claimed atOnce).last.receipts
  revert receipts
  decide +kernel

end TwoClients

end Exochain.GatewayApi
