/-
**`exo-gateway` — the middleware chain of a request.**

A request is authenticated, checked for consent and for the verdict of governance, and audited, in this
order; each stage can refuse it. The audit log is written by the last stage. What the system gives a call
comes with it: the clock at the freshness check, the clock at the audit and an identifier.

* `processRequest_cases` — what a call can do: it is refused by one of the stages and leaves the log as it
  is, or it succeeds and adds its entry.
* `run_processed` — the log after any run: what it held, then the entries of the calls that succeeded.
* `requests_audited_iff` — **every authenticated request is audited exactly in the runs that refuse no
  authenticated request.** A refusal leaves before the audit is reached.
-/

import Exochain.Foundation.Run
import Exochain.Core.Types

namespace Exochain.ExoGateway

open Foundation ExoCore

/-! ### Requests -/

/-- The errors of the chain. -/
inductive GatewayError where
  | authenticationFailed (reason : String)
  | consentDenied (reason : String)
  | governanceDenied (reason : String)
  | badRequest (message : String)
  deriving DecidableEq, Repr

/-- A signed request. -/
structure Request where
  actorDid : String
  action : String
  bodyHash : Hash256
  signature : Signature
  timestamp : Timestamp
  deriving DecidableEq

/-- The actor of an authenticated request. -/
structure AuthenticatedActor where
  did : Did
  authenticatedAt : Timestamp
  deriving DecidableEq

/-- The verdict of governance. -/
inductive Verdict where
  | allow
  | deny (reason : String)
  | escalate (reason : String)
  deriving DecidableEq, Repr

/-- An entry of the audit log. -/
structure AuditEntry where
  actor : Did
  action : String
  timestamp : Timestamp
  outcome : String
  deriving DecidableEq

/-- The audit log, the list of its entries. -/
abbrev AuditLog := List AuditEntry

/-- The routes. -/
inductive Route where
  | createTransaction
  | transitionState
  | queryTransaction
  | getReceipt
  | resolveIdentity
  | registerIdentity
  | deliberate
  | vote
  | challenge
  deriving DecidableEq, Repr

/-- What a request is answered with. -/
structure RouteResult where
  route : Route
  status : String
  correlationId : Uuid
  deriving DecidableEq

/-! ### The stages -/

/-- The clock as a timestamp, from its milliseconds. -/
def nowUtc (millis : UInt64) : Timestamp := ⟨millis, 0⟩

/-- How far the time of a request may be from the clock, five minutes. -/
def freshnessWindowMs : ℕ := 300000

/-- Refuse a request whose time is too far from the clock. -/
def checkFreshness (millis : UInt64) (timestamp : Timestamp) : Except GatewayError Unit :=
  let nowMs := (nowUtc millis).physicalMs.toNat
  let skewMs := max nowMs timestamp.physicalMs.toNat - min nowMs timestamp.physicalMs.toNat
  if freshnessWindowMs < skewMs then
    .error (.authenticationFailed ("request timestamp outside freshness window: skew " ++
      toString skewMs ++ "ms (max " ++ toString freshnessWindowMs ++ "ms)"))
  else .ok ()

/-- Authenticate a request: the format of the identifier, a signature that is there, a fresh time. -/
def authenticate (millis : UInt64) (request : Request) : Except GatewayError AuthenticatedActor := do
  let did ← (Did.new request.actorDid).mapError fun _ =>
    .authenticationFailed ("invalid DID: " ++ request.actorDid)
  if request.signature.isEmpty then throw (.authenticationFailed "empty signature")
  checkFreshness millis request.timestamp
  return ⟨did, request.timestamp⟩

/-- The consent check; denied unless it is granted. -/
def consentMiddleware (actor : Did) (consentGranted : Bool) : Except GatewayError Unit :=
  if consentGranted then .ok () else .error (.consentDenied ("no consent for " ++ actor.value))

/-- The governance check. -/
def governanceMiddleware : Verdict → Except GatewayError Unit
  | .allow => .ok ()
  | .deny reason => .error (.governanceDenied reason)
  | .escalate reason => .error (.governanceDenied ("escalated: " ++ reason))

/-- Record an audit entry; the zero timestamp is refused. -/
def auditMiddleware (actor : Did) (action outcome : String) (timestamp : Timestamp) (log : AuditLog) :
    Except GatewayError AuditLog :=
  if timestamp = .zero then
    .error (.badRequest
      "audit timestamp must not be Timestamp::ZERO; provide a real HLC timestamp")
  else .ok (log ++ [⟨actor, action, timestamp, outcome⟩])

/-- One call of `processRequest`: its arguments, and what the system gives it. -/
structure RequestCall where
  request : Request
  route : Route
  consent : Bool
  verdict : Verdict
  authenticatedMs : UInt64
  auditedMs : UInt64
  uuid : Uuid
  deriving DecidableEq

/-- Take a request through the whole chain. The answer comes with the log after the call. -/
def processRequest (log : AuditLog) (call : RequestCall) :
    Except GatewayError RouteResult × AuditLog :=
  let done : Except GatewayError (RouteResult × AuditLog) := do
    let actor ← authenticate call.authenticatedMs call.request
    consentMiddleware actor.did call.consent
    governanceMiddleware call.verdict
    let result : RouteResult := ⟨call.route, "ok", call.uuid⟩
    let now := nowUtc call.auditedMs
    let log ← auditMiddleware actor.did call.request.action "success" now log
    return (result, log)
  match done with
  -- an early return has not touched the log
  | .error error => (.error error, log)
  | .ok (result, log) => (.ok result, log)

/-- The log after a call. -/
def processed (log : AuditLog) (call : RequestCall) : AuditLog := (processRequest log call).2

/-! ### What one call can do -/

section Calls

variable {log : AuditLog} {call : RequestCall}

/-- The entry that a call writes for its actor. -/
def successEntry (call : RequestCall) (actor : AuthenticatedActor) : AuditEntry :=
  ⟨actor.did, call.request.action, nowUtc call.auditedMs, "success"⟩

/-- The stages after authentication let the call pass. -/
def Permitted (call : RequestCall) : Prop := call.consent = true ∧ call.verdict = .allow

instance (call : RequestCall) : Decidable (Permitted call) :=
  inferInstanceAs (Decidable (_ ∧ _))

theorem processRequest_of_unauthenticated {error : GatewayError}
    (failed : authenticate call.authenticatedMs call.request = .error error) :
    processRequest log call = (.error error, log) := by
  rw [processRequest, failed]
  rfl

/-- A refusal after authentication is an error that leaves the log as it is. -/
theorem processRequest_of_refused (log : AuditLog) {actor : AuthenticatedActor}
    (authenticated : authenticate call.authenticatedMs call.request = .ok actor)
    (refused : ¬ Permitted call) : ∃ error, processRequest log call = (.error error, log) := by
  rw [processRequest, authenticated]
  cases consent : call.consent with
  | false => exact ⟨.consentDenied ("no consent for " ++ actor.did.value), rfl⟩
  | true =>
    cases verdict : call.verdict with
    | allow => exact absurd ⟨consent, verdict⟩ refused
    | deny reason => exact ⟨.governanceDenied reason, rfl⟩
    | escalate reason => exact ⟨.governanceDenied ("escalated: " ++ reason), rfl⟩

theorem nowUtc_ne_zero {millis : UInt64} (clocked : millis ≠ 0) : nowUtc millis ≠ .zero := by
  intro zero
  exact clocked (congrArg Timestamp.physicalMs zero)

/-- A permitted call succeeds and writes its entry. -/
theorem processRequest_of_permitted {actor : AuthenticatedActor}
    (authenticated : authenticate call.authenticatedMs call.request = .ok actor)
    (permitted : Permitted call) (clocked : call.auditedMs ≠ 0) :
    processRequest log call =
      (.ok ⟨call.route, "ok", call.uuid⟩, log ++ [successEntry call actor]) := by
  obtain ⟨consent, verdict⟩ := permitted
  have written : auditMiddleware actor.did call.request.action "success" (nowUtc call.auditedMs) log =
      .ok (log ++ [successEntry call actor]) := if_neg (nowUtc_ne_zero clocked)
  rw [processRequest, authenticated, consent, verdict]
  simp [consentMiddleware, governanceMiddleware, bind, Except.bind, written, pure, Except.pure]

/-- **What a call can do**, with a clock that is not zero. -/
theorem processRequest_cases (log : AuditLog) (clocked : call.auditedMs ≠ 0) :
    (∃ error, authenticate call.authenticatedMs call.request = .error error ∧
      processRequest log call = (.error error, log)) ∨
    (∃ actor error, authenticate call.authenticatedMs call.request = .ok actor ∧ ¬ Permitted call ∧
      processRequest log call = (.error error, log)) ∨
    ∃ actor, authenticate call.authenticatedMs call.request = .ok actor ∧ Permitted call ∧
      processRequest log call =
        (.ok ⟨call.route, "ok", call.uuid⟩, log ++ [successEntry call actor]) := by
  cases authenticated : authenticate call.authenticatedMs call.request with
  | error error => exact .inl ⟨error, rfl, processRequest_of_unauthenticated authenticated⟩
  | ok actor =>
    by_cases permitted : Permitted call
    · exact .inr (.inr ⟨actor, rfl, permitted,
        processRequest_of_permitted authenticated permitted clocked⟩)
    · obtain ⟨error, answer⟩ := processRequest_of_refused log authenticated permitted
      exact .inr (.inl ⟨actor, error, rfl, permitted, answer⟩)

end Calls

/-! ### Runs of requests -/

/-- The entry names the actor, the action, and whether the call succeeded. -/
structure Names (entry : AuditEntry) (actor : AuthenticatedActor) (call : RequestCall)
    (answer : Except GatewayError RouteResult) : Prop where
  actor : entry.actor = actor.did
  action : entry.action = call.request.action
  outcome : entry.outcome = "success" ↔ ∃ result, answer = .ok result

/-- **What is asked of a call**: exactly one more entry, which names it, if the request is
authenticated, whatever the answer; none if it is not. What was there stays. -/
def Audited (log : AuditLog) (call : RequestCall) : Prop :=
  match authenticate call.authenticatedMs call.request with
  | .error _ => processed log call = log
  | .ok actor => ∃ entry, processed log call = log ++ [entry] ∧
      Names entry actor call (processRequest log call).1

/-- If the request is authenticated, the stages after that let it pass. -/
def PermittedIfAuthenticated (call : RequestCall) : Prop :=
  ∀ actor, authenticate call.authenticatedMs call.request = .ok actor →
    call.consent = true ∧ call.verdict = .allow

/-- One call is audited exactly if it is not refused after authentication. -/
theorem audited_iff (log : AuditLog) {call : RequestCall} (clocked : call.auditedMs ≠ 0) :
    Audited log call ↔ PermittedIfAuthenticated call := by
  unfold Audited PermittedIfAuthenticated processed
  rcases processRequest_cases log clocked with
    ⟨error, failed, answer⟩ | ⟨actor, error, authenticated, refused, answer⟩ |
      ⟨actor, authenticated, permitted, answer⟩
  · rw [failed, answer]
    exact iff_of_true rfl nofun
  · rw [authenticated, answer]
    refine iff_of_false ?_ fun all => refused (all actor rfl)
    rintro ⟨entry, grown, _⟩
    simp at grown
  · rw [authenticated, answer]
    refine iff_of_true ⟨successEntry call actor, rfl, rfl, rfl, ?_⟩ fun _ _ => permitted
    exact iff_of_true rfl ⟨_, rfl⟩

/-- The entry that a call writes, if it writes one. -/
def entryOf (call : RequestCall) : Option AuditEntry :=
  match authenticate call.authenticatedMs call.request with
  | .error _ => none
  | .ok actor => if Permitted call then some (successEntry call actor) else none

/-- **The log after a run**: what it held, then the entries of the calls that succeeded, in order. -/
theorem run_processed (log : AuditLog) (calls : List RequestCall)
    (clocked : ∀ call ∈ calls, call.auditedMs ≠ 0) :
    run processed log calls = log ++ calls.filterMap entryOf := by
  induction calls generalizing log with
  | nil => rw [run_nil, List.filterMap_nil, List.append_nil]
  | cons call calls ih =>
    obtain ⟨here, later⟩ := List.forall_mem_cons.mp clocked
    have step : processed log call = log ++ (entryOf call).toList := by
      unfold processed entryOf
      rcases processRequest_cases log here with
        ⟨error, failed, answer⟩ | ⟨actor, error, authenticated, refused, answer⟩ |
          ⟨actor, authenticated, permitted, answer⟩
      · simp [failed, answer]
      · simp [authenticated, answer, refused]
      · simp [authenticated, answer, permitted]
    rw [run_cons, step, ih _ later, List.append_assoc, List.filterMap_cons]
    cases entryOf call with
    | none => rfl
    | some entry => rfl

/-- **When every authenticated request is audited**: in the runs that refuse none of them, for want of
consent or by the verdict, and in no other. -/
theorem requests_audited_iff (log : AuditLog) (calls : List RequestCall)
    (clocked : ∀ call ∈ calls, call.auditedMs ≠ 0) :
    Along processed Audited log calls ↔ ∀ call ∈ calls, PermittedIfAuthenticated call := by
  induction calls generalizing log with
  | nil => exact iff_of_true along_nil fun _ member => absurd member List.not_mem_nil
  | cons call calls ih =>
    obtain ⟨here, later⟩ := List.forall_mem_cons.mp clocked
    rw [along_cons_iff, audited_iff log here, ih _ later, List.forall_mem_cons]

namespace RefusedRequest

/-- A signed request of alice at one second past the epoch. -/
def request : Request :=
  ⟨"did:exo:alice", "transfer", .zero, .ed25519 (FixedBytes.fill 64 1), ⟨1000, 0⟩⟩

/-- The request without consent, and with consent. -/
def unconsented : RequestCall :=
  ⟨request, .createTransaction, false, .allow, 1000, 1000, FixedBytes.fill 16 1⟩

def consented : RequestCall := { unconsented with consent := true }

/-- The request without a signature, and too late. -/
def unsigned : RequestCall := { unconsented with request := { request with signature := .empty } }

def late : RequestCall := { unconsented with authenticatedMs := 400000 }

/-- Requests with consent are audited, among some that are not authenticated. -/
theorem consented_audited :
    Along processed Audited [] [unsigned, consented, late, consented] := by
  have unauthenticated : ∀ call ∈ [unsigned, late],
      (authenticate call.authenticatedMs call.request).toOption = none := by decide +kernel
  refine (requests_audited_iff [] _ (by decide)).mpr fun call member actor authenticated => ?_
  rw [List.mem_cons, List.mem_cons, List.mem_cons, List.mem_singleton] at member
  rcases member with rfl | rfl | rfl | rfl
  · exact nomatch (unauthenticated unsigned (by simp)).symm.trans (congrArg Except.toOption authenticated)
  · exact ⟨rfl, rfl⟩
  · exact nomatch (unauthenticated late (by simp)).symm.trans (congrArg Except.toOption authenticated)
  · exact ⟨rfl, rfl⟩

/-- **A request without consent leaves no trace.** -/
theorem refusal_unaudited :
    ¬ ∀ (log : AuditLog) (calls : List RequestCall), (∀ call ∈ calls, call.auditedMs ≠ 0) →
      Along processed Audited log calls := by
  intro claimed
  have audited := claimed [] [unconsented] (by decide) [] unconsented [] rfl
  have authenticated : authenticate unconsented.authenticatedMs unconsented.request =
      .ok ⟨⟨"did:exo:alice"⟩, ⟨1000, 0⟩⟩ := by decide +kernel
  unfold Audited at audited
  rw [authenticated] at audited
  obtain ⟨entry, written, _⟩ := audited
  have unwritten : processed (run processed [] []) unconsented = [] := by decide +kernel
  rw [unwritten] at written
  cases written

end RefusedRequest

end Exochain.ExoGateway
