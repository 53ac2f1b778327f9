/-
**`exo-gateway` — governance mutations and their audit trails.**

Every decision has an audit trail. The six mutations on decisions append to it through one function,
which takes its sequence numbers from a counter that all trails share and chains a receipt to the last
entry. Where the decision does not exist, that function does nothing. Five mutations look the decision up
or create it; a disclosure does not, and is acknowledged without an entry when there is no decision.

The identifiers and the times that the system gives a mutation come with the call. The counter is a
signed 32-bit number.

* `appendAudit_of_found`, `step_cases` — what a mutation can do.
* `Acknowledged` — what is asked of one call: one entry more in the trail it names, or no change.
* `acknowledged_step`, `sequenced_step` — what a call does under the conditions, to the trails and to
  their numbers.
* **`mutations_audited`** — the law over every run of mutations that meets the conditions.
* `Sample.disclosure_lost` — a disclosure that is acknowledged and recorded nowhere.
-/

import Exochain.Foundation.Run
import Exochain.Foundation.Collections
import Exochain.Foundation.Codes
import Exochain.Foundation.Blake3
import Exochain.Core.Types

namespace Exochain.ExoGateway

open Foundation ExoCore

/-! ### Records -/

/-- A vote on a decision. -/
structure GqlVote where
  voter : String
  choice : String
  rationale : Option String
  timestamp : String
  deriving DecidableEq, Repr

/-- A challenge to a decision. -/
structure GqlChallenge where
  id : String
  grounds : String
  status : String
  deriving DecidableEq, Repr

/-- A governance decision. -/
structure GqlDecision where
  id : String
  tenantId : String
  status : String
  title : String
  decisionClass : String
  author : String
  createdAt : String
  votes : List GqlVote
  challenges : List GqlChallenge
  contentHash : String
  deriving DecidableEq, Repr

/-- An emergency action on a decision. -/
structure GqlEmergencyAction where
  id : String
  decisionId : String
  ratificationDeadline : String
  justification : String
  tenantId : String
  deriving DecidableEq, Repr

/-- The disclosure of a conflict of interest. -/
structure GqlConflictDisclosure where
  discloser : String
  description : String
  nature : String
  timestamp : String
  deriving DecidableEq, Repr

/-- An entry of an audit trail. -/
structure GqlAuditEntry where
  sequence : Int32
  eventType : String
  actor : String
  timestamp : String
  receiptHash : String
  deriving DecidableEq

/-- What a new decision is made from. -/
structure CreateDecisionInput where
  tenantId : String
  title : String
  body : String
  decisionClass : String
  deriving DecidableEq, Repr

/-- A decision with its trail. -/
structure DecisionRecord where
  decision : GqlDecision
  auditTrail : List GqlAuditEntry
  deriving DecidableEq

/-- The part of the state that the mutations on decisions read and write. -/
structure AppState where
  decisions : BTreeMap String DecisionRecord
  emergencyActions : BTreeMap String GqlEmergencyAction
  nextAuditSeq : Int32

/-- The mutations on decisions. -/
inductive Mutation where
  | createDecision (input : CreateDecisionInput)
  | advanceDecision (id newStatus : String) (reason : Option String)
  | castVote (decisionId choice : String) (rationale : Option String)
  | raiseChallenge (decisionId grounds : String)
  | takeEmergencyAction (decisionId justification : String)
  | discloseConflict (decisionId description nature : String)
  deriving DecidableEq, Repr

/-- A mutation with what the system gives it: a new identifier, the time, and the time at which the trail
is written. -/
structure Call where
  mutation : Mutation
  uuid : Uuid
  now : Timestamp
  auditedAt : Timestamp
  deriving DecidableEq

/-- What a mutation returns. -/
inductive Reply where
  | decision (decision : GqlDecision)
  | vote (vote : GqlVote)
  | challenge (challenge : GqlChallenge)
  | emergency (action : GqlEmergencyAction)
  | disclosure (disclosure : GqlConflictDisclosure)
  | failed (message : String)
  | stopped (fault : Fault)
  deriving DecidableEq, Repr

/-- The mutation was acknowledged. -/
def Reply.Acknowledges : Reply → Prop
  | .decision _ | .vote _ | .challenge _ | .emergency _ | .disclosure _ => True
  | .failed _ | .stopped _ => False

namespace AppState

variable (blake3 : Blake3) (build : Build)

/-- The state without decisions. -/
def new : AppState := ⟨∅, ∅, 1⟩

/-! ### The audit trail -/

/-- The receipt of an entry, chained to the last one of the trail. -/
def receiptOf (trail : List GqlAuditEntry) (eventType actor : String) (seq : Int32) : String :=
  let prevHash := (trail.getLast?.map GqlAuditEntry.receiptHash).getD Hash256.zero.display
  (Hash256.digest blake3 (textBytes (prevHash ++ "|" ++ eventType ++ "|" ++ actor ++ "|" ++
    toString seq.toInt))).display

/-- Append to the trail of a decision, if there is one. -/
def appendAudit (state : AppState) (decisionId eventType actor : String) (now : Timestamp) :
    Except Fault AppState :=
  match state.decisions[decisionId]? with
  | none => .ok state
  | some record =>
    let seq := state.nextAuditSeq
    if build.overflowChecks && seq = Int32.maxValue then .error .arithmeticOverflow
    else
      let entry : GqlAuditEntry :=
        { sequence := seq
          eventType := eventType
          actor := actor
          timestamp := now.display
          receiptHash := receiptOf blake3 record.auditTrail eventType actor seq }
      .ok
        { state with
          nextAuditSeq := seq + 1
          decisions := state.decisions.insert decisionId
            { record with auditTrail := record.auditTrail ++ [entry] } }

/-- Append to a trail and reply; an overflow stops the mutation where it is. -/
def audited (state : AppState) (decisionId eventType actor : String) (now : Timestamp)
    (reply : Reply) : Reply × AppState :=
  match state.appendAudit blake3 build decisionId eventType actor now with
  | .ok state => (reply, state)
  | .error fault => (.stopped fault, state)

/-- The hash of a decision. -/
def computeDecisionHash (decision : GqlDecision) : String :=
  (Hash256.digest blake3 (textBytes (decision.id ++ "|" ++ decision.status ++ "|" ++
    toString decision.votes.length))).display

/-! ### The mutations -/

/-- The message for a decision that does not exist. -/
def notFound (decisionId : String) : String := "decision " ++ decisionId ++ " not found"

/-- Store a changed decision under its identifier. -/
def setDecision (state : AppState) (id : String) (record : DecisionRecord) (decision : GqlDecision) :
    AppState :=
  { state with decisions := state.decisions.insert id { record with decision := decision } }

/-- Create a decision. -/
def createDecision (state : AppState) (input : CreateDecisionInput) (uuid : Uuid)
    (now auditedAt : Timestamp) : Reply × AppState :=
  let id := uuid.display
  let decision : GqlDecision :=
    { id := id
      tenantId := input.tenantId
      status := "CREATED"
      title := input.title
      decisionClass := input.decisionClass
      author := "system"
      createdAt := now.display
      votes := []
      challenges := []
      contentHash := (Hash256.digest blake3 (textBytes input.body)).display }
  let created : AppState := { state with decisions := state.decisions.insert id ⟨decision, []⟩ }
  created.audited blake3 build id "DecisionCreated" "system" auditedAt (.decision decision)

/-- Advance a decision to a status. -/
def advanceDecision (state : AppState) (id newStatus : String) (reason : Option String)
    (auditedAt : Timestamp) : Reply × AppState :=
  match state.decisions[id]? with
  | none => (.failed (notFound id), state)
  | some record =>
    let advanced : GqlDecision := { record.decision with status := newStatus }
    let decision : GqlDecision :=
      { advanced with contentHash := computeDecisionHash blake3 advanced }
    (state.setDecision id record decision).audited blake3 build id ("StatusAdvanced:" ++ newStatus)
      (reason.getD "system") auditedAt (.decision decision)

/-- The choices of a vote. -/
def validChoices : List String := ["APPROVE", "REJECT", "ABSTAIN"]

/-- The identity that stands in for the caller. -/
def caller : String := "did:exo:caller"

/-- Cast a vote. -/
def castVote (state : AppState) (decisionId choice : String) (rationale : Option String)
    (now auditedAt : Timestamp) : Reply × AppState :=
  if !validChoices.contains choice then
    (.failed ("invalid choice '" ++ choice ++ "'; must be one of APPROVE, REJECT, ABSTAIN"), state)
  else
    match state.decisions[decisionId]? with
    | none => (.failed (notFound decisionId), state)
    | some record =>
      if record.decision.votes.any (·.voter = caller) then
        (.failed "duplicate vote from this DID", state)
      else
        let vote : GqlVote := ⟨caller, choice, rationale, now.display⟩
        let voted : GqlDecision := { record.decision with votes := record.decision.votes ++ [vote] }
        let decision : GqlDecision := { voted with contentHash := computeDecisionHash blake3 voted }
        (state.setDecision decisionId record decision).audited blake3 build decisionId "VoteCast"
          caller auditedAt (.vote vote)

/-- Raise a challenge. -/
def raiseChallenge (state : AppState) (decisionId grounds : String) (uuid : Uuid)
    (auditedAt : Timestamp) : Reply × AppState :=
  match state.decisions[decisionId]? with
  | none => (.failed (notFound decisionId), state)
  | some record =>
    let challenge : GqlChallenge := ⟨uuid.display, grounds, "OPEN"⟩
    let contested : GqlDecision :=
      { record.decision with
        challenges := record.decision.challenges ++ [challenge]
        status := "CONTESTED" }
    let decision : GqlDecision :=
      { contested with contentHash := computeDecisionHash blake3 contested }
    (state.setDecision decisionId record decision).audited blake3 build decisionId
      ("ChallengeRaised:" ++ grounds) caller auditedAt (.challenge challenge)

/-- Take an emergency action, to be ratified within a day. -/
def takeEmergencyAction (state : AppState) (decisionId justification : String) (uuid : Uuid)
    (now auditedAt : Timestamp) : Reply × AppState :=
  match state.decisions[decisionId]? with
  | none => (.failed (notFound decisionId), state)
  | some record =>
    let deadlineMs := UInt64.ofNat (saturatingAdd 64 now.physicalMs.toNat 86400000)
    let action : GqlEmergencyAction :=
      { id := uuid.display
        decisionId := decisionId
        ratificationDeadline := Timestamp.display ⟨deadlineMs, 0⟩
        justification := justification
        tenantId := record.decision.tenantId }
    let taken : AppState :=
      { state with emergencyActions := state.emergencyActions.insert uuid.display action }
    taken.audited blake3 build decisionId ("EmergencyAction:" ++ justification) caller auditedAt
      (.emergency action)

/-- Disclose a conflict of interest; whether the decision exists is not asked. -/
def discloseConflict (state : AppState) (decisionId description nature : String)
    (now auditedAt : Timestamp) : Reply × AppState :=
  let disclosure : GqlConflictDisclosure := ⟨caller, description, nature, now.display⟩
  state.audited blake3 build decisionId ("ConflictDisclosed:" ++ nature) caller auditedAt
    (.disclosure disclosure)

/-- One mutation. -/
def step (state : AppState) (call : Call) : Reply × AppState :=
  match call.mutation with
  | .createDecision input =>
    state.createDecision blake3 build input call.uuid call.now call.auditedAt
  | .advanceDecision id newStatus reason =>
    state.advanceDecision blake3 build id newStatus reason call.auditedAt
  | .castVote decisionId choice rationale =>
    state.castVote blake3 build decisionId choice rationale call.now call.auditedAt
  | .raiseChallenge decisionId grounds =>
    state.raiseChallenge blake3 build decisionId grounds call.uuid call.auditedAt
  | .takeEmergencyAction decisionId justification =>
    state.takeEmergencyAction blake3 build decisionId justification call.uuid call.now
      call.auditedAt
  | .discloseConflict decisionId description nature =>
    state.discloseConflict blake3 build decisionId description nature call.now call.auditedAt

/-- The state after a mutation. -/
def next (state : AppState) (call : Call) : AppState := (state.step blake3 build call).2

/-! ### Trails -/

/-- The audit trail of a decision; empty if there is none. -/
def trail (state : AppState) (id : String) : List GqlAuditEntry :=
  (state.decisions[id]?.map DecisionRecord.auditTrail).getD []

/-- The trail of one decision has one entry more, numbered by the counter. -/
structure Records (state later : AppState) (id : String) (entry : GqlAuditEntry) : Prop where
  here : later.trail id = state.trail id ++ [entry]
  elsewhere : ∀ other, other ≠ id → later.trail other = state.trail other
  numbered : entry.sequence = state.nextAuditSeq
  counted : later.nextAuditSeq = state.nextAuditSeq + 1

/-- Only the trail of a decision is left to write: the decision exists, and trails and counter are as
they were. -/
structure Prepares (state prepared : AppState) (id : String) : Prop where
  found : ∃ record, prepared.decisions[id]? = some record
  trails : ∀ other, prepared.trail other = state.trail other
  counter : prepared.nextAuditSeq = state.nextAuditSeq

variable {state : AppState} {id : String}

theorem trail_of_found {record : DecisionRecord} (found : state.decisions[id]? = some record) :
    state.trail id = record.auditTrail := by
  rw [trail, found]
  rfl

theorem trail_of_missing (missing : id ∉ state.decisions) : state.trail id = [] := by
  rw [trail, BTreeMap.not_mem_iff.mp missing]
  rfl

/-- The trails after a record is stored. -/
theorem trail_insert (state : AppState) (id other : String) (record : DecisionRecord) :
    trail { state with decisions := state.decisions.insert id record } other =
      if other = id then record.auditTrail else state.trail other := by
  rw [trail, BTreeMap.getElem?_insert_eq_ite]
  by_cases same : other = id
  · rw [if_pos same.symm, if_pos same]
    rfl
  · rw [if_neg (Ne.symm same), if_neg same]
    rfl

/-- **Appending to the trail of a decision that exists** adds one entry, while the counter lasts. -/
theorem appendAudit_of_found (found : ∃ record, state.decisions[id]? = some record)
    (lasts : state.nextAuditSeq ≠ Int32.maxValue) (eventType actor : String) (now : Timestamp) :
    ∃ later entry, state.appendAudit blake3 build id eventType actor now = .ok later ∧
      Records state later id entry := by
  obtain ⟨record, found⟩ := found
  have counts : ¬ (build.overflowChecks && decide (state.nextAuditSeq = Int32.maxValue)) = true := by
    simp [lasts]
  rw [appendAudit, found]
  dsimp only
  rw [if_neg counts]
  refine ⟨_, ⟨state.nextAuditSeq, eventType, actor, now.display,
    receiptOf blake3 record.auditTrail eventType actor state.nextAuditSeq⟩, rfl, ?_, ?_, rfl, rfl⟩
  · rw [trail_of_found found]
    exact (trail_insert state id id _).trans (if_pos rfl)
  · intro other different
    exact (trail_insert state id other _).trans (if_neg different)

/-! ### What a mutation can do -/

/-- Storing a changed decision leaves its trail. -/
theorem setDecision_prepares {record : DecisionRecord} (found : state.decisions[id]? = some record)
    (decision : GqlDecision) : Prepares state (state.setDecision id record decision) id := by
  refine ⟨⟨_, Std.ExtTreeMap.getElem?_insert_self⟩, fun other => ?_, rfl⟩
  rw [setDecision, trail_insert]
  split
  next same => rw [same, trail_of_found found]
  next => rfl

/-- A new decision has an empty trail. -/
theorem insert_prepares (fresh : id ∉ state.decisions) (decision : GqlDecision) :
    Prepares state { state with decisions := state.decisions.insert id ⟨decision, []⟩ } id := by
  refine ⟨⟨_, Std.ExtTreeMap.getElem?_insert_self⟩, fun other => ?_, rfl⟩
  rw [trail_insert]
  split
  next same => rw [same, trail_of_missing fresh]
  next => rfl

/-- Emergency actions are not part of a trail. -/
theorem emergency_prepares (found : ∃ record, state.decisions[id]? = some record)
    (actions : BTreeMap String GqlEmergencyAction) :
    Prepares state { state with emergencyActions := actions } id :=
  ⟨found, fun _ => rfl, rfl⟩

/-- Writing the trail of a prepared state, and replying. -/
theorem audited_of_prepares {prepared : AppState} (prepares : Prepares state prepared id)
    (lasts : state.nextAuditSeq ≠ Int32.maxValue) (eventType actor : String) (now : Timestamp)
    (reply : Reply) (acknowledges : reply.Acknowledges) :
    ∃ given later entry, prepared.audited blake3 build id eventType actor now reply = (given, later) ∧
      given.Acknowledges ∧ Records state later id entry := by
  obtain ⟨later, entry, appended, records⟩ :=
    appendAudit_of_found blake3 build prepares.found (by rwa [prepares.counter]) eventType actor now
  refine ⟨reply, later, entry, by rw [audited, appended], acknowledges, ?_, ?_, ?_, ?_⟩
  · rw [records.here, prepares.trails]
  · intro other different
    rw [records.elsewhere other different, prepares.trails]
  · rw [records.numbered, prepares.counter]
  · rw [records.counted, prepares.counter]

end AppState

/-- The decision that a mutation names; a creation names the one it creates. -/
def Call.decisionId (call : Call) : String :=
  match call.mutation with
  | .createDecision _ => call.uuid.display
  | .advanceDecision id _ _ => id
  | .castVote decisionId _ _ | .raiseChallenge decisionId _ | .takeEmergencyAction decisionId _
  | .discloseConflict decisionId _ _ => decisionId

/-- A call that can be recorded: the decision it creates is new, the decision it discloses a conflict on
exists, and the counter has a next number. -/
def Call.Recordable (state : AppState) (call : Call) : Prop :=
  state.nextAuditSeq ≠ Int32.maxValue ∧
    match call.mutation with
    | .createDecision _ => call.decisionId ∉ state.decisions
    | .discloseConflict .. => call.decisionId ∈ state.decisions
    | _ => True

instance Call.decidableRecordable (state : AppState) :
    ∀ call : Call, Decidable (call.Recordable state)
  | ⟨.createDecision _, uuid, _, _⟩ =>
    inferInstanceAs (Decidable (state.nextAuditSeq ≠ Int32.maxValue ∧ uuid.display ∉ state.decisions))
  | ⟨.discloseConflict decisionId _ _, _, _, _⟩ =>
    inferInstanceAs (Decidable (state.nextAuditSeq ≠ Int32.maxValue ∧ decisionId ∈ state.decisions))
  | ⟨.advanceDecision .., _, _, _⟩ | ⟨.castVote .., _, _, _⟩ | ⟨.raiseChallenge .., _, _, _⟩
  | ⟨.takeEmergencyAction .., _, _, _⟩ =>
    inferInstanceAs (Decidable (state.nextAuditSeq ≠ Int32.maxValue ∧ True))

namespace AppState

variable (blake3 : Blake3) (build : Build) {state : AppState} {call : Call}

/-- **What a mutation can do** if it can be recorded: fail and leave the state, or reply and record. -/
theorem step_cases (recordable : call.Recordable state) :
    (∃ message, state.step blake3 build call = (.failed message, state)) ∨
      ∃ reply later entry, state.step blake3 build call = (reply, later) ∧ reply.Acknowledges ∧
        Records state later call.decisionId entry := by
  obtain ⟨mutation, uuid, now, auditedAt⟩ := call
  obtain ⟨lasts, target⟩ := recordable
  -- every mutation that does not fail writes the trail of a prepared state
  have writes {prepared : AppState} {id : String} (prepares : Prepares state prepared id) :=
    audited_of_prepares blake3 build prepares lasts
  cases mutation with
  | createDecision input => exact .inr (writes (insert_prepares target _) _ _ _ _ trivial)
  | advanceDecision id newStatus reason =>
    dsimp only [step, advanceDecision]
    split
    next => exact .inl ⟨_, rfl⟩
    next record found => exact .inr (writes (setDecision_prepares found _) _ _ _ _ trivial)
  | castVote decisionId choice rationale =>
    dsimp only [step, castVote]
    split
    next => exact .inl ⟨_, rfl⟩
    next =>
      split
      next => exact .inl ⟨_, rfl⟩
      next record found =>
        split
        next => exact .inl ⟨_, rfl⟩
        next => exact .inr (writes (setDecision_prepares found _) _ _ _ _ trivial)
  | raiseChallenge decisionId grounds =>
    dsimp only [step, raiseChallenge]
    split
    next => exact .inl ⟨_, rfl⟩
    next record found => exact .inr (writes (setDecision_prepares found _) _ _ _ _ trivial)
  | takeEmergencyAction decisionId justification =>
    dsimp only [step, takeEmergencyAction]
    split
    next => exact .inl ⟨_, rfl⟩
    next record found => exact .inr (writes (emergency_prepares ⟨record, found⟩ _) _ _ _ _ trivial)
  | discloseConflict decisionId description nature =>
    have found := BTreeMap.mem_iff_exists.mp target
    exact .inr (writes ⟨found, fun _ => rfl, rfl⟩ _ _ _ _ trivial)

/-! ### What is asked of the trails -/

/-- An acknowledged mutation adds one entry to the trail of the decision it names, and to no other; any
other mutation changes nothing. -/
structure Acknowledged (state : AppState) (call : Call) : Prop where
  recorded : (state.step blake3 build call).1.Acknowledges →
    (∃ entry, (state.next blake3 build call).trail call.decisionId =
        state.trail call.decisionId ++ [entry]) ∧
      ∀ other, other ≠ call.decisionId → (state.next blake3 build call).trail other = state.trail other
  refused : ¬ (state.step blake3 build call).1.Acknowledges → state.next blake3 build call = state

/-- Numbers increase in each trail, no number is in two trails, and all are below the counter. -/
structure Sequenced (state : AppState) : Prop where
  increasing : ∀ id, (state.trail id).Pairwise (·.sequence < ·.sequence)
  distinct : ∀ id other, id ≠ other → ∀ entry ∈ state.trail id, ∀ entry' ∈ state.trail other,
    entry.sequence ≠ entry'.sequence
  below : ∀ id, ∀ entry ∈ state.trail id, entry.sequence < state.nextAuditSeq

/-- No entry of a trail is changed or lost. -/
def Extends (state later : AppState) : Prop := ∀ id, state.trail id <+: later.trail id

/-- The law of the audit trails over a run. -/
structure Audited (calls : List Call) : Prop where
  acknowledged : Along (next blake3 build) (Acknowledged blake3 build) new calls
  sequenced : Throughout (next blake3 build) Sequenced new calls
  appendOnly : Evolves (next blake3 build) Extends new calls

/-- A call that can be recorded is acknowledged as asked. -/
theorem acknowledged_step (recordable : call.Recordable state) :
    Acknowledged blake3 build state call := by
  rcases step_cases blake3 build recordable with
    ⟨message, failed⟩ | ⟨reply, later, entry, replied, acknowledges, records⟩
  · constructor
    · intro acknowledged
      rw [failed] at acknowledged
      exact acknowledged.elim
    · intro _
      rw [next, failed]
  · rw [← show (state.next blake3 build call) = later by rw [next, replied]] at records
    constructor
    · intro _
      exact ⟨⟨entry, records.here⟩, records.elsewhere⟩
    · intro refused
      rw [replied] at refused
      exact absurd acknowledges refused

/-- The entries of a trail after one more was recorded: those that were there, and the new one. -/
theorem Records.mem_iff {later : AppState} {id other : String} {entry entry' : GqlAuditEntry}
    (records : Records state later id entry) :
    entry' ∈ later.trail other ↔ entry' ∈ state.trail other ∨ other = id ∧ entry' = entry := by
  by_cases same : other = id
  · subst same
    rw [records.here, List.mem_append, List.mem_singleton]
    simp
  · rw [records.elsewhere other same]
    simp [same]

/-- The counter increases while it has a next number. -/
theorem lt_add_one_of_lasts {seq : Int32} (lasts : seq ≠ Int32.maxValue) : seq < seq + 1 := by
  have bounded : seq.toInt < Int32.maxValue.toInt := by
    refine lt_of_le_of_ne seq.toInt_le fun equal => lasts (Int32.toInt_inj.mp equal)
  have lower := seq.minValue_le_toInt
  rw [Int32.toInt_maxValue] at bounded
  rw [Int32.toInt_minValue] at lower
  have next : (seq + 1).toInt = seq.toInt + 1 := by
    rw [Int32.toInt_add, Int32.toInt_one, Int.bmod_eq_of_le] <;> omega
  rw [Int32.lt_iff_toInt_lt, next]
  exact Int.lt_add_one_of_le le_rfl

/-- **One more entry keeps the numbers in order.** -/
theorem Records.sequenced {later : AppState} {id : String} {entry : GqlAuditEntry}
    (records : Records state later id entry) (lasts : state.nextAuditSeq ≠ Int32.maxValue)
    (sequenced : Sequenced state) : Sequenced later := by
  have counts : state.nextAuditSeq < later.nextAuditSeq := by
    rw [records.counted]
    exact lt_add_one_of_lasts lasts
  -- an entry that was there has a smaller number than the new one
  have older {other : String} {entry' : GqlAuditEntry} (there : entry' ∈ state.trail other) :
      entry'.sequence < entry.sequence := by
    rw [records.numbered]
    exact sequenced.below other entry' there
  refine ⟨fun other => ?_, ?_, ?_⟩
  · by_cases same : other = id
    · rw [same, records.here, List.pairwise_append]
      refine ⟨sequenced.increasing id, List.pairwise_singleton _ _, ?_⟩
      intro first there second new
      rw [List.mem_singleton.mp new]
      exact older there
    · rw [records.elsewhere other same]
      exact sequenced.increasing other
  · intro first second different one inFirst two inSecond
    rcases records.mem_iff.mp inFirst with old | ⟨rfl, rfl⟩ <;>
      rcases records.mem_iff.mp inSecond with old' | ⟨rfl, rfl⟩
    · exact sequenced.distinct first second different one old two old'
    · exact Int32.ne_of_lt (older old)
    · exact (Int32.ne_of_lt (older old')).symm
    · exact absurd rfl different
  · intro other entry' inLater
    rcases records.mem_iff.mp inLater with old | ⟨-, rfl⟩
    · exact Int32.lt_trans (sequenced.below other entry' old) counts
    · rw [records.numbered]
      exact counts

/-- A call that can be recorded keeps the numbers in order. -/
theorem sequenced_step (recordable : call.Recordable state) (sequenced : Sequenced state) :
    Sequenced (state.next blake3 build call) := by
  rw [next]
  rcases step_cases blake3 build recordable with
    ⟨message, failed⟩ | ⟨reply, later, entry, replied, -, records⟩
  · rw [failed]
    exact sequenced
  · rw [replied]
    exact records.sequenced recordable.1 sequenced

/-- A call that is acknowledged as asked loses no entry. -/
theorem Acknowledged.extends (acknowledged : Acknowledged blake3 build state call) :
    Extends state (state.next blake3 build call) := by
  intro id
  by_cases replied : (state.step blake3 build call).1.Acknowledges
  · obtain ⟨⟨entry, here⟩, elsewhere⟩ := acknowledged.recorded replied
    by_cases same : id = call.decisionId
    · rw [same, here]
      exact List.prefix_append _ _
    · rw [elsewhere id same]
  · rw [acknowledged.refused replied]

theorem sequenced_new : Sequenced new := by
  have none (id : String) : new.trail id = [] := trail_of_missing Std.ExtTreeMap.not_mem_empty
  constructor
  · intro id
    rw [none]
    exact List.Pairwise.nil
  · intro id other _ entry there
    rw [none] at there
    exact absurd there List.not_mem_nil
  · intro id entry there
    rw [none] at there
    exact absurd there List.not_mem_nil

/-- **Every acknowledged mutation is in the audit trail**, in a run whose calls can all be recorded. -/
theorem mutations_audited (calls : List Call)
    (recordable : Along (next blake3 build) (fun state call => call.Recordable state) new calls) :
    Audited blake3 build calls := by
  have acknowledged : Along (next blake3 build) (Acknowledged blake3 build) new calls :=
    fun before call after split => acknowledged_step blake3 build (recordable before call after split)
  refine ⟨acknowledged, ?_, ?_⟩
  · refine throughout_of_along ?_ sequenced_new recordable
    exact fun state call sequenced records => sequenced_step blake3 build records sequenced
  · refine (evolves_iff_along (fun state id => List.prefix_refl _) ?_).mpr ?_
    · exact fun first second third one two id => (one id).trans (two id)
    · exact fun before call after split => (acknowledged before call after split).extends

namespace Sample

/-- A mutation under the second identifier of the sample. -/
def callOf (mutation : Mutation) : Call := ⟨mutation, FixedBytes.fill 16 2, ⟨1000, 0⟩, ⟨1001, 0⟩⟩

/-- The decision that the sample creates. -/
def charterId : String := "01010101-0101-0101-0101-010101010101"

/-- A decision is created, voted on twice and disclosed on; a decision that does not exist is advanced. -/
def charterCalls : List Call :=
  [⟨.createDecision ⟨"t1", "Charter", "body", "Operational"⟩, FixedBytes.fill 16 1, ⟨990, 0⟩,
      ⟨991, 0⟩⟩,
    callOf (.castVote charterId "APPROVE" none),
    callOf (.castVote charterId "REJECT" none),
    callOf (.advanceDecision "unknown" "APPROVED" none),
    callOf (.discloseConflict charterId "board seat" "Financial")]

/-- The creation, the first vote and the disclosure are in the trail. -/
theorem charter_audited :
    Audited Blake3.hash ⟨true⟩ charterCalls ∧
      ((run (next Blake3.hash ⟨true⟩) new charterCalls).trail charterId).map
          (fun entry => (entry.sequence, entry.eventType)) =
        [(1, "DecisionCreated"), (2, "VoteCast"), (3, "ConflictDisclosed:Financial")] :=
  ⟨mutations_audited Blake3.hash ⟨true⟩ charterCalls (by decide +kernel), by decide +kernel⟩

/-- A disclosure on a decision that does not exist. -/
def lostDisclosure : Call := callOf (.discloseConflict charterId "board seat" "Financial")

/-- **The disclosure is acknowledged, and no trail has an entry for it.** -/
theorem disclosure_lost :
    (new.step Blake3.hash ⟨true⟩ lostDisclosure).1 =
        .disclosure ⟨"did:exo:caller", "board seat", "Financial", "1000:0"⟩ ∧
      ¬ Audited Blake3.hash ⟨true⟩ [lostDisclosure] := by
  refine ⟨by decide +kernel, fun audited => ?_⟩
  have acknowledged := audited.acknowledged [] lostDisclosure [] rfl
  have unrecorded : (new.next Blake3.hash ⟨true⟩ lostDisclosure).trail charterId = [] := by
    decide +kernel
  obtain ⟨⟨entry, here⟩, -⟩ := acknowledged.recorded trivial
  exact List.cons_ne_nil entry [] ((List.nil_append [entry]).symm.trans (here.symm.trans unrecorded))

end Sample

end AppState

end Exochain.ExoGateway
