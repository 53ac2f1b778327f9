/-
**`exo-bcts` — the pipeline.**

A transaction is taken through nine stages. Before each one a validator is asked, which keeps a state of
its own and sees the transaction; its evidence goes into the ledger, its refusal ends the run with a
transition to the denied state. The result of that transition is not looked at: where the table has no
move to the denied state, the transaction stays as it was.

Every transition gets its own `Moment`: stage `i` takes the moments `2 * i` and, to deny, `2 * i + 1`.

* `runStages_cases` — what the loop does, by induction on the stages that are left: all of them pass, or
  the first one refused ends it.
* `allows_denied_iff` — the stages that a refusal can be recorded at: all but the first and the last.
* **`pipeline_sound_iff`** — the law of the pipeline holds exactly for the validators that refuse at none
  of these two; the ledger is consistent in any case (`chained_runPipeline`).
* `Sample.refused_undenied` — a refusal at the first stage that leaves no trace in the transaction.
-/

import Exochain.Bcts.Transaction

namespace Exochain.ExoBcts

open Foundation
open ExoCore (BctsState)

/-! ### Stages -/

/-- A stage: its name, and the states it leads from and to. -/
structure PipelineStage where
  name : String
  source : BctsState
  target : BctsState
  deriving DecidableEq, Repr

/-- The nine stages. -/
def pipelineStages : List PipelineStage :=
  [⟨"propose", .draft, .submitted⟩,
    ⟨"authenticate", .submitted, .identityResolved⟩,
    ⟨"gate", .identityResolved, .consentValidated⟩,
    ⟨"deliberate", .consentValidated, .deliberated⟩,
    ⟨"prove", .deliberated, .verified⟩,
    ⟨"govern", .verified, .governed⟩,
    ⟨"commit", .governed, .approved⟩,
    ⟨"anchor", .approved, .executed⟩,
    ⟨"audit", .executed, .recorded⟩]

/-- The result of a stage. -/
structure StageResult where
  stage : String
  success : Bool
  evidence : Option String
  error : Option String
  deriving DecidableEq, Repr

/-- The result of a run. -/
structure PipelineResult where
  transaction : BctsTransaction
  stages : List StageResult
  failedAt : Option String
  deriving DecidableEq, Repr

/-- A stage that passed. -/
def StageResult.passed (stage : PipelineStage) (evidence : String) : StageResult :=
  ⟨stage.name, true, some evidence, none⟩

/-- A stage that was refused. -/
def StageResult.refused (stage : PipelineStage) (reason : String) : StageResult :=
  ⟨stage.name, false, none, some reason⟩

section Pipeline

/-! ### The run -/

variable {σ : Type} (sha256 : List UInt8 → FixedBytes 32) (toRfc3339 : DateTime → String)
  (validator : σ → String → BctsTransaction → Except String String × σ) (moments : ℕ → Moment)
  (actorDid : String)

/-- Move a transaction if that is possible; if not, it stays as it is. -/
def moveIfOk (moment : Moment) (current : BctsTransaction) (toState : BctsState) (evidence : String) :
    BctsTransaction :=
  match transition sha256 toRfc3339 moment current toState actorDid (some evidence) with
  | .ok moved => moved
  | .error _ => current

/-- The loop over the stages, from the stage at `index` on. -/
def runStages : ℕ → List PipelineStage → σ → BctsTransaction → List StageResult → PipelineResult
  | index, [], _, current, stages =>
    ⟨moveIfOk sha256 toRfc3339 actorDid (moments (2 * index)) current .closed "pipeline-complete",
      stages, none⟩
  | index, stage :: left, state, current, stages =>
    match validator state stage.name current with
    | (.ok evidence, state) =>
      match transition sha256 toRfc3339 (moments (2 * index)) current stage.target actorDid
          (some evidence) with
      | .ok next =>
        runStages (index + 1) left state next (stages ++ [.passed stage evidence])
      | .error error =>
        ⟨moveIfOk sha256 toRfc3339 actorDid (moments (2 * index + 1)) current .denied error,
          stages ++ [⟨stage.name, false, some evidence, some error⟩], some stage.name⟩
    | (.error reason, _) =>
      ⟨moveIfOk sha256 toRfc3339 actorDid (moments (2 * index + 1)) current .denied reason,
        stages ++ [.refused stage reason], some stage.name⟩

/-- Run a transaction through the pipeline. -/
def runPipeline (state : σ) (tx : BctsTransaction) : PipelineResult :=
  runStages sha256 toRfc3339 validator moments actorDid 0 pipelineStages state tx []

/-! ### What the validator answers -/

/-- The answers of the validator, up to its first refusal, if the transaction takes the stages that pass. -/
def validations : ℕ → List PipelineStage → σ → BctsTransaction →
    List (PipelineStage × Except String String)
  | _, [], _, _ => []
  | index, stage :: left, state, current =>
    match validator state stage.name current with
    | (.error reason, _) => [(stage, .error reason)]
    | (.ok evidence, state) =>
      (stage, .ok evidence) :: validations (index + 1) left state
        (current.push (eventOf sha256 toRfc3339 (moments (2 * index)) current stage.target actorDid
          (some evidence)))

/-- What an answer that passes is recorded as. -/
def passedResult (passed : PipelineStage × String) : StageResult := .passed passed.1 passed.2

/-- The answer that an evidence was. -/
def okAnswer (passed : PipelineStage × String) : PipelineStage × Except String String :=
  (passed.1, .ok passed.2)

/-- The run closes the transaction: the validator refused at no stage, and every stage is recorded as
passed, in order. -/
structure Closes (answers : List (PipelineStage × Except String String)) (result : PipelineResult) :
    Prop where
  failedAt : result.failedAt = none
  state : result.transaction.state = .closed
  stages : ∃ passed : List (PipelineStage × String), answers = passed.map okAnswer ∧
    passed.map Prod.fst = pipelineStages ∧ result.stages = passed.map passedResult

/-- The run ends at the first refusal: the stages before it passed and are recorded in order, and the
transaction is denied with the reason as the evidence of its last event. -/
structure Denies (answers : List (PipelineStage × Except String String)) (result : PipelineResult)
    (stage : PipelineStage) (reason : String) : Prop where
  failedAt : result.failedAt = some stage.name
  stages : ∃ passed : List (PipelineStage × String),
    answers = passed.map okAnswer ++ [(stage, .error reason)] ∧
      passed.map Prod.fst ++ [stage] <+: pipelineStages ∧
      result.stages = passed.map passedResult ++ [.refused stage reason]
  state : result.transaction.state = .denied
  evidence : ∃ event, result.transaction.ledger.getLast? = some event ∧ event.evidence = some reason

/-- **The law of the pipeline**, for the answers that the validator gives. -/
def PipelineSound (answers : List (PipelineStage × Except String String)) (result : PipelineResult) :
    Prop :=
  (Closes answers result ∨ ∃ stage reason, Denies answers result stage reason) ∧
    verifyLedger result.transaction = true

/-- The validator refuses at the stage of that name. -/
def RefusesAt (answers : List (PipelineStage × Except String String)) (name : String) : Prop :=
  ∃ stage reason, (stage, .error reason) ∈ answers ∧ stage.name = name

/-! ### The loop -/

/-- A stage follows the state before it, and its move is allowed. -/
def StageEdge (state : BctsState) (stage : PipelineStage) : Prop :=
  stage.source = state ∧ Allows state stage.target

variable {sha256 toRfc3339 actorDid}

/-- A move that is allowed. -/
theorem moveIfOk_of_allows {moment : Moment} {current : BctsTransaction} {toState : BctsState}
    {evidence : String} (allowed : Allows current.state toState) :
    moveIfOk sha256 toRfc3339 actorDid moment current toState evidence =
      current.push (eventOf sha256 toRfc3339 moment current toState actorDid (some evidence)) := by
  have moved : transition sha256 toRfc3339 moment current toState actorDid (some evidence) =
      .ok (current.push (eventOf sha256 toRfc3339 moment current toState actorDid (some evidence))) :=
    (transition_eq_ok_iff sha256 toRfc3339).mpr ⟨allowed, rfl⟩
  rw [moveIfOk, moved]

/-- A move that is not. -/
theorem moveIfOk_of_not_allows {moment : Moment} {current : BctsTransaction} {toState : BctsState}
    {evidence : String} (refused : ¬ Allows current.state toState) :
    moveIfOk sha256 toRfc3339 actorDid moment current toState evidence = current := by
  unfold moveIfOk
  cases moved : transition sha256 toRfc3339 moment current toState actorDid (some evidence) with
  | error error => rfl
  | ok after => exact absurd ((transition_eq_ok_iff sha256 toRfc3339).mp moved).1 refused

/-- A move keeps the ledger consistent, whether it is made or not. -/
theorem chained_moveIfOk {moment : Moment} {current : BctsTransaction} {toState : BctsState}
    {evidence : String} (chained : Chained current) :
    Chained (moveIfOk sha256 toRfc3339 actorDid moment current toState evidence) := by
  unfold moveIfOk
  cases moved : transition sha256 toRfc3339 moment current toState actorDid (some evidence) with
  | error error => exact chained
  | ok after => exact chained_transition sha256 toRfc3339 chained moved

variable {validator moments}

section Loop

variable (sha256 toRfc3339 validator moments actorDid) (index : ℕ) (stages : List PipelineStage)
  (state : σ) (current : BctsTransaction) (results : List StageResult)

/-- Every stage passes: the transaction takes all of them, and is moved to the closed state if possible. -/
structure Completes (passed : List (PipelineStage × String)) (reached : BctsTransaction)
    (moment : Moment) : Prop where
  chained : Chained reached
  answers : validations sha256 toRfc3339 validator moments actorDid index stages state current =
    passed.map okAnswer
  order : passed.map Prod.fst = stages
  ends : reached.state = handedOn PipelineStage.target current.state stages
  result : runStages sha256 toRfc3339 validator moments actorDid index stages state current results =
    ⟨moveIfOk sha256 toRfc3339 actorDid moment reached .closed "pipeline-complete",
      results ++ passed.map passedResult, none⟩

/-- A stage is refused: the loop ends at the state that the stage leads from. -/
structure Stops (passed : List (PipelineStage × String)) (stage : PipelineStage) (reason : String)
    (reached : BctsTransaction) (moment : Moment) : Prop where
  chained : Chained reached
  answers : validations sha256 toRfc3339 validator moments actorDid index stages state current =
    passed.map okAnswer ++ [(stage, .error reason)]
  order : passed.map Prod.fst ++ [stage] <+: stages
  ends : reached.state = stage.source
  result : runStages sha256 toRfc3339 validator moments actorDid index stages state current results =
    ⟨moveIfOk sha256 toRfc3339 actorDid moment reached .denied reason,
      results ++ (passed.map passedResult ++ [.refused stage reason]), some stage.name⟩

end Loop

section FirstStage

variable {index : ℕ} {stage : PipelineStage} {left : List PipelineStage} {state state' : σ}
  {current after : BctsTransaction} {results : List StageResult} {evidence : String}

/-- The answers and the loop after a stage that passes. -/
theorem validations_cons (asked : validator state stage.name current = (.ok evidence, state'))
    (moved : transition sha256 toRfc3339 (moments (2 * index)) current stage.target actorDid
      (some evidence) = .ok after) :
    validations sha256 toRfc3339 validator moments actorDid index (stage :: left) state current =
      (stage, .ok evidence) ::
        validations sha256 toRfc3339 validator moments actorDid (index + 1) left state' after := by
  rw [validations, asked, ((transition_eq_ok_iff sha256 toRfc3339).mp moved).2]

theorem runStages_cons (asked : validator state stage.name current = (.ok evidence, state'))
    (moved : transition sha256 toRfc3339 (moments (2 * index)) current stage.target actorDid
      (some evidence) = .ok after) :
    runStages sha256 toRfc3339 validator moments actorDid index (stage :: left) state current results =
      runStages sha256 toRfc3339 validator moments actorDid (index + 1) left state' after
        (results ++ [.passed stage evidence]) := by
  rw [runStages, asked]
  dsimp only
  rw [moved]

end FirstStage

/-- **What the loop does** with stages that lead from the state of the transaction: every one passes, or
the first refusal ends it. By induction on the stages that are left. -/
theorem runStages_cases {index : ℕ} {stages : List PipelineStage} {state : σ}
    {current : BctsTransaction} {results : List StageResult} (chained : Chained current)
    (path : Threaded StageEdge PipelineStage.target current.state stages) :
    (∃ passed reached moment, Completes sha256 toRfc3339 validator moments actorDid index stages state
      current results passed reached moment) ∨
    (∃ passed stage reason reached moment, Stops sha256 toRfc3339 validator moments actorDid index stages
      state current results passed stage reason reached moment) := by
  induction stages generalizing index state current results with
  | nil =>
    refine .inl ⟨[], current, moments (2 * index), chained, rfl, rfl, rfl, ?_⟩
    rw [runStages, List.map_nil, List.append_nil]
  | cons stage left ih =>
    obtain ⟨⟨source, allowed⟩, rest⟩ := path
    rcases asked : validator state stage.name current with ⟨answer, state'⟩
    cases answer with
    | error reason =>
      refine .inr ⟨[], stage, reason, current, moments (2 * index + 1), chained, ?_, ⟨left, rfl⟩,
        source.symm, ?_⟩
      · rw [validations, asked]
        rfl
      · rw [runStages, asked]
        rfl
    | ok evidence =>
      have moved : transition sha256 toRfc3339 (moments (2 * index)) current stage.target actorDid
          (some evidence) = .ok (current.push (eventOf sha256 toRfc3339 (moments (2 * index)) current
            stage.target actorDid (some evidence))) :=
        (transition_eq_ok_iff sha256 toRfc3339).mpr ⟨allowed, rfl⟩
      have further := chained_transition sha256 toRfc3339 chained moved
      rcases @ih (index + 1) state' _ (results ++ [.passed stage evidence]) further rest with
        ⟨passed, reached, moment, later⟩ | ⟨passed, refused, reason, reached, moment, later⟩
      · refine .inl ⟨(stage, evidence) :: passed, reached, moment, later.chained, ?_, ?_, ?_, ?_⟩
        · rw [validations_cons asked moved, later.answers]
          rfl
        · rw [List.map_cons, later.order]
        · rw [later.ends, handedOn_cons]
          rfl
        · rw [runStages_cons asked moved, later.result, List.append_assoc]
          rfl
      · refine .inr ⟨(stage, evidence) :: passed, refused, reason, reached, moment, later.chained, ?_, ?_,
          later.ends, ?_⟩
        · rw [validations_cons asked moved, later.answers]
          rfl
        · rw [List.map_cons, List.cons_append, List.prefix_cons_inj]
          exact later.order
        · rw [runStages_cons asked moved, later.result, List.append_assoc]
          rfl

/-! ### The nine stages -/

theorem threaded_pipelineStages :
    Threaded StageEdge PipelineStage.target .draft pipelineStages := by
  simp only [pipelineStages, Threaded, StageEdge]
  decide

/-- A refusal can be recorded at every stage but the first and the last. -/
theorem allows_denied_iff {stage : PipelineStage} (member : stage ∈ pipelineStages) :
    Allows stage.source .denied ↔ stage.name ≠ "propose" ∧ stage.name ≠ "audit" := by
  revert stage
  decide

/-- The transaction in the draft state that the pipeline starts from. -/
theorem chained_draft (id : String) (now : DateTime) : Chained (.draft id now) := ⟨trivial, rfl⟩

/-- **The ledger is consistent after every run.** -/
theorem chained_runPipeline (id : String) (now : DateTime) (state : σ) :
    Chained (runPipeline sha256 toRfc3339 validator moments actorDid state (.draft id now)).transaction
    := by
  unfold runPipeline
  rcases @runStages_cases σ sha256 toRfc3339 validator moments actorDid 0 pipelineStages state
      (.draft id now) [] (chained_draft id now) threaded_pipelineStages with
    ⟨_, _, _, chained, _, _, _, result⟩ | ⟨_, _, _, _, _, chained, _, _, _, result⟩
  · rw [result]
    exact chained_moveIfOk chained
  · rw [result]
    exact chained_moveIfOk chained

/-- The answers that are evidence are no refusals. -/
theorem not_refusesAt_okAnswer (passed : List (PipelineStage × String)) (name : String) :
    ¬ RefusesAt (passed.map okAnswer) name := by
  rintro ⟨stage, reason, member, -⟩
  obtain ⟨answer, -, same⟩ := List.mem_map.mp member
  cases same

/-- The first refusal is the only one. -/
theorem refusesAt_concat_iff {passed : List (PipelineStage × String)} {stage : PipelineStage}
    {reason name : String} :
    RefusesAt (passed.map okAnswer ++ [(stage, .error reason)]) name ↔ stage.name = name := by
  constructor
  · rintro ⟨refused, reason', member, named⟩
    rcases List.mem_append.mp member with ok | last
    · exact absurd ⟨refused, reason', ok, named⟩ (not_refusesAt_okAnswer passed name)
    · rw [List.mem_singleton, Prod.mk.injEq] at last
      rw [← last.1, named]
  · exact fun named => ⟨stage, reason, List.mem_append_right _ (List.mem_singleton_self _), named⟩

/-- Where every stage passes, the transaction is closed. -/
theorem closes_of_passed {passed : List (PipelineStage × String)} {reached : BctsTransaction}
    {moment : Moment} (order : passed.map Prod.fst = pipelineStages)
    (ends : reached.state = .recorded) :
    Closes (passed.map okAnswer)
      ⟨moveIfOk sha256 toRfc3339 actorDid moment reached .closed "pipeline-complete",
        passed.map passedResult, none⟩ := by
  have allowed : Allows reached.state .closed := by
    rw [ends]
    decide
  refine ⟨rfl, ?_, passed, rfl, order, rfl⟩
  rw [moveIfOk_of_allows allowed]
  rfl

/-- A refusal that can be recorded denies the transaction, and one that cannot leaves it as it was. -/
theorem denies_iff {passed : List (PipelineStage × String)} {stage : PipelineStage}
    {reason : String} {reached : BctsTransaction} {moment : Moment}
    (order : passed.map Prod.fst ++ [stage] <+: pipelineStages) (ends : reached.state = stage.source) :
    (∃ refused why, Denies (passed.map okAnswer ++ [(stage, .error reason)])
      ⟨moveIfOk sha256 toRfc3339 actorDid moment reached .denied reason,
        passed.map passedResult ++ [.refused stage reason], some stage.name⟩ refused why) ↔
      Allows stage.source .denied := by
  have member : stage ∈ pipelineStages :=
    order.subset (List.mem_append_right _ (List.mem_singleton_self stage))
  constructor
  · rintro ⟨refused, why, denies⟩
    by_contra impossible
    have state := denies.state
    rw [moveIfOk_of_not_allows (ends ▸ impossible)] at state
    have undenied : ∀ other ∈ pipelineStages, other.source ≠ .denied := by decide
    exact undenied stage member (ends.symm.trans state)
  · intro allowed
    have moved : moveIfOk sha256 toRfc3339 actorDid moment reached .denied reason =
        reached.push (eventOf sha256 toRfc3339 moment reached .denied actorDid (some reason)) :=
      moveIfOk_of_allows (ends ▸ allowed)
    refine ⟨stage, reason, rfl, ⟨passed, rfl, order, rfl⟩, ?_, ?_⟩
    · rw [moved]
      rfl
    · rw [moved]
      exact ⟨_, List.getLast?_concat, rfl⟩

end Pipeline

/-- **When a run of the pipeline ends closed or denied with evidence**: exactly when the validator
refuses neither at the first stage nor at the last. -/
theorem pipeline_sound_iff {σ : Type} (sha256 : List UInt8 → FixedBytes 32)
    (toRfc3339 : DateTime → String)
    (validator : σ → String → BctsTransaction → Except String String × σ) (moments : ℕ → Moment)
    (actorDid : String) (state : σ) (id : String) (now : DateTime) :
    PipelineSound
        (validations sha256 toRfc3339 validator moments actorDid 0 pipelineStages state (.draft id now))
        (runPipeline sha256 toRfc3339 validator moments actorDid state (.draft id now)) ↔
      ¬ RefusesAt (validations sha256 toRfc3339 validator moments actorDid 0 pipelineStages state
          (.draft id now)) "propose" ∧
        ¬ RefusesAt (validations sha256 toRfc3339 validator moments actorDid 0 pipelineStages state
          (.draft id now)) "audit" := by
  have consistent := verifyLedger_iff.mpr
    (@chained_runPipeline σ sha256 toRfc3339 validator moments actorDid id now state)
  rw [PipelineSound, and_iff_left consistent]
  unfold runPipeline
  rcases @runStages_cases σ sha256 toRfc3339 validator moments actorDid 0 pipelineStages state
      (.draft id now) [] (chained_draft id now) threaded_pipelineStages with
    ⟨passed, reached, moment, -, answers, order, ends, result⟩ |
    ⟨passed, stage, reason, reached, moment, -, answers, order, ends, result⟩
  · rw [answers, result, List.nil_append]
    have unrefused := not_refusesAt_okAnswer passed
    exact ⟨fun _ => ⟨unrefused "propose", unrefused "audit"⟩, fun _ => .inl (closes_of_passed order ends)⟩
  · have member : stage ∈ pipelineStages :=
      order.subset (List.mem_append_right _ (List.mem_singleton_self stage))
    rw [answers, result, List.nil_append, refusesAt_concat_iff, refusesAt_concat_iff,
      ← ne_eq, ← ne_eq, ← allows_denied_iff member, ← denies_iff order ends, or_iff_right]
    exact fun closes => nomatch closes.failedAt

namespace Sample

/-- A validator without a state that refuses at one stage. -/
def refusing (name : String) (reason : String) :
    Unit → String → BctsTransaction → Except String String × Unit :=
  fun _ stage _ => (if stage = name then .error reason else .ok "checked", ())

/-- The moments of a run, all at the epoch. -/
def moments : ℕ → Moment := fun _ => ⟨epoch, "00000000-0000-4000-8000-000000000000"⟩

/-- The run of a validator that refuses at one stage. -/
def refusedRun (name : String) : PipelineResult :=
  runPipeline Sha256.hash epochText (refusing name "no") moments "did:exo:alice" ()
    (.draft "tx-1" epoch)

/-- **A refusal at the first or the last stage leaves the transaction undenied**: a draft with an empty
ledger, and an executed transaction. -/
theorem refused_undenied :
    ((refusedRun "propose").failedAt = some "propose" ∧
      (refusedRun "propose").transaction.state = .draft ∧
      (refusedRun "propose").transaction.ledger = []) ∧
    ((refusedRun "audit").failedAt = some "audit" ∧
      (refusedRun "audit").transaction.state = .executed) ∧
    ¬ PipelineSound (validations Sha256.hash epochText (refusing "propose" "no") moments
        "did:exo:alice" 0 pipelineStages () (.draft "tx-1" epoch)) (refusedRun "propose") := by
  have failed : (refusedRun "propose").failedAt = some "propose" := by decide +kernel
  have draft : (refusedRun "propose").transaction.state = .draft := by decide +kernel
  refine ⟨⟨failed, draft, by decide +kernel⟩, ⟨by decide +kernel, by decide +kernel⟩, ?_⟩
  rintro ⟨closes | ⟨stage, reason, denies⟩, -⟩
  · exact nomatch failed.symm.trans closes.failedAt
  · exact nomatch draft.symm.trans denies.state

end Sample

end Exochain.ExoBcts
