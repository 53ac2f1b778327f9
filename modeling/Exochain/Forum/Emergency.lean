/-
**`decision-forum` — emergency actions.**

An emergency action is created under a policy, with a cap and a deadline for its ratification. It is
ratified up to the deadline; after it, a ratification or an expiry check makes it expire. An actor may
have a limited number of actions that have not expired, so an expiry makes room for another one.

A run keeps a list of actions. `step_cases` says once what a step can do: nothing, one more action, or
one action that required ratification is ratified or expires.

* `ratifyEmergency_cases`, `checkExpiry_cases`, `created_of_ok` — the operations.
* `withinLimit_step`, `sound_step`, `settled_step`, `ratified_step` — what a step keeps.
* **`emergency_limits_kept`** — all of it over whole runs.
-/

import Exochain.Foundation.Run
import Exochain.Forum.DecisionObject

set_option linter.unusedSectionVars false

namespace Exochain.DecisionForum

open Foundation ExoCore

/-! ### Actions and policies -/

/-- The types of emergency actions. -/
inductive EmergencyActionType where
  | systemHalt
  | accessRevocation
  | dataFreeze
  | emergencyPatch
  | roleEscalation
  deriving DecidableEq, Repr

/-- The name of a type in texts. -/
def EmergencyActionType.debug : EmergencyActionType → String
  | systemHalt => "SystemHalt"
  | accessRevocation => "AccessRevocation"
  | dataFreeze => "DataFreeze"
  | emergencyPatch => "EmergencyPatch"
  | roleEscalation => "RoleEscalation"

/-- Whether an action still has to be ratified. -/
inductive RatificationStatus where
  | required
  | ratified
  | expired
  deriving DecidableEq, Repr

/-- The name of a status in texts. -/
def RatificationStatus.debug : RatificationStatus → String
  | required => "Required"
  | ratified => "Ratified"
  | expired => "Expired"

/-- The record of an emergency action. -/
structure EmergencyAction where
  id : FixedBytes 16
  actionType : EmergencyActionType
  actorDid : Did
  justification : String
  monetaryCapCents : UInt64
  actualCostCents : UInt64
  createdAt : Timestamp
  ratificationStatus : RatificationStatus
  ratificationDeadline : Timestamp
  ratificationDecisionId : Option (FixedBytes 16)
  evidenceHash : Hash256
  deriving DecidableEq

/-- The policy for emergency actions. -/
structure EmergencyPolicy where
  maxMonetaryCapCents : UInt64
  allowedActions : List EmergencyActionType
  ratificationWindowMs : UInt64
  maxPerQuarter : ℕ
  maxPerQuarterPerActor : ℕ
  deriving DecidableEq

/-- The default policy: $100,000, every type, 72 hours, three actions and one for each actor. -/
def EmergencyPolicy.default : EmergencyPolicy where
  maxMonetaryCapCents := 10000000
  allowedActions :=
    [.systemHalt, .accessRevocation, .dataFreeze, .emergencyPatch, .roleEscalation]
  ratificationWindowMs := 72 * 60 * 60 * 1000
  maxPerQuarter := 3
  maxPerQuarterPerActor := 1

/-! ### The operations -/

/-- Create an action, with the identifier it is given. -/
def createEmergencyAction (id : FixedBytes 16) (actionType : EmergencyActionType) (actor : Did)
    (justification : String) (monetaryCapCents : UInt64) (evidenceHash : Hash256)
    (policy : EmergencyPolicy) (timestamp : Timestamp) : Except ForumError EmergencyAction :=
  if !policy.allowedActions.contains actionType then
    .error (.emergencyInvalid (actionType.debug ++ " not in allowed actions"))
  else if policy.maxMonetaryCapCents < monetaryCapCents then
    .error (.emergencyCapExceeded ("cap " ++ toString monetaryCapCents ++ " exceeds policy max " ++
      toString policy.maxMonetaryCapCents))
  else
    let deadlineMs := UInt64.ofNat
      (saturatingAdd 64 timestamp.physicalMs.toNat policy.ratificationWindowMs.toNat)
    .ok
      { id := id
        actionType := actionType
        actorDid := actor
        justification := justification
        monetaryCapCents := monetaryCapCents
        actualCostCents := 0
        createdAt := timestamp
        ratificationStatus := .required
        ratificationDeadline := ⟨deadlineMs, 0⟩
        ratificationDecisionId := none
        evidenceHash := evidenceHash }

/-- Whether an action counts against the limit of an actor. -/
def countsFor (actor : Did) (action : EmergencyAction) : Bool :=
  action.actorDid = actor && action.ratificationStatus ≠ .expired

/-- The limit of an actor; zero is no limit. -/
def checkPerActorLimit (priorActions : List EmergencyAction) (actor : Did)
    (policy : EmergencyPolicy) : Except ForumError Unit :=
  if policy.maxPerQuarterPerActor = 0 then .ok ()
  else
    let actorCount := priorActions.countP (countsFor actor)
    if policy.maxPerQuarterPerActor ≤ actorCount then
      .error (.emergencyInvalid ("per-actor emergency limit reached: " ++ toString actorCount ++
        "/" ++ toString policy.maxPerQuarterPerActor ++ " this quarter"))
    else .ok ()

/-- Ratify an action; after the deadline it expires and the call fails. -/
def ratifyEmergency (action : EmergencyAction) (decisionId : FixedBytes 16) (timestamp : Timestamp) :
    Except ForumError Unit × EmergencyAction :=
  if action.ratificationStatus ≠ .required then
    (.error (.emergencyInvalid ("cannot ratify from status " ++ action.ratificationStatus.debug)),
      action)
  else if action.ratificationDeadline < timestamp then
    (.error (.emergencyInvalid "ratification deadline passed"),
      { action with ratificationStatus := .expired })
  else
    (.ok (),
      { action with
        ratificationStatus := .ratified
        ratificationDecisionId := some decisionId })

/-- Expire an action that was not ratified in time. -/
def checkExpiry (action : EmergencyAction) (now : Timestamp) : Bool × EmergencyAction :=
  if action.ratificationStatus = .required ∧ action.ratificationDeadline < now then
    (true, { action with ratificationStatus := .expired })
  else (false, action)

/-- Whether the number of actions calls for a review. -/
def needsGovernanceReview (actions : List EmergencyAction) (policy : EmergencyPolicy) : Bool :=
  policy.maxPerQuarter < actions.countP fun action => action.ratificationStatus ≠ .expired

/-! ### Runs -/

/-- One step of a run. -/
inductive EmergencyStep where
  | create (id : FixedBytes 16) (actionType : EmergencyActionType) (actor : Did)
      (justification : String) (monetaryCapCents : UInt64) (evidenceHash : Hash256)
      (timestamp : Timestamp)
  | ratify (index : ℕ) (decisionId : FixedBytes 16) (timestamp : Timestamp)
  | checkExpiry (index : ℕ) (now : Timestamp)

/-- Change the action at an index, if there is one. -/
def changeAt (actions : List EmergencyAction) (index : ℕ)
    (change : EmergencyAction → EmergencyAction) : List EmergencyAction :=
  match actions[index]? with
  | some action => actions.set index (change action)
  | none => actions

/-- The list of actions after a step: the limit is checked before an action is created. -/
def emergencyStep (policy : EmergencyPolicy) (actions : List EmergencyAction) :
    EmergencyStep → List EmergencyAction
  | .create id actionType actor justification monetaryCapCents evidenceHash timestamp =>
    let created := do
      checkPerActorLimit actions actor policy
      createEmergencyAction id actionType actor justification monetaryCapCents evidenceHash policy
        timestamp
    match created with
    | .ok action => actions ++ [action]
    | .error _ => actions
  | .ratify index decisionId timestamp =>
    changeAt actions index fun action => (ratifyEmergency action decisionId timestamp).2
  | .checkExpiry index now => changeAt actions index fun action => (checkExpiry action now).2

/-! ### What a step can do -/

section Steps

variable {policy : EmergencyPolicy} {actions after : List EmergencyAction} {op : EmergencyStep}

/-- What is true of an action that was just created. -/
structure Created (policy : EmergencyPolicy) (action : EmergencyAction) : Prop where
  allowed : action.actionType ∈ policy.allowedActions
  capped : action.monetaryCapCents ≤ policy.maxMonetaryCapCents
  required : action.ratificationStatus = .required
  undecided : action.ratificationDecisionId = none

theorem created_of_ok {id : FixedBytes 16} {actionType : EmergencyActionType} {actor : Did}
    {justification : String} {monetaryCapCents : UInt64} {evidenceHash : Hash256}
    {timestamp : Timestamp} {action : EmergencyAction}
    (made : createEmergencyAction id actionType actor justification monetaryCapCents evidenceHash
      policy timestamp = .ok action) :
    Created policy action ∧ action.actorDid = actor := by
  unfold createEmergencyAction at made
  split at made
  · cases made
  · rename_i allowed
    split at made
    · cases made
    · rename_i capped
      cases made
      exact ⟨⟨by simpa using allowed, UInt64.not_lt.mp capped, rfl, rfl⟩, rfl⟩

/-- The limit lets an actor pass with fewer actions than it allows. -/
theorem lt_of_checkPerActorLimit {actor : Did} (limited : 0 < policy.maxPerQuarterPerActor)
    (passed : checkPerActorLimit actions actor policy = .ok ()) :
    actions.countP (countsFor actor) < policy.maxPerQuarterPerActor := by
  unfold checkPerActorLimit at passed
  rw [if_neg (by omega)] at passed
  by_contra reached
  rw [if_pos (by omega)] at passed
  cases passed

/-- An action that expires. -/
def EmergencyAction.expire (action : EmergencyAction) : EmergencyAction :=
  { action with ratificationStatus := .expired }

/-- An action that is ratified. -/
def EmergencyAction.ratify (action : EmergencyAction) (decisionId : FixedBytes 16) :
    EmergencyAction :=
  { action with
    ratificationStatus := .ratified
    ratificationDecisionId := some decisionId }

/-- **What ratifying does**: nothing, or the action expires, or it is ratified in time. -/
theorem ratifyEmergency_cases (action : EmergencyAction) (decisionId : FixedBytes 16)
    (timestamp : Timestamp) :
    (ratifyEmergency action decisionId timestamp).2 = action ∨
      action.ratificationStatus = .required ∧
        ((ratifyEmergency action decisionId timestamp).2 = action.expire ∨
          timestamp ≤ action.ratificationDeadline ∧
            (ratifyEmergency action decisionId timestamp).2 = action.ratify decisionId) := by
  unfold ratifyEmergency
  split
  · exact .inl rfl
  · rename_i required
    split
    · exact .inr ⟨not_not.mp required, .inl rfl⟩
    · rename_i inTime
      exact .inr ⟨not_not.mp required, .inr ⟨not_lt.mp inTime, rfl⟩⟩

/-- What the expiry check does. -/
theorem checkExpiry_cases (action : EmergencyAction) (now : Timestamp) :
    (checkExpiry action now).2 = action ∨
      action.ratificationStatus = .required ∧ (checkExpiry action now).2 = action.expire := by
  unfold checkExpiry
  split
  · rename_i overdue
    exact .inr ⟨overdue.1, rfl⟩
  · exact .inl rfl

/-- **What a step can do.** -/
inductive StepResult (policy : EmergencyPolicy) (actions : List EmergencyAction)
    (op : EmergencyStep) : List EmergencyAction → Prop
  | unchanged : StepResult policy actions op actions
  | created {action : EmergencyAction}
      (passed : checkPerActorLimit actions action.actorDid policy = .ok ())
      (made : Created policy action) : StepResult policy actions op (actions ++ [action])
  | expired {index : ℕ} {action : EmergencyAction} (found : actions[index]? = some action)
      (required : action.ratificationStatus = .required) :
      StepResult policy actions op (actions.set index action.expire)
  | ratified {index : ℕ} {action : EmergencyAction} {decisionId : FixedBytes 16}
      {timestamp : Timestamp} (asked : op = .ratify index decisionId timestamp)
      (found : actions[index]? = some action) (required : action.ratificationStatus = .required)
      (inTime : timestamp ≤ action.ratificationDeadline) :
      StepResult policy actions op (actions.set index (action.ratify decisionId))

/-- Putting back what is there changes nothing. -/
theorem set_of_found {index : ℕ} {action : EmergencyAction} (found : actions[index]? = some action) :
    actions.set index action = actions := by
  obtain ⟨inside, rfl⟩ := List.getElem?_eq_some_iff.mp found
  exact List.set_getElem_self inside

theorem step_cases (policy : EmergencyPolicy) (actions : List EmergencyAction) (op : EmergencyStep) :
    StepResult policy actions op (emergencyStep policy actions op) := by
  cases op with
  | create id actionType actor justification monetaryCapCents evidenceHash timestamp =>
    unfold emergencyStep
    simp only
    split
    · rename_i action made
      rw [check_bind_eq_ok_iff] at made
      obtain ⟨created, rfl⟩ := created_of_ok made.2
      exact .created made.1 created
    · exact .unchanged
  | ratify index decisionId timestamp =>
    unfold emergencyStep changeAt
    simp only
    split
    · rename_i action found
      rcases ratifyEmergency_cases action decisionId timestamp with
        same | ⟨required, expires | ⟨inTime, ratifies⟩⟩
      · rw [same, set_of_found found]
        exact .unchanged
      · rw [expires]
        exact .expired found required
      · rw [ratifies]
        exact .ratified rfl found required inTime
    · exact .unchanged
  | checkExpiry index now =>
    unfold emergencyStep changeAt
    simp only
    split
    · rename_i action found
      rcases checkExpiry_cases action now with same | ⟨required, expires⟩
      · rw [same, set_of_found found]
        exact .unchanged
      · rw [expires]
        exact .expired found required
    · exact .unchanged

/-! ### What a step keeps -/

/-- No actor has more actions that have not expired than the policy allows. -/
def WithinLimit (policy : EmergencyPolicy) (actions : List EmergencyAction) : Prop :=
  ∀ actor, actions.countP (countsFor actor) ≤ policy.maxPerQuarterPerActor

/-- The action is within the policy, and it names a decision exactly if it is ratified. -/
structure EmergencyAction.Sound (policy : EmergencyPolicy) (action : EmergencyAction) : Prop where
  capped : action.monetaryCapCents ≤ policy.maxMonetaryCapCents
  allowed : action.actionType ∈ policy.allowedActions
  decided : action.ratificationDecisionId.isSome = true ↔ action.ratificationStatus = .ratified

theorem countsFor_iff {actor : Did} {action : EmergencyAction} :
    countsFor actor action = true ↔
      action.actorDid = actor ∧ action.ratificationStatus ≠ .expired := by
  simp [countsFor]

/-- Replacing an entry by one that is counted only if it was counted does not add to a count. -/
theorem countP_set_le {α : Type} {p : α → Bool} {xs : List α} {index : ℕ} {x y : α}
    (found : xs[index]? = some x) (counted : p y = true → p x = true) :
    (xs.set index y).countP p ≤ xs.countP p := by
  obtain ⟨inside, rfl⟩ := List.getElem?_eq_some_iff.mp found
  rw [List.countP_set inside]
  by_cases here : p xs[index] = true
  · have some_counted : 0 < xs.countP p :=
      List.countP_pos_iff.mpr ⟨xs[index], List.getElem_mem inside, here⟩
    split <;> split <;> omega
  · have uncounted : ¬ p y = true := fun holds => here (counted holds)
    simp [here, uncounted]

theorem withinLimit_step (limited : 0 < policy.maxPerQuarterPerActor)
    (step : StepResult policy actions op after) (within : WithinLimit policy actions) :
    WithinLimit policy after := by
  intro actor
  cases step with
  | unchanged => exact within actor
  | @created action passed made =>
    rw [List.countP_append, List.countP_singleton]
    split
    · rename_i counts
      obtain ⟨rfl, -⟩ := countsFor_iff.mp counts
      have room := lt_of_checkPerActorLimit limited passed
      omega
    · exact within actor
  | expired found required =>
    refine (countP_set_le found fun counts => ?_).trans (within actor)
    exact absurd rfl (countsFor_iff.mp counts).2
  | ratified asked found required inTime =>
    refine (countP_set_le found fun counts => ?_).trans (within actor)
    obtain ⟨same, -⟩ := countsFor_iff.mp counts
    exact countsFor_iff.mpr ⟨same, required ▸ RatificationStatus.noConfusion⟩

theorem sound_step (step : StepResult policy actions op after)
    (sound : ∀ action ∈ actions, action.Sound policy) : ∀ action ∈ after, action.Sound policy := by
  intro action member
  cases step with
  | unchanged => exact sound action member
  | created passed made =>
    rcases List.mem_append.mp member with old | new
    · exact sound action old
    · obtain rfl := List.mem_singleton.mp new
      refine ⟨made.capped, made.allowed, ?_⟩
      rw [made.undecided, made.required]
      decide
  | expired found required =>
    rcases List.mem_or_eq_of_mem_set member with old | rfl
    · exact sound action old
    · have before := sound _ (List.mem_of_getElem? found)
      refine ⟨before.capped, before.allowed, ?_⟩
      have undecided := before.decided
      rw [required] at undecided
      exact iff_of_false (fun decided => by cases undecided.mp decided) RatificationStatus.noConfusion
  | ratified asked found required inTime =>
    rcases List.mem_or_eq_of_mem_set member with old | rfl
    · exact sound action old
    · have before := sound _ (List.mem_of_getElem? found)
      exact ⟨before.capped, before.allowed, iff_of_true rfl rfl⟩

/-- An action that is ratified or expired keeps its status and its decision. -/
def KeepsSettled (earlier later : List EmergencyAction) : Prop :=
  ∀ (index : ℕ) (action : EmergencyAction), earlier[index]? = some action →
    action.ratificationStatus ≠ .required →
    ∃ after : EmergencyAction, later[index]? = some after ∧
      after.ratificationStatus = action.ratificationStatus ∧
      after.ratificationDecisionId = action.ratificationDecisionId

theorem settled_step (step : StepResult policy actions op after) : KeepsSettled actions after := by
  intro index action found settled
  -- the place that a step changes held an action that required ratification
  have elsewhere : ∀ {place : ℕ} {changed put : EmergencyAction}, actions[place]? = some changed →
      changed.ratificationStatus = .required → (actions.set place put)[index]? = some action := by
    intro place changed put there required
    rw [List.getElem?_set_ne, found]
    rintro rfl
    rw [found, Option.some.injEq] at there
    exact settled (there ▸ required)
  cases step with
  | unchanged => exact ⟨action, found, rfl, rfl⟩
  | created passed made =>
    refine ⟨action, ?_, rfl, rfl⟩
    rw [List.getElem?_append_left (List.getElem?_eq_some_iff.mp found).1, found]
  | expired there required => exact ⟨action, elsewhere there required, rfl, rfl⟩
  | ratified asked there required inTime => exact ⟨action, elsewhere there required, rfl, rfl⟩

/-- An action becomes ratified only by a call that ratifies it, up to its deadline. -/
def RatifiedInTime (actions : List EmergencyAction) (op : EmergencyStep)
    (after : List EmergencyAction) : Prop :=
  ∀ (index : ℕ) (action : EmergencyAction), after[index]? = some action →
    action.ratificationStatus = .ratified →
    (∃ before, actions[index]? = some before ∧ before.ratificationStatus = .ratified) ∨
      ∃ decisionId timestamp, op = .ratify index decisionId timestamp ∧
        timestamp ≤ action.ratificationDeadline

/-- What is found after one action was put in a place. -/
theorem found_of_set {place index : ℕ} {put action : EmergencyAction}
    (found : (actions.set place put)[index]? = some action) :
    actions[index]? = some action ∨ place = index ∧ put = action := by
  rw [List.getElem?_set] at found
  split at found
  · rename_i same
    split at found
    · exact .inr ⟨same, Option.some.inj found⟩
    · cases found
  · exact .inl found

theorem ratified_step (step : StepResult policy actions op after) :
    RatifiedInTime actions op after := by
  intro index action found ratified
  cases step with
  | unchanged => exact .inl ⟨action, found, ratified⟩
  | created passed made =>
    rw [List.getElem?_append] at found
    split at found
    · exact .inl ⟨action, found, ratified⟩
    · obtain rfl := List.mem_singleton.mp (List.mem_of_getElem? found)
      rw [made.required] at ratified
      cases ratified
  | expired there required =>
    rcases found_of_set found with elsewhere | ⟨-, rfl⟩
    · exact .inl ⟨action, elsewhere, ratified⟩
    · cases ratified
  | ratified asked there required inTime =>
    rcases found_of_set found with elsewhere | ⟨rfl, rfl⟩
    · exact .inl ⟨action, elsewhere, ratified⟩
    · exact .inr ⟨_, _, asked, inTime⟩

end Steps

/-- **What is claimed of a run**: no actor is over the limit, every action is within the policy and
names a decision exactly if it is ratified, what is ratified or expired stays so with its decision, and
an action becomes ratified only by a ratification up to its deadline. -/
structure LimitsKept (policy : EmergencyPolicy) (ops : List EmergencyStep) : Prop where
  limit : Throughout (emergencyStep policy) (WithinLimit policy) [] ops
  sound : Throughout (emergencyStep policy)
    (fun actions => ∀ action ∈ actions, action.Sound policy) [] ops
  settled : Evolves (emergencyStep policy) KeepsSettled [] ops
  inTime : Along (emergencyStep policy)
    (fun actions op => RatifiedInTime actions op (emergencyStep policy actions op)) [] ops

/-- **Emergency actions keep their limits** in every run, under every policy with a limit for the
actors. -/
theorem emergency_limits_kept (policy : EmergencyPolicy) (limited : 0 < policy.maxPerQuarterPerActor)
    (ops : List EmergencyStep) : LimitsKept policy ops := by
  have step := step_cases policy
  refine ⟨?_, ?_, ?_, ?_⟩
  · refine throughout_of_preserved
      (fun actions op within => withinLimit_step limited (step actions op) within) ?_ ops
    exact fun actor => Nat.zero_le _
  · refine throughout_of_preserved (fun actions op sound => sound_step (step actions op) sound) ?_ ops
    exact fun action member => absurd member List.not_mem_nil
  · refine (evolves_iff_along ?_ ?_).mpr
      (along_of_forall (fun actions op => settled_step (step actions op)) _ ops)
    · exact fun actions index action found _ => ⟨action, found, rfl, rfl⟩
    · intro first second third earlier later index action found settled
      obtain ⟨between, there, status, decision⟩ := earlier index action found settled
      obtain ⟨after, last, status', decision'⟩ := later index between there (status ▸ settled)
      exact ⟨after, last, status'.trans status, decision'.trans decision⟩
  · exact along_of_forall (fun actions op => ratified_step (step actions op)) _ ops

namespace Sample

/-- A halt of the system by an officer. -/
def halt : EmergencyStep :=
  .create (FixedBytes.fill 16 7) .systemHalt ⟨"did:exo:officer"⟩ "breach" 5000 .zero ⟨1000, 0⟩

/-- A halt that is ratified in time, and another one that is refused. -/
theorem halt_ratified :
    LimitsKept .default [halt, .ratify 0 (FixedBytes.fill 16 9) ⟨2000, 0⟩, halt] ∧
      (run (emergencyStep .default) [] [halt, .ratify 0 (FixedBytes.fill 16 9) ⟨2000, 0⟩, halt]).map
        EmergencyAction.ratificationStatus = [.ratified] :=
  ⟨emergency_limits_kept .default (by decide) _, by decide +kernel⟩

end Sample

end Exochain.DecisionForum
