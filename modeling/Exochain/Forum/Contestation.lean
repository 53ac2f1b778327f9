/-
**`decision-forum` — contestation and reversal.**

A challenge against a decision is filed, may come under review, and is adjudicated or withdrawn. A decision is
contested while a challenge against it is filed or under review, and a reversal is linked to a sustained
challenge. Who adjudicates or withdraws is not asked.

* `attempt_of_resolves`, `attempt_of_ended` — what a call does to a challenge.
* `run_of_active` — where a challenge stands after any calls: the first call that adjudicates or withdraws it
  decides, whatever comes before and after.
* **`contested_iff`** — over any interleaving of filings and calls: a decision is contested exactly if a
  challenge against it was filed and none of the calls addressed to that challenge since adjudicates or
  withdraws it.
* **`reversal_iff`** — a reversal can be linked to a challenge exactly if the first such call sustained it,
  and the link then names the challenge and the decision it was filed against.
-/

import Exochain.Foundation.Attempts
import Exochain.Forum.DecisionObject

set_option linter.unusedSectionVars false

namespace Exochain.DecisionForum

open Foundation ExoCore

/-! ### Challenges -/

/-- The ground of a challenge. -/
inductive ChallengeGround where
  | authorityChainInvalid
  | quorumViolation
  | undisclosedConflict
  | proceduralError
  | sybilAllegation
  | consentViolation
  deriving DecidableEq, Repr

/-- Where a challenge stands. -/
inductive ChallengeStatus where
  | filed
  | underReview
  | sustained
  | overruled
  | withdrawn
  deriving DecidableEq, Repr

/-- The name of a status in texts. -/
def ChallengeStatus.debug : ChallengeStatus → String
  | filed => "Filed"
  | underReview => "UnderReview"
  | sustained => "Sustained"
  | overruled => "Overruled"
  | withdrawn => "Withdrawn"

/-- A verdict on a challenge. -/
inductive ChallengeVerdict where
  | sustain
  | overrule
  deriving DecidableEq, Repr

/-- A challenge filed against a decision. -/
structure ChallengeObject where
  id : Uuid
  decisionId : Uuid
  challengerDid : Did
  ground : ChallengeGround
  evidenceHash : Hash256
  status : ChallengeStatus
  createdAt : Timestamp
  resolvedAt : Option Timestamp
  resolutionDecisionId : Option Uuid
  deriving DecidableEq

/-- A link from a decision to the one that reverses it. -/
structure ReversalLink where
  originalDecisionId : Uuid
  reversalDecisionId : Uuid
  challengeId : Uuid
  reversedAt : Timestamp
  deriving DecidableEq

namespace ChallengeObject

/-- File a challenge, with the identifier it is given. -/
def fileChallenge (id decisionId : Uuid) (challenger : Did) (ground : ChallengeGround)
    (evidenceHash : Hash256) (timestamp : Timestamp) : ChallengeObject where
  id
  decisionId
  challengerDid := challenger
  ground
  evidenceHash
  status := .filed
  createdAt := timestamp
  resolvedAt := none
  resolutionDecisionId := none

/-- The status that a verdict leads to. -/
def statusOf : ChallengeVerdict → ChallengeStatus
  | .sustain => .sustained
  | .overrule => .overruled

/-- Adjudicate a challenge. -/
def adjudicate (challenge : ChallengeObject) (verdict : ChallengeVerdict) (timestamp : Timestamp) :
    Except ForumError ChallengeObject :=
  match challenge.status with
  | .filed | .underReview =>
    .ok { challenge with status := statusOf verdict, resolvedAt := some timestamp }
  | .sustained | .overruled | .withdrawn =>
    .error (.challengeError ("cannot adjudicate from status " ++ challenge.status.debug))

/-- Mark a challenge as under review. -/
def beginReview (challenge : ChallengeObject) : Except ForumError ChallengeObject :=
  if challenge.status ≠ .filed then .error (.challengeError "can only begin review from Filed status")
  else .ok { challenge with status := .underReview }

/-- Withdraw a challenge. -/
def withdraw (challenge : ChallengeObject) : Except ForumError ChallengeObject :=
  match challenge.status with
  | .filed | .underReview => .ok { challenge with status := .withdrawn }
  | .sustained | .overruled | .withdrawn =>
    .error (.challengeError ("cannot withdraw from " ++ challenge.status.debug))

/-- Link a reversal to a sustained challenge. -/
def createReversal (challenge : ChallengeObject) (reversalDecisionId : Uuid) (timestamp : Timestamp) :
    Except ForumError ReversalLink :=
  if challenge.status ≠ .sustained then
    .error (.challengeError "reversal requires sustained challenge")
  else
    .ok { originalDecisionId := challenge.decisionId
          reversalDecisionId
          challengeId := challenge.id
          reversedAt := timestamp }

/-- Whether a challenge is active. -/
def isActive (challenge : ChallengeObject) : Bool :=
  match challenge.status with
  | .filed | .underReview => true
  | .sustained | .overruled | .withdrawn => false

/-- Whether a decision is contested. -/
def isContested (challenges : List ChallengeObject) (decisionId : Uuid) : Bool :=
  challenges.any fun c => decide (c.decisionId = decisionId) && c.isActive

/-! ### Calls -/

/-- A call that may change a challenge. -/
inductive Call where
  | beginReview
  | adjudicate (verdict : ChallengeVerdict) (timestamp : Timestamp)
  | withdraw
  deriving DecidableEq

/-- The answer of a call. -/
def call (challenge : ChallengeObject) : Call → Except ForumError ChallengeObject
  | .beginReview => challenge.beginReview
  | .adjudicate verdict timestamp => challenge.adjudicate verdict timestamp
  | .withdraw => challenge.withdraw

/-- The challenge after an accepted call. -/
def attempt (challenge : ChallengeObject) (called : Call) : Option ChallengeObject :=
  (challenge.call called).toOption

/-- A call that ends a challenge. -/
def Call.resolves : Call → Bool
  | beginReview => false
  | adjudicate _ _ => true
  | withdraw => true

/-- What a call that ends a challenge makes of it. -/
def resolvedBy (challenge : ChallengeObject) : Call → ChallengeObject
  | .beginReview => challenge
  | .adjudicate verdict timestamp =>
    { challenge with status := statusOf verdict, resolvedAt := some timestamp }
  | .withdraw => { challenge with status := .withdrawn }

section Challenges

variable {challenge : ChallengeObject} {called : Call}

/-- A call that ends challenges ends an active one. -/
theorem attempt_of_resolves (active : challenge.isActive = true) (resolves : called.resolves = true) :
    challenge.attempt called = some (challenge.resolvedBy called) := by
  cases called with
  | beginReview => exact nomatch resolves
  | adjudicate verdict timestamp =>
    show (challenge.adjudicate verdict timestamp).toOption = _
    unfold isActive at active
    unfold adjudicate
    cases here : challenge.status with
    | filed | underReview => rfl
    | sustained | overruled | withdrawn => simp [here] at active
  | withdraw =>
    show challenge.withdraw.toOption = _
    unfold isActive at active
    unfold withdraw
    cases here : challenge.status with
    | filed | underReview => rfl
    | sustained | overruled | withdrawn => simp [here] at active

/-- A review leaves an active challenge active. -/
theorem attempted_review (active : challenge.isActive = true) :
    ∃ status, attempted attempt challenge .beginReview = { challenge with status } ∧
      isActive { challenge with status } = true := by
  by_cases here : challenge.status = .filed
  · refine ⟨.underReview, attempted_of_some ?_, rfl⟩
    show challenge.beginReview.toOption = _
    simp [beginReview, here, Except.toOption]
  · refine ⟨challenge.status, attempted_of_none ?_, active⟩
    show challenge.beginReview.toOption = _
    simp [beginReview, here, Except.toOption]

/-- A challenge that has ended takes no call. -/
theorem attempt_of_ended (ended : challenge.isActive = false) : challenge.attempt called = none := by
  unfold isActive at ended
  cases here : challenge.status with
  | filed | underReview => simp [here] at ended
  | sustained | overruled | withdrawn =>
    cases called with
    | beginReview =>
      show challenge.beginReview.toOption = none
      simp [beginReview, here, Except.toOption]
    | adjudicate verdict timestamp =>
      show (challenge.adjudicate verdict timestamp).toOption = none
      simp [adjudicate, here, Except.toOption]
    | withdraw =>
      show challenge.withdraw.toOption = none
      simp [withdraw, here, Except.toOption]

theorem ended_resolvedBy (resolves : called.resolves = true) :
    (challenge.resolvedBy called).isActive = false := by
  cases called with
  | beginReview => exact nomatch resolves
  | adjudicate verdict => cases verdict <;> rfl
  | withdraw => rfl

theorem run_of_ended (ended : challenge.isActive = false) (calls : List Call) :
    run (attempted attempt) challenge calls = challenge := by
  induction calls with
  | nil => rfl
  | cons called calls ih => rw [run_cons, attempted_of_none (attempt_of_ended ended), ih]

/-- **The first call that ends challenges decides.** Without one an active challenge stays active; with one it
is what that call makes of it, whatever the calls before and after. -/
theorem run_of_active (active : challenge.isActive = true) (calls : List Call) :
    match calls.find? Call.resolves with
    | none => ∃ status, run (attempted attempt) challenge calls = { challenge with status } ∧
        isActive { challenge with status } = true
    | some called => run (attempted attempt) challenge calls = challenge.resolvedBy called := by
  induction calls generalizing challenge with
  | nil => exact ⟨challenge.status, rfl, active⟩
  | cons first calls ih =>
    rw [List.find?_cons, run_cons]
    cases resolves : first.resolves with
    | true =>
      have ended : (challenge.resolvedBy first).isActive = false := ended_resolvedBy resolves
      rw [attempted_of_some (attempt_of_resolves active resolves)]
      exact run_of_ended ended calls
    | false =>
      obtain rfl : first = .beginReview := by
        cases first with
        | beginReview => rfl
        | adjudicate => exact nomatch resolves
        | withdraw => exact nomatch resolves
      obtain ⟨status, reviewed, still⟩ := attempted_review active
      rw [reviewed]
      have rest := ih still
      dsimp only
      cases found : calls.find? Call.resolves with
      | none =>
        rw [found] at rest
        exact rest
      | some called =>
        rw [found] at rest
        dsimp only at rest ⊢
        rw [rest]
        have resolves := List.find?_some found
        cases called with
        | beginReview => exact nomatch resolves
        | adjudicate => rfl
        | withdraw => rfl

/-- An active challenge is still active after some calls if none of them ends challenges. -/
theorem isActive_run_iff (active : challenge.isActive = true) (calls : List Call) :
    (run (attempted attempt) challenge calls).isActive = true ↔
      ∀ called ∈ calls, called.resolves = false := by
  have decided := run_of_active active calls
  cases found : calls.find? Call.resolves with
  | none =>
    rw [found] at decided
    obtain ⟨status, last, still⟩ := decided
    rw [last]
    exact iff_of_true still fun called member => by simpa using List.find?_eq_none.mp found called member
  | some called =>
    rw [found] at decided
    have resolves := List.find?_some found
    rw [show run (attempted attempt) challenge calls = challenge.resolvedBy called from decided,
      ended_resolvedBy resolves]
    refine iff_of_false Bool.false_ne_true fun all => ?_
    rw [all called (List.mem_of_find?_eq_some found)] at resolves
    exact nomatch resolves

/-- Calls do not change what a challenge is against, nor its identifier. -/
theorem same_run (challenge : ChallengeObject) (calls : List Call) :
    (run (attempted attempt) challenge calls).decisionId = challenge.decisionId ∧
      (run (attempted attempt) challenge calls).id = challenge.id := by
  cases active : challenge.isActive with
  | false =>
    rw [run_of_ended active]
    exact ⟨rfl, rfl⟩
  | true =>
    have decided := run_of_active active calls
    cases found : calls.find? Call.resolves with
    | none =>
      rw [found] at decided
      obtain ⟨status, last, -⟩ := decided
      rw [last]
      exact ⟨rfl, rfl⟩
    | some called =>
      rw [found] at decided
      rw [show run (attempted attempt) challenge calls = challenge.resolvedBy called from decided]
      cases called <;> exact ⟨rfl, rfl⟩

/-! ### Dockets of challenges -/

/-- The challenges after any filings and calls. -/
def docket (ops : List (DocketOp ChallengeObject Call)) : List ChallengeObject :=
  run (docketStep attempt) [] ops

/-- Every challenge is filed as such. -/
def Filed (ops : List (DocketOp ChallengeObject Call)) : Prop :=
  ∀ challenge, .file challenge ∈ ops → challenge.status = .filed

theorem active_of_filed {ops : List (DocketOp ChallengeObject Call)} (filed : Filed ops)
    {before after : List (DocketOp ChallengeObject Call)} {challenge : ChallengeObject}
    (split : ops = before ++ .file challenge :: after) : challenge.isActive = true := by
  have here := filed challenge (by rw [split]; simp)
  rw [isActive, here]

/-- **When a decision is contested.** Over any interleaving of filings and calls, a decision is contested
exactly if a challenge against it was filed and no call addressed to that challenge since adjudicates or
withdraws it. -/
theorem contested_iff (ops : List (DocketOp ChallengeObject Call)) (filed : Filed ops) (decisionId : Uuid) :
    isContested (docket ops) decisionId = true ↔
      ∃ before challenge after, ops = before ++ .file challenge :: after ∧
        challenge.decisionId = decisionId ∧
        ∀ called ∈ addressed (before.countP DocketOp.isFile) after, called.resolves = false := by
  rw [isContested, List.any_eq_true]
  constructor
  · rintro ⟨last, member, contested⟩
    obtain ⟨index, found⟩ := List.mem_iff_getElem?.mp member
    obtain ⟨before, challenge, after, split, place, history⟩ := getElem?_run_docket_iff.mp found
    rw [Bool.and_eq_true, decide_eq_true_iff, ← history, (same_run _ _).1,
      isActive_run_iff (active_of_filed filed split)] at contested
    exact ⟨before, challenge, after, split, contested.1, by rw [place]; exact contested.2⟩
  · rintro ⟨before, challenge, after, split, against, unresolved⟩
    have found : (docket ops)[before.countP DocketOp.isFile]? =
        some (run (attempted attempt) challenge (addressed (before.countP DocketOp.isFile) after)) :=
      getElem?_run_docket_iff.mpr ⟨before, challenge, after, split, rfl, rfl⟩
    refine ⟨_, List.mem_of_getElem? found, ?_⟩
    rw [Bool.and_eq_true, decide_eq_true_iff, (same_run _ _).1,
      isActive_run_iff (active_of_filed filed split)]
    exact ⟨against, unresolved⟩

/-- A reversal is linked to a challenge that was sustained. -/
theorem createReversal_eq_ok_iff {reversalDecisionId : Uuid} {timestamp : Timestamp} {link : ReversalLink} :
    challenge.createReversal reversalDecisionId timestamp = .ok link ↔
      challenge.status = .sustained ∧
        link = ⟨challenge.decisionId, reversalDecisionId, challenge.id, timestamp⟩ := by
  unfold createReversal
  by_cases here : challenge.status = .sustained
  · simp [here, eq_comm]
  · simp [here]

/-- A challenge is sustained if the first call that ends challenges says so. -/
theorem sustained_run_iff (active : challenge.isActive = true) (calls : List Call) :
    (run (attempted attempt) challenge calls).status = .sustained ↔
      ∃ timestamp, calls.find? Call.resolves = some (.adjudicate .sustain timestamp) := by
  have decided := run_of_active active calls
  cases found : calls.find? Call.resolves with
  | none =>
    rw [found] at decided
    obtain ⟨status, last, still⟩ := decided
    rw [last]
    refine iff_of_false (fun sustained => ?_) fun ⟨_, first⟩ => nomatch first
    rw [show status = .sustained from sustained] at still
    exact nomatch still
  | some called =>
    rw [found] at decided
    rw [show run (attempted attempt) challenge calls = challenge.resolvedBy called from decided]
    have resolves := List.find?_some found
    cases called with
    | beginReview => exact nomatch resolves
    | adjudicate verdict timestamp => cases verdict <;> simp [resolvedBy, statusOf]
    | withdraw => simp [resolvedBy]

/-- **When a decision can be reversed.** Over any interleaving of filings and calls, a reversal can be linked to
the challenge at a position exactly if the first call addressed to it since its filing that adjudicates or
withdraws it sustained it; the link then names that challenge and the decision it was filed against. -/
theorem reversal_iff (ops : List (DocketOp ChallengeObject Call)) (filed : Filed ops) (index : ℕ)
    (reversalDecisionId : Uuid) (timestamp : Timestamp) (link : ReversalLink) :
    (∃ challenge, (docket ops)[index]? = some challenge ∧
        challenge.createReversal reversalDecisionId timestamp = .ok link) ↔
      ∃ before challenge after decided, ops = before ++ .file challenge :: after ∧
        before.countP DocketOp.isFile = index ∧
        (addressed index after).find? Call.resolves = some (.adjudicate .sustain decided) ∧
        link = ⟨challenge.decisionId, reversalDecisionId, challenge.id, timestamp⟩ := by
  constructor
  · rintro ⟨last, found, linked⟩
    obtain ⟨before, challenge, after, split, place, rfl⟩ := getElem?_run_docket_iff.mp found
    obtain ⟨sustained, names⟩ := createReversal_eq_ok_iff.mp linked
    obtain ⟨decided, first⟩ := (sustained_run_iff (active_of_filed filed split) _).mp sustained
    rw [(same_run _ _).1, (same_run _ _).2] at names
    exact ⟨before, challenge, after, decided, split, place, first, names⟩
  · rintro ⟨before, challenge, after, decided, split, place, first, names⟩
    refine ⟨_, getElem?_run_docket_iff.mpr ⟨before, challenge, after, split, place, rfl⟩, ?_⟩
    rw [createReversal_eq_ok_iff, (same_run _ _).1, (same_run _ _).2]
    exact ⟨(sustained_run_iff (active_of_filed filed split) _).mpr ⟨decided, first⟩, names⟩

end Challenges

namespace Docketed

/-- A challenge. -/
def challenge : ChallengeObject :=
  fileChallenge (FixedBytes.fill 16 1) (FixedBytes.fill 16 2) ⟨"did:exo:carol"⟩ .proceduralError .zero .zero

/-- It is filed, reviewed, sustained, and withdrawn too late. -/
def ops : List (DocketOp ChallengeObject Call) :=
  [.file challenge, .call 0 .beginReview, .call 0 (.adjudicate .sustain .zero), .call 0 .withdraw]

theorem filed : Filed ops := by
  intro other member
  simp only [ops, List.mem_cons, reduceCtorEq, List.not_mem_nil, or_false] at member
  rw [DocketOp.file.inj member]
  rfl

theorem contested_iff_docketed :
    isContested (docket ops) challenge.decisionId = true ↔
      ∃ before other after, ops = before ++ .file other :: after ∧
        other.decisionId = challenge.decisionId ∧
        ∀ called ∈ addressed (before.countP DocketOp.isFile) after, called.resolves = false :=
  contested_iff ops filed challenge.decisionId

/-- The link of the reversal. -/
def link : ReversalLink := ⟨FixedBytes.fill 16 2, FixedBytes.fill 16 3, FixedBytes.fill 16 1, .zero⟩

theorem reversal_iff_docketed :
    (∃ other, (docket ops)[0]? = some other ∧
        other.createReversal (FixedBytes.fill 16 3) .zero = .ok link) ↔
      ∃ before other after decided, ops = before ++ .file other :: after ∧
        before.countP DocketOp.isFile = 0 ∧
        (addressed 0 after).find? Call.resolves = some (.adjudicate .sustain decided) ∧
        link = ⟨other.decisionId, FixedBytes.fill 16 3, other.id, .zero⟩ :=
  reversal_iff ops filed 0 (FixedBytes.fill 16 3) .zero link

end Docketed

end ChallengeObject

end Exochain.DecisionForum
