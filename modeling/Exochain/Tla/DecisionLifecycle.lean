/-
**`DecisionLifecycle.tla` — the lifecycle of a decision.**

The specification of the decision lifecycle, action by action, with the invariants that its module lists.
The set of actors is the type of the actors.

* **`lifecycle_safe`** — in every behaviour: the log of transitions is a path of valid ones from `Created`
  to the status, a terminal status is permanent, voting is only reached with a verified quorum, and a tally
  only happens with enough votes. Three of the listed statuses are never reached.
* **`votes_only_during_voting_iff`** — the invariant `VotesOnlyDuringVoting` holds in a behaviour exactly if
  no contestation is resolved after votes were cast: resolving goes back to deliberation and keeps them.
* `Contested.votes_kept` — a behaviour that breaks it.
-/

import Exochain.Foundation.Specification

set_option linter.unusedSectionVars false

namespace Exochain.DecisionLifecycle

open Foundation

/-! ### The specification -/

/-- Status values. -/
inductive Status where
  | created
  | deliberation
  | voting
  | approved
  | rejected
  | void
  | contested
  | ratificationRequired
  | ratificationExpired
  | degradedGovernance
  deriving DecidableEq, Repr

/-- Terminal statuses. -/
def terminalStatuses : List Status := [.approved, .rejected, .void, .ratificationExpired]

/-- Valid transition relation. -/
def ValidTransition (source target : Status) : Prop :=
  (source = .created ∧ target ∈ [.deliberation, .void]) ∨
  (source = .deliberation ∧ target ∈ [.voting, .void, .contested]) ∨
  (source = .voting ∧ target ∈ [.approved, .rejected, .void, .contested]) ∨
  (source = .contested ∧ target ∈ [.deliberation, .void]) ∨
  (source = .ratificationRequired ∧ target ∈ [.approved, .ratificationExpired, .void]) ∨
  (source = .degradedGovernance ∧ target ∈ [.deliberation, .void])

instance (source target : Status) : Decidable (ValidTransition source target) :=
  inferInstanceAs (Decidable (_ ∨ _))

/-- The variables. -/
structure State (Actor : Type) where
  status : Status
  votes : Finset Actor
  quorumVerified : Bool
  transitionLog : List (Status × Status)
  contested : Bool
  deriving DecidableEq

/-- The first state. -/
def init {Actor : Type} : State Actor where
  status := .created
  votes := ∅
  quorumVerified := false
  transitionLog := []
  contested := false

/-- The state moved to another status, with an entry in the log. -/
def State.moved {Actor : Type} (state : State Actor) (target : Status) : State Actor :=
  { state with status := target, transitionLog := state.transitionLog ++ [(state.status, target)] }

section Actions

variable {Actor : Type} [DecidableEq Actor]

/-- The next state, one case for each action. -/
inductive Next (minQuorum : ℕ) (state : State Actor) : State Actor → Prop where
  | advanceToDeliberation (here : state.status = .created) :
    Next minQuorum state (state.moved .deliberation)
  | verifyQuorum (here : state.status = .deliberation) (unverified : state.quorumVerified = false) :
    Next minQuorum state { state with quorumVerified := true }
  | advanceToVoting (here : state.status = .deliberation) (verified : state.quorumVerified = true) :
    Next minQuorum state (state.moved .voting)
  | castVote (actor : Actor) (here : state.status = .voting) (fresh : actor ∉ state.votes) :
    Next minQuorum state { state with votes := insert actor state.votes }
  | tallyApprove (here : state.status = .voting) (enough : minQuorum ≤ state.votes.card) :
    Next minQuorum state (state.moved .approved)
  | tallyReject (here : state.status = .voting) (enough : minQuorum ≤ state.votes.card) :
    Next minQuorum state (state.moved .rejected)
  | voidDecision (running : state.status ∉ terminalStatuses) (valid : ValidTransition state.status .void) :
    Next minQuorum state (state.moved .void)
  | raiseContestationFromDeliberation (here : state.status = .deliberation) :
    Next minQuorum state { state.moved .contested with contested := true }
  | raiseContestationFromVoting (here : state.status = .voting) :
    Next minQuorum state { state.moved .contested with contested := true }
  | resolveContestationToDeliberation (here : state.status = .contested) :
    Next minQuorum state { state.moved .deliberation with contested := false }

/-- The specification. -/
def spec (minQuorum : ℕ) : Specification (State Actor) where
  Init state := state = init
  Next := Next minQuorum

/-! ### The invariants -/

/-- A terminal status is permanent. -/
def TerminalIsPermanent (state after : State Actor) : Prop :=
  state.status ∈ terminalStatuses → after.status = state.status

/-- Only valid transitions occur. -/
def OnlyValidTransitions (state : State Actor) : Prop :=
  ∀ entry ∈ state.transitionLog, ValidTransition entry.1 entry.2

/-- Voting is not reached without a verified quorum. -/
def VotingRequiresQuorum (state : State Actor) : Prop :=
  state.status = .voting → state.quorumVerified = true

/-- Votes are there only during voting, after it, or under contestation. -/
def VotesOnlyDuringVoting (state : State Actor) : Prop :=
  state.votes ≠ ∅ →
    state.status = .voting ∨ state.status ∈ terminalStatuses ∨ state.status = .contested

/-- No status is skipped: the log leads from `Created` to the status, each entry from where the last one
ended. -/
def Traced : Status → List (Status × Status) → Status → Prop
  | source, [], target => source = target
  | source, entry :: log, target => entry.1 = source ∧ Traced entry.2 log target

theorem Traced.concat {source middle target : Status} {log : List (Status × Status)}
    (traced : Traced source log middle) : Traced source (log ++ [(middle, target)]) target := by
  induction log generalizing source with
  | nil => exact ⟨traced.symm, rfl⟩
  | cons entry log ih => exact ⟨traced.1, ih traced.2⟩

/-- **The invariant.** -/
structure Invariant (minQuorum : ℕ) (state : State Actor) : Prop where
  reached : state.status ∉ [.ratificationRequired, .ratificationExpired, .degradedGovernance]
  valid : OnlyValidTransitions state
  traced : Traced .created state.transitionLog state.status
  verified : state.status ∈ [.voting, .approved, .rejected] → state.quorumVerified = true
  tallied : state.status ∈ [.approved, .rejected] → minQuorum ≤ state.votes.card
  flagged : state.status = .contested → state.contested = true

variable {minQuorum : ℕ}

theorem invariant_init : Invariant minQuorum (init : State Actor) where
  reached := by simp [init]
  valid entry member := absurd member List.not_mem_nil
  traced := rfl
  verified here := by simp [init] at here
  tallied here := by simp [init] at here
  flagged here := nomatch here

/-- What a valid move keeps: the other fields of the next state are free, and what they have to satisfy is
asked for. -/
theorem Invariant.moved {state after : State Actor} (inv : Invariant minQuorum state) (target : Status)
    (status : after.status = target)
    (log : after.transitionLog = state.transitionLog ++ [(state.status, target)])
    (valid : ValidTransition state.status target)
    (reached : target ∉ [.ratificationRequired, .ratificationExpired, .degradedGovernance])
    (verified : target ∈ [.voting, .approved, .rejected] → after.quorumVerified = true)
    (tallied : target ∈ [.approved, .rejected] → minQuorum ≤ after.votes.card)
    (flagged : target = .contested → after.contested = true) : Invariant minQuorum after := by
  subst status
  refine ⟨reached, fun entry member => ?_, ?_, verified, tallied, flagged⟩
  · rw [log] at member
    rcases List.mem_append.mp member with earlier | last
    · exact inv.valid entry earlier
    · rw [List.mem_singleton.mp last]
      exact valid
  · rw [log]
    exact inv.traced.concat

/-- Every action keeps the invariant. -/
theorem Invariant.next {state after : State Actor} (inv : Invariant minQuorum state)
    (step : Next minQuorum state after) : Invariant minQuorum after := by
  cases step with
  | advanceToDeliberation here =>
    exact inv.moved .deliberation rfl rfl (by rw [here]; decide) (by decide) (by simp) (by simp) (by simp)
  | verifyQuorum here unverified =>
    obtain ⟨reached, valid, traced, _, tallied, flagged⟩ := inv
    exact ⟨reached, valid, traced, fun _ => rfl, tallied, flagged⟩
  | advanceToVoting here verified =>
    exact inv.moved .voting rfl rfl (by rw [here]; decide) (by decide) (fun _ => verified) (by simp) (by simp)
  | castVote actor here fresh =>
    obtain ⟨reached, valid, traced, verified, tallied, flagged⟩ := inv
    have open' : state.status ∉ [.approved, .rejected] := by simp [here]
    exact ⟨reached, valid, traced, verified, fun decided => absurd decided open', flagged⟩
  | tallyApprove here enough =>
    have verified := inv.verified (by simp [here])
    exact inv.moved .approved rfl rfl (by rw [here]; decide) (by decide) (fun _ => verified)
      (fun _ => enough) (by simp)
  | tallyReject here enough =>
    have verified := inv.verified (by simp [here])
    exact inv.moved .rejected rfl rfl (by rw [here]; decide) (by decide) (fun _ => verified)
      (fun _ => enough) (by simp)
  | voidDecision running valid =>
    exact inv.moved .void rfl rfl valid (by decide) (by simp) (by simp) (by simp)
  | raiseContestationFromDeliberation here =>
    exact inv.moved .contested rfl rfl (by rw [here]; decide) (by decide) (by simp) (by simp) (fun _ => rfl)
  | raiseContestationFromVoting here =>
    exact inv.moved .contested rfl rfl (by rw [here]; decide) (by decide) (by simp) (by simp) (fun _ => rfl)
  | resolveContestationToDeliberation here =>
    exact inv.moved .deliberation rfl rfl (by rw [here]; decide) (by decide) (by simp) (by simp) (by simp)

theorem invariant_of_behaves {behavior : ℕ → State Actor} (behaves : (spec minQuorum).Behaves behavior)
    (n : ℕ) : Invariant minQuorum (behavior n) :=
  behaves.always (fun _ start => by rw [start]; exact invariant_init) (fun _ _ inv step => inv.next step) n

/-- No action starts from a terminal status. -/
theorem not_terminal_of_next {state after : State Actor} (step : Next minQuorum state after) :
    state.status ∉ terminalStatuses := by
  cases step with
  | voidDecision running => exact running
  | advanceToDeliberation here => rw [here]; decide
  | verifyQuorum here => rw [here]; decide
  | advanceToVoting here => rw [here]; decide
  | castVote _ here => rw [here]; decide
  | tallyApprove here => rw [here]; decide
  | tallyReject here => rw [here]; decide
  | raiseContestationFromDeliberation here => rw [here]; decide
  | raiseContestationFromVoting here => rw [here]; decide
  | resolveContestationToDeliberation here => rw [here]; decide

/-- **The lifecycle is safe.** In every state of every behaviour the status is one of the seven that can be
reached, the log is a path of valid transitions from `Created` to it, voting and both outcomes have a verified
quorum, and both outcomes enough votes; and no step leaves a terminal status. -/
theorem lifecycle_safe (minQuorum : ℕ) {behavior : ℕ → State Actor}
    (behaves : (spec minQuorum).Behaves behavior) :
    (∀ n, Invariant minQuorum (behavior n)) ∧
      ∀ n, TerminalIsPermanent (behavior n) (behavior (n + 1)) := by
  refine ⟨invariant_of_behaves behaves, fun n => ?_⟩
  refine behaves.always_step (P := fun _ => True) (fun _ => trivial) (fun _ _ => rfl) ?_ n
  intro state after _ step terminal
  exact absurd terminal (not_terminal_of_next step)

/-! ### Votes outside voting -/

/-- A contestation is resolved, and votes were cast. -/
def ResolvesWithVotes (state after : State Actor) : Prop :=
  state.status = .contested ∧ after.status = .deliberation ∧ state.votes ≠ ∅

/-- Only a step from a contestation resolves one. -/
theorem not_resolves {state after : State Actor} (elsewhere : state.status ≠ .contested) :
    ¬ ResolvesWithVotes state after := fun resolves => elsewhere resolves.1

/-- A move to a terminal status may take votes along. -/
theorem votesOnly_moved {state : State Actor} {target : Status} (terminal : target ∈ terminalStatuses) :
    VotesOnlyDuringVoting (state.moved target) := fun _ => .inr (.inl terminal)

/-- Where votes are only allowed during voting or after it, a deliberation has none. -/
theorem VotesOnlyDuringVoting.votes_eq {state : State Actor} (only : VotesOnlyDuringVoting state)
    (here : state.status = .created ∨ state.status = .deliberation) : state.votes = ∅ := by
  by_contra some
  rcases here with here | here <;> simpa [here, terminalStatuses] using only some

/-- **One action** keeps the votes in their place unless it resolves a contestation after votes. -/
theorem votesOnly_next_iff {state after : State Actor} (only : VotesOnlyDuringVoting state)
    (step : Next minQuorum state after) : VotesOnlyDuringVoting after ↔ ¬ ResolvesWithVotes state after := by
  cases step with
  | advanceToDeliberation here =>
    have none := only.votes_eq (.inl here)
    exact iff_of_true (fun some => absurd none some) (not_resolves (by simp [here]))
  | verifyQuorum here =>
    have none := only.votes_eq (.inr here)
    exact iff_of_true (fun some => absurd none some) (not_resolves (by simp [here]))
  | advanceToVoting here =>
    exact iff_of_true (fun _ => .inl rfl) (not_resolves (by simp [here]))
  | castVote _ here =>
    exact iff_of_true (fun _ => .inl here) (not_resolves (by simp [here]))
  | tallyApprove here =>
    exact iff_of_true (votesOnly_moved (by decide)) (not_resolves (by simp [here]))
  | tallyReject here =>
    exact iff_of_true (votesOnly_moved (by decide)) (not_resolves (by simp [here]))
  | voidDecision =>
    exact iff_of_true (votesOnly_moved (by decide)) fun resolves => nomatch resolves.2.1
  | raiseContestationFromDeliberation here =>
    exact iff_of_true (fun _ => .inr (.inr rfl)) (not_resolves (by simp [here]))
  | raiseContestationFromVoting here =>
    exact iff_of_true (fun _ => .inr (.inr rfl)) (not_resolves (by simp [here]))
  | resolveContestationToDeliberation here =>
    -- the votes stay, and deliberation must not have any
    have kept : VotesOnlyDuringVoting { state.moved .deliberation with contested := false } ↔
        state.votes = ∅ := by
      simp [VotesOnlyDuringVoting, State.moved, terminalStatuses]
    rw [kept]
    simp [ResolvesWithVotes, State.moved, here]

/-- **Votes are only there during voting exactly if no contestation is resolved after votes.** -/
theorem votes_only_during_voting_iff (minQuorum : ℕ) {behavior : ℕ → State Actor}
    (behaves : (spec minQuorum).Behaves behavior) :
    (∀ n, VotesOnlyDuringVoting (behavior n)) ↔
      ∀ n, ¬ ResolvesWithVotes (behavior n) (behavior (n + 1)) := by
  refine behaves.always_iff (I := fun _ => True) (fun _ => trivial) ?_ ?_ ?_
  · rintro state rfl some
    exact absurd rfl some
  · exact fun state after _ only step => votesOnly_next_iff only step
  · rintro state ⟨contested, deliberating, -⟩
    exact nomatch contested.symm.trans deliberating

end Actions

/-! ### A behaviour that takes votes back to deliberation -/

namespace Contested

/-- Deliberation, a verified quorum, voting, a vote, a contestation, and its resolution. -/
def deliberating : State (Fin 1) := init.moved .deliberation

def verified : State (Fin 1) := { deliberating with quorumVerified := true }

def voting : State (Fin 1) := verified.moved .voting

def voted : State (Fin 1) := { voting with votes := insert 0 voting.votes }

def raised : State (Fin 1) := { voted.moved .contested with contested := true }

def resolved : State (Fin 1) := { raised.moved .deliberation with contested := false }

/-- The states one after the other, the last one for ever. -/
def behavior (n : ℕ) : State (Fin 1) :=
  [init, deliberating, verified, voting, voted, raised].getD n resolved

theorem behaves : (spec 1).Behaves behavior where
  init := rfl
  next
    | 0 => .inl (.advanceToDeliberation rfl)
    | 1 => .inl (.verifyQuorum rfl rfl)
    | 2 => .inl (.advanceToVoting rfl rfl)
    | 3 => .inl (.castVote 0 rfl (by decide))
    | 4 => .inl (.raiseContestationFromVoting rfl)
    | 5 => .inl (.resolveContestationToDeliberation rfl)
    | _ + 6 => .inr rfl

/-- A vote is still there in the second deliberation, and the step into it is the one named. -/
theorem votes_kept :
    ¬ VotesOnlyDuringVoting (behavior 6) ∧ ResolvesWithVotes (behavior 5) (behavior 6) := by
  have cast : (behavior 6).votes ≠ ∅ := Finset.insert_ne_empty 0 _
  exact ⟨fun only => cast (only.votes_eq (.inr rfl)), rfl, rfl, cast⟩

/-- The exact condition on this behaviour. -/
theorem votes_only_iff_contested :
    (∀ n, VotesOnlyDuringVoting (behavior n)) ↔
      ∀ n, ¬ ResolvesWithVotes (behavior n) (behavior (n + 1)) :=
  votes_only_during_voting_iff 1 behaves

/-- Safety of this behaviour. -/
theorem lifecycle_safe_contested :
    (∀ n, Invariant 1 (behavior n)) ∧ ∀ n, TerminalIsPermanent (behavior n) (behavior (n + 1)) :=
  lifecycle_safe 1 behaves

end Contested

end Exochain.DecisionLifecycle
