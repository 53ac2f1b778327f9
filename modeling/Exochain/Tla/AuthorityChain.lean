/-
**`AuthorityChain.tla` — delegations and the actions taken with them.**

The specification of authority verification: delegations are granted and revoked, and an action is logged only
if its actor holds a delegation for the class of the decision that is neither revoked nor expired, passes the
human gate, and stays below the ceiling of agents. The current time is a constant of the module.

* **`authority_safe`** — in every behaviour every logged action was verified, the human gate and the ceiling
  hold, every delegation is unexpired, and every logged action is backed by a delegation for its class that was
  granted, revoked since or not.
* **`no_expired_delegations_used_iff`** — the invariant `NoExpiredDelegationsUsed` looks at the delegations of
  now, not at those of the action: it holds in a behaviour exactly if no step revokes the only delegation in
  force of an actor who has acted.
* `Revoked.breaks` — a behaviour that breaks it.
-/

import Exochain.Foundation.Specification

set_option linter.unusedSectionVars false

namespace Exochain.AuthorityChain

open Foundation

/-! ### The specification -/

/-- Decision classes. -/
inductive DecisionClass where
  | operational
  | strategic
  | constitutional
  | emergency
  deriving DecidableEq, Repr

/-- Actions. -/
inductive Action where
  | createDecision
  | castVote
  | amendConstitution
  | grantDelegation
  deriving DecidableEq, Repr

/-- Classes requiring the human gate. -/
def humanGateClasses : List DecisionClass := [.strategic, .constitutional, .emergency]

/-- Actions forbidden for agents. -/
def aiForbiddenActions : List Action := [.amendConstitution, .grantDelegation]

/-- A delegation record. -/
structure Delegation (Actor : Type) where
  delegator : Actor
  delegatee : Actor
  scope : DecisionClass
  expiresAt : ℕ
  revoked : Bool
  deriving DecidableEq

/-- An action of the log. -/
structure LoggedAction (Actor : Type) where
  actor : Actor
  action : Action
  decisionClass : DecisionClass
  verified : Bool
  deriving DecidableEq

/-- The variables. -/
structure State (Actor : Type) where
  delegations : Finset (Delegation Actor)
  actionLog : List (LoggedAction Actor)
  verified : Bool

/-- The constants, apart from the set of actors, which is the type. -/
structure Constants (Actor : Type) where
  humanActors : Set Actor
  aiActors : Set Actor
  currentTime : ℕ

/-- The first state. -/
def init {Actor : Type} : State Actor where
  delegations := ∅
  actionLog := []
  verified := false

section Actions

variable {Actor : Type} [DecidableEq Actor]

/-- A delegation in force. -/
def Delegation.InForce (constants : Constants Actor) (delegation : Delegation Actor) : Prop :=
  delegation.revoked = false ∧ constants.currentTime < delegation.expiresAt

/-- The delegations after one of them was revoked. -/
def revokeIn (delegations : Finset (Delegation Actor)) (delegation : Delegation Actor) :
    Finset (Delegation Actor) :=
  insert { delegation with revoked := true } (delegations.erase delegation)

/-- The next state, one case for each action. -/
inductive Next (constants : Constants Actor) (state : State Actor) : State Actor → Prop where
  | grantDelegation (delegator delegatee : Actor) (scope : DecisionClass) (expiresAt : ℕ)
    (distinct : delegator ≠ delegatee)
    (range : expiresAt ∈ Finset.Icc (constants.currentTime + 1) (constants.currentTime + 100)) :
    Next constants state
      { state with delegations := insert ⟨delegator, delegatee, scope, expiresAt, false⟩ state.delegations }
  | revokeDelegation (delegation : Delegation Actor) (member : delegation ∈ state.delegations)
    (unrevoked : delegation.revoked = false) :
    Next constants state { state with delegations := revokeIn state.delegations delegation }
  | attemptAction (actor : Actor) (action : Action) (decisionClass : DecisionClass)
    (authorized : ∃ delegation ∈ state.delegations, delegation.delegatee = actor ∧
      delegation.InForce constants ∧ delegation.scope = decisionClass)
    (gate : decisionClass ∈ humanGateClasses → actor ∈ constants.humanActors)
    (ceiling : actor ∈ constants.aiActors → action ∉ aiForbiddenActions) :
    Next constants state
      { state with
        verified := true
        actionLog := state.actionLog ++ [⟨actor, action, decisionClass, true⟩] }

/-- The specification. -/
def spec (constants : Constants Actor) : Specification (State Actor) where
  Init state := state = init
  Next := Next constants

/-! ### The invariants -/

variable (constants : Constants Actor)

/-- Every logged action was verified. -/
def AllActionsVerified (state : State Actor) : Prop := ∀ entry ∈ state.actionLog, entry.verified = true

/-- No one but humans takes actions behind the human gate. -/
def HumanGateIntegrity (state : State Actor) : Prop :=
  ∀ entry ∈ state.actionLog,
    entry.decisionClass ∈ humanGateClasses → entry.actor ∈ constants.humanActors

/-- Agents do not take forbidden actions. -/
def AiCeilingRespected (state : State Actor) : Prop :=
  ∀ entry ∈ state.actionLog, entry.actor ∈ constants.aiActors → entry.action ∉ aiForbiddenActions

/-- Whoever took an action holds a delegation in force. -/
def NoExpiredDelegationsUsed (state : State Actor) : Prop :=
  ∀ entry ∈ state.actionLog, entry.verified = true →
    ∃ delegation ∈ state.delegations, delegation.delegatee = entry.actor ∧ delegation.InForce constants

/-- **The invariant.** -/
structure Invariant (state : State Actor) : Prop where
  verified : AllActionsVerified state
  gate : HumanGateIntegrity constants state
  ceiling : AiCeilingRespected constants state
  unexpired : ∀ delegation ∈ state.delegations, constants.currentTime < delegation.expiresAt
  proper : ∀ delegation ∈ state.delegations, delegation.delegator ≠ delegation.delegatee
  backed : ∀ entry ∈ state.actionLog, ∃ delegation ∈ state.delegations,
    delegation.delegatee = entry.actor ∧ delegation.scope = entry.decisionClass

variable {constants}

theorem mem_revokeIn_iff {delegations : Finset (Delegation Actor)}
    {revoked delegation : Delegation Actor} :
    delegation ∈ revokeIn delegations revoked ↔
      delegation = { revoked with revoked := true } ∨
        (delegation ≠ revoked ∧ delegation ∈ delegations) := by
  rw [revokeIn, Finset.mem_insert, Finset.mem_erase]

theorem Invariant.of_init {state : State Actor} (start : (spec constants).Init state) :
    Invariant constants state := by
  obtain rfl : state = init := start
  exact
    { verified := fun _ member => absurd member List.not_mem_nil
      gate := fun _ member => absurd member List.not_mem_nil
      ceiling := fun _ member => absurd member List.not_mem_nil
      unexpired := fun _ member => absurd member (Finset.notMem_empty _)
      proper := fun _ member => absurd member (Finset.notMem_empty _)
      backed := fun _ member => absurd member List.not_mem_nil }

/-- What holds of a longer log. -/
theorem forall_mem_concat {log : List (LoggedAction Actor)} {last : LoggedAction Actor}
    {P : LoggedAction Actor → Prop} (earlier : ∀ entry ∈ log, P entry) (here : P last) :
    ∀ entry ∈ log ++ [last], P entry := by
  intro entry member
  rcases List.mem_append.mp member with before | new
  · exact earlier entry before
  · rwa [List.mem_singleton.mp new]

/-- Every action keeps the invariant. -/
theorem Invariant.next {state after : State Actor} (inv : Invariant constants state)
    (step : Next constants state after) : Invariant constants after := by
  obtain ⟨verified, gate, ceiling, unexpired, proper, backed⟩ := inv
  cases step with
  | grantDelegation delegator delegatee scope expiresAt distinct range =>
    refine ⟨verified, gate, ceiling, ?_, ?_, fun entry member => ?_⟩
    · exact Finset.forall_mem_insert _ _ _ |>.mpr ⟨(Finset.mem_Icc.mp range).1, unexpired⟩
    · exact Finset.forall_mem_insert _ _ _ |>.mpr ⟨distinct, proper⟩
    · obtain ⟨delegation, held, backs⟩ := backed entry member
      exact ⟨delegation, Finset.mem_insert_of_mem held, backs⟩
  | revokeDelegation revoked held unrevoked =>
    refine ⟨verified, gate, ceiling, fun delegation member => ?_, fun delegation member => ?_,
      fun entry member => ?_⟩
    · rcases mem_revokeIn_iff.mp member with rfl | ⟨-, other⟩
      · exact unexpired revoked held
      · exact unexpired delegation other
    · rcases mem_revokeIn_iff.mp member with rfl | ⟨-, other⟩
      · exact proper revoked held
      · exact proper delegation other
    · -- a revoked delegation goes on backing what was done with it
      obtain ⟨delegation, kept, backs⟩ := backed entry member
      by_cases same : delegation = revoked
      · exact ⟨{ revoked with revoked := true }, mem_revokeIn_iff.mpr (.inl rfl), by rwa [← same]⟩
      · exact ⟨delegation, mem_revokeIn_iff.mpr (.inr ⟨same, kept⟩), backs⟩
  | attemptAction actor action decisionClass authorized gated below =>
    obtain ⟨delegation, held, delegatee, -, scope⟩ := authorized
    exact ⟨forall_mem_concat verified rfl, forall_mem_concat gate gated, forall_mem_concat ceiling below,
      unexpired, proper, forall_mem_concat backed ⟨delegation, held, delegatee, scope⟩⟩

/-- **Authority is verified.** In every state of every behaviour every logged action was verified, the human
gate and the ceiling of agents hold, no delegation is expired or of an actor to itself, and every logged action
is backed by a delegation for its class that was granted. -/
theorem authority_safe (constants : Constants Actor) {behavior : ℕ → State Actor}
    (behaves : (spec constants).Behaves behavior) (n : ℕ) : Invariant constants (behavior n) :=
  behaves.always (fun _ => .of_init) (fun _ _ => .next) n

/-! ### Delegations of now -/

/-- The only delegation in force of an actor who has acted is revoked. -/
def RevokesLast (constants : Constants Actor) (state after : State Actor) : Prop :=
  ∃ revoked ∈ state.delegations, revoked.revoked = false ∧
    after.delegations = revokeIn state.delegations revoked ∧
    (∃ entry ∈ state.actionLog, entry.actor = revoked.delegatee) ∧
    ∀ delegation ∈ state.delegations, delegation.delegatee = revoked.delegatee →
      delegation.InForce constants → delegation = revoked

/-- A delegation that is revoked is no longer in force. -/
theorem not_revokesLast_of_subset {state after : State Actor}
    (kept : state.delegations ⊆ after.delegations) : ¬ RevokesLast constants state after := by
  rintro ⟨revoked, held, unrevoked, delegations, -, -⟩
  have still := kept held
  rw [delegations, mem_revokeIn_iff] at still
  rcases still with same | ⟨different, -⟩
  · rw [same] at unrevoked
    exact nomatch unrevoked
  · exact different rfl

/-- **One action** keeps a delegation in force for everyone who acted unless it revokes the last one. -/
theorem used_next_iff {state after : State Actor} (inv : Invariant constants state)
    (used : NoExpiredDelegationsUsed constants state) (step : Next constants state after) :
    NoExpiredDelegationsUsed constants after ↔ ¬ RevokesLast constants state after := by
  cases step with
  | grantDelegation delegator delegatee scope expiresAt distinct range =>
    refine iff_of_true (fun entry member verified => ?_)
      (not_revokesLast_of_subset (Finset.subset_insert _ _))
    obtain ⟨delegation, held, backs⟩ := used entry member verified
    exact ⟨delegation, Finset.mem_insert_of_mem held, backs⟩
  | attemptAction actor action decisionClass authorized gated below =>
    refine iff_of_true ?_ (not_revokesLast_of_subset (Finset.Subset.refl _))
    obtain ⟨delegation, held, delegatee, inForce, -⟩ := authorized
    exact forall_mem_concat used fun _ => ⟨delegation, held, delegatee, inForce⟩
  | revokeDelegation revoked held unrevoked =>
    constructor
    · rintro after_used ⟨last, lastHeld, lastUnrevoked, same, ⟨entry, member, acted⟩, only⟩
      -- the delegation in force after the step would have to be the one revoked
      obtain ⟨delegation, kept, delegatee, inForce⟩ :=
        after_used entry member (inv.verified entry member)
      have kept' : delegation ∈ revokeIn state.delegations last := by
        rw [← same]
        exact kept
      rcases mem_revokeIn_iff.mp kept' with rfl | ⟨different, other⟩
      · exact nomatch inForce.1
      · exact different (only delegation other (delegatee.trans acted) inForce)
    · intro spared entry member verified
      obtain ⟨delegation, kept, delegatee, inForce⟩ := used entry member verified
      by_cases same : delegation = revoked
      · -- the actor's delegation is the one revoked, so another one is in force
        subst same
        by_contra none
        refine spared ⟨delegation, held, unrevoked, rfl, ⟨entry, member, delegatee.symm⟩, ?_⟩
        intro other otherHeld otherDelegatee otherInForce
        by_contra different
        exact none ⟨other, mem_revokeIn_iff.mpr (.inr ⟨different, otherHeld⟩),
          otherDelegatee.trans delegatee, otherInForce⟩
      · exact ⟨delegation, mem_revokeIn_iff.mpr (.inr ⟨same, kept⟩), delegatee, inForce⟩

/-- **No expired delegations are used exactly if no step revokes the last delegation of an actor who has
acted.** -/
theorem no_expired_delegations_used_iff (constants : Constants Actor) {behavior : ℕ → State Actor}
    (behaves : (spec constants).Behaves behavior) :
    (∀ n, NoExpiredDelegationsUsed constants (behavior n)) ↔
      ∀ n, ¬ RevokesLast constants (behavior n) (behavior (n + 1)) := by
  have invariant : ∀ n, Invariant constants (behavior n) :=
    behaves.always (fun _ => .of_init) (fun _ _ => .next)
  refine behaves.always_iff invariant ?_ (fun state after inv used step => used_next_iff inv used step)
    fun state => not_revokesLast_of_subset (Finset.Subset.refl _)
  rintro state rfl entry member
  exact absurd member List.not_mem_nil

end Actions

/-! ### A delegation revoked after its use -/

namespace Revoked

/-- One human, one agent, and the time. -/
def constants : Constants (Fin 2) where
  humanActors := {0}
  aiActors := {1}
  currentTime := 10

/-- The delegation of the human to the agent. -/
def delegation : Delegation (Fin 2) := ⟨0, 1, .operational, 11, false⟩

/-- It is granted, used for a vote, and revoked. -/
def granted : State (Fin 2) := { init with delegations := insert delegation init.delegations }

def used : State (Fin 2) :=
  { granted with
    verified := true
    actionLog := granted.actionLog ++ [⟨1, .castVote, .operational, true⟩] }

def behavior (n : ℕ) : State (Fin 2) :=
  [init, granted, used].getD n { used with delegations := revokeIn used.delegations delegation }

theorem held : delegation ∈ granted.delegations := Finset.mem_insert_self _ _

theorem behaves : (spec constants).Behaves behavior where
  init := rfl
  next
    | 0 => .inl (.grantDelegation 0 1 .operational 11 (by decide) (by decide))
    | 1 => .inl (.attemptAction 1 .castVote .operational ⟨delegation, held, rfl, ⟨rfl, by decide⟩, rfl⟩
        (fun gated => absurd gated (by decide)) fun _ => by decide)
    | 2 => .inl (.revokeDelegation delegation held rfl)
    | _ + 3 => .inr rfl

/-- At the end no delegation is in force, and the vote is still in the log. -/
theorem breaks : ¬ NoExpiredDelegationsUsed constants (behavior 3) := by
  intro none
  obtain ⟨last, kept, -, inForce, -⟩ := none ⟨1, .castVote, .operational, true⟩ (by decide) rfl
  have kept' : last ∈ revokeIn used.delegations delegation := kept
  rcases mem_revokeIn_iff.mp kept' with rfl | ⟨different, other⟩
  · exact nomatch inForce
  · exact different (Finset.mem_singleton.mp other)

/-- The invariant, and the exact condition, on this behaviour. -/
theorem authority_safe_revoked : Invariant constants (behavior 3) := authority_safe constants behaves 3

theorem no_expired_iff_revoked :
    (∀ n, NoExpiredDelegationsUsed constants (behavior n)) ↔
      ∀ n, ¬ RevokesLast constants (behavior n) (behavior (n + 1)) :=
  no_expired_delegations_used_iff constants behaves

end Revoked

end Exochain.AuthorityChain
