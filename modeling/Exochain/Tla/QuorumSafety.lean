/-
**`QuorumSafety.tla` — the quorum, between the lifecycle and the code.**

The specification of quorum enforcement: votes are records of a voter and a choice, a tally needs enough of
them, and a vote that ends short of the quorum ends in degraded governance.

* **`quorum_safety`** — its two invariants hold in every behaviour, no voter votes twice; and every state
  short of degraded governance stands for a reachable state of the decision lifecycle. The step into degraded
  governance stands for none: the lifecycle has no such transition.
* `Mirrors` — the votes of the specification are those of a decision object of the code.
* **`check_quorum_refines`** — whatever votes a decision object is offered, the specification reaches the
  votes it took, and the code's check answers as the specification's tally does, where enough of the voters
  are human: short of votes exactly if governance degrades, met exactly if the tally approves.
-/

import Exochain.Forum.Tally
import Exochain.Tla.DecisionLifecycle

set_option linter.unusedSectionVars false

namespace Exochain.QuorumSafety

open Foundation ExoCore DecisionForum
open DecisionLifecycle (Status)

/-! ### The specification -/

/-- A vote: a voter and a choice. -/
abbrev Ballot := Did × VoteChoice

/-- The variables. -/
structure State where
  status : Status
  votes : Finset Ballot
  quorumChecked : Bool

/-- The first state. -/
def init : State where
  status := .created
  votes := ∅
  quorumChecked := false

/-- The approvals among the votes. -/
def State.approvals (state : State) : ℕ := (state.votes.filter fun vote => vote.2 = .approve).card

/-- What the tally decides. -/
def State.tallied (thresholdPct : ℕ) (state : State) : Status :=
  if state.votes.card * thresholdPct ≤ state.approvals * 100 then .approved else .rejected

/-- The next state, one case for each action. -/
inductive Next (voters : Set Did) (minQuorum thresholdPct : ℕ) (state : State) : State → Prop where
  | moveToDeliberation (here : state.status = .created) :
    Next voters minQuorum thresholdPct state { state with status := .deliberation }
  | verifyQuorumAndStartVoting (here : state.status = .deliberation) :
    Next voters minQuorum thresholdPct state { state with status := .voting, quorumChecked := true }
  | castVote (voter : Did) (choice : VoteChoice) (here : state.status = .voting) (member : voter ∈ voters)
    (fresh : ∀ vote ∈ state.votes, vote.1 ≠ voter) :
    Next voters minQuorum thresholdPct state { state with votes := insert (voter, choice) state.votes }
  | tally (here : state.status = .voting) (enough : minQuorum ≤ state.votes.card) :
    Next voters minQuorum thresholdPct state { state with status := state.tallied thresholdPct }
  | activateDegradedGovernance (here : state.status = .voting) (short : state.votes.card < minQuorum) :
    Next voters minQuorum thresholdPct state { state with status := .degradedGovernance }

/-- The specification. -/
def spec (voters : Set Did) (minQuorum thresholdPct : ℕ) : Specification State where
  Init state := state = init
  Next := Next voters minQuorum thresholdPct

section Safety

variable {voters : Set Did} {minQuorum thresholdPct : ℕ}

/-- No tally produces an outcome without a quorum. -/
def NoTallyWithoutQuorum (minQuorum : ℕ) (state : State) : Prop :=
  state.status ∈ [.approved, .rejected] → minQuorum ≤ state.votes.card

/-- Voting requires the quorum to have been checked. -/
def VotingRequiresQuorum (state : State) : Prop := state.status = .voting → state.quorumChecked = true

/-- **The invariant.** -/
structure Invariant (voters : Set Did) (minQuorum : ℕ) (state : State) : Prop where
  tallied : NoTallyWithoutQuorum minQuorum state
  checked : VotingRequiresQuorum state
  single : Set.InjOn Prod.fst (state.votes : Set Ballot)
  eligible : ∀ vote ∈ state.votes, vote.1 ∈ voters

theorem invariant_init : Invariant voters minQuorum init where
  tallied here := by simp [init] at here
  checked here := nomatch here
  single := by simp [init]
  eligible vote cast := absurd cast (Finset.notMem_empty vote)

theorem tallied_cases (thresholdPct : ℕ) (state : State) :
    state.tallied thresholdPct = .approved ∨ state.tallied thresholdPct = .rejected := by
  unfold State.tallied
  split
  · exact .inl rfl
  · exact .inr rfl

theorem Invariant.next {state after : State} (inv : Invariant voters minQuorum state)
    (step : Next voters minQuorum thresholdPct state after) : Invariant voters minQuorum after := by
  obtain ⟨tallied, checked, single, eligible⟩ := inv
  cases step with
  | moveToDeliberation here => exact ⟨by simp [NoTallyWithoutQuorum], nofun, single, eligible⟩
  | verifyQuorumAndStartVoting here =>
    exact ⟨by simp [NoTallyWithoutQuorum], fun _ => rfl, single, eligible⟩
  | castVote voter choice here member fresh =>
    refine ⟨fun decided => ?_, checked, ?_, fun vote cast => ?_⟩
    · simp [here] at decided
    · have unvoted : voter ∉ Prod.fst '' (state.votes : Set Ballot) := by
        rintro ⟨vote, cast, same⟩
        exact fresh vote cast same
      have uncast : (voter, choice) ∉ (state.votes : Set Ballot) :=
        fun cast => unvoted ⟨_, cast, rfl⟩
      rw [Finset.coe_insert]
      exact (Set.injOn_insert uncast).mpr ⟨single, unvoted⟩
    · rcases Finset.mem_insert.mp cast with rfl | earlier
      · exact member
      · exact eligible vote earlier
  | tally here enough =>
    refine ⟨fun _ => enough, fun again => ?_, single, eligible⟩
    rcases tallied_cases thresholdPct state with outcome | outcome
    · exact nomatch outcome.symm.trans again
    · exact nomatch outcome.symm.trans again
  | activateDegradedGovernance here short =>
    exact ⟨by simp [NoTallyWithoutQuorum], nofun, single, eligible⟩

theorem invariant_of_behaves {behavior : ℕ → State}
    (behaves : (spec voters minQuorum thresholdPct).Behaves behavior) (n : ℕ) :
    Invariant voters minQuorum (behavior n) :=
  behaves.always (fun _ start => by rw [start]; exact invariant_init) (fun _ _ inv step => inv.next step) n

/-! ### The lifecycle above -/

/-- The state of the lifecycle that a state stands for; the log is left open. -/
structure StandsFor (state : State) (image : DecisionLifecycle.State Did) : Prop where
  status : image.status = state.status
  votes : image.votes = state.votes.image Prod.fst
  verified : image.quorumVerified = state.quorumChecked

theorem stands_init {state : State} (start : state = init) :
    Invariant voters minQuorum state ∧ StandsFor state DecisionLifecycle.init := by
  rw [start]
  exact ⟨invariant_init, rfl, rfl, rfl⟩

/-- Degraded governance is final. -/
theorem not_degraded_of_next {state after : State} (step : Next voters minQuorum thresholdPct state after) :
    state.status ≠ .degradedGovernance := by
  cases step with
  | moveToDeliberation here => simp [here]
  | verifyQuorumAndStartVoting here => simp [here]
  | castVote _ _ here => simp [here]
  | tally here => simp [here]
  | activateDegradedGovernance here => simp [here]

/-- **One action is answered by actions of the lifecycle**, unless governance degrades. -/
theorem answered {state after : State} {image : DecisionLifecycle.State Did}
    (inv : Invariant voters minQuorum state) (stands : StandsFor state image)
    (step : Next voters minQuorum thresholdPct state after) (within : after.status ≠ .degradedGovernance) :
    ∃ image', Relation.ReflTransGen (DecisionLifecycle.Next minQuorum) image image' ∧
      StandsFor after image' := by
  obtain ⟨status, votes, verified⟩ := stands
  cases step with
  | moveToDeliberation here =>
    exact ⟨_, .single (.advanceToDeliberation (status.trans here)), rfl, votes, verified⟩
  | verifyQuorumAndStartVoting here =>
    -- two actions of the lifecycle, unless the quorum is verified already
    cases checked : image.quorumVerified with
    | false =>
      have first : DecisionLifecycle.Next minQuorum image { image with quorumVerified := true } :=
        .verifyQuorum (status.trans here) checked
      exact ⟨_, (Relation.ReflTransGen.single first).tail (.advanceToVoting (status.trans here) rfl), rfl,
        votes, rfl⟩
    | true => exact ⟨_, .single (.advanceToVoting (status.trans here) checked), rfl, votes, checked⟩
  | castVote voter choice here member fresh =>
    have unvoted : voter ∉ image.votes := by
      rw [votes, Finset.mem_image]
      rintro ⟨vote, cast, same⟩
      exact fresh vote cast same
    refine ⟨_, .single (.castVote voter (status.trans here) unvoted), status, ?_, verified⟩
    show insert voter image.votes = (insert (voter, choice) state.votes).image Prod.fst
    rw [Finset.image_insert, votes]
  | tally here enough =>
    have counted : minQuorum ≤ image.votes.card := by
      rw [votes, Finset.card_image_of_injOn inv.single]
      exact enough
    rcases tallied_cases thresholdPct state with outcome | outcome
    · exact ⟨_, .single (.tallyApprove (status.trans here) counted), outcome.symm, votes, verified⟩
    · exact ⟨_, .single (.tallyReject (status.trans here) counted), outcome.symm, votes, verified⟩
  | activateDegradedGovernance => exact absurd rfl within

/-- **Quorum safety.** In every state of every behaviour there is no outcome without a quorum and no voting
without a quorum check, and every voter is eligible and votes at most once. A state stands for a reachable state
of the decision lifecycle exactly if governance is not degraded. -/
theorem quorum_safety (voters : Set Did) (minQuorum thresholdPct : ℕ) {behavior : ℕ → State}
    (behaves : (spec voters minQuorum thresholdPct).Behaves behavior) (n : ℕ) :
    Invariant voters minQuorum (behavior n) ∧
      ((∃ image, (DecisionLifecycle.spec minQuorum).Reachable image ∧ StandsFor (behavior n) image) ↔
        (behavior n).status ≠ .degradedGovernance) := by
  refine ⟨invariant_of_behaves behaves n, ?_, fun within => ?_⟩
  · rintro ⟨image, reachable, stands⟩ degraded
    have inv : DecisionLifecycle.Invariant minQuorum image :=
      reachable.invariant (fun _ start => by rw [start]; exact DecisionLifecycle.invariant_init)
        fun _ _ inv step => inv.next step
    exact inv.reached (by simp [stands.status, degraded])
  · obtain ⟨image, reachable, -, stands⟩ := (behaves.reachable n).simulated
      (DecisionLifecycle.spec minQuorum)
      (fun state image => Invariant voters minQuorum state ∧ StandsFor state image)
      (fun state => state.status ≠ .degradedGovernance)
      (fun state start => ⟨DecisionLifecycle.init, .of_init rfl, stands_init start⟩)
      (fun _ _ step _ => not_degraded_of_next step)
      (fun state after image _ related _ step within => by
        obtain ⟨image', path, stands⟩ := answered related.1 related.2 step within
        exact ⟨image', path, related.1.next step, stands⟩)
      within
    exact ⟨image, reachable, stands⟩

end Safety

/-! ### The code below -/

/-- The ballot that a vote of the code is. -/
def ballot (vote : Vote) : Ballot := (vote.voterDid, vote.choice)

/-- The state is voting, and its votes are those that the decision took, from distinct voters. -/
structure Mirrors (state : State) (decision : DecisionObject) : Prop where
  status : state.status = .voting
  distinct : decision.voters.Nodup
  votes : state.votes = (decision.votes.map ballot).toFinset

section Code

variable {voters : Set Did} {minQuorum thresholdPct : ℕ} {state : State} {decision : DecisionObject}

/-- A vote that is offered is refused, or it is by a new voter and taken. -/
theorem voteStep_cases (decision : DecisionObject) (vote : Vote) :
    decision.voteStep vote = decision ∨
      (vote.voterDid ∉ decision.voters ∧
        decision.voteStep vote = { decision with votes := decision.votes ++ [vote] }) := by
  unfold DecisionObject.voteStep
  cases added : decision.addVote vote with
  | error => exact .inl rfl
  | ok taken =>
    obtain ⟨-, fresh, rfl⟩ := DecisionObject.addVote_eq_ok_iff.mp added
    exact .inr ⟨fresh, rfl⟩

/-- A vote that the code takes is cast, one that it refuses is not. -/
theorem mirrors_voteStep (reachable : (spec voters minQuorum thresholdPct).Reachable state)
    (mirrors : Mirrors state decision) {vote : Vote} (eligible : vote.voterDid ∈ voters) :
    ∃ after, (spec voters minQuorum thresholdPct).Reachable after ∧
      Mirrors after (decision.voteStep vote) := by
  obtain ⟨status, distinct, votes⟩ := mirrors
  rcases voteStep_cases decision vote with refused | ⟨fresh, taken⟩
  · rw [refused]
    exact ⟨state, reachable, status, distinct, votes⟩
  · have unvoted : ∀ cast ∈ state.votes, cast.1 ≠ vote.voterDid := by
      intro cast member same
      rw [votes, List.mem_toFinset, List.mem_map] at member
      obtain ⟨earlier, member, rfl⟩ := member
      exact fresh (List.mem_map.mpr ⟨earlier, member, same⟩)
    have step : Next voters minQuorum thresholdPct state
        { state with votes := insert (vote.voterDid, vote.choice) state.votes } :=
      .castVote vote.voterDid vote.choice status eligible unvoted
    rw [taken]
    refine ⟨_, reachable.step step, status, ?_, ?_⟩
    · show ((decision.votes ++ [vote]).map Vote.voterDid).Nodup
      rw [List.map_append, List.map_singleton, ← List.concat_eq_append]
      exact distinct.concat fresh
    · show insert (ballot vote) state.votes = ((decision.votes ++ [vote]).map ballot).toFinset
      rw [votes]
      ext cast
      simp

/-- Whatever votes a decision without votes is offered, the specification reaches those that it took. -/
theorem exists_mirror (minQuorum thresholdPct : ℕ) (none : decision.votes = [])
    {votes : List Vote} (eligible : ∀ vote ∈ votes, vote.voterDid ∈ voters) :
    ∃ state, (spec voters minQuorum thresholdPct).Reachable state ∧
      Mirrors state (run DecisionObject.voteStep decision votes) := by
  induction votes using List.reverseRecOn with
  | nil =>
    have start : (spec voters minQuorum thresholdPct).Reachable init := .of_init rfl
    have voting := (start.step (.moveToDeliberation rfl)).step (.verifyQuorumAndStartVoting rfl)
    refine ⟨_, voting, rfl, ?_, ?_⟩
    · rw [run_nil, DecisionObject.voters, none]
      exact List.nodup_nil
    · rw [run_nil, none]
      rfl
  | append_singleton votes vote ih =>
    obtain ⟨state, reachable, mirrors⟩ :=
      ih fun vote member => eligible vote (List.mem_append_left _ member)
    rw [run_append]
    exact mirrors_voteStep reachable mirrors (eligible vote (by simp))

theorem Mirrors.nodup_ballots (mirrors : Mirrors state decision) : (decision.votes.map ballot).Nodup := by
  refine List.Nodup.of_map Prod.fst ?_
  rw [List.map_map]
  exact mirrors.distinct

/-- The counts of the specification are those of the code. -/
theorem Mirrors.card_votes (mirrors : Mirrors state decision) :
    state.votes.card = decision.votes.length := by
  rw [mirrors.votes, List.toFinset_card_of_nodup mirrors.nodup_ballots, List.length_map]

theorem Mirrors.approvals_eq (mirrors : Mirrors state decision) :
    state.approvals = decision.approveCount := by
  have approving : state.votes.filter (fun vote => vote.2 = .approve) =
      ((decision.votes.map ballot).filter fun vote => vote.2 = .approve).toFinset := by
    rw [mirrors.votes]
    ext vote
    simp
  unfold State.approvals DecisionObject.approveCount
  rw [approving, List.toFinset_card_of_nodup (mirrors.nodup_ballots.filter _),
    ← List.countP_eq_length_filter, List.countP_map]
  rfl

/-- The specification may end the voting in a status. -/
def EndsIn (voters : Set Did) (minQuorum thresholdPct : ℕ) (state : State) (target : Status) : Prop :=
  Next voters minQuorum thresholdPct state { state with status := target }

/-- From voting, a state only changes its status by the tally or into degraded governance. -/
theorem endsIn_iff (here : state.status = .voting) {target : Status} (ends : target ≠ .voting) :
    EndsIn voters minQuorum thresholdPct state target ↔
      (minQuorum ≤ state.votes.card ∧ state.tallied thresholdPct = target) ∨
      (state.votes.card < minQuorum ∧ target = .degradedGovernance) := by
  unfold EndsIn
  constructor
  · intro step
    generalize after : { state with status := target } = next at step
    have moved : next.status = target := by rw [← after]
    cases step with
    | moveToDeliberation created => exact nomatch here.symm.trans created
    | verifyQuorumAndStartVoting deliberating => exact nomatch here.symm.trans deliberating
    | castVote => exact absurd (moved.symm.trans here) ends
    | tally _ enough => exact .inl ⟨enough, moved⟩
    | activateDegradedGovernance _ short => exact .inr ⟨short, moved.symm⟩
  · rintro (⟨enough, rfl⟩ | ⟨short, rfl⟩)
    · exact .tally here enough
    · exact .activateDegradedGovernance here short

/-- The tally of the specification is the comparison of the code's counts. -/
theorem Mirrors.tallied_eq_iff (mirrors : Mirrors state decision) :
    state.tallied thresholdPct = .approved ↔
      tallyApproves decision.approveCount decision.votes.length thresholdPct := by
  unfold State.tallied tallyApproves
  rw [mirrors.card_votes, mirrors.approvals_eq]
  split
  · rename_i approves
    exact iff_of_true rfl approves
  · rename_i rejects
    exact iff_of_false (by simp) rejects

/-- Votes do not change the class of a decision. -/
theorem decisionClass_run (decision : DecisionObject) (votes : List Vote) :
    (run DecisionObject.voteStep decision votes).decisionClass = decision.decisionClass := by
  induction votes using List.reverseRecOn with
  | nil => rfl
  | append_singleton votes vote ih =>
    rw [run_append, ← ih]
    generalize run DecisionObject.voteStep decision votes = before
    show (before.voteStep vote).decisionClass = before.decisionClass
    rcases voteStep_cases before vote with refused | ⟨_, taken⟩
    · rw [refused]
    · rw [taken]

/-! ### The check of the code -/

variable {registry : QuorumRegistry} {req : QuorumRequirement}

theorem degraded_iff (needs : registry.requirementFor decision.decisionClass = some req) :
    (∃ reason available required,
        checkQuorum registry decision = .ok (.degraded reason available required)) ↔
      decision.votes.length < req.minVotes := by
  unfold checkQuorum
  rw [needs]
  dsimp only
  split
  · rename_i short
    exact iff_of_true ⟨_, _, _, rfl⟩ short
  · rename_i enough
    refine iff_of_false ?_ enough
    rintro ⟨reason, available, required, degraded⟩
    split at degraded
    · exact nomatch degraded
    · split at degraded
      · exact nomatch degraded
      · exact nomatch degraded

theorem notMet_iff (needs : registry.requirementFor decision.decisionClass = some req)
    (humans : req.minHumanVotes ≤ decision.humanCount) :
    (∃ reason, checkQuorum registry decision = .ok (.notMet reason)) ↔
      req.minVotes ≤ decision.votes.length ∧ decision.approvePct < req.minApprovePct := by
  unfold checkQuorum
  rw [needs]
  dsimp only
  rw [if_neg (Nat.not_lt_of_le humans)]
  split
  · rename_i short
    exact iff_of_false (fun ⟨_, unmet⟩ => nomatch unmet) fun met => absurd short (Nat.not_lt_of_le met.1)
  · rename_i enough
    split
    · rename_i below
      exact iff_of_true ⟨_, rfl⟩ ⟨Nat.le_of_not_lt enough, below⟩
    · rename_i reached
      exact iff_of_false (fun ⟨_, unmet⟩ => nomatch unmet) fun unmet => reached unmet.2

/-- **The check of the code refines the tally.** A decision without votes is offered votes of eligible voters,
and takes some of them. The specification reaches the votes that it took. The code calls the quorum short of
votes exactly if the specification degrades governance; and where there are votes, and enough by humans, it
calls the quorum met, or not met, exactly if the specification's tally approves, or rejects. -/
theorem check_quorum_refines (build : Build) (registry : QuorumRegistry) (voters : Set Did)
    (decision : DecisionObject) (votes : List Vote) {req : QuorumRequirement} (none : decision.votes = [])
    (needs : registry.requirementFor decision.decisionClass = some req)
    (eligible : ∀ vote ∈ votes, vote.voterDid ∈ voters)
    (fits : (run DecisionObject.voteStep decision votes).Fits) :
    let after : DecisionObject := run DecisionObject.voteStep decision votes
    ∃ state, (spec voters req.minVotes req.minApprovePct).Reachable state ∧ Mirrors state after ∧
      ((∃ reason available required,
          checkQuorumIn build registry after = .ok (.ok (.degraded reason available required))) ↔
        EndsIn voters req.minVotes req.minApprovePct state .degradedGovernance) ∧
      (after.votes ≠ [] → req.minHumanVotes ≤ after.humanCount →
        (QuorumMetIn build registry after ↔
          EndsIn voters req.minVotes req.minApprovePct state .approved) ∧
        ((∃ reason, checkQuorumIn build registry after = .ok (.ok (.notMet reason))) ↔
          EndsIn voters req.minVotes req.minApprovePct state .rejected)) := by
  intro after
  obtain ⟨state, reachable, mirrors⟩ := exists_mirror req.minVotes req.minApprovePct none eligible
  have same : registry.requirementFor after.decisionClass = some req := by
    rw [decisionClass_run]
    exact needs
  have pure : checkQuorumIn build registry after = .ok (checkQuorum registry after) := checkQuorumIn_eq fits
  have outcome := tallied_cases req.minApprovePct state
  refine ⟨state, reachable, mirrors, ?_, fun some humans => ⟨?_, ?_⟩⟩
  · simp only [pure, Except.ok.injEq]
    rw [degraded_iff same, endsIn_iff mirrors.status (by decide), mirrors.card_votes]
    grind
  · have approves :
        req.minApprovePct ≤ after.approvePct ↔ state.tallied req.minApprovePct = .approved := by
      rw [le_approvePct_iff, mirrors.tallied_eq_iff, and_iff_left fun empty => absurd empty some]
    rw [quorumMetIn_iff fits, checkQuorum_met_iff, same, endsIn_iff mirrors.status (by decide),
      mirrors.card_votes]
    simp only [Option.some.injEq, exists_eq_left']
    grind
  · have rejects :
        after.approvePct < req.minApprovePct ↔ state.tallied req.minApprovePct = .rejected := by
      rw [← not_le, le_approvePct_iff, ← mirrors.tallied_eq_iff,
        and_iff_left fun empty => absurd empty some]
      grind
    simp only [pure, Except.ok.injEq]
    rw [notMet_iff same humans, endsIn_iff mirrors.status (by decide), mirrors.card_votes, rejects]
    grind

end Code

/-! ### A decision with two votes -/

namespace Sample

/-- A routine decision without votes. -/
def budget : DecisionObject :=
  .new (FixedBytes.fill 16 7) "Budget" .routine (FixedBytes.fill 32 1) .zero

/-- A human approves, and tries to reject afterwards. -/
def offered : List Vote :=
  [⟨⟨"did:exo:alice"⟩, .approve, .human, .zero, .zero⟩,
    ⟨⟨"did:exo:alice"⟩, .reject, .human, .zero, .zero⟩]

/-- The check of the decision after the two votes were offered, of which it takes one. -/
theorem check_quorum_refines_budget :
    let after : DecisionObject := run DecisionObject.voteStep budget offered
    ∃ state, (spec Set.univ 1 51).Reachable state ∧ Mirrors state after ∧
      ((∃ reason available required,
          checkQuorumIn ⟨true⟩ .withDefaults after = .ok (.ok (.degraded reason available required))) ↔
        EndsIn Set.univ 1 51 state .degradedGovernance) ∧
      (after.votes ≠ [] → 0 ≤ after.humanCount →
        (QuorumMetIn ⟨true⟩ .withDefaults after ↔ EndsIn Set.univ 1 51 state .approved) ∧
        ((∃ reason, checkQuorumIn ⟨true⟩ .withDefaults after = .ok (.ok (.notMet reason))) ↔
          EndsIn Set.univ 1 51 state .rejected)) := by
  have needs : QuorumRegistry.withDefaults.requirementFor budget.decisionClass = some ⟨1, 51, 0⟩ := by
    decide +kernel
  exact check_quorum_refines ⟨true⟩ .withDefaults Set.univ budget offered rfl needs
    (fun _ _ => trivial) (by unfold DecisionObject.Fits; decide +kernel)

def deliberating : State := { init with status := .deliberation }

def voting : State := { deliberating with status := .voting, quorumChecked := true }

/-- One vote of a quorum of two. -/
def oneVote : State := { voting with votes := insert (⟨"did:exo:alice"⟩, .approve) voting.votes }

def twoVotes : State := { oneVote with votes := insert (⟨"did:exo:bob"⟩, .reject) oneVote.votes }

/-- Two votes are cast and tallied. -/
def carried (n : ℕ) : State :=
  [init, deliberating, voting, oneVote, twoVotes].getD n { twoVotes with status := twoVotes.tallied 50 }

/-- One vote is cast, and governance degrades. -/
def abandoned (n : ℕ) : State :=
  [init, deliberating, voting, oneVote].getD n { oneVote with status := .degradedGovernance }

theorem carried_behaves : (spec Set.univ 2 50).Behaves carried where
  init := rfl
  next
    | 0 => .inl (.moveToDeliberation rfl)
    | 1 => .inl (.verifyQuorumAndStartVoting rfl)
    | 2 => .inl (.castVote ⟨"did:exo:alice"⟩ .approve rfl trivial (by decide))
    | 3 => .inl (.castVote ⟨"did:exo:bob"⟩ .reject rfl trivial (by decide))
    | 4 => .inl (.tally rfl (by decide))
    | _ + 5 => .inr rfl

theorem abandoned_behaves : (spec Set.univ 2 50).Behaves abandoned where
  init := rfl
  next
    | 0 => .inl (.moveToDeliberation rfl)
    | 1 => .inl (.verifyQuorumAndStartVoting rfl)
    | 2 => .inl (.castVote ⟨"did:exo:alice"⟩ .approve rfl trivial (by decide))
    | 3 => .inl (.activateDegradedGovernance rfl (by decide))
    | _ + 4 => .inr rfl

/-- Safety of both behaviours: where the votes are approved a state of the lifecycle is stood for, and where
governance has degraded none. -/
theorem quorum_safety_carried :
    (Invariant Set.univ 2 (carried 5) ∧ (carried 5).status = .approved ∧
      ∃ image, (DecisionLifecycle.spec 2).Reachable image ∧ StandsFor (carried 5) image) ∧
    (Invariant Set.univ 2 (abandoned 4) ∧
      ¬ ∃ image, (DecisionLifecycle.spec 2).Reachable image ∧ StandsFor (abandoned 4) image) := by
  have approved : (carried 5).status = .approved := by decide
  obtain ⟨safe, stands⟩ := quorum_safety Set.univ 2 50 carried_behaves 5
  obtain ⟨safe', stands'⟩ := quorum_safety Set.univ 2 50 abandoned_behaves 4
  exact ⟨⟨safe, approved, stands.mpr (by rw [approved]; decide)⟩, safe', fun image => stands'.mp image rfl⟩

end Sample

end Exochain.QuorumSafety
