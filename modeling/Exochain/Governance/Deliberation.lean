/-
**`exo-governance` — deliberations.**

A deliberation collects votes on a proposal while it is open; closing it turns the votes in favour into
approvals and asks for the quorum. A vote is refused after the deliberation was closed, and a second
vote of one voter is refused. Whether the voter is one of the participants is not asked.

* `step_of_closed` — a closed deliberation does not change any more.
* `eligible_step_iff` — what one call does to the eligibility of the voters.
* **`deliberation_sound_iff`** — the results of a run come from the participants exactly if every vote
  that is accepted is by one of them; that the votes are by distinct voters and the result final holds
  in every run.
* `Sample.outsider_approves` — a proposal approved by a voter who is not a participant.
-/

import Exochain.Foundation.Blake3
import Exochain.Foundation.Run
import Exochain.Governance.Quorum

set_option linter.unusedSectionVars false

namespace Exochain.ExoGovernance

open Foundation ExoCore

/-! ### Deliberations -/

/-- What a vote says. -/
inductive Position where
  | for
  | against
  | abstain
  deriving DecidableEq, Repr

/-- A vote on a proposal. -/
structure Vote where
  voterDid : Did
  position : Position
  reasoningHash : FixedBytes 32
  signature : Signature
  deriving DecidableEq

/-- Whether votes are taken. -/
inductive DeliberationStatus where
  | open
  | closed
  | cancelled
  deriving DecidableEq, Repr

/-- A deliberation on a proposal. -/
structure Deliberation where
  id : FixedBytes 16
  proposalHash : FixedBytes 32
  participants : List Did
  votes : List Vote
  status : DeliberationStatus
  created : Timestamp
  deriving DecidableEq

/-- The result of a deliberation. -/
inductive DeliberationResult where
  | approved (votesFor votesAgainst abstentions : ℕ)
  | rejected (votesFor votesAgainst abstentions : ℕ)
  | noQuorum (reason : String)
  deriving DecidableEq, Repr

/-- Open a deliberation, with the identifier and the time it is given. -/
def openDeliberation (blake3 : Blake3) (id : FixedBytes 16) (now : Timestamp) (proposal : List UInt8)
    (participants : List Did) : Deliberation where
  id := id
  proposalHash := blake3 proposal
  participants := participants
  votes := []
  status := .open
  created := now

namespace Deliberation

/-- Cast a vote; an error leaves the deliberation as it was. -/
def castVote (delib : Deliberation) (vote : Vote) : Except GovernanceError Deliberation :=
  if delib.status ≠ .open then .error .deliberationNotOpen
  else if delib.votes.any fun cast => cast.voterDid = vote.voterDid then
    .error (.duplicateVote vote.voterDid.value)
  else .ok { delib with votes := delib.votes ++ [vote] }

/-- The number of votes of one position. -/
def count (delib : Deliberation) (position : Position) : ℕ :=
  (delib.votes.filter fun vote => vote.position = position).length

/-- The approval that a vote in favour is turned into. -/
def approvalOf (delib : Deliberation) (vote : Vote) : Approval where
  approverDid := vote.voterDid
  role := .contributor
  timestamp := delib.created
  signature := vote.signature
  independenceAttestation := some
    { attesterDid := vote.voterDid
      noCommonControl := true
      noCoordination := true
      identityVerified := true
      signature := vote.signature }

/-- The result of closing with a policy. -/
def result (delib : Deliberation) (policy : QuorumPolicy) : DeliberationResult :=
  let votesFor := delib.count .for
  let votesAgainst := delib.count .against
  let abstentions := delib.count .abstain
  let approvals := (delib.votes.filter fun vote => vote.position = .for).map delib.approvalOf
  match computeQuorum approvals policy with
  | .met _ _ =>
    if votesAgainst < votesFor then .approved votesFor votesAgainst abstentions
    else .rejected votesFor votesAgainst abstentions
  | .notMet reason => .noQuorum reason
  | .contested challenge => .noQuorum ("contested: " ++ challenge)

/-- Close a deliberation. -/
def close (delib : Deliberation) (policy : QuorumPolicy) : DeliberationResult × Deliberation :=
  let delib := { delib with status := .closed }
  (delib.result policy, delib)

/-- A call on a deliberation. -/
inductive Call where
  | castVote (vote : Vote)
  | close (policy : QuorumPolicy)

/-- The deliberation after a call. -/
def step (delib : Deliberation) : Call → Deliberation
  | .castVote vote => ((delib.castVote vote).toOption).getD delib
  | .close policy => (delib.close policy).2

/-! ### One call -/

section Step

variable {delib : Deliberation} {vote : Vote} {policy : QuorumPolicy}

/-- No vote of the voter was accepted so far. -/
def NewVoter (delib : Deliberation) (vote : Vote) : Prop :=
  ∀ cast ∈ delib.votes, cast.voterDid ≠ vote.voterDid

/-- What a vote does. -/
theorem castVote_cases (delib : Deliberation) (vote : Vote) :
    (delib.status = .open ∧ delib.NewVoter vote ∧
      delib.castVote vote = .ok { delib with votes := delib.votes ++ [vote] }) ∨
    (¬ (delib.status = .open ∧ delib.NewVoter vote) ∧
      ∃ error, delib.castVote vote = .error error) := by
  unfold castVote NewVoter
  by_cases opened : delib.status = .open
  · rw [if_neg (not_not_intro opened)]
    by_cases again : ∃ cast ∈ delib.votes, cast.voterDid = vote.voterDid
    · rw [if_pos (by simpa using again)]
      refine .inr ⟨fun ⟨_, fresh⟩ => ?_, _, rfl⟩
      obtain ⟨cast, member, same⟩ := again
      exact fresh cast member same
    · rw [if_neg (by simpa using again)]
      push Not at again
      exact .inl ⟨opened, again, rfl⟩
  · rw [if_pos opened]
    exact .inr ⟨fun both => opened both.1, _, rfl⟩

/-- The votes after a vote. -/
theorem step_castVote_cases (delib : Deliberation) (vote : Vote) :
    (delib.status = .open ∧ delib.NewVoter vote ∧
      delib.step (.castVote vote) = { delib with votes := delib.votes ++ [vote] }) ∨
    (¬ (delib.status = .open ∧ delib.NewVoter vote) ∧ delib.step (.castVote vote) = delib) := by
  rcases castVote_cases delib vote with ⟨opened, fresh, accepted⟩ | ⟨refused, error, failed⟩
  · refine .inl ⟨opened, fresh, ?_⟩
    rw [step, accepted]
    rfl
  · refine .inr ⟨refused, ?_⟩
    rw [step, failed]
    rfl

/-- **A closed deliberation does not change any more.** -/
theorem step_of_closed (closed : delib.status = .closed) (call : Call) : delib.step call = delib := by
  cases call with
  | castVote vote =>
    rcases step_castVote_cases delib vote with ⟨opened, -⟩ | ⟨-, same⟩
    · rw [closed] at opened
      cases opened
    · exact same
  | close policy =>
    obtain ⟨id, proposalHash, participants, votes, status, created⟩ := delib
    subst closed
    rfl

theorem run_of_closed (closed : delib.status = .closed) (calls : List Call) :
    run step delib calls = delib := by
  induction calls with
  | nil => rfl
  | cons call calls ih => rw [run_cons, step_of_closed closed, ih]

theorem participants_step (delib : Deliberation) (call : Call) :
    (delib.step call).participants = delib.participants := by
  cases call with
  | castVote vote =>
    rcases step_castVote_cases delib vote with ⟨-, -, after⟩ | ⟨-, after⟩
    · rw [after]
    · rw [after]
  | close policy => rfl

/-- The voters, one entry for each vote. -/
def voters (delib : Deliberation) : List Did := delib.votes.map Vote.voterDid

/-- Every voter is a participant. -/
def Eligible (delib : Deliberation) : Prop := ∀ voter ∈ delib.voters, voter ∈ delib.participants

/-- The call does not bring in a vote of somebody who is not a participant: it is no vote, or the vote
is refused, or the voter is a participant. -/
def BringsParticipant (delib : Deliberation) : Call → Prop
  | .castVote vote =>
    delib.status = .open → delib.NewVoter vote → vote.voterDid ∈ delib.participants
  | .close _ => True

theorem nodup_voters_step (distinct : delib.voters.Nodup) (call : Call) :
    (delib.step call).voters.Nodup := by
  cases call with
  | castVote vote =>
    rcases step_castVote_cases delib vote with ⟨-, fresh, after⟩ | ⟨-, after⟩
    · rw [after, voters, List.map_append, List.map_singleton]
      refine List.Nodup.append distinct (List.nodup_singleton _) ?_
      rw [List.disjoint_singleton]
      intro member
      obtain ⟨cast, cast_mem, same⟩ := List.mem_map.mp member
      exact fresh cast cast_mem same
    · rwa [after]
  | close policy => exact distinct

/-- **What one call does to the eligibility of the voters.** -/
theorem eligible_step_iff (eligible : delib.Eligible) (call : Call) :
    (delib.step call).Eligible ↔ delib.BringsParticipant call := by
  cases call with
  | castVote vote =>
    rcases step_castVote_cases delib vote with ⟨opened, fresh, after⟩ | ⟨refused, after⟩
    · have votes : (delib.step (.castVote vote)).Eligible ↔
          delib.Eligible ∧ vote.voterDid ∈ delib.participants := by
        rw [after, Eligible, voters, List.map_append, List.map_singleton]
        simp only [List.mem_append, List.mem_singleton, or_imp, forall_and, forall_eq]
        rfl
      rw [votes, and_iff_right eligible]
      exact ⟨fun participant _ _ => participant, fun brings => brings opened fresh⟩
    · rw [after]
      exact iff_of_true eligible fun opened fresh => absurd ⟨opened, fresh⟩ refused
  | close policy => exact iff_of_true eligible trivial

end Step

/-! ### Results -/

section Results

variable {delib : Deliberation} {policy : QuorumPolicy}

/-- The votes in favour. -/
def inFavour (delib : Deliberation) : List Vote :=
  delib.votes.filter fun vote => vote.position = .for

/-- What an approval says about the votes. -/
theorem of_result_eq_approved {votesFor votesAgainst abstentions : ℕ}
    (approved : delib.result policy = .approved votesFor votesAgainst abstentions) :
    votesAgainst < votesFor ∧ policy.minApprovals ≤ delib.inFavour.length := by
  unfold result at approved
  simp only at approved
  split at approved
  · rename_i independent total met
    obtain ⟨-, -, enough, -⟩ := computeQuorum_eq_met_iff.mp met
    rw [List.length_map] at enough
    split at approved
    · rename_i majority
      cases approved
      exact ⟨majority, enough⟩
    · cases approved
  · cases approved
  · cases approved

/-- At least as many participants as the policy asks for voted in favour. -/
def ApprovedByParticipants (delib : Deliberation) (policy : QuorumPolicy) : Prop :=
  ∃ people : Finset Did, policy.minApprovals ≤ people.card ∧
    ∀ person ∈ people, person ∈ delib.participants ∧
      ∃ vote ∈ delib.votes, vote.voterDid = person ∧ vote.position = .for

/-- Distinct voters who are participants make an approval one by participants. -/
theorem approvedByParticipants (distinct : delib.voters.Nodup) (eligible : delib.Eligible)
    (enough : policy.minApprovals ≤ delib.inFavour.length) : delib.ApprovedByParticipants policy := by
  have sub : (delib.inFavour.map Vote.voterDid).Sublist delib.voters :=
    List.filter_sublist.map Vote.voterDid
  refine ⟨(delib.inFavour.map Vote.voterDid).toFinset, ?_, fun person member => ?_⟩
  · rw [List.toFinset_card_of_nodup (distinct.sublist sub), List.length_map]
    exact enough
  · rw [List.mem_toFinset] at member
    refine ⟨eligible person (sub.subset member), ?_⟩
    obtain ⟨vote, counted, same⟩ := List.mem_map.mp member
    obtain ⟨cast, position⟩ := List.mem_filter.mp counted
    exact ⟨vote, cast, same, of_decide_eq_true position⟩

end Results

/-! ### Runs -/

/-- **What is claimed of a run**: the votes are by distinct voters, all of them among the participants
it was opened with; after a close no vote is accepted, and another close with the same policy returns
the same result; and an approval has more votes in favour than against, and enough participants in
favour. -/
structure Sound (start : Deliberation) (calls : List Call) : Prop where
  participants : Throughout step (fun delib => delib.participants = start.participants) start calls
  distinct : Throughout step (fun delib => delib.voters.Nodup) start calls
  eligible : Throughout step Eligible start calls
  closed : ∀ before policy between vote after,
    calls = before ++ .close policy :: (between ++ .castVote vote :: after) →
    ∃ error, (run step start (before ++ .close policy :: between)).castVote vote = .error error
  final : ∀ before policy between after,
    calls = before ++ .close policy :: (between ++ .close policy :: after) →
    ((run step start (before ++ .close policy :: between)).close policy).1 =
      ((run step start before).close policy).1
  approved : ∀ before policy after votesFor votesAgainst abstentions,
    calls = before ++ .close policy :: after →
    ((run step start before).close policy).1 = .approved votesFor votesAgainst abstentions →
    votesAgainst < votesFor ∧ (run step start before).ApprovedByParticipants policy

/-- The state after a close, and after whatever follows it. -/
theorem run_after_close (start : Deliberation) (before : List Call) (policy : QuorumPolicy)
    (between : List Call) :
    run step start (before ++ .close policy :: between) =
      ((run step start before).close policy).2 := by
  rw [run_append, run_cons]
  exact run_of_closed rfl between

/-- **When the results of a run come from the participants**: exactly if every vote that is cast while
the deliberation is open, by somebody who has not voted yet, is by a participant. -/
theorem deliberation_sound_iff (blake3 : Blake3) (id : FixedBytes 16) (now : Timestamp)
    (proposal : List UInt8) (participants : List Did) (calls : List Call) :
    Sound (openDeliberation blake3 id now proposal participants) calls ↔
      Along step BringsParticipant (openDeliberation blake3 id now proposal participants) calls := by
  have eligible : Throughout step Eligible (openDeliberation blake3 id now proposal participants)
        calls ↔
      Along step BringsParticipant (openDeliberation blake3 id now proposal participants) calls := by
    refine @throughout_iff_along _ _ step (fun _ => True) _ _ (fun _ _ _ => trivial)
      (fun delib call _ before => eligible_step_iff before call) _ _ trivial ?_
    exact fun voter member => absurd member List.not_mem_nil
  have distinct : Throughout step (fun delib => delib.voters.Nodup)
      (openDeliberation blake3 id now proposal participants) calls := by
    refine throughout_of_preserved (fun _ call before => nodup_voters_step before call) ?_ calls
    exact List.nodup_nil
  refine ⟨fun sound => eligible.mp sound.eligible, fun brings => ?_⟩
  refine ⟨?_, distinct, eligible.mpr brings, ?_, ?_, ?_⟩
  · refine throughout_of_preserved (fun delib call same => ?_) ?_ calls
    · exact (participants_step delib call).trans same
    · rfl
  · intro before policy between vote after _
    rw [run_after_close]
    exact ⟨_, rfl⟩
  · intro before policy between after _
    rw [run_after_close]
    rfl
  · intro before policy after votesFor votesAgainst abstentions split approved
    obtain ⟨majority, enough⟩ := of_result_eq_approved approved
    exact ⟨majority, approvedByParticipants (distinct before _ split)
      (eligible.mpr brings before _ split) enough⟩

end Deliberation

namespace Sample

/-- A vote in favour by somebody. -/
def outsider : Vote := ⟨⟨"did:exo:mallory"⟩, .for, FixedBytes.fill 32 0, .ed25519 (FixedBytes.fill 64 9)⟩

/-- A deliberation of one participant. -/
def deliberation : Deliberation :=
  openDeliberation Blake3.hash (FixedBytes.fill 16 7) ⟨1000, 0⟩ [1, 2, 3] [⟨"did:exo:alice"⟩]

/-- A quorum of one independent approval. -/
def oneApproval : QuorumPolicy := ⟨1, 1, [], ⟨5000, 0⟩⟩

/-- **An outsider approves the proposal**: the participant has not voted. -/
theorem outsider_approves :
    ((run Deliberation.step deliberation [.castVote outsider]).close oneApproval).1 =
        .approved 1 0 0 ∧
      ¬ Deliberation.Sound deliberation [.castVote outsider, .close oneApproval] := by
  refine ⟨by decide +kernel, fun sound => ?_⟩
  have eligible := sound.eligible [.castVote outsider] [.close oneApproval] rfl
  exact absurd (eligible ⟨"did:exo:mallory"⟩ (by decide +kernel)) (by decide +kernel)

end Sample

end Exochain.ExoGovernance
