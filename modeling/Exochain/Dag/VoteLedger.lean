/-
**The vote ledger of a replica, and what a committed certificate proves.**

* `Ledger` — **the vote table is the history of accepted votes**: every accepted vote is pending
  under its own round and hash, every pending vote was accepted, and no validator has two accepted
  votes in one round. Every operation keeps it (`ledger_step`), because `vote` is the only one that
  touches it and records one new voter (`step_ledger_cases`).
* `Backed` — a certificate whose votes are a repetition-free quorum of the pending table. With the
  ledger this is the same as carrying a quorum of distinct validators, each with one accepted vote
  for that node in that round (`backed_iff_sound`).

`commit` itself checks nothing. `finality_iff_backed` and `log_consistent_iff_fresh` give the exact
conditions on its argument: a run keeps finality a quorum precisely when every committed certificate
is backed, and keeps the commit log consistent precisely when no hash is committed again.
-/

import Exochain.Dag.Consensus

set_option linter.unusedSectionVars false

namespace Exochain.ExoDag

open Foundation ExoCore

namespace Session

/-! ### One step, as seen by the vote table -/

/-- Two moments of a replica with the same votes. -/
structure SameVotes (before after : Session) : Prop where
  config : after.state.config = before.state.config
  pending : ∀ round hash,
    after.state.pendingVotes round hash = before.state.pendingVotes round hash
  voters : ∀ round, after.state.votersIn round = before.state.votersIn round
  accepted : after.accepted = before.accepted

section Steps

variable (build : Build) (session : Session)

/-- **Every operation but an accepted vote leaves the vote table as it was**, and an accepted vote
adds one vote of a validator new to the round. -/
theorem step_ledger_cases (op : Operation) :
    SameVotes session (step build session op) ∨
    ∃ v, step build session op =
        { session with state := afterVote session.state v, accepted := session.accepted ++ [v] } ∧
      op = .vote v ∧ v.voter ∈ session.state.config.validators ∧
      v.voter ∉ session.state.votersIn v.round := by
  cases op with
  | propose node proposer =>
    left
    simp only [step]
    rcases propose_cases session.state node proposer with same | entered
    · rw [same]
      exact ⟨rfl, fun _ _ => rfl, fun _ => rfl, rfl⟩
    · rw [entered]
      refine ⟨rfl, fun round hash => ?_, fun _ => rfl, rfl⟩
      rw [pendingVotes_enterPending]
      split
      · rename_i here
        rw [← here.1, ← here.2, id_eq]
      · rfl
  | vote v =>
    rcases vote_cases session.state v with ⟨error, rejected⟩ | ⟨recorded, member, _, first⟩
    · left
      simp only [step, rejected]
      exact ⟨rfl, fun _ _ => rfl, fun _ => rfl, rfl⟩
    · right
      refine ⟨v, ?_, rfl, member, first⟩
      simp only [step, recorded]
  | advanceRound =>
    left
    rcases advanceRound_cases session.state build with ⟨fault, stopped⟩ | ⟨next, moved⟩
    · simp only [step, stopped]
      exact ⟨rfl, fun _ _ => rfl, fun _ => rfl, rfl⟩
    · simp only [step, moved]
      exact ⟨rfl, fun _ _ => rfl, fun _ => rfl, rfl⟩
  | checkCommit hash =>
    left
    simp only [step]
    cases ExoDag.checkCommit session.state hash with
    | none => exact ⟨rfl, fun _ _ => rfl, fun _ => rfl, rfl⟩
    | some cert => exact ⟨rfl, fun _ _ => rfl, fun _ => rfl, rfl⟩
  | commit cert => exact .inl ⟨rfl, fun _ _ => rfl, fun _ => rfl, rfl⟩

/-- Only `commit` changes the certificates and the commit log. -/
theorem step_log_cases (op : Operation) :
    (∃ cert, op = .commit cert ∧
      step build session op = { session with state := ExoDag.commit session.state cert }) ∨
    ((∀ cert, op ≠ .commit cert) ∧
      (step build session op).state.certificates = session.state.certificates ∧
      (step build session op).state.committed = session.state.committed) := by
  cases op with
  | propose node proposer =>
    right
    simp only [step]
    rcases propose_cases session.state node proposer with same | entered
    · rw [same]
      exact ⟨by simp, rfl, rfl⟩
    · rw [entered]
      exact ⟨by simp, rfl, rfl⟩
  | vote v =>
    right
    rcases vote_cases session.state v with ⟨error, rejected⟩ | ⟨recorded, _⟩
    · refine ⟨by simp, ?_, ?_⟩ <;> simp only [step, rejected]
    · refine ⟨by simp, ?_, ?_⟩ <;> simp only [step, recorded, afterVote]
  | advanceRound =>
    right
    rcases advanceRound_cases session.state build with ⟨fault, stopped⟩ | ⟨next, moved⟩
    · refine ⟨by simp, ?_, ?_⟩ <;> simp only [step, stopped]
    · refine ⟨by simp, ?_, ?_⟩ <;> simp only [step, moved]
  | checkCommit hash =>
    right
    simp only [step]
    cases ExoDag.checkCommit session.state hash with
    | none => exact ⟨by simp, rfl, rfl⟩
    | some cert => exact ⟨by simp, rfl, rfl⟩
  | commit cert => exact .inl ⟨cert, rfl, rfl⟩

/-- Only `checkCommit` issues a certificate, and it issues its own answer. -/
theorem mem_issued_step {build : Build} {session : Session} {op : Operation} {cert : CommitCertificate}
    (member : cert ∈ (step build session op).issued) :
    cert ∈ session.issued ∨
      ∃ hash, op = .checkCommit hash ∧ ExoDag.checkCommit session.state hash = some cert := by
  cases op with
  | propose node proposer => exact .inl member
  | vote v =>
    simp only [step] at member
    split at member <;> exact .inl member
  | advanceRound =>
    simp only [step] at member
    split at member <;> exact .inl member
  | checkCommit hash =>
    simp only [step] at member
    cases answer : ExoDag.checkCommit session.state hash with
    | none =>
      rw [answer] at member
      exact .inl member
    | some issued =>
      rw [answer] at member
      rcases List.mem_append.mp member with old | new
      · exact .inl old
      · exact .inr ⟨hash, rfl, by rw [answer, List.mem_singleton.mp new]⟩
  | commit _ => exact .inl member

theorem config_step (op : Operation) :
    (step build session op).state.config = session.state.config := by
  rcases step_ledger_cases build session op with same | ⟨v, stepped, _⟩
  · exact same.config
  · rw [stepped]
    rfl

end Steps

/-! ### The ledger -/

/-- **The vote table is the history of accepted votes.** -/
structure Ledger (session : Session) : Prop where
  pending_accepted : ∀ round hash, ∀ v ∈ session.state.pendingVotes round hash,
    v ∈ session.accepted ∧ v.round = round ∧ v.nodeHash = hash
  accepted_pending : ∀ v ∈ session.accepted, v ∈ session.state.pendingVotes v.round v.nodeHash
  pending_nodup : ∀ round hash, (session.state.pendingVotes round hash).Nodup
  by_validator : ∀ v ∈ session.accepted, v.voter ∈ session.state.config.validators
  voter_recorded : ∀ v ∈ session.accepted, v.voter ∈ session.state.votersIn v.round
  one_vote : ∀ v ∈ session.accepted, ∀ w ∈ session.accepted,
    v.voter = w.voter → v.round = w.round → v = w

theorem Ledger.congr {before after : Session} (ledger : before.Ledger)
    (same : SameVotes before after) : after.Ledger where
  pending_accepted round hash v member := by
    rw [same.pending] at member
    rw [same.accepted]
    exact ledger.pending_accepted round hash v member
  accepted_pending v member := by
    rw [same.accepted] at member
    rw [same.pending]
    exact ledger.accepted_pending v member
  pending_nodup round hash := by
    rw [same.pending]
    exact ledger.pending_nodup round hash
  by_validator v member := by
    rw [same.accepted] at member
    rw [same.config]
    exact ledger.by_validator v member
  voter_recorded v member := by
    rw [same.accepted] at member
    rw [same.voters]
    exact ledger.voter_recorded v member
  one_vote v vMember w wMember := by
    rw [same.accepted] at vMember wMember
    exact ledger.one_vote v vMember w wMember

/-- The pending table after an accepted vote. -/
theorem pendingVotes_afterVote (state : ConsensusState) (v : Vote) (round : UInt64)
    (hash : Hash256) :
    (afterVote state v).pendingVotes round hash =
      if v.round = round ∧ v.nodeHash = hash then state.pendingVotes v.round v.nodeHash ++ [v]
      else state.pendingVotes round hash :=
  pendingVotes_enterPending state (· ++ [v]) v.round v.nodeHash round hash

/-- The voters of a round after an accepted vote. -/
theorem votersIn_afterVote (state : ConsensusState) (v : Vote) (round : UInt64) :
    (afterVote state v).votersIn round =
      if v.round = round then (state.votersIn v.round).insert v.voter else state.votersIn round :=
  votersIn_upsert state (·.insert v.voter) v.round round

theorem mem_pendingVotes_afterVote {state : ConsensusState} {v w : Vote} {round : UInt64}
    {hash : Hash256} :
    w ∈ (afterVote state v).pendingVotes round hash ↔
      w ∈ state.pendingVotes round hash ∨ w = v ∧ v.round = round ∧ v.nodeHash = hash := by
  rw [pendingVotes_afterVote]
  by_cases here : v.round = round ∧ v.nodeHash = hash
  · obtain ⟨rfl, rfl⟩ := here
    rw [if_pos ⟨rfl, rfl⟩, List.mem_append, List.mem_singleton]
    exact or_congr_right (iff_self_and.mpr fun _ => ⟨rfl, rfl⟩)
  · rw [if_neg here]
    exact (or_iff_left fun new => here new.2).symm

theorem mem_votersIn_afterVote {state : ConsensusState} {v : Vote} {voter : Did} {round : UInt64} :
    voter ∈ (afterVote state v).votersIn round ↔
      voter ∈ state.votersIn round ∨ voter = v.voter ∧ v.round = round := by
  rw [votersIn_afterVote]
  by_cases here : v.round = round
  · subst here
    rw [if_pos rfl, BTreeSet.mem_insert_iff, or_comm]
    exact or_congr_right ⟨fun same => ⟨same.symm, rfl⟩, fun same => same.1.symm⟩
  · rw [if_neg here]
    exact (or_iff_left fun new => here new.2).symm

/-- A voter who is not recorded in a round has no accepted vote in it. -/
theorem Ledger.voter_ne {session : Session} (ledger : session.Ledger) {v w : Vote}
    (first : v.voter ∉ session.state.votersIn v.round) (accepted : w ∈ session.accepted)
    (sameRound : w.round = v.round) : w.voter ≠ v.voter := by
  intro sameVoter
  have recorded := ledger.voter_recorded w accepted
  rw [sameVoter, sameRound] at recorded
  exact first recorded

/-- An accepted vote by a new voter keeps the ledger. -/
theorem Ledger.accept {session : Session} (ledger : session.Ledger) {v : Vote}
    (validator : v.voter ∈ session.state.config.validators)
    (first : v.voter ∉ session.state.votersIn v.round) :
    Ledger { session with
      state := afterVote session.state v, accepted := session.accepted ++ [v] } where
  pending_accepted round hash w member := by
    rcases mem_pendingVotes_afterVote.mp member with old | ⟨rfl, here⟩
    · obtain ⟨accepted, rest⟩ := ledger.pending_accepted _ _ w old
      exact ⟨List.mem_append_left _ accepted, rest⟩
    · exact ⟨List.mem_append_right _ List.mem_cons_self, here⟩
  accepted_pending w member := by
    apply mem_pendingVotes_afterVote.mpr
    rcases List.mem_append.mp member with old | new
    · exact .inl (ledger.accepted_pending w old)
    · have isV := List.mem_singleton.mp new
      exact .inr ⟨isV, isV ▸ ⟨rfl, rfl⟩⟩
  pending_nodup round hash := by
    simp only [pendingVotes_afterVote]
    split
    · refine List.nodup_append.mpr ⟨ledger.pending_nodup _ _, List.nodup_singleton v, ?_⟩
      intro w member other isV same
      rw [List.mem_singleton.mp isV] at same
      have accepted := (ledger.pending_accepted _ _ w member).1
      exact ledger.voter_ne first accepted (congrArg Vote.round same) (congrArg Vote.voter same)
    · exact ledger.pending_nodup round hash
  by_validator w member := by
    rcases List.mem_append.mp member with old | new
    · exact ledger.by_validator w old
    · rw [List.mem_singleton.mp new]
      exact validator
  voter_recorded w member := by
    apply mem_votersIn_afterVote.mpr
    rcases List.mem_append.mp member with old | new
    · exact .inl (ledger.voter_recorded w old)
    · have isV := List.mem_singleton.mp new
      exact .inr ⟨congrArg Vote.voter isV, congrArg Vote.round isV.symm⟩
  one_vote w wMember u uMember sameVoter sameRound := by
    rcases List.mem_append.mp wMember with wOld | wNew
    · rcases List.mem_append.mp uMember with uOld | uNew
      · exact ledger.one_vote w wOld u uOld sameVoter sameRound
      · rw [List.mem_singleton.mp uNew] at sameVoter sameRound
        exact absurd sameVoter (ledger.voter_ne first wOld sameRound)
    · rw [List.mem_singleton.mp wNew] at sameVoter sameRound ⊢
      rcases List.mem_append.mp uMember with uOld | uNew
      · exact absurd sameVoter.symm (ledger.voter_ne first uOld sameRound.symm)
      · exact (List.mem_singleton.mp uNew).symm

/-- **Every operation keeps the ledger.** -/
theorem ledger_step (build : Build) (session : Session) (op : Operation) (ledger : session.Ledger) :
    (step build session op).Ledger := by
  rcases step_ledger_cases build session op with
    same | ⟨v, stepped, _, validator, first⟩
  · exact ledger.congr same
  · rw [stepped]
    exact ledger.accept validator first

/-- No vote is pending before any call. -/
theorem ledger_start (config : ConsensusConfig) : (start config).Ledger := by
  have nothing : ∀ round hash, (start config).state.pendingVotes round hash = [] := by
    intro round hash
    have noRound : (start config).state.pending[round]? = none := Std.ExtTreeMap.getElem?_empty
    rw [ConsensusState.pendingVotes, noRound, Option.getD_none, Std.ExtTreeMap.getElem?_empty,
      Option.getD_none]
  refine ⟨?_, ?_, ?_, ?_, ?_, ?_⟩
  · intro round hash v member
    rw [nothing] at member
    cases member
  · exact fun v member => absurd member List.not_mem_nil
  · intro round hash
    rw [nothing]
    exact List.nodup_nil
  · exact fun v member => absurd member List.not_mem_nil
  · exact fun v member => absurd member List.not_mem_nil
  · exact fun v member => absurd member List.not_mem_nil

/-! ### Backed certificates -/

/-- The votes of the certificate are a repetition-free quorum of the replica's pending table. -/
def Backed (session : Session) (cert : CommitCertificate) : Prop :=
  cert.votes.Nodup ∧
    (∀ v ∈ cert.votes, v ∈ session.state.pendingVotes cert.round cert.nodeHash) ∧
    session.state.config.quorumSize ≤ cert.votes.length

/-- The certificate carries a quorum of votes for `hash`, by distinct validators, all for the
certificate's round and all accepted by the replica. -/
def Sound (session : Session) (hash : Hash256) (cert : CommitCertificate) : Prop :=
  session.state.config.quorumSize ≤ cert.votes.length ∧ (cert.votes.map Vote.voter).Nodup ∧
    ∀ v ∈ cert.votes, v.voter ∈ session.state.config.validators ∧ v.nodeHash = hash ∧
      v.round = cert.round ∧ v ∈ session.accepted

/-- **Under the ledger, backed by the table is the same as sound.** -/
theorem Ledger.backed_iff_sound {session : Session} (ledger : session.Ledger)
    (cert : CommitCertificate) : session.Backed cert ↔ session.Sound cert.nodeHash cert := by
  constructor
  · rintro ⟨distinct, pending, quorum⟩
    refine ⟨quorum, ?_, fun v member => ?_⟩
    · refine List.Nodup.map_on (fun v vMember w wMember sameVoter => ?_) distinct
      obtain ⟨vAccepted, vRound, _⟩ := ledger.pending_accepted _ _ v (pending v vMember)
      obtain ⟨wAccepted, wRound, _⟩ := ledger.pending_accepted _ _ w (pending w wMember)
      exact ledger.one_vote v vAccepted w wAccepted sameVoter (vRound.trans wRound.symm)
    · obtain ⟨accepted, round, hash⟩ := ledger.pending_accepted _ _ v (pending v member)
      exact ⟨ledger.by_validator v accepted, hash, round, accepted⟩
  · rintro ⟨quorum, distinct, votes⟩
    refine ⟨distinct.of_map _, fun v member => ?_, quorum⟩
    obtain ⟨_, hash, round, accepted⟩ := votes v member
    rw [← hash, ← round]
    exact ledger.accepted_pending v accepted

section Monotone

variable {build : Build} {session : Session} (op : Operation)

/-- Accepted votes stay accepted. -/
theorem accepted_step {v : Vote} (member : v ∈ session.accepted) :
    v ∈ (step build session op).accepted := by
  rcases step_ledger_cases build session op with same | ⟨w, stepped, _⟩
  · rw [same.accepted]
    exact member
  · rw [stepped]
    exact List.mem_append_left _ member

/-- Pending votes stay pending. -/
theorem pendingVotes_step {v : Vote} {round : UInt64} {hash : Hash256}
    (member : v ∈ session.state.pendingVotes round hash) :
    v ∈ (step build session op).state.pendingVotes round hash := by
  rcases step_ledger_cases build session op with same | ⟨w, stepped, _⟩
  · rw [same.pending]
    exact member
  · rw [stepped]
    simp only [pendingVotes_afterVote]
    split
    · rename_i here
      rw [here.1, here.2]
      exact List.mem_append_left _ member
    · exact member

theorem Backed.step {cert : CommitCertificate} (backed : session.Backed cert) :
    (step build session op).Backed cert := by
  obtain ⟨distinct, pending, quorum⟩ := backed
  refine ⟨distinct, fun v member => pendingVotes_step op (pending v member), ?_⟩
  rw [config_step]
  exact quorum

theorem Sound.step {hash : Hash256} {cert : CommitCertificate} (sound : session.Sound hash cert) :
    (step build session op).Sound hash cert := by
  obtain ⟨quorum, distinct, votes⟩ := sound
  unfold Sound
  rw [config_step]
  refine ⟨quorum, distinct, fun v member => ?_⟩
  obtain ⟨validator, sameHash, round, accepted⟩ := votes v member
  exact ⟨validator, sameHash, round, accepted_step op accepted⟩

end Monotone

/-- A certificate of `checkCommit` is backed at the moment it is returned. -/
theorem Ledger.backed_of_checkCommit {session : Session} (ledger : session.Ledger) {hash : Hash256}
    {cert : CommitCertificate} (issued : ExoDag.checkCommit session.state hash = some cert) :
    session.Backed cert := by
  obtain ⟨rfl, _, quorum⟩ := checkCommit_eq_some issued
  exact ⟨ledger.pending_nodup _ _, fun v member => member, quorum⟩

/-! ### Finality is a quorum exactly when every committed certificate is backed -/

/-- Every finalized hash has a stored certificate that carries a quorum for it. -/
def FinalityQuorum (session : Session) : Prop :=
  ∀ hash, isFinalized session.state hash = true →
    ∃ cert, session.state.certificates[hash]? = some cert ∧ session.Sound hash cert

/-- A call to `commit` is given a certificate that the replica's own vote table backs. -/
def CommitsBacked (session : Session) : Operation → Prop
  | .commit cert => session.Backed cert
  | _ => True

theorem getElem?_certificates_commit (state : ConsensusState) (cert : CommitCertificate)
    (hash : Hash256) :
    (ExoDag.commit state cert).certificates[hash]? =
      if cert.nodeHash = hash then some cert else state.certificates[hash]? :=
  BTreeMap.getElem?_insert_eq_ite _ _ _ _

theorem commitsBacked_of_ne {session : Session} {op : Operation} (other : ∀ cert, op ≠ .commit cert) :
    session.CommitsBacked op := by
  cases op with
  | commit cert => exact absurd rfl (other cert)
  | _ => trivial

/-- One operation keeps finality a quorum exactly when it commits a backed certificate, if any. -/
theorem finalityQuorum_step_iff (build : Build) (session : Session) (op : Operation)
    (ledger : session.Ledger) (finality : session.FinalityQuorum) :
    (step build session op).FinalityQuorum ↔ session.CommitsBacked op := by
  rcases step_log_cases build session op with
    ⟨cert, rfl, stepped⟩ | ⟨other, certificates, _⟩
  · show _ ↔ session.Backed cert
    rw [ledger.backed_iff_sound, stepped]
    constructor
    · intro after
      obtain ⟨stored, found, sound⟩ := after cert.nodeHash (isFinalized_iff.mpr
        ⟨cert, by rw [getElem?_certificates_commit, if_pos rfl]⟩)
      rw [getElem?_certificates_commit, if_pos rfl, Option.some.injEq] at found
      subst found
      exact sound
    · intro sound hash final
      obtain ⟨stored, found⟩ := isFinalized_iff.mp final
      refine ⟨stored, found, ?_⟩
      rw [getElem?_certificates_commit] at found
      split at found
      · rename_i same
        cases found
        rw [← same]
        exact sound
      · obtain ⟨before, foundBefore, soundBefore⟩ := finality hash (isFinalized_iff.mpr ⟨_, found⟩)
        rw [found, Option.some.injEq] at foundBefore
        subst foundBefore
        exact soundBefore
  · refine ⟨fun _ => commitsBacked_of_ne other, fun _ hash final => ?_⟩
    rw [isFinalized_iff, certificates, ← isFinalized_iff] at final
    obtain ⟨cert, found, sound⟩ := finality hash final
    exact ⟨cert, by rw [certificates]; exact found, sound.step op⟩

/-- No hash is final before any call. -/
theorem not_isFinalized_start (config : ConsensusConfig) (hash : Hash256) :
    isFinalized (start config).state hash = false :=
  Std.ExtTreeMap.contains_empty

/-- **Finality is a quorum in every state of a run exactly when every certificate the run commits
is backed by the vote table of the replica at that moment.** -/
theorem finality_iff_backed (build : Build) (config : ConsensusConfig) (ops : List Operation) :
    Throughout (step build) FinalityQuorum (start config) ops ↔
      Along (step build) CommitsBacked (start config) ops := by
  refine throughout_iff_along (I := Ledger) (ledger_step build) (finalityQuorum_step_iff build)
    (ledger_start config) ?_
  intro hash final
  rw [not_isFinalized_start] at final
  cases final

namespace OneValidator

/-- The only validator. -/
def validator : Did := ⟨"did:exo:v0"⟩

/-- The validator set `v0`. -/
def validators : BTreeSet Did := .ofList [validator]

/-- The vote of the only validator, in round 0. -/
def ballot : Vote :=
  { voter := validator, round := 0, nodeHash := FixedBytes.fill 32 1, signature := .empty }

/-- A certificate without votes. -/
def forged : CommitCertificate := { nodeHash := FixedBytes.fill 32 1, votes := [], round := 0 }

/-- The certificate that `checkCommit` returns once the validator has voted. -/
def certificate : CommitCertificate :=
  { nodeHash := FixedBytes.fill 32 1, votes := [ballot], round := 0 }

/-- A hash is final on a certificate that carries no vote at all. -/
theorem finality_without_quorum :
    ¬ ∀ (build : Build) (config : ConsensusConfig) (ops : List Operation),
      Throughout (step build) FinalityQuorum (start config) ops := by
  intro all
  have finality := (all ⟨true⟩ (.new validators 1000) [.commit forged]).last
  obtain ⟨cert, found, quorum, _⟩ := finality forged.nodeHash (by decide)
  have stored : (run (step ⟨true⟩) (start (.new validators 1000))
      [.commit forged]).state.certificates[forged.nodeHash]? = some forged := by decide
  rw [stored, Option.some.injEq] at found
  subst found
  exact absurd quorum (by decide)

end OneValidator

/-! ### Runs that commit only what `checkCommit` returned -/

/-- A call to `commit` is given a certificate that `checkCommit` returned on this replica. -/
def CommitsIssued (session : Session) : Operation → Prop
  | .commit cert => cert ∈ session.issued
  | _ => True

instance (session : Session) (op : Operation) : Decidable (session.CommitsIssued op) :=
  match op with
  | .commit cert => inferInstanceAs (Decidable (cert ∈ session.issued))
  | .propose _ _ | .vote _ | .advanceRound | .checkCommit _ => .isTrue trivial

/-- A run that commits only what `checkCommit` returned. -/
def Vetted (build : Build) (config : ConsensusConfig) (ops : List Operation) : Prop :=
  Along (step build) CommitsIssued (start config) ops

/-! ### The commit log is consistent exactly when no hash is committed again -/

/-- The commit log has no repetition and lists exactly the hashes with a certificate. -/
def LogConsistent (session : Session) : Prop :=
  session.state.committed.Nodup ∧
    ∀ hash, hash ∈ session.state.committed ↔ hash ∈ session.state.certificates

/-- Every stored certificate of `earlier` is the one stored in `later`. -/
def CertificatesKept (earlier later : Session) : Prop :=
  ∀ (hash : Hash256) (cert : CommitCertificate), earlier.state.certificates[hash]? = some cert →
    later.state.certificates[hash]? = some cert

/-- A call to `commit` is given a certificate for a hash that is not final yet. -/
def CommitsFresh (session : Session) : Operation → Prop
  | .commit cert => isFinalized session.state cert.nodeHash = false
  | _ => True

theorem logConsistent_step_iff (build : Build) (session : Session) (op : Operation)
    (consistent : session.LogConsistent) :
    (step build session op).LogConsistent ↔ session.CommitsFresh op := by
  obtain ⟨distinct, keys⟩ := consistent
  rcases step_log_cases build session op with
    ⟨cert, rfl, stepped⟩ | ⟨other, certificates, committed⟩
  · have fresh_iff : session.CommitsFresh (.commit cert) ↔
        cert.nodeHash ∉ session.state.committed := by
      rw [keys, ← Std.ExtTreeMap.contains_iff_mem, Bool.not_eq_true]
      rfl
    rw [fresh_iff, stepped]
    constructor
    · rintro ⟨after, _⟩ again
      exact (List.nodup_append.mp after).2.2 _ again _ List.mem_cons_self rfl
    · intro fresh
      refine ⟨?_, fun hash => ?_⟩
      · refine List.nodup_append.mpr ⟨distinct, List.nodup_singleton _, ?_⟩
        intro old member new isNew same
        rw [List.mem_singleton.mp isNew] at same
        exact fresh (same ▸ member)
      · show hash ∈ session.state.committed ++ [cert.nodeHash] ↔
          hash ∈ session.state.certificates.insert cert.nodeHash cert
        rw [List.mem_append, List.mem_singleton, keys, Std.ExtTreeMap.mem_insert,
          Std.compare_eq_iff_eq, or_comm, eq_comm]
  · constructor
    · intro _
      cases op with
      | commit cert => exact absurd rfl (other cert)
      | _ => trivial
    · intro _
      unfold LogConsistent
      rw [certificates, committed]
      exact ⟨distinct, keys⟩

/-- Committing a fresh hash keeps every stored certificate. -/
theorem certificatesKept_step (build : Build) (session : Session) (op : Operation)
    (fresh : session.CommitsFresh op) : CertificatesKept session (step build session op) := by
  intro hash cert found
  rcases step_log_cases build session op with
    ⟨committed, rfl, stepped⟩ | ⟨_, certificates, _⟩
  · rw [stepped, getElem?_certificates_commit, if_neg]
    · exact found
    · rintro rfl
      have final := isFinalized_iff.mpr ⟨cert, found⟩
      have notFinal : isFinalized session.state committed.nodeHash = false := fresh
      rw [notFinal] at final
      cases final
  · rw [certificates]
    exact found

/-- **The commit log is consistent in every state of a run, and no stored certificate changes,
exactly when no call of the run commits a hash that is already final.** -/
theorem log_consistent_iff_fresh (build : Build) (config : ConsensusConfig) (ops : List Operation) :
    (Throughout (step build) LogConsistent (start config) ops ∧
      Evolves (step build) CertificatesKept (start config) ops) ↔
      Along (step build) CommitsFresh (start config) ops := by
  have log : Throughout (step build) LogConsistent (start config) ops ↔
      Along (step build) CommitsFresh (start config) ops := by
    refine throughout_iff_along (I := fun _ => True) (fun _ _ _ => trivial)
      (fun session op _ => logConsistent_step_iff build session op) trivial ?_
    refine ⟨List.nodup_nil, fun hash => ?_⟩
    exact ⟨fun member => absurd member List.not_mem_nil,
      fun member => absurd member Std.ExtTreeMap.not_mem_empty⟩
  constructor
  · exact fun both => log.mp both.1
  · intro fresh
    refine ⟨log.mpr fresh, ?_⟩
    refine (evolves_iff_along (fun _ _ _ found => found) ?_).mpr ?_
    · exact fun _ _ _ first second hash cert found => second hash cert (first hash cert found)
    · exact fun before op after split =>
        certificatesKept_step build _ op (fresh before op after split)

namespace OneValidator

/-- One certificate of `checkCommit`, committed twice, is logged twice. -/
theorem log_repeats :
    ¬ ∀ (build : Build) (config : ConsensusConfig) (ops : List Operation),
      Vetted build config ops →
      Throughout (step build) LogConsistent (start config) ops ∧
        Evolves (step build) CertificatesKept (start config) ops := by
  intro all
  have vetted : Vetted ⟨true⟩ (.new validators 1000)
      [.vote ballot, .checkCommit ballot.nodeHash, .commit certificate, .commit certificate] := by
    unfold Vetted
    decide
  have consistent := (all _ _ _ vetted).1.last
  exact absurd consistent.1 (by decide)

end OneValidator

end Session

end Exochain.ExoDag
