/-
**Two replicas agree on every round.**

A replica that commits only what `checkCommit` returned holds certificates that its own vote ledger
backs (`certified_of_vetted`). Two such certificates of one round, on one replica or on two, carry
quorums of the same validator set. Their voters overlap in more than `faultTolerance` validators
(`quorum_overlap`), so in one that is not faulty; it cast one vote in that round, and both
certificates name its hash.
-/

import Exochain.Dag.VoteLedger

set_option linter.unusedSectionVars false

namespace Exochain.ExoDag

open Foundation ExoCore

namespace Session

/-! ### What a vetted replica holds -/

/-- What a replica knows of its certificates when it commits only issued ones. -/
structure Certified (session : Session) : Prop where
  ledger : session.Ledger
  issued_backed : ∀ cert ∈ session.issued,
    0 < session.state.config.quorumSize ∧ session.Backed cert
  stored_backed : ∀ (hash : Hash256) (cert : CommitCertificate),
    session.state.certificates[hash]? = some cert →
      cert.nodeHash = hash ∧ 0 < session.state.config.quorumSize ∧ session.Backed cert

theorem certified_start (config : ConsensusConfig) : (start config).Certified := by
  refine ⟨ledger_start config, fun cert member => absurd member List.not_mem_nil, ?_⟩
  intro hash cert found
  have none : (start config).state.certificates[hash]? = none := Std.ExtTreeMap.getElem?_empty
  rw [none] at found
  cases found

theorem certified_step (build : Build) (session : Session) (op : Operation)
    (certified : session.Certified) (vetted : session.CommitsIssued op) :
    (step build session op).Certified := by
  refine ⟨ledger_step build session op certified.ledger, fun cert member => ?_,
    fun hash cert found => ?_⟩
  · rw [config_step]
    rcases mem_issued_step member with old | ⟨hash, rfl, answer⟩
    · obtain ⟨positive, backed⟩ := certified.issued_backed cert old
      exact ⟨positive, backed.step op⟩
    · have backed := certified.ledger.backed_of_checkCommit answer
      exact ⟨(checkCommit_eq_some answer).2.1, backed.step (.checkCommit hash)⟩
  · rw [config_step]
    rcases step_log_cases build session op with
      ⟨committed, rfl, stepped⟩ | ⟨_, certificates, _⟩
    · rw [stepped, getElem?_certificates_commit] at found
      split at found
      · rename_i same
        cases found
        obtain ⟨positive, backed⟩ := certified.issued_backed _ vetted
        exact ⟨same, positive, backed.step (.commit _)⟩
      · obtain ⟨key, positive, backed⟩ := certified.stored_backed hash cert found
        exact ⟨key, positive, backed.step (.commit committed)⟩
    · rw [certificates] at found
      obtain ⟨key, positive, backed⟩ := certified.stored_backed hash cert found
      exact ⟨key, positive, backed.step op⟩

/-- **Every state of a vetted run is certified.** -/
theorem certified_of_vetted {build : Build} {config : ConsensusConfig} {ops : List Operation}
    (vetted : Vetted build config ops) :
    Throughout (step build) Certified (start config) ops :=
  throughout_of_along (certified_step build) (certified_start config) vetted

/-! ### What a run was given -/

/-- The votes among the operations of a run. -/
def votesCast (ops : List Operation) : List Vote :=
  ops.filterMap fun
    | .vote v => some v
    | .propose _ _ | .advanceRound | .checkCommit _ | .commit _ => none

theorem mem_votesCast {ops : List Operation} {v : Vote} : v ∈ votesCast ops ↔ .vote v ∈ ops := by
  simp only [votesCast, List.mem_filterMap]
  constructor
  · rintro ⟨op, member, same⟩
    cases op <;> cases same
    exact member
  · exact fun member => ⟨_, member, rfl⟩

/-- Only votes that were cast are accepted. -/
theorem accepted_cast {build : Build} {config : ConsensusConfig} {ops : List Operation} {v : Vote}
    (member : v ∈ (run (step build) (start config) ops).accepted) : v ∈ votesCast ops := by
  -- from the later end, where the last operation decides
  induction ops using List.reverseRecOn with
  | nil => cases member
  | append_singleton ops op ih =>
    rw [run_append] at member
    have extend : v ∈ votesCast ops → v ∈ votesCast (ops ++ [op]) := by
      rw [mem_votesCast, mem_votesCast]
      exact List.mem_append_left _
    rcases step_ledger_cases build (run (step build) (start config) ops) op with
      same | ⟨w, stepped, rfl, _⟩
    · rw [run_cons, run_nil, same.accepted] at member
      exact extend (ih member)
    · rw [run_cons, run_nil, stepped] at member
      rcases List.mem_append.mp member with old | new
      · exact extend (ih old)
      · rw [List.mem_singleton.mp new, mem_votesCast]
        exact List.mem_append_right _ List.mem_cons_self

/-- The configuration never changes. -/
theorem config_run (build : Build) (config : ConsensusConfig) (ops : List Operation) :
    (run (step build) (start config) ops).state.config = config := by
  have all : Throughout (step build) (fun session => session.state.config = config) (start config)
      ops :=
    throughout_of_preserved (P := fun session => session.state.config = config)
      (fun session op same => (config_step build session op).trans same) rfl ops
  exact all.last

/-! ### Quorum intersection -/

/-- **Two quorums exceed the validators by more than the tolerated faults**: `2 (⌊2n/3⌋ + 1)` is
more than `n + ⌊(n - 1)/3⌋` for every `n`. -/
theorem quorum_overlap {validators : BTreeSet Did} {timeout : UInt64}
    (positive : 0 < (ConsensusConfig.new validators timeout).quorumSize) :
    validators.size + (ConsensusConfig.new validators timeout).faultTolerance <
      2 * (ConsensusConfig.new validators timeout).quorumSize := by
  rw [ConsensusConfig.quorumSize_new] at positive ⊢
  rw [ConsensusConfig.faultTolerance_new]
  by_cases empty : validators.size = 0
  · rw [if_pos empty] at positive
    omega
  · rw [if_neg empty, if_neg empty]
    omega

/-- The voters of a sound certificate: a quorum of validators. -/
theorem Sound.voters {session : Session} {hash : Hash256} {cert : CommitCertificate}
    (sound : session.Sound hash cert) :
    (cert.votes.map Vote.voter).toFinset ⊆ session.state.config.validators.toFinset ∧
      session.state.config.quorumSize ≤ (cert.votes.map Vote.voter).toFinset.card := by
  obtain ⟨quorum, distinct, votes⟩ := sound
  constructor
  · intro voter member
    obtain ⟨v, vMember, rfl⟩ := List.mem_map.mp (List.mem_toFinset.mp member)
    exact BTreeSet.mem_toFinset.mpr (votes v vMember).1
  · rw [List.toFinset_card_of_nodup distinct, List.length_map]
    exact quorum

/-- The replica holds the certificate. -/
def Holds (session : Session) (cert : CommitCertificate) : Prop :=
  ∃ hash : Hash256, session.state.certificates[hash]? = some cert

/-- Every validator outside `byzantine` has at most one hash per round among the votes. -/
def HonestVotes (validators : BTreeSet Did) (byzantine : Finset Did) (votes : List Vote) : Prop :=
  ∀ v ∈ votes, ∀ w ∈ votes, v.voter ∈ validators → v.voter ∉ byzantine →
    v.voter = w.voter → v.round = w.round → v.nodeHash = w.nodeHash

instance (validators : BTreeSet Did) (byzantine : Finset Did) (votes : List Vote) :
    Decidable (HonestVotes validators byzantine votes) :=
  inferInstanceAs (Decidable (∀ v ∈ votes, ∀ w ∈ votes, v.voter ∈ validators →
    v.voter ∉ byzantine → v.voter = w.voter → v.round = w.round → v.nodeHash = w.nodeHash))

/-- **Two certified replicas with one validator set agree on a round**, if the validators that are
not faulty voted once in it. -/
theorem Certified.agree {first second : Session} {validators : BTreeSet Did} {timeout : UInt64}
    (firstCertified : first.Certified) (secondCertified : second.Certified)
    (firstConfig : first.state.config = .new validators timeout)
    (secondConfig : second.state.config = .new validators timeout) {byzantine : Finset Did}
    (few : byzantine.card ≤ (ConsensusConfig.new validators timeout).faultTolerance)
    (honest : HonestVotes validators byzantine (first.accepted ++ second.accepted))
    {cert cert' : CommitCertificate} (held : first.Holds cert) (held' : second.Holds cert')
    (sameRound : cert.round = cert'.round) : cert.nodeHash = cert'.nodeHash := by
  obtain ⟨_, found⟩ := held
  obtain ⟨_, found'⟩ := held'
  obtain ⟨rfl, positive, backed⟩ := firstCertified.stored_backed _ cert found
  obtain ⟨rfl, _, backed'⟩ := secondCertified.stored_backed _ cert' found'
  have sound := (firstCertified.ledger.backed_iff_sound cert).mp backed
  have sound' := (secondCertified.ledger.backed_iff_sound cert').mp backed'
  obtain ⟨inValidators, quorum⟩ := sound.voters
  obtain ⟨inValidators', quorum'⟩ := sound'.voters
  rw [firstConfig] at positive inValidators quorum
  rw [secondConfig] at inValidators' quorum'
  have overlap := quorum_overlap positive
  have large : (ConsensusConfig.new validators timeout).validators.toFinset.card + byzantine.card <
      (cert.votes.map Vote.voter).toFinset.card + (cert'.votes.map Vote.voter).toFinset.card := by
    rw [BTreeSet.card_toFinset]
    show validators.size + _ < _
    omega
  obtain ⟨voter, member, member', notFaulty⟩ :=
    exists_mem_both_of_card inValidators inValidators' large
  obtain ⟨v, vMember, rfl⟩ := List.mem_map.mp (List.mem_toFinset.mp member)
  obtain ⟨w, wMember, sameVoter⟩ := List.mem_map.mp (List.mem_toFinset.mp member')
  obtain ⟨validator, vHash, vRound, vAccepted⟩ := sound.2.2 v vMember
  obtain ⟨_, wHash, wRound, wAccepted⟩ := sound'.2.2 w wMember
  rw [firstConfig] at validator
  rw [← vHash, ← wHash]
  refine honest v (List.mem_append_left _ vAccepted) w (List.mem_append_right _ wAccepted)
    validator notFaulty sameVoter.symm ?_
  rw [vRound, wRound, sameRound]

/-- Fewer votes to choose from are still honest. -/
theorem HonestVotes.subset {validators : BTreeSet Did} {byzantine : Finset Did}
    {votes fewer : List Vote} (honest : HonestVotes validators byzantine votes)
    (sub : ∀ v ∈ fewer, v ∈ votes) : HonestVotes validators byzantine fewer :=
  fun v vMember w wMember => honest v (sub v vMember) w (sub w wMember)

/-- **Agreement.** Two replicas over one validator set run any operations, each committing only
certificates that its own `checkCommit` returned. If at most `faultTolerance` validators are
Byzantine and every other one casts one hash per round, the same on both replicas, then certificates
of one round name one hash: across the two replicas, and on each one alone. -/
theorem replicas_agree (build build' : Build) (validators : BTreeSet Did) (timeout : UInt64)
    (ops ops' : List Operation) (byzantine : Finset Did)
    (vetted : Vetted build (.new validators timeout) ops)
    (vetted' : Vetted build' (.new validators timeout) ops')
    (few : byzantine.card ≤ (ConsensusConfig.new validators timeout).faultTolerance)
    (honest : HonestVotes validators byzantine (votesCast ops ++ votesCast ops')) :
    (∀ cert cert', (run (step build) (start (.new validators timeout)) ops).Holds cert →
      (run (step build') (start (.new validators timeout)) ops').Holds cert' →
      cert.round = cert'.round → cert.nodeHash = cert'.nodeHash) ∧
    (∀ cert cert', (run (step build) (start (.new validators timeout)) ops).Holds cert →
      (run (step build) (start (.new validators timeout)) ops).Holds cert' →
      cert.round = cert'.round → cert.nodeHash = cert'.nodeHash) := by
  have certified := (certified_of_vetted vetted).last
  have certified' := (certified_of_vetted vetted').last
  have config := config_run build (.new validators timeout) ops
  have config' := config_run build' (.new validators timeout) ops'
  constructor
  · intro cert cert' held held' sameRound
    refine certified.agree certified' config config' few (honest.subset fun v member => ?_) held
      held' sameRound
    rcases List.mem_append.mp member with first | second
    · exact List.mem_append_left _ (accepted_cast first)
    · exact List.mem_append_right _ (accepted_cast second)
  · intro cert cert' held held' sameRound
    refine certified.agree certified config config few (honest.subset fun v member => ?_) held
      held' sameRound
    rcases List.mem_append.mp member with first | second
    · exact List.mem_append_left _ (accepted_cast first)
    · exact List.mem_append_left _ (accepted_cast second)

/-! ### Four validators, one of them Byzantine -/

namespace FourValidators

/-- Validator number `name`. -/
def validator (name : String) : Did := ⟨s!"did:exo:{name}"⟩

/-- The validator set `v0 .. v3`. -/
def validators : BTreeSet Did :=
  .ofList [validator "v0", validator "v1", validator "v2", validator "v3"]

/-- The two hashes that are voted on. -/
def left : Hash256 := FixedBytes.fill 32 1

def right : Hash256 := FixedBytes.fill 32 2

/-- A vote of round 0. -/
def ballot (name : String) (hash : Hash256) : Vote :=
  { voter := validator name, round := 0, nodeHash := hash, signature := .empty }

/-- The certificate of three votes for `left`. -/
def certificate (names : List String) : CommitCertificate :=
  { nodeHash := left, votes := names.map (ballot · left), round := 0 }

/-- The first replica hears the Byzantine `v0` vote for `left`. -/
def opsFirst : List Operation :=
  [.vote (ballot "v0" left), .vote (ballot "v1" left), .vote (ballot "v2" left),
    .checkCommit left, .commit (certificate ["v0", "v1", "v2"])]

/-- The second replica hears `v0` vote for `right`, and certifies `left` without it. -/
def opsSecond : List Operation :=
  [.vote (ballot "v0" right), .vote (ballot "v1" left), .vote (ballot "v2" left),
    .vote (ballot "v3" left), .checkCommit left, .commit (certificate ["v1", "v2", "v3"])]

/-- A round in which one validator equivocates and both replicas hold a certificate. -/
theorem replicas_agree_four :
    (run (step ⟨true⟩) (start (.new validators 1000)) opsFirst).Holds
      (certificate ["v0", "v1", "v2"]) ∧
    (run (step ⟨false⟩) (start (.new validators 1000)) opsSecond).Holds
      (certificate ["v1", "v2", "v3"]) ∧
    ∀ cert cert', (run (step ⟨true⟩) (start (.new validators 1000)) opsFirst).Holds cert →
      (run (step ⟨false⟩) (start (.new validators 1000)) opsSecond).Holds cert' →
      cert.round = cert'.round → cert.nodeHash = cert'.nodeHash := by
  have vetted : Vetted ⟨true⟩ (.new validators 1000) opsFirst := by
    unfold Vetted
    decide
  have vetted' : Vetted ⟨false⟩ (.new validators 1000) opsSecond := by
    unfold Vetted
    decide
  refine ⟨⟨left, by decide⟩, ⟨left, by decide⟩, ?_⟩
  exact (replicas_agree ⟨true⟩ ⟨false⟩ validators 1000 opsFirst opsSecond {validator "v0"} vetted
    vetted' (by decide) (by decide)).1

end FourValidators

end Session

end Exochain.ExoDag
