/-
**`exo-dag` — the consensus state of one replica.**

The operations of `consensus.rs` on a `ConsensusState`, and the machine that a replica is: a list
of operations from `ConsensusState.new`. Next to the state the machine keeps two histories that the
program itself does not store but that its guarantees speak of: the votes that `vote` accepted and
the certificates that `checkCommit` returned.

Each operation has one lemma that says what it can do. `vote_cases`: a rejected vote leaves the
state as it was, an accepted one is by a validator, for the current round, by someone who has not
voted in it, and is pushed on one pending list. `pendingVotes_*` read the pending table after each
operation.
-/

import Exochain.Foundation.Run
import Exochain.Dag.Graph

set_option linter.unusedSectionVars false

namespace Exochain.ExoDag

open Foundation ExoCore

/-! ### Configuration -/

/-- The validator set and the bounds derived from it. -/
structure ConsensusConfig where
  validators : BTreeSet Did
  faultTolerance : ℕ
  roundTimeoutMs : UInt64

namespace ConsensusConfig

/-- A configuration tolerates fewer than a third of its validators. -/
def new (validators : BTreeSet Did) (roundTimeoutMs : UInt64) : ConsensusConfig :=
  let n := validators.size
  { validators
    faultTolerance := if n = 0 then 0 else (n - 1) / 3
    roundTimeoutMs }

/-- The number of votes a commit needs: more than two thirds of the validators. -/
def quorumSize (config : ConsensusConfig) : ℕ :=
  let n := config.validators.size
  if n = 0 then 0 else 2 * n / 3 + 1

theorem faultTolerance_new (validators : BTreeSet Did) (timeout : UInt64) :
    (new validators timeout).faultTolerance =
      if validators.size = 0 then 0 else (validators.size - 1) / 3 := rfl

theorem quorumSize_new (validators : BTreeSet Did) (timeout : UInt64) :
    (new validators timeout).quorumSize =
      if validators.size = 0 then 0 else 2 * validators.size / 3 + 1 := rfl

end ConsensusConfig

/-! ### Votes and certificates -/

/-- A vote for a node in a round. -/
structure Vote where
  voter : Did
  round : UInt64
  nodeHash : Hash256
  signature : Signature
  deriving DecidableEq

/-- A proposal to commit a node. -/
structure Proposal where
  proposer : Did
  round : UInt64
  nodeHash : Hash256
  deriving DecidableEq

/-- The votes on which a node was committed. -/
structure CommitCertificate where
  nodeHash : Hash256
  votes : List Vote
  round : UInt64
  deriving DecidableEq

/-! ### The state and its operations -/

/-- The state of one replica. -/
structure ConsensusState where
  config : ConsensusConfig
  currentRound : UInt64
  committed : List Hash256
  pending : BTreeMap UInt64 (BTreeMap Hash256 (List Vote))
  certificates : BTreeMap Hash256 CommitCertificate
  votedInRound : BTreeMap UInt64 (BTreeSet Did)

namespace ConsensusState

/-- The state before any operation. -/
def new (config : ConsensusConfig) : ConsensusState :=
  { config
    currentRound := 0
    committed := []
    pending := ∅
    certificates := ∅
    votedInRound := ∅ }

/-- Advance to the next round, a 64-bit increment. -/
def advanceRound (build : Build) (state : ConsensusState) : Except Fault ConsensusState := do
  let next ← build.add 64 state.currentRound.toNat 1
  return { state with currentRound := UInt64.ofNat next }

/-- The pending votes of a round for a node. -/
def pendingVotes (state : ConsensusState) (round : UInt64) (hash : Hash256) : List Vote :=
  ((state.pending[round]?.getD ∅)[hash]?).getD []

/-- The validators recorded as having voted in a round. -/
def votersIn (state : ConsensusState) (round : UInt64) : BTreeSet Did :=
  state.votedInRound[round]?.getD ∅

end ConsensusState

/-- Enter `change` on the pending list of a round and a node, making both entries if missing. -/
def enterPending (pending : BTreeMap UInt64 (BTreeMap Hash256 (List Vote))) (round : UInt64)
    (hash : Hash256) (change : List Vote → List Vote) :
    BTreeMap UInt64 (BTreeMap Hash256 (List Vote)) :=
  BTreeMap.upsert pending round ∅ fun byHash => BTreeMap.upsert byHash hash [] change

/-- Propose a node for commitment in the current round. -/
def propose (state : ConsensusState) (node : DagNode) (proposer : Did) :
    Except DagError Proposal × ConsensusState :=
  if !state.config.validators.contains proposer then
    (.error (.notAValidator proposer.value), state)
  else
    (.ok { proposer, round := state.currentRound, nodeHash := node.hash },
      { state with pending := enterPending state.pending state.currentRound node.hash id })

/-- Cast a vote in the current round. The round's voter set is created before the duplicate check,
as in the source. -/
def vote (state : ConsensusState) (v : Vote) : Except DagError Unit × ConsensusState :=
  if !state.config.validators.contains v.voter then
    (.error (.notAValidator v.voter.value), state)
  else if v.round ≠ state.currentRound then
    (.error (.invalidRound state.currentRound v.round), state)
  else
    let state := { state with votedInRound := BTreeMap.upsert state.votedInRound v.round ∅ id }
    if (state.votersIn v.round).contains v.voter then
      (.error (.duplicateVote v.voter.value v.round), state)
    else
      (.ok (),
        { state with
          votedInRound := BTreeMap.upsert state.votedInRound v.round ∅ (·.insert v.voter)
          pending := enterPending state.pending v.round v.nodeHash (· ++ [v]) })

/-- The certificate for a node, if it has a quorum of votes in the current round. -/
def checkCommit (state : ConsensusState) (hash : Hash256) : Option CommitCertificate :=
  let quorum := state.config.quorumSize
  if quorum = 0 then none
  else
    match state.pending[state.currentRound]? with
    | none => none
    | some roundVotes =>
      match roundVotes[hash]? with
      | none => none
      | some votes =>
        if votes.length ≥ quorum then
          some { nodeHash := hash, votes, round := state.currentRound }
        else none

/-- Commit a node with a certificate. -/
def commit (state : ConsensusState) (cert : CommitCertificate) : ConsensusState :=
  { state with
    committed := state.committed ++ [cert.nodeHash]
    certificates := state.certificates.insert cert.nodeHash cert }

/-- Whether a node has been committed with a certificate. -/
def isFinalized (state : ConsensusState) (hash : Hash256) : Bool := state.certificates.contains hash

/-! ### What each operation can do -/

section Operations

variable (state : ConsensusState)

theorem isFinalized_iff {state : ConsensusState} {hash : Hash256} :
    isFinalized state hash = true ↔ ∃ cert, state.certificates[hash]? = some cert := by
  rw [isFinalized, Std.ExtTreeMap.contains_iff_mem, BTreeMap.mem_iff_exists]

/-- The pending table read after one entry was changed. -/
theorem pendingVotes_enterPending (change : List Vote → List Vote) (round : UInt64) (hash : Hash256)
    (otherRound : UInt64) (otherHash : Hash256) :
    { state with pending := enterPending state.pending round hash change }.pendingVotes
        otherRound otherHash =
      if round = otherRound ∧ hash = otherHash then change (state.pendingVotes round hash)
      else state.pendingVotes otherRound otherHash := by
  unfold ConsensusState.pendingVotes enterPending
  by_cases sameRound : round = otherRound
  · subst sameRound
    simp only [BTreeMap.getElem?_upsert_self, Option.getD_some, true_and]
    by_cases sameHash : hash = otherHash
    · subst sameHash
      rw [if_pos rfl, BTreeMap.getElem?_upsert_self, Option.getD_some]
    · rw [if_neg sameHash, BTreeMap.getElem?_upsert_of_ne _ _ sameHash]
  · simp only [BTreeMap.getElem?_upsert_of_ne _ _ sameRound, sameRound, false_and, if_false]

/-- **A proposal changes no pending vote and nothing outside the pending table.** -/
theorem propose_cases (node : DagNode) (proposer : Did) :
    (propose state node proposer).2 = state ∨
    (propose state node proposer).2 =
      { state with pending := enterPending state.pending state.currentRound node.hash id } := by
  unfold propose
  split
  · exact .inl rfl
  · exact .inr rfl

/-- The state after an accepted vote. -/
def afterVote (state : ConsensusState) (v : Vote) : ConsensusState :=
  { state with
    votedInRound := BTreeMap.upsert state.votedInRound v.round ∅ (·.insert v.voter)
    pending := enterPending state.pending v.round v.nodeHash (· ++ [v]) }

theorem votersIn_upsert (change : BTreeSet Did → BTreeSet Did) (round other : UInt64) :
    { state with votedInRound := BTreeMap.upsert state.votedInRound round ∅ change }.votersIn other =
      if round = other then change (state.votersIn round) else state.votersIn other := by
  unfold ConsensusState.votersIn
  by_cases same : round = other
  · subst same
    rw [if_pos rfl, BTreeMap.getElem?_upsert_self, Option.getD_some]
  · rw [if_neg same, BTreeMap.getElem?_upsert_of_ne _ _ same]

/-- **What a vote can do**: be rejected with the state as it was, or be by a validator who has not
voted in the current round, and be recorded. -/
theorem vote_cases (v : Vote) :
    (∃ error, vote state v = (.error error, state)) ∨
    (vote state v = (.ok (), afterVote state v) ∧ v.voter ∈ state.config.validators ∧
      v.round = state.currentRound ∧ v.voter ∉ state.votersIn v.round) := by
  unfold vote
  by_cases outsider : (!state.config.validators.contains v.voter) = true
  · rw [if_pos outsider]
    exact .inl ⟨_, rfl⟩
  rw [if_neg outsider]
  by_cases otherRound : v.round ≠ state.currentRound
  · rw [if_pos otherRound]
    exact .inl ⟨_, rfl⟩
  rw [if_neg otherRound]
  simp only [votersIn_upsert, if_true, id_eq]
  by_cases again : (state.votersIn v.round).contains v.voter = true
  · -- the voter is in the round's set, so the set was there before the call
    rw [if_pos again]
    cases entry : state.votedInRound[v.round]? with
    | none =>
      rw [ConsensusState.votersIn, entry, Option.getD_none, Std.ExtTreeSet.contains_empty] at again
      cases again
    | some voters =>
      rw [BTreeMap.upsert_id_eq_self entry]
      exact .inl ⟨_, rfl⟩
  · rw [if_neg again]
    refine .inr ⟨?_, ?_, not_not.mp otherRound, ?_⟩
    · refine Prod.ext rfl ?_
      show _ = afterVote state v
      rw [afterVote, BTreeMap.upsert_upsert_id]
    · simpa using outsider
    · exact fun member => again (Std.ExtTreeSet.contains_iff_mem.mpr member)

/-- **A certificate of `checkCommit` carries the pending votes of the current round**, and they are
at least a quorum. -/
theorem checkCommit_eq_some {state : ConsensusState} {hash : Hash256} {cert : CommitCertificate}
    (issued : checkCommit state hash = some cert) :
    cert = { nodeHash := hash
             votes := state.pendingVotes state.currentRound hash
             round := state.currentRound } ∧
      0 < state.config.quorumSize ∧ state.config.quorumSize ≤ cert.votes.length := by
  unfold checkCommit at issued
  simp only at issued
  split at issued
  · cases issued
  rename_i positive
  split at issued
  · cases issued
  rename_i roundVotes roundFound
  split at issued
  · cases issued
  rename_i votes votesFound
  split at issued
  · rename_i enough
    cases issued
    refine ⟨?_, Nat.pos_of_ne_zero positive, enough⟩
    rw [ConsensusState.pendingVotes, roundFound, Option.getD_some, votesFound, Option.getD_some]
  · cases issued

/-- Advancing the round changes nothing but the round. -/
theorem advanceRound_cases (build : Build) :
    (∃ fault, state.advanceRound build = .error fault) ∨
    ∃ next, state.advanceRound build = .ok { state with currentRound := next } := by
  unfold ConsensusState.advanceRound
  cases build.add 64 state.currentRound.toNat 1 with
  | error fault => exact .inl ⟨fault, rfl⟩
  | ok next => exact .inr ⟨UInt64.ofNat next, rfl⟩

end Operations

/-! ### The replica as a machine -/

/-- One call on a replica. -/
inductive Operation where
  | propose (node : DagNode) (proposer : Did)
  | vote (v : Vote)
  | advanceRound
  | checkCommit (hash : Hash256)
  | commit (cert : CommitCertificate)

/-- A replica together with the history of its calls: the accepted votes and the certificates that
`checkCommit` returned. -/
structure Session where
  state : ConsensusState
  accepted : List Vote
  issued : List CommitCertificate

namespace Session

/-- A replica before any call. -/
def start (config : ConsensusConfig) : Session :=
  { state := .new config, accepted := [], issued := [] }

/-- The replica after one call. A round counter that overflows in a checked build stops the call
with the state as it was. -/
def step (build : Build) (session : Session) : Operation → Session
  | .propose node proposer => { session with state := (propose session.state node proposer).2 }
  | .vote v =>
    let (answer, state) := ExoDag.vote session.state v
    match answer with
    | .ok _ => { session with state, accepted := session.accepted ++ [v] }
    | .error _ => { session with state }
  | .advanceRound =>
    match session.state.advanceRound build with
    | .ok state => { session with state }
    | .error _ => session
  | .checkCommit hash =>
    match ExoDag.checkCommit session.state hash with
    | some cert => { session with issued := session.issued ++ [cert] }
    | none => session
  | .commit cert => { session with state := ExoDag.commit session.state cert }

end Session

end Exochain.ExoDag
