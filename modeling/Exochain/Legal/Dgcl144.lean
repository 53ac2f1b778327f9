/-
**`exo-legal` — the safe harbor of DGCL section 144.**

An interested transaction is disclosed, voted on by disinterested parties or shown to be fair, and then
verified. Verification may be asked for at any time and again: it answers from what is recorded.

The votes are counted as records. Nothing keeps a voter from voting again, so a majority of the records
is a majority of the voters only where nobody voted twice (`RepeatsVoter`).

* `afterCall_cases` — what a call can do: nothing, or one of five changes.
* `Recorded` — what the status says about the records; kept by every call.
* `settled_afterCall` — a verified or failed transaction keeps its status.
* **`safe_harbor_sound`** — the law over every run in which no voter is counted twice; that votes follow
  the disclosure and that a verdict is final holds in every run (`votes_follow_disclosure`,
  `verdicts_final`).
* `Sample.voted_twice` — a transaction verified by one of two voters.
-/

import Exochain.Foundation.Run
import Exochain.Foundation.Codes
import Exochain.Foundation.Blake3
import Exochain.Legal.Error

namespace Exochain.ExoLegal

open Foundation ExoCore

/-! ### Transactions -/

/-- The three safe harbors. -/
inductive SafeHarborPath where
  | boardApproval
  | shareholderApproval
  | fairnessProof
  deriving DecidableEq, Repr

/-- Where the workflow stands. -/
inductive SafeHarborStatus where
  | pendingDisclosure
  | disclosureMade
  | votingInProgress
  | verified
  | failed (reason : String)
  deriving DecidableEq, Repr

/-- The debug rendering of a status; the reasons that occur need no escapes. -/
def SafeHarborStatus.debug : SafeHarborStatus → String
  | pendingDisclosure => "PendingDisclosure"
  | disclosureMade => "DisclosureMade"
  | votingInProgress => "VotingInProgress"
  | verified => "Verified"
  | failed reason => "Failed \x7b reason: \"" ++ reason ++ "\" \x7d"

/-- The disclosure of the material facts. -/
structure Disclosure where
  disclosedBy : Did
  materialFacts : String
  disclosedAt : Timestamp
  factsHash : Hash256
  deriving DecidableEq

/-- A vote of a disinterested party. -/
structure DisinterestedVote where
  voter : Did
  approved : Bool
  timestamp : Timestamp
  independenceAttestation : Bool
  deriving DecidableEq

/-- The evidence that a transaction is fair. -/
structure FairnessEvidence where
  evaluator : Did
  methodology : String
  conclusion : String
  evidenceHash : Hash256
  evaluatedAt : Timestamp
  deriving DecidableEq

/-- A transaction of an interested party. -/
structure InterestedTransaction where
  id : Uuid
  interestedParty : Did
  interestDescription : String
  counterparty : Did
  termsHash : Hash256
  initiatedAt : Timestamp
  status : SafeHarborStatus
  path : Option SafeHarborPath
  disclosure : Option Disclosure
  disinterestedVotes : List DisinterestedVote
  fairnessEvidence : Option FairnessEvidence
  deriving DecidableEq

/-! ### The operations -/

/-- Start the workflow, with the identifier it is given. -/
def initiateSafeHarbor (id : Uuid) (interestedParty counterparty : Did) (interestDescription : String)
    (termsHash : Hash256) (path : SafeHarborPath) (now : Timestamp) :
    Except LegalError InterestedTransaction :=
  if now = Timestamp.zero then
    .error (.invalidStateTransition "safe-harbor initiation requires a real timestamp")
  else
    .ok
      { id := id
        interestedParty := interestedParty
        interestDescription := interestDescription
        counterparty := counterparty
        termsHash := termsHash
        initiatedAt := now
        status := .pendingDisclosure
        path := some path
        disclosure := none
        disinterestedVotes := []
        fairnessEvidence := none }

/-- Record the material facts. -/
def completeDisclosure (blake3 : Blake3) (txn : InterestedTransaction) (disclosedBy : Did)
    (materialFacts : String) (now : Timestamp) : Except LegalError Unit × InterestedTransaction :=
  if txn.status ≠ .pendingDisclosure then
    (.error (.invalidStateTransition ("expected PendingDisclosure, got " ++ txn.status.debug)), txn)
  else
    (.ok (),
      { txn with
        disclosure := some
          { disclosedBy := disclosedBy
            materialFacts := materialFacts
            disclosedAt := now
            factsHash := Hash256.digest blake3 (textBytes materialFacts) }
        status := .disclosureMade })

/-- The status takes votes. -/
def SafeHarborStatus.takesVotes : SafeHarborStatus → Bool
  | disclosureMade | votingInProgress => true
  | pendingDisclosure | verified | failed _ => false

/-- Record a vote. -/
def recordDisinterestedVote (txn : InterestedTransaction) (voter : Did) (approved : Bool)
    (now : Timestamp) : Except LegalError Unit × InterestedTransaction :=
  if !txn.status.takesVotes then
    (.error (.invalidStateTransition
      ("expected DisclosureMade or VotingInProgress, got " ++ txn.status.debug)), txn)
  else if voter = txn.interestedParty then
    (.error (.conflictOfInterest (voter.value ++ " is the interested party and cannot vote")), txn)
  else
    (.ok (),
      { txn with
        disinterestedVotes := txn.disinterestedVotes ++ [⟨voter, approved, now, true⟩]
        status := .votingInProgress })

/-- The number of approving votes. -/
def InterestedTransaction.approvals (txn : InterestedTransaction) : ℕ :=
  txn.disinterestedVotes.countP (·.approved)

/-- The number of votes. -/
def InterestedTransaction.total (txn : InterestedTransaction) : ℕ := txn.disinterestedVotes.length

/-- The reason of a failed vote. -/
def InterestedTransaction.insufficient (txn : InterestedTransaction) : String :=
  "insufficient approval: " ++ toString txn.approvals ++ "/" ++ toString txn.total

/-- The check of a vote, on the paths that need one. -/
def verifyVotes (txn : InterestedTransaction) : Except LegalError Unit × InterestedTransaction :=
  if txn.disinterestedVotes.isEmpty then
    (.error (.invalidStateTransition "no disinterested votes recorded"), txn)
  else if txn.approvals * 2 ≤ txn.total then
    (.error (.fiduciaryViolation ("safe-harbor failed: only " ++ toString txn.approvals ++ " of " ++
        toString txn.total ++ " disinterested votes approved")),
      { txn with status := .failed txn.insufficient })
  else (.ok (), { txn with status := .verified })

/-- The check of the evidence, on the path that needs it. -/
def verifyFairness (txn : InterestedTransaction) : Except LegalError Unit × InterestedTransaction :=
  if txn.fairnessEvidence.isNone then
    (.error (.invalidStateTransition "FairnessProof path requires fairness evidence"), txn)
  else (.ok (), { txn with status := .verified })

/-- Verify the safe harbor. -/
def verifySafeHarbor (txn : InterestedTransaction) : Except LegalError Unit × InterestedTransaction :=
  if txn.disclosure.isNone then
    (.error (.disclosureRequired "safe-harbor verification requires prior disclosure"), txn)
  else
    match txn.path with
    | none => (.error (.invalidStateTransition "no safe-harbor path specified"), txn)
    | some .boardApproval | some .shareholderApproval => verifyVotes txn
    | some .fairnessProof => verifyFairness txn

/-- The calls of the workflow; the evidence is a public field, set by the caller. -/
inductive Call where
  | completeDisclosure (disclosedBy : Did) (materialFacts : String) (now : Timestamp)
  | recordDisinterestedVote (voter : Did) (approved : Bool) (now : Timestamp)
  | verifySafeHarbor
  | setFairnessEvidence (evidence : FairnessEvidence)
  deriving DecidableEq

variable (blake3 : Blake3)

/-- The transaction after a call. -/
def afterCall (txn : InterestedTransaction) : Call → InterestedTransaction
  | .completeDisclosure disclosedBy materialFacts now =>
    (completeDisclosure blake3 txn disclosedBy materialFacts now).2
  | .recordDisinterestedVote voter approved now =>
    (recordDisinterestedVote txn voter approved now).2
  | .verifySafeHarbor => (verifySafeHarbor txn).2
  | .setFairnessEvidence evidence => { txn with fairnessEvidence := some evidence }

/-! ### One call -/

/-- The transaction needs a vote. -/
def InterestedTransaction.ByVote (txn : InterestedTransaction) : Prop :=
  txn.path = some .boardApproval ∨ txn.path = some .shareholderApproval

instance (txn : InterestedTransaction) : Decidable txn.ByVote :=
  inferInstanceAs (Decidable (_ ∨ _))

/-- **What a call can do to a transaction**: nothing, or one of six changes, each with the conditions it
is made under. -/
inductive Effect (txn : InterestedTransaction) : Call → InterestedTransaction → Prop
  | nothing (call : Call) : Effect txn call txn
  | disclosed (call : Call) (disclosure : Disclosure) (pending : txn.status = .pendingDisclosure) :
    Effect txn call { txn with disclosure := some disclosure, status := .disclosureMade }
  | voted (voter : Did) (approved : Bool) (now : Timestamp) (takes : txn.status.takesVotes = true)
      (disinterested : voter ≠ txn.interestedParty) :
    Effect txn (.recordDisinterestedVote voter approved now)
      { txn with
        disinterestedVotes := txn.disinterestedVotes ++ [⟨voter, approved, now, true⟩]
        status := .votingInProgress }
  | approved (call : Call) (disclosed : txn.disclosure.isSome = true) (byVote : txn.ByVote)
      (majority : txn.total < txn.approvals * 2) : Effect txn call { txn with status := .verified }
  | refused (call : Call) (disclosed : txn.disclosure.isSome = true) (byVote : txn.ByVote)
      (minority : txn.approvals * 2 ≤ txn.total) :
    Effect txn call { txn with status := .failed txn.insufficient }
  | fair (call : Call) (disclosed : txn.disclosure.isSome = true)
      (byProof : txn.path = some .fairnessProof) (shown : txn.fairnessEvidence.isSome = true) :
    Effect txn call { txn with status := .verified }
  | evidenced (call : Call) (evidence : FairnessEvidence) :
    Effect txn call { txn with fairnessEvidence := some evidence }

section Step

variable {txn after : InterestedTransaction} {call : Call} {blake3 : Blake3}

theorem verifyVotes_cases (disclosed : txn.disclosure.isSome = true) (byVote : txn.ByVote) :
    Effect txn .verifySafeHarbor (verifyVotes txn).2 := by
  unfold verifyVotes
  by_cases empty : txn.disinterestedVotes.isEmpty = true
  · rw [if_pos empty]
    exact .nothing _
  · rw [if_neg empty]
    by_cases minority : txn.approvals * 2 ≤ txn.total
    · rw [if_pos minority]
      exact .refused _ disclosed byVote minority
    · rw [if_neg minority]
      exact .approved _ disclosed byVote (not_le.mp minority)

theorem verifySafeHarbor_cases (txn : InterestedTransaction) :
    Effect txn .verifySafeHarbor (verifySafeHarbor txn).2 := by
  unfold verifySafeHarbor
  by_cases undisclosed : txn.disclosure.isNone = true
  · rw [if_pos undisclosed]
    exact .nothing _
  · rw [if_neg undisclosed]
    have disclosed : txn.disclosure.isSome = true := by
      rw [Option.isSome_iff_ne_none]
      exact fun missing => undisclosed (by rw [missing, Option.isNone_none])
    match path : txn.path with
    | none => exact .nothing _
    | some .boardApproval => exact verifyVotes_cases disclosed (.inl path)
    | some .shareholderApproval => exact verifyVotes_cases disclosed (.inr path)
    | some .fairnessProof =>
      show Effect txn _ (verifyFairness txn).2
      unfold verifyFairness
      by_cases missing : txn.fairnessEvidence.isNone = true
      · rw [if_pos missing]
        exact .nothing _
      · rw [if_neg missing]
        exact .fair _ disclosed path (by simpa [Option.isSome_iff_ne_none] using missing)

/-- **One call.** -/
theorem afterCall_cases (txn : InterestedTransaction) (call : Call) :
    Effect txn call (afterCall blake3 txn call) := by
  cases call with
  | completeDisclosure disclosedBy materialFacts now =>
    show Effect txn _ (completeDisclosure blake3 txn disclosedBy materialFacts now).2
    unfold completeDisclosure
    by_cases pending : txn.status = .pendingDisclosure
    · rw [if_neg (not_not.mpr pending)]
      exact .disclosed _ _ pending
    · rw [if_pos pending]
      exact .nothing _
  | recordDisinterestedVote voter approved now =>
    show Effect txn _ (recordDisinterestedVote txn voter approved now).2
    unfold recordDisinterestedVote
    cases takes : txn.status.takesVotes with
    | false => exact .nothing _
    | true =>
      by_cases interested : voter = txn.interestedParty
      · simp only [interested, Bool.not_true, Bool.false_eq_true, if_false, if_true]
        exact .nothing _
      · simp only [interested, Bool.not_true, Bool.false_eq_true, if_false]
        exact .voted voter approved now takes interested
  | verifySafeHarbor => exact verifySafeHarbor_cases txn
  | setFairnessEvidence evidence => exact .evidenced _ evidence

/-- The voters, each as often as there is a vote. -/
def InterestedTransaction.voters (txn : InterestedTransaction) : List Did :=
  txn.disinterestedVotes.map DisinterestedVote.voter

/-- **What the status says about the records.** -/
structure Recorded (txn : InterestedTransaction) : Prop where
  disclosed : txn.status ≠ .pendingDisclosure → txn.disclosure.isSome = true
  disinterested : txn.interestedParty ∉ txn.voters
  verified : txn.status = .verified → (txn.ByVote ∧ txn.total < txn.approvals * 2) ∨
    (txn.path = some .fairnessProof ∧ txn.fairnessEvidence.isSome = true)
  failed : ∀ reason, txn.status = .failed reason → txn.ByVote ∧
    txn.approvals * 2 ≤ txn.total ∧ reason = txn.insufficient

/-- Every call keeps the records in step with the status. -/
theorem Recorded.step (recorded : Recorded txn) (effect : Effect txn call after) : Recorded after := by
  cases effect with
  | nothing => exact recorded
  | disclosed _ disclosure pending =>
    exact ⟨fun _ => rfl, recorded.disinterested, nofun,
      nofun⟩
  | voted voter approved now takes disinterested =>
    refine ⟨fun _ => recorded.disclosed ?_, ?_, nofun,
      nofun⟩
    · intro pending
      rw [pending] at takes
      cases takes
    · intro member
      unfold InterestedTransaction.voters at member
      rw [List.map_append, List.mem_append] at member
      refine member.elim recorded.disinterested fun last => ?_
      rw [List.map_singleton, List.mem_singleton] at last
      exact disinterested last.symm
  | approved _ disclosed byVote majority =>
    exact ⟨fun _ => disclosed, recorded.disinterested, fun _ => .inl ⟨byVote, majority⟩,
      nofun⟩
  | refused _ disclosed byVote minority =>
    refine ⟨fun _ => disclosed, recorded.disinterested, nofun, ?_⟩
    intro reason status
    exact ⟨byVote, minority, (SafeHarborStatus.failed.inj status).symm⟩
  | fair _ disclosed byProof shown =>
    exact ⟨fun _ => disclosed, recorded.disinterested, fun _ => .inr ⟨byProof, shown⟩,
      nofun⟩
  | evidenced _ evidence =>
    refine ⟨recorded.disclosed, recorded.disinterested, fun verified => ?_, recorded.failed⟩
    exact (recorded.verified verified).imp id fun fair => ⟨fair.1, rfl⟩

/-- A verdict of the earlier transaction is the verdict of the later one. -/
def KeepsVerdict (earlier later : InterestedTransaction) : Prop :=
  (earlier.status = .verified → later.status = .verified) ∧
    ∀ reason, earlier.status = .failed reason → later.status = .failed reason

theorem not_byVote_of_byProof (byProof : txn.path = some .fairnessProof) : ¬ txn.ByVote := by
  unfold InterestedTransaction.ByVote
  simp [byProof]

/-- **A verdict is final**, however often verification is asked for. -/
theorem settled_afterCall (recorded : Recorded txn) (effect : Effect txn call after) :
    KeepsVerdict txn after := by
  cases effect with
  | nothing => exact ⟨id, fun _ => id⟩
  | evidenced => exact ⟨id, fun _ => id⟩
  | disclosed _ _ pending =>
    rw [KeepsVerdict, pending]
    exact ⟨nofun, nofun⟩
  | voted _ _ _ takes _ =>
    constructor
    · intro verified
      rw [verified] at takes
      cases takes
    · intro reason failed
      rw [failed] at takes
      cases takes
  | approved _ _ _ majority =>
    refine ⟨fun _ => rfl, fun reason failed => ?_⟩
    obtain ⟨-, minority, -⟩ := recorded.failed reason failed
    exact absurd majority (not_lt.mpr minority)
  | refused _ _ byVote minority =>
    constructor
    · intro verified
      rcases recorded.verified verified with ⟨-, majority⟩ | ⟨byProof, -⟩
      · exact absurd minority (not_le.mpr majority)
      · exact absurd byVote (not_byVote_of_byProof byProof)
    · intro reason failed
      obtain ⟨-, -, same⟩ := recorded.failed reason failed
      rw [same]
  | fair _ _ byProof _ =>
    refine ⟨fun _ => rfl, fun reason failed => ?_⟩
    obtain ⟨byVote, -, -⟩ := recorded.failed reason failed
    exact absurd byVote (not_byVote_of_byProof byProof)

/-- A vote is recorded under a disclosure only. -/
def FollowsDisclosure (txn after : InterestedTransaction) : Prop :=
  after.disinterestedVotes ≠ txn.disinterestedVotes → txn.disclosure.isSome = true

theorem followsDisclosure_afterCall (recorded : Recorded txn) (effect : Effect txn call after) :
    FollowsDisclosure txn after := by
  intro changed
  cases effect with
  | voted voter approved now takes disinterested =>
    refine recorded.disclosed fun pending => ?_
    rw [pending] at takes
    cases takes
  | nothing => exact absurd rfl changed
  | disclosed => exact absurd rfl changed
  | approved => exact absurd rfl changed
  | refused => exact absurd rfl changed
  | fair => exact absurd rfl changed
  | evidenced => exact absurd rfl changed

/-! ### Voters -/

/-- The call is a vote, taken on a path that needs votes, of somebody who has voted. -/
def RepeatsVoter (txn : InterestedTransaction) : Call → Prop
  | .recordDisinterestedVote voter _ _ =>
    txn.status.takesVotes = true ∧ txn.ByVote ∧ voter ∈ txn.voters
  | .completeDisclosure _ _ _ | .verifySafeHarbor | .setFairnessEvidence _ => False

instance : ∀ call, Decidable (RepeatsVoter txn call)
  | .recordDisinterestedVote _ _ _ => inferInstanceAs (Decidable (_ ∧ _ ∧ _))
  | .completeDisclosure _ _ _ => inferInstanceAs (Decidable False)
  | .verifySafeHarbor => inferInstanceAs (Decidable False)
  | .setFairnessEvidence _ => inferInstanceAs (Decidable False)

/-- Nobody has voted twice where votes count. -/
def OneVoteEach (txn : InterestedTransaction) : Prop := txn.ByVote → txn.voters.Nodup

theorem oneVoteEach_afterCall (each : OneVoteEach txn) (new : ¬ RepeatsVoter txn call)
    (effect : Effect txn call after) : OneVoteEach after := by
  cases effect with
  | voted voter approved now takes disinterested =>
    intro byVote
    have notAgain : voter ∉ txn.voters := fun again => new ⟨takes, byVote, again⟩
    show (List.map DisinterestedVote.voter (txn.disinterestedVotes ++ _)).Nodup
    rw [List.map_append, List.map_singleton, List.nodup_append]
    refine ⟨each byVote, List.nodup_singleton _, fun earlier member last here same => ?_⟩
    rw [List.mem_singleton] at here
    rw [same, here] at member
    exact notAgain member
  | nothing => exact each
  | disclosed => exact each
  | approved => exact each
  | refused => exact each
  | fair => exact each
  | evidenced => exact each

/-- Those who approved. -/
def InterestedTransaction.approvers (txn : InterestedTransaction) : List Did :=
  (txn.disinterestedVotes.filter (·.approved)).map DisinterestedVote.voter

/-- More than half of the voters approved, each counted once. -/
def MajorityOfVoters (txn : InterestedTransaction) : Prop :=
  txn.voters.toFinset.card < 2 * txn.approvers.toFinset.card

instance : Decidable (MajorityOfVoters txn) := inferInstanceAs (Decidable (_ < _))

/-- Without a repeated voter, a majority of the votes is one of the voters. -/
theorem majorityOfVoters (distinct : txn.voters.Nodup) (majority : txn.total < txn.approvals * 2) :
    MajorityOfVoters txn := by
  have sub : txn.approvers.Sublist txn.voters := List.filter_sublist.map DisinterestedVote.voter
  unfold MajorityOfVoters
  rw [List.toFinset_card_of_nodup distinct, List.toFinset_card_of_nodup (distinct.sublist sub)]
  unfold InterestedTransaction.voters InterestedTransaction.approvers
  rw [List.length_map, List.length_map, ← List.countP_eq_length_filter, Nat.mul_comm]
  exact majority

/-- The transaction is protected: the interest was disclosed, and a majority of the disinterested voters
approved, or there is evidence that it is fair. -/
structure Protected (txn : InterestedTransaction) : Prop where
  disclosed : txn.disclosure.isSome = true
  path : txn.ByVote ∨ txn.path = some .fairnessProof
  approved : txn.ByVote → MajorityOfVoters txn ∧ txn.interestedParty ∉ txn.voters
  fair : txn.path = some .fairnessProof → txn.fairnessEvidence.isSome = true

theorem protected_of_verified (recorded : Recorded txn) (each : OneVoteEach txn)
    (verified : txn.status = .verified) : Protected txn := by
  have disclosed := recorded.disclosed (by rw [verified]; exact nofun)
  rcases recorded.verified verified with ⟨byVote, majority⟩ | ⟨byProof, shown⟩
  · refine ⟨disclosed, .inl byVote, fun _ => ?_, fun byProof => ?_⟩
    · exact ⟨majorityOfVoters (each byVote) majority, recorded.disinterested⟩
    · exact absurd byVote (not_byVote_of_byProof byProof)
  · refine ⟨disclosed, .inr byProof, fun byVote => ?_, fun _ => shown⟩
    exact absurd byVote (not_byVote_of_byProof byProof)

end Step

/-! ### Runs -/

section Runs

variable {start : InterestedTransaction} (calls : List Call)

/-- **What is claimed of a run**: a verified transaction is protected, votes follow the disclosure, and
a verdict is final. -/
structure Sound (start : InterestedTransaction) (calls : List Call) : Prop where
  verified : Throughout (afterCall blake3) (fun txn => txn.status = .verified → Protected txn)
    start calls
  ordered : Along (afterCall blake3) (fun txn call => FollowsDisclosure txn (afterCall blake3 txn call))
    start calls
  final : Evolves (afterCall blake3) KeepsVerdict start calls

variable {blake3 : Blake3}

/-- A transaction just initiated. -/
theorem recorded_initiated {id : Uuid} {interestedParty counterparty : Did}
    {interestDescription : String} {termsHash : Hash256} {path : SafeHarborPath} {now : Timestamp}
    (initiated : initiateSafeHarbor id interestedParty counterparty interestDescription termsHash path
      now = .ok start) : Recorded start ∧ OneVoteEach start := by
  unfold initiateSafeHarbor at initiated
  by_cases zero : now = Timestamp.zero
  · rw [if_pos zero] at initiated
    cases initiated
  · rw [if_neg zero] at initiated
    cases initiated
    refine ⟨⟨fun pending => absurd rfl pending, List.not_mem_nil, nofun, nofun⟩, fun _ => ?_⟩
    exact List.nodup_nil

theorem recorded_run (recorded : Recorded start) : Throughout (afterCall blake3) Recorded start calls :=
  throughout_of_preserved (fun _ call kept => Recorded.step kept (afterCall_cases _ call)) recorded calls

/-- Votes follow the disclosure, in every run. -/
theorem votes_follow_disclosure (recorded : Recorded start) :
    Along (afterCall blake3) (fun txn call => FollowsDisclosure txn (afterCall blake3 txn call))
      start calls :=
  fun before call after split =>
    followsDisclosure_afterCall (recorded_run calls recorded before (call :: after) split)
      (afterCall_cases _ call)

/-- A verdict is final, in every run. -/
theorem verdicts_final (recorded : Recorded start) :
    Evolves (afterCall blake3) KeepsVerdict start calls := by
  refine (evolves_iff_along (fun _ => ⟨id, fun _ => id⟩) ?_).mpr ?_
  · intro first second third early late
    exact ⟨late.1 ∘ early.1, fun reason failed => late.2 reason (early.2 reason failed)⟩
  · intro before call after split
    exact settled_afterCall (recorded_run calls recorded before (call :: after) split)
      (afterCall_cases _ call)

end Runs

/-- **Where nobody votes twice, the safe harbor is sound**: in every run of calls on a transaction that
was initiated, in which no vote that counts is taken from somebody who has voted. -/
theorem safe_harbor_sound (id : Uuid) (interestedParty counterparty : Did)
    (interestDescription : String) (termsHash : Hash256) (path : SafeHarborPath) (now : Timestamp)
    (start : InterestedTransaction) (calls : List Call)
    (initiated : initiateSafeHarbor id interestedParty counterparty interestDescription termsHash path
      now = .ok start)
    (new : Along (afterCall blake3) (fun txn call => ¬ RepeatsVoter txn call) start calls) :
    Sound blake3 start calls := by
  obtain ⟨recorded, each⟩ := recorded_initiated initiated
  have oneVoteEach : Throughout (afterCall blake3) OneVoteEach start calls :=
    throughout_of_along
      (fun _ call each new => oneVoteEach_afterCall each new (afterCall_cases _ call)) each new
  refine ⟨?_, votes_follow_disclosure calls recorded, verdicts_final calls recorded⟩
  intro before after split verified
  exact protected_of_verified (recorded_run calls recorded before after split)
    (oneVoteEach before after split) verified

namespace Sample

/-- A contract of alice with acme, to be approved by the board. -/
def contract : InterestedTransaction :=
  { id := FixedBytes.fill 16 1
    interestedParty := ⟨"did:exo:alice"⟩
    interestDescription := "owns acme"
    counterparty := ⟨"did:exo:acme"⟩
    termsHash := FixedBytes.fill 32 7
    initiatedAt := ⟨1000, 0⟩
    status := .pendingDisclosure
    path := some .boardApproval
    disclosure := none
    disinterestedVotes := []
    fairnessEvidence := none }

/-- Alice discloses. -/
def discloses : Call := .completeDisclosure ⟨"did:exo:alice"⟩ "owns acme" ⟨2000, 0⟩

/-- Somebody votes. -/
def votes (voter : String) (approved : Bool) : Call :=
  .recordDisinterestedVote ⟨voter⟩ approved ⟨3000, 0⟩

/-- Bob and carol approve, and dave does not. -/
def approvingCalls : List Call :=
  [discloses, votes "did:exo:bob" true, votes "did:exo:carol" true, votes "did:exo:dave" false,
    .verifySafeHarbor]

theorem contract_initiated :
    initiateSafeHarbor (FixedBytes.fill 16 1) ⟨"did:exo:alice"⟩ ⟨"did:exo:acme"⟩ "owns acme"
      (FixedBytes.fill 32 7) .boardApproval ⟨1000, 0⟩ = .ok contract := by decide +kernel

/-- The contract is verified, and protected. -/
theorem contract_protected :
    Protected (run (afterCall Blake3.hash) contract approvingCalls) := by
  have sound := safe_harbor_sound Blake3.hash _ _ _ _ _ _ _ contract approvingCalls
    contract_initiated (by decide +kernel)
  exact sound.verified approvingCalls [] rfl (by decide +kernel)

/-- Bob approves twice, and carol does not. -/
def repeatedCalls : List Call :=
  [discloses, votes "did:exo:bob" true, votes "did:exo:bob" true, votes "did:exo:carol" false,
    .verifySafeHarbor]

/-- **One of two voters is enough**: two of the three votes are bob's. -/
theorem voted_twice :
    initiateSafeHarbor (FixedBytes.fill 16 1) ⟨"did:exo:alice"⟩ ⟨"did:exo:acme"⟩ "owns acme"
      (FixedBytes.fill 32 7) .boardApproval ⟨1000, 0⟩ = .ok contract ∧
    (run (afterCall Blake3.hash) contract repeatedCalls).status = .verified ∧
      ¬ MajorityOfVoters (run (afterCall Blake3.hash) contract repeatedCalls) ∧
      ¬ Sound Blake3.hash contract repeatedCalls := by
  have verified : (run (afterCall Blake3.hash) contract repeatedCalls).status = .verified := by
    decide +kernel
  have minority : ¬ MajorityOfVoters (run (afterCall Blake3.hash) contract repeatedCalls) := by
    decide +kernel
  refine ⟨contract_initiated, verified, minority, fun sound => minority ?_⟩
  exact ((sound.verified repeatedCalls [] rfl verified).approved (.inl rfl)).1

end Sample

end Exochain.ExoLegal
