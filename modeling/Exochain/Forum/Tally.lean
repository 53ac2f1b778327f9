/-
**`decision-forum` — the quorum check, exactly.**

The check rounds the percentage of approvals down and takes it for zero without votes; the formal model of
the quorum multiplies out. `checkQuorumIn` is the check in machine arithmetic, where the approvals times a
hundred may leave the word.

* `checkQuorumIn_eq` — where a hundred times the votes fits a word, it is `checkQuorum`.
* `MetBy` — the three counts of the votes, multiplied out, against a requirement.
* `MetBy.concat` — one more human who approves keeps a quorum.
* **`check_quorum_exact`** — the check is that comparison, in any order of the votes, and an approval of a
  human never ends a quorum.
-/

import Exochain.Forum.Quorum

set_option linter.unusedSectionVars false

namespace Exochain.DecisionForum

open Foundation ExoCore

/-! ### The check in machine arithmetic -/

/-- The percentage of approvals, rounded down; zero without votes. -/
def DecisionObject.approvePctIn (build : Build) (decision : DecisionObject) : Except Fault ℕ :=
  if 0 < decision.votes.length then do
    let scaled ← build.mul 64 decision.approveCount 100
    return scaled / decision.votes.length
  else return 0

/-- Check whether the quorum of a decision is met. -/
def checkQuorumIn (build : Build) (registry : QuorumRegistry) (decision : DecisionObject) :
    Except Fault (Except ForumError QuorumCheckResult) :=
  match registry.requirementFor decision.decisionClass with
  | none => return .error .quorumPolicyMissing
  | some req =>
    let totalVotes := decision.votes.length
    if totalVotes < req.minVotes then
      return .ok (.degraded ("insufficient votes: " ++ toString totalVotes ++ " < " ++
        toString req.minVotes) totalVotes req.minVotes)
    else if decision.humanCount < req.minHumanVotes then
      return .ok (.notMet ("insufficient human votes: " ++ toString decision.humanCount ++ " < " ++
        toString req.minHumanVotes))
    else do
      let approvePct ← decision.approvePctIn build
      if approvePct < req.minApprovePct then
        return .ok (.notMet ("approval percentage " ++ toString approvePct ++ "% < required " ++
          toString req.minApprovePct ++ "%"))
      else return .ok (.met totalVotes decision.approveCount approvePct)

/-- The quorum of the decision is met. -/
def QuorumMetIn (build : Build) (registry : QuorumRegistry) (decision : DecisionObject) : Prop :=
  ∃ totalVotes approveCount approvePct,
    checkQuorumIn build registry decision = .ok (.ok (.met totalVotes approveCount approvePct))

/-- A hundred times the number of votes fits a word. -/
def DecisionObject.Fits (decision : DecisionObject) : Prop := decision.votes.length * 100 < 2 ^ 64

/-! ### The counts, multiplied out -/

/-- The condition under which the formal model's tally approves. -/
def tallyApproves (approvals total thresholdPct : ℕ) : Prop := total * thresholdPct ≤ approvals * 100

/-- **The votes meet the requirement**: there are enough of them, enough by humans, and the tally approves;
without any vote no approvals are asked for. -/
structure QuorumRequirement.MetBy (req : QuorumRequirement) (votes : List Vote) : Prop where
  enough : req.minVotes ≤ votes.length
  humans : req.minHumanVotes ≤ votes.countP isHumanVote
  tally : tallyApproves (votes.countP isApproval) votes.length req.minApprovePct
  unasked : votes = [] → req.minApprovePct = 0

section Exact

variable {build : Build} {registry : QuorumRegistry} {decision : DecisionObject} {req : QuorumRequirement}

/-- The votes of a decision in memory fit: they are in a vector, and a vote takes more than fifty bytes, 32 of
them for its hash and 24 for its voter. -/
theorem fits_of_held {voteBytes : ℕ} (size : 50 < voteBytes)
    (held : decision.votes.length * voteBytes ≤ maxVecLength) : decision.Fits := by
  have double : decision.votes.length * 51 ≤ maxVecLength :=
    (Nat.mul_le_mul_left _ size).trans held
  unfold maxVecLength at double
  unfold DecisionObject.Fits
  omega

theorem approvePctIn_eq (fits : decision.Fits) :
    decision.approvePctIn build = .ok decision.approvePct := by
  have scaled : decision.approveCount * 100 < 2 ^ 64 :=
    (Nat.mul_le_mul_right 100 List.countP_le_length).trans_lt fits
  unfold DecisionObject.approvePctIn DecisionObject.approvePct
  split
  · rw [Build.mul_of_lt scaled]
    rfl
  · rfl

/-- **Where the numbers fit, machine arithmetic does not show.** -/
theorem checkQuorumIn_eq (fits : decision.Fits) :
    checkQuorumIn build registry decision = .ok (checkQuorum registry decision) := by
  unfold checkQuorumIn checkQuorum
  cases registry.requirementFor decision.decisionClass with
  | none => rfl
  | some req =>
    simp only [approvePctIn_eq fits]
    split
    · rfl
    · split
      · rfl
      · show (if decision.approvePct < req.minApprovePct then _ else _) = _
        split
        · rfl
        · rfl

theorem quorumMetIn_iff (fits : decision.Fits) :
    QuorumMetIn build registry decision ↔ QuorumMet registry decision := by
  unfold QuorumMetIn QuorumMet
  rw [checkQuorumIn_eq fits]
  simp only [Except.ok.injEq]

/-- The rounded percentage reaches a threshold exactly if the tally approves. -/
theorem le_approvePct_iff {thresholdPct : ℕ} :
    thresholdPct ≤ decision.approvePct ↔
      tallyApproves decision.approveCount decision.votes.length thresholdPct ∧
        (decision.votes = [] → thresholdPct = 0) := by
  unfold DecisionObject.approvePct tallyApproves
  split
  · rename_i cast
    rw [Nat.le_div_iff_mul_le cast, Nat.mul_comm thresholdPct,
      and_iff_left fun none => absurd none (List.ne_nil_of_length_pos cast)]
  · rename_i uncast
    have none : decision.votes = [] := List.eq_nil_of_length_eq_zero (Nat.eq_zero_of_not_pos uncast)
    rw [none, Nat.le_zero, List.length_nil, Nat.zero_mul]
    simp only [Nat.zero_le, true_and, forall_const]

theorem quorumMet_iff_metBy (needs : registry.requirementFor decision.decisionClass = some req) :
    QuorumMet registry decision ↔ req.MetBy decision.votes := by
  rw [checkQuorum_met_iff, needs]
  simp only [Option.some.injEq, exists_eq_left', le_approvePct_iff]
  constructor
  · rintro ⟨enough, humans, tally, unasked⟩
    exact ⟨enough, humans, tally, unasked⟩
  · rintro ⟨enough, humans, tally, unasked⟩
    exact ⟨enough, humans, tally, unasked⟩

/-! ### Order, and one more vote -/

/-- The check sees the votes only through their counts. -/
theorem checkQuorumIn_perm {votes : List Vote} (reordered : votes.Perm decision.votes) :
    checkQuorumIn build registry { decision with votes } = checkQuorumIn build registry decision := by
  have humans : DecisionObject.humanCount { decision with votes } = decision.humanCount :=
    reordered.countP_eq _
  have approvals : DecisionObject.approveCount { decision with votes } = decision.approveCount :=
    reordered.countP_eq _
  unfold checkQuorumIn DecisionObject.approvePctIn
  simp only [humans, approvals, reordered.length_eq]

/-- **One more human who approves keeps a quorum.** -/
theorem QuorumRequirement.MetBy.concat {votes : List Vote} (met : req.MetBy votes) {vote : Vote}
    (approves : vote.choice = .approve) (human : vote.actorKind = .human) :
    req.MetBy (votes ++ [vote]) := by
  obtain ⟨enough, humans, tally, unasked⟩ := met
  have approval : isApproval vote = true := decide_eq_true approves
  have byHuman : isHumanVote vote = true := decide_eq_true human
  have approvals : (votes ++ [vote]).countP isApproval = votes.countP isApproval + 1 := by
    rw [List.countP_append, List.countP_singleton, if_pos approval]
  have byHumans : (votes ++ [vote]).countP isHumanVote = votes.countP isHumanVote + 1 := by
    rw [List.countP_append, List.countP_singleton, if_pos byHuman]
  have longer : (votes ++ [vote]).length = votes.length + 1 := List.length_append
  -- a threshold that was reached is at most a hundred
  have percentage : req.minApprovePct ≤ 100 := by
    rcases votes.eq_nil_or_concat with rfl | ⟨earlier, last, rfl⟩
    · rw [unasked rfl]
      exact Nat.zero_le 100
    · have all : (earlier.concat last).length * req.minApprovePct ≤ (earlier.concat last).length * 100 :=
        tally.trans (Nat.mul_le_mul_right 100 List.countP_le_length)
      exact Nat.le_of_mul_le_mul_left all (by simp)
  refine ⟨?_, ?_, ?_, fun none => ?_⟩
  · rw [longer]
    exact enough.trans (Nat.le_succ _)
  · rw [byHumans]
    exact humans.trans (Nat.le_succ _)
  · unfold tallyApproves at tally ⊢
    calc (votes ++ [vote]).length * req.minApprovePct
        = votes.length * req.minApprovePct + req.minApprovePct := by rw [longer, Nat.succ_mul]
      _ ≤ votes.countP isApproval * 100 + 100 := Nat.add_le_add tally percentage
      _ = (votes ++ [vote]).countP isApproval * 100 := by rw [approvals, Nat.succ_mul]
  · exact absurd none (List.append_ne_nil_of_right_ne_nil _ (List.cons_ne_nil vote []))

/-- **The check is exact.** On a decision whose numbers fit, the quorum is met exactly if the counts of the
votes, multiplied out, meet the requirement; the answer is the same for the votes in any order; and one more
vote of a human who approves never ends a quorum. -/
theorem check_quorum_exact (build : Build) (registry : QuorumRegistry) (decision : DecisionObject)
    {req : QuorumRequirement} (needs : registry.requirementFor decision.decisionClass = some req)
    (fits : decision.Fits) :
    (QuorumMetIn build registry decision ↔ req.MetBy decision.votes) ∧
    (∀ votes, votes.Perm decision.votes →
      checkQuorumIn build registry { decision with votes } = checkQuorumIn build registry decision) ∧
    ∀ vote after, vote.choice = .approve → vote.actorKind = .human →
      decision.addVote vote = .ok after → after.Fits → QuorumMetIn build registry decision →
        QuorumMetIn build registry after := by
  have exact_iff : QuorumMetIn build registry decision ↔ req.MetBy decision.votes :=
    (quorumMetIn_iff fits).trans (quorumMet_iff_metBy needs)
  refine ⟨exact_iff, fun votes => checkQuorumIn_perm, ?_⟩
  intro vote after approves human added fitsAfter met
  obtain ⟨-, -, cast⟩ := DecisionObject.addVote_eq_ok_iff.mp added
  have needsAfter : registry.requirementFor after.decisionClass = some req := by
    rw [cast]
    exact needs
  have votesAfter : after.votes = decision.votes ++ [vote] := by rw [cast]
  refine (quorumMetIn_iff fitsAfter).mpr ((quorumMet_iff_metBy needsAfter).mpr ?_)
  rw [votesAfter]
  exact (exact_iff.mp met).concat approves human

end Exact

namespace Sample

/-- A routine decision on which a human approved and one rejected. -/
def divided : DecisionObject :=
  (DecisionObject.new (FixedBytes.fill 16 7) "Budget" .routine (FixedBytes.fill 32 1) .zero).withVotes
    [⟨⟨"did:exo:alice"⟩, .approve, .human, .zero, .zero⟩, ⟨⟨"did:exo:bob"⟩, .reject, .human, .zero, .zero⟩]

/-- By default a routine decision needs one vote and 51 percent. -/
theorem divided_exact :
    (QuorumMetIn ⟨true⟩ .withDefaults divided ↔ QuorumRequirement.MetBy ⟨1, 51, 0⟩ divided.votes) ∧
    (∀ votes, votes.Perm divided.votes →
      checkQuorumIn ⟨true⟩ .withDefaults { divided with votes } =
        checkQuorumIn ⟨true⟩ .withDefaults divided) ∧
    ∀ vote after, vote.choice = .approve → vote.actorKind = .human →
      divided.addVote vote = .ok after → after.Fits → QuorumMetIn ⟨true⟩ .withDefaults divided →
        QuorumMetIn ⟨true⟩ .withDefaults after := by
  have needs : QuorumRegistry.withDefaults.requirementFor divided.decisionClass = some ⟨1, 51, 0⟩ := by
    decide +kernel
  exact check_quorum_exact ⟨true⟩ .withDefaults divided needs (by unfold DecisionObject.Fits; decide)

end Sample

end Exochain.DecisionForum
