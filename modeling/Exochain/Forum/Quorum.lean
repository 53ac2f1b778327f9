/-
**`decision-forum` — quorum management.**

A registry holds a requirement for each decision class: a number of votes, of human votes, and a
percentage of approvals. The check compares the counts of a decision's votes with it, in this order,
and the percentage is rounded down.

* **`checkQuorum_met_iff`** — when the quorum is met.
* `run_voteStep` — votes of distinct voters can all be added.
-/

import Exochain.Foundation.Run
import Exochain.Forum.DecisionObject

set_option linter.unusedSectionVars false

namespace Exochain.DecisionForum

open Foundation ExoCore

/-! ### Requirements -/

/-- The quorum that a decision class needs. -/
structure QuorumRequirement where
  minVotes : ℕ
  minApprovePct : ℕ
  minHumanVotes : ℕ
  deriving DecidableEq, Repr

/-- The requirements, by the name of the class. -/
structure QuorumRegistry where
  policies : BTreeMap String QuorumRequirement

namespace QuorumRegistry

/-- The default requirements. -/
def withDefaults : QuorumRegistry where
  policies := (∅ : BTreeMap String QuorumRequirement)
    |>.insert "Routine" ⟨1, 51, 0⟩
    |>.insert "Operational" ⟨3, 51, 1⟩
    |>.insert "Strategic" ⟨5, 67, 3⟩
    |>.insert "Constitutional" ⟨7, 75, 5⟩

/-- The requirement for a class. -/
def requirementFor (registry : QuorumRegistry) (decisionClass : DecisionClass) :
    Option QuorumRequirement :=
  registry.policies[decisionClass.debug]?

end QuorumRegistry

/-- The result of a quorum check. -/
inductive QuorumCheckResult where
  | met (totalVotes approveCount approvePct : ℕ)
  | notMet (reason : String)
  | degraded (reason : String) (available required : ℕ)
  deriving DecidableEq, Repr

/-! ### The check -/

/-- Whether a human cast the vote. -/
def isHumanVote (vote : Vote) : Bool := vote.actorKind = .human

/-- Whether an agent cast the vote. -/
def isAiVote (vote : Vote) : Bool :=
  match vote.actorKind with
  | .aiAgent _ _ => true
  | .human => false

/-- Whether the vote is an approval. -/
def isApproval (vote : Vote) : Bool := vote.choice = .approve

namespace DecisionObject

/-- The number of approvals. -/
def approveCount (decision : DecisionObject) : ℕ := decision.votes.countP isApproval

/-- The number of human votes. -/
def humanCount (decision : DecisionObject) : ℕ := decision.votes.countP isHumanVote

/-- The percentage of approvals, rounded down; zero without votes. -/
def approvePct (decision : DecisionObject) : ℕ :=
  if 0 < decision.votes.length then decision.approveCount * 100 / decision.votes.length else 0

end DecisionObject

/-- Check whether the quorum of a decision is met. -/
def checkQuorum (registry : QuorumRegistry) (decision : DecisionObject) :
    Except ForumError QuorumCheckResult :=
  match registry.requirementFor decision.decisionClass with
  | none => .error .quorumPolicyMissing
  | some req =>
    let totalVotes := decision.votes.length
    if totalVotes < req.minVotes then
      .ok (.degraded ("insufficient votes: " ++ toString totalVotes ++ " < " ++
        toString req.minVotes) totalVotes req.minVotes)
    else if decision.humanCount < req.minHumanVotes then
      .ok (.notMet ("insufficient human votes: " ++ toString decision.humanCount ++ " < " ++
        toString req.minHumanVotes))
    else if decision.approvePct < req.minApprovePct then
      .ok (.notMet ("approval percentage " ++ toString decision.approvePct ++ "% < required " ++
        toString req.minApprovePct ++ "%"))
    else .ok (.met totalVotes decision.approveCount decision.approvePct)

/-- Whether enough voters are eligible for the quorum of a class. -/
def verifyQuorumPrecondition (registry : QuorumRegistry) (decisionClass : DecisionClass)
    (eligibleVoters : ℕ) : Except ForumError Bool :=
  match registry.requirementFor decisionClass with
  | none => .error .quorumPolicyMissing
  | some req => .ok (req.minVotes ≤ eligibleVoters)

/-- The quorum of the decision is met. -/
def QuorumMet (registry : QuorumRegistry) (decision : DecisionObject) : Prop :=
  ∃ totalVotes approveCount approvePct,
    checkQuorum registry decision = .ok (.met totalVotes approveCount approvePct)

/-- **When the quorum is met**: there is a requirement, and all three counts reach it. -/
theorem checkQuorum_met_iff {registry : QuorumRegistry} {decision : DecisionObject} :
    QuorumMet registry decision ↔
      ∃ req, registry.requirementFor decision.decisionClass = some req ∧
        req.minVotes ≤ decision.votes.length ∧ req.minHumanVotes ≤ decision.humanCount ∧
        req.minApprovePct ≤ decision.approvePct := by
  unfold QuorumMet checkQuorum
  cases registry.requirementFor decision.decisionClass with
  | none => simp
  | some req =>
    simp only [Option.some.injEq, exists_eq_left']
    split
    · simp
      omega
    · split
      · simp
        omega
      · split
        · simp
          omega
        · simp
          omega

/-! ### Decisions that were voted on -/

namespace DecisionObject

/-- The decision after a vote, accepted or not. -/
def voteStep (decision : DecisionObject) (vote : Vote) : DecisionObject :=
  (decision.addVote vote).toOption.getD decision

/-- The decisions that votes make of a new one. -/
def VotedOn (decision : DecisionObject) : Prop :=
  ∃ id title decisionClass constitutionalHash now votes,
    decision = run voteStep (new id title decisionClass constitutionalHash now) votes

/-- The decision with more votes. -/
def withVotes (decision : DecisionObject) (votes : List Vote) : DecisionObject :=
  { decision with votes := decision.votes ++ votes }

theorem withVotes_withVotes (decision : DecisionObject) (first second : List Vote) :
    (decision.withVotes first).withVotes second = decision.withVotes (first ++ second) := by
  unfold withVotes
  rw [List.append_assoc]

/-- **Votes of distinct voters can all be added.** -/
theorem run_voteStep {decision : DecisionObject} {votes : List Vote}
    (running : decision.isTerminal = false)
    (distinct : (decision.voters ++ votes.map Vote.voterDid).Nodup) :
    run voteStep decision votes = decision.withVotes votes := by
  induction votes generalizing decision with
  | nil => rw [run_nil, withVotes, List.append_nil]
  | cons vote votes ih =>
    rw [List.map_cons, List.append_cons] at distinct
    have fresh : vote.voterDid ∉ decision.voters := by
      have first := (List.nodup_append.mp distinct).1
      intro again
      exact (List.nodup_append.mp first).2.2 _ again _ (List.mem_singleton_self _) rfl
    have stepped : voteStep decision vote = decision.withVotes [vote] := by
      have added : decision.addVote vote = .ok (decision.withVotes [vote]) :=
        addVote_eq_ok_iff.mpr ⟨running, fresh, rfl⟩
      rw [voteStep, added]
      rfl
    have voters : (decision.withVotes [vote]).voters = decision.voters ++ [vote.voterDid] :=
      List.map_append
    have after := @ih (decision.withVotes [vote]) running (voters ▸ distinct)
    rw [run_cons, stepped, after, withVotes_withVotes, List.singleton_append]

end DecisionObject

end Exochain.DecisionForum
