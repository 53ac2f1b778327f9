/-
**`decision-forum` — the human gate.**

A policy names the decision classes that need a human approval. The gate asks for a human vote,
whatever it says; the quorum asks for a percentage of approvals, whoever casts them. Whether the two
together force a human to approve depends on the numbers.

* `enforceHumanGate_eq_ok_iff` — what the gate asks for.
* `metByOthers_of_outvoted` — humans are outvoted only where the other votes alone meet the quorum.
* **`human_approval_iff`** — for a class and a number of votes, every decision that passes carries a human
  approval exactly where that is so; and which decisions pass without one.
* `Sample.humans_outvoted` — a strategic decision approved against all humans.
-/

import Exochain.Forum.Quorum

set_option linter.unusedSectionVars false

namespace Exochain.DecisionForum

open Foundation ExoCore

/-! ### The gate -/

/-- Which classes need a human approval, and up to which class an agent may act. -/
structure HumanGatePolicy where
  humanRequiredClasses : List DecisionClass
  aiCeiling : DecisionClass
  deriving DecidableEq, Repr

/-- The default policy. -/
def HumanGatePolicy.default : HumanGatePolicy := ⟨[.strategic, .constitutional], .operational⟩

/-- Whether the class needs a human approval. -/
def requiresHumanApproval (policy : HumanGatePolicy) (decisionClass : DecisionClass) : Bool :=
  policy.humanRequiredClasses.contains decisionClass

/-- Whether an agent may act on the class. -/
def aiWithinCeiling (policy : HumanGatePolicy) (decisionClass : DecisionClass) : Bool :=
  decisionClass.rank ≤ policy.aiCeiling.rank

/-- The first check: above the ceiling, the votes must not all be by agents. -/
def checkCeiling (policy : HumanGatePolicy) (decision : DecisionObject) : Except ForumError Unit :=
  if policy.aiCeiling.rank < decision.decisionClass.rank then
    let hasHumanVote := decision.votes.any isHumanVote
    if !hasHumanVote && !decision.votes.isEmpty then
      .error (.aiCeilingExceeded (decision.decisionClass.debug ++ " exceeds AI ceiling " ++
        policy.aiCeiling.debug))
    else .ok ()
  else .ok ()

/-- Check the votes of a decision against the policy. -/
def enforceHumanGate (policy : HumanGatePolicy) (decision : DecisionObject) :
    Except ForumError Unit := do
  checkCeiling policy decision
  if requiresHumanApproval policy decision.decisionClass && decision.humanCount = 0 then
    .error .humanGateRequired
  else .ok ()

section Gate

variable {policy : HumanGatePolicy} {registry : QuorumRegistry} {decision : DecisionObject}

/-- Some vote is a human approval. -/
def HumanApproved (decision : DecisionObject) : Prop :=
  ∃ vote ∈ decision.votes, vote.actorKind = .human ∧ vote.choice = .approve

/-- **What is claimed of a decision**: if its class needs a human approval, and the gate and the quorum
let it pass, then it has one. -/
def GateSound (policy : HumanGatePolicy) (registry : QuorumRegistry) (decision : DecisionObject) :
    Prop :=
  requiresHumanApproval policy decision.decisionClass = true →
    enforceHumanGate policy decision = .ok () → QuorumMet registry decision → HumanApproved decision

/-- A human voted, and no human approved. -/
def HumansOutvoted (decision : DecisionObject) : Prop :=
  0 < decision.humanCount ∧
    ∀ vote ∈ decision.votes, vote.actorKind = .human → vote.choice ≠ .approve

/-- What the gate asks of a class that needs a human approval: a human vote. -/
theorem enforceHumanGate_eq_ok_iff
    (required : requiresHumanApproval policy decision.decisionClass = true) :
    enforceHumanGate policy decision = .ok () ↔ 0 < decision.humanCount := by
  unfold enforceHumanGate
  rw [check_bind_eq_ok_iff, required]
  constructor
  · rintro ⟨-, passed⟩
    by_contra none
    rw [if_pos (by simpa using none)] at passed
    cases passed
  · intro some_human
    have ceiling : checkCeiling policy decision = .ok () := by
      have voted : decision.votes.any isHumanVote = true := by
        obtain ⟨vote, member, human⟩ := List.countP_pos_iff.mp some_human
        exact List.any_eq_true.mpr ⟨vote, member, human⟩
      simp [checkCeiling, voted]
    refine ⟨ceiling, if_neg ?_⟩
    simp
    omega

/-- **Which decisions pass without a human approval.** -/
theorem gateSound_iff :
    GateSound policy registry decision ↔
      ¬ (requiresHumanApproval policy decision.decisionClass = true ∧ QuorumMet registry decision ∧
        HumansOutvoted decision) := by
  unfold GateSound HumansOutvoted HumanApproved
  constructor
  · rintro sound ⟨required, met, some_human, against⟩
    obtain ⟨vote, member, human, approves⟩ :=
      sound required ((enforceHumanGate_eq_ok_iff required).mpr some_human) met
    exact against vote member human approves
  · intro notOutvoted required passed met
    by_contra unapproved
    refine notOutvoted ⟨required, met, (enforceHumanGate_eq_ok_iff required).mp passed, ?_⟩
    intro vote member human approves
    exact unapproved ⟨vote, member, human, approves⟩

/-! ### When the numbers force a human approval -/

/-- The least number of human votes that pass the gate and the quorum. -/
def QuorumRequirement.humans (req : QuorumRequirement) : ℕ := max 1 req.minHumanVotes

/-- The quorum can be met with `total` votes of which no human one is an approval. -/
def QuorumRequirement.MetByOthers (req : QuorumRequirement) (total : ℕ) : Prop :=
  req.minVotes ≤ total ∧ req.humans ≤ total ∧
    req.minApprovePct ≤ (total - req.humans) * 100 / total

instance (req : QuorumRequirement) (total : ℕ) : Decidable (req.MetByOthers total) :=
  inferInstanceAs (Decidable (_ ∧ _ ∧ _))

/-- Where no human approves, approvals and human votes are different votes. -/
theorem approveCount_add_humanCount_le (outvoted : HumansOutvoted decision) :
    decision.approveCount + decision.humanCount ≤ decision.votes.length := by
  have others : decision.votes.countP isApproval ≤
      decision.votes.countP fun vote => !isHumanVote vote := by
    refine List.countP_mono_left fun vote member approves => ?_
    by_contra human
    have human : isHumanVote vote = true := by simpa using human
    exact outvoted.2 vote member (of_decide_eq_true human) (of_decide_eq_true approves)
  have split := decision.votes.length_eq_countP_add_countP isHumanVote
  unfold DecisionObject.approveCount DecisionObject.humanCount
  simp only [Bool.not_eq_true, Bool.decide_eq_false] at split
  omega

/-- **A decision that passes against its humans** shows that the others alone meet the quorum. -/
theorem metByOthers_of_outvoted {req : QuorumRequirement}
    (needs : registry.requirementFor decision.decisionClass = some req)
    (met : QuorumMet registry decision) (outvoted : HumansOutvoted decision) :
    req.MetByOthers decision.votes.length := by
  obtain ⟨other, found, votes, humans, percentage⟩ := checkQuorum_met_iff.mp met
  rw [needs, Option.some.injEq] at found
  subst found
  have apart := approveCount_add_humanCount_le outvoted
  have voted := outvoted.1
  have few : req.humans ≤ decision.humanCount := max_le voted humans
  refine ⟨votes, by omega, ?_⟩
  unfold DecisionObject.approvePct at percentage
  rw [if_pos (by omega)] at percentage
  refine percentage.trans (Nat.div_le_div_right ?_)
  exact Nat.mul_le_mul_right 100 (by omega)

end Gate

/-! ### Decisions that pass against their humans -/

section Outvoting

/-- A voter with a name of its own for each letter and number. -/
def voterNamed (letter : Char) (number : ℕ) : Did :=
  ⟨String.ofList ("did:exo:".toList ++ letter :: List.replicate number 'a')⟩

theorem voterNamed_inj {letter letter' : Char} {number number' : ℕ}
    (same : voterNamed letter number = voterNamed letter' number') :
    letter = letter' ∧ number = number' := by
  have chars := String.ofList_injective (Did.ext_iff.mp same)
  have names := List.append_cancel_left chars
  obtain ⟨letters, rest⟩ := List.cons.inj names
  exact ⟨letters, by simpa using congrArg List.length rest⟩

/-- A human who rejects. -/
def rejection (number : ℕ) : Vote :=
  ⟨voterNamed 'h' number, .reject, .human, .zero, .zero⟩

/-- An agent that approves. -/
def agentApproval (number : ℕ) : Vote :=
  ⟨voterNamed 'm' number, .approve, .aiAgent "delegation" .constitutional, .zero, .zero⟩

/-- All humans reject, all agents approve. -/
def outvoting (humans agents : ℕ) : List Vote :=
  (List.range humans).map rejection ++ (List.range agents).map agentApproval

variable (humans agents : ℕ)

theorem length_outvoting : (outvoting humans agents).length = humans + agents := by
  simp [outvoting]

theorem nodup_outvoting : ((outvoting humans agents).map Vote.voterDid).Nodup := by
  rw [outvoting, List.map_append, List.map_map, List.map_map]
  refine List.Nodup.append (List.nodup_range.map ?_) (List.nodup_range.map ?_) ?_
  · exact fun first second same => (voterNamed_inj same).2
  · exact fun first second same => (voterNamed_inj same).2
  · intro voter human agent
    obtain ⟨first, -, rfl⟩ := List.mem_map.mp human
    obtain ⟨second, -, same⟩ := List.mem_map.mp agent
    exact absurd (voterNamed_inj same).1 (by decide)

theorem approvals_outvoting : (outvoting humans agents).countP isApproval = agents := by
  rw [outvoting, List.countP_append, List.countP_map, List.countP_map]
  simp [Function.comp_def, isApproval, rejection, agentApproval]

theorem humans_outvoting : (outvoting humans agents).countP isHumanVote = humans := by
  rw [outvoting, List.countP_append, List.countP_map, List.countP_map]
  simp [Function.comp_def, isHumanVote, rejection, agentApproval]

/-- A new decision with these votes. -/
def outvotedDecision (decisionClass : DecisionClass) : DecisionObject :=
  (DecisionObject.new (FixedBytes.fill 16 7) "Budget" decisionClass (FixedBytes.fill 32 1)
    .zero).withVotes (outvoting humans agents)

theorem votes_outvotedDecision (decisionClass : DecisionClass) :
    (outvotedDecision humans agents decisionClass).votes = outvoting humans agents := rfl

theorem votedOn_outvotedDecision (decisionClass : DecisionClass) :
    (outvotedDecision humans agents decisionClass).VotedOn := by
  refine ⟨FixedBytes.fill 16 7, "Budget", decisionClass, FixedBytes.fill 32 1, .zero,
    outvoting humans agents, ?_⟩
  have distinct := nodup_outvoting humans agents
  rw [DecisionObject.run_voteStep rfl (by simpa [DecisionObject.voters, DecisionObject.new])]
  rfl

theorem humansOutvoted_outvotedDecision (decisionClass : DecisionClass) (some_human : 0 < humans) :
    HumansOutvoted (outvotedDecision humans agents decisionClass) := by
  refine ⟨?_, fun vote member human => ?_⟩
  · rw [DecisionObject.humanCount, votes_outvotedDecision, humans_outvoting]
    exact some_human
  · rw [votes_outvotedDecision, outvoting, List.mem_append] at member
    rcases member with rejects | approves
    · obtain ⟨number, -, rfl⟩ := List.mem_map.mp rejects
      exact VoteChoice.noConfusion
    · obtain ⟨number, -, rfl⟩ := List.mem_map.mp approves
      cases human

/-- **The others alone meet the quorum**, where the numbers allow it. -/
theorem quorumMet_outvotedDecision {registry : QuorumRegistry} {decisionClass : DecisionClass}
    {req : QuorumRequirement} {total : ℕ} (needs : registry.requirementFor decisionClass = some req)
    (metByOthers : req.MetByOthers total) :
    QuorumMet registry (outvotedDecision req.humans (total - req.humans) decisionClass) := by
  obtain ⟨votes, humans, percentage⟩ := metByOthers
  have one : 1 ≤ req.humans := le_max_left _ _
  have length : (outvoting req.humans (total - req.humans)).length = total := by
    rw [length_outvoting]
    omega
  refine checkQuorum_met_iff.mpr ⟨req, needs, ?_, ?_, ?_⟩
  · rw [votes_outvotedDecision, length]
    exact votes
  · rw [DecisionObject.humanCount, votes_outvotedDecision, humans_outvoting]
    exact le_max_right _ _
  · rw [DecisionObject.approvePct, DecisionObject.approveCount, votes_outvotedDecision, length,
      approvals_outvoting, if_pos (by omega)]
    exact percentage

end Outvoting

/-- **When a gated decision carries a human approval.** A decision that passes the gate and the quorum
has a human approval unless its humans are outvoted. And for a class and a number of votes, all
decisions have one exactly where the class is not gated, has no quorum, or its quorum cannot be met
by the votes beyond the human ones that are needed. -/
theorem human_approval_iff (policy : HumanGatePolicy) (registry : QuorumRegistry) :
    (∀ decision : DecisionObject, GateSound policy registry decision ↔
      ¬ (requiresHumanApproval policy decision.decisionClass = true ∧
        QuorumMet registry decision ∧ HumansOutvoted decision)) ∧
    ∀ (decisionClass : DecisionClass) (total : ℕ),
      (∀ decision : DecisionObject, decision.VotedOn → decision.decisionClass = decisionClass →
        decision.votes.length = total → GateSound policy registry decision) ↔
      (requiresHumanApproval policy decisionClass = false ∨
        ∀ req, registry.requirementFor decisionClass = some req → ¬ req.MetByOthers total) := by
  refine ⟨fun decision => gateSound_iff, fun decisionClass total => ⟨fun sound => ?_, ?_⟩⟩
  · rw [or_iff_not_imp_left, Bool.not_eq_false]
    intro required req needs metByOthers
    have one : 0 < req.humans := lt_of_lt_of_le Nat.one_pos (le_max_left _ _)
    have whole : req.humans + (total - req.humans) = total := by
      have within := metByOthers.2.1
      omega
    have outvoted := sound (outvotedDecision req.humans (total - req.humans) decisionClass)
      (votedOn_outvotedDecision _ _ _) rfl (by rw [votes_outvotedDecision, length_outvoting, whole])
    refine gateSound_iff.mp outvoted ⟨required, quorumMet_outvotedDecision needs metByOthers, ?_⟩
    exact humansOutvoted_outvotedDecision _ _ _ one
  · rintro safe decision - rfl rfl
    rw [gateSound_iff]
    rintro ⟨required, met, outvoted⟩
    rcases safe with free | unmet
    · rw [required] at free
      cases free
    · obtain ⟨req, needs, -⟩ := checkQuorum_met_iff.mp met
      exact unmet req needs (metByOthers_of_outvoted needs met outvoted)

namespace Sample

/-- **Outvoted humans**: with the default policies, three humans reject a strategic decision and seven
agents carry it. -/
theorem humans_outvoted :
    ¬ ∀ (policy : HumanGatePolicy) (registry : QuorumRegistry) (decision : DecisionObject),
      decision.VotedOn → GateSound policy registry decision := by
  intro sound
  have passes := sound .default .withDefaults (outvotedDecision 3 7 .strategic)
    (votedOn_outvotedDecision 3 7 .strategic)
  have needs : QuorumRegistry.withDefaults.requirementFor .strategic = some ⟨5, 67, 3⟩ := by
    decide +kernel
  have met := @quorumMet_outvotedDecision .withDefaults .strategic ⟨5, 67, 3⟩ 10 needs (by decide)
  exact gateSound_iff.mp passes
    ⟨by decide, met, humansOutvoted_outvotedDecision 3 7 .strategic (by decide)⟩

end Sample

end Exochain.DecisionForum
