/-
**`decision-forum` — the trust-critical controls.**

Ten controls are checked on a context. One function stops at the first violation, the other collects all of
them. The controls 2 to 8 and 10 each read one flag or the state of the decision; the first also looks at the
authority chain, the ninth at every vote of an agent.

* `TncHolds` — the condition of each control; `reports_of_mem`: a control reports a violation, under its own
  number, exactly if its condition fails.
* **`enforce_all_exact`** — the short path agrees with the collected one, whose numbers ascend and are those
  of the failed conditions. The fifth control is never what the short path reports: it fails only where the
  first does.
* `ceilings_iff` — where ceilings are not verified, agents may vote on routine decisions only, whatever
  ceiling they declare.
-/

import Exochain.Forum.DecisionObject

set_option linter.unusedSectionVars false

namespace Exochain.DecisionForum

open Foundation ExoCore

/-! ### Controls -/

/-- Context for the checks of the controls. -/
structure TncContext where
  decision : DecisionObject
  constitutionalHashValid : Bool
  consentVerified : Bool
  identityVerified : Bool
  evidenceComplete : Bool
  quorumMet : Bool
  humanGateSatisfied : Bool
  authorityChainVerified : Bool
  aiCeilingsExternallyVerified : Bool

/-- A control that reads one flag. -/
def requireFlag (tncId : UInt32) (reason : String) (flag : Bool) : Except ForumError Unit :=
  if !flag then .error (.tncViolation tncId reason) else .ok ()

/-- Every action must have a verified authority chain. -/
def enforceTnc01 (ctx : TncContext) : Except ForumError Unit :=
  if !ctx.authorityChainVerified then .error (.tncViolation 1 "authority chain not verified")
  else if ctx.decision.authorityChain.isEmpty then .error (.tncViolation 1 "empty authority chain")
  else .ok ()

/-- The human gate. -/
def enforceTnc02 (ctx : TncContext) : Except ForumError Unit :=
  requireFlag 2 "human gate not satisfied" ctx.humanGateSatisfied

/-- Consent must be verified. -/
def enforceTnc03 (ctx : TncContext) : Except ForumError Unit :=
  requireFlag 3 "consent not verified" ctx.consentVerified

/-- Identity must be resolved. -/
def enforceTnc04 (ctx : TncContext) : Except ForumError Unit :=
  requireFlag 4 "identity not verified" ctx.identityVerified

/-- Delegation expiry, which the verification of the chain includes. -/
def enforceTnc05 (ctx : TncContext) : Except ForumError Unit :=
  requireFlag 5 "delegation expiry not enforced (authority chain unverified)" ctx.authorityChainVerified

/-- The decision must be bound to a valid constitution. -/
def enforceTnc06 (ctx : TncContext) : Except ForumError Unit :=
  requireFlag 6 "decision not bound to valid constitution" ctx.constitutionalHashValid

/-- The quorum must be verified. -/
def enforceTnc07 (ctx : TncContext) : Except ForumError Unit :=
  requireFlag 7 "quorum not met" ctx.quorumMet

/-- Terminal decisions cannot be modified. -/
def enforceTnc08 (ctx : TncContext) : Except ForumError Unit :=
  requireFlag 8 "decision is in terminal state — immutable" (!ctx.decision.isTerminal)

/-- The ceiling of an agent, routine unless it was verified. -/
def effectiveCeiling (ctx : TncContext) (ceilingClass : DecisionClass) : DecisionClass :=
  if ctx.aiCeilingsExternallyVerified then ceilingClass else .routine

/-- The text of a ceiling violation. -/
def ceilingReason (ctx : TncContext) (delegationId : String) (ceilingClass : DecisionClass) : String :=
  if ctx.aiCeilingsExternallyVerified then
    "AI agent '" ++ delegationId ++ "' vote on " ++ ctx.decision.decisionClass.debug ++
      " exceeds delegation-registry ceiling " ++ ceilingClass.debug
  else
    "AI agent '" ++ delegationId ++ "' ceiling unverified — restricted to Routine, got " ++
      ctx.decision.decisionClass.debug

/-- The loop over the votes. -/
def checkVotes (ctx : TncContext) : List Vote → Except ForumError Unit
  | [] => .ok ()
  | vote :: votes =>
    match vote.actorKind with
    | .human => checkVotes ctx votes
    | .aiAgent delegationId ceilingClass =>
      if (effectiveCeiling ctx ceilingClass).rank < ctx.decision.decisionClass.rank then
        .error (.tncViolation 9 (ceilingReason ctx delegationId ceilingClass))
      else checkVotes ctx votes

/-- The ceilings of agents. -/
def enforceTnc09 (ctx : TncContext) : Except ForumError Unit := checkVotes ctx ctx.decision.votes

/-- The evidence must be complete. -/
def enforceTnc10 (ctx : TncContext) : Except ForumError Unit :=
  requireFlag 10 "evidence bundle incomplete" ctx.evidenceComplete

/-- Run all controls and return the first violation. -/
def enforceAll (ctx : TncContext) : Except ForumError Unit := do
  enforceTnc01 ctx
  enforceTnc02 ctx
  enforceTnc03 ctx
  enforceTnc04 ctx
  enforceTnc05 ctx
  enforceTnc06 ctx
  enforceTnc07 ctx
  enforceTnc08 ctx
  enforceTnc09 ctx
  enforceTnc10 ctx

/-- The controls, with their numbers. -/
def checks : List (UInt32 × (TncContext → Except ForumError Unit)) :=
  [(1, enforceTnc01), (2, enforceTnc02), (3, enforceTnc03), (4, enforceTnc04), (5, enforceTnc05),
    (6, enforceTnc06), (7, enforceTnc07), (8, enforceTnc08), (9, enforceTnc09), (10, enforceTnc10)]

/-- The error of a result. -/
def errOf {α : Type} : Except ForumError α → Option ForumError
  | .ok _ => none
  | .error error => some error

/-- Collect all violations. -/
def collectViolations (ctx : TncContext) : List ForumError :=
  checks.filterMap fun check => errOf (check.2 ctx)

/-! ### What they check -/

/-- The vote keeps its agent below the ceiling. -/
def WithinCeiling (ctx : TncContext) (vote : Vote) : Prop :=
  ∀ delegationId ceilingClass, vote.actorKind = .aiAgent delegationId ceilingClass →
    ctx.decision.decisionClass.rank ≤ (effectiveCeiling ctx ceilingClass).rank

/-- The condition of a control. -/
def TncHolds (ctx : TncContext) (tncId : UInt32) : Prop :=
  if tncId = 1 then ctx.authorityChainVerified = true ∧ ctx.decision.authorityChain ≠ []
  else if tncId = 2 then ctx.humanGateSatisfied = true
  else if tncId = 3 then ctx.consentVerified = true
  else if tncId = 4 then ctx.identityVerified = true
  else if tncId = 5 then ctx.authorityChainVerified = true
  else if tncId = 6 then ctx.constitutionalHashValid = true
  else if tncId = 7 then ctx.quorumMet = true
  else if tncId = 8 then ctx.decision.state ≠ .closed
  else if tncId = 9 then ∀ vote ∈ ctx.decision.votes, WithinCeiling ctx vote
  else ctx.evidenceComplete = true

variable {ctx : TncContext}

/-- What one control reports: nothing if its condition holds, a violation under its number otherwise. -/
def Reports (tncId : UInt32) (holds : Prop) (result : Except ForumError Unit) : Prop :=
  (holds ∧ result = .ok ()) ∨ (¬ holds ∧ ∃ reason, result = .error (.tncViolation tncId reason))

theorem reports_requireFlag (tncId : UInt32) (reason : String) (flag : Bool) :
    Reports tncId (flag = true) (requireFlag tncId reason flag) := by
  cases flag with
  | true => exact .inl ⟨rfl, rfl⟩
  | false => exact .inr ⟨Bool.false_ne_true, reason, rfl⟩

theorem reports_checkVotes (ctx : TncContext) (votes : List Vote) :
    Reports 9 (∀ vote ∈ votes, WithinCeiling ctx vote) (checkVotes ctx votes) := by
  induction votes with
  | nil => exact .inl ⟨fun _ none => absurd none List.not_mem_nil, rfl⟩
  | cons vote votes ih =>
    rw [checkVotes, List.forall_mem_cons]
    cases kind : vote.actorKind with
    | human =>
      have within : WithinCeiling ctx vote := fun _ _ agent => nomatch kind.symm.trans agent
      rw [and_iff_right within]
      exact ih
    | aiAgent delegationId ceilingClass =>
      have within_iff : WithinCeiling ctx vote ↔
          ctx.decision.decisionClass.rank ≤ (effectiveCeiling ctx ceilingClass).rank := by
        constructor
        · exact fun within => within delegationId ceilingClass kind
        · intro below delegationId' ceilingClass' agent
          rw [kind] at agent
          cases agent
          exact below
      dsimp only
      split
      · rename_i above
        exact .inr ⟨fun all => absurd (within_iff.mp all.1) (Nat.not_le_of_lt above), _, rfl⟩
      · rename_i below
        rw [and_iff_right (within_iff.mpr (Nat.le_of_not_lt below))]
        exact ih

theorem reports_enforceTnc01 :
    Reports 1 (ctx.authorityChainVerified = true ∧ ctx.decision.authorityChain ≠ [])
      (enforceTnc01 ctx) := by
  unfold enforceTnc01
  cases ctx.authorityChainVerified with
  | false => exact .inr ⟨fun holds => absurd holds.1 Bool.false_ne_true, _, rfl⟩
  | true =>
    cases ctx.decision.authorityChain with
    | nil => exact .inr ⟨fun holds => holds.2 rfl, _, rfl⟩
    | cons link links => exact .inl ⟨⟨rfl, List.cons_ne_nil link links⟩, rfl⟩

theorem reports_enforceTnc08 : Reports 8 (ctx.decision.state ≠ .closed) (enforceTnc08 ctx) := by
  have reports := reports_requireFlag 8 "decision is in terminal state — immutable" (!ctx.decision.isTerminal)
  have flag : (!ctx.decision.isTerminal) = true ↔ ctx.decision.state ≠ .closed := by
    simp [DecisionObject.isTerminal]
  rwa [propext flag] at reports

/-- **Every control reports under its own number, and exactly if its condition fails.** -/
theorem reports_of_mem {check : UInt32 × (TncContext → Except ForumError Unit)} (member : check ∈ checks)
    (ctx : TncContext) : Reports check.1 (TncHolds ctx check.1) (check.2 ctx) := by
  simp only [checks, List.mem_cons, List.not_mem_nil, or_false] at member
  rcases member with rfl | rfl | rfl | rfl | rfl | rfl | rfl | rfl | rfl | rfl
  · exact reports_enforceTnc01
  · exact reports_requireFlag 2 _ _
  · exact reports_requireFlag 3 _ _
  · exact reports_requireFlag 4 _ _
  · exact reports_requireFlag 5 _ _
  · exact reports_requireFlag 6 _ _
  · exact reports_requireFlag 7 _ _
  · exact reports_enforceTnc08
  · exact reports_checkVotes ctx _
  · exact reports_requireFlag 10 _ _

/-! ### The short path and the collected one -/

/-- The number that a violation carries. -/
def tncIdOf : ForumError → Option UInt32
  | .tncViolation tncId _ => some tncId
  | _ => none

/-- Checks one after the other, stopping at the first error. -/
def enforceList (ctx : TncContext) :
    List (UInt32 × (TncContext → Except ForumError Unit)) → Except ForumError Unit
  | [] => .ok ()
  | check :: rest =>
    match check.2 ctx with
    | .error error => .error error
    | .ok () => enforceList ctx rest

theorem enforceList_cons (check : UInt32 × (TncContext → Except ForumError Unit))
    (rest : List (UInt32 × (TncContext → Except ForumError Unit))) :
    enforceList ctx (check :: rest) = check.2 ctx >>= fun _ => enforceList ctx rest := by
  rw [enforceList]
  cases check.2 ctx with
  | error => rfl
  | ok => rfl

theorem enforceAll_eq (ctx : TncContext) : enforceAll ctx = enforceList ctx checks := by
  have last : enforceTnc10 ctx = enforceTnc10 ctx >>= fun _ => .ok () := by
    cases enforceTnc10 ctx with
    | error => rfl
    | ok => rfl
  unfold enforceAll checks
  rw [last]
  repeat rw [enforceList_cons]
  rfl

/-- Stopping at the first error finds the first of those that are collected. -/
theorem enforceList_eq (ctx : TncContext) (some : List (UInt32 × (TncContext → Except ForumError Unit))) :
    errOf (enforceList ctx some) = (some.filterMap fun check => errOf (check.2 ctx)).head? := by
  induction some with
  | nil => rfl
  | cons check rest ih =>
    rw [enforceList, List.filterMap_cons]
    cases check.2 ctx with
    | error error => rfl
    | ok => exact ih

/-- What is collected carries the numbers of the controls whose condition fails. -/
theorem map_collected [∀ tncId, Decidable (TncHolds ctx tncId)]
    {some : List (UInt32 × (TncContext → Except ForumError Unit))}
    (sub : ∀ check ∈ some, check ∈ checks) :
    (some.filterMap fun check => errOf (check.2 ctx)).map tncIdOf =
      ((some.map Prod.fst).filter fun tncId => ¬ TncHolds ctx tncId).map Option.some := by
  induction some with
  | nil => rfl
  | cons check rest ih =>
    obtain ⟨here, later⟩ := List.forall_mem_cons.mp sub
    rw [List.filterMap_cons, List.map_cons]
    rcases reports_of_mem here ctx with ⟨holds, passed⟩ | ⟨fails, reason, failed⟩
    · rw [passed, List.filter_cons_of_neg (by simpa using holds)]
      exact ih later
    · rw [failed, List.filter_cons_of_pos (by simpa using fails), List.map_cons, ← ih later]
      rfl

theorem mem_numbers_iff {tncId : UInt32} : tncId ∈ checks.map Prod.fst ↔ 1 ≤ tncId ∧ tncId ≤ 10 := by
  simp only [checks, List.map_cons, List.map_nil, List.mem_cons, List.not_mem_nil, or_false,
    UInt32.le_iff_toNat_le, ← UInt32.toNat_inj]
  show _ ↔ 1 ≤ tncId.toNat ∧ tncId.toNat ≤ 10
  simp only [UInt32.reduceToNat]
  omega

/-- **The short path agrees with the collected one.** The first violation is the first of those collected;
those collected carry ascending numbers, and exactly those of the controls whose condition fails; and the short
path never reports the fifth control. -/
theorem enforce_all_exact (ctx : TncContext) :
    errOf (enforceAll ctx) = (collectViolations ctx).head? ∧
    (∃ numbers : List UInt32, (collectViolations ctx).map tncIdOf = numbers.map some ∧
      numbers.Pairwise (· < ·) ∧
      ∀ tncId, tncId ∈ numbers ↔ 1 ≤ tncId ∧ tncId ≤ 10 ∧ ¬ TncHolds ctx tncId) ∧
    ∀ reason, enforceAll ctx ≠ .error (.tncViolation 5 reason) := by
  classical
  have short : errOf (enforceAll ctx) = (collectViolations ctx).head? := by
    rw [enforceAll_eq, enforceList_eq]
    rfl
  obtain ⟨numbers, numbered, ascending, listed⟩ :
      ∃ numbers : List UInt32,
      (collectViolations ctx).map tncIdOf = numbers.map some ∧ numbers.Pairwise (· < ·) ∧
        ∀ tncId, tncId ∈ numbers ↔ 1 ≤ tncId ∧ tncId ≤ 10 ∧ ¬ TncHolds ctx tncId := by
    refine ⟨(checks.map Prod.fst).filter fun tncId => ¬ TncHolds ctx tncId,
      map_collected fun _ member => member, List.Pairwise.filter _ (by decide), fun tncId => ?_⟩
    rw [List.mem_filter, mem_numbers_iff, decide_eq_true_iff, and_assoc]
  refine ⟨short, ⟨numbers, numbered, ascending, listed⟩, fun reason stopped => ?_⟩
  -- the fifth control fails only where the first does, and then the first is reported
  rw [stopped] at short
  cases collected : collectViolations ctx with
  | nil =>
    rw [collected] at short
    exact nomatch short
  | cons first rest =>
    rw [collected] at short numbered
    obtain rfl : .tncViolation 5 reason = first := Option.some.inj short
    cases numbers with
    | nil => exact nomatch numbered
    | cons tncId others =>
      obtain rfl : 5 = tncId := Option.some.inj (List.cons.inj numbered).1
      have fails : ¬ TncHolds ctx 5 := ((listed 5).mp List.mem_cons_self).2.2
      have first_fails : ¬ TncHolds ctx 1 := fun holds => fails holds.1
      have member := (listed 1).mpr ⟨by decide, by decide, first_fails⟩
      rcases List.mem_cons.mp member with same | later
      · exact absurd same (by decide)
      · exact absurd (List.rel_of_pairwise_cons ascending later) (by decide)

/-- Where ceilings are not verified, the ninth control passes exactly if no agent voted or the decision is
routine. -/
theorem ceilings_iff (unverified : ctx.aiCeilingsExternallyVerified = false) :
    enforceTnc09 ctx = .ok () ↔
      ctx.decision.decisionClass = .routine ∨ ∀ vote ∈ ctx.decision.votes, vote.actorKind = .human := by
  have passes : enforceTnc09 ctx = .ok () ↔ ∀ vote ∈ ctx.decision.votes, WithinCeiling ctx vote := by
    rcases reports_checkVotes ctx ctx.decision.votes with ⟨holds, passed⟩ | ⟨fails, _, failed⟩
    · exact iff_of_true passed holds
    · refine iff_of_false (fun passed => ?_) fails
      exact nomatch passed.symm.trans failed
  have routine : ∀ decisionClass : DecisionClass, decisionClass.rank ≤ 0 ↔ decisionClass = .routine := by
    intro decisionClass
    cases decisionClass <;> simp [DecisionClass.rank]
  have within : ∀ vote, WithinCeiling ctx vote ↔
      ctx.decision.decisionClass = .routine ∨ vote.actorKind = .human := by
    intro vote
    have lowest : ∀ ceilingClass, (effectiveCeiling ctx ceilingClass).rank = 0 := by
      intro ceilingClass
      rw [effectiveCeiling, unverified]
      rfl
    unfold WithinCeiling
    simp only [lowest, routine]
    cases kind : vote.actorKind with
    | human => simp
    | aiAgent delegationId ceilingClass => simp
  simp only [passes, within]
  by_cases low : ctx.decision.decisionClass = .routine
  · simp [low]
  · simp [low]

end Exochain.DecisionForum
