/-
**`exo-governance` — conflicts of interest.**

A register keeps conflict declarations across decisions; a declaration with the declarant, the nature
and the related identifiers of an earlier one is skipped. For an action, the declarations of its actor
are compared with the identifiers it affects, and every match is a conflict whose severity is read off
the text of the nature. Two functions enforce: one returns whether the actor must recuse, the other
fails with the first conflict that demands it.

* `checkAndBlock_eq_error_iff`, `mustRecuse_iff` — the two enforcing functions look for one thing.
* `exists_blocks_run_iff`, `exists_blocks_extract_iff` — no declaration that blocks an action is lost,
  neither where the register skips one nor where it is asked for those that concern the action.
* **`conflict_enforcement_exact`** — who is blocked, over every history of the register.
-/

import Exochain.Foundation.Run
import Exochain.Core.Types

namespace Exochain.ExoGovernance

open Foundation ExoCore

/-! ### Declarations and conflicts -/

/-- How much a conflict weighs. -/
inductive ConflictSeverity where
  | advisory
  | material
  | disqualifying
  deriving DecidableEq, Repr

/-- The name of a severity in texts. -/
def ConflictSeverity.debug : ConflictSeverity → String
  | advisory => "Advisory"
  | material => "Material"
  | disqualifying => "Disqualifying"

/-- What stops an actor with a conflict. -/
inductive ConflictError where
  | recusalRequired (actor : String) (severity : ConflictSeverity)
  deriving DecidableEq, Repr

/-- The text of an error. -/
def ConflictError.display : ConflictError → String
  | .recusalRequired actor severity =>
    "recusal required: actor " ++ actor ++ " has " ++ severity.debug ++ " conflict — vote blocked"

/-- A declared conflict. -/
structure ConflictDeclaration where
  declarantDid : Did
  nature : String
  relatedDids : List Did
  timestamp : Timestamp
  deriving DecidableEq

/-- An action that may conflict. -/
structure ActionRequest where
  actionId : String
  actorDid : Did
  affectedDids : List Did
  description : String
  deriving DecidableEq

/-- A conflict that an action meets. -/
structure Conflict where
  declaration : ConflictDeclaration
  affectedDid : Did
  severity : ConflictSeverity
  deriving DecidableEq

/-- A board member has seen a disclosure. -/
structure BoardAcknowledgment where
  acknowledgerDid : Did
  declarationTimestamp : Timestamp
  acknowledgedAt : Timestamp
  deriving DecidableEq

/-! ### Detection and enforcement -/

/-- The text contains the word, at any place. -/
def containsWord (text word : String) : Bool := decide (word.toList <:+: text.toList)

/-- The severity that the nature of a declaration stands for. -/
def severityOf (nature : String) : ConflictSeverity :=
  if containsWord nature "financial" || containsWord nature "ownership" then .disqualifying
  else if containsWord nature "personal" || containsWord nature "family" then .material
  else .advisory

/-- The conflicts of an actor with an action: one for each related identifier that is affected. -/
def checkConflicts (actor : Did) (action : ActionRequest)
    (declarations : List ConflictDeclaration) : List Conflict :=
  declarations.flatMap fun decl =>
    if decl.declarantDid ≠ actor then []
    else
      (decl.relatedDids.filter (action.affectedDids.contains ·)).map fun related =>
        ⟨decl, related, severityOf decl.nature⟩

/-- The conflict demands recusal. -/
def Conflict.demandsRecusal (conflict : Conflict) : Bool :=
  conflict.severity = .disqualifying || conflict.severity = .material

/-- Whether the actor must recuse. -/
def mustRecuse (conflicts : List Conflict) : Bool := conflicts.any Conflict.demandsRecusal

/-- Fail with the first conflict that demands recusal. -/
def checkAndBlock (actor : Did) : List Conflict → Except ConflictError Unit
  | [] => .ok ()
  | conflict :: conflicts =>
    if conflict.demandsRecusal then .error (.recusalRequired actor.value conflict.severity)
    else checkAndBlock actor conflicts

/-! ### The standing register -/

/-- Conflict declarations kept across decisions. -/
structure StandingConflictRegister where
  entries : List ConflictDeclaration
  acknowledgments : List BoardAcknowledgment
  deriving DecidableEq

/-- The two declarations say the same thing, at whatever times. -/
def ConflictDeclaration.sameAs (decl other : ConflictDeclaration) : Bool :=
  decl.declarantDid = other.declarantDid && decl.nature = other.nature &&
    decl.relatedDids = other.relatedDids

/-- The declaration concerns the action: its actor declared a relation with somebody it affects. -/
def ConflictDeclaration.concerns (decl : ConflictDeclaration) (action : ActionRequest) : Bool :=
  decl.declarantDid = action.actorDid && decl.relatedDids.any (action.affectedDids.contains ·)

namespace StandingConflictRegister

/-- The empty register. -/
def new : StandingConflictRegister := ⟨[], []⟩

/-- Register a declaration, unless it is there already. -/
def register (reg : StandingConflictRegister) (decl : ConflictDeclaration) :
    StandingConflictRegister :=
  if reg.entries.any (·.sameAs decl) then reg
  else { reg with entries := reg.entries ++ [decl] }

/-- Record that a board member has seen a disclosure. -/
def recordAcknowledgment (reg : StandingConflictRegister) (ack : BoardAcknowledgment) :
    StandingConflictRegister :=
  { reg with acknowledgments := reg.acknowledgments ++ [ack] }

/-- The declarations that concern an action. -/
def declarationsForAction (reg : StandingConflictRegister) (action : ActionRequest) :
    List ConflictDeclaration :=
  reg.entries.filter (·.concerns action)

/-- All declarations. -/
def allDeclarations (reg : StandingConflictRegister) : List ConflictDeclaration := reg.entries

/-- The calls that change a register. -/
inductive Call where
  | register (decl : ConflictDeclaration)
  | recordAcknowledgment (ack : BoardAcknowledgment)
  deriving DecidableEq

/-- One call. -/
def step (reg : StandingConflictRegister) : Call → StandingConflictRegister
  | .register decl => reg.register decl
  | .recordAcknowledgment ack => reg.recordAcknowledgment ack

/-- The two ways to take declarations from a register for an action. -/
inductive Extract where
  | allDeclarations
  | declarationsForAction
  deriving DecidableEq

/-- The declarations that are checked. -/
def extract (reg : StandingConflictRegister) (action : ActionRequest) :
    Extract → List ConflictDeclaration
  | .allDeclarations => reg.allDeclarations
  | .declarationsForAction => reg.declarationsForAction action

end StandingConflictRegister

/-! ### What the enforcing functions look for -/

/-- The words that make a conflict demand recusal. -/
def recusalWords : List String := ["financial", "ownership", "personal", "family"]

/-- The declaration keeps the actor of the action from voting: it is the actor's, it relates to somebody
who is affected, and its nature has one of the words. -/
structure ConflictDeclaration.Blocks (decl : ConflictDeclaration) (action : ActionRequest) : Prop where
  declarant : decl.declarantDid = action.actorDid
  related : ∃ did ∈ decl.relatedDids, did ∈ action.affectedDids
  nature : ∃ word ∈ recusalWords, containsWord decl.nature word = true

section Enforcement

variable {actor : Did} {action : ActionRequest} {conflicts : List Conflict}

theorem demandsRecusal_iff {conflict : Conflict} :
    conflict.demandsRecusal = true ↔ conflict.severity ≠ .advisory := by
  unfold Conflict.demandsRecusal
  cases conflict.severity with
  | advisory => decide
  | material => decide
  | disqualifying => decide

/-- A nature is more than advisory when it has one of the words. -/
theorem severityOf_ne_advisory_iff {nature : String} :
    severityOf nature ≠ .advisory ↔ ∃ word ∈ recusalWords, containsWord nature word = true := by
  unfold severityOf
  simp only [recusalWords, List.mem_cons, List.not_mem_nil, or_false, exists_eq_or_imp,
    exists_eq_left]
  generalize containsWord nature "financial" = financial
  generalize containsWord nature "ownership" = ownership
  generalize containsWord nature "personal" = personal
  generalize containsWord nature "family" = family
  revert financial ownership personal family
  decide

/-- **The two enforcing functions agree.** -/
theorem checkAndBlock_eq_error_iff :
    (∃ error, checkAndBlock actor conflicts = .error error) ↔ mustRecuse conflicts = true := by
  induction conflicts with
  | nil => simp [checkAndBlock, mustRecuse]
  | cons conflict conflicts ih =>
    rw [checkAndBlock, mustRecuse, List.any_cons]
    cases demands : conflict.demandsRecusal with
    | true => simp
    | false =>
      rw [if_neg Bool.false_ne_true, Bool.false_or]
      exact ih

/-- What a conflict with an action comes from. -/
theorem mem_checkConflicts_iff {declarations : List ConflictDeclaration} {conflict : Conflict} :
    conflict ∈ checkConflicts actor action declarations ↔
      ∃ decl ∈ declarations, decl.declarantDid = actor ∧ ∃ did ∈ decl.relatedDids,
        did ∈ action.affectedDids ∧ conflict = ⟨decl, did, severityOf decl.nature⟩ := by
  rw [checkConflicts, List.mem_flatMap]
  refine exists_congr fun decl => and_congr_right fun _ => ?_
  by_cases own : decl.declarantDid = actor
  · rw [if_neg (not_not.mpr own), List.mem_map]
    simp only [own, true_and, List.mem_filter, List.contains_iff_mem, and_assoc,
      eq_comm (b := conflict)]
  · rw [if_pos own]
    simp [own]

/-- The actor must recuse when one of the declarations blocks the action. -/
theorem mustRecuse_iff {declarations : List ConflictDeclaration} :
    mustRecuse (checkConflicts action.actorDid action declarations) = true ↔
      ∃ decl ∈ declarations, decl.Blocks action := by
  rw [mustRecuse, List.any_eq_true]
  constructor
  · rintro ⟨conflict, found, demands⟩
    obtain ⟨decl, member, own, did, related, affected, rfl⟩ := mem_checkConflicts_iff.mp found
    exact ⟨decl, member, own, ⟨did, related, affected⟩,
      severityOf_ne_advisory_iff.mp (demandsRecusal_iff.mp demands)⟩
  · rintro ⟨decl, member, own, ⟨did, related, affected⟩, nature⟩
    refine ⟨⟨decl, did, severityOf decl.nature⟩, ?_, ?_⟩
    · exact mem_checkConflicts_iff.mpr ⟨decl, member, own, did, related, affected, rfl⟩
    · exact demandsRecusal_iff.mpr (severityOf_ne_advisory_iff.mpr nature)

end Enforcement

/-! ### What the register keeps -/

namespace StandingConflictRegister

section Register

variable {reg : StandingConflictRegister} {action : ActionRequest} {decl other : ConflictDeclaration}

theorem sameAs_iff : decl.sameAs other = true ↔ decl.declarantDid = other.declarantDid ∧
    decl.nature = other.nature ∧ decl.relatedDids = other.relatedDids := by
  simp [ConflictDeclaration.sameAs, and_assoc]

/-- Declarations that say the same thing block the same actions. -/
theorem Blocks.of_sameAs (same : decl.sameAs other = true) (blocks : other.Blocks action) :
    decl.Blocks action := by
  obtain ⟨declarant, nature, related⟩ := sameAs_iff.mp same
  exact ⟨declarant ▸ blocks.declarant, related ▸ blocks.related, nature ▸ blocks.nature⟩

/-- What `register` does. -/
theorem register_cases (reg : StandingConflictRegister) (decl : ConflictDeclaration) :
    (∃ entry ∈ reg.entries, entry.sameAs decl = true) ∧ reg.register decl = reg ∨
      (reg.register decl).entries = reg.entries ++ [decl] := by
  unfold register
  by_cases exists_same : reg.entries.any (·.sameAs decl) = true
  · rw [if_pos exists_same]
    exact .inl ⟨List.any_eq_true.mp exists_same, rfl⟩
  · rw [if_neg exists_same]
    exact .inr rfl

/-- One call changes which actions are blocked by what it registers only. -/
theorem exists_blocks_step_iff (reg : StandingConflictRegister) (call : Call) :
    (∃ entry ∈ (reg.step call).entries, entry.Blocks action) ↔
      (∃ entry ∈ reg.entries, entry.Blocks action) ∨ ∃ decl, call = .register decl ∧ decl.Blocks action := by
  cases call with
  | recordAcknowledgment ack =>
    show (∃ entry ∈ reg.entries, entry.Blocks action) ↔ _
    simp
  | register decl =>
    show (∃ entry ∈ (reg.register decl).entries, entry.Blocks action) ↔ _
    simp only [Call.register.injEq, exists_eq_left']
    rcases register_cases reg decl with ⟨⟨entry, member, same⟩, unchanged⟩ | added
    · rw [unchanged]
      refine ⟨.inl, fun either => either.elim id fun blocks => ?_⟩
      exact ⟨entry, member, Blocks.of_sameAs same blocks⟩
    · rw [added]
      simp only [List.mem_append, List.mem_singleton, or_and_right, exists_or, exists_eq_left]

/-- **A register blocks what was ever registered blocks**, whatever it skipped. -/
theorem exists_blocks_run_iff (calls : List Call) :
    (∃ entry ∈ (run step new calls).entries, entry.Blocks action) ↔
      ∃ decl, .register decl ∈ calls ∧ decl.Blocks action := by
  induction calls using List.reverseRecOn with
  | nil => simp [new]
  | append_singleton calls last ih =>
    rw [run_append, run_cons, run_nil, exists_blocks_step_iff, ih]
    simp only [List.mem_append, List.mem_singleton, or_and_right, exists_or, eq_comm]

/-- Leaving out the declarations that do not concern the action loses none that block it. -/
theorem exists_blocks_extract_iff (reg : StandingConflictRegister) (source : Extract) :
    (∃ decl ∈ reg.extract action source, decl.Blocks action) ↔
      ∃ entry ∈ reg.entries, entry.Blocks action := by
  cases source with
  | allDeclarations => rfl
  | declarationsForAction =>
    show (∃ decl ∈ reg.entries.filter (·.concerns action), decl.Blocks action) ↔ _
    simp only [List.mem_filter, and_assoc]
    refine exists_congr fun entry => and_congr_right fun _ => ⟨fun both => both.2, fun blocks => ?_⟩
    have concerns : entry.concerns action = true := by
      obtain ⟨did, related, affected⟩ := blocks.related
      rw [ConflictDeclaration.concerns, decide_eq_true blocks.declarant, Bool.true_and]
      exact List.any_eq_true.mpr ⟨did, related, List.contains_iff_mem.mpr affected⟩
    exact ⟨concerns, blocks⟩

end Register

/-- The conflicts of the actor of an action with the declarations taken from a register. -/
def conflictsWith (reg : StandingConflictRegister) (action : ActionRequest) (source : Extract) :
    List Conflict :=
  checkConflicts action.actorDid action (reg.extract action source)

/-- The gate fails for the actor of the action. -/
def Blocked (reg : StandingConflictRegister) (action : ActionRequest) (source : Extract) : Prop :=
  ∃ error, checkAndBlock action.actorDid (reg.conflictsWith action source) = .error error

theorem blocked_run_iff (calls : List Call) (action : ActionRequest) (source : Extract) :
    (run step new calls).Blocked action source ↔
      ∃ decl, .register decl ∈ calls ∧ decl.Blocks action := by
  rw [Blocked, conflictsWith, checkAndBlock_eq_error_iff, mustRecuse_iff, exists_blocks_extract_iff,
    exists_blocks_run_iff]

/-- **Conflict enforcement is exact**: after any calls on a register, with the declarations taken from
it in either way, the gate fails exactly when the actor must recuse, and that is when a declaration ever
registered blocks the action; registering the same declarations in another order or another number of
times blocks the same actions. -/
theorem conflict_enforcement_exact (calls : List Call) (action : ActionRequest) (source : Extract) :
    ((run step new calls).Blocked action source ↔
      mustRecuse ((run step new calls).conflictsWith action source) = true) ∧
    ((run step new calls).Blocked action source ↔
      ∃ decl, .register decl ∈ calls ∧ decl.Blocks action) ∧
    (∀ others source', (∀ decl, .register decl ∈ others ↔ .register decl ∈ calls) →
      ((run step new others).Blocked action source' ↔ (run step new calls).Blocked action source)) := by
  refine ⟨checkAndBlock_eq_error_iff, blocked_run_iff calls action source, ?_⟩
  intro others source' same
  rw [blocked_run_iff, blocked_run_iff]
  simp only [same]

namespace Sample

/-- Alice's financial interest in acme, declared at a time. -/
def interest (physicalMs : UInt64) : ConflictDeclaration :=
  ⟨⟨"did:exo:alice"⟩, "a financial interest", [⟨"did:exo:acme"⟩], ⟨physicalMs, 0⟩⟩

/-- Alice's acquaintance with somebody at acme. -/
def acquaintance : ConflictDeclaration :=
  ⟨⟨"did:exo:alice"⟩, "an acquaintance", [⟨"did:exo:acme"⟩], ⟨2, 0⟩⟩

/-- Alice votes on a contract with acme. -/
def contract : ActionRequest := ⟨"vote-1", ⟨"did:exo:alice"⟩, [⟨"did:exo:acme"⟩], "award"⟩

theorem interest_blocks : (interest 1).Blocks contract :=
  ⟨rfl, ⟨⟨"did:exo:acme"⟩, by decide, by decide⟩, ⟨"financial", by decide, by decide⟩⟩

/-- The interest blocks alice, whichever declaration was registered first and how often. -/
theorem contract_blocked :
    (run step new [.register acquaintance, .register (interest 1)]).Blocked contract .allDeclarations ∧
    (run step new [.register (interest 1), .register acquaintance, .register (interest 1)]).Blocked
      contract .declarationsForAction := by
  obtain ⟨-, exactly, unordered⟩ := conflict_enforcement_exact
    [.register acquaintance, .register (interest 1)] contract .allDeclarations
  have blocked := exactly.mpr ⟨interest 1, by simp, interest_blocks⟩
  refine ⟨blocked, (unordered _ .declarationsForAction ?_).mpr blocked⟩
  intro decl
  simp only [List.mem_cons, List.not_mem_nil, or_false]
  tauto

end Sample

end StandingConflictRegister

end Exochain.ExoGovernance
