/-
**`exo-governance` — acknowledgments of a declarant.**

An acknowledgment names the declaration it is of by the time of that declaration. The count of a declarant does
not look at it: it counts the acknowledgments by anybody else, whosever declaration they are of.

* `acknowledgmentCount_eq_iff` — when the count is that of the declarant's own declarations.
* **`acknowledgments_per_declarant_iff`** — over a run, the acknowledgments of others' declarations leave the
  count alone exactly if there are none that count.
* `TwoDirectors.counted_for_both` — an acknowledgment that is counted for the wrong director.
-/

import Exochain.Governance.Conflict

namespace Exochain.ExoGovernance.StandingConflictRegister

open Foundation ExoCore

/-! ### The count -/

/-- The number of board acknowledgments of a declarant. -/
def acknowledgmentCount (reg : StandingConflictRegister) (declarant : Did) : ℕ :=
  reg.acknowledgments.countP fun ack => ack.acknowledgerDid ≠ declarant

/-- A declaration by the declarant has the timestamp. -/
def Declared (reg : StandingConflictRegister) (declarant : Did) (timestamp : Timestamp) : Prop :=
  ∃ decl ∈ reg.entries, decl.declarantDid = declarant ∧ decl.timestamp = timestamp

instance (reg : StandingConflictRegister) (declarant : Did) (timestamp : Timestamp) :
    Decidable (reg.Declared declarant timestamp) :=
  inferInstanceAs (Decidable (∃ decl ∈ reg.entries, _))

/-- The number of acknowledgments, by others, of the declarations of a declarant. -/
def ownAcknowledgments (reg : StandingConflictRegister) (declarant : Did) : ℕ :=
  reg.acknowledgments.countP fun ack =>
    decide (reg.Declared declarant ack.declarationTimestamp) && decide (ack.acknowledgerDid ≠ declarant)

/-- An acknowledgment of another's declaration leaves the count alone. -/
def LeavesCount (declarant : Did) (reg : StandingConflictRegister) : Call → Prop
  | .register _ => True
  | .recordAcknowledgment ack =>
    (∃ other, other ≠ declarant ∧ reg.Declared other ack.declarationTimestamp) →
      (reg.recordAcknowledgment ack).acknowledgmentCount declarant = reg.acknowledgmentCount declarant

/-- **The acknowledgments of a declarant are counted**, in every state of a run from the empty register. -/
structure CountsPerDeclarant (declarant : Did) (calls : List Call) : Prop where
  counts : Throughout step
    (fun reg => reg.acknowledgmentCount declarant = reg.ownAcknowledgments declarant) new calls
  leaves : Along step (LeavesCount declarant) new calls

/-- An acknowledgment that is recorded is by the declarant, or of a declaration by the declarant that is in
the register. -/
def RecordsOwn (declarant : Did) (reg : StandingConflictRegister) : Call → Prop
  | .register _ => True
  | .recordAcknowledgment ack =>
    ack.acknowledgerDid = declarant ∨ reg.Declared declarant ack.declarationTimestamp

instance (declarant : Did) (reg : StandingConflictRegister) (call : Call) :
    Decidable (RecordsOwn declarant reg call) := by
  cases call with
  | register decl => exact .isTrue trivial
  | recordAcknowledgment ack => exact inferInstanceAs (Decidable (_ ∨ _))

section Acknowledgments

variable {reg : StandingConflictRegister} {declarant : Did}

/-- The count is right when every acknowledgment that counts is of the declarant's. -/
theorem acknowledgmentCount_eq_iff :
    reg.acknowledgmentCount declarant = reg.ownAcknowledgments declarant ↔
      ∀ ack ∈ reg.acknowledgments, ack.acknowledgerDid ≠ declarant →
        reg.Declared declarant ack.declarationTimestamp := by
  rw [acknowledgmentCount, ownAcknowledgments, ← List.countP_filter, List.countP_eq_length_filter, eq_comm,
    List.countP_eq_length]
  simp only [List.mem_filter, decide_eq_true_eq, and_imp]

/-- Declarations stay in the register. -/
theorem entries_step (reg : StandingConflictRegister) (call : Call) :
    reg.entries <+: (reg.step call).entries := by
  cases call with
  | recordAcknowledgment ack => exact List.prefix_rfl
  | register decl =>
    show reg.entries <+: (reg.register decl).entries
    rcases register_cases reg decl with ⟨-, unchanged⟩ | added
    · rw [unchanged]
    · rw [added]
      exact List.prefix_append _ _

theorem entries_run (reg : StandingConflictRegister) (calls : List Call) :
    reg.entries <+: (run step reg calls).entries := by
  induction calls generalizing reg with
  | nil => exact List.prefix_rfl
  | cons call calls ih => exact (entries_step reg call).trans (ih _)

theorem Declared.step {timestamp : Timestamp} (declared : reg.Declared declarant timestamp) (call : Call) :
    (reg.step call).Declared declarant timestamp := by
  obtain ⟨decl, member, own⟩ := declared
  exact ⟨decl, (entries_step reg call).subset member, own⟩

/-- Registering records no acknowledgment. -/
theorem acknowledgments_register (reg : StandingConflictRegister) (decl : ConflictDeclaration) :
    (reg.register decl).acknowledgments = reg.acknowledgments := by
  unfold register
  split_ifs
  · rfl
  · rfl

/-- **One call keeps the count right** exactly if an acknowledgment it records is by the declarant or of the
declarant's. -/
theorem counts_step_iff (counts : reg.acknowledgmentCount declarant = reg.ownAcknowledgments declarant)
    (call : Call) :
    (reg.step call).acknowledgmentCount declarant = (reg.step call).ownAcknowledgments declarant ↔
      RecordsOwn declarant reg call := by
  rw [acknowledgmentCount_eq_iff] at counts ⊢
  cases call with
  | register decl =>
    refine iff_of_true (fun ack recorded other => ?_) trivial
    change ack ∈ (reg.register decl).acknowledgments at recorded
    rw [acknowledgments_register] at recorded
    exact (counts ack recorded other).step (.register decl)
  | recordAcknowledgment ack =>
    show (∀ recorded ∈ reg.acknowledgments ++ [ack], _ → reg.Declared declarant _) ↔ _
    rw [List.forall_mem_append, List.forall_mem_singleton, and_iff_right counts]
    exact or_iff_not_imp_left.symm

/-- Where declarations have distinct timestamps, an acknowledgment of another's declaration is not of the
declarant's. -/
theorem leavesCount_of_recordsOwn (distinct : (reg.entries.map ConflictDeclaration.timestamp).Nodup)
    {call : Call} (records : RecordsOwn declarant reg call) : LeavesCount declarant reg call := by
  cases call with
  | register decl => trivial
  | recordAcknowledgment ack =>
    rintro ⟨other, different, decl, member, rfl, same⟩
    have own : ack.acknowledgerDid = declarant := by
      refine records.resolve_right ?_
      rintro ⟨decl', member', rfl, same'⟩
      obtain rfl := List.inj_on_of_nodup_map distinct member member' (same.trans same'.symm)
      exact different rfl
    simp [recordAcknowledgment, acknowledgmentCount, own]

/-- **When the acknowledgments of a declarant are counted** over a run whose declarations have distinct
timestamps: when each acknowledgment that is recorded is by the declarant, or of a declaration by the
declarant that is in the register. -/
theorem acknowledgments_per_declarant_iff (declarant : Did) (calls : List Call)
    (distinct : ((run step new calls).entries.map ConflictDeclaration.timestamp).Nodup) :
    CountsPerDeclarant declarant calls ↔ Along step (RecordsOwn declarant) new calls := by
  have exactly : Throughout step
      (fun reg => reg.acknowledgmentCount declarant = reg.ownAcknowledgments declarant) new calls ↔
        Along step (RecordsOwn declarant) new calls :=
    throughout_iff_along (I := fun _ => True) (fun _ _ _ => trivial)
      (fun reg call _ counts => counts_step_iff counts call) trivial rfl
  constructor
  · exact fun sound => exactly.mp sound.counts
  · intro records
    refine ⟨exactly.mpr records, fun before call after split => ?_⟩
    have earlier : (run step new before).entries <+: (run step new calls).entries := by
      rw [split, run_append]
      exact entries_run _ _
    refine leavesCount_of_recordsOwn ?_ (records before call after split)
    exact distinct.sublist (earlier.sublist.map _)

end Acknowledgments

namespace TwoDirectors

/-- A director's interest in a company, declared at a time. -/
def interest (director : String) (physicalMs : UInt64) : ConflictDeclaration :=
  ⟨⟨director⟩, "a financial interest", [⟨"did:exo:acme"⟩], ⟨physicalMs, 0⟩⟩

/-- Carol acknowledges what was declared at a time. -/
def seen (physicalMs : UInt64) : BoardAcknowledgment :=
  ⟨⟨"did:exo:carol"⟩, ⟨physicalMs, 0⟩, ⟨9, 0⟩⟩

/-- Alice and bob declare, and carol acknowledges what alice declared. -/
def history : List Call :=
  [.register (interest "did:exo:alice" 1), .register (interest "did:exo:bob" 2),
    .recordAcknowledgment (seen 1)]

/-- Alice's acknowledgments are counted. -/
theorem alice_counted : CountsPerDeclarant ⟨"did:exo:alice"⟩ history :=
  (acknowledgments_per_declarant_iff ⟨"did:exo:alice"⟩ history (by decide)).mpr (by decide)

/-- **The acknowledgment of alice's declaration is counted for bob.** -/
theorem counted_for_both :
    ¬ ∀ declarant calls, ((run step new calls).entries.map ConflictDeclaration.timestamp).Nodup →
      CountsPerDeclarant declarant calls := by
  intro counts
  have bob := counts ⟨"did:exo:bob"⟩ history (by decide)
  exact absurd bob.counts.last (by decide)

end TwoDirectors

end Exochain.ExoGovernance.StandingConflictRegister
