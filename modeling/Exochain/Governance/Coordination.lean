/-
**`exo-governance` — coordinated actions.**

Two actions are reported if they are of different actors, do the same and lie a tenth of a second apart at most.
Every pair of the list is looked at once, the earlier entry first.

* `mem_detectCoordination_iff`, `detectCoordination_eq_nil_iff` — what is reported, and when nothing is.
* **`detectCoordination_perm`** — the reports are the same in whatever order the actions are listed, but for
  their order and that of the two actors of each.
-/

import Exochain.Core.Types

set_option linter.unusedSectionVars false

namespace Exochain.ExoGovernance

open Foundation ExoCore

/-! ### The reports -/

/-- What an actor did, and when. -/
structure TimestampedAction where
  actor : Did
  actionHash : Hash256
  timestamp : Timestamp
  deriving DecidableEq

/-- A report on two actors. -/
structure CoordinationSignal where
  actors : List Did
  reason : String
  confidence : UInt8
  deriving DecidableEq

/-- How far apart coordinated actions are at most, in milliseconds. -/
def thresholdMs : ℕ := 100

/-- The milliseconds between two actions. -/
def msApart (first second : TimestampedAction) : ℕ :=
  max first.timestamp.physicalMs.toNat second.timestamp.physicalMs.toNat -
    min first.timestamp.physicalMs.toNat second.timestamp.physicalMs.toNat

/-- Two actions that are reported. -/
def Coordinated (first second : TimestampedAction) : Prop :=
  first.actor ≠ second.actor ∧ msApart first second ≤ thresholdMs ∧ first.actionHash = second.actionHash

instance (first second : TimestampedAction) : Decidable (Coordinated first second) :=
  inferInstanceAs (Decidable (_ ∧ _ ∧ _))

/-- The report on two actions. -/
def signal (first second : TimestampedAction) : Option CoordinationSignal :=
  if Coordinated first second then
    some
      { actors := [first.actor, second.actor]
        reason := "near-simultaneous identical actions (" ++ toString (msApart first second) ++ "ms apart)"
        confidence := 80 }
  else none

/-- The reports on all pairs of a list. -/
def detectCoordination : List TimestampedAction → List CoordinationSignal
  | [] => []
  | action :: later => later.filterMap (signal action) ++ detectCoordination later

/-! ### What is reported -/

section Reports

variable {first second : TimestampedAction} {actions others : List TimestampedAction}
  {report : CoordinationSignal}

/-- The reports are on the pairs of the list. -/
theorem mem_detectCoordination_iff :
    report ∈ detectCoordination actions ↔
      ∃ first second, [first, second].Sublist actions ∧ signal first second = some report := by
  induction actions with
  | nil => simp [detectCoordination]
  | cons action later ih =>
    rw [detectCoordination, List.mem_append, List.mem_filterMap, ih]
    constructor
    · rintro (⟨second, member, reported⟩ | ⟨first, second, listed, reported⟩)
      · exact ⟨action, second, List.cons_sublist_cons.mpr (List.singleton_sublist.mpr member), reported⟩
      · exact ⟨first, second, listed.cons action, reported⟩
    · rintro ⟨first, second, listed, reported⟩
      cases listed with
      | cons _ listed => exact .inr ⟨first, second, listed, reported⟩
      | cons_cons _ listed => exact .inl ⟨second, List.singleton_sublist.mp listed, reported⟩

/-- Nothing is reported exactly if no two entries are coordinated. -/
theorem detectCoordination_eq_nil_iff :
    detectCoordination actions = [] ↔ actions.Pairwise fun first second => ¬ Coordinated first second := by
  induction actions with
  | nil => simp [detectCoordination]
  | cons action later ih =>
    rw [detectCoordination, List.append_eq_nil_iff, ih, List.pairwise_cons, List.filterMap_eq_nil_iff]
    refine and_congr_left fun _ => forall_congr' fun second => imp_congr_right fun _ => ?_
    unfold signal
    split
    · rename_i coordinated
      exact iff_of_false (fun none => nomatch none) (not_not.mpr coordinated)
    · rename_i apart
      exact iff_of_true rfl apart

/-! ### The order of the actions -/

/-- A report without the order of its actors. -/
def CoordinationSignal.unordered (report : CoordinationSignal) : Multiset Did × String × UInt8 :=
  (report.actors, report.reason, report.confidence)

theorem msApart_comm (first second : TimestampedAction) : msApart first second = msApart second first := by
  rw [msApart, max_comm, min_comm, msApart]

theorem coordinated_comm : Coordinated first second ↔ Coordinated second first := by
  unfold Coordinated
  rw [msApart_comm, ne_comm, eq_comm (a := first.actionHash)]

/-- A pair gives the same report both ways. -/
theorem unordered_signal_comm (first second : TimestampedAction) :
    (signal first second).map CoordinationSignal.unordered =
      (signal second first).map CoordinationSignal.unordered := by
  unfold signal
  by_cases coordinated : Coordinated first second
  · rw [if_pos coordinated, if_pos (coordinated_comm.mp coordinated), msApart_comm]
    have swapped : ([first.actor, second.actor] : Multiset Did) = [second.actor, first.actor] :=
      Multiset.coe_eq_coe.mpr (.swap ..)
    simp only [Option.map_some, CoordinationSignal.unordered, swapped]
  · rw [if_neg coordinated, if_neg fun swapped => coordinated (coordinated_comm.mpr swapped)]

/-- The reports on the pairs of a list, without the order of their actors. -/
def unorderedReports (actions : List TimestampedAction) : List (Multiset Did × String × UInt8) :=
  (detectCoordination actions).map CoordinationSignal.unordered

/-- The reports on an action and those of a list. -/
def reportsWith (action : TimestampedAction) (others : List TimestampedAction) :
    List (Multiset Did × String × UInt8) :=
  others.filterMap fun other => (signal action other).map CoordinationSignal.unordered

theorem unorderedReports_cons (action : TimestampedAction) :
    unorderedReports (action :: actions) = reportsWith action actions ++ unorderedReports actions := by
  rw [unorderedReports, detectCoordination, List.map_append, List.map_filterMap]
  rfl

/-- **The order of the actions does not matter.** -/
theorem detectCoordination_perm (same : actions.Perm others) :
    (unorderedReports actions).Perm (unorderedReports others) := by
  induction same with
  | nil => exact .refl _
  | cons action same ih =>
    rw [unorderedReports_cons, unorderedReports_cons]
    exact (same.filterMap _).append ih
  | swap first second rest =>
    simp only [unorderedReports_cons, reportsWith, List.filterMap_cons, unordered_signal_comm first second]
    cases (signal second first).map CoordinationSignal.unordered with
    | none =>
      rw [← List.append_assoc, ← List.append_assoc]
      exact List.perm_append_comm.append_right _
    | some report =>
      simp only [List.cons_append]
      refine .cons _ ?_
      rw [← List.append_assoc, ← List.append_assoc]
      exact List.perm_append_comm.append_right _
  | trans _ _ ih ih' => exact ih.trans ih'

end Reports

end Exochain.ExoGovernance
