/-
**`exo-escalation` — the kanban board.**

A case is added to the backlog and moved from column to column. A move looks for the case in the columns, one
after the other, takes it out where it is found first and puts it last into the target, which may be the column
it came from. A move of a case that is on no column is an error.

* `Placed` — what the columns hold after some moves.
* `placed_addCase`, `moveCase_known`, `moveCase_unknown` — what one call keeps.
* **`board_sound`** — the law of every run: every case is in one column, that of its last move.
-/

import Exochain.Foundation.Run
import Exochain.Foundation.Shelves
import Exochain.Escalation.Sybil

namespace Exochain.ExoEscalation

open Foundation Foundation.Shelves ExoCore

/-! ### The board -/

/-- The columns of the board. -/
inductive KanbanColumn where
  | backlog
  | inProgress
  | review
  | resolved
  | archived
  deriving DecidableEq, Repr

/-- The columns are ordered as they are listed. -/
def KanbanColumn.rank : KanbanColumn → ℕ
  | backlog => 0
  | inProgress => 1
  | review => 2
  | resolved => 3
  | archived => 4

theorem KanbanColumn.rank_injective : Function.Injective KanbanColumn.rank := by
  intro first second same
  cases first <;> cases second <;> first | rfl | cases same

instance : LinearOrder KanbanColumn := LinearOrder.lift' KanbanColumn.rank KanbanColumn.rank_injective

instance KanbanColumn.transOrd : Std.TransOrd KanbanColumn := inferInstance

instance : Std.LawfulEqOrd KanbanColumn where
  eq_of_compare same := compare_eq_iff_eq.mp same

/-- The priorities are ordered as they are listed. -/
def CasePriority.rank : CasePriority → ℕ
  | low => 0
  | medium => 1
  | high => 2
  | critical => 3

theorem CasePriority.rank_injective : Function.Injective CasePriority.rank := by
  intro first second same
  cases first <;> cases second <;> first | rfl | cases same

instance : LinearOrder CasePriority := LinearOrder.lift' CasePriority.rank CasePriority.rank_injective

/-- The board: the cases of each column. -/
structure KanbanBoard where
  columns : BTreeMap KanbanColumn (List EscalationCase)

namespace KanbanBoard

/-- The board with five empty columns. -/
def new : KanbanBoard where
  columns := (((((∅ : BTreeMap KanbanColumn (List EscalationCase)).insert .backlog []).insert .inProgress
    []).insert .review []).insert .resolved []).insert .archived []

/-- Add a case to the backlog. -/
def addCase (board : KanbanBoard) (case : EscalationCase) : KanbanBoard :=
  ⟨put board.columns .backlog case⟩

/-- The number of cases in all columns. -/
def totalCases (board : KanbanBoard) : ℕ := (board.columns.toList.map fun entry => entry.2.length).sum

end KanbanBoard

/-- Move a case to a column: the answer, and the board left behind. -/
def moveCase (board : KanbanBoard) (caseId : Uuid) (target : KanbanColumn) :
    Except EscalationError Unit × KanbanBoard :=
  match takeOut (fun case => decide (case.id = caseId)) board.columns with
  | none => (.error (.caseNotFound caseId.display), board)
  | some (case, columns) => (.ok (), ⟨put columns target case⟩)

/-- All cases, the most urgent ones first. -/
def casesByPriority (board : KanbanBoard) : List EscalationCase :=
  (items board.columns).mergeSort fun a b => decide (b.priority ≤ a.priority)

/-! ### Runs -/

/-- A call of the board. -/
inductive KanbanCall where
  | add (case : EscalationCase)
  | move (caseId : Uuid) (target : KanbanColumn)
  deriving DecidableEq

/-- The answer to a call, and the board after it. -/
def KanbanBoard.answer (board : KanbanBoard) : KanbanCall → Except EscalationError Unit × KanbanBoard
  | .add case => (.ok (), board.addCase case)
  | .move caseId target => moveCase board caseId target

/-- The board after some calls. -/
def boardAfter (calls : List KanbanCall) : KanbanBoard :=
  run (fun board call => (board.answer call).2) .new calls

/-- The case that a call adds. -/
def KanbanCall.added? : KanbanCall → Option EscalationCase
  | .add case => some case
  | .move _ _ => none

/-- The cases that some calls add. -/
def added (calls : List KanbanCall) : List EscalationCase := calls.filterMap KanbanCall.added?

/-- The move that a call has made, by its answer. -/
def moveMade? : KanbanCall × Except EscalationError Unit → Option (Uuid × KanbanColumn)
  | (.move caseId target, .ok ()) => some (caseId, target)
  | _ => none

/-- The moves of a run that were successful. -/
def movesMade (calls : List KanbanCall) : List (Uuid × KanbanColumn) :=
  (answers KanbanBoard.answer .new calls).filterMap moveMade?

/-- The target of the last of some moves of a case, or the backlog. -/
def lastTarget (moves : List (Uuid × KanbanColumn)) (caseId : Uuid) : KanbanColumn :=
  (((moves.filter fun move => decide (move.1 = caseId)).getLast?).map Prod.snd).getD .backlog

/-- **What holds of the board after a run**: its cases are those added, each once and in the column of its
last move; a move of another case is an error that changes nothing; and the counts and lists of all cases are
right. -/
structure BoardSound (calls : List KanbanCall) : Prop where
  contents : (items (boardAfter calls).columns).Perm (added calls)
  placed : ∀ case ∈ added calls, ∀ column, (shelf (boardAfter calls).columns column).count case =
    if column = lastTarget (movesMade calls) case.id then 1 else 0
  moves : ∀ caseId ∈ (added calls).map EscalationCase.id, ∀ target,
    (moveCase (boardAfter calls) caseId target).1 = .ok ()
  refuses : ∀ caseId ∉ (added calls).map EscalationCase.id, ∀ target,
    moveCase (boardAfter calls) caseId target =
      (.error (.caseNotFound caseId.display), boardAfter calls)
  total : (boardAfter calls).totalCases = (added calls).length
  listed : (casesByPriority (boardAfter calls)).Perm (added calls)
  urgent : (casesByPriority (boardAfter calls)).Pairwise fun a b => b.priority ≤ a.priority

/-! ### One call -/

section Calls

variable {board : KanbanBoard} {cases : List EscalationCase} {moves : List (Uuid × KanbanColumn)}
  {case : EscalationCase} {caseId : Uuid}

/-- **What the columns hold**: the cases, each in the column of its last move; and only these were moved. -/
structure Placed (board : KanbanBoard) (moves : List (Uuid × KanbanColumn)) (cases : List EscalationCase) :
    Prop where
  contents : (items board.columns).Perm cases
  placed : ∀ column, ∀ case ∈ shelf board.columns column, column = lastTarget moves case.id
  known : ∀ move ∈ moves, move.1 ∈ cases.map EscalationCase.id

/-- A case that was not moved is in the backlog. -/
theorem lastTarget_of_unmoved (unmoved : ∀ move ∈ moves, move.1 ≠ caseId) :
    lastTarget moves caseId = .backlog := by
  have none : moves.filter (fun move => decide (move.1 = caseId)) = [] := by
    simpa using unmoved
  rw [lastTarget, none]
  rfl

theorem lastTarget_concat (moves : List (Uuid × KanbanColumn)) (move : Uuid × KanbanColumn)
    (caseId : Uuid) :
    lastTarget (moves ++ [move]) caseId = if move.1 = caseId then move.2 else lastTarget moves caseId := by
  unfold lastTarget
  by_cases same : move.1 = caseId
  · simp [same, List.filter_append]
  · simp [same, List.filter_append]

/-- **Adding a case** whose identifier is new. -/
theorem placed_addCase (placed : Placed board moves cases)
    (new : case.id ∉ cases.map EscalationCase.id) :
    Placed (board.addCase case) moves (cases ++ [case]) := by
  refine ⟨?_, fun column other here => ?_, fun move made => ?_⟩
  · refine (items_put board.columns .backlog case).trans ?_
    exact (placed.contents.cons case).trans (List.perm_append_singleton case cases).symm
  · rw [KanbanBoard.addCase, shelf_put] at here
    by_cases backlog : .backlog = column
    · rw [if_pos backlog] at here
      rcases List.mem_append.mp here with before | added
      · exact placed.placed column other before
      · obtain rfl := List.mem_singleton.mp added
        rw [← backlog, lastTarget_of_unmoved]
        exact fun move made same => new (same ▸ placed.known move made)
    · rw [if_neg backlog] at here
      exact placed.placed column other here
  · rw [List.map_append]
    exact List.mem_append_left _ (placed.known move made)

/-- **A move of another case** is refused. -/
theorem moveCase_unknown (placed : Placed board moves cases)
    (unknown : caseId ∉ cases.map EscalationCase.id) (target : KanbanColumn) :
    moveCase board caseId target = (.error (.caseNotFound caseId.display), board) := by
  have none : takeOut (fun case => decide (case.id = caseId)) board.columns = none := by
    refine takeOut_eq_none_iff.mpr fun case member => decide_eq_false fun same => ?_
    exact unknown (same ▸ List.mem_map_of_mem (placed.contents.mem_iff.mp member))
  rw [moveCase, none]

/-- **A move of one of the cases**, where identifiers are distinct. -/
theorem moveCase_known (placed : Placed board moves cases)
    (distinct : (cases.map EscalationCase.id).Nodup) (known : caseId ∈ cases.map EscalationCase.id)
    (target : KanbanColumn) :
    (moveCase board caseId target).1 = .ok () ∧
      Placed (moveCase board caseId target).2 (moves ++ [(caseId, target)]) cases := by
  cases found : takeOut (fun case => decide (case.id = caseId)) board.columns with
  | none =>
    obtain ⟨case, member, same⟩ := List.mem_map.mp known
    have fails := takeOut_eq_none_iff.mp found case (placed.contents.mem_iff.mpr member)
    exact absurd same (of_decide_eq_false fails)
  | some taken =>
    obtain ⟨case, columns⟩ := taken
    obtain ⟨meets, perm, kept⟩ := takeOut_eq_some found
    obtain rfl := of_decide_eq_true meets
    -- the cases that stay have other identifiers than the one taken out
    have others : case.id ∉ (items columns).map EscalationCase.id := by
      have whole := (perm.symm.trans placed.contents).map EscalationCase.id
      exact (List.nodup_cons.mp (whole.nodup_iff.mpr distinct)).1
    rw [moveCase, found]
    refine ⟨rfl, ?_, fun column other here => ?_, fun move made => ?_⟩
    · exact (items_put columns target case).trans (perm.symm.trans placed.contents)
    · rw [shelf_put] at here
      have stays : ∀ {stay}, stay ∈ shelf columns column →
          column = lastTarget (moves ++ [(case.id, target)]) stay.id := by
        intro stay member
        have apart : case.id ≠ stay.id := fun same =>
          others (same ▸ List.mem_map_of_mem (mem_items_iff.mpr ⟨column, member⟩))
        rw [lastTarget_concat, if_neg apart]
        exact placed.placed column stay ((kept column).subset member)
      by_cases same : target = column
      · rw [if_pos same] at here
        rcases List.mem_append.mp here with before | moved
        · exact stays before
        · obtain rfl := List.mem_singleton.mp moved
          rw [lastTarget_concat, if_pos rfl, same]
      · rw [if_neg same] at here
        exact stays here
    · rcases List.mem_append.mp made with before | last
      · exact placed.known move before
      · obtain rfl := List.mem_singleton.mp last
        exact known

end Calls

/-! ### Runs of calls -/

section Runs

variable {calls : List KanbanCall}

/-- The new board has no cases. -/
theorem placed_new : Placed .new [] [] := by
  have empty : items KanbanBoard.new.columns = [] := by decide +kernel
  refine ⟨empty ▸ .refl _, fun column case here => ?_, fun move made => absurd made List.not_mem_nil⟩
  have member : case ∈ items KanbanBoard.new.columns := mem_items_iff.mpr ⟨column, here⟩
  exact absurd (empty ▸ member) List.not_mem_nil

theorem boardAfter_concat (calls : List KanbanCall) (call : KanbanCall) :
    boardAfter (calls ++ [call]) = ((boardAfter calls).answer call).2 := by
  rw [boardAfter, run_append]
  rfl

theorem added_concat (calls : List KanbanCall) (call : KanbanCall) :
    added (calls ++ [call]) = added calls ++ call.added?.toList := by
  rw [added, List.filterMap_append]
  cases call with
  | add case => rfl
  | move caseId target => rfl

theorem movesMade_concat (calls : List KanbanCall) (call : KanbanCall) :
    movesMade (calls ++ [call]) =
      movesMade calls ++ (moveMade? (call, ((boardAfter calls).answer call).1)).toList := by
  rw [movesMade, answers_append, List.filterMap_append, ← movesMade]
  congr 1

/-- **What the columns hold after every run** that adds cases with distinct identifiers. -/
theorem placed_boardAfter (distinct : ((added calls).map EscalationCase.id).Nodup) :
    Placed (boardAfter calls) (movesMade calls) (added calls) := by
  induction calls using List.reverseRecOn with
  | nil => exact placed_new
  | append_singleton calls call ih =>
    rw [added_concat, List.map_append] at distinct
    have placed := ih distinct.of_append_left
    rw [boardAfter_concat, movesMade_concat, added_concat]
    cases call with
    | add case =>
      have new : case.id ∉ (added calls).map EscalationCase.id := fun before =>
        (List.nodup_append.mp distinct).2.2 _ before _ List.mem_cons_self rfl
      show Placed _ (movesMade calls ++ []) (added calls ++ [case])
      rw [List.append_nil]
      exact placed_addCase placed new
    | move caseId target =>
      show Placed (moveCase (boardAfter calls) caseId target).2
        (movesMade calls ++ (moveMade? (_, (moveCase (boardAfter calls) caseId target).1)).toList)
        (added calls ++ [])
      rw [List.append_nil]
      by_cases known : caseId ∈ (added calls).map EscalationCase.id
      · obtain ⟨answer, moved⟩ := moveCase_known placed distinct.of_append_left known target
        rw [answer]
        exact moved
      · rw [moveCase_unknown placed known target]
        show Placed (boardAfter calls) (movesMade calls ++ []) (added calls)
        rwa [List.append_nil]

/-- The number of cases is that of all items. -/
theorem totalCases_eq (board : KanbanBoard) : board.totalCases = (items board.columns).length := by
  rw [KanbanBoard.totalCases, items, List.length_flatten, List.map_map]
  rfl

/-- A case is in the column of its last move, once. -/
theorem count_shelf {board : KanbanBoard} {moves : List (Uuid × KanbanColumn)}
    {cases : List EscalationCase} (placed : Placed board moves cases) (once : cases.Nodup)
    {case : EscalationCase} (member : case ∈ cases) (column : KanbanColumn) :
    (shelf board.columns column).count case = if column = lastTarget moves case.id then 1 else 0 := by
  obtain ⟨own, here⟩ := mem_items_iff.mp (placed.contents.mem_iff.mpr member)
  have target := placed.placed own case here
  split_ifs with same
  · have all : (items board.columns).count case = 1 :=
      (placed.contents.count_eq case).trans (List.count_eq_one_of_mem once member)
    have some_here : 0 < (shelf board.columns column).count case :=
      List.count_pos_iff.mpr (same.trans target.symm ▸ here)
    rw [(items_perm board.columns column).count_eq, List.count_append] at all
    omega
  · exact List.count_eq_zero.mpr fun there => same (placed.placed column case there)

/-- The list by priority is sorted. -/
theorem pairwise_casesByPriority (board : KanbanBoard) :
    (casesByPriority board).Pairwise fun a b => b.priority ≤ a.priority := by
  have trans : ∀ a b c : EscalationCase, decide (b.priority ≤ a.priority) = true →
      decide (c.priority ≤ b.priority) = true → decide (c.priority ≤ a.priority) = true := by
    intro a b c less less'
    exact decide_eq_true ((of_decide_eq_true less').trans (of_decide_eq_true less))
  have total : ∀ a b : EscalationCase,
      (decide (b.priority ≤ a.priority) || decide (a.priority ≤ b.priority)) = true := by
    intro a b
    simpa using le_total b.priority a.priority
  exact (List.pairwise_mergeSort trans total (items board.columns)).imp of_decide_eq_true

/-- **The board loses and duplicates nothing**, in every run that adds cases with distinct identifiers. -/
theorem board_sound (calls : List KanbanCall)
    (distinct : ((added calls).map EscalationCase.id).Nodup) : BoardSound calls := by
  have placed := placed_boardAfter distinct
  refine ⟨placed.contents, ?_, ?_, ?_, ?_, ?_, pairwise_casesByPriority _⟩
  · exact fun case member column => count_shelf placed (distinct.of_map _) member column
  · exact fun caseId known target => (moveCase_known placed distinct known target).1
  · exact fun caseId unknown target => moveCase_unknown placed unknown target
  · rw [totalCases_eq, placed.contents.length_eq]
  · exact (List.mergeSort_perm _ _).trans placed.contents

end Runs

namespace Sample

/-- A case of some priority. -/
def caseOf (number : UInt8) (priority : CasePriority) : EscalationCase :=
  ⟨FixedBytes.fill 16 number, .standard, .open, priority, ["intake"], [], none, ⟨1000, 0⟩⟩

/-- Two cases are added; one is moved, moved to the column it is in, and a third one asked for. -/
def twoCases : List KanbanCall :=
  [.add (caseOf 1 .low), .add (caseOf 2 .critical), .move (FixedBytes.fill 16 1) .review,
    .move (FixedBytes.fill 16 1) .review, .move (FixedBytes.fill 16 3) .archived]

/-- The run has the law. -/
theorem twoCases_sound : BoardSound twoCases := board_sound twoCases (by decide +kernel)

end Sample

end Exochain.ExoEscalation
