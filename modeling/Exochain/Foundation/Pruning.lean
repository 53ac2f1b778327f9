/-
**A log whose old items are dropped.**

Items are added at the end of a log, stamped in any order; a drop takes out the items that are stamped before
a cutoff. `added` is what a run adds, dropped later or not.

* `since_since` — a drop before a later cutoff does not show from the later one on.
* **`since_run`** — from a cutoff that no drop of a run was past, the log is as if nothing had been dropped.
-/

import Exochain.Foundation.Run

namespace Foundation.Pruning

variable {α T : Type*}

/-- A change of a log. -/
inductive Change (α T : Type*) where
  | add (items : List α)
  | drop (cutoff : T)

/-- What a change adds. -/
def Change.items : Change α T → List α
  | add items => items
  | drop _ => []

/-- What some changes add. -/
def added (changes : List (Change α T)) : List α := changes.flatMap Change.items

section Log

variable [LinearOrder T] (stamp : α → T)

/-- The items that are stamped at a cutoff or later. -/
def since (cutoff : T) (log : List α) : List α := log.filter fun item => cutoff ≤ stamp item

/-- The log after a change. -/
def step (log : List α) : Change α T → List α
  | .add items => log ++ items
  | .drop cutoff => since stamp cutoff log

variable {stamp}

theorem since_append (cutoff : T) (log more : List α) :
    since stamp cutoff (log ++ more) = since stamp cutoff log ++ since stamp cutoff more :=
  List.filter_append ..

/-- **An earlier cutoff does not show from a later one on.** -/
theorem since_since {early late : T} (before : early ≤ late) (log : List α) :
    since stamp late (since stamp early log) = since stamp late log := by
  unfold since
  rw [List.filter_filter]
  refine List.filter_congr fun item _ => ?_
  rw [Bool.eq_iff_iff, Bool.and_eq_true, decide_eq_true_iff, decide_eq_true_iff]
  exact and_iff_left_of_imp before.trans

/-- **What a run drops does not show** from a cutoff on that is no earlier than those of its drops. -/
theorem since_run {cutoff : T} {changes : List (Change α T)}
    (late : ∀ earlier, .drop earlier ∈ changes → earlier ≤ cutoff) (log : List α) :
    since stamp cutoff (run (step stamp) log changes) = since stamp cutoff (log ++ added changes) := by
  induction changes generalizing log with
  | nil => rw [run_nil, added, List.flatMap_nil, List.append_nil]
  | cons change changes ih =>
    have later := fun earlier member => late earlier (List.mem_cons_of_mem _ member)
    rw [run_cons, ih later, added, added, List.flatMap_cons]
    cases change with
    | add items =>
      show since stamp cutoff (log ++ items ++ _) = since stamp cutoff (log ++ (items ++ _))
      rw [List.append_assoc]
    | drop earlier =>
      show since stamp cutoff (since stamp earlier log ++ _) = since stamp cutoff (log ++ ([] ++ _))
      rw [since_append, since_since (late earlier List.mem_cons_self), ← since_append,
        List.nil_append]

end Log

end Foundation.Pruning
