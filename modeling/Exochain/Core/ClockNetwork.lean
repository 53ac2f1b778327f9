/-
**`exo-core` — the hybrid logical clocks of a network.**

Every node of the network keeps its own `HybridClock`; a node stamps its events with `now`, sends the
timestamps along, and merges what it receives with `update`. `is_before` is the causal ordering check
of `hlc.rs`. The wall clocks are free: they may stall, go back and disagree.

* **`happensBefore_isBefore`** — in any interleaving of fewer than `2 ^ 32` calls, what happened before
  has the lesser timestamp, whatever the network does to the messages. A counter counts events of the
  network, so the saturation that a forged remote counter reaches at once is not reached by honest ones.
* **`honest_never_drifts`** — the physical part of every timestamp is a wall reading that some node
  took, so a message is refused as drift only when some wall clock was more than the tolerance ahead of
  the receiver's; and no accepted timestamp is behind the receiver's wall clock.
-/

import Exochain.Foundation.LogicalClock
import Exochain.Core.Hlc

set_option linter.unusedSectionVars false

namespace Exochain.ExoCore

open Foundation

namespace HybridClock

/-- Causal ordering check. -/
def isBefore (a b : Timestamp) : Bool := decide (a < b)

/-- A node's clock: local events call `now`, receipts call `update`. -/
def ofNode : LogicalClock HybridClock UInt64 Timestamp where
  read := current
  tick wall clock := (clock.now wall).2
  merge wall remote clock :=
    match clock.update wall remote with
    | (.ok _, after) => some after
    | (.error _, _) => none

/-- A network of nodes with hybrid logical clocks. -/
abbrev Nodes (Node : Type) := Network Node HybridClock Timestamp

variable {Node : Type} [DecidableEq Node]

/-- The network after some calls, each with the answer of the node's wall clock. -/
def network (steps : List (NetworkStep Node UInt64)) : Nodes Node :=
  run (Network.perform ofNode) (Network.start HybridClock.new) steps

/-! ### One call -/

/-- The merge that `update` makes where it does not reject the remote timestamp. -/
theorem merge_ofNode_eq_some_iff {wall : UInt64} {remote : Timestamp} {clock after : HybridClock} :
    ofNode.merge wall remote clock = some after ↔
      ¬ Drifts wall remote ∧ clock.merge wall remote = after := by
  show (match clock.update wall remote with
    | (.ok _, after) => some after
    | (.error _, _) => none) = some after ↔ _
  unfold update
  by_cases drifts : Drifts wall remote
  · simp [drifts]
  · simp [drifts]

/-- A call whose counter has headroom takes the clock past its reading and the remote timestamp. -/
theorem passes_of_counters {network : Nodes Node} {step : NetworkStep Node UInt64}
    (own : ∀ node, (network.clocks node).logical < 0xFFFFFFFF)
    (sent : ∀ event ∈ network.history, event.time.logical < 0xFFFFFFFF) :
    network.Passes ofNode step := by
  cases step with
  | tick node wall =>
    refine current_lt_now_iff.mpr ?_
    intro counter member
    simp only [incremented] at member
    split at member
    · cases member
    · cases member
      exact own node
  | receive node wall index =>
    rintro source found after merged
    obtain ⟨accepted, rfl⟩ := merge_ofNode_eq_some_iff.mp merged
    refine (both_lt_merge_iff accepted).mpr ?_
    have remote := sent source (List.mem_of_getElem? found)
    intro counter member
    simp only [incremented] at member
    split at member
    · cases member
    split at member
    · cases member
      have greater : max (network.clocks node).logical source.time.logical =
          if (network.clocks node).logical ≤ source.time.logical then source.time.logical
          else (network.clocks node).logical := rfl
      rw [greater]
      split
      · exact remote
      · exact own node
    split at member
    · cases member
      exact remote
    · cases member
      exact own node

/-! ### Counters count events -/

section Counters

variable {count : ℕ} {counter : UInt32}

theorem saturatingSucc_le (small : counter.toNat ≤ count) :
    (saturatingSucc counter).toNat ≤ count + 1 := by
  rw [toNat_saturatingSucc]
  omega

/-- `now` adds at most one to the counter. -/
theorem logical_now_le {wall : UInt64} {clock : HybridClock} (small : clock.logical.toNat ≤ count) :
    (clock.now wall).2.logical.toNat ≤ count + 1 := by
  unfold now
  dsimp only
  split
  · exact Nat.zero_le _
  · exact saturatingSucc_le small

/-- `update` adds at most one to the greater counter. -/
theorem logical_merge_le {wall : UInt64} {remote : Timestamp} {clock : HybridClock}
    (small : clock.logical.toNat ≤ count) (remoteSmall : remote.logical.toNat ≤ count) :
    (clock.merge wall remote).logical.toNat ≤ count + 1 := by
  unfold merge
  split
  · exact Nat.zero_le _
  split
  · apply saturatingSucc_le
    have greater : max clock.logical remote.logical =
        if clock.logical ≤ remote.logical then remote.logical else clock.logical := rfl
    rw [greater]
    split
    · exact remoteSmall
    · exact small
  split
  · exact saturatingSucc_le remoteSmall
  · exact saturatingSucc_le small

end Counters

/-- No counter of the network exceeds the number of events. -/
theorem logical_le_length (steps : List (NetworkStep Node UInt64)) :
    (network steps).Everywhere ofNode fun count time => time.logical.toNat ≤ count := by
  have throughout : Throughout (Network.perform ofNode)
      (Network.Everywhere ofNode fun count time => time.logical.toNat ≤ count)
      (Network.start HybridClock.new : Nodes Node) steps := by
    refine Network.everywhere_of_merged _ (fun _ => True) ?_ ?_ ?_ (le_refl 0) fun _ _ => trivial
    · exact fun count time small => Nat.le_succ_of_le small
    · exact fun count wall clock _ small => logical_now_le small
    · intro count wall remote clock after _ remoteSmall small merged
      obtain ⟨-, rfl⟩ := merge_ofNode_eq_some_iff.mp merged
      exact logical_merge_le small remoteSmall
  exact throughout.last

/-- **Causality.** In any interleaving of fewer than `2 ^ 32` calls, an event that happened before
another one has the lesser timestamp: `is_before` answers yes. -/
theorem happensBefore_isBefore (steps : List (NetworkStep Node UInt64))
    (short : steps.length < 2 ^ 32) {earlier later : ℕ} {first second : ClockEvent Node Timestamp}
    (before : HappensBefore (network steps).history earlier later)
    (found : (network steps).history[earlier]? = some first)
    (foundLater : (network steps).history[later]? = some second) :
    isBefore first.time second.time = true := by
  have passes : Along (Network.perform ofNode) (fun network step => network.Passes ofNode step)
      (Network.start HybridClock.new : Nodes Node) steps := by
    intro performed step rest split
    obtain ⟨own, sent⟩ := logical_le_length performed
    have events : (network performed).history.length ≤ performed.length :=
      Network.length_history_le HybridClock.new performed
    have fewer : performed.length < 0xFFFFFFFF := by
      rw [split, List.length_append, List.length_cons] at short
      omega
    refine passes_of_counters (fun node => ?_) fun event member => ?_
    · have small := own node
      exact UInt32.lt_iff_toNat_lt.mpr (lt_of_le_of_lt small (lt_of_le_of_lt events fewer))
    · have small := sent event member
      exact UInt32.lt_iff_toNat_lt.mpr (lt_of_le_of_lt small (lt_of_le_of_lt events fewer))
  have ordered := Network.ordered_of_passes passes
  exact decide_eq_true (ordered earlier later first second before found foundLater)

/-- A receipt on a node whose wall clock is behind the sender's. -/
theorem happensBefore_isBefore_behind : isBefore ⟨5, 0⟩ ⟨5, 1⟩ = true := by
  have history : (network [NetworkStep.tick 0 5, .receive 1 3 0]).history =
      [⟨0, none, ⟨5, 0⟩⟩, ⟨1, some 0, ⟨5, 1⟩⟩] := by decide
  have before : HappensBefore (network [NetworkStep.tick 0 5, .receive 1 3 0]).history 0 1 := by
    rw [history]
    exact .single ⟨Nat.zero_lt_one, _, _, rfl, rfl, .inr rfl⟩
  exact happensBefore_isBefore [NetworkStep.tick 0 5, .receive 1 3 0] (by decide) before
    (by rw [history]; rfl) (by rw [history]; rfl)

/-! ### Physical time -/

/-- `now` never reads behind the wall clock. -/
theorem le_now (wall : UInt64) (clock : HybridClock) : wall ≤ (clock.now wall).1.physicalMs := by
  unfold now
  by_cases leads : wall > clock.physical
  · simp [leads, current]
  · rw [if_neg leads]
    exact UInt64.not_lt.mp leads

/-- A merge never reads behind the wall clock. -/
theorem le_merge (wall : UInt64) (remote : Timestamp) (clock : HybridClock) :
    wall ≤ (clock.merge wall remote).physical := by
  unfold merge
  split
  · exact UInt64.le_refl wall
  rename_i leads
  simp only [gt_iff_lt, UInt64.lt_iff_toNat_lt, UInt64.le_iff_toNat_le] at leads ⊢
  split
  · rename_i same
    rw [← UInt64.toNat_inj] at same
    show wall.toNat ≤ clock.physical.toNat
    omega
  split
  · rename_i same behind
    show wall.toNat ≤ remote.physicalMs.toNat
    omega
  · rename_i same behind
    rw [← UInt64.toNat_inj] at same
    show wall.toNat ≤ clock.physical.toNat
    omega

/-- The physical part of a reading is the wall clock's, or the clock's own. -/
theorem physical_now (wall : UInt64) (clock : HybridClock) :
    (clock.now wall).2.physical = wall ∨ (clock.now wall).2.physical = clock.physical := by
  unfold now
  dsimp only
  split
  · exact .inl rfl
  · exact .inr rfl

/-- The physical part of a merge is one of the three that meet. -/
theorem physical_merge (wall : UInt64) (remote : Timestamp) (clock : HybridClock) :
    (clock.merge wall remote).physical = wall ∨
      (clock.merge wall remote).physical = clock.physical ∨
      (clock.merge wall remote).physical = remote.physicalMs := by
  unfold merge
  split
  · exact .inl rfl
  split
  · exact .inr (.inl rfl)
  split
  · exact .inr (.inr rfl)
  · exact .inr (.inl rfl)

/-- The physical part of a timestamp is the start of time or a wall reading among those given. -/
def WallReading (walls : List UInt64) (time : Timestamp) : Prop :=
  time.physicalMs = 0 ∨ time.physicalMs ∈ walls

theorem WallReading.of_mem {walls : List UInt64} {time : Timestamp} {wall : UInt64}
    (given : wall ∈ walls) (same : time.physicalMs = wall) : WallReading walls time := by
  unfold WallReading
  rw [same]
  exact .inr given

theorem WallReading.of_eq {walls : List UInt64} {time time' : Timestamp}
    (reading : WallReading walls time) (same : time'.physicalMs = time.physicalMs) :
    WallReading walls time' := by
  unfold WallReading
  rw [same]
  exact reading

/-- Every physical time was read from a wall clock. -/
theorem wallReading_network (steps : List (NetworkStep Node UInt64)) :
    (network steps).Everywhere ofNode fun _ => WallReading (steps.map NetworkStep.input) := by
  have throughout : Throughout (Network.perform ofNode)
      (Network.Everywhere ofNode fun _ => WallReading (steps.map NetworkStep.input))
      (Network.start HybridClock.new : Nodes Node) steps := by
    refine Network.everywhere_of_merged _ (fun wall => wall ∈ steps.map NetworkStep.input) ?_ ?_ ?_
      (.inl rfl) fun step member => List.mem_map_of_mem member
    · exact fun count time reading => reading
    · intro count wall clock given reading
      rcases physical_now wall clock with same | same
      · exact .of_mem given same
      · exact reading.of_eq same
    · intro count wall remote clock after given remoteReading reading merged
      obtain ⟨-, rfl⟩ := merge_ofNode_eq_some_iff.mp merged
      rcases physical_merge wall remote clock with same | same | same
      · exact .of_mem given same
      · exact reading.of_eq same
      · exact remoteReading.of_eq same
  exact throughout.last

/-- **No honest message drifts.** In any interleaving the physical part of every timestamp is a wall
reading that some node took. So a receiver whose wall clock is within the tolerance of all readings
so far accepts every message, and its answer is not behind its own wall clock. -/
theorem honest_never_drifts (steps : List (NetworkStep Node UInt64)) (node : Node) (wall : UInt64)
    {sent : ℕ} {source : ClockEvent Node Timestamp}
    (found : (network steps).history[sent]? = some source) :
    WallReading (steps.map NetworkStep.input) source.time ∧
      ((∀ step ∈ steps, step.input.toNat ≤ saturatingAdd 64 wall.toNat maxDriftMs.toNat) →
        ∃ returned, (((network steps).clocks node).update wall source.time).1 = .ok returned ∧
          wall ≤ returned.physicalMs) := by
  have reading := (wallReading_network steps).2 source (List.mem_of_getElem? found)
  refine ⟨reading, fun agree => ?_⟩
  have accepted : ¬ Drifts wall source.time := by
    unfold Drifts
    rw [Nat.not_lt]
    rcases reading with start | taken
    · rw [start]
      exact Nat.zero_le _
    · obtain ⟨step, member, same⟩ := List.mem_map.mp taken
      rw [← same]
      exact agree step member
  refine ⟨(((network steps).clocks node).merge wall source.time).current, ?_, ?_⟩
  · rw [update, if_neg accepted]
  · exact le_merge wall source.time _

/-- A receiver half a minute behind the sender still accepts. -/
theorem honest_never_drifts_behind :
    ∃ returned, (HybridClock.new.update 30000 ⟨60000, 0⟩).1 = .ok returned ∧
      30000 ≤ returned.physicalMs := by
  have found : (network [NetworkStep.tick 0 60000]).history[0]? = some ⟨0, none, ⟨60000, 0⟩⟩ := by
    decide
  exact (honest_never_drifts [NetworkStep.tick 0 60000] 1 30000 found).2 (by decide)

end HybridClock

end Exochain.ExoCore
