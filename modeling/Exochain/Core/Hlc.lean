/-
**`exo-core` — the hybrid logical clock.**

`HybridClock` of `hlc.rs`, with the wall clock's answer as an argument of each call. Physical time
leads; within one millisecond a 32-bit counter orders the readings, and the counter is incremented
with saturation.

* `HybridClock.now` and `HybridClock.update` follow the branches of the source. A call that finds
  the wall clock ahead resets the counter; every other accepted call increments one, its own or the
  remote one (`HybridClock.incremented`).
* `readings_increase_iff_headroom` — **the exact law of the documented guarantee.** In a session of
  calls on a fresh clock every reading is later than all earlier ones and than the remote timestamp
  it merged, precisely when no call has to increment a counter that stands at its last value. The
  remote counter is chosen by the peer, so one message inside the drift window is enough
  (`last_counter_repeats`).
-/

import Exochain.Foundation.Run
import Exochain.Core.Types

set_option linter.unusedSectionVars false

namespace Exochain.ExoCore

open Foundation

/-! ### The clock -/

/-- The state of a clock: the last physical time and the counter within that millisecond. -/
@[ext]
structure HybridClock where
  physical : UInt64
  logical : UInt32
  deriving DecidableEq, Repr

/-- The next value of a 32-bit counter, which stays at the last one. -/
def saturatingSucc (counter : UInt32) : UInt32 := UInt32.ofNat (saturatingAdd 32 counter.toNat 1)

namespace HybridClock

/-- Maximum tolerable forward drift in milliseconds. -/
def maxDriftMs : UInt64 := 60000

/-- A new clock. -/
def new : HybridClock := ⟨0, 0⟩

/-- The current state as a timestamp, without advancing. -/
def current (clock : HybridClock) : Timestamp := ⟨clock.physical, clock.logical⟩

/-- Generate the next timestamp. -/
def now (wall : UInt64) (clock : HybridClock) : Timestamp × HybridClock :=
  let clock : HybridClock :=
    if wall > clock.physical then ⟨wall, 0⟩ else ⟨clock.physical, saturatingSucc clock.logical⟩
  (clock.current, clock)

/-- The remote timestamp is too far ahead of the wall clock. -/
def Drifts (wall : UInt64) (remote : Timestamp) : Prop :=
  saturatingAdd 64 wall.toNat maxDriftMs.toNat < remote.physicalMs.toNat

instance (wall : UInt64) (remote : Timestamp) : Decidable (Drifts wall remote) :=
  inferInstanceAs (Decidable (_ < _))

/-- The state after merging a remote timestamp. -/
def merge (wall : UInt64) (remote : Timestamp) (clock : HybridClock) : HybridClock :=
  if wall > clock.physical ∧ wall > remote.physicalMs then ⟨wall, 0⟩
  else if clock.physical = remote.physicalMs then
    ⟨clock.physical, saturatingSucc (max clock.logical remote.logical)⟩
  else if remote.physicalMs > clock.physical then
    ⟨remote.physicalMs, saturatingSucc remote.logical⟩
  else ⟨clock.physical, saturatingSucc clock.logical⟩

/-- Merge a remote timestamp and advance the local clock. -/
def update (wall : UInt64) (remote : Timestamp) (clock : HybridClock) :
    Except ExoError Timestamp × HybridClock :=
  if Drifts wall remote then (.error (.clockDrift remote.physicalMs maxDriftMs), clock)
  else
    let clock := clock.merge wall remote
    (.ok clock.current, clock)

/-! ### When a call advances the clock -/

/-- A call on a clock, with the answer of the wall clock. -/
inductive Call where
  | now (wall : UInt64)
  | update (wall : UInt64) (remote : Timestamp)

/-- The counter that a call has to increment, unless the wall clock leads or the call is
rejected. -/
def incremented (clock : HybridClock) : Call → Option UInt32
  | .now wall => if wall > clock.physical then none else some clock.logical
  | .update wall remote =>
    if Drifts wall remote ∨ (wall > clock.physical ∧ wall > remote.physicalMs) then none
    else if clock.physical = remote.physicalMs then some (max clock.logical remote.logical)
    else if remote.physicalMs > clock.physical then some remote.logical
    else some clock.logical

/-- The counter that a call has to increment is below its last value. -/
def Headroom (clock : HybridClock) (call : Call) : Prop :=
  ∀ counter ∈ clock.incremented call, counter < 0xFFFFFFFF

section Advance

variable {clock : HybridClock} {wall : UInt64} {remote : Timestamp}

theorem toNat_saturatingSucc (counter : UInt32) :
    (saturatingSucc counter).toNat = min (counter.toNat + 1) (2 ^ 32 - 1) := by
  have small : saturatingAdd 32 counter.toNat 1 < 2 ^ 32 := by
    unfold saturatingAdd
    omega
  rw [saturatingSucc, UInt32.toNat_ofNat_of_lt' small, saturatingAdd]

/-- A saturating increment exceeds its argument unless that is the last value. -/
theorem lt_saturatingSucc_iff {counter : UInt32} :
    counter < saturatingSucc counter ↔ counter < 0xFFFFFFFF := by
  rw [UInt32.lt_iff_toNat_lt, UInt32.lt_iff_toNat_lt, toNat_saturatingSucc]
  show _ ↔ counter.toNat < 2 ^ 32 - 1
  omega

/-- Passing both counters means passing the greater one. -/
theorem both_lt_saturatingSucc_max_iff {own other : UInt32} :
    own < saturatingSucc (max own other) ∧ other < saturatingSucc (max own other) ↔
      max own other < 0xFFFFFFFF := by
  rw [← lt_saturatingSucc_iff]
  have greater : max own other = if own ≤ other then other else own := rfl
  rw [greater]
  split
  · rename_i below
    exact ⟨fun both => both.2, fun passed => ⟨UInt32.lt_of_le_of_lt below passed, passed⟩⟩
  · rename_i above
    have below : other ≤ own := UInt32.le_of_lt (UInt32.not_le.mp above)
    exact ⟨fun both => both.1, fun passed => ⟨passed, UInt32.lt_of_le_of_lt below passed⟩⟩

/-- **`now` advances the clock** unless it increments a counter at its last value. -/
theorem current_lt_now_iff :
    clock.current < (clock.now wall).1 ↔ clock.Headroom (.now wall) := by
  unfold now Headroom incremented
  by_cases leads : wall > clock.physical
  · simp [leads, Timestamp.lt_iff, current]
  · simp [leads, Timestamp.lt_iff, current, lt_saturatingSucc_iff]

/-- **`update` passes both the clock and the remote timestamp** unless it increments a counter at
its last value. -/
theorem both_lt_merge_iff (accepted : ¬ Drifts wall remote) :
    clock.current < (clock.merge wall remote).current ∧
      remote < (clock.merge wall remote).current ↔ clock.Headroom (.update wall remote) := by
  unfold merge Headroom incremented
  by_cases leads : wall > clock.physical ∧ wall > remote.physicalMs
  · simp [leads, Timestamp.lt_iff, current]
  have counts : ¬ (Drifts wall remote ∨ (wall > clock.physical ∧ wall > remote.physicalMs)) := by
    rintro (drifts | ahead)
    · exact accepted drifts
    · exact leads ahead
  rw [if_neg leads]
  simp only [if_neg counts]
  by_cases same : clock.physical = remote.physicalMs
  · simp [same, Timestamp.lt_iff, current, both_lt_saturatingSucc_max_iff]
  by_cases behind : remote.physicalMs > clock.physical
  · simp [same, behind, Timestamp.lt_iff, current, lt_saturatingSucc_iff]
  · have ahead : remote.physicalMs < clock.physical := by
      simp only [gt_iff_lt, UInt64.lt_iff_toNat_lt, ← UInt64.toNat_inj] at same behind ⊢
      omega
    simp [same, behind, ahead, Timestamp.lt_iff, current, lt_saturatingSucc_iff]

end Advance

end HybridClock

/-! ### Sessions of calls -/

/-- A timestamp that a clock returned, with the remote timestamp that the call merged, if any. -/
structure Reading where
  remote : Option Timestamp
  returned : Timestamp
  deriving DecidableEq

/-- A clock and what its successful calls returned so far, oldest first. -/
structure ClockSession where
  clock : HybridClock
  log : List Reading

namespace ClockSession

open HybridClock

/-- A fresh clock that has returned nothing. -/
def new : ClockSession := ⟨.new, []⟩

/-- A call with its entry in the log; a rejected one has none. -/
def perform (session : ClockSession) : Call → ClockSession
  | .now wall =>
    let (returned, clock) := session.clock.now wall
    ⟨clock, session.log ++ [⟨none, returned⟩]⟩
  | .update wall remote =>
    match session.clock.update wall remote with
    | (.ok returned, clock) => ⟨clock, session.log ++ [⟨some remote, returned⟩]⟩
    | (.error _, clock) => ⟨clock, session.log⟩

/-- Every reading is later than all earlier ones, and than the remote timestamp it merged. -/
def Increasing (session : ClockSession) : Prop :=
  session.log.Pairwise (fun earlier later => earlier.returned < later.returned) ∧
    ∀ reading ∈ session.log, ∀ remote ∈ reading.remote, remote < reading.returned

/-- A rejected update leaves the clock as it was. -/
def RejectionKeeps (session : ClockSession) (call : Call) : Prop :=
  ∀ wall remote error, call = .update wall remote →
    (session.clock.update wall remote).1 = .error error →
    (session.perform call).clock = session.clock

/-- The clock stands at the last reading, or at zero if there is none. -/
def Current (session : ClockSession) : Prop :=
  session.clock.current = (session.log.getLast?.map Reading.returned).getD .zero

/-- **What one call does**: it enters the new state of the clock in the log, or it is a rejected
update and changes nothing. -/
theorem perform_cases (session : ClockSession) (call : Call) :
    (∃ wall, call = .now wall ∧
      session.perform call =
        ⟨(session.clock.now wall).2, session.log ++ [⟨none, (session.clock.now wall).2.current⟩]⟩) ∨
    (∃ wall remote, call = .update wall remote ∧ ¬ Drifts wall remote ∧
      session.perform call = ⟨session.clock.merge wall remote,
        session.log ++ [⟨some remote, (session.clock.merge wall remote).current⟩]⟩) ∨
    (∃ wall remote, call = .update wall remote ∧ Drifts wall remote ∧
      session.perform call = session) := by
  cases call with
  | now wall => exact .inl ⟨wall, rfl, rfl⟩
  | update wall remote =>
    by_cases drifts : Drifts wall remote
    · have rejected : session.clock.update wall remote =
          (.error (.clockDrift remote.physicalMs maxDriftMs), session.clock) := if_pos drifts
      exact .inr (.inr ⟨wall, remote, rfl, drifts, by rw [perform, rejected]⟩)
    · have accepted : session.clock.update wall remote =
          (.ok (session.clock.merge wall remote).current, session.clock.merge wall remote) :=
        if_neg drifts
      exact .inr (.inl ⟨wall, remote, rfl, drifts, by rw [perform, accepted]⟩)

theorem current_perform (session : ClockSession) (call : Call) (current : session.Current) :
    (session.perform call).Current := by
  rcases perform_cases session call with
    ⟨wall, rfl, after⟩ | ⟨wall, remote, rfl, _, after⟩ | ⟨wall, remote, rfl, _, after⟩
  · rw [after]
    simp [Current]
  · rw [after]
    simp [Current]
  · rw [after]
    exact current

/-- All readings so far are at most the clock's state. -/
theorem returned_le_current {session : ClockSession} (current : session.Current)
    (increasing : session.Increasing) {reading : Reading} (member : reading ∈ session.log) :
    reading.returned ≤ session.clock.current := by
  unfold Current at current
  obtain ⟨ordered, _⟩ := increasing
  -- by the last entry: the others are before it
  rcases List.eq_nil_or_concat session.log with empty | ⟨earlier, last, split⟩
  · rw [empty] at member
    exact absurd member List.not_mem_nil
  · rw [List.concat_eq_append] at split
    rw [split, List.getLast?_append, List.getLast?_singleton] at current
    rw [current]
    show reading.returned ≤ last.returned
    rw [split, List.pairwise_append] at ordered
    rw [split, List.mem_append, List.mem_singleton] at member
    rcases member with before | rfl
    · exact (ordered.2.2 reading before last (List.mem_singleton.mpr rfl)).le
    · exact le_rfl

/-- **A new reading keeps the log increasing** when it passes the clock's state, unless it is the
first, and the remote timestamp. -/
theorem increasing_entry_iff {session : ClockSession} (current : session.Current)
    (increasing : session.Increasing) (clock : HybridClock) (reading : Reading) :
    Increasing ⟨clock, session.log ++ [reading]⟩ ↔
      (session.log ≠ [] → session.clock.current < reading.returned) ∧
        ∀ remote ∈ reading.remote, remote < reading.returned := by
  unfold Increasing
  simp only [List.pairwise_append, List.mem_append, List.mem_singleton]
  constructor
  · rintro ⟨⟨_, _, later⟩, merged⟩
    refine ⟨fun some_entry => ?_, fun remote => merged reading (.inr rfl) remote⟩
    unfold Current at current
    rw [List.getLast?_eq_some_getLast some_entry] at current
    rw [current]
    exact later _ (List.getLast_mem some_entry) reading rfl
  · rintro ⟨passes, merged⟩
    refine ⟨⟨increasing.1, List.pairwise_singleton _ _, ?_⟩, ?_⟩
    · rintro earlier member _ rfl
      have below := returned_le_current current increasing member
      exact below.trans_lt (passes (List.ne_nil_of_mem member))
    · rintro entry (old | rfl)
      · exact increasing.2 entry old
      · exact merged

/-- A clock that has not moved has headroom. -/
theorem headroom_now_of_zero {clock : HybridClock} (start : clock.current = .zero) (wall : UInt64) :
    clock.Headroom (.now wall) := by
  have counter_eq : clock.logical = 0 := congrArg Timestamp.logical start
  intro counter member
  simp only [incremented] at member
  split at member
  · cases member
  · cases member
    rw [counter_eq]
    decide

/-- **One call keeps the log increasing exactly when its counter has headroom.** -/
theorem increasing_perform_iff (session : ClockSession) (call : Call) (current : session.Current)
    (increasing : session.Increasing) :
    (session.perform call).Increasing ↔ session.clock.Headroom call := by
  have atZero : session.log = [] → session.clock.current = .zero := by
    intro empty
    rw [current, empty]
    rfl
  rcases perform_cases session call with
    ⟨wall, rfl, after⟩ | ⟨wall, remote, rfl, accepted, after⟩ | ⟨wall, remote, rfl, drifts, after⟩
  · rw [after, increasing_entry_iff current increasing, ← current_lt_now_iff]
    constructor
    · rintro ⟨passes, _⟩
      by_cases empty : session.log = []
      · exact current_lt_now_iff.mpr (headroom_now_of_zero (atZero empty) wall)
      · exact passes empty
    · exact fun passes => ⟨fun _ => passes, by simp⟩
  · rw [after, increasing_entry_iff current increasing, ← both_lt_merge_iff accepted]
    constructor
    · rintro ⟨passes, merged⟩
      have remoteLt := merged remote rfl
      refine ⟨?_, remoteLt⟩
      by_cases empty : session.log = []
      · rw [atZero empty]
        exact (Timestamp.zero_le remote).trans_lt remoteLt
      · exact passes empty
    · rintro ⟨passes, remoteLt⟩
      refine ⟨fun _ => passes, ?_⟩
      rintro _ ⟨⟩
      exact remoteLt
  · rw [after]
    have noCounter : session.clock.incremented (.update wall remote) = none := if_pos (.inl drifts)
    refine ⟨fun _ counter member => ?_, fun _ => increasing⟩
    rw [noCounter] at member
    cases member

/-- **The clock's guarantee, exactly.** In a session of calls on a fresh clock every reading is
later than all earlier ones and than the remote timestamp it merged, and every rejected update
leaves the clock alone, precisely when no call has to increment a counter at its last value. -/
theorem readings_increase_iff_headroom (calls : List Call) :
    (Throughout perform Increasing new calls ∧ Along perform RejectionKeeps new calls) ↔
      Along perform (fun session call => session.clock.Headroom call) new calls := by
  have kept : Along perform RejectionKeeps new calls := by
    refine along_of_forall (fun session call => ?_) new calls
    rintro wall remote error rfl rejected
    rcases perform_cases session (.update wall remote) with
      ⟨_, impossible, _⟩ | ⟨_, _, same, accepted, _⟩ | ⟨_, _, _, _, unchanged⟩
    · cases impossible
    · cases same
      rw [update, if_neg accepted] at rejected
      cases rejected
    · rw [unchanged]
  have start : new.Increasing := ⟨List.Pairwise.nil, by simp [new]⟩
  rw [and_iff_left kept]
  exact throughout_iff_along current_perform increasing_perform_iff rfl start

/-- **One peer inside the drift window stops the clock.** A remote timestamp at the last counter
value is answered by itself, and so is every later call until the wall clock moves. -/
theorem last_counter_repeats :
    ¬ Throughout perform Increasing new
      [.update 1000 ⟨1000, 0xFFFFFFFF⟩, .now 1000] := by
  intro increasing
  have ordered := increasing.last.1
  exact absurd ordered (by decide)

end ClockSession

end Exochain.ExoCore
