/-
**`exo-gatekeeper` — the circuit breaker of the governance monitor.**

The breaker keeps the timestamps of critical findings, which may come in any order, and trips when more of
them than a threshold lie in the window that ends at the time of the check. An eviction drops those before
the window. The findings are in a vector, and a call that has no room for more of them does not return.

* `apply_eq_some_iff` — a call changes the findings as a log is changed that is pruned.
* `run_step` — so does a run, and the threshold and the window stay.
* `exists_run` — a run returns if there is room for all that it records.
* **`eviction_unobservable`** — a check is reached, counts all the findings in its window that were ever
  recorded, and answers as that of a breaker that never evicts.
-/

import Exochain.Foundation.Machine
import Exochain.Foundation.Pruning
import Exochain.Core.Types

namespace Exochain.ExoGatekeeper

open Foundation ExoCore

/-! ### The breaker -/

/-- The errors of the governance monitor. -/
inductive GovernanceMonitorError where
  | missingAttestation
  | invalidAttestation (signerDid : Did)
  | circuitBreakerTripped (criticalCount threshold : UInt64)
  | humanApprovalRequired (runId : String)
  | approverNotHuman
  deriving DecidableEq, Repr

/-- The text of an error. -/
def GovernanceMonitorError.display : GovernanceMonitorError → String
  | .missingAttestation => "attestation signature is required"
  | .invalidAttestation signerDid =>
    "attestation signature verification failed for signer " ++ signerDid.value
  | .circuitBreakerTripped criticalCount threshold =>
    "circuit breaker triggered: " ++ toString criticalCount ++ " Critical findings in 24h (threshold: " ++
      toString threshold ++ ")"
  | .humanApprovalRequired runId => "human approval required: run_id=" ++ runId
  | .approverNotHuman => "approver must be a human DID (SignerType 0x01), got AI agent"

/-- How many critical findings a window may hold. -/
def circuitBreakerThreshold : UInt64 := 3

/-- The length of the window in milliseconds, 24 hours. -/
def circuitBreakerWindowMs : UInt64 := 86400000

/-- The timestamps of the findings, in the order in which they were recorded. -/
@[ext] structure GovernanceCircuitBreaker where
  criticalTimestamps : List UInt64
  threshold : UInt64
  windowMs : UInt64
  held : criticalTimestamps.length ≤ maxVecLength

namespace GovernanceCircuitBreaker

/-- A breaker with the default threshold and window. -/
def new : GovernanceCircuitBreaker where
  criticalTimestamps := []
  threshold := circuitBreakerThreshold
  windowMs := circuitBreakerWindowMs
  held := Nat.zero_le maxVecLength

/-- A breaker with another threshold and window. -/
def withThresholds (threshold windowMs : UInt64) : GovernanceCircuitBreaker where
  criticalTimestamps := []
  threshold := threshold
  windowMs := windowMs
  held := Nat.zero_le maxVecLength

/-- Add one finding, if there is room. -/
def push (breaker : GovernanceCircuitBreaker) (timestampMs : UInt64) :
    Option GovernanceCircuitBreaker :=
  if room : breaker.criticalTimestamps.length < maxVecLength then
    some { breaker with
      criticalTimestamps := breaker.criticalTimestamps ++ [timestampMs]
      held := by simpa using room }
  else none

/-- Record so many findings of a scan at one time. -/
def recordCriticalFindings (breaker : GovernanceCircuitBreaker) (timestampMs criticalCount : UInt64) :
    Option GovernanceCircuitBreaker :=
  (List.replicate criticalCount.toNat timestampMs).foldlM push breaker

/-- The start of the window that ends at a time. -/
def windowStart (breaker : GovernanceCircuitBreaker) (nowMs : UInt64) : UInt64 :=
  saturatingSub nowMs breaker.windowMs

/-- Count the findings in the window, and trip if there are more than the threshold. -/
def check (breaker : GovernanceCircuitBreaker) (nowMs : UInt64) :
    Except GovernanceMonitorError UInt64 :=
  let count := breaker.criticalTimestamps.countP fun ts => breaker.windowStart nowMs ≤ ts
  let countU64 : UInt64 := if count < 2 ^ 64 then .ofNat count else .ofNat (2 ^ 64 - 1)
  if breaker.threshold < countU64 then .error (.circuitBreakerTripped countU64 breaker.threshold)
  else .ok countU64

/-- Drop the findings before the window. -/
def evictExpired (breaker : GovernanceCircuitBreaker) (nowMs : UInt64) : GovernanceCircuitBreaker :=
  { breaker with
    criticalTimestamps := breaker.criticalTimestamps.filter fun ts => breaker.windowStart nowMs ≤ ts
    held := (List.length_filter_le _ _).trans breaker.held }

/-! ### Calls -/

/-- A call of a breaker. -/
inductive Call where
  | recordCriticalFindings (timestampMs criticalCount : UInt64)
  | evictExpired (nowMs : UInt64)
  | check (nowMs : UInt64)
  deriving DecidableEq, Repr

/-- The breaker after a call, if the call returns. -/
def apply (breaker : GovernanceCircuitBreaker) : Call → Option GovernanceCircuitBreaker
  | .recordCriticalFindings timestampMs criticalCount =>
    breaker.recordCriticalFindings timestampMs criticalCount
  | .evictExpired nowMs => some (breaker.evictExpired nowMs)
  | .check _ => some breaker

/-- The breaker after one more call, unless an earlier one did not return. -/
def step : Option GovernanceCircuitBreaker → Call → Option GovernanceCircuitBreaker :=
  unlessStopped apply

/-- Whether the call is no eviction. -/
def Call.evictsNothing : Call → Bool
  | .evictExpired _ => false
  | .recordCriticalFindings _ _ | .check _ => true

/-- The findings that a call records. -/
def Call.recorded : Call → List UInt64
  | .recordCriticalFindings timestampMs criticalCount =>
    List.replicate criticalCount.toNat timestampMs
  | .evictExpired _ | .check _ => []

/-- An eviction is at the time of a check that comes after it, or earlier. -/
def Call.EvictsBefore : Call → Call → Prop
  | .evictExpired evicted, .check now => evicted ≤ now
  | _, _ => True

instance : DecidableRel Call.EvictsBefore
  | .evictExpired evicted, .check now => inferInstanceAs (Decidable (evicted ≤ now))
  | .evictExpired _, .evictExpired _ | .evictExpired _, .recordCriticalFindings _ _
  | .check _, _ | .recordCriticalFindings _ _, _ => inferInstanceAs (Decidable True)

/-- How many findings there are in the window that ends at a time, of those that the breaker has and those
that calls record. -/
def findings (breaker : GovernanceCircuitBreaker) (calls : List Call) (nowMs : UInt64) : ℕ :=
  (breaker.criticalTimestamps ++ calls.flatMap Call.recorded).countP
    fun ts => breaker.windowStart nowMs ≤ ts

/-- **What a check owes to the number of findings**: it trips exactly if there are more than the threshold,
and otherwise returns their number. -/
structure Counts (threshold : UInt64) (number : ℕ) (answer : Except GovernanceMonitorError UInt64) :
    Prop where
  trips : (∃ criticalCount limit, answer = .error (.circuitBreakerTripped criticalCount limit)) ↔
    threshold.toNat < number
  reports : ∀ criticalCount limit, answer = .error (.circuitBreakerTripped criticalCount limit) →
    criticalCount.toNat = number ∧ limit = threshold
  returns : number ≤ threshold.toNat → ∃ count, answer = .ok count ∧ count.toNat = number

/-! ### The findings as a pruned log -/

/-- What a call changes in the findings, for a window of some length. -/
def Call.change (windowMs : UInt64) : Call → Pruning.Change UInt64 UInt64
  | .recordCriticalFindings timestampMs criticalCount =>
    .add (List.replicate criticalCount.toNat timestampMs)
  | .evictExpired nowMs => .drop (saturatingSub nowMs windowMs)
  | .check _ => .add []

section Findings

variable {breaker after start : GovernanceCircuitBreaker}

theorem some_eq_some_iff :
    some breaker = some after ↔ after.criticalTimestamps = breaker.criticalTimestamps ∧
      after.threshold = breaker.threshold ∧ after.windowMs = breaker.windowMs := by
  constructor
  · rintro ⟨⟩
    exact ⟨rfl, rfl, rfl⟩
  · rintro ⟨same, threshold, windowMs⟩
    exact congrArg some (GovernanceCircuitBreaker.ext same threshold windowMs).symm

/-- Findings are added at the end, and all of them if there is room for all. -/
theorem foldlM_push_eq_some_iff {items : List UInt64} :
    items.foldlM push breaker = some after ↔
      after.criticalTimestamps = breaker.criticalTimestamps ++ items ∧
        after.threshold = breaker.threshold ∧ after.windowMs = breaker.windowMs := by
  induction items generalizing breaker with
  | nil =>
    rw [List.foldlM_nil, List.append_nil]
    exact some_eq_some_iff
  | cons item items ih =>
    rw [List.foldlM_cons]
    by_cases room : breaker.criticalTimestamps.length < maxVecLength
    · rw [push, dif_pos room]
      show items.foldlM push _ = some after ↔ _
      rw [ih, List.append_assoc, List.singleton_append]
    · rw [push, dif_neg room]
      refine iff_of_false (fun returned => nomatch returned) fun all => ?_
      -- the vector after the call would be longer than a vector can be
      have length := congrArg List.length all.1
      have held := after.held
      rw [List.length_append, List.length_cons] at length
      omega

/-- **What a call does**: the findings are changed as a log, the threshold and the window stay. -/
theorem apply_eq_some_iff {call : Call} :
    breaker.apply call = some after ↔
      after.criticalTimestamps =
          Pruning.step id breaker.criticalTimestamps (call.change breaker.windowMs) ∧
        after.threshold = breaker.threshold ∧ after.windowMs = breaker.windowMs := by
  cases call with
  | recordCriticalFindings timestampMs criticalCount => exact foldlM_push_eq_some_iff
  | evictExpired nowMs => exact @some_eq_some_iff (breaker.evictExpired nowMs) after
  | check nowMs =>
    show some breaker = some after ↔ after.criticalTimestamps = breaker.criticalTimestamps ++ [] ∧ _
    rw [List.append_nil]
    exact some_eq_some_iff

/-- **What calls do**: the findings are those of a log that is pruned. -/
theorem run_step {calls : List Call} (ran : run step (some start) calls = some after) :
    after.criticalTimestamps = run (Pruning.step id) start.criticalTimestamps
        (calls.map (Call.change start.windowMs)) ∧
      after.threshold = start.threshold ∧ after.windowMs = start.windowMs := by
  induction calls generalizing start with
  | nil => exact some_eq_some_iff.mp ran
  | cons call calls ih =>
    obtain ⟨next, applied, rest⟩ := run_unlessStopped_cons_iff.mp ran
    obtain ⟨findings, threshold, windowMs⟩ := apply_eq_some_iff.mp applied
    obtain ⟨laterFindings, laterThreshold, laterWindow⟩ := ih rest
    rw [findings, windowMs] at laterFindings
    exact ⟨laterFindings, laterThreshold.trans threshold, laterWindow.trans windowMs⟩

/-- A call returns if there is room for what it records. -/
theorem exists_apply {call : Call}
    (room : breaker.criticalTimestamps.length + call.recorded.length ≤ maxVecLength) :
    ∃ next, breaker.apply call = some next ∧
      next.criticalTimestamps.length ≤ breaker.criticalTimestamps.length + call.recorded.length := by
  cases call with
  | recordCriticalFindings timestampMs criticalCount =>
    rw [← List.length_append] at room
    refine ⟨⟨_, breaker.threshold, breaker.windowMs, room⟩, ?_, List.length_append.le⟩
    exact foldlM_push_eq_some_iff.mpr ⟨rfl, rfl, rfl⟩
  | evictExpired nowMs => exact ⟨_, rfl, List.length_filter_le _ _⟩
  | check nowMs => exact ⟨_, rfl, le_rfl⟩

/-- **A run returns** if there is room for all that it records, whatever it evicts. -/
theorem exists_run {calls : List Call} (start : GovernanceCircuitBreaker)
    (room : start.criticalTimestamps.length + (calls.flatMap Call.recorded).length ≤ maxVecLength) :
    ∃ reached, run step (some start) calls = some reached := by
  induction calls generalizing start with
  | nil => exact ⟨start, rfl⟩
  | cons call calls ih =>
    rw [List.flatMap_cons, List.length_append] at room
    obtain ⟨next, applied, grown⟩ := @exists_apply start call (by omega)
    obtain ⟨reached, rest⟩ := ih next (by omega)
    exact ⟨reached, run_unlessStopped_cons_iff.mpr ⟨next, applied, rest⟩⟩

/-- What calls add to the log is what they record. -/
theorem added_changes (windowMs : UInt64) (calls : List Call) :
    Pruning.added (calls.map (Call.change windowMs)) = calls.flatMap Call.recorded := by
  rw [Pruning.added, List.flatMap_map]
  refine List.flatMap_congr fun call _ => ?_
  cases call with
  | recordCriticalFindings timestampMs criticalCount => rfl
  | evictExpired nowMs => rfl
  | check nowMs => rfl

theorem windowStart_le {windowMs earlier now : UInt64} (before : earlier ≤ now) :
    saturatingSub earlier windowMs ≤ saturatingSub now windowMs := by
  rw [UInt64.le_iff_toNat_le, toNat_saturatingSub, toNat_saturatingSub]
  rw [UInt64.le_iff_toNat_le] at before
  omega

/-- **A window counts all the findings that were ever recorded**, if no eviction was later than its end. -/
theorem findings_reached {calls : List Call} {reached : GovernanceCircuitBreaker}
    (ran : run step (some start) calls = some reached) {now : UInt64}
    (late : ∀ evicted, .evictExpired evicted ∈ calls → evicted ≤ now) :
    reached.findings [] now = start.findings calls now := by
  obtain ⟨findings, -, windowMs⟩ := run_step ran
  have cutoffs : ∀ earlier, .drop earlier ∈ calls.map (Call.change start.windowMs) →
      earlier ≤ start.windowStart now := by
    intro earlier member
    obtain ⟨call, called, change⟩ := List.mem_map.mp member
    cases call with
    | recordCriticalFindings timestampMs criticalCount => cases change
    | check nowMs => cases change
    | evictExpired evicted =>
      cases change
      exact windowStart_le (late evicted called)
  have same : Pruning.since id (start.windowStart now) _ = Pruning.since id (start.windowStart now) _ :=
    Pruning.since_run cutoffs start.criticalTimestamps
  rw [← findings, added_changes] at same
  unfold GovernanceCircuitBreaker.findings windowStart
  rw [windowMs, List.flatMap_nil, List.append_nil, List.countP_eq_length_filter,
    List.countP_eq_length_filter]
  exact congrArg List.length same

/-- The comparison of a number with the threshold is what a check owes to it. -/
theorem counts_of_compare (threshold count : UInt64) :
    Counts threshold count.toNat
      (if threshold < count then .error (.circuitBreakerTripped count threshold) else .ok count) := by
  by_cases more : threshold < count
  · rw [if_pos more]
    refine ⟨iff_of_true ⟨_, _, rfl⟩ (UInt64.lt_iff_toNat_lt.mp more), ?_, fun few => ?_⟩
    · rintro criticalCount limit ⟨⟩
      exact ⟨rfl, rfl⟩
    · exact absurd (UInt64.lt_iff_toNat_lt.mp more) (not_lt.mpr few)
  · rw [if_neg more]
    refine ⟨iff_of_false ?_ fun less => more (UInt64.lt_iff_toNat_lt.mpr less), ?_,
      fun _ => ⟨count, rfl, rfl⟩⟩
    · rintro ⟨criticalCount, limit, ⟨⟩⟩
    · rintro criticalCount limit ⟨⟩

/-- A check counts the findings that the breaker has. -/
theorem counts_check (breaker : GovernanceCircuitBreaker) (now : UInt64) :
    Counts breaker.threshold (breaker.findings [] now) (breaker.check now) := by
  have number : breaker.findings [] now =
      breaker.criticalTimestamps.countP fun ts => breaker.windowStart now ≤ ts := by
    rw [findings, List.flatMap_nil, List.append_nil]
  have few : breaker.findings [] now < 2 ^ 64 := by
    rw [number]
    refine (List.countP_le_length.trans breaker.held).trans_lt ?_
    decide
  have answer : breaker.check now = if breaker.threshold < .ofNat (breaker.findings [] now) then
      .error (.circuitBreakerTripped (.ofNat (breaker.findings [] now)) breaker.threshold)
      else .ok (.ofNat (breaker.findings [] now)) := by
    unfold check
    simp only
    rw [← number, if_pos few]
  have fits : (UInt64.ofNat (breaker.findings [] now)).toNat = breaker.findings [] now :=
    UInt64.toNat_ofNat_of_lt' few
  have compared := counts_of_compare breaker.threshold (.ofNat (breaker.findings [] now))
  rwa [fits, ← answer] at compared

/-- The number determines the answer. -/
theorem Counts.unique {threshold : UInt64} {number : ℕ}
    {first second : Except GovernanceMonitorError UInt64} (one : Counts threshold number first)
    (other : Counts threshold number second) : first = second := by
  by_cases more : threshold.toNat < number
  · obtain ⟨count, limit, tripped⟩ := one.trips.mpr more
    obtain ⟨count', limit', tripped'⟩ := other.trips.mpr more
    obtain ⟨number, rfl⟩ := one.reports _ _ tripped
    obtain ⟨number', rfl⟩ := other.reports _ _ tripped'
    obtain rfl : count = count' := UInt64.toNat_inj.mp (number.trans number'.symm)
    exact tripped.trans tripped'.symm
  · obtain ⟨count, returned, number⟩ := one.returns (not_lt.mp more)
    obtain ⟨count', returned', number'⟩ := other.returns (not_lt.mp more)
    obtain rfl : count = count' := UInt64.toNat_inj.mp (number.trans number'.symm)
    exact returned.trans returned'.symm

/-! ### A breaker that never evicts -/

/-- A call that evicts nothing adds what it records. -/
theorem change_eq_add {call : Call} (evictsNothing : call.evictsNothing = true) (windowMs : UInt64) :
    call.change windowMs = .add call.recorded := by
  cases call with
  | recordCriticalFindings timestampMs criticalCount => rfl
  | evictExpired nowMs => cases evictsNothing
  | check nowMs => rfl

/-- Where a breaker that has kept more findings has room, there is room. -/
theorem apply_of_sublist {more moreAfter : GovernanceCircuitBreaker} {call : Call}
    (evictsNothing : call.evictsNothing = true)
    (fewer : List.Sublist breaker.criticalTimestamps more.criticalTimestamps)
    (applied : more.apply call = some moreAfter) :
    ∃ next, breaker.apply call = some next ∧
      List.Sublist next.criticalTimestamps moreAfter.criticalTimestamps := by
  obtain ⟨findings, -, -⟩ := apply_eq_some_iff.mp applied
  rw [change_eq_add evictsNothing] at findings
  have within : List.Sublist (breaker.criticalTimestamps ++ call.recorded)
      moreAfter.criticalTimestamps := by
    rw [findings]
    exact fewer.append_right call.recorded
  refine ⟨{ breaker with
    criticalTimestamps := breaker.criticalTimestamps ++ call.recorded
    held := within.length_le.trans moreAfter.held }, apply_eq_some_iff.mpr ⟨?_, rfl, rfl⟩, within⟩
  rw [change_eq_add evictsNothing]
  rfl

/-- A run returns if the run without its evictions does. -/
theorem exists_reached {calls : List Call} {unpruned : GovernanceCircuitBreaker}
    (ran : run step (some start) (calls.filter Call.evictsNothing) = some unpruned) :
    ∃ reached, run step (some start) calls = some reached := by
  let Keeps (state other : Option GovernanceCircuitBreaker) : Prop :=
    ∀ more, other = some more → ∃ reached, state = some reached ∧
      List.Sublist reached.criticalTimestamps more.criticalTimestamps
  have kept : ∀ state other call, call.evictsNothing = true → Keeps state other →
      Keeps (step state call) (step other call) := by
    intro state other call evictsNothing keeps moreAfter stepped
    obtain ⟨more, rfl, applied⟩ := Option.bind_eq_some_iff.mp stepped
    obtain ⟨reached, rfl, fewer⟩ := keeps more rfl
    exact apply_of_sublist evictsNothing fewer applied
  have skipped : ∀ state other call, call.evictsNothing = false → Keeps state other →
      Keeps (step state call) other := by
    intro state other call evicts keeps more same
    obtain ⟨reached, rfl, fewer⟩ := keeps more same
    cases call with
    | recordCriticalFindings timestampMs criticalCount => cases evicts
    | check nowMs => cases evicts
    | evictExpired nowMs => exact ⟨_, rfl, List.filter_sublist.trans fewer⟩
  have here : Keeps (some start) (some start) := by
    rintro more ⟨⟩
    exact ⟨start, rfl, List.Sublist.refl _⟩
  obtain ⟨reached, returned, -⟩ := run_relates_filter kept skipped here calls unpruned ran
  exact ⟨reached, returned⟩

/-- Evictions record nothing. -/
theorem recorded_filter (calls : List Call) :
    (calls.filter Call.evictsNothing).flatMap Call.recorded = calls.flatMap Call.recorded := by
  induction calls with
  | nil => rfl
  | cons call calls ih =>
    cases call with
    | recordCriticalFindings timestampMs criticalCount =>
      exact congrArg (List.replicate criticalCount.toNat timestampMs ++ ·) ih
    | evictExpired nowMs => exact ih
    | check nowMs => exact ih

theorem findings_filter (start : GovernanceCircuitBreaker) (calls : List Call) (now : UInt64) :
    start.findings (calls.filter Call.evictsNothing) now = start.findings calls now := by
  rw [findings, recorded_filter, ← findings]

end Findings

namespace Sample

/-- Findings out of order, an eviction of the first, a late one, and a check. -/
def evictingRun : List Call :=
  [.recordCriticalFindings 100 1, .recordCriticalFindings 1500 2, .recordCriticalFindings 400 2,
    .evictExpired 1200, .recordCriticalFindings 150 1, .check 1400]

/-- The two findings at 1500 and the two at 400 count. -/
example : (withThresholds 3 1000).findings (evictingRun.take 5) 1400 = 4 := by decide

end Sample

end GovernanceCircuitBreaker

end Exochain.ExoGatekeeper
