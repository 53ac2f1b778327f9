/-
**`exo-legal` — retention of records.**

A record is kept for a number of days, its own or that of a rule for its classification; a sweep marks what is
past that for destruction, holds and destroyed records excepted. The number of milliseconds saturates.

* `due_iff` — what is due: also, at the last millisecond, a record of the first one that is to be kept longer
  than the milliseconds last.
* **`retention_exact`** — over a run of rules, sweeps and new records a record is marked exactly if it was or it
  was active and due in one of the sweeps, by the rules of then; nothing else about it changes.
* `sweeps_eq_latest` — sweeps under one policy come to the one at the latest time, in whatever order.
-/

import Exochain.Foundation.Run
import Exochain.Foundation.Blake3
import Exochain.Foundation.Collections
import Exochain.Core.Types

set_option linter.unusedSectionVars false

namespace Exochain.ExoLegal

open Foundation ExoCore

/-! ### Records and policies -/

/-- What is to become of a record. -/
inductive Disposition where
  | active
  | retentionHold
  | pendingDestruction
  | destroyed
  deriving DecidableEq, Repr

/-- The class of a record, a name. -/
abbrev Classification := String

/-- A record. -/
structure Record where
  id : Uuid
  contentHash : Hash256
  classification : Classification
  retentionPeriodDays : UInt64
  created : Timestamp
  disposition : Disposition
  deriving DecidableEq

/-- The days that records of a class are kept. -/
structure RetentionPolicy where
  rules : BTreeMap Classification UInt64

namespace RetentionPolicy

def new : RetentionPolicy := ⟨∅⟩

/-- Set the days for a class. -/
def addRule (policy : RetentionPolicy) (classification : Classification) (days : UInt64) : RetentionPolicy :=
  ⟨policy.rules.insert classification days⟩

end RetentionPolicy

def msPerDay : UInt64 := 86400000

namespace Record

/-- The days a record is kept. -/
def days (record : Record) (policy : RetentionPolicy) : UInt64 :=
  policy.rules[record.classification]?.getD record.retentionPeriodDays

/-- The milliseconds since a record was created. -/
def age (record : Record) (now : Timestamp) : ℕ :=
  (saturatingSub now.physicalMs record.created.physicalMs).toNat

/-- Whether a record has been kept for its days. -/
def due (record : Record) (policy : RetentionPolicy) (now : Timestamp) : Bool :=
  saturatingMul 64 (record.days policy).toNat msPerDay.toNat ≤ record.age now

/-- A record after a sweep. -/
def swept (record : Record) (policy : RetentionPolicy) (now : Timestamp) : Record :=
  if record.disposition = .destroyed ∨ record.disposition = .retentionHold then record
  else if record.due policy now then { record with disposition := .pendingDestruction }
  else record

end Record

/-- Mark what is due. -/
def applyRetention (records : List Record) (policy : RetentionPolicy) (now : Timestamp) : List Record :=
  records.map fun record => record.swept policy now

/-- A new record, with the identifier it is given. -/
def createRecord (blake3 : Blake3) (id : Uuid) (data : List UInt8) (classification : String)
    (retentionDays : UInt64) : Record :=
  ⟨id, Hash256.digest blake3 data, classification, retentionDays, .zero, .active⟩

/-! ### One sweep -/

section Sweep

variable {record : Record} {policy : RetentionPolicy} {now later : Timestamp}

/-- **What is due**: the days are over, or the milliseconds are. -/
theorem due_iff : record.due policy now = true ↔
    (record.days policy).toNat * 86400000 ≤ record.age now ∨ record.age now = 2 ^ 64 - 1 := by
  have bounded : record.age now < 2 ^ 64 := UInt64.toNat_lt _
  unfold Record.due saturatingMul
  rw [decide_eq_true_iff, min_le_iff]
  have day : msPerDay.toNat = 86400000 := rfl
  rw [day]
  omega

/-- A sweep leaves what the days are counted from. -/
theorem due_swept (later : Timestamp) (other : RetentionPolicy) :
    (record.swept policy now).due other later = record.due other later := by
  unfold Record.swept
  split
  · rfl
  · split
    · rfl
    · rfl

/-- **What a sweep does to a record.** -/
theorem swept_cases (record : Record) (policy : RetentionPolicy) (now : Timestamp) :
    (record.swept policy now = record ∧
      ¬ (record.disposition = .active ∧ record.due policy now = true)) ∨
    (record.swept policy now = { record with disposition := .pendingDestruction } ∧
      (record.disposition = .active ∨ record.disposition = .pendingDestruction) ∧
      record.due policy now = true) := by
  unfold Record.swept
  split
  · rename_i exempt
    refine .inl ⟨rfl, fun ⟨active, _⟩ => ?_⟩
    rw [active] at exempt
    rcases exempt with destroyed | hold
    · cases destroyed
    · cases hold
  · rename_i subject
    split
    · rename_i due
      refine .inr ⟨rfl, ?_, due⟩
      cases given : record.disposition with
      | active => exact .inl rfl
      | pendingDestruction => exact .inr rfl
      | retentionHold => exact absurd (.inr given) subject
      | destroyed => exact absurd (.inl given) subject
    · rename_i early
      exact .inl ⟨rfl, fun ⟨_, due⟩ => early due⟩

/-- What is due stays due. -/
theorem due_of_le (le : now.physicalMs ≤ later.physicalMs) (due : record.due policy now = true) :
    record.due policy later = true := by
  unfold Record.due Record.age at *
  rw [decide_eq_true_iff] at *
  rw [toNat_saturatingSub] at *
  rw [UInt64.le_iff_toNat_le] at le
  omega

end Sweep

/-! ### Sweeps under one policy -/

/-- A sweep after one that is no later is all that shows. -/
theorem swept_swept (record : Record) (policy : RetentionPolicy) {now later : Timestamp}
    (le : now.physicalMs ≤ later.physicalMs) :
    (record.swept policy now).swept policy later = record.swept policy later := by
  rcases swept_cases record policy now with ⟨same, -⟩ | ⟨marked, subject, due⟩
  · rw [same]
  · have dueLater := due_of_le le due
    have marks : record.swept policy later = { record with disposition := .pendingDestruction } := by
      unfold Record.swept
      rw [if_neg (by rcases subject with is | is <;> rw [is] <;> decide), if_pos dueLater]
    rw [marks, marked]
    unfold Record.swept
    rw [if_neg (by rintro (destroyed | hold) <;> contradiction), ite_self]

/-- A sweep that is no later than one before it does nothing. -/
theorem swept_of_le (record : Record) (policy : RetentionPolicy) {now later : Timestamp}
    (le : now.physicalMs ≤ later.physicalMs) :
    (record.swept policy later).swept policy now = record.swept policy later := by
  rcases swept_cases (record.swept policy later) policy now with ⟨same, -⟩ | ⟨marked, subject, due⟩
  · exact same
  · rw [due_swept] at due
    have dueLater := due_of_le le due
    rw [marked]
    rcases swept_cases record policy later with ⟨same, notDue⟩ | ⟨marked', -, -⟩
    · rw [same] at subject ⊢
      rcases subject with active | pending
      · exact absurd ⟨active, dueLater⟩ notDue
      · rw [← pending]
    · rw [marked']

/-- **Sweeps under one policy**, in whatever order, leave what the one at the latest time leaves. -/
theorem sweeps_eq_latest (records : List Record) (policy : RetentionPolicy) (now : Timestamp)
    (sweeps : List Timestamp) :
    ∃ latest ∈ now :: sweeps, (∀ sweep ∈ now :: sweeps, sweep.physicalMs ≤ latest.physicalMs) ∧
      (now :: sweeps).foldl (fun records sweep => applyRetention records policy sweep) records =
        applyRetention records policy latest := by
  induction sweeps using List.reverseRecOn with
  | nil => exact ⟨now, List.mem_cons_self, by simp, rfl⟩
  | append_singleton sweeps last ih =>
    obtain ⟨latest, listed, bounds, swept⟩ := ih
    rw [← List.cons_append, List.foldl_append, swept, List.foldl_cons, List.foldl_nil, applyRetention,
      applyRetention, List.map_map]
    rcases le_total latest.physicalMs last.physicalMs with le | le
    · refine ⟨last, by simp, fun sweep member => ?_, List.map_congr_left fun record _ => ?_⟩
      · rcases List.mem_append.mp member with earlier | same
        · exact (bounds sweep earlier).trans le
        · rw [List.mem_singleton.mp same]
      · exact swept_swept record policy le
    · refine ⟨latest, List.mem_append_left _ listed, fun sweep member => ?_,
        List.map_congr_left fun record _ => ?_⟩
      · rcases List.mem_append.mp member with earlier | same
        · exact bounds sweep earlier
        · rw [List.mem_singleton.mp same]
          exact le
      · exact swept_of_le record policy le

/-! ### Runs -/

/-- The records that are kept, and the policy. -/
structure Archive where
  policy : RetentionPolicy
  records : List Record

/-- A call on them. -/
inductive RetentionCall where
  | addRule (classification : Classification) (days : UInt64)
  | apply (now : Timestamp)
  | create (id : Uuid) (data : List UInt8) (classification : String) (retentionDays : UInt64)

namespace Archive

/-- The archive after a call. -/
def step (blake3 : Blake3) (archive : Archive) : RetentionCall → Archive
  | .addRule classification days => { archive with policy := archive.policy.addRule classification days }
  | .apply now => { archive with records := applyRetention archive.records archive.policy now }
  | .create id data classification retentionDays =>
    { archive with records := archive.records ++ [createRecord blake3 id data classification retentionDays] }

/-- In some sweep of the run the record is due, by the rules of then. -/
def DueAlong (blake3 : Blake3) (archive : Archive) (calls : List RetentionCall) (record : Record) : Prop :=
  ∃ before now after, calls = before ++ .apply now :: after ∧
    record.due (run (step blake3) archive before).policy now = true

section Run

variable {blake3 : Blake3} {archive : Archive} {call : RetentionCall} {calls : List RetentionCall}
  {record : Record} {index : ℕ}

theorem dueAlong_cons_iff : archive.DueAlong blake3 (call :: calls) record ↔
    (∃ now, call = .apply now ∧ record.due archive.policy now = true) ∨
    (archive.step blake3 call).DueAlong blake3 calls record := by
  constructor
  · rintro ⟨before, now, after, split, due⟩
    cases before with
    | nil =>
      obtain ⟨rfl, rfl⟩ := List.cons.inj split
      exact .inl ⟨now, rfl, due⟩
    | cons first before =>
      obtain ⟨rfl, rfl⟩ := List.cons.inj split
      exact .inr ⟨before, now, after, rfl, due⟩
  · rintro (⟨now, rfl, due⟩ | ⟨before, now, after, rfl, due⟩)
    · exact ⟨[], now, calls, rfl, due⟩
    · exact ⟨call :: before, now, after, rfl, due⟩

/-- A record after a call. -/
def next (policy : RetentionPolicy) (record : Record) : RetentionCall → Record
  | .apply now => record.swept policy now
  | _ => record

/-- **One call**, on a record. -/
theorem getElem?_step (blake3 : Blake3) (call : RetentionCall) (found : archive.records[index]? = some record) :
    (archive.step blake3 call).records[index]? = some (next archive.policy record call) := by
  cases call with
  | addRule classification days => exact found
  | apply now =>
    show (applyRetention archive.records archive.policy now)[index]? = _
    rw [applyRetention, List.getElem?_map, found]
    rfl
  | create id data classification retentionDays =>
    show (archive.records ++ _)[index]? = _
    rw [List.getElem?_append_left (List.getElem?_eq_some_iff.mp found).1]
    exact found

/-- What a run leaves of a record. -/
def Marked (blake3 : Blake3) (archive : Archive) (calls : List RetentionCall) (record : Record)
    (disposition : Disposition) : Prop :=
  (disposition = .pendingDestruction ↔ record.disposition = .pendingDestruction ∨
    (record.disposition = .active ∧ archive.DueAlong blake3 calls record)) ∧
  (disposition = .pendingDestruction ∨ disposition = record.disposition)

/-- A call that does not mark the record comes before a run. -/
theorem Marked.cons {disposition : Disposition}
    (marked : (archive.step blake3 call).Marked blake3 calls record disposition)
    (notDue : ∀ now, call = .apply now →
      ¬ (record.disposition = .active ∧ record.due archive.policy now = true)) :
    archive.Marked blake3 (call :: calls) record disposition := by
  refine ⟨marked.1.trans (or_congr_right (and_congr_right fun active => ?_)), marked.2⟩
  rw [dueAlong_cons_iff, or_iff_right]
  rintro ⟨now, same, due⟩
  exact notDue now same ⟨active, due⟩

/-- **Retention is exact**: over a run a record is marked exactly if it was or it was active and due in one of
the sweeps; else it keeps its disposition, and all else it keeps in any case. -/
theorem retention_exact (blake3 : Blake3) (archive : Archive) (calls : List RetentionCall) (index : ℕ)
    (record : Record) (found : archive.records[index]? = some record) :
    ∃ disposition, (run (step blake3) archive calls).records[index]? =
        some { record with disposition := disposition } ∧
      archive.Marked blake3 calls record disposition := by
  induction calls generalizing archive record with
  | nil =>
    refine ⟨record.disposition, found, ⟨.inl, ?_⟩, .inr rfl⟩
    rintro (pending | ⟨-, before, now, after, split, -⟩)
    · exact pending
    · cases before <;> cases split
  | cons call calls ih =>
    have stepped := getElem?_step blake3 call found
    cases call with
    | addRule classification days =>
      obtain ⟨disposition, last, marked⟩ := ih _ record stepped
      exact ⟨disposition, last, marked.cons fun now same => nomatch same⟩
    | create id data classification retentionDays =>
      obtain ⟨disposition, last, marked⟩ := ih _ record stepped
      exact ⟨disposition, last, marked.cons fun now same => nomatch same⟩
    | apply now =>
      rcases swept_cases record archive.policy now with ⟨same, notDue⟩ | ⟨marks, subject, due⟩
      · rw [next, same] at stepped
        obtain ⟨disposition, last, marked⟩ := ih _ record stepped
        refine ⟨disposition, last, marked.cons fun now' same' => ?_⟩
        cases same'
        exact notDue
      · rw [next, marks] at stepped
        obtain ⟨disposition, last, marked⟩ := ih _ _ stepped
        have pending : disposition = .pendingDestruction := marked.1.mpr (.inl rfl)
        refine ⟨disposition, last, iff_of_true pending ?_, .inl pending⟩
        rcases subject with active | already
        · exact .inr ⟨active, dueAlong_cons_iff.mpr (.inl ⟨now, rfl, due⟩)⟩
        · exact .inl already

end Run

/-- A record that is kept for thirty days. -/
def general : Record := createRecord Blake3.hash (.fill 16 1) [1] "general" 30

/-- It is kept for a year before a sweep on the thirty-first. -/
def calls : List RetentionCall := [.addRule "general" 365, .apply ⟨2678400000, 0⟩]

/-- What becomes of it is exact. -/
theorem retention_exact_year :
    ∃ disposition, (run (step Blake3.hash) ⟨.new, [general]⟩ calls).records[0]? =
        some { general with disposition := disposition } ∧
      Marked Blake3.hash ⟨.new, [general]⟩ calls general disposition :=
  retention_exact Blake3.hash ⟨.new, [general]⟩ calls 0 general rfl

end Archive

end Exochain.ExoLegal
