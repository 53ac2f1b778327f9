/-
**Eviction of the oldest entries of a bounded table.**

Every entry of a table has a stamp. Before an entry is stored, the oldest one is taken out, again and
again, while the table has as many entries as its limit or more. The loop does not look at the key that is
stored; the fuel bounds its rounds, and no fuel is enough where the limit is zero.

* `makeRoom_of_lt`, `makeRoom_of_eq`, `makeRoom_zero` — what the loop does to a table within its limit.
* `InsertsLru` — **what storing an entry should do**: keep the limit, lose as many entries as have to go
  and no others, and lose none while an older one stays.
* **`insertsLru_iff`** — it does exactly if the limit is not zero and, in a full table, a key that is there
  already is that of the oldest entry.
-/

import Exochain.Foundation.Collections

set_option linter.unusedSectionVars false

namespace Foundation

section Eviction

variable {K V T : Type} [LinearOrder K] [Std.TransOrd K] [Std.LawfulEqOrd K] [LinearOrder T]
  (stamp : V → T)

/-- The key of the entry with the least stamp, the first one in the order of the keys. -/
def oldest (entries : BTreeMap K V) : Option K :=
  (entries.toList.argmin fun entry => stamp entry.2).map Prod.fst

/-- Take the oldest entry out. -/
def evictOldest (entries : BTreeMap K V) : BTreeMap K V :=
  match oldest stamp entries with
  | some key => entries.erase key
  | none => entries

/-- Take the oldest entry out while the table is full. -/
def makeRoom (limit : ℕ) : ℕ → BTreeMap K V → Option (BTreeMap K V)
  | 0, _ => none
  | fuel + 1, entries =>
    if limit ≤ entries.size then makeRoom limit fuel (evictOldest stamp entries) else some entries

/-- The keys that were in a table and are not any more. -/
def gone (before after : BTreeMap K V) : Finset K := before.keys.toFinset \ after.keys.toFinset

/-- **What storing an entry should do.** -/
structure InsertsLru (limit : ℕ) (before : BTreeMap K V) (key : K) (value : V)
    (after : BTreeMap K V) : Prop where
  inserted : after[key]? = some value
  bounded : after.size ≤ limit
  kept : ∀ other, other ≠ key → other ∉ gone before after → after[other]? = before[other]?
  gone_needed :
    (gone before after).card = before.size + (if key ∈ before then 0 else 1) - limit
  gone_oldest : ∀ old ∈ gone before after, ∀ v, before[old]? = some v →
    ∀ other v', before[other]? = some v' → other ∉ gone before after → stamp v ≤ stamp v'

variable {stamp}

theorem mem_gone_iff {before after : BTreeMap K V} {key : K} :
    key ∈ gone before after ↔ key ∈ before ∧ key ∉ after := by
  rw [gone, Finset.mem_sdiff, List.mem_toFinset, List.mem_toFinset, Std.ExtTreeMap.mem_keys,
    Std.ExtTreeMap.mem_keys]

/-! ### The oldest entry -/

/-- A table that is not empty has an oldest entry. -/
theorem exists_oldest (stamp : V → T) {entries : BTreeMap K V} (nonempty : entries.size ≠ 0) :
    ∃ key, oldest stamp entries = some key := by
  cases found : oldest stamp entries with
  | some key => exact ⟨key, rfl⟩
  | none =>
    have empty := List.argmin_eq_none.mp (Option.map_eq_none_iff.mp found)
    rw [← Std.ExtTreeMap.length_toList, empty] at nonempty
    exact absurd rfl nonempty

/-- The oldest entry is an entry, and no entry has a lesser stamp. -/
theorem oldest_spec {entries : BTreeMap K V} {key : K} (found : oldest stamp entries = some key) :
    ∃ value, entries[key]? = some value ∧
      ∀ (other : K) (v : V), entries[other]? = some v → stamp value ≤ stamp v := by
  obtain ⟨⟨_, value⟩, least, rfl⟩ := Option.map_eq_some_iff.mp found
  refine ⟨value, ?_, fun other v listed => ?_⟩
  · exact Std.ExtTreeMap.mem_toList_iff_getElem?_eq_some.mp (List.argmin_mem least)
  · have entry : (other, v) ∈ entries.toList :=
      Std.ExtTreeMap.mem_toList_iff_getElem?_eq_some.mpr listed
    exact List.le_of_mem_argmin (f := fun entry : K × V => stamp entry.2) entry least

theorem evictOldest_of_some {entries : BTreeMap K V} {key : K}
    (found : oldest stamp entries = some key) : evictOldest stamp entries = entries.erase key := by
  rw [evictOldest, found]

/-- Taking the oldest entry out leaves one entry less. -/
theorem size_evictOldest (stamp : V → T) {entries : BTreeMap K V} (nonempty : entries.size ≠ 0) :
    (evictOldest stamp entries).size + 1 = entries.size := by
  obtain ⟨key, found⟩ := exists_oldest stamp nonempty
  obtain ⟨value, stored, _⟩ := oldest_spec found
  have contained : entries.contains key = true :=
    Std.ExtTreeMap.contains_iff_mem.mpr (BTreeMap.mem_iff_exists.mpr ⟨value, stored⟩)
  rw [evictOldest_of_some found, Std.ExtTreeMap.size_erase, if_pos contained]
  omega

/-! ### The loop -/

theorem makeRoom_of_lt {limit fuel : ℕ} {entries : BTreeMap K V} (room : entries.size < limit) :
    makeRoom stamp limit (fuel + 1) entries = some entries := by
  rw [makeRoom, if_neg (by omega)]

/-- A full table loses its oldest entry. -/
theorem makeRoom_of_eq {limit fuel : ℕ} {entries : BTreeMap K V} (positive : 0 < limit)
    (full : entries.size = limit) :
    makeRoom stamp limit (fuel + 2) entries = some (evictOldest stamp entries) := by
  have nonempty : entries.size ≠ 0 := by omega
  have less := size_evictOldest stamp nonempty
  rw [makeRoom, if_pos full.ge, makeRoom_of_lt (by omega)]

/-- **With the limit zero the loop never ends.** -/
theorem makeRoom_zero (fuel : ℕ) (entries : BTreeMap K V) : makeRoom stamp 0 fuel entries = none := by
  induction fuel generalizing entries with
  | zero => rfl
  | succ fuel ih =>
    rw [makeRoom, if_pos (Nat.zero_le _)]
    exact ih _

/-- What the loop leaves of a table within its limit, whatever the fuel. -/
theorem eq_of_makeRoom_eq_some {limit fuel : ℕ} {entries left : BTreeMap K V}
    (within : entries.size ≤ limit) (done : makeRoom stamp limit fuel entries = some left) :
    0 < limit ∧ left = if entries.size < limit then entries else evictOldest stamp entries := by
  have positive : 0 < limit := by
    refine Nat.pos_of_ne_zero ?_
    rintro rfl
    rw [makeRoom_zero] at done
    cases done
  refine ⟨positive, ?_⟩
  cases fuel with
  | zero => cases done
  | succ fuel =>
    by_cases room : entries.size < limit
    · rw [if_pos room]
      rw [makeRoom_of_lt room] at done
      exact (Option.some.inj done).symm
    · rw [if_neg room]
      have nonempty : entries.size ≠ 0 := by omega
      have less := size_evictOldest stamp nonempty
      rw [makeRoom, if_pos (not_lt.mp room)] at done
      cases fuel with
      | zero => cases done
      | succ fuel =>
        rw [makeRoom_of_lt (by omega)] at done
        exact (Option.some.inj done).symm

/-- Taking the oldest entry out leaves the others as they were. -/
theorem getElem?_of_evictOldest {entries : BTreeMap K V} {key : K} {value : V}
    (found : (evictOldest stamp entries)[key]? = some value) : entries[key]? = some value := by
  unfold evictOldest at found
  split at found
  · exact (getElem?_erase_eq_some_iff.mp found).2
  · exact found

/-- What the loop leaves was there before, as it is. -/
theorem getElem?_of_makeRoom {limit fuel : ℕ} {entries left : BTreeMap K V}
    (done : makeRoom stamp limit fuel entries = some left) {key : K} {value : V}
    (found : left[key]? = some value) : entries[key]? = some value := by
  induction fuel generalizing entries with
  | zero => cases done
  | succ fuel ih =>
    rw [makeRoom] at done
    split at done
    · exact getElem?_of_evictOldest (ih done)
    · cases done
      exact found

/-! ### Storing an entry -/

/-- Storing an entry where there is room loses none. -/
theorem insertsLru_of_room {limit : ℕ} {before : BTreeMap K V} {key : K} {value : V}
    (room : before.size < limit) : InsertsLru stamp limit before key value (before.insert key value) := by
  have none : gone before (before.insert key value) = ∅ := by
    refine Finset.eq_empty_of_forall_notMem fun other member => ?_
    obtain ⟨present, absent⟩ := mem_gone_iff.mp member
    exact absent (Std.ExtTreeMap.mem_insert.mpr (.inr present))
  have grows := Std.ExtTreeMap.size_insert_le (t := before) (k := key) (v := value)
  refine ⟨Std.ExtTreeMap.getElem?_insert_self, by omega, ?_, ?_, ?_⟩
  · intro other different _
    exact BTreeMap.getElem?_insert_of_ne value different.symm
  · rw [none, Finset.card_empty]
    split <;> omega
  · intro old member
    rw [none] at member
    cases member

/-- What a full table loses: the oldest entry, unless it is the one that is stored. -/
theorem gone_insert_evictOldest {before : BTreeMap K V} {old : K} (key : K) (value : V)
    (found : oldest stamp before = some old) :
    gone before ((evictOldest stamp before).insert key value) = if key = old then ∅ else {old} := by
  obtain ⟨v, stored, _⟩ := oldest_spec found
  ext other
  rw [mem_gone_iff, evictOldest_of_some found, Std.ExtTreeMap.mem_insert, Std.ExtTreeMap.mem_erase,
    Std.compare_eq_iff_eq, not_or]
  have present : old ∈ before := BTreeMap.mem_iff_exists.mpr ⟨v, stored⟩
  by_cases same : key = old
  · subst same
    rw [if_pos rfl]
    simp only [ne_eq, Std.compare_eq_iff_eq, Finset.notMem_empty, iff_false]
    tauto
  · rw [if_neg same, Finset.mem_singleton]
    simp only [ne_eq, Std.compare_eq_iff_eq]
    constructor
    · rintro ⟨inside, _, lost⟩
      by_contra other
      exact lost ⟨fun equal => other equal.symm, inside⟩
    · rintro rfl
      exact ⟨present, same, fun kept => kept.1 rfl⟩

theorem size_insert_evictOldest {before : BTreeMap K V} {key : K} {value : V}
    (nonempty : before.size ≠ 0) :
    ((evictOldest stamp before).insert key value).size ≤ before.size := by
  have less := size_evictOldest stamp nonempty
  have grows := Std.ExtTreeMap.size_insert_le (t := evictOldest stamp before) (k := key) (v := value)
  omega

/-- A full table stores an entry as it should exactly if the key is new or that of the oldest entry. -/
theorem insertsLru_of_full_iff {limit : ℕ} {before : BTreeMap K V} {key : K} {value : V}
    (positive : 0 < limit) (full : before.size = limit) :
    InsertsLru stamp limit before key value ((evictOldest stamp before).insert key value) ↔
      (key ∈ before → oldest stamp before = some key) := by
  have nonempty : before.size ≠ 0 := by omega
  obtain ⟨old, found⟩ := exists_oldest stamp nonempty
  obtain ⟨v, stored, least⟩ := oldest_spec found
  have lost := gone_insert_evictOldest key value found
  constructor
  · intro lawful present
    have count := lawful.gone_needed
    rw [lost, if_pos present, full, Nat.add_zero, Nat.sub_self] at count
    split at count
    · next same => rw [found, same]
    · rw [Finset.card_singleton] at count
      cases count
  · intro fits
    refine ⟨Std.ExtTreeMap.getElem?_insert_self, ?_, ?_, ?_, ?_⟩
    · exact full ▸ size_insert_evictOldest (by omega)
    · intro other different notGone
      rw [BTreeMap.getElem?_insert_of_ne value different.symm, evictOldest_of_some found,
        Std.ExtTreeMap.getElem?_erase]
      refine if_neg fun same => notGone ?_
      have isOld := Std.compare_eq_iff_eq.mp same
      subst isOld
      rw [lost, if_neg different.symm]
      exact Finset.mem_singleton_self _
    · rw [lost, full]
      by_cases present : key ∈ before
      · have same := Option.some.inj (found.symm.trans (fits present))
        rw [if_pos present, if_pos same.symm, Finset.card_empty]
        omega
      · have different : key ≠ old := by
          rintro rfl
          exact present (BTreeMap.mem_iff_exists.mpr ⟨v, stored⟩)
        rw [if_neg present, if_neg different, Finset.card_singleton]
        omega
    · intro gone member v' here other v'' there _
      rw [lost] at member
      split at member
      · cases member
      · rw [Finset.mem_singleton.mp member, stored] at here
        cases here
        exact least other v'' there

/-- **When a bounded table stores an entry as it should.** -/
theorem insertsLru_iff {limit : ℕ} {before : BTreeMap K V} (within : before.size ≤ limit) (key : K)
    (value : V) :
    (∃ fuel left, makeRoom stamp limit fuel before = some left ∧
        InsertsLru stamp limit before key value (left.insert key value)) ↔
      0 < limit ∧ (before.size = limit → key ∈ before → oldest stamp before = some key) := by
  constructor
  · rintro ⟨fuel, left, done, lawful⟩
    obtain ⟨positive, rfl⟩ := eq_of_makeRoom_eq_some within done
    refine ⟨positive, fun full => ?_⟩
    rw [if_neg full.not_lt] at lawful
    exact (insertsLru_of_full_iff positive full).mp lawful
  · rintro ⟨positive, fits⟩
    rcases within.lt_or_eq with room | full
    · exact ⟨1, before, makeRoom_of_lt room, insertsLru_of_room room⟩
    · exact ⟨2, _, makeRoom_of_eq positive full, (insertsLru_of_full_iff positive full).mpr (fits full)⟩

end Eviction

end Foundation
