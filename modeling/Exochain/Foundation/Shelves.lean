/-
**A table of lists.**

Items are kept in lists under keys. An item is put last under a key, or the first one that meets a test is
taken out, the keys searched in their order. Nothing gets lost: the items of the table are those before, and
the one put in or without the one taken out.

* `shelf`, `items` — the items under a key, and all of them in the order of the keys.
* `put`, `takeOut` — the two operations.
* `items_put` — one item more.
* `takeOut_eq_none_iff`, `takeOut_eq_some` — when nothing is found, and what is taken.
-/

import Exochain.Foundation.Collections

set_option linter.unusedSectionVars false

namespace Foundation.Shelves

variable {K V : Type} [Ord K] [Std.TransOrd K] [Std.LawfulEqOrd K] [DecidableEq K]

/-- The items under a key. -/
def shelf (table : BTreeMap K (List V)) (key : K) : List V := table[key]?.getD []

/-- The items of a table, in the order of the keys. -/
def items (table : BTreeMap K (List V)) : List V := (table.toList.map Prod.snd).flatten

/-- Put an item last under a key. -/
def put (table : BTreeMap K (List V)) (key : K) (item : V) : BTreeMap K (List V) :=
  table.upsert key [] (· ++ [item])

/-- Take the first item that meets a test out of a list. -/
def takeFrom (test : V → Bool) (list : List V) : Option (V × List V) := do
  let pos ← list.findIdx? test
  let item ← list[pos]?
  return (item, list.eraseIdx pos)

/-- Take the first item that meets a test out of a table, from the first key that has one. -/
def takeOut (test : V → Bool) (table : BTreeMap K (List V)) : Option (V × BTreeMap K (List V)) :=
  table.toList.findSome? fun entry =>
    (takeFrom test entry.2).map fun taken => (taken.1, table.insert entry.1 taken.2)

variable {table : BTreeMap K (List V)} {key other : K} {item : V} {test : V → Bool}

/-! ### Items and shelves -/

theorem mem_items_iff : item ∈ items table ↔ ∃ key, item ∈ shelf table key := by
  simp only [items, shelf, List.mem_flatten, List.mem_map, Prod.exists]
  constructor
  · rintro ⟨list, ⟨key, list, listed, rfl⟩, member⟩
    refine ⟨key, ?_⟩
    rwa [Std.ExtTreeMap.mem_toList_iff_getElem?_eq_some.mp listed, Option.getD_some]
  · rintro ⟨key, member⟩
    cases found : table[key]? with
    | none => simp [found] at member
    | some list =>
      rw [found, Option.getD_some] at member
      exact ⟨list, ⟨key, list, Std.ExtTreeMap.mem_toList_iff_getElem?_eq_some.mpr found, rfl⟩, member⟩

/-- The items under other keys. -/
def others (table : BTreeMap K (List V)) (key : K) : List V :=
  ((table.toList.filter fun entry => entry.1 ≠ key).map Prod.snd).flatten

theorem nodup_toList (table : BTreeMap K (List V)) : table.toList.Nodup := by
  refine List.Nodup.of_map Prod.fst ?_
  rw [Std.ExtTreeMap.map_fst_toList_eq_keys]
  exact Std.ExtTreeMap.nodup_keys

/-- **A list stored under a key** takes the place of the list there. -/
theorem items_insert (table : BTreeMap K (List V)) (key : K) (list : List V) :
    (items (table.insert key list)).Perm (list ++ others table key) := by
  have entries : (table.insert key list).toList.Perm
      ((key, list) :: table.toList.filter fun entry => entry.1 ≠ key) := by
    rw [List.perm_ext_iff_of_nodup (nodup_toList _)]
    · rintro ⟨other, list'⟩
      rw [Std.ExtTreeMap.mem_toList_iff_getElem?_eq_some, BTreeMap.getElem?_insert_eq_ite, List.mem_cons,
        List.mem_filter, Std.ExtTreeMap.mem_toList_iff_getElem?_eq_some]
      by_cases same : key = other
      · subst same
        simp [eq_comm]
      · simp [same, Ne.symm same]
    · refine List.nodup_cons.mpr ⟨?_, (nodup_toList table).filter _⟩
      simp
  exact (entries.map Prod.snd).flatten

/-- The items of a table are those under a key and those under other keys. -/
theorem items_perm (table : BTreeMap K (List V)) (key : K) :
    (items table).Perm (shelf table key ++ others table key) := by
  cases found : table[key]? with
  | some list =>
    have same : table.insert key list = table := by
      refine Std.ExtTreeMap.ext_getElem? fun other => ?_
      rw [BTreeMap.getElem?_insert_eq_ite]
      split_ifs with here
      · rw [← here, found]
      · rfl
    have split := items_insert table key list
    rw [same] at split
    rwa [shelf, found, Option.getD_some]
  | none =>
    have all : table.toList.filter (fun entry => entry.1 ≠ key) = table.toList := by
      refine List.filter_eq_self.mpr fun entry listed => decide_eq_true fun same => ?_
      have here := Std.ExtTreeMap.mem_toList_iff_getElem?_eq_some.mp listed
      rw [same, found] at here
      cases here
    rw [shelf, found, Option.getD_none, List.nil_append, others, all]
    exact .refl _

/-! ### One item more -/

theorem shelf_put (table : BTreeMap K (List V)) (key other : K) (item : V) :
    shelf (put table key item) other =
      if key = other then shelf table other ++ [item] else shelf table other :=
  BTreeMap.getD_upsert table key other [] _

/-- **Putting an item in** leaves one item more. -/
theorem items_put (table : BTreeMap K (List V)) (key : K) (item : V) :
    (items (put table key item)).Perm (item :: items table) := by
  have inserted := items_insert table key (shelf table key ++ [item])
  rw [List.append_assoc] at inserted
  exact inserted.trans (List.perm_middle.trans ((items_perm table key).symm.cons item))

/-! ### One item less -/

theorem takeFrom_eq_none_iff {list : List V} :
    takeFrom test list = none ↔ ∀ item ∈ list, test item = false := by
  rw [← List.findIdx?_eq_none_iff]
  unfold takeFrom
  cases found : list.findIdx? test with
  | none => simp
  | some pos =>
    have inside := (List.findIdx?_eq_some_iff_getElem.mp found).1
    simp [List.getElem?_eq_getElem inside]

/-- What is taken out of a list. -/
theorem takeFrom_eq_some {list rest : List V} (taken : takeFrom test list = some (item, rest)) :
    test item = true ∧ list.Perm (item :: rest) ∧ rest.Sublist list := by
  obtain ⟨pos, found, taken⟩ := Option.bind_eq_some_iff.mp taken
  obtain ⟨here, at_pos, taken⟩ := Option.bind_eq_some_iff.mp taken
  cases taken
  obtain ⟨inside, meets, -⟩ := List.findIdx?_eq_some_iff_getElem.mp found
  obtain ⟨-, rfl⟩ := List.getElem?_eq_some_iff.mp at_pos
  exact ⟨meets, (List.getElem_cons_eraseIdx_perm inside).symm, List.eraseIdx_sublist _ _⟩

theorem takeOut_eq_none_iff : takeOut test table = none ↔ ∀ item ∈ items table, test item = false := by
  simp only [takeOut, List.findSome?_eq_none_iff, Option.map_eq_none_iff, takeFrom_eq_none_iff, items,
    List.mem_flatten, List.mem_map, forall_exists_index, and_imp]
  constructor
  · rintro fails item _ entry listed rfl member
    exact fails entry listed item member
  · intro fails entry listed item member
    exact fails item entry.2 entry listed rfl member

/-- **What is taken out of a table**: an item that meets the test; no list gains anything. -/
theorem takeOut_eq_some {table' : BTreeMap K (List V)} (taken : takeOut test table = some (item, table')) :
    test item = true ∧ (items table).Perm (item :: items table') ∧
      ∀ key, (shelf table' key).Sublist (shelf table key) := by
  obtain ⟨⟨key, list⟩, listed, taken⟩ := List.exists_of_findSome?_eq_some taken
  obtain ⟨⟨item', rest⟩, found, same⟩ := Option.map_eq_some_iff.mp taken
  cases same
  obtain ⟨meets, perm, sublist⟩ := takeFrom_eq_some found
  have here : shelf table key = list := by
    rw [shelf, Std.ExtTreeMap.mem_toList_iff_getElem?_eq_some.mp listed, Option.getD_some]
  refine ⟨meets, ?_, fun other => ?_⟩
  · have before := items_perm table key
    rw [here] at before
    refine before.trans ((perm.append_right _).trans ?_)
    exact (items_insert table key rest).symm.cons _
  · rw [shelf, BTreeMap.getElem?_insert_eq_ite]
    split_ifs with same
    · rw [← same, here]
      exact sublist
    · exact List.Sublist.refl _

end Foundation.Shelves
