/-
**Ordered maps, ordered sets and quorums.**

`BTreeMap` and `BTreeSet` are the standard library's extensional ordered trees under the order of
the key type. This file adds what a program that keeps several indexed tables needs of them:

* `upsert` — look a key up, take a fresh value if it is missing, change it and store it back, with
  its lookup lemmas and the lookup after a whole loop of it (`getElem?_foldl_upsert`);
* `visit` — one round of a loop that rewrites the values of a table key by key, and what the whole loop
  does (`foldl_visit_keys`);
* `Lists`, `Files` — a secondary index that lists the identifiers of a table's records under a key of
  each: complete, and correct, with what inserting and erasing a record does to the two;
* `groupUnder` — items filed under their keys, and its groups in the order of the keys;
* `sortDedup` — sort, then drop repeated neighbours: the strictly increasing list of the same
  elements (`sortDedup_pairwise`, `mem_sortDedup`);
* `surplus` — the entries of a list that could be left out without losing a member, and what they say
  about the number of distinct members (`exists_distinct_iff`);
* `max?_concat_eq_iff` — the last element of a list as its greatest one;
* `forall_iff_of_zip`, `map_eq_map_iff_of_zip` — two lists of one length, compared where they differ;
* `exists_mem_both_of_card` — **the quorum argument**: two sets of members whose sizes exceed the
  membership by more than the number of excluded members share one that is not excluded.
-/

import Mathlib

set_option linter.unusedSectionVars false

namespace Foundation

/-- An ordered map. -/
abbrev BTreeMap (K V : Type) [Ord K] := Std.ExtTreeMap K V compare

/-- An ordered set. -/
abbrev BTreeSet (K : Type) [Ord K] := Std.ExtTreeSet K compare

/-! ### Lookups -/

namespace BTreeMap

variable {K V : Type} [Ord K] [Std.TransOrd K] [Std.LawfulEqOrd K]

theorem mem_iff_exists {map : BTreeMap K V} {key : K} :
    key ∈ map ↔ ∃ value, map[key]? = some value := by
  rw [Std.ExtTreeMap.mem_iff_isSome_getElem?, Option.isSome_iff_exists]

theorem not_mem_iff {map : BTreeMap K V} {key : K} : key ∉ map ↔ map[key]? = none := by
  rw [Std.ExtTreeMap.mem_iff_isSome_getElem?, Bool.not_eq_true, Option.isSome_eq_false_iff,
    Option.isNone_iff_eq_none]

theorem getElem?_insert_eq_ite (map : BTreeMap K V) (key other : K) (value : V) [DecidableEq K] :
    (map.insert key value)[other]? = if key = other then some value else map[other]? := by
  rw [Std.ExtTreeMap.getElem?_insert]
  by_cases same : key = other
  · rw [if_pos (Std.compare_eq_iff_eq.mpr same), if_pos same]
  · rw [if_neg (fun equal => same (Std.compare_eq_iff_eq.mp equal)), if_neg same]

theorem getElem?_insert_of_ne {map : BTreeMap K V} {key other : K} (value : V)
    (different : key ≠ other) : (map.insert key value)[other]? = map[other]? := by
  rw [Std.ExtTreeMap.getElem?_insert,
    if_neg (fun equal => different (Std.compare_eq_iff_eq.mp equal))]

/-- The values in the order of their keys. -/
def valuesInOrder (map : BTreeMap K V) : List V := map.toList.map Prod.snd

theorem mem_valuesInOrder_iff {map : BTreeMap K V} {value : V} :
    value ∈ map.valuesInOrder ↔ ∃ key : K, map[key]? = some value := by
  rw [valuesInOrder, List.mem_map]
  constructor
  · rintro ⟨⟨key, stored⟩, listed, rfl⟩
    exact ⟨key, Std.ExtTreeMap.mem_toList_iff_getElem?_eq_some.mp listed⟩
  · rintro ⟨key, stored⟩
    exact ⟨⟨key, value⟩, Std.ExtTreeMap.mem_toList_iff_getElem?_eq_some.mpr stored, rfl⟩

/-- The values that pass a test are as many as the keys under which such a value is stored. -/
theorem length_filter_valuesInOrder (map : BTreeMap K V) (test : V → Bool) :
    (map.valuesInOrder.filter test).length =
      {key : K | ∃ value, map[key]? = some value ∧ test value = true}.ncard := by
  classical
  let passing : List K := (map.toList.filter (test ∘ Prod.snd)).map Prod.fst
  have distinct : passing.Nodup := by
    refine List.pairwise_map.mpr ((Std.ExtTreeMap.distinct_keys_toList.filter _).imp fun apart same => ?_)
    exact apart (Std.compare_eq_iff_eq.mpr same)
  have keys : {key : K | ∃ value, map[key]? = some value ∧ test value = true} = passing.toFinset := by
    ext key
    simp only [passing, Set.mem_ofPred_eq, List.coe_toFinset, List.mem_map, List.mem_filter, Prod.exists,
      Std.ExtTreeMap.mem_toList_iff_getElem?_eq_some, Function.comp_apply, exists_and_right,
      exists_eq_right]
  rw [keys, Set.ncard_coe_finset, List.toFinset_card_of_nodup distinct, List.length_map, valuesInOrder,
    List.filter_map, List.length_map]

/-- Look a key up, take `fresh` if it is missing, change the value and store it. -/
def upsert (map : BTreeMap K V) (key : K) (fresh : V) (change : V → V) : BTreeMap K V :=
  map.insert key (change (map[key]?.getD fresh))

theorem getElem?_upsert_self (map : BTreeMap K V) (key : K) (fresh : V) (change : V → V) :
    (upsert map key fresh change)[key]? = some (change (map[key]?.getD fresh)) :=
  Std.ExtTreeMap.getElem?_insert_self

theorem getElem?_upsert_of_ne {map : BTreeMap K V} {key other : K} (fresh : V) (change : V → V)
    (different : key ≠ other) : (upsert map key fresh change)[other]? = map[other]? :=
  getElem?_insert_of_ne _ different

/-- The lookup with a default after an `upsert` with the same default. -/
theorem getD_upsert [DecidableEq K] (map : BTreeMap K V) (key other : K) (fresh : V)
    (change : V → V) :
    (upsert map key fresh change)[other]?.getD fresh =
      if key = other then change (map[other]?.getD fresh) else map[other]?.getD fresh := by
  by_cases same : key = other
  · subst same
    rw [if_pos rfl, getElem?_upsert_self, Option.getD_some]
  · rw [if_neg same, getElem?_upsert_of_ne _ _ same]

/-- Making an entry does not show in lookups with a default. -/
theorem getD_upsert_id [DecidableEq K] (map : BTreeMap K V) (key other : K) (fresh : V) :
    (upsert map key fresh id)[other]?.getD fresh = map[other]?.getD fresh := by
  rw [getD_upsert, id_eq, ite_self]

/-- Storing a value again under its own key changes nothing. -/
theorem upsert_id_eq_self {map : BTreeMap K V} {key : K} {fresh value : V}
    (found : map[key]? = some value) : upsert map key fresh id = map := by
  refine Std.ExtTreeMap.ext_getElem? fun other => ?_
  by_cases same : key = other
  · subst same
    rw [getElem?_upsert_self, found, Option.getD_some, id_eq]
  · exact getElem?_upsert_of_ne _ _ same

/-- Making the entry before changing it is the same as changing it at once. -/
theorem upsert_upsert_id (map : BTreeMap K V) (key : K) (fresh : V) (change : V → V) :
    upsert (upsert map key fresh id) key fresh change = upsert map key fresh change := by
  refine Std.ExtTreeMap.ext_getElem? fun other => ?_
  by_cases same : key = other
  · subst same
    simp only [getElem?_upsert_self, Option.getD_some, id_eq]
  · simp only [getElem?_upsert_of_ne _ _ same]

/-- **The table after a loop of `upsert` over distinct keys**: each visited key changed once, every
other key as it was. -/
theorem getElem?_foldl_upsert [DecidableEq K] (fresh : V) (change : V → V) (keys : List K)
    (distinct : keys.Nodup) (map : BTreeMap K V) (key : K) :
    (keys.foldl (fun table visited => upsert table visited fresh change) map)[key]? =
      if key ∈ keys then some (change (map[key]?.getD fresh)) else map[key]? := by
  induction keys generalizing map with
  | nil => simp
  | cons first keys ih =>
    obtain ⟨notAgain, distinct⟩ := List.nodup_cons.mp distinct
    rw [List.foldl_cons, ih distinct]
    by_cases same : key = first
    · subst same
      rw [if_neg notAgain, if_pos List.mem_cons_self, getElem?_upsert_self]
    · have different : first ≠ key := fun equal => same equal.symm
      rw [getElem?_upsert_of_ne _ _ different]
      simp only [List.mem_cons, same, false_or]

/-- One round of a loop over the keys of a table: add the value of the key up, and store it changed. -/
def visit {A : Type} (add : A → V → A) (change : V → V) (state : A × BTreeMap K V) (key : K) :
    A × BTreeMap K V :=
  match state.2[key]? with
  | some value => (add state.1 value, state.2.insert key (change value))
  | none => state

theorem foldl_visit {A : Type} [DecidableEq K] (add : A → V → A) (change : V → V)
    {entries : List (K × V)} (distinct : (entries.map Prod.fst).Nodup) (sum : A) (table : BTreeMap K V)
    (stored : ∀ entry ∈ entries, table[entry.1]? = some entry.2) :
    ((entries.map Prod.fst).foldl (visit add change) (sum, table)).1 =
        entries.foldl (fun sum entry => add sum entry.2) sum ∧
      ∀ key : K, ((entries.map Prod.fst).foldl (visit add change) (sum, table)).2[key]? =
        if key ∈ entries.map Prod.fst then table[key]?.map change else table[key]? := by
  induction entries generalizing sum table with
  | nil => simp
  | cons entry rest ih =>
    obtain ⟨notAgain, distinct⟩ := List.nodup_cons.mp distinct
    have here := stored entry List.mem_cons_self
    have visited : visit add change (sum, table) entry.1 =
        (add sum entry.2, table.insert entry.1 (change entry.2)) := by simp only [visit, here]
    have others : ∀ other ∈ rest,
        (table.insert entry.1 (change entry.2))[other.1]? = some other.2 := by
      intro other member
      have different : entry.1 ≠ other.1 :=
        fun same => notAgain (same ▸ List.mem_map_of_mem member)
      rw [getElem?_insert_of_ne _ different]
      exact stored other (List.mem_cons_of_mem _ member)
    obtain ⟨total, lookup⟩ := ih distinct (add sum entry.2) _ others
    rw [List.map_cons, List.foldl_cons, visited]
    refine ⟨total, fun key => ?_⟩
    rw [lookup, getElem?_insert_eq_ite]
    by_cases same : key = entry.1
    · subst same
      rw [if_neg notAgain, if_pos rfl, if_pos List.mem_cons_self, here, Option.map_some]
    · have different : entry.1 ≠ key := fun equal => same equal.symm
      rw [if_neg different]
      simp only [List.mem_cons, same, false_or]

/-- **A loop over the keys of a table that rewrites every value** and adds them up. -/
theorem foldl_visit_keys {A : Type} [DecidableEq K] (add : A → V → A) (change : V → V) (sum : A)
    (table : BTreeMap K V) :
    table.keys.foldl (visit add change) (sum, table) =
      (table.foldl (fun sum _ value => add sum value) sum, table.map fun _ value => change value) := by
  have keys : table.toList.map Prod.fst = table.keys := Std.ExtTreeMap.map_fst_toList_eq_keys
  have distinct : (table.toList.map Prod.fst).Nodup := keys ▸ Std.ExtTreeMap.nodup_keys
  obtain ⟨total, lookup⟩ := foldl_visit add change distinct sum table fun _ listed =>
    Std.ExtTreeMap.mem_toList_iff_getElem?_eq_some.mp listed
  rw [keys] at total lookup
  refine Prod.ext ?_ (Std.ExtTreeMap.ext_getElem? fun key => ?_)
  · rw [total, Std.ExtTreeMap.foldl_eq_foldl_toList]
  rw [lookup, Std.ExtTreeMap.getElem?_map]
  split
  · rfl
  · rename_i absent
    have missing : table[key]? = none :=
      not_mem_iff.mp fun member => absent (Std.ExtTreeMap.mem_keys.mpr member)
    rw [missing, Option.map_none]

end BTreeMap

/-! ### Secondary indexes -/

section SecondaryIndex

variable {I R G : Type} [Ord I] [Std.TransOrd I] [Std.LawfulEqOrd I] [DecidableEq I]
  [Ord G] [Std.TransOrd G] [Std.LawfulEqOrd G] [DecidableEq G]

/-- The identifiers that an index lists under a key. -/
def filedUnder (index : BTreeMap G (List I)) (key : G) : List I := index[key]?.getD []

/-- List an identifier under a key, last. -/
def fileUnder (index : BTreeMap G (List I)) (key : G) (id : I) : BTreeMap G (List I) :=
  index.upsert key [] (· ++ [id])

/-- Drop an identifier from the list under a key, if there is one. -/
def unfileUnder (index : BTreeMap G (List I)) (key : G) (id : I) : BTreeMap G (List I) :=
  index.modify key (·.filter (· ≠ id))

/-- Every record is listed under its own key. -/
def Lists (records : BTreeMap I R) (index : BTreeMap G (List I)) (owner : R → G) : Prop :=
  ∀ id record, records[id]? = some record → id ∈ filedUnder index (owner record)

/-- Every identifier listed under a key is that of a record of the key. -/
def Files (records : BTreeMap I R) (index : BTreeMap G (List I)) (owner : R → G) : Prop :=
  ∀ key, ∀ id ∈ filedUnder index key, ∃ record, records[id]? = some record ∧ owner record = key

theorem mem_filedUnder_fileUnder {index : BTreeMap G (List I)} {key other : G} {id id' : I} :
    id' ∈ filedUnder (fileUnder index key id) other ↔
      id' ∈ filedUnder index other ∨ key = other ∧ id' = id := by
  unfold filedUnder fileUnder
  rw [BTreeMap.getD_upsert]
  by_cases same : key = other
  · simp [same]
  · simp [same]

theorem mem_filedUnder_unfileUnder {index : BTreeMap G (List I)} {key other : G} {id id' : I} :
    id' ∈ filedUnder (unfileUnder index key id) other ↔
      id' ∈ filedUnder index other ∧ ¬ (key = other ∧ id' = id) := by
  unfold filedUnder unfileUnder
  simp only [Std.ExtTreeMap.getElem?_modify, Std.compare_eq_iff_eq]
  by_cases same : key = other
  · subst same
    cases index[key]? with
    | none => simp
    | some ids => simp
  · simp [same]

variable {records : BTreeMap I R} {index : BTreeMap G (List I)} {owner : R → G}

theorem getElem?_erase_eq_some_iff {id id' : I} {record : R} :
    (records.erase id)[id']? = some record ↔ id' ≠ id ∧ records[id']? = some record := by
  simp only [Std.ExtTreeMap.getElem?_erase, Std.compare_eq_iff_eq]
  by_cases same : id = id'
  · simp [same]
  · simp [same, Ne.symm same]

/-- A new record is listed under its own key, whatever record it replaces. -/
theorem Lists.insert (lists : Lists records index owner) (id : I) (record : R) :
    Lists (records.insert id record) (fileUnder index (owner record) id) owner := by
  intro id' record' found
  rw [BTreeMap.getElem?_insert_eq_ite] at found
  rw [mem_filedUnder_fileUnder]
  split_ifs at found with same
  · cases found
    exact .inr ⟨rfl, same.symm⟩
  · exact .inl (lists id' record' found)

theorem Lists.erase (lists : Lists records index owner) (id : I) (key : G) :
    Lists (records.erase id) (unfileUnder index key id) owner := by
  intro id' record' found
  obtain ⟨different, found⟩ := getElem?_erase_eq_some_iff.mp found
  rw [mem_filedUnder_unfileUnder]
  exact ⟨lists id' record' found, fun both => different both.2⟩

/-- **A new record leaves the index correct exactly if the record it replaces, if any, has its
key.** -/
theorem Files.insert_iff (lists : Lists records index owner) (files : Files records index owner)
    (id : I) (record : R) :
    Files (records.insert id record) (fileUnder index (owner record) id) owner ↔
      ∀ old, records[id]? = some old → owner old = owner record := by
  constructor
  · intro correct old found
    have listed : id ∈ filedUnder (fileUnder index (owner record) id) (owner old) :=
      mem_filedUnder_fileUnder.mpr (.inl (lists id old found))
    obtain ⟨now, foundNow, owned⟩ := correct _ _ listed
    rw [Std.ExtTreeMap.getElem?_insert_self] at foundNow
    cases foundNow
    exact owned.symm
  · intro replaced key id' listed
    rw [BTreeMap.getElem?_insert_eq_ite]
    rcases mem_filedUnder_fileUnder.mp listed with before | ⟨rfl, rfl⟩
    · obtain ⟨old, found, owned⟩ := files key id' before
      by_cases same : id = id'
      · subst same
        exact ⟨record, if_pos rfl, (replaced old found).symm.trans owned⟩
      · exact ⟨old, (if_neg same).trans found, owned⟩
    · exact ⟨record, if_pos rfl, rfl⟩

/-- A record that goes takes its entry along. -/
theorem Files.erase (files : Files records index owner) {id : I} {record : R}
    (found : records[id]? = some record) :
    Files (records.erase id) (unfileUnder index (owner record) id) owner := by
  intro key id' listed
  obtain ⟨before, kept⟩ := mem_filedUnder_unfileUnder.mp listed
  obtain ⟨old, foundOld, owned⟩ := files key id' before
  refine ⟨old, getElem?_erase_eq_some_iff.mpr ⟨?_, foundOld⟩, owned⟩
  rintro rfl
  rw [found] at foundOld
  cases foundOld
  exact kept ⟨owned, rfl⟩

/-- Erasing what is not there changes nothing. -/
theorem erase_eq_self {id : I} (missing : records[id]? = none) : records.erase id = records := by
  refine Std.ExtTreeMap.ext_getElem? fun id' => ?_
  simp only [Std.ExtTreeMap.getElem?_erase, Std.compare_eq_iff_eq]
  by_cases same : id = id'
  · rw [if_pos same, ← same, missing]
  · rw [if_neg same]

end SecondaryIndex

/-! ### Grouping -/

section Grouping

variable {A G : Type} [Ord G] [Std.TransOrd G] [Std.LawfulEqOrd G] [DecidableEq G]

/-- The items under their keys, those of one key in their order. -/
def groupUnder (key : A → G) (items : List A) : BTreeMap G (List A) :=
  items.foldl (fun groups item => fileUnder groups (key item) item) ∅

/-- The items under their keys; those without a key are left out. -/
def groupWhere (key : A → Option G) (items : List A) : BTreeMap G (List A) :=
  items.foldl (fun groups item =>
    match key item with
    | some k => fileUnder groups k item
    | none => groups) ∅

theorem filedUnder_foldl_groupWhere (key : A → Option G) (items : List A)
    (groups : BTreeMap G (List A)) (k : G) :
    filedUnder (items.foldl (fun groups item =>
        match key item with
        | some k => fileUnder groups k item
        | none => groups) groups) k =
      filedUnder groups k ++ items.filter (key · = some k) := by
  induction items generalizing groups with
  | nil => simp
  | cons item items ih =>
    rw [List.foldl_cons, ih, List.filter_cons]
    cases found : key item with
    | none => simp
    | some own =>
      have filed : filedUnder (fileUnder groups own item) k =
          if own = k then filedUnder groups k ++ [item] else filedUnder groups k :=
        BTreeMap.getD_upsert _ _ _ _ _
      dsimp only
      rw [filed]
      by_cases same : own = k
      · simp [same]
      · simp [same]

/-- The group of a key, where items may have none. -/
theorem filedUnder_groupWhere (key : A → Option G) (items : List A) (k : G) :
    filedUnder (groupWhere key items) k = items.filter (key · = some k) :=
  filedUnder_foldl_groupWhere key items ∅ k

theorem filedUnder_foldl_fileUnder (key : A → G) (items : List A) (groups : BTreeMap G (List A))
    (k : G) :
    filedUnder (items.foldl (fun groups item => fileUnder groups (key item) item) groups) k =
      filedUnder groups k ++ items.filter (key · = k) := by
  have partly := filedUnder_foldl_groupWhere (fun item => some (key item)) items groups k
  simpa only [Option.some.injEq] using partly

/-- The group of a key. -/
theorem filedUnder_groupUnder (key : A → G) (items : List A) (k : G) :
    filedUnder (groupUnder key items) k = items.filter (key · = k) :=
  filedUnder_foldl_fileUnder key items ∅ k

theorem mem_foldl_fileUnder {key : A → G} {items : List A} {groups : BTreeMap G (List A)} {k : G} :
    k ∈ items.foldl (fun groups item => fileUnder groups (key item) item) groups ↔
      k ∈ groups ∨ k ∈ items.map key := by
  induction items generalizing groups with
  | nil => simp
  | cons item items ih =>
    have filed : k ∈ fileUnder groups (key item) item ↔ key item = k ∨ k ∈ groups := by
      rw [fileUnder, BTreeMap.upsert, Std.ExtTreeMap.mem_insert, Std.compare_eq_iff_eq]
    rw [List.foldl_cons, ih, filed, List.map_cons, List.mem_cons, eq_comm, or_comm (a := k = key item),
      or_assoc]

/-- The keys of the groups are those of the items. -/
theorem mem_keys_groupUnder {key : A → G} {items : List A} {k : G} :
    k ∈ (groupUnder key items).keys ↔ k ∈ items.map key := by
  rw [Std.ExtTreeMap.mem_keys, groupUnder, mem_foldl_fileUnder,
    or_iff_right Std.ExtTreeMap.not_mem_empty]

/-- The groups in the order of their keys. -/
theorem values_groupUnder (key : A → G) (items : List A) :
    (groupUnder key items).toList.map Prod.snd =
      (groupUnder key items).keys.map fun k => items.filter (key · = k) := by
  rw [← Std.ExtTreeMap.map_fst_toList_eq_keys, List.map_map]
  refine List.map_congr_left fun ⟨k, group⟩ listed => ?_
  have found := Std.ExtTreeMap.mem_toList_iff_getElem?_eq_some.mp listed
  rw [Function.comp_apply, ← filedUnder_groupUnder, filedUnder, found, Option.getD_some]

end Grouping

/-! ### The keys that pass a test -/

section SortedKeys

variable {K V : Type} [LinearOrder K] [Std.TransOrd K]

/-- The keys that pass a test, sorted. -/
def BTreeMap.keysWhere (map : BTreeMap K V) (test : K → Bool) : List K :=
  (map.keys.filter test).mergeSort

theorem BTreeMap.mem_keysWhere [Std.LawfulEqOrd K] {map : BTreeMap K V} {test : K → Bool} {key : K} :
    key ∈ map.keysWhere test ↔ key ∈ map ∧ test key = true := by
  rw [keysWhere, List.mem_mergeSort, List.mem_filter, Std.ExtTreeMap.mem_keys]

/-- They come in strictly increasing order. -/
theorem BTreeMap.keysWhere_pairwise (map : BTreeMap K V) (test : K → Bool) :
    (map.keysWhere test).Pairwise (· < ·) := by
  have ordered : (map.keys.filter test).Pairwise (· < ·) :=
    (Std.ExtTreeMap.ordered_keys.imp fun less => compare_lt_iff_lt.mp less).filter test
  have sorted : (map.keys.filter test).Pairwise (fun a b => decide (a ≤ b) = true) :=
    ordered.imp fun less => decide_eq_true less.le
  rw [keysWhere, List.mergeSort_of_pairwise sorted]
  exact ordered

end SortedKeys

/-! ### Sets -/

namespace BTreeSet

variable {K : Type} [Ord K] [Std.TransOrd K] [Std.LawfulEqOrd K]

@[simp] theorem mem_insert_iff {set : BTreeSet K} {key other : K} :
    other ∈ set.insert key ↔ key = other ∨ other ∈ set := by
  rw [Std.ExtTreeSet.mem_insert, Std.compare_eq_iff_eq]

theorem nodup_toList (set : BTreeSet K) : set.toList.Nodup :=
  Std.ExtTreeSet.distinct_toList.imp fun distinct same =>
    distinct (Std.compare_eq_iff_eq.mpr same)

/-- The elements as a finite set. -/
def toFinset [DecidableEq K] (set : BTreeSet K) : Finset K := set.toList.toFinset

@[simp] theorem mem_toFinset [DecidableEq K] {set : BTreeSet K} {key : K} :
    key ∈ set.toFinset ↔ key ∈ set := by
  rw [toFinset, List.mem_toFinset, Std.ExtTreeSet.mem_toList]

theorem card_toFinset [DecidableEq K] (set : BTreeSet K) : set.toFinset.card = set.size := by
  rw [toFinset, List.toFinset_card_of_nodup (nodup_toList set), Std.ExtTreeSet.length_toList]

/-- What is left once repetitions are erased. -/
theorem nodup_eraseDups [BEq K] [LawfulBEq K] (items : List K) : items.eraseDups.Nodup := by
  induction h : items.length using Nat.strong_induction_on generalizing items with
  | _ length ih =>
    cases items with
    | nil => exact List.nodup_nil
    | cons item items =>
      rw [List.eraseDups_cons, List.nodup_cons]
      refine ⟨fun again => ?_, ih _ ?_ _ rfl⟩
      · simpa using List.mem_filter.mp (List.mem_eraseDups.mp again)
      · rw [← h, List.length_cons]
        exact Nat.lt_succ_of_le (List.length_filter_le _ _)

/-- Collect an item that was not seen before. -/
def collectNew (state : BTreeSet K × List K) (item : K) : BTreeSet K × List K :=
  if state.1.contains item then state else (state.1.insert item, state.2 ++ [item])

/-- A loop that collects what is new collects each item once, where it comes first. -/
theorem foldl_collectNew [BEq K] [LawfulBEq K] (seen : BTreeSet K) (collected items : List K) :
    (items.foldl collectNew (seen, collected)).2 =
      collected ++ (items.filter fun item => !seen.contains item).eraseDups := by
  induction items generalizing seen collected with
  | nil => exact (List.append_nil _).symm
  | cons item items ih =>
    rw [List.foldl_cons, collectNew, List.filter_cons]
    dsimp only
    cases known : seen.contains item with
    | true =>
      rw [if_pos rfl, ih]
      rfl
    | false =>
      rw [if_neg Bool.false_ne_true, ih, Bool.not_false, if_pos rfl, List.eraseDups_cons, List.append_assoc,
        List.singleton_append, List.filter_filter]
      congr 3
      refine List.filter_congr fun other _ => ?_
      rw [Bool.eq_iff_iff, Bool.and_eq_true, Bool.not_eq_true', Bool.not_eq_true', Bool.not_eq_true',
        beq_eq_false_iff_ne, ← Bool.not_eq_true, ← Bool.not_eq_true, Std.ExtTreeSet.contains_iff_mem,
        Std.ExtTreeSet.contains_iff_mem, mem_insert_iff, not_or]
      exact ⟨fun ⟨apart, fresh⟩ => ⟨fun same => apart same.symm, fresh⟩,
        fun ⟨apart, fresh⟩ => ⟨fun same => apart same.symm, fresh⟩⟩

end BTreeSet

/-! ### Sort, then drop repeated neighbours -/

section SortDedup

variable {α : Type*} [LinearOrder α]

/-- The elements in increasing order, repeated neighbours dropped. -/
def sortDedup (xs : List α) : List α := (xs.insertionSort (· ≤ ·)).destutter (· ≠ ·)

/-- Dropping repeated neighbours of an increasing list makes it strictly increasing. -/
theorem sortDedup_pairwise (xs : List α) : (sortDedup xs).Pairwise (· < ·) := by
  have weak : (sortDedup xs).Pairwise (· ≤ ·) :=
    (List.pairwise_insertionSort (· ≤ ·) xs).sublist (List.destutter_sublist _ _)
  have apart : (sortDedup xs).IsChain (· ≠ ·) := List.isChain_destutter _ _
  have strict : (sortDedup xs).IsChain (· < ·) := by
    have weakChain := weak.isChain
    rw [List.isChain_iff_getElem] at apart weakChain ⊢
    exact fun index inside => lt_of_le_of_ne (weakChain index inside) (apart index inside)
  exact strict.pairwise

theorem mem_destutter'_ne {x first : α} {xs : List α} :
    x ∈ xs.destutter' (· ≠ ·) first ↔ x = first ∨ x ∈ xs := by
  induction xs generalizing first with
  | nil => simp
  | cons next xs ih =>
    by_cases different : first ≠ next
    · rw [List.destutter'_cons_pos _ different, List.mem_cons, ih, List.mem_cons]
    · have same : first = next := not_not.mp different
      subst same
      rw [List.destutter'_cons_neg _ different, ih, List.mem_cons, or_self_left]

theorem mem_sortDedup {x : α} {xs : List α} : x ∈ sortDedup xs ↔ x ∈ xs := by
  rw [← (List.perm_insertionSort (· ≤ ·) xs).mem_iff, sortDedup]
  cases xs.insertionSort (· ≤ ·) with
  | nil => simp
  | cons first rest => rw [List.destutter_cons', mem_destutter'_ne, List.mem_cons]

theorem sortDedup_eq_nil_iff {xs : List α} : sortDedup xs = [] ↔ xs = [] := by
  simp only [List.eq_nil_iff_forall_not_mem, mem_sortDedup]

/-- The strictly increasing lists are those that the function does not change. -/
theorem sortDedup_eq_self_iff {xs : List α} : sortDedup xs = xs ↔ xs.Pairwise (· < ·) := by
  constructor
  · intro same
    rw [← same]
    exact sortDedup_pairwise xs
  · intro strict
    have sorted : xs.insertionSort (· ≤ ·) = xs := (strict.imp fun less => less.le).insertionSort_eq
    rw [sortDedup, sorted]
    exact List.destutter_of_isChain _ _ (strict.imp fun less => less.ne).isChain

end SortDedup

/-! ### Distinct members -/

section Distinct

variable {α : Type*} [DecidableEq α]

/-- How many entries of a list could be left out without losing a member. -/
def surplus (xs : List α) : ℕ := xs.length - xs.dedup.length

/-- **Counting entries and counting members**: a list has `n` distinct members exactly if it has `n`
entries beyond those that could be left out. -/
theorem exists_distinct_iff {xs : List α} {P : α → Prop} (listed : ∀ x, x ∈ xs ↔ P x) {n : ℕ} :
    (∃ members : Finset α, n ≤ members.card ∧ ∀ x ∈ members, P x) ↔ n + surplus xs ≤ xs.length := by
  have fewer : xs.dedup.length ≤ xs.length := (List.dedup_sublist xs).length_le
  have card : xs.toFinset.card = xs.dedup.length := List.card_toFinset xs
  unfold surplus
  constructor
  · rintro ⟨members, enough, all⟩
    have within : members ⊆ xs.toFinset := by
      intro x member
      exact List.mem_toFinset.mpr ((listed x).mpr (all x member))
    have bound := Finset.card_le_card within
    omega
  · intro enough
    refine ⟨xs.toFinset, by omega, fun x member => ?_⟩
    exact (listed x).mp (List.mem_toFinset.mp member)

end Distinct

/-! ### Greatest elements -/

section Greatest

variable {α : Type} [LinearOrder α] {xs : List α} {last default : α}

/-- The greatest element is the last one if no earlier one is greater, and only then. -/
theorem max?_concat_eq_iff :
    (xs ++ [last]).max?.getD default = last ↔ ∀ x ∈ xs, x ≤ last := by
  obtain ⟨greatest, found⟩ := Option.isSome_iff_exists.mp (List.isSome_max?_of_mem
    (List.mem_append_right xs (List.mem_singleton_self last)))
  have law := List.max?_eq_some_iff.mp found
  rw [found, Option.getD_some]
  constructor
  · rintro rfl x member
    exact law.2 x (List.mem_append_left _ member)
  · intro bound
    refine le_antisymm ?_ (law.2 last (by simp))
    rcases List.mem_append.mp law.1 with earlier | here
    · exact bound greatest earlier
    · exact (List.mem_singleton.mp here).le

end Greatest

/-! ### Quorum intersection -/

/-- **Two large sets of members share one outside the excluded set.** -/
theorem exists_mem_both_of_card {α : Type*} [DecidableEq α] {members first second excluded : Finset α}
    (firstIn : first ⊆ members) (secondIn : second ⊆ members)
    (large : members.card + excluded.card < first.card + second.card) :
    ∃ x, x ∈ first ∧ x ∈ second ∧ x ∉ excluded := by
  have union : (first ∪ second).card ≤ members.card :=
    Finset.card_le_card (Finset.union_subset firstIn secondIn)
  have count := Finset.card_union_add_card_inter first second
  have more : excluded.card < (first ∩ second).card := by omega
  obtain ⟨x, inBoth, outside⟩ := Finset.exists_mem_notMem_of_card_lt_card more
  obtain ⟨inFirst, inSecond⟩ := Finset.mem_inter.mp inBoth
  exact ⟨x, inFirst, inSecond, outside⟩

/-! ### Lists compared position by position -/

section Compare

variable {α β : Type*} {xs ys : List α}

/-- Replacing an entry does not show in what the two entries agree on. -/
theorem map_set_eq_map {f : α → β} {index : ℕ} {x y : α} (found : xs[index]? = some x)
    (same : f y = f x) : (xs.set index y).map f = xs.map f := by
  obtain ⟨inside, rfl⟩ := List.getElem?_eq_some_iff.mp found
  have bound : index < (xs.map f).length := by rwa [List.length_map]
  have entry : (xs.map f)[index] = f y := by rw [List.getElem_map, same]
  rw [List.map_set, ← entry, List.set_getElem_self]

/-- A list has a second entry that passes a test beside `x` if it has `x` twice or another one. -/
theorem one_lt_length_filter_iff [DecidableEq α] {P : α → Prop} [DecidablePred P] {x : α}
    (member : x ∈ xs) (passes : P x) :
    1 < (xs.filter P).length ↔ 1 < xs.count x ∨ ∃ y ∈ xs, y ≠ x ∧ P y := by
  have count : (xs.filter P).count x = xs.count x := List.count_filter (by simpa using passes)
  have inside : x ∈ xs.filter P := List.mem_filter.mpr ⟨member, by simpa using passes⟩
  constructor
  · intro more
    by_cases alone : ∀ y ∈ xs.filter P, y = x
    · -- then the entries that pass are copies of `x`
      have copies := List.eq_replicate_iff.mpr ⟨rfl, alone⟩
      rw [copies, List.count_replicate_self] at count
      exact .inl (count ▸ more)
    · push Not at alone
      obtain ⟨y, among, other⟩ := alone
      obtain ⟨here, passes'⟩ := List.mem_filter.mp among
      exact .inr ⟨y, here, other, by simpa using passes'⟩
  · rintro (twice | ⟨y, here, other, passes'⟩)
    · exact twice.trans_le (count ▸ List.count_le_length)
    · have among : y ∈ xs.filter P := List.mem_filter.mpr ⟨here, by simpa using passes'⟩
      have both : ({y, x} : Finset α) ⊆ (xs.filter P).toFinset := by
        intro z either
        rcases Finset.mem_insert.mp either with rfl | last
        · exact List.mem_toFinset.mpr among
        · rw [Finset.mem_singleton.mp last]
          exact List.mem_toFinset.mpr inside
      have two := (Finset.card_le_card both).trans (List.toFinset_card_le _)
      rwa [Finset.card_pair other] at two

/-- What holds on one list holds on another one if it does where they differ. -/
theorem forall_iff_of_zip {P : α → Prop} (lengths : xs.length = ys.length) (held : ∀ y ∈ ys, P y) :
    (∀ x ∈ xs, P x) ↔ ∀ pair ∈ xs.zip ys, pair.1 ≠ pair.2 → P pair.1 := by
  constructor
  · exact fun all pair member _ => all pair.1 (List.of_mem_zip member).1
  · intro differing x member
    obtain ⟨index, bound, rfl⟩ := List.getElem_of_mem member
    have paired : (xs[index], ys[index]) ∈ xs.zip ys := by
      rw [← List.getElem_zip (h := by simp; omega)]
      exact List.getElem_mem _
    by_cases same : xs[index] = ys[index]
    · exact same ▸ held _ (List.getElem_mem _)
    · exact differing _ paired same

/-- Two lists have the same images if they do where they differ. -/
theorem map_eq_map_iff_of_zip {f : α → β} (lengths : xs.length = ys.length) :
    xs.map f = ys.map f ↔ ∀ pair ∈ xs.zip ys, pair.1 ≠ pair.2 → f pair.1 = f pair.2 := by
  induction xs generalizing ys with
  | nil =>
    cases ys with
    | nil => simp
    | cons y ys => cases lengths
  | cons x xs ih =>
    cases ys with
    | nil => cases lengths
    | cons y ys =>
      rw [List.map_cons, List.map_cons, List.cons.injEq, List.zip_cons_cons, List.forall_mem_cons,
        ih (Nat.succ.inj lengths)]
      refine and_congr_left fun _ => ⟨fun same _ => same, fun differing => ?_⟩
      by_cases same : x = y
      · rw [same]
      · exact differing same

end Compare

end Foundation
