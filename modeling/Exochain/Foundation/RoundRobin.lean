/-
**Dealing in rounds.**

Items have keys. A round takes one item of every key that has one left, in the order of the keys, and the
rounds follow each other. How many items of a key are among the first ones dealt depends only on how many
items each key has: before the turn of a key in round `m`, the smaller keys have had `m + 1` turns and
all others `m`.

* `turn`, `deal` — one round, and rounds in a row.
* `nodup_deal`, `mem_of_mem_deal` — items are dealt once, and only items.
* `countP_deal`, `length_deal` — what whole rounds deal.
* `bucket_deal`, `prefix_bucket_take_deal` — of each key, its first items are dealt.
* `card_keys_take_deal` — of how many keys the first items dealt are.
* **`countP_take_deal_le_iff`** — when the first items dealt have at most `m` of a key.
* `length_bucket_eq_of_lt` — a key that lags by two has no items left.
-/

import Mathlib

set_option linter.unusedSectionVars false

namespace Foundation.RoundRobin

variable {α β : Type*} [DecidableEq β] (key : α → β) (items : List α)

/-- The items of a key, in their order. -/
def bucket (k : β) : List α := items.filter (key · = k)

/-- The items of one round. -/
def turn (keys : List β) (round : ℕ) : List α :=
  keys.filterMap fun k => (bucket key items k)[round]?

/-- The items of some rounds in a row. -/
def deal (keys : List β) (start rounds : ℕ) : List α :=
  (List.range' start rounds).flatMap (turn key items keys)

/-- The items dealt before the turn of a key in a round. -/
def dealtBefore [LT β] [DecidableLT β] (k : β) (round : ℕ) : ℕ :=
  ∑ other ∈ (items.map key).toFinset,
    min (bucket key items other).length (if other < k then round + 1 else round)

variable {key items} {keys : List β} {k : β} {item : α} {round : ℕ}

/-! ### One round -/

theorem mem_bucket_iff : item ∈ bucket key items k ↔ item ∈ items ∧ key item = k := by
  rw [bucket, List.mem_filter, decide_eq_true_eq]

/-- An item has its turn in the round of its place among those of its key. -/
theorem getElem?_bucket_of_mem_turn (dealt : item ∈ turn key items keys round) :
    (bucket key items (key item))[round]? = some item := by
  obtain ⟨k, -, found⟩ := List.mem_filterMap.mp dealt
  have own := (mem_bucket_iff.mp (List.mem_of_getElem? found)).2
  rwa [own]

theorem turn_eq_nil_iff :
    turn key items keys round = [] ↔ ∀ k ∈ keys, (bucket key items k).length ≤ round := by
  simp only [turn, List.filterMap_eq_nil_iff, List.getElem?_eq_none_iff]

/-- The round after one without items has none. -/
theorem turn_eq_nil_of_le {later : ℕ} (empty : turn key items keys round = []) (le : round ≤ later) :
    turn key items keys later = [] :=
  turn_eq_nil_iff.mpr fun k listed => (turn_eq_nil_iff.mp empty k listed).trans le

theorem turn_append (first second : List β) (round : ℕ) :
    turn key items (first ++ second) round =
      turn key items first round ++ turn key items second round :=
  List.filterMap_append

theorem turn_cons_of_lt {rest : List β} (has : round < (bucket key items k).length) :
    turn key items (k :: rest) round =
      (bucket key items k)[round] :: turn key items rest round :=
  List.filterMap_cons_some (List.getElem?_eq_getElem has)

theorem turn_cons_of_le {rest : List β} (lacks : (bucket key items k).length ≤ round) :
    turn key items (k :: rest) round = turn key items rest round :=
  List.filterMap_cons_none (List.getElem?_eq_none lacks)

theorem length_turn (keys : List β) (round : ℕ) :
    (turn key items keys round).length =
      keys.countP fun k => round < (bucket key items k).length := by
  induction keys with
  | nil => rfl
  | cons k rest ih =>
    by_cases has : round < (bucket key items k).length
    · rw [turn_cons_of_lt has, List.length_cons, ih, List.countP_cons, if_pos (decide_eq_true has)]
    · rw [turn_cons_of_le (Nat.le_of_not_lt has), ih, List.countP_cons, if_neg (by simpa using has),
        Nat.add_zero]

/-- The key of the item at a place of a bucket. -/
theorem key_getElem_bucket (has : round < (bucket key items k).length) :
    key (bucket key items k)[round] = k :=
  (mem_bucket_iff.mp (List.getElem_mem has)).2

/-- **A round deals one item of a key that has one left.** -/
theorem countP_turn (distinct : keys.Nodup) (k : β) (round : ℕ) :
    (turn key items keys round).countP (key · = k) =
      if k ∈ keys ∧ round < (bucket key items k).length then 1 else 0 := by
  induction keys with
  | nil => rfl
  | cons first rest ih =>
    obtain ⟨new, distinct⟩ := List.nodup_cons.mp distinct
    by_cases has : round < (bucket key items first).length
    · rw [turn_cons_of_lt has, List.countP_cons, ih distinct, key_getElem_bucket has]
      by_cases same : first = k
      · subst same
        simp [new, has]
      · simp [same, Ne.symm same]
    · rw [turn_cons_of_le (Nat.le_of_not_lt has), ih distinct]
      by_cases same : first = k
      · subst same
        simp [new, has]
      · simp [Ne.symm same]

/-! ### Rounds in a row -/

theorem deal_append (keys : List β) (start first second : ℕ) :
    deal key items keys start (first + second) =
      deal key items keys start first ++ deal key items keys (start + first) second := by
  rw [deal, deal, deal, ← List.flatMap_append, ← List.range'_append_1]

theorem deal_succ (keys : List β) (start rounds : ℕ) :
    deal key items keys start (rounds + 1) =
      turn key items keys start ++ deal key items keys (start + 1) rounds := by
  rw [deal, List.range'_succ, List.flatMap_cons, ← deal]

theorem deal_concat (keys : List β) (rounds : ℕ) :
    deal key items keys 0 (rounds + 1) =
      deal key items keys 0 rounds ++ turn key items keys rounds := by
  rw [deal_append, deal_succ, Nat.zero_add]
  simp [deal]

/-- Nothing is dealt from a round without items on. -/
theorem deal_eq_nil {start : ℕ} (empty : turn key items keys start = []) (rounds : ℕ) :
    deal key items keys start rounds = [] := by
  rw [deal, List.flatMap_eq_nil_iff]
  intro round inRange
  exact turn_eq_nil_of_le empty (List.left_le_of_mem_range' inRange)

theorem mem_of_mem_deal {start rounds : ℕ} (dealt : item ∈ deal key items keys start rounds) :
    item ∈ items := by
  obtain ⟨round, -, inTurn⟩ := List.mem_flatMap.mp dealt
  exact (mem_bucket_iff.mp (List.mem_of_getElem? (getElem?_bucket_of_mem_turn inTurn))).1

/-- **No item is dealt twice.** -/
theorem nodup_deal (once : items.Nodup) (distinct : keys.Nodup) (start rounds : ℕ) :
    (deal key items keys start rounds).Nodup := by
  rw [deal, List.nodup_flatMap]
  constructor
  · intro round _
    refine distinct.filterMap fun first second item inFirst inSecond => ?_
    rw [← (mem_bucket_iff.mp (List.mem_of_getElem? inFirst)).2,
      (mem_bucket_iff.mp (List.mem_of_getElem? inSecond)).2]
  · have apart : (List.range' start rounds).Nodup := List.nodup_range'
    refine apart.imp fun {first second} different => ?_
    -- an item of two rounds would stand at two places of its bucket
    intro item inFirst inSecond
    have one := getElem?_bucket_of_mem_turn inFirst
    have two := getElem?_bucket_of_mem_turn inSecond
    obtain ⟨inBounds, -⟩ := List.getElem?_eq_some_iff.mp one
    exact different ((List.getElem?_inj inBounds (once.filter _)).mp (one.trans two.symm))

/-- Whole rounds deal the first items of each key. -/
theorem countP_deal (distinct : keys.Nodup) (listed : k ∈ keys) (rounds : ℕ) :
    (deal key items keys 0 rounds).countP (key · = k) =
      min (bucket key items k).length rounds := by
  induction rounds with
  | zero => simp [deal]
  | succ rounds ih =>
    rw [deal_concat, List.countP_append, ih, countP_turn distinct]
    by_cases has : rounds < (bucket key items k).length
    · rw [if_pos ⟨listed, has⟩]
      omega
    · rw [if_neg fun both => has both.2]
      omega

theorem sum_min_add_countP {γ : Type*} (size : γ → ℕ) (counts : γ → Bool) (keys : List γ)
    (round : ℕ) :
    (keys.map fun k => min (size k) round).sum +
        keys.countP (fun k => counts k && decide (round < size k)) =
      (keys.map fun k => min (size k) (if counts k then round + 1 else round)).sum := by
  induction keys with
  | nil => rfl
  | cons k rest ih =>
    simp only [List.map_cons, List.sum_cons, List.countP_cons, ← ih]
    cases counted : counts k with
    | false => simp; omega
    | true =>
      by_cases has : round < size k
      · simp [has]
        omega
      · simp [has]
        omega

theorem length_deal (keys : List β) (rounds : ℕ) :
    (deal key items keys 0 rounds).length =
      (keys.map fun k => min (bucket key items k).length rounds).sum := by
  induction rounds with
  | zero => simp [deal]
  | succ rounds ih =>
    have step := sum_min_add_countP (fun k => (bucket key items k).length) (fun _ => true) keys rounds
    simp only [Bool.true_and, if_true] at step
    rw [deal_concat, List.length_append, ih, length_turn, step]

/-! ### What is dealt of each key -/

/-- A round takes the item of a key at the place of the round. -/
theorem bucket_turn (distinct : keys.Nodup) (k : β) (round : ℕ) :
    bucket key (turn key items keys round) k =
      if k ∈ keys then (bucket key items k)[round]?.toList else [] := by
  induction keys with
  | nil => rfl
  | cons first rest ih =>
    obtain ⟨new, distinct⟩ := List.nodup_cons.mp distinct
    by_cases has : round < (bucket key items first).length
    · rw [turn_cons_of_lt has, bucket, List.filter_cons, ← bucket, ih distinct, key_getElem_bucket has]
      by_cases same : first = k
      · subst same
        simp [new, has]
      · simp [same, Ne.symm same]
    · rw [turn_cons_of_le (Nat.le_of_not_lt has), ih distinct]
      by_cases same : first = k
      · subst same
        simp [new, Nat.le_of_not_lt has]
      · simp [Ne.symm same]

/-- **Rounds deal the first items of each key**, in their order. -/
theorem bucket_deal (distinct : keys.Nodup) (listed : k ∈ keys) (rounds : ℕ) :
    bucket key (deal key items keys 0 rounds) k = (bucket key items k).take rounds := by
  induction rounds with
  | zero => rfl
  | succ rounds ih =>
    have here : bucket key (turn key items keys rounds) k = _ := bucket_turn distinct k rounds
    rw [if_pos listed] at here
    rw [deal_concat, List.take_add_one, ← ih, ← here]
    exact List.filter_append _ _

/-- The first items dealt are the first ones of each key. -/
theorem prefix_bucket_take_deal (distinct : keys.Nodup) (covers : ∀ k, k ∈ keys ↔ k ∈ items.map key)
    (k : β) (rounds count : ℕ) :
    bucket key ((deal key items keys 0 rounds).take count) k <+: bucket key items k := by
  by_cases listed : k ∈ keys
  · have whole : bucket key (deal key items keys 0 rounds) k <+: bucket key items k := by
      rw [bucket_deal distinct listed]
      exact List.take_prefix rounds _
    exact ((List.take_prefix count _).filter _).trans whole
  · -- a key without items
    have none : bucket key ((deal key items keys 0 rounds).take count) k = [] := by
      rw [List.eq_nil_iff_forall_not_mem]
      intro item inside
      obtain ⟨dealt, own⟩ := mem_bucket_iff.mp inside
      have member := mem_of_mem_deal (List.mem_of_mem_take dealt)
      exact listed ((covers k).mpr (own ▸ List.mem_map_of_mem member))
    rw [none]
    exact List.nil_prefix

/-- Items whose parts of each key are among those of others are among the others. -/
theorem subperm_of_bucket_sublist [DecidableEq α] {chosen : List α}
    (parts : ∀ k, (bucket key chosen k).Sublist (bucket key items k)) : chosen.Subperm items := by
  rw [List.subperm_ext_iff]
  intro item _
  have part := (parts (key item)).count_le item
  rwa [bucket, bucket, List.count_filter (by simp), List.count_filter (by simp)] at part

/-- The first round deals an item of each key. -/
theorem map_key_turn_zero (covers : ∀ k ∈ keys, k ∈ items.map key) :
    (turn key items keys 0).map key = keys := by
  induction keys with
  | nil => rfl
  | cons first rest ih =>
    obtain ⟨here, others⟩ := List.forall_mem_cons.mp covers
    obtain ⟨item, member, own⟩ := List.mem_map.mp here
    have has : 0 < (bucket key items first).length :=
      List.length_pos_of_mem (mem_bucket_iff.mpr ⟨member, own⟩)
    rw [turn_cons_of_lt has, List.map_cons, key_getElem_bucket has, ih others]

/-- **The first items dealt are of as many keys as can be.** -/
theorem card_keys_take_deal (distinct : keys.Nodup) (covers : ∀ k, k ∈ keys ↔ k ∈ items.map key)
    (rounds count : ℕ) :
    (((deal key items keys 0 (rounds + 1)).take count).map key).toFinset.card = min count keys.length := by
  have split : (deal key items keys 0 (rounds + 1)).map key =
      keys ++ (deal key items keys 1 rounds).map key := by
    rw [deal_succ, List.map_append, map_key_turn_zero fun k listed => (covers k).mp listed]
  rw [List.map_take, split]
  rcases Nat.le_total count keys.length with few | many
  · rw [List.take_append_of_le_length few, List.toFinset_card_of_nodup (distinct.sublist (List.take_sublist _ _)),
      List.length_take]
  · have same : ((keys ++ (deal key items keys 1 rounds).map key).take count).toFinset = keys.toFinset := by
      ext k
      rw [List.mem_toFinset, List.mem_toFinset]
      constructor
      · intro taken
        rcases List.mem_append.mp (List.mem_of_mem_take taken) with listed | later
        · exact listed
        · obtain ⟨item, dealt, rfl⟩ := List.mem_map.mp later
          exact (covers _).mpr (List.mem_map_of_mem (mem_of_mem_deal dealt))
      · intro listed
        rw [List.take_append, List.take_of_length_le many]
        exact List.mem_append_left _ listed
    rw [same, List.toFinset_card_of_nodup distinct, Nat.min_eq_right many]

/-! ### The first items dealt -/

/-- A prefix has no more of a kind than the part before one of them if it ends there. -/
theorem countP_take_append_cons_le_iff {p : α → Bool} (counts : p item = true) (before after : List α)
    (count : ℕ) :
    ((before ++ item :: after).take count).countP p ≤ before.countP p ↔ count ≤ before.length := by
  constructor
  · intro bounded
    by_contra longer
    have includes : before ++ [item] <+: (before ++ item :: after).take count := by
      rw [List.prefix_take_iff, List.length_append, List.length_singleton]
      exact ⟨⟨after, by simp⟩, by omega⟩
    have more := includes.sublist.countP_le (p := p)
    rw [List.countP_append, List.countP_singleton, if_pos counts] at more
    omega
  · intro short
    rw [List.take_append_of_le_length short]
    exact (List.take_sublist count before).countP_le

section Sorted

variable [LT β] [DecidableLT β] [Std.Asymm (α := β) (· < ·)]

/-- The keys below one of a sorted list are those before it. -/
theorem countP_lt_of_sorted {smaller larger : List β} (sorted : (smaller ++ k :: larger).Pairwise (· < ·))
    (counts : β → Bool) :
    (smaller ++ k :: larger).countP (fun other => decide (other < k) && counts other) =
      smaller.countP counts := by
  obtain ⟨-, sortedRest, below⟩ := List.pairwise_append.mp sorted
  have above := (List.pairwise_cons.mp sortedRest).1
  have rest : (k :: larger).countP (fun other => decide (other < k) && counts other) = 0 := by
    rw [List.countP_eq_zero]
    intro other inside both
    have less : other < k := of_decide_eq_true (Bool.and_eq_true_iff.mp both).1
    rcases List.mem_cons.mp inside with rfl | inLarger
    · exact Std.Asymm.asymm _ _ less less
    · exact Std.Asymm.asymm _ _ less (above other inLarger)
  rw [List.countP_append, rest, Nat.add_zero]
  refine List.countP_congr fun other inside => ?_
  rw [decide_eq_true (below other inside k List.mem_cons_self), Bool.true_and]

/-- The turn of a key in a round cuts the rounds: before it, the items counted by `dealtBefore`, with as
many of the key as there were rounds. -/
theorem exists_deal_eq_append_cons (sorted : keys.Pairwise (· < ·))
    (covers : ∀ k, k ∈ keys ↔ k ∈ items.map key) (listed : k ∈ keys) {rounds : ℕ}
    (has : round < (bucket key items k).length) (within : round < rounds) :
    ∃ before item after, deal key items keys 0 rounds = before ++ item :: after ∧ key item = k ∧
      before.countP (key · = k) = round ∧ before.length = dealtBefore key items k round := by
  obtain ⟨smaller, larger, rfl⟩ := List.append_of_mem listed
  have distinct : (smaller ++ k :: larger).Nodup := sorted.nodup
  refine ⟨deal key items (smaller ++ k :: larger) 0 round ++ turn key items smaller round,
    (bucket key items k)[round], turn key items larger round ++
      deal key items (smaller ++ k :: larger) (round + 1) (rounds - round - 1), ?_,
    key_getElem_bucket has, ?_, ?_⟩
  · obtain ⟨more, rfl⟩ := Nat.exists_eq_add_of_lt within
    rw [show round + more + 1 - round - 1 = more by omega, Nat.add_assoc, deal_append, deal_succ,
      Nat.zero_add, turn_append, turn_cons_of_lt has]
    simp only [List.append_assoc, List.cons_append]
  · have notSmaller : k ∉ smaller := fun inside =>
      (List.nodup_append.mp distinct).2.2 k inside k List.mem_cons_self rfl
    rw [List.countP_append, countP_deal distinct listed, countP_turn distinct.of_append_left,
      if_neg fun both => notSmaller both.1]
    omega
  · have keysEq : (items.map key).toFinset = (smaller ++ k :: larger).toFinset := by
      ext other
      rw [List.mem_toFinset, List.mem_toFinset, covers]
    rw [List.length_append, length_deal, length_turn, ← countP_lt_of_sorted sorted, sum_min_add_countP,
      dealtBefore, keysEq, List.sum_toFinset _ distinct]
    simp only [decide_eq_true_eq]

/-- **When the first items dealt have at most `m` of a key**: it has no more, there are no more rounds, or
its turn in round `m` is not reached. -/
theorem countP_take_deal_le_iff (sorted : keys.Pairwise (· < ·))
    (covers : ∀ k, k ∈ keys ↔ k ∈ items.map key) (k : β) (rounds count m : ℕ) :
    ((deal key items keys 0 rounds).take count).countP (key · = k) ≤ m ↔
      (bucket key items k).length ≤ m ∨ rounds ≤ m ∨ count ≤ dealtBefore key items k m := by
  by_cases listed : k ∈ keys
  · have distinct : keys.Nodup := sorted.nodup
    by_cases enough : (bucket key items k).length ≤ m ∨ rounds ≤ m
    · have all : ((deal key items keys 0 rounds).take count).countP (key · = k) ≤
          min (bucket key items k).length rounds := by
        rw [← countP_deal distinct listed]
        exact (List.take_sublist _ _).countP_le
      refine iff_of_true ?_ (or_assoc.mp (.inl enough))
      omega
    · obtain ⟨more, later⟩ := not_or.mp enough
      obtain ⟨before, item, after, cut, own, counted, length⟩ :=
        exists_deal_eq_append_cons sorted covers listed (Nat.lt_of_not_le more) (Nat.lt_of_not_le later)
      have exactly := countP_take_append_cons_le_iff (p := fun item => decide (key item = k))
        (decide_eq_true own) before after count
      rw [counted, length] at exactly
      rw [cut, exactly, or_iff_right more, or_iff_right later]
  · -- a key without items
    have none : (bucket key items k).length = 0 := by
      rw [List.length_eq_zero_iff, List.eq_nil_iff_forall_not_mem]
      intro item inside
      obtain ⟨member, rfl⟩ := mem_bucket_iff.mp inside
      exact listed ((covers _).mpr (List.mem_map_of_mem member))
    refine iff_of_true ?_ (.inl (none.trans_le (Nat.zero_le m)))
    rw [List.countP_eq_zero.mpr]
    · exact Nat.zero_le m
    · intro item dealt own
      have member := mem_of_mem_deal (List.mem_of_mem_take dealt)
      rw [decide_eq_true_eq] at own
      exact listed ((covers k).mpr (own ▸ List.mem_map_of_mem member))

/-- All keys have had their turn in a round before any has it in the next but one. -/
theorem dealtBefore_le_succ (k k' : β) (round : ℕ) :
    dealtBefore key items k round ≤ dealtBefore key items k' (round + 1) := by
  refine Finset.sum_le_sum fun other _ => min_le_min le_rfl ?_
  split_ifs <;> omega

/-- **No key lags by two**: where more than one more is dealt of one key than of another, the other has no
items left. -/
theorem length_bucket_eq_of_lt (sorted : keys.Pairwise (· < ·))
    (covers : ∀ k, k ∈ keys ↔ k ∈ items.map key) {k k' : β} {rounds count : ℕ}
    (fewer : (bucket key ((deal key items keys 0 rounds).take count) k).length + 1 <
      (bucket key ((deal key items keys 0 rounds).take count) k').length) :
    (bucket key ((deal key items keys 0 rounds).take count) k).length = (bucket key items k).length := by
  have upper := (prefix_bucket_take_deal sorted.nodup covers k rounds count).length_le
  refine upper.antisymm ?_
  -- `k` has as many as it has, so it has no more, or there are no more rounds, or its turn is not reached
  have here := countP_take_deal_le_iff sorted covers k rounds count
    (bucket key ((deal key items keys 0 rounds).take count) k).length
  have there := countP_take_deal_le_iff sorted covers k' rounds count
    ((bucket key ((deal key items keys 0 rounds).take count) k).length + 1)
  rw [List.countP_eq_length_filter] at here there
  rcases here.mp le_rfl with exhausted | ended | unreached
  · exact exhausted
  · exact absurd (there.mpr (.inr (.inl (ended.trans (Nat.le_succ _))))) (not_le.mpr fewer)
  · have later := unreached.trans (dealtBefore_le_succ k k' _)
    exact absurd (there.mpr (.inr (.inr later))) (not_le.mpr fewer)

end Sorted

end Foundation.RoundRobin
