/-
**`exo-gatekeeper` — the branches of a `Parallel`.**

Every branch is reduced on the same input and hands back a whole copy of the fields with its changes;
the copies are laid over the input from left to right. A branch that leaves a field of the input
alone still hands the old value back, and it overwrites what an earlier branch made of it.

* `reduce_parallel_eq_ok` — the fields of a `Parallel` are the copies of its branches, overlaid.
* **`parallel_lossless_iff`** — branches that change different keys lose nothing, in any order,
  exactly where there is at most one of them or none changes a key that the input has.
* `Stale.change_lost` — the change of a field undone by the identity next to it.
-/

import Exochain.Gatekeeper.Combinator

set_option linter.unusedSectionVars false

namespace Exochain.ExoGatekeeper

open Foundation ExoCore

section Parallel

variable {branches permuted : List Combinator} {input : CombinatorInput} {c : Combinator}
  {key : String}

/-! ### What a branch changes -/

/-- The branch succeeds and has another value for the key than the input, or adds it. -/
def ChangesKey (input : CombinatorInput) (c : Combinator) (key : String) : Prop :=
  ∃ out, reduce c input = .ok out ∧ out.fields[key]? ≠ input.fields[key]?

/-- The copy of the fields that a branch hands back; the input's own where it fails. -/
def copyOf (input : CombinatorInput) (c : Combinator) : BTreeMap String String :=
  match reduce c input with
  | .ok out => out.fields
  | .error _ => input.fields

theorem copyOf_eq {out : CombinatorOutput} (reduced : reduce c input = .ok out) :
    copyOf input c = out.fields := by
  unfold copyOf
  rw [reduced]

theorem changesKey_iff : ChangesKey input c key ↔ input.fields.Changes (copyOf input c) key := by
  unfold ChangesKey BTreeMap.Changes copyOf
  cases reduce c input with
  | ok out => simp
  | error e => simp

/-! ### What the merge makes of the branches -/

/-- The copies of the branches laid over the input. -/
def mergedFields (input : CombinatorInput) (branches : List Combinator) : BTreeMap String String :=
  (branches.map (copyOf input)).foldl BTreeMap.overlay input.fields

theorem reduceParallel_eq_ok (reduces : ∀ c ∈ branches, ∃ out, reduce c input = .ok out) (i : ℕ)
    (merged : CombinatorOutput) :
    ∃ out, reduceParallel branches i input merged = .ok out ∧
      out.fields = (branches.map (copyOf input)).foldl BTreeMap.overlay merged.fields := by
  induction branches generalizing i merged with
  | nil => exact ⟨merged, by rw [reduceParallel], rfl⟩
  | cons c rest ih =>
    obtain ⟨⟨branch, first⟩, others⟩ := List.forall_mem_cons.mp reduces
    obtain ⟨out, reduced, fields⟩ := ih others (i + 1) (merged.merge branch)
    refine ⟨out, reduceParallel_cons_eq_ok_iff.mpr ⟨branch, first, reduced⟩, ?_⟩
    rw [fields, List.map_cons, List.foldl_cons, copyOf_eq first, CombinatorOutput.merge_fields]

/-- **A `Parallel` whose branches all succeed does so, with their copies overlaid.** -/
theorem reduce_parallel_eq_ok (reduces : ∀ c ∈ branches, ∃ out, reduce c input = .ok out) :
    ∃ out, reduce (.parallel branches) input = .ok out ∧
      out.fields = mergedFields input branches := by
  rw [reduce_parallel]
  exact reduceParallel_eq_ok reduces 0 (.fromInput input)

/-- The fields have every change of a branch and are as in the input elsewhere. -/
structure KeepsChanges (branches : List Combinator) (input : CombinatorInput)
    (fields : BTreeMap String String) : Prop where
  changed : ∀ c ∈ branches, ∀ out, reduce c input = .ok out →
    ∀ key : String, out.fields[key]? ≠ input.fields[key]? → fields[key]? = out.fields[key]?
  unchanged : ∀ key : String, (∀ c ∈ branches, ¬ ChangesKey input c key) →
    fields[key]? = input.fields[key]?

/-- Which fields keep the changes does not depend on the order of the branches. -/
theorem KeepsChanges.perm {fields : BTreeMap String String}
    (keeps : KeepsChanges branches input fields) (perm : branches.Perm permuted) :
    KeepsChanges permuted input fields where
  changed := fun c member => keeps.changed c (perm.mem_iff.mpr member)
  unchanged := fun key none => keeps.unchanged key fun c member => none c (perm.mem_iff.mp member)

/-- At most one map keeps the changes. -/
theorem KeepsChanges.unique {fields others : BTreeMap String String}
    (keeps : KeepsChanges branches input fields) (keepsOthers : KeepsChanges branches input others) :
    fields = others := by
  refine Std.ExtTreeMap.ext_getElem? fun key => ?_
  by_cases change : ∃ c ∈ branches, ChangesKey input c key
  · obtain ⟨c, member, out, reduced, changes⟩ := change
    rw [keeps.changed c member out reduced key changes,
      keepsOthers.changed c member out reduced key changes]
  · have none : ∀ c ∈ branches, ¬ ChangesKey input c key :=
      fun c member changes => change ⟨c, member, changes⟩
    rw [keeps.unchanged key none, keepsOthers.unchanged key none]

/-- No two branches change the same key. -/
def Apart (input : CombinatorInput) (branches : List Combinator) : Prop :=
  branches.Pairwise fun a b => ∀ key, ¬ (ChangesKey input a key ∧ ChangesKey input b key)

theorem Apart.perm (apart : Apart input branches) (perm : branches.Perm permuted) :
    Apart input permuted := by
  refine (perm.pairwise_iff ?_).mp apart
  intro a b disjoint key both
  exact disjoint key ⟨both.2, both.1⟩

theorem Apart.copies (apart : Apart input branches) :
    (branches.map (copyOf input)).Pairwise fun a b =>
      ∀ key, ¬ (input.fields.Changes a key ∧ input.fields.Changes b key) := by
  rw [List.pairwise_map]
  refine apart.imp fun disjoint key both => ?_
  exact disjoint key ⟨changesKey_iff.mpr both.1, changesKey_iff.mpr both.2⟩

/-- Branches that only add keys keep each other's changes. -/
theorem keepsChanges_of_fresh (apart : Apart input branches)
    (fresh : ∀ c ∈ branches, ∀ key ∈ input.fields, ¬ ChangesKey input c key) :
    KeepsChanges branches input (mergedFields input branches) where
  changed := by
    intro c member out reduced key changes
    have added : input.fields[key]? = none :=
      BTreeMap.not_mem_iff.mp fun present => fresh c member key present ⟨out, reduced, changes⟩
    rw [← copyOf_eq reduced] at changes ⊢
    exact BTreeMap.foldl_overlay_changed apart.copies (List.mem_map_of_mem member) changes added
  unchanged := by
    intro key none
    apply BTreeMap.foldl_overlay_unchanged
    intro copy handed
    obtain ⟨c, member, rfl⟩ := List.mem_map.mp handed
    exact fun changes => none c member (changesKey_iff.mpr changes)

/-- A single branch keeps its changes. -/
theorem keepsChanges_of_single (single : branches.length ≤ 1) :
    KeepsChanges branches input (mergedFields input branches) := by
  rcases branches with _ | ⟨c, _ | ⟨second, rest⟩⟩
  · refine ⟨fun c member => absurd member List.not_mem_nil, fun key _ => rfl⟩
  · have copied : ∀ key : String, (mergedFields input [c])[key]? = (copyOf input c)[key]? := by
      intro key
      show (input.fields.overlay (copyOf input c))[key]? = (copyOf input c)[key]?
      rw [BTreeMap.getElem?_overlay]
      cases found : (copyOf input c)[key]? with
      | some value => rw [Option.some_or]
      | none =>
        rw [Option.none_or]
        -- the copy has every field of the input, so a missing one is missing in both
        cases reduced : reduce c input with
        | ok out =>
          rw [copyOf_eq reduced, ← BTreeMap.not_mem_iff] at found
          exact BTreeMap.not_mem_iff.mp fun present =>
            found (reduce_keeps_keys c reduced key present)
        | error e =>
          unfold copyOf at found
          rwa [reduced] at found
    constructor
    · intro other member out reduced key _
      rw [List.mem_singleton.mp member] at reduced
      rw [copied, copyOf_eq reduced]
    · intro key none
      rw [copied]
      have same := mt changesKey_iff.mpr (none c List.mem_cons_self)
      exact not_not.mp same
  · simp at single

/-! ### When nothing is lost -/

/-- The `Parallel` succeeds, its fields keep the changes of the branches, and so do those of every
reordering, which are the same. -/
def Lossless (branches : List Combinator) (input : CombinatorInput) : Prop :=
  ∃ merged, reduce (.parallel branches) input = .ok merged ∧
    KeepsChanges branches input merged.fields ∧
    ∀ permuted, branches.Perm permuted →
      ∃ other, reduce (.parallel permuted) input = .ok other ∧ other.fields = merged.fields

theorem lossless_of_keepsChanges (reduces : ∀ c ∈ branches, ∃ out, reduce c input = .ok out)
    (keeps : ∀ permuted, branches.Perm permuted →
      KeepsChanges permuted input (mergedFields input permuted)) : Lossless branches input := by
  obtain ⟨merged, reduced, fields⟩ := reduce_parallel_eq_ok reduces
  refine ⟨merged, reduced, fields ▸ keeps branches (.refl branches), fun permuted perm => ?_⟩
  obtain ⟨other, reordered, otherFields⟩ :=
    reduce_parallel_eq_ok fun c member => reduces c (perm.mem_iff.mpr member)
  refine ⟨other, reordered, ?_⟩
  rw [otherFields, fields]
  exact ((keeps permuted perm).perm perm.symm).unique (keeps branches (.refl branches))

/-- A change of a field of the input is gone once its branch comes before another. -/
theorem mergedFields_of_stale {others : List Combinator}
    (apart : Apart input (c :: others)) (nonempty : others ≠ []) (present : key ∈ input.fields)
    (changes : ChangesKey input c key) :
    (mergedFields input (c :: others))[key]? = input.fields[key]? := by
  unfold mergedFields
  rw [List.map_cons, List.foldl_cons]
  apply BTreeMap.foldl_overlay_stale present
  · simpa using nonempty
  · intro copy handed
    obtain ⟨other, member, rfl⟩ := List.mem_map.mp handed
    intro again
    exact (List.pairwise_cons.mp apart).1 other member key ⟨changes, changesKey_iff.mpr again⟩

/-- **When a `Parallel` loses nothing.** For branches that all succeed and change different keys, the
output has every change and is the same in every order exactly where there is at most one branch or
no branch changes a key that the input already has. -/
theorem parallel_lossless_iff (branches : List Combinator) (input : CombinatorInput)
    (reduces : ∀ c ∈ branches, ∃ out, reduce c input = .ok out) (apart : Apart input branches) :
    Lossless branches input ↔
      branches.length ≤ 1 ∨ ∀ c ∈ branches, ∀ key ∈ input.fields, ¬ ChangesKey input c key := by
  constructor
  · rintro ⟨merged, _, keeps, reorder⟩
    by_contra condition
    push Not at condition
    obtain ⟨several, c, member, key, present, out, reduced, changes⟩ := condition
    obtain ⟨earlier, later, rfl⟩ := List.append_of_mem member
    -- with the changing branch in front, another one is left to undo it
    have front : (earlier ++ c :: later).Perm (c :: (earlier ++ later)) := List.perm_middle
    have nonempty : earlier ++ later ≠ [] := by
      intro none
      have length := front.length_eq
      rw [none, List.length_singleton] at length
      omega
    obtain ⟨other, reordered, same⟩ := reorder _ front
    obtain ⟨found, again, fields⟩ :=
      reduce_parallel_eq_ok fun c member => reduces c (front.mem_iff.mpr member)
    have found_eq : found = other := by
      rw [reordered] at again
      exact (Except.ok.inj again).symm
    have lost := mergedFields_of_stale (apart.perm front) nonempty present ⟨out, reduced, changes⟩
    rw [← fields, found_eq, same, keeps.changed c member out reduced key changes] at lost
    exact changes lost
  · rintro (single | fresh)
    · refine lossless_of_keepsChanges reduces fun permuted perm => ?_
      exact keepsChanges_of_single (perm.length_eq ▸ single)
    · refine lossless_of_keepsChanges reduces fun permuted perm => ?_
      exact keepsChanges_of_fresh (apart.perm perm) fun c member => fresh c (perm.mem_iff.mpr member)

end Parallel

namespace Stale

/-- Set a field. -/
def setField (key value : String) : Combinator := .transform .identity ⟨"set", key, value⟩

theorem reduce_setField (key value : String) (input : CombinatorInput) :
    reduce (setField key value) input = .ok ((CombinatorOutput.fromInput input).set key value) :=
  reduce_transform_eq_ok_iff.mpr ⟨_, reduce_identity input, rfl⟩

/-- A branch that sets a field changes no other. -/
theorem eq_of_changesKey_setField {input : CombinatorInput} {key value other : String}
    (changes : ChangesKey input (setField key value) other) : other = key := by
  obtain ⟨out, reduced, different⟩ := changes
  rw [reduce_setField] at reduced
  cases reduced
  by_contra apart
  exact different (BTreeMap.getElem?_insert_of_ne value (Ne.symm apart))

theorem not_changesKey_identity {input : CombinatorInput} {key : String} :
    ¬ ChangesKey input .identity key := by
  rintro ⟨out, reduced, different⟩
  rw [reduce_identity] at reduced
  cases reduced
  exact different rfl

/-- Two branches that add a field each. -/
def additions : List Combinator := [setField "a" "1", setField "b" "2"]

/-- Two added fields are kept in either order. -/
theorem additions_lossless :
    (∀ c ∈ additions, ∃ out, reduce c ⟨∅⟩ = .ok out) ∧ Apart ⟨∅⟩ additions ∧
      Lossless additions ⟨∅⟩ := by
  have reduces : ∀ c ∈ additions, ∃ out, reduce c ⟨∅⟩ = .ok out := by
    intro c member
    rcases List.mem_pair.mp member with rfl | rfl
    · exact ⟨_, reduce_setField "a" "1" ⟨∅⟩⟩
    · exact ⟨_, reduce_setField "b" "2" ⟨∅⟩⟩
  have apart : Apart ⟨∅⟩ additions := by
    refine List.pairwise_pair.mpr fun key both => ?_
    have same := (eq_of_changesKey_setField both.1).symm.trans (eq_of_changesKey_setField both.2)
    exact absurd same (by decide)
  refine ⟨reduces, apart, (parallel_lossless_iff additions ⟨∅⟩ reduces apart).mpr (.inr ?_)⟩
  intro c _ key present
  exact absurd present Std.ExtTreeMap.not_mem_empty

/-- A field and its value. -/
def held : CombinatorInput := ⟨(∅ : BTreeMap String String).insert "k" "old"⟩

/-- One branch sets the field, the other leaves everything alone. -/
def update : List Combinator := [setField "k" "new", .identity]

/-- The change of the field is lost. -/
theorem change_lost :
    (∀ c ∈ update, ∃ out, reduce c held = .ok out) ∧ Apart held update ∧
      (∃ merged, reduce (.parallel update) held = .ok merged ∧ merged.fields["k"]? = some "old") ∧
      ¬ Lossless update held := by
  have reduces : ∀ c ∈ update, ∃ out, reduce c held = .ok out := by
    intro c member
    rcases List.mem_pair.mp member with rfl | rfl
    · exact ⟨_, reduce_setField "k" "new" held⟩
    · exact ⟨_, reduce_identity held⟩
  have apart : Apart held update :=
    List.pairwise_pair.mpr fun key both => not_changesKey_identity both.2
  have old : held.fields["k"]? = some "old" := Std.ExtTreeMap.getElem?_insert_self
  have new : ((CombinatorOutput.fromInput held).set "k" "new").fields["k"]? = some "new" :=
    Std.ExtTreeMap.getElem?_insert_self
  have different : ((CombinatorOutput.fromInput held).set "k" "new").fields["k"]? ≠
      held.fields["k"]? := by
    rw [new, old]
    decide
  have changes : ChangesKey held (setField "k" "new") "k" :=
    ⟨_, reduce_setField "k" "new" held, different⟩
  obtain ⟨merged, reduced, fields⟩ := reduce_parallel_eq_ok reduces
  have lost : merged.fields["k"]? = some "old" := by
    rw [fields, ← old]
    exact mergedFields_of_stale apart (by decide)
      (BTreeMap.mem_iff_exists.mpr ⟨"old", old⟩) changes
  refine ⟨reduces, apart, ⟨merged, reduced, lost⟩, ?_⟩
  rintro ⟨found, again, keeps, _⟩
  rw [reduced] at again
  cases again
  have kept := keeps.changed (setField "k" "new") List.mem_cons_self _
    (reduce_setField "k" "new" held) "k" different
  rw [lost, new] at kept
  exact absurd kept (by decide)

end Stale

end Exochain.ExoGatekeeper
