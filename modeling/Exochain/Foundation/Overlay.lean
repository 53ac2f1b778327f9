/-
**Overlays of maps.**

Several parties each take a copy of a base map, change some entries of it and hand the whole copy
back; the copies are then laid over the base one after the other, and where two copies have a key the
later one wins. A copy is a *layer*, and it `Changes` a key where it looks up differently from the
base.

* `getElem?_overlay` — the lookup in one overlay.
* `foldl_overlay_changed`, `foldl_overlay_unchanged` — **layers that only add keys keep each other's
  changes**: whatever the order, a key that one of them adds has the value it was given, and a key
  that none adds is as in the base.
* `foldl_overlay_stale` — **a copy that did not change a key undoes the change of an earlier one**: a
  key of the base has its old value again after any further layer that left it alone.
-/

import Exochain.Foundation.Collections

set_option linter.unusedSectionVars false

namespace Foundation

namespace BTreeMap

variable {K V : Type} [Ord K] [Std.TransOrd K] [Std.LawfulEqOrd K]

/-! ### One overlay -/

theorem getElem?_foldl_insert (entries : List (K × V))
    (distinct : entries.Pairwise fun a b => a.1 ≠ b.1) (map : BTreeMap K V) (key : K) :
    (∀ value, (key, value) ∈ entries →
      (entries.foldl (fun table entry => table.insert entry.1 entry.2) map)[key]? = some value) ∧
    ((∀ value, (key, value) ∉ entries) →
      (entries.foldl (fun table entry => table.insert entry.1 entry.2) map)[key]? = map[key]?) := by
  induction entries generalizing map with
  | nil => simp
  | cons entry rest ih =>
    obtain ⟨apart, distinct⟩ := List.pairwise_cons.mp distinct
    obtain ⟨present, missing⟩ := ih distinct (map.insert entry.1 entry.2)
    constructor
    · intro value member
      rcases List.mem_cons.mp member with rfl | member
      · rw [List.foldl_cons, missing]
        · exact Std.ExtTreeMap.getElem?_insert_self
        · intro other again
          exact apart _ again rfl
      · exact present value member
    · intro absent
      rw [List.foldl_cons, missing fun value member => absent value (List.mem_cons_of_mem _ member)]
      apply getElem?_insert_of_ne
      rintro rfl
      exact absent entry.2 List.mem_cons_self

/-- Store every entry of a layer. -/
def overlay (map layer : BTreeMap K V) : BTreeMap K V :=
  layer.foldl (fun table key value => table.insert key value) map

/-- The layer where it has the key, the map below otherwise. -/
theorem getElem?_overlay (map layer : BTreeMap K V) (key : K) :
    (overlay map layer)[key]? = layer[key]?.or map[key]? := by
  have distinct : layer.toList.Pairwise fun a b => a.1 ≠ b.1 :=
    Std.ExtTreeMap.distinct_keys_toList.imp fun apart same => apart (Std.compare_eq_iff_eq.mpr same)
  obtain ⟨present, missing⟩ := getElem?_foldl_insert layer.toList distinct map key
  unfold overlay
  rw [Std.ExtTreeMap.foldl_eq_foldl_toList]
  cases found : layer[key]? with
  | none =>
    rw [Option.none_or]
    refine missing fun value member => ?_
    rw [Std.ExtTreeMap.mem_toList_iff_getElem?_eq_some, found] at member
    cases member
  | some value =>
    rw [Option.some_or]
    exact present value (Std.ExtTreeMap.mem_toList_iff_getElem?_eq_some.mpr found)

/-! ### Layers -/

/-- The layer looks the key up differently from the base. -/
def Changes (base layer : BTreeMap K V) (key : K) : Prop := layer[key]? ≠ base[key]?

/-- A layer with the key as in the base leaves it as it is. -/
theorem getElem?_overlay_of_eq {map layer : BTreeMap K V} {key : K}
    (same : layer[key]? = map[key]?) : (overlay map layer)[key]? = map[key]? := by
  rw [getElem?_overlay, same, Option.or_self]

/-- A key that no layer has differently is as in the base. -/
theorem foldl_overlay_unchanged {base : BTreeMap K V} {layers : List (BTreeMap K V)} {key : K}
    (unchanged : ∀ layer ∈ layers, ¬ Changes base layer key) :
    (layers.foldl overlay base)[key]? = base[key]? := by
  induction layers generalizing base with
  | nil => rfl
  | cons layer rest ih =>
    have first : (overlay base layer)[key]? = base[key]? :=
      getElem?_overlay_of_eq (not_not.mp (unchanged layer List.mem_cons_self))
    rw [List.foldl_cons, ih, first]
    intro later member
    unfold Changes
    rw [first]
    exact unchanged later (List.mem_cons_of_mem _ member)

/-- Layers without the key leave what they are laid over. -/
theorem foldl_overlay_missing {map : BTreeMap K V} {layers : List (BTreeMap K V)} {key : K}
    (missing : ∀ layer ∈ layers, layer[key]? = none) :
    (layers.foldl overlay map)[key]? = map[key]? := by
  induction layers generalizing map with
  | nil => rfl
  | cons layer rest ih =>
    rw [List.foldl_cons, ih fun next after => missing next (List.mem_cons_of_mem _ after),
      getElem?_overlay, missing layer List.mem_cons_self, Option.none_or]

/-- **A key that one layer adds has the value it was given**, whatever the order. -/
theorem foldl_overlay_changed {base : BTreeMap K V} {layers : List (BTreeMap K V)}
    (apart : layers.Pairwise fun a b => ∀ key, ¬ (Changes base a key ∧ Changes base b key))
    {layer : BTreeMap K V} (member : layer ∈ layers) {key : K} (changes : Changes base layer key)
    (fresh : base[key]? = none) : (layers.foldl overlay base)[key]? = layer[key]? := by
  obtain ⟨earlier, later, rfl⟩ := List.append_of_mem member
  have others : ∀ other ∈ later, ¬ Changes base other key := by
    intro other after both
    have later := (List.pairwise_append.mp apart).2.1
    exact (List.pairwise_cons.mp later).1 other after key ⟨changes, both⟩
  obtain ⟨value, found⟩ : ∃ value, layer[key]? = some value := by
    rw [Changes, fresh] at changes
    exact Option.ne_none_iff_exists'.mp changes
  rw [List.foldl_append, List.foldl_cons, foldl_overlay_missing, getElem?_overlay, found,
    Option.some_or]
  intro other after
  exact (not_not.mp (others other after)).trans fresh

/-- **A copy that left a key of the base alone undoes an earlier change of it.** -/
theorem foldl_overlay_stale {base map : BTreeMap K V} {layers : List (BTreeMap K V)} {key : K}
    (present : key ∈ base) (nonempty : layers ≠ [])
    (unchanged : ∀ layer ∈ layers, ¬ Changes base layer key) :
    (layers.foldl overlay map)[key]? = base[key]? := by
  obtain ⟨value, found⟩ := mem_iff_exists.mp present
  have restored : ∀ (below : BTreeMap K V), ∀ layer ∈ layers,
      (overlay below layer)[key]? = base[key]? := by
    intro below layer member
    rw [getElem?_overlay, not_not.mp (unchanged layer member), found, Option.some_or]
  induction layers generalizing map with
  | nil => exact absurd rfl nonempty
  | cons layer rest ih =>
    rw [List.foldl_cons]
    by_cases last : rest = []
    · rw [last]
      exact restored map layer List.mem_cons_self
    · exact ih last (fun next after => unchanged next (List.mem_cons_of_mem _ after))
        (fun below next after => restored below next (List.mem_cons_of_mem _ after))

end BTreeMap

end Foundation
