/-
**Depth-first search with a set of visited nodes.**

`search` looks for a target from a node: it stops at the target, turns back at a visited node, and
otherwise marks the node and tries its successors in order, with the marks of each attempt handed to
the next. The fuel bounds the recursion; `none` is a search that ran out of it.

* `search_true` — a search that answers yes found a path.
* `search_false` — a search that answers no leaves a set of marks that holds the start and, with
  every node it marked, all its successors, and marked no target.
* `search_total` — the fuel suffices if it exceeds the number of unmarked nodes of a set that is
  closed under successors.

**`reaches_iff`** — with that much fuel the search from the empty set decides reachability.
-/

import Exochain.Foundation.Run

set_option linter.unusedSectionVars false

namespace Foundation

section Search

variable {α : Type*} [DecidableEq α] (succ : α → List α) (target : α)

/-- Visit the nodes of a list in order, until one visit answers yes. -/
def visitAll (visit : α → Finset α → Option (Bool × Finset α)) :
    List α → Finset α → Option (Bool × Finset α)
  | [], visited => some (false, visited)
  | node :: rest, visited =>
    match visit node visited with
    | none => none
    | some (true, visited) => some (true, visited)
    | some (false, visited) => visitAll visit rest visited

/-- Search for the target from a node. -/
def search : ℕ → α → Finset α → Option (Bool × Finset α)
  | 0, _, _ => none
  | fuel + 1, node, visited =>
    if node = target then some (true, visited)
    else if node ∈ visited then some (false, visited)
    else visitAll (search fuel) (succ node) (insert node visited)

/-- Whether the search from the empty set answers yes. -/
def reaches (fuel : ℕ) (start : α) : Bool :=
  ((search succ target fuel start ∅).map Prod.fst).getD false

/-- The edges along which the search goes. -/
def Edge (node next : α) : Prop := next ∈ succ node

/-- **What a fruitless attempt marks**: of the nodes it marked none is the target, and their
successors are marked. -/
structure Exhausted (before after : Finset α) : Prop where
  grows : before ⊆ after
  misses : ∀ x ∈ after, x ∉ before → x ≠ target
  closed : ∀ x ∈ after, x ∉ before → ∀ y ∈ succ x, y ∈ after

variable {succ target}

theorem Exhausted.refl (visited : Finset α) : Exhausted succ target visited visited where
  grows := fun _ member => member
  misses := fun _ member fresh => absurd member fresh
  closed := fun _ member fresh => absurd member fresh

theorem Exhausted.trans {first second third : Finset α} (one : Exhausted succ target first second)
    (two : Exhausted succ target second third) : Exhausted succ target first third where
  grows := one.grows.trans two.grows
  misses x member fresh := by
    by_cases early : x ∈ second
    · exact one.misses x early fresh
    · exact two.misses x member early
  closed x member fresh y next := by
    by_cases early : x ∈ second
    · exact two.grows (one.closed x early fresh y next)
    · exact two.closed x member early y next

/-- A list of attempts adds up. -/
theorem visitAll_false {visit : α → Finset α → Option (Bool × Finset α)}
    (attempt : ∀ node before after, visit node before = some (false, after) →
      Exhausted succ target before after ∧ node ∈ after)
    {nodes : List α} {before after : Finset α}
    (answer : visitAll visit nodes before = some (false, after)) :
    Exhausted succ target before after ∧ ∀ node ∈ nodes, node ∈ after := by
  induction nodes generalizing before with
  | nil =>
    cases answer
    exact ⟨Exhausted.refl _, fun _ member => absurd member List.not_mem_nil⟩
  | cons node rest ih =>
    unfold visitAll at answer
    cases visited : visit node before with
    | none =>
      rw [visited] at answer
      cases answer
    | some out =>
      obtain ⟨found, between⟩ := out
      rw [visited] at answer
      cases found with
      | true => cases answer
      | false =>
        obtain ⟨here, marked⟩ := attempt node before between visited
        obtain ⟨later, others⟩ := ih answer
        exact ⟨here.trans later, List.forall_mem_cons.mpr ⟨later.grows marked, others⟩⟩

/-- **A search that answers no** has marked the node and exhausted what it marked. -/
theorem search_false {fuel : ℕ} {node : α} {before after : Finset α}
    (answer : search succ target fuel node before = some (false, after)) :
    Exhausted succ target before after ∧ node ∈ after := by
  induction fuel generalizing node before after with
  | zero => cases answer
  | succ fuel ih =>
    unfold search at answer
    split_ifs at answer with isTarget seen
    · cases answer
    · cases answer
      exact ⟨Exhausted.refl _, seen⟩
    · obtain ⟨rest, successors⟩ := visitAll_false (fun _ _ _ => ih) answer
      have marked := rest.grows (Finset.mem_insert_self node before)
      refine ⟨⟨?_, ?_, ?_⟩, marked⟩
      · exact (Finset.subset_insert node before).trans rest.grows
      · intro x member fresh
        by_cases same : x = node
        · rwa [same]
        · exact rest.misses x member (by simp [same, fresh])
      · intro x member fresh y next
        by_cases same : x = node
        · subst same
          exact successors y next
        · exact rest.closed x member (by simp [same, fresh]) y next

/-- **A search that answers yes** found a path. -/
theorem search_true {fuel : ℕ} {node : α} {before after : Finset α}
    (answer : search succ target fuel node before = some (true, after)) :
    Relation.ReflTransGen (Edge succ) node target := by
  induction fuel generalizing node before after with
  | zero => cases answer
  | succ fuel ih =>
    unfold search at answer
    split_ifs at answer with isTarget seen
    · rw [isTarget]
    · cases answer
    · -- the fruitful attempt is one of a successor
      have attempt : ∀ nodes visited, visitAll (search succ target fuel) nodes visited =
          some (true, after) → ∃ next ∈ nodes, Relation.ReflTransGen (Edge succ) next target := by
        intro nodes
        induction nodes with
        | nil =>
          intro visited impossible
          cases impossible
        | cons next rest later =>
          intro visited found
          unfold visitAll at found
          cases tried : search succ target fuel next visited with
          | none =>
            rw [tried] at found
            cases found
          | some out =>
            obtain ⟨success, marks⟩ := out
            rw [tried] at found
            cases success with
            | true => exact ⟨next, List.mem_cons_self, ih tried⟩
            | false =>
              obtain ⟨other, member, path⟩ := later marks found
              exact ⟨other, List.mem_cons_of_mem next member, path⟩
      obtain ⟨next, member, path⟩ := attempt _ _ answer
      exact .head member path

/-- **The fuel suffices** if it exceeds the number of unmarked nodes of a closed set. -/
theorem search_total {domain : Finset α} (closed : ∀ x ∈ domain, ∀ y ∈ succ x, y ∈ domain)
    {fuel : ℕ} {node : α} (inside : node ∈ domain) (before : Finset α)
    (enough : (domain \ before).card < fuel) :
    ∃ out, search succ target fuel node before = some out := by
  induction fuel generalizing node before with
  | zero => exact absurd enough (Nat.not_lt_zero _)
  | succ fuel ih =>
    unfold search
    split_ifs with isTarget seen
    · exact ⟨_, rfl⟩
    · exact ⟨_, rfl⟩
    · have fewer : (domain \ insert node before).card < fuel := by
        have strict : domain \ insert node before ⊂ domain \ before := by
          refine Finset.ssubset_iff_of_subset ?_ |>.mpr ⟨node, by simp [inside, seen], by simp⟩
          exact Finset.sdiff_subset_sdiff (Finset.Subset.refl _) (Finset.subset_insert _ _)
        have less := Finset.card_lt_card strict
        omega
      -- each attempt keeps the marks, so what is left unmarked stays below the fuel
      have attempts : ∀ nodes visited, (∀ next ∈ nodes, next ∈ domain) →
          (domain \ visited).card < fuel →
          ∃ out, visitAll (search succ target fuel) nodes visited = some out := by
        intro nodes
        induction nodes with
        | nil => exact fun visited _ _ => ⟨_, rfl⟩
        | cons next rest later =>
          intro visited within room
          obtain ⟨here, others⟩ := List.forall_mem_cons.mp within
          obtain ⟨⟨success, marks⟩, tried⟩ := ih here visited room
          unfold visitAll
          rw [tried]
          cases success with
          | true => exact ⟨_, rfl⟩
          | false =>
            have grows := (search_false tried).1.grows
            have smaller := Finset.card_le_card
              (Finset.sdiff_subset_sdiff (Finset.Subset.refl domain) grows)
            exact later marks others (by omega)
      exact attempts _ _ (closed node inside) fewer

/-- **The search decides reachability.** -/
theorem reaches_iff {domain : Finset α} (closed : ∀ x ∈ domain, ∀ y ∈ succ x, y ∈ domain)
    {fuel : ℕ} {start : α} (inside : start ∈ domain) (enough : domain.card < fuel) :
    reaches succ target fuel start = true ↔ Relation.ReflTransGen (Edge succ) start target := by
  obtain ⟨⟨found, marks⟩, answer⟩ :=
    search_total closed inside ∅ (by simpa using enough)
  have answered : reaches succ target fuel start = found := by
    rw [reaches, answer, Option.map_some, Option.getD_some]
  rw [answered]
  cases found with
  | true => exact ⟨fun _ => search_true answer, fun _ => rfl⟩
  | false =>
    obtain ⟨exhausted, marked⟩ := search_false answer
    refine ⟨fun impossible => (by cases impossible), fun path => ?_⟩
    -- the marks hold the start and are closed, so they would hold the target
    have stays : ∀ x, Relation.ReflTransGen (Edge succ) start x → x ∈ marks := by
      intro x path
      induction path with
      | refl => exact marked
      | tail _ edge ih => exact exhausted.closed _ ih (Finset.notMem_empty _) _ edge
    exact absurd rfl (exhausted.misses target (stays target path) (Finset.notMem_empty _))

end Search

end Foundation
