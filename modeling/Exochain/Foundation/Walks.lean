/-
**Depth-bounded search for a walk.**

A walk goes from node to node along links; each link leaves one node and arrives at another.
`searchWithin` looks for a walk to a target by depth-first search with a bound on the number of links and
one path that all attempts share: a link is pushed before it is tried and popped if it was tried in vain.
Nodes are not marked, so a node can be tried again at another depth.

* `Walk` — the walks between two nodes, for any relation of nodes to the links that leave them.
* `tryLinks_spec` — the loop over the links of a node, given what one deeper attempt does.
* **`searchWithin_spec`** — the search ends with the path it was given and a walk within the bound, or
  with the path as it was, and then there is no such walk.
-/

import Mathlib

namespace Foundation

section Walks

variable {N L : Type*}

/-- The links form a walk from one node to another. -/
def Walk (leaves : N → L → Prop) (finish : L → N) : N → List L → N → Prop
  | source, [], target => source = target
  | source, link :: rest, target => leaves source link ∧ Walk leaves finish (finish link) rest target

variable {leaves leaves' : N → L → Prop} {finish : L → N} {source target : N}

theorem Walk.mono (more : ∀ node link, leaves node link → leaves' node link) {walk : List L}
    (walks : Walk leaves finish source walk target) : Walk leaves' finish source walk target := by
  induction walk generalizing source with
  | nil => exact walks
  | cons link rest ih => exact ⟨more _ _ walks.1, ih walks.2⟩

theorem walk_congr (same : ∀ node link, leaves node link ↔ leaves' node link) {walk : List L} :
    Walk leaves finish source walk target ↔ Walk leaves' finish source walk target :=
  ⟨Walk.mono fun node link => (same node link).mp, Walk.mono fun node link => (same node link).mpr⟩

/-- A walk that is not empty arrives where its last link does. -/
theorem Walk.finish_getLast? {walk : List L} (walks : Walk leaves finish source walk target)
    (nonempty : walk ≠ []) : walk.getLast?.map finish = some target := by
  induction walk generalizing source with
  | nil => exact absurd rfl nonempty
  | cons link rest ih =>
    cases rest with
    | nil => exact congrArg some walks.2
    | cons next rest =>
      rw [List.getLast?_cons_cons]
      exact ih walks.2 (List.cons_ne_nil _ _)

end Walks

/-! ### The search -/

section Search

variable {N L : Type*} (outgoing : N → List L) (finish : L → N) (target : N)

/-- Try the links of a list in order, each with `visit` unless it arrives at the target. A link is pushed
onto the path before it is tried, and popped after an attempt in vain. -/
def tryLinks [DecidableEq N] (visit : N → List L → Bool × List L) : List L → List L → Bool × List L
  | [], path => (false, path)
  | link :: rest, path =>
    let pushed := path ++ [link]
    if finish link = target then (true, pushed)
    else
      match visit (finish link) pushed with
      | (true, found) => (true, found)
      | (false, left) => tryLinks visit rest left.dropLast

/-- Search for the target from a node, by at most `depth` links. -/
def searchWithin [DecidableEq N] : ℕ → N → List L → Bool × List L
  | 0, _, path => (false, path)
  | depth + 1, node, path => tryLinks finish target (searchWithin depth) (outgoing node) path

/-- The walks that the search looks for: at least one link, and at most `depth`. -/
structure WalkWithin (depth : ℕ) (source : N) (walk : List L) : Prop where
  walks : Walk (fun node link => link ∈ outgoing node) finish source walk target
  nonempty : walk ≠ []
  short : walk.length ≤ depth

/-- **What an attempt does**: it extends the path by a walk, or leaves it, and then there is none. -/
inductive Attempt (depth : ℕ) (source : N) (path : List L) (answer : Bool × List L) : Prop
  | found (walk : List L) (within : WalkWithin outgoing finish target depth source walk)
      (extended : answer = (true, path ++ walk))
  | missed (none : ∀ walk, ¬ WalkWithin outgoing finish target depth source walk)
      (restored : answer = (false, path))

variable {outgoing finish target}

/-- A walk within one more link: a link to the target, or a link and a walk within the bound. -/
theorem walkWithin_cons_iff {depth : ℕ} {source : N} {link : L} {rest : List L} :
    WalkWithin outgoing finish target (depth + 1) source (link :: rest) ↔
      link ∈ outgoing source ∧
        (finish link = target ∧ rest = [] ∨
          WalkWithin outgoing finish target depth (finish link) rest) := by
  constructor
  · rintro ⟨⟨leaves, walks⟩, _, short⟩
    refine ⟨leaves, ?_⟩
    cases rest with
    | nil => exact .inl ⟨walks, rfl⟩
    | cons next rest => exact .inr ⟨walks, List.cons_ne_nil _ _, Nat.le_of_succ_le_succ short⟩
  · rintro ⟨leaves, ⟨arrives, rfl⟩ | ⟨walks, _, short⟩⟩
    · exact ⟨⟨leaves, arrives⟩, List.cons_ne_nil _ _, Nat.succ_le_succ (Nat.zero_le _)⟩
    · exact ⟨⟨leaves, walks⟩, List.cons_ne_nil _ _, Nat.succ_le_succ short⟩

/-- The loop over links, when every deeper attempt does what it should: a walk that starts with one of
the links, or the path as it was and no such walk. -/
theorem tryLinks_spec [DecidableEq N] {depth : ℕ} {visit : N → List L → Bool × List L}
    (attempt : ∀ node path, Attempt outgoing finish target depth node path (visit node path))
    (links path : List L) :
    (∃ link ∈ links, ∃ rest,
      (finish link = target ∧ rest = [] ∨
        WalkWithin outgoing finish target depth (finish link) rest) ∧
      tryLinks finish target visit links path = (true, path ++ link :: rest)) ∨
    ((∀ link ∈ links, finish link ≠ target ∧
        ∀ rest, ¬ WalkWithin outgoing finish target depth (finish link) rest) ∧
      tryLinks finish target visit links path = (false, path)) := by
  induction links with
  | nil => exact .inr ⟨fun _ member => absurd member List.not_mem_nil, rfl⟩
  | cons link links ih =>
    rw [tryLinks]
    by_cases arrives : finish link = target
    · rw [if_pos arrives]
      exact .inl ⟨link, List.mem_cons_self, [], .inl ⟨arrives, rfl⟩, rfl⟩
    · rw [if_neg arrives]
      cases attempt (finish link) (path ++ [link]) with
      | found walk within extended =>
        rw [extended]
        refine .inl ⟨link, List.mem_cons_self, walk, .inr within, ?_⟩
        rw [List.append_assoc, List.singleton_append]
      | missed none restored =>
        -- the link is popped, and the loop goes on from the path as it was
        rw [restored]
        simp only [List.dropLast_concat]
        rcases ih with ⟨later, member, rest, walks, answer⟩ | ⟨others, answer⟩
        · exact .inl ⟨later, List.mem_cons_of_mem _ member, rest, walks, answer⟩
        · exact .inr ⟨List.forall_mem_cons.mpr ⟨⟨arrives, none⟩, others⟩, answer⟩

variable (outgoing) (finish) (target) in
/-- **The search is sound and complete within its bound**, and leaves the path as it was if there is
nothing to find. -/
theorem searchWithin_spec [DecidableEq N] (depth : ℕ) (node : N) (path : List L) :
    Attempt outgoing finish target depth node path
      (searchWithin outgoing finish target depth node path) := by
  induction depth generalizing node path with
  | zero =>
    refine .missed (fun walk within => within.nonempty ?_) rfl
    exact List.length_eq_zero_iff.mp (Nat.le_zero.mp within.short)
  | succ depth ih =>
    rw [searchWithin]
    rcases tryLinks_spec ih (outgoing node) path with
      ⟨link, listed, rest, walks, answer⟩ | ⟨none, answer⟩
    · exact .found (link :: rest) (walkWithin_cons_iff.mpr ⟨listed, walks⟩) answer
    · refine .missed (fun walk within => ?_) answer
      cases walk with
      | nil => exact within.nonempty rfl
      | cons link rest =>
        obtain ⟨listed, walks⟩ := walkWithin_cons_iff.mp within
        obtain ⟨away, nothing⟩ := none link listed
        rcases walks with ⟨arrives, _⟩ | walks
        · exact away arrives
        · exact nothing rest walks

end Search

end Foundation
