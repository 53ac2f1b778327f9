/-
**Hash trees over a list, by pairing neighbours.**

The common way to build a hash tree over a list of any length: pair the neighbours from the left,
pair an odd last element with itself, and repeat until one element is left.

* `pairLevel` — one level; `pairReduce` — all of them. Both take the pairing as a parameter, so the
  same loop runs on digests and on trees.
* `grow` — the loop on perfect trees of one height. Its result has height `⌈log₂ n⌉` more
  (`grow_height`), the digests of the loop on digests (`pairReduce_digest`), and the leaves of the
  list followed by repetitions (`leaves_grow`).
* `completion` — the leaves of the tree over a list: the list itself, completed to a power of two by
  repeating the odd end of each level.
-/

import Exochain.Foundation.Merkle

set_option linter.unusedSectionVars false

namespace Foundation

/-! ### One level -/

section Level

variable {γ γ' η η' : Type*}

/-- Neighbours paired from the left; an odd last element is paired with itself. -/
def pairLevel (pair : γ → γ → γ') : List γ → List γ'
  | [] => []
  | [x] => [pair x x]
  | x :: y :: rest => pair x y :: pairLevel pair rest

@[simp] theorem length_pairLevel (pair : γ → γ → γ') (xs : List γ) :
    (pairLevel pair xs).length = (xs.length + 1) / 2 := by
  fun_induction pairLevel pair xs with
  | case1 => simp
  | case2 x => simp
  | case3 x y rest ih =>
    simp only [List.length_cons, ih]
    omega

/-- A pair of neighbours is at half of their index. -/
theorem getElem?_pairLevel {pair : γ → γ → γ'} {xs : List γ} {k : ℕ} {x y : γ}
    (first : xs[2 * k]? = some x) (second : xs[2 * k + 1]? = some y) :
    (pairLevel pair xs)[k]? = some (pair x y) := by
  induction k generalizing xs with
  | zero =>
    match xs, first, second with
    | x' :: y' :: rest, first, second =>
      cases first
      cases second
      rfl
  | succ k ih =>
    match xs, first, second with
    | _ :: _ :: rest, first, second => exact ih first second

/-- To repeat the odd last element beforehand changes nothing. -/
theorem pairLevel_concat_last (pair : γ → γ → γ') {xs : List γ} (odd : xs.length % 2 = 1) :
    pairLevel pair (xs ++ xs.getLast?.toList) = pairLevel pair xs := by
  induction xs using pairLevel.induct with
  | case1 => cases odd
  | case2 x => rfl
  | case3 x y rest ih =>
    have odd : rest.length % 2 = 1 := by
      simp only [List.length_cons] at odd
      omega
    have last : (x :: y :: rest).getLast? = rest.getLast? := by
      cases rest with
      | nil => cases odd
      | cons z rest => rfl
    rw [last, List.cons_append, List.cons_append, pairLevel, pairLevel, ih odd]

/-- A map that respects the pairings respects the level. -/
theorem map_pairLevel {pair : γ → γ → γ'} {pair' : η → η → η'} {f : γ → η} {g : γ' → η'}
    (respects : ∀ x y, g (pair x y) = pair' (f x) (f y)) (xs : List γ) :
    (pairLevel pair xs).map g = pairLevel pair' (xs.map f) := by
  fun_induction pairLevel pair xs with
  | case1 => rfl
  | case2 x => simp [pairLevel, respects]
  | case3 x y rest ih => simp [pairLevel, respects, ih]

/-- What a level holds was paired in it. -/
theorem exists_of_mem_pairLevel {pair : γ → γ → γ'} {xs : List γ} {z : γ'}
    (member : z ∈ pairLevel pair xs) :
    ∃ x ∈ xs, ∃ y ∈ xs, z = pair x y ∧ (x, y) ∈ pairLevel Prod.mk xs := by
  fun_induction pairLevel pair xs with
  | case1 => cases member
  | case2 x =>
    rw [List.mem_singleton] at member
    exact ⟨x, by simp, x, by simp, member, by simp [pairLevel]⟩
  | case3 x y rest ih =>
    rcases List.mem_cons.mp member with here | later
    · exact ⟨x, by simp, y, by simp, here, by simp [pairLevel]⟩
    · obtain ⟨x', inX, y', inY, same, paired⟩ := ih later
      exact ⟨x', by simp [inX], y', by simp [inY], same, by simp [pairLevel, paired]⟩

end Level

/-! ### All levels -/

section Reduce

variable {γ : Type*} (pair : γ → γ → γ)

theorem length_pairLevel_lt {xs : List γ} (several : 1 < xs.length) :
    (pairLevel pair xs).length < xs.length := by
  rw [length_pairLevel]
  omega

/-- Level after level, until at most one element is left. -/
def pairReduce (xs : List γ) : List γ :=
  if 1 < xs.length then pairReduce (pairLevel pair xs) else xs
termination_by xs.length
decreasing_by exact length_pairLevel_lt pair ‹_›

/-- The pairs that `pairReduce` combines. -/
def reducedPairs (xs : List γ) : List (γ × γ) :=
  if 1 < xs.length then pairLevel Prod.mk xs ++ reducedPairs (pairLevel pair xs) else []
termination_by xs.length
decreasing_by exact length_pairLevel_lt pair ‹_›

/-- The levels above the list, the last one being the root alone. -/
def levelsAbove (xs : List γ) : List (List γ) :=
  if 1 < xs.length then pairLevel pair xs :: levelsAbove (pairLevel pair xs) else []
termination_by xs.length
decreasing_by exact length_pairLevel_lt pair ‹_›

variable {pair} {xs : List γ}

theorem pairReduce_of_several (several : 1 < xs.length) :
    pairReduce pair xs = pairReduce pair (pairLevel pair xs) := by
  rw [pairReduce, if_pos several]

theorem pairReduce_singleton (x : γ) : pairReduce pair [x] = [x] := by
  rw [pairReduce, if_neg (by simp)]

theorem reducedPairs_of_several (several : 1 < xs.length) :
    reducedPairs pair xs = pairLevel Prod.mk xs ++ reducedPairs pair (pairLevel pair xs) := by
  rw [reducedPairs, if_pos several]

end Reduce

/-! ### The tree over a list -/

section Grow

variable {α β δ : Type*}

/-- The loop on perfect trees of one height. -/
def grow : {height : ℕ} → PerfectTree α height → List (PerfectTree α height) →
    Σ top, PerfectTree α top
  | height, first, [] => ⟨height, first⟩
  | _, first, second :: rest => grow (.node first second) (pairLevel .node rest)
termination_by _ _ rest => rest.length
decreasing_by
  rw [length_pairLevel, List.length_cons]
  omega

/-- **The height of the result.** -/
theorem grow_height {height : ℕ} (first : PerfectTree α height)
    (rest : List (PerfectTree α height)) :
    (grow first rest).1 = height + Nat.clog 2 (rest.length + 1) := by
  fun_induction grow first rest with
  | case1 height first => simp
  | case2 height first second rest ih =>
    have half : (rest.length + 1 + 1 + 2 - 1) / 2 = (rest.length + 1) / 2 + 1 := by omega
    have levels : Nat.clog 2 (rest.length + 1 + 1) = Nat.clog 2 ((rest.length + 1) / 2 + 1) + 1 := by
      rw [Nat.clog_of_two_le (by omega) (by omega), half]
    rw [ih, length_pairLevel, List.length_cons, levels]
    omega

variable (hasher : TreeHasher α β δ)

/-- The pairing of digests in a tree. -/
def TreeHasher.pair (left right : δ) : δ := hasher.hash (hasher.nodeInput left right)

theorem digest_pairLevel {height : ℕ} (trees : List (PerfectTree α height)) :
    (pairLevel PerfectTree.node trees).map (PerfectTree.digest hasher) =
      pairLevel hasher.pair (trees.map (PerfectTree.digest hasher)) := by
  apply map_pairLevel
  exact fun _ _ => rfl

/-- **The loop on digests computes the digest of the grown tree.** -/
theorem pairReduce_digest {height : ℕ} (first : PerfectTree α height)
    (rest : List (PerfectTree α height)) :
    pairReduce hasher.pair ((first :: rest).map (PerfectTree.digest hasher)) =
      [(grow first rest).2.digest hasher] := by
  fun_induction grow first rest with
  | case1 height first => exact pairReduce_singleton _
  | case2 height first second rest ih =>
    rw [pairReduce_of_several (by simp), ← digest_pairLevel]
    exact ih

/-- A level of trees repeats at most leaves that are there. -/
theorem leaves_pairLevel {height : ℕ} (trees : List (PerfectTree α height)) :
    ∃ more, (pairLevel PerfectTree.node trees).flatMap PerfectTree.leaves =
        trees.flatMap PerfectTree.leaves ++ more ∧
      ∀ x ∈ more, x ∈ trees.flatMap PerfectTree.leaves := by
  fun_induction pairLevel PerfectTree.node trees with
  | case1 => exact ⟨[], rfl, fun x member => absurd member List.not_mem_nil⟩
  | case2 tree =>
    refine ⟨tree.leaves, ?_, fun x member => ?_⟩
    · simp [PerfectTree.leaves]
    · simpa using member
  | case3 first second rest ih =>
    obtain ⟨more, same, among⟩ := ih
    refine ⟨more, ?_, fun x member => ?_⟩
    · simp only [List.flatMap_cons, same, PerfectTree.leaves, List.append_assoc]
    · simp only [List.flatMap_cons, List.mem_append]
      exact .inr (.inr (among x member))

/-- **The leaves of the grown tree**: those of the list in order, then some of them again. -/
theorem leaves_grow {height : ℕ} (first : PerfectTree α height)
    (rest : List (PerfectTree α height)) :
    ∃ more, (grow first rest).2.leaves = (first :: rest).flatMap PerfectTree.leaves ++ more ∧
      ∀ x ∈ more, x ∈ (first :: rest).flatMap PerfectTree.leaves := by
  fun_induction grow first rest with
  | case1 height first =>
    exact ⟨[], by simp, fun x member => absurd member List.not_mem_nil⟩
  | case2 height first second rest ih =>
    obtain ⟨above, grown, aboveAmong⟩ := ih
    obtain ⟨here, level, hereAmong⟩ := leaves_pairLevel (first :: second :: rest)
    rw [pairLevel] at level
    rw [level] at grown aboveAmong
    refine ⟨here ++ above, by rw [grown, List.append_assoc], fun x member => ?_⟩
    rcases List.mem_append.mp member with inHere | inAbove
    · exact hereAmong x inHere
    · rcases List.mem_append.mp (aboveAmong x inAbove) with old | inHere
      · exact old
      · exact hereAmong x inHere

/-- **The inner inputs of the grown tree** are those of the trees and the pairs of the loop. -/
theorem nodeInputs_grow {height : ℕ} (first : PerfectTree α height)
    (rest : List (PerfectTree α height)) {input : β}
    (member : input ∈ (grow first rest).2.nodeInputs hasher) :
    (∃ tree ∈ first :: rest, input ∈ tree.nodeInputs hasher) ∨
      ∃ left right, (left, right) ∈
          reducedPairs hasher.pair ((first :: rest).map (PerfectTree.digest hasher)) ∧
        input = hasher.nodeInput left right := by
  fun_induction grow first rest with
  | case1 height first => exact .inl ⟨first, List.mem_singleton.mpr rfl, member⟩
  | case2 height first second rest ih =>
    rw [reducedPairs_of_several (by simp), ← digest_pairLevel]
    rcases ih member with ⟨tree, among, inTree⟩ | ⟨left, right, combined, same⟩
    · have built : tree ∈ pairLevel PerfectTree.node (first :: second :: rest) := among
      obtain ⟨x, inX, y, inY, rfl, paired⟩ := exists_of_mem_pairLevel built
      rw [PerfectTree.nodeInputs, List.mem_cons, List.mem_append] at inTree
      rcases inTree with top | inLeft | inRight
      · refine .inr ⟨x.digest hasher, y.digest hasher, List.mem_append_left _ ?_, top⟩
        have respects : (pairLevel Prod.mk (first :: second :: rest)).map
            (Prod.map (PerfectTree.digest hasher) (PerfectTree.digest hasher)) =
            pairLevel Prod.mk ((first :: second :: rest).map (PerfectTree.digest hasher)) := by
          apply map_pairLevel
          exact fun _ _ => rfl
        rw [← respects]
        exact List.mem_map_of_mem paired
      · exact .inl ⟨x, inX, inLeft⟩
      · exact .inl ⟨y, inY, inRight⟩
    · exact .inr ⟨left, right, List.mem_append_right _ combined, same⟩

end Grow

/-! ### The completion of a list -/

section Completion

variable {α : Type*}

/-- The tree over a list, given by its first element and the rest. -/
def treeOver (x : α) (rest : List α) : Σ top, PerfectTree α top :=
  grow (.leaf x) (rest.map .leaf)

/-- The leaves of the tree over a list: the list itself, then the odd end of each level again. -/
def completion : List α → List α
  | [] => []
  | x :: rest => (treeOver x rest).2.leaves

example : completion [1, 2, 3, 4, 5] = [1, 2, 3, 4, 5, 5, 5, 5] := by decide +kernel

theorem flatMap_leaf (xs : List α) :
    (xs.map PerfectTree.leaf).flatMap PerfectTree.leaves = xs := by
  induction xs with
  | nil => rfl
  | cons x xs ih => rw [List.map_cons, List.flatMap_cons, ih]; rfl

/-- The completion starts with the list and repeats only what is in it. -/
theorem completion_eq_append (xs : List α) :
    ∃ more, completion xs = xs ++ more ∧ ∀ x ∈ more, x ∈ xs := by
  cases xs with
  | nil => exact ⟨[], rfl, fun x member => absurd member List.not_mem_nil⟩
  | cons x rest =>
    obtain ⟨more, same, among⟩ := leaves_grow (.leaf x) (rest.map PerfectTree.leaf)
    rw [← List.map_cons, flatMap_leaf] at same among
    exact ⟨more, same, among⟩

/-- Lists of one length with one completion are equal. -/
theorem eq_of_completion_eq {xs ys : List α} (length : xs.length = ys.length)
    (same : completion xs = completion ys) : xs = ys := by
  obtain ⟨more, xsEq, _⟩ := completion_eq_append xs
  obtain ⟨more', ysEq, _⟩ := completion_eq_append ys
  rw [xsEq, ysEq] at same
  exact (List.append_inj same length).1

end Completion

end Foundation
