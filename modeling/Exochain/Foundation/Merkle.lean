/-
**Perfect hash trees.**

Trees of hashes over any leaf type, with leaf and inner inputs kept apart, in three views:

* `PerfectTree α h` — the tree itself; its height is in the type, so a tree has `2 ^ h` leaves. A
  position is any number: `leafAt` and `siblings` read its low `h` bits.
* `climb` — the verifier's fold: from a leaf digest up, taking a sibling and a side at each level.
  **Complete**: the siblings of a position climb to the root (`climb_path`). **Sound**: a path
  that climbs to the root is the path of a position, whatever its length and sides, unless two of
  the hashed inputs collide (`climb_sound`). A path of the right length needs no separation of
  leaves from inner nodes (`climb_sound_of_length`).
* `digest_binds` — **the digest determines the tree**, its height included.
* `HeapAt` — the tree laid out in an array, children of `i` at `2 i + 1` and `2 i + 2`. `Under` says
  which indices a subtree occupies, so that writing one subtree leaves its neighbour alone. Read from
  the array: each entry above the bottom row is the digest of its two children (`HeapAt.inner`), and
  the bottom row is the leaves (`HeapAt.bottom_row`).

The hash is never assumed injective. `CollisionIn` lists the inputs that matter, and every use of
injectivity names two of them.
-/

import Mathlib

set_option linter.unusedSectionVars false

namespace Foundation

/-! ### Collisions among given inputs -/

section Collision

variable {β δ : Type*}

/-- Two distinct inputs of the list have one digest. -/
def CollisionIn (hash : β → δ) (inputs : List β) : Prop :=
  ∃ x ∈ inputs, ∃ y ∈ inputs, x ≠ y ∧ hash x = hash y

instance [DecidableEq β] [DecidableEq δ] (hash : β → δ) (inputs : List β) :
    Decidable (CollisionIn hash inputs) :=
  inferInstanceAs (Decidable (∃ x ∈ inputs, ∃ y ∈ inputs, x ≠ y ∧ hash x = hash y))

theorem CollisionIn.mono {hash : β → δ} {inputs more : List β} (collision : CollisionIn hash inputs)
    (sub : ∀ s ∈ inputs, s ∈ more) : CollisionIn hash more := by
  obtain ⟨x, xIn, y, yIn, both⟩ := collision
  exact ⟨x, sub x xIn, y, sub y yIn, both⟩

/-- Where inputs are hashed through a text that tells them apart, a collision of the inputs is one of
the texts. -/
theorem CollisionIn.of_text {γ : Type*} {hash : β → δ} {hashText : γ → δ} (text : β → γ)
    {inputs : List β} {texts : List γ} (collision : CollisionIn hash inputs)
    (through : ∀ s, hash s = hashText (text s))
    (apart : ∀ s ∈ inputs, ∀ s' ∈ inputs, text s = text s' → s = s')
    (sub : ∀ s ∈ inputs, text s ∈ texts) : CollisionIn hashText texts := by
  obtain ⟨x, xIn, y, yIn, different, same⟩ := collision
  refine ⟨text x, sub x xIn, text y, sub y yIn, fun equal => ?_, ?_⟩
  · exact different (apart x xIn y yIn equal)
  · rw [← through, ← through, same]

/-- One input does not collide with itself. -/
theorem not_collisionIn_pair (hash : β → δ) (x : β) : ¬ CollisionIn hash [x, x] := by
  rintro ⟨y, first, z, second, different, -⟩
  simp only [List.mem_cons, List.not_mem_nil, or_false, or_self] at first second
  exact different (first.trans second.symm)

/-- Without a collision, equal digests come from equal inputs. -/
theorem eq_of_hash_eq {hash : β → δ} {inputs : List β} (free : ¬ CollisionIn hash inputs) {x y : β}
    (xIn : x ∈ inputs) (yIn : y ∈ inputs) (same : hash x = hash y) : x = y := by
  by_contra different
  exact free ⟨x, xIn, y, yIn, different, same⟩

end Collision

/-! ### Positions and their bits -/

section Bits

variable {position height : ℕ}

theorem mod_two_pow_succ_of_low (bit : position.testBit height = false) :
    position % 2 ^ (height + 1) = position % 2 ^ height := by
  have even : position / 2 ^ height % 2 = 0 := by
    rw [Nat.testBit_eq_decide_div_mod_eq, decide_eq_false_iff_not] at bit
    omega
  rw [pow_succ, Nat.mod_mul, even, Nat.mul_zero, Nat.add_zero]

theorem mod_two_pow_succ_of_high (bit : position.testBit height = true) :
    position % 2 ^ (height + 1) = position % 2 ^ height + 2 ^ height := by
  have odd : position / 2 ^ height % 2 = 1 := by
    rwa [Nat.testBit_eq_decide_div_mod_eq, decide_eq_true_iff] at bit
  rw [pow_succ, Nat.mod_mul, odd, Nat.mul_one]

/-- A position with given low bits and a given bit above them. -/
theorem exists_position_with_bit (position height : ℕ) (bit : Bool) :
    ∃ other : ℕ, other.testBit height = bit ∧ ∀ k < height, other.testBit k = position.testBit k := by
  have small : position % 2 ^ height < 2 ^ height := Nat.mod_lt _ (by positivity)
  cases bit with
  | false =>
    refine ⟨position % 2 ^ height, Nat.testBit_lt_two_pow small, fun k below => ?_⟩
    simp [Nat.testBit_mod_two_pow, below]
  | true =>
    refine ⟨2 ^ height + position % 2 ^ height, ?_, fun k below => ?_⟩
    · rw [Nat.testBit_two_pow_add_eq, Nat.testBit_lt_two_pow small]
      rfl
    · rw [Nat.testBit_two_pow_add_gt below, Nat.testBit_mod_two_pow]
      simp [below]

end Bits

/-! ### Perfect trees -/

/-- A perfect binary tree of a given height. -/
inductive PerfectTree (α : Type*) : ℕ → Type _ where
  | leaf (x : α) : PerfectTree α 0
  | node {height : ℕ} (left right : PerfectTree α height) : PerfectTree α (height + 1)

/-- How leaves and inner nodes are turned into hash inputs. No leaf input is an inner one. -/
structure TreeHasher (α β δ : Type*) where
  hash : β → δ
  leafInput : α → β
  nodeInput : δ → δ → β
  leafInput_injective : Function.Injective leafInput
  nodeInput_injective : ∀ l r l' r', nodeInput l r = nodeInput l' r' → l = l' ∧ r = r'
  leaf_ne_node : ∀ x l r, leafInput x ≠ nodeInput l r

/-- The hasher of trees whose leaf digests and inner digests are given by two functions. An input is
the leaf or the pair itself, so a collision may be between the two kinds. -/
def TreeHasher.free {α δ : Type*} (leafDigest : α → δ) (pair : δ → δ → δ) :
    TreeHasher α (α ⊕ δ × δ) δ where
  hash := Sum.elim leafDigest (Function.uncurry pair)
  leafInput := Sum.inl
  nodeInput l r := Sum.inr (l, r)
  leafInput_injective := Sum.inl_injective
  nodeInput_injective _ _ _ _ same := Prod.mk.inj (Sum.inr_injective same)
  leaf_ne_node _ _ _ := Sum.inl_ne_inr

/-- The siblings with the side of each level: the low bits of a position, lowest level first. -/
def withSides {δ : Type*} : ℕ → List δ → List (Bool × δ)
  | _, [] => []
  | position, sibling :: rest => (position.testBit 0, sibling) :: withSides (position / 2) rest

section WithSides

variable {δ : Type*}

@[simp] theorem length_withSides (position : ℕ) (siblings : List δ) :
    (withSides position siblings).length = siblings.length := by
  induction siblings generalizing position with
  | nil => rfl
  | cons sibling rest ih => rw [withSides, List.length_cons, ih, List.length_cons]

@[simp] theorem map_snd_withSides (position : ℕ) (siblings : List δ) :
    (withSides position siblings).map Prod.snd = siblings := by
  induction siblings generalizing position with
  | nil => rfl
  | cons sibling rest ih => rw [withSides, List.map_cons, ih]

theorem withSides_append_singleton (position : ℕ) (siblings : List δ) (last : δ) :
    withSides position (siblings ++ [last]) =
      withSides position siblings ++ [(position.testBit siblings.length, last)] := by
  induction siblings generalizing position with
  | nil => rfl
  | cons sibling rest ih =>
    simp only [List.cons_append, withSides, ih, List.length_cons, Nat.testBit_succ]

/-- Two positions with the same low bits take the same sides. -/
theorem withSides_congr {position other : ℕ} (siblings : List δ)
    (same : ∀ k < siblings.length, position.testBit k = other.testBit k) :
    withSides position siblings = withSides other siblings := by
  induction siblings generalizing position other with
  | nil => rfl
  | cons sibling rest ih =>
    have first := same 0 (by simp)
    have above : withSides (position / 2) rest = withSides (other / 2) rest := by
      refine ih fun k below => ?_
      rw [← Nat.testBit_succ, ← Nat.testBit_succ]
      exact same (k + 1) (by simpa using below)
    rw [withSides, withSides, first, above]

/-- The siblings and the low bits of the position can be read back. -/
theorem withSides_eq_iff {position other : ℕ} {siblings siblings' : List δ} :
    withSides position siblings = withSides other siblings' ↔
      siblings = siblings' ∧ ∀ k < siblings.length, position.testBit k = other.testBit k := by
  constructor
  · intro same
    induction siblings generalizing position other siblings' with
    | nil =>
      cases siblings' with
      | nil => exact ⟨rfl, by simp⟩
      | cons sibling' rest' => cases same
    | cons sibling rest ih =>
      cases siblings' with
      | nil => cases same
      | cons sibling' rest' =>
        simp only [withSides, List.cons.injEq, Prod.mk.injEq] at same
        obtain ⟨⟨first, rfl⟩, above⟩ := same
        obtain ⟨rfl, bits⟩ := ih above
        refine ⟨rfl, fun k below => ?_⟩
        cases k with
        | zero => exact first
        | succ k =>
          rw [Nat.testBit_succ, Nat.testBit_succ]
          exact bits k (by simpa using below)
  · rintro ⟨rfl, bits⟩
    exact withSides_congr siblings bits

end WithSides

namespace PerfectTree

section Tree

variable {α β δ : Type*}

/-- The leaves, from left to right. -/
def leaves : {height : ℕ} → PerfectTree α height → List α
  | _, .leaf x => [x]
  | _, .node left right => left.leaves ++ right.leaves

@[simp] theorem length_leaves {height : ℕ} (tree : PerfectTree α height) :
    tree.leaves.length = 2 ^ height := by
  induction tree with
  | leaf x => rfl
  | node left right ihLeft ihRight =>
    rw [leaves, List.length_append, ihLeft, ihRight, pow_succ]
    ring

/-- The leaf that the low bits of a position lead to. -/
def leafAt : {height : ℕ} → PerfectTree α height → ℕ → α
  | _, .leaf x, _ => x
  | height + 1, .node left right, position =>
    if position.testBit height then right.leafAt position else left.leafAt position

/-- The digest of the root. -/
def digest (hasher : TreeHasher α β δ) : {height : ℕ} → PerfectTree α height → δ
  | _, .leaf x => hasher.hash (hasher.leafInput x)
  | _, .node left right => hasher.hash (hasher.nodeInput (left.digest hasher) (right.digest hasher))

/-- The inputs hashed to compute the digest of the root. -/
def inputs (hasher : TreeHasher α β δ) : {height : ℕ} → PerfectTree α height → List β
  | _, .leaf x => [hasher.leafInput x]
  | _, .node left right =>
    hasher.nodeInput (left.digest hasher) (right.digest hasher) ::
      (left.inputs hasher ++ right.inputs hasher)

/-- The inputs of the inner nodes alone. -/
def nodeInputs (hasher : TreeHasher α β δ) : {height : ℕ} → PerfectTree α height → List β
  | _, .leaf _ => []
  | _, .node left right =>
    hasher.nodeInput (left.digest hasher) (right.digest hasher) ::
      (left.nodeInputs hasher ++ right.nodeInputs hasher)

section Node

variable (hasher : TreeHasher α β δ) {height : ℕ} {left right : PerfectTree α height} {P : β → Prop}

/-- A property of all the inputs of a node is one of its own input and of those of its children. -/
theorem forall_inputs_node :
    (∀ s ∈ (node left right).inputs hasher, P s) ↔
      P (hasher.nodeInput (left.digest hasher) (right.digest hasher)) ∧
        (∀ s ∈ left.inputs hasher, P s) ∧ ∀ s ∈ right.inputs hasher, P s := by
  rw [inputs, List.forall_mem_cons, List.forall_mem_append]

theorem forall_nodeInputs_node :
    (∀ s ∈ (node left right).nodeInputs hasher, P s) ↔
      P (hasher.nodeInput (left.digest hasher) (right.digest hasher)) ∧
        (∀ s ∈ left.nodeInputs hasher, P s) ∧ ∀ s ∈ right.nodeInputs hasher, P s := by
  rw [nodeInputs, List.forall_mem_cons, List.forall_mem_append]

end Node

theorem exists_of_mem_nodeInputs (hasher : TreeHasher α β δ) {height : ℕ}
    (tree : PerfectTree α height) {input : β} (member : input ∈ tree.nodeInputs hasher) :
    ∃ l r, input = hasher.nodeInput l r := by
  induction tree with
  | leaf x => cases member
  | node left right ihLeft ihRight =>
    rw [nodeInputs, List.mem_cons, List.mem_append] at member
    rcases member with top | inLeft | inRight
    · exact ⟨_, _, top⟩
    · exact ihLeft inLeft
    · exact ihRight inRight

theorem mem_inputs_of_mem_nodeInputs (hasher : TreeHasher α β δ) {height : ℕ}
    (tree : PerfectTree α height) {input : β} (member : input ∈ tree.nodeInputs hasher) :
    input ∈ tree.inputs hasher := by
  induction tree with
  | leaf x => cases member
  | node left right ihLeft ihRight =>
    rw [nodeInputs, List.mem_cons, List.mem_append] at member
    rw [inputs, List.mem_cons, List.mem_append]
    rcases member with top | inLeft | inRight
    · exact .inl top
    · exact .inr (.inl (ihLeft inLeft))
    · exact .inr (.inr (ihRight inRight))

/-- An input of a tree is that of a leaf or that of an inner node. -/
theorem leaf_or_node_of_mem_inputs (hasher : TreeHasher α β δ) {height : ℕ}
    (tree : PerfectTree α height) {input : β} (member : input ∈ tree.inputs hasher) :
    (∃ x ∈ tree.leaves, input = hasher.leafInput x) ∨ input ∈ tree.nodeInputs hasher := by
  induction tree with
  | leaf x => exact .inl ⟨x, List.mem_singleton.mpr rfl, List.mem_singleton.mp member⟩
  | node left right ihLeft ihRight =>
    rw [inputs, List.mem_cons, List.mem_append] at member
    rw [leaves, nodeInputs, List.mem_cons, List.mem_append]
    rcases member with top | inLeft | inRight
    · exact .inr (.inl top)
    · rcases ihLeft inLeft with ⟨x, among, same⟩ | inner
      · exact .inl ⟨x, List.mem_append_left _ among, same⟩
      · exact .inr (.inr (.inl inner))
    · rcases ihRight inRight with ⟨x, among, same⟩ | inner
      · exact .inl ⟨x, List.mem_append_right _ among, same⟩
      · exact .inr (.inr (.inr inner))

/-- The siblings of the path to a position, lowest level first. -/
def siblings (hasher : TreeHasher α β δ) : {height : ℕ} → PerfectTree α height → ℕ → List δ
  | _, .leaf _, _ => []
  | height + 1, .node left right, position =>
    if position.testBit height then right.siblings hasher position ++ [left.digest hasher]
    else left.siblings hasher position ++ [right.digest hasher]

@[simp] theorem length_siblings (hasher : TreeHasher α β δ) {height : ℕ}
    (tree : PerfectTree α height) (position : ℕ) :
    (tree.siblings hasher position).length = height := by
  induction tree with
  | leaf x => rfl
  | node left right ihLeft ihRight =>
    rw [siblings]
    split
    · rw [List.length_append, ihRight, List.length_singleton]
    · rw [List.length_append, ihLeft, List.length_singleton]

/-- Only the low bits of a position matter. -/
theorem leafAt_congr {height : ℕ} (tree : PerfectTree α height) {position other : ℕ}
    (same : ∀ k < height, position.testBit k = other.testBit k) :
    tree.leafAt position = tree.leafAt other := by
  induction tree with
  | leaf x => rfl
  | @node height left right ihLeft ihRight =>
    have below : ∀ k < height, position.testBit k = other.testBit k :=
      fun k less => same k (by omega)
    rw [leafAt, leafAt, same height (by omega), ihLeft below, ihRight below]

theorem siblings_congr (hasher : TreeHasher α β δ) {height : ℕ} (tree : PerfectTree α height)
    {position other : ℕ} (same : ∀ k < height, position.testBit k = other.testBit k) :
    tree.siblings hasher position = tree.siblings hasher other := by
  induction tree with
  | leaf x => rfl
  | @node height left right ihLeft ihRight =>
    have below : ∀ k < height, position.testBit k = other.testBit k :=
      fun k less => same k (by omega)
    rw [siblings, siblings, same height (by omega), ihLeft below, ihRight below]

/-- The leaf of a position is the one at its remainder. -/
theorem getElem?_leaves_mod {height : ℕ} (tree : PerfectTree α height) (position : ℕ) :
    tree.leaves[position % 2 ^ height]? = some (tree.leafAt position) := by
  induction tree with
  | leaf x => simp [leaves, leafAt, Nat.mod_one]
  | @node height left right ihLeft ihRight =>
    have small : position % 2 ^ height < 2 ^ height := Nat.mod_lt _ (by positivity)
    cases bit : position.testBit height with
    | false =>
      rw [leaves, leafAt, if_neg (by simp [bit]), mod_two_pow_succ_of_low bit,
        List.getElem?_append_left (by simpa using small), ihLeft]
    | true =>
      rw [leaves, leafAt, if_pos bit, mod_two_pow_succ_of_high bit,
        List.getElem?_append_right (by simp), length_leaves, Nat.add_sub_cancel, ihRight]

theorem leafAt_mem_leaves {height : ℕ} (tree : PerfectTree α height) (position : ℕ) :
    tree.leafAt position ∈ tree.leaves :=
  List.mem_of_getElem? (tree.getElem?_leaves_mod position)

/-- The digest depends on the leaves alone. -/
theorem digest_eq_of_leaves_eq (hasher : TreeHasher α β δ) {height height' : ℕ}
    (tree : PerfectTree α height) (tree' : PerfectTree α height')
    (same : tree.leaves = tree'.leaves) : tree.digest hasher = tree'.digest hasher := by
  have heights : height = height' := by
    have lengths := congrArg List.length same
    rw [length_leaves, length_leaves] at lengths
    exact Nat.pow_right_injective (le_refl 2) lengths
  subst heights
  induction tree with
  | leaf x =>
    cases tree' with
    | leaf y => rw [leaves, leaves, List.singleton_inj] at same; rw [same]
  | node left right ihLeft ihRight =>
    cases tree' with
    | node left' right' =>
      obtain ⟨lefts, rights⟩ := List.append_inj same (by rw [length_leaves, length_leaves])
      rw [digest, digest, ihLeft left' lefts, ihRight right' rights]

end Tree

end PerfectTree

/-! ### Climbing from a leaf -/

section Climb

variable {α β δ : Type*}

/-- The hash input of one level: the current digest is the right child where the side is set. -/
def TreeHasher.levelInput (hasher : TreeHasher α β δ) (step : Bool × δ) (current : δ) : β :=
  if step.1 then hasher.nodeInput step.2 current else hasher.nodeInput current step.2

/-- Hash a digest up along a path. -/
def climb (hasher : TreeHasher α β δ) : List (Bool × δ) → δ → δ
  | [], current => current
  | step :: rest, current => climb hasher rest (hasher.hash (hasher.levelInput step current))

/-- The inputs hashed by `climb`. -/
def climbInputs (hasher : TreeHasher α β δ) : List (Bool × δ) → δ → List β
  | [], _ => []
  | step :: rest, current =>
    hasher.levelInput step current ::
      climbInputs hasher rest (hasher.hash (hasher.levelInput step current))

variable (hasher : TreeHasher α β δ)

theorem exists_of_mem_climbInputs {path : List (Bool × δ)} {current : δ} {input : β}
    (member : input ∈ climbInputs hasher path current) : ∃ l r, input = hasher.nodeInput l r := by
  induction path generalizing current with
  | nil => cases member
  | cons step rest ih =>
    rcases List.mem_cons.mp member with here | above
    · rw [here, TreeHasher.levelInput]
      split
      · exact ⟨_, _, rfl⟩
      · exact ⟨_, _, rfl⟩
    · exact ih above

theorem climb_append_singleton (path : List (Bool × δ)) (last : Bool × δ) (current : δ) :
    climb hasher (path ++ [last]) current =
      hasher.hash (hasher.levelInput last (climb hasher path current)) := by
  induction path generalizing current with
  | nil => rfl
  | cons step rest ih => exact ih _

theorem climbInputs_append_singleton (path : List (Bool × δ)) (last : Bool × δ) (current : δ) :
    climbInputs hasher (path ++ [last]) current =
      climbInputs hasher path current ++ [hasher.levelInput last (climb hasher path current)] := by
  induction path generalizing current with
  | nil => rfl
  | cons step rest ih => exact congrArg _ (ih _)

/-- The path of a position in a tree. -/
def PerfectTree.path {height : ℕ} (tree : PerfectTree α height) (position : ℕ) :
    List (Bool × δ) :=
  withSides position (tree.siblings hasher position)

/-- The path through a right child. -/
theorem PerfectTree.path_right {height : ℕ} (left right : PerfectTree α height) {position : ℕ}
    (bit : position.testBit height = true) :
    (PerfectTree.node left right).path hasher position =
      right.path hasher position ++ [(true, left.digest hasher)] := by
  rw [path, siblings, if_pos bit, withSides_append_singleton, length_siblings, bit, path]

/-- The path through a left child. -/
theorem PerfectTree.path_left {height : ℕ} (left right : PerfectTree α height) {position : ℕ}
    (bit : position.testBit height = false) :
    (PerfectTree.node left right).path hasher position =
      left.path hasher position ++ [(false, right.digest hasher)] := by
  rw [path, siblings, if_neg (by simp [bit]), withSides_append_singleton, length_siblings, bit, path]

theorem PerfectTree.path_congr {height : ℕ} (tree : PerfectTree α height) {position other : ℕ}
    (same : ∀ k < height, position.testBit k = other.testBit k) :
    tree.path hasher position = tree.path hasher other := by
  rw [path, path, tree.siblings_congr hasher same]
  refine withSides_congr _ fun k below => same k ?_
  rwa [length_siblings] at below

/-- What a position finds in the right subtree, some position finds through the right child. -/
theorem PerfectTree.exists_position_right {height : ℕ} (left right : PerfectTree α height)
    (position : ℕ) :
    ∃ other, (PerfectTree.node left right).path hasher other =
        right.path hasher position ++ [(true, left.digest hasher)] ∧
      (PerfectTree.node left right).leafAt other = right.leafAt position := by
  obtain ⟨other, bit, low⟩ := exists_position_with_bit position height true
  refine ⟨other, ?_, ?_⟩
  · rw [PerfectTree.path_right hasher left right bit, right.path_congr hasher low]
  · rw [PerfectTree.leafAt, if_pos bit, right.leafAt_congr low]

/-- What a position finds in the left subtree, some position finds through the left child. -/
theorem PerfectTree.exists_position_left {height : ℕ} (left right : PerfectTree α height)
    (position : ℕ) :
    ∃ other, (PerfectTree.node left right).path hasher other =
        left.path hasher position ++ [(false, right.digest hasher)] ∧
      (PerfectTree.node left right).leafAt other = left.leafAt position := by
  obtain ⟨other, bit, low⟩ := exists_position_with_bit position height false
  refine ⟨other, ?_, ?_⟩
  · rw [PerfectTree.path_left hasher left right bit, left.path_congr hasher low]
  · rw [PerfectTree.leafAt, if_neg (by simp [bit]), left.leafAt_congr low]

/-- **Completeness**: the path of a position climbs from its leaf to the root. -/
theorem climb_path {height : ℕ} (tree : PerfectTree α height) (position : ℕ) :
    climb hasher (tree.path hasher position)
      (hasher.hash (hasher.leafInput (tree.leafAt position))) = tree.digest hasher := by
  induction tree with
  | leaf x => rfl
  | @node height left right ihLeft ihRight =>
    cases bit : position.testBit height with
    | true =>
      rw [PerfectTree.path_right hasher left right bit, climb_append_singleton,
        PerfectTree.leafAt, if_pos bit, ihRight]
      rfl
    | false =>
      rw [PerfectTree.path_left hasher left right bit, climb_append_singleton,
        PerfectTree.leafAt, if_neg (by simp [bit]), ihLeft]
      rfl

/-- Climbing the path of a position hashes only inputs of the tree. -/
theorem climbInputs_path {height : ℕ} (tree : PerfectTree α height) (position : ℕ) :
    ∀ s ∈ hasher.leafInput (tree.leafAt position) :: climbInputs hasher (tree.path hasher position)
      (hasher.hash (hasher.leafInput (tree.leafAt position))), s ∈ tree.inputs hasher := by
  induction tree with
  | leaf x => exact fun s member => member
  | @node height left right ihLeft ihRight =>
    intro s member
    cases bit : position.testBit height with
    | true =>
      rw [PerfectTree.path_right hasher left right bit, climbInputs_append_singleton,
        PerfectTree.leafAt, if_pos bit, climb_path, ← List.cons_append, List.mem_append,
        List.mem_singleton] at member
      rcases member with below | top
      · exact List.mem_cons_of_mem _ (List.mem_append_right _ (ihRight s below))
      · exact top ▸ List.mem_cons_self
    | false =>
      rw [PerfectTree.path_left hasher left right bit, climbInputs_append_singleton,
        PerfectTree.leafAt, if_neg (by simp [bit]), climb_path, ← List.cons_append,
        List.mem_append, List.mem_singleton] at member
      rcases member with below | top
      · exact List.mem_cons_of_mem _ (List.mem_append_left _ (ihLeft s below))
      · exact top ▸ List.mem_cons_self

/-- The last input of a climb, and that it is one of the inputs of the climb. -/
theorem climb_eq_hash (path : List (Bool × δ)) (x : α) :
    ∃ input ∈ hasher.leafInput x :: climbInputs hasher path (hasher.hash (hasher.leafInput x)),
      climb hasher path (hasher.hash (hasher.leafInput x)) = hasher.hash input ∧
      (input = hasher.leafInput x ∨ ∃ l r, input = hasher.nodeInput l r) := by
  induction path using List.reverseRecOn with
  | nil => exact ⟨_, List.mem_cons_self, rfl, .inl rfl⟩
  | append_singleton path last _ =>
    refine ⟨_, ?_, climb_append_singleton hasher path last _, .inr ?_⟩
    · rw [climbInputs_append_singleton]
      simp
    · rw [TreeHasher.levelInput]
      split
      · exact ⟨_, _, rfl⟩
      · exact ⟨_, _, rfl⟩

/-- The root digest of a tree is the digest of one of its inputs. -/
theorem PerfectTree.digest_eq_hash {height : ℕ} (tree : PerfectTree α height) :
    ∃ input ∈ tree.inputs hasher, tree.digest hasher = hasher.hash input ∧
      ((∃ x, input = hasher.leafInput x) ∨ ∃ l r, input = hasher.nodeInput l r) := by
  cases tree with
  | leaf x => exact ⟨_, List.mem_cons_self, rfl, .inl ⟨x, rfl⟩⟩
  | node left right => exact ⟨_, List.mem_cons_self, rfl, .inr ⟨_, _, rfl⟩⟩

/-- **Soundness**: a path that climbs from a leaf to the root is the path of a position, and the leaf
is the one there, unless two of the inputs collide. Neither the length nor the sides of the path are
assumed. -/
theorem climb_sound {inputs : List β} (free : ¬ CollisionIn hasher.hash inputs) {height : ℕ}
    (tree : PerfectTree α height) (treeIn : ∀ s ∈ tree.inputs hasher, s ∈ inputs)
    {path : List (Bool × δ)} {x : α}
    (pathIn : ∀ s ∈ hasher.leafInput x :: climbInputs hasher path
      (hasher.hash (hasher.leafInput x)), s ∈ inputs)
    (reaches : climb hasher path (hasher.hash (hasher.leafInput x)) = tree.digest hasher) :
    ∃ position, path = tree.path hasher position ∧ x = tree.leafAt position := by
  induction tree generalizing path with
  | leaf y =>
    have leafIn : hasher.leafInput y ∈ inputs := treeIn _ List.mem_cons_self
    -- a leaf digest is no inner digest, so the path is empty
    induction path using List.reverseRecOn with
    | nil =>
      have same := eq_of_hash_eq free (pathIn _ List.mem_cons_self) leafIn reaches
      exact ⟨0, rfl, hasher.leafInput_injective same⟩
    | append_singleton path last _ =>
      rw [climbInputs_append_singleton] at pathIn
      rw [climb_append_singleton] at reaches
      have same := eq_of_hash_eq free (pathIn _ (by simp)) leafIn reaches
      rw [TreeHasher.levelInput] at same
      split at same
      · exact absurd same.symm (hasher.leaf_ne_node _ _ _)
      · exact absurd same.symm (hasher.leaf_ne_node _ _ _)
  | @node height left right ihLeft ihRight =>
    obtain ⟨topIn, leftIn, rightIn⟩ := (PerfectTree.forall_inputs_node hasher).mp treeIn
    -- the last level of the path is the top of the tree
    induction path using List.reverseRecOn with
    | nil =>
      have same := eq_of_hash_eq free (pathIn _ List.mem_cons_self) topIn reaches
      exact absurd same (hasher.leaf_ne_node _ _ _)
    | append_singleton path last _ =>
      rw [climbInputs_append_singleton] at pathIn
      rw [climb_append_singleton] at reaches
      have same := eq_of_hash_eq free (pathIn _ (by simp)) topIn reaches
      have below : ∀ s ∈ hasher.leafInput x :: climbInputs hasher path
          (hasher.hash (hasher.leafInput x)), s ∈ inputs := by
        intro s member
        rw [← List.cons_append] at pathIn
        exact pathIn s (List.mem_append_left _ member)
      obtain ⟨side, sibling⟩ := last
      cases side with
      | true =>
        obtain ⟨rfl, up⟩ := hasher.nodeInput_injective _ _ _ _ same
        obtain ⟨position, rfl, rfl⟩ := ihRight rightIn below up
        obtain ⟨other, path, leaf⟩ := PerfectTree.exists_position_right hasher left right position
        exact ⟨other, path.symm, leaf.symm⟩
      | false =>
        obtain ⟨up, rfl⟩ := hasher.nodeInput_injective _ _ _ _ same
        obtain ⟨position, rfl, rfl⟩ := ihLeft leftIn below up
        obtain ⟨other, path, leaf⟩ := PerfectTree.exists_position_left hasher left right position
        exact ⟨other, path.symm, leaf.symm⟩

/-- **Soundness at the right length**: siblings as many as the tree is high that climb along a
position to the root are the siblings of that position, and the climb started at its leaf's digest,
unless two inner inputs collide. -/
theorem climb_sound_of_length {inputs : List β} (free : ¬ CollisionIn hasher.hash inputs)
    {height : ℕ} (tree : PerfectTree α height)
    (treeIn : ∀ s ∈ tree.nodeInputs hasher, s ∈ inputs) {position : ℕ} {siblings : List δ}
    {current : δ} (length : siblings.length = height)
    (pathIn : ∀ s ∈ climbInputs hasher (withSides position siblings) current, s ∈ inputs)
    (reaches : climb hasher (withSides position siblings) current = tree.digest hasher) :
    current = hasher.hash (hasher.leafInput (tree.leafAt position)) ∧
      siblings = tree.siblings hasher position := by
  induction tree generalizing siblings with
  | leaf x =>
    rw [List.length_eq_zero_iff] at length
    subst length
    exact ⟨reaches, rfl⟩
  | @node height left right ihLeft ihRight =>
    obtain ⟨topIn, leftIn, rightIn⟩ := (PerfectTree.forall_nodeInputs_node hasher).mp treeIn
    -- the last sibling belongs to the top of the tree
    rcases List.eq_nil_or_concat siblings with rfl | ⟨below, last, rfl⟩
    · cases length
    rw [List.concat_eq_append] at *
    rw [List.length_append, List.length_singleton, Nat.add_right_cancel_iff] at length
    rw [withSides_append_singleton, length] at reaches pathIn
    rw [climbInputs_append_singleton] at pathIn
    rw [climb_append_singleton] at reaches
    have belowIn : ∀ s ∈ climbInputs hasher (withSides position below) current, s ∈ inputs :=
      fun s member => pathIn s (List.mem_append_left _ member)
    have same := eq_of_hash_eq free (pathIn _ (by simp)) topIn reaches
    rw [TreeHasher.levelInput] at same
    rw [PerfectTree.leafAt, PerfectTree.siblings]
    cases bit : position.testBit height with
    | true =>
      rw [if_pos bit] at same
      obtain ⟨rfl, up⟩ := hasher.nodeInput_injective _ _ _ _ same
      obtain ⟨start, rfl⟩ := ihRight rightIn length belowIn up
      exact ⟨by rw [if_pos rfl]; exact start, by rw [if_pos rfl]⟩
    | false =>
      rw [if_neg (by simp [bit])] at same
      obtain ⟨up, rfl⟩ := hasher.nodeInput_injective _ _ _ _ same
      obtain ⟨start, rfl⟩ := ihLeft leftIn length belowIn up
      exact ⟨by rw [if_neg (by simp)]; exact start, by rw [if_neg (by simp)]⟩

/-- **The digest determines the tree**: equal digests come from trees of one height with the same
leaves, unless two of the inputs collide. -/
theorem digest_binds {inputs : List β} (free : ¬ CollisionIn hasher.hash inputs)
    {height height' : ℕ} (tree : PerfectTree α height) (tree' : PerfectTree α height')
    (treeIn : ∀ s ∈ tree.inputs hasher, s ∈ inputs)
    (treeIn' : ∀ s ∈ tree'.inputs hasher, s ∈ inputs)
    (same : tree.digest hasher = tree'.digest hasher) : tree.leaves = tree'.leaves := by
  induction tree generalizing height' tree' with
  | leaf x =>
    cases tree' with
    | leaf y =>
      have equal := eq_of_hash_eq free (treeIn _ List.mem_cons_self) (treeIn' _ List.mem_cons_self)
        same
      rw [hasher.leafInput_injective equal]
    | node left right =>
      have equal := eq_of_hash_eq free (treeIn _ List.mem_cons_self) (treeIn' _ List.mem_cons_self)
        same
      exact absurd equal (hasher.leaf_ne_node _ _ _)
  | node left right ihLeft ihRight =>
    cases tree' with
    | leaf y =>
      have equal := eq_of_hash_eq free (treeIn _ List.mem_cons_self) (treeIn' _ List.mem_cons_self)
        same
      exact absurd equal.symm (hasher.leaf_ne_node _ _ _)
    | node left' right' =>
      obtain ⟨topIn, leftIn, rightIn⟩ := (PerfectTree.forall_inputs_node hasher).mp treeIn
      obtain ⟨topIn', leftIn', rightIn'⟩ := (PerfectTree.forall_inputs_node hasher).mp treeIn'
      have equal := eq_of_hash_eq free topIn topIn' same
      obtain ⟨sameLeft, sameRight⟩ := hasher.nodeInput_injective _ _ _ _ equal
      have lefts := ihLeft left' leftIn leftIn' sameLeft
      have rights := ihRight right' rightIn rightIn' sameRight
      rw [PerfectTree.leaves, PerfectTree.leaves, lefts, rights]

end Climb

/-! ### Trees in an array -/

section Heap

variable {α β δ : Type*}

/-- The array holds the digests of the tree from index `top` down. -/
def HeapAt (hasher : TreeHasher α β δ) (nodes : List δ) :
    {height : ℕ} → ℕ → PerfectTree α height → Prop
  | _, top, .leaf x => nodes[top]? = some (hasher.hash (hasher.leafInput x))
  | _, top, .node left right =>
    nodes[top]? = some ((PerfectTree.node left right).digest hasher) ∧
      HeapAt hasher nodes (2 * top + 1) left ∧ HeapAt hasher nodes (2 * top + 2) right

theorem HeapAt.top {hasher : TreeHasher α β δ} {nodes : List δ} {height top : ℕ}
    {tree : PerfectTree α height} (heap : HeapAt hasher nodes top tree) :
    nodes[top]? = some (tree.digest hasher) := by
  cases tree with
  | leaf x => exact heap
  | node left right => exact heap.1

/-- The index lies in the subtree that starts at `top`: counted from one, its leading bits are those
of `top`. -/
def Under (top index : ℕ) : Prop := ∃ level, (index + 1) / 2 ^ level = top + 1

theorem under_self (top : ℕ) : Under top top := ⟨0, by simp⟩

theorem not_under_of_lt {top index : ℕ} (less : index < top) : ¬ Under top index := by
  rintro ⟨level, leading⟩
  have := Nat.div_le_self (index + 1) (2 ^ level)
  omega

/-- What lies under a child lies under its parent. -/
theorem Under.parent {top index : ℕ}
    (under : Under (2 * top + 1) index ∨ Under (2 * top + 2) index) : Under top index := by
  rcases under with ⟨level, leading⟩ | ⟨level, leading⟩
  · refine ⟨level + 1, ?_⟩
    rw [pow_succ, ← Nat.div_div_eq_div_mul, leading]
    omega
  · refine ⟨level + 1, ?_⟩
    rw [pow_succ, ← Nat.div_div_eq_div_mul, leading]
    omega

/-- **Two children have nothing in common.** -/
theorem Under.disjoint {top index : ℕ} (left : Under (2 * top + 1) index) :
    ¬ Under (2 * top + 2) index := by
  rintro ⟨level', leading'⟩
  obtain ⟨level, leading⟩ := left
  -- the deeper of the two levels would shorten one label to the other, which is not half of it
  rcases Nat.lt_trichotomy level level' with less | rfl | more
  · obtain ⟨gap, rfl⟩ := Nat.exists_eq_add_of_lt less
    rw [Nat.add_assoc, pow_add, ← Nat.div_div_eq_div_mul, leading] at leading'
    have := Nat.div_le_self (2 * top + 1 + 1) (2 ^ (gap + 1))
    omega
  · omega
  · obtain ⟨gap, rfl⟩ := Nat.exists_eq_add_of_lt more
    rw [Nat.add_assoc, pow_add, ← Nat.div_div_eq_div_mul, leading', pow_succ',
      ← Nat.div_div_eq_div_mul] at leading
    have := Nat.div_le_self ((2 * top + 2 + 1) / 2) (2 ^ gap)
    omega

/-- A heap depends only on what lies under its top. -/
theorem HeapAt.congr {hasher : TreeHasher α β δ} {nodes nodes' : List δ} {height top : ℕ}
    {tree : PerfectTree α height} (heap : HeapAt hasher nodes top tree)
    (same : ∀ index, Under top index → nodes'[index]? = nodes[index]?) :
    HeapAt hasher nodes' top tree := by
  induction tree generalizing top with
  | leaf x =>
    rw [HeapAt, same top (under_self top)]
    exact heap
  | node left right ihLeft ihRight =>
    obtain ⟨here, leftHeap, rightHeap⟩ := heap
    refine ⟨?_, ?_, ?_⟩
    · rw [same top (under_self top)]
      exact here
    · exact ihLeft leftHeap fun index under => same index (.parent (.inl under))
    · exact ihRight rightHeap fun index under => same index (.parent (.inr under))

/-- **Every index of the array is the top of a tree**, of the height that its row has. -/
theorem HeapAt.exists_subtree {hasher : TreeHasher α β δ} {nodes : List δ} {height : ℕ}
    {tree : PerfectTree α height} (heap : HeapAt hasher nodes 0 tree) {index : ℕ}
    (inside : index + 1 < 2 ^ (height + 1)) :
    ∃ (level : ℕ) (sub : PerfectTree α level), HeapAt hasher nodes index sub ∧
      2 ^ height ≤ (index + 1) * 2 ^ level ∧ (index + 2) * 2 ^ level ≤ 2 ^ (height + 1) := by
  induction index using Nat.strong_induction_on with
  | _ index ih =>
    rcases index with _ | below
    · exact ⟨height, tree, heap, by omega, by rw [pow_succ]; omega⟩
    · obtain ⟨level, sub, subHeap, low, high⟩ := ih (below / 2) (by omega) (by omega)
      cases sub with
      | leaf x =>
        -- the parent would be in the bottom row, and the index past it
        rw [pow_zero, Nat.mul_one] at low
        rw [pow_succ] at inside
        omega
      | @node level left right =>
        obtain ⟨-, leftHeap, rightHeap⟩ := subHeap
        rw [pow_succ, ← Nat.mul_assoc] at low high
        rcases Nat.even_or_odd' below with ⟨parent, rfl | rfl⟩
        · have half : 2 * parent / 2 = parent := by omega
          rw [half] at leftHeap low high
          refine ⟨level, left, leftHeap, ?_, ?_⟩
          · linarith
          · have := Nat.two_pow_pos level
            linarith
        · have half : (2 * parent + 1) / 2 = parent := by omega
          rw [half] at rightHeap low high
          refine ⟨level, right, rightHeap, ?_, ?_⟩
          · have := Nat.two_pow_pos level
            linarith
          · linarith

/-- **Above the bottom row, an entry is the digest of its two children.** -/
theorem HeapAt.inner {hasher : TreeHasher α β δ} {nodes : List δ} {height : ℕ}
    {tree : PerfectTree α height} (heap : HeapAt hasher nodes 0 tree) {index : ℕ}
    (above : index + 1 < 2 ^ height) :
    ∃ left right, nodes[2 * index + 1]? = some left ∧ nodes[2 * index + 2]? = some right ∧
      nodes[index]? = some (hasher.hash (hasher.nodeInput left right)) := by
  have inside : index + 1 < 2 ^ (height + 1) := by
    rw [pow_succ]
    omega
  obtain ⟨level, sub, subHeap, low, -⟩ := heap.exists_subtree inside
  cases sub with
  | leaf x =>
    rw [pow_zero, Nat.mul_one] at low
    omega
  | node left right =>
    obtain ⟨here, leftHeap, rightHeap⟩ := subHeap
    exact ⟨left.digest hasher, right.digest hasher, leftHeap.top, rightHeap.top, here⟩

/-- **The bottom row of a tree is the digests of its leaves**, from left to right. -/
theorem HeapAt.bottom_row {hasher : TreeHasher α β δ} {nodes : List δ} {height top : ℕ}
    {tree : PerfectTree α height} (heap : HeapAt hasher nodes top tree) :
    (nodes.drop ((top + 1) * 2 ^ height - 1)).take (2 ^ height) =
      tree.leaves.map fun x => hasher.hash (hasher.leafInput x) := by
  induction tree generalizing top with
  | leaf x =>
    obtain ⟨inside, here⟩ := List.getElem?_eq_some_iff.mp heap
    rw [pow_zero, Nat.mul_one, Nat.add_sub_cancel, List.drop_eq_getElem_cons inside, here]
    rfl
  | @node height left right ihLeft ihRight =>
    obtain ⟨-, leftHeap, rightHeap⟩ := heap
    have first : (top + 1) * 2 ^ (height + 1) - 1 = (2 * top + 1 + 1) * 2 ^ height - 1 := by
      rw [pow_succ]
      congr 1
      ring
    have second : (2 * top + 1 + 1) * 2 ^ height - 1 + 2 ^ height =
        (2 * top + 2 + 1) * 2 ^ height - 1 := by
      have next : (2 * top + 2 + 1) * 2 ^ height = (2 * top + 1 + 1) * 2 ^ height + 2 ^ height := by
        ring
      have enough : 0 < (2 * top + 1 + 1) * 2 ^ height := by positivity
      rw [next, Nat.sub_add_comm enough]
    have double : 2 ^ (height + 1) = 2 ^ height + 2 ^ height := by rw [pow_succ, Nat.mul_two]
    rw [first, double, List.take_add, List.drop_drop, second, ihLeft leftHeap, ihRight rightHeap,
      PerfectTree.leaves, List.map_append]

end Heap

end Foundation
