/-
**`exo-dag` — what the sparse Merkle tree promises.**

The trees of the results are those that a sequence of `insert` calls leaves behind, refused calls
included (`insertAll`).

* `get_insertAll` — the contents: the last value that was accepted for a key.
* **`proof_verifies`** — complete: the proof of any key verifies, as inclusion of its value or as
  absence.
* **`root_binds_contents`** — sound: whatever verifies against a root is what the tree holds, and a
  root has one contents, unless two of the hashed strings collide. The siblings are arbitrary; their
  number is the one thing that the verifier checks, and it is enough.
-/

import Exochain.Foundation.Blake3
import Exochain.Dag.SmtTrees

set_option linter.unusedSectionVars false

namespace Exochain.ExoDag

open Foundation ExoCore

namespace Smt

/-! ### Sequences of calls -/

section Calls

variable (blake3 : Blake3)

/-- The tree after a sequence of `insert` calls on the empty tree. -/
def insertAll (calls : List (Hash256 × List UInt8)) : SparseMerkleTree :=
  calls.foldl (fun tree call => (insert blake3 tree call.1 call.2).2) SparseMerkleTree.new

/-- The last value accepted for a key; empty values are refused. -/
def lastInserted (calls : List (Hash256 × List UInt8)) (key : Hash256) : Option (List UInt8) :=
  ((calls.filter fun call => call.1 = key ∧ call.2 ≠ []).getLast?).map Prod.snd

/-- **One call** changes the value of its key, unless the new value is empty. -/
theorem get_insert (tree : SparseMerkleTree) (key other : Hash256) (value : List UInt8) :
    get (insert blake3 tree key value).2 other =
      if key = other ∧ value ≠ [] then some value else get tree other := by
  rw [insert]
  by_cases empty : value = []
  · rw [if_pos (by rw [empty]; rfl), if_neg (fun both => both.2 empty)]
  · rw [if_neg (by rwa [List.isEmpty_iff])]
    by_cases same : key = other
    · subst same
      rw [if_pos ⟨rfl, empty⟩, get]
      exact Std.ExtTreeMap.getElem?_insert_self
    · rw [if_neg (fun both => same both.1), get, get]
      exact BTreeMap.getElem?_insert_of_ne _ same

/-- Trees with the same contents are the same. -/
theorem eq_of_get_eq {tree tree' : SparseMerkleTree} (same : ∀ key, get tree key = get tree' key) :
    tree = tree' := by
  apply congrArg SparseMerkleTree.mk
  apply Std.ExtTreeMap.ext_getElem?
  exact fun key => same key

/-- **The contents** after a sequence of calls. -/
theorem get_insertAll (calls : List (Hash256 × List UInt8)) (key : Hash256) :
    get (insertAll blake3 calls) key = lastInserted calls key := by
  induction calls using List.reverseRecOn with
  | nil => rfl
  | append_singleton calls call ih =>
    rw [insertAll, List.foldl_append, List.foldl_cons, List.foldl_nil, get_insert, ← insertAll, ih,
      lastInserted, lastInserted, List.filter_append]
    split
    · rename_i accepted
      rw [List.filter_singleton, decide_eq_true accepted]
      simp
    · rename_i refused
      rw [List.filter_singleton, decide_eq_false refused]
      simp

theorem lastInserted_eq_none {calls : List (Hash256 × List UInt8)} {key : Hash256}
    (never : ∀ value, (key, value) ∈ calls → value = []) : lastInserted calls key = none := by
  have noCall : (calls.filter fun call => call.1 = key ∧ call.2 ≠ []) = [] := by
    rw [List.filter_eq_nil_iff]
    intro call made accepted
    obtain ⟨rfl, nonempty⟩ := of_decide_eq_true accepted
    exact nonempty (never call.2 made)
  rw [lastInserted, noCall]
  rfl

end Calls

namespace TwoEntries

def first : Hash256 := FixedBytes.fill 32 1

def second : Hash256 := FixedBytes.fill 32 2

def third : Hash256 := FixedBytes.fill 32 3

/-- Two entries, and a call that is refused. -/
def calls : List (Hash256 × List UInt8) := [(first, [10]), (third, []), (second, [20])]

/-- The same entries, in the other order and after a value that is replaced. -/
def calls' : List (Hash256 × List UInt8) := [(second, [7]), (second, [20]), (first, [10])]

theorem lastInserted_calls (key : Hash256) : lastInserted calls key = lastInserted calls' key := by
  by_cases isFirst : first = key
  · rw [← isFirst]
    decide
  · by_cases isSecond : second = key
    · rw [← isSecond]
      decide
    · simp [lastInserted, calls, calls', isFirst, isSecond]

end TwoEntries

/-! ### Completeness -/

section Complete

variable (blake3 : Blake3)

/-- The proof of a key verifies against the root. -/
theorem verifyProof_prove (tree : SparseMerkleTree) (key : Hash256) :
    verifyProof blake3 (tree.root blake3) key (get tree key) (prove blake3 tree key) = true := by
  have length := length_siblings_prove blake3 tree key
  rw [verifyProof, if_neg (not_not.mpr length), beq_iff_eq, ← climb_position blake3 key length,
    siblings_position, ← leafAt_position, root_eq_digest]
  exact climb_path (smtHasher blake3) (wholeTree tree) (position key)

/-- **Completeness**: after any sequence of calls, the proof of any key verifies against the root for
the value that `get` returns, and that of a key for which no value was accepted as its absence. -/
theorem proof_verifies (calls : List (Hash256 × List UInt8)) (key : Hash256) :
    verifyProof blake3 ((insertAll blake3 calls).root blake3) key
        (get (insertAll blake3 calls) key) (prove blake3 (insertAll blake3 calls) key) = true ∧
      get (insertAll blake3 calls) key = lastInserted calls key ∧
      ((∀ value, (key, value) ∈ calls → value = []) →
        verifyProof blake3 ((insertAll blake3 calls).root blake3) key none
          (prove blake3 (insertAll blake3 calls) key) = true) := by
  have verified := verifyProof_prove blake3 (insertAll blake3 calls) key
  refine ⟨verified, get_insertAll blake3 calls key, fun never => ?_⟩
  rwa [get_insertAll, lastInserted_eq_none never] at verified

end Complete

namespace TwoEntries

/-- The absence of a key whose only call was refused. -/
theorem absence_verifies :
    verifyProof Blake3.hash ((insertAll Blake3.hash calls).root Blake3.hash) third none
      (prove Blake3.hash (insertAll Blake3.hash calls) third) = true := by
  refine (proof_verifies Blake3.hash calls third).2.2 fun value made => ?_
  have apart : third ≠ first ∧ third ≠ second := by decide
  simpa [calls, apart.1, apart.2] using made

end TwoEntries

/-! ### Binding -/

section Binding

variable {blake3 : Blake3}

/-- A collision among inner inputs is a collision of their strings. -/
theorem not_collision_inner {strings : List (List UInt8)} (free : ¬ CollisionIn blake3 strings)
    {inputs : List (Option (List UInt8) ⊕ Hash256 × Hash256)}
    (inner : ∀ s ∈ inputs, ∃ left right, s = (smtHasher blake3).nodeInput left right)
    (hashed : ∀ s ∈ inputs, inputText s ∈ strings) :
    ¬ CollisionIn (smtHasher blake3).hash inputs := by
  intro collision
  refine free (collision.of_text inputText (hash_eq_inputText blake3) ?_ hashed)
  intro s listed s' listed' same
  obtain ⟨left, right, rfl⟩ := inner s listed
  obtain ⟨left', right', rfl⟩ := inner s' listed'
  exact congrArg Sum.inr (pairString_injective same)

section Accepted

variable {tree : SparseMerkleTree} {key : Hash256} {value : Option (List UInt8)}
  {proof : MerkleProof} {strings : List (List UInt8)}

/-- The inner inputs of the tree and of an accepted climb do not collide. -/
theorem not_collision_climb (free : ¬ CollisionIn blake3 strings)
    (rootIn : ∀ s ∈ tree.rootStrings blake3, s ∈ strings)
    (verifyIn : ∀ s ∈ verifyStrings blake3 key value proof, s ∈ strings)
    (length : proof.siblings.length = treeDepth) :
    ¬ CollisionIn (smtHasher blake3).hash ((wholeTree tree).nodeInputs (smtHasher blake3) ++
      climbInputs (smtHasher blake3) (withSides (position key) proof.siblings)
        (startHash blake3 value)) := by
  apply not_collision_inner free
  · intro s member
    rcases List.mem_append.mp member with inTree | inPath
    · exact PerfectTree.exists_of_mem_nodeInputs _ _ inTree
    · exact exists_of_mem_climbInputs _ inPath
  · intro s member
    rcases List.mem_append.mp member with inTree | inPath
    · apply rootIn
      apply inputText_mem_rootStrings
      exact PerfectTree.mem_inputs_of_mem_nodeInputs _ _ inTree
    · apply verifyIn
      rw [verifyStrings, ← climbInputs_position blake3 key length]
      exact List.mem_cons_of_mem _ (List.mem_map_of_mem inPath)

/-- The string of the value at a key is hashed for the root. -/
theorem startString_mem_rootStrings (tree : SparseMerkleTree) (key : Hash256) :
    startString (get tree key) ∈ tree.rootStrings blake3 := by
  rw [← leafAt_position]
  exact inputText_mem_rootStrings blake3 tree
    (climbInputs_path (smtHasher blake3) (wholeTree tree) (position key) _ List.mem_cons_self)

/-- **Soundness**: what verifies against the root of a tree is what the tree holds, unless two
strings of a list that has those of the root and of the verifier collide. -/
theorem get_of_verifyProof (free : ¬ CollisionIn blake3 strings)
    (rootIn : ∀ s ∈ tree.rootStrings blake3, s ∈ strings)
    (verifyIn : ∀ s ∈ verifyStrings blake3 key value proof, s ∈ strings)
    (accepted : verifyProof blake3 (tree.root blake3) key value proof = true) :
    get tree key = value := by
  rw [verifyProof] at accepted
  split at accepted
  · cases accepted
  rename_i length
  rw [not_not] at length
  rw [beq_iff_eq, ← climb_position blake3 key length, root_eq_digest] at accepted
  obtain ⟨start, _⟩ := climb_sound_of_length (smtHasher blake3)
    (not_collision_climb free rootIn verifyIn length) (wholeTree tree)
    (fun s member => List.mem_append_left _ member) length
    (fun s member => List.mem_append_right _ member) accepted
  -- the climb started at the digest of the leaf of the key
  rw [leafAt_position, startHash_eq, hash_eq_inputText] at start
  have leafIn : startString (get tree key) ∈ strings :=
    rootIn _ (startString_mem_rootStrings tree key)
  have startIn : startString value ∈ strings := verifyIn _ List.mem_cons_self
  exact startString_injective (eq_of_hash_eq free leafIn startIn start.symm)

end Accepted

/-- Verifying the proof of a key hashes only strings of the root. -/
theorem verifyStrings_prove (tree : SparseMerkleTree) (key : Hash256) :
    ∀ s ∈ verifyStrings blake3 key (get tree key) (prove blake3 tree key),
      s ∈ tree.rootStrings blake3 := by
  have length := length_siblings_prove blake3 tree key
  have inputs := climbInputs_path (smtHasher blake3) (wholeTree tree) (position key)
  intro s member
  rw [verifyStrings, ← climbInputs_position blake3 key length, siblings_position,
    ← leafAt_position] at member
  rcases List.mem_cons.mp member with start | above
  · rw [start]
    exact inputText_mem_rootStrings blake3 tree (inputs _ List.mem_cons_self)
  · obtain ⟨input, climbed, rfl⟩ := List.mem_map.mp above
    exact inputText_mem_rootStrings blake3 tree (inputs _ (List.mem_cons_of_mem _ climbed))

/-- **Equal roots, equal contents**, unless two strings of the roots collide. -/
theorem get_eq_of_root_eq {tree tree' : SparseMerkleTree}
    (free : ¬ CollisionIn blake3 (tree.rootStrings blake3 ++ tree'.rootStrings blake3))
    (same : tree.root blake3 = tree'.root blake3) (key : Hash256) :
    get tree key = get tree' key := by
  have verified := verifyProof_prove blake3 tree' key
  rw [← same] at verified
  exact get_of_verifyProof free (fun s member => List.mem_append_left _ member)
    (fun s member => List.mem_append_right _ (verifyStrings_prove tree' key s member)) verified

/-- **The root binds the contents**: of a tree that calls of `insert` built, an accepted proof shows
the value at its key, and the contents of another such tree with the same root are the same, unless
two distinct strings collide that were hashed for the root and for the verification, or for the two
roots. -/
theorem root_binds_contents (blake3 : Blake3) (calls calls' : List (Hash256 × List UInt8)) :
    (∀ key value proof,
      verifyProof blake3 ((insertAll blake3 calls).root blake3) key value proof = true →
      get (insertAll blake3 calls) key = value ∨
        CollisionIn blake3 ((insertAll blake3 calls).rootStrings blake3 ++
          verifyStrings blake3 key value proof)) ∧
    ((insertAll blake3 calls).root blake3 = (insertAll blake3 calls').root blake3 →
      (∀ key, get (insertAll blake3 calls) key = get (insertAll blake3 calls') key) ∨
        CollisionIn blake3 ((insertAll blake3 calls).rootStrings blake3 ++
          (insertAll blake3 calls').rootStrings blake3)) := by
  refine ⟨fun key value proof accepted => ?_, fun same => ?_⟩
  · rw [or_iff_not_imp_right]
    intro free
    exact get_of_verifyProof free (fun s member => List.mem_append_left _ member)
      (fun s member => List.mem_append_right _ member) accepted
  · rw [or_iff_not_imp_right]
    exact fun free => get_eq_of_root_eq free same

end Binding

namespace TwoEntries

/-- Two orders of the same entries have one root, and the proof of an entry verifies. -/
theorem entries_bound :
    (get (insertAll Blake3.hash calls) first = some [10] ∨
      CollisionIn Blake3.hash ((insertAll Blake3.hash calls).rootStrings Blake3.hash ++
        verifyStrings Blake3.hash first (some [10])
          (prove Blake3.hash (insertAll Blake3.hash calls) first))) ∧
    ((∀ key, get (insertAll Blake3.hash calls) key = get (insertAll Blake3.hash calls') key) ∨
      CollisionIn Blake3.hash ((insertAll Blake3.hash calls).rootStrings Blake3.hash ++
        (insertAll Blake3.hash calls').rootStrings Blake3.hash)) := by
  have held : get (insertAll Blake3.hash calls) first = some [10] := by
    rw [get_insertAll]
    decide
  have accepted := verifyProof_prove Blake3.hash (insertAll Blake3.hash calls) first
  rw [held] at accepted
  have oneTree : insertAll Blake3.hash calls = insertAll Blake3.hash calls' := by
    apply eq_of_get_eq
    intro key
    rw [get_insertAll, get_insertAll, lastInserted_calls]
  have bound := root_binds_contents Blake3.hash calls calls'
  exact ⟨bound.1 _ _ _ accepted, bound.2 (congrArg (SparseMerkleTree.root Blake3.hash) oneTree)⟩

end TwoEntries

end Smt

end Exochain.ExoDag
