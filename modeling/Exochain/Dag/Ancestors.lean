/-
**Ancestors in topological order.**

`ancestors` walks back from a node, parents first visited last expanded, and sorts what it has visited with
the number of parents of each node inside the visited set. Both loops are those of the library, over the
parents of a stored node.

* `closure_parentsOf`, `topologicalSort_spec` — what each loop computes on a well-formed graph.
* `ancestors_spec` — **on every graph that `append` builds, the ancestors of a node are listed once each,
  every one after all its parents**; a hash that is not stored has none.
-/

import Exochain.Foundation.Blake3
import Exochain.Foundation.Traversal
import Exochain.Dag.Invariant

set_option linter.unusedSectionVars false

namespace Exochain.ExoDag

open Foundation ExoCore

namespace Dag

/-- The parents of a stored node; none of a hash that is not stored. -/
def parentsOf (dag : Dag) (hash : Hash256) : List Hash256 :=
  match dag.nodes[hash]? with
  | some node => node.parents
  | none => []

end Dag

/-- Topological sort of a set of node hashes. -/
def topologicalSort (fuel : ℕ) (dag : Dag) (hashes : List Hash256) : Option (List Hash256) :=
  kahn dag.parentsOf fuel (Std.ExtTreeSet.ofList hashes compare)

/-- All ancestors of the given node in topological order, parents before children. The fuel bounds the
rounds of each loop. -/
def ancestors (fuel : ℕ) (dag : Dag) (hash : Hash256) : Option (List Hash256) := do
  let visited ← closure dag.parentsOf fuel hash
  topologicalSort fuel dag visited.toList

/-! ### On a well-formed graph -/

namespace Dag

variable {blake3 : Blake3} {dag : Dag}

theorem precedes_iff {parent child : Hash256} :
    Precedes dag.parentsOf parent child ↔ dag.ParentOf parent child := by
  unfold Precedes parentsOf ParentOf
  cases dag.nodes[child]? with
  | none => simp
  | some node => simp

theorem precedes_eq (dag : Dag) : Precedes dag.parentsOf = dag.ParentOf := by
  funext parent child
  exact propext precedes_iff

namespace WellFormed

theorem nodup_parentsOf (wellFormed : dag.WellFormed blake3) (hash : Hash256) :
    (dag.parentsOf hash).Nodup := by
  unfold parentsOf
  cases found : dag.nodes[hash]? with
  | none => exact List.nodup_nil
  | some node => exact (wellFormed.parents_sorted hash node found).imp fun less => less.ne

/-- The stored hashes, as a finite set. -/
theorem parentsOf_stored (wellFormed : dag.WellFormed blake3) (hash : Hash256) :
    ∀ parent ∈ dag.parentsOf hash, parent ∈ dag.nodes.keys.toFinset := by
  intro parent listed
  rw [List.mem_toFinset, Std.ExtTreeMap.mem_keys]
  exact wellFormed.parents_stored parent hash (precedes_iff.mp listed)

/-- What an ancestor is an ancestor of is stored, and so is the ancestor. -/
theorem ancestor_stored (wellFormed : dag.WellFormed blake3) {ancestor hash : Hash256}
    (path : Relation.TransGen dag.ParentOf ancestor hash) :
    ancestor ∈ dag.nodes ∧ hash ∈ dag.nodes := by
  obtain ⟨_, first, _⟩ := Relation.TransGen.head'_iff.mp path
  obtain ⟨_, _, node, found, _⟩ := Relation.TransGen.tail'_iff.mp path
  exact ⟨wellFormed.parents_stored _ _ first, BTreeMap.mem_iff_exists.mpr ⟨node, found⟩⟩

/-- The first loop collects the ancestors. -/
theorem closure_parentsOf (wellFormed : dag.WellFormed blake3) {fuel : ℕ} (enough : dag.nodes.size < fuel)
    (hash : Hash256) :
    ∃ visited, closure dag.parentsOf fuel hash = some visited ∧
      ∀ ancestor, ancestor ∈ visited ↔ Relation.TransGen dag.ParentOf ancestor hash := by
  rw [← precedes_eq]
  refine closure_spec wellFormed.parentsOf_stored ?_ hash
  rw [List.toFinset_card_of_nodup Std.ExtTreeMap.nodup_keys, Std.ExtTreeMap.length_keys]
  exact enough

/-- The second loop sorts what it is given. -/
theorem topologicalSort_spec (wellFormed : dag.WellFormed blake3) {fuel : ℕ} {hashes : List Hash256}
    (enough : hashes.length < fuel) :
    ∃ order, topologicalSort fuel dag hashes = some order ∧
      Topological dag.parentsOf (Std.ExtTreeSet.ofList hashes compare) order := by
  refine kahn_spec ?_ wellFormed.nodup_parentsOf (enough.trans_le' Std.ExtTreeSet.size_ofList_le)
  rw [precedes_eq]
  exact wellFormed.acyclic

/-- The ancestors are no more than the stored nodes. -/
theorem length_ancestors_le (wellFormed : dag.WellFormed blake3) {hash : Hash256}
    {visited : BTreeSet Hash256}
    (behind : ∀ ancestor, ancestor ∈ visited ↔ Relation.TransGen dag.ParentOf ancestor hash) :
    visited.toList.length ≤ dag.nodes.size := by
  rw [← List.toFinset_card_of_nodup (BTreeSet.nodup_toList visited), ← Std.ExtTreeMap.length_keys,
    ← List.toFinset_card_of_nodup Std.ExtTreeMap.nodup_keys]
  refine Finset.card_le_card fun ancestor member => ?_
  rw [List.mem_toFinset, Std.ExtTreeSet.mem_toList, behind] at member
  rw [List.mem_toFinset, Std.ExtTreeMap.mem_keys]
  exact (wellFormed.ancestor_stored member).1

end WellFormed

/-- The ancestors of a hash, in order: the stored nodes that it is reached from, once each and after all
their parents. -/
structure AncestorOrder (dag : Dag) (hash : Hash256) (order : List Hash256) : Prop where
  exact : ∀ ancestor, ancestor ∈ order ↔
    ancestor ∈ dag.nodes ∧ Relation.TransGen dag.ParentOf ancestor hash
  once : order.Nodup
  parents_first : ∀ before node after, order = before ++ node :: after →
    ∀ parent, dag.ParentOf parent node → parent ∈ before
  none_of_missing : hash ∉ dag.nodes → order = []

theorem WellFormed.ancestors_ordered (wellFormed : dag.WellFormed blake3) {fuel : ℕ}
    (enough : dag.nodes.size < fuel) (hash : Hash256) :
    ∃ order, ancestors fuel dag hash = some order ∧ dag.AncestorOrder hash order := by
  obtain ⟨visited, closed, behind⟩ := wellFormed.closure_parentsOf enough hash
  obtain ⟨order, sorted, topological⟩ := wellFormed.topologicalSort_spec
    ((wellFormed.length_ancestors_le behind).trans_lt enough)
  have members : ∀ ancestor, ancestor ∈ order ↔ Relation.TransGen dag.ParentOf ancestor hash := by
    intro ancestor
    rw [topological.exact, Std.ExtTreeSet.mem_ofList, List.contains_iff_mem, Std.ExtTreeSet.mem_toList,
      behind]
  refine ⟨order, ?_, fun ancestor => ?_, topological.once, ?_, fun missing => ?_⟩
  · unfold ancestors
    rw [closed]
    exact sorted
  · rw [members]
    exact ⟨fun path => ⟨(wellFormed.ancestor_stored path).1, path⟩, And.right⟩
  · intro before node after split parent edge
    have path : Relation.TransGen dag.ParentOf node hash := by
      rw [← members, split]
      exact List.mem_append_right _ List.mem_cons_self
    refine topological.parents_first before node after split parent (precedes_iff.mpr edge) ?_
    rw [← topological.exact, members]
    exact .head edge path
  · refine List.eq_nil_iff_forall_not_mem.mpr fun ancestor member => ?_
    exact missing (wellFormed.ancestor_stored ((members ancestor).mp member)).2

end Dag

/-- **Ancestors are exact and topological**: on every graph that calls of `append` build from the empty
one, and for every hash, the loops end within one round more than there are nodes, and answer with the
ancestors in order. -/
theorem ancestors_spec (build : Build) (blake3 : Blake3) (calls : List AppendCall) (hash : Hash256)
    {fuel : ℕ} (enough : (run (appendStep build blake3) Dag.new calls).nodes.size < fuel) :
    ∃ order, ancestors fuel (run (appendStep build blake3) Dag.new calls) hash = some order ∧
      (run (appendStep build blake3) Dag.new calls).AncestorOrder hash order := by
  have wellFormed := (throughout_of_preserved (wellFormed_appendStep build blake3)
    Dag.wellFormed_new calls).last
  exact wellFormed.ancestors_ordered enough hash

namespace Diamond

/-- A call of one creator, whose clock never moves. -/
def call (parents : List Hash256) (payload : List UInt8) : AppendCall :=
  ⟨parents, payload, ⟨"did:exo:a"⟩, fun _ => .empty, .new⟩

/-- The hash of the node that a call makes. -/
def hashOf (call : AppendCall) : Hash256 := (call.nodeAt Blake3.hash ⟨0, 1⟩).hash

def top : AppendCall := call [] []

def left : AppendCall := call [hashOf top] [1]

def right : AppendCall := call [hashOf top] [2]

def bottom : AppendCall := call [hashOf left, hashOf right] [3]

def dag : Dag := run (appendStep ⟨true⟩ Blake3.hash) Dag.new [top, left, right, bottom]

/-- The three nodes above the bottom come in order. -/
theorem bottom_ordered :
    ∃ order, ancestors 5 dag (hashOf bottom) = some order ∧
      dag.AncestorOrder (hashOf bottom) order :=
  ancestors_spec ⟨true⟩ Blake3.hash [top, left, right, bottom] (hashOf bottom) (by decide +kernel)

end Diamond

end Exochain.ExoDag
