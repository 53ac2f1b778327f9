/-
**`exo-dag` — the storage behind the graph.**

`DagStore` is the trait of `store.rs`: every answer may be an error, and a writing call hands the
store back with its answer. `MemoryStore` is the implementation in memory: the nodes by hash, an
index of the children that each put extends, and the heights of the committed nodes.

* `MemoryStore.put` never looks at what is stored already. A node under a known hash takes the place
  of the old one, and the children index lists a redelivered hash again.
* `MemoryStore.Closed` — **every parent of a stored node is stored, and every node sits under its
  own hash** — is all that survives such a replacement; `closed_put` is its step lemma.
-/

import Exochain.Foundation.Run
import Exochain.Dag.Graph

set_option linter.unusedSectionVars false

namespace Exochain.ExoDag

open Foundation ExoCore

/-- Storage for the nodes of a graph. -/
class DagStore (Store : Type) where
  /-- Retrieve a node by hash. -/
  get : Store → Hash256 → Except DagError (Option DagNode)
  /-- Store a node. -/
  put : Store → DagNode → Except DagError Unit × Store
  /-- Check if a node exists. -/
  contains : Store → Hash256 → Except DagError Bool
  /-- The current tip hashes. -/
  tips : Store → Except DagError (List Hash256)
  /-- The greatest committed height. -/
  committedHeight : Store → Except DagError UInt64
  /-- Mark a node as committed at the given height. -/
  markCommitted : Store → Hash256 → UInt64 → Except DagError Unit × Store

/-- Storage in memory. -/
structure MemoryStore where
  nodes : BTreeMap Hash256 DagNode
  children : BTreeMap Hash256 (List Hash256)
  committed : BTreeMap Hash256 UInt64
  maxCommittedHeight : UInt64

namespace MemoryStore

/-- The empty store. -/
def new : MemoryStore := ⟨∅, ∅, ∅, 0⟩

/-- Enter a node: under each of its parents in `children`, with an entry of its own there, and in
`nodes`. -/
def put (store : MemoryStore) (node : DagNode) : MemoryStore :=
  let listed := node.parents.foldl
    (fun children parent => BTreeMap.upsert children parent [] (· ++ [node.hash])) store.children
  { store with
    children := BTreeMap.upsert listed node.hash [] id
    nodes := store.nodes.insert node.hash node }

/-- The stored hashes without a listed child, in ascending order. -/
def tips (store : MemoryStore) : List Hash256 :=
  (store.nodes.keys.filter fun hash => (store.children[hash]?.getD []).isEmpty).mergeSort

/-- Mark a stored node as committed and raise the greatest height. -/
def markCommitted (store : MemoryStore) (hash : Hash256) (height : UInt64) :
    Except DagError Unit × MemoryStore :=
  if store.nodes.contains hash then
    (.ok (), { store with
      committed := store.committed.insert hash height
      maxCommittedHeight := if store.maxCommittedHeight < height then height
        else store.maxCommittedHeight })
  else (.error (.nodeNotFound hash), store)

instance : DagStore MemoryStore where
  get store hash := .ok store.nodes[hash]?
  put store node := (.ok (), store.put node)
  contains store hash := .ok (store.nodes.contains hash)
  tips store := .ok store.tips
  committedHeight store := .ok store.maxCommittedHeight
  markCommitted := markCommitted

/-! ### The nodes after a put -/

section Put

variable {store : MemoryStore} {node : DagNode}

theorem getElem?_nodes_put (hash : Hash256) :
    (store.put node).nodes[hash]? = if node.hash = hash then some node else store.nodes[hash]? :=
  BTreeMap.getElem?_insert_eq_ite _ _ _ _

theorem mem_nodes_put {hash : Hash256} :
    hash ∈ (store.put node).nodes ↔ node.hash = hash ∨ hash ∈ store.nodes := by
  show hash ∈ store.nodes.insert node.hash node ↔ _
  rw [Std.ExtTreeMap.mem_insert, Std.compare_eq_iff_eq]

/-- Delivering a stored node again leaves the nodes as they were. -/
theorem nodes_put_of_stored (stored : store.nodes[node.hash]? = some node) :
    (store.put node).nodes = store.nodes := by
  refine Std.ExtTreeMap.ext_getElem? fun hash => ?_
  rw [getElem?_nodes_put]
  split
  · rename_i same
    rw [← same, stored]
  · rfl

end Put

/-! ### Closed stores -/

/-- The stored node `child` lists `parent`. -/
def ParentOf (store : MemoryStore) (parent child : Hash256) : Prop :=
  ∃ node, store.nodes[child]? = some node ∧ parent ∈ node.parents

/-- **Every node sits under its own hash and every parent is stored.** -/
structure Closed (store : MemoryStore) : Prop where
  hash_key : ∀ (hash : Hash256) (node : DagNode), store.nodes[hash]? = some node → node.hash = hash
  parents_stored : ∀ parent child, store.ParentOf parent child → parent ∈ store.nodes

/-- The empty store holds no node. -/
theorem not_stored_new {hash : Hash256} {node : DagNode} : new.nodes[hash]? ≠ some node := by
  intro found
  have nothing : new.nodes[hash]? = none := Std.ExtTreeMap.getElem?_empty
  rw [nothing] at found
  cases found

theorem closed_new : new.Closed := by
  refine ⟨fun hash node found => absurd found not_stored_new, ?_⟩
  rintro parent child ⟨node, found, _⟩
  exact absurd found not_stored_new

/-- Putting a node whose parents are stored keeps the store closed, even over an old node. -/
theorem closed_put {store : MemoryStore} {node : DagNode} (closed : store.Closed)
    (parentsStored : ∀ parent ∈ node.parents, parent ∈ store.nodes) : (store.put node).Closed := by
  refine ⟨fun hash stored found => ?_, ?_⟩
  · rw [getElem?_nodes_put] at found
    split at found
    · rename_i same
      cases found
      exact same
    · exact closed.hash_key hash stored found
  · rintro parent child ⟨stored, found, member⟩
    rw [mem_nodes_put]
    rw [getElem?_nodes_put] at found
    split at found
    · cases found
      exact .inr (parentsStored parent member)
    · exact .inr (closed.parents_stored parent child ⟨stored, found, member⟩)

end MemoryStore

end Exochain.ExoDag
