/-
**The graph and the store give the same answers.**

A graph built by `append` and a store in memory that was handed its nodes keep different indexes: a
set of children for each node against a list that grows with every delivery. The store takes nodes
in any order and any number of times.

* `MemoryStore.mem_childrenOf_run`, `MemoryStore.delivered_of_stored` — what a run of puts leaves in the two
  tables, for every list of nodes.
* `Dag.mem_tips`, `MemoryStore.mem_tips` — the tips in terms of the parent relation.
* `replica_agrees` — **every delivery order and multiplicity gives the answers of the graph**.
-/

import Exochain.Foundation.Blake3
import Exochain.Dag.Invariant
import Exochain.Dag.Store

set_option linter.unusedSectionVars false

namespace Exochain.ExoDag

open Foundation ExoCore

/-! ### A store after a run of puts -/

namespace MemoryStore

/-- The children that the index lists under a hash. -/
def childrenOf (store : MemoryStore) (parent : Hash256) : List Hash256 :=
  store.children[parent]?.getD []

theorem mem_childrenOf_put {store : MemoryStore} {node : DagNode} {parent child : Hash256} :
    child ∈ (store.put node).childrenOf parent ↔
      (child = node.hash ∧ parent ∈ node.parents) ∨ child ∈ store.childrenOf parent := by
  have listed : ∀ (parents : List Hash256) (children : BTreeMap Hash256 (List Hash256)),
      child ∈ (parents.foldl (fun children listed =>
        BTreeMap.upsert children listed [] (· ++ [node.hash])) children)[parent]?.getD [] ↔
      (child = node.hash ∧ parent ∈ parents) ∨ child ∈ children[parent]?.getD [] := by
    intro parents
    induction parents with
    | nil => simp
    | cons first parents ih =>
      intro children
      rw [List.foldl_cons, ih, BTreeMap.getD_upsert]
      by_cases same : first = parent
      · simp [same]
        tauto
      · have other : parent ≠ first := fun equal => same equal.symm
        simp [same, other]
  unfold childrenOf put
  simp only [BTreeMap.getD_upsert_id]
  exact listed node.parents store.children

/-- **The index after a run of puts** lists a child under a parent if a delivery did. -/
theorem mem_childrenOf_run {deliveries : List DagNode} {parent child : Hash256} :
    child ∈ (run put new deliveries).childrenOf parent ↔
      ∃ node ∈ deliveries, child = node.hash ∧ parent ∈ node.parents := by
  induction deliveries using List.reverseRecOn with
  | nil =>
    have nothing : new.childrenOf parent = [] := by
      show (∅ : BTreeMap Hash256 (List Hash256))[parent]?.getD [] = []
      rw [Std.ExtTreeMap.getElem?_empty, Option.getD_none]
    simp [nothing]
  | append_singleton earlier node ih =>
    rw [run_append, run_cons, run_nil, mem_childrenOf_put, ih]
    simp only [List.mem_append, List.mem_singleton, or_and_right, exists_or, exists_eq_left]
    exact or_comm

/-- **A stored node was delivered**, and sits under its own hash. -/
theorem delivered_of_stored {deliveries : List DagNode} {hash : Hash256} {node : DagNode}
    (found : (run put new deliveries).nodes[hash]? = some node) :
    node ∈ deliveries ∧ node.hash = hash := by
  induction deliveries using List.reverseRecOn with
  | nil => exact absurd found not_stored_new
  | append_singleton earlier last ih =>
    rw [run_append, run_cons, run_nil, getElem?_nodes_put] at found
    rw [List.mem_append, List.mem_singleton]
    split at found
    · rename_i own
      cases found
      exact ⟨.inr rfl, own⟩
    · exact ⟨.inl (ih found).1, (ih found).2⟩

/-- **A delivered hash is stored.** -/
theorem stored_of_delivered {deliveries : List DagNode} {node : DagNode}
    (member : node ∈ deliveries) : node.hash ∈ (run put new deliveries).nodes := by
  induction deliveries using List.reverseRecOn with
  | nil => exact absurd member List.not_mem_nil
  | append_singleton earlier last ih =>
    rw [run_append, run_cons, run_nil, mem_nodes_put]
    rw [List.mem_append, List.mem_singleton] at member
    rcases member with old | rfl
    · exact .inr (ih old)
    · exact .inl rfl

/-- The tips are the stored hashes under which the index lists nothing. -/
theorem mem_tips {store : MemoryStore} {hash : Hash256} :
    hash ∈ store.tips ↔ hash ∈ store.nodes ∧ ∀ child, child ∉ store.childrenOf hash := by
  show hash ∈ store.nodes.keysWhere _ ↔ _
  rw [BTreeMap.mem_keysWhere, List.isEmpty_iff, List.eq_nil_iff_forall_not_mem]
  rfl

theorem tips_pairwise (store : MemoryStore) : store.tips.Pairwise (· < ·) :=
  BTreeMap.keysWhere_pairwise _ _

end MemoryStore

/-! ### The tips of a graph -/

namespace Dag

/-- **The tips of a well-formed graph** are the stored hashes that no stored node lists. -/
theorem mem_tips {blake3 : Blake3} {dag : Dag} (wellFormed : dag.WellFormed blake3)
    {hash : Hash256} : hash ∈ dag.tips ↔ hash ∈ dag.nodes ∧ ∀ child, ¬ dag.ParentOf hash child := by
  show hash ∈ dag.nodes.keysWhere _ ↔ _
  rw [BTreeMap.mem_keysWhere]
  refine and_congr_right fun stored => ?_
  obtain ⟨listed, entry⟩ := BTreeMap.mem_iff_exists.mp ((wellFormed.children_keys hash).mpr stored)
  rw [entry, Option.all_some]
  simp only [← wellFormed.children_exact hash listed entry]
  rw [Std.ExtTreeSet.isEmpty_iff, Std.ExtTreeSet.eq_empty_iff_forall_not_mem]

theorem tips_pairwise (dag : Dag) : dag.tips.Pairwise (· < ·) :=
  BTreeMap.keysWhere_pairwise _ _

/-- The list holds exactly the nodes of the graph, in some order, each once or more often. -/
def DeliveredBy (dag : Dag) (deliveries : List DagNode) : Prop :=
  ∀ node, node ∈ deliveries ↔ ∃ hash, dag.get hash = some node

end Dag

/-! ### The two agree -/

/-- The store answers every question as the graph does. -/
structure Replicates (dag : Dag) (store : MemoryStore) : Prop where
  get : ∀ hash, DagStore.get store hash = .ok (dag.get hash)
  contains : ∀ hash, DagStore.contains store hash = .ok (dag.nodes.contains hash)
  tips : DagStore.tips store = .ok dag.tips

section Agree

variable {blake3 : Blake3} {dag : Dag} {deliveries : List DagNode}

/-- **The nodes of the store are the nodes of the graph.** -/
theorem getElem?_nodes_run (wellFormed : dag.WellFormed blake3)
    (delivered : dag.DeliveredBy deliveries) (hash : Hash256) :
    (run MemoryStore.put .new deliveries).nodes[hash]? = dag.nodes[hash]? := by
  -- a delivered node is what the graph has under its hash
  have fromGraph : ∀ node ∈ deliveries, dag.nodes[node.hash]? = some node := by
    intro node member
    obtain ⟨key, found⟩ := (delivered node).mp member
    rw [(wellFormed.hash_key key node found).1]
    exact found
  cases inGraph : dag.nodes[hash]? with
  | none =>
    cases inStore : (run MemoryStore.put .new deliveries).nodes[hash]? with
    | none => rfl
    | some node =>
      obtain ⟨member, rfl⟩ := MemoryStore.delivered_of_stored inStore
      rw [fromGraph node member] at inGraph
      cases inGraph
  | some node =>
    have member : node ∈ deliveries := (delivered node).mpr ⟨hash, inGraph⟩
    have own : node.hash = hash := (wellFormed.hash_key hash node inGraph).1
    have stored := MemoryStore.stored_of_delivered member
    rw [own] at stored
    obtain ⟨other, found⟩ := BTreeMap.mem_iff_exists.mp stored
    obtain ⟨otherMember, rfl⟩ := MemoryStore.delivered_of_stored found
    rw [found, ← fromGraph other otherMember, inGraph]

/-- The store lists children under a hash exactly when the graph has some. -/
theorem mem_childrenOf_run_iff (wellFormed : dag.WellFormed blake3)
    (delivered : dag.DeliveredBy deliveries) {parent child : Hash256} :
    child ∈ (run MemoryStore.put .new deliveries).childrenOf parent ↔ dag.ParentOf parent child := by
  rw [MemoryStore.mem_childrenOf_run]
  constructor
  · rintro ⟨node, member, rfl, listed⟩
    obtain ⟨key, found⟩ := (delivered node).mp member
    rw [(wellFormed.hash_key key node found).1]
    exact ⟨node, found, listed⟩
  · rintro ⟨node, found, listed⟩
    exact ⟨node, (delivered node).mpr ⟨child, found⟩, (wellFormed.hash_key child node found).1.symm,
      listed⟩

theorem tips_run (wellFormed : dag.WellFormed blake3) (delivered : dag.DeliveredBy deliveries) :
    (run MemoryStore.put .new deliveries).tips = dag.tips := by
  refine (MemoryStore.tips_pairwise _).eq_of_mem_iff (Dag.tips_pairwise dag) fun hash => ?_
  rw [MemoryStore.mem_tips, Dag.mem_tips wellFormed, BTreeMap.mem_iff_exists,
    BTreeMap.mem_iff_exists, getElem?_nodes_run wellFormed delivered]
  simp only [mem_childrenOf_run_iff wellFormed delivered]

end Agree

/-- The list is the ascending list of the stored hashes that no stored node lists as a parent. -/
def Dag.ChildlessInOrder (dag : Dag) (hashes : List Hash256) : Prop :=
  hashes.Pairwise (· < ·) ∧
    ∀ hash, hash ∈ hashes ↔ (∃ node, dag.get hash = some node) ∧
      ∀ child node, dag.get child = some node → hash ∉ node.parents

theorem Dag.childlessInOrder_tips {blake3 : Blake3} {dag : Dag} (wellFormed : dag.WellFormed blake3) :
    dag.ChildlessInOrder dag.tips := by
  refine ⟨dag.tips_pairwise, fun hash => ?_⟩
  rw [mem_tips wellFormed, BTreeMap.mem_iff_exists]
  refine and_congr_right fun _ => ⟨fun childless child node found listed => ?_, ?_⟩
  · exact childless child ⟨node, found, listed⟩
  · rintro childless child ⟨node, found, listed⟩
    exact childless child node found listed

/-- **The store is a replica of the graph.** Whatever the calls that built the graph, and in whatever
order and how often its nodes are put, the store answers as the graph does; and the tips are the
childless nodes in ascending order. -/
theorem replica_agrees (build : Build) (blake3 : Blake3) (calls : List AppendCall)
    (deliveries : List DagNode)
    (delivered : (run (appendStep build blake3) Dag.new calls).DeliveredBy deliveries) :
    Replicates (run (appendStep build blake3) Dag.new calls)
        (run MemoryStore.put MemoryStore.new deliveries) ∧
      (run (appendStep build blake3) Dag.new calls).ChildlessInOrder
        (run (appendStep build blake3) Dag.new calls).tips := by
  have wellFormed : (run (appendStep build blake3) Dag.new calls).WellFormed blake3 :=
    (throughout_of_preserved (wellFormed_appendStep build blake3) Dag.wellFormed_new calls).last
  have lookup := getElem?_nodes_run wellFormed delivered
  refine ⟨⟨fun hash => ?_, fun hash => ?_, ?_⟩, Dag.childlessInOrder_tips wellFormed⟩
  · exact congrArg Except.ok (lookup hash)
  · refine congrArg Except.ok ?_
    rw [Bool.eq_iff_iff, Std.ExtTreeMap.contains_iff_mem, Std.ExtTreeMap.contains_iff_mem,
      BTreeMap.mem_iff_exists, BTreeMap.mem_iff_exists, lookup]
  · exact congrArg Except.ok (tips_run wellFormed delivered)

namespace Fork

/-- A call of `did:exo:x` on a fresh clock. -/
def call (parents : List Hash256) (payload : List UInt8) : AppendCall :=
  { parents, payload, creator := ⟨"did:exo:x"⟩, signFn := fun _ => .empty, clock := .new }

/-- The hash of the first node. -/
def genesis : Hash256 :=
  ((call [] []).nodeAt Blake3.hash ⟨0, 1⟩).hash

/-- A first node and two children of it. -/
def calls : List AppendCall := [call [] [], call [genesis] [1], call [genesis] [2]]

def dag : Dag := run (appendStep ⟨true⟩ Blake3.hash) Dag.new calls

/-- Every node twice, the children before and after their parent. -/
def deliveries : List DagNode :=
  let nodes := dag.nodes.toList.map Prod.snd
  nodes.reverse ++ nodes

theorem replica_agrees_twice :
    dag.nodes.size = 3 ∧ dag.DeliveredBy deliveries ∧
      Replicates dag (run MemoryStore.put MemoryStore.new deliveries) ∧
      dag.ChildlessInOrder dag.tips := by
  have delivered : dag.DeliveredBy deliveries := by
    intro node
    have listed : node ∈ deliveries ↔ ∃ hash, (hash, node) ∈ dag.nodes.toList := by
      simp [deliveries]
    rw [listed]
    refine exists_congr fun hash => ?_
    exact Std.ExtTreeMap.mem_toList_iff_getElem?_eq_some
  exact ⟨by decide +kernel, delivered,
    replica_agrees ⟨true⟩ Blake3.hash calls deliveries delivered⟩

end Fork

end Exochain.ExoDag
