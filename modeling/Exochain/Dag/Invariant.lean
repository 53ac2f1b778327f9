/-
**The append-only graph keeps its representation invariant.**

`Dag.WellFormed` collects what `dag.rs` relies on: nodes sit under their own recomputed hash, parent
lists are strictly sorted and closed, the index `children` is exactly the inverse of the parent
lists, the parent relation is acyclic and there is one root that everything descends from.

* `wellFormed_store` — **one stored node keeps the invariant**. The digest function is arbitrary, so
  freshness of the new hash is the only thing the argument has: a fresh hash is nobody's parent and
  has no children yet, hence the new node is a sink of the parent relation.
* `append_run_wellFormed` — **every run of calls**, failing ones included, from the empty graph.
-/

import Exochain.Foundation.Run
import Exochain.Dag.Graph

set_option linter.unusedSectionVars false

namespace Exochain.ExoDag

open Foundation ExoCore

namespace Dag

/-- The stored node `child` lists `parent`. -/
def ParentOf (dag : Dag) (parent child : Hash256) : Prop :=
  ∃ node, dag.nodes[child]? = some node ∧ parent ∈ node.parents

/-- A stored node without parents. -/
def Orphan (dag : Dag) (hash : Hash256) : Prop :=
  ∃ node, dag.nodes[hash]? = some node ∧ node.parents = []

/-- `root` is the only stored node without parents, and every stored node descends from it. -/
def RootedAt (dag : Dag) (root : Hash256) : Prop :=
  (∀ hash, dag.Orphan hash ↔ hash = root) ∧
    ∀ hash, hash ∈ dag.nodes → Relation.ReflTransGen dag.ParentOf root hash

/-- **The representation invariant of the graph.** -/
structure WellFormed (blake3 : Blake3) (dag : Dag) : Prop where
  hash_key : ∀ (hash : Hash256) (node : DagNode), dag.nodes[hash]? = some node →
    node.hash = hash ∧ node.recomputedHash blake3 = hash
  parents_sorted : ∀ (hash : Hash256) (node : DagNode), dag.nodes[hash]? = some node →
    node.parents.Pairwise (· < ·)
  parents_stored : ∀ parent child, dag.ParentOf parent child → parent ∈ dag.nodes
  children_keys : ∀ hash, hash ∈ dag.children ↔ hash ∈ dag.nodes
  children_exact : ∀ (parent : Hash256) (listed : BTreeSet Hash256), dag.children[parent]? = some listed →
    ∀ child, child ∈ listed ↔ dag.ParentOf parent child
  acyclic : Acyclic dag.ParentOf
  rooted : dag.isEmpty = false → ∃ root, dag.RootedAt root

/-! ### The tables after one stored node -/

section Store

variable {dag : Dag} {node : DagNode}

theorem nodes_store : (dag.store node).nodes = dag.nodes.insert node.hash node := rfl

theorem mem_nodes_store {hash : Hash256} :
    hash ∈ (dag.store node).nodes ↔ node.hash = hash ∨ hash ∈ dag.nodes := by
  rw [nodes_store, Std.ExtTreeMap.mem_insert, Std.compare_eq_iff_eq]

theorem getElem?_nodes_store (hash : Hash256) :
    (dag.store node).nodes[hash]? = if node.hash = hash then some node else dag.nodes[hash]? := by
  rw [nodes_store, BTreeMap.getElem?_insert_eq_ite]

/-- A fresh node is a parent of nothing but what it lists, and lists exactly its own parents. -/
theorem parentOf_store_iff {parent child : Hash256} :
    (dag.store node).ParentOf parent child ↔
      (child = node.hash ∧ parent ∈ node.parents) ∨
      (child ≠ node.hash ∧ dag.ParentOf parent child) := by
  unfold ParentOf
  rw [getElem?_nodes_store]
  by_cases same : node.hash = child
  · subst same
    simp
  · have different : child ≠ node.hash := fun equal => same equal.symm
    simp [same, different]

/-- The children index after one stored node, whose hash is not among its own parents. -/
theorem getElem?_children_store (distinct : node.parents.Nodup) (notOwn : node.hash ∉ node.parents)
    (hash : Hash256) :
    (dag.store node).children[hash]? =
      if hash = node.hash then some (dag.children[hash]?.getD ∅)
      else if hash ∈ node.parents then some ((dag.children[hash]?.getD ∅).insert node.hash)
      else dag.children[hash]? := by
  unfold store
  by_cases own : hash = node.hash
  · subst own
    rw [if_pos rfl]
    simp only [BTreeMap.getElem?_upsert_self, BTreeMap.getElem?_foldl_upsert _ _ _ distinct,
      if_neg notOwn, id_eq]
  · have different : node.hash ≠ hash := fun equal => own equal.symm
    rw [if_neg own]
    simp only [BTreeMap.getElem?_upsert_of_ne _ _ different,
      BTreeMap.getElem?_foldl_upsert _ _ _ distinct]

end Store

/-! ### One stored node -/

section Preserved

variable {blake3 : Blake3} {dag : Dag} {node : DagNode}

/-- The conditions under which `append` stores a node, in the terms of the node. -/
structure Admits (blake3 : Blake3) (dag : Dag) (node : DagNode) : Prop where
  hash_eq : node.recomputedHash blake3 = node.hash
  sorted : node.parents.Pairwise (· < ·)
  fresh : node.hash ∉ dag.nodes
  parents_stored : ∀ parent ∈ node.parents, parent ∈ dag.nodes
  genesis : node.parents = [] → dag.isEmpty = true

namespace Admits

theorem nodup (admits : dag.Admits blake3 node) : node.parents.Nodup :=
  admits.sorted.imp fun less => less.ne

theorem hash_not_parent (admits : dag.Admits blake3 node) : node.hash ∉ node.parents :=
  fun member => admits.fresh (admits.parents_stored _ member)

end Admits

/-- A node that a call stores is admissible. -/
theorem admits_of_stored {call : AppendCall} (stored : Stored blake3 dag call node) :
    dag.Admits blake3 node := by
  obtain ⟨⟨timestamp, rfl⟩, fresh, parentsStored, genesis⟩ := stored
  refine ⟨rfl, sortDedup_pairwise call.parents, fresh, ?_, ?_⟩
  · intro parent member
    exact parentsStored parent (mem_sortDedup.mp member)
  · intro noParents
    exact genesis (sortDedup_eq_nil_iff.mp noParents)

/-- A fresh node is nobody's child. -/
theorem not_child_fresh (admits : dag.Admits blake3 node) (parent : Hash256) :
    ¬ dag.ParentOf parent node.hash := by
  rintro ⟨old, there, _⟩
  exact admits.fresh (BTreeMap.mem_iff_exists.mpr ⟨old, there⟩)

/-- The new hash is nobody's parent. -/
theorem not_parentOf_fresh (wellFormed : dag.WellFormed blake3) (admits : dag.Admits blake3 node)
    (child : Hash256) : ¬ (dag.store node).ParentOf node.hash child := by
  rw [parentOf_store_iff]
  rintro (⟨_, member⟩ | ⟨_, old⟩)
  · exact admits.hash_not_parent member
  · exact admits.fresh (wellFormed.parents_stored _ _ old)

/-- The children listed for a hash, with the empty set for a missing entry, are its children. -/
theorem WellFormed.mem_children_iff (wellFormed : dag.WellFormed blake3) (parent other : Hash256) :
    other ∈ dag.children[parent]?.getD ∅ ↔ dag.ParentOf parent other := by
  cases entry : dag.children[parent]? with
  | some old => exact wellFormed.children_exact parent old entry other
  | none =>
    have absent : parent ∉ dag.nodes := fun member =>
      BTreeMap.not_mem_iff.mpr entry ((wellFormed.children_keys parent).mpr member)
    constructor
    · intro member
      exact absurd member Std.ExtTreeSet.not_mem_empty
    · intro listedThere
      exact absurd (wellFormed.parents_stored _ _ listedThere) absent

theorem children_exact_store (wellFormed : dag.WellFormed blake3)
    (admits : dag.Admits blake3 node) (parent : Hash256) (listed : BTreeSet Hash256)
    (found : (dag.store node).children[parent]? = some listed) (child : Hash256) :
    child ∈ listed ↔ (dag.store node).ParentOf parent child := by
  rw [getElem?_children_store admits.nodup admits.hash_not_parent] at found
  have before := wellFormed.mem_children_iff parent
  have freshChild := not_child_fresh admits parent
  by_cases own : parent = node.hash
  · subst own
    rw [if_pos rfl, Option.some.injEq] at found
    subst found
    have nobody := not_parentOf_fresh wellFormed admits child
    refine ⟨fun member => ?_, fun related => absurd related nobody⟩
    exact absurd (wellFormed.parents_stored _ _ ((before child).mp member)) admits.fresh
  · rw [if_neg own] at found
    rw [parentOf_store_iff]
    by_cases named : parent ∈ node.parents
    · rw [if_pos named, Option.some.injEq] at found
      subst found
      rw [BTreeSet.mem_insert_iff, before]
      constructor
      · rintro (rfl | old)
        · exact .inl ⟨rfl, named⟩
        · exact .inr ⟨fun same => freshChild (same ▸ old), old⟩
      · rintro (⟨rfl, _⟩ | ⟨_, old⟩)
        · exact .inl rfl
        · exact .inr old
    · rw [if_neg named] at found
      rw [found, Option.getD_some] at before
      rw [before]
      constructor
      · exact fun old => .inr ⟨fun same => freshChild (same ▸ old), old⟩
      · rintro (⟨_, member⟩ | ⟨_, old⟩)
        · exact absurd member named
        · exact old

theorem children_keys_store (wellFormed : dag.WellFormed blake3)
    (admits : dag.Admits blake3 node) (hash : Hash256) :
    hash ∈ (dag.store node).children ↔ hash ∈ (dag.store node).nodes := by
  rw [mem_nodes_store, BTreeMap.mem_iff_exists,
    getElem?_children_store admits.nodup admits.hash_not_parent]
  by_cases own : hash = node.hash
  · simp [own]
  · have different : node.hash ≠ hash := fun equal => own equal.symm
    rw [if_neg own]
    by_cases named : hash ∈ node.parents
    · simp [named, admits.parents_stored hash named]
    · simp only [if_neg named, ← BTreeMap.mem_iff_exists, wellFormed.children_keys, different,
        false_or]

/-- A path of the graph is still there after a fresh node is stored. -/
theorem reaches_store (admits : dag.Admits blake3 node) {ancestor hash : Hash256}
    (reaches : Relation.ReflTransGen dag.ParentOf ancestor hash) :
    Relation.ReflTransGen (dag.store node).ParentOf ancestor hash := by
  refine Relation.ReflTransGen.mono (fun parent child related =>
    parentOf_store_iff.mpr (.inr ⟨?_, related⟩)) _ _ reaches
  intro same
  exact not_child_fresh admits parent (same ▸ related)

theorem orphan_store_iff {hash : Hash256} :
    (dag.store node).Orphan hash ↔
      (hash = node.hash ∧ node.parents = []) ∨ (hash ≠ node.hash ∧ dag.Orphan hash) := by
  unfold Orphan
  rw [getElem?_nodes_store]
  by_cases own : node.hash = hash
  · subst own
    simp
  · have different : hash ≠ node.hash := fun equal => own equal.symm
    simp [own, different]

/-- The first node is the root, and nothing else is stored. -/
theorem rooted_store_first (admits : dag.Admits blake3 node) (noParents : node.parents = []) :
    (dag.store node).RootedAt node.hash := by
  have nothing : ∀ hash, hash ∉ dag.nodes := by
    have empty : dag.nodes = ∅ := Std.ExtTreeMap.isEmpty_iff.mp (admits.genesis noParents)
    intro hash
    rw [empty]
    exact Std.ExtTreeMap.not_mem_empty
  refine ⟨fun hash => ?_, fun hash member => ?_⟩
  · rw [orphan_store_iff]
    constructor
    · rintro (⟨same, _⟩ | ⟨_, old, there, _⟩)
      · exact same
      · exact absurd (BTreeMap.mem_iff_exists.mpr ⟨old, there⟩) (nothing hash)
    · exact fun same => .inl ⟨same, noParents⟩
  · rcases mem_nodes_store.mp member with rfl | old
    · exact .refl
    · exact absurd old (nothing hash)

/-- After a later node the root is the old one, and the new node hangs below one of its parents. -/
theorem rooted_store_later (admits : dag.Admits blake3 node) {parent root : Hash256}
    (listed : parent ∈ node.parents) (rooted : dag.RootedAt root) :
    (dag.store node).RootedAt root := by
  obtain ⟨unique, descends⟩ := rooted
  refine ⟨fun hash => ?_, fun hash member => ?_⟩
  · rw [orphan_store_iff, unique]
    constructor
    · rintro (⟨_, none⟩ | ⟨_, same⟩)
      · rw [none] at listed
        cases listed
      · exact same
    · intro same
      refine .inr ⟨?_, same⟩
      rintro rfl
      obtain ⟨old, there, _⟩ := (unique node.hash).mpr same
      exact admits.fresh (BTreeMap.mem_iff_exists.mpr ⟨old, there⟩)
  · rcases mem_nodes_store.mp member with rfl | old
    · have above := reaches_store admits (descends parent (admits.parents_stored parent listed))
      exact above.tail (parentOf_store_iff.mpr (.inl ⟨rfl, listed⟩))
    · exact reaches_store admits (descends hash old)

theorem rooted_store (wellFormed : dag.WellFormed blake3) (admits : dag.Admits blake3 node) :
    ∃ root, (dag.store node).RootedAt root := by
  by_cases noParents : node.parents = []
  · exact ⟨node.hash, rooted_store_first admits noParents⟩
  · obtain ⟨parent, listed⟩ := List.exists_mem_of_ne_nil _ noParents
    have nonempty : dag.isEmpty = false := by
      by_contra isEmpty
      have empty : dag.nodes = ∅ :=
        Std.ExtTreeMap.isEmpty_iff.mp (Bool.not_eq_false _ ▸ isEmpty)
      have member := admits.parents_stored parent listed
      rw [empty] at member
      exact Std.ExtTreeMap.not_mem_empty member
    obtain ⟨root, rooted⟩ := wellFormed.rooted nonempty
    exact ⟨root, rooted_store_later admits listed rooted⟩

/-- **One stored node keeps the invariant.** -/
theorem wellFormed_store (wellFormed : dag.WellFormed blake3) (admits : dag.Admits blake3 node) :
    (dag.store node).WellFormed blake3 where
  hash_key hash stored found := by
    rw [getElem?_nodes_store] at found
    split at found
    · rename_i own
      cases found
      exact ⟨own, admits.hash_eq.trans own⟩
    · exact wellFormed.hash_key hash stored found
  parents_sorted hash stored found := by
    rw [getElem?_nodes_store] at found
    split at found
    · cases found
      exact admits.sorted
    · exact wellFormed.parents_sorted hash stored found
  parents_stored parent child related := by
    refine mem_nodes_store.mpr (.inr ?_)
    rcases parentOf_store_iff.mp related with ⟨_, listed⟩ | ⟨_, old⟩
    · exact admits.parents_stored parent listed
    · exact wellFormed.parents_stored parent child old
  children_keys := children_keys_store wellFormed admits
  children_exact := children_exact_store wellFormed admits
  acyclic := by
    refine wellFormed.acyclic.insert_sink node.hash ?_ (not_parentOf_fresh wellFormed admits)
    intro parent child related away
    rcases parentOf_store_iff.mp related with ⟨own, _⟩ | ⟨_, old⟩
    · exact absurd own away
    · exact old
  rooted _ := rooted_store wellFormed admits

/-- The empty graph satisfies the invariant. -/
theorem wellFormed_new : Dag.new.WellFormed blake3 := by
  have nothing : ∀ hash, Dag.new.nodes[hash]? = none := fun hash => Std.ExtTreeMap.getElem?_empty
  have unrelated : ∀ parent child, ¬ Dag.new.ParentOf parent child := by
    rintro parent child ⟨node, found, _⟩
    rw [nothing] at found
    cases found
  refine ⟨?_, ?_, ?_, ?_, ?_, ?_, ?_⟩
  · intro hash node found
    rw [nothing] at found
    cases found
  · intro hash node found
    rw [nothing] at found
    cases found
  · exact fun parent child related => absurd related (unrelated parent child)
  · intro hash
    exact ⟨fun member => absurd member Std.ExtTreeMap.not_mem_empty,
      fun member => absurd member Std.ExtTreeMap.not_mem_empty⟩
  · intro parent listed found
    have none : Dag.new.children[parent]? = none := Std.ExtTreeMap.getElem?_empty
    rw [none] at found
    cases found
  · exact Acyclic.of_rank (fun _ => 0) fun parent child related =>
      absurd related (unrelated parent child)
  · intro nonempty
    cases nonempty

end Preserved

end Dag

/-! ### Every run of calls -/

section Runs

variable (build : Build) (blake3 : Blake3)

/-- A call keeps the invariant. -/
theorem wellFormed_appendStep (dag : Dag) (call : AppendCall) (wellFormed : dag.WellFormed blake3) :
    (appendStep build blake3 dag call).WellFormed blake3 := by
  rcases appendStep_cases build blake3 dag call with
    same | ⟨node, stores, stored⟩
  · rw [same]
    exact wellFormed
  · rw [stores]
    exact Dag.wellFormed_store wellFormed (Dag.admits_of_stored stored)

/-- Every node of `earlier` is in `later`, unchanged. -/
def Dag.Extends (earlier later : Dag) : Prop :=
  ∀ (hash : Hash256) (node : DagNode), earlier.nodes[hash]? = some node → later.nodes[hash]? = some node

/-- A call changes and removes no stored node. -/
theorem extends_appendStep (dag : Dag) (call : AppendCall) :
    dag.Extends (appendStep build blake3 dag call) := by
  rcases appendStep_cases build blake3 dag call with
    same | ⟨node, stores, stored⟩
  · rw [same]
    exact fun hash node found => found
  · rw [stores]
    intro hash old found
    have other : node.hash ≠ hash := by
      rintro rfl
      exact stored.fresh (BTreeMap.mem_iff_exists.mpr ⟨old, found⟩)
    rw [Dag.getElem?_nodes_store, if_neg other]
    exact found

/-- **Every run of `append` calls from the empty graph, failing calls included**: every state is
well formed, stored nodes are never changed or removed, and a call that does not succeed leaves the
graph as it was. -/
theorem append_run_wellFormed (calls : List AppendCall) :
    Throughout (appendStep build blake3) (Dag.WellFormed blake3) Dag.new calls ∧
    Evolves (appendStep build blake3) Dag.Extends Dag.new calls ∧
    Along (appendStep build blake3) (fun dag call => ¬ appendSucceeds build blake3 dag call →
      appendStep build blake3 dag call = dag) Dag.new calls := by
  refine ⟨?_, ?_, ?_⟩
  · exact throughout_of_preserved (wellFormed_appendStep build blake3) Dag.wellFormed_new calls
  · refine (evolves_iff_along (fun _ _ _ found => found) ?_).mpr ?_
    · exact fun _ _ _ first second hash node found => second hash node (first hash node found)
    · exact along_of_forall (extends_appendStep build blake3) Dag.new calls
  · exact along_of_forall (fun _ _ failed => appendStep_of_not_succeeds failed) Dag.new calls

end Runs

end Exochain.ExoDag
