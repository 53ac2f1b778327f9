/-
**Breadth-first closure and topological order.**

Two loops over a graph that is given by the list of predecessors of each node. A loop runs its body until
the body breaks; the fuel bounds the rounds.

* `loop_spec` — the rule for loops: an invariant and a measure that every round decreases give a last
  state, in the invariant, at which the body breaks.
* `closure` — walk back from a node, with a set of visited nodes and a queue. `closure_spec`: it collects
  exactly the nodes from which a path of one or more edges leads to the start.
* `kahn` — list the nodes of a set, those without a predecessor in the set first, each other one when the
  last of its predecessors is listed. `kahn_spec`: if the edges are acyclic, every node of the set is
  listed once, after its predecessors in the set.
-/

import Exochain.Foundation.Collections
import Exochain.Foundation.Run

set_option linter.unusedSectionVars false

namespace Foundation

/-! ### Loops -/

section Loop

variable {State : Type*} {body : State → Option State}

/-- Run a loop until its body breaks. -/
def loop (body : State → Option State) : ℕ → State → Option State
  | 0, _ => none
  | fuel + 1, state =>
    match body state with
    | none => some state
    | some next => loop body fuel next

/-- **The rule for loops.** -/
theorem loop_spec {I : State → Prop} (measure : State → ℕ)
    (round : ∀ state next, I state → body state = some next → I next ∧ measure next < measure state)
    {fuel : ℕ} {start : State} (initial : I start) (enough : measure start < fuel) :
    ∃ last, loop body fuel start = some last ∧ I last ∧ body last = none := by
  induction fuel generalizing start with
  | zero => exact absurd enough (Nat.not_lt_zero _)
  | succ fuel ih =>
    unfold loop
    cases stepped : body start with
    | none => exact ⟨start, rfl, initial, stepped⟩
    | some next =>
      obtain ⟨kept, less⟩ := round start next initial stepped
      exact ih kept (by omega)

end Loop

/-! ### The closure of a node -/

section Closure

variable {K : Type} [LinearOrder K] [Std.TransOrd K] [Std.LawfulEqOrd K]

/-- The nodes visited so far, and those of them that are still to be expanded. -/
structure Frontier (K : Type) [Ord K] where
  visited : BTreeSet K
  queue : List K

/-- Visit a node, unless it is visited already. -/
def Frontier.visit (frontier : Frontier K) (node : K) : Frontier K :=
  if frontier.visited.contains node then frontier
  else ⟨frontier.visited.insert node, frontier.queue ++ [node]⟩

variable (preds : K → List K)

/-- Expand the first node of the queue. -/
def Frontier.expand (frontier : Frontier K) : Option (Frontier K) :=
  match frontier.queue with
  | [] => none
  | current :: queue => some ((preds current).foldl Frontier.visit ⟨frontier.visited, queue⟩)

/-- The nodes behind a node. -/
def closure (fuel : ℕ) (start : K) : Option (BTreeSet K) :=
  (loop (Frontier.expand preds) fuel ((preds start).foldl Frontier.visit ⟨∅, []⟩)).map
    Frontier.visited

/-- One node precedes another. -/
def Precedes (node next : K) : Prop := node ∈ preds next

namespace Frontier

variable {preds} {frontier : Frontier K} {node : K}

theorem mem_visited_visit {x : K} :
    x ∈ (frontier.visit node).visited ↔ x ∈ frontier.visited ∨ x = node := by
  unfold visit
  split
  · rename_i seen
    have member : node ∈ frontier.visited := Std.ExtTreeSet.contains_iff_mem.mp seen
    exact ⟨.inl, fun both => both.elim id fun same => same ▸ member⟩
  · rw [BTreeSet.mem_insert_iff, or_comm, eq_comm]

theorem mem_queue_visit {x : K} :
    x ∈ (frontier.visit node).queue ↔ x ∈ frontier.queue ∨ x = node ∧ x ∉ frontier.visited := by
  unfold visit
  split
  · rename_i seen
    have member : node ∈ frontier.visited := Std.ExtTreeSet.contains_iff_mem.mp seen
    exact ⟨.inl, fun both => both.elim id fun fresh => absurd (fresh.1 ▸ member) fresh.2⟩
  · rename_i fresh
    have away : node ∉ frontier.visited := fun member =>
      fresh (Std.ExtTreeSet.contains_iff_mem.mpr member)
    rw [List.mem_append, List.mem_singleton]
    exact or_congr_right ⟨fun same => ⟨same, same ▸ away⟩, And.left⟩

theorem mem_visited_foldl {x : K} {nodes : List K} :
    x ∈ (nodes.foldl visit frontier).visited ↔ x ∈ frontier.visited ∨ x ∈ nodes := by
  induction nodes generalizing frontier with
  | nil => simp
  | cons node nodes ih => rw [List.foldl_cons, ih, mem_visited_visit, List.mem_cons, or_assoc]

theorem mem_queue_foldl {x : K} {nodes : List K} :
    x ∈ (nodes.foldl visit frontier).queue ↔
      x ∈ frontier.queue ∨ x ∈ nodes ∧ x ∉ frontier.visited := by
  induction nodes generalizing frontier with
  | nil => simp
  | cons node nodes ih =>
    rw [List.foldl_cons, ih, mem_queue_visit, mem_visited_visit, List.mem_cons]
    tauto

/-- What is left to do: the nodes of the domain to visit, and the queue to expand. -/
def work (domain : Finset K) (frontier : Frontier K) : ℕ :=
  (domain \ frontier.visited.toFinset).card + frontier.queue.length

theorem work_visit {domain : Finset K} (inside : node ∈ domain) :
    (frontier.visit node).work domain = frontier.work domain := by
  unfold visit
  split
  · rfl
  · rename_i fresh
    have away : node ∈ domain \ frontier.visited.toFinset := by
      rw [Finset.mem_sdiff, BTreeSet.mem_toFinset, ← Std.ExtTreeSet.contains_iff_mem]
      exact ⟨inside, fresh⟩
    have inserted : BTreeSet.toFinset (frontier.visited.insert node) =
        insert node frontier.visited.toFinset := by
      ext x
      rw [BTreeSet.mem_toFinset, BTreeSet.mem_insert_iff, Finset.mem_insert, BTreeSet.mem_toFinset,
        eq_comm]
    unfold work
    rw [inserted, Finset.sdiff_insert, Finset.card_erase_of_mem away, List.length_append,
      List.length_singleton]
    have positive := Finset.card_pos.mpr ⟨node, away⟩
    omega

theorem work_foldl {domain : Finset K} {nodes : List K} (inside : ∀ node ∈ nodes, node ∈ domain) :
    (nodes.foldl visit frontier).work domain = frontier.work domain := by
  induction nodes generalizing frontier with
  | nil => rfl
  | cons node nodes ih =>
    obtain ⟨here, others⟩ := List.forall_mem_cons.mp inside
    rw [List.foldl_cons, ih others, work_visit here]

/-- **The invariant of the walk**: what is visited leads to the start, is all expanded but the queue, and
holds the predecessors of the start. -/
structure Walk (preds : K → List K) (start : K) (frontier : Frontier K) : Prop where
  leads : ∀ x ∈ frontier.visited, Relation.TransGen (Precedes preds) x start
  queued : ∀ x ∈ frontier.queue, x ∈ frontier.visited
  expanded : ∀ x ∈ frontier.visited, x ∉ frontier.queue → ∀ y ∈ preds x, y ∈ frontier.visited
  begun : ∀ x ∈ preds start, x ∈ frontier.visited

theorem walk_begin (start : K) : Walk preds start ((preds start).foldl visit ⟨∅, []⟩) where
  leads x member := by
    rcases mem_visited_foldl.mp member with early | direct
    · exact absurd early Std.ExtTreeSet.not_mem_empty
    · exact .single direct
  queued x member := by
    rcases mem_queue_foldl.mp member with early | ⟨direct, _⟩
    · cases early
    · exact mem_visited_foldl.mpr (.inr direct)
  expanded x member unqueued := by
    rcases mem_visited_foldl.mp member with early | direct
    · exact absurd early Std.ExtTreeSet.not_mem_empty
    · exact absurd (mem_queue_foldl.mpr (.inr ⟨direct, Std.ExtTreeSet.not_mem_empty⟩)) unqueued
  begun x direct := mem_visited_foldl.mpr (.inr direct)

/-- One round keeps the invariant. -/
theorem walk_expand {start : K} {next : Frontier K} (walk : Walk preds start frontier)
    (expanded : frontier.expand preds = some next) : Walk preds start next := by
  unfold expand at expanded
  split at expanded
  · cases expanded
  · rename_i current queue head
    cases expanded
    have seen : current ∈ frontier.visited := walk.queued current (head ▸ List.mem_cons_self)
    refine ⟨?_, ?_, ?_, ?_⟩
    · intro x member
      rcases mem_visited_foldl.mp member with early | behind
      · exact walk.leads x early
      · exact .head behind (walk.leads current seen)
    · intro x member
      rcases mem_queue_foldl.mp member with early | ⟨behind, _⟩
      · exact mem_visited_foldl.mpr (.inl (walk.queued x (head ▸ List.mem_cons_of_mem _ early)))
      · exact mem_visited_foldl.mpr (.inr behind)
    · intro x member unqueued y before
      rw [mem_queue_foldl, not_or] at unqueued
      have early : x ∈ frontier.visited := by
        by_contra fresh
        exact unqueued.2 ⟨(mem_visited_foldl.mp member).resolve_left fresh, fresh⟩
      by_cases same : x = current
      · exact mem_visited_foldl.mpr (.inr (same ▸ before))
      · refine mem_visited_foldl.mpr (.inl (walk.expanded x early ?_ y before))
        rw [head, List.mem_cons]
        exact fun listed => listed.elim same unqueued.1
    · exact fun x direct => mem_visited_foldl.mpr (.inl (walk.begun x direct))

/-- One round does one piece of work. -/
theorem work_expand {domain : Finset K} (closed : ∀ x, ∀ y ∈ preds x, y ∈ domain) {next : Frontier K}
    (expanded : frontier.expand preds = some next) : next.work domain < frontier.work domain := by
  unfold expand at expanded
  split at expanded
  · cases expanded
  · rename_i current queue head
    cases expanded
    rw [work_foldl (closed current), work, work, head, List.length_cons]
    show (domain \ frontier.visited.toFinset).card + queue.length < _
    omega

end Frontier

variable {preds}

/-- **The closure of a node**: the nodes from which one or more edges lead to it. -/
theorem closure_spec {domain : Finset K} (closed : ∀ x, ∀ y ∈ preds x, y ∈ domain) {fuel : ℕ}
    (enough : domain.card < fuel) (start : K) :
    ∃ visited, closure preds fuel start = some visited ∧
      ∀ x, x ∈ visited ↔ Relation.TransGen (Precedes preds) x start := by
  have room : ((preds start).foldl Frontier.visit ⟨∅, []⟩).work domain < fuel := by
    rw [Frontier.work_foldl (closed start)]
    exact (Finset.card_le_card Finset.sdiff_subset).trans_lt enough
  obtain ⟨last, ended, walk, broken⟩ := loop_spec (Frontier.work domain)
    (fun _ _ walk expanded =>
      ⟨Frontier.walk_expand walk expanded, Frontier.work_expand closed expanded⟩)
    (Frontier.walk_begin start) room
  have idle : last.queue = [] := by
    unfold Frontier.expand at broken
    split at broken
    · assumption
    · cases broken
  refine ⟨last.visited, ?_, fun x => ⟨walk.leads x, fun path => ?_⟩⟩
  · rw [closure, ended, Option.map_some]
  · induction path using Relation.TransGen.head_induction_on with
    | single direct => exact walk.begun _ direct
    | head before _ ih => exact walk.expanded _ ih (idle ▸ List.not_mem_nil) _ before

end Closure

/-! ### Listing a set in topological order -/

section Kahn

variable {K : Type} [LinearOrder K] [Std.TransOrd K] [Std.LawfulEqOrd K]

/-- The edges inside a set: how many lead to a node, and to which nodes they lead from one. -/
structure Edges (K : Type) [Ord K] where
  inDegree : BTreeMap K ℕ
  adj : BTreeMap K (List K)

/-- An entry for a node. -/
def Edges.declare (edges : Edges K) (node : K) : Edges K :=
  ⟨edges.inDegree.upsert node 0 id, edges.adj.upsert node [] id⟩

/-- An edge from a parent to a child. -/
def Edges.link (edges : Edges K) (child parent : K) : Edges K :=
  ⟨edges.inDegree.upsert child 0 (· + 1), fileUnder edges.adj parent child⟩

/-- The edges inside a set. -/
def edgesWithin (preds : K → List K) (nodes : BTreeSet K) : Edges K :=
  nodes.toList.foldl
    (fun edges child => (preds child).foldl
      (fun edges parent => if nodes.contains parent then edges.link child parent else edges) edges)
    (nodes.toList.foldl Edges.declare ⟨∅, ∅⟩)

/-- One edge less leads to a neighbour. It joins the batch if that was the last one. -/
def release (state : BTreeMap K ℕ × List K) (neighbor : K) : BTreeMap K ℕ × List K :=
  match state.1[neighbor]? with
  | none => state
  | some degree =>
    (state.1.insert neighbor (degree - 1),
      if degree - 1 = 0 then state.2 ++ [neighbor] else state.2)

/-- A listing under way. -/
structure Listing (K : Type) [Ord K] where
  queue : List K
  inDegree : BTreeMap K ℕ
  result : List K

/-- The nodes to which no edge leads, sorted. -/
def Edges.roots (edges : Edges K) : List K :=
  ((edges.inDegree.toList.filter (·.2 = 0)).map Prod.fst).mergeSort

/-- List the first node of the queue, and queue the neighbours to which no more edge leads, sorted. -/
def Listing.advance (adj : BTreeMap K (List K)) (listing : Listing K) : Option (Listing K) :=
  match listing.queue with
  | [] => none
  | current :: queue =>
    let (inDegree, nextBatch) := (filedUnder adj current).foldl release (listing.inDegree, [])
    some ⟨queue ++ nextBatch.mergeSort, inDegree, listing.result ++ [current]⟩

/-- The nodes of a set in topological order. -/
def kahn (preds : K → List K) (fuel : ℕ) (nodes : BTreeSet K) : Option (List K) :=
  let edges := edgesWithin preds nodes
  (loop (Listing.advance edges.adj) fuel ⟨edges.roots, edges.inDegree, []⟩).map Listing.result

/-! #### The tables -/

/-- The edges inside a set, as pairs of a child and a parent. -/
def arcs (preds : K → List K) (nodes : BTreeSet K) : List (K × K) :=
  nodes.toList.flatMap fun child => ((preds child).filter nodes.contains).map (Prod.mk child)

section Tables

variable {preds : K → List K} {nodes : BTreeSet K}

theorem mem_arcs {child parent : K} :
    (child, parent) ∈ arcs preds nodes ↔ child ∈ nodes ∧ parent ∈ preds child ∧ parent ∈ nodes := by
  unfold arcs
  simp only [List.mem_flatMap, List.mem_map, List.mem_filter, Prod.mk.injEq,
    Std.ExtTreeSet.mem_toList, Std.ExtTreeSet.contains_iff_mem]
  constructor
  · rintro ⟨_, member, _, inside, rfl, rfl⟩
    exact ⟨member, inside⟩
  · exact fun ⟨member, inside⟩ => ⟨child, member, parent, inside, rfl, rfl⟩

theorem nodup_arcs (distinct : ∀ node, (preds node).Nodup) : (arcs preds nodes).Nodup := by
  refine List.nodup_flatMap.mpr ⟨fun child _ => ?_, ?_⟩
  · exact ((distinct child).filter _).map fun _ _ same => (Prod.mk.inj same).2
  · refine (BTreeSet.nodup_toList nodes).imp fun different => ?_
    intro arc first second
    obtain ⟨_, _, rfl⟩ := List.mem_map.mp first
    obtain ⟨_, _, same⟩ := List.mem_map.mp second
    exact different (Prod.mk.inj same).1.symm

/-- The tables hold the arcs, one after the other. -/
theorem edgesWithin_eq (preds : K → List K) (nodes : BTreeSet K) :
    edgesWithin preds nodes =
      (arcs preds nodes).foldl (fun edges arc => edges.link arc.1 arc.2)
        (nodes.toList.foldl Edges.declare ⟨∅, ∅⟩) := by
  unfold edgesWithin arcs
  rw [List.foldl_flatMap]
  congr 1
  funext edges child
  rw [List.foldl_map, List.foldl_filter]

theorem getElem?_declare (members : List K) (edges : Edges K) (node : K) :
    (members.foldl Edges.declare edges).inDegree[node]? =
      if node ∈ members then some (edges.inDegree[node]?.getD 0) else edges.inDegree[node]? := by
  induction members generalizing edges with
  | nil => simp
  | cons first members ih =>
    rw [List.foldl_cons, ih, Edges.declare, BTreeMap.getD_upsert_id]
    by_cases same : first = node
    · subst same
      simp [BTreeMap.getElem?_upsert_self]
    · simp [BTreeMap.getElem?_upsert_of_ne _ _ same, Ne.symm same]

theorem filedUnder_declare (members : List K) (edges : Edges K) (node : K) :
    filedUnder (members.foldl Edges.declare edges).adj node = filedUnder edges.adj node := by
  induction members generalizing edges with
  | nil => rfl
  | cons first members ih =>
    rw [List.foldl_cons, ih]
    exact BTreeMap.getD_upsert_id _ _ _ _

/-- The number of arcs to a node. -/
theorem getD_link (pairs : List (K × K)) (edges : Edges K) (node : K) :
    ((pairs.foldl (fun edges arc => edges.link arc.1 arc.2) edges).inDegree[node]?.getD 0) =
      edges.inDegree[node]?.getD 0 + (pairs.filter (·.1 = node)).length := by
  induction pairs generalizing edges with
  | nil => rfl
  | cons arc pairs ih =>
    rw [List.foldl_cons, ih, Edges.link, BTreeMap.getD_upsert, List.filter_cons]
    by_cases same : arc.1 = node
    · simp [same]
      omega
    · simp [same]

theorem mem_link (pairs : List (K × K)) (edges : Edges K) (node : K) :
    node ∈ (pairs.foldl (fun edges arc => edges.link arc.1 arc.2) edges).inDegree ↔
      node ∈ edges.inDegree ∨ ∃ arc ∈ pairs, arc.1 = node := by
  induction pairs generalizing edges with
  | nil => simp
  | cons arc pairs ih =>
    rw [List.foldl_cons, ih, Edges.link, BTreeMap.upsert, Std.ExtTreeMap.mem_insert,
      Std.compare_eq_iff_eq, List.exists_mem_cons_iff]
    tauto

/-- The arcs from a node. -/
theorem filedUnder_link (pairs : List (K × K)) (edges : Edges K) (node : K) :
    filedUnder (pairs.foldl (fun edges arc => edges.link arc.1 arc.2) edges).adj node =
      filedUnder edges.adj node ++ (pairs.filter (·.2 = node)).map Prod.fst := by
  induction pairs generalizing edges with
  | nil => simp
  | cons arc pairs ih =>
    have filed : filedUnder (edges.link arc.1 arc.2).adj node =
        if arc.2 = node then filedUnder edges.adj node ++ [arc.1] else filedUnder edges.adj node :=
      BTreeMap.getD_upsert _ _ _ _ _
    rw [List.foldl_cons, ih, filed, List.filter_cons]
    by_cases same : arc.2 = node
    · simp [same]
    · simp [same]

/-- The predecessors of a node in the set that are not listed yet. -/
def waiting (preds : K → List K) (nodes : BTreeSet K) (listed : List K) (node : K) : Finset K :=
  ((preds node).toFinset ∩ nodes.toFinset) \ listed.toFinset

theorem mem_waiting {listed : List K} {node parent : K} :
    parent ∈ waiting preds nodes listed node ↔
      (parent ∈ preds node ∧ parent ∈ nodes) ∧ parent ∉ listed := by
  rw [waiting, Finset.mem_sdiff, Finset.mem_inter, List.mem_toFinset, List.mem_toFinset,
    BTreeSet.mem_toFinset]

/-- The table of degrees has an entry for each node of the set. -/
theorem mem_inDegree {node : K} :
    node ∈ (edgesWithin preds nodes).inDegree ↔ node ∈ nodes := by
  have declared : node ∈ (nodes.toList.foldl Edges.declare ⟨∅, ∅⟩).inDegree ↔ node ∈ nodes := by
    rw [BTreeMap.mem_iff_exists, getElem?_declare, ← Std.ExtTreeSet.mem_toList]
    split
    · rename_i member
      exact iff_of_true ⟨_, rfl⟩ member
    · rename_i away
      refine iff_of_false ?_ away
      rintro ⟨_, found⟩
      exact Std.ExtTreeMap.not_mem_empty (BTreeMap.mem_iff_exists.mpr ⟨_, found⟩)
  rw [edgesWithin_eq, mem_link, declared]
  refine or_iff_left_of_imp ?_
  rintro ⟨⟨_, parent⟩, arc, rfl⟩
  exact (mem_arcs.mp arc).1

/-- The table counts the predecessors of a node in the set. -/
theorem getElem?_inDegree (distinct : ∀ node, (preds node).Nodup) {node : K} (member : node ∈ nodes) :
    (edgesWithin preds nodes).inDegree[node]? = some (waiting preds nodes [] node).card := by
  have image : ((arcs preds nodes).filter (·.1 = node)).toFinset =
      (waiting preds nodes [] node).image (Prod.mk node) := by
    ext ⟨child, parent⟩
    simp only [List.mem_toFinset, List.mem_filter, mem_arcs, Finset.mem_image, mem_waiting,
      decide_eq_true_eq, Prod.mk.injEq]
    constructor
    · rintro ⟨⟨_, inside⟩, rfl⟩
      exact ⟨parent, ⟨inside, List.not_mem_nil⟩, rfl, rfl⟩
    · rintro ⟨_, ⟨inside, _⟩, rfl, rfl⟩
      exact ⟨⟨member, inside⟩, rfl⟩
  have counted : ((arcs preds nodes).filter (·.1 = node)).length =
      (waiting preds nodes [] node).card := by
    rw [← List.toFinset_card_of_nodup ((nodup_arcs distinct).filter _), image,
      Finset.card_image_of_injective _ (Prod.mk_right_injective node)]
  obtain ⟨degree, found⟩ := BTreeMap.mem_iff_exists.mp (mem_inDegree.mpr member)
  have total := getD_link (arcs preds nodes) (nodes.toList.foldl Edges.declare ⟨∅, ∅⟩) node
  rw [← edgesWithin_eq, found, getElem?_declare, if_pos (Std.ExtTreeSet.mem_toList.mpr member),
    counted] at total
  rw [found]
  simpa using total

theorem filedUnder_edgesWithin (node : K) :
    filedUnder (edgesWithin preds nodes).adj node =
      ((arcs preds nodes).filter (·.2 = node)).map Prod.fst := by
  rw [edgesWithin_eq, filedUnder_link, filedUnder_declare]
  rfl

/-- The neighbours of a node of the set are the nodes of the set that it precedes. -/
theorem mem_neighbors {parent child : K} :
    child ∈ filedUnder (edgesWithin preds nodes).adj parent ↔
      child ∈ nodes ∧ parent ∈ preds child ∧ parent ∈ nodes := by
  rw [filedUnder_edgesWithin, ← mem_arcs]
  simp

theorem nodup_neighbors (distinct : ∀ node, (preds node).Nodup) (parent : K) :
    (filedUnder (edgesWithin preds nodes).adj parent).Nodup := by
  rw [filedUnder_edgesWithin]
  refine List.Nodup.map_on ?_ ((nodup_arcs distinct).filter _)
  rintro ⟨_, _⟩ first ⟨_, _⟩ second rfl
  simp only [List.mem_filter, decide_eq_true_eq] at first second
  rw [first.2, second.2]

theorem getElem?_release (state : BTreeMap K ℕ × List K) (neighbor node : K) :
    (release state neighbor).1[node]? =
      if neighbor = node then state.1[node]?.map (· - 1) else state.1[node]? := by
  unfold release
  by_cases same : neighbor = node
  · subst same
    cases found : state.1[neighbor]? with
    | none => simp [found]
    | some degree => simp
  · cases state.1[neighbor]? with
    | none => simp [same]
    | some degree =>
      show (state.1.insert neighbor (degree - 1))[node]? = _
      rw [BTreeMap.getElem?_insert_of_ne _ same, if_neg same]

/-- The degree of a neighbour is at zero after its release. -/
def lastRelease (degrees : BTreeMap K ℕ) (node : K) : Bool := degrees[node]?.map (· - 1) = some 0

theorem batch_release (state : BTreeMap K ℕ × List K) (neighbor : K) :
    (release state neighbor).2 = state.2 ++ [neighbor].filter (lastRelease state.1) := by
  unfold release lastRelease
  cases found : state.1[neighbor]? with
  | none => simp [found]
  | some degree =>
    by_cases last : degree - 1 = 0
    · simp [found, last]
    · simp [found, last]

/-- **What releasing distinct neighbours does**: each degree goes down by one, and those at which it is
now zero are the batch. -/
theorem foldl_release {neighbors : List K} (distinct : neighbors.Nodup)
    (state : BTreeMap K ℕ × List K) :
    (∀ node, (neighbors.foldl release state).1[node]? =
      if node ∈ neighbors then state.1[node]?.map (· - 1) else state.1[node]?) ∧
    (neighbors.foldl release state).2 = state.2 ++ neighbors.filter (lastRelease state.1) := by
  induction neighbors generalizing state with
  | nil => simp
  | cons first neighbors ih =>
    obtain ⟨notAgain, distinct⟩ := List.nodup_cons.mp distinct
    obtain ⟨degrees, batch⟩ := ih distinct (release state first)
    refine ⟨fun node => ?_, ?_⟩
    · rw [List.foldl_cons, degrees, getElem?_release]
      by_cases same : first = node
      · subst same
        simp [notAgain]
      · simp [same, Ne.symm same]
    · have later : neighbors.filter (lastRelease (release state first).1) =
          neighbors.filter (lastRelease state.1) := by
        refine List.filter_congr fun node member => ?_
        have different : first ≠ node := fun same => notAgain (same ▸ member)
        rw [lastRelease, getElem?_release, if_neg different, lastRelease]
      rw [List.foldl_cons, batch, later, batch_release, List.append_assoc, ← List.filter_append,
        List.singleton_append]

end Tables

/-! #### The listing -/

section Order

variable {preds : K → List K} {nodes : BTreeSet K}

/-- In a list, every node comes after its predecessors in the set. -/
def ParentsFirst (preds : K → List K) (nodes : BTreeSet K) (listed : List K) : Prop :=
  ∀ before node after, listed = before ++ node :: after →
    ∀ parent ∈ preds node, parent ∈ nodes → parent ∈ before

/-- A list of the nodes of a set, each once and after its predecessors in the set. -/
structure Topological (preds : K → List K) (nodes : BTreeSet K) (order : List K) : Prop where
  exact : ∀ node, node ∈ order ↔ node ∈ nodes
  once : order.Nodup
  parents_first : ParentsFirst preds nodes order

/-- **The invariant of the listing**: the table counts the predecessors that are not listed yet, the
listed and the queued nodes are those without one, and what is listed is in order. -/
structure InOrder (preds : K → List K) (nodes : BTreeSet K) (listing : Listing K) : Prop where
  degrees : ∀ node ∈ nodes,
    listing.inDegree[node]? = some (waiting preds nodes listing.result node).card
  ready : ∀ node, node ∈ listing.result ++ listing.queue ↔
    node ∈ nodes ∧ waiting preds nodes listing.result node = ∅
  once : (listing.result ++ listing.queue).Nodup
  parents_first : ParentsFirst preds nodes listing.result

theorem waiting_concat (listed : List K) (current node : K) :
    waiting preds nodes (listed ++ [current]) node = (waiting preds nodes listed node).erase current := by
  ext parent
  rw [Finset.mem_erase, mem_waiting, mem_waiting, List.mem_append, List.mem_singleton]
  tauto

/-- A node waits for nothing any more: it did not before, or it waited for the last one alone. -/
theorem waiting_concat_eq_empty_iff (listed : List K) (current node : K) :
    waiting preds nodes (listed ++ [current]) node = ∅ ↔
      waiting preds nodes listed node = ∅ ∨ current ∈ waiting preds nodes listed node ∧
        waiting preds nodes (listed ++ [current]) node = ∅ := by
  rw [waiting_concat]
  constructor
  · intro none
    by_cases waits : current ∈ waiting preds nodes listed node
    · exact .inr ⟨waits, none⟩
    · exact .inl ((Finset.erase_eq_of_notMem waits).symm.trans none)
  · rintro (none | ⟨_, none⟩)
    · rw [none, Finset.erase_empty]
    · exact none

theorem parentsFirst_nil : ParentsFirst preds nodes [] := by
  intro before node after split
  cases before with
  | nil => cases split
  | cons => cases split

/-- One more node that waits for nothing. -/
theorem ParentsFirst.concat {listed : List K} {current : K} (first : ParentsFirst preds nodes listed)
    (ready : waiting preds nodes listed current = ∅) : ParentsFirst preds nodes (listed ++ [current]) := by
  intro before node after split
  rcases List.eq_nil_or_concat after with rfl | ⟨shorter, last, rfl⟩
  · obtain ⟨rfl, same⟩ := List.append_inj' split rfl
    cases same
    intro parent member inside
    by_contra missing
    have waits : parent ∈ waiting preds nodes listed current :=
      mem_waiting.mpr ⟨⟨member, inside⟩, missing⟩
    rw [ready] at waits
    exact absurd waits (Finset.notMem_empty _)
  · rw [List.concat_eq_append, ← List.cons_append, ← List.append_assoc] at split
    exact first before node shorter (List.append_inj' split rfl).1

theorem inOrder_roots (distinct : ∀ node, (preds node).Nodup) :
    InOrder preds nodes
      ⟨(edgesWithin preds nodes).roots, (edgesWithin preds nodes).inDegree, []⟩ where
  degrees _ member := getElem?_inDegree distinct member
  ready node := by
    rw [List.nil_append, Edges.roots, List.mem_mergeSort, List.mem_map]
    constructor
    · rintro ⟨⟨node, degree⟩, listed, rfl⟩
      obtain ⟨entry, zero⟩ := List.mem_filter.mp listed
      have found := Std.ExtTreeMap.mem_toList_iff_getElem?_eq_some.mp entry
      have member : node ∈ nodes := mem_inDegree.mp (BTreeMap.mem_iff_exists.mpr ⟨_, found⟩)
      rw [getElem?_inDegree distinct member, Option.some.injEq] at found
      refine ⟨member, Finset.card_eq_zero.mp (found.trans ?_)⟩
      simpa using zero
    · rintro ⟨member, none⟩
      refine ⟨(node, 0), List.mem_filter.mpr ⟨?_, by simp⟩, rfl⟩
      rw [Std.ExtTreeMap.mem_toList_iff_getElem?_eq_some, getElem?_inDegree distinct member, none,
        Finset.card_empty]
  once := by
    have keys : ((edgesWithin preds nodes).inDegree.toList.map Prod.fst).Nodup := by
      rw [Std.ExtTreeMap.map_fst_toList_eq_keys]
      exact Std.ExtTreeMap.nodup_keys
    rw [List.nil_append, Edges.roots, (List.mergeSort_perm _ _).nodup_iff]
    exact keys.sublist ((List.filter_sublist).map Prod.fst)
  parents_first := parentsFirst_nil

/-- The degrees and the batch after the neighbours of a node are released. -/
structure Released (preds : K → List K) (nodes : BTreeSet K) (listed : List K) (current : K)
    (state : BTreeMap K ℕ × List K) : Prop where
  degrees : ∀ node ∈ nodes,
    state.1[node]? = some (waiting preds nodes (listed ++ [current]) node).card
  batch : ∀ node, node ∈ state.2 ↔ node ∈ nodes ∧ current ∈ waiting preds nodes listed node ∧
    waiting preds nodes (listed ++ [current]) node = ∅
  once : state.2.Nodup

/-- **The batch are the nodes that waited for the released one alone.** -/
theorem released (distinct : ∀ node, (preds node).Nodup) {listed : List K} {current : K}
    {inDegree : BTreeMap K ℕ}
    (degrees : ∀ node ∈ nodes, inDegree[node]? = some (waiting preds nodes listed node).card)
    (unlisted : current ∉ listed) :
    Released preds nodes listed current
      ((filedUnder (edgesWithin preds nodes).adj current).foldl release (inDegree, [])) := by
  have neighbors : (filedUnder (edgesWithin preds nodes).adj current).Nodup :=
    nodup_neighbors distinct current
  obtain ⟨lowered, batch⟩ := foldl_release neighbors (inDegree, [])
  have waits : ∀ node ∈ nodes, node ∈ filedUnder (edgesWithin preds nodes).adj current ↔
      current ∈ waiting preds nodes listed node := by
    intro node member
    rw [mem_neighbors, mem_waiting]
    exact ⟨fun edge => ⟨edge.2, unlisted⟩, fun waits => ⟨member, waits.1⟩⟩
  have after : ∀ node ∈ nodes,
      ((filedUnder (edgesWithin preds nodes).adj current).foldl release (inDegree, [])).1[node]? =
        some (waiting preds nodes (listed ++ [current]) node).card := by
    intro node member
    rw [lowered, degrees node member, waiting_concat, Finset.card_erase_eq_ite, Option.map_some]
    simp only [waits node member]
    split
    · rfl
    · rfl
  refine ⟨after, fun node => ?_, ?_⟩
  · rw [batch, List.nil_append, List.mem_filter, lastRelease, decide_eq_true_eq]
    constructor
    · rintro ⟨neighbor, last⟩
      have member : node ∈ nodes := (mem_neighbors.mp neighbor).1
      have count := after node member
      rw [lowered, if_pos neighbor, last, Option.some.injEq] at count
      exact ⟨member, (waits node member).mp neighbor, Finset.card_eq_zero.mp count.symm⟩
    · rintro ⟨member, waiting, none⟩
      have neighbor := (waits node member).mpr waiting
      have count := after node member
      rw [lowered, if_pos neighbor, none, Finset.card_empty] at count
      exact ⟨neighbor, count⟩
  · rw [batch, List.nil_append]
    exact neighbors.filter _

/-- **One round keeps the invariant.** -/
theorem inOrder_advance (distinct : ∀ node, (preds node).Nodup) {listing next : Listing K}
    (inOrder : InOrder preds nodes listing)
    (advanced : listing.advance (edgesWithin preds nodes).adj = some next) :
    InOrder preds nodes next ∧ next.result.length = listing.result.length + 1 := by
  unfold Listing.advance at advanced
  split at advanced
  · cases advanced
  rename_i current queue head
  cases advanced
  have queued : current ∈ listing.result ++ listing.queue := by simp [head]
  have apart := List.nodup_append.mp inOrder.once
  rw [head] at apart
  have unlisted : current ∉ listing.result := fun listed =>
    apart.2.2 current listed current List.mem_cons_self rfl
  have spec := released distinct inOrder.degrees unlisted
  generalize (filedUnder (edgesWithin preds nodes).adj current).foldl release (listing.inDegree, []) =
    state at spec ⊢
  have regroup : ((listing.result ++ [current]) ++ (queue ++ state.2.mergeSort)).Perm
      ((listing.result ++ listing.queue) ++ state.2) := by
    rw [head, List.append_assoc, List.append_assoc]
    show (listing.result ++ current :: (queue ++ _)).Perm (listing.result ++ current :: (queue ++ _))
    exact (((List.mergeSort_perm _ _).append_left queue).cons current).append_left _
  refine ⟨⟨spec.degrees, fun node => ?_, ?_, ?_⟩, List.length_append⟩
  · rw [regroup.mem_iff, List.mem_append, inOrder.ready, spec.batch, ← and_or_left]
    exact and_congr_right fun _ => (waiting_concat_eq_empty_iff listing.result current node).symm
  · rw [regroup.nodup_iff, List.nodup_append]
    refine ⟨inOrder.once, spec.once, ?_⟩
    rintro node early _ late rfl
    have waits := ((spec.batch node).mp late).2.1
    rw [((inOrder.ready node).mp early).2] at waits
    exact absurd waits (Finset.notMem_empty _)
  · exact inOrder.parents_first.concat ((inOrder.ready current).mp queued).2

/-- The listed and the queued nodes are at most those of the set. -/
theorem InOrder.length_le {listing : Listing K} (inOrder : InOrder preds nodes listing) :
    listing.result.length + listing.queue.length ≤ nodes.size := by
  rw [← List.length_append, ← List.toFinset_card_of_nodup inOrder.once, ← BTreeSet.card_toFinset]
  refine Finset.card_le_card fun node member => ?_
  rw [List.mem_toFinset, inOrder.ready] at member
  exact BTreeSet.mem_toFinset.mpr member.1

/-- A listing with an empty queue is complete: the first node that is missing would be ready. -/
theorem InOrder.complete (acyclic : Acyclic (Precedes preds)) {listing : Listing K}
    (inOrder : InOrder preds nodes listing) (idle : listing.queue = []) (node : K) :
    node ∈ listing.result ↔ node ∈ nodes := by
  have ready := inOrder.ready
  rw [idle, List.append_nil] at ready
  refine ⟨fun listed => ((ready node).mp listed).1, fun member => ?_⟩
  by_contra missing
  have some : (nodes.toFinset \ listing.result.toFinset).Nonempty :=
    ⟨node, by simp [member, missing]⟩
  obtain ⟨first, unlisted, least⟩ := acyclic.exists_first some
  rw [Finset.mem_sdiff, BTreeSet.mem_toFinset, List.mem_toFinset] at unlisted
  refine unlisted.2 ((ready first).mpr ⟨unlisted.1, ?_⟩)
  refine Finset.eq_empty_of_forall_notMem fun parent waits => ?_
  obtain ⟨⟨precedes, inside⟩, late⟩ := mem_waiting.mp waits
  refine least parent ?_ precedes
  rw [Finset.mem_sdiff, BTreeSet.mem_toFinset, List.mem_toFinset]
  exact ⟨inside, late⟩

/-- **The listing is topological.** -/
theorem kahn_spec (acyclic : Acyclic (Precedes preds)) (distinct : ∀ node, (preds node).Nodup)
    {fuel : ℕ} (enough : nodes.size < fuel) :
    ∃ order, kahn preds fuel nodes = some order ∧ Topological preds nodes order := by
  obtain ⟨last, ended, inOrder, broken⟩ := loop_spec (I := InOrder preds nodes)
    (fun listing => nodes.size - listing.result.length)
    (fun listing next inOrder advanced => by
      obtain ⟨kept, longer⟩ := inOrder_advance distinct inOrder advanced
      have bound := kept.length_le
      exact ⟨kept, by omega⟩)
    (inOrder_roots distinct) (enough.trans_le' (Nat.sub_le _ _))
  have idle : last.queue = [] := by
    unfold Listing.advance at broken
    split at broken
    · assumption
    · cases broken
  refine ⟨last.result, ?_, inOrder.complete acyclic idle, ?_, inOrder.parents_first⟩
  · rw [kahn, ended, Option.map_some]
  · have once := inOrder.once
    rwa [idle, List.append_nil] at once

end Order

end Kahn

end Foundation
