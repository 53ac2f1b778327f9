/-
**`exo-dag` — validated append, and what it leaves unchecked.**

`validatedAppend` is the path by which nodes from outside enter a store: the wall clock must not be
more than half a second behind the node, every parent must be stored, and the node's time must be
after each parent's. On a `MemoryStore` a delivery is stored exactly when it `Passes`
(`deliver_cases`). Two things are not checked, and each has its exact law over runs:

* whether the hash is taken already. `append_only_iff_unclaimed`: a run is append-only, acyclic and
  causally ordered throughout precisely when no passing delivery claims the hash of a different
  stored node;
* whether the hash is the node's own. `intact_iff_honest`: every stored hash passes
  `verifyStoredIntegrity` throughout precisely when every passing delivery carries the hash
  recomputed from its fields.
-/

import Exochain.Dag.Store

set_option linter.unusedSectionVars false

namespace Exochain.ExoDag

open Foundation ExoCore

/-! ### The checks -/

/-- How far a node may be ahead of the wall clock, in milliseconds. -/
def maxClockSkewMs : ℕ := 500

/-- The wall clock in milliseconds, from the time since the epoch: zero if the clock stands before
the epoch, the greatest 64-bit value if the time does not fit. -/
def nowMs : Option ℕ → ℕ
  | none => 0
  | some millis => if millis < 2 ^ 64 then millis else 2 ^ 64 - 1

/-- Reject a node dated too far in the future. -/
def checkSkew (reading : Option ℕ) (timestamp : Timestamp) : Except DagError Unit :=
  let claimed := timestamp.physicalMs.toNat
  let now := nowMs reading
  if 0 < claimed ∧ saturatingAdd 64 now maxClockSkewMs < claimed then
    .error (.storeError
      s!"clock skew: node timestamp {claimed} exceeds wall clock {now} + {maxClockSkewMs}ms tolerance")
  else .ok ()

section Generic

variable {Store : Type} [DagStore Store]

/-- A parent must be stored, with an earlier timestamp than the node. -/
def checkParent (store : Store) (node : DagNode) (parentHash : Hash256) :
    Except DagError Unit := do
  match ← DagStore.get store parentHash with
  | none => throw (.parentNotFound parentHash)
  | some parent =>
    let claimed := node.timestamp.debug
    let stored := parent.timestamp.debug
    if node.timestamp ≤ parent.timestamp then
      throw (.storeError
        s!"causality violation: node timestamp {claimed} <= parent timestamp {stored}")

/-- All checks of a node against the wall clock and the store. -/
def checkNode (store : Store) (reading : Option ℕ) (node : DagNode) : Except DagError Unit := do
  checkSkew reading node.timestamp
  node.parents.forM (checkParent store node)

/-- Validate a node and append it to the store. -/
def validatedAppend (reading : Option ℕ) (store : Store) (node : DagNode) :
    Except DagError Unit × Store :=
  match checkNode store reading node with
  | .error error => (.error error, store)
  | .ok () => DagStore.put store node

/-- Whether a stored node has all its parents in the store and the hash of its fields. -/
def verifyStoredIntegrity (blake3 : Blake3) (store : Store) (hash : Hash256) :
    Except DagError Bool := do
  match ← DagStore.get store hash with
  | none => throw (.nodeNotFound hash)
  | some node =>
    if ← node.parents.allM (DagStore.contains store) then
      return node.recomputedHash blake3 == node.hash
    else return false

end Generic

/-! ### What one delivery does to a store in memory -/

/-- The node is not too far ahead of the wall clock. -/
def WithinSkew (reading : Option ℕ) (timestamp : Timestamp) : Prop :=
  timestamp.physicalMs.toNat ≤ saturatingAdd 64 (nowMs reading) maxClockSkewMs

theorem checkSkew_eq_ok_iff {reading : Option ℕ} {timestamp : Timestamp} :
    checkSkew reading timestamp = .ok () ↔ WithinSkew reading timestamp := by
  unfold WithinSkew checkSkew
  by_cases late : 0 < timestamp.physicalMs.toNat ∧
      saturatingAdd 64 (nowMs reading) maxClockSkewMs < timestamp.physicalMs.toNat
  · simp only [if_pos late, reduceCtorEq, false_iff, not_le]
    exact late.2
  · simp only [if_neg late, true_iff]
    omega

namespace MemoryStore

/-- The parent is stored with an earlier timestamp. -/
def Precedes (store : MemoryStore) (parent : Hash256) (timestamp : Timestamp) : Prop :=
  ∃ stored : DagNode, store.nodes[parent]? = some stored ∧ stored.timestamp < timestamp

/-- The node passes every check that `validatedAppend` makes. -/
def Passes (store : MemoryStore) (reading : Option ℕ) (node : DagNode) : Prop :=
  WithinSkew reading node.timestamp ∧ ∀ parent ∈ node.parents, store.Precedes parent node.timestamp

theorem checkParent_eq_ok_iff {store : MemoryStore} {node : DagNode} {parent : Hash256} :
    checkParent store node parent = .ok () ↔ store.Precedes parent node.timestamp := by
  have lookup : DagStore.get store parent = .ok store.nodes[parent]? := rfl
  unfold checkParent Precedes
  rw [lookup, bind_eq_ok_iff]
  cases found : store.nodes[parent]? with
  | none => simp [throw, throwThe, MonadExceptOf.throw]
  | some stored =>
    by_cases early : node.timestamp ≤ stored.timestamp
    · simp [early, throw, throwThe, MonadExceptOf.throw]
    · simp [early, lt_of_not_ge early, pure, Except.pure]

theorem checkNode_eq_ok_iff {store : MemoryStore} {reading : Option ℕ} {node : DagNode} :
    checkNode store reading node = .ok () ↔ store.Passes reading node := by
  unfold checkNode Passes
  rw [check_bind_eq_ok_iff, checkSkew_eq_ok_iff]
  show _ ∧ node.parents.forM (checkParent store node) = .ok () ↔ _
  rw [forM_eq_ok_iff]
  simp only [checkParent_eq_ok_iff]

/-- A node as it arrives, with the wall clock at that moment. -/
structure Delivery where
  node : DagNode
  reading : Option ℕ

/-- The store after a delivery, whatever the answer was. -/
def deliver (store : MemoryStore) (delivery : Delivery) : MemoryStore :=
  (validatedAppend delivery.reading store delivery.node).2

/-- **A delivery is put if it passes, and changes nothing if not.** -/
theorem deliver_cases (store : MemoryStore) (delivery : Delivery) :
    (store.Passes delivery.reading delivery.node ∧
      store.deliver delivery = store.put delivery.node) ∨
    (¬ store.Passes delivery.reading delivery.node ∧ store.deliver delivery = store) := by
  unfold deliver validatedAppend
  rw [← checkNode_eq_ok_iff]
  cases checked : checkNode store delivery.reading delivery.node with
  | ok done => exact .inl ⟨rfl, rfl⟩
  | error error => exact .inr ⟨by simp, rfl⟩

theorem closed_deliver (store : MemoryStore) (delivery : Delivery) (closed : store.Closed) :
    (store.deliver delivery).Closed := by
  rcases deliver_cases store delivery with ⟨⟨_, parents⟩, stored⟩ | ⟨_, same⟩
  · rw [stored]
    refine closed_put closed fun parent member => ?_
    obtain ⟨old, found, _⟩ := parents parent member
    exact BTreeMap.mem_iff_exists.mpr ⟨old, found⟩
  · rw [same]
    exact closed

/-! ### Append-only runs -/

/-- Every node stored earlier is stored later, unchanged. -/
def NodesKept (earlier later : MemoryStore) : Prop :=
  ∀ (hash : Hash256) (node : DagNode), earlier.nodes[hash]? = some node →
    later.nodes[hash]? = some node

/-- Every stored node is later than what is stored for each of its parents. -/
def Causal (store : MemoryStore) : Prop :=
  ∀ (hash parent : Hash256) (node stored : DagNode), store.nodes[hash]? = some node →
    parent ∈ node.parents → store.nodes[parent]? = some stored → stored.timestamp < node.timestamp

/-- A passing delivery finds its hash free, or finds itself there. -/
def Unclaimed (store : MemoryStore) (delivery : Delivery) : Prop :=
  store.Passes delivery.reading delivery.node →
    ∀ old, store.nodes[delivery.node.hash]? = some old → old = delivery.node

/-- Causal time ranks a closed store, so its parent relation has no cycle. -/
theorem Causal.acyclic {store : MemoryStore} (closed : store.Closed) (causal : store.Causal) :
    Acyclic store.ParentOf := by
  let time (hash : Hash256) : Timestamp := (store.nodes[hash]?.map DagNode.timestamp).getD .zero
  refine Acyclic.of_rank time fun parent child related => ?_
  obtain ⟨stored, foundParent⟩ :=
    BTreeMap.mem_iff_exists.mp (closed.parents_stored parent child related)
  obtain ⟨node, found, member⟩ := related
  have earlier := causal child parent node stored found member foundParent
  show (store.nodes[parent]?.map _).getD _ < (store.nodes[child]?.map _).getD _
  rw [found, foundParent]
  exact earlier

theorem nodesKept_deliver_iff (store : MemoryStore) (delivery : Delivery) :
    NodesKept store (store.deliver delivery) ↔ store.Unclaimed delivery := by
  rcases deliver_cases store delivery with ⟨passes, stored⟩ | ⟨fails, same⟩
  · rw [stored]
    constructor
    · intro kept _ old found
      have after := kept delivery.node.hash old found
      rw [getElem?_nodes_put, if_pos rfl, Option.some.injEq] at after
      exact after.symm
    · intro unclaimed hash node found
      rw [getElem?_nodes_put]
      split
      · rename_i claimed
        rw [← claimed] at found
        rw [unclaimed passes node found]
      · exact found
  · rw [same]
    exact ⟨fun _ passes => absurd passes fails, fun _ _ _ found => found⟩

/-- A passing delivery to a free hash, or of a node that is there, keeps causal order. -/
theorem causal_deliver {store : MemoryStore} {delivery : Delivery} (closed : store.Closed)
    (causal : store.Causal) (unclaimed : store.Unclaimed delivery) :
    (store.deliver delivery).Causal := by
  rcases deliver_cases store delivery with ⟨passes, put⟩ | ⟨_, same⟩
  · rw [put]
    cases old : store.nodes[delivery.node.hash]? with
    | some known =>
      -- redelivery: the nodes are the same map
      rw [unclaimed passes known old] at old
      unfold Causal
      rw [nodes_put_of_stored old]
      exact causal
    | none =>
      -- a free hash is nobody's parent
      have fresh : ∀ child, ¬ store.ParentOf delivery.node.hash child := fun child related =>
        BTreeMap.not_mem_iff.mpr old (closed.parents_stored _ _ related)
      intro hash parent node stored found member foundParent
      rw [getElem?_nodes_put] at found foundParent
      split at found
      · cases found
        obtain ⟨earlier, there, before⟩ := passes.2 parent member
        split at foundParent
        · rename_i own
          rw [own, there] at old
          cases old
        · rw [there, Option.some.injEq] at foundParent
          rw [← foundParent]
          exact before
      · split at foundParent
        · rename_i own
          rw [← own] at member
          exact absurd ⟨node, found, member⟩ (fresh hash)
        · exact causal hash parent node stored found member foundParent
  · rw [same]
    exact causal

theorem causal_new : new.Causal :=
  fun _ _ _ _ found => absurd found not_stored_new

/-- **A run of deliveries is append-only, acyclic and causally ordered throughout exactly when no
delivery that passes claims the hash of a different stored node.** -/
theorem append_only_iff_unclaimed (deliveries : List Delivery) :
    (Evolves deliver NodesKept new deliveries ∧
      Throughout deliver (fun store => Acyclic store.ParentOf) new deliveries ∧
      Throughout deliver Causal new deliveries) ↔
    Along deliver Unclaimed new deliveries := by
  have kept : Evolves deliver NodesKept new deliveries ↔ Along deliver Unclaimed new deliveries := by
    rw [evolves_iff_along (fun _ _ _ found => found)
      (fun _ _ _ first second hash node found => second hash node (first hash node found))]
    simp only [nodesKept_deliver_iff]
  refine ⟨fun all => kept.mp all.1, fun unclaimed => ?_⟩
  have ordered : Throughout deliver (fun store => store.Closed ∧ store.Causal) new deliveries :=
    throughout_of_along
      (fun store delivery both ok =>
        ⟨closed_deliver store delivery both.1, causal_deliver both.1 both.2 ok⟩)
      ⟨closed_new, causal_new⟩ unclaimed
  refine ⟨kept.mpr unclaimed, fun before after split => ?_, fun before after split => ?_⟩
  · obtain ⟨closed, causal⟩ := ordered before after split
    exact causal.acyclic closed
  · exact (ordered before after split).2

namespace Redelivery

/-- A node of creator `did:exo:x`. -/
def nodeAt (hash : UInt8) (parents : List UInt8) (millis : UInt64) : DagNode :=
  { hash := FixedBytes.fill 32 hash
    parents := parents.map (FixedBytes.fill 32)
    payloadHash := Hash256.zero
    creatorDid := ⟨"did:exo:x"⟩
    timestamp := ⟨millis, 0⟩
    signature := .empty }

/-- A root, a child of it, and another node under the root's hash that lists the child. -/
def deliveries : List Delivery :=
  [⟨nodeAt 1 [] 1, some 10⟩, ⟨nodeAt 2 [1] 2, some 10⟩, ⟨nodeAt 1 [2] 3, some 10⟩]

/-- **A second delivery under a stored hash** replaces the node, closes a cycle and dates a child
before its parent. -/
theorem redelivery_replaces :
    ¬ Evolves deliver NodesKept new deliveries ∧
    ¬ Throughout deliver (fun store => Acyclic store.ParentOf) new deliveries ∧
    ¬ Throughout deliver Causal new deliveries := by
  have root : (run deliver new deliveries).nodes[(nodeAt 1 [] 1).hash]? = some (nodeAt 1 [2] 3) := by
    decide
  have child : (run deliver new deliveries).nodes[(nodeAt 2 [1] 2).hash]? = some (nodeAt 2 [1] 2) := by
    decide
  refine ⟨fun kept => ?_, fun acyclic => ?_, fun causal => ?_⟩
  · have related := kept (deliveries.take 2) (deliveries.drop 2) [] rfl
    have after := related (nodeAt 1 [] 1).hash (nodeAt 1 [] 1) (by decide)
    exact absurd (root.symm.trans after) (by decide)
  · have down : (run deliver new deliveries).ParentOf (nodeAt 1 [] 1).hash (nodeAt 2 [1] 2).hash :=
      ⟨_, child, by decide⟩
    have back : (run deliver new deliveries).ParentOf (nodeAt 2 [1] 2).hash (nodeAt 1 [] 1).hash :=
      ⟨_, root, by decide⟩
    exact acyclic.last _ (.tail (.single down) back)
  · have later := causal.last _ _ _ _ child (by decide) root
    exact absurd later (by decide)

end Redelivery

/-! ### Integrity of the stored nodes -/

/-- Every hash the store contains passes the integrity check. -/
def Intact (blake3 : Blake3) (store : MemoryStore) : Prop :=
  ∀ hash, DagStore.contains store hash = .ok true →
    verifyStoredIntegrity blake3 store hash = .ok true

/-- A passing delivery carries the hash recomputed from its fields. -/
def Honest (blake3 : Blake3) (store : MemoryStore) (delivery : Delivery) : Prop :=
  store.Passes delivery.reading delivery.node →
    delivery.node.recomputedHash blake3 = delivery.node.hash

theorem contains_eq_ok_iff {store : MemoryStore} {hash : Hash256} :
    DagStore.contains store hash = .ok true ↔ ∃ node, store.nodes[hash]? = some node := by
  show (Except.ok (store.nodes.contains hash) : Except DagError Bool) = .ok true ↔ _
  rw [Except.ok.injEq, Std.ExtTreeMap.contains_iff_mem, BTreeMap.mem_iff_exists]

/-- What the integrity check of a stored node answers. -/
theorem verifyStoredIntegrity_of_stored {blake3 : Blake3} {store : MemoryStore} {hash : Hash256}
    {node : DagNode} (found : store.nodes[hash]? = some node) :
    verifyStoredIntegrity blake3 store hash =
      .ok (node.parents.all store.nodes.contains && node.recomputedHash blake3 == node.hash) := by
  have lookup : DagStore.get store hash = .ok (some node) := congrArg Except.ok found
  have parents : node.parents.allM (DagStore.contains store) =
      (.ok (node.parents.all store.nodes.contains) : Except DagError Bool) :=
    allM_eq_ok store.nodes.contains node.parents
  unfold verifyStoredIntegrity
  rw [lookup]
  show (node.parents.allM (DagStore.contains store) >>= _) = _
  rw [parents]
  cases node.parents.all store.nodes.contains with
  | true => rfl
  | false => rfl

/-- In a closed store the integrity check is the hash comparison. -/
theorem Closed.intact_iff {blake3 : Blake3} {store : MemoryStore} (closed : store.Closed) :
    store.Intact blake3 ↔ ∀ (hash : Hash256) (node : DagNode), store.nodes[hash]? = some node →
      node.recomputedHash blake3 = node.hash := by
  have answer : ∀ (hash : Hash256) (node : DagNode), store.nodes[hash]? = some node →
      (verifyStoredIntegrity blake3 store hash = .ok true ↔
        node.recomputedHash blake3 = node.hash) := by
    intro hash node found
    have parents : node.parents.all store.nodes.contains = true := by
      rw [List.all_eq_true]
      intro parent member
      exact Std.ExtTreeMap.contains_iff_mem.mpr
        (closed.parents_stored parent hash ⟨node, found, member⟩)
    rw [verifyStoredIntegrity_of_stored found, parents, Bool.true_and, Except.ok.injEq, beq_iff_eq]
  constructor
  · intro intact hash node found
    exact (answer hash node found).mp (intact hash (contains_eq_ok_iff.mpr ⟨node, found⟩))
  · intro hashes hash contained
    obtain ⟨node, found⟩ := contains_eq_ok_iff.mp contained
    exact (answer hash node found).mpr (hashes hash node found)

theorem intact_deliver_iff (blake3 : Blake3) (store : MemoryStore) (delivery : Delivery)
    (closed : store.Closed) (intact : store.Intact blake3) :
    (store.deliver delivery).Intact blake3 ↔ store.Honest blake3 delivery := by
  rw [(closed_deliver store delivery closed).intact_iff]
  rcases deliver_cases store delivery with ⟨passes, put⟩ | ⟨fails, same⟩
  · rw [put]
    constructor
    · exact fun hashes _ => hashes delivery.node.hash delivery.node (by
        rw [getElem?_nodes_put, if_pos rfl])
    · intro honest hash node found
      rw [getElem?_nodes_put] at found
      split at found
      · cases found
        exact honest passes
      · exact closed.intact_iff.mp intact hash node found
  · rw [same]
    exact ⟨fun _ passes => absurd passes fails, fun _ => closed.intact_iff.mp intact⟩

/-- **Every stored hash passes the integrity check in every state of a run exactly when every
delivery that passes carries the hash of its own fields.** -/
theorem intact_iff_honest (blake3 : Blake3) (deliveries : List Delivery) :
    Throughout deliver (Intact blake3) new deliveries ↔
      Along deliver (Honest blake3) new deliveries := by
  refine throughout_iff_along (I := Closed) closed_deliver (intact_deliver_iff blake3) closed_new ?_
  rw [closed_new.intact_iff]
  exact fun hash node found => absurd found not_stored_new

/-- **No digest function makes every accepted node intact**: two roots that differ in nothing but
the hash they claim are both accepted, and at most one of them is right. -/
theorem integrity_unchecked :
    ¬ ∃ blake3 : Blake3, ∀ deliveries : List Delivery,
      Throughout deliver (Intact blake3) new deliveries := by
  rintro ⟨blake3, all⟩
  have hashes : ∀ delivery : Delivery,
      (new.deliver delivery).nodes[delivery.node.hash]? = some delivery.node →
      delivery.node.recomputedHash blake3 = delivery.node.hash := by
    intro delivery found
    have intact : (new.deliver delivery).Intact blake3 := (all [delivery]).last
    exact (closed_deliver new delivery closed_new).intact_iff.mp intact _ _ found
  have first := hashes ⟨Redelivery.nodeAt 1 [] 1, some 10⟩ (by decide)
  have second := hashes ⟨Redelivery.nodeAt 2 [] 1, some 10⟩ (by decide)
  have same : (Redelivery.nodeAt 1 [] 1).hash = (Redelivery.nodeAt 2 [] 1).hash :=
    first.symm.trans second
  exact absurd same (by decide)

end MemoryStore

end Exochain.ExoDag
