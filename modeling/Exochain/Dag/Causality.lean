/-
**Local construction and the causality rule.**

Several creators build one graph, each with a clock of its own. `append` stamps a node with the next
reading of its creator's clock and never looks at the timestamps of the parents, while
`validatedAppend`, by which the nodes reach other stores, refuses a node that is not later than each
parent.

* `Workshop` — the graph, the clocks of all creators and the nodes appended so far.
* `causal_iff_clocks_lead` — **the exact law**: every appended node is later than its parents, and
  no replay through `validatedAppend` meets a causality violation, precisely when every call that
  stores a node uses a clock that is not behind the parents.
* `fresh_clocks_collide` — two creators with new clocks break it with the second node.
-/

import Exochain.Foundation.Blake3
import Exochain.Dag.Invariant
import Exochain.Dag.ValidatedAppend

set_option linter.unusedSectionVars false

namespace Exochain.ExoDag

open Foundation ExoCore

/-! ### Causality violations -/

/-- The error of a node that is not later than a stored parent. -/
def DagError.IsCausalityViolation (error : DagError) : Prop :=
  ∃ claimed stored : String, error =
    .storeError s!"causality violation: node timestamp {claimed} <= parent timestamp {stored}"

/-- The error texts of the two checks differ in their second letter. -/
theorem not_violation_of_skew {reading : Option ℕ} {timestamp : Timestamp} {error : DagError}
    (failed : checkSkew reading timestamp = .error error) : ¬ error.IsCausalityViolation := by
  rintro ⟨claimed, stored, rfl⟩
  simp only [checkSkew] at failed
  split at failed
  · rw [Except.error.injEq, DagError.storeError.injEq] at failed
    have letters := congrArg (fun text => text.toList[1]?) failed
    simp [toString, String.toList_append] at letters
  · cases failed

/-- **A causality violation is about a stored parent that is not earlier.** -/
theorem late_of_violation {store : MemoryStore} {reading : Option ℕ} {node : DagNode}
    {error : DagError} (failed : (validatedAppend reading store node).1 = .error error)
    (violation : error.IsCausalityViolation) :
    ∃ parent ∈ node.parents, ∃ stored : DagNode, store.nodes[parent]? = some stored ∧
      node.timestamp ≤ stored.timestamp := by
  have checked : checkNode store reading node = .error error := by
    unfold validatedAppend at failed
    cases answer : checkNode store reading node with
    | error here =>
      rw [answer] at failed
      exact failed
    | ok done =>
      rw [answer] at failed
      cases failed
  unfold checkNode at checked
  cases skew : checkSkew reading node.timestamp with
  | error here =>
    rw [skew] at checked
    cases checked
    exact absurd violation (not_violation_of_skew skew)
  | ok done =>
    rw [skew] at checked
    obtain ⟨parent, member, refused⟩ := exists_of_forM_eq_error checked
    refine ⟨parent, member, ?_⟩
    have lookup : DagStore.get store parent = .ok store.nodes[parent]? := rfl
    unfold checkParent at refused
    rw [lookup] at refused
    cases found : store.nodes[parent]? with
    | none =>
      rw [found] at refused
      obtain ⟨claimed, stored, rfl⟩ := violation
      cases refused
    | some stored =>
      by_cases early : node.timestamp ≤ stored.timestamp
      · exact ⟨stored, rfl, early⟩
      · rw [found] at refused
        simp [early, bind, Except.bind, pure, Except.pure] at refused

/-! ### Creators at work -/

/-- A graph, the clock of each creator, and the nodes appended, oldest first. -/
structure Workshop (Owner : Type) where
  dag : Dag
  clocks : Owner → HybridClock
  appended : List DagNode

/-- What a creator can do. -/
inductive Action (Owner : Type) where
  | append (owner : Owner) (parents : List Hash256) (payload : List UInt8) (creator : Did)
      (signFn : List UInt8 → Signature)
  | tick (owner : Owner)
  | advance (owner : Owner) (millis : UInt64)

/-! ### The next reading of a clock -/

/-- The next reading of a clock at `latest` is after `stored`. At the last counter value a wrapping
build starts again at zero, so only an earlier millisecond is left behind. -/
def Leads (latest stored : Timestamp) : Prop :=
  if latest.logical = 0xFFFFFFFF then stored.physicalMs < latest.physicalMs else stored ≤ latest

/-- What a tick returns: the counter incremented, or zero if it wraps. -/
theorem HybridClock.tick_eq_ok {build : Build} {clock after : HybridClock} {reading : Timestamp}
    (ticked : clock.tick build = .ok (reading, after)) :
    reading.physicalMs = clock.latest.physicalMs ∧
      reading.logical.toNat = (clock.latest.logical.toNat + 1) % 2 ^ 32 := by
  obtain ⟨logical, added, done⟩ := bind_eq_ok_iff.mp ticked
  cases done
  refine ⟨rfl, ?_⟩
  unfold Build.add Build.overflow at added
  split at added
  · cases added
    exact UInt32.toNat_ofNat'
  · split at added
    · cases added
    · cases added
      rw [UInt32.toNat_ofNat', Nat.mod_mod]

/-- **A tick passes a timestamp exactly when the clock leads it.** -/
theorem lt_tick_iff {build : Build} {clock after : HybridClock} {reading stored : Timestamp}
    (ticked : clock.tick build = .ok (reading, after)) :
    stored < reading ↔ Leads clock.latest stored := by
  obtain ⟨physical, logical⟩ := HybridClock.tick_eq_ok ticked
  have bound := clock.latest.logical.toNat_lt
  unfold Leads
  rw [← not_lt, Timestamp.lt_iff, Timestamp.lt_iff, physical]
  simp only [UInt32.lt_iff_toNat_lt, UInt64.lt_iff_toNat_lt, ← UInt64.toNat_inj,
    ← UInt32.toNat_inj, logical]
  show _ ↔ if clock.latest.logical.toNat = 2 ^ 32 - 1 then _ else _
  split
  · rename_i last
    rw [last]
    omega
  · omega

namespace Workshop

variable {Owner : Type} [DecidableEq Owner]

/-- An empty graph, each clock at its starting time. -/
def fresh (start : Owner → UInt64) : Workshop Owner :=
  ⟨Dag.new, fun owner => .withTime (start owner), []⟩

/-- The arguments of the call that an owner makes. -/
def callOf (workshop : Workshop Owner) (owner : Owner) (parents : List Hash256)
    (payload : List UInt8) (creator : Did) (signFn : List UInt8 → Signature) : AppendCall :=
  { parents, payload, creator, signFn, clock := workshop.clocks owner }

/-- The workshop with an owner's clock at its new reading; a fault leaves it. -/
def setClock (workshop : Workshop Owner) (owner : Owner) :
    Except Fault (Timestamp × HybridClock) → Workshop Owner
  | .ok (_, clock) => { workshop with clocks := Function.update workshop.clocks owner clock }
  | .error _ => workshop

/-- The workshop after an action, whatever the answer was. -/
def act (build : Build) (blake3 : Blake3) (workshop : Workshop Owner) :
    Action Owner → Workshop Owner
  | .append owner parents payload creator signFn =>
    match append build blake3 workshop.dag
      (workshop.callOf owner parents payload creator signFn) with
    | .ok (.ok node, dag, clock) =>
      ⟨dag, Function.update workshop.clocks owner clock, workshop.appended ++ [node]⟩
    | .ok (.error _, dag, clock) =>
      ⟨dag, Function.update workshop.clocks owner clock, workshop.appended⟩
    | .error _ => workshop
  | .tick owner => workshop.setClock owner ((workshop.clocks owner).tick build)
  | .advance owner millis => workshop.setClock owner ((workshop.clocks owner).advance build millis)

/-- A call that stores no node leaves the graph, and the list of the stored nodes. -/
theorem act_append_of_not_succeeds {build : Build} {blake3 : Blake3} {workshop : Workshop Owner}
    {owner : Owner} {parents : List Hash256} {payload : List UInt8} {creator : Did}
    {signFn : List UInt8 → Signature}
    (failed : ¬ appendSucceeds build blake3 workshop.dag
      (workshop.callOf owner parents payload creator signFn)) :
    (workshop.act build blake3 (.append owner parents payload creator signFn)).dag = workshop.dag ∧
      (workshop.act build blake3 (.append owner parents payload creator signFn)).appended =
        workshop.appended := by
  unfold act
  rcases append_cases build blake3 workshop.dag
      (workshop.callOf owner parents payload creator signFn) with
    ⟨fault, answer⟩ | ⟨error, clock, answer⟩ | ⟨node, clock, answer, _⟩
  · simp [answer]
  · simp [answer]
  · exact absurd ⟨node, _, clock, answer⟩ failed

/-- **What an action can do to the graph**: nothing, or store one node for an owner. -/
theorem act_cases (build : Build) (blake3 : Blake3) (workshop : Workshop Owner)
    (action : Action Owner) :
    ((workshop.act build blake3 action).dag = workshop.dag ∧
      (workshop.act build blake3 action).appended = workshop.appended ∧
      ∀ owner parents payload creator signFn,
        action = .append owner parents payload creator signFn →
        ¬ appendSucceeds build blake3 workshop.dag
          (workshop.callOf owner parents payload creator signFn)) ∨
    ∃ owner parents payload creator signFn node clock,
      action = .append owner parents payload creator signFn ∧
      append build blake3 workshop.dag (workshop.callOf owner parents payload creator signFn) =
        .ok (.ok node, workshop.dag.store node, clock) ∧
      Stored blake3 workshop.dag (workshop.callOf owner parents payload creator signFn) node ∧
      (workshop.act build blake3 action).dag = workshop.dag.store node ∧
      (workshop.act build blake3 action).appended = workshop.appended ++ [node] := by
  have clockOnly : ∀ owner reading, (workshop.setClock owner reading).dag = workshop.dag ∧
      (workshop.setClock owner reading).appended = workshop.appended := by
    rintro owner (_ | ⟨_, _⟩)
    · exact ⟨rfl, rfl⟩
    · exact ⟨rfl, rfl⟩
  cases action with
  | tick owner => exact .inl ⟨(clockOnly _ _).1, (clockOnly _ _).2, by rintro _ _ _ _ _ ⟨⟩⟩
  | advance owner millis => exact .inl ⟨(clockOnly _ _).1, (clockOnly _ _).2, by rintro _ _ _ _ _ ⟨⟩⟩
  | append owner parents payload creator signFn =>
    by_cases succeeds : appendSucceeds build blake3 workshop.dag
        (workshop.callOf owner parents payload creator signFn)
    · obtain ⟨_, _, _, success⟩ := succeeds
      rcases append_cases build blake3 workshop.dag
          (workshop.callOf owner parents payload creator signFn) with
        ⟨fault, answer⟩ | ⟨error, clock, answer⟩ | ⟨node, clock, answer, stored⟩
      · cases success.symm.trans answer
      · cases success.symm.trans answer
      · exact .inr ⟨owner, parents, payload, creator, signFn, node, clock, rfl, answer, stored,
          by simp [act, answer], by simp [act, answer]⟩
    · obtain ⟨sameDag, sameList⟩ := act_append_of_not_succeeds succeeds
      refine .inl ⟨sameDag, sameList, ?_⟩
      rintro _ _ _ _ _ ⟨⟩
      exact succeeds

/-! ### Causal order -/

/-- Every appended node is later than each of its parents. -/
def Causal (workshop : Workshop Owner) : Prop :=
  ∀ node ∈ workshop.appended, ∀ parent ∈ node.parents, ∃ stored : DagNode,
    workshop.dag.get parent = some stored ∧ stored.timestamp < node.timestamp

/-- A call that stores a node uses a clock that leads every parent. -/
def ClocksLead (build : Build) (blake3 : Blake3) (workshop : Workshop Owner) (action : Action Owner) :
    Prop :=
  ∀ owner parents payload creator signFn, action = .append owner parents payload creator signFn →
    appendSucceeds build blake3 workshop.dag
      (workshop.callOf owner parents payload creator signFn) →
    ∀ parent ∈ parents, ∀ stored : DagNode, workshop.dag.get parent = some stored →
      Leads (workshop.clocks owner).latest stored.timestamp

/-- The appended nodes are in the graph, under their own hash. -/
def Registered (workshop : Workshop Owner) : Prop :=
  ∀ node ∈ workshop.appended, workshop.dag.nodes[node.hash]? = some node

theorem registered_act (build : Build) (blake3 : Blake3) (workshop : Workshop Owner)
    (action : Action Owner) (registered : workshop.Registered) :
    (workshop.act build blake3 action).Registered := by
  rcases act_cases build blake3 workshop action with
    ⟨sameDag, sameNodes, _⟩ | ⟨_, _, _, _, _, node, _, _, _, stored, dagAfter, nodesAfter⟩
  · unfold Registered
    rw [sameDag, sameNodes]
    exact registered
  · unfold Registered
    rw [dagAfter, nodesAfter]
    intro old member
    rw [Dag.getElem?_nodes_store]
    rcases List.mem_append.mp member with before | last
    · have found := registered old before
      have other : node.hash ≠ old.hash := by
        intro same
        exact stored.fresh (BTreeMap.mem_iff_exists.mpr ⟨old, same ▸ found⟩)
      rw [if_neg other]
      exact found
    · cases List.mem_singleton.mp last
      exact if_pos rfl

/-- A lookup in the old graph survives a fresh node. -/
theorem get_store_of_found {blake3 : Blake3} {dag : Dag} {call : AppendCall} {node stored : DagNode}
    {hash : Hash256} (new : Stored blake3 dag call node) (found : dag.get hash = some stored) :
    (dag.store node).get hash = some stored := by
  have other : node.hash ≠ hash := by
    rintro rfl
    exact new.fresh (BTreeMap.mem_iff_exists.mpr ⟨stored, found⟩)
  show (dag.store node).nodes[hash]? = some stored
  rw [Dag.getElem?_nodes_store, if_neg other]
  exact found

/-- **One action keeps causal order exactly when its clock leads.** -/
theorem causal_act_iff (build : Build) (blake3 : Blake3) (workshop : Workshop Owner)
    (action : Action Owner) (causal : workshop.Causal) :
    (workshop.act build blake3 action).Causal ↔ workshop.ClocksLead build blake3 action := by
  rcases act_cases build blake3 workshop action with
    ⟨sameDag, sameNodes, fails⟩ |
    ⟨owner, parents, payload, creator, signFn, node, clock, rfl, answer, stored, dagAfter, nodesAfter⟩
  · have kept : (workshop.act build blake3 action).Causal := by
      unfold Causal
      rw [sameDag, sameNodes]
      exact causal
    refine ⟨fun _ => ?_, fun _ => kept⟩
    intro owner parents payload creator signFn same succeeds
    exact absurd succeeds (fails owner parents payload creator signFn same)
  · have ticked := tick_of_append answer
    have listed : ∀ parent, parent ∈ node.parents ↔ parent ∈ parents := by
      obtain ⟨timestamp, rfl⟩ := stored.made
      exact fun parent => mem_sortDedup
    unfold Causal
    rw [dagAfter, nodesAfter]
    constructor
    · rintro all _ _ _ _ _ ⟨⟩ _ parent member old found
      obtain ⟨there, lookup, before⟩ := all node (by simp) parent ((listed parent).mpr member)
      rw [get_store_of_found stored found, Option.some.injEq] at lookup
      rw [← lookup] at before
      exact (lt_tick_iff ticked).mp before
    · intro leads earlier member parent parentOf
      rcases List.mem_append.mp member with old | last
      · obtain ⟨there, found, before⟩ := causal earlier old parent parentOf
        exact ⟨there, get_store_of_found stored found, before⟩
      · cases List.mem_singleton.mp last
        have named := (listed parent).mp parentOf
        obtain ⟨there, found⟩ := BTreeMap.mem_iff_exists.mp (stored.parents_stored parent named)
        have lead := leads owner parents payload creator signFn rfl ⟨_, _, _, answer⟩ parent named
          there found
        exact ⟨there, get_store_of_found stored found, (lt_tick_iff ticked).mpr lead⟩

/-! ### Replays -/

/-- The delivery does not fail with a causality violation. -/
def RespectsCausality (store : MemoryStore) (delivery : MemoryStore.Delivery) : Prop :=
  ∀ error, (validatedAppend delivery.reading store delivery.node).1 = .error error →
    ¬ error.IsCausalityViolation

/-- Replaying the appended nodes in order, at any wall-clock readings, on an empty store meets no
causality violation. -/
def ReplaysCleanly (workshop : Workshop Owner) : Prop :=
  ∀ deliveries : List MemoryStore.Delivery,
    deliveries.map MemoryStore.Delivery.node = workshop.appended →
    Along MemoryStore.deliver RespectsCausality MemoryStore.new deliveries

/-- The nodes of the store are nodes of the graph. -/
def Mirrors (dag : Dag) (store : MemoryStore) : Prop :=
  ∀ (hash : Hash256) (node : DagNode), store.nodes[hash]? = some node →
    dag.nodes[hash]? = some node

theorem mirrors_deliver {dag : Dag} (store : MemoryStore) (delivery : MemoryStore.Delivery)
    (mirrors : Mirrors dag store) (inGraph : dag.nodes[delivery.node.hash]? = some delivery.node) :
    Mirrors dag (store.deliver delivery) := by
  rcases MemoryStore.deliver_cases store delivery with ⟨_, put⟩ | ⟨_, same⟩
  · rw [put]
    intro hash node found
    rw [MemoryStore.getElem?_nodes_put] at found
    split at found
    · rename_i own
      cases found
      rw [← own]
      exact inGraph
    · exact mirrors hash node found
  · rw [same]
    exact mirrors

/-- **A causally ordered graph replays cleanly.** -/
theorem replaysCleanly_of_causal {workshop : Workshop Owner} (registered : workshop.Registered)
    (causal : workshop.Causal) : workshop.ReplaysCleanly := by
  intro deliveries same
  have inGraph : ∀ delivery ∈ deliveries, delivery.node ∈ workshop.appended := by
    intro delivery member
    rw [← same]
    exact List.mem_map_of_mem member
  have mirrored : Throughout MemoryStore.deliver (Mirrors workshop.dag) MemoryStore.new deliveries := by
    have known : Along MemoryStore.deliver (fun _ delivery =>
        workshop.dag.nodes[delivery.node.hash]? = some delivery.node) MemoryStore.new deliveries := by
      rintro before delivery after rfl
      exact registered delivery.node (inGraph delivery (by simp))
    exact throughout_of_along mirrors_deliver
      (fun hash node found => absurd found MemoryStore.not_stored_new) known
  intro before delivery after split error failed violation
  obtain ⟨parent, member, stored, found, late⟩ := late_of_violation failed violation
  have appended := inGraph delivery (by rw [split]; simp)
  obtain ⟨parentNode, there, earlier⟩ := causal delivery.node appended parent member
  have lookup := mirrored before (delivery :: after) split parent stored found
  rw [Dag.get, lookup, Option.some.injEq] at there
  rw [there] at late
  exact absurd earlier (not_lt.mpr late)

/-- **Causal order, exactly.** In every state of a run the appended nodes are later than their
parents and replay without a causality violation, precisely when every call of the run that stores a
node uses a clock that leads the parents. -/
theorem causal_iff_clocks_lead (build : Build) (blake3 : Blake3) (start : Owner → UInt64)
    (actions : List (Action Owner)) :
    Throughout (act build blake3) (fun workshop => workshop.Causal ∧ workshop.ReplaysCleanly)
        (fresh start) actions ↔
      Along (act build blake3) (ClocksLead build blake3) (fresh start) actions := by
  have nothing : (fresh start).Causal := fun node member => absurd member List.not_mem_nil
  have unregistered : (fresh start).Registered := fun node member => absurd member List.not_mem_nil
  have exact_causal : Throughout (act build blake3) Causal (fresh start) actions ↔
      Along (act build blake3) (ClocksLead build blake3) (fresh start) actions :=
    throughout_iff_along (registered_act build blake3)
      (fun workshop action _ causal => causal_act_iff build blake3 workshop action causal)
      unregistered nothing
  have registered := throughout_of_preserved (registered_act build blake3) unregistered actions
  rw [← exact_causal]
  constructor
  · exact fun all before after split => (all before after split).1
  · intro causal before after split
    have here := causal before after split
    exact ⟨here, replaysCleanly_of_causal (registered before after split) here⟩

namespace TwoCreators

/-- The first node, made by the first creator. -/
def root : DagNode :=
  AppendCall.nodeAt ⟨[], [], ⟨"did:exo:a"⟩, fun _ => .empty, .new⟩ Blake3.hash ⟨0, 1⟩

/-- Its child, made by the second creator. -/
def child : DagNode :=
  AppendCall.nodeAt ⟨[root.hash], [], ⟨"did:exo:b"⟩, fun _ => .empty, .new⟩ Blake3.hash ⟨0, 1⟩

def actions : List (Action Bool) :=
  [.append false [] [] ⟨"did:exo:a"⟩ (fun _ => .empty),
    .append true [root.hash] [] ⟨"did:exo:b"⟩ (fun _ => .empty)]

/-- **Two creators with new clocks**: the second node carries the timestamp of its parent, and its
replay is refused. -/
theorem fresh_clocks_collide :
    ¬ Throughout (act ⟨true⟩ Blake3.hash) Causal (fresh fun _ => 0) actions ∧
    ¬ Throughout (act ⟨true⟩ Blake3.hash) ReplaysCleanly (fresh fun _ => 0) actions := by
  have appended : (run (act ⟨true⟩ Blake3.hash) (fresh fun _ => 0) actions).appended =
      [root, child] := by decide +kernel
  have parent : (run (act ⟨true⟩ Blake3.hash) (fresh fun _ => 0) actions).dag.get root.hash =
      some root := by decide +kernel
  refine ⟨fun all => ?_, fun all => ?_⟩
  · obtain ⟨stored, found, earlier⟩ := all.last child (by rw [appended]; simp) root.hash
      (by decide +kernel)
    rw [parent, Option.some.injEq] at found
    rw [← found] at earlier
    exact absurd earlier (by decide +kernel)
  · have clean := all.last [⟨root, some 0⟩, ⟨child, some 0⟩] appended.symm [⟨root, some 0⟩]
      ⟨child, some 0⟩ [] rfl
    refine clean (.storeError
      "causality violation: node timestamp Timestamp(0:1) <= parent timestamp Timestamp(0:1)") ?_ ?_
    · decide +kernel
    · exact ⟨"Timestamp(0:1)", "Timestamp(0:1)", rfl⟩

end TwoCreators

end Workshop

end Exochain.ExoDag
