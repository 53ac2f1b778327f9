/-
**`exo-dag` — the in-memory append-only graph.**

The data model and the one writing operation of `dag.rs`, over an arbitrary digest function.

* `HybridClock.tick` increments the logical counter in 32 bits, so the build decides what happens
  at the last value.
* `nodePreimage` is the byte string a node's hash is computed from: the parents, the payload hash,
  the creator and the timestamp, written one after the other.
* `append` checks the parents, ticks the clock, hashes the node and enters it in both tables:
  `nodes` and the redundant index `children`.

`append_cases` says once what a call can do: a fault or an error with the graph as it was, or one
fresh node stored. Every invariant of `Dag.Invariant` follows from it.
-/

import Exochain.Foundation.Collections
import Exochain.Core.Types

set_option linter.unusedSectionVars false

namespace Exochain.ExoDag

open Foundation ExoCore

/-! ### Errors -/

/-- The errors of the graph, the store, the consensus and the trees. -/
inductive DagError where
  | parentNotFound (hash : Hash256)
  | nodeAlreadyExists (hash : Hash256)
  | cycleDetected (hash : Hash256)
  | invalidSignature (hash : Hash256)
  | duplicateVote (voter : String) (round : UInt64)
  | notAValidator (voter : String)
  | invalidRound (expected got : UInt64)
  | nodeNotFound (hash : Hash256)
  | emptyParents
  | smtError (text : String)
  | mmrError (text : String)
  | storeError (text : String)
  deriving DecidableEq

/-- The text of an error. -/
def DagError.display : DagError → String
  | .parentNotFound hash => "parent not found: " ++ hash.display
  | .nodeAlreadyExists hash => "node already exists: " ++ hash.display
  | .cycleDetected hash => "cycle detected: node " ++ hash.display ++ " would create a cycle"
  | .invalidSignature hash => "invalid signature on node " ++ hash.display
  | .duplicateVote voter round => "duplicate vote from " ++ voter ++ " in round " ++ toString round
  | .notAValidator voter => "voter " ++ voter ++ " is not a validator"
  | .invalidRound expected got =>
    "invalid round: expected " ++ toString expected ++ ", got " ++ toString got
  | .nodeNotFound hash => "node not found: " ++ hash.display
  | .emptyParents => "empty parents list"
  | .smtError text => "sparse merkle tree error: " ++ text
  | .mmrError text => "mmr error: " ++ text
  | .storeError text => "store error: " ++ text

/-! ### The local clock -/

/-- The clock a creator stamps its nodes with. -/
structure HybridClock where
  latest : Timestamp
  deriving DecidableEq

namespace HybridClock

/-- A clock at time zero. -/
def new : HybridClock := ⟨Timestamp.zero⟩

/-- A clock with a specific starting time. -/
def withTime (millis : UInt64) : HybridClock := ⟨⟨millis, 0⟩⟩

/-- Increment the logical counter and return the new reading. -/
def tick (build : Build) (clock : HybridClock) : Except Fault (Timestamp × HybridClock) := do
  let logical ← build.add 32 clock.latest.logical.toNat 1
  let latest : Timestamp := ⟨clock.latest.physicalMs, UInt32.ofNat logical⟩
  return (latest, ⟨latest⟩)

/-- Advance the clock to at least the given time, then tick. -/
def advance (build : Build) (clock : HybridClock) (millis : UInt64) :
    Except Fault (Timestamp × HybridClock) :=
  let clock := if millis > clock.latest.physicalMs then withTime millis else clock
  clock.tick build

end HybridClock

/-! ### Nodes and their hashes -/

/-- A node of the graph. -/
structure DagNode where
  hash : Hash256
  parents : List Hash256
  payloadHash : Hash256
  creatorDid : Did
  timestamp : Timestamp
  signature : Signature
  deriving DecidableEq

/-- The bytes a node's hash is computed from. -/
def nodePreimage (parents : List Hash256) (payloadHash : Hash256) (creatorDid : Did)
    (timestamp : Timestamp) : List UInt8 :=
  concatBlocks parents ++ (payloadHash.asBytes ++ (creatorDid.asBytes ++ timestamp.toLeBytes))

/-- The hash of a node from its fields. -/
def computeNodeHash (blake3 : Blake3) (parents : List Hash256) (payloadHash : Hash256)
    (creatorDid : Did) (timestamp : Timestamp) : Hash256 :=
  blake3 (nodePreimage parents payloadHash creatorDid timestamp)

/-- The hash recomputed from the fields of a node. -/
def DagNode.recomputedHash (blake3 : Blake3) (node : DagNode) : Hash256 :=
  computeNodeHash blake3 node.parents node.payloadHash node.creatorDid node.timestamp

/-! ### The graph -/

/-- The append-only graph: the nodes by hash, and for each node the set of its children. -/
structure Dag where
  nodes : BTreeMap Hash256 DagNode
  children : BTreeMap Hash256 (BTreeSet Hash256)

namespace Dag

/-- The empty graph. -/
def new : Dag := ⟨∅, ∅⟩

/-- Whether the graph has no node. -/
def isEmpty (dag : Dag) : Bool := dag.nodes.isEmpty

/-- Get a node by hash. -/
def get (dag : Dag) (hash : Hash256) : Option DagNode := dag.nodes[hash]?

/-- The stored hashes without a child in the index, in ascending order. -/
def tips (dag : Dag) : List Hash256 :=
  (dag.nodes.keys.filter fun hash => dag.children[hash]?.all (·.isEmpty)).mergeSort

/-- Enter a node in both tables: under each of its parents in `children`, with an entry of its own
there, and in `nodes`. -/
def store (dag : Dag) (node : DagNode) : Dag :=
  let listed := node.parents.foldl
    (fun children parent => BTreeMap.upsert children parent ∅ (·.insert node.hash)) dag.children
  { children := BTreeMap.upsert listed node.hash ∅ id
    nodes := dag.nodes.insert node.hash node }

end Dag

/-- The arguments of one `append` call. -/
structure AppendCall where
  parents : List Hash256
  payload : List UInt8
  creator : Did
  signFn : List UInt8 → Signature
  clock : HybridClock

/-- The node that a call makes at a timestamp. -/
def AppendCall.nodeAt (call : AppendCall) (blake3 : Blake3) (timestamp : Timestamp) : DagNode :=
  let sortedParents := sortDedup call.parents
  let payloadHash := Hash256.digest blake3 call.payload
  let hash := computeNodeHash blake3 sortedParents payloadHash call.creator timestamp
  { hash
    parents := sortedParents
    payloadHash
    creatorDid := call.creator
    timestamp
    signature := call.signFn hash.asBytes }

/-- Append a new node. The answer comes with the graph and the clock after the call; a fault stops
the call before the graph is touched. -/
def append (build : Build) (blake3 : Blake3) (dag : Dag) (call : AppendCall) :
    Except Fault (Except DagError DagNode × Dag × HybridClock) :=
  if call.parents.isEmpty && !dag.isEmpty then
    .ok (.error .emptyParents, dag, call.clock)
  else match call.parents.find? (fun parent => !dag.nodes.contains parent) with
    | some missing => .ok (.error (.parentNotFound missing), dag, call.clock)
    | none => do
      let (timestamp, clock) ← call.clock.tick build
      let node := call.nodeAt blake3 timestamp
      if dag.nodes.contains node.hash then
        return (.error (.nodeAlreadyExists node.hash), dag, clock)
      else
        return (.ok node, dag.store node, clock)

/-- The graph after a call, whatever the call answered. -/
def appendStep (build : Build) (blake3 : Blake3) (dag : Dag) (call : AppendCall) : Dag :=
  match append build blake3 dag call with
  | .ok (_, after, _) => after
  | .error _ => dag

/-- Whether the call stored a node. -/
def appendSucceeds (build : Build) (blake3 : Blake3) (dag : Dag) (call : AppendCall) : Prop :=
  ∃ node after clock, append build blake3 dag call = .ok (.ok node, after, clock)

/-! ### What one call can do -/

section Cases

variable (build : Build) (blake3 : Blake3) (dag : Dag) (call : AppendCall)

/-- The call stored `node`: its hash was free, its parents were all stored, and it has none only if
the graph was empty. -/
structure Stored (blake3 : Blake3) (dag : Dag) (call : AppendCall) (node : DagNode) : Prop where
  made : ∃ timestamp, node = call.nodeAt blake3 timestamp
  fresh : node.hash ∉ dag.nodes
  parents_stored : ∀ parent ∈ call.parents, parent ∈ dag.nodes
  genesis : call.parents = [] → dag.isEmpty = true

/-- **What a call can answer**: a fault, an error that hands the graph back as it came, or a node
that is now stored. -/
theorem append_cases :
    (∃ fault, append build blake3 dag call = .error fault) ∨
    (∃ error clock, append build blake3 dag call = .ok (.error error, dag, clock)) ∨
    ∃ node clock, append build blake3 dag call = .ok (.ok node, dag.store node, clock) ∧
      Stored blake3 dag call node := by
  unfold append
  by_cases orphan : (call.parents.isEmpty && !dag.isEmpty) = true
  · rw [if_pos orphan]
    exact .inr (.inl ⟨_, _, rfl⟩)
  rw [if_neg orphan]
  cases search : call.parents.find? (fun parent => !dag.nodes.contains parent) with
  | some missing => exact .inr (.inl ⟨_, _, rfl⟩)
  | none =>
    cases ticked : call.clock.tick build with
    | error fault => exact .inl ⟨fault, rfl⟩
    | ok reading =>
      obtain ⟨timestamp, clock⟩ := reading
      by_cases known : dag.nodes.contains (call.nodeAt blake3 timestamp).hash = true
      · refine .inr (.inl ⟨.nodeAlreadyExists (call.nodeAt blake3 timestamp).hash, clock, ?_⟩)
        exact if_pos known
      · refine .inr (.inr ⟨call.nodeAt blake3 timestamp, clock, if_neg known, ⟨timestamp, rfl⟩,
          ?_, ?_, ?_⟩)
        · exact fun member => known (Std.ExtTreeMap.contains_iff_mem.mpr member)
        · intro parent member
          simpa using List.find?_eq_none.mp search parent member
        · intro noParents
          simpa [noParents] using orphan

/-- A stored node carries the reading that the call took from its clock. -/
theorem tick_of_append {build : Build} {blake3 : Blake3} {dag after : Dag} {call : AppendCall}
    {node : DagNode} {clock : HybridClock}
    (answer : append build blake3 dag call = .ok (.ok node, after, clock)) :
    call.clock.tick build = .ok (node.timestamp, clock) := by
  unfold append at answer
  split at answer
  · cases answer
  cases search : call.parents.find? (fun parent => !dag.nodes.contains parent) with
  | some missing =>
    rw [search] at answer
    cases answer
  | none =>
    rw [search] at answer
    obtain ⟨⟨timestamp, ticked⟩, tick, answer⟩ := bind_eq_ok_iff.mp answer
    rw [tick]
    simp only at answer
    split at answer
    · cases answer
    · cases answer
      rfl

/-- A call that does not succeed leaves the graph as it was. -/
theorem appendStep_of_not_succeeds {build : Build} {blake3 : Blake3} {dag : Dag}
    {call : AppendCall} (failed : ¬ appendSucceeds build blake3 dag call) :
    appendStep build blake3 dag call = dag := by
  unfold appendStep
  rcases append_cases build blake3 dag call with
    ⟨fault, answer⟩ | ⟨error, clock, answer⟩ | ⟨node, clock, answer, _⟩
  · rw [answer]
  · rw [answer]
  · exact absurd ⟨node, _, clock, answer⟩ failed

/-- **One call, as a step of the graph**: no change, or one stored node. -/
theorem appendStep_cases :
    appendStep build blake3 dag call = dag ∨
    ∃ node, appendStep build blake3 dag call = dag.store node ∧ Stored blake3 dag call node := by
  unfold appendStep
  rcases append_cases build blake3 dag call with
    ⟨fault, answer⟩ | ⟨error, clock, answer⟩ | ⟨node, clock, answer, stored⟩
  · exact .inl (by rw [answer])
  · exact .inl (by rw [answer])
  · exact .inr ⟨node, by rw [answer], stored⟩

end Cases

end Exochain.ExoDag
