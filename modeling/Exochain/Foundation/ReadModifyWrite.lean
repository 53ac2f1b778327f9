/-
**Read, modify, write.**

A stored value is changed by requests. A request reads the value, computes a new one from it, and writes
that back later; between the two, other requests do the same. The write does not ask whether the value is
still the one that was read.

* `step` — the reads and the writes, one atomic step each, in any order.
* `Serial` — the value is what the acknowledged operations make of the first one, one after the other.
* `Current` — a write finds the value that its request has read.
* `Tracked` — the invariant: the store is serial, and what was read is a value on the way to the present
  one. A current write keeps it (`tracked_step`).
* `Tracked.read_eq_of_version` — where every operation advances a version, a read of the present version
  is the present value; so a write that is not current loses an operation.
-/

import Exochain.Foundation.Run

set_option linter.unusedSectionVars false

namespace Foundation.ReadModifyWrite

section Store

variable {V O : Type} (modify : V → O → Option V)

/-- A request between its read and its write. -/
structure Pending (V O : Type) where
  request : ℕ
  op : O
  read : V
  result : V

/-- The stored value, the requests under way, and those whose write was acknowledged, in order. -/
structure Store (V O : Type) where
  value : V
  pending : List (Pending V O)
  acknowledged : List (Pending V O)

/-- The store before any request. -/
def Store.new (value : V) : Store V O := ⟨value, [], []⟩

/-- One atomic step: a request reads, or writes what it has computed. -/
inductive Event (O : Type) where
  | read (request : ℕ) (op : O)
  | write (request : ℕ)

/-- The request under way with a number. -/
def Store.find (store : Store V O) (request : ℕ) : Option (Pending V O) :=
  store.pending.find? (·.request = request)

/-- The store with one more request under way. -/
def Store.begin (store : Store V O) (pending : Pending V O) : Store V O :=
  { store with pending := store.pending ++ [pending] }

/-- The store after the write of a request. -/
def Store.write (store : Store V O) (pending : Pending V O) : Store V O where
  value := pending.result
  pending := store.pending.filter (·.request ≠ pending.request)
  acknowledged := store.acknowledged ++ [pending]

/-- The store after a step. A request that is refused goes no further. -/
def step (store : Store V O) : Event O → Store V O
  | .read request op =>
    if (store.find request).isSome then store
    else
      match modify store.value op with
      | none => store
      | some result => store.begin ⟨request, op, store.value, result⟩
  | .write request =>
    match store.find request with
    | none => store
    | some pending => store.write pending

/-- A request with a free number reads and computes. -/
theorem step_read {store : Store V O} {request : ℕ} (vacant : store.find request = none) (op : O) :
    step modify store (.read request op) =
      match modify store.value op with
      | none => store
      | some result => store.begin ⟨request, op, store.value, result⟩ := by
  rw [step, vacant, Option.isSome_none, if_neg Bool.false_ne_true]

/-- **What a step can do**: nothing, begin a request, or write one. -/
inductive Outcome (modify : V → O → Option V) (store : Store V O) : Event O → Store V O → Prop
  | nothing {event : Event O} (none : ∀ request, event = .write request → store.find request = none) :
      Outcome modify store event store
  | begun {request : ℕ} {op : O} {result : V} (computed : modify store.value op = some result) :
      Outcome modify store (.read request op) (store.begin ⟨request, op, store.value, result⟩)
  | written {request : ℕ} {pending : Pending V O} (found : store.find request = some pending) :
      Outcome modify store (.write request) (store.write pending)

theorem step_outcome (store : Store V O) (event : Event O) :
    Outcome modify store event (step modify store event) := by
  cases event with
  | read request op =>
    rw [step]
    split
    · exact .nothing nofun
    · split
      · exact .nothing nofun
      · rename_i computed
        exact .begun computed
  | write request =>
    rw [step]
    split
    · rename_i missing
      exact .nothing fun _ same => by cases same; exact missing
    · rename_i found
      exact .written found

/-- The operations of requests. -/
def ops (requests : List (Pending V O)) : List O := requests.map Pending.op

/-- The value is what the acknowledged operations make of the first one, one after the other. -/
def Serial (start : V) (store : Store V O) : Prop :=
  (ops store.acknowledged).foldlM modify start = some store.value

/-- A write finds the value that its request has read. -/
def Current (store : Store V O) : Event O → Prop
  | .read _ _ => True
  | .write request => ∀ pending, store.find request = some pending → pending.read = store.value

/-- **The invariant**: the store is serial, and every request under way has computed its result from a
value that was there after some of the acknowledged operations. -/
structure Tracked (start : V) (store : Store V O) : Prop where
  serial : Serial modify start store
  computed : ∀ pending ∈ store.pending, modify pending.read pending.op = some pending.result
  earlier : ∀ pending ∈ store.pending, ∃ count ≤ store.acknowledged.length,
    (ops (store.acknowledged.take count)).foldlM modify start = some pending.read

variable {modify} {start : V} {store : Store V O}

theorem tracked_new (start : V) : Tracked modify start (Store.new start) :=
  ⟨rfl, fun _ member => absurd member List.not_mem_nil,
    fun _ member => absurd member List.not_mem_nil⟩

theorem mem_of_find {request : ℕ} {pending : Pending V O} (found : store.find request = some pending) :
    pending ∈ store.pending := List.mem_of_find?_eq_some found

/-- One more operation, on the value that is there. -/
theorem Serial.concat {pending : Pending V O} (serial : Serial modify start store)
    (computed : modify store.value pending.op = some pending.result) :
    (ops (store.acknowledged ++ [pending])).foldlM modify start = some pending.result := by
  unfold ops
  rw [List.map_append, List.foldlM_append]
  have here : (store.acknowledged.map Pending.op).foldlM modify start = some store.value := serial
  rw [here]
  simpa using computed

/-- **A step with a current write keeps the invariant.** -/
theorem tracked_step (store : Store V O) (event : Event O) (tracked : Tracked modify start store)
    (current : Current store event) : Tracked modify start (step modify store event) := by
  have outcome := step_outcome modify store event
  generalize step modify store event = after at outcome ⊢
  cases outcome with
  | nothing => exact tracked
  | begun computed =>
    refine ⟨tracked.serial, fun pending member => ?_, fun pending member => ?_⟩
    · rcases List.mem_append.mp member with old | new
      · exact tracked.computed pending old
      · rw [List.mem_singleton.mp new]
        exact computed
    · rcases List.mem_append.mp member with old | new
      · exact tracked.earlier pending old
      · refine ⟨store.acknowledged.length, le_rfl, ?_⟩
        rw [List.mem_singleton.mp new]
        show (ops (store.acknowledged.take store.acknowledged.length)).foldlM modify start = _
        rw [List.take_length]
        exact tracked.serial
  | @written request written found =>
    have computed := tracked.computed written (mem_of_find found)
    rw [current written found] at computed
    refine ⟨tracked.serial.concat computed, fun pending member => ?_, fun pending member => ?_⟩
    · exact tracked.computed pending (List.mem_filter.mp member).1
    · obtain ⟨count, within, read⟩ := tracked.earlier pending (List.mem_filter.mp member).1
      refine ⟨count, ?_, ?_⟩
      · show count ≤ (store.acknowledged ++ [written]).length
        rw [List.length_append]
        omega
      · show (ops ((store.acknowledged ++ [written]).take count)).foldlM modify start = _
        rw [List.take_append_of_le_length within]
        exact read

section Version

variable {version : V → ℕ}
  (advances : ∀ value op result, modify value op = some result → version result = version value + 1)

include advances

/-- The version counts the operations. -/
theorem version_of_foldlM {operations : List O} {value : V}
    (made : operations.foldlM modify start = some value) :
    version value = version start + operations.length := by
  induction operations generalizing start with
  | nil =>
    cases made
    rfl
  | cons op operations ih =>
    rw [List.foldlM_cons, Option.bind_eq_bind, Option.bind_eq_some_iff] at made
    obtain ⟨next, first, rest⟩ := made
    rw [ih rest, advances start op next first, List.length_cons]
    omega

/-- **A read of the present version is the present value.** -/
theorem Tracked.read_eq_of_version (tracked : Tracked modify start store) {pending : Pending V O}
    (member : pending ∈ store.pending) (same : version pending.read = version store.value) :
    pending.read = store.value := by
  obtain ⟨count, within, read⟩ := tracked.earlier pending member
  have readVersion := version_of_foldlM advances read
  have presentVersion := version_of_foldlM advances tracked.serial
  rw [ops, List.length_map, List.length_take] at readVersion
  rw [ops, List.length_map] at presentVersion
  have all : count = store.acknowledged.length := by omega
  rw [all, List.take_length] at read
  exact Option.some_injective _ (read.symm.trans tracked.serial)

end Version

end Store

end Foundation.ReadModifyWrite
