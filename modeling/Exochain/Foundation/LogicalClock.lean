/-
**Logical clocks on an asynchronous network.**

Every node of a network keeps a clock. An event is either local, and ticks the node's clock, or the
receipt of an earlier event's timestamp, which the clock merges or refuses. The network may lose,
delay, reorder and duplicate: any earlier event may be received by anyone, at any time, any number of
times.

* `HappensBefore` — the order of events on each node, and from an event to its receipts, closed under
  transitivity. It speaks of positions in the history only, not of clocks.
* `Network.perform_cases` — what one step does: it changes nothing, or enters one event with the new
  reading of its node's clock.
* **`Network.ordered_of_passes`**, the clock condition: where every step takes its clock past its own
  reading and the timestamp it merges, what happens before has the lesser timestamp.
* `Network.everywhere_of_merged`, the invariant rule for clocks: what a fresh clock reads, a tick keeps
  and a merge of two good timestamps keeps, every clock reads and every event carries. What is good may
  depend on the number of events.
-/

import Exochain.Foundation.Run

namespace Foundation

/-! ### Histories -/

/-- An event: its node, the position of the event whose timestamp it received, and its own
timestamp. -/
structure ClockEvent (Node Time : Type*) where
  node : Node
  received : Option ℕ
  time : Time
  deriving DecidableEq

section Histories

variable {Node Time : Type*}

/-- One event is next to another: earlier on the same node, or the one it received. -/
def DirectlyBefore (history : List (ClockEvent Node Time)) (earlier later : ℕ) : Prop :=
  earlier < later ∧ ∃ first second, history[earlier]? = some first ∧ history[later]? = some second ∧
    (first.node = second.node ∨ second.received = some earlier)

/-- The causal order of the events of a history. -/
def HappensBefore (history : List (ClockEvent Node Time)) : ℕ → ℕ → Prop :=
  Relation.TransGen (DirectlyBefore history)

/-- What happens before has the lesser timestamp. -/
def CausallyOrdered [LT Time] (history : List (ClockEvent Node Time)) : Prop :=
  ∀ earlier later first second, HappensBefore history earlier later →
    history[earlier]? = some first → history[later]? = some second → first.time < second.time

variable [Preorder Time] {history : List (ClockEvent Node Time)}

/-- Only the pairs next to each other need to be compared. -/
theorem causallyOrdered_iff :
    CausallyOrdered history ↔
      ∀ earlier later first second, DirectlyBefore history earlier later →
        history[earlier]? = some first → history[later]? = some second → first.time < second.time := by
  constructor
  · exact fun ordered earlier later first second next =>
      ordered earlier later first second (.single next)
  · intro direct earlier later first second path
    induction path generalizing second with
    | single next => exact fun found => direct _ _ _ _ next found
    | tail _ next ih =>
      intro found foundLater
      obtain ⟨middle, foundMiddle⟩ : ∃ middle, history[_]? = some middle := by
        obtain ⟨_, middle, _, foundMiddle, _⟩ := next
        exact ⟨middle, foundMiddle⟩
      exact (ih middle found foundMiddle).trans (direct _ _ _ _ next foundMiddle foundLater)

/-- **A new event keeps the history ordered** when it is later than the events of its node and than the
one it received. -/
theorem CausallyOrdered.concat (ordered : CausallyOrdered history) {event : ClockEvent Node Time}
    (own : ∀ earlier ∈ history, earlier.node = event.node → earlier.time < event.time)
    (merged : ∀ sent source, event.received = some sent → history[sent]? = some source →
      source.time < event.time) : CausallyOrdered (history ++ [event]) := by
  rw [causallyOrdered_iff] at ordered ⊢
  rintro earlier later first second ⟨before, first', second', found, foundLater, linked⟩ same sameLater
  obtain rfl := Option.some.inj (found.symm.trans same)
  obtain rfl := Option.some.inj (foundLater.symm.trans sameLater)
  have inside : later < history.length + 1 := by
    have bound := (List.getElem?_eq_some_iff.mp foundLater).1
    rwa [List.length_append, List.length_singleton] at bound
  have old : history[earlier]? = some first' := by
    rwa [List.getElem?_append_left (by omega)] at found
  by_cases last : later = history.length
  · -- the later one is the new event
    rw [last, List.getElem?_concat_length] at foundLater
    cases foundLater
    rcases linked with same | received
    · exact own first' (List.mem_of_getElem? old) same
    · exact merged earlier first' received old
  · have oldLater : history[later]? = some second' := by
      rwa [List.getElem?_append_left (by omega)] at foundLater
    exact ordered earlier later first' second' ⟨before, first', second', old, oldLater, linked⟩ old
      oldLater

end Histories

/-! ### Networks of clocks -/

/-- A clock: its reading, an advance, and the merge of a timestamp, which it may refuse. -/
structure LogicalClock (Clock Input Time : Type*) where
  read : Clock → Time
  tick : Input → Clock → Clock
  merge : Input → Time → Clock → Option Clock

/-- The clocks of the nodes and the events so far, oldest first. -/
structure Network (Node Clock Time : Type*) where
  clocks : Node → Clock
  history : List (ClockEvent Node Time)

/-- What may happen at a node: a local event, or the receipt of the timestamp of an earlier event. -/
inductive NetworkStep (Node Input : Type*) where
  | tick (node : Node) (input : Input)
  | receive (node : Node) (input : Input) (sent : ℕ)

/-- What the node is told when the step happens. -/
def NetworkStep.input {Node Input : Type*} : NetworkStep Node Input → Input
  | .tick _ input => input
  | .receive _ input _ => input

namespace Network

variable {Node Clock Input Time : Type*} [DecidableEq Node] (clock : LogicalClock Clock Input Time)

/-- All clocks alike, and nothing has happened. -/
def start (fresh : Clock) : Network Node Clock Time := ⟨fun _ => fresh, []⟩

/-- Enter an event with the new state of its node's clock. -/
def enter (network : Network Node Clock Time) (node : Node) (received : Option ℕ) (after : Clock) :
    Network Node Clock Time :=
  ⟨Function.update network.clocks node after,
    network.history ++ [⟨node, received, clock.read after⟩]⟩

/-- One step. A receipt of an event that has not happened, and one that the clock refuses, change
nothing. -/
def perform (network : Network Node Clock Time) : NetworkStep Node Input → Network Node Clock Time
  | .tick node input => network.enter clock node none (clock.tick input (network.clocks node))
  | .receive node input sent =>
    match network.history[sent]? with
    | none => network
    | some source =>
      match clock.merge input source.time (network.clocks node) with
      | none => network
      | some after => network.enter clock node (some sent) after

/-- A step takes the clock past its own reading and past the timestamp it merges. -/
def Passes [LT Time] (network : Network Node Clock Time) : NetworkStep Node Input → Prop
  | .tick node input =>
    clock.read (network.clocks node) < clock.read (clock.tick input (network.clocks node))
  | .receive node input sent => ∀ source ∈ network.history[sent]?,
    ∀ after ∈ clock.merge input source.time (network.clocks node),
      clock.read (network.clocks node) < clock.read after ∧ source.time < clock.read after

variable {clock}

/-- **What one step does.** -/
theorem perform_cases (network : Network Node Clock Time) (step : NetworkStep Node Input) :
    network.perform clock step = network ∨
    (∃ node input, step = .tick node input ∧
      network.perform clock step =
        network.enter clock node none (clock.tick input (network.clocks node))) ∨
    (∃ node input sent source after, step = .receive node input sent ∧
      network.history[sent]? = some source ∧
      clock.merge input source.time (network.clocks node) = some after ∧
      network.perform clock step = network.enter clock node (some sent) after) := by
  cases step with
  | tick node input => exact .inr (.inl ⟨node, input, rfl, rfl⟩)
  | receive node input sent =>
    cases found : network.history[sent]? with
    | none => exact .inl (by simp only [perform, found])
    | some source =>
      cases merged : clock.merge input source.time (network.clocks node) with
      | none => exact .inl (by simp only [perform, found, merged])
      | some after =>
        have entered : network.perform clock (.receive node input sent) =
            network.enter clock node (some sent) after := by simp only [perform, found, merged]
        exact .inr (.inr ⟨node, input, sent, source, after, rfl, found, merged, entered⟩)

/-- A step enters at most one event. -/
theorem length_history_le (fresh : Clock) (steps : List (NetworkStep Node Input)) :
    (run (perform clock) (start fresh : Network Node Clock Time) steps).history.length ≤
      steps.length := by
  induction steps using List.reverseRecOn with
  | nil => exact le_rfl
  | append_singleton steps step ih =>
    rw [run_append, List.length_append, List.length_singleton, run_cons, run_nil]
    generalize run (perform clock) (start fresh : Network Node Clock Time) steps = network at ih ⊢
    rcases perform_cases network step with
      same | ⟨node, input, -, after⟩ | ⟨node, input, sent, source, state, -, -, -, after⟩
    · rw [same]
      omega
    · rw [after, enter, List.length_append, List.length_singleton]
      omega
    · rw [after, enter, List.length_append, List.length_singleton]
      omega

/-- No clock is behind the timestamps of its node. -/
def Leads [Preorder Time] (clock : LogicalClock Clock Input Time) (network : Network Node Clock Time) :
    Prop :=
  ∀ event ∈ network.history, event.time ≤ clock.read (network.clocks event.node)

section Ordered

variable [Preorder Time]

/-- An entry by a clock that has advanced, past the timestamp it merged. -/
theorem enter_ordered {network : Network Node Clock Time} {node : Node} {received : Option ℕ}
    {after : Clock} (leads : network.Leads clock) (ordered : CausallyOrdered network.history)
    (own : clock.read (network.clocks node) < clock.read after)
    (merged : ∀ sent source, received = some sent → network.history[sent]? = some source →
      source.time < clock.read after) :
    (network.enter clock node received after).Leads clock ∧
      CausallyOrdered (network.enter clock node received after).history := by
  constructor
  · intro event member
    by_cases here : event.node = node
    · show event.time ≤ clock.read (Function.update network.clocks node after event.node)
      rw [here, Function.update_self]
      rcases List.mem_append.mp member with old | new
      · have behind := leads event old
        rw [here] at behind
        exact behind.trans own.le
      · rw [List.mem_singleton.mp new]
    · have old : event ∈ network.history := by
        rcases List.mem_append.mp member with old | new
        · exact old
        · rw [List.mem_singleton.mp new] at here
          exact absurd rfl here
      show event.time ≤ clock.read (Function.update network.clocks node after event.node)
      rw [Function.update_of_ne here]
      exact leads event old
  · refine ordered.concat ?_ merged
    intro earlier member same
    have same : earlier.node = node := same
    have behind := leads earlier member
    rw [same] at behind
    exact behind.trans_lt own

/-- A step that passes keeps the history ordered. -/
theorem perform_ordered {network : Network Node Clock Time} {step : NetworkStep Node Input}
    (ordered : network.Leads clock ∧ CausallyOrdered network.history)
    (passes : network.Passes clock step) :
    (network.perform clock step).Leads clock ∧
      CausallyOrdered (network.perform clock step).history := by
  rcases perform_cases network step with
    same | ⟨node, input, rfl, after⟩ | ⟨node, input, sent, source, state, rfl, found, merged, after⟩
  · rw [same]
    exact ordered
  · rw [after]
    exact enter_ordered ordered.1 ordered.2 passes fun sent source impossible => nomatch impossible
  · rw [after]
    obtain ⟨own, past⟩ := passes source found state merged
    refine enter_ordered ordered.1 ordered.2 own ?_
    rintro _ source' ⟨⟩ found'
    cases found.symm.trans found'
    exact past

/-- **The clock condition.** -/
theorem ordered_of_passes {fresh : Clock} {steps : List (NetworkStep Node Input)}
    (passes : Along (perform clock) (fun network step => network.Passes clock step)
      (start fresh : Network Node Clock Time) steps) :
    CausallyOrdered (run (perform clock) (start fresh : Network Node Clock Time) steps).history := by
  have base : (start fresh : Network Node Clock Time).Leads clock ∧
      CausallyOrdered (start fresh : Network Node Clock Time).history := by
    constructor
    · intro event member
      cases member
    · rw [causallyOrdered_iff]
      intro earlier later first second _ found
      cases found
  have throughout := throughout_of_along
    (P := fun network : Network Node Clock Time =>
      network.Leads clock ∧ CausallyOrdered network.history)
    (fun _ _ => perform_ordered) base passes
  exact throughout.last.2

end Ordered

/-! ### What every timestamp satisfies -/

section Everywhere

/-- Every clock reads, and every event carries, a timestamp that is good for the number of events so
far. -/
def Everywhere (clock : LogicalClock Clock Input Time) (good : ℕ → Time → Prop)
    (network : Network Node Clock Time) : Prop :=
  (∀ node, good network.history.length (clock.read (network.clocks node))) ∧
    ∀ event ∈ network.history, good network.history.length event.time

variable {good : ℕ → Time → Prop}

/-- The entry of a good reading. -/
theorem enter_everywhere (grows : ∀ count time, good count time → good (count + 1) time)
    {network : Network Node Clock Time} {node : Node} {received : Option ℕ} {after : Clock}
    (everywhere : network.Everywhere clock good)
    (new : good (network.history.length + 1) (clock.read after)) :
    (network.enter clock node received after).Everywhere clock good := by
  have longer : (network.enter clock node received after).history.length =
      network.history.length + 1 := List.length_append
  constructor
  · intro other
    rw [longer]
    show good _ (clock.read (Function.update network.clocks node after other))
    by_cases here : other = node
    · rw [here, Function.update_self]
      exact new
    · rw [Function.update_of_ne here]
      exact grows _ _ (everywhere.1 other)
  · intro event member
    rw [longer]
    rcases List.mem_append.mp member with old | last
    · exact grows _ _ (everywhere.2 event old)
    · rw [List.mem_singleton.mp last]
      exact new

/-- **The invariant rule for clocks**: what a fresh clock reads, a tick keeps, and a merge of two good
timestamps keeps, every clock reads and every event carries. -/
theorem everywhere_of_merged (good : ℕ → Time → Prop) (allowed : Input → Prop)
    (grows : ∀ count time, good count time → good (count + 1) time)
    (ticked : ∀ count input state, allowed input → good count (clock.read state) →
      good (count + 1) (clock.read (clock.tick input state)))
    (merged : ∀ count input time state after, allowed input → good count time →
      good count (clock.read state) → clock.merge input time state = some after →
      good (count + 1) (clock.read after))
    {fresh : Clock} (base : good 0 (clock.read fresh)) {steps : List (NetworkStep Node Input)}
    (inputs : ∀ step ∈ steps, allowed step.input) :
    Throughout (perform clock) (Everywhere clock good) (start fresh : Network Node Clock Time)
      steps := by
  have admissible : Along (perform clock) (fun _ step => allowed step.input)
      (start fresh : Network Node Clock Time) steps := by
    intro before step after split
    exact inputs step (split ▸ List.mem_append_right before List.mem_cons_self)
  refine throughout_of_along ?_ ⟨fun _ => base, fun event member => nomatch member⟩ admissible
  intro network step everywhere allowedInput
  rcases perform_cases network step with
    same | ⟨node, input, rfl, after⟩ | ⟨node, input, sent, source, state, rfl, found, merges, after⟩
  · rw [same]
    exact everywhere
  · rw [after]
    exact enter_everywhere grows everywhere (ticked _ input _ allowedInput (everywhere.1 node))
  · rw [after]
    have sourceGood := everywhere.2 source (List.mem_of_getElem? found)
    exact enter_everywhere grows everywhere
      (merged _ input _ _ state allowedInput sourceGood (everywhere.1 node) merges)

end Everywhere

end Network

end Foundation
