/-
**`exo-gatekeeper` — what `Retry` and `Timeout` add.**

A retry takes its first attempt and a timeout waits for nothing: each of them only adds a field to the
output of the term inside. The field then flows on into later steps, merges and outputs, where nothing but
a guard can ask for it.

* `erase` — the term without its retries and timeouts.
* `simulates_erase` — a term simulates its erasure off the two fields, one case for each constructor.
* **`erase_preserves`** — if no guard asks for the two fields, erasure keeps success, checkpoint and every
  other field; what a transform writes to them does not matter. No field of the input is lost.
-/

import Exochain.Gatekeeper.Simulation

namespace Exochain.ExoGatekeeper

open Foundation ExoCore

/-- The fields that retries and timeouts set. -/
def instrumentationKeys : List String := ["retry_attempts", "timeout_budget_ms"]

namespace Combinator

mutual

/-- The term without its retries and timeouts. -/
def erase : Combinator → Combinator
  | .identity => .identity
  | .sequence combinators => .sequence (eraseAll combinators)
  | .parallel combinators => .parallel (eraseAll combinators)
  | .choice combinators => .choice (eraseAll combinators)
  | .guard inner predicate => .guard inner.erase predicate
  | .transform inner change => .transform inner.erase change
  | .retry inner _ => inner.erase
  | .timeout inner _ => inner.erase
  | .checkpoint inner checkpointId => .checkpoint inner.erase checkpointId

/-- The terms without their retries and timeouts. -/
def eraseAll : List Combinator → List Combinator
  | [] => []
  | c :: rest => c.erase :: eraseAll rest

end

mutual

/-- The keys that the guards of a term ask for. -/
def guardKeys : Combinator → List String
  | .identity => []
  | .sequence combinators => guardKeysOfAll combinators
  | .parallel combinators => guardKeysOfAll combinators
  | .choice combinators => guardKeysOfAll combinators
  | .guard inner predicate => predicate.requiredKey :: inner.guardKeys
  | .transform inner _ => inner.guardKeys
  | .retry inner _ => inner.guardKeys
  | .timeout inner _ => inner.guardKeys
  | .checkpoint inner _ => inner.guardKeys

/-- The keys that the guards of the terms ask for. -/
def guardKeysOfAll : List Combinator → List String
  | [] => []
  | c :: rest => c.guardKeys ++ guardKeysOfAll rest

end

/-- No guard asks for a field that a retry or a timeout sets. -/
def AsksElsewhere (term : Combinator) : Prop := ∀ key ∈ term.guardKeys, key ∉ instrumentationKeys

instance (term : Combinator) : Decidable term.AsksElsewhere :=
  inferInstanceAs (Decidable (∀ key ∈ term.guardKeys, key ∉ instrumentationKeys))

theorem guardKeysOfAll_eq (combinators : List Combinator) :
    guardKeysOfAll combinators = combinators.flatMap guardKeys := by
  induction combinators with
  | nil => rw [guardKeysOfAll, List.flatMap_nil]
  | cons c rest ih => rw [guardKeysOfAll, ih, List.flatMap_cons]

/-- The members of a list ask for what the list asks for. -/
theorem asksElsewhere_of_mem {combinators : List Combinator}
    (asks : ∀ key ∈ guardKeysOfAll combinators, key ∉ instrumentationKeys) {c : Combinator}
    (member : c ∈ combinators) : c.AsksElsewhere := by
  rw [guardKeysOfAll_eq] at asks
  exact fun key among => asks key (List.mem_flatMap.mpr ⟨c, member, among⟩)

/-- Each member simulates its erasure. -/
theorem forall₂_eraseAll {combinators : List Combinator}
    (each : ∀ c ∈ combinators, Simulates instrumentationKeys c c.erase) :
    List.Forall₂ (Simulates instrumentationKeys) combinators (eraseAll combinators) := by
  induction combinators with
  | nil =>
    rw [eraseAll]
    exact .nil
  | cons c rest ih =>
    obtain ⟨first, others⟩ := List.forall_mem_cons.mp each
    rw [eraseAll]
    exact .cons first (ih others)

/-- **A term simulates its erasure** off the two fields, if none of its guards asks for one of them. -/
theorem simulates_erase (term : Combinator) (asks : term.AsksElsewhere) :
    Simulates instrumentationKeys term term.erase := by
  induction term using Combinator.induction with
  | identity =>
    rw [erase]
    exact simulates_identity
  | sequence combinators ih =>
    rw [AsksElsewhere, guardKeys] at asks
    rw [erase]
    exact simulates_sequence (forall₂_eraseAll fun c member =>
      ih c member (asksElsewhere_of_mem asks member))
  | parallel combinators ih =>
    rw [AsksElsewhere, guardKeys] at asks
    rw [erase]
    exact simulates_parallel (forall₂_eraseAll fun c member =>
      ih c member (asksElsewhere_of_mem asks member))
  | choice combinators ih =>
    rw [AsksElsewhere, guardKeys] at asks
    rw [erase]
    exact simulates_choice (forall₂_eraseAll fun c member =>
      ih c member (asksElsewhere_of_mem asks member))
  | guard inner predicate ih =>
    rw [AsksElsewhere, guardKeys] at asks
    obtain ⟨shown, others⟩ := List.forall_mem_cons.mp asks
    rw [erase]
    exact simulates_guard shown (ih others)
  | transform inner change ih =>
    rw [AsksElsewhere, guardKeys] at asks
    rw [erase]
    exact simulates_transform change (ih asks)
  | retry inner policy ih =>
    rw [AsksElsewhere, guardKeys] at asks
    rw [erase]
    exact simulates_of_retry policy (by decide) (ih asks)
  | timeout inner duration ih =>
    rw [AsksElsewhere, guardKeys] at asks
    rw [erase]
    exact simulates_of_timeout duration (by decide) (ih asks)
  | checkpoint inner checkpointId ih =>
    rw [AsksElsewhere, guardKeys] at asks
    rw [erase]
    exact simulates_checkpoint checkpointId (ih asks)

end Combinator

/-- **Retries and timeouts only add their fields**: where no guard asks for these, the term without them
succeeds on the same inputs, with the same checkpoint and the same other fields, and no field of the input
is lost. -/
theorem erase_preserves (term : Combinator) (asks : term.AsksElsewhere) (input : CombinatorInput) :
    Alike (Matches instrumentationKeys) (reduce term input) (reduce term.erase input) ∧
      ∀ out, reduce term input = .ok out → KeepsKeys input out :=
  ⟨term.simulates_erase asks input input (.refl _), fun _ reduced => reduce_keeps_keys term reduced⟩

/-- A guarded step that is retried, beside a timeout. -/
def retriedStep : Combinator :=
  .parallel [
    .sequence [.guard .identity ⟨"open", "state", some "open"⟩,
      .retry (.transform .identity ⟨"close", "state", "closed"⟩) ⟨2, 0⟩],
    .timeout .identity ⟨50⟩]

/-- An input that passes the guard. -/
def openInput : CombinatorInput := ⟨(∅ : BTreeMap String String).insert "state" "open"⟩

theorem retriedStep_erased :
    Alike (Matches instrumentationKeys) (reduce retriedStep openInput)
        (reduce retriedStep.erase openInput) ∧
      ∀ out, reduce retriedStep openInput = .ok out → KeepsKeys openInput out :=
  erase_preserves retriedStep (by decide) openInput

end Exochain.ExoGatekeeper
