/-
**`exo-gatekeeper` — nested sequences and choices are flat ones.**

Terms that fail and succeed together, with the same outputs, can be exchanged inside any term: a `Context`
is a term with a hole, one constructor for each place where a term has another one inside.

* `Equivalent.plug` — equivalence goes through every context.
* `reduceSequence_append_eq_ok_iff`, `reduceChoice_append` — the two loops over a list in two parts.
* **`flattening`** — a sequence among the steps of a sequence can be spliced in if it has a step, and a
  choice among the alternatives of a choice always, inside any context. An empty sequence is a step of its
  own: it hands on the fields and drops the checkpoint.
-/

import Exochain.Gatekeeper.Simulation

namespace Exochain.ExoGatekeeper

open Foundation ExoCore

/-! ### Equivalence in context -/

/-- On every input both terms fail, or both succeed with the same fields and the same checkpoint. -/
def Equivalent (term term' : Combinator) : Prop :=
  ∀ input, Alike (· = ·) (reduce term input) (reduce term' input)

/-- A term with a hole. -/
inductive Context where
  | hole
  | sequence (before : List Combinator) (inner : Context) (after : List Combinator)
  | parallel (before : List Combinator) (inner : Context) (after : List Combinator)
  | choice (before : List Combinator) (inner : Context) (after : List Combinator)
  | guard (inner : Context) (predicate : Predicate)
  | transform (inner : Context) (transform : TransformFn)
  | retry (inner : Context) (policy : RetryPolicy)
  | timeout (inner : Context) (duration : Duration)
  | checkpoint (inner : Context) (checkpointId : CheckpointId)

/-- The term with the hole filled. -/
def Context.plug : Context → Combinator → Combinator
  | .hole, term => term
  | .sequence before inner after, term => .sequence (before ++ inner.plug term :: after)
  | .parallel before inner after, term => .parallel (before ++ inner.plug term :: after)
  | .choice before inner after, term => .choice (before ++ inner.plug term :: after)
  | .guard inner predicate, term => .guard (inner.plug term) predicate
  | .transform inner change, term => .transform (inner.plug term) change
  | .retry inner policy, term => .retry (inner.plug term) policy
  | .timeout inner duration, term => .timeout (inner.plug term) duration
  | .checkpoint inner checkpointId, term => .checkpoint (inner.plug term) checkpointId

section Contexts

variable {term term' : Combinator}

theorem equivalent_iff_simulates : Equivalent term term' ↔ Simulates [] term term' :=
  simulates_nil_iff.symm

/-- One term of a list is exchanged. -/
theorem forall₂_exchange (simulates : Simulates [] term term') (before after : List Combinator) :
    List.Forall₂ (Simulates []) (before ++ term :: after) (before ++ term' :: after) := by
  have same : ∀ terms : List Combinator, List.Forall₂ (Simulates []) terms terms := fun terms =>
    List.forall₂_same.mpr fun c _ => simulates_nil_iff.mpr fun _ => alike_eq_iff.mpr fun _ => .rfl
  exact List.rel_append (same before) (.cons simulates (same after))

/-- **Equivalent terms can be exchanged inside any term.** -/
theorem Equivalent.plug (equivalent : Equivalent term term') (context : Context) :
    Equivalent (context.plug term) (context.plug term') := by
  rw [equivalent_iff_simulates] at equivalent ⊢
  induction context with
  | hole => exact equivalent
  | sequence before inner after ih => exact simulates_sequence (forall₂_exchange ih before after)
  | parallel before inner after ih => exact simulates_parallel (forall₂_exchange ih before after)
  | choice before inner after ih => exact simulates_choice (forall₂_exchange ih before after)
  | guard inner predicate ih => exact simulates_guard List.not_mem_nil ih
  | transform inner change ih => exact simulates_transform change ih
  | retry inner policy ih => exact simulates_retry policy ih
  | timeout inner duration ih => exact simulates_timeout duration ih
  | checkpoint inner checkpointId ih => exact simulates_checkpoint checkpointId ih

end Contexts

/-! ### Lists in two parts -/

section Lists

variable {first second mid : List Combinator} {combinators : List Combinator}
  {input : CombinatorInput} {out last : CombinatorOutput}

/-- The number of a step matters for errors only. -/
theorem reduceSequence_shift (i j : ℕ) :
    reduceSequence combinators i input last = .ok out ↔
      reduceSequence combinators j input last = .ok out := by
  induction combinators generalizing i j input last with
  | nil => rw [reduceSequence, reduceSequence]
  | cons c rest ih =>
    rw [reduceSequence_cons_eq_ok_iff, reduceSequence_cons_eq_ok_iff]
    exact exists_congr fun step => and_congr_right fun _ => ih (i + 1) (j + 1)

/-- **The steps of two lists**: the second starts from the output of the first. -/
theorem reduceSequence_append_eq_ok_iff {i : ℕ} (fed : input.fields = last.fields) :
    reduceSequence (first ++ second) i input last = .ok out ↔
      ∃ between, reduceSequence first i input last = .ok between ∧
        reduceSequence second (i + first.length) ⟨between.fields⟩ between = .ok out := by
  induction first generalizing i input last with
  | nil =>
    obtain ⟨fields⟩ := input
    cases fed
    simp [reduceSequence]
  | cons c rest ih =>
    have count : i + 1 + rest.length = i + (c :: rest).length := by
      rw [List.length_cons]
      omega
    rw [List.cons_append, reduceSequence_cons_eq_ok_iff]
    constructor
    · rintro ⟨step, here, others⟩
      obtain ⟨between, earlier, later⟩ := (ih rfl).mp others
      exact ⟨between, reduceSequence_cons_eq_ok_iff.mpr ⟨step, here, earlier⟩, count ▸ later⟩
    · rintro ⟨between, whole, later⟩
      obtain ⟨step, here, earlier⟩ := reduceSequence_cons_eq_ok_iff.mp whole
      exact ⟨step, here, (ih rfl).mpr ⟨between, earlier, count ▸ later⟩⟩

/-- **A list with a step starts afresh**: what the step before put out is replaced. -/
theorem reduceSequence_restart (nonempty : mid ≠ []) (i : ℕ) (last : CombinatorOutput) :
    reduceSequence mid i ⟨last.fields⟩ last = .ok out ↔
      reduceSequence [.sequence mid] i ⟨last.fields⟩ last = .ok out := by
  cases mid with
  | nil => exact absurd rfl nonempty
  | cons c rest =>
    have single : ∀ term, reduceSequence [term] i ⟨last.fields⟩ last = .ok out ↔
        reduce term ⟨last.fields⟩ = .ok out := by
      intro term
      rw [reduceSequence_cons_eq_ok_iff]
      simp [reduceSequence]
    rw [single, reduce_sequence, reduceSequence_cons_eq_ok_iff, reduceSequence_cons_eq_ok_iff]
    exact exists_congr fun step => and_congr_right fun _ => reduceSequence_shift (i + 1) (0 + 1)

/-- The alternatives of two lists: the second is tried where the first fails. -/
theorem reduceChoice_append (first second : List Combinator) (input : CombinatorInput) :
    reduceChoice (first ++ second) input =
      tryCatch (reduceChoice first input) fun _ => reduceChoice second input := by
  induction first with
  | nil =>
    rw [reduceChoice]
    rfl
  | cons c rest ih =>
    rw [List.cons_append, reduceChoice, reduceChoice]
    cases reduce c input with
    | ok found => rfl
    | error e => exact ih

end Lists

/-! ### Flattening -/

section Flattening

variable (pre mid post : List Combinator)

/-- A sequence with a step, among the steps of a sequence. -/
theorem equivalent_sequence {mid : List Combinator} (nonempty : mid ≠ []) :
    Equivalent (.sequence (pre ++ [.sequence mid] ++ post)) (.sequence (pre ++ mid ++ post)) := by
  intro input
  rw [alike_eq_iff]
  intro out
  rw [reduce_sequence, reduce_sequence, reduceSequence_append_eq_ok_iff rfl,
    reduceSequence_append_eq_ok_iff rfl]
  refine exists_congr fun between => and_congr ?_ (reduceSequence_shift _ _)
  rw [reduceSequence_append_eq_ok_iff rfl, reduceSequence_append_eq_ok_iff rfl]
  exact exists_congr fun start => and_congr_right fun _ =>
    (reduceSequence_restart nonempty _ start).symm

/-- A choice among the alternatives of a choice. -/
theorem equivalent_choice :
    Equivalent (.choice (pre ++ [.choice mid] ++ post)) (.choice (pre ++ mid ++ post)) := by
  intro input
  have nested : reduceChoice [.choice mid] input =
      tryCatch (reduceChoice mid input) fun _ => reduceChoice [] input := by
    simp only [reduceChoice, reduce_choice]
    cases reduceChoice mid input with
    | ok found => rfl
    | error e => rfl
  rw [reduce_choice, reduce_choice]
  simp only [reduceChoice_append, nested]
  cases reduceChoice pre input with
  | ok found => exact .ok rfl
  | error e =>
    cases reduceChoice mid input with
    | ok found => exact .ok rfl
    | error e' =>
      rw [reduceChoice]
      exact alike_eq_iff.mpr fun out => .rfl

/-- **Sequences and choices flatten, inside any term**: a sequence with a step can be spliced into the
sequence around it, and a choice into the choice around it. -/
theorem flattening (context : Context) :
    (mid ≠ [] →
      Equivalent (context.plug (.sequence (pre ++ [.sequence mid] ++ post)))
        (context.plug (.sequence (pre ++ mid ++ post)))) ∧
    Equivalent (context.plug (.choice (pre ++ [.choice mid] ++ post)))
      (context.plug (.choice (pre ++ mid ++ post))) :=
  ⟨fun nonempty => (equivalent_sequence pre post nonempty).plug context,
    (equivalent_choice pre mid post).plug context⟩

end Flattening

/-- Below a retried branch, between two steps. -/
theorem flattens_below_retry :
    Equivalent
      (.parallel [.identity, .retry (.sequence [.identity, .sequence [.choice [], .identity], .identity])
        ⟨2, 0⟩])
      (.parallel [.identity, .retry (.sequence [.identity, .choice [], .identity, .identity])
        ⟨2, 0⟩]) :=
  (flattening [.identity] [.choice [], .identity] [.identity]
    (.parallel [.identity] (.retry .hole ⟨2, 0⟩) [])).1 (by simp)

/-- Without a step, a sequence drops the checkpoint of the step before. -/
example : ¬ Equivalent (.sequence ([.checkpoint .identity ⟨"cp"⟩] ++ [.sequence []] ++ []))
    (.sequence ([.checkpoint .identity ⟨"cp"⟩] ++ [] ++ [])) := by
  intro equivalent
  have checkpoints := alike_eq_iff.mp (equivalent ⟨∅⟩)
    { fields := ∅, checkpoint := some ⟨"cp"⟩ }
  simp [reduce, reduceSequence, CombinatorOutput.fromInput, bind, Except.bind] at checkpoints

end Exochain.ExoGatekeeper
