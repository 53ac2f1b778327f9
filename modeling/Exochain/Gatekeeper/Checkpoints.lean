/-
**`exo-gatekeeper` — the checkpoint of an output.**

A reduction completes the `Checkpoint` terms on its path in some order: the steps of a `Sequence` in
order, all branches of a `Parallel`, the chosen alternative of a `Choice`, a `Checkpoint` after what
it wraps. `completions` lists them. The merge of a `Parallel` keeps the checkpoint of an earlier
branch; the loop of a `Sequence` replaces the output of the step before, checkpoint included. So each
completion is marked with whether it lies in the last step of every `Sequence` around it.

* `reduce_checkpoint_eq` — **the output names the last completion that is so marked.**
* **`checkpoints_kept_iff`** — when that is the last one completed, and when a further `Identity`
  leaves the output of a `Sequence` alone.
* `checkpoint_lost` — a checkpoint lost to the `Identity` after it.
-/

import Exochain.Gatekeeper.Combinator

set_option linter.unusedSectionVars false

namespace Exochain.ExoGatekeeper

open Foundation ExoCore

/-! ### The checkpoints on the path of a reduction -/

/-- A checkpoint that was completed, and whether it lies in the last step of every sequence around
it. -/
structure Completion where
  id : CheckpointId
  final : Bool
  deriving DecidableEq, Repr

/-- A completion in a step that is not the last one. -/
def Completion.followed (completion : Completion) : Completion := { completion with final := false }

mutual

/-- The checkpoints a successful reduction completes, in order. -/
def completions : Combinator → CombinatorInput → List Completion
  | .identity, _ => []
  | .sequence combinators, input => sequenceCompletions combinators input
  | .parallel combinators, input => parallelCompletions combinators input
  | .choice combinators, input => choiceCompletions combinators input
  | .guard inner _, input => completions inner input
  | .transform inner _, input => completions inner input
  | .retry inner _, input => completions inner input
  | .timeout inner _, input => completions inner input
  | .checkpoint inner checkpointId, input => completions inner input ++ [⟨checkpointId, true⟩]

/-- Those of the steps of a sequence. -/
def sequenceCompletions : List Combinator → CombinatorInput → List Completion
  | [], _ => []
  | c :: rest, input =>
    match reduce c input with
    | .ok output =>
      (if rest.isEmpty then completions c input
        else (completions c input).map Completion.followed) ++
        sequenceCompletions rest ⟨output.fields⟩
    | .error _ => []

/-- Those of the branches of a parallel. -/
def parallelCompletions : List Combinator → CombinatorInput → List Completion
  | [], _ => []
  | c :: rest, input => completions c input ++ parallelCompletions rest input

/-- Those of the alternative that succeeds. -/
def choiceCompletions : List Combinator → CombinatorInput → List Completion
  | [], _ => []
  | c :: rest, input =>
    match reduce c input with
    | .ok _ => completions c input
    | .error _ => choiceCompletions rest input

end

/-! ### The checkpoint of the output -/

/-- The name of the last completion that no step follows. -/
def lastFinal (path : List Completion) : Option CheckpointId :=
  (path.filter Completion.final).getLast?.map Completion.id

theorem lastFinal_append (path more : List Completion) :
    lastFinal (path ++ more) = (lastFinal more).or (lastFinal path) := by
  unfold lastFinal
  rw [List.filter_append, List.getLast?_append]
  cases (more.filter Completion.final).getLast? with
  | none => rfl
  | some completion => rfl

theorem lastFinal_followed (path : List Completion) :
    lastFinal (path.map Completion.followed) = none := by
  have dropped : (path.map Completion.followed).filter Completion.final = [] := by
    rw [List.filter_eq_nil_iff]
    intro completion member
    obtain ⟨before, _, rfl⟩ := List.mem_map.mp member
    exact Bool.false_ne_true
  unfold lastFinal
  rw [dropped]
  rfl

section Reports

variable {combinators : List Combinator} {input : CombinatorInput} {out : CombinatorOutput}

/-- Every successful reduction of the term reports the last completion that no step follows. -/
def Combinator.Reporting (term : Combinator) : Prop :=
  ∀ {input out}, reduce term input = .ok out → out.checkpoint = lastFinal (completions term input)

theorem checkpoint_of_reduceSequence (reporting : ∀ c ∈ combinators, c.Reporting)
    (nonempty : combinators ≠ []) {i : ℕ} {last : CombinatorOutput}
    (reduced : reduceSequence combinators i input last = .ok out) :
    out.checkpoint = lastFinal (sequenceCompletions combinators input) := by
  induction combinators generalizing i input last with
  | nil => exact absurd rfl nonempty
  | cons c rest ih =>
    obtain ⟨mid, first, others⟩ := reduceSequence_cons_eq_ok_iff.mp reduced
    obtain ⟨reportingFirst, reportingRest⟩ := List.forall_mem_cons.mp reporting
    rw [sequenceCompletions, first]
    cases rest with
    | nil =>
      rw [reduceSequence] at others
      cases others
      simp only [List.isEmpty_nil, if_true, sequenceCompletions, List.append_nil]
      exact reportingFirst first
    | cons next rest =>
      have later := ih reportingRest (by simp) others
      simp only [List.isEmpty_cons, Bool.false_eq_true, if_false]
      rw [lastFinal_append, lastFinal_followed, Option.or_none]
      exact later

theorem checkpoint_of_reduceParallel (reporting : ∀ c ∈ combinators, c.Reporting) {i : ℕ}
    {merged : CombinatorOutput} (reduced : reduceParallel combinators i input merged = .ok out) :
    out.checkpoint = (lastFinal (parallelCompletions combinators input)).or merged.checkpoint := by
  induction combinators generalizing i merged with
  | nil =>
    rw [reduceParallel] at reduced
    cases reduced
    rfl
  | cons c rest ih =>
    obtain ⟨branch, first, others⟩ := reduceParallel_cons_eq_ok_iff.mp reduced
    obtain ⟨reportingFirst, reportingRest⟩ := List.forall_mem_cons.mp reporting
    rw [ih reportingRest others, CombinatorOutput.merge_checkpoint, reportingFirst first,
      parallelCompletions, lastFinal_append, Option.or_assoc]

theorem checkpoint_of_reduceChoice (reporting : ∀ c ∈ combinators, c.Reporting)
    (reduced : reduceChoice combinators input = .ok out) :
    out.checkpoint = lastFinal (choiceCompletions combinators input) := by
  induction combinators with
  | nil =>
    rw [reduceChoice] at reduced
    cases reduced
  | cons c rest ih =>
    obtain ⟨reportingFirst, reportingRest⟩ := List.forall_mem_cons.mp reporting
    rw [choiceCompletions]
    rcases reduceChoice_cons_eq_ok_iff.mp reduced with first | ⟨⟨e, failed⟩, others⟩
    · rw [first]
      exact reportingFirst first
    · rw [failed]
      exact ih reportingRest others

/-- **The output names the last completion that no step follows.** -/
theorem reduce_checkpoint_eq (term : Combinator) : term.Reporting := by
  induction term using Combinator.induction with
  | identity =>
    intro input out reduced
    rw [reduce_identity] at reduced
    cases reduced
    rw [completions]
    rfl
  | sequence combinators ih =>
    intro input out reduced
    rw [reduce_sequence] at reduced
    rw [completions]
    by_cases nonempty : combinators = []
    · subst nonempty
      rw [reduceSequence] at reduced
      cases reduced
      rw [sequenceCompletions]
      rfl
    · exact checkpoint_of_reduceSequence ih nonempty reduced
  | parallel combinators ih =>
    intro input out reduced
    rw [reduce_parallel] at reduced
    rw [completions, checkpoint_of_reduceParallel ih reduced, CombinatorOutput.fromInput_checkpoint,
      Option.or_none]
  | choice combinators ih =>
    intro input out reduced
    rw [reduce_choice] at reduced
    rw [completions]
    exact checkpoint_of_reduceChoice ih reduced
  | guard inner predicate ih =>
    intro input out reduced
    rw [completions]
    exact ih (reduce_guard_eq_ok_iff.mp reduced).2
  | transform inner transform ih =>
    intro input out reduced
    obtain ⟨found, within, rfl⟩ := reduce_transform_eq_ok_iff.mp reduced
    rw [completions, CombinatorOutput.set_checkpoint]
    exact ih within
  | retry inner policy ih =>
    intro input out reduced
    obtain ⟨found, within, rfl⟩ := reduce_retry_eq_ok_iff.mp reduced
    rw [completions, CombinatorOutput.set_checkpoint]
    exact ih within
  | timeout inner duration ih =>
    intro input out reduced
    obtain ⟨found, within, rfl⟩ := reduce_timeout_eq_ok_iff.mp reduced
    rw [completions, CombinatorOutput.set_checkpoint]
    exact ih within
  | checkpoint inner checkpointId ih =>
    intro input out reduced
    obtain ⟨found, within, rfl⟩ := reduce_checkpoint_eq_ok_iff.mp reduced
    rw [completions, lastFinal_append]
    rfl

/-! ### A further step -/

/-- A further `Identity` keeps the fields and clears the checkpoint. -/
theorem reduceSequence_append_identity {i : ℕ} {last : CombinatorOutput}
    (fed : input.fields = last.fields)
    (reduced : reduceSequence combinators i input last = .ok out) :
    reduceSequence (combinators ++ [.identity]) i input last = .ok ⟨out.fields, none⟩ := by
  induction combinators generalizing i input last with
  | nil =>
    rw [reduceSequence] at reduced
    cases reduced
    refine reduceSequence_cons_eq_ok_iff.mpr ⟨_, reduce_identity input, ?_⟩
    rw [reduceSequence, ← fed]
    rfl
  | cons c rest ih =>
    obtain ⟨mid, first, others⟩ := reduceSequence_cons_eq_ok_iff.mp reduced
    exact reduceSequence_cons_eq_ok_iff.mpr ⟨mid, first, ih rfl others⟩

theorem reduce_append_identity (reduced : reduce (.sequence combinators) input = .ok out) :
    reduce (.sequence (combinators ++ [.identity])) input = .ok ⟨out.fields, none⟩ := by
  rw [reduce_sequence] at reduced ⊢
  exact reduceSequence_append_identity rfl reduced

end Reports

/-! ### When no checkpoint is lost -/

/-- The output has a checkpoint exactly where one was completed, and it names the last one. -/
def NamesLast (out : CombinatorOutput) (path : List Completion) : Prop :=
  (out.checkpoint.isSome = true ↔ path ≠ []) ∧
    ∀ last, path.getLast? = some last → out.checkpoint = some last.id

/-- Whenever something was completed, the last completion that no step follows has the name of the
last one. -/
def LastSurvives (path : List Completion) : Prop :=
  ∀ last, path.getLast? = some last →
    ∃ survivor, (path.filter Completion.final).getLast? = some survivor ∧ survivor.id = last.id

theorem namesLast_iff {out : CombinatorOutput} {path : List Completion}
    (reports : out.checkpoint = lastFinal path) : NamesLast out path ↔ LastSurvives path := by
  constructor
  · rintro ⟨_, names⟩ last isLast
    have named := names last isLast
    rw [reports, lastFinal, Option.map_eq_some_iff] at named
    exact named
  · intro survives
    have names : ∀ last, path.getLast? = some last → out.checkpoint = some last.id := by
      intro last isLast
      rw [reports, lastFinal, Option.map_eq_some_iff]
      exact survives last isLast
    refine ⟨?_, names⟩
    cases isLast : path.getLast? with
    | none =>
      have empty := List.getLast?_eq_none_iff.mp isLast
      rw [reports, empty]
      exact ⟨fun reported => absurd reported (by decide), fun nonempty => absurd rfl nonempty⟩
    | some last =>
      rw [names last isLast]
      refine ⟨fun _ empty => ?_, fun _ => rfl⟩
      rw [empty] at isLast
      cases isLast

/-- **When no checkpoint is lost.** A successful reduction names the last checkpoint completed, and
a `Sequence` has the same output with a further `Identity`, exactly where the last completion that no
step follows has the name of the last one and a `Sequence` completed none at all. -/
theorem checkpoints_kept_iff (term : Combinator) (input : CombinatorInput) (out : CombinatorOutput)
    (reduced : reduce term input = .ok out) :
    (NamesLast out (completions term input) ∧
      ∀ steps, term = .sequence steps →
        reduce (.sequence (steps ++ [.identity])) input = .ok out) ↔
    (LastSurvives (completions term input) ∧
      ∀ steps, term = .sequence steps → completions term input = []) := by
  have reports := reduce_checkpoint_eq term reduced
  rw [namesLast_iff reports]
  refine and_congr_right fun survives => forall₂_congr fun steps isSequence => ?_
  subst isSequence
  rw [reduce_append_identity reduced, Except.ok.injEq]
  constructor
  · intro same
    have cleared : lastFinal (completions (.sequence steps) input) = none := by
      rw [← reports, ← same]
    -- the last completion would survive, but nothing does
    cases isLast : (completions (.sequence steps) input).getLast? with
    | none => exact List.getLast?_eq_none_iff.mp isLast
    | some last =>
      obtain ⟨survivor, found, _⟩ := survives last isLast
      rw [lastFinal, found] at cleared
      cases cleared
  · intro empty
    have unset : out.checkpoint = none := by
      rw [reports, empty]
      rfl
    rw [← unset]

/-- A checkpoint around the identity. -/
def marked : Combinator := .checkpoint .identity ⟨"c"⟩

theorem reduce_marked : reduce marked ⟨∅⟩ = .ok ⟨∅, some ⟨"c"⟩⟩ :=
  reduce_checkpoint_eq_ok_iff.mpr ⟨_, reduce_identity ⟨∅⟩, rfl⟩

/-- A checkpoint around a sequence that loses one and keeps another, in a branch. -/
def nested : Combinator :=
  .checkpoint (.sequence [marked, .parallel [.checkpoint .identity ⟨"d"⟩, .identity]]) ⟨"e"⟩

/-- A record with one field. -/
def oneField : CombinatorInput := ⟨(∅ : BTreeMap String String).insert "k" "v"⟩

theorem completions_nested :
    completions nested oneField = [⟨⟨"c"⟩, false⟩, ⟨⟨"d"⟩, true⟩, ⟨⟨"e"⟩, true⟩] :=
  rfl

/-- The output of the nested term names the last of its three checkpoints. -/
theorem nested_named :
    reduce nested oneField = .ok ⟨oneField.fields, some ⟨"e"⟩⟩ ∧
      NamesLast ⟨oneField.fields, some ⟨"e"⟩⟩ (completions nested oneField) := by
  have reduced : reduce nested oneField = .ok ⟨oneField.fields, some ⟨"e"⟩⟩ := rfl
  refine ⟨reduced, ((checkpoints_kept_iff nested oneField _ reduced).mpr ⟨?_, ?_⟩).1⟩
  · rw [completions_nested]
    intro last isLast
    cases isLast
    exact ⟨_, rfl, rfl⟩
  · intro steps isSequence
    cases isSequence

/-- A completed checkpoint is lost to the identity after it, which is a further `Identity` in a
`Sequence`. -/
theorem checkpoint_lost :
    ∃ out, reduce (.sequence [marked, .identity]) ⟨∅⟩ = .ok out ∧
      ¬ NamesLast out (completions (.sequence [marked, .identity]) ⟨∅⟩) ∧
      reduce (.sequence [marked]) ⟨∅⟩ ≠ .ok out := by
  have lone : reduce (.sequence [marked]) ⟨∅⟩ = .ok ⟨∅, some ⟨"c"⟩⟩ := by
    rw [reduce_sequence]
    refine reduceSequence_cons_eq_ok_iff.mpr ⟨_, reduce_marked, ?_⟩
    rw [reduceSequence]
  refine ⟨⟨∅, none⟩, reduce_append_identity lone, ?_, ?_⟩
  · rintro ⟨_, names⟩
    have named := names ⟨⟨"c"⟩, false⟩ rfl
    cases named
  · rw [lone]
    intro same
    cases same

end Exochain.ExoGatekeeper
