/-
**Runs of a state machine.**

A state machine is a step function; a run is a list of operations applied from a start state. What
is claimed of a run is of one of three kinds, each stated over the prefixes of its operation list:

* `Throughout P` — every state of the run satisfies `P`;
* `Along ok` — every operation of the run meets `ok` at the state it is applied to;
* `Evolves R` — every earlier state of the run is related by `R` to every later one.

The rules reduce each to one step. `throughout_of_along` is the invariant rule. `evolves_iff_along`
turns a two-state law into a law of single steps. `throughout_iff_along_within` is the exact form: when
a step keeps `P` precisely if it meets `ok`, the runs that stay inside `P` are precisely the runs
that meet `ok`; `throughout_iff_along` is the case without a condition on the steps.

`unlessStopped` is the step function of operations that may not return; `of_run_unlessStopped` is the
invariant rule for the runs that do.

`run_relates_filter` compares a run with the same run from another state, some of its steps left out.
`answers` lists what the steps of a run answer, and `answers_filter` is the rule for
**noninterference**: the steps that are left out do not show in the answers to the others.

`Threaded` is the shape that logs have: each entry is linked to what the entry before it hands on.

`Acyclic` and its criteria, a rank, a fresh sink and an edge whose end does not lead back, serve the
machines whose state is a graph. Finitely many elements of an acyclic relation have a first one
(`Acyclic.exists_first`).
-/

import Mathlib

namespace Foundation

section Run

variable {State Op : Type*} (step : State → Op → State)

/-- The state after a list of operations. -/
def run (start : State) (ops : List Op) : State := ops.foldl step start

@[simp] theorem run_nil (start : State) : run step start [] = start := rfl

@[simp] theorem run_cons (start : State) (op : Op) (ops : List Op) :
    run step start (op :: ops) = run step (step start op) ops := rfl

theorem run_append (start : State) (first second : List Op) :
    run step start (first ++ second) = run step (run step start first) second :=
  List.foldl_append

/-- Every state of the run, the first and the last included, satisfies `P`. -/
def Throughout (P : State → Prop) (start : State) (ops : List Op) : Prop :=
  ∀ before after, ops = before ++ after → P (run step start before)

/-- Every operation of the run meets `ok` at the state it is applied to. -/
def Along (ok : State → Op → Prop) (start : State) (ops : List Op) : Prop :=
  ∀ before op after, ops = before ++ op :: after → ok (run step start before) op

/-- Every earlier state of the run is related to every later one. -/
def Evolves (R : State → State → Prop) (start : State) (ops : List Op) : Prop :=
  ∀ before between after, ops = before ++ (between ++ after) →
    R (run step start before) (run step start (before ++ between))

variable {step}

theorem throughout_nil_iff {P : State → Prop} {start : State} :
    Throughout step P start [] ↔ P start := by
  constructor
  · exact fun all => all [] [] rfl
  · intro here before after split
    obtain ⟨rfl, -⟩ := List.append_eq_nil_iff.mp split.symm
    exact here

theorem throughout_cons_iff {P : State → Prop} {start : State} {op : Op} {ops : List Op} :
    Throughout step P start (op :: ops) ↔ P start ∧ Throughout step P (step start op) ops := by
  constructor
  · intro all
    refine ⟨all [] _ rfl, fun before after split => ?_⟩
    exact all (op :: before) after (by rw [split, List.cons_append])
  · rintro ⟨here, rest⟩ before after split
    cases before with
    | nil => exact here
    | cons first before =>
      rw [List.cons_append, List.cons.injEq] at split
      obtain ⟨rfl, split⟩ := split
      exact rest before after split

theorem Throughout.head {P : State → Prop} {start : State} {ops : List Op}
    (all : Throughout step P start ops) : P start := all [] ops rfl

/-- The last state of a run is one of its states. -/
theorem Throughout.last {P : State → Prop} {start : State} {ops : List Op}
    (all : Throughout step P start ops) : P (run step start ops) :=
  all ops [] (List.append_nil ops).symm

/-- A part of a run, from the state where it begins. -/
theorem Throughout.part {P : State → Prop} {start : State} {before between after : List Op}
    (all : Throughout step P start (before ++ (between ++ after))) :
    Throughout step P (run step start before) between := by
  intro first second split
  have here := all (before ++ first) (second ++ after) (by simp [split])
  rwa [run_append] at here

theorem along_nil {ok : State → Op → Prop} {start : State} : Along step ok start [] := by
  intro before op after split
  simp at split

theorem along_cons_iff {ok : State → Op → Prop} {start : State} {op : Op} {ops : List Op} :
    Along step ok start (op :: ops) ↔ ok start op ∧ Along step ok (step start op) ops := by
  constructor
  · intro all
    refine ⟨all [] op ops rfl, fun before next after split => ?_⟩
    exact all (op :: before) next after (by rw [split, List.cons_append])
  · rintro ⟨here, rest⟩ before next after split
    cases before with
    | nil =>
      rw [List.nil_append, List.cons.injEq] at split
      obtain ⟨rfl, -⟩ := split
      exact here
    | cons first before =>
      rw [List.cons_append, List.cons.injEq] at split
      obtain ⟨rfl, split⟩ := split
      exact rest before next after split

/-- A condition every step meets is met along every run. -/
theorem along_of_forall {ok : State → Op → Prop} (all : ∀ state op, ok state op) (start : State)
    (ops : List Op) : Along step ok start ops :=
  fun before op _ _ => all (run step start before) op

/-- A decidable condition is decidable along a run. -/
instance decidableAlong {ok : State → Op → Prop} [∀ state op, Decidable (ok state op)] :
    ∀ (start : State) (ops : List Op), Decidable (Along step ok start ops)
  | _, [] => .isTrue along_nil
  | start, op :: ops =>
    have : Decidable (Along step ok (step start op) ops) := decidableAlong (step start op) ops
    decidable_of_iff _ along_cons_iff.symm

/-- **The invariant rule.** What the start satisfies and every admissible step preserves holds in
every state of every admissible run. -/
theorem throughout_of_along {P : State → Prop} {ok : State → Op → Prop}
    (preserved : ∀ state op, P state → ok state op → P (step state op)) {start : State}
    {ops : List Op} (here : P start) (admissible : Along step ok start ops) :
    Throughout step P start ops := by
  induction ops generalizing start with
  | nil => exact throughout_nil_iff.mpr here
  | cons op ops ih =>
    obtain ⟨first, rest⟩ := along_cons_iff.mp admissible
    exact throughout_cons_iff.mpr ⟨here, ih (preserved start op here first) rest⟩

/-- The invariant rule when every step is admissible. -/
theorem throughout_of_preserved {P : State → Prop}
    (preserved : ∀ state op, P state → P (step state op)) {start : State} (here : P start)
    (ops : List Op) : Throughout step P start ops :=
  have admissible : Along step (fun _ _ => True) start ops :=
    along_of_forall (fun _ _ => trivial) start ops
  throughout_of_along (fun state op holds _ => preserved state op holds) here admissible

/-- **The exact rule.** Under an invariant `I` that admissible steps keep, if an admissible step from
inside `P` stays in `P` precisely when it meets `ok`, then an admissible run stays in `P` precisely when
it meets `ok` throughout. -/
theorem throughout_iff_along_within {I P : State → Prop} {admissible ok : State → Op → Prop}
    (invariant : ∀ state op, I state → admissible state op → I (step state op))
    (exact_step : ∀ state op, I state → admissible state op → P state →
      (P (step state op) ↔ ok state op))
    {start : State} {ops : List Op} (base : I start) (here : P start)
    (within : Along step admissible start ops) :
    Throughout step P start ops ↔ Along step ok start ops := by
  induction ops generalizing start with
  | nil => exact ⟨fun _ => along_nil, fun _ => throughout_nil_iff.mpr here⟩
  | cons op ops ih =>
    obtain ⟨first, later⟩ := along_cons_iff.mp within
    rw [throughout_cons_iff, along_cons_iff]
    constructor
    · rintro ⟨_, rest⟩
      refine ⟨(exact_step start op base first here).mp rest.head, ?_⟩
      exact (ih (invariant start op base first) rest.head later).mp rest
    · rintro ⟨meets, rest⟩
      have next := (exact_step start op base first here).mpr meets
      exact ⟨here, (ih (invariant start op base first) next later).mpr rest⟩

/-- The exact rule when every step is admissible. -/
theorem throughout_iff_along {I P : State → Prop} {ok : State → Op → Prop}
    (invariant : ∀ state op, I state → I (step state op))
    (exact_step : ∀ state op, I state → P state → (P (step state op) ↔ ok state op))
    {start : State} {ops : List Op} (base : I start) (here : P start) :
    Throughout step P start ops ↔ Along step ok start ops :=
  have within : Along step (fun _ _ => True) start ops :=
    along_of_forall (fun _ _ => trivial) start ops
  throughout_iff_along_within (fun state op holds _ => invariant state op holds)
    (fun state op holds _ => exact_step state op holds) base here within

/-- **The exact rule with a stronger invariant.** If `I` implies `P`, a step from inside `I` stays in
`P` precisely when it meets `ok`, and a step that meets `ok` stays in `I`, then a run from inside `I` stays
in `P` precisely when it meets `ok` throughout. -/
theorem throughout_iff_along_of_stronger {I P : State → Prop} {ok : State → Op → Prop}
    (implies : ∀ state, I state → P state)
    (exact_step : ∀ state op, I state → (P (step state op) ↔ ok state op))
    (keeps : ∀ state op, I state → ok state op → I (step state op))
    {start : State} {ops : List Op} (base : I start) :
    Throughout step P start ops ↔ Along step ok start ops := by
  induction ops generalizing start with
  | nil => exact ⟨fun _ => along_nil, fun _ => throughout_nil_iff.mpr (implies start base)⟩
  | cons op ops ih =>
    rw [throughout_cons_iff, along_cons_iff, and_iff_right (implies start base)]
    constructor
    · intro rest
      have meets := (exact_step start op base).mp rest.head
      exact ⟨meets, (ih (keeps start op base meets)).mp rest⟩
    · rintro ⟨meets, rest⟩
      exact (ih (keeps start op base meets)).mpr rest

/-- **A two-state law of a run is a law of its single steps**, for a reflexive and transitive
relation. -/
theorem evolves_iff_along {R : State → State → Prop} (refl : ∀ state, R state state)
    (trans : ∀ first second third, R first second → R second third → R first third)
    {start : State} {ops : List Op} :
    Evolves step R start ops ↔ Along step (fun state op => R state (step state op)) start ops := by
  constructor
  · intro all before op after split
    have related := all before [op] after split
    rwa [run_append] at related
  · intro all before between after split
    subst split
    -- induction on the operations between the two states, from the later end
    induction between using List.reverseRecOn generalizing after with
    | nil => rw [List.append_nil]; exact refl _
    | append_singleton between op ih =>
      have earlier := ih (op :: after) (by simpa using all)
      have last := all (before ++ between) op after (by simp)
      refine trans _ _ _ earlier ?_
      rw [← List.append_assoc, run_append step start (before ++ between) [op]]
      exact last

/-- **Two runs side by side**: what every step keeps between two states, and a step that is left out on
the right too, holds after a run and the run with those steps left out. -/
theorem run_relates_filter {R : State → State → Prop} {keep : Op → Bool}
    (kept : ∀ state other op, keep op = true → R state other → R (step state op) (step other op))
    (skipped : ∀ state other op, keep op = false → R state other → R (step state op) other)
    {start other : State} (here : R start other) (ops : List Op) :
    R (run step start ops) (run step other (ops.filter keep)) := by
  induction ops generalizing start other with
  | nil => exact here
  | cons op ops ih =>
    cases included : keep op with
    | true =>
      rw [List.filter_cons_of_pos included, run_cons, run_cons]
      exact ih (kept start other op included here)
    | false =>
      rw [List.filter_cons_of_neg (by simp [included]), run_cons]
      exact ih (skipped start other op included here)

/-- What every step keeps between two states holds after two runs of the same operations. -/
theorem run_relates {R : State → State → Prop}
    (kept : ∀ state other op, R state other → R (step state op) (step other op))
    {start other : State} (here : R start other) (ops : List Op) :
    R (run step start ops) (run step other ops) := by
  induction ops generalizing start other with
  | nil => exact here
  | cons op ops ih => exact ih (kept start other op here)

end Run

/-! ### Operations that may not return -/

section Stopping

variable {State Op : Type*} (perform : State → Op → Option State)

/-- The state after an operation, unless it or one before it does not return. -/
def unlessStopped (state : Option State) (op : Op) : Option State :=
  state.bind fun state => perform state op

variable {perform}

/-- After an operation that does not return none is made. -/
theorem run_unlessStopped_none (ops : List Op) : run (unlessStopped perform) none ops = none := by
  induction ops with
  | nil => rfl
  | cons op ops ih => exact ih

/-- A run returns if its first operation does, and the others from there. -/
theorem run_unlessStopped_cons_iff {start last : State} {op : Op} {ops : List Op} :
    run (unlessStopped perform) (some start) (op :: ops) = some last ↔
      ∃ next, perform start op = some next ∧
        run (unlessStopped perform) (some next) ops = some last := by
  rw [run_cons]
  show run (unlessStopped perform) (perform start op) ops = some last ↔ _
  cases done : perform start op with
  | none =>
    rw [run_unlessStopped_none]
    exact iff_of_false (fun returned => nomatch returned) fun ⟨_, returned, _⟩ => nomatch returned
  | some next => exact ⟨fun rest => ⟨next, rfl, rest⟩, fun ⟨_, same, rest⟩ => by cases same; exact rest⟩

/-- **The invariant rule for runs that return**: what every operation of a kind keeps, where it returns, holds
after a run of such operations. -/
theorem of_run_unlessStopped {P : State → Prop} {ok : Op → Prop}
    (kept : ∀ state op after, P state → ok op → perform state op = some after → P after)
    {start last : State} {ops : List Op} (here : P start) (all : ∀ op ∈ ops, ok op)
    (reached : run (unlessStopped perform) (some start) ops = some last) : P last := by
  induction ops generalizing start with
  | nil =>
    cases reached
    exact here
  | cons op ops ih =>
    obtain ⟨first, others⟩ := List.forall_mem_cons.mp all
    obtain ⟨next, done, rest⟩ := run_unlessStopped_cons_iff.mp reached
    exact ih (kept start op next here first done) others rest

end Stopping

/-! ### Answers -/

section Answers

variable {State Op Answer : Type*} (step : State → Op → Answer × State)

/-- The answers of a run, each beside the operation it is an answer to. -/
def answers : State → List Op → List (Op × Answer)
  | _, [] => []
  | state, op :: ops => (op, (step state op).1) :: answers (step state op).2 ops

variable {step}

/-- The answers of a longer run: those of its first part, then those from the state reached. -/
theorem answers_append (start : State) (first second : List Op) :
    answers step start (first ++ second) = answers step start first ++
      answers step (run (fun state op => (step state op).2) start first) second := by
  induction first generalizing start with
  | nil => rfl
  | cons op first ih => rw [List.cons_append, answers, answers, ih, run_cons, List.cons_append]

/-- **Noninterference.** If the operations left out keep the relation with a run that does not take
them, and the others keep it and get the same answer on both sides, the answers to the others are those
they get on their own. -/
theorem answers_filter {R : State → State → Prop} {keep : Op → Bool}
    (kept : ∀ state other op, keep op = true → R state other →
      (step state op).1 = (step other op).1 ∧ R (step state op).2 (step other op).2)
    (skipped : ∀ state other op, keep op = false → R state other → R (step state op).2 other)
    {start other : State} (here : R start other) (ops : List Op) :
    (answers step start ops).filter (fun answered => keep answered.1) =
      answers step other (ops.filter keep) := by
  induction ops generalizing start other with
  | nil => rfl
  | cons op ops ih =>
    rw [answers, List.filter_cons, List.filter_cons]
    cases included : keep op with
    | true =>
      obtain ⟨same, next⟩ := kept start other op included here
      rw [if_pos rfl, if_pos rfl, answers, same, ih next]
    | false =>
      rw [if_neg Bool.false_ne_true, if_neg Bool.false_ne_true,
        ih (skipped start other op included here)]

end Answers

/-! ### Threaded lists -/

section Threaded

variable {σ α : Type*} (link : σ → α → Prop) (next : α → σ)

/-- Each entry is linked to what its predecessor hands on, the first one to `start`. -/
def Threaded : σ → List α → Prop
  | _, [] => True
  | start, entry :: rest => link start entry ∧ Threaded (next entry) rest

/-- What the last entry hands on; `start` if there is none. -/
def handedOn (start : σ) (entries : List α) : σ := (entries.getLast?.map next).getD start

variable {link next}

@[simp] theorem handedOn_nil (start : σ) : handedOn next start [] = start := rfl

@[simp] theorem handedOn_concat (start : σ) (entries : List α) (entry : α) :
    handedOn next start (entries ++ [entry]) = next entry := by
  simp [handedOn]

theorem handedOn_cons (start : σ) (entry : α) (entries : List α) :
    handedOn next start (entry :: entries) = handedOn next (next entry) entries := by
  induction entries using List.reverseRecOn with
  | nil => rfl
  | append_singleton entries last _ =>
    rw [← List.cons_append, handedOn_concat, handedOn_concat]

/-- A list that hands on something else than the start has a last entry. -/
theorem exists_concat_of_handedOn_ne {start : σ} {entries : List α}
    (moved : handedOn next start entries ≠ start) :
    ∃ earlier last, entries = earlier ++ [last] ∧ next last = handedOn next start entries := by
  induction entries using List.reverseRecOn with
  | nil => exact absurd rfl moved
  | append_singleton earlier last _ => exact ⟨earlier, last, rfl, (handedOn_concat _ _ _).symm⟩

/-- A list is threaded when its two parts are, the second from what the first hands on. -/
theorem threaded_append_iff {start : σ} {first second : List α} :
    Threaded link next start (first ++ second) ↔
      Threaded link next start first ∧ Threaded link next (handedOn next start first) second := by
  induction first generalizing start with
  | nil => simp [Threaded]
  | cons entry first ih =>
    rw [List.cons_append, Threaded, Threaded, ih, handedOn_cons, and_assoc]

/-- **One more entry** keeps the list threaded if it is linked to what the list hands on. -/
theorem threaded_concat_iff {start : σ} {entries : List α} {entry : α} :
    Threaded link next start (entries ++ [entry]) ↔
      Threaded link next start entries ∧ link (handedOn next start entries) entry := by
  rw [threaded_append_iff, Threaded, Threaded, and_true]

/-- A list is threaded when each entry is linked to what the entries before it hand on. -/
theorem threaded_iff_forall_getElem? {start : σ} {entries : List α} :
    Threaded link next start entries ↔
      ∀ (index : ℕ) (entry : α), entries[index]? = some entry →
        link (handedOn next start (entries.take index)) entry := by
  induction entries generalizing start with
  | nil => simp [Threaded]
  | cons first rest ih =>
    rw [Threaded, ih]
    constructor
    · rintro ⟨here, later⟩ index entry found
      cases index with
      | zero =>
        cases found
        exact here
      | succ index =>
        rw [List.take_succ_cons, handedOn_cons]
        exact later index entry found
    · intro all
      refine ⟨all 0 first rfl, fun index entry found => ?_⟩
      have linked := all (index + 1) entry found
      rwa [List.take_succ_cons, handedOn_cons] at linked

/-- What is handed on to the entry after an index. -/
theorem handedOn_take_succ (start : σ) {entries : List α} {index : ℕ}
    (inside : index < entries.length) :
    handedOn next start (entries.take (index + 1)) = (entries.map next).getD index start := by
  rw [List.take_succ_eq_append_getElem inside, handedOn_concat, List.getD_eq_getElem?_getD,
    List.getElem?_map, List.getElem?_eq_getElem inside]
  rfl

end Threaded

/-! ### Acyclic relations -/

section Acyclic

variable {α : Type*}

/-- No element reaches itself by one or more steps. -/
def Acyclic (r : α → α → Prop) : Prop := ∀ x, ¬ Relation.TransGen r x x

/-- A relation that increases a rank is acyclic. -/
theorem Acyclic.of_rank {β : Type*} [Preorder β] {r : α → α → Prop} (rank : α → β)
    (increases : ∀ x y, r x y → rank x < rank y) : Acyclic r := by
  intro x cycle
  have grows : ∀ y, Relation.TransGen r x y → rank x < rank y := by
    intro y path
    induction path with
    | single edge => exact increases _ _ edge
    | tail _ edge ih => exact ih.trans (increases _ _ edge)
  exact lt_irrefl _ (grows x cycle)

/-- **A fresh sink keeps a relation acyclic.** If every new edge ends in `sink`, and nothing leaves
`sink`, no cycle appears. -/
theorem Acyclic.insert_sink {r r' : α → α → Prop} (acyclic : Acyclic r) (sink : α)
    (old : ∀ x y, r' x y → y ≠ sink → r x y) (leaves : ∀ y, ¬ r' sink y) : Acyclic r' := by
  -- a path that does not end in the sink never visits it, so it is a path of `r`
  have lift : ∀ x y, Relation.TransGen r' x y → y ≠ sink → Relation.TransGen r x y := by
    intro x y path
    induction path with
    | single edge => exact fun away => .single (old _ _ edge away)
    | tail _ edge ih =>
      intro away
      exact .tail (ih fun isSink => leaves _ (isSink ▸ edge)) (old _ _ edge away)
  intro x cycle
  by_cases isSink : x = sink
  · subst isSink
    obtain ⟨y, edge, -⟩ := Relation.TransGen.head'_iff.mp cycle
    exact leaves y edge
  · exact acyclic x (lift x x cycle isSink)

/-- **One more edge keeps a relation acyclic** if its end does not lead back to its start. -/
theorem Acyclic.insert_edge {r r' : α → α → Prop} (acyclic : Acyclic r) {source sink : α}
    (old : ∀ x y, r' x y → r x y ∨ x = source ∧ y = sink)
    (apart : ¬ Relation.ReflTransGen r sink source) : Acyclic r' := by
  -- a path of the new relation is one of the old, or splits at the last use of the new edge
  have split : ∀ x y, Relation.TransGen r' x y →
      Relation.TransGen r x y ∨
        Relation.ReflTransGen r x source ∧ Relation.ReflTransGen r sink y := by
    intro x y path
    induction path with
    | single edge =>
      rcases old _ _ edge with here | ⟨rfl, rfl⟩
      · exact .inl (.single here)
      · exact .inr ⟨.refl, .refl⟩
    | tail _ edge ih =>
      rcases old _ _ edge with here | ⟨rfl, rfl⟩
      · rcases ih with straight | ⟨before, after⟩
        · exact .inl (straight.tail here)
        · exact .inr ⟨before, after.tail here⟩
      · rcases ih with straight | ⟨before, _⟩
        · exact .inr ⟨straight.to_reflTransGen, .refl⟩
        · exact .inr ⟨before, .refl⟩
  intro x cycle
  rcases split x x cycle with straight | ⟨before, after⟩
  · exact acyclic x straight
  · exact apart (after.trans before)

/-- Among finitely many elements of an acyclic relation, one is not preceded by another. -/
theorem Acyclic.exists_first {r : α → α → Prop} (acyclic : Acyclic r) {members : Finset α}
    (nonempty : members.Nonempty) : ∃ x ∈ members, ∀ y ∈ members, ¬ r y x := by
  have strict : IsStrictOrder α (Relation.TransGen r) :=
    { irrefl := acyclic, trans := fun _ _ _ => Relation.TransGen.trans }
  have founded : (members : Set α).WellFoundedOn (Relation.TransGen r) :=
    members.finite_toSet.wellFoundedOn
  obtain ⟨x, member⟩ := nonempty
  obtain ⟨first, _, minimal⟩ := founded.has_min Set.univ ⟨⟨x, member⟩, trivial⟩
  exact ⟨first, first.2, fun y other edge => minimal ⟨y, other⟩ trivial (.single edge)⟩

end Acyclic

end Foundation
