/-
**`decision-forum` — who ratifies a constitution.**

A ratification counts the signatures that are not the placeholder; the quorum asks for so many of them, and
nobody looks whether two of them are by one signer. An error leaves the corpus as it was. A panic at a full
counter comes after the articles were extended, so `amendInPlace` returns the corpus that a call leaves
behind next to its answer.

* `amendInPlace_eq` — the answer and the corpus are those of `amend` wherever it returns.
* `answer_cases` — a call changes nothing, ratifies, or keeps the time of the ratification.
* **`ratified_by_quorum_iff`** — over a run, ratifications have as many signers as the quorum asks for
  exactly if the signatures of repeated signers are no more than those beyond the required number.
* `SignedTwice.one_signer_ratifies` — a quorum of two, met by one signer.
-/

import Exochain.Foundation.Collections
import Exochain.Forum.Constitution

set_option linter.unusedSectionVars false

namespace Exochain.DecisionForum

open Foundation ExoCore

/-! ### Signers -/

/-- Who signed, one entry for each signature that is not the placeholder. -/
def signedBy (signatures : List (Did × Signature)) : List Did :=
  (signatures.filter fun signature => !signature.2.isEmpty).map Prod.fst

/-- At least as many different signers as the quorum requires have a signature that is not the
placeholder. -/
def SignedByQuorum (signatures : List (Did × Signature)) (quorum : ConstitutionQuorum) : Prop :=
  ∃ signers : Finset Did, quorum.requiredSignatures ≤ signers.card ∧
    ∀ did ∈ signers, ∃ signature, (did, signature) ∈ signatures ∧ signature.isEmpty = false

theorem length_signedBy (signatures : List (Did × Signature)) :
    (signedBy signatures).length = validSignatures signatures := by
  rw [signedBy, List.length_map, validSignatures, List.countP_eq_length_filter]

theorem mem_signedBy_iff {signatures : List (Did × Signature)} {did : Did} :
    did ∈ signedBy signatures ↔
      ∃ signature, (did, signature) ∈ signatures ∧ signature.isEmpty = false := by
  simp [signedBy]

/-- **Counting signatures and counting signers.** -/
theorem signedByQuorum_iff {signatures : List (Did × Signature)} {quorum : ConstitutionQuorum} :
    SignedByQuorum signatures quorum ↔
      quorum.requiredSignatures + surplus (signedBy signatures) ≤ validSignatures signatures := by
  rw [← length_signedBy]
  exact exists_distinct_iff fun _ => mem_signedBy_iff

namespace ConstitutionCorpus

/-! ### Calls in place -/

section Calls

variable (build : Build) (blake3 : Blake3)

/-- Amend a constitution in place: the answer, and the corpus left behind. -/
def amendInPlace (corpus : ConstitutionCorpus) (amendment : Article)
    (signatures : List (Did × Signature)) : Except CallFailure Unit × ConstitutionCorpus :=
  if !corpus.isRatified then (.error (.error (.amendmentFailed "not ratified")), corpus)
  else if validSignatures signatures = 0 then
    (.error (.error (.amendmentFailed "no valid signatures")), corpus)
  else
    let extended := { corpus with articles := corpus.articles ++ [amendment] }
    match corpus.version.next build with
    | .error fault => (.error (.fault fault), extended)
    | .ok version =>
      let rehashed :=
        { extended with version := version, hash := computeCorpusHash blake3 extended.articles }
      match build.add 32 corpus.amendmentCount.toNat 1 with
      | .error fault => (.error (.fault fault), rehashed)
      | .ok count => (.ok (), { rehashed with amendmentCount := UInt32.ofNat count })

/-- The answer of a call, and the corpus left behind. -/
def answer (corpus : ConstitutionCorpus) : Call → Except CallFailure Unit × ConstitutionCorpus
  | .ratify signatures quorum timestamp =>
    match corpus.ratify signatures quorum timestamp with
    | .ok after => (.ok (), after)
    | .error error => (.error (.error error), corpus)
  | .amend amendment signatures => corpus.amendInPlace build blake3 amendment signatures

/-- The corpus after a call. -/
def stepInPlace (corpus : ConstitutionCorpus) (call : Call) : ConstitutionCorpus :=
  (corpus.answer build blake3 call).2

/-! ### What a run should keep -/

/-- A ratification that succeeds has enough signers. -/
def RatifiesByQuorum (corpus : ConstitutionCorpus) : Call → Prop
  | .ratify signatures quorum timestamp =>
    ∀ after, corpus.ratify signatures quorum timestamp = .ok after → SignedByQuorum signatures quorum
  | .amend _ _ => True

/-- A call that returns an error leaves the corpus as it was. -/
def UnchangedOnError (corpus : ConstitutionCorpus) (call : Call) : Prop :=
  ∀ error, (corpus.answer build blake3 call).1 = .error (.error error) →
    corpus.stepInPlace build blake3 call = corpus

/-- The time of the ratification, once there is one, is that of the later corpus. -/
def KeepsRatification (corpus later : ConstitutionCorpus) : Prop :=
  ∀ time, corpus.ratifiedAt = some time → later.ratifiedAt = some time

/-- **What ratifications and amendments promise over a run.** -/
structure RatifiedByQuorum (start : ConstitutionCorpus) (calls : List Call) : Prop where
  signed : Along (stepInPlace build blake3) RatifiesByQuorum start calls
  unchanged : Along (stepInPlace build blake3) (UnchangedOnError build blake3) start calls
  kept : Evolves (stepInPlace build blake3) KeepsRatification start calls

/-- A ratification is refused, or its signatures beyond the required number are as many as those that
could be left out without losing a signer. -/
def SparesRepetitions (corpus : ConstitutionCorpus) : Call → Prop
  | .ratify signatures quorum _ =>
    corpus.isRatified = true ∨ validSignatures signatures < quorum.requiredSignatures ∨
      surplus (signedBy signatures) ≤ validSignatures signatures - quorum.requiredSignatures
  | .amend _ _ => True

end Calls

/-! ### One call -/

section Step

variable {build : Build} {blake3 : Blake3} {corpus : ConstitutionCorpus} {amendment : Article}
  {signatures : List (Did × Signature)} {quorum : ConstitutionQuorum} {timestamp : Timestamp}

/-- **The call in place is `amend`**, wherever that returns. -/
theorem amendInPlace_eq (build : Build) (blake3 : Blake3) (corpus : ConstitutionCorpus)
    (amendment : Article) (signatures : List (Did × Signature)) :
    (∃ after, corpus.amend build blake3 amendment signatures = .ok after ∧
        corpus.amendInPlace build blake3 amendment signatures = (.ok (), after)) ∨
    (∃ error, corpus.amend build blake3 amendment signatures = .error (.error error) ∧
        corpus.amendInPlace build blake3 amendment signatures = (.error (.error error), corpus)) ∨
    ∃ fault left, corpus.amend build blake3 amendment signatures = .error (.fault fault) ∧
      corpus.amendInPlace build blake3 amendment signatures = (.error (.fault fault), left) ∧
      left.ratifiedAt = corpus.ratifiedAt := by
  unfold amend amendInPlace
  by_cases open_yet : (!corpus.isRatified) = true
  · rw [if_pos open_yet, if_pos open_yet]
    exact .inr (.inl ⟨_, rfl, rfl⟩)
  · rw [if_neg open_yet, if_neg open_yet]
    by_cases unsigned : validSignatures signatures = 0
    · rw [if_pos unsigned, if_pos unsigned]
      exact .inr (.inl ⟨_, rfl, rfl⟩)
    · rw [if_neg unsigned, if_neg unsigned]
      cases corpus.version.next build with
      | error fault => exact .inr (.inr ⟨fault, _, rfl, rfl, rfl⟩)
      | ok version =>
        cases build.add 32 corpus.amendmentCount.toNat 1 with
        | error fault => exact .inr (.inr ⟨fault, _, rfl, rfl, rfl⟩)
        | ok count => exact .inl ⟨_, rfl, rfl⟩

/-- **When a ratification succeeds.** -/
theorem ratify_eq_ok_iff {after : ConstitutionCorpus} :
    corpus.ratify signatures quorum timestamp = .ok after ↔
      corpus.isRatified = false ∧ quorum.requiredSignatures ≤ validSignatures signatures ∧
        after = { corpus with ratifiedAt := some timestamp } := by
  unfold ratify
  by_cases ratified : corpus.isRatified = true
  · simp [ratified]
  · by_cases few : validSignatures signatures < quorum.requiredSignatures
    · simp [ratified, few]
    · simp [ratified, few, not_lt.mp few, eq_comm]

/-- An amendment keeps the time of the ratification. -/
theorem ratifiedAt_amend {after : ConstitutionCorpus}
    (amended : corpus.amend build blake3 amendment signatures = .ok after) :
    after.ratifiedAt = corpus.ratifiedAt := by
  unfold amend at amended
  split_ifs at amended
  obtain ⟨version, -, rest⟩ := bind_eq_ok_iff.mp amended
  obtain ⟨count, -, whole⟩ := bind_eq_ok_iff.mp rest
  cases whole
  rfl

/-- **What a call can do**: return an error and change nothing, ratify a corpus that is not ratified, or
keep the time of the ratification. -/
inductive Outcome (corpus : ConstitutionCorpus) :
    Call → Except CallFailure Unit × ConstitutionCorpus → Prop
  | failed {call : Call} (error : ForumError) : Outcome corpus call (.error (.error error), corpus)
  | ratified {signatures : List (Did × Signature)} {quorum : ConstitutionQuorum}
      {timestamp : Timestamp} (open_yet : corpus.isRatified = false)
      (enough : quorum.requiredSignatures ≤ validSignatures signatures) :
      Outcome corpus (.ratify signatures quorum timestamp)
        (.ok (), { corpus with ratifiedAt := some timestamp })
  | amended {call : Call} {result : Except CallFailure Unit} {after : ConstitutionCorpus}
      (returned : ∀ error, result ≠ .error (.error error))
      (kept : after.ratifiedAt = corpus.ratifiedAt) : Outcome corpus call (result, after)

theorem answer_cases (build : Build) (blake3 : Blake3) (corpus : ConstitutionCorpus) (call : Call) :
    Outcome corpus call (corpus.answer build blake3 call) := by
  cases call with
  | ratify signatures quorum timestamp =>
    rw [answer]
    cases ratified : corpus.ratify signatures quorum timestamp with
    | ok after =>
      obtain ⟨open_yet, enough, rfl⟩ := ratify_eq_ok_iff.mp ratified
      exact .ratified open_yet enough
    | error error => exact .failed error
  | amend amendment signatures =>
    rw [answer]
    rcases amendInPlace_eq build blake3 corpus amendment signatures with
      ⟨after, amended, answered⟩ | ⟨error, _, answered⟩ | ⟨fault, left, _, answered, kept⟩
    · rw [answered]
      exact .amended (fun _ same => by cases same) (ratifiedAt_amend amended)
    · rw [answered]
      exact .failed error
    · rw [answered]
      exact .amended (fun _ same => by cases same) kept

/-- A call that returns an error changes nothing. -/
theorem unchangedOnError (build : Build) (blake3 : Blake3) (corpus : ConstitutionCorpus) (call : Call) :
    corpus.UnchangedOnError build blake3 call := by
  have outcome := answer_cases build blake3 corpus call
  unfold UnchangedOnError stepInPlace
  generalize corpus.answer build blake3 call = result at outcome
  intro error failed
  cases outcome with
  | failed error => rfl
  | ratified open_yet enough => cases failed
  | amended returned kept => exact absurd failed (returned error)

/-- A call keeps the time of the ratification. -/
theorem keepsRatification_step (build : Build) (blake3 : Blake3) (corpus : ConstitutionCorpus)
    (call : Call) : corpus.KeepsRatification (corpus.stepInPlace build blake3 call) := by
  have outcome := answer_cases build blake3 corpus call
  unfold stepInPlace
  generalize corpus.answer build blake3 call = result at outcome
  intro time at_time
  cases outcome with
  | failed error => exact at_time
  | ratified open_yet enough =>
    rw [isRatified, at_time] at open_yet
    cases open_yet
  | amended returned kept => rw [kept, at_time]

/-- **One call ratifies by a quorum of signers** exactly if it spares the repetitions. -/
theorem ratifiesByQuorum_iff (corpus : ConstitutionCorpus) (call : Call) :
    corpus.RatifiesByQuorum call ↔ corpus.SparesRepetitions call := by
  cases call with
  | amend amendment signatures => exact .rfl
  | ratify signatures quorum timestamp =>
    unfold RatifiesByQuorum SparesRepetitions
    simp only [ratify_eq_ok_iff, signedByQuorum_iff]
    constructor
    · intro signed
      by_cases ratified : corpus.isRatified = true
      · exact .inl ratified
      · by_cases few : validSignatures signatures < quorum.requiredSignatures
        · exact .inr (.inl few)
        · have enough := signed _ ⟨by simpa using ratified, not_lt.mp few, rfl⟩
          exact .inr (.inr (by omega))
    · rintro spares after ⟨open_yet, enough, _⟩
      rcases spares with ratified | few | spare
      · rw [open_yet] at ratified
        cases ratified
      · omega
      · omega

end Step

/-! ### Runs -/

/-- **When ratifications are by a quorum of signers.** In every run of ratifications and amendments of any
corpus a call that returns an error changes nothing, and the time of the ratification, once set, stays; the
ratifications that succeed have as many different signers as their quorum requires exactly if none of them
needs the signatures of repeated signers. -/
theorem ratified_by_quorum_iff (build : Build) (blake3 : Blake3) (start : ConstitutionCorpus)
    (calls : List Call) :
    RatifiedByQuorum build blake3 start calls ↔
      Along (stepInPlace build blake3) SparesRepetitions start calls := by
  have same : Along (stepInPlace build blake3) RatifiesByQuorum start calls ↔
      Along (stepInPlace build blake3) SparesRepetitions start calls :=
    forall₃_congr fun before call _ => imp_congr_right fun _ => ratifiesByQuorum_iff _ call
  rw [← same]
  refine ⟨RatifiedByQuorum.signed, fun signed => ⟨signed, ?_, ?_⟩⟩
  · exact along_of_forall (unchangedOnError build blake3) start calls
  · refine (evolves_iff_along (fun _ _ at_time => at_time) ?_).mpr ?_
    · exact fun _ _ _ first second time at_time => second time (first time at_time)
    · exact along_of_forall (keepsRatification_step build blake3) start calls

end ConstitutionCorpus

namespace SignedTwice

/-- The council signs twice. -/
def signatures : List (Did × Signature) := Sample.councilSignature ++ Sample.councilSignature

/-- **One signer makes a quorum of two.** -/
theorem one_signer_ratifies :
    ¬ ∀ (start : ConstitutionCorpus) (calls : List ConstitutionCorpus.Call),
      ConstitutionCorpus.RatifiedByQuorum ⟨true⟩ Blake3.hash start calls := by
  intro ratified
  have signed := (ratified (.new Blake3.hash [Sample.quorumArticle .active])
    [.ratify signatures ⟨2, 50⟩ ⟨1000, 0⟩]).signed [] _ [] rfl
  exact absurd (signedByQuorum_iff.mp (signed _ rfl)) (by decide)

end SignedTwice

end Exochain.DecisionForum
