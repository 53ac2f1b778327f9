/-
**`decision-forum` — the constitutional corpus.**

The corpus is a list of articles with a version and a hash. It is ratified once; after that an
amendment appends an article, counts the version up and takes the hash again.

The hash is taken over the text hash and the identifier of every article, one after the other. Nothing
marks where an identifier ends, and the title, the tier and the status are not in it. An amendment is
not checked against the articles that are there: the dry run reports the active ones with its
identifier, and a lookup returns the first one.

* `amend_cases` — what an amendment does.
* `hash_throughout` — the hash is that of the articles in every state.
* **`articles_eq_iff`** — two corpora with one hash have the same articles exactly if their articles
  agree in the length of the identifier and in what is not hashed.
* **`amendments_sound_iff`** — the amendments of a run take effect and keep the identifiers of the
  active articles apart exactly if no amendment that is applied meets an article with its identifier.
-/

import Exochain.Foundation.Blake3
import Exochain.Foundation.Codes
import Exochain.Foundation.Merkle
import Exochain.Foundation.Run
import Exochain.Forum.DecisionObject

set_option linter.unusedSectionVars false

namespace Exochain.DecisionForum

open Foundation ExoCore

/-! ### Articles -/

/-- The tier of a document, the highest first. -/
inductive DocumentTier where
  | articles
  | bylaws
  | resolutions
  | charters
  | policies
  deriving DecidableEq, Repr

/-- The name of a tier in texts. -/
def DocumentTier.debug : DocumentTier → String
  | articles => "Articles"
  | bylaws => "Bylaws"
  | resolutions => "Resolutions"
  | charters => "Charters"
  | policies => "Policies"

/-- The status of an article. -/
inductive ArticleStatus where
  | active
  | amended
  | repealed
  deriving DecidableEq, Repr

/-- An article of the constitution. -/
structure Article where
  id : String
  title : String
  tier : DocumentTier
  textHash : Hash256
  status : ArticleStatus
  deriving DecidableEq

/-- The quorum of a ratification. -/
structure ConstitutionQuorum where
  requiredSignatures : ℕ
  requiredFractionPct : UInt32
  deriving DecidableEq

/-- The corpus of a tenant. -/
structure ConstitutionCorpus where
  version : Version
  hash : Hash256
  articles : List Article
  ratifiedAt : Option Timestamp
  amendmentCount : UInt32
  deriving DecidableEq

/-- How a call that counts fails: with an error, or with a fault of a checked build. -/
inductive CallFailure where
  | error (error : ForumError)
  | fault (fault : Fault)
  deriving DecidableEq

/-! ### The operations -/

/-- The string that the articles are hashed as. -/
def corpusString (articles : List Article) : List UInt8 :=
  articles.flatMap fun article => article.textHash.asBytes ++ textBytes article.id

/-- The hash over the articles. -/
def computeCorpusHash (blake3 : Blake3) (articles : List Article) : Hash256 :=
  blake3 (corpusString articles)

/-- How many signatures are not the placeholder. -/
def validSignatures (signatures : List (Did × Signature)) : ℕ :=
  signatures.countP fun signature => !signature.2.isEmpty

namespace ConstitutionCorpus

/-- A new constitution, of version one. -/
def new (blake3 : Blake3) (articles : List Article) : ConstitutionCorpus where
  version := ⟨1⟩
  hash := computeCorpusHash blake3 articles
  articles := articles
  ratifiedAt := none
  amendmentCount := 0

/-- Whether the constitution has been ratified. -/
def isRatified (corpus : ConstitutionCorpus) : Bool := corpus.ratifiedAt.isSome

/-- Look up an article: the first one with the identifier. -/
def findArticle (corpus : ConstitutionCorpus) (id : String) : Option Article :=
  corpus.articles.find? fun article => article.id = id

/-- Ratify a constitution; an error leaves it as it was. -/
def ratify (corpus : ConstitutionCorpus) (signatures : List (Did × Signature))
    (quorum : ConstitutionQuorum) (timestamp : Timestamp) : Except ForumError ConstitutionCorpus :=
  if corpus.isRatified then .error (.notRatified "already ratified")
  else
    let valid := validSignatures signatures
    if valid < quorum.requiredSignatures then
      .error (.quorumNotMet quorum.requiredSignatures valid)
    else .ok { corpus with ratifiedAt := some timestamp }

/-- Amend a constitution by one more article. -/
def amend (build : Build) (blake3 : Blake3) (corpus : ConstitutionCorpus) (amendment : Article)
    (signatures : List (Did × Signature)) : Except CallFailure ConstitutionCorpus :=
  if !corpus.isRatified then .error (.error (.amendmentFailed "not ratified"))
  else if validSignatures signatures = 0 then
    .error (.error (.amendmentFailed "no valid signatures"))
  else do
    let articles := corpus.articles ++ [amendment]
    let version ← (corpus.version.next build).mapError .fault
    let count ← (build.add 32 corpus.amendmentCount.toNat 1).mapError .fault
    return {
      version := version
      hash := computeCorpusHash blake3 articles
      articles := articles
      ratifiedAt := corpus.ratifiedAt
      amendmentCount := UInt32.ofNat count }

/-- The conflict of a proposed article with one that is there. -/
def conflict (proposed existing : Article) : Option String :=
  if existing.status ≠ .active then none
  else if existing.id = proposed.id then
    some ("Article '" ++ existing.id ++ "' already exists at tier " ++ existing.tier.debug)
  else none

/-- The conflicts of an amendment, without applying it. -/
def dryRunAmendment (corpus : ConstitutionCorpus) (proposed : Article) :
    Except ForumError (List String) :=
  .ok (corpus.articles.filterMap (conflict proposed))

/-- A call that changes a corpus. -/
inductive Call where
  | ratify (signatures : List (Did × Signature)) (quorum : ConstitutionQuorum)
      (timestamp : Timestamp)
  | amend (amendment : Article) (signatures : List (Did × Signature))

/-- The corpus after a call; one that fails leaves it as it was. -/
def step (build : Build) (blake3 : Blake3) (corpus : ConstitutionCorpus) :
    Call → ConstitutionCorpus
  | .ratify signatures quorum timestamp =>
    ((corpus.ratify signatures quorum timestamp).toOption).getD corpus
  | .amend amendment signatures =>
    ((corpus.amend build blake3 amendment signatures).toOption).getD corpus

/-! ### One call -/

section Step

variable {build : Build} {blake3 : Blake3} {corpus : ConstitutionCorpus} {amendment : Article}
  {signatures : List (Did × Signature)}

/-- An amendment would be applied: the constitution is ratified, a signature is not the placeholder,
and in a checked build there is room in both counters. -/
def Amendable (build : Build) (corpus : ConstitutionCorpus) (signatures : List (Did × Signature)) :
    Prop :=
  corpus.isRatified = true ∧ validSignatures signatures ≠ 0 ∧
    (build.overflowChecks = true →
      corpus.version.value.toNat + 1 < 2 ^ 64 ∧ corpus.amendmentCount.toNat + 1 < 2 ^ 32)

/-- The corpus is the one before with one more article, hashed again. -/
def Extended (blake3 : Blake3) (corpus : ConstitutionCorpus) (amendment : Article)
    (after : ConstitutionCorpus) : Prop :=
  after.articles = corpus.articles ++ [amendment] ∧
    after.hash = computeCorpusHash blake3 (corpus.articles ++ [amendment])

/-- **What an amendment does.** -/
theorem amend_cases (build : Build) (blake3 : Blake3) (corpus : ConstitutionCorpus)
    (amendment : Article) (signatures : List (Did × Signature)) :
    (Amendable build corpus signatures ∧
      ∃ after, corpus.amend build blake3 amendment signatures = .ok after ∧
        Extended blake3 corpus amendment after) ∨
    (¬ Amendable build corpus signatures ∧
      ∃ failure, corpus.amend build blake3 amendment signatures = .error failure) := by
  unfold amend Amendable
  by_cases ratified : corpus.isRatified = true
  · rw [if_neg (by simp [ratified])]
    by_cases unsigned : validSignatures signatures = 0
    · rw [if_pos unsigned]
      exact .inr ⟨fun both => both.2.1 unsigned, _, rfl⟩
    · rw [if_neg unsigned]
      have versions := @Build.exists_add_eq_ok_iff build 64 corpus.version.value.toNat 1
      have counts := @Build.exists_add_eq_ok_iff build 32 corpus.amendmentCount.toNat 1
      unfold Version.next
      cases version : build.add 64 corpus.version.value.toNat 1 with
      | error fault =>
        refine .inr ⟨fun room => ?_, _, rfl⟩
        obtain ⟨sum, added⟩ := versions.mpr fun checked => (room.2.2 checked).1
        rw [version] at added
        cases added
      | ok next =>
        cases count : build.add 32 corpus.amendmentCount.toNat 1 with
        | error fault =>
          refine .inr ⟨fun room => ?_, _, rfl⟩
          obtain ⟨sum, added⟩ := counts.mpr fun checked => (room.2.2 checked).2
          rw [count] at added
          cases added
        | ok more =>
          refine .inl ⟨⟨ratified, unsigned, fun checked => ⟨?_, ?_⟩⟩, _, rfl, rfl, rfl⟩
          · exact versions.mp ⟨next, version⟩ checked
          · exact counts.mp ⟨more, count⟩ checked
  · rw [if_pos (by simpa using ratified)]
    exact .inr ⟨fun both => ratified both.1, _, rfl⟩

/-- A call keeps the articles and the hash, or it is an amendment that is applied. -/
theorem step_cases (build : Build) (blake3 : Blake3) (corpus : ConstitutionCorpus) (call : Call) :
    ((corpus.step build blake3 call).articles = corpus.articles ∧
      (corpus.step build blake3 call).hash = corpus.hash) ∨
    ∃ amendment signatures, call = .amend amendment signatures ∧
      Amendable build corpus signatures ∧
      Extended blake3 corpus amendment (corpus.step build blake3 call) := by
  cases call with
  | ratify signatures quorum timestamp =>
    left
    rw [step, ratify]
    by_cases already : corpus.isRatified = true
    · rw [if_pos already]
      exact ⟨rfl, rfl⟩
    · rw [if_neg already]
      by_cases few : validSignatures signatures < quorum.requiredSignatures
      · rw [if_pos few]
        exact ⟨rfl, rfl⟩
      · rw [if_neg few]
        exact ⟨rfl, rfl⟩
  | amend amendment signatures =>
    rcases amend_cases build blake3 corpus amendment signatures with
      ⟨amendable, after, amended, extended⟩ | ⟨-, failure, failed⟩
    · refine .inr ⟨amendment, signatures, rfl, amendable, ?_⟩
      rw [step, amended]
      exact extended
    · left
      rw [step, failed]
      exact ⟨rfl, rfl⟩

/-- The hash is that of the articles. -/
def Hashed (blake3 : Blake3) (corpus : ConstitutionCorpus) : Prop :=
  corpus.hash = computeCorpusHash blake3 corpus.articles

theorem hashed_step (hashed : corpus.Hashed blake3) (call : Call) :
    (corpus.step build blake3 call).Hashed blake3 := by
  rcases step_cases build blake3 corpus call with ⟨articles, hash⟩ | ⟨_, _, _, _, articles, hash⟩
  · rw [Hashed, articles, hash]
    exact hashed
  · rw [Hashed, articles, hash]

/-- **The hash is that of the articles in every state.** -/
theorem hash_throughout (build : Build) (blake3 : Blake3) (articles : List Article)
    (calls : List Call) :
    Throughout (step build blake3) (Hashed blake3) (new blake3 articles) calls := by
  refine throughout_of_preserved (fun corpus call hashed => hashed_step hashed call) ?_ calls
  exact rfl

end Step

/-! ### What the hash determines -/

end ConstitutionCorpus

namespace Article

/-- What an article has beside the bytes that are hashed: the length of its identifier, and what is not
hashed at all. -/
def frame (article : Article) : ℕ × String × DocumentTier × ArticleStatus :=
  ((textBytes article.id).length, article.title, article.tier, article.status)

/-- The two strings that an article adds to the hashed one. -/
def parts (article : Article) : List (List UInt8) :=
  [article.textHash.asBytes, textBytes article.id]

theorem flatten_parts (articles : List Article) :
    (articles.flatMap parts).flatten = corpusString articles := by
  induction articles with
  | nil => rfl
  | cons article articles ih =>
    rw [List.flatMap_cons, List.flatten_append, ih]
    simp [parts, corpusString]

/-- The lengths of the strings are those of the identifiers. -/
theorem lengths_parts (articles : List Article) :
    (articles.flatMap parts).map List.length =
      (articles.map frame).flatMap fun frame => [32, frame.1] := by
  induction articles with
  | nil => rfl
  | cons article articles ih =>
    rw [List.flatMap_cons, List.map_append, ih, List.map_cons, List.flatMap_cons]
    simp [parts, frame, Hash256.asBytes, article.textHash.length_eq]

/-- Articles with the same strings and the same frame are the same. -/
theorem eq_of_parts_eq {article article' : Article} (strings : article.parts = article'.parts)
    (frames : article.frame = article'.frame) : article = article' := by
  simp only [parts, List.cons.injEq, and_true] at strings
  simp only [frame, Prod.mk.injEq] at frames
  obtain ⟨-, titles, tiers, statuses⟩ := frames
  have hashes := FixedBytes.ext strings.1
  have ids := textBytes_injective strings.2
  cases article
  cases article'
  simp_all

/-- **Articles hashed as one string** are the same exactly if their frames are. -/
theorem eq_iff_frames_eq {articles articles' : List Article}
    (same : corpusString articles = corpusString articles') :
    articles = articles' ↔ articles.map frame = articles'.map frame := by
  constructor
  · rintro rfl
    rfl
  · intro frames
    have strings : articles.flatMap parts = articles'.flatMap parts := by
      rw [List.eq_iff_flatten_eq, flatten_parts, flatten_parts, lengths_parts, lengths_parts, frames]
      exact ⟨same, rfl⟩
    -- the two strings of each article can be read off, since every article adds two
    clear same
    induction articles generalizing articles' with
    | nil => exact (List.map_eq_nil_iff.mp frames.symm).symm
    | cons article articles ih =>
      cases articles' with
      | nil => cases frames
      | cons article' articles' =>
        rw [List.map_cons, List.map_cons, List.cons.injEq] at frames
        obtain ⟨here, there⟩ := List.append_inj strings rfl
        rw [eq_of_parts_eq here frames.1, ih frames.2 there]

end Article

namespace ConstitutionCorpus

/-- **Corpora with one hash.** Of two corpora that ratifications and amendments lead to, with the same
hash and hashed strings that do not collide, the articles are the same exactly if there are equally many
of them and those at one position agree in the length of the identifier, the title, the tier and the
status. -/
theorem articles_eq_iff (build : Build) (blake3 : Blake3) {start start' : List Article}
    {calls calls' : List Call} {corpus corpus' : ConstitutionCorpus}
    (reached : run (step build blake3) (new blake3 start) calls = corpus)
    (reached' : run (step build blake3) (new blake3 start') calls' = corpus')
    (same : corpus.hash = corpus'.hash)
    (free : ¬ CollisionIn blake3 [corpusString corpus.articles, corpusString corpus'.articles]) :
    corpus.articles = corpus'.articles ↔
      corpus.articles.map Article.frame = corpus'.articles.map Article.frame := by
  have hashed : corpus.Hashed blake3 := reached ▸ (hash_throughout build blake3 start calls).last
  have hashed' : corpus'.Hashed blake3 := reached' ▸ (hash_throughout build blake3 start' calls').last
  refine Article.eq_iff_frames_eq (eq_of_hash_eq free (by simp) (by simp) ?_)
  show computeCorpusHash blake3 corpus.articles = computeCorpusHash blake3 corpus'.articles
  rw [← hashed, ← hashed', same]

/-! ### Amendments -/

section Amendments

variable {build : Build} {blake3 : Blake3} {corpus after : ConstitutionCorpus} {amendment : Article}
  {signatures : List (Did × Signature)}

/-- No two active articles share an identifier. -/
def UniqueActive (corpus : ConstitutionCorpus) : Prop :=
  corpus.articles.Pairwise fun article later =>
    article.status = .active → later.status = .active → article.id ≠ later.id

/-- No active article has the identifier. -/
def NoActive (corpus : ConstitutionCorpus) (id : String) : Prop :=
  ∀ article ∈ corpus.articles, article.id = id → article.status ≠ .active

/-- The dry run reports nothing exactly if no active article has the identifier. -/
theorem dryRunAmendment_eq_nil_iff :
    corpus.dryRunAmendment amendment = .ok [] ↔ corpus.NoActive amendment.id := by
  unfold dryRunAmendment NoActive
  rw [Except.ok.injEq, List.filterMap_eq_nil_iff]
  refine forall₂_congr fun article _ => ?_
  unfold conflict
  by_cases active : article.status = .active
  · by_cases same : article.id = amendment.id
    · simp [active, same]
    · simp [active, same]
  · simp [active]

/-- The lookup after an amendment: the amendment, unless another article is found before it. -/
theorem findArticle_extended_iff (extended : Extended blake3 corpus amendment after) :
    after.findArticle amendment.id = some amendment ↔
      ∀ article, corpus.findArticle amendment.id = some article → article = amendment := by
  unfold findArticle
  rw [extended.1, List.find?_append]
  cases found : corpus.articles.find? fun article => article.id = amendment.id with
  | none => simp
  | some article => simp

/-- What the call may not meet: an amendment that is applied finds no active article with its
identifier, and no other article at all that a lookup would return. -/
def Fits (build : Build) (corpus : ConstitutionCorpus) : Call → Prop
  | .ratify _ _ _ => True
  | .amend amendment signatures =>
    Amendable build corpus signatures → corpus.NoActive amendment.id ∧
      ∀ article, corpus.findArticle amendment.id = some article → article = amendment

theorem uniqueActive_extended (unique : corpus.UniqueActive) (none : corpus.NoActive amendment.id)
    (extended : Extended blake3 corpus amendment after) : after.UniqueActive := by
  rw [UniqueActive, extended.1, List.pairwise_append]
  refine ⟨unique, List.pairwise_singleton _ _, fun article member later last active _ same => ?_⟩
  obtain rfl := List.mem_singleton.mp last
  exact none article member same active

theorem uniqueActive_step (unique : corpus.UniqueActive) {call : Call} (fits : corpus.Fits build call) :
    (corpus.step build blake3 call).UniqueActive := by
  rcases step_cases build blake3 corpus call with
    ⟨articles, -⟩ | ⟨amendment, signatures, rfl, amendable, extended⟩
  · rw [UniqueActive, articles]
    exact unique
  · exact uniqueActive_extended unique (fits amendable).1 extended

/-- **What is claimed of a run**: after an amendment that is applied a lookup of its identifier returns
it, no two active articles share an identifier, and the dry run had reported no conflict; and the hash
is that of the articles in every state. -/
structure AmendmentsSound (build : Build) (blake3 : Blake3) (start : ConstitutionCorpus)
    (calls : List Call) : Prop where
  hashed : Throughout (step build blake3) (Hashed blake3) start calls
  amended : ∀ before amendment signatures rest after,
    calls = before ++ .amend amendment signatures :: rest →
    (run (step build blake3) start before).amend build blake3 amendment signatures = .ok after →
    after.findArticle amendment.id = some amendment ∧ after.UniqueActive ∧
      (run (step build blake3) start before).dryRunAmendment amendment = .ok []

/-- **When amendments take effect.** Starting with articles of distinct identifiers, the amendments of a
run are found by their identifiers, keep those of the active articles apart and are announced by the dry
run exactly if none that is applied meets an active article with its identifier, or another one before
it. -/
theorem amendments_sound_iff (build : Build) (blake3 : Blake3) {articles : List Article}
    (distinct : (articles.map Article.id).Nodup) (calls : List Call) :
    AmendmentsSound build blake3 (new blake3 articles) calls ↔
      Along (step build blake3) (Fits build) (new blake3 articles) calls := by
  constructor
  · intro sound before call rest split
    cases call with
    | ratify signatures quorum timestamp => trivial
    | amend amendment signatures =>
      intro amendable
      rcases amend_cases build blake3 (run (step build blake3) (new blake3 articles) before) amendment
        signatures with ⟨-, after, applied, extended⟩ | ⟨refused, -⟩
      · obtain ⟨found, -, quiet⟩ := sound.amended before amendment signatures rest after split applied
        exact ⟨dryRunAmendment_eq_nil_iff.mp quiet, (findArticle_extended_iff extended).mp found⟩
      · exact absurd amendable refused
  · intro fits
    have unique : Throughout (step build blake3) UniqueActive (new blake3 articles) calls := by
      refine throughout_of_along (fun corpus call before here => uniqueActive_step before here) ?_ fits
      exact (List.pairwise_map.mp distinct).imp fun apart _ _ => apart
    refine ⟨hash_throughout build blake3 articles calls, ?_⟩
    intro before amendment signatures rest after split applied
    rcases amend_cases build blake3 (run (step build blake3) (new blake3 articles) before) amendment
      signatures with ⟨amendable, after', applied', extended⟩ | ⟨-, failure, failed⟩
    · rw [applied', Except.ok.injEq] at applied
      subst applied
      obtain ⟨none, first⟩ := fits before (.amend amendment signatures) rest split amendable
      exact ⟨(findArticle_extended_iff extended).mpr first,
        uniqueActive_extended (unique before _ split) none extended,
        dryRunAmendment_eq_nil_iff.mpr none⟩
    · rw [failed] at applied
      cases applied

end Amendments

end ConstitutionCorpus

namespace Sample

/-- An article on quorums. -/
def quorumArticle (status : ArticleStatus) : Article :=
  ⟨"art-7", "Quorum", .articles, FixedBytes.fill 32 1, status⟩

/-- **One hash, two constitutions**: an article in force, and the same one repealed. -/
theorem article_repealed :
    ¬ ∀ (start start' : List Article) (calls calls' : List ConstitutionCorpus.Call)
        (corpus corpus' : ConstitutionCorpus),
      run (ConstitutionCorpus.step ⟨false⟩ Blake3.hash) (.new Blake3.hash start) calls = corpus →
      run (ConstitutionCorpus.step ⟨false⟩ Blake3.hash) (.new Blake3.hash start') calls' = corpus' →
      corpus.hash = corpus'.hash →
      corpus.articles = corpus'.articles ∨
        CollisionIn Blake3.hash [corpusString corpus.articles, corpusString corpus'.articles] := by
  intro binds
  rcases binds [quorumArticle .active] [quorumArticle .repealed] [] [] _ _ rfl rfl rfl with
    same | collision
  · exact absurd same (by decide)
  · exact not_collisionIn_pair _ _ collision

/-- Two articles, the text hash of the second one made of letters. -/
def twoArticles : List Article :=
  [⟨"a", "First", .bylaws, FixedBytes.fill 32 1, .active⟩,
    ⟨"b", "Second", .bylaws, FixedBytes.fill 32 98, .active⟩]

/-- One article, whose identifier takes in the second one. -/
def oneArticle : List Article :=
  [⟨"abbbbbbbbbbbbbbbbbbbbbbbbbbbbbbbbb", "First", .bylaws, FixedBytes.fill 32 1, .active⟩]

theorem one_corpus_string : corpusString twoArticles = corpusString oneArticle := by decide +kernel

/-- The two lists have one hash, and different frames. -/
theorem absorbed_article : twoArticles.map Article.frame ≠ oneArticle.map Article.frame := by
  have exactly := @ConstitutionCorpus.articles_eq_iff ⟨false⟩ Blake3.hash twoArticles oneArticle [] []
    _ _ rfl rfl (congrArg Blake3.hash one_corpus_string) (by
      show ¬ CollisionIn Blake3.hash [corpusString twoArticles, corpusString oneArticle]
      rw [one_corpus_string]
      exact not_collisionIn_pair _ _)
  intro frames
  exact absurd (exactly.mpr frames) (by decide)

/-- A signature that is not the placeholder. -/
def councilSignature : List (Did × Signature) :=
  [(⟨"did:exo:council"⟩, .ed25519 (FixedBytes.fill 64 1))]

/-- The article, with another text. -/
def newQuorumArticle : Article := { quorumArticle .active with textHash := FixedBytes.fill 32 2 }

/-- Ratify, then amend the article. -/
def amendingCalls : List ConstitutionCorpus.Call :=
  [.ratify councilSignature ⟨1, 50⟩ ⟨1000, 0⟩, .amend newQuorumArticle councilSignature]

/-- **An amendment without effect**: the conflict is not refused, and the old article is found. -/
theorem amendment_ignored :
    (run (ConstitutionCorpus.step ⟨false⟩ Blake3.hash) (.new Blake3.hash [quorumArticle .active])
        amendingCalls).findArticle "art-7" = some (quorumArticle .active) ∧
      ¬ ∀ (articles : List Article) (calls : List ConstitutionCorpus.Call),
        (articles.map Article.id).Nodup →
        ConstitutionCorpus.AmendmentsSound ⟨false⟩ Blake3.hash (.new Blake3.hash articles) calls := by
  refine ⟨by decide +kernel, fun sound => ?_⟩
  obtain ⟨-, -, quiet⟩ := (sound [quorumArticle .active] amendingCalls (by decide)).amended
    [.ratify councilSignature ⟨1, 50⟩ ⟨1000, 0⟩] newQuorumArticle councilSignature [] _ rfl rfl
  exact absurd quiet (by decide +kernel)

/-- A run whose amendment has an identifier of its own. -/
theorem amendment_found :
    ConstitutionCorpus.AmendmentsSound ⟨false⟩ Blake3.hash (.new Blake3.hash [quorumArticle .active])
      [.ratify councilSignature ⟨1, 50⟩ ⟨1000, 0⟩,
        .amend { newQuorumArticle with id := "art-8" } councilSignature] := by
  refine (ConstitutionCorpus.amendments_sound_iff ⟨false⟩ Blake3.hash (by decide) _).mpr ?_
  rw [along_cons_iff, along_cons_iff]
  refine ⟨trivial, fun _ => ⟨?_, ?_⟩, along_nil⟩
  · intro article member same
    obtain rfl := List.mem_singleton.mp member
    exact absurd same (by decide)
  · intro article found
    cases found

end Sample

end Exochain.DecisionForum
