/-
**`exo-escalation` — from signals to a response, and what is learned from it.**

A set of signals is assessed by its size, its greatest confidence and whether it holds an emergency or a Sybil
suspicion. The severity decides who responds, with what, and how soon. Afterwards the feedback on cases is
turned into recommendations.

* `high_le_severity_iff` and its neighbours — when each severity is reached.
* **`triage_monotone`** — signals that arrive, in whatever order, never lower the severity or the level of the
  response and never prolong its time; High is the severity of the path named after Sybil adjudication, with or
  without a Sybil suspicion.
* **`learnings_exact`** — the recommendations: two rules on the outcomes, then every text that was recommended,
  once and where it came first; later feedback only adds texts at the end.
-/

import Exochain.Foundation.Collections
import Exochain.Escalation.Sybil

set_option linter.unusedSectionVars false

namespace Exochain.ExoEscalation

open Foundation ExoCore

/-! ### Assessment -/

/-- How severe a threat is. -/
inductive Severity where
  | low
  | medium
  | high
  | critical
  deriving DecidableEq, Repr

/-- What is recommended against a threat. -/
inductive RecommendedAction where
  | monitor
  | investigate
  | quarantine
  | emergencyShutdown
  deriving DecidableEq, Repr

/-- The assessment of a set of signals. -/
structure ThreatAssessment where
  overallSeverity : Severity
  recommendedAction : RecommendedAction
  signals : List DetectionSignal
  deriving DecidableEq

/-- The greatest confidence, zero if there is none. -/
def maxConfidence (signals : List DetectionSignal) : ℕ :=
  signals.foldr (fun signal greatest => max signal.confidence.toNat greatest) 0

/-- Whether a signal of the type is among them. -/
def hasType (signals : List DetectionSignal) (signalType : SignalType) : Bool :=
  signals.any (·.signalType = signalType)

/-- Evaluate a set of signals. -/
def evaluateSignals (signals : List DetectionSignal) : ThreatAssessment :=
  if signals.isEmpty then ⟨.low, .monitor, []⟩
  else
    let maxConfidence := maxConfidence signals
    let hasEmergency := hasType signals .emergencyCondition
    let hasSybil := hasType signals .sybilSuspicion
    let (severity, action) : Severity × RecommendedAction :=
      if hasEmergency || 90 ≤ maxConfidence then (.critical, .emergencyShutdown)
      else if hasSybil && 70 ≤ maxConfidence || 80 ≤ maxConfidence then (.high, .quarantine)
      else if 3 ≤ signals.length || 50 ≤ maxConfidence then (.medium, .investigate)
      else (.low, .monitor)
    ⟨severity, action, signals⟩

/-! ### Triage -/

/-- Who responds. -/
inductive TriageLevel where
  | automatic
  | supervised
  | manualRequired
  | emergencyHuman
  deriving DecidableEq, Repr

/-- What is done. -/
inductive TriageAction where
  | log
  | alert
  | quarantine
  | suspend
  | escalate
  | shutdown
  deriving DecidableEq, Repr

/-- The path that a threat is escalated on. -/
structure EscalationPathSpec where
  name : String
  deriving DecidableEq

/-- The response to a threat. -/
structure TriageDecision where
  level : TriageLevel
  actions : List TriageAction
  timeout : Timestamp
  escalationPath : Option EscalationPathSpec
  deriving DecidableEq

/-- Decide on the response. -/
def triage (assessment : ThreatAssessment) : TriageDecision :=
  match assessment.overallSeverity with
  | .low => ⟨.automatic, [.log], ⟨3600000, 0⟩, none⟩
  | .medium => ⟨.supervised, [.log, .alert], ⟨1800000, 0⟩, some ⟨"standard"⟩⟩
  | .high => ⟨.manualRequired, [.alert, .quarantine], ⟨900000, 0⟩, some ⟨"sybil_adjudication"⟩⟩
  | .critical => ⟨.emergencyHuman, [.suspend, .escalate, .shutdown], ⟨300000, 0⟩, some ⟨"emergency"⟩⟩

/-! ### How severe -/

/-- The severities in their order. -/
def Severity.rank : Severity → ℕ
  | low => 0
  | medium => 1
  | high => 2
  | critical => 3

/-- The levels in their order. -/
def TriageLevel.rank : TriageLevel → ℕ
  | automatic => 0
  | supervised => 1
  | manualRequired => 2
  | emergencyHuman => 3

/-- The rank of the severity of a set of signals. -/
def severityRank (signals : List DetectionSignal) : ℕ :=
  (evaluateSignals signals).overallSeverity.rank

variable {signals more : List DetectionSignal}

theorem le_maxConfidence_iff {bound : ℕ} (positive : 0 < bound) :
    bound ≤ maxConfidence signals ↔ ∃ signal ∈ signals, bound ≤ signal.confidence.toNat := by
  induction signals with
  | nil => exact iff_of_false (not_le.mpr positive) (by simp)
  | cons signal rest ih =>
    show bound ≤ max signal.confidence.toNat (maxConfidence rest) ↔ _
    rw [le_max_iff, ih, List.exists_mem_cons_iff]

theorem hasType_iff {signalType : SignalType} :
    hasType signals signalType = true ↔ ∃ signal ∈ signals, signal.signalType = signalType := by
  simp [hasType]

/-- Some signal has at least this confidence. -/
def Confident (signals : List DetectionSignal) (bound : ℕ) : Prop :=
  ∃ signal ∈ signals, bound ≤ signal.confidence.toNat

/-- Some signal is of the type. -/
def Holds (signals : List DetectionSignal) (signalType : SignalType) : Prop :=
  ∃ signal ∈ signals, signal.signalType = signalType

theorem severityRank_eq :
    severityRank signals =
      if hasType signals .emergencyCondition || 90 ≤ maxConfidence signals then 3
      else if hasType signals .sybilSuspicion && 70 ≤ maxConfidence signals || 80 ≤ maxConfidence signals then 2
      else if 3 ≤ signals.length || 50 ≤ maxConfidence signals then 1
      else 0 := by
  cases signals with
  | nil => rfl
  | cons signal rest =>
    rw [severityRank, evaluateSignals, if_neg (by simp)]
    dsimp only
    split
    · rfl
    · split
      · rfl
      · split <;> rfl

/-- Critical: an emergency, or a confidence of ninety. -/
theorem critical_le_severity_iff :
    3 ≤ severityRank signals ↔ Holds signals .emergencyCondition ∨ Confident signals 90 := by
  rw [severityRank_eq, Holds, Confident, ← hasType_iff, ← le_maxConfidence_iff (by decide)]
  grind

/-- At least high: moreover a confidence of eighty, or of seventy with a Sybil suspicion. -/
theorem high_le_severity_iff :
    2 ≤ severityRank signals ↔ Holds signals .emergencyCondition ∨ Confident signals 80 ∨
      (Holds signals .sybilSuspicion ∧ Confident signals 70) := by
  rw [severityRank_eq, Holds, Confident, Holds, Confident, ← hasType_iff, ← hasType_iff,
    ← le_maxConfidence_iff (by decide), ← le_maxConfidence_iff (by decide)]
  grind

/-- At least medium: moreover three signals, or a confidence of fifty. -/
theorem medium_le_severity_iff :
    1 ≤ severityRank signals ↔ Holds signals .emergencyCondition ∨ Confident signals 50 ∨
      3 ≤ signals.length := by
  rw [severityRank_eq, Holds, Confident, ← hasType_iff, ← le_maxConfidence_iff (by decide)]
  grind

/-! ### More signals -/

theorem Confident.mono {bound : ℕ} (confident : Confident signals bound) (sub : signals ⊆ more) :
    Confident more bound := by
  obtain ⟨signal, member, sure⟩ := confident
  exact ⟨signal, sub member, sure⟩

theorem Holds.mono {signalType : SignalType} (holds : Holds signals signalType) (sub : signals ⊆ more) :
    Holds more signalType := by
  obtain ⟨signal, member, same⟩ := holds
  exact ⟨signal, sub member, same⟩

/-- **More signals are no less severe.** -/
theorem severityRank_mono (contained : signals.Subperm more) : severityRank signals ≤ severityRank more := by
  have sub := contained.subset
  have bounded : severityRank signals ≤ 3 := by
    unfold severityRank
    cases (evaluateSignals signals).overallSeverity <;> decide
  have reached : ∀ rank, rank ≤ severityRank signals → rank ≤ 3 → rank ≤ severityRank more := by
    intro rank here small
    interval_cases rank
    · exact Nat.zero_le _
    · rcases medium_le_severity_iff.mp here with emergency | confident | three
      · exact medium_le_severity_iff.mpr (.inl (emergency.mono sub))
      · exact medium_le_severity_iff.mpr (.inr (.inl (confident.mono sub)))
      · exact medium_le_severity_iff.mpr (.inr (.inr (three.trans contained.length_le)))
    · rcases high_le_severity_iff.mp here with emergency | confident | ⟨sybil, confident⟩
      · exact high_le_severity_iff.mpr (.inl (emergency.mono sub))
      · exact high_le_severity_iff.mpr (.inr (.inl (confident.mono sub)))
      · exact high_le_severity_iff.mpr (.inr (.inr ⟨sybil.mono sub, confident.mono sub⟩))
    · rcases critical_le_severity_iff.mp here with emergency | confident
      · exact critical_le_severity_iff.mpr (.inl (emergency.mono sub))
      · exact critical_le_severity_iff.mpr (.inr (confident.mono sub))
  exact reached _ le_rfl bounded

/-- The response follows the severity. -/
theorem triage_of_rank {assessment assessment' : ThreatAssessment}
    (ranks : assessment.overallSeverity.rank ≤ assessment'.overallSeverity.rank) :
    (triage assessment).level.rank ≤ (triage assessment').level.rank ∧
      (triage assessment').timeout ≤ (triage assessment).timeout := by
  unfold triage
  cases severity : assessment.overallSeverity <;> cases severity' : assessment'.overallSeverity <;>
    rw [severity, severity'] at ranks <;> first | exact absurd ranks (by decide) | decide

/-- The Sybil path is the one of High. -/
theorem path_sybil_iff {assessment : ThreatAssessment} :
    (triage assessment).escalationPath = some ⟨"sybil_adjudication"⟩ ↔
      assessment.overallSeverity.rank = 2 := by
  unfold triage
  cases assessment.overallSeverity <;> decide

/-- **Signals that arrive never weaken the response.** Of two sets of signals of which one contains the other, in
whatever order, the greater one is at least as severe, is answered at least at the same level and in no more
time. The path of Sybil adjudication is taken exactly without an emergency and a confidence of ninety, for a
confidence of eighty, or of seventy with a Sybil suspicion. -/
theorem triage_monotone (signals more : List DetectionSignal) (contained : signals.Subperm more) :
    (severityRank signals ≤ severityRank more ∧
      (triage (evaluateSignals signals)).level.rank ≤ (triage (evaluateSignals more)).level.rank ∧
      (triage (evaluateSignals more)).timeout ≤ (triage (evaluateSignals signals)).timeout) ∧
    ((triage (evaluateSignals signals)).escalationPath = some ⟨"sybil_adjudication"⟩ ↔
      ¬ (Holds signals .emergencyCondition ∨ Confident signals 90) ∧
        (Confident signals 80 ∨ (Holds signals .sybilSuspicion ∧ Confident signals 70))) := by
  refine ⟨⟨severityRank_mono contained, triage_of_rank (severityRank_mono contained)⟩, ?_⟩
  have critical : 3 ≤ severityRank signals ↔ _ := critical_le_severity_iff
  have high : 2 ≤ severityRank signals ↔ _ := high_le_severity_iff
  rw [path_sybil_iff, ← critical]
  show severityRank signals = 2 ↔ _
  constructor
  · intro two
    refine ⟨by omega, ?_⟩
    rcases high.mp (by omega) with emergency | rest
    · have three := critical.mpr (.inl emergency)
      omega
    · exact rest
  · rintro ⟨below, rest⟩
    have least := high.mpr (.inr rest)
    omega

/-- A quiet signal, and one more. -/
theorem triage_monotone_quiet :
    let quiet : DetectionSignal := ⟨"log", .anomalousPattern, 20, FixedBytes.fill 32 0, .zero⟩
    (severityRank [quiet] ≤ severityRank [quiet, quiet] ∧
      (triage (evaluateSignals [quiet])).level.rank ≤ (triage (evaluateSignals [quiet, quiet])).level.rank ∧
      (triage (evaluateSignals [quiet, quiet])).timeout ≤ (triage (evaluateSignals [quiet])).timeout) ∧
    ((triage (evaluateSignals [quiet])).escalationPath = some ⟨"sybil_adjudication"⟩ ↔
      ¬ (Holds [quiet] .emergencyCondition ∨ Confident [quiet] 90) ∧
        (Confident [quiet] 80 ∨ (Holds [quiet] .sybilSuspicion ∧ Confident [quiet] 70))) :=
  triage_monotone _ _ (List.sublist_append_left _ _).subperm

/-! ### Feedback -/

/-- A recommendation. -/
structure PolicyRecommendation where
  description : String
  sourceCaseCount : ℕ
  confidence : UInt8
  deriving DecidableEq

/-- How a case turned out. -/
inductive FeedbackOutcome where
  | truePositive
  | falsePositive
  | trueNegative
  | falseNegative
  | inconclusive
  deriving DecidableEq, Repr

/-- The feedback on a case. -/
structure FeedbackEntry where
  caseId : Uuid
  outcome : FeedbackOutcome
  lessonsLearned : String
  policyRecommendations : List String
  deriving DecidableEq

/-- The log of feedback. -/
abbrev FeedbackLog := List FeedbackEntry

/-- Record feedback. -/
def recordFeedback (log : FeedbackLog) (entry : FeedbackEntry) : FeedbackLog := log ++ [entry]

/-- How many cases turned out so. -/
def countOutcome (feedbacks : FeedbackLog) (outcome : FeedbackOutcome) : ℕ :=
  (feedbacks.filter (·.outcome = outcome)).length

/-- The recommendation against false positives. -/
def raiseThresholds (falsePositives : ℕ) : PolicyRecommendation :=
  ⟨"High false positive rate — consider raising confidence thresholds", falsePositives, 80⟩

/-- The recommendation against false negatives. -/
def lowerThresholds (falseNegatives : ℕ) : PolicyRecommendation :=
  ⟨"False negatives detected — consider lowering detection thresholds", falseNegatives, 70⟩

/-- A recommendation of an entry. -/
def fromEntry (text : String) : PolicyRecommendation := ⟨text, 1, 50⟩

/-- Produce recommendations from feedback. -/
def applyLearnings (feedbacks : FeedbackLog) : List PolicyRecommendation :=
  if feedbacks.isEmpty then []
  else
    let falsePositives := countOutcome feedbacks .falsePositive
    let total := feedbacks.length
    let onPositives :=
      if 0 < falsePositives then
        let fpRate := falsePositives * 100 / total
        if 30 ≤ fpRate then [raiseThresholds falsePositives] else []
      else []
    let falseNegatives := countOutcome feedbacks .falseNegative
    let onNegatives := if 0 < falseNegatives then [lowerThresholds falseNegatives] else []
    let collected := feedbacks.foldl (fun state entry =>
      entry.policyRecommendations.foldl BTreeSet.collectNew state) (∅, [])
    onPositives ++ onNegatives ++ collected.2.map fromEntry

/-- The texts that were recommended, each once and where it came first. -/
def lessons (feedbacks : FeedbackLog) : List String :=
  (feedbacks.flatMap FeedbackEntry.policyRecommendations).eraseDups

/-- The loop over the entries collects them. -/
theorem collected_eq (feedbacks : FeedbackLog) :
    (feedbacks.foldl (fun state entry =>
      entry.policyRecommendations.foldl BTreeSet.collectNew state) ((∅ : BTreeSet String), [])).2 =
      lessons feedbacks := by
  rw [← List.foldl_flatMap, BTreeSet.foldl_collectNew, List.nil_append, lessons]
  congr 1
  refine List.filter_eq_self.mpr fun text _ => ?_
  rw [Std.ExtTreeSet.contains_empty, Bool.not_false]

/-- **What is learned.** The threshold is to be raised exactly if at least thirty in a hundred cases, and one at
least, were false positives; it is to be lowered exactly if a case was a false negative; then comes every text
that was recommended, once and where it came first. What comes later adds texts at the end. -/
theorem learnings_exact (feedbacks later : FeedbackLog) :
    applyLearnings feedbacks =
      (if 0 < countOutcome feedbacks .falsePositive ∧
          30 * feedbacks.length ≤ 100 * countOutcome feedbacks .falsePositive then
        [raiseThresholds (countOutcome feedbacks .falsePositive)] else []) ++
      (if 0 < countOutcome feedbacks .falseNegative then
        [lowerThresholds (countOutcome feedbacks .falseNegative)] else []) ++
      (lessons feedbacks).map fromEntry ∧
    (lessons feedbacks).Nodup ∧ lessons feedbacks <+: lessons (feedbacks ++ later) := by
  refine ⟨?_, ?_, ?_⟩
  · cases feedbacks with
    | nil => rfl
    | cons entry rest =>
      have some : 0 < (entry :: rest).length := Nat.succ_pos _
      rw [applyLearnings, if_neg (by simp)]
      dsimp only
      rw [collected_eq]
      generalize countOutcome (entry :: rest) .falsePositive = falsePositives
      have rate : 30 ≤ falsePositives * 100 / (entry :: rest).length ↔
          30 * (entry :: rest).length ≤ 100 * falsePositives := by
        rw [Nat.le_div_iff_mul_le some, Nat.mul_comm falsePositives]
      simp only [rate, ← ite_and]
  · exact BTreeSet.nodup_eraseDups _
  · rw [lessons, lessons, List.flatMap_append, List.eraseDups_append]
    exact List.prefix_append _ _

end Exochain.ExoEscalation
