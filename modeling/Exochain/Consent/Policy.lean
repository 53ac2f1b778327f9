/-
**`exo-consent` — bailments and policies.**

A bailment is a consent agreement with a status and, possibly, an expiry. A policy lists what an action
requires; it is evaluated against the consents of the actor. The evaluation goes through the
requirements for the action: one that no consent meets is denied, or escalated to the bailor of an
active delegation, and otherwise the earliest expiry of the consents that meet them is collected.

* `evaluate_activeOnly` — consents whose bailments are not active do not count.
* `evaluate_granted_iff` — when an action is granted.
* `no_later_of_granted` — the expiry of a grant is not after that of any consent that counts for it.
* **`granted_until`**, **`granted_earlier`** — a grant lasts until its expiry, and what is granted later
  is granted before.
-/

import Exochain.Core.Types

set_option linter.unusedSectionVars false

namespace Exochain.ExoConsent

open Foundation ExoCore

/-! ### Bailments -/

/-- The type of a bailment. -/
inductive BailmentType where
  | custody
  | processing
  | delegation
  | emergency
  deriving DecidableEq, Repr

/-- The lifecycle state of a bailment. -/
inductive BailmentStatus where
  | proposed
  | active
  | suspended
  | terminated
  | expired
  deriving DecidableEq, Repr

/-- A consent agreement. -/
structure Bailment where
  id : String
  bailorDid : Did
  baileeDid : Did
  bailmentType : BailmentType
  termsHash : Hash256
  created : Timestamp
  expires : Option Timestamp
  status : BailmentStatus
  signature : Signature
  deriving DecidableEq

namespace Bailment

/-- Whether a bailment is active and not expired. -/
def isActive (bailment : Bailment) (now : Timestamp) : Bool :=
  if bailment.status ≠ .active then false
  else
    match bailment.expires with
    | some exp => !exp.isExpired now
    | none => true

theorem isActive_iff {bailment : Bailment} {now : Timestamp} :
    bailment.isActive now = true ↔
      bailment.status = .active ∧ ∀ exp ∈ bailment.expires, now < exp := by
  unfold isActive
  by_cases active : bailment.status = .active
  · rw [if_neg (not_not_intro active)]
    cases bailment.expires with
    | none => simp [active]
    | some exp => simp [active, Timestamp.isExpired]
  · rw [if_pos active]
    simp [active]

/-- What is active later is active before. -/
theorem isActive_of_le {bailment : Bailment} {now later : Timestamp} (before : now ≤ later)
    (active : bailment.isActive later = true) : bailment.isActive now = true := by
  rw [isActive_iff] at active ⊢
  exact ⟨active.1, fun exp expires => before.trans_lt (active.2 exp expires)⟩

end Bailment

/-! ### Policies -/

/-- What an action requires. -/
structure ConsentRequirement where
  actionType : String
  requiredRole : String
  minClearanceLevel : UInt32
  deriving DecidableEq

/-- A policy. -/
structure ConsentPolicy where
  id : String
  name : String
  requiredConsents : List ConsentRequirement
  denyByDefault : Bool
  deriving DecidableEq

/-- A consent backed by a bailment. -/
structure ActiveConsent where
  grantor : Did
  actionType : String
  role : String
  clearanceLevel : UInt32
  bailment : Bailment
  deriving DecidableEq

/-- A request to act. -/
structure ActionRequest where
  actor : Did
  actionType : String
  deriving DecidableEq

/-- The result of an evaluation. -/
inductive ConsentDecision where
  | granted (expires : Option Timestamp)
  | denied (reason : String)
  | escalated (target : Did)
  deriving DecidableEq

namespace PolicyEngine

/-- Whether a consent meets a requirement. -/
def satisfies (req : ConsentRequirement) (now : Timestamp) (consent : ActiveConsent) : Bool :=
  consent.actionType = req.actionType && consent.role = req.requiredRole &&
    decide (req.minClearanceLevel ≤ consent.clearanceLevel) && consent.bailment.isActive now

/-- The earlier of the expiry so far and another one. -/
def earlier (exp : Timestamp) : Option Timestamp → Timestamp
  | some cur => if exp < cur then exp else cur
  | none => exp

/-- The earliest expiry so far, after the consents that meet a requirement. -/
def trackExpiry (consents : List ActiveConsent) (req : ConsentRequirement) (now : Timestamp)
    (earliest : Option Timestamp) : Option Timestamp :=
  consents.foldl
    (fun earliest consent =>
      if satisfies req now consent then
        match consent.bailment.expires with
        | some exp => some (earlier exp earliest)
        | none => earliest
      else earliest)
    earliest

/-- Whether a requirement that is not met can be escalated through a consent. -/
def escalates (req : ConsentRequirement) (now : Timestamp) (consent : ActiveConsent) : Bool :=
  consent.actionType = req.actionType && consent.bailment.bailmentType = .delegation &&
    consent.bailment.isActive now

/-- The loop over the requirements, with the earliest expiry so far. -/
def evaluateAll (consents : List ActiveConsent) (now : Timestamp) :
    List ConsentRequirement → Option Timestamp → ConsentDecision
  | [], earliest => .granted earliest
  | req :: rest, earliest =>
    if !consents.any (satisfies req now) then
      match consents.find? (escalates req now) with
      | some consent => .escalated consent.bailment.bailorDid
      | none =>
        .denied ("requirement not met: action='" ++ req.actionType ++ "', role='" ++
          req.requiredRole ++ "', clearance>=" ++ toString req.minClearanceLevel)
    else evaluateAll consents now rest (trackExpiry consents req now earliest)

/-- The requirements for an action. -/
def applicable (policy : ConsentPolicy) (action : String) : List ConsentRequirement :=
  policy.requiredConsents.filter fun req => req.actionType = action

/-- Evaluate a policy against the consents of an actor. -/
def evaluate (policy : ConsentPolicy) (consents : List ActiveConsent) (action : ActionRequest)
    (now : Timestamp) : ConsentDecision :=
  if (applicable policy action.actionType).isEmpty then
    if policy.denyByDefault then
      .denied ("no policy covers action '" ++ action.actionType ++ "' and deny_by_default is true")
    else .granted none
  else evaluateAll consents now (applicable policy action.actionType) none

/-! ### Inactive consents do not count -/

section Active

variable (consents : List ActiveConsent) (req : ConsentRequirement) (now : Timestamp)

/-- The consents whose bailments are active. -/
def activeOnly (consents : List ActiveConsent) (now : Timestamp) : List ActiveConsent :=
  consents.filter fun consent => consent.bailment.isActive now

theorem active_and_satisfies (consent : ActiveConsent) :
    (consent.bailment.isActive now && satisfies req now consent) = satisfies req now consent := by
  unfold satisfies
  rw [Bool.and_left_comm, Bool.and_self]

theorem active_and_escalates (consent : ActiveConsent) :
    (consent.bailment.isActive now && escalates req now consent) = escalates req now consent := by
  unfold escalates
  rw [Bool.and_left_comm, Bool.and_self]

theorem any_activeOnly :
    (activeOnly consents now).any (satisfies req now) = consents.any (satisfies req now) := by
  unfold activeOnly
  rw [List.any_filter]
  congr 1
  funext consent
  exact active_and_satisfies req now consent

theorem find?_activeOnly :
    (activeOnly consents now).find? (escalates req now) = consents.find? (escalates req now) := by
  unfold activeOnly
  rw [List.find?_filter]
  congr 1
  funext consent
  simpa using active_and_escalates req now consent

theorem trackExpiry_activeOnly (earliest : Option Timestamp) :
    trackExpiry (activeOnly consents now) req now earliest =
      trackExpiry consents req now earliest := by
  unfold trackExpiry activeOnly
  rw [List.foldl_filter]
  congr 1
  funext earliest consent
  -- an inactive consent leaves the expiry as it is on both sides
  by_cases active : consent.bailment.isActive now = true
  · rw [if_pos active]
  · have unmet : ¬ satisfies req now consent = true := fun meets =>
      active (Bool.and_eq_true_iff.mp meets).2
    rw [if_neg active, if_neg unmet]

theorem evaluateAll_activeOnly (reqs : List ConsentRequirement) (earliest : Option Timestamp) :
    evaluateAll (activeOnly consents now) now reqs earliest =
      evaluateAll consents now reqs earliest := by
  induction reqs generalizing earliest with
  | nil => rfl
  | cons req reqs ih =>
    rw [evaluateAll, evaluateAll, any_activeOnly, find?_activeOnly, trackExpiry_activeOnly, ih]

/-- **Only active consents count**: the decision is the same with the others left out. -/
theorem evaluate_activeOnly (policy : ConsentPolicy) (action : ActionRequest) :
    evaluate policy (activeOnly consents now) action now = evaluate policy consents action now := by
  unfold evaluate
  rw [evaluateAll_activeOnly]

end Active

/-! ### When an action is granted -/

section Granted

variable {policy : ConsentPolicy} {consents : List ActiveConsent} {now later : Timestamp}
  {reqs : List ConsentRequirement} {earliest expires : Option Timestamp} {action : ActionRequest}

/-- Every requirement is met by a consent. -/
def AllMet (consents : List ActiveConsent) (now : Timestamp) (reqs : List ConsentRequirement) : Prop :=
  ∀ req ∈ reqs, ∃ consent ∈ consents, satisfies req now consent = true

theorem evaluateAll_granted_iff :
    (∃ expires, evaluateAll consents now reqs earliest = .granted expires) ↔
      AllMet consents now reqs := by
  induction reqs generalizing earliest with
  | nil => exact iff_of_true ⟨earliest, rfl⟩ fun _ member => absurd member List.not_mem_nil
  | cons req reqs ih =>
    have first : consents.any (satisfies req now) = true ↔
        ∃ consent ∈ consents, satisfies req now consent = true := List.any_eq_true
    rw [AllMet, List.forall_mem_cons, ← first, evaluateAll]
    cases met : consents.any (satisfies req now) with
    | true => simpa [AllMet] using ih
    | false =>
      -- the answer is a denial or an escalation
      cases consents.find? (escalates req now) with
      | none => simp
      | some consent => simp

/-- **When an action is granted**: nothing is required and the policy does not deny by default, or
everything that is required is met. -/
theorem evaluate_granted_iff :
    (∃ expires, evaluate policy consents action now = .granted expires) ↔
      (applicable policy action.actionType = [] ∧ policy.denyByDefault = false) ∨
      (applicable policy action.actionType ≠ [] ∧
        AllMet consents now (applicable policy action.actionType)) := by
  unfold evaluate
  by_cases none : applicable policy action.actionType = []
  · rw [if_pos (List.isEmpty_iff.mpr none)]
    cases policy.denyByDefault with
    | true => simp [none]
    | false => simp [none]
  · rw [if_neg (by simpa using none), evaluateAll_granted_iff]
    simp [none]

/-! ### Expiry -/

/-- The expiry is set, and not after the time. -/
def NoLater (expires : Option Timestamp) (time : Timestamp) : Prop := ∃ exp ∈ expires, exp ≤ time

theorem noLater_earlier {exp time : Timestamp} (bounded : NoLater earliest time) :
    NoLater (some (earlier exp earliest)) time := by
  obtain ⟨cur, rfl, before⟩ := bounded
  refine ⟨_, rfl, le_trans ?_ before⟩
  show (if exp < cur then exp else cur) ≤ cur
  split_ifs with less
  · exact less.le
  · exact le_rfl

theorem noLater_earlier_self (exp : Timestamp) (earliest : Option Timestamp) :
    NoLater (some (earlier exp earliest)) exp := by
  refine ⟨_, rfl, ?_⟩
  cases earliest with
  | none => exact le_rfl
  | some cur =>
    show (if exp < cur then exp else cur) ≤ exp
    split_ifs with less
    · exact le_rfl
    · exact not_lt.mp less

/-- **What the inner loop collects**: a bound that was there stays, and every consent that meets the
requirement bounds the expiry by its own. -/
theorem noLater_trackExpiry {req : ConsentRequirement} {time : Timestamp}
    (bounded : NoLater earliest time ∨
      ∃ consent ∈ consents, satisfies req now consent = true ∧ time ∈ consent.bailment.expires) :
    NoLater (trackExpiry consents req now earliest) time := by
  unfold trackExpiry
  induction consents generalizing earliest with
  | nil =>
    rcases bounded with here | ⟨_, member, -⟩
    · exact here
    · cases member
  | cons consent consents ih =>
    rw [List.foldl_cons]
    apply ih
    rcases bounded with here | ⟨counted, member, meets, expires⟩
    · left
      split
      · split
        · exact noLater_earlier here
        · exact here
      · exact here
    · rcases List.mem_cons.mp member with rfl | later
      · left
        rw [if_pos meets, Option.mem_def.mp expires]
        exact noLater_earlier_self _ _
      · exact .inr ⟨counted, later, meets, expires⟩

/-- The expiry of a grant is not after the expiry so far, nor after that of a consent that counts. -/
theorem noLater_of_evaluateAll (granted : evaluateAll consents now reqs earliest = .granted expires)
    {time : Timestamp}
    (bounded : NoLater earliest time ∨ ∃ req ∈ reqs, ∃ consent ∈ consents,
      satisfies req now consent = true ∧ time ∈ consent.bailment.expires) :
    NoLater expires time := by
  induction reqs generalizing earliest with
  | nil =>
    rw [evaluateAll, ConsentDecision.granted.injEq] at granted
    rcases bounded with here | ⟨_, member, -⟩
    · exact granted ▸ here
    · cases member
  | cons req reqs ih =>
    rw [evaluateAll] at granted
    split at granted
    · split at granted
      · cases granted
      · cases granted
    · refine ih granted ?_
      rcases bounded with here | ⟨counted, member, consent, held, meets, expires⟩
      · exact .inl (noLater_trackExpiry (.inl here))
      · rcases List.mem_cons.mp member with rfl | rest
        · exact .inl (noLater_trackExpiry (.inr ⟨consent, held, meets, expires⟩))
        · exact .inr ⟨counted, rest, consent, held, meets, expires⟩

/-- **The expiry of a grant is not after that of any consent that counts for it.** -/
theorem no_later_of_granted (granted : evaluate policy consents action now = .granted expires)
    {req : ConsentRequirement} (required : req ∈ applicable policy action.actionType)
    {consent : ActiveConsent} (held : consent ∈ consents) (meets : satisfies req now consent = true)
    {time : Timestamp} (limited : time ∈ consent.bailment.expires) : NoLater expires time := by
  unfold evaluate at granted
  rw [if_neg (by simpa using List.ne_nil_of_mem required)] at granted
  exact noLater_of_evaluateAll granted (.inr ⟨req, required, consent, held, meets, limited⟩)

end Granted

/-! ### Grants over time -/

section Time

variable {policy : ConsentPolicy} {consents : List ActiveConsent} {now later : Timestamp}
  {expires : Option Timestamp} {action : ActionRequest}

theorem satisfies_iff {req : ConsentRequirement} {consent : ActiveConsent} :
    satisfies req now consent = true ↔
      consent.actionType = req.actionType ∧ consent.role = req.requiredRole ∧
        req.minClearanceLevel ≤ consent.clearanceLevel ∧ consent.bailment.isActive now = true := by
  simp only [satisfies, Bool.and_eq_true, decide_eq_true_eq, and_assoc]

/-- **What is granted later is granted before.** -/
theorem granted_earlier (before : now ≤ later)
    (granted : ∃ expires, evaluate policy consents action later = .granted expires) :
    ∃ expires, evaluate policy consents action now = .granted expires := by
  rw [evaluate_granted_iff] at granted ⊢
  refine granted.imp_right fun ⟨some_required, met⟩ => ⟨some_required, fun req required => ?_⟩
  obtain ⟨consent, held, meets⟩ := met req required
  obtain ⟨actions, roles, clearance, active⟩ := satisfies_iff.mp meets
  exact ⟨consent, held, satisfies_iff.mpr
    ⟨actions, roles, clearance, Bailment.isActive_of_le before active⟩⟩

/-- **A grant lasts until its expiry**: a consent that met a requirement still does. -/
theorem granted_until (granted : evaluate policy consents action now = .granted expires)
    (unexpired : ∀ exp ∈ expires, later < exp) :
    ∃ expires', evaluate policy consents action later = .granted expires' := by
  rw [evaluate_granted_iff]
  refine (evaluate_granted_iff.mp ⟨expires, granted⟩).imp_right
    fun ⟨some_required, met⟩ => ⟨some_required, fun req required => ?_⟩
  obtain ⟨consent, held, meets⟩ := met req required
  obtain ⟨actions, roles, clearance, active⟩ := satisfies_iff.mp meets
  refine ⟨consent, held, satisfies_iff.mpr ⟨actions, roles, clearance, ?_⟩⟩
  rw [Bailment.isActive_iff] at active ⊢
  refine ⟨active.1, fun exp limited => ?_⟩
  obtain ⟨first, reported, before⟩ := no_later_of_granted granted required held meets limited
  exact (unexpired first reported).trans_le before

end Time

end PolicyEngine

end Exochain.ExoConsent
