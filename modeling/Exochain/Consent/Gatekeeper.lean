/-
**`exo-consent` — the consent gate.**

The gate keeps the consents registered for each actor and the bailments of each bailee, and evaluates
its policy against the consents of the actor whose bailments are active. A revocation drops every
consent and every bailment with the identifier; lists that become empty stay in the maps.

* `mem_regs_run_iff` — the consents of an actor after a run are those registered and not revoked later.
* **`check_grants_consented`** — the gate grants exactly what is consented, over every run, and the
  expiry of a grant is honest.
* **`revocation_leaves_no_trace`** — after a revocation the gate decides as if nothing had been
  registered under the identifier, and so it does after whatever follows.
-/

import Exochain.Foundation.Collections
import Exochain.Foundation.Run
import Exochain.Consent.Policy

set_option linter.unusedSectionVars false

namespace Exochain.ExoConsent

open Foundation ExoCore

/-! ### The gate -/

/-- A registered consent. -/
structure ConsentReg where
  actionType : String
  role : String
  clearanceLevel : UInt32
  bailment : Bailment
  deriving DecidableEq

/-- The gate: the policy, the bailments of each bailee and the consents of each actor. -/
structure ConsentGate where
  policy : ConsentPolicy
  bailments : BTreeMap String (List Bailment)
  consents : BTreeMap String (List ConsentReg)

namespace ConsentGate

/-- A gate without consents. -/
def new (policy : ConsentPolicy) : ConsentGate := ⟨policy, ∅, ∅⟩

/-- Register a bailment under its bailee. -/
def registerBailment (gate : ConsentGate) (bailment : Bailment) : ConsentGate :=
  { gate with
    bailments := BTreeMap.upsert gate.bailments bailment.baileeDid.value [] (· ++ [bailment]) }

/-- Register a consent of an actor. -/
def registerConsent (gate : ConsentGate) (actor : Did) (actionType role : String)
    (clearanceLevel : UInt32) (bailment : Bailment) : ConsentGate :=
  { gate with
    consents := BTreeMap.upsert gate.consents actor.value []
      (· ++ [⟨actionType, role, clearanceLevel, bailment⟩]) }

/-- Drop the consents and the bailments with an identifier. -/
def revokeByBailmentId (gate : ConsentGate) (bailmentId : String) : ConsentGate :=
  { gate with
    consents := gate.consents.map fun _ regs => regs.filter fun reg => reg.bailment.id ≠ bailmentId
    bailments := gate.bailments.map fun _ held => held.filter fun bailment =>
      bailment.id ≠ bailmentId }

/-- Replace the policy. -/
def setPolicy (gate : ConsentGate) (policy : ConsentPolicy) : ConsentGate :=
  { gate with policy := policy }

/-- The consents registered for an actor. -/
def regs (gate : ConsentGate) (actor : Did) : List ConsentReg :=
  gate.consents[actor.value]?.getD []

end ConsentGate

/-- A registered consent as the policy sees it. -/
def ConsentReg.toActive (reg : ConsentReg) : ActiveConsent where
  grantor := reg.bailment.bailorDid
  actionType := reg.actionType
  role := reg.role
  clearanceLevel := reg.clearanceLevel
  bailment := reg.bailment

namespace ConsentGate

/-- The consents of an actor whose bailments are active. -/
def activeConsents (gate : ConsentGate) (actor : Did) (now : Timestamp) : List ActiveConsent :=
  ((gate.regs actor).filter fun reg => reg.bailment.isActive now).map ConsentReg.toActive

/-- Check whether an actor may act. -/
def check (gate : ConsentGate) (actor : Did) (action : String) (now : Timestamp) : ConsentDecision :=
  PolicyEngine.evaluate gate.policy (gate.activeConsents actor now) ⟨actor, action⟩ now

/-- A call that changes the gate. -/
inductive Call where
  | registerBailment (bailment : Bailment)
  | registerConsent (actor : Did) (actionType role : String) (clearanceLevel : UInt32)
      (bailment : Bailment)
  | revokeByBailmentId (bailmentId : String)
  | setPolicy (policy : ConsentPolicy)
  deriving DecidableEq

/-- The gate after a call. -/
def step (gate : ConsentGate) : Call → ConsentGate
  | .registerBailment bailment => gate.registerBailment bailment
  | .registerConsent actor actionType role clearanceLevel bailment =>
    gate.registerConsent actor actionType role clearanceLevel bailment
  | .revokeByBailmentId bailmentId => gate.revokeByBailmentId bailmentId
  | .setPolicy policy => gate.setPolicy policy

/-! ### The consents after a call -/

section Step

variable {gate : ConsentGate} {actor : Did} {reg : ConsentReg}

theorem regs_registerConsent (gate : ConsentGate) (owner : Did) (actionType role : String)
    (clearanceLevel : UInt32) (bailment : Bailment) (actor : Did) :
    (gate.registerConsent owner actionType role clearanceLevel bailment).regs actor =
      if owner = actor then gate.regs actor ++ [⟨actionType, role, clearanceLevel, bailment⟩]
      else gate.regs actor := by
  unfold regs registerConsent
  rw [BTreeMap.getD_upsert]
  simp only [Did.ext_iff]

theorem regs_revokeByBailmentId (gate : ConsentGate) (bailmentId : String) (actor : Did) :
    (gate.revokeByBailmentId bailmentId).regs actor =
      (gate.regs actor).filter fun reg => reg.bailment.id ≠ bailmentId := by
  unfold regs revokeByBailmentId
  simp only [Std.ExtTreeMap.getElem?_map]
  cases gate.consents[actor.value]? with
  | none => rfl
  | some held => rfl

/-- The call registers the consent for the actor. -/
def Call.Registers (actor : Did) (reg : ConsentReg) (call : Call) : Prop :=
  call = .registerConsent actor reg.actionType reg.role reg.clearanceLevel reg.bailment

/-- **What one call does to the consents of an actor.** -/
theorem mem_regs_step_iff (call : Call) :
    reg ∈ (gate.step call).regs actor ↔
      (reg ∈ gate.regs actor ∧ call ≠ .revokeByBailmentId reg.bailment.id) ∨
        call.Registers actor reg := by
  unfold Call.Registers
  cases call with
  | registerBailment bailment => simp [step, registerBailment, regs]
  | setPolicy policy => simp [step, setPolicy, regs]
  | revokeByBailmentId bailmentId =>
    rw [step, regs_revokeByBailmentId, List.mem_filter]
    simp [ne_comm]
  | registerConsent owner actionType role clearanceLevel bailment =>
    rw [step, regs_registerConsent]
    by_cases own : owner = actor
    · rw [if_pos own, List.mem_append, List.mem_singleton]
      obtain ⟨action, part, level, held⟩ := reg
      simp [own, eq_comm]
    · simp [own]

end Step

/-! ### The consents after a run -/

/-- The consent was registered for the actor in the run, and its bailment identifier was not revoked
afterwards. -/
def Standing (calls : List Call) (actor : Did) (reg : ConsentReg) : Prop :=
  ∃ before call after, calls = before ++ call :: after ∧ call.Registers actor reg ∧
    Call.revokeByBailmentId reg.bailment.id ∉ after

/-- One more call. -/
theorem standing_concat_iff {calls : List Call} {last : Call} {actor : Did} {reg : ConsentReg} :
    Standing (calls ++ [last]) actor reg ↔
      (Standing calls actor reg ∧ last ≠ .revokeByBailmentId reg.bailment.id) ∨
        last.Registers actor reg := by
  constructor
  · rintro ⟨before, call, after, split, registers, unrevoked⟩
    induction after using List.reverseRecOn with
    | nil =>
      obtain ⟨-, rfl⟩ := List.append_inj' split rfl |>.imp_right List.singleton_inj.mp
      exact .inr registers
    | append_singleton after final _ =>
      rw [← List.cons_append, ← List.append_assoc] at split
      obtain ⟨calls_eq, rfl⟩ := (List.append_inj' split rfl).imp_right List.singleton_inj.mp
      rw [List.mem_append, not_or, List.mem_singleton] at unrevoked
      exact .inl ⟨⟨before, call, after, calls_eq, registers, unrevoked.1⟩, Ne.symm unrevoked.2⟩
  · rintro (⟨⟨before, call, after, rfl, registers, unrevoked⟩, other⟩ | registers)
    · refine ⟨before, call, after ++ [last], by simp, registers, ?_⟩
      rw [List.mem_append, List.mem_singleton, not_or]
      exact ⟨unrevoked, Ne.symm other⟩
    · exact ⟨calls, last, [], rfl, registers, List.not_mem_nil⟩

/-- **The consents of an actor after a run** are those registered for the actor and not revoked
afterwards. -/
theorem mem_regs_run_iff (policy : ConsentPolicy) (calls : List Call) {actor : Did}
    {reg : ConsentReg} :
    reg ∈ (run step (new policy) calls).regs actor ↔ Standing calls actor reg := by
  induction calls using List.reverseRecOn with
  | nil =>
    refine iff_of_false (by simp [new, regs]) ?_
    rintro ⟨before, call, after, split, -⟩
    simp at split
  | append_singleton calls last ih =>
    rw [run_append, run_cons, run_nil, mem_regs_step_iff, ih, standing_concat_iff]

/-- The policy that a call sets. -/
def Call.newPolicy : Call → Option ConsentPolicy
  | .setPolicy policy => some policy
  | .registerBailment _ => none
  | .registerConsent _ _ _ _ _ => none
  | .revokeByBailmentId _ => none

/-- The policy that was set last; the first one if none was. -/
def lastPolicy (policy : ConsentPolicy) (calls : List Call) : ConsentPolicy :=
  (calls.filterMap Call.newPolicy).getLast?.getD policy

theorem policy_step (gate : ConsentGate) (call : Call) :
    (gate.step call).policy = call.newPolicy.getD gate.policy := by
  cases call with
  | registerBailment bailment => rfl
  | registerConsent actor actionType role clearanceLevel bailment => rfl
  | revokeByBailmentId bailmentId => rfl
  | setPolicy policy => rfl

theorem policy_run (policy : ConsentPolicy) (calls : List Call) :
    (run step (new policy) calls).policy = lastPolicy policy calls := by
  induction calls using List.reverseRecOn with
  | nil => rfl
  | append_singleton calls last ih =>
    rw [run_append, run_cons, run_nil, policy_step, ih, lastPolicy, lastPolicy,
      List.filterMap_append]
    cases set : last.newPolicy with
    | none => rw [List.filterMap_cons_none set, List.filterMap_nil, List.append_nil, Option.getD_none]
    | some next =>
      rw [List.filterMap_cons_some set, List.filterMap_nil, List.getLast?_concat, Option.getD_some,
        Option.getD_some]

/-! ### The decisions of the gate -/

section Decisions

variable {gate : ConsentGate} {actor : Did} {action : String} {now later : Timestamp}

/-- The gate decides on all the consents of the actor. -/
theorem check_eq (gate : ConsentGate) (actor : Did) (action : String) (now : Timestamp) :
    gate.check actor action now =
      PolicyEngine.evaluate gate.policy ((gate.regs actor).map ConsentReg.toActive)
        ⟨actor, action⟩ now := by
  have active : gate.activeConsents actor now =
      PolicyEngine.activeOnly ((gate.regs actor).map ConsentReg.toActive) now := by
    unfold activeConsents PolicyEngine.activeOnly
    rw [List.filter_map]
    rfl
  rw [check, active, PolicyEngine.evaluate_activeOnly]

/-- The action is granted at the time. -/
def Grants (gate : ConsentGate) (actor : Did) (action : String) (now : Timestamp) : Prop :=
  ∃ expires, gate.check actor action now = .granted expires

/-- A registered consent meets a requirement at the time. -/
structure Meets (reg : ConsentReg) (req : ConsentRequirement) (now : Timestamp) : Prop where
  action : reg.actionType = req.actionType
  role : reg.role = req.requiredRole
  clearance : req.minClearanceLevel ≤ reg.clearanceLevel
  active : reg.bailment.isActive now = true

/-- What the actor consented to in a run: nothing is required for the action and the policy set last
does not deny by default, or everything that is required is met by a consent that stands. -/
def Consented (policy : ConsentPolicy) (calls : List Call) (actor : Did) (action : String)
    (now : Timestamp) : Prop :=
  let reqs := PolicyEngine.applicable (lastPolicy policy calls) action
  (reqs = [] ∧ (lastPolicy policy calls).denyByDefault = false) ∨
    (reqs ≠ [] ∧ ∀ req ∈ reqs, ∃ reg, Standing calls actor reg ∧ Meets reg req now)

theorem satisfies_toActive_iff {reg : ConsentReg} {req : ConsentRequirement} :
    PolicyEngine.satisfies req now reg.toActive = true ↔ Meets reg req now := by
  rw [PolicyEngine.satisfies_iff]
  exact ⟨fun ⟨action, role, clearance, active⟩ => ⟨action, role, clearance, active⟩,
    fun ⟨action, role, clearance, active⟩ => ⟨action, role, clearance, active⟩⟩

/-- The gate grants what is consented, and nothing else. -/
theorem grants_run_iff (policy : ConsentPolicy) (calls : List Call) (actor : Did) (action : String)
    (now : Timestamp) :
    (run step (new policy) calls).Grants actor action now ↔
      Consented policy calls actor action now := by
  unfold Grants Consented
  simp only [check_eq, PolicyEngine.evaluate_granted_iff, policy_run, PolicyEngine.AllMet,
    List.mem_map, exists_exists_and_eq_and, satisfies_toActive_iff, mem_regs_run_iff]

/-- A grant lasts until its expiry. -/
theorem grants_until {expires : Option Timestamp}
    (granted : gate.check actor action now = .granted expires)
    (unexpired : ∀ exp ∈ expires, later < exp) : gate.Grants actor action later := by
  unfold Grants
  rw [check_eq] at granted ⊢
  exact PolicyEngine.granted_until granted unexpired

/-- What is granted later is granted before. -/
theorem grants_earlier (before : now ≤ later) (granted : gate.Grants actor action later) :
    gate.Grants actor action now := by
  unfold Grants at granted ⊢
  rw [check_eq] at granted ⊢
  exact PolicyEngine.granted_earlier before granted

end Decisions

/-- **The gate grants exactly what is consented, and its expiry is honest**, over every run: a grant
lasts until its expiry, for ever if it has none, and what is granted later is granted before. -/
theorem check_grants_consented (policy : ConsentPolicy) (calls : List Call) (actor : Did)
    (action : String) :
    (∀ now, (run step (new policy) calls).Grants actor action now ↔
      Consented policy calls actor action now) ∧
    (∀ now later expires, (run step (new policy) calls).check actor action now = .granted expires →
      now ≤ later → (∀ exp ∈ expires, later < exp) →
      (run step (new policy) calls).Grants actor action later) ∧
    (∀ now later, now ≤ later → (run step (new policy) calls).Grants actor action later →
      (run step (new policy) calls).Grants actor action now) :=
  ⟨fun now => grants_run_iff policy calls actor action now,
    fun _ _ _ granted _ unexpired => grants_until granted unexpired,
    fun _ _ before granted => grants_earlier before granted⟩

namespace Sample

/-- A bailment of alice's data to bob, until time 100. -/
def reading : Bailment where
  id := "reading"
  bailorDid := ⟨"did:exo:alice"⟩
  baileeDid := ⟨"did:exo:bob"⟩
  bailmentType := .processing
  termsHash := FixedBytes.fill 32 7
  created := ⟨0, 0⟩
  expires := some ⟨100, 0⟩
  status := .active
  signature := .empty

/-- Reading needs the consent of a reader. -/
def readers : ConsentPolicy := ⟨"readers", "Readers", [⟨"read", "reader", 1⟩], true⟩

/-- Bob registers the consent. -/
def readingCalls : List Call :=
  [.registerBailment reading, .registerConsent ⟨"did:exo:bob"⟩ "read" "reader" 2 reading]

theorem reading_stands : Standing readingCalls ⟨"did:exo:bob"⟩ ⟨"read", "reader", 2, reading⟩ :=
  ⟨[.registerBailment reading], _, [], rfl, rfl, List.not_mem_nil⟩

theorem reading_consented :
    Consented readers readingCalls ⟨"did:exo:bob"⟩ "read" ⟨50, 0⟩ := by
  have required : PolicyEngine.applicable (lastPolicy readers readingCalls) "read" =
      [⟨"read", "reader", 1⟩] := by decide
  refine .inr ⟨by rw [required]; exact List.cons_ne_nil _ _, fun req member => ?_⟩
  rw [required, List.mem_singleton] at member
  subst member
  exact ⟨_, reading_stands, rfl, rfl, by decide, by decide⟩

/-- Bob may read at time 50, and so at time 20. -/
theorem reading_granted :
    (run step (new readers) readingCalls).Grants ⟨"did:exo:bob"⟩ "read" ⟨50, 0⟩ ∧
      (run step (new readers) readingCalls).Grants ⟨"did:exo:bob"⟩ "read" ⟨20, 0⟩ := by
  obtain ⟨consented, -, before⟩ :=
    check_grants_consented readers readingCalls ⟨"did:exo:bob"⟩ "read"
  have granted := (consented ⟨50, 0⟩).mpr reading_consented
  exact ⟨granted, before ⟨20, 0⟩ ⟨50, 0⟩ (by decide) granted⟩

end Sample

/-! ### Revocation -/

section Revocation

variable {gate other : ConsentGate} {bailmentId : String}

/-- The call registers a consent or a bailment with the identifier. -/
def Call.concerns (bailmentId : String) : Call → Bool
  | .registerBailment bailment => bailment.id = bailmentId
  | .registerConsent _ _ _ _ bailment => bailment.id = bailmentId
  | .revokeByBailmentId _ => false
  | .setPolicy _ => false

/-- Two gates with the same policy and the same consents; their bailments may differ. -/
structure Agree (gate other : ConsentGate) : Prop where
  policy : gate.policy = other.policy
  regs : ∀ actor, gate.regs actor = other.regs actor

/-- Two gates that agree once the identifier is revoked. -/
def AgreeUpTo (bailmentId : String) (gate other : ConsentGate) : Prop :=
  Agree (gate.revokeByBailmentId bailmentId) (other.revokeByBailmentId bailmentId)

theorem Agree.check (agree : Agree gate other) (actor : Did) (action : String) (now : Timestamp) :
    gate.check actor action now = other.check actor action now := by
  rw [check_eq, check_eq, agree.policy, agree.regs]

/-- Gates that agree do so after a call. -/
theorem Agree.step (agree : Agree gate other) (call : Call) :
    Agree (gate.step call) (other.step call) := by
  cases call with
  | registerBailment bailment => exact ⟨agree.policy, agree.regs⟩
  | setPolicy policy => exact ⟨rfl, agree.regs⟩
  | revokeByBailmentId revoked =>
    refine ⟨agree.policy, fun actor => ?_⟩
    show (gate.revokeByBailmentId revoked).regs actor = (other.revokeByBailmentId revoked).regs actor
    rw [regs_revokeByBailmentId, regs_revokeByBailmentId, agree.regs]
  | registerConsent owner actionType role clearanceLevel bailment =>
    refine ⟨agree.policy, fun actor => ?_⟩
    show (gate.registerConsent owner actionType role clearanceLevel bailment).regs actor =
      (other.registerConsent owner actionType role clearanceLevel bailment).regs actor
    rw [regs_registerConsent, regs_registerConsent, agree.regs]

/-- Gates that agree do so after a run. -/
theorem Agree.run (agree : Agree gate other) (calls : List Call) :
    Agree (Foundation.run ConsentGate.step gate calls) (Foundation.run ConsentGate.step other calls) :=
  run_relates (R := Agree) (fun _ _ call agree => agree.step call) agree calls

/-- Revoking the identifier commutes with a call that does not concern it. -/
theorem agree_revoke_step {call : Call} (unconcerned : call.concerns bailmentId = false)
    (gate : ConsentGate) :
    Agree ((gate.step call).revokeByBailmentId bailmentId)
      ((gate.revokeByBailmentId bailmentId).step call) := by
  cases call with
  | registerBailment bailment => exact ⟨rfl, fun _ => rfl⟩
  | setPolicy policy => exact ⟨rfl, fun _ => rfl⟩
  | revokeByBailmentId revoked =>
    refine ⟨rfl, fun actor => ?_⟩
    simp only [ConsentGate.step, regs_revokeByBailmentId, List.filter_filter, Bool.and_comm]
  | registerConsent owner actionType role clearanceLevel bailment =>
    refine ⟨rfl, fun actor => ?_⟩
    have kept : bailment.id ≠ bailmentId := of_decide_eq_false unconcerned
    simp only [ConsentGate.step, regs_revokeByBailmentId, regs_registerConsent]
    by_cases own : owner = actor
    · rw [if_pos own, if_pos own, List.filter_append]
      simp [kept]
    · rw [if_neg own, if_neg own]

/-- A call that concerns the identifier is undone by revoking it. -/
theorem agree_revoke_skip {call : Call} (concerned : call.concerns bailmentId = true)
    (gate : ConsentGate) :
    Agree ((gate.step call).revokeByBailmentId bailmentId) (gate.revokeByBailmentId bailmentId) := by
  cases call with
  | registerBailment bailment => exact ⟨rfl, fun _ => rfl⟩
  | setPolicy policy => exact absurd concerned Bool.false_ne_true
  | revokeByBailmentId revoked => exact absurd concerned Bool.false_ne_true
  | registerConsent owner actionType role clearanceLevel bailment =>
    refine ⟨rfl, fun actor => ?_⟩
    have dropped : bailment.id = bailmentId := of_decide_eq_true concerned
    simp only [ConsentGate.step, regs_revokeByBailmentId, regs_registerConsent]
    by_cases own : owner = actor
    · rw [if_pos own, List.filter_append]
      simp [dropped]
    · rw [if_neg own]

theorem Agree.symm (agree : Agree gate other) : Agree other gate :=
  ⟨agree.policy.symm, fun actor => (agree.regs actor).symm⟩

theorem Agree.trans {third : ConsentGate} (first : Agree gate other) (second : Agree other third) :
    Agree gate third :=
  ⟨first.policy.trans second.policy, fun actor => (first.regs actor).trans (second.regs actor)⟩

/-- **Up to the revocation, the two runs agree once the identifier is revoked.** -/
theorem agreeUpTo_run_filter (start : ConsentGate) (bailmentId : String) (calls : List Call) :
    AgreeUpTo bailmentId (run step start calls)
      (run step start (calls.filter fun call => !call.concerns bailmentId)) := by
  refine run_relates_filter ?_ ?_ ⟨rfl, fun _ => rfl⟩ calls
  · intro state other call kept agree
    have unconcerned : call.concerns bailmentId = false := by simpa using kept
    exact (agree_revoke_step unconcerned state).trans
      ((Agree.step agree call).trans (agree_revoke_step unconcerned other).symm)
  · intro state other call skipped agree
    exact (agree_revoke_skip (by simpa using skipped) state).trans agree

end Revocation

/-- **A revocation leaves no trace**: the gate decides as if nothing had been registered under the
identifier before, then and after whatever follows. -/
theorem revocation_leaves_no_trace (policy : ConsentPolicy) (calls further : List Call)
    (bailmentId : String) (actor : Did) (action : String) (now : Timestamp) :
    (run step (new policy) (calls ++ .revokeByBailmentId bailmentId :: further)).check
        actor action now =
      (run step (new policy) (calls.filter (fun call => !call.concerns bailmentId) ++
        .revokeByBailmentId bailmentId :: further)).check actor action now := by
  have agree := agreeUpTo_run_filter (new policy) bailmentId calls
  rw [run_append, run_append, run_cons, run_cons]
  exact (agree.run further).check actor action now

end ConsentGate

end Exochain.ExoConsent
