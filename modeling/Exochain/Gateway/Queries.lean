/-
**`exo-gateway` — what clients read: pages of decisions, and the authority of an actor.**

The list of decisions comes in pages of at most 200, whatever limit was asked for. Delegations are granted and
revoked; an actor's authority is counted from those that are active.

* **`following_exact_iff`** — a client that moves on by the limit it asked for reads every decision of its
  query exactly if the limit is at most 200, or no more than 200 decisions match.
* `Standing`, `getElem?_after_iff` — after a run of calls, the active delegations are the granted ones that
  were not revoked since.
* **`authority_valid_iff`** — so an actor's authority is valid exactly if some of them are its own, and fewer
  than 2^31. The time they expire at is stored and never read.
-/

import Exochain.Foundation.Paging
import Exochain.Gateway.Graphql

set_option linter.unusedSectionVars false

namespace Exochain.ExoGateway

open Foundation ExoCore

/-! ### Pages of decisions -/

/-- The decisions of a tenant, of a status if one is asked for. -/
def matching (state : AppState) (tenantId : String) (status : Option String) : List GqlDecision :=
  ((state.decisions.valuesInOrder.filter fun record => record.decision.tenantId == tenantId).filter
    fun record => status.all (· == record.decision.status)).map DecisionRecord.decision

/-- List decisions, with pagination. -/
def decisions (state : AppState) (tenantId : String) (status : Option String)
    (limit offset : Option Int32) : List GqlDecision :=
  let offset := (max (offset.getD 0).toInt 0).toNat
  let limit := (min (max (limit.getD 50).toInt 1) 200).toNat
  page offset limit (matching state tenantId status)

/-- What a client has read that moves on by its limit. -/
def following (state : AppState) (tenantId : String) (status : Option String) (limit : Int32)
    (count : ℕ) : List GqlDecision :=
  (List.range count).flatMap fun index =>
    decisions state tenantId status (some limit) (some (Int32.ofNat (index * limit.toInt.toNat)))

variable {state : AppState} {tenantId : String} {status : Option String} {limit : Int32} {count : ℕ}

/-- An offset that fits its type is the one that is used. -/
theorem toNat_offset {offset : ℕ} (fits : offset < 2 ^ 31) :
    (max (Int32.ofNat offset).toInt 0).toNat = offset := by
  rw [Int32.toInt_ofNat_of_lt fits]
  omega

/-- The pages of the client. -/
theorem following_eq_pages (positive : 0 < limit.toInt)
    (within : count * limit.toInt.toNat < 2 ^ 31) :
    following state tenantId status limit count =
      pages limit.toInt.toNat (min limit.toInt.toNat 200) count (matching state tenantId status) := by
  rw [← flatMap_page, following]
  refine List.flatMap_congr fun index member => ?_
  have before : index * limit.toInt.toNat < 2 ^ 31 :=
    (Nat.mul_le_mul_right _ (List.mem_range.mp member).le).trans_lt within
  have size : (min (max limit.toInt 1) 200).toNat = min limit.toInt.toNat 200 := by omega
  simp only [decisions, Option.getD_some]
  rw [toNat_offset before, size]

/-- **A client reads every decision of its query** exactly if its limit is at most 200, or no more than 200
decisions match. -/
theorem following_exact_iff (state : AppState) (tenantId : String) (status : Option String)
    (limit : Int32) (count : ℕ) (positive : 0 < limit.toInt)
    (within : count * limit.toInt.toNat < 2 ^ 31)
    (enough : (matching state tenantId status).length ≤ count * limit.toInt.toNat) :
    following state tenantId status limit count = matching state tenantId status ↔
      limit.toInt ≤ 200 ∨ (matching state tenantId status).length ≤ 200 := by
  rw [following_eq_pages positive within, pages_eq_self_iff (min_le_left _ _) enough]
  omega

namespace ThreeDecisions

/-- A decision is created for a tenant. -/
def creation (tenantId : String) (number : UInt8) : Call where
  mutation := .createDecision ⟨tenantId, "Charter", "text", "ROUTINE"⟩
  uuid := FixedBytes.fill 16 number
  now := .zero
  auditedAt := .zero

/-- Three decisions of one tenant, and one of another. -/
def created : AppState :=
  run (AppState.next Blake3.hash ⟨true⟩) .new
    [creation "acme" 1, creation "globex" 2, creation "acme" 3, creation "acme" 4]

/-- Two pages of two read the three decisions. -/
theorem following_created :
    (matching created "acme" none).length = 3 ∧
      following created "acme" none 2 2 = matching created "acme" none := by
  have three : (matching created "acme" none).length = 3 := by decide +kernel
  refine ⟨three, ?_⟩
  exact (following_exact_iff created "acme" none 2 2 (by decide) (by decide) (by rw [three]; decide)).mpr
    (.inl (by decide))

end ThreeDecisions

/-! ### Delegations -/

/-- A delegation of authority. -/
structure GqlDelegation where
  id : String
  delegator : String
  delegatee : String
  scope : String
  expiresAt : String
  active : Bool
  deriving DecidableEq, Repr

/-- What a delegation is granted from. -/
structure GrantDelegationInput where
  delegateeDid : String
  scope : String
  expiresInHours : Int32
  deriving DecidableEq

/-- The authority of an actor. -/
structure GqlAuthorityChain where
  actorDid : String
  chainLength : Int32
  valid : Bool
  deriving DecidableEq

/-- The delegations, by identifier. -/
abbrev Delegations := BTreeMap String GqlDelegation

/-- A call, with what the system gives it. -/
inductive DelegationCall where
  | grantDelegation (input : GrantDelegationInput) (uuid : Uuid) (now : Timestamp)
  | revokeDelegation (id : String)
  deriving DecidableEq

namespace Delegations

/-- The delegation that is granted. -/
def granted (input : GrantDelegationInput) (uuid : Uuid) (now : Timestamp) : GqlDelegation :=
  let lifetime := min (input.expiresInHours.toInt.toNat * 3600000) (2 ^ 64 - 1)
  let expiresMs := UInt64.ofNat (saturatingAdd 64 now.physicalMs.toNat lifetime)
  { id := uuid.display
    delegator := AppState.caller
    delegatee := input.delegateeDid
    scope := input.scope
    expiresAt := Timestamp.display ⟨expiresMs, 0⟩
    active := true }

/-- Grant a delegation. -/
def grantDelegation (delegations : Delegations) (input : GrantDelegationInput) (uuid : Uuid)
    (now : Timestamp) : Except String GqlDelegation × Delegations :=
  if input.expiresInHours ≤ 0 then (.error "expires_in_hours must be > 0", delegations)
  else
    let delegation := granted input uuid now
    (.ok delegation, delegations.insert uuid.display delegation)

/-- Revoke a delegation. -/
def revokeDelegation (delegations : Delegations) (id : String) :
    Except String GqlDelegation × Delegations :=
  match delegations[id]? with
  | none => (.error ("delegation " ++ id ++ " not found"), delegations)
  | some delegation =>
    let revoked := { delegation with active := false }
    (.ok revoked, delegations.insert id revoked)

/-- The delegations after a call. -/
def step (delegations : Delegations) : DelegationCall → Delegations
  | .grantDelegation input uuid now => (grantDelegation delegations input uuid now).2
  | .revokeDelegation id => (revokeDelegation delegations id).2

/-- The authority of an actor. -/
def authorityChain (delegations : Delegations) (actorDid : String) : GqlAuthorityChain :=
  let count := (delegations.valuesInOrder.filter fun d => d.delegatee == actorDid && d.active).length
  let chainLength : Int32 := if count < 2 ^ 31 then Int32.ofNat count else 0
  { actorDid := actorDid, chainLength := chainLength, valid := decide (0 < chainLength) }

/-- The delegations from and to an actor. -/
def ofActor (delegations : Delegations) (actorDid : String) : List GqlDelegation :=
  delegations.valuesInOrder.filter fun d => d.delegatee == actorDid || d.delegator == actorDid

end Delegations

/-! ### What is granted and not revoked -/

namespace DelegationCall

/-- What a call grants under an identifier. -/
def Grants (id : String) (delegation : GqlDelegation) : DelegationCall → Prop
  | grantDelegation input uuid now =>
    ¬ input.expiresInHours ≤ 0 ∧ id = uuid.display ∧ delegation = Delegations.granted input uuid now
  | revokeDelegation _ => False

/-- The identifiers that the calls grant under. -/
def ids (calls : List DelegationCall) : List String :=
  calls.filterMap fun
    | grantDelegation _ uuid _ => some uuid.display
    | revokeDelegation _ => none

/-- Granted, and not revoked since. -/
def Standing (calls : List DelegationCall) (id : String) (delegation : GqlDelegation) : Prop :=
  ∃ before call after, calls = before ++ call :: after ∧ call.Grants id delegation ∧
    revokeDelegation id ∉ after

/-- The identifiers of the delegations to an actor that stand. -/
def standingTo (calls : List DelegationCall) (actorDid : String) : Set String :=
  {id | ∃ delegation, Standing calls id delegation ∧ delegation.delegatee = actorDid}

variable {calls : List DelegationCall} {call : DelegationCall} {id : String} {delegation : GqlDelegation}

theorem ids_append (first second : List DelegationCall) :
    ids (first ++ second) = ids first ++ ids second := List.filterMap_append ..

/-- A call grants one delegation. -/
theorem Grants.unique {other : GqlDelegation} (grants : call.Grants id delegation)
    (again : call.Grants id other) : delegation = other ∧ other.active = true := by
  cases call with
  | grantDelegation input uuid now =>
    obtain ⟨-, -, rfl⟩ := grants
    obtain ⟨-, -, rfl⟩ := again
    exact ⟨rfl, rfl⟩
  | revokeDelegation => exact False.elim grants

theorem mem_ids_of_grants (member : call ∈ calls) (grants : call.Grants id delegation) :
    id ∈ ids calls := by
  cases call with
  | grantDelegation input uuid now => exact List.mem_filterMap.mpr ⟨_, member, congrArg some grants.2.1.symm⟩
  | revokeDelegation => exact False.elim grants

/-- One call more: what stood is revoked, or a new delegation stands. -/
theorem standing_concat_iff :
    Standing (calls ++ [call]) id delegation ↔
      call.Grants id delegation ∨ (Standing calls id delegation ∧ call ≠ revokeDelegation id) := by
  constructor
  · rintro ⟨before, grant, after, split, grants, kept⟩
    rcases List.eq_nil_or_concat after with rfl | ⟨between, last, rfl⟩
    · obtain ⟨-, same⟩ := List.append_inj' split rfl
      obtain rfl := List.singleton_inj.mp same
      exact .inl grants
    · rw [List.concat_eq_append] at split kept
      rw [← List.cons_append, ← List.append_assoc] at split
      obtain ⟨rfl, same⟩ := List.append_inj' split rfl
      obtain rfl := List.singleton_inj.mp same
      refine .inr ⟨⟨before, grant, between, rfl, grants, fun member => ?_⟩, fun revoked => ?_⟩
      · exact kept (List.mem_append_left _ member)
      · exact kept (revoked ▸ List.mem_append_right _ (List.mem_singleton_self _))
  · rintro (grants | ⟨⟨before, grant, after, rfl, grants, kept⟩, other⟩)
    · exact ⟨calls, call, [], rfl, grants, List.not_mem_nil⟩
    · refine ⟨before, grant, after ++ [call], by simp, grants, fun member => ?_⟩
      rcases List.mem_append.mp member with early | late
      · exact kept early
      · exact other (List.mem_singleton.mp late).symm

end DelegationCall

namespace Delegations

open DelegationCall

/-- The delegations after the calls. -/
def after (calls : List DelegationCall) : Delegations := run step ∅ calls

variable {calls : List DelegationCall} {call : DelegationCall} {id : String} {delegation : GqlDelegation}

theorem after_concat : after (calls ++ [call]) = step (after calls) call := by
  rw [after, run_append]
  rfl

/-- A call stores what it grants. -/
theorem getElem?_step_of_grants (delegations : Delegations) (grants : call.Grants id delegation) :
    (step delegations call)[id]? = some delegation := by
  cases call with
  | grantDelegation input uuid now =>
    obtain ⟨lasting, rfl, rfl⟩ := grants
    rw [step, grantDelegation, if_neg lasting, Std.ExtTreeMap.getElem?_insert_self]
  | revokeDelegation => exact False.elim grants

/-- A revoked delegation is no longer active. -/
theorem getElem?_step_revoke (delegations : Delegations) (id : String) :
    (step delegations (.revokeDelegation id))[id]? =
      delegations[id]?.map fun delegation => { delegation with active := false } := by
  rw [step, revokeDelegation]
  cases stored : delegations[id]? with
  | none => exact stored
  | some delegation => exact Std.ExtTreeMap.getElem?_insert_self

/-- Other calls leave the identifier alone. -/
theorem getElem?_step_of_ne (delegations : Delegations) (noGrant : ∀ d, ¬ call.Grants id d)
    (noRevoke : call ≠ .revokeDelegation id) : (step delegations call)[id]? = delegations[id]? := by
  cases call with
  | grantDelegation input uuid now =>
    rw [step, grantDelegation]
    split
    · rfl
    · rename_i lasting
      refine BTreeMap.getElem?_insert_of_ne _ fun same => ?_
      exact noGrant _ ⟨lasting, same.symm, rfl⟩
  | revokeDelegation other =>
    rw [step, revokeDelegation]
    cases delegations[other]? with
    | none => rfl
    | some delegation =>
      exact BTreeMap.getElem?_insert_of_ne _ fun same => noRevoke (by rw [same])

/-- Nothing is stored under an identifier that was not granted. -/
theorem mem_ids_of_getElem? (stored : (after calls)[id]? = some delegation) : id ∈ ids calls := by
  induction calls using List.reverseRecOn generalizing delegation with
  | nil => exact nomatch (Std.ExtTreeMap.getElem?_empty (a := id)).symm.trans stored
  | append_singleton calls call ih =>
    rw [after_concat] at stored
    rw [ids_append, List.mem_append]
    by_cases grants : ∃ d, call.Grants id d
    · exact .inr (mem_ids_of_grants (List.mem_singleton_self _) grants.choose_spec)
    · refine .inl ?_
      by_cases revoked : call = .revokeDelegation id
      · rw [revoked, getElem?_step_revoke, Option.map_eq_some_iff] at stored
        obtain ⟨before, found, -⟩ := stored
        exact ih found
      · rw [getElem?_step_of_ne _ (not_exists.mp grants) revoked] at stored
        exact ih stored

/-- **The active delegations are the granted ones that were not revoked since.** -/
theorem getElem?_after_iff (fresh : (ids calls).Nodup) :
    ((after calls)[id]? = some delegation ∧ delegation.active = true) ↔ Standing calls id delegation := by
  induction calls using List.reverseRecOn generalizing delegation with
  | nil =>
    refine iff_of_false (fun stored => ?_) fun ⟨before, call, later, split, _⟩ => ?_
    · exact absurd (mem_ids_of_getElem? stored.1) List.not_mem_nil
    · simp at split
  | append_singleton calls call ih =>
    rw [ids_append, List.nodup_append] at fresh
    obtain ⟨fresh, -, apart⟩ := fresh
    rw [after_concat, standing_concat_iff, ← ih fresh]
    by_cases grants : ∃ d, call.Grants id d
    · -- the identifier is new, so what is stored under it is what the call grants
      obtain ⟨granted, grants⟩ := grants
      have unused : ∀ d, (after calls)[id]? ≠ some d := fun d stored =>
        apart id (mem_ids_of_getElem? stored) id
          (mem_ids_of_grants (List.mem_singleton_self _) grants) rfl
      rw [getElem?_step_of_grants _ grants, Option.some_inj]
      constructor
      · rintro ⟨rfl, -⟩
        exact .inl grants
      · rintro (again | ⟨⟨stored, -⟩, -⟩)
        · exact grants.unique again
        · exact absurd stored (unused delegation)
    · have noGrant := not_exists.mp grants
      rw [or_iff_right (noGrant delegation)]
      by_cases revoked : call = .revokeDelegation id
      · refine iff_of_false (fun ⟨stored, active⟩ => ?_) fun ⟨_, other⟩ => other revoked
        rw [revoked, getElem?_step_revoke, Option.map_eq_some_iff] at stored
        obtain ⟨_, -, rfl⟩ := stored
        exact nomatch active
      · rw [getElem?_step_of_ne _ noGrant revoked, and_iff_left revoked]

/-- The active delegations to an actor are as many as the identifiers under which it has one. -/
theorem length_active_eq (delegations : Delegations) (actorDid : String) :
    (delegations.valuesInOrder.filter fun d => d.delegatee == actorDid && d.active).length =
      {id : String | ∃ d : GqlDelegation,
        (delegations[id]? = some d ∧ d.active = true) ∧ d.delegatee = actorDid}.ncard := by
  rw [BTreeMap.length_filter_valuesInOrder]
  refine congrArg Set.ncard (Set.ext fun id => exists_congr fun d => ?_)
  rw [Bool.and_eq_true, beq_iff_eq, and_assoc, and_comm (a := d.active = true)]

/-- The authority is valid if there are active delegations to the actor, and not too many to count. -/
theorem valid_iff (delegations : Delegations) (actorDid : String) {count : ℕ}
    (counted : (delegations.valuesInOrder.filter fun d => d.delegatee == actorDid && d.active).length =
      count) :
    (authorityChain delegations actorDid).valid = true ↔ 0 < count ∧ count < 2 ^ 31 := by
  rw [authorityChain, counted]
  by_cases few : count < 2 ^ 31
  · rw [if_pos few, decide_eq_true_iff, Int32.lt_iff_toInt_lt, Int32.toInt_zero, Int32.toInt_ofNat_of_lt few,
      Int.natCast_pos, and_iff_left few]
  · rw [if_neg few]
    exact iff_of_false (fun valid => nomatch valid) fun both => few both.2

/-- **An actor's authority is valid** exactly if some delegation was granted to it and not revoked since,
however long ago it expired, and there are fewer than 2^31 of them. -/
theorem authority_valid_iff (calls : List DelegationCall) (fresh : (ids calls).Nodup) (actorDid : String) :
    (authorityChain (after calls) actorDid).valid = true ↔
      0 < (standingTo calls actorDid).ncard ∧ (standingTo calls actorDid).ncard < 2 ^ 31 := by
  refine valid_iff _ actorDid ((length_active_eq _ actorDid).trans ?_)
  refine congrArg Set.ncard (Set.ext fun id => exists_congr fun d => ?_)
  rw [getElem?_after_iff fresh]

/-- Two delegations to an agent, the first one for an hour at the start of time; the second one is revoked. -/
def agentCalls : List DelegationCall :=
  [.grantDelegation ⟨"did:exo:agent", "votes", 1⟩ (FixedBytes.fill 16 2) .zero,
    .grantDelegation ⟨"did:exo:agent", "budgets", 24⟩ (FixedBytes.fill 16 3) .zero,
    .revokeDelegation (Uuid.display (FixedBytes.fill 16 3))]

/-- The first one still makes the authority valid, at any later time. -/
theorem authority_valid_agent :
    0 < (standingTo agentCalls "did:exo:agent").ncard ∧
      (standingTo agentCalls "did:exo:agent").ncard < 2 ^ 31 :=
  (authority_valid_iff agentCalls (by decide +kernel) "did:exo:agent").mp (by decide +kernel)

end Delegations

end Exochain.ExoGateway
