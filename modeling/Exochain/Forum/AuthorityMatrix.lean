/-
**`decision-forum` — the authority matrix.**

The matrix lists the delegations of every delegate. A delegation is granted, or passed on by a delegate
whose own delegation is active, allows it and covers the classes that are passed on. All of this is
checked when the sub-delegation is made: who is named as its delegator is not, nor when it expires, and a
revocation leaves the sub-delegations alone.

A run is followed together with the sub-delegations it made (`Ledger`), the identifiers it used and the
latest time of a call.

* `subDelegate_cases`, `revoke_cases` — what the operations do.
* `backed_step_iff` — what one call does to the authority of the sub-delegations.
* **`subdelegations_backed_iff`** — in a run with distinct identifiers no sub-delegation outlives or
  exceeds the delegation it comes from exactly if each names its maker and expires in time, and no
  delegation is revoked before those made from it.
* `Sample.outlives_revocation` — authority that stays after the root grant was revoked.
-/

import Exochain.Foundation.Collections
import Exochain.Foundation.Run
import Exochain.Forum.DecisionObject

set_option linter.unusedSectionVars false

namespace Exochain.DecisionForum

open Foundation ExoCore

/-! ### Delegations -/

/-- What a delegate may decide. -/
structure DelegationScope where
  decisionClasses : List DecisionClass
  description : String
  deriving DecidableEq

/-- A delegation. -/
structure DelegatedAuthority where
  id : String
  delegator : Did
  delegate : Did
  scope : DelegationScope
  grantedAt : Timestamp
  expiresAt : Timestamp
  revoked : Bool
  allowsSubDelegation : Bool
  signatureHash : Hash256
  deriving DecidableEq

namespace DelegatedAuthority

/-- Whether the delegation is active at a time. -/
def isActive (delegation : DelegatedAuthority) (now : Timestamp) : Bool :=
  !delegation.revoked && !delegation.expiresAt.isExpired now

/-- Whether the delegation covers a class. -/
def coversClass (delegation : DelegatedAuthority) (decisionClass : DecisionClass) : Bool :=
  delegation.scope.decisionClasses.contains decisionClass

theorem isActive_iff {delegation : DelegatedAuthority} {now : Timestamp} :
    delegation.isActive now = true ↔ delegation.revoked = false ∧ now < delegation.expiresAt := by
  simp [isActive, Timestamp.isExpired]

/-- What is active later is active before. -/
theorem isActive_of_le {delegation : DelegatedAuthority} {now later : Timestamp} (before : now ≤ later)
    (active : delegation.isActive later = true) : delegation.isActive now = true := by
  rw [isActive_iff] at active ⊢
  exact ⟨active.1, before.trans_lt active.2⟩

/-- The delegation, revoked if it has the identifier. -/
def revokeIf (id : String) (delegation : DelegatedAuthority) : DelegatedAuthority :=
  if delegation.id = id then { delegation with revoked := true } else delegation

@[simp] theorem revokeIf_id (id : String) (delegation : DelegatedAuthority) :
    (delegation.revokeIf id).id = delegation.id := by
  unfold revokeIf
  split
  · rfl
  · rfl

theorem revokeIf_of_ne {id : String} {delegation : DelegatedAuthority} (other : delegation.id ≠ id) :
    delegation.revokeIf id = delegation := if_neg other

theorem isActive_revokeIf {id : String} {delegation : DelegatedAuthority} {now : Timestamp} :
    (delegation.revokeIf id).isActive now = true ↔
      delegation.id ≠ id ∧ delegation.isActive now = true := by
  unfold revokeIf
  split
  · rename_i same
    simp [isActive, same]
  · rename_i other
    simp [other]

end DelegatedAuthority

/-! ### The matrix -/

/-- The delegations of each delegate. -/
structure AuthorityMatrix where
  delegations : BTreeMap String (List DelegatedAuthority)

namespace AuthorityMatrix

/-- The empty matrix. -/
def new : AuthorityMatrix := ⟨∅⟩

/-- The delegations listed for a delegate. -/
def entries (matrix : AuthorityMatrix) (delegate : Did) : List DelegatedAuthority :=
  matrix.delegations[delegate.value]?.getD []

/-- Grant a delegation. -/
def grant (matrix : AuthorityMatrix) (delegation : DelegatedAuthority) : AuthorityMatrix where
  delegations := BTreeMap.upsert matrix.delegations delegation.delegate.value [] (· ++ [delegation])

/-- Revoke a delegation of a delegate; an error leaves the matrix as it was. -/
def revoke (matrix : AuthorityMatrix) (delegate : Did) (delegationId : String) :
    Except ForumError AuthorityMatrix :=
  match matrix.delegations[delegate.value]? with
  | some entries =>
    if !entries.any fun entry => entry.id = delegationId then
      .error (.authorityInvalid ("delegation " ++ delegationId ++ " not found"))
    else
      .ok ⟨matrix.delegations.insert delegate.value
        (entries.map (DelegatedAuthority.revokeIf delegationId))⟩
  | none => .error (.authorityInvalid ("no delegations for " ++ delegate.value))

/-- The delegations of a delegate that are active at a time. -/
def activeDelegations (matrix : AuthorityMatrix) (delegate : Did) (now : Timestamp) :
    List DelegatedAuthority :=
  (matrix.entries delegate).filter fun delegation => delegation.isActive now

/-- Whether an actor may decide a class at a time. -/
def hasAuthority (matrix : AuthorityMatrix) (actor : Did) (decisionClass : DecisionClass)
    (now : Timestamp) : Bool :=
  (matrix.activeDelegations actor now).any fun delegation => delegation.coversClass decisionClass

/-- Drop the delegations that are not active; the number of those dropped is returned. -/
def purgeExpired (matrix : AuthorityMatrix) (now : Timestamp) : ℕ × AuthorityMatrix :=
  let remaining (entries : List DelegatedAuthority) := entries.filter fun delegation =>
    delegation.isActive now
  (matrix.delegations.foldl
      (fun count _ entries => count + (entries.length - (remaining entries).length)) 0,
    ⟨matrix.delegations.map fun _ entries => remaining entries⟩)

/-- Pass authority on: a new delegation by the holder of another one. -/
def subDelegate (matrix : AuthorityMatrix) (parentDelegate : Did) (parentDelegationId : String)
    (newDelegation : DelegatedAuthority) (now : Timestamp) : Except ForumError AuthorityMatrix :=
  match (matrix.entries parentDelegate).find? fun entry => entry.id = parentDelegationId with
  | none => .error (.authorityInvalid "parent delegation not found")
  | some parent =>
    if !parent.isActive now then .error .delegationExpired
    else if !parent.allowsSubDelegation then .error .subDelegationNotPermitted
    else
      match newDelegation.scope.decisionClasses.find? fun decisionClass =>
          !parent.coversClass decisionClass with
      | some decisionClass =>
        .error (.delegationScopeExceeded (decisionClass.debug ++ " not in parent scope"))
      | none => .ok (matrix.grant newDelegation)

/-! ### What the operations do -/

section Operations

variable {matrix : AuthorityMatrix} {delegation parent : DelegatedAuthority}

theorem entries_grant (matrix : AuthorityMatrix) (delegation : DelegatedAuthority) (delegate : Did) :
    (matrix.grant delegation).entries delegate =
      if delegation.delegate = delegate then matrix.entries delegate ++ [delegation]
      else matrix.entries delegate := by
  unfold entries grant
  rw [BTreeMap.getD_upsert]
  simp only [Did.ext_iff]

theorem entries_purgeExpired (matrix : AuthorityMatrix) (now : Timestamp) (delegate : Did) :
    (matrix.purgeExpired now).2.entries delegate = matrix.activeDelegations delegate now := by
  unfold entries purgeExpired activeDelegations
  simp only [Std.ExtTreeMap.getElem?_map, entries]
  cases matrix.delegations[delegate.value]? with
  | none => rfl
  | some listed => rfl

/-- The revoked delegation is one of the delegate's; the others stay as they were. -/
theorem revoke_cases (matrix : AuthorityMatrix) (delegate : Did) (delegationId : String) :
    (∃ after, matrix.revoke delegate delegationId = .ok after ∧
      (∃ entry ∈ matrix.entries delegate, entry.id = delegationId) ∧
      ∀ other, after.entries other =
        if delegate = other then
          (matrix.entries other).map (DelegatedAuthority.revokeIf delegationId)
        else matrix.entries other) ∨
    ((∀ entry ∈ matrix.entries delegate, entry.id ≠ delegationId) ∧
      ∃ error, matrix.revoke delegate delegationId = .error error) := by
  unfold revoke
  cases listed : matrix.delegations[delegate.value]? with
  | none =>
    refine .inr ⟨?_, _, rfl⟩
    simp [entries, listed]
  | some found =>
    have here : matrix.entries delegate = found := by rw [entries, listed, Option.getD_some]
    by_cases held : ∃ entry ∈ found, entry.id = delegationId
    · refine .inl ⟨_, if_neg (by simpa using held), here ▸ held, fun other => ?_⟩
      unfold entries
      simp only [BTreeMap.getElem?_insert_eq_ite, ← Did.ext_iff]
      by_cases same : delegate = other
      · subst same
        simp [listed]
      · simp [same]
    · refine .inr ⟨fun entry member same => held ⟨entry, here ▸ member, same⟩, _, if_pos ?_⟩
      simpa using held

/-- The delegation that authority is passed on from. -/
structure PassesOn (matrix : AuthorityMatrix) (parentDelegate : Did) (parentDelegationId : String)
    (newDelegation : DelegatedAuthority) (now : Timestamp) (parent : DelegatedAuthority) : Prop where
  found : (matrix.entries parentDelegate).find? (fun entry => entry.id = parentDelegationId) =
    some parent
  active : parent.isActive now = true
  allowed : parent.allowsSubDelegation = true
  covered : ∀ decisionClass ∈ newDelegation.scope.decisionClasses,
    parent.coversClass decisionClass = true

theorem PassesOn.mem {parentDelegate : Did} {parentDelegationId : String}
    {now : Timestamp} (passes : PassesOn matrix parentDelegate parentDelegationId delegation now parent) :
    parent ∈ matrix.entries parentDelegate := List.mem_of_find?_eq_some passes.found

theorem PassesOn.id_eq {parentDelegate : Did} {parentDelegationId : String}
    {now : Timestamp} (passes : PassesOn matrix parentDelegate parentDelegationId delegation now parent) :
    parent.id = parentDelegationId := by
  simpa using List.find?_some passes.found

/-- **When authority is passed on.** -/
theorem subDelegate_cases (matrix : AuthorityMatrix) (parentDelegate : Did)
    (parentDelegationId : String) (newDelegation : DelegatedAuthority) (now : Timestamp) :
    (∃ parent, PassesOn matrix parentDelegate parentDelegationId newDelegation now parent ∧
      matrix.subDelegate parentDelegate parentDelegationId newDelegation now =
        .ok (matrix.grant newDelegation)) ∨
    ((¬ ∃ parent, PassesOn matrix parentDelegate parentDelegationId newDelegation now parent) ∧
      ∃ error, matrix.subDelegate parentDelegate parentDelegationId newDelegation now =
        .error error) := by
  unfold subDelegate
  cases found : (matrix.entries parentDelegate).find? fun entry => entry.id = parentDelegationId with
  | none =>
    refine .inr ⟨?_, _, rfl⟩
    rintro ⟨parent, passes⟩
    rw [passes.found] at found
    cases found
  | some parent =>
    have only : ∀ other,
        PassesOn matrix parentDelegate parentDelegationId newDelegation now other → parent = other := by
      intro other passes
      rw [passes.found, Option.some.injEq] at found
      exact found.symm
    by_cases active : parent.isActive now = true
    · by_cases allowed : parent.allowsSubDelegation = true
      · cases exceeded : newDelegation.scope.decisionClasses.find? fun decisionClass =>
            !parent.coversClass decisionClass with
        | some decisionClass =>
          refine .inr ⟨?_, _, by simp [active, allowed, exceeded]; rfl⟩
          rintro ⟨other, passes⟩
          obtain rfl := only other passes
          have uncovered := List.find?_some exceeded
          rw [passes.covered decisionClass (List.mem_of_find?_eq_some exceeded)] at uncovered
          cases uncovered
        | none =>
          refine .inl ⟨parent, ⟨found, active, allowed, ?_⟩, by simp [active, allowed, exceeded]⟩
          simpa using exceeded
      · refine .inr ⟨?_, _, by simp [active, allowed]; rfl⟩
        rintro ⟨other, passes⟩
        obtain rfl := only other passes
        exact allowed passes.allowed
    · refine .inr ⟨?_, _, by simp [active]; rfl⟩
      rintro ⟨other, passes⟩
      obtain rfl := only other passes
      exact active passes.active

theorem mem_activeDelegations {delegate : Did} {now : Timestamp} :
    delegation ∈ matrix.activeDelegations delegate now ↔
      delegation ∈ matrix.entries delegate ∧ delegation.isActive now = true := by
  unfold activeDelegations
  rw [List.mem_filter]

/-- What is active after a grant. -/
theorem mem_activeDelegations_grant {granted : DelegatedAuthority} {delegate : Did} {now : Timestamp} :
    delegation ∈ (matrix.grant granted).activeDelegations delegate now ↔
      delegation ∈ matrix.activeDelegations delegate now ∨
        delegation = granted ∧ granted.delegate = delegate ∧ granted.isActive now = true := by
  rw [mem_activeDelegations, mem_activeDelegations, entries_grant]
  by_cases own : granted.delegate = delegate
  · rw [if_pos own, List.mem_append, List.mem_singleton]
    constructor
    · rintro ⟨old | rfl, active⟩
      · exact .inl ⟨old, active⟩
      · exact .inr ⟨rfl, own, active⟩
    · rintro (⟨old, active⟩ | ⟨rfl, -, active⟩)
      · exact ⟨.inl old, active⟩
      · exact ⟨.inr rfl, active⟩
  · simp [own]

/-- What is active after a revocation. -/
theorem mem_activeDelegations_revoke {after : AuthorityMatrix} {revoked : Did} {id : String}
    (listed : ∀ other, after.entries other =
      if revoked = other then (matrix.entries other).map (DelegatedAuthority.revokeIf id)
      else matrix.entries other) {delegate : Did} {now : Timestamp} :
    delegation ∈ after.activeDelegations delegate now ↔
      delegation ∈ matrix.activeDelegations delegate now ∧
        ¬ (delegate = revoked ∧ delegation.id = id) := by
  rw [mem_activeDelegations, mem_activeDelegations, listed]
  by_cases own : revoked = delegate
  · rw [if_pos own, List.mem_map]
    constructor
    · rintro ⟨⟨entry, member, rfl⟩, active⟩
      obtain ⟨other, active⟩ := DelegatedAuthority.isActive_revokeIf.mp active
      rw [DelegatedAuthority.revokeIf_of_ne other]
      exact ⟨⟨member, active⟩, fun both => other both.2⟩
    · rintro ⟨⟨member, active⟩, kept⟩
      have other : delegation.id ≠ id := fun same => kept ⟨own.symm, same⟩
      exact ⟨⟨delegation, member, DelegatedAuthority.revokeIf_of_ne other⟩, active⟩
  · rw [if_neg own]
    exact ⟨fun both => ⟨both, fun same => own same.1.symm⟩, fun both => both.1⟩

/-- A purge does not show from its time on. -/
theorem activeDelegations_purgeExpired {now later : Timestamp} (before : now ≤ later)
    (delegate : Did) :
    (matrix.purgeExpired now).2.activeDelegations delegate later =
      matrix.activeDelegations delegate later := by
  rw [activeDelegations, entries_purgeExpired, activeDelegations, List.filter_filter,
    activeDelegations]
  refine List.filter_congr fun delegation _ => ?_
  cases active : delegation.isActive later with
  | false => rfl
  | true => rw [DelegatedAuthority.isActive_of_le before active, Bool.and_self]

end Operations

/-! ### Runs -/

/-- A call, with the time it is made at. -/
inductive Call where
  | grant (delegation : DelegatedAuthority) (now : Timestamp)
  | subDelegate (parentDelegate : Did) (parentDelegationId : String)
      (newDelegation : DelegatedAuthority) (now : Timestamp)
  | revoke (delegate : Did) (delegationId : String) (now : Timestamp)
  | purgeExpired (now : Timestamp)

namespace Call

/-- The time of a call. -/
def time : Call → Timestamp
  | grant _ now => now
  | subDelegate _ _ _ now => now
  | revoke _ _ now => now
  | purgeExpired now => now

/-- The identifier of the delegation that a call would add. -/
def newId : Call → Option String
  | grant delegation _ => some delegation.id
  | subDelegate _ _ newDelegation _ => some newDelegation.id
  | revoke _ _ _ => none
  | purgeExpired _ => none

end Call

/-- The matrix after a call; one that fails leaves it as it was. -/
def perform (matrix : AuthorityMatrix) : Call → AuthorityMatrix
  | .grant delegation _ => matrix.grant delegation
  | .subDelegate parentDelegate parentDelegationId newDelegation now =>
    ((matrix.subDelegate parentDelegate parentDelegationId newDelegation now).toOption).getD matrix
  | .revoke delegate delegationId _ => ((matrix.revoke delegate delegationId).toOption).getD matrix
  | .purgeExpired now => (matrix.purgeExpired now).2

/-- The delegation with an identifier is active for a delegate. -/
def ActiveAt (matrix : AuthorityMatrix) (delegate : Did) (id : String) (time : Timestamp) : Prop :=
  ∃ delegation ∈ matrix.activeDelegations delegate time, delegation.id = id

instance (matrix : AuthorityMatrix) (delegate : Did) (id : String) (time : Timestamp) :
    Decidable (matrix.ActiveAt delegate id time) :=
  inferInstanceAs (Decidable (∃ delegation ∈ matrix.activeDelegations delegate time,
    delegation.id = id))

/-- What a sub-delegation is made from is active, allows it and covers the classes it covers. -/
def Holds (matrix : AuthorityMatrix) (parentDelegate : Did) (parentId : String)
    (delegation : DelegatedAuthority) (time : Timestamp) : Prop :=
  ∃ parent ∈ matrix.activeDelegations parentDelegate time,
    parent.id = parentId ∧ parent.allowsSubDelegation = true ∧
      ∀ decisionClass, delegation.coversClass decisionClass = true →
        parent.coversClass decisionClass = true

section Activity

variable {matrix after : AuthorityMatrix} {granted delegation : DelegatedAuthority}
  {delegate revoked : Did} {id revokedId : String} {time now : Timestamp}

/-- A grant does not change what is active under other identifiers. -/
theorem activeAt_grant_of_ne (other : id ≠ granted.id) :
    (matrix.grant granted).ActiveAt delegate id time ↔ matrix.ActiveAt delegate id time := by
  constructor
  · rintro ⟨entry, member, rfl⟩
    rcases mem_activeDelegations_grant.mp member with old | ⟨rfl, -⟩
    · exact ⟨entry, old, rfl⟩
    · exact absurd rfl other
  · rintro ⟨entry, member, rfl⟩
    exact ⟨entry, mem_activeDelegations_grant.mpr (.inl member), rfl⟩

/-- What was granted under a new identifier is active as long as it is itself. -/
theorem activeAt_grant_self (fresh : ∀ entry ∈ matrix.entries granted.delegate, entry.id ≠ granted.id) :
    (matrix.grant granted).ActiveAt granted.delegate granted.id time ↔
      granted.isActive time = true := by
  constructor
  · rintro ⟨entry, member, same⟩
    rcases mem_activeDelegations_grant.mp member with old | ⟨-, -, active⟩
    · exact absurd same (fresh entry (mem_activeDelegations.mp old).1)
    · exact active
  · intro active
    exact ⟨granted, mem_activeDelegations_grant.mpr (.inr ⟨rfl, rfl, active⟩), rfl⟩

theorem holds_grant (holds : matrix.Holds delegate id delegation time) :
    (matrix.grant granted).Holds delegate id delegation time := by
  obtain ⟨parent, member, rest⟩ := holds
  exact ⟨parent, mem_activeDelegations_grant.mpr (.inl member), rest⟩

theorem activeAt_purgeExpired (before : now ≤ time) :
    (matrix.purgeExpired now).2.ActiveAt delegate id time ↔ matrix.ActiveAt delegate id time := by
  rw [ActiveAt, activeDelegations_purgeExpired before, ActiveAt]

theorem holds_purgeExpired (before : now ≤ time) :
    (matrix.purgeExpired now).2.Holds delegate id delegation time ↔
      matrix.Holds delegate id delegation time := by
  rw [Holds, activeDelegations_purgeExpired before, Holds]

section Revoked

variable (listed : ∀ other, after.entries other =
  if revoked = other then (matrix.entries other).map (DelegatedAuthority.revokeIf revokedId)
  else matrix.entries other)

include listed

/-- What is active after a revocation was active, and is not what was revoked. -/
theorem activeAt_revoke_iff :
    after.ActiveAt delegate id time ↔
      matrix.ActiveAt delegate id time ∧ ¬ (delegate = revoked ∧ id = revokedId) := by
  constructor
  · rintro ⟨entry, member, rfl⟩
    obtain ⟨old, kept⟩ := (mem_activeDelegations_revoke listed).mp member
    exact ⟨⟨entry, old, rfl⟩, kept⟩
  · rintro ⟨⟨entry, old, rfl⟩, kept⟩
    exact ⟨entry, (mem_activeDelegations_revoke listed).mpr ⟨old, kept⟩, rfl⟩

theorem holds_revoke_iff :
    after.Holds delegate id delegation time ↔
      matrix.Holds delegate id delegation time ∧ ¬ (delegate = revoked ∧ id = revokedId) := by
  constructor
  · rintro ⟨parent, member, rfl, rest⟩
    obtain ⟨old, kept⟩ := (mem_activeDelegations_revoke listed).mp member
    exact ⟨⟨parent, old, rfl, rest⟩, kept⟩
  · rintro ⟨⟨parent, old, rfl, rest⟩, kept⟩
    exact ⟨parent, (mem_activeDelegations_revoke listed).mpr ⟨old, kept⟩, rfl, rest⟩

end Revoked

end Activity

end AuthorityMatrix

/-- A sub-delegation that was made, and the delegation it was made from. -/
structure Derivation where
  parentDelegate : Did
  parentId : String
  delegation : DelegatedAuthority
  deriving DecidableEq

/-- What is known after a run: the matrix, the sub-delegations made, the identifiers used, and the
latest time of a call. -/
structure Ledger where
  matrix : AuthorityMatrix
  derived : List Derivation
  ids : List String
  clock : Timestamp

namespace Ledger

open AuthorityMatrix (Call PassesOn)

/-- Before the first call. -/
def new : Ledger := ⟨.new, [], [], .zero⟩

/-- The sub-delegation that a call makes. -/
def derivation (matrix : AuthorityMatrix) : Call → Option Derivation
  | .subDelegate parentDelegate parentId newDelegation now =>
    match matrix.subDelegate parentDelegate parentId newDelegation now with
    | .ok _ => some ⟨parentDelegate, parentId, newDelegation⟩
    | .error _ => none
  | .grant _ _ => none
  | .revoke _ _ _ => none
  | .purgeExpired _ => none

/-- One more call. -/
def step (ledger : Ledger) (call : Call) : Ledger where
  matrix := ledger.matrix.perform call
  derived := ledger.derived ++ (derivation ledger.matrix call).toList
  ids := ledger.ids ++ call.newId.toList
  clock := max ledger.clock call.time

/-- From the latest call on, a sub-delegation that is active names its maker, and what it was made from
holds. -/
def Backed (ledger : Ledger) : Prop :=
  ∀ derivation ∈ ledger.derived, ∀ time, ledger.clock ≤ time →
    ledger.matrix.ActiveAt derivation.delegation.delegate derivation.delegation.id time →
    derivation.delegation.delegator = derivation.parentDelegate ∧
      ledger.matrix.Holds derivation.parentDelegate derivation.parentId derivation.delegation time

/-- One delegation, as delegate and identifier, was made from the other one. -/
def MadeFrom (ledger : Ledger) (child parent : Did × String) : Prop :=
  ∃ derivation ∈ ledger.derived,
    child = (derivation.delegation.delegate, derivation.delegation.id) ∧
      parent = (derivation.parentDelegate, derivation.parentId)

/-- **What is claimed of a state**: from the latest call on, a sub-delegation that is active names its
maker, and the delegation it was made from is active, allows it and covers its classes; and whatever
was made from a delegation, by any number of steps, is active only while that one is. -/
structure Sound (ledger : Ledger) : Prop where
  backed : ledger.Backed
  rooted : ∀ time, ledger.clock ≤ time → ∀ child root,
    Relation.TransGen ledger.MadeFrom child root →
    ledger.matrix.ActiveAt child.1 child.2 time → ledger.matrix.ActiveAt root.1 root.2 time

/-- Authority goes back to the root step by step. -/
theorem sound_iff_backed {ledger : Ledger} : ledger.Sound ↔ ledger.Backed := by
  refine ⟨Sound.backed, fun backed => ⟨backed, fun time since child root chain active => ?_⟩⟩
  have one : ∀ child parent, ledger.MadeFrom child parent →
      ledger.matrix.ActiveAt child.1 child.2 time →
      ledger.matrix.ActiveAt parent.1 parent.2 time := by
    rintro _ _ ⟨derivation, made, rfl, rfl⟩ active
    obtain ⟨-, parent, member, same, -⟩ := backed derivation made time since active
    exact ⟨parent, member, same⟩
  induction chain with
  | single made => exact one _ _ made active
  | tail _ made ih => exact one _ _ made ih

/-! ### One call -/

/-- What a call can do to the matrix and to the sub-delegations made. -/
inductive Outcome (ledger : Ledger) : Call → AuthorityMatrix → List Derivation → Prop
  | granted (delegation : DelegatedAuthority) (now : Timestamp) :
      Outcome ledger (.grant delegation now) (ledger.matrix.grant delegation) ledger.derived
  | passed (parentDelegate : Did) (parentId : String) (newDelegation : DelegatedAuthority)
      (now : Timestamp) (parent : DelegatedAuthority) :
      PassesOn ledger.matrix parentDelegate parentId newDelegation now parent →
      Outcome ledger (.subDelegate parentDelegate parentId newDelegation now)
        (ledger.matrix.grant newDelegation)
        (ledger.derived ++ [⟨parentDelegate, parentId, newDelegation⟩])
  | refused (parentDelegate : Did) (parentId : String) (newDelegation : DelegatedAuthority)
      (now : Timestamp) :
      (¬ ∃ parent, PassesOn ledger.matrix parentDelegate parentId newDelegation now parent) →
      Outcome ledger (.subDelegate parentDelegate parentId newDelegation now) ledger.matrix
        ledger.derived
  | revoked (delegate : Did) (delegationId : String) (now : Timestamp) (after : AuthorityMatrix) :
      (∀ other, after.entries other =
        if delegate = other then
          (ledger.matrix.entries other).map (DelegatedAuthority.revokeIf delegationId)
        else ledger.matrix.entries other) →
      Outcome ledger (.revoke delegate delegationId now) after ledger.derived
  | missing (delegate : Did) (delegationId : String) (now : Timestamp) :
      (∀ entry ∈ ledger.matrix.entries delegate, entry.id ≠ delegationId) →
      Outcome ledger (.revoke delegate delegationId now) ledger.matrix ledger.derived
  | purged (now : Timestamp) :
      Outcome ledger (.purgeExpired now) (ledger.matrix.purgeExpired now).2 ledger.derived

/-- **What a call does.** -/
theorem step_cases (ledger : Ledger) (call : Call) :
    ∃ matrix derived,
      ledger.step call =
        ⟨matrix, derived, ledger.ids ++ call.newId.toList, max ledger.clock call.time⟩ ∧
      Outcome ledger call matrix derived := by
  refine ⟨_, _, rfl, ?_⟩
  cases call with
  | grant delegation now =>
    rw [derivation, Option.toList_none, List.append_nil]
    exact .granted delegation now
  | subDelegate parentDelegate parentId newDelegation now =>
    rw [derivation, AuthorityMatrix.perform]
    rcases AuthorityMatrix.subDelegate_cases ledger.matrix parentDelegate parentId newDelegation now
      with ⟨parent, passes, made⟩ | ⟨none, error, failed⟩
    · rw [made]
      exact .passed parentDelegate parentId newDelegation now parent passes
    · rw [failed, Option.toList_none, List.append_nil]
      exact .refused parentDelegate parentId newDelegation now none
  | revoke delegate delegationId now =>
    rw [derivation, Option.toList_none, List.append_nil, AuthorityMatrix.perform]
    rcases AuthorityMatrix.revoke_cases ledger.matrix delegate delegationId with
      ⟨after, done, -, listed⟩ | ⟨none, error, failed⟩
    · rw [done]
      exact .revoked delegate delegationId now after listed
    · rw [failed]
      exact .missing delegate delegationId now none
  | purgeExpired now =>
    rw [derivation, Option.toList_none, List.append_nil]
    exact .purged now

/-- What every run with distinct identifiers keeps. -/
structure WellKept (ledger : Ledger) : Prop where
  listed : ∀ delegate, ∀ entry ∈ ledger.matrix.entries delegate, entry.id ∈ ledger.ids
  unique : ∀ delegate, ((ledger.matrix.entries delegate).map DelegatedAuthority.id).Nodup
  derived : ∀ derivation ∈ ledger.derived, derivation.delegation.id ∈ ledger.ids ∧
    derivation.parentId ∈ ledger.ids ∧ derivation.parentId ≠ derivation.delegation.id

/-- The call adds no delegation with a used identifier. -/
def FreshId (ledger : Ledger) (call : Call) : Prop := ∀ id ∈ call.newId, id ∉ ledger.ids

/-- **What the call may not do**: pass on authority that is active under another maker's name or for
longer than the delegation it comes from, or revoke a delegation while one that was made from it is
active. -/
def Keeps (ledger : Ledger) : Call → Prop
  | .grant _ _ => True
  | .subDelegate parentDelegate parentId newDelegation now =>
    ∀ parent, PassesOn ledger.matrix parentDelegate parentId newDelegation now parent →
      newDelegation.isActive (max ledger.clock now) = true →
      newDelegation.delegator = parentDelegate ∧ newDelegation.expiresAt ≤ parent.expiresAt
  | .revoke delegate delegationId now =>
    ∀ derivation ∈ ledger.derived, derivation.parentDelegate = delegate →
      derivation.parentId = delegationId →
      ¬ ledger.matrix.ActiveAt derivation.delegation.delegate derivation.delegation.id
        (max ledger.clock now)
  | .purgeExpired _ => True

section Step

variable {ledger : Ledger} {granted : DelegatedAuthority} {now time : Timestamp}

/-- A new identifier keeps the lists well kept. -/
theorem WellKept.grant (kept : ledger.WellKept) (fresh : granted.id ∉ ledger.ids)
    {derived : List Derivation} (made : ∀ derivation ∈ derived,
      derivation ∈ ledger.derived ∨ derivation.delegation.id = granted.id ∧
        derivation.parentId ∈ ledger.ids) (clock : Timestamp) :
    WellKept ⟨ledger.matrix.grant granted, derived, ledger.ids ++ [granted.id], clock⟩ where
  listed delegate entry member := by
    change entry ∈ (ledger.matrix.grant granted).entries delegate at member
    rw [AuthorityMatrix.entries_grant] at member
    rw [List.mem_append, List.mem_singleton]
    split_ifs at member
    · rcases List.mem_append.mp member with old | new
      · exact .inl (kept.listed delegate entry old)
      · exact .inr (congrArg _ (List.mem_singleton.mp new))
    · exact .inl (kept.listed delegate entry member)
  unique delegate := by
    show (((ledger.matrix.grant granted).entries delegate).map _).Nodup
    rw [AuthorityMatrix.entries_grant]
    split_ifs
    · rw [List.map_append, List.map_singleton]
      refine (kept.unique delegate).append (List.nodup_singleton _) ?_
      rw [List.disjoint_singleton]
      intro used
      obtain ⟨entry, member, same⟩ := List.mem_map.mp used
      exact fresh (same ▸ kept.listed delegate entry member)
    · exact kept.unique delegate
  derived derivation member := by
    simp only [List.mem_append, List.mem_singleton]
    rcases made derivation member with old | ⟨same, parent⟩
    · obtain ⟨used, parent, apart⟩ := kept.derived derivation old
      exact ⟨.inl used, .inl parent, apart⟩
    · exact ⟨.inr same, .inl parent, fun equal => fresh (same ▸ equal ▸ parent)⟩

/-- Fewer entries, with identifiers they had, stay well kept. -/
theorem WellKept.of_sublist (kept : ledger.WellKept) {matrix : AuthorityMatrix}
    (sub : ∀ delegate, ((matrix.entries delegate).map DelegatedAuthority.id).Sublist
      ((ledger.matrix.entries delegate).map DelegatedAuthority.id)) (more : List String)
    (clock : Timestamp) : WellKept ⟨matrix, ledger.derived, ledger.ids ++ more, clock⟩ where
  listed delegate entry member := by
    obtain ⟨old, old_mem, same⟩ := List.mem_map.mp
      ((sub delegate).subset (List.mem_map_of_mem member))
    exact List.mem_append_left _ (same ▸ kept.listed delegate old old_mem)
  unique delegate := (kept.unique delegate).sublist (sub delegate)
  derived derivation member := by
    obtain ⟨used, parent, apart⟩ := kept.derived derivation member
    exact ⟨List.mem_append_left _ used, List.mem_append_left _ parent, apart⟩

/-- **Distinct identifiers keep the lists well kept.** -/
theorem wellKept_step (kept : ledger.WellKept) {call : Call} (fresh : ledger.FreshId call) :
    (ledger.step call).WellKept := by
  obtain ⟨matrix, derived, after, outcome⟩ := step_cases ledger call
  rw [after]
  cases outcome with
  | granted delegation now =>
    exact kept.grant (fresh _ rfl) (fun derivation old => .inl old) _
  | passed parentDelegate parentId newDelegation now parent passes =>
    refine kept.grant (fresh _ rfl) (fun derivation member => ?_) _
    rcases List.mem_append.mp member with old | new
    · exact .inl old
    · obtain rfl := List.mem_singleton.mp new
      exact .inr ⟨rfl, passes.id_eq ▸ kept.listed _ parent passes.mem⟩
  | refused parentDelegate parentId newDelegation now none =>
    exact kept.of_sublist (fun delegate => List.Sublist.refl _) _ _
  | revoked delegate delegationId now _ listed =>
    refine kept.of_sublist (fun other => ?_) _ _
    rw [listed]
    split_ifs
    · rw [List.map_map]
      refine (List.map_congr_left fun entry _ => ?_) ▸ List.Sublist.refl _
      exact (DelegatedAuthority.revokeIf_id delegationId entry).symm
    · exact List.Sublist.refl _
  | missing delegate delegationId now none =>
    exact kept.of_sublist (fun delegate => List.Sublist.refl _) _ _
  | purged now =>
    refine kept.of_sublist (fun delegate => ?_) _ _
    rw [AuthorityMatrix.entries_purgeExpired]
    exact List.filter_sublist.map _

/-- The parent that is found is the one with its identifier. -/
theorem WellKept.eq_of_id_eq (kept : ledger.WellKept) {delegate : Did}
    {entry other : DelegatedAuthority} (member : entry ∈ ledger.matrix.entries delegate)
    (member' : other ∈ ledger.matrix.entries delegate) (same : entry.id = other.id) :
    entry = other :=
  List.inj_on_of_nodup_map (kept.unique delegate) member member' same

/-- Sub-delegations stay backed when a delegation is granted under a new identifier. -/
theorem Backed.grant (backed : ledger.Backed) (kept : ledger.WellKept)
    (fresh : granted.id ∉ ledger.ids) {derivation : Derivation} (made : derivation ∈ ledger.derived)
    (since : ledger.clock ≤ time)
    (active : (ledger.matrix.grant granted).ActiveAt derivation.delegation.delegate
      derivation.delegation.id time) :
    derivation.delegation.delegator = derivation.parentDelegate ∧
      (ledger.matrix.grant granted).Holds derivation.parentDelegate derivation.parentId
        derivation.delegation time := by
  have other : derivation.delegation.id ≠ granted.id := by
    intro same
    exact fresh (same ▸ (kept.derived derivation made).1)
  rw [AuthorityMatrix.activeAt_grant_of_ne other] at active
  obtain ⟨named, holds⟩ := backed derivation made time since active
  exact ⟨named, AuthorityMatrix.holds_grant holds⟩

/-- Who holds the parent's identifier after the grant is the parent, before it expires. -/
theorem lt_expiresAt_of_holder (kept : ledger.WellKept) {parentDelegate : Did} {parentId : String}
    {parent holder : DelegatedAuthority}
    (passes : PassesOn ledger.matrix parentDelegate parentId granted now parent)
    (fresh : granted.id ∉ ledger.ids)
    (member : holder ∈ (ledger.matrix.grant granted).activeDelegations parentDelegate time)
    (same : holder.id = parentId) : time < parent.expiresAt := by
  rcases AuthorityMatrix.mem_activeDelegations_grant.mp member with old | ⟨rfl, -⟩
  · obtain ⟨listed, running⟩ := AuthorityMatrix.mem_activeDelegations.mp old
    obtain rfl := kept.eq_of_id_eq listed passes.mem (same.trans passes.id_eq.symm)
    exact (DelegatedAuthority.isActive_iff.mp running).2
  · refine absurd ?_ fresh
    rw [same, ← passes.id_eq]
    exact kept.listed _ parent passes.mem

/-- **What passing authority on does**: the new delegation is backed exactly if it names its maker and
expires in time. -/
theorem passed_backed_iff (backed : ledger.Backed) (kept : ledger.WellKept)
    {parentDelegate : Did} {parentId : String} {parent : DelegatedAuthority} {ids : List String}
    (passes : PassesOn ledger.matrix parentDelegate parentId granted now parent)
    (fresh : granted.id ∉ ledger.ids) :
    Backed ⟨ledger.matrix.grant granted,
        ledger.derived ++ [⟨parentDelegate, parentId, granted⟩], ids, max ledger.clock now⟩ ↔
      (granted.isActive (max ledger.clock now) = true →
        granted.delegator = parentDelegate ∧ granted.expiresAt ≤ parent.expiresAt) := by
  have own : ∀ time, (ledger.matrix.grant granted).ActiveAt granted.delegate granted.id time ↔
      granted.isActive time = true := by
    intro time
    refine AuthorityMatrix.activeAt_grant_self fun entry member same => ?_
    exact fresh (same ▸ kept.listed _ entry member)
  obtain ⟨unrevoked, -⟩ := DelegatedAuthority.isActive_iff.mp passes.active
  constructor
  · intro after active
    have holdsAt := after ⟨parentDelegate, parentId, granted⟩
      (List.mem_append_right _ (List.mem_singleton_self _))
    have held : ∀ time, max ledger.clock now ≤ time → granted.isActive time = true →
        granted.delegator = parentDelegate ∧ time < parent.expiresAt := by
      intro time since active
      obtain ⟨named, holder, member, same, -⟩ := holdsAt time since ((own time).mpr active)
      exact ⟨named, lt_expiresAt_of_holder kept passes fresh member same⟩
    obtain ⟨named, running⟩ := held _ le_rfl active
    refine ⟨named, ?_⟩
    -- otherwise it would be active when the parent expires
    by_contra longer
    rw [not_le] at longer
    have late : granted.isActive parent.expiresAt = true :=
      DelegatedAuthority.isActive_iff.mpr ⟨(DelegatedAuthority.isActive_iff.mp active).1, longer⟩
    exact lt_irrefl _ (held parent.expiresAt running.le late).2
  · intro inTime derivation member time since active
    rcases List.mem_append.mp member with old | new
    · exact backed.grant kept fresh old ((le_max_left _ _).trans since) active
    · obtain rfl := List.mem_singleton.mp new
      have running := (own time).mp active
      obtain ⟨named, bounded⟩ := inTime (DelegatedAuthority.isActive_of_le since running)
      refine ⟨named, AuthorityMatrix.holds_grant ⟨parent, ?_, passes.id_eq, passes.allowed, ?_⟩⟩
      · refine AuthorityMatrix.mem_activeDelegations.mpr ⟨passes.mem, ?_⟩
        exact DelegatedAuthority.isActive_iff.mpr
          ⟨unrevoked, (DelegatedAuthority.isActive_iff.mp running).2.trans_le bounded⟩
      · intro decisionClass covers
        exact passes.covered decisionClass (by simpa [DelegatedAuthority.coversClass] using covers)

/-- **What a revocation does**: the sub-delegations stay backed exactly if none that was made from the
revoked delegation is active. -/
theorem revoked_backed_iff (backed : ledger.Backed) (kept : ledger.WellKept) {delegate : Did}
    {delegationId : String} {after : AuthorityMatrix} {ids : List String}
    (listed : ∀ other, after.entries other =
      if delegate = other then
        (ledger.matrix.entries other).map (DelegatedAuthority.revokeIf delegationId)
      else ledger.matrix.entries other) :
    Backed ⟨after, ledger.derived, ids, max ledger.clock now⟩ ↔
      ledger.Keeps (.revoke delegate delegationId now) := by
  constructor
  · rintro still derivation made rfl rfl active
    -- the sub-delegation is not what is revoked, so it would have to be backed
    have running := (AuthorityMatrix.activeAt_revoke_iff listed).mpr
      ⟨active, fun both => (kept.derived derivation made).2.2 both.2.symm⟩
    obtain ⟨-, holds⟩ := still derivation made _ le_rfl running
    exact ((AuthorityMatrix.holds_revoke_iff listed).mp holds).2 ⟨rfl, rfl⟩
  · intro none derivation made time since active
    obtain ⟨before, -⟩ := (AuthorityMatrix.activeAt_revoke_iff listed).mp active
    obtain ⟨named, holds⟩ := backed derivation made time ((le_max_left _ _).trans since) before
    refine ⟨named, (AuthorityMatrix.holds_revoke_iff listed).mpr ⟨holds, ?_⟩⟩
    rintro ⟨delegates, ids⟩
    obtain ⟨entry, member, same⟩ := before
    obtain ⟨held, running⟩ := AuthorityMatrix.mem_activeDelegations.mp member
    refine none derivation made delegates ids ⟨entry, ?_, same⟩
    exact AuthorityMatrix.mem_activeDelegations.mpr
      ⟨held, DelegatedAuthority.isActive_of_le since running⟩

/-- **What one call does to the authority of the sub-delegations.** -/
theorem backed_step_iff (kept : ledger.WellKept) {call : Call} (fresh : ledger.FreshId call)
    (backed : ledger.Backed) : (ledger.step call).Backed ↔ ledger.Keeps call := by
  obtain ⟨matrix, derived, after, outcome⟩ := step_cases ledger call
  rw [after]
  -- a call that changes neither the matrix nor the sub-delegations only lets time pass
  have unchanged : ∀ ids, Backed ⟨ledger.matrix, ledger.derived, ids, max ledger.clock call.time⟩ :=
    fun _ derivation made time since =>
      backed derivation made time ((le_max_left _ _).trans since)
  cases outcome with
  | granted delegation now =>
    refine iff_of_true (fun derivation made time since active => ?_) trivial
    exact backed.grant kept (fresh _ rfl) made ((le_max_left _ _).trans since) active
  | passed parentDelegate parentId newDelegation now parent passes =>
    have only : ∀ other, PassesOn ledger.matrix parentDelegate parentId newDelegation now other →
        other = parent := by
      intro other also
      exact Option.some.inj (also.found.symm.trans passes.found)
    refine (passed_backed_iff backed kept passes (fresh _ rfl)).trans ⟨fun inTime => ?_, ?_⟩
    · intro other also
      rw [only other also]
      exact inTime
    · intro keeps
      exact keeps parent passes
  | refused parentDelegate parentId newDelegation now none =>
    exact iff_of_true (unchanged _) fun parent passes => absurd ⟨parent, passes⟩ none
  | revoked delegate delegationId now _ listed => exact revoked_backed_iff backed kept listed
  | missing delegate delegationId now none =>
    refine iff_of_true (unchanged _) ?_
    rintro derivation made rfl rfl active
    obtain ⟨-, parent, member, same, -⟩ := backed derivation made _ (le_max_left _ _) active
    exact none parent (AuthorityMatrix.mem_activeDelegations.mp member).1 same
  | purged now =>
    refine iff_of_true (fun derivation made time since active => ?_) trivial
    have later : now ≤ time := (le_max_right _ _).trans since
    rw [AuthorityMatrix.activeAt_purgeExpired later] at active
    rw [AuthorityMatrix.holds_purgeExpired later]
    exact backed derivation made time ((le_max_left _ _).trans since) active

end Step

/-! ### Whole runs -/

theorem ids_run (ledger : Ledger) (calls : List Call) :
    (run step ledger calls).ids = ledger.ids ++ calls.filterMap Call.newId := by
  induction calls generalizing ledger with
  | nil => simp
  | cons call calls ih =>
    rw [run_cons, ih, step, List.filterMap_cons]
    cases call.newId with
    | none => simp
    | some id => simp

/-- Calls with distinct identifiers add no identifier twice. -/
theorem along_freshId {calls : List Call} (distinct : (calls.filterMap Call.newId).Nodup) :
    Along step FreshId new calls := by
  intro before call after split id added used
  rw [split, List.filterMap_append, List.filterMap_cons, Option.mem_def.mp added] at distinct
  rw [ids_run] at used
  exact (List.nodup_append'.mp distinct).2.2 used List.mem_cons_self

/-- **When sub-delegated authority stays within its parent's.** In a run whose delegations have distinct
identifiers, every sub-delegation that is active, in any state and at any time from its latest call on,
names its maker and comes from a delegation that is active, allows it and covers its classes, exactly if
no call passes on active authority under another name or beyond its parent's expiry, and none revokes a
delegation while one made from it is active. -/
theorem subdelegations_backed_iff {calls : List Call}
    (distinct : (calls.filterMap Call.newId).Nodup) :
    Throughout step Sound new calls ↔ Along step Keeps new calls := by
  refine throughout_iff_along_within (fun _ _ kept fresh => wellKept_step kept fresh)
    (fun ledger call kept fresh sound => ?_) ?_ ?_ (along_freshId distinct)
  · rw [sound_iff_backed]
    exact backed_step_iff kept fresh sound.backed
  · exact ⟨fun _ _ member => absurd member List.not_mem_nil, fun _ => List.nodup_nil,
      fun _ member => absurd member List.not_mem_nil⟩
  · exact sound_iff_backed.mpr fun _ member => absurd member List.not_mem_nil

end Ledger

namespace Sample

/-- A delegation of routine decisions. -/
def routineDelegation (id delegator delegate : String) (expires : UInt64) : DelegatedAuthority where
  id := id
  delegator := ⟨delegator⟩
  delegate := ⟨delegate⟩
  scope := ⟨[.routine], "routine"⟩
  grantedAt := ⟨500, 0⟩
  expiresAt := ⟨expires, 0⟩
  revoked := false
  allowsSubDelegation := true
  signatureHash := FixedBytes.fill 32 1

/-- The root grants, alice passes on to bob, and the root grant is revoked. -/
def revokedRoot : List AuthorityMatrix.Call :=
  [.grant (routineDelegation "d1" "did:exo:root" "did:exo:alice" 9000) ⟨1000, 0⟩,
    .subDelegate ⟨"did:exo:alice"⟩ "d1"
      (routineDelegation "d2" "did:exo:alice" "did:exo:bob" 9000) ⟨1000, 0⟩,
    .revoke ⟨"did:exo:alice"⟩ "d1" ⟨2000, 0⟩]

/-- **Authority without a root**: bob may still decide after the grant he got it from was revoked. -/
theorem outlives_revocation :
    (run Ledger.step Ledger.new revokedRoot).matrix.hasAuthority ⟨"did:exo:bob"⟩ .routine
        ⟨3000, 0⟩ = true ∧
      ¬ ∀ calls : List AuthorityMatrix.Call,
        (calls.filterMap AuthorityMatrix.Call.newId).Nodup →
        Throughout Ledger.step Ledger.Sound Ledger.new calls := by
  refine ⟨by decide +kernel, fun sound => ?_⟩
  have final := (sound revokedRoot (by decide)).last.rooted ⟨3000, 0⟩ (by decide +kernel)
    (⟨"did:exo:bob"⟩, "d2") (⟨"did:exo:alice"⟩, "d1")
    (.single ⟨⟨⟨"did:exo:alice"⟩, "d1",
      routineDelegation "d2" "did:exo:alice" "did:exo:bob" 9000⟩, by decide +kernel, rfl, rfl⟩)
    ⟨routineDelegation "d2" "did:exo:alice" "did:exo:bob" 9000, by decide +kernel, rfl⟩
  obtain ⟨root, member, -⟩ := final
  have none : (run Ledger.step Ledger.new revokedRoot).matrix.activeDelegations ⟨"did:exo:alice"⟩
      ⟨3000, 0⟩ = [] := by decide +kernel
  rw [none] at member
  cases member

/-- A sub-delegation made in time, and revoked before the grant it comes from. -/
theorem revoked_in_order :
    Throughout Ledger.step Ledger.Sound Ledger.new
      [.grant (routineDelegation "d1" "did:exo:root" "did:exo:alice" 9000) ⟨1000, 0⟩,
        .subDelegate ⟨"did:exo:alice"⟩ "d1"
          (routineDelegation "d2" "did:exo:alice" "did:exo:bob" 9000) ⟨1000, 0⟩,
        .revoke ⟨"did:exo:bob"⟩ "d2" ⟨2000, 0⟩, .revoke ⟨"did:exo:alice"⟩ "d1" ⟨2000, 0⟩] := by
  refine (Ledger.subdelegations_backed_iff (by decide)).mpr ?_
  rw [along_cons_iff, along_cons_iff, along_cons_iff, along_cons_iff]
  refine ⟨trivial, fun parent passes _ => ?_, ?_, ?_, along_nil⟩
  · have found := passes.found
    have here : ((AuthorityMatrix.new.grant (routineDelegation "d1" "did:exo:root" "did:exo:alice"
        9000)).entries ⟨"did:exo:alice"⟩).find? (fun entry => entry.id = "d1") =
      some (routineDelegation "d1" "did:exo:root" "did:exo:alice" 9000) := by decide +kernel
    obtain rfl := Option.some.inj (here.symm.trans found)
    exact ⟨rfl, le_rfl⟩
  · unfold Ledger.Keeps
    decide +kernel
  · unfold Ledger.Keeps
    decide +kernel

end Sample

end Exochain.DecisionForum
