/-
**`decision-forum` — purging the authority matrix.**

A purge rewrites the list of every delegate without the delegations that are not active. What is not active
at one time is not active later, so from the time of the purge on nobody can tell that it was made.

* `purgeLoop_eq` — the loop over the keys, as the source has it, is `purgeExpired`.
* `records_purgeExpired` — how many records a purge removes.
* **`purge_unobservable`** — later queries answer the same, the count is that of the records removed, and a
  second purge at the time of the first removes nothing.
* `mem_expiryWarnings_iff` — which delegations are warned of before they expire.
-/

import Exochain.Forum.AuthorityMatrix

set_option linter.unusedSectionVars false

namespace Exochain.DecisionForum

open Foundation ExoCore

namespace AuthorityMatrix

/-! ### The loop -/

/-- The delegations that are active. -/
def remaining (now : Timestamp) (entries : List DelegatedAuthority) : List DelegatedAuthority :=
  entries.filter fun delegation => delegation.isActive now

/-- One round of the purge: rewrite the list under a key, and count what is dropped. -/
def purgeKey (now : Timestamp) (state : ℕ × BTreeMap String (List DelegatedAuthority)) (key : String) :
    ℕ × BTreeMap String (List DelegatedAuthority) :=
  match state.2[key]? with
  | some entries =>
    (state.1 + (entries.length - (remaining now entries).length),
      state.2.insert key (remaining now entries))
  | none => state

/-- The purge, one key after the other. -/
def purgeLoop (matrix : AuthorityMatrix) (now : Timestamp) : ℕ × AuthorityMatrix :=
  let (count, delegations) := matrix.delegations.keys.foldl (purgeKey now) (0, matrix.delegations)
  (count, ⟨delegations⟩)

theorem purgeExpired_eq (matrix : AuthorityMatrix) (now : Timestamp) :
    matrix.purgeExpired now =
      (matrix.delegations.foldl (fun count _ entries =>
          count + (entries.length - (remaining now entries).length)) 0,
        ⟨matrix.delegations.map fun _ entries => remaining now entries⟩) := rfl

/-- **The loop over the keys is the purge.** -/
theorem purgeLoop_eq (matrix : AuthorityMatrix) (now : Timestamp) :
    matrix.purgeLoop now = matrix.purgeExpired now := by
  have round : purgeKey now = BTreeMap.visit
      (fun count entries => count + (entries.length - (remaining now entries).length))
      (remaining now) := by
    funext state key
    unfold purgeKey BTreeMap.visit
    cases state.2[key]? with
    | none => rfl
    | some entries => rfl
  unfold purgeLoop
  rw [round, BTreeMap.foldl_visit_keys, purgeExpired_eq]

/-! ### What is removed -/

/-- How many records the matrix has. -/
def records (matrix : AuthorityMatrix) : ℕ :=
  (matrix.delegations.toList.map fun entry => entry.2.length).sum

variable {matrix : AuthorityMatrix} {now : Timestamp}

/-- Counting from a number on. -/
theorem foldl_dropped (now : Timestamp) (entries : List (String × List DelegatedAuthority))
    (count : ℕ) :
    entries.foldl (fun count entry => count + (entry.2.length - (remaining now entry.2).length))
          count +
        (entries.map fun entry => (remaining now entry.2).length).sum =
      count + (entries.map fun entry => entry.2.length).sum := by
  induction entries generalizing count with
  | nil => rfl
  | cons entry rest ih =>
    have fewer : (remaining now entry.2).length ≤ entry.2.length := List.length_filter_le _ _
    have others := ih (count + (entry.2.length - (remaining now entry.2).length))
    simp only [List.foldl_cons, List.map_cons, List.sum_cons] at others ⊢
    omega

/-- **The count is that of the records removed.** -/
theorem records_purgeExpired (matrix : AuthorityMatrix) (now : Timestamp) :
    (matrix.purgeExpired now).1 + (matrix.purgeExpired now).2.records = matrix.records := by
  have dropped := foldl_dropped now matrix.delegations.toList 0
  rw [purgeExpired_eq, records, records, Std.ExtTreeMap.foldl_eq_foldl_toList,
    Std.ExtTreeMap.toList_map, List.map_map]
  rw [Nat.zero_add] at dropped
  exact dropped

/-- A second purge finds the lists as it would leave them. -/
theorem purgeExpired_idem (matrix : AuthorityMatrix) (now : Timestamp) :
    (matrix.purgeExpired now).2.purgeExpired now = (0, (matrix.purgeExpired now).2) := by
  have same : ((matrix.purgeExpired now).2.purgeExpired now).2 = (matrix.purgeExpired now).2 := by
    unfold purgeExpired
    refine congrArg AuthorityMatrix.mk (Std.ExtTreeMap.ext_getElem? fun key => ?_)
    simp only [Std.ExtTreeMap.getElem?_map, Option.map_map]
    refine congrArg (Option.map · _) (funext fun entries => ?_)
    simp only [Function.comp_apply, List.filter_filter, Bool.and_self]
  have none := records_purgeExpired (matrix.purgeExpired now).2 now
  rw [same] at none
  exact Prod.ext (by simpa using none) same

/-- **Purging is unobservable**: queries at the time of a purge or later give the same delegations in the
same order, and the same authority, as without it; the number it returns is that of the records it removes;
and a second purge at the same time removes nothing. -/
theorem purge_unobservable (matrix : AuthorityMatrix) {now later : Timestamp} (before : now ≤ later) :
    (∀ delegate, (matrix.purgeExpired now).2.activeDelegations delegate later =
      matrix.activeDelegations delegate later) ∧
    (∀ delegate decisionClass, (matrix.purgeExpired now).2.hasAuthority delegate decisionClass later =
      matrix.hasAuthority delegate decisionClass later) ∧
    (matrix.purgeExpired now).1 + (matrix.purgeExpired now).2.records = matrix.records ∧
    (matrix.purgeExpired now).2.purgeExpired now = (0, (matrix.purgeExpired now).2) := by
  refine ⟨activeDelegations_purgeExpired before, fun delegate decisionClass => ?_,
    records_purgeExpired matrix now, purgeExpired_idem matrix now⟩
  rw [hasAuthority, activeDelegations_purgeExpired before, ← hasAuthority]

/-! ### Warnings -/

/-- The whole days until a delegation expires; none if it has expired. -/
def daysUntilExpiry (delegation : DelegatedAuthority) (now : Timestamp) : ℕ :=
  if delegation.expiresAt.physicalMs ≤ now.physicalMs then 0
  else (delegation.expiresAt.physicalMs - now.physicalMs).toNat / (24 * 60 * 60 * 1000)

/-- The numbers of days from which on is warned. -/
def expiryWarningDays : List ℕ := [90, 60, 30, 14, 7]

/-- The active delegations that expire soon, with the days that are left. -/
def expiryWarnings (matrix : AuthorityMatrix) (now : Timestamp) : List (DelegatedAuthority × ℕ) :=
  matrix.delegations.valuesInOrder.flatten.filterMap fun delegation =>
    if !delegation.isActive now then none
    else if expiryWarningDays.any (daysUntilExpiry delegation now ≤ ·) then
      some (delegation, daysUntilExpiry delegation now)
    else none

/-- The first of the numbers is the only one that matters. -/
theorem warns_iff {delegation : DelegatedAuthority} {now : Timestamp} :
    expiryWarningDays.any (daysUntilExpiry delegation now ≤ ·) = true ↔
      delegation.expiresAt.physicalMs.toNat < now.physicalMs.toNat + 91 * 86400000 := by
  have first : expiryWarningDays.any (daysUntilExpiry delegation now ≤ ·) = true ↔
      daysUntilExpiry delegation now ≤ 90 := by
    simp only [expiryWarningDays, List.any_cons, List.any_nil, Bool.or_false, Bool.or_eq_true,
      decide_eq_true_iff]
    omega
  rw [first]
  unfold daysUntilExpiry
  split
  · rename_i expired
    rw [UInt64.le_iff_toNat_le] at expired
    omega
  · rename_i ahead
    rw [not_le, UInt64.lt_iff_toNat_lt] at ahead
    rw [UInt64.toNat_sub_of_le _ _ (UInt64.le_iff_toNat_le.mpr ahead.le)]
    omega

/-- **Who is warned of**: the active delegations that expire within 91 days. -/
theorem mem_expiryWarnings_iff {matrix : AuthorityMatrix} {now : Timestamp} {delegation : DelegatedAuthority}
    {days : ℕ} :
    (delegation, days) ∈ matrix.expiryWarnings now ↔
      (∃ (key : String) (entries : List DelegatedAuthority), matrix.delegations[key]? = some entries ∧
        delegation ∈ entries) ∧
      delegation.isActive now = true ∧ days = daysUntilExpiry delegation now ∧
      delegation.expiresAt.physicalMs.toNat < now.physicalMs.toNat + 91 * 86400000 := by
  have listed : delegation ∈ matrix.delegations.valuesInOrder.flatten ↔
      ∃ (key : String) (entries : List DelegatedAuthority), matrix.delegations[key]? = some entries ∧
        delegation ∈ entries := by
    rw [List.mem_flatten]
    constructor
    · rintro ⟨entries, stored, member⟩
      obtain ⟨key, found⟩ := BTreeMap.mem_valuesInOrder_iff.mp stored
      exact ⟨key, entries, found, member⟩
    · rintro ⟨key, entries, found, member⟩
      exact ⟨entries, BTreeMap.mem_valuesInOrder_iff.mpr ⟨key, found⟩, member⟩
  rw [← listed, ← warns_iff, expiryWarnings, List.mem_filterMap]
  constructor
  · rintro ⟨other, member, warned⟩
    split at warned
    · cases warned
    · rename_i active
      split at warned
      · rename_i soon
        cases warned
        exact ⟨member, by simpa using active, rfl, soon⟩
      · cases warned
  · rintro ⟨member, active, rfl, soon⟩
    refine ⟨delegation, member, ?_⟩
    rw [if_neg (by simpa using active), if_pos soon]

end AuthorityMatrix

namespace Sample

/-- Two grants to alice, of which one expires between them. -/
def twoGrants : AuthorityMatrix :=
  (AuthorityMatrix.new.grant (routineDelegation "d1" "did:exo:root" "did:exo:alice" 1000)).grant
    (routineDelegation "d2" "did:exo:root" "did:exo:alice" 9000)

/-- A purge after the first expiry does not show later. -/
theorem twoGrants_purged :
    (∀ delegate, (twoGrants.purgeExpired ⟨2000, 0⟩).2.activeDelegations delegate ⟨3000, 0⟩ =
      twoGrants.activeDelegations delegate ⟨3000, 0⟩) ∧
    (∀ delegate decisionClass,
      (twoGrants.purgeExpired ⟨2000, 0⟩).2.hasAuthority delegate decisionClass ⟨3000, 0⟩ =
        twoGrants.hasAuthority delegate decisionClass ⟨3000, 0⟩) ∧
    (twoGrants.purgeExpired ⟨2000, 0⟩).1 + (twoGrants.purgeExpired ⟨2000, 0⟩).2.records =
      twoGrants.records ∧
    (twoGrants.purgeExpired ⟨2000, 0⟩).2.purgeExpired ⟨2000, 0⟩ =
      (0, (twoGrants.purgeExpired ⟨2000, 0⟩).2) :=
  AuthorityMatrix.purge_unobservable twoGrants (by decide)

/-- It removes the one that has expired. -/
example : (twoGrants.purgeExpired ⟨2000, 0⟩).1 = 1 := by decide +kernel

end Sample

end Exochain.DecisionForum
