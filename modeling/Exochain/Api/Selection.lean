/-
**`exo-api` — the selection of peers.**

The selection deals candidates in rounds, one of each system in turn, until enough are selected, the limit of
the policy is reached or no system has a candidate left. The room for as many peers as are wanted is reserved
before the first round, however few candidates there are.

* `FairSelection` — what a selection owes to the systems.
* `selectDiversePeers_fair` — every selection that is made meets it.
* **`selects_fairly_iff`** — a selection is made exactly if there are no candidates or the room for the peers
  wanted can be reserved.
* `unlimited_stops` — no limit on the number of peers.
-/

import Exochain.Api.P2p

namespace Exochain.ExoApi

open Foundation Foundation.RoundRobin

section Selection

variable {candidates : List PeerMetadata} {policy : AsnPolicy} {maxPeers : ℕ}

/-- Select candidates, where a peer takes `peerBytes` bytes. The room for `maxPeers` of them is reserved
before the loop. -/
def selectReserving (peerBytes : ℕ) (candidates : List PeerMetadata) (policy : AsnPolicy)
    (maxPeers : ℕ) : Option (List PeerMetadata) :=
  if candidates.isEmpty || maxPeers = 0 then some []
  else do
    withCapacity peerBytes maxPeers
    return selectDiversePeers candidates policy maxPeers

/-- The systems of some peers. -/
def asns (peers : List PeerMetadata) : Finset Asn := (peers.map effectiveAsn).toFinset

/-- **A fair selection**: candidates, the first ones of each system and of none more than the limit; as many
in all as that allows, shared evenly among the systems that have candidates left, and of as many systems as
can be. -/
structure FairSelection (candidates : List PeerMetadata) (policy : AsnPolicy) (maxPeers : ℕ)
    (selected : List PeerMetadata) : Prop where
  subperm : selected.Subperm candidates
  first : ∀ asn, bucket effectiveAsn selected asn <+: bucket effectiveAsn candidates asn
  capped : ∀ asn, (bucket effectiveAsn selected asn).length ≤ policy.maxPeersPerAsn
  length : selected.length =
    min maxPeers (∑ asn ∈ asns candidates,
      min (bucket effectiveAsn candidates asn).length policy.maxPeersPerAsn)
  even : ∀ asn asn', (bucket effectiveAsn selected asn).length + 1 <
      (bucket effectiveAsn selected asn').length →
    (bucket effectiveAsn selected asn).length = (bucket effectiveAsn candidates asn).length
  covers : 1 ≤ policy.maxPeersPerAsn → (asns selected).card = min maxPeers (asns candidates).card

/-- The keys of the groups are the systems of the candidates. -/
theorem toFinset_keys (candidates : List PeerMetadata) :
    (groupUnder effectiveAsn candidates).keys.toFinset = asns candidates := by
  ext asn
  rw [asns, List.mem_toFinset, List.mem_toFinset, mem_keys_groupUnder]

theorem length_keys (candidates : List PeerMetadata) :
    (groupUnder effectiveAsn candidates).keys.length = (asns candidates).card := by
  rw [← toFinset_keys, List.toFinset_card_of_nodup (keys_sorted candidates).nodup]

/-- No system has more of the selection than the limit. -/
theorem length_bucket_selectDiversePeers_le (asn : Asn) :
    (bucket effectiveAsn (selectDiversePeers candidates policy maxPeers) asn).length ≤
      policy.maxPeersPerAsn := by
  have turns := countP_take_deal_le_iff (keys_sorted candidates) (fun _ => mem_keys_groupUnder) asn
    policy.maxPeersPerAsn maxPeers policy.maxPeersPerAsn
  rw [List.countP_eq_length_filter] at turns
  rw [selectDiversePeers_eq]
  exact turns.mpr (.inr (.inl le_rfl))

/-- **Every selection is fair.** -/
theorem selectDiversePeers_fair (candidates : List PeerMetadata) (policy : AsnPolicy) (maxPeers : ℕ) :
    FairSelection candidates policy maxPeers (selectDiversePeers candidates policy maxPeers) := by
  have sorted := keys_sorted candidates
  have listed : ∀ asn, asn ∈ (groupUnder effectiveAsn candidates).keys ↔ asn ∈ candidates.map effectiveAsn :=
    fun _ => mem_keys_groupUnder
  have first : ∀ asn, bucket effectiveAsn (selectDiversePeers candidates policy maxPeers) asn <+:
      bucket effectiveAsn candidates asn := by
    intro asn
    rw [selectDiversePeers_eq]
    exact prefix_bucket_take_deal sorted.nodup listed asn _ _
  refine ⟨subperm_of_bucket_sublist fun asn => (first asn).sublist, first,
    fun asn => length_bucket_selectDiversePeers_le asn, ?_, fun asn asn' fewer => ?_, fun some_each => ?_⟩
  · rw [selectDiversePeers_eq, List.length_take, length_deal, ← toFinset_keys,
      List.sum_toFinset _ sorted.nodup]
  · rw [selectDiversePeers_eq] at fewer ⊢
    exact length_bucket_eq_of_lt sorted listed fewer
  · obtain ⟨more, cap⟩ : ∃ more, policy.maxPeersPerAsn = more + 1 :=
      ⟨policy.maxPeersPerAsn - 1, by omega⟩
    rw [selectDiversePeers_eq, cap, asns, card_keys_take_deal sorted.nodup listed, length_keys]

/-- **When a fair selection is made**: there are no candidates, or the room for the peers wanted can be
reserved. -/
theorem selects_fairly_iff (peerBytes : ℕ) (candidates : List PeerMetadata) (policy : AsnPolicy)
    (maxPeers : ℕ) :
    (∃ selected, selectReserving peerBytes candidates policy maxPeers = some selected ∧
        FairSelection candidates policy maxPeers selected) ↔
      candidates = [] ∨ maxPeers * peerBytes ≤ maxVecLength := by
  have fair := selectDiversePeers_fair candidates policy maxPeers
  unfold selectReserving
  by_cases trivially : (candidates.isEmpty || maxPeers = 0) = true
  · rw [selectDiversePeers, if_pos trivially] at fair
    rw [if_pos trivially]
    refine iff_of_true ⟨[], rfl, fair⟩ ?_
    rcases Bool.or_eq_true_iff.mp trivially with empty | none
    · exact .inl (List.isEmpty_iff.mp empty)
    · rw [of_decide_eq_true none, Nat.zero_mul]
      exact .inr (Nat.zero_le _)
  · rw [if_neg trivially]
    have offered : candidates ≠ [] := fun empty => trivially (by simp [empty])
    rw [or_iff_right offered, withCapacity]
    by_cases room : maxPeers * peerBytes ≤ maxVecLength
    · rw [if_pos room]
      exact iff_of_true ⟨_, rfl, fair⟩ room
    · rw [if_neg room]
      refine iff_of_false ?_ room
      rintro ⟨selected, stopped, -⟩
      cases stopped

/-- **No limit on the number of peers**: whatever the size of a peer, no selection is made. -/
theorem unlimited_stops :
    ¬ ∃ peerBytes, 0 < peerBytes ∧ ∀ candidates policy, ∀ maxPeers < 2 ^ 64,
      ∃ selected, selectReserving peerBytes candidates policy maxPeers = some selected ∧
        FairSelection candidates policy maxPeers selected := by
  rintro ⟨peerBytes, positive, selects⟩
  obtain ⟨selected, made, -⟩ := selects Sample.twoSystems Sample.limitOne (2 ^ 64 - 1) (by decide)
  have crowded : ¬ (2 ^ 64 - 1) * peerBytes ≤ maxVecLength := by
    unfold maxVecLength
    omega
  rw [selectReserving, withCapacity, if_neg crowded] at made
  cases made

end Selection

end Exochain.ExoApi
