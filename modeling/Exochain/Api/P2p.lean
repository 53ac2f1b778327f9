/-
**`exo-api` — the rotation of peers.**

A node limits how many of its peers are of one autonomous system. A rotation evicts the peers not seen
for some time and takes candidates in their place, one of each system in turn until the evicted ones are
replaced. The candidates are counted against the limit among themselves; the peers that stay are not
counted with them.

* `selectDiversePeers_eq` — the selection is the first part of a deal in rounds.
* `rotatePeers_eq` — the peers that stay, then the selection.
* `HasRoom` — no system with peers that stay has its turn too often.
* `capped_next_iff` — **a rotation keeps the limit precisely when there is room.**
* **`rotations_sound_iff`** — the same over every run of rotations.
* `Sample.eclipsed` — one system ends with twice its limit.
-/

import Exochain.Foundation.Run
import Exochain.Foundation.Collections
import Exochain.Foundation.RoundRobin
import Exochain.Core.Types

namespace Exochain.ExoApi

open Foundation Foundation.RoundRobin ExoCore

/-! ### Peers -/

/-- The identity of a peer. -/
abbrev PeerId := Did

/-- What a peer says of itself. -/
structure PeerInfo where
  id : PeerId
  addresses : List String
  publicKeyHash : Hash256
  lastSeen : Timestamp
  reputationScore : UInt32
  deriving DecidableEq

/-- The number of an autonomous system. -/
abbrev Asn := UInt32

/-- A peer with its autonomous system. -/
structure PeerMetadata where
  info : PeerInfo
  asn : Option Asn
  firstSeen : Timestamp
  lastSeen : Timestamp
  deriving DecidableEq

/-- The identity of a peer. -/
def PeerMetadata.id (peer : PeerMetadata) : PeerId := peer.info.id

/-- The limit for one system, and the time after which a peer is rotated. -/
structure AsnPolicy where
  maxPeersPerAsn : ℕ
  rotationIntervalMs : UInt64
  deriving DecidableEq

/-- The system of the peers whose system is not known. -/
def unknownAsn : Asn := 0

/-- The system that a peer is counted for. -/
def effectiveAsn (peer : PeerMetadata) : Asn := peer.asn.getD unknownAsn

/-! ### The selection -/

/-- One round: the candidate of each bucket at the place of the round, while peers are wanted. The flag
tells whether one was added. -/
def selectRound (policy : AsnPolicy) (maxPeers round : ℕ) :
    List (List PeerMetadata) → List PeerMetadata → Bool → List PeerMetadata × Bool
  | [], selected, added => (selected, added)
  | bucket :: buckets, selected, added =>
    if maxPeers ≤ selected.length then (selected, added)
    else if policy.maxPeersPerAsn ≤ round then selectRound policy maxPeers round buckets selected added
    else
      match bucket[round]? with
      | some peer => selectRound policy maxPeers round buckets (selected ++ [peer]) true
      | none => selectRound policy maxPeers round buckets selected added

/-- What a round can add. -/
def roundOf (policy : AsnPolicy) (round : ℕ) (buckets : List (List PeerMetadata)) :
    List PeerMetadata :=
  if policy.maxPeersPerAsn ≤ round then [] else buckets.filterMap (·[round]?)

/-- A round adds the first peers it can, up to the number wanted. -/
theorem selectRound_eq (policy : AsnPolicy) (maxPeers round : ℕ) (buckets : List (List PeerMetadata))
    (selected : List PeerMetadata) (added : Bool) :
    selectRound policy maxPeers round buckets selected added =
      (selected ++ (roundOf policy round buckets).take (maxPeers - selected.length),
        added || !((roundOf policy round buckets).take (maxPeers - selected.length)).isEmpty) := by
  induction buckets generalizing selected added with
  | nil => simp [selectRound, roundOf]
  | cons bucket buckets ih =>
    rw [selectRound]
    by_cases full : maxPeers ≤ selected.length
    · simp [full]
    · rw [if_neg full]
      by_cases beyond : policy.maxPeersPerAsn ≤ round
      · rw [if_pos beyond, ih]
        simp [roundOf, beyond]
      · rw [if_neg beyond]
        obtain ⟨wanted, more⟩ : ∃ wanted, maxPeers - selected.length = wanted + 1 :=
          ⟨maxPeers - selected.length - 1, by omega⟩
        have fewer : maxPeers - (selected.length + 1) = wanted := by omega
        cases found : bucket[round]? with
        | none => simp [ih, roundOf, beyond, found]
        | some peer => simp [ih, roundOf, beyond, found, more, fewer]

theorem length_lt_of_selectRound {policy : AsnPolicy} {maxPeers round : ℕ}
    {buckets : List (List PeerMetadata)} {selected selected' : List PeerMetadata}
    (adds : selectRound policy maxPeers round buckets selected false = (selected', true)) :
    selected.length < selected'.length := by
  rw [selectRound_eq, Prod.mk.injEq] at adds
  obtain ⟨rfl, flag⟩ := adds
  rw [Bool.false_or, Bool.not_eq_true', List.isEmpty_eq_false_iff] at flag
  rw [List.length_append]
  exact Nat.lt_add_of_pos_right (List.length_pos_of_ne_nil flag)

/-- Rounds until enough peers are selected or a round adds none. -/
def selectRounds (policy : AsnPolicy) (maxPeers : ℕ) (buckets : List (List PeerMetadata))
    (selected : List PeerMetadata) (round : ℕ) : List PeerMetadata :=
  if maxPeers ≤ selected.length then selected
  else
    match _adds : selectRound policy maxPeers round buckets selected false with
    | (selected', true) => selectRounds policy maxPeers buckets selected' (round + 1)
    | (selected', false) => selected'
termination_by maxPeers - selected.length
decreasing_by
  have longer := length_lt_of_selectRound _adds
  omega

/-- Select candidates, one of each system in turn, up to the limit of the policy for each system and
`maxPeers` in all. -/
def selectDiversePeers (candidates : List PeerMetadata) (policy : AsnPolicy) (maxPeers : ℕ) :
    List PeerMetadata :=
  if candidates.isEmpty || maxPeers = 0 then []
  else
    let byAsn := groupUnder effectiveAsn candidates
    selectRounds policy maxPeers (byAsn.toList.map Prod.snd) [] 0

/-! ### The rotation -/

/-- A peer was not seen for longer than `maxAgeMs`. -/
def isStale (now : Timestamp) (maxAgeMs : UInt64) (peer : PeerMetadata) : Bool :=
  -- the subtraction stops at zero, as in the source
  maxAgeMs.toNat < now.physicalMs.toNat - peer.lastSeen.physicalMs.toNat

/-- The identities of the stale peers. -/
def identifyStalePeers (peers : List PeerMetadata) (now : Timestamp) (maxAgeMs : UInt64) :
    List PeerId :=
  (peers.filter (isStale now maxAgeMs)).map PeerMetadata.id

/-- Evict the stale peers and take candidates in their place; the identities evicted, and the peers
after. -/
def rotatePeers (current candidates : List PeerMetadata) (policy : AsnPolicy) (now : Timestamp) :
    List PeerId × List PeerMetadata :=
  let staleIds : BTreeSet PeerId := .ofList (identifyStalePeers current now policy.rotationIntervalMs)
  let evicted := staleIds.toList
  let current := current.filter fun p => !staleIds.contains p.id
  let currentIds : BTreeSet PeerId := .ofList (current.map PeerMetadata.id)
  let freshCandidates := candidates.filter fun c => !currentIds.contains c.id
  let replacements := selectDiversePeers freshCandidates policy evicted.length
  (evicted, current ++ replacements)

/-! ### The selection as a deal -/

section Deal

variable (policy : AsnPolicy) (maxPeers : ℕ) (candidates : List PeerMetadata) (keys : List Asn)

theorem roundOf_eq_turn {policy : AsnPolicy} {round : ℕ} (within : round < policy.maxPeersPerAsn) :
    roundOf policy round (keys.map (bucket effectiveAsn candidates)) =
      turn effectiveAsn candidates keys round := by
  rw [roundOf, if_neg (Nat.not_le.mpr within), List.filterMap_map]
  rfl

/-- **The rounds from one on deal what is left of the limit**, up to the number wanted. -/
theorem selectRounds_eq (selected : List PeerMetadata) (round : ℕ) :
    selectRounds policy maxPeers (keys.map (bucket effectiveAsn candidates)) selected round =
      selected ++ (deal effectiveAsn candidates keys round (policy.maxPeersPerAsn - round)).take
        (maxPeers - selected.length) := by
  fun_induction selectRounds policy maxPeers (keys.map (bucket effectiveAsn candidates)) selected round
    with
  | case1 selected round full => simp [full]
  | case2 selected round more selected' adds ih =>
    rw [selectRound_eq, Prod.mk.injEq] at adds
    obtain ⟨rfl, flag⟩ := adds
    have within : round < policy.maxPeersPerAsn := by
      by_contra beyond
      simp [roundOf, Nat.le_of_not_lt beyond] at flag
    obtain ⟨left, remaining⟩ : ∃ left, policy.maxPeersPerAsn - round = left + 1 :=
      ⟨policy.maxPeersPerAsn - round - 1, by omega⟩
    rw [ih, roundOf_eq_turn candidates keys within, remaining, deal_succ, List.take_append,
      List.append_assoc, show policy.maxPeersPerAsn - (round + 1) = left by omega]
    congr 3
    rw [List.length_append, List.length_take]
    omega
  | case3 selected round more selected' adds =>
    rw [selectRound_eq, Prod.mk.injEq] at adds
    obtain ⟨rfl, flag⟩ := adds
    -- a round that adds nothing, while peers are wanted, has nothing to add
    have nothing : roundOf policy round (keys.map (bucket effectiveAsn candidates)) = [] := by
      simpa [Nat.sub_eq_zero_iff_le, more] using flag
    have none : deal effectiveAsn candidates keys round (policy.maxPeersPerAsn - round) = [] := by
      by_cases within : round < policy.maxPeersPerAsn
      · rw [roundOf_eq_turn candidates keys within] at nothing
        exact deal_eq_nil nothing _
      · rw [Nat.sub_eq_zero_of_le (Nat.le_of_not_lt within)]
        rfl
    rw [nothing, none]

/-- **The selection is the first part of a deal** in as many rounds as the limit. -/
theorem selectDiversePeers_eq :
    selectDiversePeers candidates policy maxPeers =
      (deal effectiveAsn candidates (groupUnder effectiveAsn candidates).keys 0
        policy.maxPeersPerAsn).take maxPeers := by
  rw [selectDiversePeers]
  split
  next trivially =>
    rcases Bool.or_eq_true_iff.mp trivially with empty | none
    · have nothing : deal effectiveAsn candidates (groupUnder effectiveAsn candidates).keys 0
          policy.maxPeersPerAsn = [] := by
        rw [List.eq_nil_iff_forall_not_mem]
        intro peer dealt
        rw [List.isEmpty_iff.mp empty] at dealt
        exact List.not_mem_nil (mem_of_mem_deal dealt)
      rw [nothing, List.take_nil]
    · rw [of_decide_eq_true none, List.take_zero]
  next =>
    dsimp only
    rw [values_groupUnder]
    exact selectRounds_eq policy maxPeers candidates _ [] 0

end Deal

/-! ### The rotation as a list -/

/-- No two of the peers have one identity. -/
def DistinctIds (peers : List PeerMetadata) : Prop := (peers.map PeerMetadata.id).Nodup

instance (peers : List PeerMetadata) : Decidable (DistinctIds peers) :=
  inferInstanceAs (Decidable (List.Nodup _))

/-- The candidates and the time of a rotation. -/
structure Rotation where
  candidates : List PeerMetadata
  now : Timestamp
  deriving DecidableEq

section Rotating

variable (policy : AsnPolicy) (current : List PeerMetadata) (rotation : Rotation)

/-- The peers after a rotation. -/
def next : List PeerMetadata := (rotatePeers current rotation.candidates policy rotation.now).2

/-- The peers that are evicted. -/
def stale : List PeerMetadata := current.filter (isStale rotation.now policy.rotationIntervalMs)

/-- The peers that stay. -/
def survivors : List PeerMetadata :=
  current.filter fun peer => !isStale rotation.now policy.rotationIntervalMs peer

/-- The candidates that are not peers that stay. -/
def fresh : List PeerMetadata :=
  rotation.candidates.filter fun candidate =>
    candidate.id ∉ (survivors policy current rotation).map PeerMetadata.id

/-- What is taken in place of the stale peers. -/
def replacements : List PeerMetadata :=
  (deal effectiveAsn (fresh policy current rotation)
    (groupUnder effectiveAsn (fresh policy current rotation)).keys 0 policy.maxPeersPerAsn).take
      (stale policy current rotation).length

variable {policy current rotation}

theorem id_injOn {peers : List PeerMetadata} (distinct : DistinctIds peers) {first second : PeerMetadata}
    (inFirst : first ∈ peers) (inSecond : second ∈ peers) (same : first.id = second.id) :
    first = second :=
  List.inj_on_of_nodup_map distinct inFirst inSecond same

/-- The set of stale identities has each stale peer's once. -/
theorem toList_ofList_perm {ids : List PeerId} (distinct : ids.Nodup) :
    (Std.ExtTreeSet.ofList ids compare).toList.Perm ids := by
  refine (List.perm_ext_iff_of_nodup (BTreeSet.nodup_toList _) distinct).mpr fun id => ?_
  rw [Std.ExtTreeSet.mem_toList, Std.ExtTreeSet.mem_ofList, List.contains_iff_mem]

/-- Where identities are distinct, the peers with a stale identity are the stale ones. -/
theorem filter_stale_ids (distinct : DistinctIds current) :
    current.filter (fun peer => !(Std.ExtTreeSet.ofList (identifyStalePeers current rotation.now
      policy.rotationIntervalMs) compare).contains peer.id) = survivors policy current rotation := by
  refine List.filter_congr fun peer listed => ?_
  rw [Std.ExtTreeSet.contains_ofList, Bool.not_inj_iff, Bool.eq_iff_iff, List.contains_iff_mem]
  constructor
  · intro named
    obtain ⟨other, inStale, same⟩ := List.mem_map.mp named
    obtain ⟨inCurrent, old⟩ := List.mem_filter.mp inStale
    rwa [← id_injOn distinct inCurrent listed same]
  · intro old
    exact List.mem_map_of_mem (List.mem_filter.mpr ⟨listed, old⟩)

theorem filter_current_ids :
    rotation.candidates.filter (fun candidate => !(Std.ExtTreeSet.ofList ((survivors policy current
      rotation).map PeerMetadata.id) compare).contains candidate.id) = fresh policy current rotation := by
  refine List.filter_congr fun candidate _ => ?_
  rw [Std.ExtTreeSet.contains_ofList, Bool.eq_iff_iff]
  simp

/-- **A rotation returns the stale identities and leaves the peers that stay, then the replacements.** -/
theorem rotatePeers_eq (distinct : DistinctIds current) :
    (rotatePeers current rotation.candidates policy rotation.now).1.Perm
        ((stale policy current rotation).map PeerMetadata.id) ∧
      next policy current rotation =
        survivors policy current rotation ++ replacements policy current rotation := by
  have staleDistinct : DistinctIds (stale policy current rotation) :=
    distinct.sublist (List.filter_sublist.map PeerMetadata.id)
  have perm := toList_ofList_perm staleDistinct
  refine ⟨perm, ?_⟩
  rw [next, rotatePeers]
  dsimp only
  rw [filter_stale_ids distinct, filter_current_ids, selectDiversePeers_eq, replacements]
  congr 2
  exact perm.length_eq.trans (List.length_map ..)

/-! ### The limit -/

variable (policy current rotation)

/-- No system has more peers than the limit. -/
def Capped (policy : AsnPolicy) (peers : List PeerMetadata) : Prop :=
  ∀ asn, peers.countP (effectiveAsn · = asn) ≤ policy.maxPeersPerAsn

/-- The peers that a system may gain, besides those that stay. -/
def room (asn : Asn) : ℕ :=
  policy.maxPeersPerAsn - (survivors policy current rotation).countP (effectiveAsn · = asn)

/-- **There is room for the replacements**: a system with peers that stay has no more candidates than it
may gain, or the one after these has its turn only when the stale peers are replaced. -/
def HasRoom : Prop :=
  ∀ peer ∈ survivors policy current rotation,
    (bucket effectiveAsn (fresh policy current rotation) (effectiveAsn peer)).length ≤
        room policy current rotation (effectiveAsn peer) ∨
      (stale policy current rotation).length ≤
        dealtBefore effectiveAsn (fresh policy current rotation) (effectiveAsn peer)
          (room policy current rotation (effectiveAsn peer))

instance : Decidable (HasRoom policy current rotation) :=
  inferInstanceAs (Decidable (∀ peer ∈ survivors policy current rotation, _ ∨ _))

variable {policy current rotation}

/-- The limit has to be checked for the systems of the peers only. -/
theorem capped_iff {peers : List PeerMetadata} :
    Capped policy peers ↔
      ∀ peer ∈ peers, peers.countP (effectiveAsn · = effectiveAsn peer) ≤ policy.maxPeersPerAsn := by
  constructor
  · exact fun capped peer _ => capped (effectiveAsn peer)
  · intro listed asn
    rcases Nat.eq_zero_or_pos (peers.countP (effectiveAsn · = asn)) with none | some
    · rw [none]
      exact Nat.zero_le _
    · obtain ⟨peer, member, own⟩ := List.countP_pos_iff.mp some
      rw [← of_decide_eq_true own]
      exact listed peer member

instance (peers : List PeerMetadata) : Decidable (Capped policy peers) :=
  decidable_of_iff _ capped_iff.symm

theorem keys_sorted (candidates : List PeerMetadata) :
    (groupUnder effectiveAsn candidates).keys.Pairwise (· < ·) :=
  Std.ExtTreeMap.ordered_keys.imp fun less => Std.compare_eq_lt.mp less

/-- How many of a system are taken, by the turns of the deal. -/
theorem countP_replacements_le_iff (asn : Asn) (m : ℕ) :
    (replacements policy current rotation).countP (effectiveAsn · = asn) ≤ m ↔
      (bucket effectiveAsn (fresh policy current rotation) asn).length ≤ m ∨
        policy.maxPeersPerAsn ≤ m ∨
        (stale policy current rotation).length ≤
          dealtBefore effectiveAsn (fresh policy current rotation) asn m :=
  countP_take_deal_le_iff (keys_sorted _) (fun _ => mem_keys_groupUnder) asn _ _ m

theorem countP_survivors_le (capped : Capped policy current) (asn : Asn) :
    (survivors policy current rotation).countP (effectiveAsn · = asn) ≤ policy.maxPeersPerAsn :=
  List.filter_sublist.countP_le.trans (capped asn)

/-- The replacements of a system have to fit beside the peers that stay. -/
theorem countP_next_le_iff (distinct : DistinctIds current) (capped : Capped policy current)
    (asn : Asn) :
    (next policy current rotation).countP (effectiveAsn · = asn) ≤ policy.maxPeersPerAsn ↔
      (replacements policy current rotation).countP (effectiveAsn · = asn) ≤
        room policy current rotation asn := by
  have staying : (survivors policy current rotation).countP (effectiveAsn · = asn) ≤
      policy.maxPeersPerAsn := countP_survivors_le capped asn
  rw [(rotatePeers_eq distinct).2, List.countP_append, room]
  omega

/-- A system with peers that stay has less room than the limit. -/
theorem room_lt (capped : Capped policy current) {peer : PeerMetadata}
    (stays : peer ∈ survivors policy current rotation) :
    room policy current rotation (effectiveAsn peer) < policy.maxPeersPerAsn := by
  have counted : 0 < (survivors policy current rotation).countP
      (effectiveAsn · = effectiveAsn peer) :=
    List.countP_pos_iff.mpr ⟨peer, stays, decide_eq_true rfl⟩
  have staying : (survivors policy current rotation).countP
      (effectiveAsn · = effectiveAsn peer) ≤ policy.maxPeersPerAsn :=
    countP_survivors_le capped (effectiveAsn peer)
  rw [room]
  omega

/-- **A rotation keeps the limit precisely when there is room.** -/
theorem capped_next_iff (distinct : DistinctIds current) (capped : Capped policy current) :
    Capped policy (next policy current rotation) ↔ HasRoom policy current rotation := by
  constructor
  · intro after peer stays
    have fits := (countP_next_le_iff distinct capped (effectiveAsn peer)).mp (after (effectiveAsn peer))
    have here := (countP_replacements_le_iff (effectiveAsn peer) _).mp fits
    rwa [or_iff_right (Nat.not_le.mpr (room_lt capped stays))] at here
  · intro hasRoom asn
    refine (countP_next_le_iff distinct capped asn).mpr ((countP_replacements_le_iff asn _).mpr ?_)
    rcases Nat.eq_zero_or_pos ((survivors policy current rotation).countP (effectiveAsn · = asn))
      with none | some
    · right
      left
      rw [room, none, Nat.sub_zero]
    · obtain ⟨peer, stays, own⟩ := List.countP_pos_iff.mp some
      rw [← of_decide_eq_true own]
      rcases hasRoom peer stays with few | late
      · exact .inl few
      · exact .inr (.inr late)

/-! ### What a rotation keeps in any case -/

theorem replacements_subset_fresh {peer : PeerMetadata}
    (taken : peer ∈ replacements policy current rotation) : peer ∈ fresh policy current rotation :=
  mem_of_mem_deal (List.mem_of_mem_take taken)

/-- The replacements have distinct identities, which no peer that stays has. -/
theorem distinctIds_next (distinct : DistinctIds current)
    (candidates : DistinctIds rotation.candidates) :
    DistinctIds (next policy current rotation) := by
  have freshDistinct : DistinctIds (fresh policy current rotation) :=
    candidates.sublist (List.filter_sublist.map PeerMetadata.id)
  have dealtOnce : (replacements policy current rotation).Nodup :=
    (nodup_deal freshDistinct.of_map (keys_sorted _).nodup 0 _).sublist (List.take_sublist _ _)
  rw [(rotatePeers_eq distinct).2, DistinctIds, List.map_append]
  refine List.Nodup.append ?_ ?_ ?_
  · exact distinct.sublist (List.filter_sublist.map PeerMetadata.id)
  · refine dealtOnce.map_on fun first inFirst second inSecond same => ?_
    exact id_injOn freshDistinct (replacements_subset_fresh inFirst)
      (replacements_subset_fresh inSecond) same
  · intro id stays taken
    obtain ⟨peer, inTaken, rfl⟩ := List.mem_map.mp taken
    have new := (List.mem_filter.mp (replacements_subset_fresh inTaken)).2
    exact of_decide_eq_true new stays

/-- There are no more replacements than evicted peers. -/
theorem length_next_le (distinct : DistinctIds current) :
    (next policy current rotation).length ≤ current.length := by
  have split : (stale policy current rotation).length + (survivors policy current rotation).length =
      current.length := (List.length_eq_length_filter_add _).symm
  have taken : (replacements policy current rotation).length ≤ (stale policy current rotation).length :=
    List.length_take_le _ _
  rw [(rotatePeers_eq distinct).2, List.length_append]
  omega

/-- The law of one rotation. -/
structure RotationSound (policy : AsnPolicy) (current : List PeerMetadata) (rotation : Rotation) :
    Prop where
  capped : Capped policy current → Capped policy (next policy current rotation)
  distinct : DistinctIds (next policy current rotation)
  bounded : (next policy current rotation).length ≤ current.length
  kept : survivors policy current rotation <+: next policy current rotation
  evicted : (rotatePeers current rotation.candidates policy rotation.now).1.Perm
    ((stale policy current rotation).map PeerMetadata.id)

/-- One rotation is sound precisely when it keeps the limit. -/
theorem rotationSound_iff (distinct : DistinctIds current)
    (candidates : DistinctIds rotation.candidates) :
    RotationSound policy current rotation ↔
      (Capped policy current → HasRoom policy current rotation) := by
  constructor
  · intro sound capped
    exact (capped_next_iff distinct capped).mp (sound.capped capped)
  · intro hasRoom
    refine ⟨fun capped => (capped_next_iff distinct capped).mpr (hasRoom capped),
      distinctIds_next distinct candidates, length_next_le distinct, ?_, (rotatePeers_eq distinct).1⟩
    rw [(rotatePeers_eq distinct).2]
    exact List.prefix_append _ _

end Rotating

/-! ### Runs of rotations -/

/-- The law over a run: every rotation is sound, the limit is kept if the first peers keep it, identities
stay distinct and the list does not grow. -/
structure RotationsSound (policy : AsnPolicy) (current : List PeerMetadata) (rotations : List Rotation) :
    Prop where
  sound : Along (next policy) (RotationSound policy) current rotations
  capped : Capped policy current → Throughout (next policy) (Capped policy) current rotations
  distinct : Throughout (next policy) DistinctIds current rotations
  bounded : Evolves (next policy) (fun earlier later => later.length ≤ earlier.length) current rotations

/-- **Rotations keep the limit of every system precisely when there is room for the replacements** at each
of them that starts within the limit; everything else holds of every run. -/
theorem rotations_sound_iff (policy : AsnPolicy) (current : List PeerMetadata)
    (rotations : List Rotation) (distinct : DistinctIds current)
    (candidates : ∀ rotation ∈ rotations, DistinctIds rotation.candidates) :
    RotationsSound policy current rotations ↔
      Along (next policy) (fun current rotation =>
        Capped policy current → HasRoom policy current rotation) current rotations := by
  have offered : Along (next policy) (fun _ rotation => DistinctIds rotation.candidates) current
      rotations := by
    intro before rotation after split
    exact candidates rotation (by simp [split])
  have stays : Throughout (next policy) DistinctIds current rotations := by
    refine throughout_of_along ?_ distinct offered
    exact fun _ _ here offers => distinctIds_next here offers
  -- at each rotation of the run, the law of one rotation
  have exactly (before : List Rotation) (rotation : Rotation) (after : List Rotation)
      (split : rotations = before ++ rotation :: after) :
      RotationSound policy (run (next policy) current before) rotation ↔
        (Capped policy (run (next policy) current before) →
          HasRoom policy (run (next policy) current before) rotation) :=
    rotationSound_iff (stays before (rotation :: after) split) (offered before rotation after split)
  constructor
  · intro run before rotation after split
    exact (exactly before rotation after split).mp (run.sound before rotation after split)
  · intro hasRoom
    have sound : Along (next policy) (RotationSound policy) current rotations :=
      fun before rotation after split =>
        (exactly before rotation after split).mpr (hasRoom before rotation after split)
    refine ⟨sound, fun capped => ?_, stays, ?_⟩
    · exact throughout_of_along (fun _ _ within step => step.capped within) capped sound
    · refine (evolves_iff_along ?_ ?_).mpr ?_
      · exact fun peers => le_refl peers.length
      · exact fun first second third one two => le_trans two one
      · exact fun before rotation after split => (sound before rotation after split).bounded

namespace Sample

/-- A peer of a system, last seen at a time. -/
def peer (name : String) (asn : Asn) (seen : UInt64) : PeerMetadata :=
  ⟨⟨⟨"did:exo:" ++ name⟩, [], Hash256.zero, ⟨seen, 0⟩, 50⟩, some asn, ⟨0, 0⟩, ⟨seen, 0⟩⟩

/-- One peer of each system. -/
def limitOne : AsnPolicy := ⟨1, 3600000⟩

/-- Two peers, the second one not seen for two hours. -/
def twoSystems : List PeerMetadata := [peer "a" 7 7200000, peer "b" 8 0]

/-- Candidates of the system of the stale peer and of a third one. -/
def offers : Rotation := ⟨[peer "c" 8 7200000, peer "d" 9 7200000], ⟨7200000, 0⟩⟩

/-- The evicted peer is replaced by one of its own system; two hours later both are stale, and there is
one candidate. -/
theorem rotated_within_limit :
    RotationsSound limitOne twoSystems [offers, ⟨[peer "d" 9 14400000], ⟨14400000, 0⟩⟩] ∧
      (run (next limitOne) twoSystems [offers]).map PeerMetadata.id =
        [⟨"did:exo:a"⟩, ⟨"did:exo:c"⟩] := by
  refine ⟨?_, by decide +kernel⟩
  exact (rotations_sound_iff limitOne twoSystems _ (by decide +kernel) (by decide +kernel)).mpr
    (by decide +kernel)

/-- The system of the peer that stays offers the candidate. -/
def oneSided : Rotation := ⟨[peer "c" 7 7200000], ⟨7200000, 0⟩⟩

/-- **The stale peer is replaced by a second one of the other's system**, above the limit of one. -/
theorem eclipsed :
    DistinctIds twoSystems ∧ DistinctIds oneSided.candidates ∧ Capped limitOne twoSystems ∧
      ¬ RotationsSound limitOne twoSystems [oneSided] := by
  have within : Capped limitOne twoSystems := by decide +kernel
  refine ⟨by decide +kernel, by decide +kernel, within, fun sound => ?_⟩
  have beyond : ¬ Capped limitOne (next limitOne twoSystems oneSided) := by decide +kernel
  exact beyond (sound.capped within).last

end Sample

end Exochain.ExoApi
