/-
**`exo-governance` — independence of a list of actors.**

The actors that share a signing key, an attestation root or control metadata are collected under the value
they share, and every group of more than one entry is taken for a cluster. The groups are lists: an actor
that is listed twice is two entries of its own group.

Hash maps are visited in an order of their own; `VisitOrder` is any such order.

* `mem_clustered_iff` — who ends up in a cluster, whatever the orders.
* **`independentCount_iff`** — the count is that of the actors tied to no other one exactly if every
  repeated actor of the registry is tied to another one; and a larger registry never raises it.
* `Repeated.not_independent` — one actor listed twice.
-/

import Exochain.Foundation.Collections
import Exochain.Core.Types

namespace Exochain.ExoGovernance

open Foundation ExoCore

/-! ### The registry and the result -/

/-- What is known about the identities of actors. -/
structure IdentityRegistry where
  signingKeys : BTreeMap Did String
  attestationRoots : BTreeMap Did Did
  controlMetadata : BTreeMap Did String

/-- Actors with something in common. -/
structure Cluster where
  reason : String
  members : List Did
  deriving DecidableEq

/-- The result of the check. -/
structure IndependenceResult where
  independentCount : ℕ
  clusters : List Cluster
  suspiciousPairs : List (Did × Did)

/-- The order in which a hash map is visited: every entry once. -/
structure VisitOrder (G : Type) [Ord G] [Std.TransOrd G] where
  visit : BTreeMap G (List Did) → List (G × List Did)
  perm : ∀ groups, (visit groups).Perm groups.toList

/-- The orders of the three maps of groups. -/
structure VisitOrders where
  keys : VisitOrder String
  roots : VisitOrder Did
  control : VisitOrder String

/-! ### The check -/

/-- What the passes add to. -/
structure Clustering where
  clusters : List Cluster
  clusteredDids : Finset Did
  suspiciousPairs : List (Did × Did)

namespace Clustering

/-- Nothing found yet. -/
def empty : Clustering := ⟨[], ∅, []⟩

/-- Take a group of more than one entry for a cluster. -/
def addGroup (reason : String) (members : List Did) (clustering : Clustering) : Clustering :=
  if members.length > 1 then
    { clustering with
      clusters := clustering.clusters ++ [⟨reason, members⟩]
      clusteredDids := members.foldl (fun dids m => insert m dids) clustering.clusteredDids }
  else clustering

/-- The pairs of entries, the earlier one first. -/
def pairs : List Did → List (Did × Did)
  | [] => []
  | m :: rest => rest.map (m, ·) ++ pairs rest

/-- Note the pairs of a group that are not both in a cluster yet. -/
def addPairs (members : List Did) (clustering : Clustering) : Clustering :=
  if members.length > 1 then
    { clustering with
      suspiciousPairs := clustering.suspiciousPairs ++ (pairs members).filter fun pair =>
        pair.1 ∉ clustering.clusteredDids ∨ pair.2 ∉ clustering.clusteredDids }
  else clustering

/-- Check 1: same signing keys. -/
def addKeyGroup (clustering : Clustering) (group : String × List Did) : Clustering :=
  clustering.addGroup ("shared signing key: " ++ group.1) group.2

/-- Check 2: same attestation chain root. -/
def addRootGroup (clustering : Clustering) (group : Did × List Did) : Clustering :=
  clustering.addGroup ("shared attestation root: " ++ group.1.value) group.2

/-- Check 3: shared control metadata. -/
def addControlGroup (clustering : Clustering) (group : String × List Did) : Clustering :=
  (clustering.addPairs group.2).addGroup ("shared control metadata: " ++ group.1) group.2

end Clustering

section Check

variable (orders : VisitOrders) (actors : List Did) (registry : IdentityRegistry)

/-- What the three passes find. -/
def clustering : Clustering :=
  let keyGroups := groupWhere (registry.signingKeys[·]?) actors
  let rootGroups := groupWhere (registry.attestationRoots[·]?) actors
  let controlGroups := groupWhere (registry.controlMetadata[·]?) actors
  let afterKeys := (orders.keys.visit keyGroups).foldl Clustering.addKeyGroup .empty
  let afterRoots := (orders.roots.visit rootGroups).foldl Clustering.addRootGroup afterKeys
  (orders.control.visit controlGroups).foldl Clustering.addControlGroup afterRoots

/-- Check the independence of actors. -/
def verifyIndependence : IndependenceResult :=
  let found := clustering orders actors registry
  { independentCount := (actors.toFinset \ found.clusteredDids).card
    clusters := found.clusters
    suspiciousPairs := found.suspiciousPairs }

end Check

/-! ### What should be counted -/

section Ties

variable {V : Type} [DecidableEq V]

/-- Both actors have the same value. -/
def SameValue (map : BTreeMap Did V) (actor other : Did) : Prop :=
  map[actor]?.isSome ∧ map[other]? = map[actor]?

instance (map : BTreeMap Did V) (actor other : Did) : Decidable (SameValue map actor other) :=
  inferInstanceAs (Decidable (_ ∧ _))

end Ties

namespace IdentityRegistry

variable (registry : IdentityRegistry)

/-- The actors share a signing key, an attestation root or control metadata. -/
def Tied (actor other : Did) : Prop :=
  SameValue registry.signingKeys actor other ∨ SameValue registry.attestationRoots actor other ∨
    SameValue registry.controlMetadata actor other

instance (actor other : Did) : Decidable (registry.Tied actor other) :=
  inferInstanceAs (Decidable (_ ∨ _ ∨ _))

/-- The registry has an entry for the actor, which then shares it with itself. -/
def Registered (actor : Did) : Prop := registry.Tied actor actor

instance (actor : Did) : Decidable (registry.Registered actor) :=
  inferInstanceAs (Decidable (registry.Tied actor actor))

/-- The actors that are tied to no different one of them. -/
def unlinked (actors : Finset Did) : Finset Did :=
  actors.filter fun actor => ∀ other ∈ actors, other ≠ actor → ¬ registry.Tied actor other

/-- Every registered actor that is listed more than once is tied to a different listed one. -/
def RepetitionsTied (actors : List Did) : Prop :=
  ∀ actor ∈ actors, 1 < actors.count actor → registry.Registered actor →
    ∃ other ∈ actors, other ≠ actor ∧ registry.Tied actor other

instance (actors : List Did) : Decidable (registry.RepetitionsTied actors) :=
  inferInstanceAs (Decidable (∀ actor ∈ actors, _ → _ → ∃ other ∈ actors, _))

/-- The larger registry has the entries of this one, and others for actors that had none. -/
structure ExtendedBy (extended : IdentityRegistry) : Prop where
  signingKeys : ∀ (actor : Did) (key : String), registry.signingKeys[actor]? = some key →
    extended.signingKeys[actor]? = some key
  attestationRoots : ∀ actor root : Did, registry.attestationRoots[actor]? = some root →
    extended.attestationRoots[actor]? = some root
  controlMetadata : ∀ (actor : Did) (metadata : String),
    registry.controlMetadata[actor]? = some metadata →
      extended.controlMetadata[actor]? = some metadata

end IdentityRegistry

/-! ### Who is clustered -/

section Clusters

variable {x : Did}

theorem mem_foldl_insert {members : List Did} {dids : Finset Did} :
    x ∈ members.foldl (fun dids m => insert m dids) dids ↔ x ∈ dids ∨ x ∈ members := by
  induction members generalizing dids with
  | nil => simp
  | cons m rest ih =>
    rw [List.foldl_cons, ih, Finset.mem_insert, List.mem_cons, or_comm (a := x = m), or_assoc]

theorem Clustering.mem_addGroup {reason : String} {members : List Did} {clustering : Clustering} :
    x ∈ (clustering.addGroup reason members).clusteredDids ↔
      x ∈ clustering.clusteredDids ∨ 1 < members.length ∧ x ∈ members := by
  unfold addGroup
  by_cases crowded : members.length > 1
  · rw [if_pos crowded, mem_foldl_insert, and_iff_right crowded]
  · simp [crowded]

theorem Clustering.clusteredDids_addPairs {members : List Did} {clustering : Clustering} :
    (clustering.addPairs members).clusteredDids = clustering.clusteredDids := by
  unfold addPairs
  split
  · rfl
  · rfl

/-- A pass clusters the members of the groups of more than one entry. -/
theorem Clustering.mem_foldl {G : Type} {add : Clustering → G × List Did → Clustering}
    (adds : ∀ clustering group, x ∈ (add clustering group).clusteredDids ↔
      x ∈ clustering.clusteredDids ∨ 1 < group.2.length ∧ x ∈ group.2)
    {groups : List (G × List Did)} {clustering : Clustering} :
    x ∈ (groups.foldl add clustering).clusteredDids ↔
      x ∈ clustering.clusteredDids ∨ ∃ group ∈ groups, 1 < group.2.length ∧ x ∈ group.2 := by
  induction groups generalizing clustering with
  | nil => simp
  | cons group rest ih => rw [List.foldl_cons, ih, adds, List.exists_mem_cons_iff, or_assoc]

theorem sameValue_iff {V : Type} {map : BTreeMap Did V} {other : Did} {value : V}
    (entry : map[x]? = some value) : SameValue map x other ↔ map[other]? = some value := by
  unfold SameValue
  rw [entry]
  simp

/-- The groups that are visited are those of the values. -/
theorem exists_visited_iff {G : Type} [Ord G] [Std.TransOrd G] [Std.LawfulEqOrd G] [DecidableEq G]
    (order : VisitOrder G) {map : BTreeMap Did G} {actors : List Did} :
    (∃ group ∈ order.visit (groupWhere (map[·]?) actors), 1 < group.2.length ∧ x ∈ group.2) ↔
      ∃ value, 1 < (actors.filter (map[·]? = some value)).length ∧
        x ∈ actors.filter (map[·]? = some value) := by
  constructor
  · rintro ⟨⟨value, members⟩, visited, crowded, inside⟩
    have listed := (order.perm _).mem_iff.mp visited
    have entry := Std.ExtTreeMap.mem_toList_iff_getElem?_eq_some.mp listed
    have group := filedUnder_groupWhere (map[·]?) actors value
    rw [filedUnder, entry, Option.getD_some] at group
    exact ⟨value, group ▸ crowded, group ▸ inside⟩
  · rintro ⟨value, crowded, inside⟩
    rw [← filedUnder_groupWhere (map[·]?), filedUnder] at crowded inside
    cases entry : (groupWhere (map[·]?) actors)[value]? with
    | none =>
      rw [entry] at inside
      exact absurd inside List.not_mem_nil
    | some members =>
      rw [entry, Option.getD_some] at crowded inside
      have listed := Std.ExtTreeMap.mem_toList_iff_getElem?_eq_some.mpr entry
      exact ⟨(value, members), (order.perm _).mem_iff.mpr listed, crowded, inside⟩

/-- **Who is in a group of more than one entry**: an actor with a value that it is listed with twice, or
that a different listed actor has too. -/
theorem exists_group_iff {G : Type} [Ord G] [Std.TransOrd G] [Std.LawfulEqOrd G] [DecidableEq G]
    (order : VisitOrder G) {map : BTreeMap Did G} {actors : List Did} (member : x ∈ actors) :
    (∃ group ∈ order.visit (groupWhere (map[·]?) actors), 1 < group.2.length ∧ x ∈ group.2) ↔
      (1 < actors.count x ∧ SameValue map x x) ∨
        ∃ other ∈ actors, other ≠ x ∧ SameValue map x other := by
  rw [exists_visited_iff]
  cases entry : map[x]? with
  | none =>
    have without : ∀ other, ¬ SameValue map x other := fun other same => by
      simp [SameValue, entry] at same
    simp [without, entry]
  | some value =>
    have own : ∀ other, SameValue map x other ↔ map[other]? = some value :=
      fun other => sameValue_iff entry
    simp only [own, entry, and_true]
    rw [← one_lt_length_filter_iff member entry]
    constructor
    · rintro ⟨value', crowded, inside⟩
      have here := of_decide_eq_true (List.mem_filter.mp inside).2
      cases entry.symm.trans here
      exact crowded
    · intro crowded
      exact ⟨value, crowded, List.mem_filter.mpr ⟨member, by simpa using entry⟩⟩

/-- **Who ends up in a cluster**, whatever the orders: the actors that are tied to a different listed one,
and those of the registry that are listed twice. -/
theorem mem_clustered_iff {orders : VisitOrders} {actors : List Did} {registry : IdentityRegistry}
    (member : x ∈ actors) :
    x ∈ (clustering orders actors registry).clusteredDids ↔
      (1 < actors.count x ∧ registry.Registered x) ∨
        ∃ other ∈ actors, other ≠ x ∧ registry.Tied x other := by
  have keys : ∀ clustering group, x ∈ (Clustering.addKeyGroup clustering group).clusteredDids ↔
      x ∈ clustering.clusteredDids ∨ 1 < group.2.length ∧ x ∈ group.2 :=
    fun _ _ => Clustering.mem_addGroup
  have roots : ∀ clustering group, x ∈ (Clustering.addRootGroup clustering group).clusteredDids ↔
      x ∈ clustering.clusteredDids ∨ 1 < group.2.length ∧ x ∈ group.2 :=
    fun _ _ => Clustering.mem_addGroup
  have control : ∀ clustering group,
      x ∈ (Clustering.addControlGroup clustering group).clusteredDids ↔
        x ∈ clustering.clusteredDids ∨ 1 < group.2.length ∧ x ∈ group.2 := by
    intro clustering group
    rw [Clustering.addControlGroup, Clustering.mem_addGroup, Clustering.clusteredDids_addPairs]
  have nobody : x ∉ Clustering.empty.clusteredDids := Finset.notMem_empty x
  unfold clustering
  dsimp only
  rw [Clustering.mem_foldl control, Clustering.mem_foldl roots, Clustering.mem_foldl keys,
    exists_group_iff orders.keys member, exists_group_iff orders.roots member,
    exists_group_iff orders.control member, or_iff_right nobody]
  unfold IdentityRegistry.Registered IdentityRegistry.Tied
  -- both sides are the same six cases
  simp only [and_or_left, exists_or, or_assoc, or_left_comm]

end Clusters

/-! ### The count -/

section Count

variable (orders : VisitOrders) {actors : List Did} {registry extended : IdentityRegistry}

/-- Whoever is not clustered is tied to no different listed actor. -/
theorem unclustered_subset_unlinked (actors : List Did) (registry : IdentityRegistry) :
    actors.toFinset \ (clustering orders actors registry).clusteredDids ⊆
      registry.unlinked actors.toFinset := by
  intro actor among
  obtain ⟨listed, free⟩ := Finset.mem_sdiff.mp among
  have member := List.mem_toFinset.mp listed
  rw [mem_clustered_iff member, not_or] at free
  refine Finset.mem_filter.mpr ⟨listed, fun other here different tied => ?_⟩
  exact free.2 ⟨other, List.mem_toFinset.mp here, different, tied⟩

/-- The count is right exactly if every repeated actor of the registry is tied to another one. -/
theorem independentCount_eq_iff :
    (verifyIndependence orders actors registry).independentCount =
        (registry.unlinked actors.toFinset).card ↔ registry.RepetitionsTied actors := by
  have subset := unclustered_subset_unlinked orders actors registry
  constructor
  · intro same actor member twice registered
    have equal := Finset.eq_of_subset_of_card_le subset same.ge
    by_contra alone
    push Not at alone
    have unlinked : actor ∈ registry.unlinked actors.toFinset :=
      Finset.mem_filter.mpr ⟨List.mem_toFinset.mpr member, fun other here different =>
        alone other (List.mem_toFinset.mp here) different⟩
    rw [← equal, Finset.mem_sdiff, mem_clustered_iff member] at unlinked
    exact unlinked.2 (.inl ⟨twice, registered⟩)
  · intro repetitions
    refine congrArg Finset.card (subset.antisymm fun actor unlinked => ?_)
    obtain ⟨listed, free⟩ := Finset.mem_filter.mp unlinked
    have member := List.mem_toFinset.mp listed
    have untied : ¬ ∃ other ∈ actors, other ≠ actor ∧ registry.Tied actor other := by
      rintro ⟨other, here, different, tied⟩
      exact free other (List.mem_toFinset.mpr here) different tied
    rw [Finset.mem_sdiff, mem_clustered_iff member]
    refine ⟨listed, ?_⟩
    rintro (⟨twice, registered⟩ | tied)
    · exact untied (repetitions actor member twice registered)
    · exact untied tied

theorem SameValue.mono {V : Type} {map larger : BTreeMap Did V}
    (extends_map : ∀ (actor : Did) (value : V), map[actor]? = some value →
      larger[actor]? = some value) {actor other : Did} (same : SameValue map actor other) :
    SameValue larger actor other := by
  obtain ⟨value, entry⟩ := Option.isSome_iff_exists.mp same.1
  have here := same.2.trans entry
  exact (sameValue_iff (extends_map actor value entry)).mpr (extends_map other value here)

/-- Ties are not undone. -/
theorem IdentityRegistry.Tied.mono (larger : registry.ExtendedBy extended) {actor other : Did}
    (tied : registry.Tied actor other) : extended.Tied actor other := by
  rcases tied with key | root | metadata
  · exact .inl (key.mono larger.signingKeys)
  · exact .inr (.inl (root.mono larger.attestationRoots))
  · exact .inr (.inr (metadata.mono larger.controlMetadata))

/-- **A larger registry never raises the count**, whatever the orders. -/
theorem independentCount_mono (orders' : VisitOrders) (larger : registry.ExtendedBy extended) :
    (verifyIndependence orders' actors extended).independentCount ≤
      (verifyIndependence orders actors registry).independentCount := by
  refine Finset.card_le_card fun actor among => ?_
  obtain ⟨listed, free⟩ := Finset.mem_sdiff.mp among
  have member := List.mem_toFinset.mp listed
  rw [mem_clustered_iff member] at free
  rw [Finset.mem_sdiff, mem_clustered_iff member]
  refine ⟨listed, fun clustered => free ?_⟩
  rcases clustered with ⟨twice, registered⟩ | ⟨other, here, different, tied⟩
  · exact .inl ⟨twice, registered.mono larger⟩
  · exact .inr ⟨other, here, different, tied.mono larger⟩

/-- **What is counted**: the actors that are tied to no different one, exactly where every actor of the
registry that is listed more than once is tied to a different one. Where that is so the count depends on the
set of actors only; and everywhere a larger registry never raises it. -/
theorem independentCount_iff (actors : List Did) (registry : IdentityRegistry) :
    ((verifyIndependence orders actors registry).independentCount =
        (registry.unlinked actors.toFinset).card ↔ registry.RepetitionsTied actors) ∧
    (∀ (orders' : VisitOrders) (actors' : List Did), actors'.toFinset = actors.toFinset →
      registry.RepetitionsTied actors → registry.RepetitionsTied actors' →
        (verifyIndependence orders' actors' registry).independentCount =
          (verifyIndependence orders actors registry).independentCount) ∧
    ∀ (orders' : VisitOrders) (extended : IdentityRegistry), registry.ExtendedBy extended →
      (verifyIndependence orders' actors extended).independentCount ≤
        (verifyIndependence orders actors registry).independentCount := by
  refine ⟨independentCount_eq_iff orders, fun orders' actors' same tied tied' => ?_,
    fun orders' extended larger => independentCount_mono orders orders' larger⟩
  rw [(independentCount_eq_iff orders').mpr tied', (independentCount_eq_iff orders).mpr tied, same]

end Count

namespace Repeated

/-- The maps are visited in the order of their keys. -/
def sorted : VisitOrders where
  keys := ⟨fun groups => groups.toList, fun _ => .refl _⟩
  roots := ⟨fun groups => groups.toList, fun _ => .refl _⟩
  control := ⟨fun groups => groups.toList, fun _ => .refl _⟩

/-- Alice and Bob, each with a key. -/
def registry : IdentityRegistry where
  signingKeys := ((∅ : BTreeMap Did String).insert ⟨"did:exo:alice"⟩ "key_a").insert
    ⟨"did:exo:bob"⟩ "key_b"
  attestationRoots := ∅
  controlMetadata := ∅

/-- The two listed once each, in either order. -/
theorem each_once_independent :
    (verifyIndependence sorted [⟨"did:exo:bob"⟩, ⟨"did:exo:alice"⟩] registry).independentCount =
      (verifyIndependence sorted [⟨"did:exo:alice"⟩, ⟨"did:exo:bob"⟩] registry).independentCount :=
  (independentCount_iff sorted [⟨"did:exo:alice"⟩, ⟨"did:exo:bob"⟩] registry).2.1 sorted _
    (by decide) (by decide +kernel) (by decide +kernel)

/-- **Alice listed twice shares her key with herself**, and is not counted. -/
theorem not_independent :
    ¬ ∀ (orders : VisitOrders) (actors : List Did) (registry : IdentityRegistry),
      (∀ actor ∈ actors, actor.Accepted) →
        (verifyIndependence orders actors registry).independentCount =
          (registry.unlinked actors.toFinset).card := by
  intro counts
  have counted := counts sorted [⟨"did:exo:alice"⟩, ⟨"did:exo:alice"⟩] registry (by decide)
  exact absurd counted (by decide +kernel)

end Repeated

end Exochain.ExoGovernance
