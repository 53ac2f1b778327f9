/-
**`exo-authority` — the registry of active delegations.**

The registry keeps the active links by identifier and lists the identifiers under the delegator and
under the delegate of each. A delegation is refused if its delegate already leads back to its
delegator; the test is a depth-first search over the forward index.

* `hasPath_iff` — the search is reachability along the forward index, in every state.
* `perform_cases` — a call changes nothing, files one link, or takes one out.
* What every state of every run has, whatever the digest: no cycle among the active links, and every
  active link listed under its own delegator and delegate (`sound_step`).
* What a delegation can lose: the link it files replaces the active link with its identifier, whose
  entries stay. They are wrong exactly if that link has another delegator or delegate
  (`consistent_step_iff`). Without a digest collision the two links then have one payload and read
  its boundaries differently.

**`consistent_throughout_iff`** — a run keeps the registry consistent exactly if no delegation reads
the payload of an active link differently.
-/

import Exochain.Foundation.Blake3
import Exochain.Foundation.Collections
import Exochain.Foundation.Merkle
import Exochain.Foundation.Search
import Exochain.Authority.Payload
import Exochain.Authority.Verify

set_option linter.unusedSectionVars false

namespace Exochain.ExoAuthority

open Foundation ExoCore

/-! ### The registry -/

/-- The active delegations: the links, and the indexes by delegator and by delegate. -/
structure DelegationRegistry where
  links : BTreeMap Hash256 AuthorityLink
  byDelegator : BTreeMap String (List Hash256)
  byDelegate : BTreeMap String (List Hash256)

/-- How a call of the registry fails: with an error, or with a fault of a checked build. -/
inductive CallFailure where
  | error (error : AuthorityError)
  | fault (fault : Fault)
  deriving DecidableEq

namespace DelegationRegistry

/-- The empty registry. -/
def new : DelegationRegistry := ⟨∅, ∅, ∅⟩

/-- The delegates of the active links listed under a delegator, in the order of the list. -/
def delegates (registry : DelegationRegistry) (did : Did) : List Did :=
  (filedUnder registry.byDelegator did.value).filterMap fun id =>
    registry.links[id]?.map AuthorityLink.delegateDid

/-- The recursive search behind `hasPath`, with fuel and the visited identifiers. -/
def hasPathInner (registry : DelegationRegistry) (target : Did) :
    ℕ → Did → Finset Did → Option (Bool × Finset Did) :=
  search registry.delegates target

/-- Whether delegations lead from one identifier to another. Every step of the search but the first
arrives at the delegate of an active link, so the fuel suffices. -/
def hasPath (registry : DelegationRegistry) (source target : Did) : Bool :=
  ((registry.hasPathInner target (registry.links.size + 2) source ∅).map Prod.fst).getD false

/-- The depth of a new link: one more than that of the first link listed under the delegator as
delegate. -/
def computeDepth (build : Build) (registry : DelegationRegistry) (did : Did) :
    Except Fault UInt64 :=
  match (registry.byDelegate[did.value]?.bind List.head?).bind (registry.links[·]?) with
  | some link => do
    let depth ← build.add 64 link.depth.toNat 1
    return UInt64.ofNat depth
  | none => .ok 0

section Calls

variable (build : Build) (printable : Char → Bool) (blake3 : Blake3)

/-- The link of a delegation, with a placeholder for its signature. -/
def newLink (registry : DelegationRegistry) (source target : Did) (scope : List Permission)
    (expires now : Timestamp) (delegateeKind : DelegateeKind) : Except Fault AuthorityLink := do
  let depth ← registry.computeDepth build source
  return {
    delegatorDid := source
    delegateDid := target
    scope := scope
    created := now
    expires := some expires
    signature := .ed25519 (FixedBytes.fill 64 1)
    depth := depth
    delegateeKind := delegateeKind }

/-- Store a link and list it under its delegator and its delegate. -/
def file (registry : DelegationRegistry) (link : AuthorityLink) : DelegationRegistry where
  links := registry.links.insert (link.id printable blake3) link
  byDelegator := fileUnder registry.byDelegator link.delegatorDid.value (link.id printable blake3)
  byDelegate := fileUnder registry.byDelegate link.delegateDid.value (link.id printable blake3)

/-- Create a delegation. -/
def delegate (registry : DelegationRegistry) (source target : Did) (scope : List Permission)
    (expires now : Timestamp) (delegateeKind : DelegateeKind) :
    Except CallFailure AuthorityLink × DelegationRegistry :=
  if registry.hasPath target source then
    let first := source.value
    let second := target.value
    (.error (.error (.circularDelegation s!"{first} -> {second} would create a cycle")), registry)
  else
    match registry.newLink build source target scope expires now delegateeKind with
    | .error fault => (.error (.fault fault), registry)
    | .ok link => (.ok link, registry.file printable blake3 link)

/-- Revoke a delegation by the identifier of its link. -/
def revokeDelegation (registry : DelegationRegistry) (linkId : Hash256) :
    Except CallFailure Unit × DelegationRegistry :=
  match registry.links[linkId]? with
  | none =>
    (.error (.error (.notFound linkId.debug)),
      { registry with links := registry.links.erase linkId })
  | some link =>
    (.ok (),
      { links := registry.links.erase linkId
        byDelegator := unfileUnder registry.byDelegator link.delegatorDid.value linkId
        byDelegate := unfileUnder registry.byDelegate link.delegateDid.value linkId })

/-! ### Runs -/

/-- A call that changes the registry. -/
inductive Call where
  | delegate (source target : Did) (scope : List Permission) (expires now : Timestamp)
      (delegateeKind : DelegateeKind)
  | revokeDelegation (linkId : Hash256)
  deriving DecidableEq

/-- Whether both identifiers of a delegation come from `Did.new`. -/
def Call.Accepted : Call → Prop
  | .delegate source target _ _ _ _ => source.Accepted ∧ target.Accepted
  | .revokeDelegation _ => True

instance : ∀ call : Call, Decidable call.Accepted
  | .delegate source target _ _ _ _ =>
    inferInstanceAs (Decidable (source.Accepted ∧ target.Accepted))
  | .revokeDelegation _ => instDecidableTrue

/-- Perform a call: what it fails with, if it does, and the registry after it. -/
def perform (registry : DelegationRegistry) : Call → Except CallFailure Unit × DelegationRegistry
  | .delegate source target scope expires now kind =>
    let (answer, after) :=
      registry.delegate build printable blake3 source target scope expires now kind
    (answer.map fun _ => (), after)
  | .revokeDelegation linkId => registry.revokeDelegation linkId

/-- The registry after a call. -/
def step (registry : DelegationRegistry) (call : Call) : DelegationRegistry :=
  (registry.perform build printable blake3 call).2

/-- The link a call files, if it is a delegation that closes no cycle. -/
def added (registry : DelegationRegistry) : Call → Option AuthorityLink
  | .delegate source target scope expires now kind =>
    if registry.hasPath target source then none
    else (registry.newLink build source target scope expires now kind).toOption
  | .revokeDelegation _ => none

/-- The payloads of the links that the calls of a run file. -/
def payloads : DelegationRegistry → List Call → List (List UInt8)
  | _, [] => []
  | registry, call :: calls =>
    ((registry.added build call).toList.map (·.signablePayload printable)) ++
      payloads (registry.step build printable blake3 call) calls

end Calls

/-! ### The search -/

/-- What the search goes through: the start, and the delegates of the active links. -/
def searched (registry : DelegationRegistry) (start : Did) : Finset Did :=
  insert start (registry.links.toList.map fun entry => entry.2.delegateDid).toFinset

theorem card_searched (registry : DelegationRegistry) (start : Did) :
    (registry.searched start).card < registry.links.size + 2 := by
  have inserted := Finset.card_insert_le start
    (registry.links.toList.map fun entry => entry.2.delegateDid).toFinset
  have listed := List.toFinset_card_le (registry.links.toList.map fun entry => entry.2.delegateDid)
  rw [List.length_map, Std.ExtTreeMap.length_toList] at listed
  unfold searched
  omega

theorem mem_delegates_iff {registry : DelegationRegistry} {did next : Did} :
    next ∈ registry.delegates did ↔
      ∃ id ∈ filedUnder registry.byDelegator did.value, ∃ link,
        registry.links[id]? = some link ∧ link.delegateDid = next := by
  unfold delegates
  simp only [List.mem_filterMap, Option.map_eq_some_iff]

theorem mem_searched_of_mem_delegates {registry : DelegationRegistry} {start did next : Did}
    (member : next ∈ registry.delegates did) : next ∈ registry.searched start := by
  obtain ⟨id, _, link, found, rfl⟩ := mem_delegates_iff.mp member
  apply Finset.mem_insert_of_mem
  rw [List.mem_toFinset]
  exact List.mem_map_of_mem (Std.ExtTreeMap.mem_toList_iff_getElem?_eq_some.mpr found)

/-- **The test for a path is reachability along the forward index**, in every state. -/
theorem hasPath_iff (registry : DelegationRegistry) (source target : Did) :
    registry.hasPath source target = true ↔
      Relation.ReflTransGen (Edge registry.delegates) source target := by
  show reaches registry.delegates target (registry.links.size + 2) source = true ↔ _
  have closed : ∀ x ∈ registry.searched source, ∀ y ∈ registry.delegates x,
      y ∈ registry.searched source :=
    fun _ _ _ => mem_searched_of_mem_delegates
  exact reaches_iff closed (Finset.mem_insert_self _ _) (registry.card_searched source)

/-! ### One call -/

section OneCall

variable {build : Build} {printable : Char → Bool} {blake3 : Blake3} {registry : DelegationRegistry}

/-- The registry without a link. -/
def unfile (registry : DelegationRegistry) (linkId : Hash256) (link : AuthorityLink) :
    DelegationRegistry where
  links := registry.links.erase linkId
  byDelegator := unfileUnder registry.byDelegator link.delegatorDid.value linkId
  byDelegate := unfileUnder registry.byDelegate link.delegateDid.value linkId

theorem newLink_eq_ok {source target : Did} {scope : List Permission} {expires now : Timestamp}
    {kind : DelegateeKind} {link : AuthorityLink}
    (built : registry.newLink build source target scope expires now kind = .ok link) :
    link.delegatorDid = source ∧ link.delegateDid = target ∧ link.expires.isSome := by
  obtain ⟨depth, _, rest⟩ := bind_eq_ok_iff.mp built
  cases rest
  exact ⟨rfl, rfl, rfl⟩

variable (build printable blake3 registry)

/-- The three things a call can do. -/
inductive Outcome (call : Call) : Prop where
  /-- It fails and changes nothing. -/
  | failed (answer : ∃ failure, (registry.perform build printable blake3 call).1 = .error failure)
      (none : registry.added build call = none)
      (same : registry.step build printable blake3 call = registry)
  /-- It files a link whose delegate does not lead back to its delegator. -/
  | filed (link : AuthorityLink) (some : registry.added build call = some link)
      (answer : (registry.perform build printable blake3 call).1 = .ok ())
      (apart : registry.hasPath link.delegateDid link.delegatorDid = false)
      (expiring : link.expires.isSome)
      (after : registry.step build printable blake3 call = registry.file printable blake3 link)
  /-- It takes an active link out. -/
  | revoked (linkId : Hash256) (link : AuthorityLink) (none : registry.added build call = none)
      (answer : (registry.perform build printable blake3 call).1 = .ok ())
      (found : registry.links[linkId]? = some link)
      (after : registry.step build printable blake3 call = registry.unfile linkId link)

/-- **What a call can do.** -/
theorem perform_cases (call : Call) : Outcome build printable blake3 registry call := by
  cases call with
  | delegate source target scope expires now kind =>
    cases path : registry.hasPath target source with
    | true =>
      refine .failed ?_ ?_ ?_
      · simp only [perform, delegate, path, if_true]
        exact ⟨_, rfl⟩
      · simp only [added, path, if_true]
      · simp only [step, perform, delegate, path, if_true]
    | false =>
      cases built : registry.newLink build source target scope expires now kind with
      | error fault =>
        refine .failed ⟨.fault fault, ?_⟩ ?_ ?_
        · simp only [perform, delegate, path, built]
          rfl
        · simp only [added, path, built]
          rfl
        · simp only [step, perform, delegate, path, built]
          rfl
      | ok link =>
        obtain ⟨delegator, delegated, expiring⟩ := newLink_eq_ok built
        refine .filed link ?_ ?_ ?_ expiring ?_
        · simp only [added, path, built]
          rfl
        · simp only [perform, delegate, path, built]
          rfl
        · rw [delegator, delegated, path]
        · simp only [step, perform, delegate, path, built]
          rfl
  | revokeDelegation linkId =>
    cases found : registry.links[linkId]? with
    | none =>
      refine .failed ⟨.error (.notFound linkId.debug), ?_⟩ rfl ?_
      · simp only [perform, revokeDelegation, found]
      · simp only [step, perform, revokeDelegation, found, erase_eq_self found]
    | some link =>
      refine .revoked linkId link rfl ?_ found ?_
      · simp only [perform, revokeDelegation, found]
      · simp only [step, perform, revokeDelegation, found, unfile]

/-- A call changes nothing if it fails. -/
def KeptOnFailure (call : Call) : Prop :=
  ∀ failure, (registry.perform build printable blake3 call).1 = .error failure →
    registry.step build printable blake3 call = registry

/-- **A failing call changes nothing.** -/
theorem keptOnFailure (call : Call) : KeptOnFailure build printable blake3 registry call := by
  intro failure answer
  cases perform_cases build printable blake3 registry call with
  | failed _ _ same => exact same
  | filed link _ passed =>
    rw [passed] at answer
    cases answer
  | revoked linkId link _ passed =>
    rw [passed] at answer
    cases answer

/-! ### What a registry should be -/

/-- The edges of the active links, from delegator to delegate. -/
def Delegates (source target : Did) : Prop :=
  ∃ (id : Hash256) (link : AuthorityLink), registry.links[id]? = some link ∧
    link.delegatorDid = source ∧ link.delegateDid = target

/-- **Sound**: no cycle of active links, and each listed under its own delegator and delegate. -/
structure Sound : Prop where
  acyclic : Acyclic registry.Delegates
  byDelegator : Lists registry.links registry.byDelegator fun link => link.delegatorDid.value
  byDelegate : Lists registry.links registry.byDelegate fun link => link.delegateDid.value

/-- **Consistent**: sound, and every identifier either index lists is that of an active link filed
under the right identifier. -/
structure Consistent : Prop extends Sound registry where
  filedByDelegator : Files registry.links registry.byDelegator fun link => link.delegatorDid.value
  filedByDelegate : Files registry.links registry.byDelegate fun link => link.delegateDid.value

variable {build printable blake3 registry}

/-- Every edge of the active links is one the search follows. -/
theorem edge_of_delegates
    (lists : Lists registry.links registry.byDelegator fun link => link.delegatorDid.value)
    {source target : Did} (delegates : registry.Delegates source target) :
    Edge registry.delegates source target := by
  obtain ⟨id, link, found, rfl, rfl⟩ := delegates
  exact mem_delegates_iff.mpr ⟨id, lists id link found, link, found, rfl⟩

/-- **A link whose delegate does not lead back to its delegator closes no cycle.** -/
theorem acyclic_file (sound : Sound registry) {link : AuthorityLink}
    (apart : registry.hasPath link.delegateDid link.delegatorDid = false) :
    Acyclic (registry.file printable blake3 link).Delegates := by
  have unreached :
      ¬ Relation.ReflTransGen registry.Delegates link.delegateDid link.delegatorDid := by
    intro path
    have followed := Relation.ReflTransGen.mono
      (fun _ _ edge => edge_of_delegates sound.byDelegator edge) _ _ path
    rw [← hasPath_iff, apart] at followed
    cases followed
  apply sound.acyclic.insert_edge _ unreached
  rintro x y ⟨id, other, found, rfl, rfl⟩
  rw [file, BTreeMap.getElem?_insert_eq_ite] at found
  split_ifs at found with same
  · cases found
    exact .inr ⟨rfl, rfl⟩
  · exact .inl ⟨id, other, found, rfl, rfl⟩

/-- **Every call keeps the registry sound**, whatever links have one identifier. -/
theorem sound_step (sound : Sound registry) (call : Call) :
    Sound (registry.step build printable blake3 call) := by
  cases perform_cases build printable blake3 registry call with
  | failed _ _ same => rwa [same]
  | filed link _ _ apart _ after =>
    rw [after]
    refine ⟨acyclic_file sound apart, ?_, ?_⟩
    · exact sound.byDelegator.insert _ link
    · exact sound.byDelegate.insert _ link
  | revoked linkId link _ _ _ after =>
    rw [after]
    refine ⟨fun x cycle => ?_, ?_, ?_⟩
    · apply sound.acyclic x
      refine Relation.TransGen.mono ?_ _ _ cycle
      rintro source target ⟨id, other, found, ends⟩
      exact ⟨id, other, (getElem?_erase_eq_some_iff.mp found).2, ends⟩
    · exact sound.byDelegator.erase linkId _
    · exact sound.byDelegate.erase linkId _

variable (build printable blake3)

/-- The link a call files has the identifiers of the active link it replaces, if there is one. -/
def ReplacesAlike (registry : DelegationRegistry) (call : Call) : Prop :=
  ∀ link, registry.added build call = some link →
    ∀ old, registry.links[link.id printable blake3]? = some old →
      old.delegatorDid = link.delegatorDid ∧ old.delegateDid = link.delegateDid

variable {build printable blake3}

/-- **A call keeps the registry consistent exactly if the link it files replaces none with other
identifiers.** -/
theorem consistent_step_iff (consistent : Consistent registry) (call : Call) :
    Consistent (registry.step build printable blake3 call) ↔
      ReplacesAlike build printable blake3 registry call := by
  have sound := @sound_step build printable blake3 registry consistent.toSound call
  cases perform_cases build printable blake3 registry call with
  | failed _ none same =>
    rw [same]
    refine ⟨fun _ link added => ?_, fun _ => consistent⟩
    rw [none] at added
    cases added
  | filed link some _ _ _ after =>
    have first := Files.insert_iff consistent.byDelegator consistent.filedByDelegator
      (link.id printable blake3) link
    have second := Files.insert_iff consistent.byDelegate consistent.filedByDelegate
      (link.id printable blake3) link
    rw [after] at sound ⊢
    constructor
    · intro kept added addedHere old found
      rw [some] at addedHere
      cases addedHere
      exact ⟨Did.ext (first.mp kept.filedByDelegator old found),
        Did.ext (second.mp kept.filedByDelegate old found)⟩
    · intro alike
      refine ⟨sound, first.mpr fun old found => ?_, second.mpr fun old found => ?_⟩
      · rw [(alike link some old found).1]
      · rw [(alike link some old found).2]
  | revoked linkId link none _ found after =>
    rw [after] at sound ⊢
    refine ⟨fun _ added addedHere => ?_, fun _ => ⟨sound, ?_, ?_⟩⟩
    · rw [none] at addedHere
      cases addedHere
    · exact consistent.filedByDelegator.erase found
    · exact consistent.filedByDelegate.erase found

end OneCall

/-! ### Runs of calls -/

section Runs

variable (build : Build) (printable : Char → Bool) (blake3 : Blake3)

/-- **A payload read differently**: the call files a link with the payload of an active link, and the
boundaries between the identifiers and the scope are elsewhere in the two. -/
def Rereads (registry : DelegationRegistry) (call : Call) : Prop :=
  ∃ link, registry.added build call = some link ∧
    ∃ (id : Hash256) (old : AuthorityLink), registry.links[id]? = some old ∧
      (link.BoundaryMoved old ∨ old.BoundaryMoved link)

/-- Every active link has its own identifier, a payload among those given, and an expiry. -/
def Recorded (occurring : List (List UInt8)) (registry : DelegationRegistry) : Prop :=
  ∀ (id : Hash256) (link : AuthorityLink), registry.links[id]? = some link →
    link.id printable blake3 = id ∧ link.signablePayload printable ∈ occurring ∧
      link.expires.isSome

variable {build printable blake3}

theorem recorded_step {occurring : List (List UInt8)} {registry : DelegationRegistry}
    (recorded : Recorded printable blake3 occurring registry) (call : Call) :
    Recorded printable blake3
      (occurring ++ (registry.added build call).toList.map (·.signablePayload printable))
      (registry.step build printable blake3 call) := by
  intro id link found
  cases perform_cases build printable blake3 registry call with
  | failed _ none same =>
    rw [same] at found
    obtain ⟨named, occurs, expiring⟩ := recorded id link found
    exact ⟨named, List.mem_append_left _ occurs, expiring⟩
  | filed added some _ _ expiring after =>
    rw [after, file, BTreeMap.getElem?_insert_eq_ite] at found
    split_ifs at found with same
    · cases found
      exact ⟨same, by simp [some], expiring⟩
    · obtain ⟨named, occurs, expiring⟩ := recorded id link found
      exact ⟨named, List.mem_append_left _ occurs, expiring⟩
  | revoked linkId revoked none _ _ after =>
    rw [after, unfile] at found
    obtain ⟨named, occurs, expiring⟩ := recorded id link (getElem?_erase_eq_some_iff.mp found).2
    exact ⟨named, List.mem_append_left _ occurs, expiring⟩

/-- **Every active link of a run was filed by the run.** -/
theorem recorded_run (build : Build) {occurring : List (List UInt8)} {registry : DelegationRegistry}
    (recorded : Recorded printable blake3 occurring registry) (calls : List Call) :
    Recorded printable blake3 (occurring ++ payloads build printable blake3 registry calls)
      (run (step build printable blake3) registry calls) := by
  induction calls generalizing occurring registry with
  | nil => simpa [payloads] using recorded
  | cons call calls ih =>
    rw [payloads, ← List.append_assoc]
    exact ih (recorded_step recorded call)

theorem payloads_append (build : Build) (printable : Char → Bool) (blake3 : Blake3)
    (registry : DelegationRegistry) (first second : List Call) :
    payloads build printable blake3 registry (first ++ second) =
      payloads build printable blake3 registry first ++
        payloads build printable blake3 (run (step build printable blake3) registry first)
          second := by
  induction first generalizing registry with
  | nil => rfl
  | cons call first ih => rw [List.cons_append, payloads, payloads, ih, List.append_assoc, run_cons]

/-- **Without a collision, a link replaces one with other identifiers exactly if it reads the payload
of an active link differently.** -/
theorem replacesAlike_iff {occurring : List (List UInt8)} {registry : DelegationRegistry}
    (recorded : Recorded printable blake3 occurring registry) (call : Call)
    (occurs : ∀ link, registry.added build call = some link →
      link.signablePayload printable ∈ occurring)
    (free : ¬ CollisionIn blake3 occurring) :
    ReplacesAlike build printable blake3 registry call ↔ ¬ Rereads build registry call := by
  constructor
  · rintro alike ⟨link, added, id, old, found, moved⟩
    have payloads : old.signablePayload printable = link.signablePayload printable := by
      rcases moved with here | there
      · exact (here.payload_eq printable).symm
      · exact there.payload_eq printable
    have place : link.id printable blake3 = id := by
      rw [← (recorded id old found).1, AuthorityLink.id, AuthorityLink.id, payloads]
    obtain ⟨delegators, delegates⟩ := alike link added old (by rwa [place])
    rcases moved with here | there
    · exact here.dids_ne delegators.symm delegates.symm
    · exact there.dids_ne delegators delegates
  · intro still link added old found
    obtain ⟨named, occurred, expiring⟩ := recorded _ old found
    have payloads : old.signablePayload printable = link.signablePayload printable :=
      eq_of_hash_eq free occurred (occurs link added) named
    have expiring' : link.expires.isSome := by
      cases perform_cases build printable blake3 registry call with
      | failed _ none _ =>
        rw [none] at added
        cases added
      | filed _ some _ _ expires _ =>
        rw [some] at added
        cases added
        exact expires
      | revoked _ _ none _ _ _ =>
        rw [none] at added
        cases added
    rcases AuthorityLink.sameGrant_or_moved printable payloads with
      grant | moved | moved | moved | moved
    · exact ⟨grant.delegatorDid, grant.delegateDid⟩
    · exact absurd ⟨link, added, _, old, found, .inr moved⟩ still
    · exact absurd ⟨link, added, _, old, found, .inl moved⟩ still
    · rw [moved.2.1] at expiring'
      cases expiring'
    · rw [moved.2.1] at expiring
      cases expiring

theorem consistent_new : Consistent new where
  acyclic x cycle := by
    obtain ⟨y, ⟨id, link, found, _⟩, _⟩ := Relation.TransGen.head'_iff.mp cycle
    simp [new] at found
  byDelegator id link found := by simp [new] at found
  byDelegate id link found := by simp [new] at found
  filedByDelegator key id listed := by simp [new, filedUnder] at listed
  filedByDelegate key id listed := by simp [new, filedUnder] at listed

variable (build printable blake3)

/-- **A run from the empty registry keeps it consistent, and every failing call changes nothing,
exactly if no delegation of the run reads the payload of an active link differently.** -/
theorem consistent_throughout_iff (calls : List Call)
    (free : ¬ CollisionIn blake3 (payloads build printable blake3 new calls)) :
    (Throughout (step build printable blake3) Consistent new calls ∧
        Along (step build printable blake3) (KeptOnFailure build printable blake3) new calls) ↔
      Along (step build printable blake3) (fun registry call => ¬ Rereads build registry call) new
        calls := by
  have kept : Along (step build printable blake3) (KeptOnFailure build printable blake3) new calls :=
    along_of_forall (keptOnFailure build printable blake3) new calls
  have one : ∀ registry call, True → Consistent registry →
      (Consistent (step build printable blake3 registry call) ↔
        ReplacesAlike build printable blake3 registry call) :=
    fun _ call _ consistent => consistent_step_iff consistent call
  have exact_run : Throughout (step build printable blake3) Consistent new calls ↔
      Along (step build printable blake3) (ReplacesAlike build printable blake3) new calls :=
    throughout_iff_along (fun _ _ _ => trivial) one trivial consistent_new
  rw [exact_run, and_iff_left kept]
  have empty : Recorded printable blake3 [] new := by
    intro id link found
    simp [new] at found
  -- at each call, the active links and the new one have payloads of the run
  have each : ∀ before call after, calls = before ++ call :: after →
      (ReplacesAlike build printable blake3 (run (step build printable blake3) new before) call ↔
        ¬ Rereads build (run (step build printable blake3) new before) call) := by
    intro before call after split
    have recorded := recorded_run build empty before
    have all := payloads_append build printable blake3 new before (call :: after)
    rw [← split, payloads] at all
    refine replacesAlike_iff ?_ call ?_ free
    · intro id link found
      obtain ⟨named, occurs, expiring⟩ := recorded id link found
      refine ⟨named, ?_, expiring⟩
      rw [all]
      exact List.mem_append_left _ occurs
    · intro link added
      rw [all, added]
      simp
  constructor
  · intro alike before call after split
    exact (each before call after split).mp (alike before call after split)
  · intro still before call after split
    exact (each before call after split).mpr (still before call after split)

end Runs

/-! Two runs with the digest of the program: one in which a cycle and an unknown identifier are
refused, and one in which a delegation replaces an active link of another delegate. -/

namespace Refused

/-- A grant, the grant back, and the revocation of a link that is not there. -/
def calls : List Call :=
  [.delegate ⟨"did:exo:alice"⟩ ⟨"did:exo:bob"⟩ [.read] ⟨9, 0⟩ ⟨1, 0⟩ .human,
    .delegate ⟨"did:exo:bob"⟩ ⟨"did:exo:alice"⟩ [.read] ⟨9, 0⟩ ⟨2, 0⟩ .human,
    .revokeDelegation Hash256.zero]

theorem stays_consistent :
    ¬ CollisionIn Blake3.hash (payloads ⟨true⟩ (fun _ => true) Blake3.hash new calls) ∧
      Throughout (step ⟨true⟩ (fun _ => true) Blake3.hash) Consistent new calls ∧
      Along (step ⟨true⟩ (fun _ => true) Blake3.hash)
        (KeptOnFailure ⟨true⟩ (fun _ => true) Blake3.hash) new calls := by
  have free : ¬ CollisionIn Blake3.hash (payloads ⟨true⟩ (fun _ => true) Blake3.hash new calls) := by
    decide +kernel
  refine ⟨free, (consistent_throughout_iff ⟨true⟩ (fun _ => true) Blake3.hash calls free).mpr ?_⟩
  refine along_cons_iff.mpr ⟨?_, along_cons_iff.mpr ⟨?_, along_cons_iff.mpr ⟨?_, along_nil⟩⟩⟩
  · rintro ⟨link, _, id, old, found, _⟩
    simp [new] at found
  · rintro ⟨link, added, _⟩
    have refused : (run (step ⟨true⟩ (fun _ => true) Blake3.hash) new (calls.take 1)).added ⟨true⟩
        (.delegate ⟨"did:exo:bob"⟩ ⟨"did:exo:alice"⟩ [.read] ⟨9, 0⟩ ⟨2, 0⟩ .human) = none := by
      decide +kernel
    exact absurd (refused.symm.trans added) (by simp)
  · rintro ⟨link, added, _⟩
    cases added

end Refused

namespace Refiled

/-- Nothing is granted to a delegate whose name ends like a permission, then the permission to
another delegate, at the same times. -/
def calls : List Call :=
  [.delegate ⟨"did:exo:alice"⟩ ⟨"did:exo:bobRead"⟩ [] ⟨9, 0⟩ ⟨1, 0⟩ .human,
    .delegate ⟨"did:exo:alice"⟩ ⟨"did:exo:bob"⟩ [.read] ⟨9, 0⟩ ⟨1, 0⟩ .human]

/-- The registry after the two calls. -/
def after : DelegationRegistry := run (step ⟨true⟩ (fun _ => true) Blake3.hash) new calls

/-- **The index by delegate is left wrong**: it lists a link to one delegate under another. -/
theorem listed_under_another_delegate :
    (∀ call ∈ calls, call.Accepted) ∧
      ¬ CollisionIn Blake3.hash (payloads ⟨true⟩ (fun _ => true) Blake3.hash new calls) ∧
      ¬ (Throughout (step ⟨true⟩ (fun _ => true) Blake3.hash) Consistent new calls ∧
        Along (step ⟨true⟩ (fun _ => true) Blake3.hash)
          (KeptOnFailure ⟨true⟩ (fun _ => true) Blake3.hash) new calls) := by
  refine ⟨by decide, by decide +kernel, ?_⟩
  rintro ⟨consistent, _⟩
  have files := consistent.last.filedByDelegate "did:exo:bobRead"
  have listed : ∀ id ∈ filedUnder after.byDelegate "did:exo:bobRead",
      after.links[id]?.map (·.delegateDid.value) = some "did:exo:bob" := by decide +kernel
  obtain ⟨id, member⟩ : ∃ id, id ∈ filedUnder after.byDelegate "did:exo:bobRead" :=
    List.exists_mem_of_ne_nil _ (by decide +kernel)
  obtain ⟨link, found, owned⟩ := files id member
  have delegate := listed id member
  rw [show after.links[id]? = some link from found, Option.map_some, Option.some.injEq] at delegate
  exact absurd (delegate.symm.trans owned) (by decide)

end Refiled

end DelegationRegistry

end Exochain.ExoAuthority
