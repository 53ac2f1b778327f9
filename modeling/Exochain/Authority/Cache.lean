/-
**`exo-authority` — the cache of resolved chains.**

Chains are cached under the identifiers they run between, with the time of the last access. Before a chain
is stored, the entry that was accessed longest ago is taken out while the cache is full; whether the chain
is cached already is not asked. An identifier is invalidated by dropping the entries that have it as one of
the two ends.

* `chain_of_perform`, `capacity_perform` — what a call can do to the entries.
* `of_reached` — the invariant rule for runs of calls that return.
* **`insert_lru_iff`** — storing a chain ends, keeps the capacity and takes out exactly the least recently
  used entries that have to go, if the capacity is not zero and, in a full cache, a pair that is cached
  already is the one accessed longest ago; and in no other case.
* **`invalidate_covers_iff`** — after an identifier is invalidated no cached chain involves it exactly if
  each chain that involved it started or ended there.
-/

import Exochain.Foundation.Eviction
import Exochain.Foundation.Run
import Exochain.Authority.Verify

set_option linter.unusedSectionVars false

namespace Exochain.ExoAuthority

open Foundation ExoCore

/-! ### The cache -/

/-- The ends of a chain, as a key. -/
@[ext]
structure CacheKey where
  source : String
  target : String
  deriving DecidableEq

namespace CacheKey

/-- The two ends as a pair in lexicographic order. -/
def pair (key : CacheKey) : String ×ₗ String := toLex (key.source, key.target)

theorem pair_injective : Function.Injective pair := by
  intro first second same
  obtain ⟨sources, targets⟩ := Prod.mk.inj (toLex.injective same)
  exact CacheKey.ext sources targets

/-- Keys are ordered by their sources, then by their targets. -/
instance : LinearOrder CacheKey := LinearOrder.lift' pair pair_injective

instance transOrd : Std.TransOrd CacheKey := inferInstance

instance : Std.LawfulEqOrd CacheKey where
  eq_of_compare same := compare_eq_iff_eq.mp same

/-- The key of the chains between two identifiers. -/
def of (source target : Did) : CacheKey := ⟨source.value, target.value⟩

end CacheKey

/-- A cached chain with the time of its last access. -/
structure CacheEntry where
  chain : AuthorityChain
  lastAccessed : Timestamp
  deriving DecidableEq

/-- A link of the chain is granted by the identifier or to it. -/
def AuthorityChain.Involves (chain : AuthorityChain) (did : Did) : Prop :=
  ∃ link ∈ chain.links, link.delegatorDid = did ∨ link.delegateDid = did

instance (chain : AuthorityChain) (did : Did) : Decidable (chain.Involves did) := by
  unfold AuthorityChain.Involves
  infer_instance

/-- The cache. -/
structure ChainCache where
  entries : BTreeMap CacheKey CacheEntry
  maxEntries : ℕ

namespace ChainCache

/-- A cache with a custom capacity. -/
def withCapacity (maxEntries : ℕ) : ChainCache := ⟨∅, maxEntries⟩

/-- Get a cached chain, and note the access. -/
def get (cache : ChainCache) (source target : Did) (now : Timestamp) :
    Option AuthorityChain × ChainCache :=
  let key := CacheKey.of source target
  match cache.entries[key]? with
  | some entry =>
    (some entry.chain,
      { cache with entries := cache.entries.insert key { entry with lastAccessed := now } })
  | none => (none, cache)

/-- Store a chain, after the oldest entries are taken out while the cache is full. The fuel bounds the
rounds of the loop; `none` is a loop that has not ended. -/
def insert (fuel : ℕ) (cache : ChainCache) (source target : Did) (chain : AuthorityChain)
    (now : Timestamp) : Option ChainCache :=
  (makeRoom CacheEntry.lastAccessed cache.maxEntries fuel cache.entries).map fun entries =>
    { cache with entries := entries.insert (CacheKey.of source target) ⟨chain, now⟩ }

/-- Drop the chains that start or end at an identifier. -/
def invalidate (cache : ChainCache) (did : Did) : ChainCache :=
  { cache with
    entries := cache.entries.filter fun key _ => key.source ≠ did.value && key.target ≠ did.value }

/-- Drop all chains. -/
def clear (cache : ChainCache) : ChainCache := { cache with entries := ∅ }

/-! ### Runs -/

/-- A call. -/
inductive Operation where
  | insert (source target : Did) (chain : AuthorityChain) (now : Timestamp)
  | get (source target : Did) (now : Timestamp)
  | invalidate (did : Did)
  | clear
  deriving DecidableEq

/-- Whether the call stores a chain. -/
def Operation.isInsert : Operation → Bool
  | .insert .. => true
  | _ => false

/-- Whether a chain that the call stores runs from the one identifier it is given to the other. -/
def Operation.RunsBetween : Operation → Prop
  | .insert source target chain _ => chain.root = some source ∧ chain.leaf = some target
  | _ => True

instance : ∀ operation : Operation, Decidable operation.RunsBetween
  | .insert source target chain _ =>
    inferInstanceAs (Decidable (chain.root = some source ∧ chain.leaf = some target))
  | .get .. => instDecidableTrue
  | .invalidate _ => instDecidableTrue
  | .clear => instDecidableTrue

/-- The cache after a call that returns. A cache within its capacity is full for one round at most, so
the fuel suffices if any does. -/
def perform (cache : ChainCache) : Operation → Option ChainCache
  | .insert source target chain now =>
    cache.insert (cache.entries.size + 2) source target chain now
  | .get source target now => some (cache.get source target now).2
  | .invalidate did => some (cache.invalidate did)
  | .clear => some cache.clear

/-- The cache after a call, unless the call or one before it does not return. -/
def step (cache : Option ChainCache) (operation : Operation) : Option ChainCache :=
  cache.bind fun cache => cache.perform operation

/-! ### One call -/

variable {cache after : ChainCache} {operation : Operation}

/-- A miss changes nothing. -/
theorem get_of_none {source target : Did} {now : Timestamp}
    (missing : cache.entries[CacheKey.of source target]? = none) :
    cache.get source target now = (none, cache) := by
  simp only [get, missing]

/-- A hit returns the chain and notes the access. -/
theorem get_of_some {source target : Did} {now : Timestamp} {entry : CacheEntry}
    (cached : cache.entries[CacheKey.of source target]? = some entry) :
    cache.get source target now = (some entry.chain, { cache with
      entries := cache.entries.insert (CacheKey.of source target)
        { entry with lastAccessed := now } }) := by
  simp only [get, cached]

/-- **Where a cached chain comes from**: it was cached under its key before the call, or the call has
stored it there. -/
theorem chain_of_perform (done : cache.perform operation = some after) {key : CacheKey}
    {entry : CacheEntry} (found : after.entries[key]? = some entry) :
    (∃ before, cache.entries[key]? = some before ∧ before.chain = entry.chain) ∨
      ∃ source target now, operation = .insert source target entry.chain now ∧
        key = CacheKey.of source target := by
  cases operation with
  | insert source target chain now =>
    obtain ⟨left, room, rfl⟩ := Option.map_eq_some_iff.mp done
    rw [BTreeMap.getElem?_insert_eq_ite] at found
    split at found
    · next same =>
      cases found
      exact .inr ⟨source, target, now, rfl, same.symm⟩
    · exact .inl ⟨entry, getElem?_of_makeRoom room found, rfl⟩
  | get source target now =>
    cases done
    cases cached : cache.entries[CacheKey.of source target]? with
    | none =>
      rw [get_of_none cached] at found
      exact .inl ⟨entry, found, rfl⟩
    | some before =>
      rw [get_of_some cached] at found
      simp only [BTreeMap.getElem?_insert_eq_ite] at found
      split at found
      · next same =>
        cases found
        exact .inl ⟨before, same ▸ cached, rfl⟩
      · exact .inl ⟨entry, found, rfl⟩
  | invalidate did =>
    cases done
    rw [invalidate, Std.ExtTreeMap.getElem?_filter', Option.filter_eq_some_iff] at found
    exact .inl ⟨entry, found.1, rfl⟩
  | clear =>
    cases done
    simp [clear] at found

/-- A call that returns keeps the capacity, and the entries within it. -/
theorem capacity_perform (done : cache.perform operation = some after)
    (within : cache.entries.size ≤ cache.maxEntries) :
    after.maxEntries = cache.maxEntries ∧ after.entries.size ≤ after.maxEntries := by
  cases operation with
  | insert source target chain now =>
    obtain ⟨left, room, rfl⟩ := Option.map_eq_some_iff.mp done
    refine ⟨rfl, ?_⟩
    obtain ⟨positive, rfl⟩ := eq_of_makeRoom_eq_some within room
    show (Std.ExtTreeMap.insert _ _ _).size ≤ cache.maxEntries
    split
    · next fits =>
      have grows := Std.ExtTreeMap.size_insert_le (t := cache.entries)
        (k := CacheKey.of source target) (v := ⟨chain, now⟩)
      omega
    · exact (size_insert_evictOldest (by omega)).trans within
  | get source target now =>
    cases done
    cases cached : cache.entries[CacheKey.of source target]? with
    | none =>
      rw [get_of_none cached]
      exact ⟨rfl, within⟩
    | some before =>
      rw [get_of_some cached]
      have present : cache.entries.contains (CacheKey.of source target) = true :=
        Std.ExtTreeMap.contains_iff_mem.mpr (BTreeMap.mem_iff_exists.mpr ⟨before, cached⟩)
      refine ⟨rfl, ?_⟩
      show (Std.ExtTreeMap.insert _ _ _).size ≤ cache.maxEntries
      rw [Std.ExtTreeMap.size_insert, if_pos present]
      exact within
  | invalidate did =>
    cases done
    exact ⟨rfl, Std.ExtTreeMap.size_filter_le_size.trans within⟩
  | clear =>
    cases done
    refine ⟨rfl, ?_⟩
    show (∅ : BTreeMap CacheKey CacheEntry).size ≤ cache.maxEntries
    rw [Std.ExtTreeMap.size_empty]
    exact Nat.zero_le _

/-! ### Runs of calls that return -/

/-- **What every call of a kind keeps holds after a run of such calls.** -/
theorem of_reached {P : ChainCache → Prop} {ok : Operation → Prop}
    (kept : ∀ cache operation after, P cache → ok operation →
      cache.perform operation = some after → P after)
    {start : ChainCache} {operations : List Operation} (here : P start)
    (all : ∀ operation ∈ operations, ok operation)
    (reached : run step (some start) operations = some after) : P after :=
  of_run_unlessStopped kept here all reached

/-- Every cache of a run is within the capacity it was made with. -/
theorem within_capacity {capacity : ℕ} {operations : List Operation}
    (reached : run step (some (withCapacity capacity)) operations = some cache) :
    cache.maxEntries = capacity ∧ cache.entries.size ≤ capacity := by
  have kept : ∀ (cache : ChainCache) (operation : Operation) (after : ChainCache),
      (cache.maxEntries = capacity ∧ cache.entries.size ≤ capacity) → True →
        cache.perform operation = some after →
          after.maxEntries = capacity ∧ after.entries.size ≤ capacity := by
    rintro cache operation after ⟨rfl, within⟩ _ done
    obtain ⟨same, small⟩ := capacity_perform done within
    exact ⟨same, same ▸ small⟩
  refine of_reached kept ⟨rfl, ?_⟩ (fun _ _ => trivial) reached
  show (∅ : BTreeMap CacheKey CacheEntry).size ≤ capacity
  rw [Std.ExtTreeMap.size_empty]
  exact Nat.zero_le _

/-! ### Storing -/

/-- **Storing a chain does what it should**: the call returns, with the capacity as it was, and the entries
are those of a table that takes out the least recently used ones. -/
def InsertsRecent (cache : ChainCache) (source target : Did) (chain : AuthorityChain)
    (now : Timestamp) : Prop :=
  ∃ fuel after, cache.insert fuel source target chain now = some after ∧
    after.maxEntries = cache.maxEntries ∧
      InsertsLru CacheEntry.lastAccessed cache.maxEntries cache.entries
        (CacheKey.of source target) ⟨chain, now⟩ after.entries

/-- **When storing a chain does what it should**, in every cache of every run: if the capacity is not
zero and, in a full cache, a pair that is cached already is the one accessed longest ago. -/
theorem insert_lru_iff (capacity : ℕ) (operations : List Operation)
    (reached : run step (some (withCapacity capacity)) operations = some cache)
    (source target : Did) (chain : AuthorityChain) (now : Timestamp) :
    cache.InsertsRecent source target chain now ↔
      0 < capacity ∧
        (cache.entries.size = capacity → CacheKey.of source target ∈ cache.entries →
          oldest CacheEntry.lastAccessed cache.entries = some (CacheKey.of source target)) := by
  obtain ⟨rfl, within⟩ := within_capacity reached
  rw [← insertsLru_iff within (CacheKey.of source target) ⟨chain, now⟩]
  constructor
  · rintro ⟨fuel, after, done, _, lawful⟩
    obtain ⟨left, room, rfl⟩ := Option.map_eq_some_iff.mp done
    exact ⟨fuel, left, room, lawful⟩
  · rintro ⟨fuel, left, room, lawful⟩
    exact ⟨fuel, _, Option.map_eq_some_iff.mpr ⟨left, room, rfl⟩, rfl, lawful⟩

/-! ### Invalidating -/

/-- Every chain is cached under its own ends. -/
def Keyed (cache : ChainCache) : Prop :=
  ∀ (key : CacheKey) (entry : CacheEntry), cache.entries[key]? = some entry →
    ∃ source target, key = CacheKey.of source target ∧
      entry.chain.root = some source ∧ entry.chain.leaf = some target

theorem keyed_of_reached {capacity : ℕ} {operations : List Operation}
    (runs : ∀ operation ∈ operations, operation.RunsBetween)
    (reached : run step (some (withCapacity capacity)) operations = some cache) : cache.Keyed := by
  refine of_reached (fun cache operation after keyed between done key entry found => ?_)
    (fun key entry found => ?_) runs reached
  · rcases chain_of_perform done found with ⟨before, cached, same⟩ | ⟨source, target, now, rfl, rfl⟩
    · obtain ⟨source, target, ends, root, leaf⟩ := keyed key before cached
      exact ⟨source, target, ends, same ▸ root, same ▸ leaf⟩
    · exact ⟨source, target, rfl, between.1, between.2⟩
  · simp [withCapacity] at found

/-- What stays cached when an identifier is invalidated. -/
theorem getElem?_invalidate_eq_some_iff {did : Did} {key : CacheKey} {entry : CacheEntry} :
    (cache.invalidate did).entries[key]? = some entry ↔
      cache.entries[key]? = some entry ∧ key.source ≠ did.value ∧ key.target ≠ did.value := by
  rw [invalidate, Std.ExtTreeMap.getElem?_filter', Option.filter_eq_some_iff]
  simp

/-- The first cache has every chain of the second one, under the same key. -/
def HoldsChainsOf (before after : ChainCache) : Prop :=
  ∀ (key : CacheKey) (entry : CacheEntry), after.entries[key]? = some entry →
    ∃ old, before.entries[key]? = some old ∧ old.chain = entry.chain

/-- **Without storing, no chain is cached that was not before.** -/
theorem holdsChainsOf_of_reached {operations : List Operation}
    (stores : ∀ operation ∈ operations, operation.isInsert = false)
    (reached : run step (some cache) operations = some after) : cache.HoldsChainsOf after := by
  refine of_reached (P := cache.HoldsChainsOf) ?_ (fun key entry found => ⟨entry, found, rfl⟩) stores reached
  intro middle operation after holds passes done key entry found
  rcases chain_of_perform done found with ⟨before, cached, same⟩ | ⟨source, target, now, rfl, _⟩
  · obtain ⟨first, cachedFirst, sameFirst⟩ := holds key before cached
    exact ⟨first, cachedFirst, sameFirst.trans same⟩
  · cases passes

theorem get_eq_some_iff {source target : Did} {now : Timestamp} {chain : AuthorityChain} :
    (cache.get source target now).1 = some chain ↔
      ∃ entry, cache.entries[CacheKey.of source target]? = some entry ∧ entry.chain = chain := by
  cases cached : cache.entries[CacheKey.of source target]? with
  | none =>
    rw [get_of_none cached]
    simp
  | some entry =>
    rw [get_of_some cached]
    simp

/-- **An invalidation covers whole chains**: after it, and after any calls that store nothing, no chain
that is returned involves the identifier. -/
def InvalidationCovers (cache : ChainCache) (did : Did) : Prop :=
  ∀ later : List Operation, (∀ operation ∈ later, operation.isInsert = false) →
    ∀ after, run step (some (cache.invalidate did)) later = some after →
      ∀ source target now chain, (after.get source target now).1 = some chain →
        ¬ chain.Involves did

/-- **When an invalidation covers whole chains**: in a cache where every chain that involves the identifier
starts or ends at it, and in no other. -/
theorem invalidate_covers_iff (capacity : ℕ) (operations : List Operation)
    (runs : ∀ operation ∈ operations, operation.RunsBetween)
    (reached : run step (some (withCapacity capacity)) operations = some cache) (did : Did) :
    cache.InvalidationCovers did ↔
      ∀ (key : CacheKey) (entry : CacheEntry), cache.entries[key]? = some entry →
        entry.chain.Involves did → entry.chain.root = some did ∨ entry.chain.leaf = some did := by
  have keyed := keyed_of_reached runs reached
  constructor
  · intro covers key entry cached involves
    obtain ⟨source, target, rfl, root, leaf⟩ := keyed key entry cached
    rw [root, leaf, Option.some.injEq, Option.some.injEq]
    by_contra inside
    obtain ⟨notSource, notTarget⟩ := not_or.mp inside
    -- the entry is kept, so the next access returns the chain
    have kept : (cache.invalidate did).entries[CacheKey.of source target]? = some entry :=
      getElem?_invalidate_eq_some_iff.mpr
        ⟨cached, fun same => notSource (Did.ext same), fun same => notTarget (Did.ext same)⟩
    exact covers [] (fun _ member => absurd member List.not_mem_nil) _ rfl source target .zero
      entry.chain (get_eq_some_iff.mpr ⟨entry, kept, rfl⟩) involves
  · intro ends later stores after reached source target now chain answer involves
    obtain ⟨entry, found, rfl⟩ := get_eq_some_iff.mp answer
    obtain ⟨before, kept, same⟩ := holdsChainsOf_of_reached stores reached _ entry found
    obtain ⟨cached, notSource, notTarget⟩ := getElem?_invalidate_eq_some_iff.mp kept
    obtain ⟨first, last, key, root, leaf⟩ := keyed _ before cached
    rw [← same] at involves
    rcases ends _ before cached involves with start | finish
    · rw [root, Option.some.injEq] at start
      rw [key, start] at notSource
      exact notSource rfl
    · rw [leaf, Option.some.injEq] at finish
      rw [key, finish] at notTarget
      exact notTarget rfl

/-! Two caches: one that loses an entry when a cached pair is stored again, and one that returns a chain
through an identifier that was invalidated. -/

/-- A link of one permission. -/
def linkOf (source target : Did) (depth : UInt64) : AuthorityLink :=
  ⟨source, target, [.read], ⟨1, 0⟩, none, .ed25519 (FixedBytes.fill 64 1), depth, .human⟩

namespace StoredAgain

def ab : AuthorityChain := ⟨[linkOf ⟨"did:exo:a"⟩ ⟨"did:exo:b"⟩ 0], 5⟩

def cd : AuthorityChain := ⟨[linkOf ⟨"did:exo:c"⟩ ⟨"did:exo:d"⟩ 0], 5⟩

/-- Two chains fill the cache. -/
def operations : List Operation :=
  [.insert ⟨"did:exo:a"⟩ ⟨"did:exo:b"⟩ ab ⟨1, 0⟩, .insert ⟨"did:exo:c"⟩ ⟨"did:exo:d"⟩ cd ⟨2, 0⟩]

/-- The full cache. -/
def full : ChainCache := ((run step (some (withCapacity 2)) operations).getD (withCapacity 2))

theorem full_reached : run step (some (withCapacity 2)) operations = some full := by
  rfl

/-- **Storing the second chain again takes the first one out.** -/
theorem loses_other :
    ¬ ∀ (capacity : ℕ) (operations : List Operation) (cache : ChainCache),
      run step (some (withCapacity capacity)) operations = some cache →
        ∀ source target chain now, cache.InsertsRecent source target chain now := by
  intro claimed
  obtain ⟨fuel, after, done, _, lawful⟩ :=
    claimed 2 operations full full_reached ⟨"did:exo:c"⟩ ⟨"did:exo:d"⟩ cd ⟨3, 0⟩
  obtain ⟨left, room, rfl⟩ := Option.map_eq_some_iff.mp done
  have size : full.entries.size = 2 := by decide +kernel
  have within : full.entries.size ≤ 2 := size.le
  have recent := (insertsLru_iff within _ _).mp ⟨fuel, left, room, lawful⟩
  have same := recent.2 size (by decide +kernel)
  revert same
  decide +kernel

/-- The first chain can be stored again. -/
theorem stores_oldest :
    full.InsertsRecent ⟨"did:exo:a"⟩ ⟨"did:exo:b"⟩ ab ⟨3, 0⟩ :=
  (insert_lru_iff 2 operations full_reached ⟨"did:exo:a"⟩ ⟨"did:exo:b"⟩ ab ⟨3, 0⟩).mpr
    ⟨by decide, fun _ _ => by decide +kernel⟩

end StoredAgain

namespace Intermediary

/-- alice grants to bob, and bob to carol. -/
def chain : AuthorityChain :=
  ⟨[linkOf ⟨"did:exo:alice"⟩ ⟨"did:exo:bob"⟩ 0, linkOf ⟨"did:exo:bob"⟩ ⟨"did:exo:carol"⟩ 1], 5⟩

/-- The chain is cached. -/
def operations : List Operation := [.insert ⟨"did:exo:alice"⟩ ⟨"did:exo:carol"⟩ chain ⟨1, 0⟩]

def filled : ChainCache := ((run step (some (withCapacity 2)) operations).getD (withCapacity 2))

theorem filled_reached : run step (some (withCapacity 2)) operations = some filled := by
  rfl

/-- **The chain is returned after bob is invalidated.** -/
theorem returns_invalidated :
    ¬ ∀ (capacity : ℕ) (operations : List Operation) (cache : ChainCache),
      (∀ operation ∈ operations, operation.RunsBetween) →
        run step (some (withCapacity capacity)) operations = some cache →
          ∀ did, cache.InvalidationCovers did := by
  intro claimed
  have covers := claimed 2 operations filled (by decide) filled_reached ⟨"did:exo:bob"⟩
  refine covers [] (fun _ member => absurd member List.not_mem_nil) _ rfl ⟨"did:exo:alice"⟩
    ⟨"did:exo:carol"⟩ ⟨2, 0⟩ chain ?_ (by decide)
  decide +kernel

/-- alice can be invalidated. -/
theorem covers_alice : filled.InvalidationCovers ⟨"did:exo:alice"⟩ := by
  refine (invalidate_covers_iff 2 operations (by decide) filled_reached ⟨"did:exo:alice"⟩).mpr ?_
  intro key entry cached _
  have roots : ∀ stored ∈ filled.entries.toList, stored.2.chain.root = some ⟨"did:exo:alice"⟩ := by
    decide +kernel
  exact .inl (roots _ (Std.ExtTreeMap.mem_toList_iff_getElem?_eq_some.mpr cached))

end Intermediary

end ChainCache

end Exochain.ExoAuthority
