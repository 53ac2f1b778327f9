/-
**`exo-authority` — finding a chain in the registry.**

`findChain` goes depth first along the forward index, at most five links deep and without marking what it
has visited, numbers the links of the path it has found and has the builder check them. The check cannot
fail on a path of links that are listed under their own delegators (`buildChain_renumber`).

* `mem_listedLinks_iff` — while the forward index lists links under their delegators, the search sees
  exactly the active links of a delegator.
* `findsExactly_of_indexed` — in such a state a chain is found exactly if the active links contain a path
  within the limit, and what is found is such a path.
* **`findChain_throughout`** — the index stays so in every run in which no delegation makes a link with the
  identifier of an active link of another delegator.
* `StaleIndex.finds_foreign_chain` — the identifier that a replaced link leaves behind in the index.
-/

import Exochain.Foundation.Walks
import Exochain.Authority.Registry

set_option linter.unusedSectionVars false

namespace Exochain.ExoAuthority

open Foundation ExoCore

namespace DelegationRegistry

/-! ### The search -/

/-- The active links listed under a delegator, in the order of the list. -/
def listedLinks (registry : DelegationRegistry) (did : Did) : List AuthorityLink :=
  (filedUnder registry.byDelegator did.value).filterMap (registry.links[·]?)

/-- The recursive search behind `findChain`. Each link of the path brings the depth one closer to the
greatest one, from where there is no further link. -/
def findPathDfs (registry : DelegationRegistry) (current target : Did) (path : List AuthorityLink)
    (depth maxDepth : ℕ) : Bool × List AuthorityLink :=
  searchWithin registry.listedLinks AuthorityLink.delegateDid target (maxDepth - depth) current path

/-- The links, each with its index as depth. -/
def renumber (path : List AuthorityLink) : List AuthorityLink :=
  path.mapIdx fun i link => { link with depth := UInt64.ofNat i }

/-- Find a delegation chain. -/
def findChain (registry : DelegationRegistry) (source target : Did) : Option AuthorityChain :=
  match registry.findPathDfs source target [] 0 defaultMaxDepth.toNat with
  | (true, path) => (buildChain (renumber path)).toOption
  | (false, _) => none

/-! ### What should be found -/

variable (registry : DelegationRegistry)

/-- The active links that a delegator granted. -/
def GrantedBy (did : Did) (link : AuthorityLink) : Prop :=
  (∃ id : Hash256, registry.links[id]? = some link) ∧ link.delegatorDid = did

/-- A directed path of active links, of at least one link and within the depth limit. -/
structure ChainPath (source : Did) (path : List AuthorityLink) (target : Did) : Prop where
  walks : Walk registry.GrantedBy AuthorityLink.delegateDid source path target
  nonempty : 1 ≤ path.length
  short : path.length ≤ defaultMaxDepth.toNat

/-- **Sound and complete up to the depth limit.** -/
structure FindsExactly (source target : Did) : Prop where
  found_iff : (registry.findChain source target).isSome ↔
    ∃ path, registry.ChainPath source path target
  found_path : ∀ chain, registry.findChain source target = some chain →
    ∃ path, registry.ChainPath source path target ∧ chain.links = renumber path ∧
      chain.root = some source ∧ chain.leaf = some target

/-- The forward index lists the active links of every delegator and no other links. -/
structure Indexed : Prop where
  lists : Lists registry.links registry.byDelegator fun link => link.delegatorDid.value
  files : Files registry.links registry.byDelegator fun link => link.delegatorDid.value

variable {registry}

/-! ### The path of a chain -/

@[simp] theorem length_renumber (path : List AuthorityLink) : (renumber path).length = path.length :=
  List.length_mapIdx

theorem getElem?_renumber (path : List AuthorityLink) (i : ℕ) :
    (renumber path)[i]? = path[i]?.map fun link => { link with depth := UInt64.ofNat i } :=
  List.getElem?_mapIdx

theorem numberedFrom_renumber {path : List AuthorityLink} (short : path.length < 2 ^ 64) :
    NumberedFrom 0 (renumber path) := by
  intro i link found
  rw [getElem?_renumber, Option.map_eq_some_iff] at found
  obtain ⟨before, inside, rfl⟩ := found
  obtain ⟨bound, _⟩ := List.getElem?_eq_some_iff.mp inside
  show (UInt64.ofNat i).toNat = 0 + i
  rw [UInt64.toNat_ofNat_of_lt' (bound.trans short), Nat.zero_add]

/-- The numbers of the links do not matter for how they are connected. -/
theorem isChain_renumber_iff {path : List AuthorityLink} :
    (renumber path).IsChain Connects ↔ path.IsChain Connects := by
  rw [List.isChain_iff_getElem, List.isChain_iff_getElem]
  simp only [renumber, List.getElem_mapIdx, List.length_mapIdx, Connects]

theorem root_renumber (path : List AuthorityLink) (maxDepth : UInt64) :
    AuthorityChain.root ⟨renumber path, maxDepth⟩ = path.head?.map AuthorityLink.delegatorDid := by
  unfold AuthorityChain.root
  rw [List.head?_eq_getElem?, List.head?_eq_getElem?, getElem?_renumber, Option.map_map]
  rfl

theorem leaf_renumber (path : List AuthorityLink) (maxDepth : UInt64) :
    AuthorityChain.leaf ⟨renumber path, maxDepth⟩ =
      path.getLast?.map AuthorityLink.delegateDid := by
  unfold AuthorityChain.leaf
  rw [List.getLast?_eq_getElem?, List.getLast?_eq_getElem?, getElem?_renumber, length_renumber,
    Option.map_map]
  rfl

/-- Along a path every link is granted by the delegate of the one before. -/
theorem isChain_of_walk {source target : Did} {path : List AuthorityLink}
    (walks : Walk registry.GrantedBy AuthorityLink.delegateDid source path target) :
    path.IsChain Connects := by
  induction path generalizing source with
  | nil => exact .nil
  | cons link rest ih =>
    cases rest with
    | nil => exact .singleton link
    | cons next rest => exact .cons_cons walks.2.1.2.symm (ih walks.2)

/-- **The builder accepts every path within the limit.** -/
theorem buildChain_renumber {source target : Did} {path : List AuthorityLink}
    (within : registry.ChainPath source path target) :
    buildChain (renumber path) = .ok ⟨renumber path, defaultMaxDepth⟩ := by
  have five : defaultMaxDepth.toNat < 2 ^ 64 := defaultMaxDepth.toNat_lt
  refine buildChainWithDepth_eq_ok_iff.mpr ⟨rfl, ?_, ?_, ?_, ?_⟩
  · intro empty
    have length := congrArg List.length empty
    rw [length_renumber] at length
    exact absurd within.nonempty (by rw [length, List.length_nil]; decide)
  · rw [length_renumber]
    exact within.short
  · exact numberedFrom_renumber (within.short.trans_lt five)
  · exact isChain_renumber_iff.mpr (isChain_of_walk within.walks)

/-- The ends of a path are those of the chain built from it. -/
theorem ends_of_path {source target : Did} {path : List AuthorityLink} (maxDepth : UInt64)
    (within : registry.ChainPath source path target) :
    AuthorityChain.root ⟨renumber path, maxDepth⟩ = some source ∧
      AuthorityChain.leaf ⟨renumber path, maxDepth⟩ = some target := by
  have nonempty : path ≠ [] := List.length_pos_iff.mp within.nonempty
  rw [root_renumber, leaf_renumber]
  refine ⟨?_, within.walks.finish_getLast? nonempty⟩
  cases path with
  | nil => exact absurd rfl nonempty
  | cons link rest => exact congrArg some within.walks.1.2

/-! ### What the search finds -/

/-- **The search sees the active links of a delegator**, while the index is right. -/
theorem mem_listedLinks_iff (indexed : registry.Indexed) (did : Did) (link : AuthorityLink) :
    link ∈ registry.listedLinks did ↔ registry.GrantedBy did link := by
  unfold listedLinks GrantedBy
  rw [List.mem_filterMap]
  constructor
  · rintro ⟨id, listed, found⟩
    obtain ⟨record, stored, owner⟩ := indexed.files did.value id listed
    rw [found, Option.some.injEq] at stored
    subst stored
    exact ⟨⟨id, found⟩, Did.ext owner⟩
  · rintro ⟨⟨id, found⟩, rfl⟩
    exact ⟨id, indexed.lists id link found, found⟩

/-- The walks that the search looks for are the paths of active links. -/
theorem walkWithin_iff (indexed : registry.Indexed) {source target : Did}
    {path : List AuthorityLink} :
    WalkWithin registry.listedLinks AuthorityLink.delegateDid target defaultMaxDepth.toNat source
        path ↔ registry.ChainPath source path target := by
  have same := @walk_congr _ _ (fun did link => link ∈ registry.listedLinks did) registry.GrantedBy
    AuthorityLink.delegateDid source target (mem_listedLinks_iff indexed) path
  constructor
  · rintro ⟨walks, nonempty, short⟩
    exact ⟨same.mp walks, List.length_pos_iff.mpr nonempty, short⟩
  · rintro ⟨walks, nonempty, short⟩
    exact ⟨same.mpr walks, List.length_pos_iff.mp nonempty, short⟩

/-- **While the forward index is right, `findChain` is sound and complete** up to the depth limit. -/
theorem findsExactly_of_indexed (indexed : registry.Indexed) (source target : Did) :
    registry.FindsExactly source target := by
  have attempt := searchWithin_spec registry.listedLinks AuthorityLink.delegateDid target
    defaultMaxDepth.toNat source []
  cases attempt with
  | found path within extended =>
    have walks := (walkWithin_iff indexed).mp within
    have found : registry.findChain source target = some ⟨renumber path, defaultMaxDepth⟩ := by
      unfold findChain findPathDfs
      rw [Nat.sub_zero, extended]
      show (buildChain (renumber path)).toOption = _
      rw [buildChain_renumber walks]
      rfl
    obtain ⟨root, leaf⟩ := ends_of_path defaultMaxDepth walks
    refine ⟨iff_of_true (by rw [found]; rfl) ⟨path, walks⟩, fun chain same => ?_⟩
    rw [found] at same
    cases same
    exact ⟨path, walks, rfl, root, leaf⟩
  | missed none restored =>
    have nothing : registry.findChain source target = Option.none := by
      unfold findChain findPathDfs
      rw [Nat.sub_zero, restored]
    refine ⟨iff_of_false (by rw [nothing]; simp) ?_, fun chain same => ?_⟩
    · rintro ⟨path, walks⟩
      exact none path ((walkWithin_iff indexed).mpr walks)
    · rw [nothing] at same
      cases same

/-! ### Runs -/

section Runs

variable (build : Build) (printable : Char → Bool) (blake3 : Blake3)

/-- The link a call files has the delegator of the active link it replaces, if there is one. -/
def KeepsDelegator (registry : DelegationRegistry) (call : Call) : Prop :=
  ∀ link ∈ registry.added build call, ∀ old ∈ registry.links[link.id printable blake3]?,
    old.delegatorDid = link.delegatorDid

instance (registry : DelegationRegistry) (call : Call) :
    Decidable (KeepsDelegator build printable blake3 registry call) := by
  unfold KeepsDelegator
  infer_instance

variable {build printable blake3}

/-- **A call keeps the forward index right** if the link it files replaces none of another delegator. -/
theorem indexed_step (registry : DelegationRegistry) (call : Call) (indexed : registry.Indexed)
    (keeps : KeepsDelegator build printable blake3 registry call) :
    (registry.step build printable blake3 call).Indexed := by
  cases perform_cases build printable blake3 registry call with
  | failed _ _ same => rwa [same]
  | filed link some _ _ _ after =>
    rw [after]
    refine ⟨indexed.lists.insert _ link, ?_⟩
    refine (Files.insert_iff indexed.lists indexed.files (link.id printable blake3) link).mpr ?_
    intro old found
    rw [keeps link some old found]
  | revoked linkId link _ _ found after =>
    rw [after]
    exact ⟨indexed.lists.erase linkId _, indexed.files.erase found⟩

theorem indexed_new : new.Indexed where
  lists id link found := by simp [new] at found
  files key id listed := by simp [new, filedUnder] at listed

variable (build printable blake3)

/-- **In every run in which no delegation makes a link with the identifier of an active link of another
delegator, `findChain` is sound and complete in every state**, for all identifiers. -/
theorem findChain_throughout (calls : List Call)
    (keeps : Along (step build printable blake3) (KeepsDelegator build printable blake3) new calls) :
    Throughout (step build printable blake3)
      (fun registry => ∀ source target, registry.FindsExactly source target) new calls := by
  have indexed := throughout_of_along indexed_step indexed_new keeps
  intro before after split
  exact findsExactly_of_indexed (indexed before after split)

/-- Distinct active links have distinct identifiers. -/
def DistinctIds (registry : DelegationRegistry) : Prop :=
  ∀ (place place' : Hash256) (link link' : AuthorityLink), registry.links[place]? = some link →
    registry.links[place']? = some link' → link ≠ link' →
      link.id printable blake3 ≠ link'.id printable blake3

end Runs

/-! Two runs with the digest of the program: one that keeps the index right, and one that leaves an
identifier behind under a delegator who has no active link. -/

namespace Handover

/-- alice grants to bob, and bob to carol. -/
def calls : List Call :=
  [.delegate ⟨"did:exo:alice"⟩ ⟨"did:exo:bob"⟩ [.read] ⟨9, 0⟩ ⟨1, 0⟩ .human,
    .delegate ⟨"did:exo:bob"⟩ ⟨"did:exo:carol"⟩ [.read] ⟨9, 0⟩ ⟨2, 0⟩ .human]

theorem finds_exactly :
    Throughout (step ⟨true⟩ (fun _ => true) Blake3.hash)
      (fun registry => ∀ source target, registry.FindsExactly source target) new calls :=
  findChain_throughout ⟨true⟩ (fun _ => true) Blake3.hash calls (by decide +kernel)

end Handover

namespace StaleIndex

/-- A grant to a delegate whose identifier contains another one, and the grant that has the same payload
with the boundary at the next `did:exo:`. -/
def first : Call :=
  .delegate ⟨"did:exo:a"⟩ ⟨"did:exo:bdid:exo:c"⟩ [.read] ⟨9, 0⟩ ⟨1, 0⟩ .human

def second : Call :=
  .delegate ⟨"did:exo:adid:exo:b"⟩ ⟨"did:exo:c"⟩ [.read] ⟨9, 0⟩ ⟨1, 0⟩ .human

/-- The identifier that both links have. -/
def shared : Hash256 :=
  ((new.added ⟨true⟩ first).map (AuthorityLink.id (fun _ => true) Blake3.hash)).getD .zero

/-- Both are granted, the identifier is revoked, and the second is granted again. -/
def calls : List Call := [first, second, .revokeDelegation shared, second]

/-- The registry after the calls. -/
def after : DelegationRegistry := run (step ⟨true⟩ (fun _ => true) Blake3.hash) new calls

/-- **The only active link is one of another delegator, and it is found**: the first grant is replaced and
revoked, but its identifier is still listed under its delegator. -/
theorem finds_foreign_chain :
    ¬ ∀ calls : List Call, (∀ call ∈ calls, call.Accepted) →
      DistinctIds (fun _ => true) Blake3.hash
          (run (step ⟨true⟩ (fun _ => true) Blake3.hash) new calls) →
        ∀ source target, FindsExactly
          (run (step ⟨true⟩ (fun _ => true) Blake3.hash) new calls) source target := by
  intro claimed
  have only : after.links.toList.map (fun entry => entry.2.delegatorDid.value) =
      ["did:exo:adid:exo:b"] := by decide +kernel
  have distinct : DistinctIds (fun _ => true) Blake3.hash after := by
    intro place place' link link' found found' different
    obtain ⟨entry, listed⟩ := List.length_eq_one_iff.mp ((List.length_map _).symm.trans
      (congrArg List.length only))
    have here := Std.ExtTreeMap.mem_toList_iff_getElem?_eq_some.mpr found
    have there := Std.ExtTreeMap.mem_toList_iff_getElem?_eq_some.mpr found'
    rw [listed, List.mem_singleton] at here there
    exact absurd (congrArg Prod.snd (here.trans there.symm)) different
  have exactly := claimed calls (by decide) distinct ⟨"did:exo:a"⟩ ⟨"did:exo:c"⟩
  have foreign : (after.findChain ⟨"did:exo:a"⟩ ⟨"did:exo:c"⟩).bind AuthorityChain.root =
      some ⟨"did:exo:adid:exo:b"⟩ := by decide +kernel
  obtain ⟨chain, found, root⟩ := Option.bind_eq_some_iff.mp foreign
  obtain ⟨_, _, _, rootedAt, _⟩ := exactly.found_path chain found
  rw [root] at rootedAt
  exact absurd rootedAt (by decide)

end StaleIndex

end DelegationRegistry

end Exochain.ExoAuthority
