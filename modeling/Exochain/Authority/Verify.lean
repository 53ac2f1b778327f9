/-
**`exo-authority` — building and verifying a chain.**

A chain is a list of links from root to leaf with the depth it may not exceed; its fields are public
and it can be deserialized, so `verifyChain` meets chains that `buildChainWithDepth` never saw. The
checks are split between the two:

* `buildChainWithDepth` — the links are numbered from zero and each is granted by the delegate of
  the one before (`buildChainWithDepth_eq_ok_iff`);
* `verifyChain` — every link is signed by its delegator and unexpired, and no link widens the scope
  of the one before (`verifyChain_eq_ok_iff`).

Both bound the length. Scopes that narrow from link to link narrow along the whole chain, so the
permissions every link grants are those of the leaf (`hasPermission_iff_leaf`).

**`verified_is_path_iff`** — an accepted chain is a delegation path exactly where it also passes
what only the builder checks.
-/

import Exochain.Authority.Chain

set_option linter.unusedSectionVars false

namespace Exochain.ExoAuthority

open Foundation ExoCore

/-! ### Errors, permission sets and chains -/

/-- The errors of the authority operations. -/
inductive AuthorityError where
  | chainBroken (index : ℕ) (reason : String)
  | depthExceeded (depth maxDepth : ℕ)
  | scopeWidening (index : ℕ)
  | expiredLink (index : ℕ)
  | invalidSignature (index : ℕ)
  | circularDelegation (text : String)
  | notFound (text : String)
  | emptyChain
  | permissionDenied (text : String)
  deriving DecidableEq, Repr

/-- A set of permissions. -/
abbrev PermissionSet := Finset Permission

namespace PermissionSet

/-- The set of the permissions of a list. -/
def fromPermissions (permissions : List Permission) : PermissionSet := permissions.toFinset

/-- Whether the first set lies in the second. -/
def isSubset (a b : PermissionSet) : Bool := decide (a ⊆ b)

theorem isSubset_fromPermissions_iff {permissions others : List Permission} :
    isSubset (fromPermissions permissions) (fromPermissions others) = true ↔
      permissions ⊆ others := by
  rw [isSubset, decide_eq_true_iff, fromPermissions, fromPermissions]
  constructor
  · intro inside p member
    exact List.mem_toFinset.mp (inside (List.mem_toFinset.mpr member))
  · intro inside p member
    exact List.mem_toFinset.mpr (inside (List.mem_toFinset.mp member))

end PermissionSet

/-- An ordered sequence of links from root to leaf. The greatest depth is a `usize` of a 64-bit
target. -/
structure AuthorityChain where
  links : List AuthorityLink
  maxDepth : UInt64
  deriving DecidableEq

/-- The root delegator. -/
def AuthorityChain.root (chain : AuthorityChain) : Option Did :=
  chain.links.head?.map AuthorityLink.delegatorDid

/-- The leaf delegate. -/
def AuthorityChain.leaf (chain : AuthorityChain) : Option Did :=
  chain.links.getLast?.map AuthorityLink.delegateDid

/-- The depth limit of `buildChain`. -/
def defaultMaxDepth : UInt64 := 5

/-! ### Building -/

/-- The checks the builder makes of one link: its number, and that the delegate of the link before
grants it. -/
def buildLink (i : ℕ) (prev : Option AuthorityLink) (link : AuthorityLink) :
    Except AuthorityError Unit :=
  if link.depth.toNat ≠ i then
    .error (.chainBroken i s!"expected depth {i}, got {link.depth}")
  else
    match prev with
    | none => .ok ()
    | some prev =>
      if prev.delegateDid ≠ link.delegatorDid then
        let delegate := prev.delegateDid.value
        let delegator := link.delegatorDid.value
        .error (.chainBroken i s!"gap: {delegate} -> {delegator} but expected {delegate}")
      else .ok ()

/-- The loop of the builder, from the link at index `i` on. -/
def buildLinks : ℕ → Option AuthorityLink → List AuthorityLink → Except AuthorityError Unit
  | _, _, [] => .ok ()
  | i, prev, link :: rest => do
    buildLink i prev link
    buildLinks (i + 1) (some link) rest

/-- Build a chain with a custom depth limit. -/
def buildChainWithDepth (links : List AuthorityLink) (maxDepth : UInt64) :
    Except AuthorityError AuthorityChain :=
  if links.isEmpty then .error .emptyChain
  else if maxDepth.toNat < links.length then .error (.depthExceeded links.length maxDepth.toNat)
  else do
    buildLinks 0 none links
    return ⟨links, maxDepth⟩

/-- Build a chain with the default depth limit. -/
def buildChain (links : List AuthorityLink) : Except AuthorityError AuthorityChain :=
  buildChainWithDepth links defaultMaxDepth

/-! ### Verifying -/

section Verify

variable (printable : Char → Bool) (ed25519 : Ed25519) (now : Timestamp)
  (resolveKey : Did → Option PublicKey)

/-- The checks `verifyChain` makes of one link; the scope goes on to the next one. -/
def verifyLink (i : ℕ) (prevScope : Option PermissionSet) (link : AuthorityLink) :
    Except AuthorityError PermissionSet :=
  if link.signature.isEmpty then .error (.invalidSignature i)
  else
    match resolveKey link.delegatorDid with
    | none => .error (.invalidSignature i)
    | some pubKey =>
      if !verify ed25519 (link.signablePayload printable) link.signature pubKey then
        .error (.invalidSignature i)
      else if link.expires.any fun exp => exp.isExpired now then .error (.expiredLink i)
      else
        let currentScope := PermissionSet.fromPermissions link.scope
        if prevScope.any fun prev => !PermissionSet.isSubset currentScope prev then
          .error (.scopeWidening i)
        else .ok currentScope

/-- The loop of `verifyChain`, from the link at index `i` on. -/
def verifyLinks : ℕ → Option PermissionSet → List AuthorityLink → Except AuthorityError Unit
  | _, _, [] => .ok ()
  | i, prevScope, link :: rest => do
    let currentScope ← verifyLink printable ed25519 now resolveKey i prevScope link
    verifyLinks (i + 1) (some currentScope) rest

/-- Verify a chain with cryptographic signature verification. -/
def verifyChain (chain : AuthorityChain) : Except AuthorityError Unit :=
  if chain.links.isEmpty then .error .emptyChain
  else if chain.maxDepth.toNat < chain.links.length then
    .error (.depthExceeded chain.links.length chain.maxDepth.toNat)
  else verifyLinks printable ed25519 now resolveKey 0 none chain.links

end Verify

/-- Whether a chain grants a permission: every link's scope has it. -/
def hasPermission (chain : AuthorityChain) (permission : Permission) : Bool :=
  chain.links.all fun link => link.scope.contains permission

/-! ### What the builder accepts -/

/-- The link is granted by the delegate of the one before. -/
def Connects (link next : AuthorityLink) : Prop := link.delegateDid = next.delegatorDid

/-- The links are numbered from `i` on. -/
def NumberedFrom (i : ℕ) (links : List AuthorityLink) : Prop :=
  ∀ k link, links[k]? = some link → link.depth.toNat = i + k

theorem numberedFrom_nil (i : ℕ) : NumberedFrom i [] := by
  intro k link found
  cases found

theorem numberedFrom_cons_iff {i : ℕ} {link : AuthorityLink} {rest : List AuthorityLink} :
    NumberedFrom i (link :: rest) ↔ link.depth.toNat = i ∧ NumberedFrom (i + 1) rest := by
  constructor
  · intro numbered
    refine ⟨numbered 0 link rfl, fun k later found => ?_⟩
    have number := numbered (k + 1) later found
    omega
  · rintro ⟨here, numbered⟩ k later found
    cases k with
    | zero =>
      cases found
      exact here
    | succ k =>
      have number := numbered k later found
      omega

theorem buildLink_eq_ok_iff {i : ℕ} {prev : Option AuthorityLink} {link : AuthorityLink} :
    buildLink i prev link = .ok () ↔
      link.depth.toNat = i ∧ ∀ before ∈ prev, Connects before link := by
  unfold buildLink
  by_cases number : link.depth.toNat = i
  · rw [if_neg (not_not.mpr number)]
    cases prev with
    | none => simp [number]
    | some before =>
      by_cases connected : before.delegateDid = link.delegatorDid
      · simp [number, connected, Connects]
      · simp [connected, Connects]
  · rw [if_pos number]
    simp [number]

/-- **The builder's loop** passes numbered links, each granted by the delegate of the one before. -/
theorem buildLinks_eq_ok_iff {i : ℕ} {prev : Option AuthorityLink} {links : List AuthorityLink} :
    buildLinks i prev links = .ok () ↔
      NumberedFrom i links ∧ (prev.toList ++ links).IsChain Connects := by
  induction links generalizing i prev with
  | nil =>
    cases prev with
    | none => simp [buildLinks, numberedFrom_nil]
    | some before => simp [buildLinks, numberedFrom_nil]
  | cons link rest ih =>
    rw [buildLinks, check_bind_eq_ok_iff, buildLink_eq_ok_iff, ih, numberedFrom_cons_iff]
    cases prev with
    | none => simp [and_assoc]
    | some before =>
      simp only [Option.mem_some_iff, forall_eq', Option.toList_some, List.cons_append,
        List.nil_append, List.isChain_cons_cons]
      tauto

/-- **What is built**: the links themselves, not empty, within the limit, numbered and connected. -/
theorem buildChainWithDepth_eq_ok_iff {links : List AuthorityLink} {maxDepth : UInt64}
    {chain : AuthorityChain} :
    buildChainWithDepth links maxDepth = .ok chain ↔
      chain = ⟨links, maxDepth⟩ ∧ links ≠ [] ∧ links.length ≤ maxDepth.toNat ∧
        NumberedFrom 0 links ∧ links.IsChain Connects := by
  unfold buildChainWithDepth
  by_cases empty : links = []
  · simp [empty]
  · rw [if_neg (by simpa using empty)]
    by_cases long : maxDepth.toNat < links.length
    · simp [long]
    · rw [if_neg long, check_bind_eq_ok_iff, buildLinks_eq_ok_iff]
      simp only [Option.toList_none, List.nil_append, pure, Except.pure, Except.ok.injEq]
      have short := not_lt.mp long
      constructor
      · rintro ⟨⟨numbered, connected⟩, rfl⟩
        exact ⟨rfl, empty, short, numbered, connected⟩
      · rintro ⟨rfl, _, _, numbered, connected⟩
        exact ⟨⟨numbered, connected⟩, rfl⟩

/-! ### What the verifier accepts -/

/-- The scope of the later link lies in that of the earlier one. -/
def Narrows (earlier later : AuthorityLink) : Prop := later.scope ⊆ earlier.scope

instance : IsTrans AuthorityLink Narrows where
  trans _ _ _ first second := fun _ member => first (second member)

section Accepted

variable (printable : Char → Bool) (ed25519 : Ed25519) (now : Timestamp)
  (resolveKey : Did → Option PublicKey)

/-- The signature of the payload passes under the key of the delegator. -/
def SignedByDelegator (link : AuthorityLink) : Prop :=
  ∃ key, resolveKey link.delegatorDid = some key ∧
    verify ed25519 (link.signablePayload printable) link.signature key = true

/-- The link has no expiry at or before `now`. -/
def Unexpired (link : AuthorityLink) : Prop := ∀ exp ∈ link.expires, now < exp

/-- The checks of one link that do not look at the link before. -/
structure LinkAccepted (link : AuthorityLink) : Prop where
  signaturePresent : link.signature.isEmpty = false
  signed : SignedByDelegator printable ed25519 resolveKey link
  unexpired : Unexpired now link

variable {printable ed25519 now resolveKey}

theorem unexpired_iff {link : AuthorityLink} :
    Unexpired now link ↔ (link.expires.any fun exp => exp.isExpired now) = false := by
  unfold Unexpired
  cases link.expires with
  | none => simp
  | some exp => simp [Timestamp.isExpired]

theorem verifyLink_eq_ok_iff {i : ℕ} {prevScope : Option PermissionSet} {link : AuthorityLink}
    {scope : PermissionSet} :
    verifyLink printable ed25519 now resolveKey i prevScope link = .ok scope ↔
      LinkAccepted printable ed25519 now resolveKey link ∧
        (∀ prev ∈ prevScope, PermissionSet.fromPermissions link.scope ⊆ prev) ∧
        scope = PermissionSet.fromPermissions link.scope := by
  have within : (∀ prev ∈ prevScope, PermissionSet.fromPermissions link.scope ⊆ prev) ↔
      ¬ (prevScope.any fun prev =>
        !PermissionSet.isSubset (PermissionSet.fromPermissions link.scope) prev) = true := by
    cases prevScope with
    | none => simp
    | some prev => simp [PermissionSet.isSubset]
  have accepted : LinkAccepted printable ed25519 now resolveKey link ↔
      link.signature.isEmpty = false ∧ SignedByDelegator printable ed25519 resolveKey link ∧
        Unexpired now link :=
    ⟨fun all => ⟨all.1, all.2, all.3⟩, fun all => ⟨all.1, all.2.1, all.2.2⟩⟩
  rw [within, accepted, unexpired_iff, SignedByDelegator]
  unfold verifyLink
  cases link.signature.isEmpty with
  | true => simp
  | false =>
    cases resolveKey link.delegatorDid with
    | none => simp
    | some key =>
      simp only [Bool.false_eq_true, if_false, Option.some.injEq, exists_eq_left', true_and]
      cases verify ed25519 (link.signablePayload printable) link.signature key with
      | false => simp
      | true =>
        cases link.expires.any fun exp => exp.isExpired now with
        | true => simp
        | false =>
          simp only [Bool.not_true, Bool.false_eq_true, if_false]
          split
          case isTrue widened => simp [widened]
          case isFalse within => simp [within, eq_comm]

/-- **The verifier's loop** passes accepted links, none of which widens the scope before it. -/
theorem verifyLinks_eq_ok_iff {i : ℕ} {prevScope : Option PermissionSet}
    {links : List AuthorityLink} :
    verifyLinks printable ed25519 now resolveKey i prevScope links = .ok () ↔
      (∀ link ∈ links, LinkAccepted printable ed25519 now resolveKey link) ∧
        (∀ first ∈ links.head?, ∀ prev ∈ prevScope,
          PermissionSet.fromPermissions first.scope ⊆ prev) ∧
        links.IsChain Narrows := by
  induction links generalizing i prevScope with
  | nil => simp [verifyLinks]
  | cons link rest ih =>
    rw [verifyLinks, bind_eq_ok_iff]
    simp only [verifyLink_eq_ok_iff, ih]
    constructor
    · rintro ⟨_, ⟨accepted, within, rfl⟩, others, narrows, chain⟩
      refine ⟨?_, ?_, ?_⟩
      · exact List.forall_mem_cons.mpr ⟨accepted, others⟩
      · rintro first ⟨⟩
        exact within
      · refine List.isChain_cons.mpr ⟨fun next member => ?_, chain⟩
        have inside := narrows next member _ rfl
        exact PermissionSet.isSubset_fromPermissions_iff.mp (decide_eq_true inside)
    · rintro ⟨all, within, chain⟩
      obtain ⟨accepted, others⟩ := List.forall_mem_cons.mp all
      obtain ⟨narrows, chain⟩ := List.isChain_cons.mp chain
      refine ⟨_, ⟨accepted, within link rfl, rfl⟩, others, ?_, chain⟩
      rintro next member _ ⟨⟩
      have inside := PermissionSet.isSubset_fromPermissions_iff.mpr (narrows next member)
      exact of_decide_eq_true inside

variable (printable ed25519 now resolveKey)

/-- **What the verifier asks of a chain.** Neither the numbers of the links nor how they connect is
part of it. -/
structure Verifiable (chain : AuthorityChain) : Prop where
  nonempty : chain.links ≠ []
  short : chain.links.length ≤ chain.maxDepth.toNat
  accepted : ∀ link ∈ chain.links, LinkAccepted printable ed25519 now resolveKey link
  narrows : chain.links.IsChain Narrows

variable {printable ed25519 now resolveKey}

theorem verifyChain_eq_ok_iff {chain : AuthorityChain} :
    verifyChain printable ed25519 now resolveKey chain = .ok () ↔
      Verifiable printable ed25519 now resolveKey chain := by
  unfold verifyChain
  by_cases empty : chain.links = []
  · rw [if_pos (by simpa using empty)]
    exact ⟨fun impossible => (by cases impossible), fun all => absurd empty all.nonempty⟩
  · rw [if_neg (by simpa using empty)]
    by_cases long : chain.maxDepth.toNat < chain.links.length
    · rw [if_pos long]
      exact ⟨fun impossible => (by cases impossible),
        fun all => absurd all.short (not_le.mpr long)⟩
    · rw [if_neg long, verifyLinks_eq_ok_iff]
      constructor
      · rintro ⟨accepted, _, narrows⟩
        exact ⟨empty, not_lt.mp long, accepted, narrows⟩
      · intro all
        exact ⟨all.accepted, fun _ _ _ none => (by cases none), all.narrows⟩

/-! ### Delegation paths -/

/-- **Scopes narrow along the whole chain** if they narrow from link to link. -/
theorem narrows_pairwise {links : List AuthorityLink} (narrows : links.IsChain Narrows) :
    links.Pairwise Narrows :=
  narrows.pairwise

/-- **The permissions that every link grants are those of the leaf.** -/
theorem hasPermission_iff_leaf {chain : AuthorityChain} (nonempty : chain.links ≠ [])
    (narrows : chain.links.Pairwise Narrows) (p : Permission) :
    hasPermission chain p = true ↔ ∃ leaf ∈ chain.links.getLast?, p ∈ leaf.scope := by
  have split := List.dropLast_concat_getLast nonempty
  have last := List.getLast?_eq_some_getLast nonempty
  unfold hasPermission
  rw [List.all_eq_true]
  simp only [List.contains_iff_mem]
  constructor
  · intro all
    exact ⟨_, last, all _ (List.getLast_mem nonempty)⟩
  · rintro ⟨leaf, isLast, granted⟩ link member
    rw [last, Option.mem_some_iff] at isLast
    subst isLast
    rw [← split] at member narrows
    rcases List.mem_append.mp member with earlier | final
    · have inside := (List.pairwise_append.mp narrows).2.2 link earlier _ (List.mem_singleton_self _)
      exact inside granted
    · rw [List.mem_singleton.mp final]
      exact granted

variable (printable ed25519 now resolveKey)

/-- **A delegation path**: a chain within its limit whose links are numbered, each granted by the
delegate of the one before, signed by its delegator, unexpired, and no wider than any before it. -/
structure IsDelegationPath (chain : AuthorityChain) : Prop where
  nonempty : chain.links ≠ []
  short : chain.links.length ≤ chain.maxDepth.toNat
  connected : chain.links.IsChain Connects
  numbered : NumberedFrom 0 chain.links
  unexpired : ∀ link ∈ chain.links, Unexpired now link
  signed : ∀ link ∈ chain.links, SignedByDelegator printable ed25519 resolveKey link
  narrows : chain.links.Pairwise Narrows

/-- **An accepted chain is a delegation path exactly where its links are also connected and
numbered.** The other chains that meet the claim are those the verifier refuses. -/
theorem verified_is_path_iff (chain : AuthorityChain) :
    (verifyChain printable ed25519 now resolveKey chain = .ok () →
        IsDelegationPath printable ed25519 now resolveKey chain ∧
          ∀ p, hasPermission chain p = true ↔ ∃ leaf ∈ chain.links.getLast?, p ∈ leaf.scope) ↔
      (chain.links.IsChain Connects ∧ NumberedFrom 0 chain.links) ∨
        ¬ Verifiable printable ed25519 now resolveKey chain := by
  rw [verifyChain_eq_ok_iff]
  constructor
  · intro path
    by_cases verifiable : Verifiable printable ed25519 now resolveKey chain
    · exact .inl ⟨(path verifiable).1.connected, (path verifiable).1.numbered⟩
    · exact .inr verifiable
  · rintro (⟨connected, numbered⟩ | refused) verifiable
    · have pairwise := narrows_pairwise verifiable.narrows
      refine ⟨⟨verifiable.nonempty, verifiable.short, connected, numbered, ?_, ?_, pairwise⟩, ?_⟩
      · exact fun link member => (verifiable.accepted link member).unexpired
      · exact fun link member => (verifiable.accepted link member).signed
      · exact hasPermission_iff_leaf verifiable.nonempty pairwise
    · exact absurd verifiable refused

/-! A chain of two links that do not meet: one person grants a second, a third grants a fourth. Keys
and signatures are those of the key pairs whose secret repeats one byte, `1` for the first delegator
and `2` for the second. -/

/-- The public key of the first delegator. -/
def aliceKey : PublicKey :=
  ⟨[138, 136, 227, 221, 116, 9, 241, 149, 253, 82, 219, 45, 60, 186, 93, 114, 202, 103, 9, 191,
    29, 148, 18, 27, 243, 116, 136, 1, 180, 15, 111, 92], rfl⟩

/-- The public key of the second delegator. -/
def carolKey : PublicKey :=
  ⟨[129, 57, 119, 14, 168, 125, 23, 95, 86, 163, 84, 102, 195, 76, 126, 204, 203, 141, 138, 145,
    180, 238, 55, 162, 93, 246, 15, 91, 143, 201, 179, 148], rfl⟩

/-- The first delegator's signature of the first link. -/
def aliceSignature : FixedBytes 64 :=
  ⟨[150, 32, 135, 227, 94, 87, 27, 104, 99, 210, 74, 131, 166, 133, 208, 231, 176, 5, 197, 144,
    136, 73, 151, 239, 185, 97, 254, 165, 201, 95, 31, 46, 174, 143, 196, 107, 180, 86, 214,
    173, 154, 138, 96, 228, 192, 60, 158, 99, 141, 241, 203, 128, 147, 12, 5, 2, 67, 93, 93, 38,
    143, 3, 23, 9], rfl⟩

/-- The second delegator's signature of the second link. -/
def carolSignature : FixedBytes 64 :=
  ⟨[132, 226, 231, 146, 71, 149, 99, 174, 165, 48, 7, 162, 37, 240, 250, 2, 142, 216, 217, 40,
    54, 55, 244, 79, 116, 145, 98, 98, 102, 95, 46, 138, 36, 122, 10, 17, 224, 246, 190, 132,
    225, 107, 161, 31, 94, 41, 26, 117, 53, 164, 133, 109, 99, 154, 253, 56, 18, 104, 100, 93,
    147, 197, 205, 3], rfl⟩

/-- A link without an expiry that grants one permission. -/
def readLink (delegator delegate : String) (depth : UInt64) (signature : FixedBytes 64) :
    AuthorityLink where
  delegatorDid := ⟨delegator⟩
  delegateDid := ⟨delegate⟩
  scope := [.read]
  created := Timestamp.zero
  expires := none
  signature := .ed25519 signature
  depth := depth
  delegateeKind := .human

/-- The two links. -/
def brokenChain : AuthorityChain where
  links := [readLink "did:exo:alice" "did:exo:bob" 0 aliceSignature,
    readLink "did:exo:carol" "did:exo:dave" 1 carolSignature]
  maxDepth := defaultMaxDepth

/-- Verification of these two signatures. -/
def brokenChainEd25519 : Ed25519 := fun key message signature =>
  (key, message, signature) ∈
    [(aliceKey, (readLink "did:exo:alice" "did:exo:bob" 0 aliceSignature).signablePayload
        (fun _ => true), aliceSignature),
      (carolKey, (readLink "did:exo:carol" "did:exo:dave" 1 carolSignature).signablePayload
        (fun _ => true), carolSignature)]

/-- The keys of the two delegators. -/
def brokenChainKeys : Did → Option PublicKey := fun did =>
  [((⟨"did:exo:alice"⟩ : Did), aliceKey), (⟨"did:exo:carol"⟩, carolKey)].lookup did

/-- The verifier accepts the two links, and nothing was delegated from the first to the second. -/
theorem broken_chain_verified :
    ¬ (verifyChain (fun _ => true) brokenChainEd25519 Timestamp.zero brokenChainKeys brokenChain =
          .ok () →
        IsDelegationPath (fun _ => true) brokenChainEd25519 Timestamp.zero brokenChainKeys
            brokenChain ∧
          ∀ p, hasPermission brokenChain p = true ↔
            ∃ leaf ∈ brokenChain.links.getLast?, p ∈ leaf.scope) := by
  intro path
  have verified : verifyChain (fun _ => true) brokenChainEd25519 Timestamp.zero brokenChainKeys
      brokenChain = .ok () := by decide +kernel
  have connected := (path verified).1.connected
  have gap : (⟨"did:exo:bob"⟩ : Did) = ⟨"did:exo:carol"⟩ :=
    (List.isChain_cons_cons.mp connected).1
  exact absurd gap (by decide)

/-- **What was built and then verified is a delegation path.** -/
theorem isDelegationPath_of_built {links : List AuthorityLink} {maxDepth : UInt64}
    {chain : AuthorityChain} (built : buildChainWithDepth links maxDepth = .ok chain)
    (verified : verifyChain printable ed25519 now resolveKey chain = .ok ()) :
    IsDelegationPath printable ed25519 now resolveKey chain := by
  obtain ⟨rfl, nonempty, short, numbered, connected⟩ := buildChainWithDepth_eq_ok_iff.mp built
  have verifiable := verifyChain_eq_ok_iff.mp verified
  refine ⟨nonempty, short, connected, numbered, ?_, ?_, narrows_pairwise verifiable.narrows⟩
  · exact fun link member => (verifiable.accepted link member).unexpired
  · exact fun link member => (verifiable.accepted link member).signed

end Accepted

end Exochain.ExoAuthority
