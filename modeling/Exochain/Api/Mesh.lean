/-
**`exo-api` — the registry of peers, discovery and the rate limit.**

Peers are registered under their identifiers. Discovery derives an identifier from each bootstrap address and
registers those that are new. A limiter counts the calls of each peer until it is reset.

* `accepted_peerDid` — a derived identifier always has the format of one, so discovery does not fail.
* **`discovery_exact`** — which peers a discovery registers, and in which order; what was registered stays as
  it was, and the same addresses discover nothing again.
* `send_discovered_iff` — the messages that can be sent after a discovery.
* **`rate_limit_exact`** — in any window without a reset, from any state the limiter can be in, a peer passes as
  often as it calls, until it has passed a hundred times since the last reset.
-/

import Exochain.Api.P2p
import Exochain.Foundation.Codes

set_option linter.unusedSectionVars false

namespace Exochain.ExoApi

open Foundation ExoCore

/-! ### Errors -/

/-- What a call fails with. -/
inductive ApiError where
  | peerNotFound (peer : String)
  | verificationFailed (reason : String)
  | rateLimited (peerId : String)
  | invalidSchema (reason : String)
  | serializationError (reason : String)
  deriving DecidableEq

/-- The text of an error. -/
def ApiError.display : ApiError → String
  | peerNotFound peer => "peer not found: " ++ peer
  | verificationFailed reason => "message verification failed: " ++ reason
  | rateLimited peerId => "rate limited: " ++ peerId
  | invalidSchema reason => "invalid schema: " ++ reason
  | serializationError reason => "serialization error: " ++ reason

/-- The debug rendering of a peer that error texts use. -/
def debugPeer (peer : PeerId) : String := "PeerId(Did(" ++ peer.value ++ "))"

/-! ### The registry -/

/-- The peers, by identifier. -/
abbrev PeerRegistry := BTreeMap PeerId PeerInfo

namespace PeerRegistry

/-- Register a peer under its identifier, in place of one that is there. -/
def register (registry : PeerRegistry) (info : PeerInfo) : PeerRegistry := registry.insert info.id info

end PeerRegistry

/-- A message. -/
structure Message where
  sender : PeerId
  recipient : Option PeerId
  payload : List UInt8
  signature : Signature
  nonce : UInt64
  deriving DecidableEq

/-- Send a message: its recipient, if it has one, must be registered. -/
def send (registry : PeerRegistry) (msg : Message) : Except ApiError Unit :=
  match msg.recipient with
  | none => .ok ()
  | some recipient =>
    if registry.contains recipient then .ok ()
    else .error (.peerNotFound (debugPeer recipient))

/-! ### Discovery -/

section Discovery

variable (blake3 : Blake3)

/-- The text of the identifier of an address. -/
def peerText (address : String) : String := "did:exo:peer-" ++ (blake3 (textBytes address)).display

/-- The identifier of an address. -/
def peerDid (address : String) : PeerId := ⟨peerText blake3 address⟩

/-- What is registered for an address. -/
def peerInfo (address : String) : PeerInfo where
  id := peerDid blake3 address
  addresses := [address]
  publicKeyHash := Hash256.digest blake3 (textBytes address)
  lastSeen := .zero
  reputationScore := 50

/-- The loop of `discoverPeers`. -/
def discoverFrom (registry : PeerRegistry) (discovered : List PeerId) :
    List String → Except ApiError (List PeerId) × PeerRegistry
  | [] => (.ok discovered, registry)
  | address :: rest =>
    match Did.new (peerText blake3 address) with
    | .error error => (.error (.invalidSchema error.display), registry)
    | .ok pid =>
      if registry.contains pid then discoverFrom registry discovered rest
      else
        discoverFrom (registry.register { peerInfo blake3 address with id := pid }) (discovered ++ [pid]) rest

/-- Register the peers of the bootstrap addresses that are not registered yet. -/
def discoverPeers (registry : PeerRegistry) (bootstrap : List String) :
    Except ApiError (List PeerId) × PeerRegistry :=
  discoverFrom blake3 registry [] bootstrap

/-- Hexadecimal digits are in the alphabet of identifiers. -/
theorem allowedChar_digit {digit : ℕ} (small : digit < 16) : Did.allowedChar digit.digitChar = true := by
  have table : ∀ x : Fin 16, Did.allowedChar (x : ℕ).digitChar = true := by decide
  exact table ⟨digit, small⟩

/-- **A derived identifier has the format of one.** -/
theorem accepted_peerDid (address : String) : (peerDid blake3 address).Accepted := by
  have digits : ∀ c ∈ (blake3 (textBytes address)).display.toList, Did.allowedChar c = true := by
    intro c member
    rw [Hash256.display, String.toList_ofList] at member
    obtain ⟨byte, -, digit⟩ := List.mem_flatMap.mp member
    have small := byte.toNat_lt
    rcases List.mem_cons.mp digit with rfl | digit
    · exact allowedChar_digit (by omega)
    · rw [List.mem_singleton.mp digit]
      exact allowedChar_digit (Nat.mod_lt _ (by decide))
  have front : "peer-".toList.all Did.allowedChar = true := by decide
  have split : (peerText blake3 address).toList =
      Did.scheme.toList ++ ("peer-".toList ++ (blake3 (textBytes address)).display.toList) := by
    rw [peerText, String.toList_append]
    rfl
  have nonempty : "peer-".toList ≠ [] := by decide
  refine Did.accepted_of_allowed split (List.append_ne_nil_of_left_ne_nil nonempty _) fun c member => ?_
  rcases List.mem_append.mp member with early | late
  · exact List.all_eq_true.mp front c early
  · exact digits c late

variable {blake3} {registry : PeerRegistry} {bootstrap : List String}

/-- One address. -/
theorem discoverFrom_cons (registry : PeerRegistry) (discovered : List PeerId) (address : String)
    (rest : List String) :
    discoverFrom blake3 registry discovered (address :: rest) =
      if registry.contains (peerDid blake3 address) then discoverFrom blake3 registry discovered rest
      else
        discoverFrom blake3 (registry.register (peerInfo blake3 address))
          (discovered ++ [peerDid blake3 address]) rest := by
  have accepted : Did.new (peerText blake3 address) = .ok (peerDid blake3 address) :=
    accepted_peerDid blake3 address
  rw [discoverFrom, accepted]
  rfl

/-- What is known of a discovery: the identifiers it registered, and the registry after it. -/
structure Discovers (blake3 : Blake3) (registry : PeerRegistry) (bootstrap : List String)
    (new : List PeerId) (after : PeerRegistry) : Prop where
  distinct : new.Nodup
  ordered : new.Sublist (bootstrap.map (peerDid blake3))
  exact : ∀ id, id ∈ new ↔ id ∉ registry ∧ id ∈ bootstrap.map (peerDid blake3)
  kept : ∀ id : PeerId, id ∈ registry → after[id]? = registry[id]?
  registered : ∀ id : PeerId, id ∉ registry →
    after[id]? = (bootstrap.find? (peerDid blake3 · == id)).map (peerInfo blake3)

theorem mem_register_iff {id : PeerId} {address : String} :
    id ∈ registry.register (peerInfo blake3 address) ↔ peerDid blake3 address = id ∨ id ∈ registry := by
  rw [PeerRegistry.register, Std.ExtTreeMap.mem_insert, Std.compare_eq_iff_eq]
  rfl

section Address

variable {address : String} {rest : List String} {new : List PeerId} {after : PeerRegistry}

/-- An address that is registered comes first. -/
theorem Discovers.known (found : Discovers blake3 registry rest new after)
    (known : peerDid blake3 address ∈ registry) : Discovers blake3 registry (address :: rest) new after := by
  refine ⟨found.distinct, found.ordered.cons _, fun id => ?_, found.kept, fun id missing => ?_⟩
  · rw [found.exact, List.map_cons, List.mem_cons]
    constructor
    · exact fun ⟨missing, member⟩ => ⟨missing, .inr member⟩
    · rintro ⟨missing, rfl | member⟩
      · exact absurd known missing
      · exact ⟨missing, member⟩
  · have other : (peerDid blake3 address == id) = false := by
      rw [beq_eq_false_iff_ne]
      exact fun same => missing (same ▸ known)
    rw [found.registered id missing, List.find?_cons, other]

/-- An address that is not registered comes first, and is. -/
theorem Discovers.unknown (unknown : peerDid blake3 address ∉ registry)
    (found : Discovers blake3 (registry.register (peerInfo blake3 address)) rest new after) :
    Discovers blake3 registry (address :: rest) (peerDid blake3 address :: new) after := by
  refine ⟨?_, found.ordered.cons_cons _, fun id => ?_, fun id member => ?_, fun id missing => ?_⟩
  · refine List.nodup_cons.mpr ⟨fun again => ?_, found.distinct⟩
    exact ((found.exact _).mp again).1 (mem_register_iff.mpr (.inl rfl))
  · rw [List.mem_cons, found.exact, mem_register_iff, List.map_cons, List.mem_cons, not_or]
    constructor
    · rintro (rfl | ⟨⟨-, missing⟩, member⟩)
      · exact ⟨unknown, .inl rfl⟩
      · exact ⟨missing, .inr member⟩
    · rintro ⟨missing, rfl | member⟩
      · exact .inl rfl
      · by_cases same : peerDid blake3 address = id
        · exact .inl same.symm
        · exact .inr ⟨⟨same, missing⟩, member⟩
  · rw [found.kept id (mem_register_iff.mpr (.inr member))]
    refine BTreeMap.getElem?_insert_of_ne _ fun same => unknown ?_
    rw [show peerDid blake3 address = id from same]
    exact member
  · by_cases same : peerDid blake3 address = id
    · subst same
      rw [found.kept _ (mem_register_iff.mpr (.inl rfl)), List.find?_cons, beq_self_eq_true]
      exact Std.ExtTreeMap.getElem?_insert_self
    · have other : (peerDid blake3 address == id) = false := beq_eq_false_iff_ne.mpr same
      rw [found.registered id fun member => (mem_register_iff.mp member).elim same missing,
        List.find?_cons, other]

end Address

variable (blake3) in
/-- **One discovery.** -/
theorem discoverFrom_spec (registry : PeerRegistry) (discovered : List PeerId) (bootstrap : List String) :
    ∃ new after, discoverFrom blake3 registry discovered bootstrap = (.ok (discovered ++ new), after) ∧
      Discovers blake3 registry bootstrap new after := by
  induction bootstrap generalizing registry discovered with
  | nil =>
    refine ⟨[], registry, by rw [List.append_nil]; rfl, List.nodup_nil, .refl _, fun id => ?_,
      fun _ _ => rfl, fun id missing => ?_⟩
    · simp
    · exact BTreeMap.not_mem_iff.mp missing
  | cons address rest ih =>
    rw [discoverFrom_cons]
    by_cases known : peerDid blake3 address ∈ registry
    · rw [if_pos (Std.ExtTreeMap.contains_iff_mem.mpr known)]
      obtain ⟨new, after, answer, found⟩ := ih registry discovered
      exact ⟨new, after, answer, found.known known⟩
    · rw [if_neg fun contained => known (Std.ExtTreeMap.contains_iff_mem.mp contained)]
      obtain ⟨new, after, answer, found⟩ :=
        ih (registry.register (peerInfo blake3 address)) (discovered ++ [peerDid blake3 address])
      refine ⟨peerDid blake3 address :: new, after, ?_, .unknown known found⟩
      rw [answer, List.append_assoc]
      rfl

/-- What is registered after a discovery. -/
theorem Discovers.mem_iff {new : List PeerId} {after : PeerRegistry}
    (found : Discovers blake3 registry bootstrap new after) {id : PeerId} :
    id ∈ after ↔ id ∈ registry ∨ id ∈ bootstrap.map (peerDid blake3) := by
  rw [BTreeMap.mem_iff_exists]
  by_cases known : id ∈ registry
  · rw [found.kept id known, ← BTreeMap.mem_iff_exists]
    exact iff_of_true known (.inl known)
  · rw [found.registered id known, ← Option.isSome_iff_exists, Option.isSome_map, List.find?_isSome,
      or_iff_right known, List.mem_map]
    simp only [beq_iff_eq]

/-- A discovery that finds no new peer leaves the registry. -/
theorem Discovers.eq_of_known {new : List PeerId} {after : PeerRegistry}
    (found : Discovers blake3 registry bootstrap new after)
    (known : ∀ id ∈ bootstrap.map (peerDid blake3), id ∈ registry) : new = [] ∧ after = registry := by
  refine ⟨List.eq_nil_iff_forall_not_mem.mpr fun id member => ?_, Std.ExtTreeMap.ext_getElem? fun id => ?_⟩
  · obtain ⟨missing, listed⟩ := (found.exact id).mp member
    exact missing (known id listed)
  · by_cases here : id ∈ registry
    · exact found.kept id here
    · rw [BTreeMap.not_mem_iff.mp here, ← BTreeMap.not_mem_iff, found.mem_iff, not_or]
      exact ⟨here, fun listed => here (known id listed)⟩

/-- **A discovery registers the peers of the new addresses.** It does not fail; the identifiers that it answers
are those of the addresses that were not registered, each once and in the order of the addresses; each stands
for the first address it comes from; what was registered stays as it was. The same addresses discover nothing
again. -/
theorem discovery_exact (blake3 : Blake3) (registry : PeerRegistry) (bootstrap : List String) :
    ∃ discovered after, discoverPeers blake3 registry bootstrap = (.ok discovered, after) ∧
      Discovers blake3 registry bootstrap discovered after ∧
      discoverPeers blake3 after bootstrap = (.ok [], after) := by
  obtain ⟨discovered, after, answer, found⟩ := discoverFrom_spec blake3 registry [] bootstrap
  obtain ⟨more, again, answer', found'⟩ := discoverFrom_spec blake3 after [] bootstrap
  obtain ⟨rfl, rfl⟩ := found'.eq_of_known fun id listed => found.mem_iff.mpr (.inr listed)
  exact ⟨discovered, again, answer, found, answer'⟩

/-! ### Messages -/

/-- A message is sent if its recipient, in case it has one, is registered. -/
theorem send_eq_ok_iff {msg : Message} :
    send registry msg = .ok () ↔ ∀ recipient, msg.recipient = some recipient → recipient ∈ registry := by
  unfold send
  cases addressed : msg.recipient with
  | none => exact iff_of_true rfl nofun
  | some recipient =>
    simp only [Option.some.injEq, forall_eq', ← Std.ExtTreeMap.contains_iff_mem]
    split
    · rename_i registered
      exact iff_of_true rfl registered
    · rename_i missing
      exact iff_of_false nofun missing

/-- **What can be sent after a discovery**: every message that could be sent before, and those to the peers of
the addresses. -/
theorem send_discovered_iff {new : List PeerId} {after : PeerRegistry}
    (found : Discovers blake3 registry bootstrap new after) (msg : Message) :
    send after msg = .ok () ↔
      send registry msg = .ok () ∨ ∃ address ∈ bootstrap, msg.recipient = some (peerDid blake3 address) := by
  rw [send_eq_ok_iff, send_eq_ok_iff]
  cases addressed : msg.recipient with
  | none => exact iff_of_true nofun (.inl nofun)
  | some recipient =>
    simp only [Option.some.injEq, forall_eq', found.mem_iff, List.mem_map]
    exact or_congr_right (exists_congr fun address => and_congr_right fun _ => eq_comm)

end Discovery

/-! ### The rate limit -/

/-- The calls of each peer in the window. The count is a 32-bit number that stops at the limit. -/
abbrev RateLimiter := BTreeMap PeerId UInt32

/-- A call of the limiter. -/
inductive LimiterCall where
  | check (peer : PeerId)
  | reset
  deriving DecidableEq

namespace RateLimiter

def maxPerWindow : UInt32 := 100

/-- Count a call of a peer, unless it is at the limit. -/
def checkAndIncrement (limiter : RateLimiter) (peer : PeerId) : Except ApiError Unit × RateLimiter :=
  let count := limiter[peer]?.getD 0
  if maxPerWindow ≤ count then (.error (.rateLimited (debugPeer peer)), limiter.insert peer count)
  else (.ok (), limiter.insert peer (count + 1))

/-- The limiter after a call. -/
def step (limiter : RateLimiter) : LimiterCall → RateLimiter
  | .check peer => (checkAndIncrement limiter peer).2
  | .reset => ∅

/-- How often a peer passed. -/
def count (limiter : RateLimiter) (peer : PeerId) : ℕ := (limiter[peer]?.getD 0).toNat

/-- How often a peer passes in a window of calls. -/
def passed (limiter : RateLimiter) (peer : PeerId) : List LimiterCall → ℕ
  | [] => 0
  | call :: calls =>
    let rest := passed (limiter.step call) peer calls
    if call = .check peer ∧ (checkAndIncrement limiter peer).1 = .ok () then rest + 1 else rest

/-- The calls after the last reset. -/
def sinceReset (calls : List LimiterCall) : List LimiterCall :=
  (calls.reverse.takeWhile (· ≠ .reset)).reverse

theorem sinceReset_concat (calls : List LimiterCall) (call : LimiterCall) :
    sinceReset (calls ++ [call]) = if call = .reset then [] else sinceReset calls ++ [call] := by
  rw [sinceReset, sinceReset, List.reverse_append, List.reverse_singleton, List.singleton_append,
    List.takeWhile_cons]
  by_cases same : call = .reset <;> simp [same]

variable {limiter : RateLimiter} {peer : PeerId}

/-- A peer passes until it is at the limit. -/
theorem passes_iff : (checkAndIncrement limiter peer).1 = .ok () ↔ limiter.count peer < 100 := by
  have limit : maxPerWindow ≤ limiter[peer]?.getD 0 ↔ 100 ≤ limiter.count peer := UInt32.le_iff_toNat_le
  rw [checkAndIncrement]
  split
  · rename_i full
    exact iff_of_false (fun passes => nomatch passes) (not_lt.mpr (limit.mp full))
  · rename_i room
    exact iff_of_true rfl (not_le.mp (mt limit.mpr room))

/-- **One call**: a peer below the limit counts one more. -/
theorem count_check (other : PeerId) :
    (limiter.step (.check other)).count peer =
      if other = peer ∧ limiter.count peer < 100 then limiter.count peer + 1 else limiter.count peer := by
  have limit : maxPerWindow ≤ limiter[other]?.getD 0 ↔ 100 ≤ limiter.count other := UInt32.le_iff_toNat_le
  rw [step, checkAndIncrement, count]
  by_cases same : other = peer
  · subst same
    split
    · rename_i full
      rw [if_neg fun room => absurd (limit.mp full) (not_le.mpr room.2),
        Std.ExtTreeMap.getElem?_insert_self]
      rfl
    · rename_i room
      have below : limiter.count other < 100 := not_le.mp (mt limit.mpr room)
      have small : (limiter[other]?.getD 0).toNat < 100 := below
      rw [if_pos ⟨rfl, below⟩, Std.ExtTreeMap.getElem?_insert_self, Option.getD_some, UInt32.toNat_add,
        count]
      exact Nat.mod_eq_of_lt (by simp; omega)
  · have apart : ¬ (other = peer ∧ limiter.count peer < 100) := fun both => same both.1
    rw [if_neg apart]
    split <;> rw [BTreeMap.getElem?_insert_of_ne _ same] <;> rfl

theorem count_le_check {other : PeerId} (below : limiter.count peer ≤ 100) :
    (limiter.step (.check other)).count peer ≤ 100 := by
  rw [count_check]
  split <;> omega

/-- In a window without a reset a peer passes as often as it calls, up to the limit. -/
theorem passed_eq {window : List LimiterCall} (noReset : .reset ∉ window)
    (below : limiter.count peer ≤ 100) :
    passed limiter peer window = min (window.count (.check peer)) (100 - limiter.count peer) := by
  induction window generalizing limiter with
  | nil => rw [passed, List.count_nil, Nat.zero_min]
  | cons call window ih =>
    obtain ⟨notFirst, notLater⟩ := not_or.mp (mt List.mem_cons.mpr noReset)
    cases call with
    | reset => exact absurd rfl notFirst
    | check other =>
      simp only [passed, passes_iff]
      rw [ih notLater (count_le_check below), count_check, List.count_cons]
      by_cases same : other = peer
      · subst same
        simp only [true_and, beq_self_eq_true, if_true]
        split <;> omega
      · have apart : (LimiterCall.check other == .check peer) = false :=
          beq_eq_false_iff_ne.mpr fun equal => same (LimiterCall.check.inj equal)
        rw [if_neg fun both => same (LimiterCall.check.inj both.1), if_neg fun both => same both.1, apart]
        rfl

/-- The count is that of the calls since the last reset, up to the limit. -/
theorem count_run (calls : List LimiterCall) (peer : PeerId) :
    (run step ∅ calls).count peer = min ((sinceReset calls).count (.check peer)) 100 := by
  induction calls using List.reverseRecOn with
  | nil => rfl
  | append_singleton calls call ih =>
    rw [run_append, sinceReset_concat]
    show (step (run step ∅ calls) call).count peer = _
    cases call with
    | reset => rfl
    | check other =>
      have notReset : LimiterCall.check other ≠ .reset := LimiterCall.noConfusion
      rw [count_check, ih, if_neg notReset, List.count_append, List.count_singleton]
      by_cases same : other = peer
      · subst same
        simp only [true_and, beq_self_eq_true, if_true]
        split <;> omega
      · have apart : (LimiterCall.check other == .check peer) = false :=
          beq_eq_false_iff_ne.mpr fun equal => same (LimiterCall.check.inj equal)
        rw [if_neg fun both => same both.1, apart]
        rfl

/-- **The rate limit is exact.** After any calls, in a window without a reset a peer passes as often as it calls,
until with the calls since the last reset it has passed a hundred times; what other peers call does not
matter. -/
theorem rate_limit_exact (calls window : List LimiterCall) (peer : PeerId) (noReset : .reset ∉ window) :
    passed (run step ∅ calls) peer window =
      min (window.count (.check peer)) (100 - min ((sinceReset calls).count (.check peer)) 100) := by
  have before := count_run calls peer
  rw [passed_eq noReset (by omega), before]

/-- A call, a reset, and 98 calls more: of three calls after them two pass. -/
theorem rate_limit_reached :
    passed (run step ∅ (.check ⟨"did:exo:a"⟩ :: .reset :: List.replicate 98 (.check ⟨"did:exo:a"⟩)))
      ⟨"did:exo:a"⟩
      [.check ⟨"did:exo:a"⟩, .check ⟨"did:exo:b"⟩, .check ⟨"did:exo:a"⟩, .check ⟨"did:exo:a"⟩] = 2 :=
  (rate_limit_exact _ _ _ (by decide)).trans (by decide +kernel)

end RateLimiter

end Exochain.ExoApi
