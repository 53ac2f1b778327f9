/-
**`exo-identity` — verification methods and their rotation.**

A document lists its verification methods in the order they were added. A rotation takes the first method
with the given id out of use and adds one with the version after *its* version, whatever versions the
document already has; a signature is checked under the first method with the given id.

The base-58 library is a pair of functions, of which only the round trip is assumed. A rotation that stops
at the greatest version, in a checked build, has already taken the old method out of use.

* `rotate_cases` — what a rotation does to the list of methods.
* `unambiguous_rotation_iff` — one rotation keeps ids and versions distinct exactly if the version after the
  rotated one is free.
* **`keepsUnambiguous_iff`** — the whole contract of rotation over a run, and exactly when it is met.
* `RotatedTwice.versions_clash` — the second rotation of one method.
-/

import Exochain.Foundation.Run
import Exochain.Foundation.Collections
import Exochain.Core.Types

namespace Exochain.ExoIdentity

open Foundation ExoCore

/-! ### Documents -/

/-- A public key of a document with its lifecycle. -/
structure VerificationMethod where
  id : String
  keyType : String
  controller : Did
  publicKeyMultibase : String
  version : UInt64
  active : Bool
  validFrom : UInt64
  revokedAt : Option UInt64
  deriving DecidableEq

/-- A document, as far as verification methods go. -/
structure DidDocument where
  id : Did
  verificationMethods : List VerificationMethod
  updated : Timestamp

/-- The errors of this module. -/
inductive DidVerificationError where
  | methodNotFound (keyId : String)
  | methodRevoked (keyId : String)
  | cryptoError (reason : String)
  | invalidSignature
  deriving DecidableEq, Repr

/-- The text of an error. -/
def DidVerificationError.display : DidVerificationError → String
  | .methodNotFound keyId => "verification method not found: " ++ keyId
  | .methodRevoked keyId => "verification method revoked: " ++ keyId
  | .cryptoError reason => "cryptographic error: " ++ reason
  | .invalidSignature => "invalid signature"

/-- The base-58 library: the encoder, and the decoder with the text of its error. -/
structure Base58 where
  encode : List UInt8 → String
  decode : String → Except String (List UInt8)

/-- Decoding inverts encoding. -/
def Base58.Inverts (base58 : Base58) : Prop :=
  ∀ bytes, base58.decode (base58.encode bytes) = .ok bytes

namespace DidDocument

variable (build : Build) (ed25519 : Ed25519) (base58 : Base58)

/-! ### Checking a signature -/

/-- The key that a multibase text stands for. -/
def decodeMultibase (text : String) : Except DidVerificationError PublicKey :=
  match text.toList with
  | 'z' :: digits =>
    match base58.decode (String.ofList digits) with
    | .error reason => .error (.cryptoError ("base58 decode: " ++ reason))
    | .ok bytes =>
      if width : bytes.length = 32 then .ok ⟨bytes, width⟩
      else .error (.cryptoError "public key must be 32 bytes")
  | _ => .error (.cryptoError "unsupported multibase prefix (expected 'z' for base58btc)")

/-- Verify a signature against the verification methods of a document. -/
def verifyDidSignature (doc : DidDocument) (keyId : String) (message : List UInt8)
    (signature : Signature) : Except DidVerificationError Unit :=
  match doc.verificationMethods.find? (·.id == keyId) with
  | none => .error (.methodNotFound keyId)
  | some method =>
    if method.active then
      match decodeMultibase base58 method.publicKeyMultibase with
      | .error error => .error error
      | .ok publicKey =>
        if verify ed25519 message signature publicKey then .ok () else .error .invalidSignature
    else .error (.methodRevoked keyId)

/-! ### Rotating a key -/

/-- What a rotation returns. -/
inductive RotateReply where
  | rotated (method : VerificationMethod)
  | failed (error : DidVerificationError)
  | stopped (fault : Fault)
  deriving DecidableEq

/-- The arguments of a rotation. -/
structure RotateCall where
  oldKeyId : String
  newPublicKey : PublicKey
  controller : Did
  currentTimeMs : UInt64
  deriving DecidableEq

/-- The id of the method with a version. -/
def methodId (did : Did) (version : UInt64) : String := did.value ++ "#key-" ++ toString version

/-- A method taken out of use. -/
def deactivated (method : VerificationMethod) (currentTimeMs : UInt64) : VerificationMethod :=
  { method with active := false, revokedAt := some currentTimeMs }

/-- The method that a rotation adds. -/
def newMethod (did : Did) (call : RotateCall) (version : UInt64) : VerificationMethod where
  id := methodId did version
  keyType := "Ed25519VerificationKey2020"
  controller := call.controller
  publicKeyMultibase := "z" ++ base58.encode call.newPublicKey.toList
  version := version
  active := true
  validFrom := call.currentTimeMs
  revokedAt := none

/-- Rotate a verification key: the reply, and the document left behind. -/
def rotateVerificationKey (doc : DidDocument) (call : RotateCall) : RotateReply × DidDocument :=
  match doc.verificationMethods.findIdx? (·.id == call.oldKeyId) with
  | none => (.failed (.methodNotFound call.oldKeyId), doc)
  | some oldMethodIdx =>
    match indexVec doc.verificationMethods oldMethodIdx with
    | .error fault => (.stopped fault, doc)
    | .ok old =>
      let methods :=
        doc.verificationMethods.set oldMethodIdx (deactivated old call.currentTimeMs)
      match build.add 64 old.version.toNat 1 with
      -- the panic comes after the old method was written
      | .error fault => (.stopped fault, { doc with verificationMethods := methods })
      | .ok version =>
        let method := newMethod base58 doc.id call (UInt64.ofNat version)
        (.rotated method,
          { doc with
            verificationMethods := methods ++ [method]
            updated := ⟨call.currentTimeMs, 0⟩ })

/-- The document after a rotation. -/
def step (doc : DidDocument) (call : RotateCall) : DidDocument :=
  (rotateVerificationKey build base58 doc call).2

/-! ### What rotation should keep -/

variable (doc : DidDocument)

/-- The ids of the methods. -/
def ids : List String := doc.verificationMethods.map VerificationMethod.id

/-- The versions of the methods. -/
def versions : List UInt64 := doc.verificationMethods.map VerificationMethod.version

/-- No two methods share an id or a version. -/
structure Unambiguous : Prop where
  ids : doc.ids.Nodup
  versions : doc.versions.Nodup

/-- Every method has the id that its version gives it. -/
def Numbered : Prop :=
  ∀ method ∈ doc.verificationMethods, method.id = methodId doc.id method.version

/-- A method with the id is listed, and each of them is out of use. -/
structure Retired (keyId : String) : Prop where
  listed : keyId ∈ doc.ids
  inactive : ∀ method ∈ doc.verificationMethods, method.id = keyId → method.active = false

/-- Signatures under the id are checked with the key. -/
def VerifiesWith (keyId : String) (key : PublicKey) : Prop :=
  ∀ message signature, verifyDidSignature ed25519 base58 doc keyId message signature =
    if verify ed25519 message signature key then .ok () else .error .invalidSignature

/-- **What rotations promise over a run.** -/
structure KeepsUnambiguous (start : DidDocument) (calls : List RotateCall) : Prop where
  unambiguous : Throughout (step build base58) Unambiguous start calls
  retired : ∀ before call between after, calls = before ++ call :: (between ++ after) →
    call.oldKeyId ∈ (run (step build base58) start before).ids →
      (run (step build base58) start (before ++ call :: between)).Retired call.oldKeyId
  verifies : ∀ before call after, calls = before ++ call :: after → ∀ method,
    (rotateVerificationKey build base58 (run (step build base58) start before) call).1 =
        .rotated method →
      VerifiesWith ed25519 base58 (run (step build base58) start (before ++ [call])) method.id
        call.newPublicKey

/-- The method that the call rotates, if there is one, has a version whose successor no method of the
document has. -/
def NextVersionFree (doc : DidDocument) (call : RotateCall) : Prop :=
  ∀ old, doc.verificationMethods.find? (·.id == call.oldKeyId) = some old →
    ∀ method ∈ doc.verificationMethods, build.add 64 old.version.toNat 1 ≠ .ok method.version.toNat

instance (call : RotateCall) : Decidable (NextVersionFree build doc call) :=
  match found : doc.verificationMethods.find? (·.id == call.oldKeyId) with
  | none => .isTrue fun old here => by simp [found] at here
  | some old =>
    decidable_of_iff (∀ method ∈ doc.verificationMethods,
        build.add 64 old.version.toNat 1 ≠ .ok method.version.toNat) <| by
      simp [NextVersionFree, found]

/-! ### One rotation -/

/-- **What a rotation can do**: nothing, take a method out of use and stop, or also add the next one. -/
inductive Rotation (doc : DidDocument) (call : RotateCall) : RotateReply → DidDocument → Prop
  | missing (unlisted : call.oldKeyId ∉ doc.ids) :
    Rotation doc call (.failed (.methodNotFound call.oldKeyId)) doc
  | stopped (index : ℕ) (old : VerificationMethod)
      (found : doc.verificationMethods.find? (·.id == call.oldKeyId) = some old)
      (place : doc.verificationMethods[index]? = some old)
      (fault : Fault) (overflow : build.add 64 old.version.toNat 1 = .error fault) :
    Rotation doc call (.stopped fault)
      { doc with
        verificationMethods :=
          doc.verificationMethods.set index (deactivated old call.currentTimeMs) }
  | rotated (index : ℕ) (old : VerificationMethod)
      (found : doc.verificationMethods.find? (·.id == call.oldKeyId) = some old)
      (place : doc.verificationMethods[index]? = some old)
      (version : UInt64) (next : build.add 64 old.version.toNat 1 = .ok version.toNat) :
    Rotation doc call (.rotated (newMethod base58 doc.id call version))
      { doc with
        verificationMethods :=
          doc.verificationMethods.set index (deactivated old call.currentTimeMs) ++
            [newMethod base58 doc.id call version]
        updated := ⟨call.currentTimeMs, 0⟩ }

variable {build} {ed25519} {base58} {doc} {after : DidDocument} {call : RotateCall}
  {reply : RotateReply}

theorem mem_ids {keyId : String} :
    keyId ∈ doc.ids ↔ ∃ method ∈ doc.verificationMethods, method.id = keyId := List.mem_map

theorem id_of_find? {keyId : String} {method : VerificationMethod}
    (found : doc.verificationMethods.find? (·.id == keyId) = some method) : method.id = keyId := by
  simpa using List.find?_some found

theorem rotate_cases (doc : DidDocument) (call : RotateCall) :
    Rotation build base58 doc call (rotateVerificationKey build base58 doc call).1
      (step build base58 doc call) := by
  unfold step rotateVerificationKey
  cases position : doc.verificationMethods.findIdx? (·.id == call.oldKeyId) with
  | none =>
    refine .missing fun listed => ?_
    obtain ⟨method, member, same⟩ := mem_ids.mp listed
    have other := List.findIdx?_eq_none_iff.mp position method member
    exact absurd same (by simpa using other)
  | some index =>
    obtain ⟨inside, first⟩ := List.findIdx?_eq_some_iff_findIdx_eq.mp position
    have found : doc.verificationMethods.find? (·.id == call.oldKeyId) =
        some doc.verificationMethods[index] := by
      rw [List.find?_eq_getElem?_findIdx, first, List.getElem?_eq_getElem inside]
    have place := List.getElem?_eq_getElem inside
    dsimp only
    rw [indexVec_eq_ok_iff.mpr place]
    dsimp only
    cases next : build.add 64 doc.verificationMethods[index].version.toNat 1 with
    | error fault => exact .stopped index _ found place fault next
    | ok version =>
      have narrow : (UInt64.ofNat version).toNat = version :=
        UInt64.toNat_ofNat_of_lt' (Build.lt_of_add_eq_ok next)
      exact .rotated index _ found place (UInt64.ofNat version) (by rw [next, narrow])

/-- The method that a reply returns. -/
def added (reply : RotateReply) : List VerificationMethod :=
  match reply with
  | .rotated method => [method]
  | .failed _ | .stopped _ => []

/-- A rotation adds the method it returns, and of the others changes at most how they stand. -/
theorem map_rotation {α : Type} (read : VerificationMethod → α)
    (kept : ∀ method time, read (deactivated method time) = read method)
    (rotation : Rotation build base58 doc call reply after) :
    after.verificationMethods.map read =
      doc.verificationMethods.map read ++ (added reply).map read := by
  cases rotation with
  | missing unlisted => simp [added]
  | stopped index old found place fault overflow =>
    rw [map_set_eq_map place (kept old _)]
    simp [added]
  | rotated index old found place version next =>
    rw [List.map_append, map_set_eq_map place (kept old _)]
    rfl

theorem ids_rotation (rotation : Rotation build base58 doc call reply after) :
    after.ids = doc.ids ++ (added reply).map VerificationMethod.id :=
  map_rotation VerificationMethod.id (fun _ _ => rfl) rotation

theorem versions_rotation (rotation : Rotation build base58 doc call reply after) :
    after.versions = doc.versions ++ (added reply).map VerificationMethod.version :=
  map_rotation VerificationMethod.version (fun _ _ => rfl) rotation

theorem id_rotation (rotation : Rotation build base58 doc call reply after) : after.id = doc.id := by
  cases rotation <;> rfl

/-- **Where a method comes from**: it was there, and is at most taken out of use, or the rotation
returns it. -/
theorem mem_rotation (rotation : Rotation build base58 doc call reply after)
    {method : VerificationMethod} (member : method ∈ after.verificationMethods) :
    (∃ old ∈ doc.verificationMethods, method = old ∨ ∃ time, method = deactivated old time) ∨
      ∃ version, reply = .rotated (newMethod base58 doc.id call version) ∧
        method = newMethod base58 doc.id call version := by
  -- the list that was there, one method of it taken out of use
  have earlier : ∀ index old time, doc.verificationMethods[index]? = some old →
      method ∈ doc.verificationMethods.set index (deactivated old time) →
        ∃ old ∈ doc.verificationMethods, method = old ∨ ∃ time, method = deactivated old time := by
    intro index old time place here
    rcases List.mem_or_eq_of_mem_set here with unchanged | out
    · exact ⟨method, unchanged, .inl rfl⟩
    · exact ⟨old, List.mem_of_getElem? place, .inr ⟨time, out⟩⟩
  cases rotation with
  | missing unlisted => exact .inl ⟨method, member, .inl rfl⟩
  | stopped index old found place fault overflow => exact .inl (earlier index old _ place member)
  | rotated index old found place version next =>
    rcases List.mem_append.mp member with before | new
    · exact .inl (earlier index old _ place before)
    · exact .inr ⟨version, rfl, List.mem_singleton.mp new⟩

/-- Different versions have different ids. -/
theorem methodId_injective (did : Did) : Function.Injective (methodId did) := by
  intro version version' same
  have chars := congrArg String.toList same
  simp only [methodId, String.toList_append] at chars
  have numerals := String.toList_injective (List.append_cancel_left chars)
  exact UInt64.toNat_inj.mp (Nat.repr_injective numerals)

/-- In a numbered document the ids are those of the versions. -/
theorem ids_eq_of_numbered (numbered : doc.Numbered) : doc.ids = doc.versions.map (methodId doc.id) := by
  rw [ids, versions, List.map_map]
  exact List.map_congr_left numbered

/-- In a numbered document the versions decide. -/
theorem unambiguous_iff_versions (numbered : doc.Numbered) : doc.Unambiguous ↔ doc.versions.Nodup := by
  refine ⟨Unambiguous.versions, fun versions => ⟨?_, versions⟩⟩
  rw [ids_eq_of_numbered numbered]
  exact versions.map (methodId_injective doc.id)

/-- A rotation keeps the document numbered. -/
theorem numbered_rotation (numbered : doc.Numbered)
    (rotation : Rotation build base58 doc call reply after) : after.Numbered := by
  intro method member
  rw [id_rotation rotation]
  rcases mem_rotation rotation member with ⟨old, earlier, rfl | ⟨time, rfl⟩⟩ | ⟨version, _, rfl⟩
  · exact numbered method earlier
  · exact numbered old earlier
  · rfl

/-- **One rotation keeps ids and versions distinct exactly if the next version is free.** -/
theorem unambiguous_rotation_iff (numbered : doc.Numbered) (unambiguous : doc.Unambiguous)
    (rotation : Rotation build base58 doc call reply after) :
    after.Unambiguous ↔ NextVersionFree build doc call := by
  rw [unambiguous_iff_versions (numbered_rotation numbered rotation), versions_rotation rotation]
  cases rotation with
  | missing unlisted =>
    refine iff_of_true (by simpa [added] using unambiguous.versions) fun old found => ?_
    exact absurd (mem_ids.mpr ⟨old, List.mem_of_find?_eq_some found, id_of_find? found⟩) unlisted
  | stopped index old found place fault overflow =>
    refine iff_of_true (by simpa [added] using unambiguous.versions) fun other here => ?_
    cases found.symm.trans here
    simp [overflow]
  | rotated index old found place version next =>
    have free : NextVersionFree build doc call ↔ version ∉ doc.versions := by
      simp only [NextVersionFree, found, Option.some.injEq, forall_eq', next, ne_eq,
        Except.ok.injEq, UInt64.toNat_inj, versions, List.mem_map, not_exists, not_and]
      exact forall₂_congr fun _ _ => not_congr eq_comm
    rw [free]
    show (doc.versions ++ [version]).Nodup ↔ _
    rw [List.nodup_append]
    constructor
    · exact fun apart member => apart.2.2 version member version (List.mem_singleton_self _) rfl
    · rintro new
      refine ⟨unambiguous.versions, List.nodup_singleton _, fun other member last here same => ?_⟩
      rw [List.mem_singleton.mp here] at same
      exact new (same ▸ member)

/-! ### Methods out of use -/

/-- The method that a rotation finds is out of use after it. -/
theorem retired_rotation (unambiguous : after.Unambiguous) (listed : call.oldKeyId ∈ doc.ids)
    (rotation : Rotation build base58 doc call reply after) : after.Retired call.oldKeyId := by
  have kept : call.oldKeyId ∈ after.ids := by
    rw [ids_rotation rotation]
    exact List.mem_append_left _ listed
  have found_out : ∀ (index : ℕ) (old : VerificationMethod),
      doc.verificationMethods.find? (·.id == call.oldKeyId) = some old →
      doc.verificationMethods[index]? = some old →
        ∃ method ∈ doc.verificationMethods.set index (deactivated old call.currentTimeMs),
          method.id = call.oldKeyId ∧ method.active = false := by
    intro index old found place
    obtain ⟨inside, _⟩ := List.getElem?_eq_some_iff.mp place
    have same := id_of_find? found
    exact ⟨deactivated old call.currentTimeMs, List.mem_set inside _, same, rfl⟩
  have taken : ∃ method ∈ after.verificationMethods,
      method.id = call.oldKeyId ∧ method.active = false := by
    cases rotation with
    | missing unlisted => exact absurd listed unlisted
    | stopped index old found place fault overflow => exact found_out index old found place
    | rotated index old found place version next =>
      obtain ⟨method, member, id, inactive⟩ := found_out index old found place
      exact ⟨method, List.mem_append_left _ member, id, inactive⟩
  obtain ⟨out, member, id, inactive⟩ := taken
  refine ⟨kept, fun method here same => ?_⟩
  have equal := List.inj_on_of_nodup_map unambiguous.ids here member (same.trans id.symm)
  rw [equal, inactive]

/-- What is out of use stays so. -/
theorem Retired.rotation {keyId : String} (retired : doc.Retired keyId) (unambiguous : after.Unambiguous)
    (rotation : Rotation build base58 doc call reply after) : after.Retired keyId := by
  have ids := ids_rotation rotation
  refine ⟨by rw [ids]; exact List.mem_append_left _ retired.listed, fun method member same => ?_⟩
  rcases mem_rotation rotation member with ⟨old, earlier, rfl | ⟨time, rfl⟩⟩ | ⟨version, rfl, rfl⟩
  · exact retired.inactive method earlier same
  · rfl
  · -- the new method has an id of its own
    have distinct := unambiguous.ids
    rw [ids, List.nodup_append] at distinct
    refine absurd rfl (distinct.2.2 keyId retired.listed keyId ?_)
    rw [← same]
    exact List.mem_singleton_self _

/-! ### The new key -/

theorem decodeMultibase_encode (inverts : base58.Inverts) (key : PublicKey) :
    decodeMultibase base58 ("z" ++ base58.encode key.toList) = .ok key := by
  have chars : ("z" ++ base58.encode key.toList).toList = 'z' :: (base58.encode key.toList).toList := by
    rw [String.toList_append]
    rfl
  simp only [decodeMultibase, chars, String.ofList_toList]
  rw [inverts]
  exact dif_pos key.length_eq

/-- The returned id stands for the new key. -/
theorem verifiesWith_rotation (inverts : base58.Inverts) (unambiguous : after.Unambiguous)
    {method : VerificationMethod} (returned : reply = .rotated method)
    (rotation : Rotation build base58 doc call reply after) :
    after.VerifiesWith ed25519 base58 method.id call.newPublicKey := by
  cases rotation with
  | missing unlisted => cases returned
  | stopped index old found place fault overflow => cases returned
  | rotated index old found place version next =>
    cases returned
    intro message signature
    -- none of the methods before the new one has its id
    have distinct := unambiguous.ids
    unfold ids at distinct
    rw [List.map_append, List.nodup_append] at distinct
    have others : (doc.verificationMethods.set index (deactivated old call.currentTimeMs)).find?
        (·.id == (newMethod base58 doc.id call version).id) = none := by
      rw [List.find?_eq_none]
      intro method member same
      exact distinct.2.2 _ (List.mem_map_of_mem member) _ (List.mem_singleton_self _)
        (eq_of_beq same)
    unfold verifyDidSignature
    dsimp only
    rw [List.find?_append, others, Option.none_or, List.find?_singleton, if_pos (by simp)]
    simp only [newMethod, decodeMultibase_encode inverts]
    rfl

/-! ### Whole runs -/

variable (build) (base58) in
/-- In every run from a numbered document, ids and versions stay distinct exactly while the next version
is free. -/
theorem throughout_unambiguous_iff {start : DidDocument} {calls : List RotateCall}
    (numbered : start.Numbered) (unambiguous : start.Unambiguous) :
    Throughout (step build base58) Unambiguous start calls ↔
      Along (step build base58) (NextVersionFree build) start calls :=
  throughout_iff_along
    (fun doc call numbered => numbered_rotation numbered (rotate_cases doc call))
    (fun doc call numbered unambiguous =>
      unambiguous_rotation_iff numbered unambiguous (rotate_cases doc call))
    numbered unambiguous

/-- What is out of use stays so while ids are distinct. -/
theorem Retired.run {keyId : String} {calls : List RotateCall} (retired : doc.Retired keyId)
    (unambiguous : Throughout (step build base58) Unambiguous doc calls) :
    (Foundation.run (step build base58) doc calls).Retired keyId := by
  induction calls generalizing doc with
  | nil => exact retired
  | cons call calls ih =>
    obtain ⟨_, rest⟩ := throughout_cons_iff.mp unambiguous
    exact ih (retired.rotation rest.head (rotate_cases doc call)) rest

/-- **The contract of rotation, and exactly when it is met.** From a document whose methods have distinct
versions and the ids that belong to them, a run of rotations keeps ids and versions distinct, leaves
rotated-out methods out of use, and answers each successful rotation with an id that stands for the new
key, precisely if no rotation is of a method whose next version is already there. -/
theorem keepsUnambiguous_iff (inverts : base58.Inverts) {start : DidDocument}
    {calls : List RotateCall} (unambiguous : start.Unambiguous) (numbered : start.Numbered) :
    KeepsUnambiguous build ed25519 base58 start calls ↔
      Along (step build base58) (NextVersionFree build) start calls := by
  rw [← throughout_unambiguous_iff build base58 numbered unambiguous]
  refine ⟨KeepsUnambiguous.unambiguous, fun throughout => ⟨throughout, ?_, ?_⟩⟩
  · intro before call between after split listed
    have calls_eq : calls = (before ++ [call]) ++ (between ++ after) := by rw [split]; simp
    have later := Throughout.part (calls_eq ▸ throughout)
    rw [run_append] at later
    have out := retired_rotation later.head listed (rotate_cases _ call)
    rw [run_append]
    exact out.run later
  · intro before call after split method returned
    have here : (run (step build base58) start (before ++ [call])).Unambiguous :=
      throughout (before ++ [call]) after (by rw [split, List.append_assoc]; rfl)
    rw [run_append] at here ⊢
    exact verifiesWith_rotation inverts here returned (rotate_cases _ call)

/-! ### Two rotations -/

/-- One character a byte: what base 58 is on 32 bytes of which only the last one, below nine, is not
zero. -/
def smallKeys : Base58 where
  encode bytes := String.ofList (bytes.map fun byte => Char.ofNat (49 + byte.toNat))
  decode text := .ok (text.toList.map fun c => UInt8.ofNat (c.toNat - 49))

theorem smallKeys_inverts : smallKeys.Inverts := by
  intro bytes
  have digit : ∀ byte : UInt8, UInt8.ofNat ((Char.ofNat (49 + byte.toNat)).toNat - 49) = byte := by
    intro byte
    have small := byte.toNat_lt
    rw [Char.toNat_ofNat, if_pos (Or.inl (by omega)), Nat.add_sub_cancel_left, UInt8.ofNat_toNat]
  simp [smallKeys, List.map_map, Function.comp_def, digit]

/-- A document with one method, of version 1. -/
def oneMethod : DidDocument where
  id := ⟨"did:exo:a"⟩
  verificationMethods := [newMethod smallKeys ⟨"did:exo:a"⟩
    { oldKeyId := "", newPublicKey := FixedBytes.fill 32 0, controller := ⟨"did:exo:a"⟩,
      currentTimeMs := 1000 } 1]
  updated := ⟨1000, 0⟩

theorem numbered_oneMethod : oneMethod.Numbered := by
  intro method member
  rw [List.mem_singleton.mp member]
  rfl

/-- A rotation to the key that ends in a byte. -/
def rotateTo (oldKeyId : String) (last : UInt8) (currentTimeMs : UInt64) : RotateCall where
  oldKeyId := oldKeyId
  newPublicKey := ⟨List.replicate 31 0 ++ [last], rfl⟩
  controller := ⟨"did:exo:a"⟩
  currentTimeMs := currentTimeMs

/-- Each key is rotated to the next. -/
theorem Succession.keeps_unambiguous :
    KeepsUnambiguous ⟨true⟩ (fun _ _ _ => true) smallKeys oneMethod
      [rotateTo "did:exo:a#key-1" 1 2000, rotateTo "did:exo:a#key-2" 2 3000] :=
  (keepsUnambiguous_iff smallKeys_inverts ⟨by decide, by decide⟩ numbered_oneMethod).mpr (by decide)

/-- **The first key is rotated twice**, and two methods have version 2 and one id. -/
theorem RotatedTwice.versions_clash :
    ¬ ∀ (start : DidDocument) (calls : List RotateCall), start.Unambiguous → start.Numbered →
        KeepsUnambiguous ⟨true⟩ (fun _ _ _ => true) smallKeys start calls := by
  intro claimed
  have keeps := claimed oneMethod
    [rotateTo "did:exo:a#key-1" 1 2000, rotateTo "did:exo:a#key-1" 2 3000]
    ⟨by decide, by decide⟩ numbered_oneMethod
  exact absurd keeps.unambiguous.last.versions (by decide)

end DidDocument

end Exochain.ExoIdentity
