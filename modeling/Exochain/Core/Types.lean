/-
**`exo-core` — the types every crate shares.**

Hashes, decentralized identifiers, signatures and hybrid logical timestamps, as `types.rs` has
them. The digest function `blake3` is a parameter throughout: nothing here or above depends on which
function it is, except where a result names the byte strings on which it must not collide.

* `Did.new` accepts `did:exo:` followed by at least one of `[a-zA-Z0-9_:-]`; the colon is in the
  alphabet, so an identifier may contain another one.
* `Did.asBytes` and `Timestamp.toLeBytes` are the two encodings that hash preimages are built from;
  both can be read back (`Did.asBytes_injective`, `Timestamp.toLeBytes_injective`).
-/

import Exochain.Foundation.Codes

namespace Exochain.ExoCore

open Foundation

/-! ### Hashes -/

/-- A 256-bit hash value. -/
abbrev Hash256 := FixedBytes 32

/-- Hashes are ordered as byte strings, so they can be the keys of a map. -/
instance Hash256.transOrd : Std.TransOrd Hash256 := inferInstance

instance Hash256.lawfulEqOrd : Std.LawfulEqOrd Hash256 := inferInstance

/-- The digest function, from byte strings to 256-bit values. -/
abbrev Blake3 := List UInt8 → Hash256

namespace Hash256

/-- The all-zero hash. -/
def zero : Hash256 := FixedBytes.fill 32 0

/-- The digest of arbitrary data. -/
def digest (blake3 : Blake3) (data : List UInt8) : Hash256 := blake3 data

/-- The bytes of a hash. -/
def asBytes (hash : Hash256) : List UInt8 := hash.toList

/-- The hexadecimal text of a hash, two digits a byte. -/
def display (hash : Hash256) : String :=
  String.ofList (hash.toList.flatMap fun byte =>
    [Nat.digitChar (byte.toNat / 16), Nat.digitChar (byte.toNat % 16)])

theorem length_display (hash : Hash256) : hash.display.length = 64 := by
  show (String.ofList (hash.toList.flatMap hexByte)).length = 64
  simp [List.length_flatMap, hexByte, hash.length_eq]

/-- **A hash can be read back from its text.** -/
theorem display_injective : Function.Injective display := by
  intro hash hash' same
  have digits : String.ofList (hash.toList.flatMap hexByte) =
      String.ofList (hash'.toList.flatMap hexByte) := same
  exact FixedBytes.ext (flatMap_hexByte_injective (String.ofList_injective digits))

/-- The debug rendering that error texts use. -/
def debug (hash : Hash256) : String := "Hash256(" ++ hash.display ++ ")"

end Hash256

/-! ### UUIDs -/

/-- A UUID, ordered as its bytes. -/
abbrev Uuid := FixedBytes 16

instance Uuid.transOrd : Std.TransOrd Uuid := inferInstance

/-- The text of a UUID: hexadecimal digits in groups of 8, 4, 4, 4 and 12. -/
def Uuid.display (id : Uuid) : String :=
  let hex (bytes : List UInt8) : List Char :=
    bytes.flatMap fun byte => [Nat.digitChar (byte.toNat / 16), Nat.digitChar (byte.toNat % 16)]
  let group (start length : ℕ) : List Char := hex ((id.toList.drop start).take length)
  String.ofList (group 0 4 ++ '-' :: group 4 2 ++ '-' :: group 6 2 ++ '-' :: group 8 2 ++
    '-' :: group 10 6)

/-! ### Identifiers -/

/-- The errors of the core operations modelled here. -/
inductive ExoError where
  | invalidTransition (source target : String)
  | invalidDid (value : String)
  | clockDrift (physicalMs toleranceMs : UInt64)
  | invariantViolation (description : String)
  | serializationError (reason : String)
  | invalidMerkleProof
  | receiptChainBroken (index : ℕ)
  deriving DecidableEq, Repr

/-- The text of an error. -/
def ExoError.display : ExoError → String
  | .invalidTransition source target => "invalid transition from " ++ source ++ " to " ++ target
  | .invalidDid value => "invalid DID: " ++ value
  | .clockDrift physicalMs toleranceMs =>
    "clock drift detected: physical=" ++ toString physicalMs ++ "ms, tolerance=" ++
      toString toleranceMs ++ "ms"
  | .invariantViolation description => "invariant violation: " ++ description
  | .serializationError reason => "serialization error: " ++ reason
  | .invalidMerkleProof => "invalid merkle proof"
  | .receiptChainBroken index => "receipt chain integrity failure at index " ++ toString index

/-- A decentralized identifier. The wrapped string is private to the source's module, but a
deserialized value is not validated, so no format is promised by the type. -/
@[ext]
structure Did where
  value : String
  deriving DecidableEq, Repr

namespace Did

theorem value_injective : Function.Injective Did.value := fun _ _ same => Did.ext same

/-- Identifiers are ordered as their strings. -/
instance : LinearOrder Did := LinearOrder.lift' value value_injective

instance transOrd : Std.TransOrd Did := inferInstance

instance : Std.LawfulEqOrd Did where
  eq_of_compare same := compare_eq_iff_eq.mp same

/-- The characters of the method-specific part. -/
def allowedChar (c : Char) : Bool := c.isAlphanum || c == '-' || c == '_' || c == ':'

/-- The text every identifier starts with. -/
def scheme : String := "did:exo:"

/-- What follows the scheme, if the string starts with it. -/
def stripScheme (value : String) : Option (List Char) :=
  if scheme.toList.isPrefixOf value.toList then some (value.toList.drop scheme.toList.length)
  else none

/-- The format check of an identifier. -/
def validate (value : String) : Except ExoError Unit :=
  match stripScheme value with
  | none => .error (.invalidDid value)
  | some rest =>
    if rest.isEmpty then .error (.invalidDid value)
    else if rest.all allowedChar then .ok ()
    else .error (.invalidDid value)

/-- Parse and validate an identifier. -/
def new (value : String) : Except ExoError Did := do
  validate value
  return ⟨value⟩

/-- The identifiers that `new` returns. -/
def Accepted (did : Did) : Prop := new did.value = .ok did

instance (did : Did) : Decidable did.Accepted :=
  inferInstanceAs (Decidable (new did.value = .ok did))

/-- The scheme and characters of the alphabet make an identifier. -/
theorem accepted_of_allowed {value : String} {rest : List Char}
    (split : value.toList = scheme.toList ++ rest) (nonempty : rest ≠ [])
    (allowed : ∀ c ∈ rest, allowedChar c = true) : Accepted ⟨value⟩ := by
  have stripped : stripScheme value = some rest := by
    have starts : scheme.toList.isPrefixOf (scheme.toList ++ rest) = true :=
      List.isPrefixOf_iff_prefix.mpr (List.prefix_append _ _)
    rw [stripScheme, split, if_pos starts, List.drop_left]
  have valid : validate value = .ok () := by
    rw [validate, stripped]
    dsimp only
    rw [if_neg (by simpa using nonempty), if_pos (List.all_eq_true.mpr allowed)]
  unfold Accepted new
  rw [valid]
  rfl

/-- The alphabet does not keep one identifier out of another. -/
example : Did.Accepted ⟨"did:exo:aaaaaaaaaaaaaaaaaaaaaaaadid:exo:x"⟩ := by decide

/-- The bytes of the identifier's string. -/
def asBytes (did : Did) : List UInt8 := did.value.toUTF8.data.toList

/-- **An identifier can be read back from its bytes.** -/
theorem asBytes_injective : Function.Injective asBytes := by
  intro first second same
  have arrays : first.value.toByteArray = second.value.toByteArray := by
    apply ByteArray.ext
    exact Array.toList_inj.mp same
  exact Did.ext (String.toByteArray_inj.mp arrays)

end Did

/-! ### Versions -/

/-- A version counter. -/
structure Version where
  value : UInt64
  deriving DecidableEq, Repr

namespace Version

/-- The initial version. -/
def zero : Version := ⟨0⟩

/-- The next version, a 64-bit increment. -/
def next (build : Build) (version : Version) : Except Fault Version := do
  let value ← build.add 64 version.value.toNat 1
  return ⟨UInt64.ofNat value⟩

end Version

/-! ### Signatures -/

/-- A signature of one of the supported algorithms. -/
inductive Signature where
  | ed25519 (bytes : FixedBytes 64)
  | postQuantum (bytes : List UInt8)
  | hybrid (classical : FixedBytes 64) (pq : List UInt8)
  | empty
  deriving DecidableEq

/-- The placeholder, in each of its spellings. -/
def Signature.isEmpty : Signature → Bool
  | .empty => true
  | .ed25519 bytes => bytes == FixedBytes.fill 64 0
  | .postQuantum bytes => bytes.isEmpty
  | .hybrid classical pq => classical == FixedBytes.fill 64 0 && pq.isEmpty

/-- A public key. -/
abbrev PublicKey := FixedBytes 32

/-- Ed25519 verification by the signature library: the key decodes and the signature of the message
passes under it. -/
abbrev Ed25519 := PublicKey → List UInt8 → FixedBytes 64 → Bool

/-- Verify an Ed25519 signature. The other algorithms need a key of another kind, so their signatures
are refused here. -/
def verify (ed25519 : Ed25519) (message : List UInt8) (signature : Signature) (key : PublicKey) :
    Bool :=
  match signature with
  | .ed25519 bytes => ed25519 key message bytes
  | .hybrid _ _ => false
  | .postQuantum _ => false
  | .empty => false

/-! ### Timestamps -/

/-- A hybrid logical clock reading. -/
@[ext]
structure Timestamp where
  physicalMs : UInt64
  logical : UInt32
  deriving DecidableEq

namespace Timestamp

/-- The genesis timestamp. -/
def zero : Timestamp := ⟨0, 0⟩

/-- The two components as numbers, physical time first. -/
def key (timestamp : Timestamp) : ℕ ×ₗ ℕ :=
  toLex (timestamp.physicalMs.toNat, timestamp.logical.toNat)

theorem key_injective : Function.Injective key := by
  intro first second same
  obtain ⟨physical, logical⟩ := Prod.mk.inj (toLex.injective same)
  exact Timestamp.ext (UInt64.toNat_inj.mp physical) (UInt32.toNat_inj.mp logical)

/-- Timestamps are ordered by physical time, then by the logical counter. -/
instance : LinearOrder Timestamp := LinearOrder.lift' key key_injective

theorem lt_iff {first second : Timestamp} :
    first < second ↔ first.physicalMs < second.physicalMs ∨
      first.physicalMs = second.physicalMs ∧ first.logical < second.logical := by
  show first.key < second.key ↔ _
  rw [key, key, Prod.Lex.toLex_lt_toLex, UInt64.lt_iff_toNat_lt, UInt32.lt_iff_toNat_lt,
    ← UInt64.toNat_inj]

/-- No timestamp is before the genesis timestamp. -/
protected theorem zero_le (timestamp : Timestamp) : zero ≤ timestamp := by
  rw [← not_lt, lt_iff]
  simp [zero]

/-- Whether the timestamp lies at or before `now`. -/
def isExpired (timestamp now : Timestamp) : Bool := decide (timestamp ≤ now)

/-- The debug rendering that error texts use. -/
def debug (timestamp : Timestamp) : String :=
  let physical := timestamp.physicalMs
  let logical := timestamp.logical
  s!"Timestamp({physical}:{logical})"

/-- The text of a timestamp. -/
def display (timestamp : Timestamp) : String :=
  toString timestamp.physicalMs ++ ":" ++ toString timestamp.logical

/-- The bytes of a timestamp in a hash preimage: both components, least significant byte first. -/
def toLeBytes (timestamp : Timestamp) : List UInt8 :=
  leBytes 8 timestamp.physicalMs.toNat ++ leBytes 4 timestamp.logical.toNat

@[simp] theorem length_toLeBytes (timestamp : Timestamp) : timestamp.toLeBytes.length = 12 := by
  rw [toLeBytes, List.length_append, length_leBytes, length_leBytes]

/-- **A timestamp can be read back from its bytes.** -/
theorem toLeBytes_injective : Function.Injective toLeBytes := by
  intro first second same
  obtain ⟨physical, logical⟩ := List.append_inj same (by simp)
  have physicalEq := leBytes_injective (first.physicalMs.toNat_lt) (second.physicalMs.toNat_lt)
    physical
  have logicalEq := leBytes_injective (first.logical.toNat_lt) (second.logical.toNat_lt) logical
  exact Timestamp.ext (UInt64.toNat_inj.mp physicalEq) (UInt32.toNat_inj.mp logicalEq)

end Timestamp

end Exochain.ExoCore
