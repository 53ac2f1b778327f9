/-
**`exo-identity` — what a risk attestation signs.**

The payload is the two identifiers, one right after the other, then fields of fixed width: the level, the
evidence hash and the physical parts of the two times. Read from its end it determines the fixed part and
the two identifiers as one text.

* `signed_eq_iff` — what equal payloads have in common.
* `boundary_cases` — an accepted identifier starts with the scheme, so the cut between the two can only
  move over a whole scheme inside the attester's identifier.
* **`payload_agrees_iff`** — equal payloads are those of one attestation exactly where no cut moved and no
  logical part of a time, which is not signed, differs.
* `assessed` — an assessment is signed as it is checked, and valid for its time, or for none if the milliseconds
  run over.
-/

import Exochain.Foundation.Collections
import Exochain.Core.Types

namespace Exochain.ExoIdentity

open Foundation ExoCore

/-! ### Attestations -/

/-- How risky an identity is held to be. -/
inductive RiskLevel where
  | minimal
  | low
  | medium
  | high
  | critical
  | unassessed
  deriving DecidableEq, Repr

/-- The byte of a level. -/
def RiskLevel.toByte : RiskLevel → UInt8
  | .minimal => 0
  | .low => 1
  | .medium => 2
  | .high => 3
  | .critical => 4
  | .unassessed => 5

theorem RiskLevel.toByte_injective : Function.Injective RiskLevel.toByte := by
  intro level level' same
  cases level <;> cases level' <;> first | rfl | exact absurd same (by decide)

/-- An attested risk level. -/
structure RiskAttestation where
  subjectDid : Did
  attesterDid : Did
  level : RiskLevel
  evidenceHash : FixedBytes 32
  timestamp : Timestamp
  expiry : Timestamp
  signature : Signature
  deriving DecidableEq

namespace RiskAttestation

/-- The bytes that are signed. -/
def signingPayload (subjectDid attesterDid : Did) (level : RiskLevel) (evidenceHash : FixedBytes 32)
    (timestamp expiry : Timestamp) : List UInt8 :=
  subjectDid.asBytes ++ attesterDid.asBytes ++ [level.toByte] ++ evidenceHash.toList ++
    leBytes 8 timestamp.physicalMs.toNat ++ leBytes 8 expiry.physicalMs.toNat

/-- The bytes whose signature is checked. -/
def signed (attestation : RiskAttestation) : List UInt8 :=
  signingPayload attestation.subjectDid attestation.attesterDid attestation.level
    attestation.evidenceHash attestation.timestamp attestation.expiry

/-- Check the signature of an attestation. -/
def verifyAttestation (ed25519 : Ed25519) (attestation : RiskAttestation) (attesterKey : PublicKey) :
    Bool := verify ed25519 attestation.signed attestation.signature attesterKey

/-! ### What is attested -/

/-- The two attestations say the same. -/
structure Agrees (attestation other : RiskAttestation) : Prop where
  subjectDid : attestation.subjectDid = other.subjectDid
  attesterDid : attestation.attesterDid = other.attesterDid
  level : attestation.level = other.level
  evidenceHash : attestation.evidenceHash = other.evidenceHash
  timestamp : attestation.timestamp = other.timestamp
  expiry : attestation.expiry = other.expiry

theorem Agrees.symm {attestation other : RiskAttestation} (agrees : Agrees attestation other) :
    Agrees other attestation :=
  ⟨agrees.subjectDid.symm, agrees.attesterDid.symm, agrees.level.symm, agrees.evidenceHash.symm,
    agrees.timestamp.symm, agrees.expiry.symm⟩

/-- The parts of fixed width are the same. -/
structure SameFixed (attestation other : RiskAttestation) : Prop where
  level : attestation.level = other.level
  evidenceHash : attestation.evidenceHash = other.evidenceHash
  timestamp : attestation.timestamp.physicalMs = other.timestamp.physicalMs
  expiry : attestation.expiry.physicalMs = other.expiry.physicalMs

theorem SameFixed.symm {attestation other : RiskAttestation} (same : SameFixed attestation other) :
    SameFixed other attestation :=
  ⟨same.level.symm, same.evidenceHash.symm, same.timestamp.symm, same.expiry.symm⟩

/-- **The cut moved**: the other subject takes in the start of this attester, which is a scheme and what
follows it. -/
def BoundaryMoved (attestation other : RiskAttestation) : Prop :=
  SameFixed attestation other ∧ ∃ rest : String,
    other.subjectDid.value = attestation.subjectDid.value ++ (Did.scheme ++ rest) ∧
      attestation.attesterDid.value = Did.scheme ++ rest ++ other.attesterDid.value

/-- **A logical part differs**, and nothing else. -/
def LogicalMoved (attestation other : RiskAttestation) : Prop :=
  SameFixed attestation other ∧ attestation.subjectDid = other.subjectDid ∧
    attestation.attesterDid = other.attesterDid ∧
      (attestation.timestamp.logical ≠ other.timestamp.logical ∨
        attestation.expiry.logical ≠ other.expiry.logical)

variable {attestation other : RiskAttestation}

/-! ### Reading a payload -/

/-- The two identifiers as one text. -/
def dids (attestation : RiskAttestation) : String :=
  attestation.subjectDid.value ++ attestation.attesterDid.value

theorem signed_eq (attestation : RiskAttestation) :
    attestation.signed = textBytes attestation.dids ++ [attestation.level.toByte] ++
      attestation.evidenceHash.toList ++ leBytes 8 attestation.timestamp.physicalMs.toNat ++
        leBytes 8 attestation.expiry.physicalMs.toNat := by
  rw [dids, textBytes_append]
  rfl

/-- **What equal payloads have in common.** -/
theorem signed_eq_iff :
    attestation.signed = other.signed ↔
      SameFixed attestation other ∧ attestation.dids = other.dids := by
  rw [signed_eq, signed_eq]
  constructor
  · intro same
    obtain ⟨same, expiries⟩ := List.append_inj' same (by simp)
    obtain ⟨same, timestamps⟩ := List.append_inj' same (by simp)
    obtain ⟨same, hashes⟩ := List.append_inj' same
      (attestation.evidenceHash.length_eq.trans other.evidenceHash.length_eq.symm)
    obtain ⟨texts, levels⟩ := List.append_inj' same rfl
    have expiryEq := leBytes_injective attestation.expiry.physicalMs.toNat_lt
      other.expiry.physicalMs.toNat_lt expiries
    have timestampEq := leBytes_injective attestation.timestamp.physicalMs.toNat_lt
      other.timestamp.physicalMs.toNat_lt timestamps
    exact ⟨⟨RiskLevel.toByte_injective (List.singleton_inj.mp levels), FixedBytes.ext hashes,
      UInt64.toNat_inj.mp timestampEq, UInt64.toNat_inj.mp expiryEq⟩, textBytes_injective texts⟩
  · rintro ⟨same, texts⟩
    rw [same.level, same.evidenceHash, same.timestamp, same.expiry, texts]

/-! ### Where the cut can be -/

/-- The text of an accepted identifier starts with the scheme. -/
theorem starts_with_scheme {did : Did} (accepted : did.Accepted) :
    Did.scheme.toList <+: did.value.toList := by
  unfold Did.Accepted Did.new Did.validate Did.stripScheme at accepted
  by_cases starts : Did.scheme.toList.isPrefixOf did.value.toList
  · exact List.isPrefixOf_iff_prefix.mp starts
  · simp [starts, bind, Except.bind] at accepted

/-- **No end of the scheme is a start of it**, so of two texts that start with it the second cannot begin
inside the scheme of the first. -/
theorem scheme_starts_cut {cut text : List Char} (nonempty : cut ≠ [])
    (starts : Did.scheme.toList <+: cut ++ text) (starts' : Did.scheme.toList <+: text) :
    Did.scheme.toList <+: cut := by
  have borderless : ∀ k < 8, 0 < k →
      ¬ Did.scheme.toList.drop k <+: Did.scheme.toList := by decide
  rcases List.prefix_or_prefix_of_prefix starts (List.prefix_append cut text) with whole | inside
  · exact whole
  · obtain ⟨tail, split⟩ := inside
    have positive : 0 < cut.length := List.length_pos_iff.mpr nonempty
    have tail_eq : tail = Did.scheme.toList.drop cut.length := by rw [← split, List.drop_left]
    have overlap : tail <+: text := by
      rw [← split] at starts
      exact (List.prefix_append_right_inj cut).mp starts
    have short : cut.length + tail.length = 8 := by
      rw [← List.length_append, split]
      rfl
    have border : tail <+: Did.scheme.toList := by
      rcases List.prefix_or_prefix_of_prefix overlap starts' with here | there
      · exact here
      · have fits := there.length_le
        have width : Did.scheme.toList.length = 8 := rfl
        omega
    by_cases within : cut.length < 8
    · exact absurd (tail_eq ▸ border) (borderless _ within positive)
    · have none : tail = [] := List.length_eq_zero_iff.mp (by omega)
      rw [none, List.append_nil] at split
      exact split ▸ List.prefix_rfl

/-- **Two pairs of identifiers that make one text** are cut at the same place, or a scheme and what
follows it lies between the two cuts. -/
theorem boundary_cases (accepted : attestation.attesterDid.Accepted)
    (accepted' : other.attesterDid.Accepted) {cut : List Char}
    (longer : other.subjectDid.value.toList = attestation.subjectDid.value.toList ++ cut)
    (rest : attestation.attesterDid.value.toList = cut ++ other.attesterDid.value.toList) :
    (attestation.subjectDid = other.subjectDid ∧ attestation.attesterDid = other.attesterDid) ∨
      ∃ after : String,
        other.subjectDid.value = attestation.subjectDid.value ++ (Did.scheme ++ after) ∧
          attestation.attesterDid.value = Did.scheme ++ after ++ other.attesterDid.value := by
  by_cases empty : cut = []
  · rw [empty, List.append_nil] at longer
    rw [empty, List.nil_append] at rest
    exact .inl ⟨Did.ext (String.toList_injective longer.symm),
      Did.ext (String.toList_injective rest)⟩
  · have starts := starts_with_scheme accepted
    rw [rest] at starts
    obtain ⟨after, rfl⟩ := scheme_starts_cut empty starts (starts_with_scheme accepted')
    refine .inr ⟨String.ofList after, ?_, ?_⟩
    · apply String.toList_injective
      rw [longer, String.toList_append, String.toList_append, String.toList_ofList]
    · apply String.toList_injective
      rw [rest, String.toList_append, String.toList_append, String.toList_ofList]

/-- Attestations that agree but for the logical parts of their times. -/
theorem agrees_or_logicalMoved (same : SameFixed attestation other)
    (subjects : attestation.subjectDid = other.subjectDid)
    (attesters : attestation.attesterDid = other.attesterDid) :
    Agrees attestation other ∨ LogicalMoved attestation other := by
  by_cases logical : attestation.timestamp.logical = other.timestamp.logical ∧
      attestation.expiry.logical = other.expiry.logical
  · exact .inl ⟨subjects, attesters, same.level, same.evidenceHash,
      Timestamp.ext same.timestamp logical.1, Timestamp.ext same.expiry logical.2⟩
  · exact .inr ⟨same, subjects, attesters, not_and_or.mp logical⟩

/-- **Equal payloads**: the attestations agree, the cut moved, or a logical part differs. -/
theorem agrees_or_moved (accepted : attestation.attesterDid.Accepted)
    (accepted' : other.attesterDid.Accepted) (equal : attestation.signed = other.signed) :
    Agrees attestation other ∨ BoundaryMoved attestation other ∨ BoundaryMoved other attestation ∨
      LogicalMoved attestation other := by
  obtain ⟨same, texts⟩ := signed_eq_iff.mp equal
  have chars := congrArg String.toList texts
  rw [dids, dids, String.toList_append, String.toList_append] at chars
  have aligned : attestation.subjectDid = other.subjectDid →
      attestation.attesterDid = other.attesterDid →
        Agrees attestation other ∨ BoundaryMoved attestation other ∨
          BoundaryMoved other attestation ∨ LogicalMoved attestation other := by
    intro subjects attesters
    rcases agrees_or_logicalMoved same subjects attesters with agrees | moved
    · exact .inl agrees
    · exact .inr (.inr (.inr moved))
  rcases List.append_eq_append_iff.mp chars with ⟨cut, longer, rest⟩ | ⟨cut, longer, rest⟩
  · rcases boundary_cases accepted accepted' longer rest with ⟨subjects, attesters⟩ | moved
    · exact aligned subjects attesters
    · exact .inr (.inl ⟨same, moved⟩)
  · rcases boundary_cases accepted' accepted longer rest with ⟨subjects, attesters⟩ | moved
    · exact aligned subjects.symm attesters.symm
    · exact .inr (.inr (.inl ⟨same.symm, moved⟩))

/-! ### What moved has one payload and says something else -/

theorem BoundaryMoved.signed_eq (moved : BoundaryMoved attestation other) :
    attestation.signed = other.signed := by
  obtain ⟨same, rest, longer, shorter⟩ := moved
  refine signed_eq_iff.mpr ⟨same, ?_⟩
  simp only [dids, longer, shorter, String.append_assoc]

theorem BoundaryMoved.not_agrees (moved : BoundaryMoved attestation other) :
    ¬ Agrees attestation other := by
  obtain ⟨_, rest, longer, _⟩ := moved
  intro agrees
  have lengths := congrArg String.length longer
  rw [agrees.subjectDid, String.length_append, String.length_append] at lengths
  have width : Did.scheme.length = 8 := by decide
  omega

theorem LogicalMoved.signed_eq (moved : LogicalMoved attestation other) :
    attestation.signed = other.signed := by
  obtain ⟨same, subjects, attesters, _⟩ := moved
  refine signed_eq_iff.mpr ⟨same, ?_⟩
  rw [dids, dids, subjects, attesters]

theorem LogicalMoved.not_agrees (moved : LogicalMoved attestation other) :
    ¬ Agrees attestation other := by
  obtain ⟨_, _, _, different⟩ := moved
  intro agrees
  rcases different with timestamps | expiries
  · exact timestamps (congrArg Timestamp.logical agrees.timestamp)
  · exact expiries (congrArg Timestamp.logical agrees.expiry)

/-- **What a signed payload binds**: attestations with accepted identifiers and one payload agree exactly
where no cut between the identifiers moved and no logical part of a time differs. -/
theorem payload_agrees_iff (accepted : attestation.attesterDid.Accepted)
    (accepted' : other.attesterDid.Accepted) :
    (attestation.signed = other.signed → Agrees attestation other) ↔
      ¬ (BoundaryMoved attestation other ∨ BoundaryMoved other attestation ∨
        LogicalMoved attestation other) := by
  refine ⟨?_, fun still equal => (agrees_or_moved accepted accepted' equal).resolve_right still⟩
  rintro binds (moved | moved | moved)
  · exact moved.not_agrees (binds moved.signed_eq)
  · exact moved.not_agrees (binds moved.signed_eq.symm).symm
  · exact moved.not_agrees (binds moved.signed_eq)

/-- A signature that is moved to an attestation with the same payload still passes. -/
theorem verifyAttestation_of_signed_eq {ed25519 : Ed25519} {key : PublicKey}
    (equal : attestation.signed = other.signed) (signature : attestation.signature = other.signature) :
    verifyAttestation ed25519 attestation key = verifyAttestation ed25519 other key := by
  rw [verifyAttestation, verifyAttestation, equal, signature]

end RiskAttestation

/-! ### Assessments -/

/-- What an assessment is made from. -/
structure RiskContext where
  attesterDid : Did
  evidence : List UInt8
  now : Timestamp
  validityMs : UInt64
  level : RiskLevel

/-- Assess a subject; the signature is that of the attester. -/
def assessRisk (build : Build) (blake3 : Blake3) (sign : List UInt8 → Signature) (subject : Did)
    (context : RiskContext) : Except Fault RiskAttestation := do
  let evidenceHash := blake3 context.evidence
  let expiryMs ← build.add 64 context.now.physicalMs.toNat context.validityMs.toNat
  let expiry : Timestamp := ⟨UInt64.ofNat expiryMs, 0⟩
  let payload := RiskAttestation.signingPayload subject context.attesterDid context.level evidenceHash
    context.now expiry
  return ⟨subject, context.attesterDid, context.level, evidenceHash, context.now, expiry, sign payload⟩

/-- Whether an attestation has expired, by the milliseconds. -/
def RiskAttestation.isExpired (attestation : RiskAttestation) (now : Timestamp) : Bool :=
  attestation.expiry.physicalMs ≤ now.physicalMs

/-- The greatest level that each operation allows. -/
structure RiskPolicy where
  thresholds : BTreeMap String RiskLevel

namespace RiskPolicy

def new : RiskPolicy := ⟨∅⟩

def setThreshold (policy : RiskPolicy) (operation : String) (maxLevel : RiskLevel) : RiskPolicy :=
  ⟨policy.thresholds.insert operation maxLevel⟩

/-- Whether an operation allows a level; one without a threshold allows none. -/
def isAcceptable (policy : RiskPolicy) (operation : String) (level : RiskLevel) : Bool :=
  match policy.thresholds[operation]? with
  | some max => level.toByte ≤ max.toByte
  | none => false

end RiskPolicy

section Assessments

variable {build : Build} {blake3 : Blake3} {sign : List UInt8 → Signature} {subject : Did}
  {context : RiskContext} {attestation : RiskAttestation}

/-- **What an assessment is**: signed as it is checked, and valid for its time, unless the milliseconds run over
while nothing checks for that; then it has expired when it is made. -/
theorem assessed (made : assessRisk build blake3 sign subject context = .ok attestation) :
    attestation.signature = sign attestation.signed ∧
    (context.now.physicalMs.toNat + context.validityMs.toNat < 2 ^ 64 → ∀ time : Timestamp,
      attestation.isExpired time = true ↔
        context.now.physicalMs.toNat + context.validityMs.toNat ≤ time.physicalMs.toNat) ∧
    (2 ^ 64 ≤ context.now.physicalMs.toNat + context.validityMs.toNat → ∀ time : Timestamp,
      context.now.physicalMs ≤ time.physicalMs → attestation.isExpired time = true) := by
  obtain ⟨expiryMs, added, made⟩ := bind_eq_ok_iff.mp made
  cases made
  have bounded := Build.lt_of_add_eq_ok added
  refine ⟨rfl, fun fits time => ?_, fun overflows time later => ?_⟩
  · rw [Build.add_of_lt fits] at added
    cases added
    rw [RiskAttestation.isExpired, decide_eq_true_iff, UInt64.le_iff_toNat_le,
      UInt64.toNat_ofNat_of_lt' bounded]
  · unfold Build.add Build.overflow at added
    rw [if_neg (by omega)] at added
    split at added
    · cases added
    · cases added
      have width := UInt64.toNat_lt context.validityMs
      have start := UInt64.toNat_lt context.now.physicalMs
      rw [RiskAttestation.isExpired, decide_eq_true_iff, UInt64.le_iff_toNat_le,
        UInt64.toNat_ofNat_of_lt' bounded]
      rw [UInt64.le_iff_toNat_le] at later
      omega

end Assessments

namespace Relabelled

/-- An attester whose identifier contains another one. -/
def original : RiskAttestation where
  subjectDid := ⟨"did:exo:a"⟩
  attesterDid := ⟨"did:exo:bdid:exo:c"⟩
  level := .low
  evidenceHash := FixedBytes.fill 32 0
  timestamp := ⟨1000, 0⟩
  expiry := ⟨2000, 0⟩
  signature := .empty

/-- Another subject, attested by the identifier that was inside. -/
def relabelled : RiskAttestation :=
  { original with subjectDid := ⟨"did:exo:adid:exo:b"⟩, attesterDid := ⟨"did:exo:c"⟩ }

/-- At another level nothing can move. -/
theorem levels_kept_apart : original.signed ≠ { relabelled with level := .critical }.signed := by
  intro equal
  have agrees := (RiskAttestation.payload_agrees_iff (by decide) (by decide)).mpr
    (by
      rintro (⟨same, _⟩ | ⟨same, _⟩ | ⟨same, _⟩)
      · exact absurd same.level (by decide)
      · exact absurd same.level (by decide)
      · exact absurd same.level (by decide)) equal
  exact absurd agrees.level (by decide)

/-- **One payload for two subjects and two attesters**, all of them accepted identifiers. -/
theorem attests_two_subjects :
    ¬ ∀ attestation other : RiskAttestation,
      attestation.subjectDid.Accepted → attestation.attesterDid.Accepted →
      other.subjectDid.Accepted → other.attesterDid.Accepted →
      attestation.signed = other.signed → attestation.Agrees other := by
  intro binds
  have moved : original.BoundaryMoved relabelled :=
    ⟨⟨rfl, rfl, rfl, rfl⟩, "b", by decide, by decide⟩
  exact moved.not_agrees (binds original relabelled (by decide) (by decide) (by decide) (by decide)
    moved.signed_eq)

end Relabelled

end Exochain.ExoIdentity
