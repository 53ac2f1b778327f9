/-
**`decision-forum` — the fiduciary defense package.**

A package documents the four prongs of the business judgment rule for a decision and is sealed with a
hash over them. The hashed string strings the prongs together: the numbers have fixed widths, but the
lists of hashes come without their lengths, and a hash that is absent leaves no trace. So the hashes of
one list can be read as the numbers after it, and an absent hash as the first of the next list.

* `front_eq_iff` — what can be read back once the lengths of the lists are known.
* **`seal_binds_iff`** — two verified packages with one seal agree in all four prongs exactly if their
  lists have the same lengths and the same hashes are absent.
* `Sample.risk_assessment_moved` — a package with a risk assessment, and one without, under one seal.
-/

import Exochain.Foundation.Blake3
import Exochain.Foundation.Codes
import Exochain.Foundation.Merkle
import Exochain.Core.Types

set_option linter.unusedSectionVars false

namespace Exochain.DecisionForum

open Foundation ExoCore

/-! ### Prongs and packages -/

/-- Evidence for the first prong. The numbers are those of a 64-bit target. -/
structure ProngDisinterestedness where
  totalMembers : UInt64
  recusedCount : UInt64
  disinterestedVoters : UInt64
  majorityDisinterested : Bool
  disclosureRecordHashes : List Hash256
  deriving DecidableEq

/-- Evidence for the second prong. -/
structure ProngInformedBasis where
  votersWhoReviewed : UInt64
  totalVoters : UInt64
  evidenceManifestHashes : List Hash256
  materialsCompleteBeforeVote : Bool
  deriving DecidableEq

/-- Evidence for the third prong. -/
structure ProngGoodFaith where
  alternativesCount : UInt64
  dissentRecords : UInt64
  deliberationHashes : List Hash256
  processCompliant : Bool
  deriving DecidableEq

/-- Evidence for the fourth prong. -/
structure ProngRationalBasis where
  selectedRationaleHash : Option Hash256
  riskAssessmentHash : Option Hash256
  supportingEvidenceHashes : List Hash256
  deriving DecidableEq

/-- The package of a decision. -/
structure FiduciaryDefensePackage where
  decisionHash : Hash256
  prongDisinterestedness : ProngDisinterestedness
  prongInformedBasis : ProngInformedBasis
  prongGoodFaith : ProngGoodFaith
  prongRationalBasis : ProngRationalBasis
  packageHash : Hash256
  disclaimer : String
  deriving DecidableEq

/-! ### The seal -/

/-- The byte of a flag. -/
def flagBytes (flag : Bool) : List UInt8 := [if flag then 1 else 0]

theorem flagBytes_injective : Function.Injective flagBytes := by decide

/-- The bytes of a hash that may be absent. -/
def optionalBytes : Option Hash256 → List UInt8
  | some hash => hash.asBytes
  | none => []

/-- The string that is hashed for the seal. -/
def packageString (decisionHash : Hash256) (p1 : ProngDisinterestedness) (p2 : ProngInformedBasis)
    (p3 : ProngGoodFaith) (p4 : ProngRationalBasis) : List UInt8 :=
  textBytes "fjp:v1:" ++ decisionHash.asBytes ++
    wordBytes p1.totalMembers ++ wordBytes p1.recusedCount ++ wordBytes p1.disinterestedVoters ++
    flagBytes p1.majorityDisinterested ++ concatBlocks p1.disclosureRecordHashes ++
    wordBytes p2.votersWhoReviewed ++ wordBytes p2.totalVoters ++
    flagBytes p2.materialsCompleteBeforeVote ++ concatBlocks p2.evidenceManifestHashes ++
    wordBytes p3.alternativesCount ++ wordBytes p3.dissentRecords ++
    flagBytes p3.processCompliant ++ concatBlocks p3.deliberationHashes ++
    optionalBytes p4.selectedRationaleHash ++ optionalBytes p4.riskAssessmentHash ++
    concatBlocks p4.supportingEvidenceHashes

/-- The hash that seals a package. -/
def computePackageHash (blake3 : Blake3) (decisionHash : Hash256) (p1 : ProngDisinterestedness)
    (p2 : ProngInformedBasis) (p3 : ProngGoodFaith) (p4 : ProngRationalBasis) : Hash256 :=
  blake3 (packageString decisionHash p1 p2 p3 p4)

namespace FiduciaryDefensePackage

/-- The disclaimer of every generated package. -/
def defaultDisclaimer : String :=
  "This package is a structured evidentiary aid, not a legal opinion. " ++
    "Review by qualified counsel is required before use in litigation."

/-- Generate a package and seal it. -/
def generate (blake3 : Blake3) (decisionHash : Hash256) (p1 : ProngDisinterestedness)
    (p2 : ProngInformedBasis) (p3 : ProngGoodFaith) (p4 : ProngRationalBasis) :
    FiduciaryDefensePackage where
  decisionHash := decisionHash
  prongDisinterestedness := p1
  prongInformedBasis := p2
  prongGoodFaith := p3
  prongRationalBasis := p4
  packageHash := computePackageHash blake3 decisionHash p1 p2 p3 p4
  disclaimer := defaultDisclaimer

/-- Verify the seal of a package. -/
def verify (blake3 : Blake3) (package : FiduciaryDefensePackage) : Bool :=
  computePackageHash blake3 package.decisionHash package.prongDisinterestedness
    package.prongInformedBasis package.prongGoodFaith package.prongRationalBasis ==
      package.packageHash

/-- The string that is hashed for the seal, from the package. -/
def string (package : FiduciaryDefensePackage) : List UInt8 :=
  packageString package.decisionHash package.prongDisinterestedness package.prongInformedBasis
    package.prongGoodFaith package.prongRationalBasis

theorem verify_eq_true_iff {blake3 : Blake3} {package : FiduciaryDefensePackage} :
    package.verify blake3 = true ↔ blake3 package.string = package.packageHash := beq_iff_eq

/-- A generated package verifies. -/
theorem verify_generate (blake3 : Blake3) (decisionHash : Hash256) (p1 : ProngDisinterestedness)
    (p2 : ProngInformedBasis) (p3 : ProngGoodFaith) (p4 : ProngRationalBasis) :
    (generate blake3 decisionHash p1 p2 p3 p4).verify blake3 = true :=
  verify_eq_true_iff.mpr rfl

/-! ### What the seal determines -/

/-- The two packages agree on the decision and on every field of the prongs. -/
structure SameContent (package other : FiduciaryDefensePackage) : Prop where
  decisionHash : package.decisionHash = other.decisionHash
  disinterestedness : package.prongDisinterestedness = other.prongDisinterestedness
  informedBasis : package.prongInformedBasis = other.prongInformedBasis
  goodFaith : package.prongGoodFaith = other.prongGoodFaith
  rationalBasis : package.prongRationalBasis = other.prongRationalBasis

/-- The lists before the last have the same lengths, and the same hashes are absent. -/
structure SameShape (package other : FiduciaryDefensePackage) : Prop where
  disclosures : package.prongDisinterestedness.disclosureRecordHashes.length =
    other.prongDisinterestedness.disclosureRecordHashes.length
  manifest : package.prongInformedBasis.evidenceManifestHashes.length =
    other.prongInformedBasis.evidenceManifestHashes.length
  deliberations : package.prongGoodFaith.deliberationHashes.length =
    other.prongGoodFaith.deliberationHashes.length
  rationale : package.prongRationalBasis.selectedRationaleHash.isSome =
    other.prongRationalBasis.selectedRationaleHash.isSome
  risk : package.prongRationalBasis.riskAssessmentHash.isSome =
    other.prongRationalBasis.riskAssessmentHash.isSome

/-- What is hashed before the supporting evidence, field by field. -/
def front (package : FiduciaryDefensePackage) : List (List UInt8) :=
  [package.decisionHash.asBytes, wordBytes package.prongDisinterestedness.totalMembers,
    wordBytes package.prongDisinterestedness.recusedCount,
    wordBytes package.prongDisinterestedness.disinterestedVoters,
    flagBytes package.prongDisinterestedness.majorityDisinterested,
    concatBlocks package.prongDisinterestedness.disclosureRecordHashes,
    wordBytes package.prongInformedBasis.votersWhoReviewed,
    wordBytes package.prongInformedBasis.totalVoters,
    flagBytes package.prongInformedBasis.materialsCompleteBeforeVote,
    concatBlocks package.prongInformedBasis.evidenceManifestHashes,
    wordBytes package.prongGoodFaith.alternativesCount,
    wordBytes package.prongGoodFaith.dissentRecords,
    flagBytes package.prongGoodFaith.processCompliant,
    concatBlocks package.prongGoodFaith.deliberationHashes,
    optionalBytes package.prongRationalBasis.selectedRationaleHash,
    optionalBytes package.prongRationalBasis.riskAssessmentHash]

section Binding

variable {package other : FiduciaryDefensePackage}

theorem string_eq (package : FiduciaryDefensePackage) :
    package.string = textBytes "fjp:v1:" ++ (package.front.flatten ++
      concatBlocks package.prongRationalBasis.supportingEvidenceHashes) := by
  delta string packageString front
  simp only [List.flatten_cons, List.flatten_nil, List.append_assoc, List.append_nil]

theorem length_optionalBytes (hash : Option Hash256) :
    (optionalBytes hash).length = if hash.isSome then 32 else 0 := by
  cases hash with
  | none => rfl
  | some hash => exact hash.length_eq

/-- Hashes that are both absent or both present can be read back. -/
theorem optionalBytes_inj {hash hash' : Option Hash256} (present : hash.isSome = hash'.isSome)
    (same : optionalBytes hash = optionalBytes hash') : hash = hash' := by
  cases hash with
  | none => exact (Option.isNone_iff_eq_none.mp (by simpa using present.symm)).symm
  | some hash =>
    cases hash' with
    | none => cases present
    | some hash' => exact congrArg some (FixedBytes.ext same)

/-- The lengths of the fields in front are given by the shape. -/
theorem lengths_front (shape : package.SameShape other) :
    package.front.map List.length = other.front.map List.length := by
  simp only [front, List.map_cons, List.map_nil, length_wordBytes, length_concatBlocks,
    length_optionalBytes, Hash256.asBytes, FixedBytes.length_eq, flagBytes, List.length_singleton,
    shape.disclosures, shape.manifest, shape.deliberations, shape.rationale, shape.risk]

/-- **What can be read back in front**, once the lengths are known. -/
theorem front_eq_iff (shape : package.SameShape other) :
    package.front = other.front ↔
      package.decisionHash = other.decisionHash ∧
      package.prongDisinterestedness = other.prongDisinterestedness ∧
      package.prongInformedBasis = other.prongInformedBasis ∧
      package.prongGoodFaith = other.prongGoodFaith ∧
      package.prongRationalBasis.selectedRationaleHash =
        other.prongRationalBasis.selectedRationaleHash ∧
      package.prongRationalBasis.riskAssessmentHash = other.prongRationalBasis.riskAssessmentHash := by
  have blocks := @concatBlocks_injective 32 (by omega)
  constructor
  · intro same
    simp only [front, List.cons.injEq, and_true] at same
    obtain ⟨decision, members, recused, voters, majority, disclosures, reviewed, total, complete,
      manifest, alternatives, dissent, compliant, deliberations, rationale, risk⟩ := same
    refine ⟨FixedBytes.ext decision, ?_, ?_, ?_, optionalBytes_inj shape.rationale rationale,
      optionalBytes_inj shape.risk risk⟩
    · exact (ProngDisinterestedness.mk.injEq ..).mpr ⟨wordBytes_injective members,
        wordBytes_injective recused, wordBytes_injective voters, flagBytes_injective majority,
        blocks disclosures⟩
    · exact (ProngInformedBasis.mk.injEq ..).mpr ⟨wordBytes_injective reviewed,
        wordBytes_injective total, blocks manifest, flagBytes_injective complete⟩
    · exact (ProngGoodFaith.mk.injEq ..).mpr ⟨wordBytes_injective alternatives,
        wordBytes_injective dissent, blocks deliberations, flagBytes_injective compliant⟩
  · rintro ⟨decision, first, second, third, rationale, risk⟩
    simp only [front, decision, first, second, third, rationale, risk]

/-- Packages hashed as one string have the same content exactly if they have the same shape. -/
theorem sameContent_iff_sameShape (same : package.string = other.string) :
    package.SameContent other ↔ package.SameShape other := by
  constructor
  · rintro ⟨-, first, second, third, fourth⟩
    exact ⟨by rw [first], by rw [second], by rw [third], by rw [fourth], by rw [fourth]⟩
  · intro shape
    rw [string_eq, string_eq, List.append_cancel_left_eq] at same
    have lengths := lengths_front shape
    obtain ⟨fronts, supporting⟩ := List.append_inj same (by
      rw [List.length_flatten, List.length_flatten, lengths])
    obtain ⟨decision, first, second, third, rationale, risk⟩ :=
      (front_eq_iff shape).mp (List.eq_iff_flatten_eq.mpr ⟨fronts, lengths⟩)
    refine ⟨decision, first, second, third, ?_⟩
    exact (ProngRationalBasis.mk.injEq ..).mpr
      ⟨rationale, risk, concatBlocks_injective (by omega) supporting⟩

/-- **Packages with one seal.** Two verified packages with the same package hash, whose hashed strings
do not collide, agree on the decision hash and on every field of the four prongs exactly if their lists
of disclosures, of evidence and of deliberations have the same lengths and both or neither have a
rationale and a risk assessment. -/
theorem seal_binds_iff (blake3 : Blake3) (verified : package.verify blake3 = true)
    (verified' : other.verify blake3 = true) (same : package.packageHash = other.packageHash)
    (free : ¬ CollisionIn blake3 [package.string, other.string]) :
    package.SameContent other ↔ package.SameShape other := by
  refine sameContent_iff_sameShape (eq_of_hash_eq free (by simp) (by simp) ?_)
  rw [verify_eq_true_iff.mp verified, verify_eq_true_iff.mp verified', same]

end Binding

end FiduciaryDefensePackage

namespace Sample

/-- A package with its fourth prong open. -/
def packageWith (p4 : ProngRationalBasis) : FiduciaryDefensePackage :=
  .generate Blake3.hash (FixedBytes.fill 32 7) ⟨5, 1, 4, true, [FixedBytes.fill 32 1]⟩
    ⟨4, 4, [FixedBytes.fill 32 2], true⟩ ⟨3, 1, [FixedBytes.fill 32 3], true⟩ p4

/-- With a rationale and a risk assessment. -/
def assessed : FiduciaryDefensePackage :=
  packageWith ⟨some (FixedBytes.fill 32 4), some (FixedBytes.fill 32 5), []⟩

/-- The same hashes, all of them supporting evidence. -/
def unassessed : FiduciaryDefensePackage :=
  packageWith ⟨none, none, [FixedBytes.fill 32 4, FixedBytes.fill 32 5]⟩

theorem one_package_string : assessed.string = unassessed.string := by decide +kernel

theorem no_package_collision : ¬ CollisionIn Blake3.hash [assessed.string, unassessed.string] := by
  rw [one_package_string]
  exact not_collisionIn_pair _ _

theorem one_seal : assessed.packageHash = unassessed.packageHash :=
  congrArg Blake3.hash one_package_string

theorem assessed_ne : ¬ assessed.SameContent unassessed := by
  intro same
  exact absurd same.rationalBasis (by decide)

/-- **A risk assessment that comes and goes** under one seal. -/
theorem risk_assessment_moved :
    ¬ ∀ package other : FiduciaryDefensePackage,
      package.verify Blake3.hash = true → other.verify Blake3.hash = true →
      package.packageHash = other.packageHash →
      package.SameContent other ∨ CollisionIn Blake3.hash [package.string, other.string] := by
  intro binds
  rcases binds assessed unassessed (FiduciaryDefensePackage.verify_generate _ _ _ _ _ _)
    (FiduciaryDefensePackage.verify_generate _ _ _ _ _ _) one_seal with same | collision
  · exact assessed_ne same
  · exact no_package_collision collision

/-- The two packages have different shapes. -/
theorem assessed_shape : ¬ assessed.SameShape unassessed := by
  intro shape
  have exactly := FiduciaryDefensePackage.seal_binds_iff Blake3.hash
    (FiduciaryDefensePackage.verify_generate _ _ _ _ _ _)
    (FiduciaryDefensePackage.verify_generate _ _ _ _ _ _) one_seal no_package_collision
  exact assessed_ne (exactly.mpr shape)

end Sample

end Exochain.DecisionForum
