/-
**When two nodes share a hash preimage.**

`computeNodeHash` writes the parents, the payload hash, the creator and the timestamp one after the
other, with no count and no separator. The parents and the payload hash are blocks of 32 bytes, the
timestamp is always 12 bytes, and the creator is whatever is in between. Read from the left, the
only freedom is therefore where the blocks end and the creator begins.

* `preimage_eq_iff` — **two field tuples have the same preimage exactly when they are equal, or the
  creator of one starts with the blocks that the other counts as further parents and as its payload
  hash** (`Absorbs`).
* `preimage_determines_iff` — the exact condition under which equal preimages mean equal fields.
* `preimage_not_injective` — accepted identifiers can contain the start of another one, so the
  second case is not excluded by the format of the fields.
-/

import Exochain.Dag.Graph

namespace Exochain.ExoDag

open Foundation ExoCore

/-- The fields that a node's hash covers. -/
@[ext]
structure NodeFields where
  parents : List Hash256
  payloadHash : Hash256
  creatorDid : Did
  timestamp : Timestamp
  deriving DecidableEq

namespace NodeFields

/-- The byte string that `computeNodeHash` feeds to the digest. -/
def preimage (fields : NodeFields) : List UInt8 :=
  nodePreimage fields.parents fields.payloadHash fields.creatorDid fields.timestamp

/-- The fields as an honest node has them: sorted parents and an accepted creator. -/
def Valid (fields : NodeFields) : Prop :=
  fields.parents.Pairwise (· < ·) ∧ fields.creatorDid.Accepted

instance (fields : NodeFields) : Decidable fields.Valid :=
  inferInstanceAs (Decidable (_ ∧ _))

/-- The blocks at the start of the preimage: the parents, then the payload hash. -/
def blocks (fields : NodeFields) : List Hash256 := fields.parents ++ [fields.payloadHash]

/-- **The creator of `short` starts with 32-byte blocks that `long` counts as further parents and
as its payload hash**, and goes on with the creator of `long`. -/
def Absorbs (short long : NodeFields) : Prop :=
  ∃ extra, extra ≠ [] ∧ long.blocks = short.blocks ++ extra ∧
    short.creatorDid.asBytes = concatBlocks extra ++ long.creatorDid.asBytes ∧
    short.timestamp = long.timestamp

theorem preimage_eq_blocks (fields : NodeFields) :
    fields.preimage =
      concatBlocks fields.blocks ++ (fields.creatorDid.asBytes ++ fields.timestamp.toLeBytes) := by
  rw [preimage, nodePreimage, blocks, concatBlocks_append, List.append_assoc, concatBlocks_cons,
    concatBlocks_nil, List.append_nil]
  rfl

/-- Equal blocks are equal parents and equal payload hashes. -/
theorem blocks_inj {first second : NodeFields} (same : first.blocks = second.blocks) :
    first.parents = second.parents ∧ first.payloadHash = second.payloadHash := by
  obtain ⟨parents, payload⟩ := List.append_inj' same rfl
  exact ⟨parents, List.singleton_inj.mp payload⟩

theorem Absorbs.ne {short long : NodeFields} (absorbs : Absorbs short long) : short ≠ long := by
  rintro rfl
  obtain ⟨extra, nonempty, continued, _⟩ := absorbs
  exact nonempty (List.self_eq_append_right.mp continued)

theorem Absorbs.preimage_eq {short long : NodeFields} (absorbs : Absorbs short long) :
    short.preimage = long.preimage := by
  obtain ⟨extra, _, continued, creator, timestamp⟩ := absorbs
  rw [preimage_eq_blocks, preimage_eq_blocks, continued, creator, timestamp, concatBlocks_append,
    List.append_assoc, List.append_assoc]

/-- The tuple with fewer blocks equals the other one or absorbs its extra blocks. -/
theorem eq_or_absorbs {short long : NodeFields} (fewer : short.blocks.length ≤ long.blocks.length)
    (same : short.preimage = long.preimage) : short = long ∨ Absorbs short long := by
  rw [preimage_eq_blocks, preimage_eq_blocks] at same
  obtain ⟨extra, continued, rest⟩ := (concatBlocks_append_eq_iff fewer).mp same
  rw [← List.append_assoc] at rest
  -- the timestamps have one width, so the string splits from the right as well
  obtain ⟨creator, timestamp⟩ := List.append_inj' rest (by simp)
  have timestampEq := Timestamp.toLeBytes_injective timestamp
  by_cases none : extra = []
  · left
    subst none
    rw [List.append_nil] at continued
    rw [concatBlocks_nil, List.nil_append] at creator
    obtain ⟨parents, payload⟩ := blocks_inj continued
    exact NodeFields.ext parents.symm payload.symm (Did.asBytes_injective creator) timestampEq
  · exact .inr ⟨extra, none, continued, creator, timestampEq⟩

/-- **Two field tuples have the same preimage exactly when they are equal or one absorbs blocks of
the other.** -/
theorem preimage_eq_iff (first second : NodeFields) :
    first.preimage = second.preimage ↔
      first = second ∨ Absorbs first second ∨ Absorbs second first := by
  constructor
  · intro same
    rcases Nat.le_total first.blocks.length second.blocks.length with fewer | more
    · rcases eq_or_absorbs fewer same with equal | absorbs
      · exact .inl equal
      · exact .inr (.inl absorbs)
    · rcases eq_or_absorbs more same.symm with equal | absorbs
      · exact .inl equal.symm
      · exact .inr (.inr absorbs)
  · rintro (rfl | absorbs | absorbs)
    · rfl
    · exact absorbs.preimage_eq
    · exact absorbs.preimage_eq.symm

/-- **Equal preimages mean equal fields exactly when neither creator starts with blocks that the
other tuple counts as parents and payload hash.** -/
theorem preimage_determines_iff (first second : NodeFields) :
    (first.preimage = second.preimage → first = second) ↔
      ¬ Absorbs first second ∧ ¬ Absorbs second first := by
  constructor
  · intro determines
    exact ⟨fun absorbs => absorbs.ne (determines absorbs.preimage_eq),
      fun absorbs => absorbs.ne (determines absorbs.preimage_eq.symm).symm⟩
  · rintro ⟨notFirst, notSecond⟩ same
    rcases (preimage_eq_iff first second).mp same with equal | absorbs | absorbs
    · exact equal
    · exact absurd absorbs notFirst
    · exact absurd absorbs notSecond

/-! ### Two valid tuples with one preimage -/

/-- The first 32 bytes of an identifier that contains another one. -/
def nestedBlock : Hash256 :=
  ⟨"did:exo:aaaaaaaaaaaaaaaaaaaaaaaa".toUTF8.data.toList, by decide⟩

/-- A node without parents, by a creator whose identifier contains another one. -/
def nestedCreator : NodeFields :=
  { parents := []
    payloadHash := FixedBytes.fill 32 7
    creatorDid := ⟨"did:exo:aaaaaaaaaaaaaaaaaaaaaaaadid:exo:x"⟩
    timestamp := ⟨1, 0⟩ }

/-- A node with one parent, by the inner creator. -/
def innerCreator : NodeFields :=
  { parents := [FixedBytes.fill 32 7]
    payloadHash := nestedBlock
    creatorDid := ⟨"did:exo:x"⟩
    timestamp := ⟨1, 0⟩ }

/-- **The preimage does not determine the fields**, not even of valid tuples. -/
theorem preimage_not_injective :
    ¬ ∀ first second : NodeFields, first.Valid → second.Valid →
      first.preimage = second.preimage → first = second := by
  intro injective
  have same := injective nestedCreator innerCreator (by decide) (by decide) (by decide)
  exact absurd same (by decide)

end NodeFields

end Exochain.ExoDag
