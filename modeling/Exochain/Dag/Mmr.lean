/-
**`exo-dag` — the Merkle mountain range, as `mmr.rs` computes it.**

The leaves are kept in perfect trees (`Peak`), each laid out in an array: the children of index `i`
at `2 i + 1` and `2 i + 2`. `append` makes a tree of one leaf and merges it with the last peak while
the heights agree; `merge` copies both arrays into a larger one with `copySubtree`. `prove` walks
array indices from the leaf up. `verifyProof` has no array: it recovers the index in the tree from
the position and the number of siblings alone, in machine arithmetic.

Beside each hashing function stands the list of the strings it hashes (`appendInputs`, `bagInputs`,
`verifyInputs`), so that a statement about collisions can name them. The three tags keep leaf, inner
and bag strings apart (`mmrHasher`, `tagged_ne`).
-/

import Exochain.Foundation.Run
import Exochain.Foundation.MountainRange
import Exochain.Core.Types

set_option linter.unusedSectionVars false

namespace Exochain.ExoDag

open Foundation ExoCore

namespace Mmr

/-! ### Hashing -/

/-- The bytes of a domain tag. -/
def tag (text : String) : List UInt8 := text.toUTF8.data.toList

/-- The string that `hashPair` hashes. -/
def hashPairInput (left right : Hash256) : List UInt8 :=
  tag "mmr:node:" ++ (left.asBytes ++ right.asBytes)

/-- The hash of an inner node. -/
def hashPair (blake3 : Blake3) (left right : Hash256) : Hash256 := blake3 (hashPairInput left right)

/-- The string that `hashLeaf` hashes. -/
def hashLeafInput (data : Hash256) : List UInt8 := tag "mmr:leaf:" ++ data.asBytes

/-- The hash of a leaf. -/
def hashLeaf (blake3 : Blake3) (data : Hash256) : Hash256 := blake3 (hashLeafInput data)

/-- The hash of all peaks; a single peak stands for itself. -/
def bagPeaks (blake3 : Blake3) : List Hash256 → Hash256
  | [] => Hash256.digest blake3 (tag "mmr:empty")
  | [peak] => peak
  | peaks => blake3 (tag "mmr:peaks:" ++ concatBlocks peaks)

/-- The strings that `bagPeaks` hashes. -/
def bagInputs : List Hash256 → List (List UInt8)
  | [] => [tag "mmr:empty"]
  | [_] => []
  | peaks => [tag "mmr:peaks:" ++ concatBlocks peaks]

/-- A proof that a leaf at a given position is included. -/
structure MmrProof where
  siblings : List Hash256
  peakIndex : ℕ
  peaks : List Hash256
  deriving DecidableEq

/-! ### Peaks -/

/-- A perfect binary tree in an array: the root at index 0, the leaves from `leafCount - 1` on. -/
structure Peak where
  hash : Hash256
  height : ℕ
  leafCount : ℕ
  nodes : List Hash256
  deriving DecidableEq

namespace Peak

/-- A peak of a single leaf. -/
def fromLeaf (leafHash : Hash256) : Peak :=
  { hash := leafHash, height := 0, leafCount := 1, nodes := [leafHash] }

/-- Copy the subtree of `src` at `srcIdx` into `dst` at `dstIdx`. -/
def copySubtree (dst : List Hash256) (dstIdx : ℕ) (src : List Hash256) (srcIdx : ℕ) :
    List Hash256 :=
  if outside : src.length ≤ srcIdx ∨ dst.length ≤ dstIdx then dst
  else
    let here := dst.set dstIdx (src.get ⟨srcIdx, by omega⟩)
    let left := copySubtree here (2 * dstIdx + 1) src (2 * srcIdx + 1)
    copySubtree left (2 * dstIdx + 2) src (2 * srcIdx + 2)
termination_by src.length - srcIdx

/-- Merge two peaks of equal height into one. -/
def merge (blake3 : Blake3) (left right : Peak) : Peak :=
  let newHash := hashPair blake3 left.hash right.hash
  let newLeafCount := left.leafCount + right.leafCount
  let nodes := (List.replicate (2 * newLeafCount - 1) Hash256.zero).set 0 newHash
  let nodes := copySubtree nodes 1 left.nodes 0
  let nodes := copySubtree nodes 2 right.nodes 0
  { hash := newHash, height := left.height + 1, leafCount := newLeafCount, nodes }

/-- The siblings on the way from an array index to the root. -/
def siblingsFrom (nodes : List Hash256) (nodeIdx : ℕ) : List Hash256 :=
  if nodeIdx = 0 then []
  else
    let sibling := if nodeIdx % 2 = 1 then nodeIdx + 1 else nodeIdx - 1
    nodes[sibling]?.toList ++ siblingsFrom nodes ((nodeIdx - 1) / 2)
termination_by nodeIdx

/-- The sibling path of a leaf of the peak. -/
def proofPath (peak : Peak) (localLeafIdx : ℕ) : List Hash256 :=
  if peak.leafCount ≤ 1 then [] else siblingsFrom peak.nodes (peak.leafCount - 1 + localLeafIdx)

end Peak

/-! ### The range -/

/-- The leaf data in insertion order and the peaks, tallest first. -/
structure MerkleMountainRange where
  leaves : List Hash256
  peaks : List Peak

/-- The empty range. -/
def new : MerkleMountainRange := ⟨[], []⟩

/-- Merge a new peak with the trailing peaks of the same height; the peaks are given and returned
last first. -/
def mergeTrailing (blake3 : Blake3) : List Peak → Peak → List Peak
  | [], newPeak => [newPeak]
  | last :: rest, newPeak =>
    if last.height = newPeak.height then mergeTrailing blake3 rest (Peak.merge blake3 last newPeak)
    else newPeak :: last :: rest

/-- The strings that `mergeTrailing` hashes. -/
def mergeInputs (blake3 : Blake3) : List Peak → Peak → List (List UInt8)
  | [], _ => []
  | last :: rest, newPeak =>
    if last.height = newPeak.height then
      hashPairInput last.hash newPeak.hash :: mergeInputs blake3 rest (Peak.merge blake3 last newPeak)
    else []

/-- Append a leaf; the answer is its position. -/
def append (blake3 : Blake3) (mmr : MerkleMountainRange) (leaf : Hash256) :
    ℕ × MerkleMountainRange :=
  (mmr.leaves.length,
    { leaves := mmr.leaves ++ [leaf]
      peaks := (mergeTrailing blake3 mmr.peaks.reverse (Peak.fromLeaf (hashLeaf blake3 leaf))).reverse })

/-- The strings that `append` hashes. -/
def appendInputs (blake3 : Blake3) (mmr : MerkleMountainRange) (leaf : Hash256) :
    List (List UInt8) :=
  hashLeafInput leaf ::
    mergeInputs blake3 mmr.peaks.reverse (Peak.fromLeaf (hashLeaf blake3 leaf))

/-- The hashes of the peaks. -/
def MerkleMountainRange.peakHashes (mmr : MerkleMountainRange) : List Hash256 :=
  mmr.peaks.map Peak.hash

/-- The root hash, the bag of the peaks. -/
def root (blake3 : Blake3) (mmr : MerkleMountainRange) : Hash256 := bagPeaks blake3 mmr.peakHashes

/-- The range after appending a list of leaves to the empty one. -/
def appendAll (blake3 : Blake3) (leaves : List Hash256) : MerkleMountainRange :=
  run (fun mmr leaf => (append blake3 mmr leaf).2) new leaves

/-- The strings hashed by a list of appends. -/
def buildInputs (blake3 : Blake3) : MerkleMountainRange → List Hash256 → List (List UInt8)
  | _, [] => []
  | mmr, leaf :: rest =>
    appendInputs blake3 mmr leaf ++ buildInputs blake3 (append blake3 mmr leaf).2 rest

/-- The strings hashed to build a range and to compute its root. -/
def rootInputs (blake3 : Blake3) (leaves : List Hash256) : List (List UInt8) :=
  buildInputs blake3 new leaves ++ bagInputs (appendAll blake3 leaves).peakHashes

/-! ### Proving -/

/-- Search the peak that contains a position: its index and the number of leaves before it. -/
def findPeak (position : ℕ) : List Peak → ℕ → ℕ → ℕ × ℕ
  | [], _, leafOffset => (0, leafOffset)
  | peak :: rest, i, leafOffset =>
    if position < leafOffset + peak.leafCount then (i, leafOffset)
    else findPeak position rest (i + 1) (leafOffset + peak.leafCount)

/-- The proof for the leaf at a position; past the last leaf, a proof without siblings. -/
def prove (build : Build) (mmr : MerkleMountainRange) (position : ℕ) : Except Fault MmrProof :=
  if mmr.leaves.length ≤ position then
    .ok { siblings := [], peakIndex := 0, peaks := mmr.peakHashes }
  else do
    let (peakIdx, leafOffset) := findPeak position mmr.peaks 0 0
    let localLeafIdx ← build.sub 64 position leafOffset
    let peak ← indexVec mmr.peaks peakIdx
    return { siblings := peak.proofPath localLeafIdx, peakIndex := peakIdx, peaks := mmr.peakHashes }

/-! ### Verifying -/

/-- The array index of a position in a tree with one level per sibling. -/
def startIndex (build : Build) (position depth : ℕ) : Except Fault ℕ := do
  let treeLeaves ← build.shl 64 1 depth
  let localIdx := position % treeLeaves
  let firstLeaf ← build.sub 64 treeLeaves 1
  build.add 64 firstLeaf localIdx

/-- Hash from an array index up to the root: an odd index is a left child. -/
def walk (build : Build) (blake3 : Blake3) :
    List Hash256 → ℕ → Hash256 → Except Fault Hash256
  | [], _, current => .ok current
  | sibling :: rest, nodeIdx, current => do
    let above := if nodeIdx % 2 = 1 then hashPair blake3 current sibling
      else hashPair blake3 sibling current
    let less ← build.sub 64 nodeIdx 1
    walk build blake3 rest (less / 2) above

/-- The string that `walk` hashes at one level. -/
def walkInput (nodeIdx : ℕ) (current sibling : Hash256) : List UInt8 :=
  if nodeIdx % 2 = 1 then hashPairInput current sibling else hashPairInput sibling current

/-- The strings that `walk` hashes. -/
def walkInputs (build : Build) (blake3 : Blake3) :
    List Hash256 → ℕ → Hash256 → List (List UInt8)
  | [], _, _ => []
  | sibling :: rest, nodeIdx, current =>
    walkInput nodeIdx current sibling ::
      match build.sub 64 nodeIdx 1 with
      | .error _ => []
      | .ok less =>
        walkInputs build blake3 rest (less / 2) (blake3 (walkInput nodeIdx current sibling))

/-- Verify a proof against a root. -/
def verifyProof (build : Build) (blake3 : Blake3) (mmrRoot leaf : Hash256) (position : ℕ)
    (proof : MmrProof) : Except Fault Bool :=
  if proof.peaks.isEmpty then .ok false
  else if proof.peaks.length ≤ proof.peakIndex then .ok false
  else do
    let nodeIdx ← startIndex build position proof.siblings.length
    let current ← walk build blake3 proof.siblings nodeIdx (hashLeaf blake3 leaf)
    let peak ← indexVec proof.peaks proof.peakIndex
    if current ≠ peak then return false
    return bagPeaks blake3 proof.peaks == mmrRoot

/-- The strings hashed by a verification that runs to its end. -/
def verifyInputs (build : Build) (blake3 : Blake3) (leaf : Hash256) (position : ℕ)
    (proof : MmrProof) : List (List UInt8) :=
  hashLeafInput leaf ::
    ((match startIndex build position proof.siblings.length with
      | .error _ => []
      | .ok nodeIdx => walkInputs build blake3 proof.siblings nodeIdx (hashLeaf blake3 leaf)) ++
      bagInputs proof.peaks)

/-- The verifier accepts. -/
def Accepts (build : Build) (blake3 : Blake3) (mmrRoot leaf : Hash256) (position : ℕ)
    (proof : MmrProof) : Prop :=
  verifyProof build blake3 mmrRoot leaf position proof = .ok true

end Mmr

end Exochain.ExoDag
