/-
**`exo-identity` — Shamir secret sharing.**

`split` takes, for each byte of the secret, a polynomial with that byte as its constant coefficient
and random others, and gives every share the values at its index. `reconstruct` checks the
configuration, the number of shares and their indices, and evaluates Lagrange's formula at zero over
the first `threshold` of them. The random coefficients are a parameter: `draw byte coefficient`.

* `split_eq_ok`, `evaluate_eq` — the shares are the values of the polynomials over `Gf256`.
* `reconstruct_eq_ok` — distinct non-zero indices, as many as the polynomials have coefficients, give
  back the constant coefficients.

**`reconstruct_split`** — any `threshold` shares give the secret back.

**`shares_hide_secret`** — one share fewer fits every secret, each with one choice of coefficients,
so with uniform coefficients its distribution does not depend on the secret.

**`reconstruct_total_iff`** — the reconstruction stops at an index exactly where a share that is used has
fewer bytes than the first one.
-/

import Exochain.Foundation.Interpolation
import Exochain.Foundation.Blake3
import Exochain.Identity.Error
import Exochain.Identity.Gf256

set_option linter.unusedSectionVars false

namespace Exochain.ExoIdentity

open Foundation ExoCore

/-! ### Configurations and shares -/

/-- How many shares there are, and how many of them give the secret back. -/
structure ShamirConfig where
  threshold : UInt8
  shares : UInt8
  deriving DecidableEq, Repr

/-- The check of a configuration. -/
def ShamirConfig.validate (config : ShamirConfig) : Except IdentityError Unit :=
  if config.threshold = 0 ∨ config.shares = 0 ∨ config.shares < config.threshold then
    .error (.invalidShamirConfig config.threshold config.shares)
  else .ok ()

/-- A share: its index, one value for each byte of the secret, and the digest of the secret. -/
structure Share where
  index : UInt8
  data : List UInt8
  commitment : Hash256
  deriving DecidableEq

/-! ### Splitting -/

/-- One coefficient: the value so far and the next power. -/
def evaluateStep (x : UInt8) (acc : UInt8 × UInt8) (c : UInt8) : UInt8 × UInt8 :=
  (acc.1 ^^^ gf256Mul c acc.2, gf256Mul acc.2 x)

/-- The value at `x` of the polynomial with the given coefficients, lowest first. -/
def evaluate (coeffs : List UInt8) (x : UInt8) : UInt8 := (coeffs.foldl (evaluateStep x) (0, 1)).1

section Split

variable (draw : ℕ → ℕ → UInt8)

/-- The coefficients for one byte of the secret: the byte, then `k - 1` random ones. -/
def coefficients (k byteIdx : ℕ) (secretByte : UInt8) : List UInt8 :=
  secretByte :: (List.range (k - 1)).map (draw byteIdx)

/-- One byte of the secret: every share gets the value at its index. -/
def splitStep (k : ℕ) (shares : List Share) (entry : UInt8 × ℕ) : List Share :=
  shares.map fun share =>
    { share with
      data := share.data ++ [evaluate (coefficients draw k entry.2 entry.1) share.index] }

/-- Split a secret into shares. -/
def split (blake3 : Blake3) (secret : List UInt8) (config : ShamirConfig) :
    Except IdentityError (List Share) := do
  config.validate
  let commitment := blake3 secret
  let k := config.threshold.toNat
  let n := config.shares.toNat
  let shares := (List.range' 1 n).map fun i => Share.mk (UInt8.ofNat i) [] commitment
  return secret.zipIdx.foldl (splitStep draw k) shares

end Split

/-! ### Reconstructing -/

/-- How reconstruction fails: with an error, or with a fault at a share that is too short. -/
inductive ReconstructFailure where
  | error (error : IdentityError)
  | fault (fault : Fault)
  deriving DecidableEq

/-- No share has the index zero. -/
def checkIndices : List Share → Except IdentityError Unit
  | [] => .ok ()
  | share :: rest => if share.index = 0 then .error (.invalidShareIndex 0) else checkIndices rest

/-- No index occurs twice; `seen` are those already met. -/
def checkDistinct : Finset UInt8 → List Share → Except IdentityError Unit
  | _, [] => .ok ()
  | seen, share :: rest =>
    if share.index ∈ seen then .error .duplicateShareIndices
    else checkDistinct (insert share.index seen) rest

/-- The factor of the `j`-th share in the weight of the `i`-th. -/
def basisStep (i : ℕ) (xi basis : UInt8) (entry : Share × ℕ) : UInt8 :=
  if i = entry.2 then basis
  else
    let num := entry.1.index
    let den := entry.1.index ^^^ xi
    gf256Mul basis (gf256Mul num (gf256Inv den))

/-- The weight of the `i`-th share in the value at zero. -/
def lagrangeBasis (used : List Share) (i : ℕ) (xi : UInt8) : UInt8 :=
  used.zipIdx.foldl (basisStep i xi) 1

/-- What the `i`-th share adds to a byte. -/
def reconstructStep (used : List Share) (byteIdx : ℕ) (value : UInt8) (entry : Share × ℕ) :
    Except Fault UInt8 := do
  let yi ← indexVec entry.1.data byteIdx
  return value ^^^ gf256Mul yi (lagrangeBasis used entry.2 entry.1.index)

/-- One byte of the secret from the shares in use. -/
def reconstructByte (used : List Share) (byteIdx : ℕ) : Except Fault UInt8 :=
  used.zipIdx.foldlM (reconstructStep used byteIdx) 0

/-- The checks of `reconstruct` before it computes. -/
def checkShares (shares : List Share) (config : ShamirConfig) : Except IdentityError Unit := do
  config.validate
  if shares.length < config.threshold.toNat then
    .error (.insufficientShares config.threshold (UInt8.ofNat (min shares.length 255)))
  else
    checkIndices shares
    checkDistinct ∅ shares

/-- Reconstruct a secret from shares. -/
def reconstruct (shares : List Share) (config : ShamirConfig) :
    Except ReconstructFailure (List UInt8) := do
  (checkShares shares config).mapError .error
  let used := shares.take config.threshold.toNat
  let first ← (indexVec used 0).mapError .fault
  ((List.range first.data.length).mapM (reconstructByte used)).mapError .fault

/-! ### What `split` computes -/

theorem foldl_evaluate (coeffs : List UInt8) (x y xPow : UInt8) :
    (⟨(coeffs.foldl (evaluateStep x) (y, xPow)).1⟩ : Gf256) =
      evalLoop ⟨x⟩ (coeffs.map Gf256.mk) ⟨y⟩ ⟨xPow⟩ := by
  induction coeffs generalizing y xPow with
  | nil => rfl
  | cons c coeffs ih => exact ih _ _

/-- **The loop evaluates the polynomial** over the field. -/
theorem evaluate_eq (coeffs : List UInt8) (x : UInt8) :
    (⟨evaluate coeffs x⟩ : Gf256) = (polyOf (coeffs.map Gf256.mk)).eval ⟨x⟩ := by
  have loop := foldl_evaluate coeffs x 0 1
  have value := evalLoop_eq (⟨x⟩ : Gf256) (coeffs.map Gf256.mk) 0 1
  rw [zero_add, one_mul] at value
  exact loop.trans value

section SplitSpec

variable (draw : ℕ → ℕ → UInt8) (blake3 : Blake3)

/-- The values of the polynomials of a secret at `x`, one for each byte. -/
def valuesAt (secret : List UInt8) (k : ℕ) (x : UInt8) : List UInt8 :=
  secret.zipIdx.map fun entry => evaluate (coefficients draw k entry.2 entry.1) x

/-- Going through the bytes gives every share their values. -/
theorem foldl_shares (k : ℕ) (entries : List (UInt8 × ℕ)) (shares : List Share) :
    entries.foldl (splitStep draw k) shares =
      shares.map fun share => { share with
        data := share.data ++
          entries.map fun entry => evaluate (coefficients draw k entry.2 entry.1) share.index } := by
  induction entries generalizing shares with
  | nil => simp
  | cons entry entries ih =>
    rw [List.foldl_cons, ih, splitStep, List.map_map]
    refine List.map_congr_left fun share _ => ?_
    simp

/-- **What `split` returns**: for each index from one on, the values of the polynomials there. -/
theorem split_eq_ok (secret : List UInt8) {config : ShamirConfig}
    (valid : config.validate = .ok ()) :
    split draw blake3 secret config = .ok ((List.range' 1 config.shares.toNat).map fun i =>
      ⟨UInt8.ofNat i, valuesAt draw secret config.threshold.toNat (UInt8.ofNat i),
        blake3 secret⟩) := by
  unfold split
  rw [valid]
  show Except.ok _ = _
  rw [foldl_shares, List.map_map]
  rfl

theorem shares_of_split {secret : List UInt8} {config : ShamirConfig} {shares : List Share}
    (done : split draw blake3 secret config = .ok shares) :
    shares = (List.range' 1 config.shares.toNat).map fun i =>
      ⟨UInt8.ofNat i, valuesAt draw secret config.threshold.toNat (UInt8.ofNat i),
        blake3 secret⟩ := by
  obtain ⟨⟨⟩, valid, _⟩ := bind_eq_ok_iff.mp done
  exact Except.ok.inj (done.symm.trans (split_eq_ok draw blake3 secret valid))

/-- A share that `split` returns: its index is not zero and its data are the values there. -/
theorem mem_of_split {secret : List UInt8} {config : ShamirConfig} {shares : List Share}
    (done : split draw blake3 secret config = .ok shares) {share : Share} (member : share ∈ shares) :
    share.index ≠ 0 ∧ share.data = valuesAt draw secret config.threshold.toNat share.index := by
  rw [shares_of_split draw blake3 done] at member
  obtain ⟨i, among, rfl⟩ := List.mem_map.mp member
  refine ⟨fun zero => ?_, rfl⟩
  obtain ⟨low, high⟩ := List.mem_range'_1.mp among
  have small := config.shares.toNat_lt
  have number : (UInt8.ofNat i).toNat = 0 := congrArg UInt8.toNat zero
  rw [UInt8.toNat_ofNat', Nat.mod_eq_of_lt (by omega)] at number
  omega

theorem length_valuesAt (secret : List UInt8) (k : ℕ) (x : UInt8) :
    (valuesAt draw secret k x).length = secret.length := by
  simp [valuesAt]

theorem indexVec_valuesAt {secret : List UInt8} (k : ℕ) (x : UInt8) {byteIdx : ℕ}
    (inside : byteIdx < secret.length) :
    indexVec (valuesAt draw secret k x) byteIdx =
      .ok (evaluate (coefficients draw k byteIdx secret[byteIdx]) x) := by
  rw [indexVec_eq_ok_iff]
  simp [valuesAt, inside]

end SplitSpec

/-! ### What `reconstruct` computes -/

section Formula

variable {used : List Share}

/-- The loop of the weights multiplies them. -/
theorem foldl_basis (i : ℕ) (xi acc : UInt8) (entries : List (Share × ℕ)) :
    (⟨entries.foldl (basisStep i xi) acc⟩ : Gf256) =
      ⟨acc⟩ * (entries.map fun entry =>
        if i = entry.2 then 1
        else (⟨entry.1.index⟩ : Gf256) * (⟨entry.1.index⟩ - ⟨xi⟩)⁻¹).prod := by
  induction entries generalizing acc with
  | nil => simp
  | cons entry entries ih =>
    rw [List.foldl_cons, ih, List.map_cons, List.prod_cons, ← mul_assoc]
    by_cases same : i = entry.2
    · simp [basisStep, same]
    · simp only [basisStep, same, if_false]
      rfl

/-- The points a byte is interpolated through: the indices and the values of the shares. -/
def pointsOf (used : List Share) (value : Share → UInt8) : List (Gf256 × Gf256) :=
  used.map fun share => (⟨share.index⟩, ⟨value share⟩)

theorem lagrangeBasis_eq (value : Share → UInt8) (i : ℕ) (xi : UInt8) :
    (⟨lagrangeBasis used i xi⟩ : Gf256) = weightAtZero (pointsOf used value) i ⟨xi⟩ := by
  have loop := foldl_basis i xi 1 used.zipIdx
  have unit : (⟨1⟩ : Gf256) = 1 := rfl
  rw [unit, one_mul] at loop
  rw [weightAtZero, pointsOf, List.zipIdx_map, List.map_map]
  exact loop

/-- **The double loop is Lagrange's formula at zero**, if every share in use has the byte. -/
theorem reconstructByte_eq {value : Share → UInt8} {byteIdx : ℕ}
    (found : ∀ share ∈ used, indexVec share.data byteIdx = .ok (value share)) :
    reconstructByte used byteIdx = .ok (valueAtZero (pointsOf used value)).byte := by
  have loop : ∀ (entries : List (Share × ℕ)) (acc : UInt8), (∀ entry ∈ entries, entry.1 ∈ used) →
      entries.foldlM (reconstructStep used byteIdx) acc =
        .ok ((⟨acc⟩ : Gf256) + (entries.map fun entry =>
          (⟨value entry.1⟩ : Gf256) *
            weightAtZero (pointsOf used value) entry.2 ⟨entry.1.index⟩).sum).byte := by
    intro entries
    induction entries with
    | nil =>
      intro acc _
      simp [pure, Except.pure]
    | cons entry entries ih =>
      intro acc inside
      obtain ⟨here, rest⟩ := List.forall_mem_cons.mp inside
      rw [List.foldlM_cons, reconstructStep, found entry.1 here]
      show entries.foldlM _ _ = _
      rw [ih _ rest, List.map_cons, List.sum_cons, ← add_assoc, ← lagrangeBasis_eq]
      rfl
  have inside : ∀ entry ∈ used.zipIdx, entry.1 ∈ used := fun entry member =>
    (List.mem_zipIdx' member).2 ▸ List.getElem_mem _
  have total := loop used.zipIdx 0 inside
  have none : (⟨0⟩ : Gf256) = 0 := rfl
  rw [none, zero_add] at total
  rw [valueAtZero, pointsOf, List.zipIdx_map, List.map_map]
  exact total

/-- **As many distinct indices as coefficients give back the constant coefficient.** -/
theorem reconstructByte_of_evaluate (distinct : (used.map Share.index).Nodup) {byteIdx : ℕ}
    {first : UInt8} {others : List UInt8} (enough : others.length < used.length)
    (values : ∀ share ∈ used,
      indexVec share.data byteIdx = .ok (evaluate (first :: others) share.index)) :
    reconstructByte used byteIdx = .ok first := by
  rw [reconstructByte_eq values, Except.ok.injEq]
  have nodes : ((pointsOf used fun share => evaluate (first :: others) share.index).map
      Prod.fst).Nodup := by
    have names : (pointsOf used fun share => evaluate (first :: others) share.index).map Prod.fst =
        (used.map Share.index).map Gf256.mk := by
      simp [pointsOf]
    rw [names]
    exact distinct.map fun _ _ same => congrArg Gf256.byte same
  have low : (polyOf ((first :: others).map Gf256.mk)).degree <
      (pointsOf used fun share => evaluate (first :: others) share.index).length := by
    refine (degree_polyOf_lt _).trans_le (Nat.cast_le.mpr ?_)
    simpa [pointsOf] using enough
  have through : ∀ p ∈ pointsOf used fun share => evaluate (first :: others) share.index,
      (polyOf ((first :: others).map Gf256.mk)).eval p.1 = p.2 := by
    intro p member
    obtain ⟨share, _, rfl⟩ := List.mem_map.mp member
    exact (evaluate_eq _ _).symm
  rw [valueAtZero_eq nodes low through]
  simp [polyOf]

end Formula

theorem checkIndices_eq_ok_iff {shares : List Share} :
    checkIndices shares = .ok () ↔ ∀ share ∈ shares, share.index ≠ 0 := by
  induction shares with
  | nil => exact iff_of_true rfl fun _ member => absurd member List.not_mem_nil
  | cons share rest ih =>
    rw [checkIndices, List.forall_mem_cons, ← ih]
    by_cases zero : share.index = 0
    · rw [if_pos zero]
      exact iff_of_false (by simp) fun both => both.1 zero
    · rw [if_neg zero, and_iff_right zero]

theorem checkDistinct_eq_ok_iff {seen : Finset UInt8} {shares : List Share} :
    checkDistinct seen shares = .ok () ↔
      (∀ share ∈ shares, share.index ∉ seen) ∧ (shares.map Share.index).Nodup := by
  induction shares generalizing seen with
  | nil => exact iff_of_true rfl ⟨fun _ member => absurd member List.not_mem_nil, List.nodup_nil⟩
  | cons share rest ih =>
    rw [checkDistinct, List.forall_mem_cons, List.map_cons, List.nodup_cons, List.mem_map]
    by_cases met : share.index ∈ seen
    · rw [if_pos met]
      exact iff_of_false (by simp) fun both => both.1.1 met
    · rw [if_neg met, ih, and_iff_right met]
      simp only [Finset.mem_insert, not_or, not_exists, not_and]
      constructor
      · rintro ⟨apart, distinct⟩
        exact ⟨fun other member => (apart other member).2,
          fun other member => (apart other member).1, distinct⟩
      · rintro ⟨fresh, once, distinct⟩
        exact ⟨fun other member => ⟨once other member, fresh other member⟩, distinct⟩

theorem validate_eq_ok_iff {config : ShamirConfig} :
    config.validate = .ok () ↔
      1 ≤ config.threshold.toNat ∧ config.threshold.toNat ≤ config.shares.toNat := by
  unfold ShamirConfig.validate
  simp only [← UInt8.toNat_inj, UInt8.lt_iff_toNat_lt, UInt8.toNat_zero]
  split
  case isTrue refused =>
    simp
    omega
  case isFalse passed =>
    simp
    omega

/-- **What passes the checks.** -/
theorem checkShares_eq_ok_iff {shares : List Share} {config : ShamirConfig} :
    checkShares shares config = .ok () ↔
      config.validate = .ok () ∧ config.threshold.toNat ≤ shares.length ∧
        (∀ share ∈ shares, share.index ≠ 0) ∧ (shares.map Share.index).Nodup := by
  rw [checkShares, check_bind_eq_ok_iff]
  refine and_congr_right fun _ => ?_
  by_cases few : shares.length < config.threshold.toNat
  · rw [if_pos few]
    exact iff_of_false (by simp) fun both => absurd both.1 (not_le.mpr few)
  · rw [if_neg few, check_bind_eq_ok_iff, checkIndices_eq_ok_iff, checkDistinct_eq_ok_iff,
      and_iff_right (not_lt.mp few), and_iff_right fun _ _ => Finset.notMem_empty _]

/-- Reconstruction succeeds with a secret if the checks pass, the data are as long as the secret, and
every byte of it is found. -/
theorem reconstruct_eq_ok {shares : List Share} {config : ShamirConfig} {secret : List UInt8}
    (checked : checkShares shares config = .ok ()) (positive : 1 ≤ config.threshold.toNat)
    (enough : config.threshold.toNat ≤ shares.length)
    (lengths : ∀ share ∈ shares, share.data.length = secret.length)
    (bytes : ∀ byteIdx (inside : byteIdx < secret.length),
      reconstructByte (shares.take config.threshold.toNat) byteIdx = .ok secret[byteIdx]) :
    reconstruct shares config = .ok secret := by
  obtain ⟨first, rest, isUsed⟩ : ∃ first rest, shares.take config.threshold.toNat = first :: rest :=
    List.exists_cons_of_length_pos (by rw [List.length_take]; omega)
  have head : indexVec (shares.take config.threshold.toNat) 0 = .ok first := by
    rw [indexVec_eq_ok_iff, isUsed]
    rfl
  have length : first.data.length = secret.length :=
    lengths first (List.mem_of_mem_take (isUsed ▸ List.mem_cons_self))
  have collected : (List.range first.data.length).mapM
      (reconstructByte (shares.take config.threshold.toNat)) = .ok secret := by
    rw [length]
    have each : ∀ byteIdx ∈ List.range secret.length,
        reconstructByte (shares.take config.threshold.toNat) byteIdx =
          .ok (secret[byteIdx]?.getD 0) := by
      intro byteIdx among
      have inside := List.mem_range.mp among
      rw [List.getElem?_eq_getElem inside, Option.getD_some, bytes byteIdx inside]
    rw [mapM_eq_ok_of_forall each, Except.ok.injEq]
    refine List.ext_getElem (by simp) fun byteIdx _ inside => ?_
    simp [inside]
  unfold reconstruct
  simp only [checked, head, collected, Except.mapError, bind, Except.bind]

/-- **Any `threshold` shares give the secret back**: for every secret, configuration and choice of
coefficients, and every list of enough distinct shares in any order. -/
theorem reconstruct_split (draw : ℕ → ℕ → UInt8) (blake3 : Blake3) (secret : List UInt8)
    (config : ShamirConfig) (positive : 1 ≤ config.threshold.toNat)
    (available : config.threshold.toNat ≤ config.shares.toNat) :
    ∃ shares, split draw blake3 secret config = .ok shares ∧
      ∀ chosen : List Share, (∀ share ∈ chosen, share ∈ shares) →
        (chosen.map Share.index).Nodup → config.threshold.toNat ≤ chosen.length →
        reconstruct chosen config = .ok secret := by
  have valid := validate_eq_ok_iff.mpr ⟨positive, available⟩
  have done := split_eq_ok draw blake3 secret valid
  refine ⟨_, done, fun chosen inside distinct enough => ?_⟩
  have nonzero : ∀ share ∈ chosen, share.index ≠ 0 := fun share member =>
    (mem_of_split draw blake3 done (inside share member)).1
  have values : ∀ share ∈ chosen,
      share.data = valuesAt draw secret config.threshold.toNat share.index := fun share member =>
    (mem_of_split draw blake3 done (inside share member)).2
  have checked := checkShares_eq_ok_iff.mpr ⟨valid, enough, nonzero, distinct⟩
  refine reconstruct_eq_ok checked positive enough (fun share member => ?_) fun byteIdx among => ?_
  · rw [values share member, length_valuesAt]
  · have usedDistinct := distinct.sublist ((List.take_sublist config.threshold.toNat _).map _)
    have room : ((List.range (config.threshold.toNat - 1)).map (draw byteIdx)).length <
        (chosen.take config.threshold.toNat).length := by
      rw [List.length_map, List.length_range, List.length_take]
      omega
    refine reconstructByte_of_evaluate usedDistinct room fun share member => ?_
    rw [values share (List.mem_of_mem_take member)]
    exact indexVec_valuesAt draw _ _ among

/-- Two of three shares, the last and the second, give a secret of two bytes back. -/
theorem two_of_three :
    ∃ shares, split (fun _ _ => 5) Blake3.hash [7, 9] ⟨2, 3⟩ = .ok shares ∧
      reconstruct (shares.reverse.take 2) ⟨2, 3⟩ = .ok [7, 9] := by
  obtain ⟨shares, done, back⟩ :=
    reconstruct_split (fun _ _ => 5) Blake3.hash [7, 9] ⟨2, 3⟩ (by decide) (by decide)
  have three : (split (fun _ _ => 5) Blake3.hash [7, 9] ⟨2, 3⟩).toOption.map
      (List.map Share.index) = some [1, 2, 3] := by decide +kernel
  rw [done] at three
  have indices : shares.map Share.index = [1, 2, 3] := Option.some.inj three
  refine ⟨shares, done, back _ (fun share member => ?_) ?_ ?_⟩
  · exact List.mem_reverse.mp (List.mem_of_mem_take member)
  · rw [List.map_take, List.map_reverse, indices]
    decide
  · have count := congrArg List.length indices
    rw [List.length_map] at count
    simp [count]

/-! ### Shares of different lengths -/

section Lengths

/-- A byte is computed exactly if every share in use has it. -/
theorem exists_reconstructByte_iff {used : List Share} {byteIdx : ℕ} :
    (∃ byte, reconstructByte used byteIdx = .ok byte) ↔
      ∀ share ∈ used, byteIdx < share.data.length := by
  have loop : ∀ (entries : List (Share × ℕ)) (acc : UInt8),
      (∃ byte, entries.foldlM (reconstructStep used byteIdx) acc = .ok byte) ↔
        ∀ entry ∈ entries, byteIdx < entry.1.data.length := by
    intro entries
    induction entries with
    | nil => exact fun acc => iff_of_true ⟨acc, rfl⟩ fun _ member => absurd member List.not_mem_nil
    | cons entry entries ih =>
      intro acc
      rw [List.foldlM_cons, List.forall_mem_cons, reconstructStep]
      by_cases inside : byteIdx < entry.1.data.length
      · rw [indexVec_eq_ok_iff.mpr (List.getElem?_eq_getElem inside), and_iff_right inside]
        exact ih _
      · have missing : indexVec entry.1.data byteIdx = .error .indexOutOfBounds := by
          rw [indexVec, List.getElem?_eq_none (not_lt.mp inside)]
        rw [missing]
        refine iff_of_false ?_ fun both => inside both.1
        rintro ⟨byte, impossible⟩
        cases impossible
  rw [reconstructByte, loop]
  constructor
  · intro all share member
    obtain ⟨index, bound, rfl⟩ := List.getElem_of_mem member
    exact all (used[index], index) (List.mem_zipIdx_iff_getElem?.mpr (List.getElem?_eq_getElem bound))
  · intro all entry member
    exact all entry.1 ((List.mem_zipIdx' member).2 ▸ List.getElem_mem _)

/-- A loop whose faults are wrapped never ends with one exactly if it succeeds. -/
theorem forall_mapError_ne_iff {α : Type} {loop : Except Fault α} :
    (∀ fault, loop.mapError ReconstructFailure.fault ≠ .error (.fault fault)) ↔
      ∃ value, loop = .ok value := by
  cases loop with
  | error fault => exact iff_of_false (fun all => all fault rfl) (by simp)
  | ok value => exact iff_of_true (fun fault => by simp [Except.mapError]) ⟨value, rfl⟩

/-- The shares are turned down before anything is computed: the configuration is not valid, there are too
few shares, one has the index zero, or two have one index. -/
def TurnedDown (shares : List Share) (config : ShamirConfig) : Prop :=
  config.validate ≠ .ok () ∨ shares.length < config.threshold.toNat ∨
    (∃ share ∈ shares, share.index = 0) ∨ ¬ (shares.map Share.index).Nodup

theorem not_turnedDown_iff {shares : List Share} {config : ShamirConfig} :
    ¬ TurnedDown shares config ↔ checkShares shares config = .ok () := by
  rw [checkShares_eq_ok_iff]
  simp only [TurnedDown, not_or, ne_eq, not_not, not_lt, not_exists, not_and]

/-- **When reconstruction is total**: it never faults exactly if one of the checks turns the shares down,
or every share in use has data at least as long as those of the first one. -/
theorem reconstruct_total_iff (shares : List Share) (config : ShamirConfig) :
    (∀ fault, reconstruct shares config ≠ .error (.fault fault)) ↔
      TurnedDown shares config ∨
        ∀ first ∈ shares.head?, ∀ share ∈ shares.take config.threshold.toNat,
          first.data.length ≤ share.data.length := by
  cases checked : checkShares shares config with
  | error error =>
    refine iff_of_true (fun fault => ?_) (.inl ?_)
    · simp [reconstruct, checked, Except.mapError, bind, Except.bind]
    · by_contra passes
      rw [not_turnedDown_iff.mp passes] at checked
      cases checked
  | ok _ =>
    rw [or_iff_right (not_turnedDown_iff.mpr checked)]
    obtain ⟨valid, enough, _⟩ := checkShares_eq_ok_iff.mp checked
    have positive := (validate_eq_ok_iff.mp valid).1
    obtain ⟨first, rest, rfl⟩ : ∃ first rest, shares = first :: rest :=
      List.exists_cons_of_length_pos (by omega)
    obtain ⟨k, size⟩ := Nat.exists_eq_add_of_le' positive
    have head : indexVec ((first :: rest).take config.threshold.toNat) 0 = .ok first := by
      rw [size]
      rfl
    have computes : reconstruct (first :: rest) config =
        ((List.range first.data.length).mapM
          (reconstructByte ((first :: rest).take config.threshold.toNat))).mapError .fault := by
      unfold reconstruct
      simp only [checked, head, Except.mapError, bind, Except.bind]
    rw [computes, forall_mapError_ne_iff, exists_mapM_eq_ok_iff]
    simp only [exists_reconstructByte_iff, List.mem_range, List.head?_cons, Option.mem_some_iff,
      forall_eq']
    constructor
    · intro every share member
      by_contra short
      exact absurd (every _ (not_le.mp short) share member) (lt_irrefl _)
    · intro long byteIdx inside share member
      exact inside.trans_le (long share member)

/-- **A share that is too short**: the second share has no data, and its first byte is read. -/
theorem short_share_faults :
    ¬ ∀ (shares : List Share) (config : ShamirConfig) (fault : Fault),
      reconstruct shares config ≠ .error (.fault fault) := by
  intro claimed
  refine claimed [⟨1, [7], .zero⟩, ⟨2, [], .zero⟩] ⟨2, 2⟩ .indexOutOfBounds ?_
  decide +kernel

end Lengths

/-! ### What fewer shares say -/

section Secrecy

/-- **Values at as many indices as there are random coefficients** are those of exactly one choice of
them, whatever the byte of the secret. -/
theorem existsUnique_row {m : ℕ} {indices : Finset UInt8} (size : indices.card = m)
    (nonzero : 0 ∉ indices) (data : UInt8 → UInt8) (secretByte : UInt8) :
    ∃! row : Fin m → UInt8, ∀ x ∈ indices,
      evaluate (secretByte :: List.ofFn row) x = data x := by
  have distinct : (indices.toList.map Gf256.mk).Nodup :=
    (Finset.nodup_toList indices).map fun _ _ same => congrArg Gf256.byte same
  have apart : (0 : Gf256) ∉ indices.toList.map Gf256.mk := by
    intro member
    obtain ⟨x, among, zero⟩ := List.mem_map.mp member
    have isZero : x = 0 := congrArg Gf256.byte zero
    exact nonzero (isZero ▸ Finset.mem_toList.mp among)
  obtain ⟨cs, ⟨length, values⟩, unique⟩ :=
    existsUnique_coefficients distinct apart (fun x => ⟨data x.byte⟩) ⟨secretByte⟩
  rw [List.length_map, Finset.length_toList, size] at length
  -- a row fits the values exactly if its coefficients, as elements of the field, do
  have fits : ∀ row : Fin m → UInt8, (∀ x ∈ indices,
      evaluate (secretByte :: List.ofFn row) x = data x) ↔ (List.ofFn row).map Gf256.mk = cs := by
    intro row
    constructor
    · intro here
      refine unique _ ⟨by simp [size], fun x member => ?_⟩
      obtain ⟨byte, among, rfl⟩ := List.mem_map.mp member
      rw [← here byte (Finset.mem_toList.mp among)]
      exact (evaluate_eq (secretByte :: List.ofFn row) byte).symm
    · rintro rfl x member
      have value := values ⟨x⟩ (List.mem_map_of_mem (Finset.mem_toList.mpr member))
      have here := evaluate_eq (secretByte :: List.ofFn row) x
      exact congrArg Gf256.byte (here.trans value)
  refine ⟨fun i => (cs.get (i.cast length.symm)).byte, (fits _).mpr ?_, fun row here => ?_⟩
  · refine List.ext_getElem (by simp [length]) fun i _ _ => ?_
    simp
  · funext i
    have isCs := (fits row).mp here
    subst isCs
    simp

/-- The coefficients of one byte replaced. -/
def withRow {m : ℕ} (draw : ℕ → ℕ → UInt8) (byteIdx : ℕ) (row : Fin m → UInt8) :
    ℕ → ℕ → UInt8 :=
  fun b j => if b = byteIdx then (List.ofFn row)[j]?.getD 0 else draw b j

theorem coefficients_withRow {k : ℕ} (draw : ℕ → ℕ → UInt8) (byteIdx : ℕ)
    (row : Fin (k - 1) → UInt8) (secretByte : UInt8) :
    coefficients (withRow draw byteIdx row) k byteIdx secretByte = secretByte :: List.ofFn row := by
  unfold coefficients withRow
  congr 1
  refine List.ext_getElem (by simp) fun j inside inside' => ?_
  simp at inside'
  simp [inside']

/-- A share with a given index in range is one of those returned. -/
theorem exists_share {draw : ℕ → ℕ → UInt8} {blake3 : Blake3} {secret : List UInt8}
    {config : ShamirConfig} {shares : List Share}
    (done : split draw blake3 secret config = .ok shares) {x : UInt8} (low : 1 ≤ x.toNat)
    (high : x.toNat ≤ config.shares.toNat) : ∃ share ∈ shares, share.index = x := by
  rw [shares_of_split draw blake3 done]
  refine ⟨_, List.mem_map_of_mem (List.mem_range'_1.mpr ⟨low, by omega⟩), ?_⟩
  exact UInt8.ofNat_toNat

/-- What the shares of some indices hold at one byte is what its polynomial has there. -/
theorem data_iff {draw : ℕ → ℕ → UInt8} {blake3 : Blake3} {secret : List UInt8}
    {config : ShamirConfig} (valid : config.validate = .ok ()) {indices : Finset UInt8}
    (inRange : ∀ x ∈ indices, 1 ≤ x.toNat ∧ x.toNat ≤ config.shares.toNat) {byteIdx : ℕ}
    (inside : byteIdx < secret.length) (data : UInt8 → UInt8) :
    (∃ shares, split draw blake3 secret config = .ok shares ∧
        ∀ share ∈ shares, share.index ∈ indices → share.data[byteIdx]? = some (data share.index)) ↔
      ∀ x ∈ indices,
        evaluate (coefficients draw config.threshold.toNat byteIdx secret[byteIdx]) x = data x := by
  have done := split_eq_ok draw blake3 secret valid
  have value : ∀ x, (valuesAt draw secret config.threshold.toNat x)[byteIdx]? =
      some (evaluate (coefficients draw config.threshold.toNat byteIdx secret[byteIdx]) x) :=
    fun x => indexVec_eq_ok_iff.mp (indexVec_valuesAt draw _ x inside)
  constructor
  · rintro ⟨shares, given, holds⟩ x member
    obtain ⟨share, among, rfl⟩ := exists_share given (inRange x member).1 (inRange x member).2
    have here := holds share among member
    rw [(mem_of_split draw blake3 given among).2, value] at here
    exact Option.some.inj here
  · intro holds
    refine ⟨_, done, fun share among member => ?_⟩
    rw [(mem_of_split draw blake3 done among).2, value, holds share.index member]

/-- The coefficients of every byte of a secret. -/
def drawOf {length m : ℕ} (rows : Fin length → Fin m → UInt8) : ℕ → ℕ → UInt8 :=
  fun b j => if inside : b < length then (List.ofFn (rows ⟨b, inside⟩))[j]?.getD 0 else 0

theorem coefficients_drawOf {length k : ℕ} (rows : Fin length → Fin (k - 1) → UInt8)
    {byteIdx : ℕ} (inside : byteIdx < length) (secretByte : UInt8) :
    coefficients (drawOf rows) k byteIdx secretByte =
      secretByte :: List.ofFn (rows ⟨byteIdx, inside⟩) := by
  unfold coefficients drawOf
  congr 1
  refine List.ext_getElem (by simp) fun j here here' => ?_
  simp at here'
  simp [inside, here']

/-- The indices and data of the shares with given indices; nothing if there are no shares. -/
def dataFields (indices : Finset UInt8) :
    Except IdentityError (List Share) → List (UInt8 × List UInt8)
  | .ok shares =>
    (shares.filter fun share => share.index ∈ indices).map fun share => (share.index, share.data)
  | .error _ => []

/-- **The distribution of the data fields of some shares**, for uniform coefficients. -/
noncomputable def dataLaw (blake3 : Blake3) (config : ShamirConfig) (indices : Finset UInt8)
    (length : ℕ) (secret : List UInt8) : PMF (List (UInt8 × List UInt8)) :=
  (PMF.uniformOfFintype (Fin length → Fin (config.threshold.toNat - 1) → UInt8)).map fun rows =>
    dataFields indices (split (drawOf rows) blake3 secret config)

/-- **Another byte of the secret**: a bijection of the coefficients under which the values at few
indices stay. -/
theorem exists_row_shift {m : ℕ} {indices : Finset UInt8} (size : indices.card = m)
    (nonzero : 0 ∉ indices) (secretByte other : UInt8) :
    ∃ shift : (Fin m → UInt8) ≃ (Fin m → UInt8), ∀ row, ∀ x ∈ indices,
      evaluate (other :: List.ofFn (shift row)) x = evaluate (secretByte :: List.ofFn row) x := by
  have fitting := fun first second (row : Fin m → UInt8) =>
    existsUnique_row size nonzero (fun x => evaluate (first :: List.ofFn row) x) second
  choose forth fits unique using fun row => fitting secretByte other row
  choose back fits' unique' using fun row => fitting other secretByte row
  refine ⟨⟨forth, back, fun row => ?_, fun row => ?_⟩, fits⟩
  · exact (unique' _ row fun x member => (fits row x member).symm).symm
  · exact (unique _ row fun x member => (fits' row x member).symm).symm

theorem dataFields_split (draw : ℕ → ℕ → UInt8) (blake3 : Blake3) (secret : List UInt8)
    {config : ShamirConfig} (valid : config.validate = .ok ()) (indices : Finset UInt8) :
    dataFields indices (split draw blake3 secret config) =
      ((List.range' 1 config.shares.toNat).filter fun i => UInt8.ofNat i ∈ indices).map fun i =>
        (UInt8.ofNat i, valuesAt draw secret config.threshold.toNat (UInt8.ofNat i)) := by
  rw [split_eq_ok _ _ _ valid, dataFields, List.filter_map, List.map_map]
  rfl

/-- Two secrets have the same values at an index if their polynomials agree there, byte by byte. -/
theorem valuesAt_congr {draw draw' : ℕ → ℕ → UInt8} {secret other : List UInt8} {k : ℕ} {x : UInt8}
    (lengths : secret.length = other.length)
    (each : ∀ (b : ℕ) (inside : b < secret.length) (inside' : b < other.length),
      evaluate (coefficients draw k b secret[b]) x =
        evaluate (coefficients draw' k b other[b]) x) :
    valuesAt draw secret k x = valuesAt draw' other k x := by
  refine List.ext_getElem (by simp [length_valuesAt, lengths]) fun b here here' => ?_
  rw [length_valuesAt] at here here'
  simpa [valuesAt] using each b here here'

/-- **The data fields of few shares have one distribution**, whatever the secret of a given
length. -/
theorem dataLaw_eq (blake3 : Blake3) {config : ShamirConfig} (valid : config.validate = .ok ())
    {indices : Finset UInt8} (size : indices.card = config.threshold.toNat - 1)
    (nonzero : 0 ∉ indices) {secret other : List UInt8} {length : ℕ}
    (lengths : secret.length = length) (lengths' : other.length = length) :
    dataLaw blake3 config indices length secret = dataLaw blake3 config indices length other := by
  choose shift fits using fun b : Fin length =>
    exists_row_shift size nonzero (secret.get (b.cast lengths.symm)) (other.get (b.cast lengths'.symm))
  have views : (fun rows => dataFields indices (split (drawOf rows) blake3 secret config)) =
      (fun rows => dataFields indices (split (drawOf rows) blake3 other config)) ∘
        Equiv.piCongrRight shift := by
    funext rows
    show _ = dataFields indices (split (drawOf (Equiv.piCongrRight shift rows)) blake3 other config)
    rw [dataFields_split _ _ _ valid, dataFields_split _ _ _ valid]
    refine List.map_congr_left fun i among => Prod.ext rfl ?_
    have member : UInt8.ofNat i ∈ indices := by simpa using (List.mem_filter.mp among).2
    refine valuesAt_congr (lengths.trans lengths'.symm) fun b inside inside' => ?_
    rw [coefficients_drawOf _ (lengths ▸ inside), coefficients_drawOf _ (lengths ▸ inside)]
    exact (fits ⟨b, lengths ▸ inside⟩ (rows ⟨b, lengths ▸ inside⟩) _ member).symm
  unfold dataLaw
  rw [views, ← PMF.map_comp, map_uniformOfFintype]

/-- **Few shares hide the secret.** For every set of `threshold - 1` indices: whatever the secret, the
byte of it, the other coefficients and the data wanted at the byte, exactly one choice of its
`threshold - 1` coefficients gives the shares these data; and with uniform coefficients the data
fields of these shares have one distribution for all secrets of a length. -/
theorem shares_hide_secret (blake3 : Blake3) (config : ShamirConfig)
    (two : 2 ≤ config.threshold.toNat) (available : config.threshold.toNat ≤ config.shares.toNat)
    (indices : Finset UInt8) (size : indices.card = config.threshold.toNat - 1)
    (inRange : ∀ x ∈ indices, 1 ≤ x.toNat ∧ x.toNat ≤ config.shares.toNat) :
    (∀ (secret : List UInt8) (draw : ℕ → ℕ → UInt8) (byteIdx : ℕ) (data : UInt8 → UInt8),
        byteIdx < secret.length →
        ∃! row : Fin (config.threshold.toNat - 1) → UInt8,
          ∃ shares, split (withRow draw byteIdx row) blake3 secret config = .ok shares ∧
            ∀ share ∈ shares, share.index ∈ indices →
              share.data[byteIdx]? = some (data share.index)) ∧
      ∀ (length : ℕ) (secret other : List UInt8), secret.length = length → other.length = length →
        dataLaw blake3 config indices length secret = dataLaw blake3 config indices length other := by
  have valid := validate_eq_ok_iff.mpr ⟨by omega, available⟩
  have nonzero : 0 ∉ indices := by
    intro member
    have low := (inRange 0 member).1
    rw [UInt8.toNat_zero] at low
    omega
  refine ⟨fun secret draw byteIdx data inside => ?_, fun length secret other lengths lengths' => ?_⟩
  · have fits := fun row : Fin (config.threshold.toNat - 1) → UInt8 =>
      @data_iff (withRow draw byteIdx row) blake3 secret config valid indices inRange byteIdx inside
        data
    simp only [fits, coefficients_withRow]
    exact existsUnique_row size nonzero data secret[byteIdx]
  · exact dataLaw_eq blake3 valid size nonzero lengths lengths'

/-- The third of three shares fits a byte of the secret with one coefficient. -/
theorem one_of_three_fits :
    ∃! row : Fin ((⟨2, 3⟩ : ShamirConfig).threshold.toNat - 1) → UInt8,
      ∃ shares, split (withRow (fun _ _ => 0) 0 row) Blake3.hash [7] ⟨2, 3⟩ = .ok shares ∧
        ∀ share ∈ shares, share.index ∈ ({3} : Finset UInt8) → share.data[0]? = some 200 :=
  (shares_hide_secret Blake3.hash ⟨2, 3⟩ (by decide) (by decide) {3} (by decide +kernel)
    (by decide +kernel)).1 [7] (fun _ _ => 0) 0 (fun _ => 200) (by decide)

end Secrecy

end Exochain.ExoIdentity
