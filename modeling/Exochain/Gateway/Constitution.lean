/-
**`exo-gateway` — the constitution and its tenants.**

The state of the gateway holds one constitution. An amendment names a tenant, but it chains its hash to
whatever constitution is there, bumps its version and puts its own tenant on it; a query answers it to the
tenant it names, and makes up a first version for everyone else.

* `bumpVersion_numeral` — a version that counts its amendments counts one more.
* `run_numbered` — after a run: as many patches as amendments of all tenants together, under the name of
  the last one.
* `constitution_isolated_iff` — **a tenant sees what its own amendments alone would have made exactly in
  the runs where no other tenant amends, or where it never amends itself and has no constitution at the
  start.**
-/

import Exochain.Foundation.Run
import Exochain.Foundation.Blake3
import Exochain.Core.Types

namespace Exochain.ExoGateway

open Foundation ExoCore

/-! ### Versions -/

/-- Split a text at a separator into at most `count` parts; the last part keeps what is left. -/
def splitn (separator : Char) : ℕ → List Char → List (List Char)
  | 0, _ => []
  | 1, text => [text]
  | count + 2, text =>
    match text.span (· ≠ separator) with
    | (part, []) => [part]
    | (part, _ :: rest) => part :: splitn separator (count + 1) rest

/-- Parse an unsigned 32-bit number: digits, after a plus sign if there is one. -/
def parseU32 (text : List Char) : Option ℕ :=
  let digits := if text.head? = some '+' then text.tail else text
  if digits.isEmpty || !digits.all Char.isDigit then none
  else
    let value := Nat.ofDigitChars 10 digits 0
    if value < 2 ^ 32 then some value else none

/-- The next patch of a version; a text of another form gets one more part. -/
def bumpVersion (build : Build) (version : String) : Except Fault String :=
  match splitn '.' 3 version.toList with
  | [major, minor, patch] =>
    match parseU32 patch with
    | some patch => do
      let next ← build.add 32 patch 1
      return String.ofList major ++ "." ++ String.ofList minor ++ "." ++ toString next
    | none => .ok (version ++ ".1")
  | _ => .ok (version ++ ".1")

example : bumpVersion ⟨true⟩ "1.0.9" = .ok "1.0.10" := by decide +kernel

/-! ### The constitution -/

/-- A snapshot of the constitutional corpus of a tenant. -/
structure GqlConstitution where
  tenantId : String
  version : String
  hash : String
  deriving DecidableEq, Repr

/-- An amendment, with the tenant that it names. -/
structure Amendment where
  tenantId : String
  amendment : String
  deriving DecidableEq, Repr

namespace GqlConstitution

variable (blake3 : Blake3) (build : Build)

/-- The constitution of a new state. -/
def new : GqlConstitution :=
  { tenantId := "default"
    version := "1.0.0"
    hash := (Hash256.digest blake3 (textBytes "constitution-v1")).display }

/-- The constitution that a query answers, from the one in the state. -/
def query (constitution : GqlConstitution) (tenantId : String) : GqlConstitution :=
  if constitution.tenantId = tenantId then constitution
  else
    { tenantId := tenantId
      version := "1.0.0"
      hash := (Hash256.digest blake3 (textBytes tenantId)).display }

/-- Amend the constitution in the state. -/
def amendConstitution (constitution : GqlConstitution) (amendment : Amendment) :
    Except Fault GqlConstitution := do
  let newHash := (Hash256.digest blake3
    (textBytes (constitution.hash ++ ":" ++ amendment.amendment))).display
  let version ← bumpVersion build constitution.version
  return ⟨amendment.tenantId, version, newHash⟩

/-- The constitution in the state after an amendment; a fault leaves it. -/
def amended (constitution : GqlConstitution) (amendment : Amendment) : GqlConstitution :=
  match constitution.amendConstitution blake3 build amendment with
  | .ok after => after
  | .error _ => constitution

/-- The constitution after a run of amendments on a new state. -/
abbrev after (amendments : List Amendment) : GqlConstitution :=
  run (amended blake3 build) (new blake3) amendments

/-- **What a tenant is promised**: its query answers what its own amendments alone would have made. -/
def Isolated (tenant : String) (amendments : List Amendment) : Prop :=
  (after blake3 build amendments).query blake3 tenant =
    (after blake3 build (amendments.filter (·.tenantId = tenant))).query blake3 tenant

/-! ### Counting amendments -/

/-- A version that has been bumped `patch` times. -/
def numbered (patch : ℕ) : String := "1.0." ++ toString patch

theorem parseU32_toString {patch : ℕ} (fits : patch < 2 ^ 32) :
    parseU32 (toString patch).toList = some patch := by
  have digits : (toString patch).toList = Nat.toDigits 10 patch := Nat.toList_repr
  have all : ∀ c ∈ Nat.toDigits 10 patch, c.isDigit = true := fun c member =>
    Nat.isDigit_of_mem_toDigits (by omega) le_rfl member
  have unsigned : (Nat.toDigits 10 patch).head? ≠ some '+' := by
    intro plus
    exact absurd (all '+' (List.mem_of_mem_head? plus)) (by decide)
  have some_digit : Nat.toDigits 10 patch ≠ [] := List.ne_nil_of_length_pos Nat.length_toDigits_pos
  rw [digits, parseU32, if_neg unsigned]
  simpa [some_digit, List.all_eq_true.mpr all, Nat.ofDigitChars_ten_toDigits] using fits

/-- **A version that counts its amendments counts one more.** -/
theorem bumpVersion_numeral {patch : ℕ} (fits : patch + 1 < 2 ^ 32) :
    bumpVersion build (numbered patch) = .ok (numbered (patch + 1)) := by
  have parts : splitn '.' 3 (numbered patch).toList = [['1'], ['0'], (toString patch).toList] := by
    rw [numbered, String.toList_append]
    rfl
  rw [bumpVersion, parts]
  dsimp only
  rw [parseU32_toString (by omega)]
  dsimp only
  rw [Build.add_of_lt fits]
  rfl

theorem numbered_injective {patch patch' : ℕ} (same : numbered patch = numbered patch') :
    patch = patch' := by
  have chars := congrArg String.toList same
  rw [numbered, numbered, String.toList_append, String.toList_append] at chars
  exact Nat.repr_injective (String.toList_injective (List.append_cancel_left chars))

/-! ### Runs of amendments -/

variable {blake3} {build} {tenant : String} {amendments : List Amendment}

/-- While the patches last, an amendment counts one and puts its tenant's name on the constitution. -/
theorem amended_numbered {constitution : GqlConstitution} {patch : ℕ}
    (counted : constitution.version = numbered patch) (fits : patch + 1 < 2 ^ 32)
    (amendment : Amendment) :
    (constitution.amended blake3 build amendment).version = numbered (patch + 1) ∧
      (constitution.amended blake3 build amendment).tenantId = amendment.tenantId := by
  rw [amended, amendConstitution, counted, bumpVersion_numeral build fits]
  exact ⟨rfl, rfl⟩

/-- **After a run** the version counts the amendments of all tenants. -/
theorem run_numbered (short : amendments.length < 2 ^ 32) :
    (after blake3 build amendments).version = numbered amendments.length := by
  induction amendments using List.reverseRecOn with
  | nil => rfl
  | append_singleton earlier last ih =>
    rw [List.length_append, List.length_singleton] at short ⊢
    rw [after, run_append]
    exact (amended_numbered (ih (by omega)) short last).1

/-- The constitution has the name of the last amendment on it. -/
theorem tenantId_concat {earlier : List Amendment} {last : Amendment}
    (short : (earlier ++ [last]).length < 2 ^ 32) :
    (after blake3 build (earlier ++ [last])).tenantId = last.tenantId := by
  rw [List.length_append, List.length_singleton] at short
  rw [after, run_append]
  exact (amended_numbered (run_numbered (by omega)) short last).2

/-- An amendment puts its name on the constitution, unless it faults. -/
theorem tenantId_amended (constitution : GqlConstitution) (amendment : Amendment) :
    (constitution.amended blake3 build amendment).tenantId = constitution.tenantId ∨
      (constitution.amended blake3 build amendment).tenantId = amendment.tenantId := by
  unfold amended amendConstitution
  cases bumpVersion build constitution.version with
  | error fault => exact .inl rfl
  | ok version => exact .inr rfl

/-- The name on the constitution is the first one or that of some amendment, in every build. -/
theorem tenantId_after (blake3 : Blake3) (build : Build) (amendments : List Amendment) :
    (after blake3 build amendments).tenantId = "default" ∨
      ∃ amendment ∈ amendments, (after blake3 build amendments).tenantId = amendment.tenantId := by
  induction amendments using List.reverseRecOn with
  | nil => exact .inl rfl
  | append_singleton earlier last ih =>
    rw [after, run_append]
    rcases tenantId_amended (run (amended blake3 build) (new blake3) earlier) last with kept | named
    · rcases ih with first | ⟨amendment, member, same⟩
      · exact .inl (kept.trans first)
      · exact .inr ⟨amendment, List.mem_append_left _ member, kept.trans same⟩
    · exact .inr ⟨last, by simp, named⟩

theorem query_of_other {constitution : GqlConstitution} (other : constitution.tenantId ≠ tenant) :
    constitution.query blake3 tenant =
      ⟨tenant, numbered 0, (Hash256.digest blake3 (textBytes tenant)).display⟩ := if_neg other

/-- All amendments are the tenant's own, or it never amends and has no constitution at the start. -/
def OnItsOwn (tenant : String) (amendments : List Amendment) : Prop :=
  (∀ amendment ∈ amendments, amendment.tenantId = tenant) ∨
    tenant ≠ "default" ∧ ∀ amendment ∈ amendments, amendment.tenantId ≠ tenant

/-- On its own a tenant is isolated, in every build and for every digest. -/
theorem isolated_of_onItsOwn (own : OnItsOwn tenant amendments) :
    Isolated blake3 build tenant amendments := by
  unfold Isolated
  rcases own with all | ⟨unknown, none⟩
  · rw [List.filter_eq_self.mpr fun amendment member => decide_eq_true (all amendment member)]
  · have nothing : amendments.filter (·.tenantId = tenant) = [] :=
      List.filter_eq_nil_iff.mpr fun amendment member => by simpa using none amendment member
    have other : (after blake3 build amendments).tenantId ≠ tenant := by
      intro named
      rcases tenantId_after blake3 build amendments with first | ⟨amendment, member, same⟩
      · exact unknown (named.symm.trans first)
      · exact none amendment member (same.symm.trans named)
    rw [nothing, query_of_other other, query_of_other (Ne.symm unknown)]

/-- A tenant that has amended is isolated only if no other one has. -/
theorem all_own_of_isolated (short : amendments.length < 2 ^ 32)
    (isolated : Isolated blake3 build tenant amendments)
    (amends : amendments.filter (·.tenantId = tenant) ≠ []) :
    ∀ amendment ∈ amendments, amendment.tenantId = tenant := by
  unfold Isolated at isolated
  have fewer := List.length_filter_le (·.tenantId = tenant) amendments
  -- what the own amendments make is the tenant's, and counts them
  have ownNamed : (after blake3 build (amendments.filter (·.tenantId = tenant))).tenantId =
      tenant := by
    obtain ⟨earlier, last, split⟩ := (List.eq_nil_or_concat' _).resolve_left amends
    have member : last ∈ amendments.filter (·.tenantId = tenant) := by rw [split]; simp
    rw [split, tenantId_concat (by rw [← split]; omega)]
    simpa using (List.mem_filter.mp member).2
  have ownVersion : (after blake3 build (amendments.filter (·.tenantId = tenant))).version = _ :=
    run_numbered (lt_of_le_of_lt fewer short)
  have counts := congrArg GqlConstitution.version isolated
  rw [query, query, if_pos ownNamed, ownVersion] at counts
  by_cases named : (after blake3 build amendments).tenantId = tenant
  · rw [if_pos named, run_numbered short] at counts
    have lengths := numbered_injective counts
    intro amendment member
    simpa using List.length_filter_eq_length_iff.mp lengths.symm amendment member
  · rw [if_neg named] at counts
    have zero : 0 = (amendments.filter (·.tenantId = tenant)).length := numbered_injective counts
    exact absurd (List.length_eq_zero_iff.mp zero.symm) amends

/-- **When a tenant's constitution is its own**: if no other tenant amends in the run, or the tenant
itself does not and is not the one of the start. This is enough in every run; and while the patches last
and the digest tells the two first constitutions apart, it is needed. -/
theorem constitution_isolated_iff (blake3 : Blake3) (build : Build) (tenant : String)
    (amendments : List Amendment) :
    (OnItsOwn tenant amendments → Isolated blake3 build tenant amendments) ∧
      (amendments.length < 2 ^ 32 →
        blake3 (textBytes "default") ≠ blake3 (textBytes "constitution-v1") →
          Isolated blake3 build tenant amendments → OnItsOwn tenant amendments) := by
  refine ⟨isolated_of_onItsOwn, fun short apart isolated => ?_⟩
  by_cases amends : amendments.filter (·.tenantId = tenant) = []
  · have none : ∀ amendment ∈ amendments, amendment.tenantId ≠ tenant := fun amendment member => by
      simpa using List.filter_eq_nil_iff.mp amends amendment member
    by_cases first : tenant = "default"
    · cases amendments using List.reverseRecOn with
      | nil => exact .inl fun _ member => absurd member List.not_mem_nil
      | append_singleton earlier last =>
        have other : (after blake3 build (earlier ++ [last])).tenantId ≠ tenant := by
          rw [tenantId_concat short]
          exact none last (by simp)
        unfold Isolated at isolated
        rw [amends, query_of_other other, first] at isolated
        have digests := Hash256.display_injective (congrArg GqlConstitution.hash isolated)
        exact absurd digests apart
    · exact .inr ⟨first, none⟩
  · exact .inl (all_own_of_isolated short isolated amends)

namespace TwoTenants

/-- Two amendments of one tenant, and one of another after the first. -/
def acmeAlone : List Amendment := [⟨"acme", "article 1"⟩, ⟨"acme", "article 2"⟩]

def acmeThenGlobex : List Amendment := [⟨"acme", "article 1"⟩, ⟨"globex", "article 9"⟩]

/-- A tenant that is alone sees its own amendments, and that is why. -/
theorem acmeAlone_isolated :
    Isolated Blake3.hash ⟨true⟩ "acme" acmeAlone ∧ OnItsOwn "acme" acmeAlone := by
  have isolated : Isolated Blake3.hash ⟨true⟩ "acme" acmeAlone :=
    (constitution_isolated_iff Blake3.hash ⟨true⟩ "acme" acmeAlone).1 (.inl (by decide))
  exact ⟨isolated, (constitution_isolated_iff Blake3.hash ⟨true⟩ "acme" acmeAlone).2 (by decide)
    (by decide +kernel) isolated⟩

/-- **Another tenant's amendment takes the constitution away**: the query answers a first version that
was never amended. -/
theorem acme_loses_article :
    ¬ ∀ (tenant : String) (amendments : List Amendment),
      Isolated Blake3.hash ⟨true⟩ tenant amendments := by
  intro claimed
  have versions := congrArg GqlConstitution.version (claimed "acme" acmeThenGlobex)
  revert versions
  decide +kernel

end TwoTenants

end GqlConstitution

end Exochain.ExoGateway
