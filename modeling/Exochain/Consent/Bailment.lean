/-
**`exo-consent` — the life of a bailment.**

A bailment is proposed, accepted with a signature that is not a placeholder, and terminated by one of its two
parties. Calls may come in any order, from anyone and as often as they like.

* `step_accept`, `step_terminate` — what one call does.
* **`lifecycle_exact`** — after any run of calls on a proposal: it is terminated exactly if a party terminated it
  at some point, and active exactly if none did and it was accepted; the signature is the first one that it was
  accepted with before that.
-/

import Exochain.Foundation.Run
import Exochain.Consent.Policy

set_option linter.unusedSectionVars false

namespace Exochain.ExoConsent

open Foundation ExoCore

/-! ### Calls -/

/-- The name of a status in texts. -/
def BailmentStatus.display : BailmentStatus → String
  | proposed => "Proposed"
  | active => "Active"
  | suspended => "Suspended"
  | terminated => "Terminated"
  | expired => "Expired"

/-- What a call fails with. -/
inductive ConsentError where
  | invalidState (expected actual : String)
  | unauthorized (reason : String)
  | invalidSignature
  deriving DecidableEq

/-- The text of an error. -/
def ConsentError.display : ConsentError → String
  | invalidState expected actual => "invalid bailment state: expected " ++ expected ++ ", got " ++ actual
  | unauthorized reason => "unauthorized: " ++ reason
  | invalidSignature => "invalid signature"

/-- Propose a bailment, with the identifier and the time it is given. -/
def propose (blake3 : Blake3) (id : String) (created : Timestamp) (bailor bailee : Did)
    (terms : List UInt8) (bailmentType : BailmentType) : Bailment where
  id
  bailorDid := bailor
  baileeDid := bailee
  bailmentType
  termsHash := Hash256.digest blake3 terms
  created
  expires := none
  status := .proposed
  signature := .empty

namespace Bailment

/-- Accept a proposed bailment. -/
def accept (bailment : Bailment) (baileeSignature : Signature) : Except ConsentError Unit × Bailment :=
  if bailment.status ≠ .proposed then
    (.error (.invalidState "Proposed" bailment.status.display), bailment)
  else if baileeSignature.isEmpty then (.error .invalidSignature, bailment)
  else (.ok (), { bailment with signature := baileeSignature, status := .active })

/-- Terminate a bailment, as either party. -/
def terminate (bailment : Bailment) (actor : Did) : Except ConsentError Unit × Bailment :=
  if bailment.status = .terminated ∨ bailment.status = .expired then
    (.error (.invalidState "Active, Proposed, or Suspended" bailment.status.display), bailment)
  else if actor ≠ bailment.bailorDid ∧ actor ≠ bailment.baileeDid then
    (.error (.unauthorized ("DID " ++ actor.value ++ " is neither bailor nor bailee")), bailment)
  else (.ok (), { bailment with status := .terminated })

/-- A call on a bailment. -/
inductive Call where
  | accept (baileeSignature : Signature)
  | terminate (actor : Did)
  deriving DecidableEq

/-- The bailment after a call. -/
def step (bailment : Bailment) : Call → Bailment
  | .accept baileeSignature => (bailment.accept baileeSignature).2
  | .terminate actor => (bailment.terminate actor).2

/-- One of the two who are bound. -/
def Party (bailment : Bailment) (actor : Did) : Prop :=
  actor = bailment.bailorDid ∨ actor = bailment.baileeDid

instance (bailment : Bailment) (actor : Did) : Decidable (bailment.Party actor) :=
  inferInstanceAs (Decidable (_ ∨ _))

/-! ### One call -/

/-- **An acceptance** changes a proposal, if it is signed. -/
theorem step_accept (bailment : Bailment) (signature : Signature) :
    bailment.step (.accept signature) =
      if bailment.status = .proposed ∧ signature.isEmpty = false then
        { bailment with signature := signature, status := .active }
      else bailment := by
  show (bailment.accept signature).2 = _
  unfold accept
  by_cases proposed : bailment.status = .proposed
  · rw [if_neg (not_not.mpr proposed)]
    by_cases placeholder : signature.isEmpty = true
    · rw [if_pos placeholder, if_neg fun both => Bool.noConfusion (placeholder.symm.trans both.2)]
    · rw [if_neg placeholder, if_pos ⟨proposed, Bool.eq_false_iff.mpr placeholder⟩]
  · rw [if_pos proposed, if_neg fun both => proposed both.1]

/-- **A termination** changes what is not over, if it comes from a party. -/
theorem step_terminate (bailment : Bailment) (actor : Did) :
    bailment.step (.terminate actor) =
      if (bailment.status ≠ .terminated ∧ bailment.status ≠ .expired) ∧ bailment.Party actor then
        { bailment with status := .terminated }
      else bailment := by
  show (bailment.terminate actor).2 = _
  unfold terminate
  by_cases ended : bailment.status = .terminated ∨ bailment.status = .expired
  · rw [if_pos ended, if_neg fun both => (not_or.mpr both.1) ended]
  · rw [if_neg ended]
    by_cases party : bailment.Party actor
    · rw [if_neg (not_and_or.mpr (party.imp not_not.mpr not_not.mpr)), if_pos ⟨not_or.mp ended, party⟩]
    · rw [if_pos (not_or.mp party), if_neg fun both => party both.2]

/-! ### A run of calls -/

/-- A party terminated. -/
def Ended (bailment : Bailment) (calls : List Call) : Prop :=
  ∃ actor, .terminate actor ∈ calls ∧ bailment.Party actor

/-- The signature of the first acceptance before a party terminated. -/
def acceptedWith (bailment : Bailment) : List Call → Option Signature
  | [] => none
  | .accept signature :: later => if signature.isEmpty then acceptedWith bailment later else some signature
  | .terminate actor :: later => if bailment.Party actor then none else acceptedWith bailment later

section Run

variable {bailment : Bailment} {calls : List Call}

theorem not_ended_nil : ¬ bailment.Ended [] := fun ⟨_, member, _⟩ => List.not_mem_nil member

theorem ended_accept_cons {signature : Signature} :
    bailment.Ended (.accept signature :: calls) ↔ bailment.Ended calls := by
  simp [Ended]

theorem ended_terminate_cons {actor : Did} :
    bailment.Ended (.terminate actor :: calls) ↔ bailment.Party actor ∨ bailment.Ended calls := by
  simp [Ended, or_and_right, exists_or]

theorem run_of_terminated (ended : bailment.status = .terminated) (calls : List Call) :
    run step bailment calls = bailment := by
  induction calls with
  | nil => rfl
  | cons call calls ih =>
    have same : bailment.step call = bailment := by
      cases call with
      | accept signature => rw [step_accept, if_neg (by rw [ended]; rintro ⟨proposed, -⟩; cases proposed)]
      | terminate actor => rw [step_terminate, if_neg fun all => all.1.1 ended]
    rw [run_cons, same, ih]

/-- What becomes of an active bailment. -/
theorem run_of_active (bailment : Bailment) (active : bailment.status = .active) (calls : List Call) :
    (bailment.Ended calls ∧ run step bailment calls = { bailment with status := .terminated }) ∨
    (¬ bailment.Ended calls ∧ run step bailment calls = bailment) := by
  induction calls with
  | nil => exact .inr ⟨not_ended_nil, rfl⟩
  | cons call calls ih =>
    cases call with
    | accept signature =>
      have same : bailment.step (.accept signature) = bailment := by
        rw [step_accept, if_neg (by rw [active]; rintro ⟨proposed, -⟩; cases proposed)]
      rw [run_cons, same, ended_accept_cons]
      exact ih
    | terminate actor =>
      have standing : bailment.status ≠ .terminated ∧ bailment.status ≠ .expired := by
        rw [active]
        decide
      rw [run_cons, ended_terminate_cons, step_terminate]
      by_cases party : bailment.Party actor
      · rw [if_pos ⟨standing, party⟩, run_of_terminated rfl]
        exact .inl ⟨.inl party, rfl⟩
      · rw [if_neg fun all => party all.2, or_iff_right party]
        exact ih

/-- What becomes of a proposal. -/
theorem run_of_proposed (bailment : Bailment) (proposed : bailment.status = .proposed) (calls : List Call) :
    (bailment.Ended calls ∧ run step bailment calls =
      { bailment with
        status := .terminated
        signature := (bailment.acceptedWith calls).getD bailment.signature }) ∨
    (¬ bailment.Ended calls ∧ run step bailment calls =
      match bailment.acceptedWith calls with
      | some signature => { bailment with status := .active, signature := signature }
      | none => bailment) := by
  induction calls with
  | nil => exact .inr ⟨not_ended_nil, rfl⟩
  | cons call calls ih =>
    cases call with
    | accept signature =>
      rw [run_cons, ended_accept_cons, step_accept, acceptedWith]
      by_cases placeholder : signature.isEmpty = true
      · rw [if_neg fun both => Bool.noConfusion (placeholder.symm.trans both.2), if_pos placeholder]
        exact ih
      · rw [if_pos ⟨proposed, Bool.eq_false_iff.mpr placeholder⟩, if_neg placeholder]
        exact run_of_active { bailment with signature := signature, status := .active } rfl calls
    | terminate actor =>
      have standing : bailment.status ≠ .terminated ∧ bailment.status ≠ .expired := by
        rw [proposed]
        decide
      rw [run_cons, ended_terminate_cons, step_terminate, acceptedWith]
      by_cases party : bailment.Party actor
      · rw [if_pos ⟨standing, party⟩, run_of_terminated rfl, if_pos party]
        exact .inl ⟨.inl party, rfl⟩
      · rw [if_neg fun all => party all.2, if_neg party, or_iff_right party]
        exact ih

/-- **The life of a bailment**: after any run of calls on a proposal, from anyone, it is terminated exactly if
a party terminated it, and active, then and for good, exactly if none did and it was accepted; its signature is
the one of the first acceptance before that, and all else is as proposed. -/
theorem lifecycle_exact (blake3 : Blake3) (id : String) (created : Timestamp) (bailor bailee : Did)
    (terms : List UInt8) (bailmentType : BailmentType) (calls : List Call) :
    let proposal := propose blake3 id created bailor bailee terms bailmentType
    let bailment := run step proposal calls
    (bailment.status = .terminated ↔ proposal.Ended calls) ∧
    (∀ now, bailment.isActive now = true ↔
      ¬ proposal.Ended calls ∧ (proposal.acceptedWith calls).isSome = true) ∧
    bailment = { proposal with
      status := bailment.status
      signature := (proposal.acceptedWith calls).getD .empty } := by
  intro proposal bailment
  rcases run_of_proposed proposal rfl calls with ⟨ended, after⟩ | ⟨standing, after⟩
  · have same : bailment = _ := after
    refine ⟨iff_of_true (by rw [same]) ended, fun now => ?_, by rw [same]; rfl⟩
    rw [isActive_iff, same]
    exact iff_of_false (fun both => nomatch both.1) fun both => both.1 ended
  · have same : bailment = _ := after
    cases accepted : proposal.acceptedWith calls with
    | none =>
      rw [accepted] at same
      refine ⟨iff_of_false (by rw [same]; exact nofun) standing, fun now => ?_, by rw [same]; rfl⟩
      rw [isActive_iff, same]
      exact iff_of_false (fun both => nomatch both.1) fun both => Bool.noConfusion both.2
    | some signature =>
      rw [accepted] at same
      refine ⟨iff_of_false (by rw [same]; exact nofun) standing, fun now => ?_, by rw [same]; rfl⟩
      rw [isActive_iff, same]
      exact iff_of_true ⟨rfl, fun exp expires => nomatch expires⟩ ⟨standing, rfl⟩

end Run

end Bailment

end Exochain.ExoConsent
