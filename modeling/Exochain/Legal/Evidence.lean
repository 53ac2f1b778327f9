/-
**`exo-legal` — the custody of evidence.**

Evidence carries the time of its creation and a list of transfers. A transfer is by the current custodian, and
its time is a millisecond after that of the transfer before it, or after the creation. The logical part starts
again at zero, which does no harm as the milliseconds grow; the milliseconds have an end.

* `transferCustody_cases` — what an attempt can do.
* `Held` — what the transfers say of the custodian and of their times, while the milliseconds last.
* **`custody_sound_iff`** — custody is sound over a run exactly if the milliseconds last for its transfers.
* `LastMillisecond.no_transfer` — evidence of the last millisecond.
-/

import Exochain.Foundation.Run
import Exochain.Legal.Error

set_option linter.unusedSectionVars false

namespace Exochain.ExoLegal

open Foundation ExoCore

/-! ### Evidence and its transfers -/

/-- Whether evidence may be used. -/
inductive AdmissibilityStatus where
  | admissible
  | challenged
  | excluded
  | pending
  deriving DecidableEq, Repr

/-- A transfer of custody. -/
structure CustodyTransfer where
  fromDid : Did
  toDid : Did
  timestamp : Timestamp
  reason : String
  deriving DecidableEq

/-- A piece of evidence. -/
structure Evidence where
  id : Uuid
  typeTag : String
  hash : Hash256
  creator : Did
  timestamp : Timestamp
  chainOfCustody : List CustodyTransfer
  admissibilityStatus : AdmissibilityStatus
  deriving DecidableEq

/-- How a transfer fails: with an error, or with a fault of a checked build. -/
inductive TransferFailure where
  | error (error : LegalError)
  | fault (fault : Fault)
  deriving DecidableEq

/-- Create evidence, with the identifier it is given. -/
def createEvidence (blake3 : Blake3) (id : Uuid) (data : List UInt8) (creator : Did) (typeTag : String)
    (timestamp : Timestamp) : Except LegalError Evidence :=
  if timestamp = Timestamp.zero then
    .error (.invalidStateTransition
      "evidence timestamp must not be Timestamp::ZERO; provide a real HLC timestamp")
  else
    .ok
      { id := id
        typeTag := typeTag
        hash := Hash256.digest blake3 data
        creator := creator
        timestamp := timestamp
        chainOfCustody := []
        admissibilityStatus := .pending }

namespace Evidence

/-- Who holds the evidence: who it was transferred to last, or its creator. -/
def custodian (evidence : Evidence) : Did :=
  (evidence.chainOfCustody.getLast?.map CustodyTransfer.toDid).getD evidence.creator

/-- The milliseconds of the next transfer. Those after the creation are computed in any case. -/
def nextMs (build : Build) (evidence : Evidence) : Except Fault ℕ := do
  let afterLast ← evidence.chainOfCustody.getLast?.mapM fun transfer =>
    build.add 64 transfer.timestamp.physicalMs.toNat 1
  let afterCreation ← build.add 64 evidence.timestamp.physicalMs.toNat 1
  return afterLast.getD afterCreation

/-- The transfer that an attempt records. -/
def newTransfer (fromDid toDid : Did) (prevMs : ℕ) : CustodyTransfer :=
  { fromDid := fromDid, toDid := toDid, timestamp := ⟨UInt64.ofNat prevMs, 0⟩, reason := "custody transfer" }

/-- Transfer custody: the answer, and the evidence left behind. -/
def transferCustody (build : Build) (evidence : Evidence) (fromDid toDid : Did) :
    Except TransferFailure Unit × Evidence :=
  let current := evidence.custodian
  if current ≠ fromDid then
    (.error (.error (.custodyTransferFailed
      ("current custodian is " ++ current.value ++ ", not " ++ fromDid.value))), evidence)
  else
    match evidence.nextMs build with
    | .error fault => (.error (.fault fault), evidence)
    | .ok prevMs =>
      (.ok (), { evidence with
        chainOfCustody := evidence.chainOfCustody ++ [newTransfer fromDid toDid prevMs] })

/-- Check transfers from an index on, the first of them by the expected custodian. -/
def verifyTransfers (expected : Did) (index : ℕ) : List CustodyTransfer → Except LegalError Unit
  | [] => .ok ()
  | transfer :: rest =>
    if transfer.fromDid ≠ expected then .error (.custodyChainBroken index)
    else verifyTransfers transfer.toDid (index + 1) rest

/-- Check that each transfer is by the custodian the one before it names. -/
def verifyChainOfCustody (evidence : Evidence) : Except LegalError Unit :=
  verifyTransfers evidence.creator 0 evidence.chainOfCustody

end Evidence

/-! ### Runs of attempts -/

/-- An attempt at a transfer. -/
structure Attempt where
  fromDid : Did
  toDid : Did
  deriving DecidableEq

/-- The evidence after an attempt. -/
def afterAttempt (build : Build) (evidence : Evidence) (attempt : Attempt) : Evidence :=
  (evidence.transferCustody build attempt.fromDid attempt.toDid).2

/-- Who holds the evidence after some attempts: an attempt of another than the holder changes nothing. -/
def holderAfter (holder : Did) (attempts : List Attempt) : Did :=
  attempts.foldl (fun holder attempt => if attempt.fromDid = holder then attempt.toDid else holder) holder

/-- The attempts of whoever holds the evidence. -/
def attemptsOfHolder : Did → List Attempt → ℕ
  | _, [] => 0
  | holder, attempt :: attempts =>
    if attempt.fromDid = holder then attemptsOfHolder attempt.toDid attempts + 1
    else attemptsOfHolder holder attempts

/-- The transfers form a path from a holder on: each is by whom the one before it went to. -/
def TransferPath : Did → List CustodyTransfer → Prop :=
  Threaded (fun holder transfer => transfer.fromDid = holder) CustodyTransfer.toDid

/-- **Sound custody**: the transfers lead from the creator to the holder, at growing times after the
creation. -/
structure CustodySound (evidence : Evidence) (holder : Did) : Prop where
  path : TransferPath evidence.creator evidence.chainOfCustody
  custodian : handedOn CustodyTransfer.toDid evidence.creator evidence.chainOfCustody = holder
  increasing : evidence.chainOfCustody.Pairwise (·.timestamp < ·.timestamp)
  later : ∀ transfer ∈ evidence.chainOfCustody, evidence.timestamp < transfer.timestamp
  verified : evidence.verifyChainOfCustody = .ok ()

/-- An attempt has no fault, and one that is refused leaves the evidence as it was. -/
def AttemptSound (build : Build) (evidence : Evidence) (attempt : Attempt) : Prop :=
  (∀ fault, (evidence.transferCustody build attempt.fromDid attempt.toDid).1 ≠ .error (.fault fault)) ∧
    ∀ failure, (evidence.transferCustody build attempt.fromDid attempt.toDid).1 = .error failure →
      afterAttempt build evidence attempt = evidence

/-- **Sound custody over a run** of attempts. -/
structure CustodyRunSound (build : Build) (evidence : Evidence) (holder : Did) (attempts : List Attempt) :
    Prop where
  calls : Along (afterAttempt build) (AttemptSound build) evidence attempts
  sound : CustodySound (run (afterAttempt build) evidence attempts) (holderAfter holder attempts)

/-! ### One attempt -/

section Attempts

variable {build : Build} {evidence : Evidence} {holder : Did} {attempt : Attempt}

/-- The evidence with a transfer to whom an attempt names, at so many milliseconds. -/
def Evidence.transferred (evidence : Evidence) (attempt : Attempt) (prevMs : ℕ) : Evidence :=
  { evidence with
    chainOfCustody := evidence.chainOfCustody ++
      [Evidence.newTransfer attempt.fromDid attempt.toDid prevMs] }

/-- **What an attempt can do**: be refused, stop at the end of the milliseconds, or record a transfer. -/
theorem transferCustody_cases (build : Build) (evidence : Evidence) (attempt : Attempt) :
    (attempt.fromDid ≠ evidence.custodian ∧ ∃ error,
        evidence.transferCustody build attempt.fromDid attempt.toDid = (.error (.error error), evidence)) ∨
    (attempt.fromDid = evidence.custodian ∧ ∃ fault, evidence.nextMs build = .error fault ∧
        evidence.transferCustody build attempt.fromDid attempt.toDid = (.error (.fault fault), evidence)) ∨
    (attempt.fromDid = evidence.custodian ∧ ∃ prevMs, evidence.nextMs build = .ok prevMs ∧
        evidence.transferCustody build attempt.fromDid attempt.toDid =
          (.ok (), evidence.transferred attempt prevMs)) := by
  unfold Evidence.transferCustody
  by_cases owner : evidence.custodian = attempt.fromDid
  · right
    cases next : evidence.nextMs build with
    | error fault => exact .inl ⟨owner.symm, fault, rfl, by simp [owner]⟩
    | ok prevMs => exact .inr ⟨owner.symm, prevMs, rfl, by simp [owner, Evidence.transferred]⟩
  · exact .inl ⟨Ne.symm owner, _, by simp only [ne_eq, owner, not_false_eq_true, if_true]; rfl⟩

/-- The verifier accepts the paths. -/
theorem verifyTransfers_eq_ok_iff {transfers : List CustodyTransfer} {index : ℕ} :
    Evidence.verifyTransfers holder index transfers = .ok () ↔ TransferPath holder transfers := by
  induction transfers generalizing holder index with
  | nil => exact iff_of_true rfl trivial
  | cons transfer rest ih =>
    rw [Evidence.verifyTransfers, TransferPath, Threaded]
    by_cases owner : transfer.fromDid = holder
    · rw [if_neg (not_not_intro owner), ih, and_iff_right owner]
      rfl
    · rw [if_pos owner]
      exact iff_of_false (fun accepted => by cases accepted) fun path => owner path.1

/-- **What the transfers say while the milliseconds last**: they lead from the creator to the holder, the
first one a millisecond after the creation and each a millisecond after the one before it. -/
structure Held (evidence : Evidence) (holder : Did) : Prop where
  path : TransferPath evidence.creator evidence.chainOfCustody
  custodian : handedOn CustodyTransfer.toDid evidence.creator evidence.chainOfCustody = holder
  times : ∀ (index : ℕ) (transfer : CustodyTransfer), evidence.chainOfCustody[index]? = some transfer →
    transfer.timestamp.physicalMs.toNat = evidence.timestamp.physicalMs.toNat + (index + 1)
  lasts : evidence.timestamp.physicalMs.toNat + evidence.chainOfCustody.length < 2 ^ 64

theorem lt_of_physicalMs_lt {first second : Timestamp}
    (earlier : first.physicalMs.toNat < second.physicalMs.toNat) : first < second :=
  Timestamp.lt_iff.mpr (.inl (UInt64.lt_iff_toNat_lt.mpr earlier))

/-- Custody is sound while the milliseconds last. -/
theorem Held.sound (held : Held evidence holder) : CustodySound evidence holder := by
  refine ⟨held.path, held.custodian, ?_, ?_, verifyTransfers_eq_ok_iff.mpr held.path⟩
  · rw [List.pairwise_iff_getElem]
    intro i j inside inside' before
    refine lt_of_physicalMs_lt ?_
    rw [held.times i _ (List.getElem?_eq_getElem inside), held.times j _ (List.getElem?_eq_getElem inside')]
    omega
  · intro transfer member
    obtain ⟨index, found⟩ := List.mem_iff_getElem?.mp member
    refine lt_of_physicalMs_lt ?_
    rw [held.times index transfer found]
    omega

/-- The next transfer is a millisecond after the last one: so many after the creation as there are
transfers then. -/
theorem Held.nextMs_eq (held : Held evidence holder) :
    evidence.nextMs build =
      (build.add 64 (evidence.timestamp.physicalMs.toNat + evidence.chainOfCustody.length) 1) := by
  rcases List.eq_nil_or_concat evidence.chainOfCustody with none | ⟨earlier, last, chain⟩
  · rw [Evidence.nextMs, none]
    cases added : build.add 64 evidence.timestamp.physicalMs.toNat 1 with
    | error fault => simp [bind, Except.bind, pure, Except.pure]
    | ok prevMs => simp [bind, Except.bind, pure, Except.pure]
  · have lasts := held.lasts
    have time := held.times earlier.length last (by simp [chain])
    have length : evidence.chainOfCustody.length = earlier.length + 1 := by simp [chain]
    have created : build.add 64 evidence.timestamp.physicalMs.toNat 1 = .ok _ :=
      Build.add_of_lt (by omega)
    rw [Evidence.nextMs, chain, List.concat_eq_append, List.getLast?_concat, ← List.concat_eq_append,
      ← chain, length, ← time, created]
    cases added : build.add 64 last.timestamp.physicalMs.toNat 1 with
    | error fault => simp [added, bind, Except.bind]
    | ok prevMs => simp [added, bind, Except.bind, pure, Except.pure]

/-- **A transfer by the holder** while the milliseconds last. -/
theorem Held.transferred (held : Held evidence holder) (owner : attempt.fromDid = holder)
    (lasts : evidence.timestamp.physicalMs.toNat + (evidence.chainOfCustody.length + 1) < 2 ^ 64) :
    Held (evidence.transferred attempt
      (evidence.timestamp.physicalMs.toNat + evidence.chainOfCustody.length + 1)) attempt.toDid := by
  refine ⟨?_, handedOn_concat _ _ _, fun index transfer found => ?_, ?_⟩
  · exact threaded_concat_iff.mpr ⟨held.path, owner.trans held.custodian.symm⟩
  · change (evidence.chainOfCustody ++ [_])[index]? = some transfer at found
    rcases Nat.lt_trichotomy index evidence.chainOfCustody.length with before | rfl | beyond
    · rw [List.getElem?_append_left before] at found
      exact held.times index transfer found
    · rw [List.getElem?_concat_length] at found
      cases found
      exact UInt64.toNat_ofNat_of_lt' (show _ < 2 ^ 64 by omega)
    · rw [List.getElem?_eq_none (by simpa using beyond)] at found
      cases found
  · show _ + (evidence.chainOfCustody ++ [_]).length < 2 ^ 64
    rwa [List.length_append, List.length_singleton]

/-- An attempt of another than the holder is refused. -/
theorem transferCustody_of_ne (build : Build) (other : attempt.fromDid ≠ evidence.custodian) :
    ∃ error, evidence.transferCustody build attempt.fromDid attempt.toDid =
      (.error (.error error), evidence) := by
  rcases transferCustody_cases build evidence attempt with ⟨-, refused⟩ | ⟨owner, -⟩ | ⟨owner, -⟩
  · exact refused
  · exact absurd owner other
  · exact absurd owner other

/-- Transfers stay in the list. -/
theorem chainOfCustody_afterAttempt (build : Build) (evidence : Evidence) (attempt : Attempt) :
    evidence.chainOfCustody <+: (afterAttempt build evidence attempt).chainOfCustody := by
  unfold afterAttempt
  rcases transferCustody_cases build evidence attempt with ⟨-, error, answer⟩ | ⟨-, fault, -, answer⟩ |
    ⟨-, prevMs, -, answer⟩
  · rw [answer]
  · rw [answer]
  · rw [answer]
    exact List.prefix_append _ _

theorem chainOfCustody_run (build : Build) (evidence : Evidence) (attempts : List Attempt) :
    evidence.chainOfCustody <+: (run (afterAttempt build) evidence attempts).chainOfCustody := by
  induction attempts generalizing evidence with
  | nil => exact List.prefix_rfl
  | cons attempt attempts ih => exact (chainOfCustody_afterAttempt build evidence attempt).trans (ih _)

end Attempts

/-! ### Runs -/

section Runs

variable {build : Build} {evidence : Evidence} {holder : Did} {attempts : List Attempt}

/-- **At the end of the milliseconds custody is not sound any more**: a transfer by the holder stops, or
puts a time that is not after the creation into the list for good. -/
theorem not_custodyRunSound_of_full {attempt : Attempt} (held : Held evidence holder)
    (owner : attempt.fromDid = evidence.custodian)
    (full : evidence.timestamp.physicalMs.toNat + (evidence.chainOfCustody.length + 1) = 2 ^ 64)
    {holder' : Did} : ¬ CustodyRunSound build evidence holder' (attempt :: attempts) := by
  intro sound
  obtain ⟨here, -⟩ := along_cons_iff.mp sound.calls
  rcases transferCustody_cases build evidence attempt with ⟨other, -⟩ | ⟨-, fault, -, answer⟩ |
    ⟨-, prevMs, next, answer⟩
  · exact other owner
  · exact here.1 fault (by rw [answer])
  · have wrapped : prevMs = 0 := by
      rw [held.nextMs_eq, Build.add, if_neg (by omega), Build.overflow] at next
      split_ifs at next
      cases next
      rw [Nat.add_assoc, full, Nat.mod_self]
    have recorded : Evidence.newTransfer attempt.fromDid attempt.toDid prevMs ∈
        (run (afterAttempt build) evidence (attempt :: attempts)).chainOfCustody := by
      have grown := chainOfCustody_run build (afterAttempt build evidence attempt) attempts
      refine grown.subset ?_
      rw [afterAttempt, answer]
      exact List.mem_append_right _ (List.mem_singleton.mpr rfl)
    have later := sound.sound.later _ recorded
    rw [wrapped] at later
    exact absurd later (not_lt.mpr (Timestamp.zero_le _))

theorem custodyRunSound_cons_iff {attempt : Attempt} :
    CustodyRunSound build evidence holder (attempt :: attempts) ↔
      AttemptSound build evidence attempt ∧
        CustodyRunSound build (afterAttempt build evidence attempt)
          (if attempt.fromDid = holder then attempt.toDid else holder) attempts := by
  constructor
  · rintro ⟨calls, sound⟩
    obtain ⟨here, later⟩ := along_cons_iff.mp calls
    exact ⟨here, later, sound⟩
  · rintro ⟨here, later, sound⟩
    exact ⟨along_cons_iff.mpr ⟨here, later⟩, sound⟩

/-- **Custody is sound over a run from held evidence** exactly if the milliseconds last for the attempts of
whoever holds it. -/
theorem custodyRunSound_iff_of_held (held : Held evidence holder) :
    CustodyRunSound build evidence holder attempts ↔
      evidence.timestamp.physicalMs.toNat + evidence.chainOfCustody.length +
        attemptsOfHolder holder attempts < 2 ^ 64 := by
  induction attempts generalizing evidence holder with
  | nil => exact iff_of_true ⟨along_nil, held.sound⟩ held.lasts
  | cons attempt attempts ih =>
    have lasts := held.lasts
    have custodian : evidence.custodian = holder := held.custodian
    by_cases owner : attempt.fromDid = holder
    · rw [attemptsOfHolder, if_pos owner]
      by_cases fits : evidence.timestamp.physicalMs.toNat + (evidence.chainOfCustody.length + 1) < 2 ^ 64
      · have next : evidence.nextMs build = .ok _ :=
          held.nextMs_eq.trans (Build.add_of_lt (by omega))
        have answer : evidence.transferCustody build attempt.fromDid attempt.toDid = (.ok (),
            evidence.transferred attempt
              (evidence.timestamp.physicalMs.toNat + evidence.chainOfCustody.length + 1)) := by
          simp only [Evidence.transferCustody, custodian, owner, ne_eq, not_true_eq_false, if_false, next,
            Evidence.transferred]
        have recorded : AttemptSound build evidence attempt := by
          rw [AttemptSound, answer]
          exact ⟨fun fault failed => (by cases failed), fun failure failed => (by cases failed)⟩
        have grown := ih (held.transferred owner fits)
        rw [custodyRunSound_cons_iff, if_pos owner, and_iff_right recorded, afterAttempt, answer, grown]
        show evidence.timestamp.physicalMs.toNat + (evidence.chainOfCustody ++ [_]).length + _ < 2 ^ 64 ↔ _
        rw [List.length_append, List.length_singleton]
        omega
      · refine iff_of_false ?_ (by omega)
        exact not_custodyRunSound_of_full held (owner.trans custodian.symm) (by omega)
    · have other : attempt.fromDid ≠ evidence.custodian := fun same => owner (same.trans custodian)
      obtain ⟨error, answer⟩ := transferCustody_of_ne build other
      have refused : AttemptSound build evidence attempt := by
        rw [AttemptSound, afterAttempt, answer]
        exact ⟨fun fault failed => (by cases failed), fun _ _ => rfl⟩
      rw [custodyRunSound_cons_iff, if_neg owner, and_iff_right refused, afterAttempt, answer, ih held,
        attemptsOfHolder, if_neg owner]

/-- Created evidence is held by its creator. -/
theorem held_of_createEvidence {blake3 : Blake3} {id : Uuid} {data : List UInt8} {creator : Did}
    {typeTag : String} {timestamp : Timestamp}
    (created : createEvidence blake3 id data creator typeTag timestamp = .ok evidence) :
    Held evidence creator ∧ evidence.timestamp = timestamp ∧ evidence.chainOfCustody = [] := by
  unfold createEvidence at created
  split_ifs at created
  cases created
  refine ⟨⟨trivial, rfl, fun index transfer found => (by cases found), ?_⟩, rfl, rfl⟩
  exact timestamp.physicalMs.toNat_lt

/-- **When the custody of created evidence is sound** over a run of attempts, in either build: when the
milliseconds last for the attempts of whoever holds it. -/
theorem custody_sound_iff {blake3 : Blake3} {id : Uuid} {data : List UInt8} {creator : Did}
    {typeTag : String} {timestamp : Timestamp}
    (created : createEvidence blake3 id data creator typeTag timestamp = .ok evidence) (build : Build)
    (attempts : List Attempt) :
    CustodyRunSound build evidence creator attempts ↔
      timestamp.physicalMs.toNat + attemptsOfHolder creator attempts < 2 ^ 64 := by
  obtain ⟨held, rfl, none⟩ := held_of_createEvidence created
  rw [custodyRunSound_iff_of_held held, none, List.length_nil, Nat.add_zero]

end Runs

namespace LastMillisecond

/-- Who creates the evidence. -/
def alice : Did := ⟨"did:exo:alice"⟩

/-- Who it is transferred to. -/
def bob : Did := ⟨"did:exo:bob"⟩

/-- Evidence of some time. -/
def evidenceAt (timestamp : Timestamp) : Evidence :=
  ⟨FixedBytes.fill 16 0, "contract", Hash256.zero, alice, timestamp, [], .pending⟩

/-- Evidence is transferred, not to be transferred by its creator again, and transferred on. -/
theorem transferred_twice :
    CustodyRunSound ⟨true⟩ (evidenceAt ⟨1000, 7⟩) alice [⟨alice, bob⟩, ⟨alice, bob⟩, ⟨bob, alice⟩] ↔
      (1000 : UInt64).toNat + attemptsOfHolder alice [⟨alice, bob⟩, ⟨alice, bob⟩, ⟨bob, alice⟩] <
        2 ^ 64 := by
  have created : createEvidence (fun _ => Hash256.zero) (FixedBytes.fill 16 0) [] alice "contract"
      ⟨1000, 7⟩ = .ok (evidenceAt ⟨1000, 7⟩) := rfl
  exact custody_sound_iff created ⟨true⟩ _

/-- **Evidence of the last millisecond** cannot be transferred. -/
theorem no_transfer :
    ¬ ∀ (blake3 : Blake3) (id : Uuid) (data : List UInt8) (creator : Did) (typeTag : String)
        (timestamp : Timestamp) (evidence : Evidence) (build : Build) (attempts : List Attempt),
      createEvidence blake3 id data creator typeTag timestamp = .ok evidence →
        CustodyRunSound build evidence creator attempts := by
  intro sound
  have created : createEvidence (fun _ => Hash256.zero) (FixedBytes.fill 16 0) [] alice "contract"
      ⟨18446744073709551615, 0⟩ = .ok (evidenceAt ⟨18446744073709551615, 0⟩) := rfl
  have run := sound _ _ _ _ _ _ _ ⟨true⟩ [⟨alice, bob⟩] created
  exact absurd ((custodyRunSound_iff_of_held (held_of_createEvidence created).1).mp run) (by decide)

end LastMillisecond

end Exochain.ExoLegal
