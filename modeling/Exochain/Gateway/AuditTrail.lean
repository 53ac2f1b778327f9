/-
**`exo-gateway` — what the receipts of an audit trail bind.**

A receipt is the digest of the receipt before it, the type of the event, the actor and the number, joined
with bars. Both texts can come from a client and hold bars of their own, and the time of the entry is not
hashed at all.

* `Written` — the trails that `append_audit` writes, from their receipts alone; every trail of every state
  that mutations reach is one (`trails_written`).
* `preimage_eq_iff` — what the hashed string of an entry determines: the receipt before, the number, and
  the two texts as one.
* `contents_eq_iff` — **trails with one last receipt agree in every entry exactly if no two entries at
  one position cut their text at different bars or differ in time.**
* `RecutTrails.trails_differ` — two trails of status changes with one last receipt.
-/

import Exochain.Foundation.HashChain
import Exochain.Gateway.Graphql

set_option linter.unusedSectionVars false

namespace Exochain.ExoGateway

open Foundation ExoCore

/-! ### What is hashed -/

namespace GqlAuditEntry

/-- What an entry says: all of it but the receipt. -/
structure Content where
  sequence : Int32
  eventType : String
  actor : String
  timestamp : String
  deriving DecidableEq

def content (entry : GqlAuditEntry) : Content :=
  ⟨entry.sequence, entry.eventType, entry.actor, entry.timestamp⟩

/-- The two texts as they are hashed. -/
def text (entry : GqlAuditEntry) : String := entry.eventType ++ "|" ++ entry.actor

/-- The string that the receipt of an entry is the digest of. -/
def preimage (prevHash : String) (entry : GqlAuditEntry) : List UInt8 :=
  textBytes (prevHash ++ "|" ++ entry.eventType ++ "|" ++ entry.actor ++ "|" ++
    toString entry.sequence.toInt)

/-- The receipt of an entry, as a hash. -/
def digest (blake3 : Blake3) (prev : Hash256) (entry : GqlAuditEntry) : Hash256 :=
  Hash256.digest blake3 (entry.preimage prev.display)

/-- Two entries hold one text, cut at different bars. -/
def Recut (entry entry' : GqlAuditEntry) : Prop :=
  entry.text = entry'.text ∧ entry.eventType.length ≠ entry'.eventType.length

instance (entry entry' : GqlAuditEntry) : Decidable (entry.Recut entry') :=
  inferInstanceAs (Decidable (_ ∧ _))

/-! ### What the string determines -/

/-- The characters of a number are digits, and a sign. -/
theorem bar_not_mem_toString (n : ℤ) : '|' ∉ (toString n).toList := by
  have digits (m : ℕ) : '|' ∉ (Nat.repr m).toList := by
    intro member
    rw [Nat.toList_repr] at member
    exact absurd (Nat.isDigit_of_mem_toDigits (by omega) le_rfl member) (by decide)
  rw [Int.toString_eq_repr, Int.repr_eq_if]
  split
  · exact digits _
  · rw [String.toList_append, List.mem_append, not_or]
    exact ⟨by decide, digits _⟩

variable {prev prev' : Hash256} {entry entry' : GqlAuditEntry}

/-- **What the hashed string determines**: the receipt before, the number, and the text. -/
theorem preimage_eq_iff :
    entry.preimage prev.display = entry'.preimage prev'.display ↔
      prev = prev' ∧ entry.sequence = entry'.sequence ∧ entry.text = entry'.text := by
  constructor
  · intro same
    have chars := congrArg String.toList (textBytes_injective same)
    simp only [String.toList_append, List.append_assoc] at chars
    obtain ⟨prevs, rest⟩ := List.append_inj chars (by
      rw [String.length_toList, String.length_toList, prev.length_display, prev'.length_display])
    have rest := List.append_cancel_left rest
    -- the number holds no bar, so the last bar is the one before it
    have cut : (entry.text.toList ++ '|' :: (toString entry.sequence.toInt).toList) =
        entry'.text.toList ++ '|' :: (toString entry'.sequence.toInt).toList := by
      simpa [text] using rest
    obtain ⟨texts, numbers⟩ :=
      cut_at_last_separator (bar_not_mem_toString _) (bar_not_mem_toString _) cut
    have number := Int.repr_injective (String.toList_injective numbers)
    exact ⟨Hash256.display_injective (String.toList_injective prevs), Int32.toInt_inj.mp number,
      String.toList_injective texts⟩
  · rintro ⟨rfl, number, texts⟩
    have whole (entry : GqlAuditEntry) : entry.preimage prev.display =
        textBytes (prev.display ++ "|" ++ entry.text ++ "|" ++ toString entry.sequence.toInt) := by
      simp only [preimage, text, String.append_assoc]
    rw [whole, whole, number, texts]

/-- Entries with one hashed string say the same, unless they cut it at different bars or differ in
time. -/
theorem content_eq_iff (same : entry.preimage prev.display = entry'.preimage prev'.display) :
    entry.content = entry'.content ↔
      ¬ (entry.Recut entry' ∨ entry.timestamp ≠ entry'.timestamp) := by
  obtain ⟨_, number, texts⟩ := preimage_eq_iff.mp same
  rw [not_or, not_not]
  constructor
  · intro contents
    cases entry
    cases entry'
    cases contents
    exact ⟨fun recut => recut.2 rfl, rfl⟩
  · rintro ⟨uncut, times⟩
    have lengths : entry.eventType.length = entry'.eventType.length := by
      by_contra apart
      exact uncut ⟨texts, apart⟩
    rw [← String.length_toList, ← String.length_toList] at lengths
    have chars := congrArg String.toList texts
    simp only [text, String.toList_append, List.append_assoc] at chars
    obtain ⟨events, actors⟩ := List.append_inj chars lengths
    have actors := String.toList_injective (List.append_cancel_left actors)
    rw [content, content, number, String.toList_injective events, actors, times]

end GqlAuditEntry

/-! ### The trails that are written -/

/-- The entry carries the receipt that is chained to `prevHash`. -/
def Receipted (blake3 : Blake3) (prevHash : String) (entry : GqlAuditEntry) : Prop :=
  entry.receiptHash = (Hash256.digest blake3 (entry.preimage prevHash)).display

/-- **The trails that `append_audit` writes**: every receipt is chained to the one before, the first one
to the zero hash. -/
def Written (blake3 : Blake3) (trail : List GqlAuditEntry) : Prop :=
  Threaded (Receipted blake3) GqlAuditEntry.receiptHash Hash256.zero.display trail

/-- The last receipt of a trail; the zero hash if it has none. -/
def lastReceipt (trail : List GqlAuditEntry) : String :=
  handedOn GqlAuditEntry.receiptHash Hash256.zero.display trail

/-- The entries of a trail with the receipts before them, as hashes. -/
def chain (blake3 : Blake3) (trail : List GqlAuditEntry) : List (Hash256 × GqlAuditEntry) :=
  withLinks (GqlAuditEntry.digest blake3) Hash256.zero trail

/-- The byte strings that the receipts of a trail are the digests of. -/
def receiptStrings (blake3 : Blake3) (trail : List GqlAuditEntry) : List (List UInt8) :=
  (chain blake3 trail).map fun link => link.2.preimage link.1.display

namespace AppState

variable {blake3 : Blake3} {build : Build} {state : AppState}

/-- Every trail of the state is one that `append_audit` writes. -/
def AllWritten (blake3 : Blake3) (state : AppState) : Prop := ∀ id, Written blake3 (state.trail id)

theorem written_nil : Written blake3 [] := trivial

/-- One more entry with a receipt for the trail. -/
theorem written_concat {trail : List GqlAuditEntry} (written : Written blake3 trail)
    (sequence : Int32) (eventType actor timestamp : String) :
    Written blake3 (trail ++
      [⟨sequence, eventType, actor, timestamp, receiptOf blake3 trail eventType actor sequence⟩]) :=
  threaded_concat_iff.mpr ⟨written, rfl⟩

/-- Storing a record with a written trail. -/
theorem allWritten_insert (all : AllWritten blake3 state) (id : String) {record : DecisionRecord}
    (written : Written blake3 record.auditTrail) :
    AllWritten blake3 { state with decisions := state.decisions.insert id record } := by
  intro other
  rw [trail_insert]
  split
  · exact written
  · exact all other

/-- **Appending keeps every trail written**, also where nothing is appended. -/
theorem audited_allWritten (all : AllWritten blake3 state) (decisionId eventType actor : String)
    (now : Timestamp) (reply : Reply) :
    AllWritten blake3 (state.audited blake3 build decisionId eventType actor now reply).2 := by
  unfold audited appendAudit
  split
  next later appended =>
    split at appended
    · cases appended
      exact all
    · rename_i record found
      dsimp only at appended
      split at appended
      · cases appended
      · cases appended
        have here := trail_of_found found ▸ all decisionId
        exact allWritten_insert all decisionId (written_concat here _ _ _ _)
  next => exact all

theorem setDecision_allWritten (all : AllWritten blake3 state) {id : String} {record : DecisionRecord}
    (found : state.decisions[id]? = some record) (decision : GqlDecision) :
    AllWritten blake3 (state.setDecision id record decision) :=
  allWritten_insert all id (trail_of_found found ▸ all id)

/-- Emergency actions are not part of a trail. -/
theorem emergency_allWritten (all : AllWritten blake3 state)
    (actions : BTreeMap String GqlEmergencyAction) :
    AllWritten blake3 { state with emergencyActions := actions } := all

/-- Every mutation keeps the trails written, also one that cannot be recorded. -/
theorem allWritten_next (state : AppState) (call : Call) (all : AllWritten blake3 state) :
    AllWritten blake3 (state.next blake3 build call) := by
  obtain ⟨mutation, uuid, now, auditedAt⟩ := call
  unfold next
  cases mutation with
  | createDecision input => exact audited_allWritten (allWritten_insert all _ written_nil) _ _ _ _ _
  | advanceDecision id newStatus reason =>
    dsimp only [step, advanceDecision]
    split
    next => exact all
    next record found => exact audited_allWritten (setDecision_allWritten all found _) _ _ _ _ _
  | castVote decisionId choice rationale =>
    dsimp only [step, castVote]
    split
    next => exact all
    next =>
      split
      next => exact all
      next record found =>
        split
        next => exact all
        next => exact audited_allWritten (setDecision_allWritten all found _) _ _ _ _ _
  | raiseChallenge decisionId grounds =>
    dsimp only [step, raiseChallenge]
    split
    next => exact all
    next record found => exact audited_allWritten (setDecision_allWritten all found _) _ _ _ _ _
  | takeEmergencyAction decisionId justification =>
    dsimp only [step, takeEmergencyAction]
    split
    next => exact all
    next record found =>
      exact audited_allWritten (emergency_allWritten all _) _ _ _ _ _
  | discloseConflict decisionId description nature => exact audited_allWritten all _ _ _ _ _

/-- **Every trail of every reached state is written by `append_audit`.** -/
theorem trails_written (blake3 : Blake3) (build : Build) (calls : List Call) (id : String) :
    Written blake3 ((run (next blake3 build) new calls).trail id) :=
  (throughout_of_preserved allWritten_next (fun _ => written_nil) calls).last id

end AppState

/-! ### Trails with one last receipt -/

section OneReceipt

variable {blake3 : Blake3} {trail trail' : List GqlAuditEntry}

/-- The last receipt of a written trail is the text of the last digest of its chain. -/
theorem handedOn_receiptHash {prev : Hash256}
    (written : Threaded (Receipted blake3) GqlAuditEntry.receiptHash prev.display trail) :
    handedOn GqlAuditEntry.receiptHash prev.display trail =
      (handedOn (fun link => link.2.digest blake3 link.1) prev
        (withLinks (GqlAuditEntry.digest blake3) prev trail)).display := by
  induction trail generalizing prev with
  | nil => rfl
  | cons entry rest ih =>
    obtain ⟨receipt, later⟩ := written
    have here : entry.receiptHash = (entry.digest blake3 prev).display := receipt
    rw [here] at later
    rw [handedOn_cons, withLinks, handedOn_cons, here]
    exact ih later

/-- Trails with one last receipt are made of the same strings. -/
theorem receiptStrings_eq (written : Written blake3 trail) (written' : Written blake3 trail')
    (same : lastReceipt trail = lastReceipt trail')
    (free : ¬ CollisionIn blake3 (receiptStrings blake3 trail ++ receiptStrings blake3 trail'))
    (nonzero : ∀ s ∈ receiptStrings blake3 trail ++ receiptStrings blake3 trail',
      blake3 s ≠ Hash256.zero) :
    receiptStrings blake3 trail = receiptStrings blake3 trail' := by
  have string {trail : List GqlAuditEntry} {link : Hash256 × GqlAuditEntry}
      (member : link ∈ chain blake3 trail) :
      link.2.preimage link.1.display ∈ receiptStrings blake3 trail := List.mem_map_of_mem member
  have bound : ∀ link ∈ chain blake3 trail, ∀ link' ∈ chain blake3 trail',
      link.2.digest blake3 link.1 = link'.2.digest blake3 link'.1 →
      link.2.preimage link.1.display = link'.2.preimage link'.1.display := by
    intro link member link' member' digests
    by_contra different
    exact free ⟨_, List.mem_append_left _ (string member), _,
      List.mem_append_right _ (string member'), different, digests⟩
  have heads : handedOn (fun link : Hash256 × GqlAuditEntry => link.2.digest blake3 link.1)
        Hash256.zero (chain blake3 trail) =
      handedOn (fun link => link.2.digest blake3 link.1) Hash256.zero (chain blake3 trail') := by
    refine Hash256.display_injective ?_
    rw [chain, chain, ← handedOn_receiptHash written, ← handedOn_receiptHash written']
    exact same
  exact map_eq_of_handedOn_eq (fun _ _ equal => (GqlAuditEntry.preimage_eq_iff.mp equal).1) bound
    (fun _ member => nonzero _ (List.mem_append_left _ (string member)))
    (fun _ member => nonzero _ (List.mem_append_right _ (string member)))
    (linked_withLinks trail) (linked_withLinks trail') heads

/-- **Entries of trails with one last receipt.** Of two trails that `append_audit` writes, whose last
receipts are equal and whose hashed strings neither collide nor hash to zero, the entries say the same
exactly if no two entries at one position cut one text at different bars or differ in time. And the
trails of every state that mutations reach are among them. -/
theorem contents_eq_iff (blake3 : Blake3) {trail trail' : List GqlAuditEntry}
    (written : Written blake3 trail) (written' : Written blake3 trail')
    (same : lastReceipt trail = lastReceipt trail')
    (free : ¬ CollisionIn blake3 (receiptStrings blake3 trail ++ receiptStrings blake3 trail'))
    (nonzero : ∀ s ∈ receiptStrings blake3 trail ++ receiptStrings blake3 trail',
      blake3 s ≠ Hash256.zero) :
    (trail.map GqlAuditEntry.content = trail'.map GqlAuditEntry.content ↔
      ∀ pair ∈ trail.zip trail',
        ¬ (pair.1.Recut pair.2 ∨ pair.1.timestamp ≠ pair.2.timestamp)) ∧
      ∀ (build : Build) (calls : List Call) (id : String),
        Written blake3 ((run (AppState.next blake3 build) .new calls).trail id) := by
  refine ⟨?_, AppState.trails_written blake3⟩
  have strings := receiptStrings_eq written written' same free nonzero
  have read (link link' : Hash256 × GqlAuditEntry)
      (equal : link.2.preimage link.1.display = link'.2.preimage link'.1.display) :
      link.2.content = link'.2.content ↔
        ¬ (link.2.Recut link'.2 ∨ link.2.timestamp ≠ link'.2.timestamp) :=
    GqlAuditEntry.content_eq_iff equal
  have links := map_eq_iff_of_map_eq read strings
  have contents (trail : List GqlAuditEntry) :
      (chain blake3 trail).map (fun link => link.2.content) = trail.map GqlAuditEntry.content := by
    rw [← Function.comp_def GqlAuditEntry.content Prod.snd, ← List.map_map, chain, map_snd_withLinks]
  have pairs : trail.zip trail' =
      ((chain blake3 trail).zip (chain blake3 trail')).map (Prod.map Prod.snd Prod.snd) := by
    rw [← List.zip_map, chain, chain, map_snd_withLinks, map_snd_withLinks]
  rw [contents, contents] at links
  rw [links, pairs, List.forall_mem_map]
  rfl

end OneReceipt

namespace RecutTrails

open AppState.Sample (callOf charterId)

/-- A decision is created and advanced to a status for a reason. -/
def advances (newStatus reason : String) : List Call :=
  [⟨.createDecision ⟨"t1", "Charter", "body", "Operational"⟩, FixedBytes.fill 16 1, ⟨990, 0⟩, ⟨991, 0⟩⟩,
    callOf (.advanceDecision charterId newStatus (some reason))]

/-- The trail of the decision. -/
abbrev advancedTrail (newStatus reason : String) : List GqlAuditEntry :=
  (run (AppState.next Blake3.hash ⟨true⟩) .new (advances newStatus reason)).trail charterId

/-- An approval for a reason with a bar, and the same text with the first part of the reason in the
status. -/
abbrev approved : List GqlAuditEntry := advancedTrail "APPROVED" "by bob|ok"

abbrev recut : List GqlAuditEntry := advancedTrail "APPROVED|by bob" "ok"

theorem one_receipt : lastReceipt approved = lastReceipt recut := by decide +kernel

theorem no_collision : ¬ CollisionIn Blake3.hash
    (receiptStrings Blake3.hash approved ++ receiptStrings Blake3.hash recut) := by
  decide +kernel

theorem nonzero : ∀ s ∈ receiptStrings Blake3.hash approved ++ receiptStrings Blake3.hash recut,
    Blake3.hash s ≠ Hash256.zero := by
  decide +kernel

/-- **One receipt, two trails**: an approval for a reason reads as another status. -/
theorem trails_differ :
    ¬ ∀ (build : Build) (calls calls' : List Call) (id id' : String),
      let trail := (run (AppState.next Blake3.hash build) .new calls).trail id
      let trail' := (run (AppState.next Blake3.hash build) .new calls').trail id'
      lastReceipt trail = lastReceipt trail' →
        trail.map GqlAuditEntry.content = trail'.map GqlAuditEntry.content ∨
          CollisionIn Blake3.hash
            (receiptStrings Blake3.hash trail ++ receiptStrings Blake3.hash trail') ∨
          ∃ s ∈ receiptStrings Blake3.hash trail ++ receiptStrings Blake3.hash trail',
            Blake3.hash s = Hash256.zero := by
  intro evident
  rcases evident ⟨true⟩ (advances "APPROVED" "by bob|ok") (advances "APPROVED|by bob" "ok") charterId
    charterId one_receipt with same | collision | ⟨s, member, zero⟩
  · revert same
    decide +kernel
  · exact no_collision collision
  · exact nonzero s member zero

/-- The second entries are what the difference comes down to. -/
theorem approval_recut : ∃ pair ∈ approved.zip recut,
    pair.1.Recut pair.2 ∨ pair.1.timestamp ≠ pair.2.timestamp := by
  have exactly := (contents_eq_iff Blake3.hash (AppState.trails_written _ _ _ _)
    (AppState.trails_written _ _ _ _) one_receipt no_collision nonzero).1
  by_contra unique
  push Not at unique
  have differ : approved.map GqlAuditEntry.content ≠ recut.map GqlAuditEntry.content := by
    decide +kernel
  refine differ (exactly.mpr fun pair member => ?_)
  rw [not_or, not_not]
  exact unique pair member

end RecutTrails

end Exochain.ExoGateway
