/-
**`exo-gatekeeper` — the audit trail of MCP rule enforcement.**

A log of records, each of which holds the digest of the one before it. The digest of a record is taken
over its fields one after the other: the identifier, the timestamp and the chain hash have a fixed
width and the names of the rules can be told apart, but the actor, the name of the outcome and the
region follow each other without a length or a separator, and a region that is absent is hashed as an
empty one.

* `verifyChain_eq_ok_iff` — the verifier accepts what `append` builds.
* **`preimage_eq_iff`** — which records are hashed as one string: those that differ in an absent and an
  empty region, and those where the actor of one runs on through the region of the other.
* **`records_eq_iff`** — two verified logs with one head have the same records exactly if no two
  records at one position are of that kind.
* `Sample.reread` — two logs of one head and different records.
-/

import Exochain.Foundation.Codes
import Exochain.Foundation.HashChain
import Exochain.Foundation.Blake3
import Exochain.Gatekeeper.Combinator

set_option linter.unusedSectionVars false

namespace Exochain.ExoGatekeeper

open Foundation ExoCore

/-! ### Rules and outcomes -/

/-- The registered MCP rules. -/
inductive McpRule where
  | mcp001BctsScope
  | mcp002NoSelfEscalation
  | mcp003ProvenanceRequired
  | mcp004NoIdentityForge
  | mcp005Distinguishable
  | mcp006ConsentBoundaries
  deriving DecidableEq, Repr

namespace McpRule

/-- All rules. -/
def all : List McpRule :=
  [mcp001BctsScope, mcp002NoSelfEscalation, mcp003ProvenanceRequired, mcp004NoIdentityForge,
    mcp005Distinguishable, mcp006ConsentBoundaries]

/-- The name of a rule, as it is hashed. -/
def debug : McpRule → String
  | mcp001BctsScope => "Mcp001BctsScope"
  | mcp002NoSelfEscalation => "Mcp002NoSelfEscalation"
  | mcp003ProvenanceRequired => "Mcp003ProvenanceRequired"
  | mcp004NoIdentityForge => "Mcp004NoIdentityForge"
  | mcp005Distinguishable => "Mcp005Distinguishable"
  | mcp006ConsentBoundaries => "Mcp006ConsentBoundaries"

theorem mem_all (rule : McpRule) : rule ∈ all := by cases rule <;> decide

/-- No name of a rule starts another one. -/
theorem debug_prefixFree : PrefixFree fun rule : McpRule => rule.debug.toList where
  nonempty rule := by
    have table : ∀ rule ∈ all, rule.debug.toList ≠ [] := by decide +kernel
    exact table rule (mem_all rule)
  eq_of_starts rule rule' := by
    have table : ∀ rule ∈ all, ∀ rule' ∈ all,
        rule.debug.toList <+: rule'.debug.toList → rule = rule' := by decide +kernel
    exact table rule (mem_all rule) rule' (mem_all rule')

end McpRule

/-- The outcome of evaluating a rule. -/
inductive McpEnforcementOutcome where
  | allowed
  | blocked
  | escalated
  deriving DecidableEq, Repr

namespace McpEnforcementOutcome

/-- The name of an outcome, as it is hashed. -/
def debug : McpEnforcementOutcome → String
  | allowed => "Allowed"
  | blocked => "Blocked"
  | escalated => "Escalated"

/-- A capital stands at the start of the name of an outcome and nowhere else in it. -/
theorem debug_marked : Marked Char.isUpper fun outcome : McpEnforcementOutcome =>
    outcome.debug.toList where
  nonempty outcome := by cases outcome <;> decide
  eq_of_starts outcome outcome' := by cases outcome <;> cases outcome' <;> decide
  head_marked outcome := by cases outcome <;> simp [debug]
  tail_unmarked outcome := by cases outcome <;> simp [debug]

theorem length_debug_pos (outcome : McpEnforcementOutcome) : 0 < outcome.debug.length := by
  rw [← String.length_toList]
  exact List.length_pos_iff.mpr (debug_marked.nonempty outcome)

end McpEnforcementOutcome

/-! ### Records -/

/-- A single enforcement event. -/
structure McpAuditRecord where
  id : FixedBytes 16
  timestamp : Timestamp
  rule : McpRule
  actor : Did
  outcome : McpEnforcementOutcome
  dataResidencyRegion : Option String
  chainHash : Hash256
  deriving DecidableEq

namespace McpAuditRecord

/-- The text in the middle of what is hashed. -/
def text (record : McpAuditRecord) : String :=
  record.actor.value ++ record.outcome.debug ++ record.dataResidencyRegion.getD ""

/-- The bytes that a record is hashed as. -/
def preimage (record : McpAuditRecord) : List UInt8 :=
  record.id.toList ++ record.timestamp.toLeBytes ++ textBytes record.rule.debug ++
    record.actor.asBytes ++ textBytes record.outcome.debug ++
    (match record.dataResidencyRegion with
      | some region => textBytes region
      | none => []) ++
    record.chainHash.asBytes

end McpAuditRecord

/-- The digest of a record. -/
def hashRecord (blake3 : Blake3) (record : McpAuditRecord) : Hash256 := blake3 record.preimage

/-- The log, the list of its records. -/
abbrev McpAuditLog := List McpAuditRecord

namespace McpAuditLog

/-- The empty log. -/
def new : McpAuditLog := []

/-- The digest of the last record; zero for an empty log. -/
def headHash (blake3 : Blake3) (log : McpAuditLog) : Hash256 :=
  handedOn (hashRecord blake3) .zero log

/-- Append a record; one with another chain hash than the head is refused. -/
def append (blake3 : Blake3) (log : McpAuditLog) (record : McpAuditRecord) :
    Except GatekeeperError McpAuditLog :=
  appendLinked McpAuditRecord.chainHash (hashRecord blake3) .mcpAuditChainBroken .zero log record

/-- Verify the chain from its start. -/
def verifyChain (blake3 : Blake3) (log : McpAuditLog) : Except GatekeeperError Unit :=
  verifyLinks McpAuditRecord.chainHash (hashRecord blake3) .mcpAuditChainBroken .zero 0 log

/-- A record linked to the head, with the identifier and the time it is given. -/
def createRecord (blake3 : Blake3) (log : McpAuditLog) (id : FixedBytes 16) (now : Timestamp)
    (rule : McpRule) (actor : Did) (outcome : McpEnforcementOutcome)
    (dataResidencyRegion : Option String) : McpAuditRecord where
  id := id
  timestamp := now
  rule := rule
  actor := actor
  outcome := outcome
  dataResidencyRegion := dataResidencyRegion
  chainHash := log.headHash blake3

/-- The byte strings that the records are hashed as. -/
def strings (log : McpAuditLog) : List (List UInt8) := log.map McpAuditRecord.preimage

/-- A created record can be appended. -/
theorem append_createRecord (blake3 : Blake3) (log : McpAuditLog) (id : FixedBytes 16)
    (now : Timestamp) (rule : McpRule) (actor : Did) (outcome : McpEnforcementOutcome)
    (region : Option String) :
    log.append blake3 (log.createRecord blake3 id now rule actor outcome region) =
      .ok (log ++ [log.createRecord blake3 id now rule actor outcome region]) :=
  appendLinked_eq_ok_iff.mpr ⟨rfl, rfl⟩

end McpAuditLog

/-! ### What a record is hashed as -/

namespace McpAuditRecord

variable {record record' : McpAuditRecord}

/-- The fields that can be read back from the hashed string. -/
def SameFrame (record record' : McpAuditRecord) : Prop :=
  record.id = record'.id ∧ record.timestamp = record'.timestamp ∧ record.rule = record'.rule ∧
    record.chainHash = record'.chainHash

theorem SameFrame.symm (frame : record.SameFrame record') : record'.SameFrame record := by
  obtain ⟨ids, times, rules, chain⟩ := frame
  exact ⟨ids.symm, times.symm, rules.symm, chain.symm⟩

/-- A second reading of the hashed string: the region is absent in one record and empty in the other,
or the actor of the second runs through the outcome and a part of the region of the first. -/
def RereadAs (record record' : McpAuditRecord) : Prop :=
  record.SameFrame record' ∧
    (record.actor = record'.actor ∧ record.outcome = record'.outcome ∧
        record.dataResidencyRegion = none ∧ record'.dataResidencyRegion = some "" ∨
      ∃ between, record'.actor.value = record.actor.value ++ record.outcome.debug ++ between ∧
        record.dataResidencyRegion =
          some (between ++ record'.outcome.debug ++ record'.dataResidencyRegion.getD ""))

/-- The two records are different readings of one string. -/
def Ambiguous (record record' : McpAuditRecord) : Prop :=
  record.RereadAs record' ∨ record'.RereadAs record

theorem preimage_eq (record : McpAuditRecord) :
    record.preimage = record.id.toList ++ record.timestamp.toLeBytes ++
      textBytes (record.rule.debug ++ record.text) ++ record.chainHash.asBytes := by
  have region : (match record.dataResidencyRegion with
      | some region => textBytes region
      | none => []) = textBytes (record.dataResidencyRegion.getD "") := by
    cases record.dataResidencyRegion with
    | none => decide +kernel
    | some region => rfl
  rw [preimage, region, text, textBytes_append, textBytes_append, textBytes_append]
  simp only [List.append_assoc]
  rfl

/-- **What the string determines**: the frame, and the text in the middle. -/
theorem preimage_eq_iff_text :
    record.preimage = record'.preimage ↔ record.SameFrame record' ∧ record.text = record'.text := by
  rw [preimage_eq, preimage_eq]
  constructor
  · intro same
    obtain ⟨front, chain⟩ := List.append_inj' same
      (record.chainHash.length_eq.trans record'.chainHash.length_eq.symm)
    obtain ⟨fixed, texts⟩ := List.append_inj front (by
      simp [FixedBytes.length_eq])
    obtain ⟨ids, times⟩ := List.append_inj fixed (record.id.length_eq.trans record'.id.length_eq.symm)
    have chars := congrArg String.toList (textBytes_injective texts)
    rw [String.toList_append, String.toList_append] at chars
    have rules := McpRule.debug_prefixFree.head_eq chars
    rw [rules] at chars
    exact ⟨⟨FixedBytes.ext ids, Timestamp.toLeBytes_injective times, rules, FixedBytes.ext chain⟩,
      String.toList_injective (List.append_cancel_left chars)⟩
  · rintro ⟨⟨ids, times, rules, chain⟩, texts⟩
    rw [ids, times, rules, chain, texts]

/-- A list of characters between two texts is a text. -/
theorem exists_text_iff {whole front mid region word back : String} :
    (∃ between : List Char, whole.toList = front.toList ++ mid.toList ++ between ∧
        region.toList = between ++ word.toList ++ back.toList) ↔
      ∃ between, whole = front ++ mid ++ between ∧ region = between ++ word ++ back := by
  constructor
  · rintro ⟨between, wholes, regions⟩
    refine ⟨String.ofList between, String.toList_injective ?_, String.toList_injective ?_⟩
    · simpa using wholes
    · simpa using regions
  · rintro ⟨between, rfl, rfl⟩
    exact ⟨between.toList, by simp, by simp⟩

/-- The readings of the text in the middle. -/
theorem text_eq_iff :
    record.text = record'.text ↔
      (record.actor = record'.actor ∧ record.outcome = record'.outcome ∧
        record.dataResidencyRegion.getD "" = record'.dataResidencyRegion.getD "") ∨
      (∃ between, record'.actor.value = record.actor.value ++ record.outcome.debug ++ between ∧
        record.dataResidencyRegion.getD "" =
          between ++ record'.outcome.debug ++ record'.dataResidencyRegion.getD "") ∨
      ∃ between, record.actor.value = record'.actor.value ++ record'.outcome.debug ++ between ∧
        record'.dataResidencyRegion.getD "" =
          between ++ record.outcome.debug ++ record.dataResidencyRegion.getD "" := by
  have lists : record.text = record'.text ↔
      record.actor.value.toList ++ record.outcome.debug.toList ++
          (record.dataResidencyRegion.getD "").toList =
        record'.actor.value.toList ++ record'.outcome.debug.toList ++
          (record'.dataResidencyRegion.getD "").toList := by
    rw [text, text, ← String.toList_inj]
    simp only [String.toList_append]
  rw [lists, McpEnforcementOutcome.debug_marked.append_eq_append_iff]
  refine or_congr (and_congr ?_ (and_congr Iff.rfl String.toList_inj)) (or_congr ?_ ?_)
  · rw [String.toList_inj, Did.ext_iff]
  · exact exists_text_iff
  · exact exists_text_iff

/-- A region that holds the name of an outcome is present. -/
theorem region_eq_some {region : Option String} {outcome : McpEnforcementOutcome}
    {between back : String} (held : region.getD "" = between ++ outcome.debug ++ back) :
    region = some (between ++ outcome.debug ++ back) := by
  cases region with
  | some text => rw [← held, Option.getD_some]
  | none =>
    have lengths := congrArg String.length held
    have named := outcome.length_debug_pos
    rw [String.length_append, String.length_append, Option.getD_none, String.length_empty] at lengths
    omega

/-- The regions that are hashed alike. -/
theorem region_eq_or {region region' : Option String} (same : region.getD "" = region'.getD "") :
    region = region' ∨ (region = none ∧ region' = some "") ∨ (region' = none ∧ region = some "") := by
  cases region with
  | none =>
    cases region' with
    | none => exact .inl rfl
    | some text => exact .inr (.inl ⟨rfl, congrArg some same.symm⟩)
  | some text =>
    cases region' with
    | none => exact .inr (.inr ⟨rfl, congrArg some same⟩)
    | some text' => exact .inl (congrArg some same)

/-- No record is a second reading of itself. -/
theorem not_rereadAs_self (record : McpAuditRecord) : ¬ record.RereadAs record := by
  rintro ⟨-, ⟨-, -, absent, empty⟩ | ⟨between, longer, -⟩⟩
  · rw [absent] at empty
    cases empty
  · have lengths := congrArg String.length longer
    have named := record.outcome.length_debug_pos
    rw [String.length_append, String.length_append] at lengths
    omega

/-- **Which records are hashed as one string.** -/
theorem preimage_eq_iff :
    record.preimage = record'.preimage ↔ record = record' ∨ record.Ambiguous record' := by
  rw [preimage_eq_iff_text, text_eq_iff]
  constructor
  · rintro ⟨frame, ⟨actors, outcomes, regions⟩ | ⟨between, runs, region⟩ | ⟨between, runs, region⟩⟩
    · rcases region_eq_or regions with same | ⟨absent, empty⟩ | ⟨absent, empty⟩
      · left
        obtain ⟨ids, times, rules, chain⟩ := frame
        cases record
        cases record'
        simp_all
      · exact .inr (.inl ⟨frame, .inl ⟨actors, outcomes, absent, empty⟩⟩)
      · exact .inr (.inr ⟨frame.symm, .inl ⟨actors.symm, outcomes.symm, absent, empty⟩⟩)
    · exact .inr (.inl ⟨frame, .inr ⟨between, runs, region_eq_some region⟩⟩)
    · exact .inr (.inr ⟨frame.symm, .inr ⟨between, runs, region_eq_some region⟩⟩)
  · rintro (rfl | ⟨frame, rest⟩ | ⟨frame, rest⟩)
    · exact ⟨⟨rfl, rfl, rfl, rfl⟩, .inl ⟨rfl, rfl, rfl⟩⟩
    · refine ⟨frame, ?_⟩
      rcases rest with ⟨actors, outcomes, absent, empty⟩ | ⟨between, runs, region⟩
      · exact .inl ⟨actors, outcomes, by rw [absent, empty]; rfl⟩
      · exact .inr (.inl ⟨between, runs, by rw [region]; rfl⟩)
    · refine ⟨frame.symm, ?_⟩
      rcases rest with ⟨actors, outcomes, absent, empty⟩ | ⟨between, runs, region⟩
      · exact .inl ⟨actors.symm, outcomes.symm, by rw [absent, empty]; rfl⟩
      · exact .inr (.inr ⟨between, runs, by rw [region]; rfl⟩)

/-- Records hashed as one string are the same, or two readings of it. -/
theorem eq_iff_not_ambiguous (same : record.preimage = record'.preimage) :
    record = record' ↔ ¬ record.Ambiguous record' := by
  refine ⟨?_, (preimage_eq_iff.mp same).resolve_right⟩
  rintro rfl
  rintro (again | again)
  · exact record.not_rereadAs_self again
  · exact record.not_rereadAs_self again

end McpAuditRecord

/-! ### Logs with one head -/

/-- **The verifier accepts exactly the logs that `append` builds.** -/
theorem verifyChain_eq_ok_iff (blake3 : Blake3) (log : McpAuditLog) :
    log.verifyChain blake3 = .ok () ↔
      ∃ calls : List McpAuditRecord, calls.foldlM (McpAuditLog.append blake3) .new = .ok log :=
  built_iff

/-- **Records of logs with one head.** Of two verified logs with the same head, whose hashed strings
neither collide nor hash to zero, the records are the same exactly if no two records at one position
are different readings of one string. And the verifier accepts exactly the logs that `append`
builds. -/
theorem records_eq_iff (blake3 : Blake3) {log log' : McpAuditLog}
    (verified : log.verifyChain blake3 = .ok ()) (verified' : log'.verifyChain blake3 = .ok ())
    (same : log.headHash blake3 = log'.headHash blake3)
    (free : ¬ CollisionIn blake3 (log.strings ++ log'.strings))
    (nonzero : ∀ s ∈ log.strings ++ log'.strings, blake3 s ≠ Hash256.zero) :
    (log = log' ↔ ∀ pair ∈ log.zip log', ¬ pair.1.Ambiguous pair.2) ∧
      ∀ any : McpAuditLog, any.verifyChain blake3 = .ok () ↔
        ∃ calls : List McpAuditRecord, calls.foldlM (McpAuditLog.append blake3) .new = .ok any := by
  refine ⟨eq_iff_of_verified McpAuditRecord.preimage blake3 (fun record record' equal => ?_)
    (fun record record' equal => ?_) verified verified' same free nonzero,
    verifyChain_eq_ok_iff blake3⟩
  · exact (McpAuditRecord.preimage_eq_iff_text.mp equal).1.2.2.2
  · exact McpAuditRecord.eq_iff_not_ambiguous equal

namespace Sample

/-- A blocked actor, in the region of an allowed one. -/
def blocked : McpAuditRecord where
  id := FixedBytes.fill 16 7
  timestamp := ⟨1000, 0⟩
  rule := .mcp001BctsScope
  actor := ⟨"did:exo:ai"⟩
  outcome := .blocked
  dataResidencyRegion := some "-Allowed"
  chainHash := .zero

/-- The same string with another actor, another outcome and no region. -/
def allowed : McpAuditRecord :=
  { blocked with
    actor := ⟨"did:exo:aiBlocked-"⟩
    outcome := .allowed
    dataResidencyRegion := none }

/-- One string is hashed for the two, so one head. -/
theorem one_string : McpAuditLog.strings [blocked] = McpAuditLog.strings [allowed] := by decide +kernel

theorem one_head :
    McpAuditLog.headHash Blake3.hash [blocked] = McpAuditLog.headHash Blake3.hash [allowed] := by
  have strings := List.singleton_inj.mp one_string
  exact congrArg Blake3.hash strings

theorem no_collision : ¬ CollisionIn Blake3.hash
    (McpAuditLog.strings [blocked] ++ McpAuditLog.strings [allowed]) := by
  rw [one_string]
  exact not_collisionIn_pair _ _

theorem nonzero : ∀ s ∈ McpAuditLog.strings [blocked] ++ McpAuditLog.strings [allowed],
    Blake3.hash s ≠ Hash256.zero := by
  decide +kernel

/-- **One head, two logs**: a blocked actor reads as an allowed one. -/
theorem reread :
    ¬ ∀ log log' : McpAuditLog, (∀ record ∈ log ++ log', record.actor.Accepted) →
      log.verifyChain Blake3.hash = .ok () → log'.verifyChain Blake3.hash = .ok () →
      log.headHash Blake3.hash = log'.headHash Blake3.hash →
      log = log' ∨ CollisionIn Blake3.hash (log.strings ++ log'.strings) ∨
        ∃ s ∈ log.strings ++ log'.strings, Blake3.hash s = Hash256.zero := by
  intro evident
  rcases evident [blocked] [allowed] (by decide +kernel) rfl rfl one_head with
    same | collision | ⟨s, member, zero⟩
  · exact absurd same (by decide)
  · exact no_collision collision
  · exact nonzero s member zero

/-- The two records are what the difference comes down to. -/
theorem position_reread : ∃ pair ∈ [blocked].zip [allowed], pair.1.Ambiguous pair.2 := by
  have exactly := (@records_eq_iff Blake3.hash [blocked] [allowed] rfl rfl one_head no_collision
    nonzero).1
  by_contra unique
  push Not at unique
  exact absurd (exactly.mpr unique) (by decide)

end Sample

end Exochain.ExoGatekeeper
