/-
**The audit service — its chain of rows.**

Two endpoints of `audit-api` write rows of one table. Each asks the table for the greatest sequence number
and for the greatest entry hash, numbers its row after the first and links it to the second. The verifier
walks the rows by number and compares each link with the entry hash of the row before.

Texts are compared as the database does, lexicographically. What the system gives a request comes with it:
the time, and the identifier and the time that the audit entry of the module is created with.

* `posted_cases` — what a request can do: throw and leave the table, or add a row after all others.
* `ascending_run`, `entryHashes_run` — after any requests the rows are numbered from zero in their order and
  hold their entry hashes.
* `chain_intact_iff` — **the chain is intact exactly if the entry hashes, the last one apart, never
  decrease.** Only then is the greatest entry hash the last one whenever it is asked for.
-/

import Exochain.Foundation.Collections
import Exochain.Foundation.Run
import Exochain.Foundation.Blake3
import Exochain.Core.Hash
import Exochain.Governance.Audit

set_option linter.unusedSectionVars false

namespace Exochain.AuditApi

open Foundation ExoCore

/-! ### The bindings -/

/-- What a binding throws. -/
inductive WasmError where
  | did (error : ExoError)
  | hex
  | evidenceLength
  | audit (error : ExoGovernance.GovernanceError)

/-- The value of a hexadecimal digit of either case. -/
def hexValue (c : Char) : Option ℕ :=
  if '0' ≤ c ∧ c ≤ '9' then some (c.toNat - '0'.toNat)
  else if 'a' ≤ c ∧ c ≤ 'f' then some (c.toNat - 'a'.toNat + 10)
  else if 'A' ≤ c ∧ c ≤ 'F' then some (c.toNat - 'A'.toNat + 10)
  else none

/-- Decode hexadecimal digits, two a byte. -/
def hexDecode : List Char → Option (List UInt8)
  | [] => some []
  | [_] => none
  | high :: low :: rest => do
    let high ← hexValue high
    let low ← hexValue low
    let rest ← hexDecode rest
    return UInt8.ofNat (16 * high + low) :: rest

section Service

variable (blake3 : Blake3)

/-- The digest of bytes, as hexadecimal digits. -/
def wasmHashBytes (data : List UInt8) : String := (canonicalHash blake3 data).display

/-- Append an entry to a new log; the answer is the number of its entries and its head. -/
def wasmAuditAppend (id : FixedBytes 16) (now : Timestamp)
    (actorDid action result evidenceHashHex : String) : Except WasmError (ℕ × String) := do
  let actor ← (Did.new actorDid).mapError .did
  let some evidenceBytes := hexDecode evidenceHashHex.toList | throw .hex
  if length : evidenceBytes.length = 32 then
    let log := ExoGovernance.AuditLog.new
    let entry := log.createEntry blake3 id now actor action result ⟨evidenceBytes, length⟩
    let log ← (log.append blake3 entry).mapError .audit
    return (log.length, (log.headHash blake3).display)
  else throw .evidenceLength

/-! ### The table -/

/-- A row of `audit_entries`. -/
structure AuditRow where
  sequence : ℤ
  prevHash : String
  eventHash : String
  eventType : String
  actor : String
  tenantId : String
  timestampPhysicalMs : ℕ
  timestampLogical : ℕ
  entryHash : String
  deriving DecidableEq, Repr

/-- The table, in the order of insertion. -/
abbrev AuditEntries := List AuditRow

/-- 64 zeros. -/
def zeros : String := String.ofList (List.replicate 64 '0')

/-- `COALESCE(MAX(sequence), -1)`. -/
def maxSequence (table : AuditEntries) : ℤ := (table.map AuditRow.sequence).max?.getD (-1)

/-- `COALESCE(MAX(entry_hash), zeros)`. -/
def maxEntryHash (table : AuditEntries) : String := (table.map AuditRow.entryHash).max?.getD zeros

/-- The row that both endpoints insert, from what they give it. -/
def newRow (table : AuditEntries) (eventHash eventType actor entryHash : String) (nowMs : ℕ) :
    AuditRow where
  sequence := maxSequence table + 1
  prevHash := maxEntryHash table
  eventHash := eventHash
  eventType := eventType
  actor := actor
  tenantId := "exochain-foundation"
  timestampPhysicalMs := nowMs
  -- the default of the column
  timestampLogical := 0
  entryHash := entryHash

/-! ### The endpoints -/

/-- JavaScript's `value || fallback` on a text that may be missing. -/
def orElse (value : Option String) (fallback : String) : String :=
  match value with
  | none => fallback
  | some text => if text = "" then fallback else text

/-- A request to one of the two endpoints; for a snapshot, what the ledger is given of it. -/
inductive Post where
  | entry (actorDid action result : String) (evidenceHash : Option String) (id : FixedBytes 16)
      (appendedAt : Timestamp) (nowMs : ℕ)
  | health (runId findingsDigest : String) (attestationSignerDid : Option String) (nowMs : ℕ)
  deriving DecidableEq

/-- `POST /api/entries`: the row holds the head of the new log. -/
def postEntry (table : AuditEntries) (actorDid action result : String) (evidenceHash : Option String)
    (id : FixedBytes 16) (appendedAt : Timestamp) (nowMs : ℕ) : Except WasmError AuditEntries := do
  let auditResult ←
    wasmAuditAppend blake3 id appendedAt actorDid action result (orElse evidenceHash zeros)
  let eventHash := wasmHashBytes blake3 (textBytes (action ++ ":" ++ result))
  return table ++ [newRow table eventHash action actorDid auditResult.2 nowMs]

/-- `POST /governance/health`, the part that writes the ledger: the row holds the hash of the event. -/
def postHealth (table : AuditEntries) (runId findingsDigest : String)
    (attestationSignerDid : Option String) (nowMs : ℕ) : AuditEntries :=
  let eventHash := wasmHashBytes blake3
    (textBytes ("governance-health:" ++ runId ++ ":" ++ findingsDigest))
  table ++ [newRow table eventHash "GovernanceHealthSnapshot"
    (orElse attestationSignerDid "did:exo:exoforge") eventHash nowMs]

/-- One request. -/
def handle (table : AuditEntries) : Post → Except WasmError AuditEntries
  | .entry actorDid action result evidenceHash id appendedAt nowMs =>
    postEntry blake3 table actorDid action result evidenceHash id appendedAt nowMs
  | .health runId findingsDigest attestationSignerDid nowMs =>
    .ok (postHealth blake3 table runId findingsDigest attestationSignerDid nowMs)

/-- The table after a request; one that throws has not reached it. -/
def posted (table : AuditEntries) (post : Post) : AuditEntries :=
  match handle blake3 table post with
  | .ok table => table
  | .error _ => table

/-! ### The verifier -/

/-- `SELECT * FROM audit_entries ORDER BY sequence ASC`. -/
def ordered (table : AuditEntries) : List AuditRow :=
  table.mergeSort fun row row' => decide (row.sequence ≤ row'.sequence)

/-- The loop of the verifier: the first row that is not linked to the one before it. -/
def firstBreak : List AuditRow → Option AuditRow
  | previous :: row :: rest =>
    if row.prevHash ≠ previous.entryHash then some row else firstBreak (row :: rest)
  | _ => none

/-- What `GET /api/verify` answers. -/
structure VerifyReport where
  intact : Bool
  entriesChecked : ℕ
  headHash : Option String
  error : Option String
  deriving DecidableEq, Repr

/-- `GET /api/verify`. -/
def verify (table : AuditEntries) : VerifyReport :=
  let rows := ordered table
  let broken := firstBreak rows
  { intact := broken.isNone
    entriesChecked := rows.length
    headHash := rows.getLast?.map AuditRow.entryHash
    error := broken.map fun row => "Chain break at sequence " ++ toString row.sequence ++
      ": prev_hash doesn't match previous entry_hash" }

/-! ### What a request can do -/

/-- The entry hash of the row that a request inserts, if it does not throw. -/
def entryHashOf : Post → Option String
  | .entry actorDid action result evidenceHash id appendedAt _ =>
    match wasmAuditAppend blake3 id appendedAt actorDid action result (orElse evidenceHash zeros) with
    | .ok auditResult => some auditResult.2
    | .error _ => none
  | .health runId findingsDigest _ _ =>
    some (wasmHashBytes blake3 (textBytes ("governance-health:" ++ runId ++ ":" ++ findingsDigest)))

/-- The row comes after all others and is linked to the greatest entry hash. -/
structure Follows (table : AuditEntries) (row : AuditRow) : Prop where
  sequence : row.sequence = maxSequence table + 1
  prevHash : row.prevHash = maxEntryHash table

/-- **What a request can do**: throw and leave the table, or insert one row. -/
theorem posted_cases (table : AuditEntries) (post : Post) :
    (entryHashOf blake3 post = none ∧ posted blake3 table post = table) ∨
      ∃ row, entryHashOf blake3 post = some row.entryHash ∧ Follows table row ∧
        posted blake3 table post = table ++ [row] := by
  cases post with
  | entry actorDid action result evidenceHash id appendedAt nowMs =>
    simp only [posted, handle, postEntry, entryHashOf]
    cases wasmAuditAppend blake3 id appendedAt actorDid action result (orElse evidenceHash zeros) with
    | error error => exact .inl ⟨rfl, rfl⟩
    | ok auditResult => exact .inr ⟨_, rfl, ⟨rfl, rfl⟩, rfl⟩
  | health runId findingsDigest attestationSignerDid nowMs =>
    exact .inr ⟨_, rfl, ⟨rfl, rfl⟩, rfl⟩

end Service

/-! ### The order of the rows -/

variable {blake3 : Blake3} {table : AuditEntries} {row : AuditRow}

/-- The rows are numbered from zero in the order of insertion. -/
def Ascending (table : AuditEntries) : Prop :=
  table.map AuditRow.sequence = (List.range table.length).map Int.ofNat

theorem Ascending.getElem (ascending : Ascending table) {index : ℕ} (inside : index < table.length) :
    table[index].sequence = index := by
  have at_index := congrArg (·[index]?) ascending
  simpa [inside] using at_index

/-- The greatest number is one less than the number of rows. -/
theorem Ascending.maxSequence_eq (ascending : Ascending table) :
    maxSequence table + 1 = table.length := by
  unfold maxSequence
  rw [ascending]
  cases table with
  | nil => rfl
  | cons first rest =>
    rw [List.length_cons, List.range_succ, List.map_append, List.map_singleton]
    have greatest : ∀ n ∈ (List.range rest.length).map Int.ofNat, n ≤ Int.ofNat rest.length := by
      intro n member
      obtain ⟨k, below, rfl⟩ := List.mem_map.mp member
      have := List.mem_range.mp below
      show (k : ℤ) ≤ (rest.length : ℤ)
      omega
    rw [max?_concat_eq_iff.mpr greatest]
    rfl

theorem Ascending.concat (ascending : Ascending table) (follows : Follows table row) :
    Ascending (table ++ [row]) := by
  unfold Ascending
  rw [List.map_append, ascending, List.length_append, List.length_singleton, List.range_succ,
    List.map_append, List.map_singleton, List.map_singleton, follows.sequence,
    ascending.maxSequence_eq]
  rfl

/-- **Every request keeps the rows in order.** -/
theorem posted_ascending (table : AuditEntries) (post : Post) (ascending : Ascending table) :
    Ascending (posted blake3 table post) := by
  rcases posted_cases blake3 table post with ⟨_, same⟩ | ⟨row, _, follows, after⟩
  · rw [same]
    exact ascending
  · rw [after]
    exact ascending.concat follows

/-- The database gives the rows back in the order of insertion. -/
theorem Ascending.ordered_eq (ascending : Ascending table) : ordered table = table := by
  refine List.mergeSort_of_pairwise (List.pairwise_iff_getElem.mpr fun i j iIn jIn before => ?_)
  rw [ascending.getElem iIn, ascending.getElem jIn]
  simpa using before.le

/-! ### The chain -/

/-- A row is linked to the row before it. -/
def LinkedTo (previous row : AuditRow) : Prop := row.prevHash = previous.entryHash

/-- **An intact chain**: the verifier reports it intact, and the link of each row is the entry hash of
the row with the number before. -/
structure Intact (table : AuditEntries) : Prop where
  verified : (verify table).intact = true
  linked : ∀ row ∈ table, ∀ previous ∈ table, row.sequence = previous.sequence + 1 →
    row.prevHash = previous.entryHash

/-- The loop of the verifier finds no break in a chain, and only there. -/
theorem firstBreak_eq_none_iff (rows : List AuditRow) :
    firstBreak rows = none ↔ rows.IsChain LinkedTo := by
  fun_induction firstBreak rows with
  | case1 previous row rest broken =>
    rw [List.isChain_cons_cons]
    exact iff_of_false nofun fun chain => broken chain.1
  | case2 previous row rest linked ih =>
    rw [List.isChain_cons_cons, ih]
    have link : LinkedTo previous row := not_not.mp linked
    rw [and_iff_right link]
  | case3 rows short =>
    match rows, short with
    | [], _ => exact iff_of_true rfl List.IsChain.nil
    | [row], _ => exact iff_of_true rfl (List.IsChain.singleton row)
    | previous :: row :: rest, short => exact absurd rfl (short previous row rest)

/-- With the rows in order, an intact chain is a chain. -/
theorem Ascending.intact_iff (ascending : Ascending table) :
    Intact table ↔ table.IsChain LinkedTo := by
  have verdict : (verify table).intact = true ↔ table.IsChain LinkedTo := by
    show (firstBreak (ordered table)).isNone = true ↔ _
    rw [ascending.ordered_eq, Option.isNone_iff_eq_none, firstBreak_eq_none_iff]
  constructor
  · exact fun intact => verdict.mp intact.verified
  · intro chain
    refine ⟨verdict.mpr chain, fun row rowIn previous previousIn next => ?_⟩
    obtain ⟨j, jIn, rfl⟩ := List.getElem_of_mem previousIn
    obtain ⟨i, iIn, rfl⟩ := List.getElem_of_mem rowIn
    rw [ascending.getElem iIn, ascending.getElem jIn] at next
    have after : i = j + 1 := by omega
    subst after
    exact List.isChain_iff_getElem.mp chain j iIn

/-- **One more row keeps a chain** exactly if the entry hash of the last row is the greatest. -/
theorem isChain_concat_iff {last : AuditRow} (follows : Follows (table ++ [last]) row) :
    (table ++ [last] ++ [row]).IsChain LinkedTo ↔
      (table ++ [last]).IsChain LinkedTo ∧
        ∀ hash ∈ table.map AuditRow.entryHash, hash ≤ last.entryHash := by
  have link : LinkedTo last row ↔
      ∀ hash ∈ table.map AuditRow.entryHash, hash ≤ last.entryHash := by
    unfold LinkedTo
    rw [follows.prevHash, maxEntryHash, List.map_append, List.map_singleton, max?_concat_eq_iff]
  rw [List.isChain_append]
  simp [link]

/-- After any requests the rows are in order. -/
theorem ascending_run (blake3 : Blake3) (posts : List Post) :
    Ascending (run (posted blake3) [] posts) := by
  have empty : Ascending [] := rfl
  exact (throughout_of_preserved posted_ascending empty posts).last

/-- They hold the entry hashes of the requests that did not throw. -/
theorem entryHashes_run (blake3 : Blake3) (posts : List Post) :
    (run (posted blake3) [] posts).map AuditRow.entryHash = posts.filterMap (entryHashOf blake3) := by
  induction posts using List.reverseRecOn with
  | nil => rfl
  | append_singleton earlier post ih =>
    rw [run_append, run_cons, run_nil, List.filterMap_append, ← ih]
    rcases posted_cases blake3 (run (posted blake3) [] earlier) post with
      ⟨threw, same⟩ | ⟨row, written, _, after⟩
    · rw [same]
      simp [threw]
    · rw [after]
      simp [written]

/-- **The chain and the hashes**: after any requests the rows are a chain exactly if the entry hashes of
the requests, the last one apart, never decrease. -/
theorem isChain_run_iff (blake3 : Blake3) (posts : List Post) :
    (run (posted blake3) [] posts).IsChain LinkedTo ↔
      (posts.filterMap (entryHashOf blake3)).dropLast.Pairwise (· ≤ ·) := by
  rw [← entryHashes_run]
  induction posts using List.reverseRecOn with
  | nil => exact iff_of_true List.IsChain.nil List.Pairwise.nil
  | append_singleton earlier post ih =>
    rw [run_append, run_cons, run_nil]
    rcases posted_cases blake3 (run (posted blake3) [] earlier) post with
      ⟨_, same⟩ | ⟨row, _, follows, after⟩
    · rw [same]
      exact ih
    · rw [after, List.map_append, List.map_singleton, List.dropLast_concat]
      rcases List.eq_nil_or_concat' (run (posted blake3) [] earlier) with
        empty | ⟨before, last, split⟩
      · rw [empty]
        exact iff_of_true (List.IsChain.singleton row) List.Pairwise.nil
      · rw [split] at ih follows ⊢
        rw [List.map_append, List.map_singleton, List.dropLast_concat] at ih
        rw [isChain_concat_iff follows, ih, List.map_append, List.map_singleton, List.pairwise_append]
        simp

/-- **When the persisted chain is intact**: after the requests whose entry hashes, the last one apart,
never decrease, and after no others. -/
theorem chain_intact_iff (blake3 : Blake3) (posts : List Post) :
    Intact (run (posted blake3) [] posts) ↔
      (posts.filterMap (entryHashOf blake3)).dropLast.Pairwise (· ≤ ·) := by
  rw [(ascending_run blake3 posts).intact_iff, isChain_run_iff]

namespace ThreeSnapshots

/-- Snapshots of three runs; the entry hash of the first is greater than that of the second. -/
def snapshots : List Post := ["r2", "r1", "r3"].map fun runId => .health runId "digest" none 1000

/-- **The third row is linked to the first.** -/
theorem snapshots_broken :
    ¬ ∀ posts : List Post,
      (∀ post ∈ posts, (entryHashOf Blake3.hash post).isSome) →
        Intact (run (posted Blake3.hash) [] posts) := by
  intro claimed
  have intact := claimed snapshots (by decide +kernel)
  have sorted := (isChain_run_iff Blake3.hash snapshots).mp
    ((ascending_run Blake3.hash snapshots).intact_iff.mp intact)
  revert sorted
  decide +kernel

end ThreeSnapshots

end Exochain.AuditApi
