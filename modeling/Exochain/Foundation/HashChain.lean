/-
**Hash-chained logs.**

A log is a list of entries. An entry holds a link and hands on a digest, and the link of an entry is
what the entry before it hands on, that of the first one a fixed start.

* `verifyLinks` is the loop of a verifier, which reports the index of the first broken link, and
  `appendLinked` the append that refuses a broken link. Both agree on what a log is: **`built_iff`**.
* **`map_eq_of_handedOn_eq`** — two logs that hand on the same are made of the same texts, as long as
  the texts of the two have distinct digests and none of them is that of the start.
* **`eq_iff_of_verified`** — then the logs are equal exactly if no text is read in two ways.
-/

import Exochain.Foundation.Machine
import Exochain.Foundation.Run
import Exochain.Foundation.Merkle

set_option linter.unusedSectionVars false

namespace Foundation

section HashChain

variable {α σ ε : Type} [DecidableEq σ] {link next : α → σ}

/-! ### The verifier and the append -/

/-- Whether every entry is linked to the one before it. -/
def Linked (link next : α → σ) (start : σ) (entries : List α) : Prop :=
  Threaded (fun previous entry => link entry = previous) next start entries

/-- The loop of a verifier: compare each link with what the entry before hands on. -/
def verifyLinks (link next : α → σ) (broken : ℕ → ε) : σ → ℕ → List α → Except ε Unit
  | _, _, [] => .ok ()
  | previous, index, entry :: rest =>
    if link entry ≠ previous then .error (broken index)
    else verifyLinks link next broken (next entry) (index + 1) rest

/-- Add an entry that is linked to the last one. -/
def appendLinked (link next : α → σ) (broken : ℕ → ε) (start : σ) (entries : List α) (entry : α) :
    Except ε (List α) :=
  if link entry ≠ handedOn next start entries then .error (broken entries.length)
  else .ok (entries ++ [entry])

/-- The verifier accepts exactly the linked lists. -/
theorem verifyLinks_eq_ok_iff {broken : ℕ → ε} {previous : σ} {index : ℕ} {entries : List α} :
    verifyLinks link next broken previous index entries = .ok () ↔
      Linked link next previous entries := by
  induction entries generalizing previous index with
  | nil => exact ⟨fun _ => trivial, fun _ => rfl⟩
  | cons entry rest ih =>
    rw [verifyLinks, Linked, Threaded, ite_not]
    split
    · rename_i linked
      rw [ih, Linked, and_iff_right linked]
    · rename_i unlinked
      exact iff_of_false (by simp) fun threaded => unlinked threaded.1

/-- What an append returns. -/
theorem appendLinked_eq_ok_iff {broken : ℕ → ε} {start : σ} {entries after : List α} {entry : α} :
    appendLinked link next broken start entries entry = .ok after ↔
      link entry = handedOn next start entries ∧ after = entries ++ [entry] := by
  rw [appendLinked, ite_not]
  split
  · rename_i linked
    rw [Except.ok.injEq, and_iff_right linked, eq_comm]
  · rename_i unlinked
    exact iff_of_false (by simp) fun accepted => unlinked accepted.1

/-- Appends to a linked list: what they return is the list with the entries added, and it is linked
exactly if none fails. -/
theorem foldlM_appendLinked_iff {broken : ℕ → ε} {start : σ} {entries : List α} (calls : List α)
    {after : List α} (linked : Linked link next start entries) :
    calls.foldlM (appendLinked link next broken start) entries = .ok after ↔
      after = entries ++ calls ∧ Linked link next start after := by
  induction calls generalizing entries with
  | nil =>
    rw [List.foldlM_nil, List.append_nil]
    constructor
    · rintro returned
      cases returned
      exact ⟨rfl, linked⟩
    · rintro ⟨rfl, -⟩
      rfl
  | cons entry calls ih =>
    rw [List.foldlM_cons, bind_eq_ok_iff]
    constructor
    · rintro ⟨longer, appended, rest⟩
      obtain ⟨next_linked, rfl⟩ := appendLinked_eq_ok_iff.mp appended
      obtain ⟨rfl, both⟩ := (ih (threaded_concat_iff.mpr ⟨linked, next_linked⟩)).mp rest
      exact ⟨List.append_assoc .., both⟩
    · rintro ⟨whole, both⟩
      rw [List.append_cons] at whole
      have longer := (threaded_append_iff.mp (whole ▸ both)).1
      refine ⟨entries ++ [entry], ?_, (ih longer).mpr ⟨whole, both⟩⟩
      exact appendLinked_eq_ok_iff.mpr ⟨(threaded_concat_iff.mp longer).2, rfl⟩

/-- **A log is accepted exactly if it can be built**, from the empty one by appends that succeed. -/
theorem built_iff {broken broken' : ℕ → ε} {start : σ} {entries : List α} :
    verifyLinks link next broken start 0 entries = .ok () ↔
      ∃ calls : List α, calls.foldlM (appendLinked link next broken' start) [] = .ok entries := by
  have empty : Linked link next start [] := trivial
  rw [verifyLinks_eq_ok_iff]
  constructor
  · intro linked
    exact ⟨entries, (foldlM_appendLinked_iff entries empty).mpr ⟨rfl, linked⟩⟩
  · rintro ⟨calls, built⟩
    exact ((foldlM_appendLinked_iff calls empty).mp built).2

/-! ### Binding -/

/-- **What a log hands on binds its texts.** -/
theorem map_eq_of_handedOn_eq {κ : Type*} {text : α → κ} {start : σ} {entries entries' : List α}
    (held : ∀ entry entry', text entry = text entry' → link entry = link entry')
    (bound : ∀ entry ∈ entries, ∀ entry' ∈ entries', next entry = next entry' →
      text entry = text entry')
    (apart : ∀ entry ∈ entries, next entry ≠ start) (apart' : ∀ entry ∈ entries', next entry ≠ start)
    (linked : Linked link next start entries) (linked' : Linked link next start entries')
    (same : handedOn next start entries = handedOn next start entries') :
    entries.map text = entries'.map text := by
  -- from the later end: the last entries hand on the same, so they have one text and one link
  induction entries using List.reverseRecOn generalizing entries' with
  | nil =>
    induction entries' using List.reverseRecOn with
    | nil => rfl
    | append_singleton entries' entry' _ =>
      rw [handedOn_nil, handedOn_concat] at same
      exact absurd same.symm (apart' entry' (by simp))
  | append_singleton entries entry ih =>
    induction entries' using List.reverseRecOn with
    | nil =>
      rw [handedOn_nil, handedOn_concat] at same
      exact absurd same (apart entry (by simp))
    | append_singleton entries' entry' _ =>
      rw [handedOn_concat, handedOn_concat] at same
      have lastText := bound entry (by simp) entry' (by simp) same
      obtain ⟨earlier, lastLink⟩ := threaded_concat_iff.mp linked
      obtain ⟨earlier', lastLink'⟩ := threaded_concat_iff.mp linked'
      have before : handedOn next start entries = handedOn next start entries' := by
        rw [← lastLink, ← lastLink', held entry entry' lastText]
      have front := ih
        (fun first firstIn second secondIn =>
          bound first (List.mem_append_left _ firstIn) second (List.mem_append_left _ secondIn))
        (fun first firstIn => apart first (List.mem_append_left _ firstIn))
        (fun first firstIn => apart' first (List.mem_append_left _ firstIn)) earlier earlier' before
      rw [List.map_append, List.map_append, front, List.map_singleton, List.map_singleton, lastText]

/-- Lists with the same texts have the same contents exactly if no two entries at one position are
different readings of their text. -/
theorem map_eq_iff_of_map_eq {κ γ : Type*} {text : α → κ} {content : α → γ} {Misread : α → α → Prop}
    (read : ∀ entry entry', text entry = text entry' →
      (content entry = content entry' ↔ ¬ Misread entry entry'))
    {entries entries' : List α} (same : entries.map text = entries'.map text) :
    entries.map content = entries'.map content ↔
      ∀ pair ∈ entries.zip entries', ¬ Misread pair.1 pair.2 := by
  induction entries generalizing entries' with
  | nil =>
    rw [List.map_nil, eq_comm, List.map_eq_nil_iff] at same
    simp [same]
  | cons entry entries ih =>
    cases entries' with
    | nil => cases same
    | cons entry' entries' =>
      rw [List.map_cons, List.map_cons, List.cons.injEq] at same
      rw [List.map_cons, List.map_cons, List.cons.injEq, List.zip_cons_cons, List.forall_mem_cons,
        read entry entry' same.1, ih same.2]

/-- Lists with the same texts are equal exactly if no two entries at one position are different
readings of their text. -/
theorem eq_iff_of_map_eq {κ : Type*} {text : α → κ} {Misread : α → α → Prop}
    (read : ∀ entry entry', text entry = text entry' → (entry = entry' ↔ ¬ Misread entry entry'))
    {entries entries' : List α} (same : entries.map text = entries'.map text) :
    entries = entries' ↔ ∀ pair ∈ entries.zip entries', ¬ Misread pair.1 pair.2 := by
  have whole : entries.map id = entries'.map id ↔
      ∀ pair ∈ entries.zip entries', ¬ Misread pair.1 pair.2 := map_eq_iff_of_map_eq read same
  rwa [List.map_id, List.map_id] at whole

/-! ### Logs without links -/

/-- The entries of a log that does not store its links, each with the digest it is linked to. -/
def withLinks (digest : σ → α → σ) : σ → List α → List (σ × α)
  | _, [] => []
  | previous, entry :: rest => (previous, entry) :: withLinks digest (digest previous entry) rest

variable {digest : σ → α → σ} {start : σ}

theorem linked_withLinks (entries : List α) :
    Linked Prod.fst (fun pair => digest pair.1 pair.2) start (withLinks digest start entries) := by
  induction entries generalizing start with
  | nil => trivial
  | cons entry rest ih => exact ⟨rfl, ih⟩

theorem map_snd_withLinks (entries : List α) :
    (withLinks digest start entries).map Prod.snd = entries := by
  induction entries generalizing start with
  | nil => rfl
  | cons entry rest ih => rw [withLinks, List.map_cons, ih]

/-- **Logs with one head.** Of two accepted logs with the same head, whose texts neither collide nor
hash to the start, the entries are the same exactly if no text is read in two ways. -/
theorem eq_iff_of_verified {β : Type*} (text : α → β) (digest : β → σ) {broken : ℕ → ε} {start : σ}
    {entries entries' : List α} {Misread : α → α → Prop}
    (held : ∀ entry entry', text entry = text entry' → link entry = link entry')
    (read : ∀ entry entry', text entry = text entry' → (entry = entry' ↔ ¬ Misread entry entry'))
    (verified : verifyLinks link (fun entry => digest (text entry)) broken start 0 entries = .ok ())
    (verified' : verifyLinks link (fun entry => digest (text entry)) broken start 0 entries' = .ok ())
    (same : handedOn (fun entry => digest (text entry)) start entries =
      handedOn (fun entry => digest (text entry)) start entries')
    (free : ¬ CollisionIn digest (entries.map text ++ entries'.map text))
    (apart : ∀ s ∈ entries.map text ++ entries'.map text, digest s ≠ start) :
    entries = entries' ↔ ∀ pair ∈ entries.zip entries', ¬ Misread pair.1 pair.2 := by
  have hashed : ∀ entry ∈ entries, text entry ∈ entries.map text ++ entries'.map text :=
    fun entry member => List.mem_append_left _ (List.mem_map_of_mem member)
  have hashed' : ∀ entry ∈ entries', text entry ∈ entries.map text ++ entries'.map text :=
    fun entry member => List.mem_append_right _ (List.mem_map_of_mem member)
  refine eq_iff_of_map_eq read (map_eq_of_handedOn_eq held ?_ ?_ ?_
    (verifyLinks_eq_ok_iff.mp verified) (verifyLinks_eq_ok_iff.mp verified') same)
  · exact fun entry member entry' member' =>
      eq_of_hash_eq free (hashed entry member) (hashed' entry' member')
  · exact fun entry member => apart _ (hashed entry member)
  · exact fun entry member => apart _ (hashed' entry member)

end HashChain

end Foundation
