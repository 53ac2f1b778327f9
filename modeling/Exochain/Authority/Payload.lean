/-
**`exo-authority` — what a signed payload binds.**

Two links with one payload are validated by one signature. The kind of the delegatee, model
identifier included, is always bound: the rendering escapes every quote inside it, so that the
opening quote can be found from the end (`kind_bound`). The other boundaries can move, in two ways
and no other:

* `BoundaryMoved` — the names of permissions are letters of the alphabet of identifiers, and an
  identifier may contain another one, so a delegate can take the first permissions of the scope into
  its name, and the delegator the start of the delegate.
* `ExpiryMoved` — a link with an expiry reads as one without: its creation time as the end of the
  text before it, its depth and expiry as creation time and depth.

**`payload_binds_iff`** — equal payloads force equal grants exactly where neither happens.
-/

import Exochain.Authority.Chain

set_option linter.unusedSectionVars false

namespace Exochain.ExoAuthority

open Foundation ExoCore

/-! ### The rendering of a string -/

section Rendering

variable (printable : Char → Bool)

theorem lookup_letterEscapes {c letter : Char} (found : letterEscapes.lookup c = some letter) :
    (c, letter) ∈ letterEscapes := by
  obtain ⟨before, after, split, _⟩ := List.lookup_eq_some_iff.mp found
  rw [split]
  exact List.mem_append_right _ List.mem_cons_self

/-- The three ways to render a character. -/
theorem escapeDebug_cases (c : Char) :
    (∃ letter, (c, letter) ∈ letterEscapes ∧ escapeDebug printable c = ['\\', letter]) ∨
      (c ≠ '\\' ∧ c ≠ '"' ∧ escapeDebug printable c = [c]) ∨
      escapeDebug printable c = ['\\', 'u', '\x7b'] ++ Nat.toDigits 16 c.toNat ++ ['\x7d'] := by
  rw [escapeDebug]
  cases found : letterEscapes.lookup c with
  | some letter => exact .inl ⟨letter, lookup_letterEscapes found, rfl⟩
  | none =>
    simp only
    split
    · refine .inr (.inl ⟨?_, ?_, rfl⟩)
      · intro backslash
        rw [backslash] at found
        exact absurd found (by decide)
      · intro quote
        rw [quote] at found
        exact absurd found (by decide)
    · exact .inr (.inr rfl)

theorem eq_of_letter_eq {c c' letter letter' : Char} (listed : (c, letter) ∈ letterEscapes)
    (listed' : (c', letter') ∈ letterEscapes) (same : letter = letter') : c = c' := by
  have table : ∀ p ∈ letterEscapes, ∀ q ∈ letterEscapes, p.2 = q.2 → p.1 = q.1 := by decide
  exact table _ listed _ listed' same

theorem letter_ne_u {c letter : Char} (listed : (c, letter) ∈ letterEscapes) : letter ≠ 'u' := by
  have table : ∀ p ∈ letterEscapes, p.2 ≠ 'u' := by decide
  exact table _ listed

theorem digitChar_plain {digit : ℕ} (small : digit < 16) :
    digit.digitChar ≠ '"' ∧ digit.digitChar ≠ '\x7d' := by
  have table : ∀ x : Fin 16, (x : ℕ).digitChar ≠ '"' ∧ (x : ℕ).digitChar ≠ '\x7d' := by decide
  exact table ⟨digit, small⟩

theorem close_not_mem_toDigits (n : ℕ) : '\x7d' ∉ Nat.toDigits 16 n := by
  intro member
  obtain ⟨digit, small, same⟩ := exists_of_mem_toDigits member
  exact (digitChar_plain small).2 same.symm

/-- **A rendered character can be told apart from what follows it.** -/
theorem escapeDebug_prefixFree : PrefixFree (escapeDebug printable) where
  nonempty c := by
    rcases escapeDebug_cases printable c with ⟨_, _, shape⟩ | ⟨_, _, shape⟩ | shape
    · simp [shape]
    · simp [shape]
    · simp [shape]
  eq_of_starts a b starts := by
    obtain ⟨rest, same⟩ := starts
    rcases escapeDebug_cases printable a with ⟨x, listed, shape⟩ | ⟨notSlash, _, shape⟩ | shape
    · rw [shape] at same
      rcases escapeDebug_cases printable b with ⟨y, listed', shape'⟩ | ⟨_, _, shape'⟩ | shape'
      · rw [shape'] at same
        have letters : x = y := (List.cons.inj (List.cons.inj same).2).1
        exact eq_of_letter_eq listed listed' letters
      · rw [shape'] at same
        simpa using congrArg List.length same
      · rw [shape'] at same
        have letter : x = 'u' := (List.cons.inj (List.cons.inj same).2).1
        exact absurd letter (letter_ne_u listed)
    · rw [shape] at same
      rcases escapeDebug_cases printable b with ⟨y, listed', shape'⟩ | ⟨_, _, shape'⟩ | shape'
      · rw [shape'] at same
        exact absurd (List.cons.inj same).1 notSlash
      · rw [shape'] at same
        exact (List.cons.inj same).1
      · rw [shape'] at same
        exact absurd (List.cons.inj same).1 notSlash
    · rw [shape] at same
      rcases escapeDebug_cases printable b with ⟨y, listed', shape'⟩ | ⟨notSlash, _, shape'⟩ | shape'
      · rw [shape'] at same
        have letter : y = 'u' := (List.cons.inj (List.cons.inj same).2).1.symm
        exact absurd letter (letter_ne_u listed')
      · rw [shape'] at same
        exact absurd (List.cons.inj same).1.symm notSlash
      · rw [shape', List.append_assoc, List.append_assoc, List.append_assoc] at same
        have closed : Nat.toDigits 16 a.toNat ++ '\x7d' :: rest =
            Nat.toDigits 16 b.toNat ++ '\x7d' :: [] := List.append_cancel_left same
        obtain ⟨numerals, _⟩ := (List.append_cons_inj_of_notMem (close_not_mem_toDigits _)
          List.not_mem_nil).mp closed.symm
        exact Char.toNat_inj.mp (toDigits_injective numerals).symm

/-! ### Quotes -/

/-- The bytes of a rendered character. -/
def escapeBytes (c : Char) : List UInt8 := (escapeDebug printable c).flatMap String.utf8EncodeChar

/-- Every quote has a backslash right before it. -/
def QuotesEscaped (bytes : List UInt8) : Prop :=
  ∀ before after, bytes = before ++ 34 :: after → ∃ front, before = front ++ [92]

theorem QuotesEscaped.append {bytes bytes' : List UInt8} (first : QuotesEscaped bytes)
    (second : QuotesEscaped bytes') : QuotesEscaped (bytes ++ bytes') := by
  intro before after split
  rcases List.append_eq_append_iff.mp split with ⟨more, rfl, inSecond⟩ | ⟨more, inFirst, rest⟩
  · obtain ⟨front, rfl⟩ := second more after inSecond
    exact ⟨bytes ++ front, (List.append_assoc _ _ _).symm⟩
  · cases more with
    | nil =>
      rw [List.append_nil] at inFirst
      subst inFirst
      obtain ⟨front, none⟩ := second [] after rest.symm
      cases front with
      | nil => cases none
      | cons b front => cases none
    | cons b more =>
      obtain ⟨rfl, _⟩ := List.cons.inj rest
      exact first before more inFirst

theorem quotesEscaped_of_not_mem {bytes : List UInt8} (without : 34 ∉ bytes) :
    QuotesEscaped bytes := by
  intro before after split
  exact absurd (split ▸ List.mem_append_right _ List.mem_cons_self) without

theorem not_mem_utf8EncodeChar {c : Char} (notQuote : c ≠ '"') :
    34 ∉ String.utf8EncodeChar c := by
  intro member
  have number := toNat_of_mem_utf8EncodeChar member (by decide)
  exact notQuote (Char.toNat_inj.mp number)

/-- The rendering of a character other than the quote has no quote. -/
theorem quote_not_mem_escapeDebug {c : Char} (notQuote : c ≠ '"') :
    '"' ∉ escapeDebug printable c := by
  rcases escapeDebug_cases printable c with ⟨letter, listed, shape⟩ | ⟨_, _, shape⟩ | shape
  · have table : ∀ p ∈ letterEscapes, p.1 ≠ '"' → '"' ∉ ['\\', p.2] := by decide
    rw [shape]
    exact table (c, letter) listed notQuote
  · rw [shape, List.mem_singleton]
    exact notQuote.symm
  · rw [shape, List.mem_append, List.mem_append]
    rintro ((opening | numeral) | closing)
    · exact absurd opening (by decide)
    · obtain ⟨digit, small, same⟩ := exists_of_mem_toDigits numeral
      exact (digitChar_plain small).1 same.symm
    · exact absurd closing (by decide)

theorem quotesEscaped_escapeBytes (c : Char) : QuotesEscaped (escapeBytes printable c) := by
  by_cases quote : c = '"'
  · subst quote
    have shape : escapeBytes printable '"' = [92, 34] := rfl
    rw [shape]
    intro before after split
    rcases before with _ | ⟨first, _ | ⟨second, before⟩⟩
    · cases split
    · obtain ⟨rfl, _⟩ := List.cons.inj split
      exact ⟨[], rfl⟩
    · simp at split
  · apply quotesEscaped_of_not_mem
    intro member
    obtain ⟨rendered, among, encoded⟩ := List.mem_flatMap.mp member
    apply not_mem_utf8EncodeChar _ encoded
    intro same
    exact quote_not_mem_escapeDebug printable quote (same ▸ among)

/-- The bytes of a rendered string, without the quotes around it. -/
def bodyBytes (text : String) : List UInt8 := text.toList.flatMap (escapeBytes printable)

/-- **No quote is left bare** in the rendering of a string. -/
theorem quotesEscaped_bodyBytes (text : String) : QuotesEscaped (bodyBytes printable text) := by
  rw [bodyBytes]
  induction text.toList with
  | nil => exact quotesEscaped_of_not_mem List.not_mem_nil
  | cons c rest ih =>
    rw [List.flatMap_cons]
    exact (quotesEscaped_escapeBytes printable c).append ih

theorem bodyBytes_eq (text : String) :
    bodyBytes printable text =
      textBytes (String.ofList (text.toList.flatMap (escapeDebug printable))) := by
  rw [textBytes_ofList, List.flatMap_assoc]
  rfl

/-- **The text can be read back from its rendering.** -/
theorem bodyBytes_injective : Function.Injective (bodyBytes printable) := by
  intro text text' same
  rw [bodyBytes_eq, bodyBytes_eq] at same
  have rendered := String.ofList_injective (textBytes_injective same)
  exact String.toList_injective ((escapeDebug_prefixFree printable).flatMap_injective rendered)

/-! ### The kind, read from the end -/

/-- The rendering of an agent up to the opening quote. -/
def agentOpening : List UInt8 := textBytes "AiAgent \x7b model_id: "

/-- The last three bytes of the rendering of a kind. -/
def DelegateeKind.ending : DelegateeKind → List UInt8
  | .human => [109, 97, 110]
  | .aiAgent _ => [34, 32, 125]
  | .unknown => [111, 119, 110]

@[simp] theorem DelegateeKind.length_ending (kind : DelegateeKind) : kind.ending.length = 3 := by
  cases kind with
  | human => rfl
  | aiAgent modelId => rfl
  | unknown => rfl

theorem debugString_bytes (text : String) :
    textBytes (debugString printable text) = 34 :: bodyBytes printable text ++ [34] := by
  have quote : textBytes "\"" = [34] := by decide +kernel
  rw [debugString, textBytes_append, textBytes_append, ← bodyBytes_eq, quote]
  rfl

theorem agent_bytes (modelId : String) :
    textBytes ((DelegateeKind.aiAgent modelId).debug printable) =
      (agentOpening ++ 34 :: bodyBytes printable modelId) ++
        (DelegateeKind.aiAgent modelId).ending := by
  show textBytes ("AiAgent \x7b model_id: " ++ debugString printable modelId ++ " \x7d") = _
  rw [textBytes_append, textBytes_append, debugString_bytes, ← agentOpening]
  have closing : textBytes " \x7d" = [32, 125] := by decide +kernel
  rw [closing, DelegateeKind.ending]
  simp

theorem exists_kind_bytes (kind : DelegateeKind) :
    ∃ start, textBytes (kind.debug printable) = start ++ kind.ending := by
  cases kind with
  | human => exact ⟨[72, 117], rfl⟩
  | aiAgent modelId => exact ⟨_, agent_bytes printable modelId⟩
  | unknown => exact ⟨[85, 110, 107, 110], rfl⟩

theorem agentOpening_ends : ∃ start, agentOpening = start ++ [32] :=
  ⟨textBytes "AiAgent \x7b model_id:", by decide +kernel⟩

/-- **An opening cannot stand further to the right**: its quote would lie in the rendered text, after
a blank. -/
theorem opening_unique {modelId modelId' : String} {more : List UInt8}
    (same : agentOpening ++ 34 :: bodyBytes printable modelId =
      (more ++ agentOpening) ++ 34 :: bodyBytes printable modelId') : more = [] := by
  rcases List.append_eq_append_iff.mp same with ⟨gap, openings, bodies⟩ | ⟨gap, openings, _⟩
  · cases gap with
    | nil =>
      have lengths := congrArg List.length openings
      rw [List.append_nil, List.length_append] at lengths
      exact List.length_eq_zero_iff.mp (by omega)
    | cons first gap =>
      exfalso
      obtain ⟨_, inBody⟩ := List.cons.inj bodies
      obtain ⟨front, rfl⟩ := quotesEscaped_bodyBytes printable modelId gap _ inBody
      obtain ⟨start, ends⟩ := agentOpening_ends
      have lasts := congrArg List.getLast? openings
      rw [← List.cons_append, ← List.append_assoc, List.getLast?_concat] at lasts
      nth_rewrite 1 [ends] at lasts
      rw [← List.append_assoc, List.getLast?_concat] at lasts
      exact absurd lasts (by decide)
  · have lengths := congrArg List.length openings
    rw [List.length_append, List.length_append] at lengths
    exact List.length_eq_zero_iff.mp (by omega)

theorem agent_bound {front front' : List UInt8} {modelId modelId' : String}
    (same : front ++ (agentOpening ++ 34 :: bodyBytes printable modelId) =
      front' ++ (agentOpening ++ 34 :: bodyBytes printable modelId')) :
    modelId = modelId' ∧ front = front' := by
  have fronts : front = front' := by
    rcases List.append_eq_append_iff.mp same with ⟨more, rfl, rest⟩ | ⟨more, rfl, rest⟩
    · rw [← List.append_assoc] at rest
      rw [opening_unique printable rest, List.append_nil]
    · rw [← List.append_assoc] at rest
      rw [opening_unique printable rest, List.append_nil]
  subst fronts
  have bodies := (List.cons.inj (List.append_cancel_left (List.append_cancel_left same))).2
  exact ⟨bodyBytes_injective printable bodies, rfl⟩

/-- **The kind is bound**, and with it everything before it. -/
theorem kind_bound {front front' : List UInt8} {kind kind' : DelegateeKind}
    (same : front ++ textBytes (kind.debug printable) =
      front' ++ textBytes (kind'.debug printable)) : kind = kind' ∧ front = front' := by
  have endings : kind.ending = kind'.ending := by
    obtain ⟨start, bytes⟩ := exists_kind_bytes printable kind
    obtain ⟨start', bytes'⟩ := exists_kind_bytes printable kind'
    rw [bytes, bytes', ← List.append_assoc, ← List.append_assoc] at same
    exact (List.append_inj' same (by simp)).2
  cases kind with
  | human =>
    cases kind' with
    | human => exact ⟨rfl, List.append_cancel_right same⟩
    | aiAgent modelId' => cases endings
    | unknown => cases endings
  | aiAgent modelId =>
    cases kind' with
    | human => cases endings
    | aiAgent modelId' =>
      rw [agent_bytes, agent_bytes, endings, ← List.append_assoc front,
        ← List.append_assoc front'] at same
      obtain ⟨ids, fronts⟩ := agent_bound printable (List.append_cancel_right same)
      exact ⟨congrArg _ ids, fronts⟩
    | unknown => cases endings
  | unknown =>
    cases kind' with
    | human => cases endings
    | aiAgent modelId' => cases endings
    | unknown => exact ⟨rfl, List.append_cancel_right same⟩

end Rendering

/-! ### The names of permissions -/

/-- Every permission. -/
def Permission.all : List Permission :=
  [.read, .write, .execute, .delegate, .govern, .escalate, .challenge]

theorem Permission.mem_all (p : Permission) : p ∈ Permission.all := by
  cases p <;> decide

/-- The names of a scope, one after the other. -/
def namesBytes (scope : List Permission) : List UInt8 := scope.flatMap fun p => textBytes p.debug

/-- **A name starts with a capital letter and has no other one.** -/
theorem names_marked : Marked (fun byte : UInt8 => byte < 97) fun p : Permission => textBytes p.debug where
  nonempty p := by
    have table : ∀ p ∈ Permission.all, textBytes p.debug ≠ [] := by decide +kernel
    exact table p p.mem_all
  eq_of_starts p q := by
    have table : ∀ p ∈ Permission.all, ∀ q ∈ Permission.all,
        textBytes p.debug <+: textBytes q.debug → p = q := by decide +kernel
    exact table p p.mem_all q q.mem_all
  head_marked p := by
    have table : ∀ p ∈ Permission.all, ∀ byte ∈ (textBytes p.debug).head?.toList,
        decide (byte < 97) = true := by decide +kernel
    exact fun byte first => table p p.mem_all byte (Option.mem_toList.mpr first)
  tail_unmarked p := by
    have table : ∀ p ∈ Permission.all, ∀ byte ∈ (textBytes p.debug).tail,
        decide (byte < 97) = false := by decide +kernel
    exact table p p.mem_all

/-! ### Grants -/

namespace AuthorityLink

/-- The two links agree on every field that is signed. -/
structure SameGrant (link other : AuthorityLink) : Prop where
  delegatorDid : link.delegatorDid = other.delegatorDid
  delegateDid : link.delegateDid = other.delegateDid
  scope : link.scope = other.scope
  created : link.created = other.created
  depth : link.depth = other.depth
  expires : link.expires = other.expires
  delegateeKind : link.delegateeKind = other.delegateeKind

theorem SameGrant.symm {link other : AuthorityLink} (grant : SameGrant link other) :
    SameGrant other link :=
  ⟨grant.delegatorDid.symm, grant.delegateDid.symm, grant.scope.symm, grant.created.symm,
    grant.depth.symm, grant.expires.symm, grant.delegateeKind.symm⟩

/-- The two identifiers, one after the other. -/
def dids (link : AuthorityLink) : List UInt8 := link.delegatorDid.asBytes ++ link.delegateDid.asBytes

/-- What the payload has before the numbers. -/
def text (link : AuthorityLink) : List UInt8 := link.dids ++ namesBytes link.scope

/-- The bytes of the expiry. -/
def expiryBytes (link : AuthorityLink) : List UInt8 :=
  match link.expires with
  | some exp => exp.toLeBytes
  | none => []

/-- The times and the depth. -/
def numbers (link : AuthorityLink) : List UInt8 :=
  link.created.toLeBytes ++ leBytes 8 link.depth.toNat ++ link.expiryBytes

/-- **A boundary moved**: the other link's identifiers end in the names of the first permissions of
this one's scope, which its own scope lacks, or the two identifiers are cut elsewhere. -/
def BoundaryMoved (link other : AuthorityLink) : Prop :=
  link.created = other.created ∧ link.depth = other.depth ∧ link.expires = other.expires ∧
    link.delegateeKind = other.delegateeKind ∧
    ∃ moved, link.scope = moved ++ other.scope ∧ other.dids = link.dids ++ namesBytes moved ∧
      (moved ≠ [] ∨ link.delegatorDid ≠ other.delegatorDid)

/-- **The expiry moved**: the other link has none, and reads this one's creation time as the end of
its text, and depth and expiry as its creation time and depth. -/
def ExpiryMoved (link other : AuthorityLink) : Prop :=
  link.delegateeKind = other.delegateeKind ∧ other.expires = none ∧
    ∃ exp, link.expires = some exp ∧ other.text = link.text ++ link.created.toLeBytes ∧
      other.created.toLeBytes ++ leBytes 8 other.depth.toNat =
        leBytes 8 link.depth.toNat ++ exp.toLeBytes

section Binding

variable (printable : Char → Bool) {link other : AuthorityLink}

theorem signablePayload_eq (link : AuthorityLink) :
    link.signablePayload printable =
      (link.text ++ link.numbers) ++ textBytes (link.delegateeKind.debug printable) := by
  show link.dids ++ namesBytes link.scope ++ link.created.toLeBytes ++ leBytes 8 link.depth.toNat ++
    link.expiryBytes ++ textBytes (link.delegateeKind.debug printable) = _
  simp only [text, numbers, List.append_assoc]

/-- Where the text of one link is that of another, and its identifiers are the longer ones, they end
in the names of the first permissions of the other's scope. -/
theorem exists_moved {more : List UInt8} (longer : other.dids = link.dids ++ more)
    (rest : namesBytes link.scope = more ++ namesBytes other.scope) :
    ∃ moved, link.scope = moved ++ other.scope ∧ other.dids = link.dids ++ namesBytes moved := by
  obtain ⟨moved, scopes, rfl⟩ := names_marked.flatMap_eq_append_iff.mp rest
  exact ⟨moved, scopes, longer⟩

theorem text_eq_of_moved {moved : List Permission} (scopes : link.scope = moved ++ other.scope)
    (longer : other.dids = link.dids ++ namesBytes moved) : link.text = other.text := by
  rw [text, text, scopes, longer, namesBytes, namesBytes, namesBytes, List.flatMap_append,
    List.append_assoc]

/-- **The texts are equal exactly where permissions moved** between the scope and the identifiers of
one of the links. -/
theorem text_eq_iff :
    link.text = other.text ↔
      (∃ moved, link.scope = moved ++ other.scope ∧ other.dids = link.dids ++ namesBytes moved) ∨
        ∃ moved, other.scope = moved ++ link.scope ∧ link.dids = other.dids ++ namesBytes moved := by
  refine ⟨fun same => ?_, ?_⟩
  · rcases List.append_eq_append_iff.mp same with ⟨more, longer, rest⟩ | ⟨more, longer, rest⟩
    · exact .inl (exists_moved longer rest)
    · exact .inr (exists_moved longer rest)
  · rintro (⟨moved, scopes, longer⟩ | ⟨moved, scopes, longer⟩)
    · exact text_eq_of_moved scopes longer
    · exact (text_eq_of_moved scopes longer).symm

/-- Two expiries, or none: as many bytes, which determine them. -/
theorem expiryBytes_alike (alike : link.expires.isSome = other.expires.isSome) :
    link.expiryBytes.length = other.expiryBytes.length ∧
      (link.expiryBytes = other.expiryBytes → link.expires = other.expires) := by
  rw [expiryBytes, expiryBytes]
  cases expiring : link.expires with
  | none =>
    cases expiring' : other.expires with
    | none => exact ⟨rfl, fun _ => rfl⟩
    | some exp' => rw [expiring, expiring'] at alike; cases alike
  | some exp =>
    cases expiring' : other.expires with
    | none => rw [expiring, expiring'] at alike; cases alike
    | some exp' => exact ⟨by simp, fun same => congrArg some (Timestamp.toLeBytes_injective same)⟩

/-- Numbers of one length after texts are the same numbers. -/
theorem numbers_bound (same : link.text ++ link.numbers = other.text ++ other.numbers)
    (lengths : link.expiryBytes.length = other.expiryBytes.length) :
    link.text = other.text ∧ link.created = other.created ∧ link.depth = other.depth ∧
      link.expiryBytes = other.expiryBytes := by
  obtain ⟨texts, rest⟩ := List.append_inj' same (by simp [numbers, lengths])
  obtain ⟨front, expiries⟩ := List.append_inj' rest lengths
  obtain ⟨times, depths⟩ := List.append_inj front (by simp)
  have depthNumbers := leBytes_injective link.depth.toNat_lt other.depth.toNat_lt depths
  exact ⟨texts, Timestamp.toLeBytes_injective times, UInt64.toNat_inj.mp depthNumbers, expiries⟩

/-- Where nothing moved into the identifiers, only the cut between them can differ. -/
theorem sameGrant_or_boundaryMoved {moved : List Permission}
    (scopes : link.scope = moved ++ other.scope)
    (longer : other.dids = link.dids ++ namesBytes moved) (created : link.created = other.created)
    (depth : link.depth = other.depth) (expires : link.expires = other.expires)
    (kinds : link.delegateeKind = other.delegateeKind) :
    SameGrant link other ∨ BoundaryMoved link other := by
  by_cases changed : moved ≠ [] ∨ link.delegatorDid ≠ other.delegatorDid
  · exact .inr ⟨created, depth, expires, kinds, moved, scopes, longer, changed⟩
  · rw [not_or, not_not, not_not] at changed
    obtain ⟨rfl, delegators⟩ := changed
    have delegates : link.delegateDid = other.delegateDid := by
      rw [namesBytes, List.flatMap_nil, List.append_nil, dids, dids, delegators] at longer
      exact Did.asBytes_injective (List.append_cancel_left longer).symm
    exact .inl ⟨delegators, delegates, scopes, created, depth, expires, kinds⟩

/-- A link with an expiry that reads as one without. -/
theorem expiryMoved_of_eq {exp : Timestamp} (expiring : link.expires = some exp)
    (lasting : other.expires = none) (kinds : link.delegateeKind = other.delegateeKind)
    (same : link.text ++ link.numbers = other.text ++ other.numbers) : ExpiryMoved link other := by
  rw [numbers, numbers, expiryBytes, expiryBytes, expiring, lasting, List.append_nil,
    List.append_assoc link.created.toLeBytes, ← List.append_assoc link.text] at same
  obtain ⟨texts, rest⟩ := List.append_inj' same (by simp)
  exact ⟨kinds, lasting, exp, expiring, texts.symm, rest.symm⟩

/-- Of two links with an expiry or two without, at most a boundary moved. -/
theorem boundaryMoved_of_eq (alike : link.expires.isSome = other.expires.isSome)
    (kinds : link.delegateeKind = other.delegateeKind)
    (same : link.text ++ link.numbers = other.text ++ other.numbers) :
    SameGrant link other ∨ BoundaryMoved link other ∨ BoundaryMoved other link := by
  obtain ⟨lengths, determined⟩ := expiryBytes_alike alike
  obtain ⟨texts, created, depth, expiries⟩ := numbers_bound same lengths
  have expires := determined expiries
  rcases text_eq_iff.mp texts with ⟨moved, scopes, longer⟩ | ⟨moved, scopes, longer⟩
  · rcases sameGrant_or_boundaryMoved scopes longer created depth expires kinds with grant | found
    · exact .inl grant
    · exact .inr (.inl found)
  · rcases sameGrant_or_boundaryMoved scopes longer created.symm depth.symm expires.symm kinds.symm
      with grant | found
    · exact .inl grant.symm
    · exact .inr (.inr found)

/-- **Equal payloads**: the same grant, or a boundary or the expiry moved. -/
theorem sameGrant_or_moved (same : link.signablePayload printable = other.signablePayload printable) :
    SameGrant link other ∨ BoundaryMoved link other ∨ BoundaryMoved other link ∨
      ExpiryMoved link other ∨ ExpiryMoved other link := by
  rw [signablePayload_eq, signablePayload_eq] at same
  obtain ⟨kinds, fronts⟩ := kind_bound printable same
  by_cases alike : link.expires.isSome = other.expires.isSome
  · rcases boundaryMoved_of_eq alike kinds fronts with grant | found | found
    · exact .inl grant
    · exact .inr (.inl found)
    · exact .inr (.inr (.inl found))
  -- one of the two has an expiry, the other has none
  · cases expiring : link.expires with
    | none =>
      cases expiring' : other.expires with
      | none => exact absurd (by rw [expiring, expiring']) alike
      | some exp' =>
        have found := expiryMoved_of_eq expiring' expiring kinds.symm fronts.symm
        exact .inr (.inr (.inr (.inr found)))
    | some exp =>
      cases expiring' : other.expires with
      | none =>
        have found := expiryMoved_of_eq expiring expiring' kinds fronts
        exact .inr (.inr (.inr (.inl found)))
      | some exp' => exact absurd (by rw [expiring, expiring']; rfl) alike

/-! ### What moved has one payload and is another grant -/

theorem BoundaryMoved.payload_eq (found : BoundaryMoved link other) :
    link.signablePayload printable = other.signablePayload printable := by
  obtain ⟨created, depth, expires, kinds, moved, scopes, longer, _⟩ := found
  rw [signablePayload_eq, signablePayload_eq, text_eq_of_moved scopes longer, kinds, numbers,
    numbers, expiryBytes, expiryBytes, created, depth, expires]

theorem BoundaryMoved.not_sameGrant (found : BoundaryMoved link other) : ¬ SameGrant link other := by
  obtain ⟨_, _, _, _, moved, scopes, _, changed⟩ := found
  intro grant
  rcases changed with some_moved | delegators
  · rw [grant.scope] at scopes
    exact some_moved (List.self_eq_append_left.mp scopes)
  · exact delegators grant.delegatorDid

/-- A boundary that moved leaves one of the identifiers another. -/
theorem BoundaryMoved.dids_ne (found : BoundaryMoved link other)
    (delegators : link.delegatorDid = other.delegatorDid) :
    link.delegateDid ≠ other.delegateDid := by
  obtain ⟨_, _, _, _, moved, _, longer, changed⟩ := found
  intro delegates
  rw [dids, dids, delegators, delegates] at longer
  have nothing : namesBytes moved = [] := List.self_eq_append_right.mp longer
  have none : moved = [] := by
    cases moved with
    | nil => rfl
    | cons p rest =>
      rw [namesBytes, List.flatMap_cons] at nothing
      exact absurd (List.append_eq_nil_iff.mp nothing).1 (names_marked.nonempty p)
  exact changed.elim (fun some => some none) fun different => different delegators

theorem ExpiryMoved.payload_eq (found : ExpiryMoved link other) :
    link.signablePayload printable = other.signablePayload printable := by
  obtain ⟨kinds, lasting, exp, expiring, texts, rest⟩ := found
  rw [signablePayload_eq, signablePayload_eq, texts, kinds, numbers, numbers, expiryBytes,
    expiryBytes, expiring, lasting]
  simp only [List.append_nil, List.append_assoc, rest]

theorem ExpiryMoved.not_sameGrant (found : ExpiryMoved link other) : ¬ SameGrant link other := by
  obtain ⟨_, lasting, exp, expiring, _⟩ := found
  intro grant
  rw [grant.expires, lasting] at expiring
  cases expiring

/-- **What a payload binds**: two links with one payload are the same grant, whatever the links,
exactly where neither a boundary between identifiers and scope nor the expiry moved. -/
theorem payload_binds_iff (printable : Char → Bool) (link other : AuthorityLink) :
    (link.signablePayload printable = other.signablePayload printable → SameGrant link other) ↔
      ¬ (BoundaryMoved link other ∨ BoundaryMoved other link ∨ ExpiryMoved link other ∨
        ExpiryMoved other link) := by
  refine ⟨?_, fun still same => (sameGrant_or_moved printable same).resolve_right still⟩
  rintro binds (found | found | found | found)
  · exact found.not_sameGrant (binds (found.payload_eq printable))
  · exact found.not_sameGrant (binds (found.payload_eq printable).symm).symm
  · exact found.not_sameGrant (binds (found.payload_eq printable))
  · exact found.not_sameGrant (binds (found.payload_eq printable).symm).symm

end Binding

end AuthorityLink

namespace AlteredGrant

/-- Nothing is granted to a delegate whose name ends like a permission. -/
def signed : AuthorityLink :=
  { delegatorDid := ⟨"did:exo:a"⟩
    delegateDid := ⟨"did:exo:bRead"⟩
    scope := []
    created := .zero
    expires := none
    signature := .empty
    depth := 0
    delegateeKind := .human }

/-- The permission is granted to another delegate. -/
def altered : AuthorityLink := { signed with delegateDid := ⟨"did:exo:b"⟩, scope := [.read] }

theorem boundaryMoved : altered.BoundaryMoved signed :=
  ⟨rfl, rfl, rfl, rfl, [.read], rfl, by decide +kernel, .inl (by decide)⟩

/-- **A payload does not bind the grant**, for identifiers that `Did.new` accepts and whatever the
table of printable characters. -/
theorem one_payload_two_grants :
    ¬ ∃ printable : Char → Bool, ∀ link other : AuthorityLink,
      link.delegatorDid.Accepted → link.delegateDid.Accepted →
      other.delegatorDid.Accepted → other.delegateDid.Accepted →
      link.signablePayload printable = other.signablePayload printable →
      link.SameGrant other := by
  rintro ⟨printable, binds⟩
  refine boundaryMoved.not_sameGrant (binds altered signed (by decide) (by decide) (by decide)
    (by decide) ?_)
  exact boundaryMoved.payload_eq printable

/-- A creation time that reads as letters lets the expiry move. -/
example : AuthorityLink.ExpiryMoved
    { signed with created := ⟨0x6161616161616161, 0x61616161⟩, expires := some ⟨7, 0⟩ }
    { signed with delegateDid := ⟨"did:exo:bReadaaaaaaaaaaaa"⟩, created := ⟨0, 7⟩ } :=
  ⟨rfl, rfl, ⟨7, 0⟩, rfl, by decide +kernel, by decide +kernel⟩

end AlteredGrant

end Exochain.ExoAuthority
