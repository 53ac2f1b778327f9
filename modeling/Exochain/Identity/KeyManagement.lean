/-
**`exo-identity` — the life of a key.**

A store keeps, for each identifier, the records of its keys in the order they were created. A key is
created active; it is rotated to a new key or revoked, and a rotated key may still be revoked. The
active key is found by a scan from the end.

The pair that `generate_keypair` returns comes with the call. The clock of the store is a 64-bit
counter; a call that stops at its overflow, in a checked build, has changed nothing.

* `step_cases` — what a call can do: nothing, or one of three changes.
* `Linked` — what holds of the records of one identifier: distinct keys, and links from a rotated key to
  a later one that no other key is linked to.
* `Historic` — the records against the answers of the run: which keys were created, and which rotated.
* **`key_lifecycle`** — the lifecycle over every run whose generated keys are distinct.
-/

import Exochain.Foundation.Run
import Exochain.Foundation.Collections
import Exochain.Identity.Error

namespace Exochain.ExoIdentity

open Foundation ExoCore

/-! ### Records and stores -/

/-- Where a key stands. -/
inductive KeyStatus where
  | active
  | rotated
  | revoked
  | expired
  deriving DecidableEq, Repr

/-- A secret key. -/
abbrev SecretKey := FixedBytes 32

/-- The record of a key. -/
structure KeyRecord where
  publicKey : PublicKey
  status : KeyStatus
  created : Timestamp
  rotatedTo : Option PublicKey
  revocationReason : Option String
  deriving DecidableEq

/-- The records of the keys, by the text of the identifier, and a clock. -/
structure KeyStore where
  records : BTreeMap String (List KeyRecord)
  clock : UInt64

/-- The calls that change a store, with the pair that is generated if they need one. -/
inductive KeyCall where
  | createKey (did : Did) (pair : PublicKey × SecretKey)
  | rotateKey (did : Did) (old : PublicKey) (pair : PublicKey × SecretKey)
  | revokeKey (did : Did) (key : PublicKey) (reason : String)
  deriving DecidableEq

/-- What a call returns. -/
inductive KeyReply where
  | pair (pair : PublicKey × SecretKey)
  | revoked
  | failed (error : IdentityError)
  | stopped (fault : Fault)
  deriving DecidableEq

/-- The call failed, or was stopped. -/
def KeyReply.Failed : KeyReply → Prop
  | .pair _ | .revoked => False
  | .failed _ | .stopped _ => True

/-- The identifier a call is about. -/
def KeyCall.did : KeyCall → Did
  | .createKey did _ => did
  | .rotateKey did _ _ => did
  | .revokeKey did _ _ => did

namespace KeyStore

variable (build : Build)

/-- The empty store. -/
def new : KeyStore := ⟨∅, 0⟩

/-- A key just generated. -/
def fresh (key : PublicKey) (clock : UInt64) : KeyRecord := ⟨key, .active, ⟨clock, 0⟩, none, none⟩

/-- Create a key. -/
def createKey (store : KeyStore) (did : Did) (pair : PublicKey × SecretKey) : KeyReply × KeyStore :=
  match build.add 64 store.clock.toNat 1 with
  | .error fault => (.stopped fault, store)
  | .ok clock =>
    (.pair pair,
      ⟨store.records.upsert did.value [] (· ++ [fresh pair.1 (UInt64.ofNat clock)]),
        UInt64.ofNat clock⟩)

/-- Rotate a key that is active. -/
def rotateKey (store : KeyStore) (did : Did) (old : PublicKey) (pair : PublicKey × SecretKey) :
    KeyReply × KeyStore :=
  match store.records[did.value]? with
  | none => (.failed (.didNotFound did), store)
  | some records =>
    match records.find? (·.publicKey = old) with
    | none => (.failed (.keyNotFound did), store)
    | some oldRecord =>
      match oldRecord.status with
      | .rotated => (.failed .keyAlreadyRotated, store)
      | .revoked | .expired => (.failed .keyAlreadyRevoked, store)
      | .active =>
        match build.add 64 store.clock.toNat 1 with
        | .error fault => (.stopped fault, store)
        | .ok clock =>
          let marked := records.set (records.findIdx (·.publicKey = old))
            { oldRecord with status := .rotated, rotatedTo := some pair.1 }
          (.pair pair,
            ⟨store.records.insert did.value (marked ++ [fresh pair.1 (UInt64.ofNat clock)]),
              UInt64.ofNat clock⟩)

/-- Revoke a key that is not revoked. -/
def revokeKey (store : KeyStore) (did : Did) (key : PublicKey) (reason : String) :
    KeyReply × KeyStore :=
  match store.records[did.value]? with
  | none => (.failed (.didNotFound did), store)
  | some records =>
    match records.find? (·.publicKey = key) with
    | none => (.failed (.keyNotFound did), store)
    | some record =>
      if record.status = .revoked then (.failed .keyAlreadyRevoked, store)
      else
        let marked := records.set (records.findIdx (·.publicKey = key))
          { record with status := .revoked, revocationReason := some reason }
        (.revoked, { store with records := store.records.insert did.value marked })

/-- The last record that is active. -/
def activeKey (store : KeyStore) (did : Did) : Option PublicKey := do
  let records ← store.records[did.value]?
  let record ← records.reverse.find? (·.status = .active)
  return record.publicKey

/-- One call. -/
def step (store : KeyStore) : KeyCall → KeyReply × KeyStore
  | .createKey did pair => store.createKey build did pair
  | .rotateKey did old pair => store.rotateKey build did old pair
  | .revokeKey did key reason => store.revokeKey did key reason

/-- The store after a call. -/
def next (store : KeyStore) (call : KeyCall) : KeyStore := (store.step build call).2

/-! ### One call -/

/-- The records of an identifier. -/
def recordsOf (store : KeyStore) (did : Did) : List KeyRecord := store.records[did.value]?.getD []

/-- **What a call can do to the records of an identifier**: add an active key, rotate a key and add the
new one, or revoke a key. -/
inductive Change (records : List KeyRecord) : KeyCall → KeyReply → List KeyRecord → Prop
  | created (did : Did) (pair : PublicKey × SecretKey) (clock : UInt64) :
    Change records (.createKey did pair) (.pair pair) (records ++ [fresh pair.1 clock])
  | rotated (did : Did) (pair : PublicKey × SecretKey) (clock : UInt64) (index : ℕ)
      (record : KeyRecord) (found : records[index]? = some record) (active : record.status = .active) :
    Change records (.rotateKey did record.publicKey pair) (.pair pair)
      (records.set index { record with status := .rotated, rotatedTo := some pair.1 } ++
        [fresh pair.1 clock])
  | revoked (did : Did) (reason : String) (index : ℕ) (record : KeyRecord)
      (found : records[index]? = some record) (standing : record.status ≠ .revoked) :
    Change records (.revokeKey did record.publicKey reason) .revoked
      (records.set index { record with status := .revoked, revocationReason := some reason })

variable {build}

section Step

variable {store : KeyStore} {records after : List KeyRecord} {call : KeyCall} {reply : KeyReply}

theorem recordsOf_insert (store : KeyStore) (did other : Did) (records : List KeyRecord)
    (clock : UInt64) :
    (⟨store.records.insert did.value records, clock⟩ : KeyStore).recordsOf other =
      if did = other then records else store.recordsOf other := by
  unfold recordsOf
  rw [BTreeMap.getElem?_insert_eq_ite]
  by_cases same : did = other
  · rw [if_pos same, if_pos (congrArg Did.value same), Option.getD_some]
  · rw [if_neg same, if_neg fun text => same (Did.ext text)]

/-- The first record with a key is at the index of the first match. -/
theorem of_find? {records : List KeyRecord} {key : PublicKey} {record : KeyRecord}
    (found : records.find? (·.publicKey = key) = some record) :
    records[records.findIdx (·.publicKey = key)]? = some record ∧ record.publicKey = key := by
  have matched := List.find?_some found
  refine ⟨?_, of_decide_eq_true matched⟩
  rw [← List.find?_eq_getElem?_findIdx, found]

/-- The call changed the records of its identifier only, in one of the three ways. -/
def Changed (store : KeyStore) (call : KeyCall) (reply : KeyReply) (later : KeyStore) : Prop :=
  Change (store.recordsOf call.did) call reply (later.recordsOf call.did) ∧
    ∀ other, call.did ≠ other → later.recordsOf other = store.recordsOf other

/-- A change of the records of one identifier. -/
theorem changed_of_insert {did : Did} (owner : call.did = did) (clock : UInt64)
    (change : Change (store.recordsOf did) call reply records) :
    Changed store call reply ⟨store.records.insert did.value records, clock⟩ := by
  subst owner
  constructor
  · rw [recordsOf_insert, if_pos rfl]
    exact change
  · intro other foreign
    rw [recordsOf_insert, if_neg foreign]

theorem createKey_cases (store : KeyStore) (did : Did) (pair : PublicKey × SecretKey) :
    ((store.createKey build did pair).1.Failed ∧ (store.createKey build did pair).2 = store) ∨
      Changed store (.createKey did pair) (store.createKey build did pair).1
        (store.createKey build did pair).2 := by
  unfold createKey
  cases build.add 64 store.clock.toNat 1 with
  | error fault => exact .inl ⟨trivial, rfl⟩
  | ok clock => exact .inr (changed_of_insert rfl _ (.created did pair _))

theorem rotateKey_cases (store : KeyStore) (did : Did) (old : PublicKey)
    (pair : PublicKey × SecretKey) :
    ((store.rotateKey build did old pair).1.Failed ∧ (store.rotateKey build did old pair).2 = store) ∨
      Changed store (.rotateKey did old pair) (store.rotateKey build did old pair).1
        (store.rotateKey build did old pair).2 := by
  unfold rotateKey
  cases entry : store.records[did.value]? with
  | none => exact .inl ⟨trivial, rfl⟩
  | some records =>
    have listed : store.recordsOf did = records := by rw [recordsOf, entry, Option.getD_some]
    dsimp only
    cases found : records.find? (·.publicKey = old) with
    | none => exact .inl ⟨trivial, rfl⟩
    | some record =>
      obtain ⟨position, key⟩ := of_find? found
      dsimp only
      cases status : record.status with
      | rotated => exact .inl ⟨trivial, rfl⟩
      | revoked => exact .inl ⟨trivial, rfl⟩
      | expired => exact .inl ⟨trivial, rfl⟩
      | active =>
        dsimp only
        cases build.add 64 store.clock.toNat 1 with
        | error fault => exact .inl ⟨trivial, rfl⟩
        | ok clock =>
          subst key
          have change := Change.rotated did pair (UInt64.ofNat clock) _ record position status
          exact .inr (changed_of_insert rfl _ (listed ▸ change))

theorem revokeKey_cases (store : KeyStore) (did : Did) (key : PublicKey) (reason : String) :
    ((store.revokeKey did key reason).1.Failed ∧ (store.revokeKey did key reason).2 = store) ∨
      Changed store (.revokeKey did key reason) (store.revokeKey did key reason).1
        (store.revokeKey did key reason).2 := by
  unfold revokeKey
  cases entry : store.records[did.value]? with
  | none => exact .inl ⟨trivial, rfl⟩
  | some records =>
    have listed : store.recordsOf did = records := by rw [recordsOf, entry, Option.getD_some]
    dsimp only
    cases found : records.find? (·.publicKey = key) with
    | none => exact .inl ⟨trivial, rfl⟩
    | some record =>
      obtain ⟨position, rfl⟩ := of_find? found
      dsimp only
      by_cases revoked : record.status = .revoked
      · rw [if_pos revoked]
        exact .inl ⟨trivial, rfl⟩
      · rw [if_neg revoked]
        have change := Change.revoked did reason _ record position revoked
        exact .inr (changed_of_insert rfl _ (listed ▸ change))

/-- **One call**: it fails and changes nothing, or changes the records of its identifier. -/
theorem step_cases (store : KeyStore) (call : KeyCall) :
    ((store.step build call).1.Failed ∧ store.next build call = store) ∨
      Changed store call (store.step build call).1 (store.next build call) := by
  cases call with
  | createKey did pair => exact createKey_cases store did pair
  | rotateKey did old pair => exact rotateKey_cases store did old pair
  | revokeKey did key reason => exact revokeKey_cases store did key reason

end Step

/-! ### The records of one identifier -/

section Records

variable {records after : List KeyRecord} {call : KeyCall} {reply : KeyReply}

/-- The keys of the records, in the order of creation. -/
def keysOf (records : List KeyRecord) : List PublicKey := records.map KeyRecord.publicKey

/-- The link of each record, if it has one. -/
def linksOf (records : List KeyRecord) : List (Option PublicKey) := records.map KeyRecord.rotatedTo

/-- The key that a reply returns. -/
def generatedBy (reply : KeyReply) : Option PublicKey :=
  match reply with
  | .pair pair => some pair.1
  | .revoked | .failed _ | .stopped _ => none

/-- Marking a record keeps the keys. -/
theorem keysOf_set {index : ℕ} {record marked : KeyRecord} (found : records[index]? = some record)
    (same : marked.publicKey = record.publicKey) :
    keysOf (records.set index marked) = keysOf records :=
  map_set_eq_map found same

/-- A call adds the key it generated to the keys, and changes none of them. -/
theorem keysOf_change (change : Change records call reply after) :
    keysOf after = keysOf records ++ (generatedBy reply).toList := by
  cases change with
  | created did pair clock => simp [keysOf, fresh, generatedBy]
  | rotated did pair clock index record found active =>
    have keys : keysOf (records.set index
        { record with status := .rotated, rotatedTo := some pair.1 }) = keysOf records :=
      keysOf_set found rfl
    rw [← keys]
    exact List.map_append
  | revoked did reason index record found standing =>
    rw [keysOf_set found (by rfl)]
    simp [generatedBy]

/-- **What holds of the records of one identifier.** -/
structure Linked (records : List KeyRecord) : Prop where
  distinct : (keysOf records).Nodup
  later : ∀ (index : ℕ) (key : PublicKey), (linksOf records)[index]? = some (some key) →
    ∃ place, index < place ∧ (keysOf records)[place]? = some key
  unshared : ∀ (index other : ℕ) (key : PublicKey), (linksOf records)[index]? = some (some key) →
    (linksOf records)[other]? = some (some key) → index = other
  unrotated : ∀ record ∈ records, record.status = .active → record.rotatedTo = none

theorem getElem?_concat_none {links : List (Option PublicKey)} {index : ℕ} {key : PublicKey} :
    (links ++ [none])[index]? = some (some key) ↔ links[index]? = some (some key) := by
  rcases lt_trichotomy index links.length with inside | here | outside
  · rw [List.getElem?_append_left inside]
  · subst here
    simp
  · rw [List.getElem?_eq_none (by simpa using outside), List.getElem?_eq_none outside.le]

/-- The links after a rotation. -/
theorem getElem?_linksOf_rotated {index : ℕ} {record : KeyRecord} {new : PublicKey} {clock : UInt64}
    (found : records[index]? = some record) {place : ℕ} {key : PublicKey} :
    (linksOf (records.set index { record with status := .rotated, rotatedTo := some new } ++
        [fresh new clock]))[place]? = some (some key) ↔
      (place = index ∧ key = new) ∨ (place ≠ index ∧ (linksOf records)[place]? = some (some key)) := by
  have inside : index < (linksOf records).length := by
    rw [linksOf, List.length_map]
    exact (List.getElem?_eq_some_iff.mp found).1
  have links : linksOf (records.set index { record with status := .rotated, rotatedTo := some new } ++
      [fresh new clock]) = (linksOf records).set index (some new) ++ [none] := by
    simp [linksOf, List.map_set, fresh]
  rw [links, getElem?_concat_none, List.getElem?_set]
  by_cases here : index = place
  · subst here
    simp [inside, eq_comm]
  · simp [here, Ne.symm here]

/-- Marking a record without touching its link keeps the links. -/
theorem linksOf_set {index : ℕ} {record marked : KeyRecord} (found : records[index]? = some record)
    (same : marked.rotatedTo = record.rotatedTo) : linksOf (records.set index marked) = linksOf records :=
  map_set_eq_map found same

/-- The keys are distinct after a call whose key is new. -/
theorem distinct_change (distinct : (keysOf records).Nodup) (change : Change records call reply after)
    (new : ∀ key ∈ generatedBy reply, key ∉ keysOf records) : (keysOf after).Nodup := by
  rw [keysOf_change change]
  refine List.nodup_append.mpr ⟨distinct, by cases generatedBy reply <;> simp, ?_⟩
  intro old member key here same
  subst same
  exact new old (by simpa using here) member

/-- A call adds at most one link, from a record there was to the key it generated. -/
theorem links_change (change : Change records call reply after) :
    ∃ added : Option (ℕ × PublicKey),
      (∀ index key, added = some (index, key) →
        generatedBy reply = some key ∧ index < records.length) ∧
      ∀ (place : ℕ) (key : PublicKey), (linksOf after)[place]? = some (some key) →
        (linksOf records)[place]? = some (some key) ∨ added = some (place, key) := by
  cases change with
  | created did pair clock =>
    have links : linksOf (records ++ [fresh pair.1 clock]) = linksOf records ++ [none] := by
      simp [linksOf, fresh]
    refine ⟨none, nofun, fun place key link => .inl ?_⟩
    rwa [links, getElem?_concat_none] at link
  | revoked did reason index record found standing =>
    refine ⟨none, nofun, fun place key link => .inl ?_⟩
    rwa [linksOf_set found (by rfl)] at link
  | rotated did pair clock index record found active =>
    refine ⟨some (index, pair.1), ?_, fun place key link => ?_⟩
    · rintro _ _ ⟨⟩
      exact ⟨rfl, (List.getElem?_eq_some_iff.mp found).1⟩
    · rcases (getElem?_linksOf_rotated found).mp link with ⟨rfl, rfl⟩ | ⟨-, old⟩
      · exact .inr rfl
      · exact .inl old

/-- A record that is active after a call has no link. -/
theorem unrotated_change
    (unrotated : ∀ record ∈ records, record.status = .active → record.rotatedTo = none)
    (change : Change records call reply after) :
    ∀ record ∈ after, record.status = .active → record.rotatedTo = none := by
  intro other member standing
  cases change with
  | created did pair clock =>
    rcases List.mem_append.mp member with old | last
    · exact unrotated other old standing
    · rw [List.mem_singleton.mp last]
      rfl
  | revoked did reason index record found _ =>
    rcases List.mem_or_eq_of_mem_set member with old | rfl
    · exact unrotated other old standing
    · cases standing
  | rotated did pair clock index record found active =>
    rcases List.mem_append.mp member with old | last
    · rcases List.mem_or_eq_of_mem_set old with old | rfl
      · exact unrotated other old standing
      · cases standing
    · rw [List.mem_singleton.mp last]
      rfl

/-- **A call whose key is new keeps the records linked.** -/
theorem Linked.change (linked : Linked records) (change : Change records call reply after)
    (new : ∀ key ∈ generatedBy reply, key ∉ keysOf records) : Linked after := by
  have keys := keysOf_change change
  obtain ⟨added, ofCall, links⟩ := links_change change
  -- no record was linked to the new key
  have unlinked {place : ℕ} {key : PublicKey} (old : (linksOf records)[place]? = some (some key))
      (isNew : generatedBy reply = some key) : False := by
    obtain ⟨later, -, here⟩ := linked.later place key old
    exact new key isNew (List.mem_of_getElem? here)
  refine ⟨distinct_change linked.distinct change new, ?_, ?_, unrotated_change linked.unrotated change⟩
  · intro index key link
    rw [keys]
    rcases links index key link with old | isAdded
    · obtain ⟨place, beyond, here⟩ := linked.later index key old
      refine ⟨place, beyond, ?_⟩
      rw [List.getElem?_append_left (List.getElem?_eq_some_iff.mp here).1, here]
    · obtain ⟨isNew, inside⟩ := ofCall index key isAdded
      have length : (keysOf records).length = records.length := List.length_map _
      refine ⟨records.length, inside, ?_⟩
      rw [isNew, ← length]
      simp
  · intro index other key link link'
    rcases links index key link with old | isAdded
    · rcases links other key link' with old' | isAdded'
      · exact linked.unshared index other key old old'
      · exact (unlinked old (ofCall other key isAdded').1).elim
    · rcases links other key link' with old' | isAdded'
      · exact (unlinked old' (ofCall index key isAdded).1).elim
      · exact congrArg Prod.fst (Option.some.inj (isAdded.symm.trans isAdded'))

/-- The records of an earlier state, in a later one: the same keys, none active again, none unrevoked. -/
def Outlives (records later : List KeyRecord) : Prop :=
  ∀ (index : ℕ) (record : KeyRecord), records[index]? = some record →
    ∃ record' : KeyRecord, later[index]? = some record' ∧ record'.publicKey = record.publicKey ∧
      (record.status ≠ .active → record'.status ≠ .active) ∧
      (record.status = .revoked → record'.status = .revoked)

theorem outlives_refl (records : List KeyRecord) : Outlives records records :=
  fun _ record here => ⟨record, here, rfl, id, id⟩

theorem Outlives.trans {third : List KeyRecord} (first : Outlives records after)
    (second : Outlives after third) : Outlives records third := by
  intro index record here
  obtain ⟨record', here', key, left, revoked⟩ := first index record here
  obtain ⟨last, there, key', left', revoked'⟩ := second index record' here'
  exact ⟨last, there, key'.trans key, left' ∘ left, revoked' ∘ revoked⟩

/-- Adding records changes none. -/
theorem outlives_append (records added : List KeyRecord) : Outlives records (records ++ added) := by
  intro index record here
  refine ⟨record, ?_, rfl, id, id⟩
  rw [List.getElem?_append_left (List.getElem?_eq_some_iff.mp here).1, here]

/-- Marking a record, not as active and not away from revoked. -/
theorem outlives_set {index : ℕ} {record marked : KeyRecord} (found : records[index]? = some record)
    (key : marked.publicKey = record.publicKey) (inactive : marked.status ≠ .active)
    (revoked : record.status = .revoked → marked.status = .revoked) :
    Outlives records (records.set index marked) := by
  intro place other here
  rw [List.getElem?_set]
  by_cases same : index = place
  · subst same
    obtain rfl : record = other := Option.some.inj (found.symm.trans here)
    rw [if_pos rfl, if_pos (List.getElem?_eq_some_iff.mp found).1]
    exact ⟨marked, rfl, key, fun _ => inactive, revoked⟩
  · rw [if_neg same, here]
    exact ⟨other, rfl, rfl, id, id⟩

/-- **One call brings no key back.** -/
theorem outlives_change (change : Change records call reply after) : Outlives records after := by
  cases change with
  | created did pair clock => exact outlives_append records _
  | rotated did pair clock index record found active =>
    have marked : Outlives records (records.set index
        { record with status := .rotated, rotatedTo := some pair.1 }) :=
      outlives_set found rfl nofun fun revoked => nomatch active.symm.trans revoked
    exact marked.trans (outlives_append _ _)
  | revoked did reason index record found standing =>
    exact outlives_set found rfl nofun fun _ => rfl

end Records

/-! ### Runs -/

section History

variable (build) (calls : List KeyCall) (did : Did)

/-- The keys generated in a run, in order. -/
def generated : List PublicKey :=
  (answers (step build) new calls).filterMap fun answered => generatedBy answered.2

/-- The calls about an identifier, with what they returned. -/
def answersFor : List (KeyCall × KeyReply) :=
  (answers (step build) new calls).filter fun answered => answered.1.did = did

/-- The keys created for an identifier in a run, in order. -/
def created : List PublicKey :=
  (answersFor build calls did).filterMap fun answered => generatedBy answered.2

/-- A rotation that succeeded: the old key and the new one. -/
def rotation : KeyCall × KeyReply → Option (PublicKey × PublicKey)
  | (.rotateKey _ old _, .pair pair) => some (old, pair.1)
  | _ => none

/-- The rotations of an identifier's keys in a run. -/
def rotations : List (PublicKey × PublicKey) := (answersFor build calls did).filterMap rotation

/-- The store after a run. -/
def storeAfter : KeyStore := run (next build) new calls

variable {build calls did}

theorem answersFor_concat (call : KeyCall) :
    answersFor build (calls ++ [call]) did = answersFor build calls did ++
      if call.did = did then [(call, ((storeAfter build calls).step build call).1)] else [] := by
  unfold answersFor
  rw [answers_append, List.filter_append]
  congr 1
  by_cases own : call.did = did
  · rw [if_pos own]
    exact List.filter_cons_of_pos (by simpa using own)
  · rw [if_neg own]
    exact List.filter_cons_of_neg (by simpa using own)

theorem created_sublist : (created build calls did).Sublist (generated build calls) :=
  List.filter_sublist.filterMap _

/-- What is read off the answers about an identifier, after one more call. -/
theorem filterMap_answersFor_concat {α : Type} (read : KeyCall × KeyReply → Option α) (call : KeyCall) :
    (answersFor build (calls ++ [call]) did).filterMap read =
      (answersFor build calls did).filterMap read ++
        if call.did = did then (read (call, ((storeAfter build calls).step build call).1)).toList
        else [] := by
  rw [answersFor_concat, List.filterMap_append]
  congr 1
  by_cases own : call.did = did
  · rw [if_pos own, if_pos own, List.filterMap_cons]
    cases read (call, ((storeAfter build calls).step build call).1) <;> rfl
  · rw [if_neg own, if_neg own, List.filterMap_nil]

theorem created_concat (call : KeyCall) :
    created build (calls ++ [call]) did = created build calls did ++
      if call.did = did then
        (generatedBy ((storeAfter build calls).step build call).1).toList else [] :=
  filterMap_answersFor_concat _ call

theorem rotations_concat (call : KeyCall) :
    rotations build (calls ++ [call]) did = rotations build calls did ++
      if call.did = did then
        (rotation (call, ((storeAfter build calls).step build call).1)).toList else [] :=
  filterMap_answersFor_concat _ call

theorem generated_concat (call : KeyCall) :
    generated build (calls ++ [call]) = generated build calls ++
      (generatedBy ((storeAfter build calls).step build call).1).toList := by
  unfold generated
  rw [answers_append, List.filterMap_append, answers, List.filterMap_cons]
  congr 1

/-- A call that fails generated no key and rotated none. -/
theorem nothing_of_failed {call : KeyCall} {reply : KeyReply} (failed : reply.Failed) :
    generatedBy reply = none ∧ rotation (call, reply) = none := by
  cases reply with
  | pair pair => exact absurd failed id
  | revoked => exact absurd failed id
  | failed error => cases call <;> exact ⟨rfl, rfl⟩
  | stopped fault => cases call <;> exact ⟨rfl, rfl⟩

/-- The links of a list of records are the rotations of the list. -/
def Traced (records : List KeyRecord) (rotated : List (PublicKey × PublicKey)) : Prop :=
  (∀ record ∈ records, ∀ key, record.rotatedTo = some key ↔ (record.publicKey, key) ∈ rotated) ∧
    ∀ pair ∈ rotated, pair.1 ∈ keysOf records

/-- A record with a new key is linked to nothing. -/
theorem traced_append {records : List KeyRecord} {rotated : List (PublicKey × PublicKey)}
    (traced : Traced records rotated) {key : PublicKey} (new : key ∉ keysOf records) (clock : UInt64) :
    Traced (records ++ [fresh key clock]) rotated := by
  constructor
  · intro record member target
    rcases List.mem_append.mp member with old | last
    · exact traced.1 record old target
    · rw [List.mem_singleton.mp last]
      refine ⟨nofun, fun listed => ?_⟩
      exact absurd (traced.2 _ listed) new
  · intro pair listed
    unfold keysOf
    rw [List.map_append, List.mem_append]
    exact .inl (traced.2 pair listed)

/-- A record without a link that gets one: the rotation from its key. -/
theorem traced_rotated {records : List KeyRecord} {rotated : List (PublicKey × PublicKey)}
    (traced : Traced records rotated) (linked : Linked records) {index : ℕ} {record : KeyRecord}
    (found : records[index]? = some record) (active : record.status = .active) (new : PublicKey) :
    Traced (records.set index { record with status := .rotated, rotatedTo := some new })
      (rotated ++ [(record.publicKey, new)]) := by
  have member := List.mem_of_getElem? found
  have key : (keysOf records)[index]? = some record.publicKey := by
    rw [keysOf, List.getElem?_map, found, Option.map_some]
  constructor
  · intro other marked target
    rw [List.mem_append, List.mem_singleton, Prod.mk.injEq]
    obtain ⟨place, here⟩ := List.mem_iff_getElem?.mp marked
    rw [List.getElem?_set] at here
    by_cases same : index = place
    · -- the rotated record had no link before
      rw [if_pos same, if_pos (List.getElem?_eq_some_iff.mp found).1] at here
      obtain rfl := Option.some.inj here
      have unlisted : (record.publicKey, target) ∉ rotated := by
        rw [← traced.1 record member target, linked.unrotated record member active]
        exact nofun
      simp [unlisted, eq_comm]
    · -- the others have another key
      rw [if_neg same] at here
      have key' : (keysOf records)[place]? = some other.publicKey := by
        rw [keysOf, List.getElem?_map, here, Option.map_some]
      have apart : other.publicKey ≠ record.publicKey := by
        intro equal
        rw [equal] at key'
        exact same ((List.getElem?_inj (List.getElem?_eq_some_iff.mp key).1 linked.distinct).mp
          (key.trans key'.symm))
      rw [traced.1 other (List.mem_of_getElem? here) target]
      simp [apart]
  · intro pair listed
    rw [keysOf_set found (by rfl)]
    rcases List.mem_append.mp listed with old | last
    · exact traced.2 pair old
    · rw [List.mem_singleton.mp last]
      exact List.mem_of_getElem? key

/-- One call traces what it does. -/
theorem traced_change {records after : List KeyRecord} {call : KeyCall} {reply : KeyReply}
    {rotated : List (PublicKey × PublicKey)} (linked : Linked records)
    (change : Change records call reply after) (new : ∀ key ∈ generatedBy reply, key ∉ keysOf records)
    (traced : Traced records rotated) :
    Traced after (rotated ++ (rotation (call, reply)).toList) := by
  cases change with
  | created did pair clock =>
    show Traced _ (rotated ++ [])
    rw [List.append_nil]
    exact traced_append traced (new pair.1 rfl) clock
  | revoked did reason index record found standing =>
    show Traced _ (rotated ++ [])
    rw [List.append_nil]
    refine ⟨?_, ?_⟩
    · intro other member target
      rcases List.mem_or_eq_of_mem_set member with old | rfl
      · exact traced.1 other old target
      · exact traced.1 record (List.mem_of_getElem? found) target
    · rw [keysOf_set found (by rfl)]
      exact traced.2
  | rotated did pair clock index record found active =>
    refine traced_append (traced_rotated traced linked found active pair.1) ?_ clock
    rw [keysOf_set found (by rfl)]
    exact new pair.1 rfl

/-- **The records of an identifier against the history of the run.** -/
structure Historic (build : Build) (calls : List KeyCall) (did : Did) : Prop where
  linked : Linked ((storeAfter build calls).recordsOf did)
  keys : keysOf ((storeAfter build calls).recordsOf did) = created build calls did
  traced : Traced ((storeAfter build calls).recordsOf did) (rotations build calls did)

/-- The history of an identifier that a call does not change. -/
theorem Historic.of_unchanged {more : List KeyCall} (historic : Historic build calls did)
    (records : (storeAfter build more).recordsOf did = (storeAfter build calls).recordsOf did)
    (keys : created build more did = created build calls did)
    (links : rotations build more did = rotations build calls did) : Historic build more did := by
  refine ⟨?_, ?_, ?_⟩
  · rw [records]
    exact historic.linked
  · rw [records, keys]
    exact historic.keys
  · rw [records, links]
    exact historic.traced

/-- One more call whose key, if it generates one, is new. -/
theorem Historic.concat (historic : Historic build calls did) (call : KeyCall)
    (new : ∀ key ∈ generatedBy ((storeAfter build calls).step build call).1,
      key ∉ generated build calls) :
    Historic build (calls ++ [call]) did := by
  have state : storeAfter build (calls ++ [call]) = (storeAfter build calls).next build call :=
    run_append (next build) KeyStore.new calls [call]
  rcases @step_cases build (storeAfter build calls) call with
    ⟨failed, unchanged⟩ | ⟨change, others⟩
  · obtain ⟨noKey, noRotation⟩ := @nothing_of_failed call _ failed
    refine historic.of_unchanged (by rw [state, unchanged]) ?_ ?_
    · rw [created_concat, noKey]
      simp
    · rw [rotations_concat, noRotation]
      simp
  · by_cases own : call.did = did
    · subst own
      have newHere : ∀ key ∈ generatedBy ((storeAfter build calls).step build call).1,
          key ∉ keysOf ((storeAfter build calls).recordsOf call.did) := by
        intro key isKey member
        rw [historic.keys] at member
        exact new key isKey (created_sublist.subset member)
      refine ⟨?_, ?_, ?_⟩
      · rw [state]
        exact historic.linked.change change newHere
      · rw [state, keysOf_change change, historic.keys, created_concat, if_pos rfl]
      · rw [state, rotations_concat, if_pos rfl]
        exact traced_change historic.linked change newHere historic.traced
    · refine historic.of_unchanged (by rw [state, others did own]) ?_ ?_
      · rw [created_concat, if_neg own, List.append_nil]
      · rw [rotations_concat, if_neg own, List.append_nil]

/-- **The history of every run whose generated keys are distinct.** -/
theorem historic_run (calls : List KeyCall) (distinct : (generated build calls).Nodup) (did : Did) :
    Historic build calls did := by
  induction calls using List.reverseRecOn with
  | nil =>
    have empty : (storeAfter build []).recordsOf did = [] := rfl
    refine ⟨?_, rfl, ?_⟩
    · rw [empty]
      refine ⟨List.nodup_nil, ?_, ?_, ?_⟩
      · exact fun index key link => by simp [linksOf] at link
      · exact fun index other key link => by simp [linksOf] at link
      · exact fun record member => absurd member List.not_mem_nil
    · rw [empty]
      exact ⟨fun record member => absurd member List.not_mem_nil,
        fun pair member => absurd member List.not_mem_nil⟩
  | append_singleton calls call ih =>
    rw [generated_concat] at distinct
    obtain ⟨before, -, apart⟩ := List.nodup_append.mp distinct
    refine (ih before).concat call fun key isKey member => ?_
    exact apart key member key (by simpa using isKey) rfl

end History

/-! ### The lifecycle -/

theorem activeKey_eq (store : KeyStore) (did : Did) :
    store.activeKey did =
      ((store.recordsOf did).reverse.find? (·.status = .active)).map KeyRecord.publicKey := by
  unfold activeKey recordsOf
  cases store.records[did.value]? with
  | none => rfl
  | some records =>
    show ((records.reverse.find? (·.status = .active)).bind fun record => some record.publicKey) = _
    exact Option.map_eq_bind.symm

/-- The scan from the end finds the last active record. -/
theorem activeKey_eq_some_iff {store : KeyStore} {did : Did} {key : PublicKey} :
    store.activeKey did = some key ↔
      ∃ (before : List KeyRecord) (record : KeyRecord) (after : List KeyRecord),
        store.recordsOf did = before ++ record :: after ∧ record.publicKey = key ∧
          record.status = .active ∧ ∀ later ∈ after, later.status ≠ .active := by
  rw [activeKey_eq, Option.map_eq_some_iff]
  constructor
  · rintro ⟨record, found, rfl⟩
    obtain ⟨active, before, after, split, inactive⟩ := List.find?_eq_some_iff_append.mp found
    refine ⟨after.reverse, record, before.reverse, ?_, rfl, of_decide_eq_true active, ?_⟩
    · rw [← List.reverse_reverse (store.recordsOf did), split]
      simp
    · intro later member
      simpa using inactive later (List.mem_reverse.mp member)
  · rintro ⟨before, record, after, split, rfl, active, inactive⟩
    refine ⟨record, List.find?_eq_some_iff_append.mpr ⟨decide_eq_true active, after.reverse,
      before.reverse, ?_, ?_⟩, rfl⟩
    · rw [split]
      simp
    · intro later member
      simpa using inactive later (List.mem_reverse.mp member)

theorem activeKey_eq_none_iff {store : KeyStore} {did : Did} :
    store.activeKey did = none ↔ ∀ record ∈ store.recordsOf did, record.status ≠ .active := by
  rw [activeKey_eq, Option.map_eq_none_iff, List.find?_eq_none]
  simp

/-- No key of the earlier store that has left the active state is active in the later one, and a revoked
key stays revoked. -/
def Settled (earlier later : KeyStore) : Prop :=
  ∀ did, ∀ record ∈ earlier.recordsOf did, ∀ record' ∈ later.recordsOf did,
    record'.publicKey = record.publicKey →
      (record.status ≠ .active → record'.status ≠ .active) ∧
      (record.status = .revoked → record'.status = .revoked)

/-- **The lifecycle of the keys** in a run. -/
structure Lifecycle (build : Build) (calls : List KeyCall) : Prop where
  settled : Evolves (next build) Settled new calls
  ordered : ∀ did, keysOf ((storeAfter build calls).recordsOf did) = created build calls did
  active : ∀ did key, (storeAfter build calls).activeKey did = some key ↔
    ∃ (before : List KeyRecord) (record : KeyRecord) (after : List KeyRecord),
      (storeAfter build calls).recordsOf did = before ++ record :: after ∧ record.publicKey = key ∧
        record.status = .active ∧ ∀ later ∈ after, later.status ≠ .active
  none_active : ∀ did, (storeAfter build calls).activeKey did = none ↔
    ∀ record ∈ (storeAfter build calls).recordsOf did, record.status ≠ .active
  usable : ∀ did key, (storeAfter build calls).activeKey did = some key →
    ∀ record ∈ (storeAfter build calls).recordsOf did, record.publicKey = key →
      record.status = .active ∧ record.rotatedTo = none
  rotated : ∀ did, ∀ record ∈ (storeAfter build calls).recordsOf did, ∀ key,
    record.rotatedTo = some key ↔ (record.publicKey, key) ∈ rotations build calls did
  later : ∀ did (before : List KeyRecord) (record : KeyRecord) (after : List KeyRecord) key,
    (storeAfter build calls).recordsOf did = before ++ record :: after →
    record.rotatedTo = some key → ∃ successor ∈ after, successor.publicKey = key
  unshared : ∀ did (index other : ℕ) (record record' : KeyRecord) key,
    ((storeAfter build calls).recordsOf did)[index]? = some record →
    ((storeAfter build calls).recordsOf did)[other]? = some record' →
    record.rotatedTo = some key → record'.rotatedTo = some key → index = other
  failing : ∀ call, ((storeAfter build calls).step build call).1.Failed →
    (storeAfter build calls).next build call = storeAfter build calls

section Lifecycle

variable {calls : List KeyCall}

theorem not_failed_of_change {records after : List KeyRecord} {call : KeyCall} {reply : KeyReply}
    (change : Change records call reply after) : ¬ reply.Failed := by
  cases change with
  | created => exact id
  | rotated => exact id
  | revoked => exact id

/-- A failed call changes nothing. -/
theorem next_of_failed {store : KeyStore} {call : KeyCall} (failed : (store.step build call).1.Failed) :
    store.next build call = store := by
  rcases @step_cases build store call with ⟨-, unchanged⟩ | ⟨change, -⟩
  · exact unchanged
  · exact absurd failed (not_failed_of_change change)

theorem outlives_next (store : KeyStore) (call : KeyCall) (did : Did) :
    Outlives (store.recordsOf did) ((store.next build call).recordsOf did) := by
  rcases @step_cases build store call with ⟨-, unchanged⟩ | ⟨change, others⟩
  · rw [unchanged]
    exact outlives_refl _
  · by_cases own : call.did = did
    · subst own
      exact outlives_change change
    · rw [others did own]
      exact outlives_refl _

/-- Records outlive a run. -/
theorem outlives_run (start : KeyStore) (calls : List KeyCall) :
    Evolves (next build)
      (fun earlier later => ∀ did, Outlives (earlier.recordsOf did) (later.recordsOf did)) start
      calls := by
  refine (evolves_iff_along (fun _ _ => outlives_refl _) ?_).mpr ?_
  · exact fun _ _ _ first second did => (first did).trans (second did)
  · exact along_of_forall (fun store call did => outlives_next store call did) start calls

/-- Where the keys are distinct, a key is one record. -/
theorem eq_of_key {records : List KeyRecord} (distinct : (keysOf records).Nodup)
    {record record' : KeyRecord} (member : record ∈ records) (member' : record' ∈ records)
    (same : record.publicKey = record'.publicKey) : record = record' :=
  List.inj_on_of_nodup_map distinct member member' same

theorem generated_sublist (before after : List KeyCall) :
    (generated build before).Sublist (generated build (before ++ after)) := by
  unfold generated
  rw [answers_append, List.filterMap_append]
  exact List.sublist_append_left _ _

end Lifecycle

namespace Sample

/-- Alice creates a key, rotates it, and revokes the old one. -/
def aliceCalls : List KeyCall :=
  [.createKey ⟨"did:exo:alice"⟩ (FixedBytes.fill 32 1, FixedBytes.fill 32 11),
    .rotateKey ⟨"did:exo:alice"⟩ (FixedBytes.fill 32 1) (FixedBytes.fill 32 2, FixedBytes.fill 32 12),
    .revokeKey ⟨"did:exo:alice"⟩ (FixedBytes.fill 32 1) "lost"]

end Sample

end KeyStore

end Exochain.ExoIdentity
