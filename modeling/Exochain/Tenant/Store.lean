/-
**`exo-tenant` — the tenant-aware store.**

Items are kept by tenant and then by item. The caller names the tenant; `put` refuses an item that
carries another one, and `getIsolated` looks at the item once more.

What a tenant sees of a store is its own inner map (`SameFor`). A call of another tenant leaves it
alone (`sameFor_step`), and the answer to a call depends on nothing else (`answer_eq`), so the library's
rule for noninterference applies.

* `Labelled` — every stored item carries the tenant it is stored under; kept by every call.
* `step_of_failed` — a call that fails leaves the store as it was.
* **`tenants_isolated`** — isolation over every interleaving of calls.
-/

import Exochain.Foundation.Run
import Exochain.Foundation.Collections
import Exochain.Core.Types

namespace Exochain.ExoTenant

open Foundation ExoCore

/-! ### Items and stores -/

/-- A data item of a tenant. -/
structure TenantData where
  id : Uuid
  tenantId : Uuid
  owner : Did
  contentHash : Hash256
  deriving DecidableEq

/-- The errors of tenants, tiers and shards. -/
inductive TenantError where
  | tenantNotFound (id : Uuid)
  | tenantAlreadyExists (id : Uuid)
  | invalidStateTransition (reason : String)
  | shardError (reason : String)
  | storageError (reason : String)
  | migrationError (reason : String)
  deriving DecidableEq

/-- The text of an error. -/
def TenantError.display : TenantError → String
  | .tenantNotFound id => "tenant not found: " ++ id.display
  | .tenantAlreadyExists id => "tenant already exists: " ++ id.display
  | .invalidStateTransition reason => "invalid state transition: " ++ reason
  | .shardError reason => "shard error: " ++ reason
  | .storageError reason => "storage error: " ++ reason
  | .migrationError reason => "migration error: " ++ reason

/-- The store, by tenant and by item. -/
structure TenantStore where
  data : BTreeMap Uuid (BTreeMap Uuid TenantData)

namespace TenantStore

/-- The empty store. -/
def new : TenantStore := ⟨∅⟩

/-- Store an item for a tenant. -/
def put (store : TenantStore) (tenantId : Uuid) (item : TenantData) :
    Except TenantError Unit × TenantStore :=
  if item.tenantId ≠ tenantId then (.error (.storageError "tenant_id mismatch"), store)
  else (.ok (), ⟨store.data.upsert tenantId ∅ (·.insert item.id item)⟩)

/-- Look an item of a tenant up. -/
def get (store : TenantStore) (tenantId itemId : Uuid) : Option TenantData := do
  let items ← store.data[tenantId]?
  items[itemId]?

/-- Remove an item of a tenant. The inner map stays when it becomes empty. -/
def delete (store : TenantStore) (tenantId itemId : Uuid) :
    Except TenantError TenantData × TenantStore :=
  let removed : TenantStore := ⟨store.data.modify tenantId (·.erase itemId)⟩
  match store.get tenantId itemId with
  | some item => (.ok item, removed)
  | none =>
    (.error (.storageError ("item " ++ itemId.display ++ " not found in tenant " ++
      tenantId.display)), removed)

/-- Look an item of a tenant up, and check the tenant it carries. -/
def getIsolated (store : TenantStore) (tenantId itemId : Uuid) : Option TenantData := do
  let item ← store.get tenantId itemId
  if item.tenantId = tenantId then some item else none

/-- The number of items of a tenant. -/
def count (store : TenantStore) (tenantId : Uuid) : ℕ :=
  (store.data[tenantId]?.map (·.size)).getD 0

/-! ### Calls -/

/-- The calls of the store; each names the tenant it is made for. -/
inductive Call where
  | put (tenantId : Uuid) (item : TenantData)
  | delete (tenantId itemId : Uuid)
  | get (tenantId itemId : Uuid)
  | getIsolated (tenantId itemId : Uuid)
  | count (tenantId : Uuid)
  deriving DecidableEq

/-- What a call returns. -/
inductive Reply where
  | stored (result : Except TenantError Unit)
  | deleted (result : Except TenantError TenantData)
  | found (item : Option TenantData)
  | counted (items : ℕ)

/-- The call failed. -/
def Reply.Failed : Reply → Prop
  | .stored result => ∃ error, result = .error error
  | .deleted result => ∃ error, result = .error error
  | .found _ => False
  | .counted _ => False

/-- The tenant a call is made for. -/
def Call.tenant : Call → Uuid
  | .put tenantId _ => tenantId
  | .delete tenantId _ => tenantId
  | .get tenantId _ => tenantId
  | .getIsolated tenantId _ => tenantId
  | .count tenantId => tenantId

/-- One call. -/
def step (store : TenantStore) : Call → Reply × TenantStore
  | .put tenantId item => ((store.put tenantId item).map .stored id)
  | .delete tenantId itemId => ((store.delete tenantId itemId).map .deleted id)
  | .get tenantId itemId => (.found (store.get tenantId itemId), store)
  | .getIsolated tenantId itemId => (.found (store.getIsolated tenantId itemId), store)
  | .count tenantId => (.counted (store.count tenantId), store)

/-- The store after a call. -/
def next (store : TenantStore) (call : Call) : TenantStore := (store.step call).2

/-! ### One call -/

section Step

variable {store other : TenantStore} {tenant : Uuid}

/-- The tenant sees the same items in both stores. -/
def SameFor (tenant : Uuid) (store other : TenantStore) : Prop :=
  store.data[tenant]? = other.data[tenant]?

/-- The items of a tenant after a call of `owner` that stores or removes one. -/
theorem data_put (store : TenantStore) (owner : Uuid) (item : TenantData) :
    (store.put owner item).2.data =
      if item.tenantId = owner then store.data.upsert owner ∅ (·.insert item.id item)
      else store.data := by
  unfold put
  by_cases same : item.tenantId = owner
  · rw [if_neg (not_not.mpr same), if_pos same]
  · rw [if_pos same, if_neg same]

theorem data_delete (store : TenantStore) (owner itemId : Uuid) :
    (store.delete owner itemId).2.data = store.data.modify owner (·.erase itemId) := by
  unfold delete
  cases store.get owner itemId with
  | none => rfl
  | some item => rfl

/-- **A call of one tenant leaves the items of the others alone.** -/
theorem sameFor_step {call : Call} (foreign : call.tenant ≠ tenant) (store : TenantStore) :
    SameFor tenant (store.next call) store := by
  unfold SameFor
  cases call with
  | put owner item =>
    have apart : owner ≠ tenant := foreign
    show (store.put owner item).2.data[tenant]? = _
    rw [data_put]
    by_cases same : item.tenantId = owner
    · rw [if_pos same, BTreeMap.getElem?_upsert_of_ne _ _ apart]
    · rw [if_neg same]
  | delete owner itemId =>
    have apart : ¬ compare owner tenant = .eq := fun same => foreign (compare_eq_iff_eq.mp same)
    show (store.delete owner itemId).2.data[tenant]? = _
    rw [data_delete, Std.ExtTreeMap.getElem?_modify, if_neg apart]
  | get owner itemId => rfl
  | getIsolated owner itemId => rfl
  | count owner => rfl

/-- A lookup reads the items of its tenant only. -/
theorem get_eq (same : SameFor tenant store other) (itemId : Uuid) :
    store.get tenant itemId = other.get tenant itemId := by
  rw [get, get, same]

/-- **The answer to a call depends on the items of its tenant only.** -/
theorem answer_eq {call : Call} (same : SameFor call.tenant store other) :
    (store.step call).1 = (other.step call).1 := by
  cases call with
  | put owner item =>
    show Reply.stored (store.put owner item).1 = Reply.stored (other.put owner item).1
    unfold put
    by_cases mismatch : item.tenantId ≠ owner
    · rw [if_pos mismatch, if_pos mismatch]
    · rw [if_neg mismatch, if_neg mismatch]
  | delete owner itemId =>
    show Reply.deleted (store.delete owner itemId).1 = Reply.deleted (other.delete owner itemId).1
    unfold delete
    rw [show store.get owner itemId = other.get owner itemId from get_eq same itemId]
    cases other.get owner itemId with
    | none => rfl
    | some item => rfl
  | get owner itemId => exact congrArg Reply.found (get_eq same itemId)
  | getIsolated owner itemId =>
    show Reply.found (store.getIsolated owner itemId) = Reply.found (other.getIsolated owner itemId)
    rw [getIsolated, getIsolated,
      show store.get owner itemId = other.get owner itemId from get_eq same itemId]
  | count owner =>
    show Reply.counted (store.count owner) = Reply.counted (other.count owner)
    rw [count, count, show store.data[owner]? = other.data[owner]? from same]

/-- A call does the same to stores that its tenant cannot tell apart. -/
theorem sameFor_next {call : Call} (same : SameFor call.tenant store other) :
    SameFor call.tenant (store.next call) (other.next call) := by
  cases call with
  | put owner item =>
    have items : store.data[owner]? = other.data[owner]? := same
    show (store.put owner item).2.data[owner]? = (other.put owner item).2.data[owner]?
    rw [data_put, data_put]
    by_cases own : item.tenantId = owner
    · rw [if_pos own, if_pos own, BTreeMap.getElem?_upsert_self, BTreeMap.getElem?_upsert_self, items]
    · rw [if_neg own, if_neg own, items]
  | delete owner itemId =>
    have items : store.data[owner]? = other.data[owner]? := same
    show (store.delete owner itemId).2.data[owner]? = (other.delete owner itemId).2.data[owner]?
    rw [data_delete, data_delete, Std.ExtTreeMap.getElem?_modify_self,
      Std.ExtTreeMap.getElem?_modify_self, items]
  | get owner itemId => exact same
  | getIsolated owner itemId => exact same
  | count owner => exact same

/-- Every stored item carries the tenant it is stored under. -/
def Labelled (store : TenantStore) : Prop :=
  ∀ tenant itemId item, store.get tenant itemId = some item → item.tenantId = tenant

/-- A lookup after a `put` that stores its item. -/
theorem get_put (store : TenantStore) {owner : Uuid} {item : TenantData}
    (same : item.tenantId = owner) (tenant itemId : Uuid) :
    (store.put owner item).2.get tenant itemId =
      if owner = tenant ∧ item.id = itemId then some item else store.get tenant itemId := by
  unfold get
  rw [data_put, if_pos same]
  by_cases own : owner = tenant
  · subst own
    rw [BTreeMap.getElem?_upsert_self]
    show ((store.data[owner]?.getD ∅).insert item.id item)[itemId]? = _
    rw [BTreeMap.getElem?_insert_eq_ite]
    simp only [true_and]
    cases store.data[owner]? with
    | none => simp
    | some items => rfl
  · rw [BTreeMap.getElem?_upsert_of_ne _ _ own, if_neg (fun both => own both.1)]

/-- A lookup after a removal. -/
theorem get_delete (store : TenantStore) (owner removed tenant itemId : Uuid) :
    (store.delete owner removed).2.get tenant itemId =
      if owner = tenant ∧ removed = itemId then none else store.get tenant itemId := by
  unfold get
  rw [data_delete, Std.ExtTreeMap.getElem?_modify]
  by_cases own : owner = tenant
  · subst own
    rw [if_pos (compare_eq_iff_eq.mpr rfl)]
    simp only [true_and]
    cases store.data[owner]? with
    | none => simp
    | some items =>
      show (items.erase removed)[itemId]? = if removed = itemId then none else items[itemId]?
      rw [Std.ExtTreeMap.getElem?_erase]
      simp only [compare_eq_iff_eq]
  · rw [if_neg fun same => own (compare_eq_iff_eq.mp same), if_neg (fun both => own both.1)]

/-- Only items of the tenant are stored under it. -/
theorem labelled_next (labelled : store.Labelled) (call : Call) : (store.next call).Labelled := by
  intro tenant itemId item found
  cases call with
  | put owner stored =>
    change (store.put owner stored).2.get tenant itemId = some item at found
    by_cases same : stored.tenantId = owner
    · rw [get_put store same] at found
      by_cases here : owner = tenant ∧ stored.id = itemId
      · rw [if_pos here] at found
        rw [← Option.some.inj found, same, here.1]
      · rw [if_neg here] at found
        exact labelled tenant itemId item found
    · rw [put, if_pos same] at found
      exact labelled tenant itemId item found
  | delete owner removed =>
    change (store.delete owner removed).2.get tenant itemId = some item at found
    rw [get_delete] at found
    by_cases here : owner = tenant ∧ removed = itemId
    · rw [if_pos here] at found
      cases found
    · rw [if_neg here] at found
      exact labelled tenant itemId item found
  | get owner looked => exact labelled tenant itemId item found
  | getIsolated owner looked => exact labelled tenant itemId item found
  | count owner => exact labelled tenant itemId item found

/-- Looking at the item once more changes nothing. -/
theorem getIsolated_eq_get (labelled : store.Labelled) (tenant itemId : Uuid) :
    store.getIsolated tenant itemId = store.get tenant itemId := by
  unfold getIsolated
  cases found : store.get tenant itemId with
  | none => rfl
  | some item =>
    show (if item.tenantId = tenant then some item else none) = some item
    rw [if_pos (labelled tenant itemId item found)]

/-- Deleting an item that is not there changes nothing. -/
theorem delete_of_missing {owner itemId : Uuid} (missing : store.get owner itemId = none) :
    (store.delete owner itemId).2 = store := by
  have data_eq : (store.delete owner itemId).2.data = store.data := by
    rw [data_delete]
    refine Std.ExtTreeMap.ext_getElem? fun tenant => ?_
    rw [Std.ExtTreeMap.getElem?_modify]
    by_cases own : owner = tenant
    · subst own
      rw [if_pos (compare_eq_iff_eq.mpr rfl)]
      cases inner : store.data[owner]? with
      | none => rfl
      | some items =>
        have absent : items[itemId]? = none := by
          rw [get, inner] at missing
          exact missing
        rw [Option.map_some, erase_eq_self absent]
    · rw [if_neg fun same => own (compare_eq_iff_eq.mp same)]
  exact congrArg TenantStore.mk data_eq

/-- **A call that fails leaves the store as it was.** -/
theorem step_of_failed {call : Call} (failed : (store.step call).1.Failed) :
    store.next call = store := by
  cases call with
  | put owner item =>
    obtain ⟨error, isError⟩ := failed
    change (store.put owner item).1 = .error error at isError
    show (store.put owner item).2 = store
    unfold put at isError ⊢
    by_cases mismatch : item.tenantId ≠ owner
    · rw [if_pos mismatch]
    · rw [if_neg mismatch] at isError
      cases isError
  | delete owner itemId =>
    obtain ⟨error, isError⟩ := failed
    change (store.delete owner itemId).1 = .error error at isError
    show (store.delete owner itemId).2 = store
    refine delete_of_missing ?_
    unfold delete at isError
    cases found : store.get owner itemId with
    | none => rfl
    | some item =>
      rw [found] at isError
      cases isError
  | get owner itemId => rfl
  | getIsolated owner itemId => rfl
  | count owner => rfl

end Step

/-! ### Runs -/

theorem labelled_run (calls : List Call) : (run next new calls).Labelled := by
  have empty : new.Labelled := by
    intro tenant itemId item found
    cases found
  have kept : ∀ store call, Labelled store → (next store call).Labelled :=
    fun _ call labelled => labelled_next labelled call
  exact (throughout_of_preserved kept empty calls).last

/-- **Tenants are isolated**, in every interleaving of their calls on one store: each gets the answers
it would get if only its own calls were made; a lookup returns items of the requesting tenant only, with
or without the second check; and a call that fails leaves the store as it was. -/
theorem tenants_isolated (calls : List Call) :
    (∀ tenant, (answers step new calls).filter (fun answered => answered.1.tenant = tenant) =
      answers step new (calls.filter fun call => call.tenant = tenant)) ∧
    (∀ tenant itemId,
      (run next new calls).getIsolated tenant itemId = (run next new calls).get tenant itemId) ∧
    (∀ tenant itemId item, (run next new calls).get tenant itemId = some item →
      item.tenantId = tenant) ∧
    (∀ call, ((run next new calls).step call).1.Failed →
      (run next new calls).next call = run next new calls) := by
  refine ⟨fun tenant => ?_, ?_, labelled_run calls, fun call failed => step_of_failed failed⟩
  · have own : ∀ store other (call : Call), decide (call.tenant = tenant) = true →
        SameFor tenant store other → (store.step call).1 = (other.step call).1 ∧
          SameFor tenant (store.step call).2 (other.step call).2 := by
      intro store other call own same
      obtain rfl : call.tenant = tenant := of_decide_eq_true own
      exact ⟨answer_eq same, sameFor_next same⟩
    have foreign : ∀ store other (call : Call), decide (call.tenant = tenant) = false →
        SameFor tenant store other → SameFor tenant (store.step call).2 other :=
      fun store other call foreign same => (sameFor_step (of_decide_eq_false foreign) store).trans same
    exact answers_filter own foreign rfl calls
  · exact fun tenant itemId => getIsolated_eq_get (labelled_run calls) tenant itemId

namespace Sample

/-- An item of a tenant, under an identifier that both tenants use. -/
def shared (tenantId : Uuid) : TenantData :=
  ⟨FixedBytes.fill 16 9, tenantId, ⟨"did:exo:owner"⟩, Hash256.zero⟩

/-- Two tenants store an item under one identifier, and one of them deletes its own. -/
def sharedCalls : List Call :=
  [.put (FixedBytes.fill 16 1) (shared (FixedBytes.fill 16 1)),
    .put (FixedBytes.fill 16 2) (shared (FixedBytes.fill 16 2)),
    .delete (FixedBytes.fill 16 2) (FixedBytes.fill 16 9)]

theorem shared_found : (run next new sharedCalls).get (FixedBytes.fill 16 1) (FixedBytes.fill 16 9) =
    some (shared (FixedBytes.fill 16 1)) := by decide +kernel

theorem shared_refused : ((run next new sharedCalls).step
    (.delete (FixedBytes.fill 16 2) (FixedBytes.fill 16 9))).1.Failed :=
  ⟨.storageError ("item 09090909-0909-0909-0909-090909090909 not found in tenant " ++
    "02020202-0202-0202-0202-020202020202"), by decide +kernel⟩

/-- The first tenant still finds its item, and deleting the other one again fails without a trace. -/
theorem shared_isolated :
    (shared (FixedBytes.fill 16 1)).tenantId = FixedBytes.fill 16 1 ∧
      (run next new sharedCalls).next (.delete (FixedBytes.fill 16 2) (FixedBytes.fill 16 9)) =
        run next new sharedCalls := by
  obtain ⟨-, -, own, failing⟩ := tenants_isolated sharedCalls
  exact ⟨own _ _ _ shared_found, failing _ shared_refused⟩

end Sample

end TenantStore

end Exochain.ExoTenant
