/-
**`exo-tenant` — the life of a tenant, storage tiers and shards.**

* `later_of_step`, `archived_final` — a tenant that is archived stays archived until it is deleted, and a
  deleted one does not return, as long as no new tenant is given its identifier.
* **`never_promoted_iff`** — migrations only go to colder tiers, registrations go anywhere: in a run no record
  gets warmer exactly if no registration files one under a warmer tier than it is on.
* **`replicas_distinct_iff`** — the replicas of a key are on different shards exactly if there are no more of
  them than shards.
-/

import Exochain.Foundation.Run
import Exochain.Foundation.Collections
import Exochain.Core.Types
import Exochain.Tenant.Store

set_option linter.unusedSectionVars false

namespace Exochain.ExoTenant

open Foundation ExoCore

/-! ### Tenants -/

inductive TenantStatus where
  | active
  | suspended
  | archived
  deriving DecidableEq, Repr

/-- The name of a status in texts. -/
def TenantStatus.debug : TenantStatus → String
  | active => "Active"
  | suspended => "Suspended"
  | archived => "Archived"

/-- The limits of a tenant. -/
structure TenantConfig where
  maxStorageBytes : UInt64
  maxUsers : UInt32
  deriving DecidableEq

def TenantConfig.default : TenantConfig := ⟨1073741824, 100⟩

structure Tenant where
  id : Uuid
  name : String
  config : TenantConfig
  created : Timestamp
  status : TenantStatus
  deriving DecidableEq

/-- The tenants, by identifier. -/
abbrev TenantRegistry := BTreeMap Uuid Tenant

/-- A call on the registry; a new tenant comes with the identifier it is given. -/
inductive TenantCall where
  | create (id : Uuid) (name : String) (config : TenantConfig)
  | updateStatus (id : Uuid) (status : TenantStatus)
  | delete (id : Uuid)
  deriving DecidableEq

/-- The moves of a status. -/
def TenantStatus.canMove : TenantStatus → TenantStatus → Bool
  | active, suspended => true
  | active, archived => true
  | suspended, active => true
  | suspended, archived => true
  | _, _ => false

namespace TenantRegistry

/-- Create a tenant. -/
def create (registry : TenantRegistry) (id : Uuid) (name : String) (config : TenantConfig) :
    Except TenantError Uuid × TenantRegistry :=
  (.ok id, registry.insert id ⟨id, name, config, .zero, .active⟩)

/-- Move a tenant to a status. -/
def updateStatus (registry : TenantRegistry) (id : Uuid) (status : TenantStatus) :
    Except TenantError Unit × TenantRegistry :=
  match registry[id]? with
  | none => (.error (.tenantNotFound id), registry)
  | some tenant =>
    if tenant.status.canMove status then (.ok (), registry.insert id { tenant with status := status })
    else
      (.error (.invalidStateTransition (tenant.status.debug ++ " -> " ++ status.debug)), registry)

/-- Delete a tenant. -/
def delete (registry : TenantRegistry) (id : Uuid) : Except TenantError Tenant × TenantRegistry :=
  match registry[id]? with
  | none => (.error (.tenantNotFound id), registry)
  | some tenant => (.ok tenant, registry.erase id)

/-- The registry after a call. -/
def step (registry : TenantRegistry) : TenantCall → TenantRegistry
  | .create id name config => (create registry id name config).2
  | .updateStatus id status => (updateStatus registry id status).2
  | .delete id => (delete registry id).2

/-- What can become of a tenant. -/
def Later (before after : Option Tenant) : Prop :=
  after = none ∨ ∃ tenant tenant', before = some tenant ∧ after = some tenant' ∧
    tenant' = { tenant with status := tenant'.status } ∧
    (tenant.status = .archived → tenant'.status = .archived)

theorem Later.refl (tenant : Option Tenant) : Later tenant tenant := by
  cases tenant with
  | none => exact .inl rfl
  | some tenant => exact .inr ⟨tenant, tenant, rfl, rfl, rfl, fun archived => archived⟩

theorem Later.trans {first second third : Option Tenant} (early : Later first second)
    (late : Later second third) : Later first third := by
  rcases late with gone | ⟨tenant, tenant', here, there, same, final⟩
  · exact .inl gone
  · rcases early with gone | ⟨tenant₀, tenant₁, here₀, there₀, same₀, final₀⟩
    · exact nomatch gone.symm.trans here
    · obtain rfl := Option.some.inj (there₀.symm.trans here)
      refine .inr ⟨tenant₀, tenant', here₀, there, ?_, fun archived => final (final₀ archived)⟩
      rw [same, same₀]

/-- **One call**, unless it creates a tenant under the identifier. -/
theorem later_of_step (registry : TenantRegistry) {call : TenantCall} {id : Uuid}
    (fresh : ∀ name config, call ≠ .create id name config) :
    Later registry[id]? (step registry call)[id]? := by
  cases call with
  | create other name config =>
    have apart : other ≠ id := fun same => fresh name config (by rw [same])
    rw [step, create, BTreeMap.getElem?_insert_of_ne _ apart]
    exact .refl _
  | updateStatus other status =>
    rw [step, updateStatus]
    cases found : registry[other]? with
    | none => exact .refl _
    | some tenant =>
      dsimp only
      split
      · rename_i moves
        rw [BTreeMap.getElem?_insert_eq_ite]
        split
        · rename_i same
          subst same
          rw [found]
          refine .inr ⟨tenant, _, rfl, rfl, rfl, fun archived => ?_⟩
          rw [archived] at moves
          cases status <;> exact absurd moves (by decide)
        · exact .refl _
      · exact .refl _
  | delete other =>
    rw [step, delete]
    cases found : registry[other]? with
    | none => exact .refl _
    | some tenant =>
      dsimp only
      rw [Std.ExtTreeMap.getElem?_erase]
      split
      · exact .inl rfl
      · exact .refl _

/-- **Archived is final**, and so is deleted: in a run that gives no new tenant the identifier, what can become
of the tenant between any two moments. -/
theorem archived_final (registry : TenantRegistry) (id : Uuid) (calls : List TenantCall)
    (fresh : ∀ name config, .create id name config ∉ calls) :
    Evolves step (fun before after => Later before[id]? after[id]?) registry calls := by
  refine (evolves_iff_along (fun _ => .refl _) fun _ _ _ => .trans).mpr ?_
  intro before call after split
  refine later_of_step _ fun name config same => fresh name config ?_
  rw [split, same]
  exact List.mem_append_right _ List.mem_cons_self

end TenantRegistry

/-! ### Storage tiers -/

/-- The tiers, from warm to cold. -/
inductive StorageTier where
  | hot
  | warm
  | cold
  | archive
  deriving DecidableEq, Repr

namespace StorageTier

/-- The name of a tier in texts. -/
def debug : StorageTier → String
  | hot => "Hot"
  | warm => "Warm"
  | cold => "Cold"
  | archive => "Archive"

/-- The tiers are ordered as they are listed. -/
def rank : StorageTier → ℕ
  | hot => 0
  | warm => 1
  | cold => 2
  | archive => 3

theorem rank_injective : Function.Injective rank := by
  intro first second same
  cases first <;> cases second <;> first | rfl | cases same

instance : LinearOrder StorageTier := LinearOrder.lift' rank rank_injective

end StorageTier

/-- The tier of each record. -/
abbrev StorageManager := BTreeMap Uuid StorageTier

/-- A call on the tiers. -/
inductive StorageCall where
  | register (id : Uuid) (tier : StorageTier)
  | migrate (id : Uuid) (source target : StorageTier)
  deriving DecidableEq

namespace StorageManager

/-- Register a record on a tier, whatever tier it was on. -/
def register (manager : StorageManager) (id : Uuid) (tier : StorageTier) : StorageManager :=
  manager.insert id tier

/-- Migrate a record from its tier to one that is not warmer. -/
def migrate (manager : StorageManager) (id : Uuid) (source target : StorageTier) :
    Except TenantError Unit × StorageManager :=
  match manager[id]? with
  | none => (.error (.storageError ("record " ++ id.display ++ " not found")), manager)
  | some current =>
    if current ≠ source then
      (.error (.migrationError ("expected " ++ source.debug ++ ", found " ++ current.debug)), manager)
    else if target < source then
      (.error (.migrationError ("cannot promote from " ++ source.debug ++ " to " ++ target.debug)), manager)
    else (.ok (), manager.insert id target)

/-- The tiers after a call. -/
def step (manager : StorageManager) : StorageCall → StorageManager
  | .register id tier => register manager id tier
  | .migrate id source target => (migrate manager id source target).2

/-- The number of records on a tier. -/
def countByTier (manager : StorageManager) (tier : StorageTier) : ℕ :=
  (manager.valuesInOrder.filter (· = tier)).length

/-- No record is on a warmer tier than before. -/
def Colder (before after : StorageManager) : Prop :=
  ∀ (id : Uuid) tier, before[id]? = some tier → ∃ tier', after[id]? = some tier' ∧ tier ≤ tier'

/-- A registration files no record under a warmer tier than it is on. -/
def KeepsCold (manager : StorageManager) (call : StorageCall) : Prop :=
  ∀ id tier current, call = .register id tier → manager[id]? = some current → current ≤ tier

variable {manager : StorageManager} {call : StorageCall}

theorem Colder.refl (manager : StorageManager) : Colder manager manager :=
  fun _ tier found => ⟨tier, found, le_rfl⟩

theorem Colder.trans {first second third : StorageManager} (early : Colder first second)
    (late : Colder second third) : Colder first third := by
  intro id tier found
  obtain ⟨tier', found', colder⟩ := early id tier found
  obtain ⟨tier'', found'', colder'⟩ := late id tier' found'
  exact ⟨tier'', found'', colder.trans colder'⟩

/-- Filing a record under a tier. -/
theorem colder_insert_iff {id : Uuid} {tier : StorageTier} :
    Colder manager (manager.insert id tier) ↔ ∀ current, manager[id]? = some current → current ≤ tier := by
  constructor
  · intro colder current found
    obtain ⟨tier', found', le⟩ := colder id current found
    rw [Std.ExtTreeMap.getElem?_insert_self] at found'
    rwa [Option.some.inj found']
  · intro bounded other current found
    rw [BTreeMap.getElem?_insert_eq_ite]
    split
    · rename_i same
      subst same
      exact ⟨tier, rfl, bounded current found⟩
    · exact ⟨current, found, le_rfl⟩

/-- **One call** makes nothing warmer exactly if it is no such registration. -/
theorem colder_step_iff : Colder manager (manager.step call) ↔ KeepsCold manager call := by
  cases call with
  | register id tier =>
    rw [step, register, colder_insert_iff]
    constructor
    · rintro bounded id' tier' current same found
      cases same
      exact bounded current found
    · exact fun keeps current found => keeps id tier current rfl found
  | migrate id source target =>
    refine iff_of_true ?_ fun _ _ _ same => nomatch same
    rw [step, migrate]
    cases found : manager[id]? with
    | none => exact .refl _
    | some current =>
      dsimp only
      split
      · exact .refl _
      · rename_i from_source
        split
        · exact .refl _
        · rename_i down
          refine colder_insert_iff.mpr fun other found' => ?_
          obtain rfl := Option.some.inj (found.symm.trans found')
          rw [not_not.mp from_source]
          exact not_lt.mp down

/-- **Nothing is promoted** in a run exactly if no registration in it files a record under a warmer tier than it
is on then. -/
theorem never_promoted_iff (manager : StorageManager) (calls : List StorageCall) :
    Evolves step Colder manager calls ↔ Along step KeepsCold manager calls := by
  rw [evolves_iff_along Colder.refl fun _ _ _ => Colder.trans]
  refine forall_congr' fun before => forall_congr' fun call => forall_congr' fun after => ?_
  exact imp_congr_right fun _ => colder_step_iff

end StorageManager

/-! ### Shards -/

/-- How data is spread. -/
structure ShardConfig where
  numShards : ℕ
  replicationFactor : ℕ
  deriving DecidableEq, Repr

def ShardConfig.default : ShardConfig := ⟨16, 3⟩

/-- What stops a call. -/
inductive ShardPanic where
  | overflow (fault : Fault)
  | divisionByZero
  deriving DecidableEq, Repr

/-- The remainder by the number of shards. -/
def ShardConfig.reduce (config : ShardConfig) (value : ℕ) : Except ShardPanic ℕ :=
  if config.numShards = 0 then .error .divisionByZero else .ok (value % config.numShards)

/-- The shard of a key, from its first four bytes. -/
def assignShard (key : Hash256) (config : ShardConfig) : Except ShardPanic ℕ :=
  config.reduce ((key.asBytes.take 4).foldr (fun byte rest => byte.toNat + 256 * rest) 0)

/-- The shards of all replicas. -/
def replicaShards (build : Build) (primary : ℕ) (config : ShardConfig) : Except ShardPanic (List ℕ) :=
  (List.range config.replicationFactor).mapM fun i => do
    let sum ← (build.add 64 primary i).mapError .overflow
    config.reduce sum

/-- The shards that a key moves between when the configuration changes. -/
def migrationPlan (key : Hash256) (oldConfig newConfig : ShardConfig) : Except ShardPanic (ℕ × ℕ) := do
  let old ← assignShard key oldConfig
  let new ← assignShard key newConfig
  return (old, new)

/-- The shards from a primary one on. -/
def shardsFrom (primary : ℕ) (config : ShardConfig) : List ℕ :=
  (List.range config.replicationFactor).map fun i => (primary + i) % config.numShards

variable {primary : ℕ} {config : ShardConfig}

/-- Within the width of the sums, these are the shards of the replicas. -/
theorem replicaShards_eq (build : Build) (positive : 0 < config.numShards)
    (fits : primary + config.replicationFactor ≤ 2 ^ 64) :
    replicaShards build primary config = .ok (shardsFrom primary config) := by
  refine mapM_eq_ok_of_forall fun i member => ?_
  have small : primary + i < 2 ^ 64 := by
    have := List.mem_range.mp member
    omega
  have reduced : config.reduce (primary + i) = .ok ((primary + i) % config.numShards) := if_neg positive.ne'
  rw [Build.add_of_lt small]
  exact reduced

theorem lt_of_mem_shardsFrom (positive : 0 < config.numShards) {shard : ℕ}
    (member : shard ∈ shardsFrom primary config) : shard < config.numShards := by
  obtain ⟨i, -, rfl⟩ := List.mem_map.mp member
  exact Nat.mod_lt _ positive

theorem length_shardsFrom (primary : ℕ) (config : ShardConfig) :
    (shardsFrom primary config).length = config.replicationFactor := by
  rw [shardsFrom, List.length_map, List.length_range]

/-- They are distinct exactly if there are enough shards. -/
theorem nodup_shardsFrom_iff (positive : 0 < config.numShards) :
    (shardsFrom primary config).Nodup ↔ config.replicationFactor ≤ config.numShards := by
  constructor
  · intro distinct
    have within : shardsFrom primary config ⊆ List.range config.numShards := fun shard member =>
      List.mem_range.mpr (lt_of_mem_shardsFrom positive member)
    have lengths := (List.Nodup.subperm distinct within).length_le
    rwa [length_shardsFrom, List.length_range] at lengths
  · intro enough
    refine List.Nodup.map_on (fun i member j member' same => ?_) List.nodup_range
    have small := (List.mem_range.mp member).trans_le enough
    have small' := (List.mem_range.mp member').trans_le enough
    have remainders : i % config.numShards = j % config.numShards := Nat.ModEq.add_left_cancel' primary same
    rwa [Nat.mod_eq_of_lt small, Nat.mod_eq_of_lt small'] at remainders

/-- Every shard is one of them exactly if there are enough replicas. -/
theorem covers_shardsFrom_iff (known : primary < config.numShards) :
    (∀ shard < config.numShards, shard ∈ shardsFrom primary config) ↔
      config.numShards ≤ config.replicationFactor := by
  constructor
  · intro covers
    have within : List.range config.numShards ⊆ shardsFrom primary config := fun shard member =>
      covers shard (List.mem_range.mp member)
    have lengths := (List.Nodup.subperm List.nodup_range within).length_le
    rwa [length_shardsFrom, List.length_range] at lengths
  · intro enough shard small
    have index := Nat.mod_lt (shard + config.numShards - primary) (Nat.zero_lt_of_lt known)
    refine List.mem_map.mpr ⟨_, List.mem_range.mpr (index.trans_le enough), ?_⟩
    have whole : primary + (shard + config.numShards - primary) = shard + config.numShards := by omega
    rw [Nat.add_mod_mod, whole, Nat.add_mod_right, Nat.mod_eq_of_lt small]

/-- **The replicas of a key are on different shards** exactly if there are no more of them than shards, and on
all shards exactly if there are no fewer. -/
theorem replicas_distinct_iff (build : Build) (key : Hash256) (config : ShardConfig)
    (positive : 0 < config.numShards) (fits : config.numShards + config.replicationFactor ≤ 2 ^ 64) :
    ∃ primary replicas, assignShard key config = .ok primary ∧
      replicaShards build primary config = .ok replicas ∧
      (∀ shard ∈ replicas, shard < config.numShards) ∧
      (replicas.Nodup ↔ config.replicationFactor ≤ config.numShards) ∧
      ((∀ shard < config.numShards, shard ∈ replicas) ↔ config.numShards ≤ config.replicationFactor) := by
  have assigned : assignShard key config = .ok _ := if_neg positive.ne'
  have known := Nat.mod_lt ((key.asBytes.take 4).foldr (fun byte rest => byte.toNat + 256 * rest) 0) positive
  refine ⟨_, _, assigned, replicaShards_eq build positive (by omega),
    fun shard member => lt_of_mem_shardsFrom positive member, nodup_shardsFrom_iff positive,
    covers_shardsFrom_iff known⟩

/-- Sixteen shards, three replicas. -/
theorem replicas_distinct_default :
    ∃ primary replicas, assignShard .zero .default = .ok primary ∧
      replicaShards ⟨true⟩ primary .default = .ok replicas ∧
      (∀ shard ∈ replicas, shard < ShardConfig.default.numShards) ∧
      (replicas.Nodup ↔ ShardConfig.default.replicationFactor ≤ ShardConfig.default.numShards) ∧
      ((∀ shard < ShardConfig.default.numShards, shard ∈ replicas) ↔
        ShardConfig.default.numShards ≤ ShardConfig.default.replicationFactor) :=
  replicas_distinct_iff ⟨true⟩ .zero .default (by decide) (by decide)

end Exochain.ExoTenant
