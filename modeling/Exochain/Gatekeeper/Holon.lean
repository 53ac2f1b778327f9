/-
**`exo-gatekeeper` — the holon runtime.**

A holon runs a combinator program under the kernel. A step asks the kernel about the action
`holon_step` with the holon's capabilities as the required permissions, and reduces the program if the
action is permitted; a denial terminates the holon and an escalation suspends it. Suspending hands out
a checkpoint, and resuming takes one back.

A step is cut where the source calls `reduce`: `authorize` is what comes before, the program runs after
it. Every call returns a result and the holon as the call leaves it.

* `authorize_eq_ok_iff` — when a step gets to its program.
* **`capability_sound_iff`** — the kernel compares no permissions: an action it permits, and a program
  that a run reduces, has the permissions it requires exactly where it has them anyway or something
  else refuses.
* `Sample.reduced_without_capability` — a program reduced for a capability that the context does not
  grant.
-/

import Exochain.Foundation.Run
import Exochain.Gatekeeper.Combinator
import Exochain.Gatekeeper.Kernel

set_option linter.unusedSectionVars false

namespace Exochain.ExoGatekeeper

open Foundation ExoCore

/-! ### Holons -/

/-- The state of a holon. -/
inductive HolonState where
  | idle
  | executing
  | suspended
  | terminated
  deriving DecidableEq, Repr

/-- What suspending hands out. -/
structure Checkpoint where
  id : CheckpointId
  holonId : Did
  state : HolonState
  lastOutput : Option CombinatorOutput

/-- An autonomous agent and its program. -/
structure Holon where
  id : Did
  capabilities : PermissionSet
  state : HolonState
  combinatorChain : Combinator
  lastOutput : Option CombinatorOutput

/-- A new holon. -/
def spawn (id : Did) (capabilities : PermissionSet) (program : Combinator) : Holon where
  id := id
  capabilities := capabilities
  state := .idle
  combinatorChain := program
  lastOutput := none

namespace Holon

/-- What a step asks the kernel. -/
def stepRequest (holon : Holon) : ActionRequest where
  actor := holon.id
  action := "holon_step"
  requiredPermissions := holon.capabilities
  isSelfGrant := false
  modifiesKernel := false

/-- The part of a step before the program runs: either it may run, or the step ends with an error and
a state. -/
def authorize (platform : Platform) (kernel : Kernel) (context : AdjudicationContext) (holon : Holon) :
    Except (GatekeeperError × HolonState) Unit :=
  match holon.state with
  | .terminated => .error (.holonError "Cannot step a terminated holon", .terminated)
  | .suspended => .error (.holonError "Cannot step a suspended holon — resume first", .suspended)
  | _ =>
    match kernel.adjudicate platform holon.stepRequest context with
    | .permitted => .ok ()
    | .denied violations =>
      let descs := violations.map InvariantViolation.description
      .error (.capabilityDenied ("; ".intercalate descs), .terminated)
    | .escalated reason => .error (.holonError ("Step escalated: " ++ reason), .suspended)

/-- One step of a holon. A program that fails leaves the holon executing. -/
def step (platform : Platform) (kernel : Kernel) (input : CombinatorInput)
    (context : AdjudicationContext) (holon : Holon) :
    Except GatekeeperError CombinatorOutput × Holon :=
  match holon.authorize platform kernel context with
  | .error (error, state) => (.error error, { holon with state })
  | .ok () =>
    match reduce holon.combinatorChain input with
    | .error error => (.error error, { holon with state := .executing })
    | .ok output => (.ok output, { holon with state := .idle, lastOutput := some output })

/-- Suspend a holon. -/
def suspend (holon : Holon) : Except GatekeeperError Checkpoint × Holon :=
  if holon.state = .terminated then
    (.error (.holonError "Cannot suspend a terminated holon"), holon)
  else
    let holon := { holon with state := .suspended }
    (.ok
      { id := ⟨"checkpoint-" ++ holon.id.value⟩
        holonId := holon.id
        state := holon.state
        lastOutput := holon.lastOutput }, holon)

/-- Resume a suspended holon. -/
def resume (checkpoint : Checkpoint) (holon : Holon) : Except GatekeeperError Unit × Holon :=
  if holon.state ≠ .suspended then
    (.error (.holonError "Can only resume a suspended holon"), holon)
  else if checkpoint.holonId ≠ holon.id then
    (.error (.checkpointError "Checkpoint holon ID does not match"), holon)
  else (.ok (), { holon with lastOutput := checkpoint.lastOutput, state := .idle })

end Holon

/-! ### Runs -/

/-- A call on a holon. -/
inductive HolonCall where
  | step (kernel : Kernel) (input : CombinatorInput) (context : AdjudicationContext)
  | suspend
  | resume (checkpoint : Checkpoint)

/-- The holon after a call. -/
def Holon.call (platform : Platform) (holon : Holon) : HolonCall → Holon
  | .step kernel input context => (holon.step platform kernel input context).2
  | .suspend => holon.suspend.2
  | .resume checkpoint => (holon.resume checkpoint).2

/-! ### When a program runs -/

section Capabilities

variable {platform : Platform} {kernel : Kernel} {constitution : List UInt8} {holon : Holon}
  {context : AdjudicationContext} {action : ActionRequest}

/-- A step gets to its program from an open state and with the permission of the kernel. -/
theorem authorize_eq_ok_iff :
    holon.authorize platform kernel context = .ok () ↔
      (holon.state ≠ .terminated ∧ holon.state ≠ .suspended) ∧
        kernel.adjudicate platform holon.stepRequest context = .permitted := by
  unfold Holon.authorize
  cases kernel.adjudicate platform holon.stepRequest context with
  | permitted => cases holon.state <;> simp
  | denied violations => cases holon.state <;> simp
  | escalated reason => cases holon.state <;> simp

/-- Every required permission is among the granted ones. -/
def PermissionSet.Grants (granted required : PermissionSet) : Prop :=
  ∀ permission ∈ required.permissions, granted.contains permission = true

/-- Some condition of the constitution fails for the action. -/
def Refused (platform : Platform) (action : ActionRequest) (context : AdjudicationContext) : Prop :=
  ∃ invariant, ¬ Holds platform (invariantContext action context) invariant

theorem permitted_grants_iff :
    ((Kernel.new platform.blake3 constitution .all).adjudicate platform action context = .permitted →
        context.actorPermissions.Grants action.requiredPermissions) ↔
      context.actorPermissions.Grants action.requiredPermissions ∨
        Refused platform action context := by
  rw [adjudicate_all_eq_permitted_iff, imp_iff_not_or, not_forall, or_comm]
  rfl

/-- If the call is a step under a kernel with all invariants and its program is reduced, then the
context grants the capabilities of the holon. -/
def ReducesGranted (platform : Platform) (holon : Holon) (call : HolonCall) : Prop :=
  ∀ constitution input context,
    call = .step (Kernel.new platform.blake3 constitution .all) input context →
    holon.authorize platform (Kernel.new platform.blake3 constitution .all) context = .ok () →
    context.actorPermissions.Grants holon.capabilities

/-- If the call is a step under a kernel with all invariants, then the context grants the capabilities,
or the holon is terminated or suspended, or some condition of the constitution fails. -/
def GrantedOrRefused (platform : Platform) (holon : Holon) (call : HolonCall) : Prop :=
  ∀ constitution input context,
    call = .step (Kernel.new platform.blake3 constitution .all) input context →
    context.actorPermissions.Grants holon.capabilities ∨ holon.state = .terminated ∨
      holon.state = .suspended ∨ Refused platform holon.stepRequest context

theorem reducesGranted_iff {call : HolonCall} :
    ReducesGranted platform holon call ↔ GrantedOrRefused platform holon call := by
  refine forall₂_congr fun constitution input => forall₂_congr fun context isStep => ?_
  rw [authorize_eq_ok_iff, adjudicate_all_eq_permitted_iff, imp_iff_not_or, not_and_or, not_and_or,
    not_not, not_not, not_forall]
  unfold Refused
  tauto

/-- **When permissions are respected.** The kernel compares no permissions. An action it permits has
the permissions it requires exactly where they are granted or some condition of the constitution
fails; and along a run of a holon, programs are reduced with their capabilities granted exactly where
each step meets that condition or finds the holon terminated or suspended. -/
theorem capability_sound_iff (platform : Platform) :
    (∀ constitution action context,
      ((Kernel.new platform.blake3 constitution .all).adjudicate platform action context =
          .permitted →
        context.actorPermissions.Grants action.requiredPermissions) ↔
      context.actorPermissions.Grants action.requiredPermissions ∨
        Refused platform action context) ∧
    (∀ holon calls,
      Along (Holon.call platform) (ReducesGranted platform) holon calls ↔
        Along (Holon.call platform) (GrantedOrRefused platform) holon calls) := by
  refine ⟨fun constitution action context => permitted_grants_iff, fun holon calls => ?_⟩
  induction calls generalizing holon with
  | nil => exact iff_of_true along_nil along_nil
  | cons call rest ih => rw [along_cons_iff, along_cons_iff, reducesGranted_iff, ih]

end Capabilities

namespace Sample

/-- The request with a permission that its context does not grant. -/
def deletion : ActionRequest := { request with requiredPermissions := ⟨[⟨"delete"⟩]⟩ }

/-- A holon of the same actor with that permission as its capability. -/
def deleter : Holon := spawn ⟨"did:exo:actor"⟩ ⟨[⟨"delete"⟩]⟩ .identity

/-- The deletion is permitted, and a step of the holon reduces its program, though the context grants
nothing. -/
theorem reduced_without_capability :
    (Kernel.new keyless.blake3 [] .all).adjudicate keyless deletion context = .permitted ∧
      ¬ context.actorPermissions.Grants deletion.requiredPermissions ∧
      (deleter.step keyless (Kernel.new keyless.blake3 [] .all) ⟨∅⟩ context).1 =
        .ok ⟨∅, none⟩ ∧
      ¬ Along (Holon.call keyless) (ReducesGranted keyless) deleter
        [.step (Kernel.new keyless.blake3 [] .all) ⟨∅⟩ context] := by
  have missing : ¬ context.actorPermissions.Grants deletion.requiredPermissions := by
    intro grants
    exact absurd (grants ⟨"delete"⟩ List.mem_cons_self) (by decide)
  refine ⟨rfl, missing, rfl, ?_⟩
  intro granted
  exact missing ((along_cons_iff.mp granted).1 [] ⟨∅⟩ context rfl rfl)

end Sample

end Exochain.ExoGatekeeper
