import UCloudSandboxes.Machine.Basic
import UCloudSandboxes.Routing.Reconcile

/-! The other transactions on stored routes, and the store as a machine. An exception rolls back. -/
namespace UCloudSandboxes.Routing
open Machine

namespace Store

variable (store : Store) (route : SandboxRoute) (allocation : SandboxRouteAllocation)
  (allowNodeEpochAdoption : Bool) (now : Option Nat) (proof : LifecycleProof)

def write : Except Raised Store :=
  route.build.map store.writeSandbox

def writeLifecycle : Except Raised Store :=
  route.build.map store.writeSandboxLifecycle

theorem write_ok {store store' : Store} {route} (h : store.write route = .ok store') :
    store'.rows route.sandboxId = (store.rows route.sandboxId).writeSandbox route ∧
      ∀ k, k ≠ route.sandboxId → store'.rows k = store.rows k := by
  obtain ⟨stored,hb,rfl⟩ := ok_of_map_ok h
  obtain rfl := build_ok hb
  exact ⟨rows_writeSandbox ..,fun k => rows_writeSandbox_ne _ _⟩

theorem writeLifecycle_ok {store store' : Store} {route} (h : store.writeLifecycle route = .ok store') :
    store'.rows route.sandboxId = (store.rows route.sandboxId).writeSandboxLifecycle route ∧
      ∀ k, k ≠ route.sandboxId → store'.rows k = store.rows k := by
  obtain ⟨stored,hb,rfl⟩ := ok_of_map_ok h
  obtain rfl := build_ok hb
  exact ⟨rows_writeSandboxLifecycle ..,fun k hk => rows_put_ne _ _ _ hk⟩

/-- The route that `upsert_sandbox` stores: within one boot the activity epoch keeps its maximum. -/
def upserted : Option SandboxRoute → Except SandboxRoute SandboxRoute
  | none => .ok { route with createdAt := route.createdAt <|> now, updatedAt := now }
  | some existing =>
    if !routeUpdateIsCurrent existing route allowNodeEpochAdoption then .error existing
    else .ok { route with
      activityEpoch :=
        if route.nodeEpoch = existing.nodeEpoch then max route.activityEpoch existing.activityEpoch
        else route.activityEpoch
      createdAt := route.createdAt <|> existing.createdAt
      updatedAt := now }

def upsertSandbox : Except Raised (Store × SandboxRoute) :=
  match upserted route allowNodeEpochAdoption now (store.getSandbox route.sandboxId) with
  | .error existing => .ok (store,existing)
  | .ok stored => (store.write stored).map (·,stored)

/-- A worker's receipt is for the exact incarnation, which is not being deleted. -/
def receipted (current : SandboxRoute) : Bool :=
  current.deleteOperationId = "" && sameSandboxRouteIncarnation current route

def confirmSandboxObservation : Except Raised (Store × Option SandboxRoute) :=
  if (store.getSandbox route.sandboxId).any (receipted route) then
    (store.upsertSandbox route allowNodeEpochAdoption now).map fun r => (r.1,some r.2)
  else .ok (store,none)

structure SnapshotUpdate where
  storageSchema : Option String := none
  manifestDigest : Option String := none
  repository : Option String := none
  tag : Option String := none
  storageSnapshot : Option SnapshotObject := none
  deriving DecidableEq

def SnapshotUpdate.apply (u : SnapshotUpdate) (c : SnapshotColumns) : SnapshotColumns where
  storageSchema := u.storageSchema.getD c.storageSchema
  manifestDigest := u.manifestDigest.getD c.manifestDigest
  repository := u.repository.getD c.repository
  tag := u.tag.getD c.tag
  storageSnapshot := u.storageSnapshot.getD c.storageSnapshot

def SnapshotUpdate.woken : SnapshotUpdate :=
  { storageSchema := some route.snapshot.storageSchema, manifestDigest := some ""
    repository := some "", tag := some "", storageSnapshot := some .empty }

/-- A worker lifecycle proof: boot epoch and activity epoch after the transition. -/
structure LifecycleProof where
  nodeEpoch : String
  activityEpoch : Nat
  deriving DecidableEq

/-- The proof postdates the caller's route and is not behind the stored one. -/
def LifecycleProof.admissible (route current : SandboxRoute) : Bool :=
  proof.activityEpoch > route.activityEpoch &&
    !(route.nodeEpoch ≠ "" && route.nodeEpoch ≠ proof.nodeEpoch) &&
    !(current.nodeEpoch ≠ "" && current.nodeEpoch ≠ proof.nodeEpoch) &&
    !(current.activityEpoch > proof.activityEpoch)

section
variable (expectedStates : List RouteState) (state : RouteState) (proof : Option LifecycleProof)
  (update : SnapshotUpdate) (now : Option Nat)

def lifecycle (current : SandboxRoute) : SandboxRoute :=
  { current with
    state
    nodeEpoch := (proof.map (·.nodeEpoch)).getD current.nodeEpoch
    activityEpoch := (proof.map (·.activityEpoch)).getD current.activityEpoch
    snapshot := update.apply current.snapshot
    updatedAt := now }

/-- `set_sandbox_state_if_current` up to its write: the lifecycle columns of the exact incarnation. -/
def stateIfCurrent (row : Option SandboxRoute) : Except Raised (Option SandboxRoute) :=
  if expectedStates.isEmpty then
    .error (.valueError "expected and destination sandbox states are required")
  else if proof.any (·.nodeEpoch = "") then
    .error (.valueError "lifecycle node_epoch must be nonempty")
  else .ok (row.bind fun current =>
    if !expectedStates.contains current.state || !sameSandboxRouteIncarnation current route ||
        current.workerState ≠ route.workerState || current.deleteOperationId ≠ "" ||
        proof.any (!·.admissible route current) then none
    else some (lifecycle state proof update now current))

theorem stateIfCurrent_ok {route expected state proof update now row stored}
    (h : stateIfCurrent route expected state proof update now row = .ok (some stored)) :
    ∃ current, row = some current ∧
      (∀ p, proof = some p → p.nodeEpoch ≠ "" ∧ p.admissible route current = true) ∧
      stored = lifecycle state proof update now current := by
  obtain ⟨-,h⟩ := of_guard h nofun
  obtain ⟨hepoch,h⟩ := of_guard h nofun
  obtain ⟨current,rfl,hset⟩ := Option.bind_eq_some_iff.mp (Except.ok.inj h)
  obtain ⟨hguard,hset⟩ := some_of_guard hset
  simp only [Bool.or_eq_true,not_or,Option.any_eq_true,not_exists,not_and] at hguard
  refine ⟨current,rfl,?_,hset.symm⟩
  rintro p rfl
  exact ⟨by simpa using hepoch,by simpa using hguard.2 p rfl⟩

def setSandboxStateIfCurrent : Except Raised (Store × Option SandboxRoute) :=
  (stateIfCurrent route expectedStates state proof update now
    (store.getSandbox route.sandboxId)).bind fun
      | none => .ok (store,none)
      | some stored => (store.writeLifecycle stored).map (·,some stored)

end

def confirmSandboxWake (now : Option Nat) : Except Raised (Store × Option SandboxRoute) :=
  store.setSandboxStateIfCurrent route [.parked,.waking,.running] .running (some proof)
    (.woken route) now

/-- The row a wake is reserved on. -/
def wakes (route current : SandboxRoute) : Bool :=
  current.state = .parked && sameSandboxRouteIncarnation current route &&
    current.workerState = route.workerState && current.deleteOperationId = ""

def reserveSandboxWake (store : Store) (route : SandboxRoute) : Except Raised Store :=
  match (store.getSandbox route.sandboxId).filter (wakes route) with
  | none => .ok store
  | some current =>
    (current.reserveWake now).build.map fun stored =>
      store.put stored.val.sandboxId
        { store.rows stored.val.sandboxId with route := some stored.val } (fitsRow_self stored)

def reserveSandboxWakes (requests : List SandboxRoute) (now : Option Nat) : Except Raised Store :=
  requests.foldlM (reserveSandboxWake now) store

structure SandboxRouteAllocation where
  sandboxId : String
  node : NodeIdentity
  resources : ResourceQuantity
  nodeEpoch : String := ""
  activityEpoch : Nat := 0
  deriving DecidableEq

def SandboxRouteAllocation.creating (incarnation : Incarnation) (now : Option Nat) : SandboxRoute :=
  { sandboxId := allocation.sandboxId, node := allocation.node, resources := allocation.resources
    state := .creating, incarnation, nodeEpoch := allocation.nodeEpoch
    activityEpoch := allocation.activityEpoch, createdAt := now, updatedAt := now }

/-- `_allocate_create_unlocked`: a route of a new generation, or the one that exists. -/
def allocateCreate (specHash operationId : String) (now : Option Nat)
    : Except Raised (Store × SandboxRoute) :=
  match store.getSandbox allocation.sandboxId with
  | some existing =>
    if existing.incarnation.specHash ≠ specHash then
      .error (.valueError "sandbox route already exists with a different spec")
    else .ok (store,existing)
  | none =>
    let stored := allocation.creating
      ⟨store.generationHwm allocation.sandboxId + 1,operationId,specHash⟩ now
    (store.write stored).map (·,stored)

/-- `_retarget_create_unlocked`: a rejected create becomes a fresh incarnation elsewhere. -/
def retargeted (hwm : Nat) (operationId : String) (now : Option Nat) (row : Option SandboxRoute) :
    Option SandboxRoute :=
  row.bind fun current =>
    if current.deleteOperationId ≠ "" || !(current.state = .creating || current.state = .unknown) ||
        !sameSandboxRouteIncarnation current route then none
    else some { current with
      node := allocation.node
      nodeEpoch := allocation.nodeEpoch
      activityEpoch := allocation.activityEpoch
      incarnation := { current.incarnation with
        generation := max current.incarnation.generation hwm + 1
        createOperationId := operationId }
      createdAt := now
      updatedAt := now }

def retargetCreate (operationId : String) (now : Option Nat)
    : Except Raised (Store × Option SandboxRoute) :=
  match retargeted route allocation (store.generationHwm route.sandboxId) operationId now
    (store.getSandbox route.sandboxId) with
  | none => .ok (store,none)
  | some stored => (store.write stored).map (·,some stored)

structure Creates (store store' : Store) (id : String) (new : SandboxRoute) : Prop where
  own : new.sandboxId = id
  write : store.write new = .ok store'
  fresh : store.generationHwm id < new.incarnation.generation
  newer : ∀ current, store.getSandbox id = some current →
    current.incarnation.generation < new.incarnation.generation

theorem getSandbox_of_write {store store' : Store} {stored} (h : store.write stored = .ok store') :
    store'.getSandbox stored.sandboxId = some stored ∧
      ∀ k, k ≠ stored.sandboxId → store'.getSandbox k = store.getSandbox k := by
  obtain ⟨hself,hother⟩ := write_ok h
  refine ⟨?_,fun k hk => congrArg (·.route) (hother k hk)⟩
  exact (congrArg (·.route) hself).trans rfl

theorem Creates.reads {store store' : Store} {id new} (h : store.Creates store' id new) :
    store'.getSandbox id = some new ∧ ∀ k, k ≠ id → store'.getSandbox k = store.getSandbox k :=
  h.own ▸ getSandbox_of_write h.write

theorem allocateCreate_cases {store allocation specHash operationId now r}
    (h : allocateCreate store allocation specHash operationId now = .ok r) :
    r.1 = store ∧ store.getSandbox allocation.sandboxId = some r.2 ∨
      store.getSandbox allocation.sandboxId = none ∧ store.Creates r.1 allocation.sandboxId r.2 := by
  unfold allocateCreate at h
  split at h
  · next existing hc =>
    obtain ⟨-,h⟩ := of_guard h nofun
    cases h
    exact .inl ⟨rfl,hc⟩
  · next hc =>
    obtain ⟨s,hw,rfl⟩ := ok_of_map_ok h
    refine .inr ⟨hc,rfl,hw,Nat.lt_succ_self _,fun current hcur => ?_⟩
    cases hc.symm.trans hcur

theorem retargetCreate_cases {store route allocation operationId now r}
    (h : retargetCreate store route allocation operationId now = .ok r) :
    r = (store,none) ∨ store.getSandbox route.sandboxId ≠ none ∧
      ∃ new, r.2 = some new ∧ store.Creates r.1 route.sandboxId new := by
  unfold retargetCreate at h
  split at h
  · exact .inl (Except.ok.inj h).symm
  next hmove =>
  obtain ⟨s,hw,rfl⟩ := ok_of_map_ok h
  obtain ⟨current,hc,hmove⟩ := Option.bind_eq_some_iff.mp hmove
  obtain ⟨-,rfl⟩ := some_of_guard hmove
  have hid : current.sandboxId = route.sandboxId := store.getSandbox_id hc
  refine .inr ⟨by simp [hc],_,rfl,hid,hw,Nat.lt_succ_of_le (Nat.le_max_right ..),
    fun current' hcur => ?_⟩
  cases hc.symm.trans hcur
  exact Nat.lt_succ_of_le (Nat.le_max_left ..)

end Store

/-- The boots of one job that its new boot ends, with the new boot's complete inventory. -/
structure EpochRetirement where
  jobId : String
  retiredNodeEpochs : List String
  nodeEpoch : String
  activityEpoch : Nat
  inventory : Option (List SandboxInventoryEntry)
  observedAt : Option Nat

namespace EpochRetirement

def owns (r : EpochRetirement) (route : SandboxRoute) : Bool :=
  r.jobId ≠ "" && r.nodeEpoch ≠ "" && route.node.jobId = r.jobId && route.nodeEpoch ≠ "" &&
    route.nodeEpoch ≠ r.nodeEpoch && r.retiredNodeEpochs.contains route.nodeEpoch

/-- The new boot reports the exact incarnation parked. -/
def reportsParked (r : EpochRetirement) (route : SandboxRoute) : Bool :=
  (r.inventory.getD []).any fun item =>
    item.state = .parked && item.sandboxId = route.sandboxId && item.incarnation = route.incarnation

def adopt (r : EpochRetirement) (route : SandboxRoute) : SandboxRoute :=
  { route with
    state := .parked, nodeEpoch := r.nodeEpoch, activityEpoch := r.activityEpoch
    updatedAt := r.observedAt }

end EpochRetirement

namespace Store

variable (store : Store) (r : EpochRetirement)

/-- One route of `retire_node_epochs`: a recorded delete stays, a park the new boot holds moves, any
other has lost its owner. -/
def retireRoute (store : Store) (route : SandboxRoute) : Store :=
  if sandboxOwnerLossDisposition route = .terminalDelete then store
  else if h : route.workerState = .attached ∧ r.reportsParked route = true then
    store.writeSandbox ⟨r.adopt route,valid_of_attached h.1⟩
  else store.settleOwnerLost r.observedAt route

def retireNodeEpochs : Store :=
  (store.sandboxes.filter r.owns).foldl (retireRoute r) store

/-- `delete_sandboxes_for_jobs_with_error`: every route of terminated jobs has lost its owner. -/
def deleteSandboxesForJobs (jobIds : List String) (now : Option Nat) : Store :=
  (store.sandboxes.filter fun route => jobIds.contains route.node.jobId).foldl
    (settleOwnerLost now) store

def staleRoute (activeJobIds activeNodeIds : List String) (olderThan : Nat) (route : SandboxRoute) :
    Bool :=
  !activeJobIds.contains route.node.jobId && !activeNodeIds.contains route.node.nodeId &&
    (route.updatedAt <|> route.createdAt).any (· ≤ olderThan)

/-- `delete_stale_sandboxes`: so has every old enough route of no active job or node. -/
def deleteStaleSandboxes (activeJobIds activeNodeIds : List String) (olderThan : Nat)
    (now : Option Nat) : Store :=
  (store.sandboxes.filter (staleRoute activeJobIds activeNodeIds olderThan)).foldl (settleOwnerLost now)
    store

end Store

inductive RouteOp where
  | beginSandboxMigration (source : SandboxRoute) (migrationId : String) (destination : NodeIdentity)
  | advanceSandboxMigration (migrationId : String) (expected : List MigrationPhase)
      (phase : MigrationPhase) (update : MigrationUpdate)
  | routeSandboxMigration (migrationId : String) (now : Option Nat)
  | completeSandboxMigration (migrationId : String) (wakeDestination : Bool) (now : Option Nat)
  | terminalizeOrphanedSandboxMigrations
  | beginSandboxDetach (route : SandboxRoute) (now : Option Nat)
  | completeSandboxDetach (route : SandboxRoute) (now : Option Nat)
  | prepareSandboxDelete (operationId : String) (now : Option Nat)
  | deleteSandbox
  | deleteSandboxIfCurrent (generation : Nat) (deleteOperationId : String)

def RouteOp.apply (rows : RoutingRows) : RouteOp → RoutingRows
  | .beginSandboxMigration source migrationId destination =>
    match rows.beginSandboxMigration source migrationId destination with
    | .ok r => r.1
    | .error _ => rows
  | .advanceSandboxMigration migrationId expected phase update =>
    ((rows.advanceSandboxMigration migrationId expected phase update).map (·.1)).getD rows
  | .routeSandboxMigration migrationId now =>
    ((rows.routeSandboxMigration migrationId now).map (·.1)).getD rows
  | .completeSandboxMigration migrationId wakeDestination now =>
    (rows.completeSandboxMigration migrationId wakeDestination now).1
  | .terminalizeOrphanedSandboxMigrations => rows.terminalizeOrphanedSandboxMigrations
  | .beginSandboxDetach route now => (rows.beginSandboxDetach route now).1
  | .completeSandboxDetach route now => (rows.completeSandboxDetach route now).1
  | .prepareSandboxDelete operationId now => rows.prepareSandboxDelete operationId now
  | .deleteSandbox => rows.deleteSandbox
  | .deleteSandboxIfCurrent generation deleteOperationId =>
    (rows.deleteSandboxIfCurrent generation deleteOperationId).1

inductive StoreEvent where
  | reconcile (report : InventoryReport)
  | upsertSandbox (route : SandboxRoute) (allowNodeEpochAdoption : Bool) (now : Option Nat)
  | confirmSandboxObservation (route : SandboxRoute) (allowNodeEpochAdoption : Bool)
      (now : Option Nat)
  | setSandboxStateIfCurrent (route : SandboxRoute) (expectedStates : List RouteState)
      (state : RouteState) (proof : Option Store.LifecycleProof) (update : Store.SnapshotUpdate)
      (now : Option Nat)
  | confirmSandboxWake (route : SandboxRoute) (proof : Store.LifecycleProof) (now : Option Nat)
  | reserveSandboxWakes (requests : List SandboxRoute) (now : Option Nat)
  | allocateCreate (allocation : Store.SandboxRouteAllocation) (specHash operationId : String)
      (now : Option Nat)
  | retargetCreate (route : SandboxRoute) (allocation : Store.SandboxRouteAllocation)
      (operationId : String) (now : Option Nat)
  | retireNodeEpochs (retirement : EpochRetirement)
  | deleteSandboxesForJobs (jobIds : List String) (now : Option Nat)
  | deleteStaleSandboxes (activeJobIds activeNodeIds : List String) (olderThan : Nat)
      (now : Option Nat)
  | transact (id : String) (op : RouteOp)

variable (store : Store)

def Store.after {α : Type} (f : α → Store) : Except Raised α → Store
  | .error _ => store
  | .ok a => f a

/-- One transaction; it always ends, with its effect or rolled back. -/
def Store.exec : StoreEvent → Store
  | .reconcile report => store.after (·.store) (reconcileSandboxesForNode store report)
  | .upsertSandbox route allow now => store.after (·.1) (store.upsertSandbox route allow now)
  | .confirmSandboxObservation route allow now =>
    store.after (·.1) (store.confirmSandboxObservation route allow now)
  | .setSandboxStateIfCurrent route expected state proof update now =>
    store.after (·.1) (store.setSandboxStateIfCurrent route expected state proof update now)
  | .confirmSandboxWake route proof now => store.after (·.1) (store.confirmSandboxWake route proof now)
  | .reserveSandboxWakes requests now => store.after id (store.reserveSandboxWakes requests now)
  | .allocateCreate allocation specHash operationId now =>
    store.after (·.1) (store.allocateCreate allocation specHash operationId now)
  | .retargetCreate route allocation operationId now =>
    store.after (·.1) (store.retargetCreate route allocation operationId now)
  | .retireNodeEpochs r => store.retireNodeEpochs r
  | .deleteSandboxesForJobs jobIds now => store.deleteSandboxesForJobs jobIds now
  | .deleteStaleSandboxes jobs nodes olderThan now =>
    store.deleteStaleSandboxes jobs nodes olderThan now
  | .transact key op => store.after id (store.commit key (op.apply (store.rows key).toRoutingRows))

def Store.step (e : StoreEvent) : Option Store := some (store.exec e)

theorem Store.run_step (events store) :
    run Store.step store events = some (events.foldl Store.exec store) := by
  induction events generalizing store with
  | nil => rfl
  | cons e events ih => exact ih (store.exec e)

def Store.fresh : Store where
  routes := ∅
  sound := by
    intro id route h
    rw [AList.lookup_empty] at h
    cases h

section Journal
open RouteOp

def RouteOp.migrates : RouteOp → Bool
  | .beginSandboxMigration .. => true
  | .advanceSandboxMigration .. => true
  | .routeSandboxMigration .. => true
  | .completeSandboxMigration .. => true
  | .terminalizeOrphanedSandboxMigrations => true
  | _ => false

inductive JournalStep (rows : RoutingRows) : RouteOp → RoutingRows → Prop
  | kept (op : RouteOp) : JournalStep rows op rows
  | began {source current migrationId destination} :
      rows.getSandboxMigration migrationId = none → rows.activeMigrations = [] →
      rows.route = some current → current.ownedBy source.incarnation source.node = true →
      JournalStep rows (.beginSandboxMigration source migrationId destination)
        (rows.putSandboxMigration (source.plan migrationId destination))
  | advanced {m migrationId expected}
      {phase update} :
      rows.getSandboxMigration migrationId = some m → m.phase ∈ expected →
      rows.activeUnique (update.apply phase m) = true →
      JournalStep rows (.advanceSandboxMigration migrationId expected phase update)
        (rows.putSandboxMigration (update.apply phase m))
  | routed {m current snapshot}
      {migrationId now} :
      rows.getSandboxMigration migrationId = some m → m.phase = .staged →
      rows.route = some current → current.ownedBy m.incarnation m.source = true →
      RoutingRows.routeSnapshot m = some snapshot →
      JournalStep rows (.routeSandboxMigration migrationId now)
        { rows.putSandboxMigration { m with phase := .routed, error := "" } with
          route := some (m.commits snapshot now current) }
  | waking {m current migrationId now} :
      rows.getSandboxMigration migrationId = some m → m.phase = .complete →
      rows.route = some current → current.ownedBy m.incarnation m.destination = true →
      current.state = .parked →
      JournalStep rows (.completeSandboxMigration migrationId true now)
        { rows with route := some (current.reserveWake now) }
  | completed {m current migrationId wake now} :
      rows.getSandboxMigration migrationId = some m → m.phase = .activated →
      rows.route = some current → current.ownedBy m.incarnation m.destination = true →
      JournalStep rows (.completeSandboxMigration migrationId wake now)
        { rows.putSandboxMigration { m with phase := .complete, error := "" } with
          route := some (if wake then current.reserveWake now else current) }
  | closed {op} (message : String) :
      op = .terminalizeOrphanedSandboxMigrations ∨ op = .deleteSandbox → rows.route = none →
      JournalStep rows op { rows with migrations := rows.migrations.map (·.close message) }

namespace JournalStep

variable (rows : RoutingRows)

theorem of_begin (source migrationId destination) :
    JournalStep rows (.beginSandboxMigration source migrationId destination)
      ((beginSandboxMigration source migrationId destination).apply rows) := by
  dsimp only [apply]
  unfold RoutingRows.beginSandboxMigration
  cases hm : rows.getSandboxMigration migrationId with
  | some => exact .kept _
  | none =>
    by_cases hact : rows.activeMigrations = []
    · cases hroute : rows.route with
      | none =>
        simp only [hact]
        exact .kept _
      | some =>
        simp only [hact,ne_eq,not_true_eq_false,if_false]
        split
        · rename_i r h
          obtain ⟨hguard,h⟩ := Machine.of_check h nofun
          split at h <;> cases h
          obtain ⟨-,rfl⟩ := RoutingRows.writeSandboxMigration_some ‹_›
          simp only [Bool.and_eq_true] at hguard
          exact .began hm hact hroute hguard.1
        · exact .kept _
    · simp only [hact,ne_eq]
      exact .kept _

theorem of_advance (migrationId expected phase update) :
    JournalStep rows (.advanceSandboxMigration migrationId expected phase update)
      ((advanceSandboxMigration migrationId expected phase update).apply rows) := by
  dsimp only [apply]
  unfold RoutingRows.advanceSandboxMigration
  cases hm : rows.getSandboxMigration migrationId with
  | none => exact .kept _
  | some =>
    dsimp only
    split
    · rename_i m hexp
      cases hw : rows.writeSandboxMigration (update.apply phase m) with
      | none => exact .kept _
      | some =>
        obtain ⟨hone,rfl⟩ := RoutingRows.writeSandboxMigration_some hw
        exact .advanced hm (List.contains_iff_mem.mp hexp) hone
    · exact .kept _

theorem of_route (migrationId now) : JournalStep rows (.routeSandboxMigration migrationId now)
      ((routeSandboxMigration migrationId now).apply rows) := by
  dsimp only [apply]
  unfold RoutingRows.routeSandboxMigration
  split
  · rename_i m current hm hroute
    split
    · split <;> exact .kept _
    · rename_i hphase
      split
      · rename_i hown
        cases hs : RoutingRows.routeSnapshot m with
        | none => exact .kept _
        | some =>
          dsimp only
          cases hw : rows.writeSandboxMigration { m with phase := .routed, error := "" } with
          | none => exact .kept _
          | some =>
            obtain ⟨-,rfl⟩ := RoutingRows.writeSandboxMigration_some hw
            exact .routed hm hphase hroute hown hs
      · exact .kept _
    · exact .kept _
  · exact .kept _

theorem of_complete (migrationId wake now) :
    JournalStep rows (.completeSandboxMigration migrationId wake now)
      ((completeSandboxMigration migrationId wake now).apply rows) := by
  dsimp only [apply]
  unfold RoutingRows.completeSandboxMigration
  cases hm : rows.getSandboxMigration migrationId with
  | none => exact .kept _
  | some =>
    dsimp only
    split
    · rename_i current hphase hroute
      split
      · rename_i hguard
        simp only [Bool.and_eq_true,decide_eq_true_eq] at hguard
        obtain ⟨⟨rfl,hown⟩,hpk⟩ := hguard
        exact .waking hm hphase hroute hown hpk
      · exact .kept _
    · exact .kept _
    · rename_i current hphase hroute
      split
      · exact .completed hm hphase hroute ‹_›
      · exact .kept _
    · exact .kept _

end JournalStep

theorem journalStep_of_apply {rows op} (h : op.migrates = true ∨ rows.route = none) :
    JournalStep rows op (op.apply rows) := by
  have hkept : op.apply rows = rows → JournalStep rows op (op.apply rows) := by
    intro he
    rw [he]
    exact .kept op
  cases op with
  | beginSandboxMigration => exact .of_begin ..
  | advanceSandboxMigration => exact .of_advance ..
  | routeSandboxMigration => exact .of_route ..
  | completeSandboxMigration => exact .of_complete ..
  | terminalizeOrphanedSandboxMigrations =>
    obtain ⟨route,migrations⟩ := rows
    cases route with
    | some => exact .kept _
    | none => exact .closed "sandbox route is absent" (.inl rfl) rfl
  | beginSandboxDetach =>
    have hroute := h.resolve_left (by simp [migrates])
    exact hkept (by simp [apply,RoutingRows.beginSandboxDetach,hroute])
  | completeSandboxDetach =>
    have hroute := h.resolve_left (by simp [migrates])
    exact hkept (by simp [apply,RoutingRows.completeSandboxDetach,hroute])
  | prepareSandboxDelete =>
    have hroute := h.resolve_left (by simp [migrates])
    exact hkept (by simp [apply,RoutingRows.prepareSandboxDelete,hroute])
  | deleteSandbox =>
    obtain ⟨route,migrations⟩ := rows
    obtain rfl : route = none := h.resolve_left (by simp [migrates])
    exact .closed "sandbox deleted before migration completed" (.inr rfl) rfl
  | deleteSandboxIfCurrent =>
    have hroute := h.resolve_left (by simp [migrates])
    exact hkept (by simp [apply,RoutingRows.deleteSandboxIfCurrent,hroute])

end Journal

end UCloudSandboxes.Routing
