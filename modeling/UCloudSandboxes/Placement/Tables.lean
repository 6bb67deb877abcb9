import UCloudSandboxes.Machine.Table
import UCloudSandboxes.Routing.Updates

/-! Routing transactions on PostgreSQL, each on the snapshot it began with; a row commits only if
nobody else has written it since. Writes that an admission could depend on also advance the worker's
revision rows. -/
namespace UCloudSandboxes.Placement
open Machine Routing List

structure Tables where
  sandboxes : AList fun _ : String => SandboxRoute
  migrations : AList fun _ : String => SandboxMigration
  revisions : String → Nat := fun _ => 0
  routeKeyed : ∀ id route, sandboxes.lookup id = some route → route.sandboxId = id
  migrationKeyed : ∀ id m, migrations.lookup id = some m → m.migrationId = id

inductive RowWrite where
  | upsertSandbox (route : SandboxRoute)
  | updateSandbox (route : SandboxRoute)
  | deleteSandbox (id : String)
  | upsertMigration (m : SandboxMigration)
  | updateMigration (m : SandboxMigration)
  | advance (key : String)
  deriving DecidableEq

def RowWrite.route : RowWrite → Option (String × Option SandboxRoute)
  | .upsertSandbox route => some (route.sandboxId,some route)
  | .updateSandbox route => some (route.sandboxId,some route)
  | .deleteSandbox id => some (id,none)
  | _ => none

def RowWrite.migration : RowWrite → Option SandboxMigration
  | .upsertMigration m => some m
  | .updateMigration m => some m
  | _ => none

namespace Tables

def empty : Tables where
  sandboxes := ∅
  migrations := ∅
  routeKeyed id route h := by
    rw [AList.lookup_empty] at h
    cases h
  migrationKeyed id m h := by
    rw [AList.lookup_empty] at h
    cases h

variable (db : Tables) (id : String)

def putSandbox (route : SandboxRoute) : Tables :=
  { db with
    sandboxes := db.sandboxes.insert route.sandboxId route
    routeKeyed := by
      intro id r h
      obtain ⟨rfl,rfl⟩ | ⟨-,h⟩ := lookup_of_insert h
      · rfl
      · exact db.routeKeyed id r h }

def eraseSandbox : Tables :=
  { db with
    sandboxes := db.sandboxes.erase id
    routeKeyed := fun k r h => db.routeKeyed k r (lookup_of_erase h).2 }

def putMigration (m : SandboxMigration) : Tables :=
  { db with
    migrations := db.migrations.insert m.migrationId m
    migrationKeyed := by
      intro id m' h
      obtain ⟨rfl,rfl⟩ | ⟨-,h⟩ := lookup_of_insert h
      · rfl
      · exact db.migrationKeyed id m' h }

def apply : RowWrite → Tables
  | .upsertSandbox route => db.putSandbox route
  | .updateSandbox route => db.putSandbox route
  | .deleteSandbox id => db.eraseSandbox id
  | .upsertMigration m => db.putMigration m
  | .updateMigration m => db.putMigration m
  | .advance key => { db with revisions := Function.update db.revisions key (db.revisions key + 1) }

def rows : RoutingRows where
  route := db.sandboxes.lookup id
  migrations := rowsWhere db.migrations fun _ m => m.sandboxId = id

def activeMigrations : List SandboxMigration :=
  rowsWhere db.migrations fun _ m => m.sandboxId = id && m.phase ≠ .complete

def routes : List SandboxRoute := rowsWhere db.sandboxes fun _ _ => true

/-- First updater wins: the row is still the one of the snapshot. -/
def unchanged (snapshot db : Tables) : RowWrite → Bool
  | .upsertSandbox route => db.sandboxes.lookup route.sandboxId = snapshot.sandboxes.lookup route.sandboxId
  | .updateSandbox route => db.sandboxes.lookup route.sandboxId = snapshot.sandboxes.lookup route.sandboxId
  | .deleteSandbox id => db.sandboxes.lookup id = snapshot.sandboxes.lookup id
  | .upsertMigration m => db.migrations.lookup m.migrationId = snapshot.migrations.lookup m.migrationId
  | .updateMigration m => db.migrations.lookup m.migrationId = snapshot.migrations.lookup m.migrationId
  | .advance key => db.revisions key = snapshot.revisions key

/-- An upsert of a row that was deleted since the snapshot finds nothing to conflict with. -/
def inserts : RowWrite → Bool
  | .upsertSandbox route => (db.sandboxes.lookup route.sandboxId).isNone
  | .upsertMigration m => (db.migrations.lookup m.migrationId).isNone
  | _ => false

end Tables

def identityKeys (node : NodeIdentity) : List String :=
  [("node:",node.nodeId),("job:",node.jobId),("url:",rstrip (· = '/') node.nodeUrl)].filterMap fun p =>
    if p.2 = "" then none else some (p.1 ++ p.2)

/-- Running receipts refresh one row's inventory proof, which no admission reads. -/
def sameCapacityProjection (previous : Option SandboxRoute) (route : SandboxRoute) : Bool :=
  previous.any fun p =>
    { p with
      updatedAt := route.updatedAt
      activityEpoch :=
        if p.state = route.state ∧ route.state = .running then route.activityEpoch
        else p.activityEpoch } = route

def endedMigration (error : String) (m : SandboxMigration) : SandboxMigration :=
  { m with phase := .complete, error := if m.error = "" then error else m.error }

/-- A transaction at work: its view, the revisions advanced and the rows written. -/
structure Tx (snapshot : Tables) where
  view : Tables
  touched : List String
  writes : List RowWrite
  viewed : view = writes.foldl Tables.apply snapshot
  recorded : ∀ key ∈ touched, .advance key ∈ writes

namespace Tx
variable {snapshot : Tables}

def start (snapshot : Tables) : Tx snapshot := ⟨snapshot,[],[],rfl,nofun⟩

variable (tx : Tx snapshot) (route : SandboxRoute) (call : InventoryCall)

def write (w : RowWrite) : Tx snapshot where
  view := tx.view.apply w
  touched := tx.touched
  writes := tx.writes ++ [w]
  viewed := by rw [foldl_append,← tx.viewed]; rfl
  recorded key h := mem_append_left _ (tx.recorded key h)

def advance (key : String) : Tx snapshot :=
  if tx.touched.contains key then tx
  else { tx.write (.advance key) with
    touched := key :: tx.touched
    recorded := by
      intro k hk
      rcases mem_cons.mp hk with rfl | hk
      · exact mem_append_right _ (.head _)
      · exact mem_append_left _ (tx.recorded k hk) }

def capacityFence (identities : List NodeIdentity) : Tx snapshot :=
  (identities.flatMap identityKeys).foldl advance tx

def writeSandbox : Tx snapshot :=
  let previous := tx.view.sandboxes.lookup route.sandboxId
  let fenced :=
    if sameCapacityProjection previous route then tx
    else tx.capacityFence (route.node :: previous.toList.map (·.node))
  fenced.write (.upsertSandbox route)

def writeSandboxLifecycle : Tx snapshot :=
  let previous := tx.view.sandboxes.lookup route.sandboxId
  let fenced := if sameCapacityProjection previous route then tx else tx.capacityFence [route.node]
  fenced.write (.updateSandbox route)

def writeSandboxMigration (m : SandboxMigration) : Tx snapshot :=
  (tx.capacityFence [m.source,m.destination]).write (.upsertMigration m)

/-- The journals of a removed sandbox end in a statement of their own. -/
def endMigrations (id error : String) : Tx snapshot :=
  (tx.view.activeMigrations id).foldl
    (fun tx m => tx.write (.updateMigration (endedMigration error m))) tx

def deleteSandboxUnlocked : Tx snapshot :=
  let tx := tx.capacityFence [route.node]
  match tx.view.sandboxes.lookup route.sandboxId with
  | none => tx
  | some current =>
    if current.incarnation = route.incarnation then
      (tx.write (.deleteSandbox route.sandboxId)).endMigrations route.sandboxId
        "sandbox deleted before migration completed"
    else tx

/-- The same by id; journals of an id without a route end as well. -/
def deleteSandbox (id : String) : Tx snapshot :=
  match tx.view.sandboxes.lookup id with
  | some existing => tx.deleteSandboxUnlocked existing
  | none => tx.endMigrations id "sandbox deleted before migration completed"

/-- Rows a transaction on one sandbox changed go through the writers of their tables. -/
def store (before after : RoutingRows) : Tx snapshot :=
  let routed :=
    match after.route with
    | none => tx
    | some route => if before.route = some route then tx else tx.writeSandbox route
  (after.migrations.filter fun m => !before.migrations.contains m).foldl writeSandboxMigration routed

def transact (id : String) : RouteOp → Tx snapshot
  | .beginSandboxMigration source migrationId destination =>
    -- an id in the journal is returned as it is
    if migrationId ∈ tx.view.migrations || source.sandboxId ≠ id then tx
    else tx.store (tx.view.rows id)
      ((RouteOp.beginSandboxMigration source migrationId destination).apply (tx.view.rows id))
  | .deleteSandbox => tx.deleteSandbox id
  | .deleteSandboxIfCurrent generation deleteOperationId =>
    match ((tx.view.rows id).deleteSandboxIfCurrent generation deleteOperationId).2 with
    | some existing => tx.deleteSandboxUnlocked existing
    | none => tx
  | .terminalizeOrphanedSandboxMigrations =>
    if (tx.view.sandboxes.lookup id).isSome then tx
    else tx.endMigrations id "sandbox route is absent"
  | op => tx.store (tx.view.rows id) (op.apply (tx.view.rows id))

def reserveSandboxWake (now : Option Nat) (tx : Tx snapshot) (route : SandboxRoute) : Tx snapshot :=
  match (tx.view.sandboxes.lookup route.sandboxId).filter (Store.wakes route) with
  | none => tx
  | some current => tx.write (.updateSandbox (current.reserveWake now))

def reserveSandboxWakes (requests : List SandboxRoute) (now : Option Nat) : Tx snapshot :=
  requests.foldl (reserveSandboxWake now) (tx.capacityFence (requests.map (·.node)))

/-- `allocate_sandbox_create_with_pending`: a route of a new incarnation, or the one that exists. -/
def allocateCreate (allocation : Store.SandboxRouteAllocation) (incarnation : Incarnation)
    (now : Option Nat) : Except Raised (Tx snapshot) :=
  match tx.view.sandboxes.lookup allocation.sandboxId with
  | some existing =>
    if existing.incarnation.specHash ≠ incarnation.specHash then
      .error (.valueError "sandbox route already exists with a different spec")
    else .ok tx
  | none => .ok (tx.writeSandbox (allocation.creating incarnation now))

/-- Store what a transaction decided on a sandbox's row, if anything. -/
def storeDecided (stored : Option SandboxRoute) : Except Raised (Tx snapshot) :=
  match stored with
  | none => .ok tx
  | some stored => stored.build.map fun stored => tx.writeSandbox stored.val

def setSandboxStateIfCurrent (expectedStates : List RouteState) (state : RouteState)
    (proof : Option Store.LifecycleProof) (update : Store.SnapshotUpdate) (now : Option Nat)
    : Except Raised (Tx snapshot) :=
  (Store.stateIfCurrent route expectedStates state proof update now
    (tx.view.sandboxes.lookup route.sandboxId)).bind fun
      | none => .ok tx
      | some stored => stored.build.map fun stored => tx.writeSandboxLifecycle stored.val

/-- One entry of an inventory. A watermark is an update of the row alone. -/
def observeEntry (tx : Tx snapshot) (item : SandboxInventoryEntry) : Except Raised (Tx snapshot) :=
  (accepted call item (tx.view.sandboxes.lookup item.sandboxId)).map fun
    | none => tx
    | some (existing,candidate,_) =>
      if onlyWatermark existing candidate.val then tx.write (.updateSandbox candidate.val)
      else tx.writeSandbox candidate.val

/-- A route whose owner is lost: a published park is detached, any other route is deleted. -/
def settleOwnerLost (observedAt : Option Nat) (tx : Tx snapshot) (route : SandboxRoute) : Tx snapshot :=
  if sandboxOwnerLossDisposition route = .recoverDetached then
    tx.writeSandbox (detachOwnerLostRoute route observedAt)
  else tx.deleteSandboxUnlocked route

def absentRoutes (reported : List String) : List SandboxRoute :=
  tx.view.routes.filter fun route =>
    route.node.nodeUrl = call.node.nodeUrl && !reported.contains route.sandboxId &&
      !absenceKeeps call route

/-- `reconcile_sandboxes_for_node`, which advances its worker's revisions last. -/
def reconcile (report : InventoryReport) : Except Raised (Tx snapshot) :=
  if !report.exact then .error (.valueError "sandbox inventory requires exact node identity")
  else (report.observations.foldlM (observeEntry report.toInventoryCall) tx).map fun observed =>
    ((observed.absentRoutes report.toInventoryCall report.reportedIds).foldl
      (settleOwnerLost report.observedAt) observed).capacityFence [report.node]

def retireRoute (r : EpochRetirement) (tx : Tx snapshot) (route : SandboxRoute) : Tx snapshot :=
  if sandboxOwnerLossDisposition route = .terminalDelete then tx
  else if route.workerState = .attached && r.reportsParked route then
    tx.writeSandbox (r.adopt route)
  else tx.settleOwnerLost r.observedAt route

end Tx

abbrev PlacementOp := StoreEvent

namespace PlacementOp

/-- `hwm` is the generation that a new incarnation of the sandbox comes after. -/
def run {snapshot : Tables} (tx : Tx snapshot) (hwm : Nat) : PlacementOp → Except Raised (Tx snapshot)
  | .reconcile report => tx.reconcile report
  | .upsertSandbox route allow now => tx.storeDecided
      (Store.upserted route allow now (tx.view.sandboxes.lookup route.sandboxId)).toOption
  | .confirmSandboxObservation route allow now => tx.storeDecided
      (((tx.view.sandboxes.lookup route.sandboxId).filter (Store.receipted route)).bind fun current =>
        (Store.upserted route allow now (some current)).toOption)
  | .setSandboxStateIfCurrent route expected state proof update now =>
    tx.setSandboxStateIfCurrent route expected state proof update now
  | .confirmSandboxWake route proof now => tx.setSandboxStateIfCurrent route
      [.parked,.waking,.running] .running (some proof) (.woken route) now
  | .reserveSandboxWakes requests now => .ok (tx.reserveSandboxWakes requests now)
  | .allocateCreate allocation specHash operationId now =>
    tx.allocateCreate allocation ⟨hwm + 1,operationId,specHash⟩ now
  | .retargetCreate route allocation operationId now => tx.storeDecided
      (Store.retargeted route allocation hwm operationId now
        (tx.view.sandboxes.lookup route.sandboxId))
  | .retireNodeEpochs r => .ok ((tx.view.routes.filter r.owns).foldl (Tx.retireRoute r) tx)
  | .deleteSandboxesForJobs jobIds now =>
    .ok ((tx.view.routes.filter fun route => jobIds.contains route.node.jobId).foldl
      (Tx.settleOwnerLost now) tx)
  | .deleteStaleSandboxes jobs nodes olderThan now =>
    .ok ((tx.view.routes.filter (Store.staleRoute jobs nodes olderThan)).foldl (Tx.settleOwnerLost now) tx)
  | .transact id op => .ok (tx.transact id op)

/-- Transactions that placements run under REPEATABLE READ; the others stay SERIALIZABLE. -/
def snapshotOnly : PlacementOp → Bool
  | .reserveSandboxWakes .. => true
  | .allocateCreate .. => true
  | .transact _ (.beginSandboxMigration ..) => true
  | .transact _ (.advanceSandboxMigration ..) => true
  | .transact _ (.routeSandboxMigration ..) => true
  | .transact _ (.completeSandboxMigration ..) => true
  | _ => false

/-- The workers a transaction admits a sandbox onto, by the snapshot it decides on. -/
def admits (db : Tables) : PlacementOp → List NodeIdentity
  | .reserveSandboxWakes requests _ =>
    (requests.filter fun r => (db.sandboxes.lookup r.sandboxId).any fun current =>
      current.state = .parked && sameSandboxRouteIncarnation current r).map (·.node)
  | .allocateCreate allocation .. =>
    if allocation.sandboxId ∈ db.sandboxes then [] else [allocation.node]
  | .transact id (.beginSandboxMigration source migrationId destination) =>
    match (db.rows id).beginSandboxMigration source migrationId destination with
    | .ok _ => if migrationId ∈ db.migrations || source.sandboxId ≠ id then [] else [destination]
    | .error _ => []
  | .transact id (.completeSandboxMigration migrationId true _) =>
    match (db.rows id).getSandboxMigration migrationId with
    | some m =>
      if (m.phase = .activated &&
          (db.sandboxes.lookup id).any (·.ownedBy m.incarnation m.destination)) ||
        (m.phase = .complete && (db.sandboxes.lookup id).any fun current =>
          current.ownedBy m.incarnation m.destination && current.state = .parked)
      then [m.destination] else []
    | none => []
  | _ => []

/-- The sandboxes whose route or orphaned journals a transaction may remove. -/
def releases (db : Tables) : PlacementOp → List String
  | .transact id .deleteSandbox => [id]
  | .transact id (.deleteSandboxIfCurrent ..) => [id]
  | .transact id .terminalizeOrphanedSandboxMigrations => [id]
  | .reconcile report => (db.routes.filter fun route =>
      route.node.nodeUrl = report.node.nodeUrl && !report.reportedIds.contains route.sandboxId).map
        (·.sandboxId)
  | .retireNodeEpochs r => (db.routes.filter r.owns).map (·.sandboxId)
  | .deleteSandboxesForJobs jobIds _ =>
    (db.routes.filter fun route => jobIds.contains route.node.jobId).map (·.sandboxId)
  | .deleteStaleSandboxes jobs nodes olderThan _ =>
    (db.routes.filter (Store.staleRoute jobs nodes olderThan)).map (·.sandboxId)
  | _ => []

end PlacementOp

/-- No active migration leads the sandbox to another worker than the one that has its route. -/
def Tables.settled (db : Tables) (id : String) : Bool :=
  (db.activeMigrations id).all fun m =>
    (db.sandboxes.lookup id).any fun route => route.node = m.destination

structure Attempt where
  seen : Nat
  snapshot : Tables

/-- A committed transaction: the commits it had seen, its snapshot, and the tables around it. -/
structure Committed where
  seen : Nat
  op : PlacementOp
  snapshot : Tables
  before : Tables
  after : Tables
  touched : List String

structure PlacementSystem where
  db : Tables
  attempts : AList fun _ : Nat => Attempt
  log : List Committed

inductive PlacementEvent where
  | begin (t : Nat)
  | commit (t : Nat) (op : PlacementOp) (hwm : Nat)
  | abort (t : Nat)

namespace PlacementSystem

def start : PlacementSystem := ⟨.empty,∅,[]⟩

/-- Every row written is unwritten since the snapshot, or gone. A SERIALIZABLE transaction does not
insert a deleted row it has read. -/
def mayCommit (snapshot db : Tables) (op : PlacementOp) (writes : List RowWrite) : Bool :=
  writes.all fun w => snapshot.unchanged db w || op.snapshotOnly && db.inserts w

def step (s : PlacementSystem) : PlacementEvent → Option PlacementSystem
  | .begin t =>
    if t ∈ s.attempts then none
    else some { s with attempts := s.attempts.insert t ⟨s.log.length,s.db⟩ }
  | .commit t op hwm =>
    (s.attempts.lookup t).map fun a =>
      match op.run (Tx.start a.snapshot) hwm with
      | .error _ => { s with attempts := s.attempts.erase t }
      | .ok tx =>
        if mayCommit a.snapshot s.db op tx.writes then
          let after := tx.writes.foldl Tables.apply s.db
          { db := after, attempts := s.attempts.erase t
            log := s.log ++ [⟨a.seen,op,a.snapshot,s.db,after,tx.touched⟩] }
        else { s with attempts := s.attempts.erase t }
  | .abort t => some { s with attempts := s.attempts.erase t }

end PlacementSystem

end UCloudSandboxes.Placement
