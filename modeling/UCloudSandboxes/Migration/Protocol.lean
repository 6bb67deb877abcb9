import UCloudSandboxes.Registry.Handlers
import UCloudSandboxes.Routing.Migration

/-! One migration: gateway threads with their own copies of the journal entry, calls that execute
late or lose their answers, and the two registries. -/
namespace UCloudSandboxes.Migration
open Routing Registry

/-- A move of one sandbox between two workers; placement never selects the source again. -/
structure Move where
  migrationId : String
  source : NodeIdentity
  destination : NodeIdentity
  distinct : source ≠ destination

/-- What a gateway thread does next, with the journal copy it holds. -/
inductive Task where
  | advance (m : SandboxMigration)
  | abort (m : SandboxMigration)
  | abortSource (m : SandboxMigration)
  deriving DecidableEq

inductive Call where
  | prepare (m : SandboxMigration)
  | stage (m : SandboxMigration)
  | activate (m : SandboxMigration)
  | finalize (m : SandboxMigration)
  | abortImport (m : SandboxMigration)
  | abortSource (m : SandboxMigration)
  | delete (route : SandboxRoute)
  deriving DecidableEq

structure Answer where
  call : Call
  snapshot : StorageNativeMigration
  deriving DecidableEq

structure State where
  routing : RoutingRows
  sourceRows : SandboxRows
  destinationRows : SandboxRows
  tasks : List Task := []
  calls : List Call := []
  orphans : List Call := []
  answers : List Answer := []
  routeCommitted : Bool := false
  sourceReleased : Bool := false
  deriving DecidableEq

inductive Event where
  | «begin» (read : SandboxRoute)
  | drive
  | cancel
  | resolve
  | run (t : Task) (referencesHeld : Bool) (now : Option Nat)
  | serve (c : Call) (snapshot : StorageNativeMigration) (capacityExhausted : Bool)
  | answer (c : Call) (snapshot : StorageNativeMigration)
  | fail (c : Call) (detail : String)
  | timeout (c : Call) (detail : String)
  | lose (a : Answer) (detail : String)
  | receive (a : Answer) (wake : Bool) (now : Option Nat)
  | prepareDelete (operationId : String) (now : Option Nat)
  | dispatchDelete
  | deleteDetached
  | terminalizeOrphans
  deriving DecidableEq

namespace State

variable (s : State) (mv : Move)

def journal : Option SandboxMigration :=
  s.routing.getSandboxMigration mv.migrationId

def moveJournal (m : SandboxMigration) (phase : MigrationPhase) (error : String) : State :=
  match s.routing.advanceSandboxMigration mv.migrationId [m.phase] phase { error := some error } with
  | some (rows, _) => { s with routing := rows }
  | none => s

/-- `_record_migration_error`: only the error column of an unmoved journal changes. -/
def recordError (m : SandboxMigration) (detail : String) : State :=
  s.moveJournal mv m m.phase detail

/-- Move the journal and go on with the stored copy; a lost race ends this pass. -/
def advanceTo (expected phase : MigrationPhase) (update : MigrationUpdate) : State :=
  match s.routing.advanceSandboxMigration mv.migrationId [expected] phase update with
  | some (rows, m) => { s with routing := rows, tasks := .advance m :: s.tasks }
  | none => s

def send (c : Call) : State := { s with calls := c :: s.calls }

def spawn (t : Task) : State := { s with tasks := t :: s.tasks }

def rowsOf : Call → SandboxRows
  | .prepare _ | .finalize _ | .abortSource _ => s.sourceRows
  | .stage _ | .activate _ | .abortImport _ => s.destinationRows
  | .delete route => if route.node = mv.source then s.sourceRows else s.destinationRows

def setRows (rows : SandboxRows) : Call → State
  | .prepare _ | .finalize _ => { s with sourceRows := rows }
  | .abortSource _ => { s with sourceRows := rows, sourceReleased := true }
  | .stage _ | .activate _ | .abortImport _ => { s with destinationRows := rows }
  | .delete route =>
    if route.node = mv.source then { s with sourceRows := rows } else { s with destinationRows := rows }

end State

def portableSnapshotForRoute (route : SandboxRoute) : Option StorageNativeMigration :=
  if isPortableParkedRoute route then
    match route.snapshot.storageSnapshot.fromDict with
    | none => none
    | some d =>
      if d.sandboxId = route.sandboxId && d.incarnation = route.incarnation &&
          d.reference.manifestDigest = route.snapshot.manifestDigest &&
          d.reference.repository = route.snapshot.repository && d.reference.tag = route.snapshot.tag
      then some d else none
  else none

variable (mv : Move) (s : State) (m : SandboxMigration) (referencesHeld : Bool)

def importCandidate : Registration where
  sandboxGeneration := m.incarnation.generation
  operationId := m.incarnation.createOperationId
  specSha256 := m.incarnation.specHash
  runtimeCompatibilitySha256 := ""
  phase := .importPlanned

def handle (rows : SandboxRows) (c : Call) (snapshot : StorageNativeMigration)
    (capacityExhausted : Bool) : Served :=
  match c with
  | .prepare _ => prepareStorageNativeMove rows ⟨mv.migrationId,snapshot.sha256⟩
  | .stage m =>
    stageStorageNativeImport rows (importCandidate m) ⟨mv.migrationId,m.snapshotSha256⟩ capacityExhausted
  | .activate m => activateMigration rows ⟨mv.migrationId,m.snapshotSha256⟩
  | .finalize m => finalizeMovedSource rows ⟨mv.migrationId,m.snapshotSha256⟩
  | .abortImport m => Registry.abortImport rows ⟨mv.migrationId,m.snapshotSha256⟩
  | .abortSource m => abortMove rows ⟨mv.migrationId,m.snapshotSha256⟩
  | .delete route => Registry.deleteSandbox rows route.incarnation.generation

/-- `_advance_sandbox_migration`, one phase at a time: write the store or send the phase's call. -/
def runAdvance (now : Option Nat) : State :=
  match m.phase with
  | .planned =>
    match s.routing.route with
    | none => s.recordError mv m "migration source route disappeared"
    | some route =>
      match route.workerState with
      | .detached =>
        match portableSnapshotForRoute route with
        | none => s.recordError mv m "detached route has no valid published snapshot"
        | some d => s.advanceTo mv .planned .prepared
            { storageSchema := some d.schema, snapshotSha256 := some d.sha256,
              storageSnapshot := some (.descriptor d), sourceFenced := some false, error := some "" }
      | .attached => s.send (.prepare m)
      | .detaching => s.recordError mv m "migration source is still detaching"
  | .prepared =>
    if supportedStorageNativeMigrationSchemas.contains m.storageSchema then s.send (.stage m)
    else s.recordError mv m "migration is missing storage-native metadata"
  | .staged =>
    -- The destination's registry references are taken before routing may point at it.
    if m.storageSnapshot.fromDict.isNone || s.routing.route.isNone || !referencesHeld then
      s.recordError mv m "destination registry references could not be persisted"
    else match s.routing.routeSandboxMigration mv.migrationId now with
      | none => s.recordError mv m "sandbox route changed before migration commit"
      | some (rows, m', _) =>
        { s with routing := rows, tasks := .advance m' :: s.tasks, routeCommitted := true }
  | .routed => s.send (.activate m)
  | .activated =>
    if m.sourceFenced then s.send (.finalize m)
    else { s with routing := (s.routing.completeSandboxMigration mv.migrationId false now).1 }
  | .complete => s

/-- `_abort_sandbox_migration`: the destination's staged copy first, then the source's fence. -/
def runTask (now : Option Nat) : Task → State
  | .advance m => runAdvance mv s m referencesHeld now
  | .abort m =>
    if m.phase = .prepared || m.phase = .staged then s.send (.abortImport m)
    else s.send (.abortSource m)
  | .abortSource m => s.send (.abortSource m)

def runAnswer (wake : Bool) (now : Option Nat) (a : Answer) : State :=
  match a.call with
  | .prepare m =>
    if supportedStorageNativeMigrationSchemas.contains a.snapshot.schema then
      s.advanceTo mv .planned .prepared
        { storageSchema := some a.snapshot.schema, snapshotSha256 := some a.snapshot.sha256,
          storageSnapshot := some (.descriptor a.snapshot), sourceFenced := some true,
          error := some "" }
    else s.recordError mv m "source returned invalid snapshot"
  | .stage m =>
    if a.snapshot.schema = m.storageSchema && a.snapshot.sandboxId = m.sandboxId &&
        a.snapshot.incarnation = m.incarnation then
      s.advanceTo mv .prepared .staged
        { storageSnapshot := some (.descriptor a.snapshot), error := some "" }
    else s.recordError mv m "destination returned invalid snapshot"
  | .activate _ => s.advanceTo mv .routed .activated { error := some "" }
  | .finalize _ => { s with routing := (s.routing.completeSandboxMigration mv.migrationId wake now).1 }
  | .abortImport m => s.spawn (.abortSource m)
  | .abortSource m => s.moveJournal mv m .complete "cancelled before route commit"
  | .delete route =>
    { s with
      routing := (s.routing.deleteSandboxIfCurrent route.incarnation.generation route.deleteOperationId).1 }

/-- The caller records a failed call; a delete's caller keeps no journal. -/
def failCall (c : Call) (detail : String) : State :=
  match c with
  | .prepare m | .stage m | .activate m | .finalize m | .abortImport m | .abortSource m =>
    s.recordError mv m detail
  | .delete _ => s

def abortable : Bool :=
  m.phase = .planned || m.phase = .prepared || m.phase = .staged

def step : Event → Option State
  | .begin read =>
    match s.routing.beginSandboxMigration read mv.migrationId mv.destination with
    | .ok (rows, m) => some { s with routing := rows, tasks := .advance m :: s.tasks }
    | .error _ => none
  | .drive => (s.journal mv).map fun m => s.spawn (.advance m)
  | .cancel => (s.journal mv).bind fun m => if abortable m then some (s.spawn (.abort m)) else none
  | .resolve => (s.journal mv).bind fun m =>
    if m.phase = .complete then none
    else if abortable m then some (s.spawn (.abort m)) else some (s.spawn (.advance m))
  | .run t referencesHeld now =>
    if t ∈ s.tasks then some (runTask mv { s with tasks := s.tasks.erase t } referencesHeld now t)
    else none
  | .serve c snapshot capacityExhausted =>
    if c ∈ s.calls ∨ c ∈ s.orphans then
      match handle mv (s.rowsOf mv c) c snapshot capacityExhausted with
      | .progress rows => some (s.setRows mv rows c)
      | _ => none
    else none
  | .answer c snapshot =>
    if c ∈ s.calls ∧ handle mv (s.rowsOf mv c) c snapshot false = .done then
      some { s with calls := s.calls.erase c, answers := ⟨c,snapshot⟩ :: s.answers }
    else none
  | .fail c detail =>
    if c ∈ s.calls then some (failCall mv { s with calls := s.calls.erase c } c detail) else none
  | .timeout c detail =>
    if c ∈ s.calls then
      some (failCall mv { s with calls := s.calls.erase c, orphans := c :: s.orphans } c detail)
    else none
  | .lose a detail =>
    if a ∈ s.answers then some (failCall mv { s with answers := s.answers.erase a } a.call detail)
    else none
  | .receive a wake now =>
    if a ∈ s.answers then some (runAnswer mv { s with answers := s.answers.erase a } wake now a)
    else none
  | .prepareDelete operationId now =>
    some { s with routing := s.routing.prepareSandboxDelete operationId now }
  | .dispatchDelete => s.routing.route.bind fun route =>
    if route.deleteOperationId ≠ "" && route.workerState = .attached then some (s.send (.delete route))
    else none
  | .deleteDetached => s.routing.route.bind fun route =>
    if route.deleteOperationId ≠ "" && route.workerState = .detached then
      some { s with routing := (s.routing.deleteSandboxIfCurrent route.incarnation.generation
        route.deleteOperationId).1 }
    else none
  | .terminalizeOrphans => some { s with routing := s.routing.terminalizeOrphanedSandboxMigrations }

/-- Before the migration: the route names the source, or is detached without a registration, and the
destination does not own the sandbox. -/
def Start : Prop :=
  ∃ route, s.routing.route = some route ∧ route.node = mv.source ∧
    (route.workerState = .detached → s.sourceRows.phase? = none ∨ s.sourceRows.phase? = some .deleting) ∧
    s.journal mv = none ∧ s.destinationRows.phase? ≠ some .owned ∧ s.tasks = [] ∧ s.calls = [] ∧
    s.orphans = [] ∧ s.answers = [] ∧ s.routeCommitted = false ∧ s.sourceReleased = false

def AtMostOneOwner : Prop :=
  ¬ (s.sourceRows.phase? = some .owned ∧ s.destinationRows.phase? = some .owned)

/-- While the route names the destination of a fenced migration its source cannot start. -/
def SourceStaysFenced : Prop :=
  ∀ m route, s.journal mv = some m → m.sourceFenced = true → s.routing.route = some route →
    route.node = m.destination →
      s.sourceRows.movingOutUnder mv.migrationId = true ∨ s.sourceRows.phase? = some .deleting ∨
        s.sourceRows.phase? = none

end UCloudSandboxes.Migration
