import Mathlib.Data.Rat.Defs

/-! The gateway's durable route of one sandbox, its constructor's check, and the owner-loss
classification. -/
namespace UCloudSandboxes.Routing
open List

/-- Route states; a stored text outside the gateway's own vocabulary is kept as it is. -/
inductive RouteState where
  | creating
  | running
  | parked
  | waking
  | unknown
  | other (text : String)
  deriving DecidableEq

inductive WorkerState where
  | attached
  | detaching
  | detached
  deriving DecidableEq

/-- The exact worker a route names. URLs are compared in their normalised form. -/
structure NodeIdentity where
  nodeId : String
  jobId : String
  nodeUrl : String
  deriving DecidableEq

/-- Generation, create operation and spec digest tell one incarnation of an id from another. -/
structure Incarnation where
  generation : Nat
  createOperationId : String
  specHash : String
  deriving DecidableEq

structure ResourceQuantity where
  vcpu : Rat := 0
  memoryMb : Nat := 0
  diskMb : Nat := 0
  deriving DecidableEq

structure SnapshotReference where
  manifestDigest : String
  repository : String
  tag : String
  deriving DecidableEq

/-- A migration descriptor the parser accepts. A split checkpoint is referenced by its own
publication. -/
structure StorageNativeMigration where
  schema : String
  sandboxId : String
  incarnation : Incarnation
  publication : SnapshotReference
  checkpointPublication : Option SnapshotReference := none
  sha256 : String
  deriving DecidableEq

def StorageNativeMigration.reference (d : StorageNativeMigration) : SnapshotReference :=
  d.checkpointPublication.getD d.publication

/-- A JSON object offered as a descriptor: empty, accepted, or rejected (maybe with a
`publication`). -/
inductive SnapshotObject where
  | empty
  | descriptor (migration : StorageNativeMigration)
  | malformed (publication : Option SnapshotReference)
  deriving DecidableEq

namespace SnapshotObject

def isEmpty : SnapshotObject → Bool
  | .empty => true
  | _ => false

/-- `StorageNativeMigration.from_dict`; `none` is its `ValueError`. -/
def fromDict : SnapshotObject → Option StorageNativeMigration
  | .descriptor d => some d
  | _ => none

def publication : SnapshotObject → Option SnapshotReference
  | .empty => none
  | .descriptor d => some d.publication
  | .malformed p => p

end SnapshotObject

structure SnapshotColumns where
  storageSchema : String := ""
  manifestDigest : String := ""
  repository : String := ""
  tag : String := ""
  storageSnapshot : SnapshotObject := .empty
  deriving DecidableEq

structure SandboxRoute where
  sandboxId : String
  node : NodeIdentity
  resources : ResourceQuantity
  state : RouteState
  incarnation : Incarnation
  deleteOperationId : String := ""
  nodeEpoch : String := ""
  activityEpoch : Nat := 0
  workerState : WorkerState := .attached
  snapshot : SnapshotColumns := {}
  createdAt : Option Nat := none
  updatedAt : Option Nat := none
  deriving DecidableEq

def storageNativeMigrationSchema : String := "storage-native-v1"

def splitMigrationSchema : String := "storage-native-v3"

def supportedStorageNativeMigrationSchemas : List String :=
  [storageNativeMigrationSchema, splitMigrationSchema]

def SnapshotColumns.isPublished (c : SnapshotColumns) : Bool :=
  supportedStorageNativeMigrationSchemas.contains c.storageSchema && !c.storageSnapshot.isEmpty &&
    c.manifestDigest ≠ "" && c.repository ≠ "" && c.tag ≠ ""

variable (route : SandboxRoute)

def isPortableParkedRoute : Bool :=
  route.state = .parked && route.snapshot.isPublished

/-- The part of `_validate_sandbox_route_identity` that an update of lifecycle columns can break. -/
def SandboxRoute.valid : Bool :=
  route.workerState = .attached || isPortableParkedRoute route

inductive OwnerLossDisposition where
  | recoverDetached
  | terminalReplace
  | terminalDelete
  deriving DecidableEq

/-- Every route is classified exactly once when its worker owner is lost. -/
def sandboxOwnerLossDisposition : OwnerLossDisposition :=
  if route.deleteOperationId ≠ "" then .terminalDelete
  else if isPortableParkedRoute route then .recoverDetached
  else .terminalReplace

/-- `_same_sandbox_route_incarnation`: one incarnation of one id on one worker. -/
def sameSandboxRouteIncarnation (existing candidate : SandboxRoute) : Bool :=
  existing.sandboxId = candidate.sandboxId && existing.incarnation = candidate.incarnation &&
    existing.node = candidate.node

/-- `_detach_owner_lost_route_unlocked`: the published park outlives its worker. -/
def detachOwnerLostRoute (updatedAt : Option Nat) : SandboxRoute :=
  { route with workerState := .detached, nodeEpoch := "", activityEpoch := 0, updatedAt := updatedAt }

theorem valid_of_attached {route : SandboxRoute} (h : route.workerState = .attached) :
    route.valid = true := by
  simp [SandboxRoute.valid,h]

theorem sameSandboxRouteIncarnation_iff {existing candidate} :
    sameSandboxRouteIncarnation existing candidate = true ↔
      existing.sandboxId = candidate.sandboxId ∧ existing.incarnation = candidate.incarnation ∧
        existing.node = candidate.node := by
  simp [sameSandboxRouteIncarnation,and_assoc]

inductive MigrationPhase where
  | planned
  | prepared
  | staged
  | routed
  | activated
  | complete
  deriving DecidableEq

structure SandboxMigration where
  migrationId : String
  sandboxId : String
  phase : MigrationPhase
  source : NodeIdentity
  destination : NodeIdentity
  incarnation : Incarnation
  storageSchema : String := ""
  snapshotSha256 : String := ""
  storageSnapshot : SnapshotObject := .empty
  sourceFenced : Bool := false
  error : String := ""
  deriving DecidableEq

/-- An active journal ends; its own error is kept. -/
def SandboxMigration.close (message : String) (m : SandboxMigration) : SandboxMigration :=
  if m.phase = .complete then m
  else { m with phase := .complete, error := if m.error = "" then message else m.error }

/-- The routing store's rows of one sandbox id: its route and its migration journal. -/
structure RoutingRows where
  route : Option SandboxRoute := none
  migrations : List SandboxMigration := []
  deriving DecidableEq

/-- Columns `advance_sandbox_migration` replaces when they are supplied. -/
structure MigrationUpdate where
  storageSchema : Option String := none
  snapshotSha256 : Option String := none
  storageSnapshot : Option SnapshotObject := none
  sourceFenced : Option Bool := none
  error : Option String := none

def MigrationUpdate.apply (update : MigrationUpdate) (phase : MigrationPhase) (m : SandboxMigration) :
    SandboxMigration :=
  { m with
    phase
    storageSchema := update.storageSchema.getD m.storageSchema
    snapshotSha256 := update.snapshotSha256.getD m.snapshotSha256
    storageSnapshot := update.storageSnapshot.getD m.storageSnapshot
    sourceFenced := update.sourceFenced.getD m.sourceFenced
    error := update.error.getD m.error }

def SandboxRoute.reserveWake (now : Option Nat) (route : SandboxRoute) : SandboxRoute :=
  { route with state := .waking, updatedAt := now }

def SandboxRoute.plan (source : SandboxRoute) (migrationId : String) (destination : NodeIdentity) :
    SandboxMigration :=
  { migrationId, sandboxId := source.sandboxId, phase := .planned, source := source.node,
    destination, incarnation := source.incarnation }

def SandboxMigration.commits (m : SandboxMigration) (snapshot : SnapshotColumns)
    (now : Option Nat) (current : SandboxRoute) : SandboxRoute :=
  { current with
    node := m.destination, state := .parked, nodeEpoch := "", activityEpoch := 0
    workerState := .attached, snapshot, updatedAt := now }

/-- The route is this incarnation on this worker and no delete is recorded on it. -/
def SandboxRoute.ownedBy (route : SandboxRoute) (incarnation : Incarnation) (node : NodeIdentity) :
    Bool :=
  route.incarnation = incarnation && route.node = node && route.deleteOperationId = ""

namespace RoutingRows

section
variable (rows : RoutingRows) (migrationId : String)

def getSandboxMigration : Option SandboxMigration :=
  rows.migrations.find? (·.migrationId = migrationId)

def putSandboxMigration (m : SandboxMigration) : RoutingRows :=
  { rows with
    migrations :=
      if rows.migrations.any (·.migrationId = m.migrationId) then
        rows.migrations.map fun old => if old.migrationId = m.migrationId then m else old
      else rows.migrations ++ [m] }

def activeMigrations : List SandboxMigration :=
  rows.migrations.filter (·.phase ≠ .complete)

/-- The unique index `sandbox_migrations_active_sandbox`: no second row becomes active. -/
def activeUnique (m : SandboxMigration) : Bool :=
  m.phase = .complete || rows.activeMigrations = [] ||
    rows.activeMigrations.any (·.migrationId = m.migrationId)

/-- `none` is the `IntegrityError` that ends the transaction. -/
def writeSandboxMigration (m : SandboxMigration) : Option RoutingRows :=
  if rows.activeUnique m then some (rows.putSandboxMigration m) else none

/-- Journal a move of the exact route the caller read; a known id is returned as it is. -/
def beginSandboxMigration (source : SandboxRoute) (migrationId : String) (destination : NodeIdentity)
    : Except String (RoutingRows × SandboxMigration) :=
  match rows.getSandboxMigration migrationId with
  | some existing => .ok (rows, existing)
  | none =>
    if rows.activeMigrations ≠ [] then .error "sandbox already has an active migration"
    else match rows.route with
      | none => .error "sandbox route changed before migration began"
      | some current =>
        if current.ownedBy source.incarnation source.node &&
            current.workerState = source.workerState then
          let m := source.plan migrationId destination
          match rows.writeSandboxMigration m with
          | none => .error "UNIQUE constraint failed: sandbox_migrations.sandbox_id"
          | some rows => .ok (rows, m)
        else .error "sandbox route changed before migration began"

def advanceSandboxMigration (expected : List MigrationPhase) (phase : MigrationPhase)
    (update : MigrationUpdate) : Option (RoutingRows × SandboxMigration) :=
  match rows.getSandboxMigration migrationId with
  | none => none
  | some existing =>
    if expected.contains existing.phase then
      let stored := update.apply phase existing
      (rows.writeSandboxMigration stored).map (·, stored)
    else none

/-- The snapshot columns of a committed route; `none` without a complete publication. -/
def routeSnapshot (m : SandboxMigration) : Option SnapshotColumns :=
  if m.storageSchema = "" then some {}
  else
    let publication? :=
      if m.storageSchema = splitMigrationSchema then
        match m.storageSnapshot.fromDict with
        | some d => if d.schema = m.storageSchema then some d.reference else none
        | none => none
      else m.storageSnapshot.publication
    match publication? with
    | none => none
    | some p =>
      if p.manifestDigest = "" || p.repository = "" || p.tag = "" then none
      else some
        { storageSchema := m.storageSchema, manifestDigest := p.manifestDigest,
          repository := p.repository, tag := p.tag, storageSnapshot := m.storageSnapshot }

/-- Commit destination routing and the migration journal in one transaction. -/
def routeSandboxMigration (now : Option Nat) : Option (RoutingRows × SandboxMigration × SandboxRoute) :=
  match rows.getSandboxMigration migrationId, rows.route with
  | some m, some current =>
    match m.phase with
    | .routed =>
      if current.node.nodeId = m.destination.nodeId && current.node.nodeUrl = m.destination.nodeUrl
      then some (rows, m, current) else none
    | .staged =>
      if current.ownedBy m.incarnation m.source then
        match routeSnapshot m with
        | none => none
        | some snapshot =>
          let route := m.commits snapshot now current
          let m' : SandboxMigration := { m with phase := .routed, error := "" }
          (rows.writeSandboxMigration m').map ({ · with route := some route }, m', route)
      else none
    | _ => none
  | _, _ => none

/-- Complete an activated migration of a live destination route; optionally reserve its wake. -/
def completeSandboxMigration (wakeDestination : Bool) (now : Option Nat)
    : RoutingRows × Option SandboxMigration :=
  match rows.getSandboxMigration migrationId with
  | none => (rows, none)
  | some m =>
    match m.phase, rows.route with
    | .complete, some current =>
      if wakeDestination && current.ownedBy m.incarnation m.destination && current.state = .parked
      then ({ rows with route := some (current.reserveWake now) }, some m)
      else (rows, some m)
    | .complete, none => (rows, some m)
    | .activated, some current =>
      if current.ownedBy m.incarnation m.destination then
        let completed : SandboxMigration := { m with phase := .complete, error := "" }
        let route := if wakeDestination then current.reserveWake now else current
        match rows.writeSandboxMigration completed with
        | none => (rows, none)
        | some rows => ({ rows with route := some route }, some completed)
      else (rows, none)
    | _, _ => (rows, none)

def prepareSandboxDelete (operationId : String) (now : Option Nat) : RoutingRows :=
  match rows.route with
  | none => rows
  | some current =>
    if current.deleteOperationId ≠ "" then rows
    else { rows with
      route := some { current with deleteOperationId := operationId, updatedAt := now } }

/-- `_delete_sandbox_unlocked`: the route goes and every active journal of it is terminal. -/
def deleteSandbox : RoutingRows :=
  { route := none
    migrations := rows.migrations.map (·.close "sandbox deleted before migration completed") }

def deleteSandboxIfCurrent (generation : Nat) (deleteOperationId : String) :
    RoutingRows × Option SandboxRoute :=
  match rows.route with
  | none => (rows, none)
  | some existing =>
    if existing.incarnation.generation = generation &&
        (deleteOperationId = "" || existing.deleteOperationId = deleteOperationId) then
      (rows.deleteSandbox, some existing)
    else (rows, none)

def terminalizeOrphanedSandboxMigrations : RoutingRows :=
  match rows.route with
  | some _ => rows
  | none => { rows with migrations := rows.migrations.map (·.close "sandbox route is absent") }

def beginSandboxDetach (route : SandboxRoute) (now : Option Nat) : RoutingRows × Option SandboxRoute :=
  match rows.route with
  | none => (rows, none)
  | some current =>
    if !sameSandboxRouteIncarnation current route then (rows, none)
    else match current.workerState with
      | .detaching | .detached => (rows, some current)
      | .attached =>
        if isPortableParkedRoute current && current.deleteOperationId = "" then
          let stored := { current with workerState := .detaching, updatedAt := now }
          ({ rows with route := some stored }, some stored)
        else (rows, none)

def completeSandboxDetach (route : SandboxRoute) (now : Option Nat) :
    RoutingRows × Option SandboxRoute :=
  match rows.route with
  | none => (rows, none)
  | some current =>
    if !sameSandboxRouteIncarnation current route then (rows, none)
    else match current.workerState with
      | .detached => (rows, some current)
      | .detaching =>
        if isPortableParkedRoute current && current.deleteOperationId = "" then
          let stored := detachOwnerLostRoute current now
          ({ rows with route := some stored }, some stored)
        else (rows, none)
      | .attached => (rows, none)

end

variable {rows : RoutingRows} {migrationId : String}

theorem close_phase (message) (m : SandboxMigration) : (m.close message).phase = .complete := by
  unfold SandboxMigration.close
  split
  · assumption
  · rfl

theorem activeMigrations_closed (rows : RoutingRows) (route message) :
    activeMigrations ⟨route,rows.migrations.map (·.close message)⟩ = [] := by
  refine filter_eq_nil_iff.mpr fun m hm => ?_
  obtain ⟨old,_,rfl⟩ := mem_map.mp hm
  simp [close_phase]

theorem getSandboxMigration_migrationId {m} (h : rows.getSandboxMigration migrationId = some m) :
    m.migrationId = migrationId := by
  simpa using find?_some h

theorem activeUnique_of_active {m m'} (hm : rows.getSandboxMigration m'.migrationId = some m)
    (hact : m.phase ≠ .complete) : rows.activeUnique m' = true := by
  have hmem : m ∈ rows.activeMigrations :=
    mem_filter.mpr ⟨mem_of_find?_eq_some hm,by simpa using hact⟩
  have hid := getSandboxMigration_migrationId hm
  have hany : rows.activeMigrations.any (·.migrationId = m'.migrationId) = true :=
    any_eq_true.mpr ⟨m,hmem,decide_eq_true hid⟩
  simp [activeUnique,hany]

theorem writeSandboxMigration_some {m rows'} (h : rows.writeSandboxMigration m = some rows') :
    rows.activeUnique m = true ∧ rows.putSandboxMigration m = rows' := by
  simpa [writeSandboxMigration] using h

@[simp]
theorem writeSandboxMigration_complete (rows : RoutingRows) {m} (h : m.phase = .complete) :
    rows.writeSandboxMigration m = some (rows.putSandboxMigration m) := by
  simp [writeSandboxMigration,activeUnique,h]

private theorem find?_replace (l : List SandboxMigration) (m)
    (h : l.any (·.migrationId = m.migrationId) = true) :
    (l.map fun old => if old.migrationId = m.migrationId then m else old).find?
      (·.migrationId = m.migrationId) = some m := by
  induction l with
  | nil => simp at h
  | cons a l ih =>
    by_cases ha : a.migrationId = m.migrationId
    · simp [ha]
    · have hl : l.any (·.migrationId = m.migrationId) = true := by simpa [ha] using h
      simpa [ha] using ih hl

theorem getSandboxMigration_put (rows : RoutingRows) (m) :
    (rows.putSandboxMigration m).getSandboxMigration m.migrationId = some m := by
  unfold putSandboxMigration getSandboxMigration
  split
  · rename_i h
    exact find?_replace rows.migrations m h
  · rename_i h
    have hnone : rows.migrations.find? (·.migrationId = m.migrationId) = none := by
      simpa using h
    simp [hnone]

theorem mem_putSandboxMigration {m x} (h : x ∈ (rows.putSandboxMigration m).migrations) :
    x = m ∨ x ∈ rows.migrations ∧ x.migrationId ≠ m.migrationId := by
  unfold putSandboxMigration at h
  split at h
  · obtain ⟨old,hold,rfl⟩ := mem_map.mp h
    by_cases hid : old.migrationId = m.migrationId
    · exact .inl (by simp [hid])
    · exact .inr (by simpa [hid] using hold)
  · rename_i hnone
    rcases mem_append.mp h with h | h
    · refine .inr ⟨h,fun hid => hnone ?_⟩
      exact any_eq_true.mpr ⟨x,h,by simp [hid]⟩
    · exact .inl (by simpa using h)

theorem getSandboxMigration_put_ne {m} (h : migrationId ≠ m.migrationId) :
    (rows.putSandboxMigration m).getSandboxMigration migrationId =
      rows.getSandboxMigration migrationId := by
  have hm : ¬ m.migrationId = migrationId := fun he => h he.symm
  unfold putSandboxMigration getSandboxMigration
  split
  · induction rows.migrations with
    | nil => rfl
    | cons a l ih =>
      by_cases ha : a.migrationId = m.migrationId
      · have ha' : ¬ a.migrationId = migrationId := fun he => h (he.symm.trans ha)
        simpa [ha,hm] using ih
      · by_cases hk : a.migrationId = migrationId
        · simp [hk,h]
        · simpa [ha,hk] using ih
  · simp [hm]

theorem getSandboxMigration_map (rows : RoutingRows) (route f)
    (hf : ∀ m, (f m).migrationId = m.migrationId) (migrationId) :
    RoutingRows.getSandboxMigration ⟨route,rows.migrations.map f⟩ migrationId =
      (rows.getSandboxMigration migrationId).map f := by
  have hp : ((fun m : SandboxMigration => decide (m.migrationId = migrationId)) ∘ f) =
      fun m => decide (m.migrationId = migrationId) := by
    funext m
    simp [hf]
  simp only [getSandboxMigration,find?_map,hp]

theorem advanceSandboxMigration_some {rows' expected phase update m'}
    (h : rows.advanceSandboxMigration migrationId expected phase update = some (rows',m')) :
    ∃ m, rows.getSandboxMigration migrationId = some m ∧ m.phase ∈ expected ∧
      rows'.route = rows.route ∧ rows'.getSandboxMigration migrationId = some m' ∧
      m'.phase = phase ∧ m'.destination = m.destination ∧
      m'.sourceFenced = update.sourceFenced.getD m.sourceFenced := by
  unfold advanceSandboxMigration at h
  split at h
  · cases h
  rename_i m hm
  split at h
  · rename_i he
    obtain ⟨_,hw,h⟩ := Option.map_eq_some_iff.mp h
    cases h
    obtain ⟨-,rfl⟩ := writeSandboxMigration_some hw
    have hid := getSandboxMigration_migrationId hm
    refine ⟨m,hm,by simpa using he,rfl,?_,rfl,rfl,rfl⟩
    rw [← hid]
    exact getSandboxMigration_put rows _
  · cases h

theorem routeSandboxMigration_some {rows' now m' route}
    (h : rows.routeSandboxMigration migrationId now = some (rows',m',route)) :
    (rows' = rows ∧ rows.getSandboxMigration migrationId = some m' ∧ m'.phase = .routed) ∨
    ∃ m, rows.getSandboxMigration migrationId = some m ∧ m.phase = .staged ∧
      rows'.getSandboxMigration migrationId = some m' ∧ m'.destination = m.destination := by
  unfold routeSandboxMigration at h
  split at h
  · rename_i m current hm hr
    split at h
    · split at h
      · cases h
        exact .inl ⟨rfl,hm,‹_›⟩
      · cases h
    · split at h
      · split at h
        · cases h
        · obtain ⟨_,hw,h⟩ := Option.map_eq_some_iff.mp h
          cases h
          obtain ⟨-,rfl⟩ := writeSandboxMigration_some hw
          refine .inr ⟨m,hm,‹_›,?_,rfl⟩
          rw [← getSandboxMigration_migrationId hm]
          exact getSandboxMigration_put rows { m with phase := .routed, error := "" }
      · cases h
    · cases h
  · cases h

theorem completeSandboxMigration_cases (rows : RoutingRows) (migrationId wake now) :
    (rows.completeSandboxMigration migrationId wake now).1 = rows ∨
    ∃ m current stored, rows.getSandboxMigration migrationId = some m ∧ rows.route = some current ∧
      (rows.completeSandboxMigration migrationId wake now).1.route = some stored ∧
      stored.node = current.node ∧ stored.workerState = current.workerState ∧
      ∃ m', (rows.completeSandboxMigration migrationId wake now).1.getSandboxMigration migrationId =
        some m' ∧ m'.phase = .complete ∧ m'.destination = m.destination := by
  unfold completeSandboxMigration
  cases hm : rows.getSandboxMigration migrationId with
  | none => exact .inl rfl
  | some m =>
    have hid := getSandboxMigration_migrationId hm
    dsimp only
    split
    · rename_i hphase hr
      split
      · exact .inr ⟨m,_,_,rfl,hr,rfl,rfl,rfl,m,hm,hphase,rfl⟩
      · exact .inl rfl
    · exact .inl rfl
    · rename_i current hphase hr
      split
      · refine .inr ⟨m,current,_,rfl,hr,rfl,?_,?_,{ m with phase := .complete, error := "" },?_,rfl,rfl⟩
        · split <;> rfl
        · split <;> rfl
        · rw [← hid]
          exact getSandboxMigration_put rows { m with phase := .complete, error := "" }
      · exact .inl rfl
    · exact .inl rfl

end RoutingRows

namespace Example

def incarnation : Incarnation := ⟨1,"create-1","spec-1"⟩

def snapshot : StorageNativeMigration where
  schema := storageNativeMigrationSchema
  sandboxId := "sandbox"
  incarnation := incarnation
  publication := ⟨"sha256:1","repository","tag"⟩
  sha256 := "digest"

end Example
end UCloudSandboxes.Routing
