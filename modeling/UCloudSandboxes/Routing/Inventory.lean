import UCloudSandboxes.Routing.Store

/-! Reconciliation of one worker inventory: the freshness check, the row a reported sandbox is
offered, and the transaction over all of them. -/
namespace UCloudSandboxes.Routing

variable (existing candidate : SandboxRoute) (call : InventoryCall) (store : Store)
  (report : InventoryReport) (route : SandboxRoute) (item : SandboxInventoryEntry)

/-- `_route_update_is_current`. An incarnation on its own node may move the route to another boot;
activity compares within one boot. -/
def routeUpdateIsCurrent (allowNodeEpochAdoption : Bool) : Bool :=
  if !sameSandboxRouteIncarnation existing candidate then false
  else if candidate.nodeEpoch ≠ "" && candidate.nodeEpoch ≠ existing.nodeEpoch then
    allowNodeEpochAdoption
  else !(existing.nodeEpoch = candidate.nodeEpoch && candidate.activityEpoch < existing.activityEpoch)

/-- A JSON object handed to a parser that answers, raises a `ValueError`, or ends with a `TypeError`
it does not foresee. -/
inductive Offered (α : Type) where
  | empty
  | accepted (value : α)
  | valueError (message : String)
  | typeError (message : String)
  deriving DecidableEq

namespace Offered

variable {α : Type}

def isEmpty : Offered α → Bool
  | .empty => true
  | _ => false

def parse (emptyMessage : String) : Offered α → Except Raised α
  | .empty => .error (.valueError emptyMessage)
  | .accepted value => .ok value
  | .valueError message => .error (.valueError message)
  | .typeError message => .error (.typeError message)

end Offered

/-- A descriptor the migration parser accepts has one of the schemas it knows. -/
abbrev ParsedMigration :=
  { d : StorageNativeMigration // d.schema ∈ supportedStorageNativeMigrationSchemas }

/-- The worker's own word for the lifecycle state; only two of them are routable. -/
inductive ObservedState where
  | running
  | parked
  | other (text : String)
  deriving DecidableEq

def ObservedState.routeState : ObservedState → Option RouteState
  | .running => some .running
  | .parked => some .parked
  | .other _ => none

/-- The snapshot checks of the constructor: four identity strings and a descriptor, all or none. -/
def snapshotIdentityComplete (values : List String) (described : Bool) : Bool :=
  values.any (· ≠ "") = values.all (· ≠ "") && described = values.all (· ≠ "")

theorem complete_empty : snapshotIdentityComplete ["","","",""]
    (!(Offered.empty : Offered ParsedMigration).isEmpty) = true := rfl

structure SandboxInventoryEntry where
  sandboxId : String
  incarnation : Incarnation
  state : ObservedState
  resources : ResourceQuantity := {}
  storageSchema : String := ""
  snapshotManifestDigest : String := ""
  snapshotRepository : String := ""
  snapshotTag : String := ""
  storageSnapshot : Offered ParsedMigration := .empty
  storageDependency : Option (Offered SnapshotReference) := none
  complete : snapshotIdentityComplete
    [storageSchema,snapshotManifestDigest,snapshotRepository,snapshotTag]
    (!storageSnapshot.isEmpty) = true := by first | exact complete_empty | decide

structure InventoryCall where
  node : NodeIdentity
  observedAt : Option Nat
  nodeEpoch : String := ""
  activityEpoch : Nat := 0
  inventoryComplete : Bool := true
  deriving DecidableEq

structure InventoryReport extends InventoryCall where
  observations : List SandboxInventoryEntry
  reportedSandboxIds : List String := []

def InventoryReport.reportedIds : List String :=
  report.reportedSandboxIds ++ report.observations.map (·.sandboxId)

def InventoryReport.exact : Bool :=
  report.node.nodeUrl ≠ "" && report.node.nodeId ≠ "" && report.node.jobId ≠ ""

def routeWithInventorySnapshot : Except Raised ValidRoute :=
  if item.sandboxId ≠ route.sandboxId || item.incarnation ≠ route.incarnation then
    .error (.valueError "inventory snapshot does not own its sandbox route")
  else if item.state ≠ .parked then
    .error (.valueError "only a parked inventory entry can publish a snapshot")
  else match item.storageSnapshot.parse "storage-native migration has an invalid schema" with
    | .error e => .error e
    | .ok snapshot =>
      if snapshot.val.schema ≠ item.storageSchema || snapshot.val.sandboxId ≠ route.sandboxId ||
          snapshot.val.incarnation ≠ route.incarnation ||
          snapshot.val.reference.manifestDigest ≠ item.snapshotManifestDigest ||
          snapshot.val.reference.repository ≠ item.snapshotRepository ||
          snapshot.val.reference.tag ≠ item.snapshotTag then
        .error (.valueError "inventory snapshot descriptor does not match its route")
      else SandboxRoute.build { route with
        snapshot :=
          { storageSchema := item.storageSchema, manifestDigest := item.snapshotManifestDigest,
            repository := item.snapshotRepository, tag := item.snapshotTag,
            storageSnapshot := .descriptor snapshot.val } }

section
variable (existing : SandboxRoute) (item : SandboxInventoryEntry)

/-- The snapshot a parked entry publishes. A `ValueError` only costs its portable authority. -/
def publishedSnapshot : Except Raised (Option SnapshotColumns) :=
  if item.state = .parked && !item.storageSnapshot.isEmpty then
    match routeWithInventorySnapshot existing item with
    | .ok validated => .ok (some validated.val.snapshot)
    | .error (.valueError _) => .ok none
    | .error e => .error e
  else .ok none

def inventoryCandidate (state : RouteState) (published : Option SnapshotColumns) : SandboxRoute :=
  { existing with
    node := call.node
    resources := if item.resources ≠ {} then item.resources else existing.resources
    state
    incarnation := item.incarnation
    nodeEpoch := call.nodeEpoch
    activityEpoch := call.activityEpoch
    snapshot := published.getD (if state = .parked then existing.snapshot else {})
    updatedAt := call.observedAt }

/-- One entry against the stored route: the row it offers, if any, which its constructor checks
before its freshness is looked at. -/
def observe : Except Raised (Option ValidRoute) :=
  match item.state.routeState with
  | none => .ok none
  | some state => do
    let published ← publishedSnapshot existing item
    let candidate ← (inventoryCandidate call existing item state published).build
    if candidate.val.incarnation.generation ≠ existing.incarnation.generation then .ok none
    else if !routeUpdateIsCurrent existing candidate.val false then .ok none
    else .ok (some candidate)

end

/-- The dependency object an accepted entry records: liveness metadata only. -/
def dependencyObject : Except Raised (Option DependencyObject) :=
  match item.storageDependency with
  | none => .ok none
  | some .empty => .ok (some .empty)
  | some offered =>
    (offered.parse "snapshot publication has no layers").map (some ∘ .publication)

/-- What an entry brings a stored route: nothing, or its candidate and a dependency. -/
def accepted (route : Option SandboxRoute) :
    Except Raised (Option (SandboxRoute × ValidRoute × Option DependencyObject)) :=
  match route with
  | none => .ok none
  | some existing =>
    match observe call existing item with
    | .error e => .error e
    | .ok none => .ok none
    | .ok (some candidate) => (dependencyObject item).map fun object => some (existing,candidate,object)

structure Reconciling where
  store : Store
  existingById : String → Option SandboxRoute
  touchedIds : List String := []
  dependencies : List (String × StorageDependency) := []
  staleSnapshotRoutes : List SandboxRoute := []
  keyed : ∀ id route, existingById id = some route → route.sandboxId = id

def replacesSnapshot : Bool :=
  existing.snapshot.manifestDigest ≠ "" &&
    (existing.snapshot.manifestDigest ≠ candidate.snapshot.manifestDigest ||
      existing.snapshot.repository ≠ candidate.snapshot.repository ||
      existing.snapshot.tag ≠ candidate.snapshot.tag)

def onlyWatermark : Bool :=
  { candidate with activityEpoch := existing.activityEpoch, updatedAt := existing.updatedAt } = existing

namespace Reconciling

def start (store : Store) (observedIds : List String) : Reconciling where
  store
  existingById := fun id => if observedIds.contains id then store.getSandbox id else none
  keyed := by
    intro id route h
    split at h
    · exact store.getSandbox_id h
    · cases h

variable (t : Reconciling)

def writeDependencies : Reconciling :=
  { t with
    store := t.dependencies.foldl (fun store d => store.writeStorageDependency d.1 d.2) t.store
    dependencies := [] }

/-- The candidate becomes the row, at once or, for a watermark, at the end of the transaction. -/
def accept (existing : SandboxRoute) (candidate : ValidRoute) : Reconciling :=
  let stale := if replacesSnapshot existing candidate.val then [existing] else []
  let touched := onlyWatermark existing candidate.val
  { t with
    store := if touched then t.store else t.store.writeSandbox candidate
    existingById := Function.update t.existingById candidate.val.sandboxId (some candidate.val)
    touchedIds := if touched then candidate.val.sandboxId :: t.touchedIds else t.touchedIds
    staleSnapshotRoutes := t.staleSnapshotRoutes ++ stale
    keyed := by
      intro id route h
      by_cases hid : id = candidate.val.sandboxId
      · subst hid
        rw [Function.update_self] at h
        exact Option.some.inj h ▸ rfl
      · rw [Function.update_of_ne hid] at h
        exact t.keyed id route h }

/-- Dependency rows wait for one statement unless an id repeats. -/
def gather (unique : Bool) (id : String) (d : StorageDependency) : Reconciling :=
  let gathered := { t with dependencies := t.dependencies ++ [(id,d)] }
  if unique then gathered else gathered.writeDependencies

def observeEntry (call : InventoryCall) (unique : Bool) (t : Reconciling)
    (item : SandboxInventoryEntry) : Except Raised Reconciling :=
  (accepted call item (t.existingById item.sandboxId)).map fun
    | none => t
    | some (existing,candidate,object) =>
      object.elim (t.accept existing candidate) fun object => (t.accept existing candidate).gather unique
        candidate.val.sandboxId ⟨candidate.val.incarnation.generation,object⟩

end Reconciling

/-- Absence says nothing: the inventory is incomplete or of another boot, the create may still
arrive, or the route is newer. -/
def absenceKeeps : Bool :=
  !call.inventoryComplete || (route.nodeEpoch ≠ "" && route.nodeEpoch ≠ call.nodeEpoch) ||
    route.state = .creating || route.state = .unknown || route.activityEpoch > call.activityEpoch ||
    match call.observedAt, route.updatedAt <|> route.createdAt with
    | some observed, some updated => observed < updated
    | _, _ => false

def Store.sandboxRoutesForNodeUrl (nodeUrl : String) (excludedIds : List String) : List SandboxRoute :=
  store.sandboxes.filter fun route =>
    route.node.nodeUrl = nodeUrl && !excludedIds.contains route.sandboxId

/-- The routes of the inventory's worker whose absence in it is proof. -/
def Store.absentRoutes (call : InventoryCall) (reported : List String) : List SandboxRoute :=
  (store.sandboxRoutesForNodeUrl call.node.nodeUrl reported).filter fun route =>
    !absenceKeeps call route

def InventoryCall.watermark (route : SandboxRoute) : SandboxRoute :=
  { route with activityEpoch := call.activityEpoch, updatedAt := call.observedAt }

def Store.touchSandbox (id : String) : Store :=
  match h : store.getSandbox id with
  | none => store
  | some route =>
    store.put id { store.rows id with route := some (call.watermark route) } (store.sound id route h)

structure Reconciled where
  store : Store
  removedRoutes : List SandboxRoute
  staleSnapshotRoutes : List SandboxRoute

/-- `reconcile_sandboxes_for_node`: one transaction, so an exception leaves the store as it was. -/
def reconcileSandboxesForNode : Except Raised Reconciled :=
  if !report.exact then
    .error (.valueError "sandbox inventory requires exact node identity")
  else do
    let observedIds := report.observations.map (·.sandboxId)
    let looped ← report.observations.foldlM
      (Reconciling.observeEntry report.toInventoryCall (decide observedIds.Nodup))
      (Reconciling.start store observedIds)
    let observed := looped.writeDependencies
    let absent := observed.store.absentRoutes report.toInventoryCall report.reportedIds
    let settled := absent.foldl (Store.settleOwnerLost report.observedAt) observed.store
    .ok
      { store := observed.touchedIds.foldl (Store.touchSandbox report.toInventoryCall) settled
        removedRoutes := absent.filter fun route =>
          sandboxOwnerLossDisposition route ≠ .recoverDetached
        staleSnapshotRoutes := observed.staleSnapshotRoutes }

end UCloudSandboxes.Routing
