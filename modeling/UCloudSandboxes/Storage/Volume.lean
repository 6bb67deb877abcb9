import Mathlib.Data.List.Basic
import UCloudSandboxes.Machine.Basic

/-! The storage daemon's journal of one volume: operations under a revision fence, background
compaction, superseded uploads, crashes and reconciliation. -/
namespace UCloudSandboxes.Storage

inductive VolumeState where
  | creating
  | importing
  | acquiring
  | mounted
  | preparingCapture
  | capturePrepared
  | sealing
  | sealed
  | releasing
  | released
  | publishing
  | published
  | deleting
  | deleted
  | error
  deriving DecidableEq

/-- A layer, by the captures whose writes it holds, oldest first. -/
structure Layer where
  captures : List Nat
  deriving DecidableEq

def captures (layers : List Layer) : List Nat := layers.flatMap (·.captures)

inductive Kind where
  | createVolume
  | acquireSnapshot
  | prepareCapture
  | freezeAndSeal
  | commitCapture
  | abortCapture
  | mountSnapshotCow
  | discardMountedCow
  | releaseRuntime
  | publishSnapshot
  | deleteVolume
  deriving DecidableEq

inductive Status where
  | pending
  | completed
  | failed
  deriving DecidableEq

/-- The volume's journal row. `operation` is its operation's row; a reconcile error has none. -/
structure Record where
  revision : Nat
  state : VolumeState
  operation : Option (Kind × Status)
  sealedLayerPaths : List Layer := []
  publishedLayers : List Layer := []
  error : String := ""
  deriving DecidableEq

/-- An operation in progress. Every begun operation takes a new revision, which is its fence. -/
structure Pending where
  revision : Nat
  kind : Kind
  deriving DecidableEq

/-- The journal and the daemon's threads. `committed` and `aborted` are history: the chain last
committed or imported, and whether a capture was aborted since the last mount. -/
structure Volume where
  record : Option Record := none
  running : List Pending := []
  committed : Option (List Nat) := none
  aborted : Bool := false
  deriving DecidableEq

namespace Kind

/-- The states an operation may begin in; creates and imports reserve their row themselves. -/
def allowedStates : Kind → List VolumeState
  | createVolume | acquireSnapshot => []
  | prepareCapture | freezeAndSeal | discardMountedCow => [.mounted]
  | commitCapture | abortCapture => [.capturePrepared]
  | mountSnapshotCow => [.released, .published]
  | releaseRuntime => [.sealed]
  | publishSnapshot => [.released]
  | deleteVolume => [.mounted, .capturePrepared, .sealed, .released, .published, .error]

def nextState : Kind → VolumeState
  | createVolume => .creating
  | acquireSnapshot => .importing
  | prepareCapture => .preparingCapture
  | freezeAndSeal => .sealing
  | commitCapture => .sealed
  | abortCapture => .mounted
  | mountSnapshotCow => .acquiring
  | discardMountedCow | releaseRuntime => .releasing
  | publishSnapshot => .publishing
  | deleteVolume => .deleting

/-- Decisions about a prepared capture complete in the transaction that begins them. -/
def completesAtOnce : Kind → Bool
  | commitCapture | abortCapture => true
  | _ => false

end Kind

namespace Record

variable (r : Record) (kind : Kind)

def chain : List Layer := r.publishedLayers ++ r.sealedLayerPaths

def hasLayers : Bool := r.chain ≠ []

/-- A failed mount of existing layers is the one error a discard may recover. -/
def recoverMount : Bool :=
  r.state = .error && r.operation = some (.mountSnapshotCow, .failed) && r.hasLayers

def begin : Option Record :=
  if kind.allowedStates.contains r.state || (kind = .discardMountedCow && r.recoverMount) then
    some { r with
      revision := r.revision + 1
      state := kind.nextState
      operation := some (kind, if kind.completesAtOnce then .completed else .pending)
      error := "" }
  else none

/-- `finish` of one operation; `none` when it cannot succeed. `capture` names a seal's new capture,
`publication` an upload's layers, which hold what the chain holds. -/
def succeed (capture : Nat) (publication : List Layer) : Option Record :=
  let r := { r with operation := some (kind, .completed) }
  let sealedLayerPaths := r.sealedLayerPaths ++ [⟨[capture]⟩]
  match kind with
  | .createVolume => some { r with state := .mounted }
  | .acquireSnapshot => some { r with state := .published }
  | .prepareCapture =>
    if capture ∈ captures r.chain then none
    else some { r with state := .capturePrepared, sealedLayerPaths }
  | .freezeAndSeal =>
    if capture ∈ captures r.chain then none else some { r with state := .sealed, sealedLayerPaths }
  | .commitCapture | .abortCapture => none
  | .mountSnapshotCow => if r.hasLayers then some { r with state := .mounted } else none
  | .discardMountedCow =>
    if r.hasLayers then
      some { r with state := if r.publishedLayers ≠ [] then .published else .released }
    else none
  | .releaseRuntime => some { r with state := .released }
  | .publishSnapshot =>
    if r.sealedLayerPaths ≠ [] && captures publication = captures r.chain then
      some { r with state := .published, sealedLayerPaths := [], publishedLayers := publication }
    else none
  | .deleteVolume => some { r with state := .deleted, sealedLayerPaths := [], publishedLayers := [] }

/-- A failed upload keeps local checkpoint authority; every other failure is terminal. -/
def fail (error : String) : Record :=
  { r with
    state := if kind = .publishSnapshot then .released else .error
    operation := some (kind, .failed)
    error }

def markReconcileError (error : String) : Record :=
  { r with revision := r.revision + 1, state := .error, operation := none, error }

/-- Local compaction replaces a run of sealed layers by one layer that holds the same. -/
def adopt (start stop : Nat) : Record :=
  { r with sealedLayerPaths := r.sealedLayerPaths.take start ++
      [⟨captures ((r.sealedLayerPaths.take stop).drop start)⟩] ++ r.sealedLayerPaths.drop stop }

inductive Deletion where
  | done
  | waiting (error : String)
  | failed (error : String)
  deriving DecidableEq

def ownsDevice : VolumeState → Bool
  | .mounted | .acquiring | .sealing | .preparingCapture | .capturePrepared | .sealed => true
  | _ => false

def reconcile (ownerMatches : Bool) (deletion : Deletion) : Record :=
  if ownsDevice r.state && !ownerMatches then
    r.markReconcileError "journaled block device ownership is missing or mismatched"
  else match r.state with
    | .creating =>
      r.markReconcileError "create was interrupted before the volume became authoritative"
    | .importing => r.markReconcileError "snapshot import was interrupted before registration"
    | .acquiring =>
      r.markReconcileError "snapshot acquire was interrupted before mount became authoritative"
    | .sealing | .preparingCapture =>
      r.markReconcileError "seal was interrupted and cannot be replayed safely"
    | .releasing =>
      { r with state := .released, operation := r.operation.map fun op => (op.1, .completed) }
    | .publishing =>
      r.fail .publishSnapshot "snapshot publication was interrupted; retry with a new operation id"
    | .deleting =>
      match deletion with
      | .done => (r.succeed .deleteVolume 0 []).getD r
      | .waiting error => { r with error }
      | .failed error => r.markReconcileError ("delete reconciliation failed: " ++ error)
    | _ => r

end Record

inductive Event where
  | createVolume
  | acquireSnapshot (publication : List Layer)
  | begin (kind : Kind)
  | succeed (p : Pending) (capture : Nat) (publication : List Layer)
  | fail (p : Pending) (error : String)
  /-- A delete that waits for its backend device keeps its row. -/
  | stall (p : Pending) (error : String)
  | adopt (p : Pending) (start stop : Nat)
  | supersede
  | crash
  | reconcile (ownerMatches : Bool) (deletion : Record.Deletion)
  deriving DecidableEq

namespace Volume

/-- After an operation began: committing decides the chain, aborting leaves the captured layer. -/
def recordBegin (v : Volume) (kind : Kind) (r : Record) : Volume :=
  match kind with
  | .commitCapture => { v with committed := some (captures r.chain), aborted := false }
  | .abortCapture => { v with aborted := true }
  | _ => v

def recordSucceed (v : Volume) (kind : Kind) (r : Record) : Volume :=
  match kind with
  | .freezeAndSeal | .acquireSnapshot =>
    { v with committed := some (captures r.chain), aborted := false }
  | .createVolume | .mountSnapshotCow => { v with aborted := false }
  | _ => v

/-- Run an operation's own write under its fence; a superseded operation writes nothing. -/
def fenced (v : Volume) (p : Pending) (write : Record → Option Volume) : Option Volume :=
  if p ∈ v.running then
    match v.record with
    | some r => if r.revision = p.revision then write r else some { v with running := v.running.erase p }
    | none => none
  else none

end Volume

def step (v : Volume) : Event → Option Volume
  | .createVolume =>
    match v.record with
    | none => some { v with
        record := some ⟨1, .creating, some (.createVolume, .pending), [], [], ""⟩
        running := v.running ++ [⟨1, .createVolume⟩] }
    | some _ => none
  | .acquireSnapshot publication =>
    let revision := (v.record.map (·.revision)).getD 0 + 1
    if (v.record.all fun r => r.state = .deleted) && (captures publication).Nodup then
      some { v with
        record := some ⟨revision, .importing, some (.acquireSnapshot, .pending), [], publication, ""⟩
        running := v.running ++ [⟨revision, .acquireSnapshot⟩] }
    else none
  | .begin kind =>
    match v.record.bind (·.begin kind) with
    | some r =>
      let begun : Volume := { v with
        record := some r
        running := if kind.completesAtOnce then v.running else v.running ++ [⟨r.revision, kind⟩] }
      some (begun.recordBegin kind r)
    | none => none
  | .succeed p capture publication =>
    v.fenced p fun r => (r.succeed p.kind capture publication).map fun r =>
      { v with record := some r, running := v.running.erase p }.recordSucceed p.kind r
  | .fail p error =>
    v.fenced p fun r => some { v with
      record := some (r.fail p.kind error), running := v.running.erase p }
  | .stall p error =>
    if p.kind = .deleteVolume then
      v.fenced p fun r => some { v with
        record := some { r with error }, running := v.running.erase p }
    else none
  | .adopt p start stop =>
    if p.kind = .mountSnapshotCow || p.kind = .publishSnapshot then
      v.fenced p fun r =>
        if start < stop && stop ≤ r.sealedLayerPaths.length then
          some { v with record := some (r.adopt start stop) } else none
    else none
  | .supersede =>
    match v.record with
    | some r => if r.state = .publishing then some { v with record := some { r with
          revision := r.revision + 1, state := .released,
          operation := r.operation.map fun op => (op.1, .failed), error := "" } }
        else none
    | none => none
  | .crash => some { v with running := [] }
  | .reconcile ownerMatches deletion =>
    if v.running = [] then
      some { v with record := v.record.map fun r => r.reconcile ownerMatches deletion }
    else none

def Start (v : Volume) : Prop := v = {}

/-- A published row lists no local layer and its remote layers are the last committed chain; a
released row has an unpublished local layer. -/
def Complete (v : Volume) : Prop :=
  ∀ r, v.record = some r →
    (r.state = .published →
      r.sealedLayerPaths = [] ∧ v.committed = some (captures r.publishedLayers)) ∧
    (r.state = .released → ∃ layer ∈ r.sealedLayerPaths, layer.captures ≠ [] ∧
      ∀ c ∈ layer.captures, c ∉ captures r.publishedLayers)

end UCloudSandboxes.Storage
