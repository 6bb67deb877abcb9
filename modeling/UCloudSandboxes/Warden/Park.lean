import Mathlib.Data.List.AList
import UCloudSandboxes.Machine.Outline
import UCloudSandboxes.Storage.Volume
import UCloudSandboxes.Warden.Journal

/-! The warden's park and reconcile of one sandbox as sequences of actions on the node. Any action
may fail or be the last before the agent dies. -/
namespace UCloudSandboxes.Warden

inductive ProcessStatus where
  | running
  | paused
  | dead
  deriving DecidableEq

/-- A generation directory: without its COMPLETE marker it is pending. -/
inductive Generation where
  | pending
  | complete (manifest : Manifest)
  deriving DecidableEq

structure Workspace where
  state : Storage.VolumeState
  captureId : String := ""
  deriving DecidableEq

namespace Workspace
open Storage (Kind VolumeState)

variable (w : Workspace)

/-- An operation of the daemon that begins in one of its allowed states and ends in `final`. -/
def perform (kind : Kind) (final : VolumeState) : Option Workspace :=
  if kind.allowedStates.contains w.state then some { w with state := final } else none

def prepareCapture (captureId : String) : Option Workspace :=
  (w.perform .prepareCapture .capturePrepared).map fun w => { w with captureId }

def commitCapture : Option Workspace :=
  w.perform .commitCapture Kind.commitCapture.nextState

def abortCapture : Option Workspace :=
  w.perform .abortCapture Kind.abortCapture.nextState

/-- `ensure_released`: a mounted volume is sealed first, which clears its capture id. -/
def ensureReleased : Option Workspace :=
  match w.state with
  | .mounted => some { state := .released }
  | .sealed => some { w with state := .released }
  | .released | .published => some w
  | _ => none

def ensureMounted : Option Workspace :=
  match w.state with
  | .mounted => some w
  | .sealed | .released | .published => some { w with state := .mounted }
  | _ => none

def discardResume : Option Workspace :=
  w.perform .discardMountedCow .released

end Workspace

/-- What outlives the agent process, and its runtime fingerprint. `committed` is history: the last
committed capture, and whether the runtime container still existed then. -/
structure Node where
  splitMemory : Bool
  reflinkMemoryRestore : Bool
  fingerprint : String
  journal : Record
  generations : AList fun _ : Nat => Generation
  workspace : Workspace
  sentry : Identity
  status : ProcessStatus
  container : Bool
  committed : Option (String × Bool) := none

namespace Node

variable (n : Node)

def alive (identity : Option Identity) : Bool :=
  identity = some n.sentry && n.status ≠ .dead

def complete (generation : Nat) : Option Manifest :=
  match n.generations.lookup generation with
  | some (.complete manifest) => some manifest
  | _ => none

section Complete

variable (n : Node) {j k : Nat}

@[simp] theorem complete_insert_self (m) :
    complete { n with generations := n.generations.insert k (.complete m) } k = some m := by
  simp [complete]

theorem complete_insert_pending (h : n.generations.lookup k = none) :
    complete { n with generations := n.generations.insert k .pending } j = n.complete j := by
  by_cases hjk : j = k
  · subst hjk
    simp [complete,h]
  · simp [complete,AList.lookup_insert_ne hjk]

theorem complete_insert_ne (h : j ≠ k) (g) :
    complete { n with generations := n.generations.insert k g } j = n.complete j := by
  simp [complete,AList.lookup_insert_ne h]

theorem complete_erase_ne (h : j ≠ k) :
    complete { n with generations := n.generations.erase k } j = n.complete j := by
  simp [complete,AList.lookup_erase_ne h]

end Complete

/-- `_state_identity_status` of the expected process; `none` when runsc reports no live one. -/
def runtimeStatus (expected : Option Identity) : Option ProcessStatus :=
  if n.container && n.alive expected then some n.status else none

def workspaceRef : Option String :=
  if n.splitMemory then some n.workspace.captureId else none

/-- The first check of `reconcile` that the COMPLETE generation of the record fails. -/
def artifactError (record : Record) (manifest : Manifest) : Option String :=
  if manifest.runtime ≠ n.fingerprint then
    some "hibernation artifact does not match the requested sandbox or runtime"
  else if manifest.hibernationGeneration ≠ record.hibernationGeneration then
    some "complete artifact does not match the journal generation"
  else if record.state = .hibernating ∧ manifest.operationId ≠ record.operationId then
    some "complete artifact does not match the pending operation"
  else if (record.state = .parked ∨ record.state = .restoring) ∧
      manifest.metadataSha256 ≠ record.manifestSha256 then
    some "complete artifact does not match the authoritative journal digest"
  else none

def published (record : Record) : Option Manifest :=
  if 0 < record.hibernationGeneration then n.complete record.hibernationGeneration else none

end Node

/-- The atomic steps of park, its rollback and reconcile: journal writes, runsc commands, storage
calls. -/
inductive Action where
  | beginHibernate (operationId : String)
  | prepareGeneration
  | checkpoint
  | requireAlive
  | requirePaused
  | prepareCapture
  | publishComplete
  | persistParkedManifest
  | openSentryFence
  | terminate
  | markSentryReaped
  | deleteRuntime
  | commitCapture
  | ensureReleased
  | commitParked
  | abortWorkspaceCapture
  | ensureRuntimeRunning
  | abortHibernate
  | discardPending
  | quarantine (reason : String) (liveProcessConfirmedDead : Bool)
  | terminateIdentities
  | ensureWorkspaceMounted
  | deletePublished (generation : Nat) (unlinked : Bool)
  deriving DecidableEq

/-- The node as a procedure sees it, with the journal record it last read or wrote. -/
structure Attempt where
  node : Node
  record : Record

namespace Attempt

variable (t : Attempt)

def write (result : Except String Record) : Option Attempt :=
  match result with
  | .ok record => some { node := { t.node with journal := record }, record }
  | .error _ => none

def withWorkspace (workspace : Option Workspace) : Option Attempt :=
  workspace.map fun workspace => { t with node := { t.node with workspace } }

def withStatus (status : ProcessStatus) : Attempt :=
  { t with node := { t.node with status } }

def withGenerations (generations : AList fun _ : Nat => Generation) : Attempt :=
  { t with node := { t.node with generations } }

def manifest (digest : String) (h : digest ≠ "") : Manifest where
  hibernationGeneration := t.record.hibernationGeneration
  operationId := t.record.operationId
  runtime := t.node.fingerprint
  workspace := t.node.workspaceRef
  metadataSha256 := digest
  captured := t.node.sentry
  digest_ne := h

def publishComplete (digest : String) : Option Attempt :=
  if h : digest = "" ∨ (t.node.splitMemory ∧ t.node.workspace.state ≠ .capturePrepared) then none
  else
    match t.node.generations.lookup t.record.hibernationGeneration with
    | some .pending => some (t.withGenerations (t.node.generations.insert
        t.record.hibernationGeneration (.complete (t.manifest digest (not_or.mp h).1))))
    | some (.complete existing) => if existing.metadataSha256 = digest then some t else none
    | none => none

def prepareGeneration : Option Attempt :=
  match t.node.generations.lookup t.record.hibernationGeneration with
  | some .pending => some t
  | some (.complete _) => none
  | none => some (t.withGenerations
      (t.node.generations.insert t.record.hibernationGeneration .pending))

def discardPending : Option Attempt :=
  match t.node.generations.lookup t.record.hibernationGeneration with
  | some .pending => some (t.withGenerations
      (t.node.generations.erase t.record.hibernationGeneration))
  | some (.complete _) => none
  | none => some t

/-- `delete_published` removes COMPLETE, and then what is left of the directory. -/
def deletePublished (generation : Nat) (unlinked : Bool) : Option Attempt :=
  if t.record.hibernationGeneration < generation then none
  else match t.node.generations.lookup generation, unlinked with
    | some (.complete _), false =>
      some (t.withGenerations (t.node.generations.insert generation .pending))
    | some .pending, true => some (t.withGenerations (t.node.generations.erase generation))
    | _, _ => none

/-- `_release_parked_storage` before it asks for the release. A discarded mount is released already. -/
def commitCapture : Option Attempt :=
  if t.node.splitMemory then
    match t.node.complete t.record.hibernationGeneration with
    | none => none
    | some manifest =>
      if manifest.workspace ≠ t.node.workspaceRef then none
      else match t.node.workspace.state with
        | .capturePrepared => (t.withWorkspace t.node.workspace.commitCapture).map fun t =>
            { t with node := { t.node with
              committed := some (t.node.workspace.captureId, t.node.container) } }
        | .mounted => t.withWorkspace t.node.workspace.discardResume
        | _ => some t
  else some t

def abortWorkspaceCapture : Option Attempt :=
  if t.node.splitMemory then
    match t.node.workspace.state with
    | .capturePrepared => t.withWorkspace t.node.workspace.abortCapture
    | .mounted => some t
    | _ => none
  else some t

/-- One action; `none` when it raises. `answer` is a capture id or the manifest's digest. -/
def exec (action : Action) (answer : String) : Option Attempt :=
  match action with
  | .beginHibernate operationId =>
    t.write (t.node.journal.beginHibernate operationId t.record.revision)
  | .prepareGeneration => t.prepareGeneration
  | .checkpoint =>
    if (t.node.runtimeStatus t.record.sentry).isSome then some (t.withStatus .paused) else none
  | .requireAlive | .openSentryFence => if t.node.alive t.record.sentry then some t else none
  | .requirePaused =>
    if t.node.splitMemory && t.node.runtimeStatus t.record.sentry ≠ some .paused then none else some t
  | .prepareCapture =>
    if t.node.splitMemory then t.withWorkspace (t.node.workspace.prepareCapture answer) else some t
  | .publishComplete => t.publishComplete answer
  | .persistParkedManifest =>
    if (t.node.complete t.record.hibernationGeneration).any (·.runtime = t.node.fingerprint) then some t
    else none
  | .terminate => some (t.withStatus .dead)
  | .markSentryReaped =>
    t.write (t.node.journal.markSentryReaped t.record.operationId t.record.revision)
  | .deleteRuntime => some { t with node := { t.node with container := false } }
  | .commitCapture => t.commitCapture
  | .ensureReleased => t.withWorkspace t.node.workspace.ensureReleased
  | .commitParked =>
    match t.node.complete t.record.hibernationGeneration with
    | some manifest =>
      t.write (t.node.journal.commitParked manifest t.record.operationId t.record.revision)
    | none => none
  | .abortWorkspaceCapture => t.abortWorkspaceCapture
  | .ensureRuntimeRunning =>
    if (t.node.runtimeStatus t.record.sentry).isSome then some (t.withStatus .running) else none
  | .abortHibernate =>
    t.write (t.node.journal.abortHibernate t.record.operationId t.record.revision t.record.sentry)
  | .discardPending => t.discardPending
  | .quarantine reason dead => t.write (t.node.journal.quarantine reason t.record.revision dead)
  | .terminateIdentities =>
    some (if t.node.alive t.record.sentry || t.node.alive t.record.candidate then t.withStatus .dead
      else t)
  | .ensureWorkspaceMounted => t.withWorkspace t.node.workspace.ensureMounted
  | .deletePublished generation unlinked => t.deletePublished generation unlinked

end Attempt

def releaseParkedStorage : List Action := [.commitCapture, .ensureReleased]

def parkProgram (operationId : String) : List Action :=
  [.beginHibernate operationId, .prepareGeneration,
    .checkpoint, .requireAlive, .requirePaused, .prepareCapture, .publishComplete,
    .persistParkedManifest,
    .terminate, .markSentryReaped, .deleteRuntime] ++ releaseParkedStorage ++ [.commitParked]

/-- The actions of the inner `try`: their exceptions are rolled back unless COMPLETE exists. -/
def Action.inTry : Action → Bool
  | .checkpoint | .requireAlive | .requirePaused | .prepareCapture | .publishComplete
  | .persistParkedManifest => true
  | _ => false

def resumeOriginal : List Action :=
  [.abortWorkspaceCapture, .ensureRuntimeRunning, .abortHibernate, .discardPending]

variable (n : Node)

def rollbackCapture (hibernating : Record) : List Action :=
  if n.alive hibernating.sentry then resumeOriginal
  else [.quarantine "sentry died before hibernation publication" true]

def quarantineStorageError : List Action :=
  [.terminateIdentities, .quarantine "storage-native volume is in error state" true]

/-- The journal writes of `HibernationReconciler.reconcile`, and the action it reports. -/
def reconcileJournal (record : Record) : HibernationRecoveryAction × List Action :=
  let sentryAlive := n.alive record.sentry
  let candidateAlive := n.alive record.candidate
  let error := (n.published record).bind (n.artifactError record)
  let manifest := (n.published record).isSome && error.isNone
  match error, sentryAlive || candidateAlive with
  | some error, false =>
    (.quarantine, [.quarantine ("complete artifact is invalid: " ++ error)
      (record.authority = .live)])
  | _, _ =>
    match classifyHibernationRecovery record sentryAlive candidateAlive manifest with
    | .finishPendingGeneration =>
      let reap := if record.authority = .live && !sentryAlive then [.markSentryReaped] else []
      if manifest then (.keepParked, reap ++ [.commitParked]) else (.finishPendingGeneration, reap)
    | .quarantine =>
      (.quarantine, [.quarantine "reconciliation could not prove an authoritative runtime"
        (record.authority = .live && !sentryAlive)])
    | action => (action, [])

def reconcileTail : HibernationRecoveryAction → List Action
  | .adoptRunning =>
    if n.reflinkMemoryRestore then []
    else n.generations.keys.flatMap fun k => [.deletePublished k false, .deletePublished k true]
  | .finishPublishedGeneration =>
    [.openSentryFence, .terminate, .markSentryReaped, .deleteRuntime, .commitParked,
      .persistParkedManifest] ++ releaseParkedStorage
  | .resumeOrRetryHibernate => .openSentryFence :: resumeOriginal
  | .finishPendingGeneration =>
    [.quarantine "sentry died before a complete generation was published" false]
  | .keepParked => releaseParkedStorage
  | _ => []

def reconcileProgram (record : Record) : List Action :=
  (reconcileJournal n record).2 ++ reconcileTail n (reconcileJournal n record).1

/-- Where the agent is: in park, its handler, or reconcile before or after its decision. -/
inductive Phase where
  | park
  | rollback
  | examine
  | decided
  deriving DecidableEq

structure Procedure where
  phase : Phase
  record : Record
  rest : List Action
  deriving DecidableEq

structure State where
  node : Node
  procedure : Option Procedure := none

/-- An action succeeds, raises without effect, or takes effect and raises. -/
inductive Outcome where
  | done
  | refused
  | lost
  deriving DecidableEq

inductive Event where
  | park (operationId : String)
  | reconcile
  | proceed (outcome : Outcome) (answer : String)
  | crash (fingerprint : String)
  | sentryExit
  | storageError
  deriving DecidableEq

/-- `reconcile` up to its first action; `none` when it returns at once. Interrupted restores are not
modelled. -/
def startReconcile : Option Procedure :=
  if n.journal.state = .recoveryRequired then none
  else if n.workspace.state = .error then some ⟨.decided, n.journal, quarantineStorageError⟩
  else some ⟨.examine, n.journal,
    if n.journal.state ≠ .running && !n.splitMemory then [.ensureWorkspaceMounted] else []⟩

namespace State

/-- An exception leaves the procedure, through the handler of `park`'s inner `try` before COMPLETE
exists. -/
def raise (node : Node) (p : Procedure) (action : Action) : State where
  node
  procedure :=
    if p.phase = .park && action.inTry && (node.complete p.record.hibernationGeneration).isNone then
      some ⟨.rollback, p.record, rollbackCapture node p.record⟩
    else none

def proceed (s : State) (p : Procedure) (outcome : Outcome) (answer : String) : State :=
  match p.rest with
  | [] =>
    if p.phase = .examine then
      { s with procedure := some ⟨.decided, p.record, reconcileProgram s.node p.record⟩ }
    else { s with procedure := none }
  | action :: rest =>
    match Attempt.exec ⟨s.node, p.record⟩ action answer with
    | none => raise s.node p action
    | some t =>
      match outcome with
      | .done => { node := t.node, procedure := some { p with record := t.record, rest } }
      | .refused => raise s.node p action
      | .lost => raise t.node p action

end State

def step (s : State) : Event → Option State
  | .park operationId =>
    if s.procedure = none ∧ s.node.journal.state = .running ∧ s.node.alive s.node.journal.sentry then
      some { s with procedure := some ⟨.park, s.node.journal, parkProgram operationId⟩ }
    else none
  | .reconcile =>
    if s.procedure = none ∧ s.node.journal.state ≠ .restoring then
      some { s with procedure := startReconcile s.node }
    else none
  | .proceed outcome answer => s.procedure.map fun p => s.proceed p outcome answer
  | .crash fingerprint => some { node := { s.node with fingerprint } }
  | .sentryExit => some { s with node := { s.node with status := .dead } }
  | .storageError =>
    some { s with node := { s.node with workspace := { s.node.workspace with state := .error } } }

/-- A running sandbox before a park: its sentry is alive and not captured. Earlier generations may
be left. -/
structure Start (s : State) : Prop where
  idle : s.procedure = none
  running : s.node.journal.state = .running
  sentry : s.node.journal.sentry = some s.node.sentry
  candidate : s.node.journal.candidate = none
  status : s.node.status = .running
  container : s.node.container = true
  workspace : s.node.workspace.state = .mounted
  committed : s.node.committed = none
  generations : ∀ k, s.node.generations.lookup k ≠ none → k ≤ s.node.journal.hibernationGeneration
  foreign : ∀ k m, s.node.complete k = some m → m.captured ≠ s.node.sentry

end UCloudSandboxes.Warden
