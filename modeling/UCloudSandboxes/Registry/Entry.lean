import UCloudSandboxes.Admission.Growth
import UCloudSandboxes.Registry.Registration
import UCloudSandboxes.Machine.Keyed

/-! The growth forecast of one sandbox id: its `managed_growth` row, its wake fences, and the fenced
step of the row. -/
namespace UCloudSandboxes.Registry
open Admission (GrowthIntent GrowthPhase)

inductive GrowthAction where
  | launch
  | bind
  | activate
  | wait
  | park
  | terminal
  deriving DecidableEq

structure GrowthStep where
  generation : Nat
  action : GrowthAction
  jobId : String := ""
  launchSha256 : String := ""
  requestId : String := ""
  deriving DecidableEq

/-- The rows of `managed_growth` and `relay_wake_fences` under one sandbox id. -/
structure GrowthRows where
  row : Option GrowthIntent := none
  wakeFences : List (Nat × String) := []
  deriving DecidableEq

namespace GrowthRows

variable (rows : GrowthRows) (generation : Nat) (requestId : String)

def wakeFenced : Bool :=
  rows.wakeFences.contains (generation, requestId)

def insertWakeFence : GrowthRows :=
  { rows with wakeFences := rows.wakeFences.insert (generation, requestId) }

/-- What `commit_deleted` forgets: the forecast and the fences of one generation. -/
def forget : GrowthRows where
  row := rows.row.filter fun intent => intent.generation ≠ (generation : Int)
  wakeFences := rows.wakeFences.filter (·.1 ≠ generation)

end GrowthRows

namespace GrowthStep

variable (step : GrowthStep) (existing : GrowthIntent) (sandboxId : String) (owner : Registration)
  (rows : GrowthRows)

/-- A new row and its insert: the product wraps in an `i64`, and the table's
`CHECK (memory_bytes > 0)` fails as unreadable. -/
def newIntent (phase : GrowthPhase) (jobId launchSha256 requestId : String)
    : Result GrowthIntent :=
  match owner.memoryMb with
  | none => .error (.invalid "growth intent requires memory_mb")
  | some memoryMb =>
    let memoryBytes := (memoryMb * Admission.mib : Int).bmod (2 ^ 64)
    if memoryBytes ≤ 0 then .error .unreadable
    else .ok { sandboxId, generation := owner.sandboxGeneration, jobId, launchSha256, memoryBytes,
               phase, requestId }

def names (intent : GrowthIntent) : Bool :=
  intent.jobId = step.jobId && intent.launchSha256 = step.launchSha256

/-- `launch` and `bind`: a different launch may replace a queued one only. -/
def identify : Option GrowthIntent → Result (Option GrowthIntent)
  | none => (newIntent sandboxId owner .queued step.jobId step.launchSha256 "").map some
  | some existing =>
    if existing.jobId = "" then
      -- An imported primary binds only through the supervisor.
      if step.action = .bind then
        .ok (some { existing with jobId := step.jobId, launchSha256 := step.launchSha256 })
      else .ok (some existing)
    else if step.names existing then .ok (some existing)
    else if step.action = .bind || existing.phase ≠ .queued then
      .error (.managedPrimaryOwned existing.jobId)
    -- A timed-out admission left it queued; nothing was dispatched.
    else .ok (some { existing with jobId := step.jobId, launchSha256 := step.launchSha256 })

def terminate : GrowthIntent :=
  if step.jobId ≠ "" && (existing.jobId = "" || existing.jobId = step.jobId) then
    { existing with phase := .terminal }
  else existing

/-- A queued launch has no primary to capture. -/
def capture : GrowthIntent :=
  if existing.phase ≠ .terminal && existing.phase ≠ .queued then { existing with phase := .parked }
  else existing

def settle : GrowthIntent :=
  match existing.phase with
  | .active | .safe => { existing with phase := .safe, requestId := step.requestId }
  | .parked => { existing with requestId := step.requestId }
  | .queued | .terminal => existing

def charge : GrowthIntent :=
  let charged := { existing with phase := GrowthPhase.active, requestId := step.requestId }
  match existing.phase with
  -- Only this launch's own admission charges it.
  | .queued => if step.names existing then charged else existing
  | .parked => charged
  | .safe =>
    if existing.requestId = "" || existing.requestId = step.requestId then charged else existing
  | .active | .terminal => existing

def next : Result (Option GrowthIntent) :=
  match step.action with
  | .launch | .bind =>
    if step.jobId = "" || !isDigest step.launchSha256 then
      .error (.invalid "invalid managed launch identity")
    else step.identify sandboxId owner rows.row
  | .terminal => .ok (rows.row.map step.terminate)
  | .park => .ok (rows.row.map capture)
  | .wait =>
    if step.requestId = "" || rows.wakeFenced step.generation step.requestId then
      .error (.conflict "growth wait was superseded by wake")
    else match rows.row with
      | none => (newIntent sandboxId owner .safe "" "" step.requestId).map some
      | some existing => .ok (some (step.settle existing))
  | .activate => match rows.row with
      | none => (newIntent sandboxId owner .active "" "" step.requestId).map some
      | some existing => .ok (some (step.charge existing))

/-- Admission and revocation of a safe wait are one commit. -/
def fence : GrowthRows :=
  if step.action = .activate && step.requestId ≠ "" then
    rows.insertWakeFence step.generation step.requestId
  else rows

end GrowthStep

/-- `growth_intent_step`: the forecast of this generation's sole primary. -/
def growthIntentStep (sandboxId : String) (registration : Option Registration) (rows : GrowthRows)
    (step : GrowthStep) : Result GrowthRows :=
  match registration with
  | none => .error SandboxRows.absentRegistration
  | some owner =>
    if owner.sandboxGeneration ≠ step.generation || owner.phase ≠ .owned then
      .error (.conflict "growth intent lost incarnation ownership")
    else if rows.row.any (fun intent => intent.generation ≠ (step.generation : Int)) then
      .error (.conflict "growth intent has stale generation")
    else (step.next sandboxId owner rows).map fun row => step.fence { rows with row }

/-! Everything the node registry keeps under one sandbox id, and every operation that writes any of
it. -/
open Machine

structure WorkspaceCapacity where
  sandboxGeneration : Nat
  mountEpoch : Nat
  releasedMb : Nat
  deriving DecidableEq

structure Entry where
  sandboxId : String
  rows : SandboxRows := {}
  growth : GrowthRows := {}
  workspaceCapacity : Option WorkspaceCapacity := none
  runtimeCompatibility : Option String := none
  deriving DecidableEq

namespace Entry

variable (e : Entry) (candidate : Registration) (capacityExhausted : Bool) (sandboxGeneration : Nat)

/-- Bind the node to one runtime compatibility; `othersAgree` speaks for the other records. -/
def bindRuntimeCompatibility (expectedSha256 : String) (othersAgree : Bool) :
    Result Entry :=
  if !isDigest expectedSha256 then .error (.invalid "runtime compatibility digest is invalid")
  else if e.runtimeCompatibility.any (· ≠ expectedSha256) then
    .error (.registry "node state belongs to another runtime compatibility")
  else if e.rows.registration.any (·.runtimeCompatibilitySha256 ≠ expectedSha256) || !othersAgree then
    .error (.registry "direct registry contains another runtime compatibility")
  else .ok { e with runtimeCompatibility := some expectedSha256 }

/-- The candidate is validated, then held against the bound compatibility, then planned. -/
def planCandidate : Result Entry :=
  match candidate.validate with
  | .error error => .error error
  | .ok () =>
    if e.runtimeCompatibility.any (· ≠ candidate.runtimeCompatibilitySha256) then
      .error (.registry "direct registration belongs to another runtime compatibility")
    else (e.rows.planCandidate candidate capacityExhausted).map fun rows => { e with rows }

def plan : Result Entry :=
  e.planCandidate candidate.asPlanned capacityExhausted

def planImport (migration : Migration) (capacityExhausted : Bool) : Result Entry :=
  e.planCandidate (candidate.asImport migration) capacityExhausted

def moved (result : Result SandboxRows) : Result Entry :=
  match result with
  | .error error => .error error
  | .ok rows => (rows.registration.elim (.ok ()) Registration.validate).map fun _ => { e with rows }

/-- Delete a `deleting` record, tombstone it, and forget its releases, forecast and fences. -/
def commitDeleted (sandboxGeneration revision : Nat) (overlap : Bool) : Result Entry :=
  if sandboxGeneration = 0 then .error (.invalid "sandbox generation must be positive")
  else match e.rows.commitDeleted sandboxGeneration revision with
    | .error error => .error error
    | .ok rows =>
      if overlap then .error (.conflict "deletion retains unreconciled reflink overlap")
      else .ok { e with
        rows
        workspaceCapacity := none
        growth := e.growth.forget sandboxGeneration }

def growthIntent (step : GrowthStep) : Result Entry :=
  (growthIntentStep e.sandboxId e.rows.registration e.growth step).map fun growth =>
    { e with growth }

/-- One commit; a savepoint undoes just the step that fails. -/
def growthIntentSteps (steps : List GrowthStep) : Entry :=
  steps.foldl (fun e step => ((e.growthIntent step).toOption).getD e) e

/-- Whether a wake intent supersedes this request's park; `record` persists one. -/
def relayWakeFence (generation : Nat) (requestId : String) (record : Bool) :
    Result (Entry × Bool) :=
  if generation < 1 || !isOperationId requestId then
    .error (.invalid "invalid relay lifecycle identity")
  else match e.rows.registration with
    | none => .error SandboxRows.absentRegistration
    | some owner =>
      if owner.sandboxGeneration ≠ generation then
        .error (.conflict "relay lifecycle generation changed")
      else if record then
        .ok ({ e with growth := e.growth.insertWakeFence generation requestId }, true)
      else .ok (e, e.growth.wakeFenced generation requestId)

/-- The incarnation's mount epoch and released MiB; another generation's row counts as none. -/
def mountEpoch : Nat × Nat :=
  match e.workspaceCapacity with
  | none => (0, 0)
  | some row =>
    if row.sandboxGeneration = sandboxGeneration then (row.mountEpoch, row.releasedMb) else (0, 0)

/-- Stop charging a published workspace. A mount since the epoch was captured refuses it. -/
def releasePublishedWorkspace (sandboxGeneration workspaceMb expectedMountEpoch : Nat)
    (dynamicClaimMb : Option Nat) : Result (Entry × Bool) :=
  if workspaceMb = 0 then .error (.invalid "invalid released workspace size")
  else match e.rows.registration with
    | none => .error SandboxRows.absentRegistration
    | some owner =>
      if owner.sandboxGeneration ≠ sandboxGeneration || owner.phase ≠ .owned then
        .error (.conflict "workspace release lost incarnation ownership")
      else
        let epoch := (e.mountEpoch sandboxGeneration).1
        if epoch ≠ expectedMountEpoch then .ok (e, false)
        else
          -- The remount re-reserves exactly the grant it will mount.
          let releasedMb := (dynamicClaimMb.map (max · 1)).getD workspaceMb
          .ok ({ e with workspaceCapacity := some ⟨sandboxGeneration, epoch, releasedMb⟩ }, true)

/-- Re-charge a released workspace before any mount, and always advance the mount epoch. -/
def reserveWorkspaceForMount (capacityExhausted : Bool) : Result Entry :=
  match e.rows.registration with
  | none => .error SandboxRows.absentRegistration
  | some owner =>
    if owner.sandboxGeneration ≠ sandboxGeneration then
      .error (.conflict "workspace mount lost incarnation ownership")
    else
      let (epoch, released) := e.mountEpoch sandboxGeneration
      if released ≠ 0 && capacityExhausted then
        .error (.capacityUnavailable "workspace remount physical disk capacity exhausted")
      else .ok { e with workspaceCapacity := some ⟨sandboxGeneration, epoch + 1, 0⟩ }

end Entry

inductive Transition where
  | commitQuota (revision : Nat)
  | commitRootfs (revision : Nat) (quota : Bool)
  | commitOwned (revision : Nat)
  | commitImportQuota (revision : Nat)
  | commitImportRootfs (revision : Nat)
  | commitImportReady (revision : Nat) (migration : Migration)
  | activateImport (revision : Nat) (migration : Migration)
  | beginMoveOut (revision : Nat) (migration : Migration)
  | abortMoveOut (revision : Nat) (migration : Migration)
  | beginDelete (revision : Nat) (expectedGeneration : Option Nat)
  | beginDeleteMoved (revision : Nat) (migration : Migration)
  | beginDeleteImport (revision : Nat) (migration : Migration)
  deriving DecidableEq

def Transition.apply (rows : SandboxRows) : Transition → Result SandboxRows
  | .commitQuota revision => rows.commitQuota revision
  | .commitRootfs revision quota => rows.commitRootfs revision quota
  | .commitOwned revision => rows.commitOwned revision
  | .commitImportQuota revision => rows.commitImportQuota revision
  | .commitImportRootfs revision => rows.commitImportRootfs revision
  | .commitImportReady revision migration => rows.commitImportReady revision migration
  | .activateImport revision migration => rows.activateImport revision migration
  | .beginMoveOut revision migration => rows.beginMoveOut revision migration
  | .abortMoveOut revision migration => rows.abortMoveOut revision migration
  | .beginDelete revision expectedGeneration => rows.beginDelete revision expectedGeneration
  | .beginDeleteMoved revision migration => rows.beginDeleteMoved revision migration
  | .beginDeleteImport revision migration => rows.beginDeleteImport revision migration

/-- One registry call on this sandbox id. What it reads of other sandboxes is in its arguments. -/
inductive Operation where
  | bindRuntimeCompatibility (expectedSha256 : String) (othersAgree : Bool)
  | plan (candidate : Registration) (capacityExhausted : Bool)
  | planImport (candidate : Registration) (migration : Migration) (capacityExhausted : Bool)
  | move (transition : Transition)
  | abortImportPlanned (revision : Nat) (migration : Migration) (retire : Bool)
  | commitDeleted (sandboxGeneration revision : Nat) (overlap : Bool)
  | growthIntent (step : GrowthStep)
  | relayWakeFence (generation : Nat) (requestId : String) (record : Bool)
  | releasePublishedWorkspace (sandboxGeneration workspaceMb expectedMountEpoch : Nat)
      (dynamicClaimMb : Option Nat)
  | reserveWorkspaceForMount (sandboxGeneration : Nat) (capacityExhausted : Bool)
  deriving DecidableEq

namespace Entry

def apply (e : Entry) : Operation → Result Entry
  | .bindRuntimeCompatibility expectedSha256 othersAgree =>
    e.bindRuntimeCompatibility expectedSha256 othersAgree
  | .plan candidate capacityExhausted => e.plan candidate capacityExhausted
  | .planImport candidate migration capacityExhausted =>
    e.planImport candidate migration capacityExhausted
  | .move transition => e.moved (transition.apply e.rows)
  | .abortImportPlanned revision migration retire =>
    e.moved (e.rows.abortImportPlanned revision migration retire)
  | .commitDeleted sandboxGeneration revision overlap =>
    e.commitDeleted sandboxGeneration revision overlap
  | .growthIntent step => e.growthIntent step
  | .relayWakeFence generation requestId record =>
    (e.relayWakeFence generation requestId record).map (·.1)
  | .releasePublishedWorkspace sandboxGeneration workspaceMb expectedMountEpoch dynamicClaimMb =>
    (e.releasePublishedWorkspace sandboxGeneration workspaceMb expectedMountEpoch
      dynamicClaimMb).map (·.1)
  | .reserveWorkspaceForMount sandboxGeneration capacityExhausted =>
    e.reserveWorkspaceForMount sandboxGeneration capacityExhausted

def step (e : Entry) (operation : Operation) : Option Entry := (e.apply operation).toOption

def Start (e : Entry) : Prop := ∃ sandboxId, e = { sandboxId }

inductive Effect (e : Entry) : Operation → Entry → Prop
  | bound {sha others} :
      (∀ actual, e.runtimeCompatibility = some actual → actual = sha) →
      (∀ r, e.rows.registration = some r → r.runtimeCompatibilitySha256 = sha) →
      Effect e (.bindRuntimeCompatibility sha others) { e with runtimeCompatibility := some sha }
  | planned {candidate full e'} :
      e.planCandidate candidate.asPlanned full = .ok e' → Effect e (.plan candidate full) e'
  | imported {candidate migration full e'} :
      e.planCandidate (candidate.asImport migration) full = .ok e' →
      Effect e (.planImport candidate migration full) e'
  | moved {transition rows} :
      transition.apply e.rows = .ok rows → (∀ r, rows.registration = some r → r.validate = .ok ()) →
      Effect e (.move transition) { e with rows }
  | aborted {revision migration retire rows} :
      e.rows.abortImportPlanned revision migration retire = .ok rows →
      Effect e (.abortImportPlanned revision migration retire) { e with rows }
  | deleted {generation revision overlap rows} :
      e.rows.commitDeleted generation revision = .ok rows →
      Effect e (.commitDeleted generation revision overlap)
        { e with rows, workspaceCapacity := none, growth := e.growth.forget generation }
  | grown {step growth} :
      growthIntentStep e.sandboxId e.rows.registration e.growth step = .ok growth →
      Effect e (.growthIntent step) { e with growth }
  | fenced {generation requestId} :
      Effect e (.relayWakeFence generation requestId true)
        { e with growth := e.growth.insertWakeFence generation requestId }
  | read {generation requestId} :
      Effect e (.relayWakeFence generation requestId false) e
  | kept {generation mb expected claim} :
      Effect e (.releasePublishedWorkspace generation mb expected claim) e
  | released {generation mb expected releasedMb claim owner} :
      e.rows.registration = some owner → owner.sandboxGeneration = generation →
      owner.phase = .owned → (e.mountEpoch generation).1 = expected →
      Effect e (.releasePublishedWorkspace generation mb expected claim)
        { e with workspaceCapacity := some ⟨generation,expected,releasedMb⟩ }
  | reserved {generation full owner} :
      e.rows.registration = some owner → owner.sandboxGeneration = generation →
      Effect e (.reserveWorkspaceForMount generation full)
        { e with workspaceCapacity := some ⟨generation,(e.mountEpoch generation).1 + 1,0⟩ }

variable {e e' : Entry} {generation : Nat}

theorem planCandidate_ok {candidate full} (h : e.planCandidate candidate full = .ok e') : ∃ rows,
      candidate.validate = .ok () ∧
      (∀ bound, e.runtimeCompatibility = some bound → bound = candidate.runtimeCompatibilitySha256) ∧
      e.rows.planCandidate candidate full = .ok rows ∧ e' = { e with rows } := by
  unfold planCandidate at h
  split at h
  · cases h
  rename_i hv
  obtain ⟨hbound,h⟩ := of_guard h nofun
  obtain ⟨rows,hrows,rfl⟩ := ok_of_map_ok h
  exact ⟨rows,hv,fun bound hb => by simpa [hb] using hbound,hrows,rfl⟩

theorem moved_ok {result} (h : e.moved result = .ok e') :
    ∃ rows, result = .ok rows ∧ e' = { e with rows } ∧
      ∀ r, rows.registration = some r → r.validate = .ok () := by
  cases result with
  | error => cases h
  | ok rows =>
    simp only [moved] at h
    cases hr : rows.registration with
    | none =>
      rw [hr] at h
      exact ⟨rows,rfl,(Except.ok.inj h).symm,by simp [hr]⟩
    | some r =>
      rw [hr] at h
      cases hv : r.validate with
      | error => simp [hv,Except.map] at h
      | ok =>
        simp only [Option.elim_some,hv] at h
        refine ⟨rows,rfl,(Except.ok.inj h).symm,fun r' hr' => ?_⟩
        obtain rfl : r = r' := by simpa [hr] using hr'
        exact hv

theorem releasePublishedWorkspace_ok {mb expected claim released}
    (h : e.releasePublishedWorkspace generation mb expected claim = .ok (e',released)) :
    (e' = e ∧ released = false) ∨ released = true ∧ ∃ owner,
      e.rows.registration = some owner ∧ owner.sandboxGeneration = generation ∧
      owner.phase = .owned ∧ (e.mountEpoch generation).1 = expected ∧ e' = { e with
        workspaceCapacity := some ⟨generation,expected,(claim.map (max · 1)).getD mb⟩ } := by
  obtain ⟨-,h⟩ := of_guard h nofun
  split at h
  · cases h
  rename_i owner hr
  obtain ⟨howner,h⟩ := of_guard h nofun
  simp only [Bool.or_eq_true,decide_eq_true_eq,not_or,not_not] at howner
  dsimp only at h
  split at h
  · cases h
    exact .inl ⟨rfl,rfl⟩
  · rename_i hepoch
    cases h
    rw [not_not] at hepoch
    exact .inr ⟨rfl,owner,hr,howner.1,howner.2,hepoch,by rw [hepoch]⟩

theorem reserveWorkspaceForMount_ok {full} (h : e.reserveWorkspaceForMount generation full = .ok e') :
    ∃ owner, e.rows.registration = some owner ∧ owner.sandboxGeneration = generation ∧ e' = { e with
        workspaceCapacity := some ⟨generation,(e.mountEpoch generation).1 + 1,0⟩ } := by
  unfold reserveWorkspaceForMount at h
  split at h
  · cases h
  rename_i owner hr
  obtain ⟨howner,h⟩ := of_guard h nofun
  dsimp only at h
  split at h
  · cases h
  · cases h
    exact ⟨owner,hr,not_not.mp howner,rfl⟩

theorem commitDeleted_effect {revision overlap}
    (h : e.commitDeleted generation revision overlap = .ok e') :
    e.Effect (.commitDeleted generation revision overlap) e' := by
  obtain ⟨-,h⟩ := of_guard h nofun
  split at h
  · cases h
  rename_i hd
  split at h
  · cases h
  · cases h
    exact .deleted hd

theorem effect_of_apply {operation} (h : e.apply operation = .ok e') : e.Effect operation e' := by
  cases operation with
  | bindRuntimeCompatibility =>
    dsimp only [apply] at h
    unfold bindRuntimeCompatibility at h
    split_ifs at h with _ hbound hrows
    cases h
    refine .bound (fun actual ha => ?_) (fun r hr => ?_)
    · simpa [ha] using hbound
    · simp only [hr,Bool.or_eq_true,not_or] at hrows
      simpa using hrows.1
  | plan => exact .planned h
  | planImport => exact .imported h
  | move =>
    obtain ⟨rows,hrows,rfl,hv⟩ := moved_ok h
    exact .moved hrows hv
  | abortImportPlanned =>
    obtain ⟨rows,hrows,rfl,-⟩ := moved_ok h
    exact .aborted hrows
  | commitDeleted => exact commitDeleted_effect h
  | growthIntent =>
    obtain ⟨growth,hg,rfl⟩ := ok_of_map_ok h
    exact .grown hg
  | relayWakeFence generation requestId record =>
    obtain ⟨⟨e',b⟩,hf,rfl⟩ := ok_of_map_ok h
    obtain ⟨-,hf⟩ := of_guard hf nofun
    split at hf
    · cases hf
    obtain ⟨-,hf⟩ := of_guard hf nofun
    cases record with
    | true =>
      cases hf
      exact .fenced
    | false =>
      cases hf
      exact .read
  | releasePublishedWorkspace =>
    obtain ⟨⟨e',b⟩,hr,rfl⟩ := ok_of_map_ok h
    obtain ⟨rfl,-⟩ | ⟨-,owner,hrow,hgen,hphase,hepoch,rfl⟩ :=
      releasePublishedWorkspace_ok hr
    · exact .kept
    · exact .released hrow hgen hphase hepoch
  | reserveWorkspaceForMount =>
    obtain ⟨owner,hrow,hgen,rfl⟩ := reserveWorkspaceForMount_ok h
    exact .reserved hrow hgen

theorem apply_of_step {operation} (h : e.step operation = some e') : e.apply operation = .ok e' := by
  unfold step at h
  cases ha : e.apply operation with
  | error => rw [ha] at h; cases h
  | ok =>
    rw [ha] at h
    rw [Option.some.inj h]

theorem effect_of_step {operation} (h : e.step operation = some e') : e.Effect operation e' :=
  effect_of_apply (apply_of_step h)

namespace Example

def digest : String := "0123456789abcdef0123456789abcdef0123456789abcdef0123456789abcdef"

def candidate (generation : Nat) : Registration where
  sandboxGeneration := generation
  operationId := "create"
  specSha256 := digest
  runtimeCompatibilitySha256 := digest
  phase := .planned
  memoryMb := some 512

def migration : Migration := ⟨"move",digest⟩

def empty : Entry := { sandboxId := "sandbox" }

end Example
end Entry
end UCloudSandboxes.Registry
