import Mathlib.Data.List.Basic
import UCloudSandboxes.Machine.Basic

/-! The registration state machine for one sandbox id: its row, its tombstones, and the fenced
transitions that write them. -/
namespace UCloudSandboxes.Registry
open Machine Except

inductive Phase where
  | planned
  | quotaReady
  | rootfsReady
  | owned
  | importPlanned
  | importing
  | importReady
  | movingOut
  | deleting
  deriving DecidableEq

inductive RegistryError where
  | registry (message : String)
  | unreadable
  | conflict (message : String)
  | registrationOwned (message : String)
  | capacityUnavailable (message : String)
  | managedPrimaryOwned (jobId : String)
  | invalid (message : String)
  deriving DecidableEq

abbrev Result (α : Type) := Except RegistryError α

structure Migration where
  id : String
  sha256 : String
  deriving DecidableEq

structure Registration where
  sandboxGeneration : Nat
  operationId : String
  specSha256 : String
  runtimeCompatibilitySha256 : String
  phase : Phase
  migrationId : String := ""
  migrationSha256 : String := ""
  revision : Nat := 1
  memoryMb : Option Nat := none
  deriving DecidableEq

/-- `Registration::validate`: a digest goes with an id, and exactly the migration phases carry one. -/
def Registration.migrationOwnershipValid (r : Registration) : Bool :=
  let migrating : Bool := r.migrationId ≠ ""
  let migrationPhase : Bool := match r.phase with
    | .importPlanned | .importing | .importReady | .movingOut => true
    | .rootfsReady | .owned | .deleting => migrating
    | .planned | .quotaReady => false
  migrating == decide (r.migrationSha256 ≠ "") && migrationPhase == migrating

def byteIn (first last : Char) (byte : UInt8) : Bool := first.toUInt8 ≤ byte && byte ≤ last.toUInt8

def isAsciiAlphanumeric (byte : UInt8) : Bool :=
  byteIn '0' '9' byte || byteIn 'A' 'Z' byte || byteIn 'a' 'z' byte

def isDigest (text : String) : Bool :=
  let bytes := text.toUTF8.data.toList
  bytes.length = 64 && bytes.all fun byte => byteIn '0' '9' byte || byteIn 'a' 'f' byte

/-- An alphanumeric character, then at most 127 of `[A-Za-z0-9_.:-]`. -/
def isOperationId (text : String) : Bool :=
  match text.toUTF8.data.toList with
  | [] => false
  | first :: rest => rest.length < 128 && isAsciiAlphanumeric first && rest.all fun byte =>
      isAsciiAlphanumeric byte || ['_', '.', ':', '-'].any (·.toUInt8 = byte)

def Registration.validate (r : Registration) : Result Unit :=
  if r.sandboxGeneration = 0 then .error (.invalid "sandbox generation must be positive")
  else if !isOperationId r.operationId then
    .error (.invalid "direct registration operation id is invalid")
  else if !isDigest r.runtimeCompatibilitySha256 then
    .error (.invalid "direct registration runtime compatibility is invalid")
  else if r.migrationId ≠ "" && !isOperationId r.migrationId then
    .error (.invalid "direct registration migration id is invalid")
  else if r.migrationSha256 ≠ "" && !isDigest r.migrationSha256 then
    .error (.invalid "direct registration migration digest is invalid")
  else if !r.migrationOwnershipValid then
    .error (.invalid "direct registration migration ownership is invalid")
  else .ok ()

theorem Registration.validate_iff {r : Registration} : r.validate = .ok () ↔
    r.sandboxGeneration ≠ 0 ∧ isOperationId r.operationId = true ∧
      isDigest r.runtimeCompatibilitySha256 = true ∧
      (r.migrationId ≠ "" → isOperationId r.migrationId = true) ∧
      (r.migrationSha256 ≠ "" → isDigest r.migrationSha256 = true) ∧
      r.migrationOwnershipValid = true := by
  unfold validate
  split_ifs <;> simp_all

structure Registration.SameIdentity (r r' : Registration) : Prop where
  generation : r.sandboxGeneration = r'.sandboxGeneration
  operation : r.operationId = r'.operationId
  spec : r.specSha256 = r'.specSha256
  compatibility : r.runtimeCompatibilitySha256 = r'.runtimeCompatibilitySha256

def Registration.asPlanned (candidate : Registration) : Registration :=
  { candidate with phase := .planned, migrationId := "", migrationSha256 := "", revision := 1 }

def Registration.asImport (candidate : Registration) (migration : Migration) : Registration :=
  { candidate with
    phase := .importPlanned
    migrationId := migration.id
    migrationSha256 := migration.sha256
    revision := 1 }

structure SandboxRows where
  registration : Option Registration := none
  generationTombstone : Option Nat := none
  migrationTombstones : List String := []
  deriving DecidableEq

structure Fences where
  fromPhases : List Phase
  migration : Option Migration := none
  expectedGeneration : Option Nat := none
  error : String := "direct registration transition lost its ownership fence"
  retire : Bool := false

def Fences.fenced (fromPhases : List Phase) (migration : Migration) (error : String) : Fences :=
  { fromPhases, migration := some migration, error }

/-- Revision, generation, phase and migration of the record all match. -/
def Fences.hold (fences : Fences) (record : Registration) (revision : Nat) : Bool :=
  record.revision = revision && fences.expectedGeneration.all (· = record.sandboxGeneration) &&
    fences.fromPhases.contains record.phase &&
      fences.migration.all fun m => m.id = record.migrationId && m.sha256 = record.migrationSha256

theorem Fences.hold_phase {fences : Fences} {record revision} (h : fences.hold record revision = true) :
    record.phase ∈ fences.fromPhases := by
  simp only [Fences.hold,Bool.and_eq_true] at h
  simpa using h.1.2

theorem Fences.hold_migration {fences : Fences} {record revision migration}
    (hm : fences.migration = some migration) (h : fences.hold record revision = true) :
    record.migrationId = migration.id := by
  simp only [Fences.hold,Bool.and_eq_true,hm] at h
  simpa [eq_comm] using And.left (by simpa using h.2)

namespace SandboxRows

variable (rows : SandboxRows) (revision : Nat) (migration : Migration) (candidate : Registration)
  (capacityExhausted : Bool) (migrationId : String)

def retire : SandboxRows :=
  { rows with migrationTombstones := migrationId :: rows.migrationTombstones }

def retireIfMigrating (record : Registration) : SandboxRows :=
  if record.migrationId ≠ "" then rows.retire record.migrationId else rows

def absentRegistration : RegistryError := .conflict "direct registration is absent"

/-- Compare-and-swap on revision, phase and fences, then write the next revision. -/
def transition (fences : Fences) (phase : Phase) (change : Registration → Registration)
    : Result SandboxRows :=
  match rows.registration with
  | none => .error absentRegistration
  | some record =>
    let retired := if fences.retire then rows.retireIfMigrating record else rows
    let updated := change { record with phase, revision := record.revision + 1 }
    if !fences.hold record revision then .error (.conflict fences.error)
    else if !updated.migrationOwnershipValid then
      .error (.invalid "direct registration migration ownership is invalid")
    else .ok { retired with registration := some updated }

def planCandidate : Result SandboxRows :=
  let imported := candidate.phase = .importPlanned
  match rows.registration with
  | some existing =>
    if existing.sandboxGeneration = candidate.sandboxGeneration &&
        existing.operationId = candidate.operationId && existing.specSha256 = candidate.specSha256 &&
        existing.runtimeCompatibilitySha256 = candidate.runtimeCompatibilitySha256 &&
        (!imported || (existing.migrationId = candidate.migrationId &&
          existing.migrationSha256 = candidate.migrationSha256)) then .ok rows
    else .error (.registrationOwned "sandbox already has another direct registration")
  | none =>
    if imported && rows.migrationTombstones.contains candidate.migrationId then
      .error (.conflict "migration import is fenced by a tombstone")
    else if !imported && rows.generationTombstone.any (candidate.sandboxGeneration ≤ ·) then
      .error (.conflict "direct registration is fenced by a tombstone")
    else if capacityExhausted then
      .error (.capacityUnavailable "combined workspace and memory backing capacity exhausted")
    else .ok { rows with registration := some candidate }

/-- Generation tombstones do not apply to an import; its migration's tombstone does. -/
def planImport (migration : Migration) (capacityExhausted : Bool) : Result SandboxRows :=
  rows.planCandidate (candidate.asImport migration) capacityExhausted

def commitQuota : Result SandboxRows :=
  rows.transition revision { fromPhases := [.planned] } .quotaReady id

/-- `quota_ready` to `rootfs_ready`, or with its quota straight from `planned`. -/
def commitRootfs (quota : Bool) : Result SandboxRows :=
  rows.transition revision { fromPhases := if quota then [.planned] else [.quotaReady] }
    .rootfsReady id

def commitOwned : Result SandboxRows :=
  rows.transition revision { fromPhases := [.rootfsReady] } .owned id

def commitImportQuota : Result SandboxRows :=
  rows.transition revision { fromPhases := [.importPlanned] } .importing id

def commitImportRootfs : Result SandboxRows :=
  rows.transition revision { fromPhases := [.importing] } .rootfsReady id

def commitImportReady : Result SandboxRows :=
  rows.transition revision
    (.fenced [.rootfsReady] migration "import readiness lost its ownership fence") .importReady id

/-- The migration fields stay on the activated record. -/
def activateImport : Result SandboxRows :=
  rows.transition revision
    (.fenced [.importReady] migration "import activation lost its ownership fence") .owned id

/-- The record's previous migration is tombstoned. -/
def beginMoveOut : Result SandboxRows :=
  rows.transition revision
    { fromPhases := [.owned], error := "move preparation lost its ownership fence", retire := true }
    .movingOut fun record =>
      { record with migrationId := migration.id, migrationSha256 := migration.sha256 }

def abortMoveOut : Result SandboxRows :=
  rows.transition revision
    (.fenced [.movingOut] migration "move abort lost its ownership fence") .owned fun record =>
      { record with migrationId := "", migrationSha256 := "" }

def beginDelete (expectedGeneration : Option Nat) : Result SandboxRows :=
  rows.transition revision
    { fromPhases := [.planned, .quotaReady, .rootfsReady, .owned], expectedGeneration } .deleting id

def beginDeleteMoved : Result SandboxRows :=
  rows.transition revision
    (.fenced [.movingOut] migration "move finalization lost its ownership fence") .deleting id

def beginDeleteImport : Result SandboxRows :=
  rows.transition revision (.fenced [.importing, .rootfsReady, .importReady] migration
    "import abort lost its ownership fence") .deleting id

/-- Drop an `import_planned` record. No generation tombstone is written. -/
def abortImportPlanned (retire : Bool) : Result SandboxRows :=
  match rows.registration with
  | none => .error absentRegistration
  | some record =>
    if record.phase ≠ .importPlanned || record.revision ≠ revision ||
        record.migrationId ≠ migration.id || record.migrationSha256 ≠ migration.sha256 then
      .error (.conflict "import plan abort lost its ownership fence")
    else .ok { (if retire then rows.retire migration.id else rows) with registration := none }

/-- Delete a `deleting` record and tombstone its generation and its migration. -/
def commitDeleted (sandboxGeneration revision : Nat) : Result SandboxRows :=
  match rows.registration with
  | none => .error absentRegistration
  | some record =>
    if record.phase ≠ .deleting || record.revision ≠ revision ||
        record.sandboxGeneration ≠ sandboxGeneration then
      .error (.conflict "direct deletion completion lost its ownership fence")
    else .ok { (rows.retireIfMigrating record) with
      registration := none
      generationTombstone := some (max (rows.generationTombstone.getD 0) sandboxGeneration) }

def phase? : Option Phase := rows.registration.map (·.phase)

def movingOutUnder : Bool :=
  rows.registration.any fun r => r.phase = .movingOut && r.migrationId = migrationId

variable {rows rows' : SandboxRows} {revision : Nat}

theorem transition_eq {fences phase change}
    (h : rows.transition revision fences phase change = .ok rows') :
    ∃ record, rows.registration = some record ∧ fences.hold record revision = true ∧
      rows' = { (if fences.retire then rows.retireIfMigrating record else rows) with
        registration := some (change { record with phase, revision := record.revision + 1 }) } := by
  unfold transition at h
  split at h
  · cases h
  rename_i record hr
  dsimp only at h
  split at h
  · cases h
  rename_i ha
  split at h
  · cases h
  · exact ⟨record,hr,by simpa using ha,(ok.inj h).symm⟩

theorem transition_ok {fences phase change}
    (h : rows.transition revision fences phase change = .ok rows') :
    ∃ record, rows.registration = some record ∧ fences.hold record revision = true ∧
      rows'.registration = some (change { record with phase, revision := record.revision + 1 }) := by
  obtain ⟨record,hr,hold,rfl⟩ := transition_eq h
  exact ⟨record,hr,hold,rfl⟩

theorem planCandidate_cases {candidate full} (h : rows.planCandidate candidate full = .ok rows') :
    (rows' = rows ∧ ∃ existing, rows.registration = some existing ∧ candidate.SameIdentity existing ∧
      (candidate.phase = .importPlanned → existing.migrationId = candidate.migrationId ∧
        existing.migrationSha256 = candidate.migrationSha256)) ∨
    (rows.registration = none ∧ rows' = { rows with registration := some candidate } ∧
      (candidate.phase = .importPlanned → candidate.migrationId ∉ rows.migrationTombstones) ∧
      (candidate.phase ≠ .importPlanned → ∀ tombstone, rows.generationTombstone = some tombstone →
        tombstone < candidate.sandboxGeneration) ∧ full = false) := by
  unfold planCandidate at h
  cases hr : rows.registration with
  | some existing =>
    rw [hr] at h
    obtain ⟨hsame,h⟩ := of_check h nofun
    simp only [Bool.and_eq_true,decide_eq_true_eq,Bool.or_eq_true,Bool.not_eq_true',
      decide_eq_false_iff_not] at hsame
    obtain ⟨⟨⟨⟨hg,ho⟩,hs⟩,hc⟩,hm⟩ := hsame
    refine .inl ⟨(ok.inj h).symm,existing,rfl,⟨hg.symm,ho.symm,hs.symm,hc.symm⟩,fun hp => ?_⟩
    exact hm.resolve_left fun hn => hn hp
  | none =>
    rw [hr] at h
    obtain ⟨himp,h⟩ := of_guard h nofun
    obtain ⟨hlocal,h⟩ := of_guard h nofun
    obtain ⟨hfull,h⟩ := of_guard h nofun
    refine .inr ⟨rfl,(ok.inj h).symm,fun hp => ?_,fun hp tombstone ht => ?_,by simpa using hfull⟩
    · simpa [hp] using himp
    · simpa [hp,ht] using hlocal

theorem abortImportPlanned_cases {migration retire}
    (h : rows.abortImportPlanned revision migration retire = .ok rows') :
    ∃ record, rows.registration = some record ∧ record.phase = .importPlanned ∧
      rows' = { (if retire then rows.retire migration.id else rows) with registration := none } := by
  unfold abortImportPlanned at h
  split at h
  · cases h
  rename_i record hr
  obtain ⟨hfence,h⟩ := of_guard h nofun
  simp only [Bool.or_eq_true,decide_eq_true_eq,not_or,not_not] at hfence
  exact ⟨record,hr,hfence.1.1.1,(ok.inj h).symm⟩

theorem commitDeleted_cases {generation} (h : rows.commitDeleted generation revision = .ok rows') :
    ∃ record, rows.registration = some record ∧ record.phase = .deleting ∧
      record.sandboxGeneration = generation ∧ rows' = { (rows.retireIfMigrating record) with
        registration := none
        generationTombstone := some (max (rows.generationTombstone.getD 0) generation) } := by
  unfold commitDeleted at h
  split at h
  · cases h
  rename_i record hr
  obtain ⟨hfence,h⟩ := of_guard h nofun
  simp only [Bool.or_eq_true,decide_eq_true_eq,not_or,not_not] at hfence
  exact ⟨record,hr,hfence.1.1,hfence.2,(ok.inj h).symm⟩

theorem abortImportPlanned_ok {migration retire}
    (h : rows.abortImportPlanned revision migration retire = .ok rows') :
    rows'.registration = none := by
  obtain ⟨_,_,_,rfl⟩ := abortImportPlanned_cases h
  rfl

theorem commitDeleted_ok {sandboxGeneration}
    (h : rows.commitDeleted sandboxGeneration revision = .ok rows') : rows'.registration = none := by
  obtain ⟨_,_,_,_,rfl⟩ := commitDeleted_cases h
  rfl

end SandboxRows
end UCloudSandboxes.Registry
