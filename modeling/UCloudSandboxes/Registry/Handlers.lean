import UCloudSandboxes.Registry.Registration

/-! Worker handlers of the migration protocol, cut at their registry transitions, where an
interruption leaves the rows. -/
namespace UCloudSandboxes.Registry
open SandboxRows

/-- One move of a handler: commit a registry transition and go on, answer success, or refuse. -/
inductive Served where
  | progress (rows : SandboxRows)
  | done
  | refused (message : String)
  deriving DecidableEq

def RegistryError.message : RegistryError → String
  | .registry m | .conflict m | .registrationOwned m | .capacityUnavailable m | .invalid m => m
  | .unreadable => "direct registry is unreadable"
  | .managedPrimaryOwned _ => "sandbox generation already owns another primary process"

def Served.ofResult : Result SandboxRows → Served
  | .ok rows => .progress rows
  | .error e => .refused e.message

variable (rows : SandboxRows) (migration : Migration)

/-- `prepare_storage_native_move`: publish a parked source and fence it. A prepared source answers
again with its snapshot. -/
def prepareStorageNativeMove : Served :=
  match rows.registration with
  | none => .refused "direct sandbox registration is absent"
  | some r =>
    if r.phase = .movingOut then
      if r.migrationId ≠ migration.id || r.migrationSha256 = "" then
        .refused "source does not own this prepared migration"
      else if r.migrationSha256 ≠ migration.sha256 then
        .refused "prepared storage-native migration changed identity"
      else .done
    else .ofResult (rows.beginMoveOut r.revision migration)

/-- `abort_move`: an empty digest is recovered from the moving-out registration, as the gateway may
have lost the response. -/
def abortMove : Served :=
  match rows.registration with
  | none => .refused "migration source is absent"
  | some r =>
    if r.phase = .owned then .done
    else if migration.sha256 = "" then
      if r.phase ≠ .movingOut || r.migrationId ≠ migration.id then
        .refused "source does not own this prepared migration"
      else .ofResult (rows.abortMoveOut r.revision ⟨migration.id,r.migrationSha256⟩)
    else .ofResult (rows.abortMoveOut r.revision migration)

def finalizeMovedSource : Served :=
  match rows.registration with
  | none => .done
  | some r =>
    match r.phase with
    | .movingOut => .ofResult (rows.beginDeleteMoved r.revision migration)
    | .deleting => .ofResult (rows.commitDeleted r.sandboxGeneration r.revision)
    | _ => .refused "source migration is not fenced for final deletion"

/-- `stage_storage_native_import`: every pass replays the plan before it continues. -/
def stageStorageNativeImport (candidate : Registration) (migration : Migration)
    (capacityExhausted : Bool) : Served :=
  match rows.planImport candidate migration capacityExhausted with
  | .error e => .refused e.message
  | .ok planned =>
    match rows.registration with
    | none => .progress planned
    | some r =>
      match r.phase with
      | .importPlanned => .ofResult (rows.commitImportQuota r.revision)
      | .importing => .ofResult (rows.commitImportRootfs r.revision)
      | .rootfsReady =>
        if r.migrationId ≠ "" then .ofResult (rows.commitImportReady r.revision migration)
        else .refused "storage-native import cannot continue from rootfs_ready"
      | .importReady | .owned => .done
      | _ => .refused "storage-native import cannot continue"

/-- `activate_import`: replaying the activation of this migration succeeds. -/
def activateMigration : Served :=
  match rows.registration with
  | none => .refused "migration destination is absent"
  | some r =>
    if r.phase = .owned then
      if r.migrationId ≠ migration.id || r.migrationSha256 ≠ migration.sha256 then
        .refused "activated sandbox belongs to another migration"
      else .done
    else .ofResult (rows.activateImport r.revision migration)

/-- `abort_import`: without a row there is nothing to abort and no tombstone is written. -/
def abortImport : Served :=
  match rows.registration with
  | none => .done
  | some r =>
    match r.phase with
    | .owned => .refused "an activated migration cannot be aborted as an import"
    | .importPlanned => .ofResult (rows.abortImportPlanned r.revision migration true)
    | .deleting => .ofResult (rows.commitDeleted r.sandboxGeneration r.revision)
    | _ => .ofResult (rows.beginDeleteImport r.revision migration)

/-- `delete`: a migrating registration has its own fenced deletion path. -/
def deleteSandbox (generation : Nat) : Served :=
  match rows.registration with
  | none => .done
  | some r =>
    if r.sandboxGeneration ≠ generation then .refused "delete generation does not own direct sandbox"
    else if r.phase = .deleting then .ofResult (rows.commitDeleted r.sandboxGeneration r.revision)
    else if r.migrationId ≠ "" && r.phase ≠ .owned then
      .refused "migration registration requires its fenced deletion path"
    else .ofResult (rows.beginDelete r.revision (some r.sandboxGeneration))

variable {rows rows' : SandboxRows} {migration : Migration}

open Served

theorem Served.ofResult_progress {x} (h : ofResult x = .progress rows) : x = .ok rows := by
  cases x with
  | error => cases h
  | ok =>
    obtain rfl := progress.inj h
    rfl

namespace SandboxRows

theorem transition_phase {rows rows' : SandboxRows} {revision fences phase}
    (h : rows.transition revision fences phase id = .ok rows') :
    ∃ r, rows.registration = some r ∧ r.phase ∈ fences.fromPhases ∧ rows'.phase? = some phase := by
  obtain ⟨r,hr,hf,hr'⟩ := transition_ok h
  exact ⟨r,hr,Fences.hold_phase hf,by simp [phase?,hr']⟩

end SandboxRows

theorem prepareStorageNativeMove_progress
    (h : prepareStorageNativeMove rows migration = .progress rows') :
    rows.phase? = some .owned ∧ rows'.movingOutUnder migration.id = true := by
  unfold prepareStorageNativeMove at h
  split at h
  · cases h
  split at h
  · repeat' split at h
    all_goals cases h
  · obtain ⟨r',hr',hf,hn⟩ := transition_ok (ofResult_progress h)
    have hown : r'.phase = .owned := by simpa using Fences.hold_phase hf
    exact ⟨by simp [phase?,hr',hown],by simp [movingOutUnder,hn]⟩

theorem prepareStorageNativeMove_done (h : prepareStorageNativeMove rows migration = .done) :
    rows.movingOutUnder migration.id = true := by
  unfold prepareStorageNativeMove at h
  split at h
  · cases h
  rename_i r hr
  split at h
  · rename_i hp
    split at h
    · cases h
    rename_i hm
    have hid : r.migrationId = migration.id := by
      simp only [Bool.or_eq_true,decide_eq_true_eq,not_or,not_not] at hm
      exact hm.1
    simp [movingOutUnder,hr,hp,hid]
  · cases hb : rows.beginMoveOut r.revision migration with
    | error | ok => rw [hb] at h; cases h

private theorem abortMoveOut_ok {revision}
    (h : rows.abortMoveOut revision migration = .ok rows') :
    rows.movingOutUnder migration.id = true ∧ rows'.phase? = some .owned := by
  obtain ⟨r,hr,hf,hn⟩ := transition_ok h
  have hp : r.phase = .movingOut := by simpa [Fences.fenced] using Fences.hold_phase hf
  have hm : r.migrationId = migration.id := Fences.hold_migration rfl hf
  exact ⟨by simp [movingOutUnder,hr,hp,hm],by simp [phase?,hn]⟩

theorem abortMove_progress (h : abortMove rows migration = .progress rows') :
    rows.movingOutUnder migration.id = true ∧ rows'.phase? = some .owned := by
  unfold abortMove at h
  split at h
  · cases h
  split at h
  · cases h
  split at h
  · split at h
    · cases h
    · have hm := abortMoveOut_ok (ofResult_progress h)
      exact hm
  · exact abortMoveOut_ok (ofResult_progress h)

theorem finalizeMovedSource_progress (h : finalizeMovedSource rows migration = .progress rows') :
    rows'.phase? = some .deleting ∨ rows'.registration = none := by
  unfold finalizeMovedSource at h
  split at h
  · cases h
  split at h
  · obtain ⟨_,_,_,hp⟩ := transition_phase (ofResult_progress h)
    exact .inl hp
  · exact .inr (commitDeleted_ok (ofResult_progress h))
  · cases h

/-- The row of an import under the migration, before it is activated or aborted. -/
def Registration.importing (r : Registration) (migration : Migration) : Prop :=
  r.phase ∈ [.importPlanned,.importing,.rootfsReady,.importReady] ∧
    r.migrationId = migration.id ∧ r.migrationSha256 = migration.sha256

theorem stageStorageNativeImport_progress {candidate r' full}
    (h : stageStorageNativeImport rows candidate migration full = .progress rows')
    (hr' : rows'.registration = some r') : r'.importing migration := by
  unfold stageStorageNativeImport at h
  split at h
  · cases h
  rename_i planned hplan
  obtain ⟨-,r,hr,-,hmig⟩ | ⟨hr,rfl,-⟩ := planCandidate_cases hplan
  · rw [hr] at h
    -- No transition of an import changes the migration.
    have moved {fences phase} (hmem : phase ∈ [.importPlanned,.importing,.rootfsReady,.importReady])
        (ht : ofResult (rows.transition r.revision fences phase id) = .progress rows') :
        r'.importing migration := by
      obtain ⟨x,hx,-,hn⟩ := transition_ok (ofResult_progress ht)
      cases hr.symm.trans hx
      cases hr'.symm.trans hn
      exact ⟨hmem,hmig rfl⟩
    dsimp only at h
    split at h
    · exact moved (by simp) h
    · exact moved (by simp) h
    · split at h
      · exact moved (by simp) h
      · cases h
    all_goals cases h
  · rw [hr] at h
    cases h
    cases hr'
    exact ⟨.head _,rfl,rfl⟩

theorem abortImport_progress {r'} (h : abortImport rows migration = .progress rows')
    (hr' : rows'.registration = some r') : r'.phase = .deleting := by
  unfold abortImport at h
  split at h
  · cases h
  split at h
  · cases h
  · cases (abortImportPlanned_ok (ofResult_progress h)).symm.trans hr'
  · cases (commitDeleted_ok (ofResult_progress h)).symm.trans hr'
  · obtain ⟨_,_,_,hp⟩ := transition_phase (ofResult_progress h)
    simpa [phase?,hr'] using hp

theorem deleteSandbox_progress {generation}
    (h : deleteSandbox rows generation = .progress rows') : rows.phase? ≠ some .movingOut ∧
      (rows'.phase? = some .deleting ∨ rows'.registration = none) := by
  unfold deleteSandbox at h
  split at h
  · cases h
  rename_i hr
  split at h
  · cases h
  split at h
  · rename_i hd
    exact ⟨by simp [phase?,hr,hd], .inr (commitDeleted_ok (ofResult_progress h))⟩
  · split at h
    · cases h
    · obtain ⟨r',hr',hf,hp⟩ := transition_phase (ofResult_progress h)
      refine ⟨?_,.inl hp⟩
      intro hm
      have hphase : r'.phase = .movingOut := by simpa [phase?,hr'] using hm
      simp [hphase] at hf

end UCloudSandboxes.Registry
