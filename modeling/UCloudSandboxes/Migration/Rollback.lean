import UCloudSandboxes.Migration.Ownership

/-! Cancelling an uncommitted migration when every call of the abort is executed. -/
namespace UCloudSandboxes.Migration
open Routing Registry SandboxRows RoutingRows
open Routing.Example (snapshot)

/-- A handler run to its answer: the rows it leaves and the refusal it answers with, if any. -/
def executed (handler : SandboxRows → Served) : Nat → SandboxRows → SandboxRows × Option String
  | 0, rows => (rows,some "unfinished")
  | passes + 1, rows =>
    match handler rows with
    | .progress rows' => executed handler passes rows'
    | .done => (rows,none)
    | .refused e => (rows,some e)

variable (mv : Move) (s : State) (m : SandboxMigration)

def fence : Migration := ⟨mv.migrationId,m.snapshotSha256⟩

/-- The destination is asked only once its import may have started. -/
def abortDestination (rows : SandboxRows) : SandboxRows × Option String :=
  if m.phase = .prepared || m.phase = .staged then
    executed (Registry.abortImport · (fence mv m)) 3 rows
  else (rows,none)

/-- `_abort_sandbox_migration`, every call reaching its worker and no other writer about. -/
def abortSandboxMigration : State :=
  let destination := abortDestination mv m s.destinationRows
  let s := { s with destinationRows := destination.1 }
  match destination.2 with
  | some e => s.recordError mv m e
  | none =>
    let source := executed (abortMove · (fence mv m)) 2 s.sourceRows
    let s := { s with sourceRows := source.1 }
    match source.2 with
    | some e => s.recordError mv m e
    | none => s.moveJournal mv m .complete "cancelled before route commit"

def unheld (rows : SandboxRows) : Bool := rows.registration.all (·.migrationId ≠ mv.migrationId)

/-- What a driver and earlier aborts can leave, stopped at any point: the journal entry and the rows
of source and destination. -/
inductive Driven : SandboxMigration → SandboxRows → SandboxRows → Prop
  | planned {m source destination} : mv.migrationId ≠ "" → m.phase = .planned →
      m.snapshotSha256 = "" → unheld mv destination = true → Driven m source destination
  | source {m source source' destination c snapshot} : Driven m source destination →
      c = .prepare m ∨ c = .abortSource m → handle mv source c snapshot false = .progress source' →
      Driven m source' destination
  | destination {m source destination destination' c snapshot full} : Driven m source destination →
      m.phase ≠ .planned → c = .stage m ∨ c = .abortImport m →
      handle mv destination c snapshot full = .progress destination' → Driven m source destination'
  -- The digest comes from the fenced source, or from a detached route without asking the source.
  | prepared {m m' source destination} : Driven m source destination → m.phase = .planned →
      prepareStorageNativeMove source (fence mv m') = .done ∨ m'.sourceFenced = false →
      m'.snapshotSha256 ≠ "" → m'.phase = .prepared → Driven m' source destination
  | staged {m m' source destination} : Driven m source destination → m.phase = .prepared →
      m'.snapshotSha256 = m.snapshotSha256 → m'.phase = .staged → Driven m' source destination

/-- The journal is complete, the destination holds nothing, and the source's registration is owned. -/
structure RolledBack (s' : State) : Prop where
  journal : (s'.journal mv).any (·.phase = .complete) = true
  destination : unheld mv s'.destinationRows = true
  source : s.sourceRows.registration ≠ none → s'.sourceRows.phase? = some .owned

/-- The source's row is owned, or fenced by this migration with a digest the journal can name. -/
def revertible (migration : Migration) (rows : SandboxRows) : Bool :=
  rows.registration.any fun r => r.phase = .owned || r.phase = .movingOut &&
    r.migrationId = migration.id && (migration.sha256 = "" || r.migrationSha256 = migration.sha256)

/-- The destination is not asked yet, or has no row that only another migration may abort. -/
def clearable (rows : SandboxRows) : Bool :=
  m.phase = .planned || rows.registration.all fun r =>
    r.phase = .deleting || r.migrationId = mv.migrationId

/-- Once the journal left `planned` the digest is known and the destination may have a row. -/
structure Kept (destination : SandboxRows) : Prop where
  id : mv.migrationId ≠ ""
  phase : abortable m = true
  digest : m.phase = .planned ↔ m.snapshotSha256 = ""
  rows : ∀ r, destination.registration = some r → r.migrationId = mv.migrationId →
    m.phase ≠ .planned ∧ (r.phase = .deleting ∨ r.importing (fence mv m))

variable {mv s m} {migration : Migration} {rows rows' : SandboxRows}

theorem Driven.kept {source destination} (h : Driven mv m source destination) :
    Kept mv m destination := by
  induction h with
  | planned hid hp hs hd =>
    refine ⟨hid,by simp [abortable,hp],by simp [hp,hs],fun r hr heq => ?_⟩
    simp [unheld,hr,heq] at hd
  | source _ _ _ ih => exact ih
  | destination _ hp hc h ih =>
    refine ⟨ih.id,ih.phase,ih.digest,fun r hr _ => ⟨hp,?_⟩⟩
    rcases hc with rfl | rfl
    · exact .inr (stageStorageNativeImport_progress h hr)
    · exact .inl (abortImport_progress h hr)
  | prepared _ hp _ hs hp' ih =>
    refine ⟨ih.id,by simp [abortable,hp'],by simp [hp',hs],fun r hr heq => ?_⟩
    exact absurd hp (ih.rows r hr heq).1
  | staged _ hp hs hp' ih =>
    refine ⟨ih.id,by simp [abortable,hp'],by simp [hp',hs,← ih.digest,hp],fun r hr heq => ?_⟩
    rw [fence,hs]
    exact ⟨by simp [hp'],(ih.rows r hr heq).2⟩

theorem executed_abortImport (hid : migration.id ≠ "") (hsha : migration.sha256 ≠ "")
    (h : ∀ r, rows.registration = some r → r.phase = .deleting ∨ r.importing migration) :
    ∃ rows', executed (Registry.abortImport · migration) 3 rows = (rows',none) ∧
      rows'.registration = none := by
  cases hr : rows.registration with
  | none => simp [executed,Registry.abortImport,hr]
  | some r =>
    rcases h r hr with hp | ⟨hp,hm,hs⟩
    · simp [executed,Registry.abortImport,hr,hp,commitDeleted,Served.ofResult]
    simp only [List.mem_cons,List.not_mem_nil,or_false] at hp
    rcases hp with hp | hp | hp | hp
    · simp [executed,Registry.abortImport,hr,hp,abortImportPlanned,hm,hs,Served.ofResult]
    -- Past the plan, the row is marked as deleting before it goes.
    all_goals
      simp [executed,Registry.abortImport,hr,hp,beginDeleteImport,transition,Fences.hold,Fences.fenced,
        Registration.migrationOwnershipValid,hm,hs,hid,hsha,commitDeleted,Served.ofResult]

theorem executed_abortMove (h : revertible migration rows = true) :
    ∃ rows', executed (abortMove · migration) 2 rows = (rows',none) ∧ rows'.phase? = some .owned := by
  obtain ⟨r,hr,h⟩ := (Option.any_eq_true _ _).mp h
  by_cases hp : r.phase = .owned
  · simp [executed,abortMove,hr,hp,phase?]
  · obtain ⟨⟨hp,hm⟩,hs⟩ : (r.phase = .movingOut ∧ r.migrationId = migration.id) ∧
      (migration.sha256 = "" ∨ r.migrationSha256 = migration.sha256) := by simpa [hp] using h
    rcases hs with hs | hs <;>
      simp [executed,abortMove,hr,hp,hm,hs,abortMoveOut,transition,Fences.hold,Fences.fenced,
        Registration.migrationOwnershipValid,Served.ofResult,phase?]

theorem executed_abortMove_refused (h : revertible migration rows = false) :
    ∃ e, executed (abortMove · migration) 2 rows = (rows,some e) := by
  cases hr : rows.registration with
  | none => simp [executed,abortMove,hr]
  | some r =>
    simp only [revertible,hr] at h
    have hp : r.phase ≠ .owned := by
      intro hp
      simp [hp] at h
    by_cases he : migration.sha256 = ""
    · have hm : r.phase ≠ .movingOut ∨ r.migrationId ≠ migration.id := by
        simpa [hp,he,← imp_iff_not_or] using h
      simp [executed,abortMove,hr,hp,he,hm]
    · have hf : (Fences.fenced [.movingOut] migration "move abort lost its ownership fence").hold r
          r.revision = false := by
        simpa [Fences.hold,Fences.fenced,hp,he,eq_comm (a := migration.id),
          eq_comm (a := migration.sha256)] using h
      simp [executed,abortMove,hr,hp,he,abortMoveOut,transition,hf,Served.ofResult]

theorem advance_journal (hm : s.journal mv = some m) {phase}
    (hto : phase = m.phase ∨ phase = .complete) (update) :
    ∃ rows m', s.routing.advanceSandboxMigration mv.migrationId [m.phase] phase update =
      some (rows,m') ∧ rows.getSandboxMigration mv.migrationId = some m' ∧ m'.phase = phase := by
  have hget : s.routing.getSandboxMigration mv.migrationId = some m := hm
  cases h : s.routing.advanceSandboxMigration mv.migrationId [m.phase] phase update with
  | none =>
    have hone : s.routing.activeUnique (update.apply phase m) = true := by
      by_cases hc : phase = .complete
      · simp [activeUnique,MigrationUpdate.apply,hc]
      · refine activeUnique_of_active (m := m) ?_ (hto.resolve_right hc ▸ hc)
        exact (getSandboxMigration_migrationId hget) ▸ hget
    simp [advanceSandboxMigration,hget,writeSandboxMigration,hone] at h
  | some moved =>
    obtain ⟨_,_,_,_,hjnl,hphase,_⟩ := advanceSandboxMigration_some h
    exact ⟨_,_,rfl,hjnl,hphase⟩

theorem Kept.cleared (hk : Kept mv m rows) (hc : clearable mv m rows = true) :
    ∃ rows', abortDestination mv m rows = (rows',none) ∧ unheld mv rows' = true := by
  unfold abortDestination
  split
  · rename_i hp
    have hne : m.phase ≠ .planned := fun he => by simp [he] at hp
    have hrow : ∀ r, rows.registration = some r → r.phase = .deleting ∨ r.importing (fence mv m) := by
      intro r hr
      by_cases hd : r.phase = .deleting
      · exact .inl hd
      · exact (hk.rows r hr (by simpa [clearable,hne,hr,hd] using hc)).2
    obtain ⟨rows',h,hnone⟩ := executed_abortImport hk.id (fun he => hne (hk.digest.mpr he)) hrow
    exact ⟨rows',h,by simp [unheld,hnone]⟩
  · rename_i hp
    have hplan : m.phase = .planned := by simpa [abortable,Bool.or_assoc,hp] using hk.phase
    refine ⟨rows,rfl,(Option.all_eq_true _ _).mpr fun r hr => decide_eq_true fun heq => ?_⟩
    exact (hk.rows r hr heq).1 hplan

theorem Kept.refused (hk : Kept mv m rows) (hc : clearable mv m rows = false) :
    ∃ e, abortDestination mv m rows = (rows,some e) := by
  simp only [clearable,Bool.or_eq_false_iff] at hc
  have hasked : (m.phase = .prepared || m.phase = .staged) = true := by
    simpa [abortable,hc.1] using hk.phase
  cases hr : rows.registration with
  | none => simp [hr] at hc
  | some r =>
    obtain ⟨hd,hother⟩ : r.phase ≠ .deleting ∧ r.migrationId ≠ mv.migrationId := by simpa [hr] using hc.2
    rw [abortDestination]
    cases hp : r.phase <;>
      simp_all [executed,Registry.abortImport,abortImportPlanned,beginDeleteImport,transition,Fences.hold,
        Fences.fenced,fence,Ne.symm hother,Served.ofResult]

theorem not_rolledBack {t : State} (hm : t.journal mv = some m) (ha : abortable m = true) (e) :
    ¬ RolledBack mv s (t.recordError mv m e) := by
  obtain ⟨rows,m',hadv,hj,hp⟩ := advance_journal hm (.inl rfl) { error := some e }
  intro hback
  have hcpl : m.phase = .complete := by
    simpa [State.recordError,State.moveJournal,hadv,State.journal,hj,hp] using hback.journal
  simp [abortable,hcpl] at ha

/-- A cancelled migration is rolled back exactly if its source can be released and its destination
cleared: an absent source, as a detached route leaves it, refuses the abort. -/
theorem abortSandboxMigration_rolledBack_iff (hm : s.journal mv = some m)
    (hd : Driven mv m s.sourceRows s.destinationRows) :
    RolledBack mv s (abortSandboxMigration mv s m) ↔
      revertible (fence mv m) s.sourceRows = true ∧ clearable mv m s.destinationRows = true := by
  have hk := hd.kept
  unfold abortSandboxMigration
  cases hc : clearable mv m s.destinationRows with
  | false =>
    obtain ⟨e,hdest⟩ := hk.refused hc
    rw [hdest]
    simpa using not_rolledBack (by exact hm) hk.phase e
  | true =>
    obtain ⟨destination,hdest,hclear⟩ := hk.cleared hc
    rw [hdest]
    cases hr : revertible (fence mv m) s.sourceRows with
    | true =>
      obtain ⟨source,hsou,howned⟩ := executed_abortMove hr
      obtain ⟨rows,m',hadv,hj,hp⟩ := advance_journal hm (.inr rfl)
        { error := some "cancelled before route commit" }
      simp only [hsou,State.moveJournal,hadv,and_self,iff_true]
      exact ⟨by simp [State.journal,hj,hp],hclear,fun _ => howned⟩
    | false =>
      obtain ⟨e,hsou⟩ := executed_abortMove_refused hr
      simp only [hsou]
      simpa using not_rolledBack (by exact hm) hk.phase e

namespace Example

/-- The migration of a detached route, prepared from the snapshot the route carries. -/
def cold : SandboxMigration := { prepared with sourceFenced := false }

def coldStart : State where
  routing := { route := some { route with workerState := .detached }, migrations := [cold] }
  sourceRows := {}
  destinationRows := {}

/-- The source is fenced and the answer with its digest was lost. -/
def lostPrepare : State := { start with
  routing := { route := some route, migrations := [planned] }
  sourceRows := { registration := some ⟨1,"create-1","spec-1","",.movingOut,"move","digest",2,none⟩ } }

end Example
open Example

/-- The source of a detached route is gone and refuses the abort, so the journal stays open. -/
theorem detached_source_not_rolledBack : coldStart.journal move = some cold ∧
    Driven move cold coldStart.sourceRows coldStart.destinationRows ∧
    ¬ RolledBack move coldStart (abortSandboxMigration move coldStart cold) := by
  refine ⟨by decide +kernel,?_,fun h => ?_⟩
  · exact .prepared (.planned (m := planned) (by decide) rfl rfl rfl) rfl (.inr rfl) (by decide) rfl
  · exact absurd h.journal (by decide +kernel)

theorem lost_prepare_rolledBack : RolledBack move lostPrepare
    (abortSandboxMigration move lostPrepare planned) := by
  refine (abortSandboxMigration_rolledBack_iff (by decide +kernel) ?_).mpr (by decide +kernel)
  have hstart : Driven move planned start.sourceRows {} := .planned (by decide) rfl rfl rfl
  have hpre : handle move start.sourceRows (.prepare planned) snapshot false =
    .progress lostPrepare.sourceRows := by decide +kernel
  exact hstart.source (.inl rfl) hpre

end UCloudSandboxes.Migration
