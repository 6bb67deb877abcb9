import Mathlib.Logic.Function.Iterate
import UCloudSandboxes.Routing.Migration

/-! The gateway's delete request up to its dispatch: record the intent, resolve the journals, finish
a detach fence, and remove the route or name the owner to call. -/
namespace UCloudSandboxes.Gateway
open Routing RoutingRows List
open Routing.Example (snapshot)

inductive WorkerCall where
  | activate
  | finalize
  | abortImport
  | abortSource
  | evictPublished
  deriving DecidableEq

/-- How the workers answer: `none` below HTTP 400, else the error text. -/
abbrev Workers := WorkerCall → Option String

section
variable (rows : RoutingRows) (m : SandboxMigration)

def advanceOr (expected phase : MigrationPhase) (error : String) : RoutingRows × SandboxMigration :=
  (rows.advanceSandboxMigration m.migrationId [expected] phase { error := some error }).getD (rows, m)

def recordMigrationError : String → RoutingRows × SandboxMigration := advanceOr rows m m.phase m.phase

def completeOr (now : Option Nat) : RoutingRows × SandboxMigration :=
  match rows.completeSandboxMigration m.migrationId false now with
  | (rows', some m') => (rows', m')
  | (rows', none) => (rows', m)

end

variable (workers : Workers)

section
variable (rows : RoutingRows) (m : SandboxMigration) (now : Option Nat)

def finalizeSource : RoutingRows × SandboxMigration :=
  if m.phase ≠ .activated then (rows, m)
  else if !m.sourceFenced then completeOr rows m now
  else match workers .finalize with
    | some e => recordMigrationError rows m e
    | none => completeOr rows m now

def advanceCommitted : RoutingRows × SandboxMigration :=
  if m.phase = .routed then
    match workers .activate with
    | some e => recordMigrationError rows m e
    | none =>
      let advanced := advanceOr rows m .routed .activated ""
      finalizeSource workers advanced.1 advanced.2 now
  else finalizeSource workers rows m now

/-- `_abort_sandbox_migration`; the text is empty on success. -/
def abortSandboxMigration : RoutingRows × String :=
  let destination := if m.phase = .prepared || m.phase = .staged then workers .abortImport else none
  match destination <|> workers .abortSource with
  | some e =>
    let recorded := recordMigrationError rows m e
    (recorded.1, recorded.2.error)
  | none => ((advanceOr rows m m.phase .complete "cancelled before route commit").1, "")

end

def resolveMigrations (workers : Workers) (now : Option Nat) :
    RoutingRows → List SandboxMigration → RoutingRows × String
  | rows, [] => (rows, "")
  | rows, m :: rest =>
    if m.phase = .routed || m.phase = .activated then
      let advanced := advanceCommitted workers rows m now
      if advanced.2.phase ≠ .complete then
        (advanced.1, if advanced.2.error = "" then "committed sandbox migration is incomplete"
          else advanced.2.error)
      else resolveMigrations workers now advanced.1 rest
    else
      let aborted := abortSandboxMigration workers rows m
      if aborted.2 ≠ "" then aborted else resolveMigrations workers now aborted.1 rest

def resolveSandboxMigrationsForDelete (now : Option Nat) (rows : RoutingRows) : RoutingRows × String :=
  resolveMigrations workers now rows rows.activeMigrations

/-- `_finish_sandbox_detach`; `absent` says whether the worker's heartbeat proves the route absent. -/
def finishSandboxDetach (rows : RoutingRows) (route : SandboxRoute) (absent : Bool) (now : Option Nat)
    : RoutingRows × Except String SandboxRoute :=
  match rows.route with
  | none => (rows, .error "sandbox route disappeared during worker detach")
  | some current =>
    if current.sandboxId ≠ route.sandboxId || current.incarnation ≠ route.incarnation ||
        current.deleteOperationId ≠ "" then
      (rows, .error "sandbox route changed during worker detach")
    else if current.workerState = .detached then (rows, .ok current)
    else if current.workerState ≠ .detaching || !isPortableParkedRoute current then
      (rows, .error "sandbox route changed during worker detach")
    else match if absent then none else workers .evictPublished with
      | some e => (rows, .error e)
      | none =>
        match rows.completeSandboxDetach current now with
        | (rows', some completed) => (rows', .ok completed)
        | (rows', none) => (rows', .error (if absent then "detach fence changed"
            else "sandbox route changed before worker detach committed"))

inductive DeleteOutcome where
  | dispatch (route : SandboxRoute)
  | deleted (removed : Option SandboxRoute)
  | incomplete (error : String)
  deriving DecidableEq

def settleDelete (rows : RoutingRows) (route : SandboxRoute) (operationId : String)
    (now : Option Nat) : RoutingRows × DeleteOutcome :=
  if route.workerState ≠ .detached then (rows, .dispatch route)
  else
    let rows := rows.prepareSandboxDelete operationId now
    let route := rows.route.getD route
    let deleted := rows.deleteSandboxIfCurrent route.incarnation.generation route.deleteOperationId
    (deleted.1, .deleted deleted.2)

/-- `_prepare_delete_route` after the migration journals: finish a detach fence, then settle. -/
def finishDelete (resolved : RoutingRows × String) (operationId : String) (absent : Bool)
    (now : Option Nat) : RoutingRows × DeleteOutcome :=
  if resolved.2 ≠ "" then (resolved.1, .incomplete resolved.2)
  else match resolved.1.route with
    | none => (resolved.1, .deleted none)
    | some current =>
      if current.workerState = .detaching then
        match finishSandboxDetach workers resolved.1 current absent now with
        | (rows, .error e) => (rows, .incomplete e)
        | (rows, .ok detached) => settleDelete rows detached operationId now
      else settleDelete resolved.1 current operationId now

/-- `_prepare_delete_route`: resolve detach and migration state before proxying a durable delete. -/
def prepareDeleteRoute (rows : RoutingRows) (route : SandboxRoute) (operationId : String)
    (absent : Bool) (now : Option Nat) : RoutingRows × DeleteOutcome :=
  let rows := rows.prepareSandboxDelete operationId now
  let route := rows.route.getD route
  let resolved := if route.workerState = .detached then (rows, "")
    else resolveSandboxMigrationsForDelete workers now rows
  finishDelete workers resolved operationId absent now

/-- Past everything that can block it: the owner is called with no journal active, or the route is
gone. -/
def Finished (result : RoutingRows × DeleteOutcome) : Prop :=
  match result.2 with
  | .dispatch route => result.1.route = some route ∧ route.workerState = .attached ∧
      result.1.activeMigrations = []
  | .deleted _ => result.1.route = none ∧ result.1.activeMigrations = []
  | .incomplete _ => False

/-- The journals still to be resolved are stored as the loop holds them, and no other is active. -/
structure Pending (rows : RoutingRows) (pending : List SandboxMigration) : Prop where
  stored : ∀ m ∈ pending, rows.getSandboxMigration m.migrationId = some m
  distinct : (pending.map (·.migrationId)).Nodup
  active : ∀ m ∈ rows.migrations, m.phase ≠ .complete → ∃ p ∈ pending, p.migrationId = m.migrationId

variable {rows : RoutingRows} {workers : Workers} {m : SandboxMigration} {now : Option Nat}
  {operationId : String}

private theorem find?_of_nodup {l : List SandboxMigration} (hn : (l.map (·.migrationId)).Nodup)
    (hm : m ∈ l) : l.find? (·.migrationId = m.migrationId) = some m := by
  induction l with
  | nil => cases hm
  | cons a l ih =>
    simp only [map_cons,nodup_cons] at hn
    rcases mem_cons.mp hm with rfl | hm
    · simp
    have ha : ¬ a.migrationId = m.migrationId := fun he =>
      hn.1 (he ▸ mem_map_of_mem hm)
    simpa [ha] using ih hn.2 hm

theorem pending_activeMigrations (hn : (rows.migrations.map (·.migrationId)).Nodup) :
    Pending rows rows.activeMigrations where
  stored := fun m hm => find?_of_nodup hn (mem_filter.mp hm).1
  distinct := hn.sublist ((filter_sublist).map _)
  active := fun m hm hp => ⟨m,mem_filter.mpr ⟨hm,by simpa using hp⟩,rfl⟩

theorem Pending.tail {m' rest} (h : Pending rows (m :: rest)) (hid : m'.migrationId = m.migrationId)
    (hphase : m'.phase = .complete) : Pending (rows.putSandboxMigration m') rest := by
  have hdist := h.distinct
  simp only [map_cons,nodup_cons] at hdist
  refine ⟨?_,hdist.2,?_⟩
  · intro x hx
    have hne : x.migrationId ≠ m'.migrationId := by
      rw [hid]
      exact fun he => hdist.1 (he ▸ mem_map_of_mem hx)
    rw [getSandboxMigration_put_ne hne]
    exact h.stored x (.tail _ hx)
  · intro x hx hacti
    rcases mem_putSandboxMigration hx with rfl | ⟨hx,hne⟩
    · exact absurd hphase hacti
    obtain ⟨p,hp,hpid⟩ := h.active x hx hacti
    rcases mem_cons.mp hp with rfl | hp
    · exact absurd (hpid.symm.trans hid.symm) hne
    · exact ⟨p,hp,hpid⟩

theorem abortSandboxMigration_ok (hw : ∀ c, workers c = none)
    (hm : rows.getSandboxMigration m.migrationId = some m) :
    ∃ m', m'.migrationId = m.migrationId ∧ m'.phase = .complete ∧
      abortSandboxMigration workers rows m = (rows.putSandboxMigration m', "") := by
  refine ⟨{ m with phase := .complete, error := "cancelled before route commit" },rfl,rfl,?_⟩
  simp [abortSandboxMigration,advanceOr,advanceSandboxMigration,MigrationUpdate.apply,hw,hm]

section Deleting

variable {route} (hr : rows.route = some route) (hd : route.deleteOperationId ≠ "")
  (hm : rows.getSandboxMigration m.migrationId = some m)
include hr hd hm

theorem completeOr_deleting (hp : m.phase = .activated) : completeOr rows m now = (rows,m) := by
  simp [completeOr,completeSandboxMigration,hm,hp,hr,SandboxRoute.ownedBy,hd]

theorem finalizeSource_deleting (hw : ∀ c, workers c = none) (hp : m.phase = .activated) :
    finalizeSource workers rows m now = (rows,m) := by
  unfold finalizeSource
  rw [if_neg (by simp [hp])]
  split
  · exact completeOr_deleting hr hd hm hp
  · rw [hw]
    exact completeOr_deleting hr hd hm hp

theorem advanceCommitted_deleting (hw : ∀ c, workers c = none) (now)
    (hp : m.phase = .routed ∨ m.phase = .activated) :
    (advanceCommitted workers rows m now).2.phase = .activated := by
  unfold advanceCommitted
  rcases hp with hp | hp
  · rw [if_pos hp,hw]
    have hadv : advanceOr rows m .routed .activated "" =
        (rows.putSandboxMigration { m with phase := .activated, error := "" },
          { m with phase := .activated, error := "" }) := by
      have hone : rows.activeUnique { m with phase := .activated, error := "" } = true :=
        activeUnique_of_active hm (by simp [hp])
      simp [advanceOr,advanceSandboxMigration,MigrationUpdate.apply,writeSandboxMigration,hm,hp,hone]
    have hget := getSandboxMigration_put rows { m with phase := .activated, error := "" }
    have hroute : (rows.putSandboxMigration { m with phase := .activated, error := "" }).route =
        some route := hr
    simp only [hadv,finalizeSource_deleting hroute hd hget hw rfl]
  · rw [if_neg (by simp [hp]),finalizeSource_deleting hr hd hm hw hp]
    exact hp

end Deleting

theorem resolveMigrations_blocked (hw : ∀ c, workers c = none) (now) {pending route}
    (h : Pending rows pending) (hr : rows.route = some route) (hd : route.deleteOperationId ≠ "")
    (hc : ∃ m ∈ pending, m.phase = .routed ∨ m.phase = .activated) :
    (resolveMigrations workers now rows pending).2 ≠ "" := by
  induction pending generalizing rows with
  | nil => simp at hc
  | cons m rest ih =>
    have hm := h.stored m (by simp)
    unfold resolveMigrations
    by_cases hp : m.phase = .routed ∨ m.phase = .activated
    · have hact := advanceCommitted_deleting hr hd hm hw now hp
      rw [if_pos (by simpa using hp)]
      rw [if_pos (by simp [hact])]
      split
      · simp
      · assumption
    · obtain ⟨m',hid,hphase,habort⟩ := abortSandboxMigration_ok hw hm
      rw [if_neg (by simpa using hp)]
      simp only [habort]
      apply ih (h.tail hid hphase) hr
      obtain ⟨x,hx,hxp⟩ := hc
      rcases mem_cons.mp hx with rfl | hx
      · exact absurd hxp hp
      · exact ⟨x,hx,hxp⟩

theorem resolveMigrations_clears (hw : ∀ c, workers c = none) (now) {pending}
    (h : Pending rows pending) (hc : ∀ m ∈ pending, m.phase ≠ .routed ∧ m.phase ≠ .activated) :
    ∃ cleared, resolveMigrations workers now rows pending = (cleared, "") ∧ cleared.route = rows.route ∧
      cleared.activeMigrations = [] := by
  induction pending generalizing rows with
  | nil =>
    refine ⟨rows,rfl,rfl,filter_eq_nil_iff.mpr fun m hm => ?_⟩
    by_contra hp
    obtain ⟨p,hp,_⟩ := h.active m hm (by simpa using hp)
    cases hp
  | cons m rest ih =>
    have hm := hc m (by simp)
    obtain ⟨m',hid,hphase,habort⟩ := abortSandboxMigration_ok hw (h.stored m (by simp))
    obtain ⟨cleared,hres,hroute,hacti⟩ :=
      ih (h.tail hid hphase) (fun x hx => hc x (.tail _ hx))
    refine ⟨cleared,?_,hroute,hacti⟩
    unfold resolveMigrations
    rw [if_neg (by simp [hm.1, hm.2])]
    simpa [habort] using hres

theorem prepareSandboxDelete_route {route} (now) (hr : rows.route = some route)
    (hop : operationId ≠ "") :
    ∃ recorded, (rows.prepareSandboxDelete operationId now).route = some recorded ∧
      (rows.prepareSandboxDelete operationId now).migrations = rows.migrations ∧
      recorded.workerState = route.workerState ∧ recorded.deleteOperationId ≠ "" := by
  unfold prepareSandboxDelete
  by_cases hd : route.deleteOperationId = ""
  · exact ⟨{ route with deleteOperationId := operationId, updatedAt := now },
      by simp [hr,hd],by simp [hr,hd],rfl,hop⟩
  · exact ⟨route,by simp [hr,hd],by simp [hr,hd],rfl,hd⟩

section Finishing

variable {route absent} (hr : rows.route = some route) (hd : route.deleteOperationId ≠ "")
include hr hd

theorem settleDelete_detached (hs : route.workerState = .detached) :
    Finished (settleDelete rows route operationId now) := by
  have hprep : rows.prepareSandboxDelete operationId now = rows := by
    simp [prepareSandboxDelete,hr,hd]
  have hdel : rows.deleteSandboxIfCurrent route.incarnation.generation route.deleteOperationId =
      (rows.deleteSandbox,some route) := by
    simp [deleteSandboxIfCurrent,hr]
  simp only [settleDelete,hs,hprep,hr,hdel,Option.getD_some]
  exact ⟨rfl,activeMigrations_closed rows none _⟩

theorem finishDelete_detached (hs : route.workerState = .detached) :
    Finished (finishDelete workers (rows,"") operationId absent now) := by
  have hfin : finishDelete workers (rows,"") operationId absent now =
      settleDelete rows route operationId now := by simp [finishDelete,hr,hs]
  rw [hfin]
  exact settleDelete_detached hr hd hs

theorem finishDelete_resolved (hnone : rows.activeMigrations = [])
    (hs : route.workerState ≠ .detached) :
    Finished (finishDelete workers (rows,"") operationId absent now) ↔
      route.workerState = .attached := by
  cases hw : route.workerState with
  | detached => exact absurd hw hs
  | detaching => simp [finishDelete,hr,hw,finishSandboxDetach,hd,Finished]
  | attached => simp [finishDelete,settleDelete,hr,hw,hnone,Finished]

end Finishing

/-- A delete whose worker calls all succeed gets through exactly for a detached route, or one
without a committed migration. -/
theorem prepareDeleteRoute_finished_iff (workers : Workers) (hw : ∀ c, workers c = none)
    (rows : RoutingRows) (route : SandboxRoute) (hr : rows.route = some route)
    (hn : (rows.migrations.map (·.migrationId)).Nodup) (operationId : String)
    (hop : operationId ≠ "") (absent : Bool) (now : Option Nat) :
    Finished (prepareDeleteRoute workers rows route operationId absent now) ↔
      route.workerState = .detached ∨ route.workerState = .attached ∧
        ∀ m ∈ rows.activeMigrations, m.phase ≠ .routed ∧ m.phase ≠ .activated := by
  obtain ⟨recorded,hrec,hmig,hstate,hdel⟩ :=
    prepareSandboxDelete_route now hr hop
  have hacti : (rows.prepareSandboxDelete operationId now).activeMigrations =
      rows.activeMigrations := by simp only [activeMigrations,hmig]
  have hpend : Pending (rows.prepareSandboxDelete operationId now) rows.activeMigrations :=
    hacti ▸ pending_activeMigrations (hmig ▸ hn)
  unfold prepareDeleteRoute
  simp only [hrec,Option.getD_some,hstate]
  by_cases hdet : route.workerState = .detached
  · rw [if_pos hdet]
    exact iff_of_true (finishDelete_detached hrec hdel (hstate.trans hdet)) (.inl hdet)
  rw [if_neg hdet,resolveSandboxMigrationsForDelete,hacti]
  simp only [hdet,false_or]
  by_cases hc : ∀ m ∈ rows.activeMigrations, m.phase ≠ .routed ∧ m.phase ≠ .activated
  · -- every journal rolls back; what is left is the detach fence
    obtain ⟨rows',hres,hroute,hnone⟩ := resolveMigrations_clears hw now hpend hc
    rw [hres,finishDelete_resolved (hroute.trans hrec) hdel hnone (hstate ▸ hdet),hstate]
    exact ⟨fun h => ⟨h,hc⟩,fun h => h.1⟩
  · -- a committed journal cannot complete under the recorded delete
    have hcmt : ∃ m ∈ rows.activeMigrations, m.phase = .routed ∨ m.phase = .activated := by
      by_contra hnot
      exact hc fun m hm => not_or.mp fun hp => hnot ⟨m,hm,hp⟩
    have hblo := resolveMigrations_blocked hw now hpend hrec hdel hcmt
    refine iff_of_false ?_ fun h => hc h.2
    simp [finishDelete,hblo,Finished]

namespace Example

def route : SandboxRoute where
  sandboxId := "sandbox"
  node := ⟨"node-a","job-a","http://a"⟩
  resources := {}
  state := .parked
  incarnation := snapshot.incarnation
  snapshot := ⟨storageNativeMigrationSchema,"sha256:1","repository","tag",.descriptor snapshot⟩

def parked : RoutingRows := { route := some route }

def committed : Option RoutingRows :=
  match parked.beginSandboxMigration route "move" ⟨"node-b","job-b","http://b"⟩ with
  | .error _ => none
  | .ok (rows, _) =>
    (rows.advanceSandboxMigration "move" [.planned] .prepared
      { storageSchema := some snapshot.schema, snapshotSha256 := some snapshot.sha256,
        storageSnapshot := some (.descriptor snapshot), sourceFenced := some true }).bind fun prepared =>
    (prepared.1.advanceSandboxMigration "move" [.prepared] .staged {}).bind fun staged =>
    (staged.1.routeSandboxMigration "move" none).map (·.1)

def detaching : RoutingRows := (parked.beginSandboxDetach route none).1

def delete (rows : RoutingRows) : RoutingRows × DeleteOutcome :=
  prepareDeleteRoute (fun _ => none) rows route "delete" false none

end Example

open Example

theorem prepareDeleteRoute_finished_parked :
    route.workerState = .attached ∧ Finished (delete parked) :=
  ⟨rfl,(prepareDeleteRoute_finished_iff (fun _ => none) (fun _ => rfl) parked route rfl
    (by decide) "delete" (by decide) false none).mpr (.inr ⟨rfl,by decide⟩)⟩

/-- Every retry answers `incomplete` and changes nothing, on a committed migration and on a
detach in progress. -/
theorem prepareDeleteRoute_never_finishes : (∃ rows, committed = some rows ∧ ∀ n,
      let stuck := (delete rows).1
      delete ((fun rows => (delete rows).1)^[n] stuck) =
        (stuck,.incomplete "committed sandbox migration is incomplete")) ∧
    ∀ n,
      let stuck := (delete detaching).1
      delete ((fun rows => (delete rows).1)^[n] stuck) =
        (stuck,.incomplete "sandbox route changed during worker detach") := by
  have hcmt : committed.any (fun rows =>
      delete (delete rows).1 =
        ((delete rows).1,.incomplete "committed sandbox migration is incomplete")) = true := by
    decide +kernel
  have hdeta : delete (delete detaching).1 =
      ((delete detaching).1,
        .incomplete "sandbox route changed during worker detach") := by decide +kernel
  obtain ⟨rows,hrows,hstuck⟩ := (Option.any_eq_true _ _).mp hcmt
  have hstuck := of_decide_eq_true hstuck
  refine ⟨⟨rows,hrows,fun n => ?_⟩,fun n => ?_⟩
  · dsimp only
    rw [Function.iterate_fixed (congrArg Prod.fst hstuck)]
    exact hstuck
  · dsimp only
    rw [Function.iterate_fixed (congrArg Prod.fst hdeta)]
    exact hdeta

end UCloudSandboxes.Gateway
