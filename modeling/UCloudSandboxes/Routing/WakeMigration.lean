import UCloudSandboxes.Routing.Journal

/-! Wakes against migrations of one incarnation. Admission reads the active migrations before its
wakes are reserved; only the placement reservation keeps migrations from beginning in between. -/
namespace UCloudSandboxes.Routing
open Machine MigrationPhase Example Store Option RouteOp Bool

/-- A wake batch between its read and its reservation. It holds the placement reservation. -/
structure WakeBatch where
  requests : List SandboxRoute
  activeMigrations : List String

structure WakeGateway where
  store : Store
  batch : Option WakeBatch := none

/-- The journal calls of the migration driver between its worker requests. -/
inductive DriverCall where
  | prepared (update : MigrationUpdate)
  | staged (update : MigrationUpdate)
  | activated
  | recordError (phase : MigrationPhase) (error : String)
  | abort (phase : MigrationPhase)

def DriverCall.op (migrationId : String) : DriverCall → RouteOp
  | .prepared update => .advanceSandboxMigration migrationId [.planned] .prepared update
  | .staged update => .advanceSandboxMigration migrationId [.prepared] .staged update
  | .activated => .advanceSandboxMigration migrationId [.routed] .activated { error := some "" }
  | .recordError phase error =>
    .advanceSandboxMigration migrationId [phase] phase { error := some error }
  | .abort phase =>
    .advanceSandboxMigration migrationId [phase] .complete
      { error := some "cancelled before route commit" }

inductive WakeEvent where
  | openBatch (requests : List SandboxRoute)
  | reserveBatch (now : Option Nat)
  /-- The local wake of `WakePlacement.reserve`, planned under the placement reservation. -/
  | plan (route : SandboxRoute) (now : Option Nat)
  | reserveCurrent (route : SandboxRoute) (now : Option Nat)
  | confirmWake (route : SandboxRoute) (proof : Store.LifecycleProof) (now : Option Nat)
  | beginMigration (id : String) (source : SandboxRoute) (migrationId : String)
      (destination : NodeIdentity)
  | drive (id migrationId : String) (call : DriverCall)
  | routeMigration (id migrationId : String) (now : Option Nat)
  | completeMigration (id migrationId : String) (wakeDestination : Bool) (now : Option Nat)

def SandboxMigration.uncommitted (m : SandboxMigration) : Bool :=
  m.phase.rank < routed.rank

/-- A migration of the stored incarnation has not committed its route. -/
def RoutingRows.moving (rows : RoutingRows) : Bool :=
  rows.route.any fun route =>
    rows.migrations.any fun m => m.uncommitted && m.incarnation = route.incarnation

namespace WakeGateway

def exec (g : WakeGateway) (e : StoreEvent) : WakeGateway := { g with store := g.store.exec e }

def step (g : WakeGateway) : WakeEvent → Option WakeGateway
  | .openBatch requests =>
    if g.batch.isSome then none
    else
      let active := (requests.map (·.sandboxId)).filter fun id =>
        (g.store.rows id).activeMigrations ≠ []
      some { g with batch := some ⟨requests,active⟩ }
  | .reserveBatch now =>
    g.batch.map fun batch =>
      { g.exec (.reserveSandboxWakes
          (batch.requests.filter fun r => !batch.activeMigrations.contains r.sandboxId) now) with
        batch := none }
  | .plan route now =>
    if g.batch.isSome || (g.store.rows route.sandboxId).activeMigrations ≠ [] then none
    else some (g.exec (.reserveSandboxWakes [route] now))
  | .reserveCurrent route now => some (g.exec (.reserveSandboxWakes [route] now))
  | .confirmWake route proof now => some (g.exec (.confirmSandboxWake route proof now))
  | .beginMigration id source migrationId destination =>
    if g.batch.isSome then none
    else some (g.exec (.transact id (.beginSandboxMigration source migrationId destination)))
  | .drive id migrationId call => some (g.exec (.transact id (call.op migrationId)))
  | .routeMigration id migrationId now =>
    some (g.exec (.transact id (.routeSandboxMigration migrationId now)))
  | .completeMigration id migrationId wake now =>
    some (g.exec (.transact id (.completeSandboxMigration migrationId wake now)))

variable (g : WakeGateway)

/-- A migration begins on a parked route, and no wake beside the batches and plans is for a
moving incarnation. -/
def fits : WakeEvent → Bool
  | .reserveCurrent route _ => !(g.store.rows route.sandboxId).moving
  | .confirmWake route _ _ => !(g.store.rows route.sandboxId).moving
  | .beginMigration id _ _ _ => (g.store.getSandbox id).all (·.state = .parked)
  | .completeMigration id _ wake _ => !wake || !(g.store.rows id).moving
  | _ => true

def Fits (e : WakeEvent) : Prop := g.fits e = true

instance (g : WakeGateway) (e : WakeEvent) : Decidable (g.Fits e) :=
  inferInstanceAs (Decidable (_ = true))

def Start : Prop :=
  g.batch = none ∧ ∀ id, (g.store.rows id).activeMigrations = []

end WakeGateway

variable {rows : RoutingRows}

theorem moving_iff : rows.moving = true ↔
    ∃ route m, rows.route = some route ∧ m ∈ rows.migrations ∧ m.uncommitted = true ∧
      m.incarnation = route.incarnation := by
  simp only [RoutingRows.moving,any_eq_true,List.any_eq_true,and_eq_true, decide_eq_true_eq]
  constructor
  · rintro ⟨route,hroute,m,hm,hu,hi⟩
    exact ⟨route,m,hroute,hm,hu,hi⟩
  · rintro ⟨route,m,hroute,hm,hu,hi⟩
    exact ⟨route,hroute,m,hm,hu,hi⟩

def ParkedWhileMoving (rows : RoutingRows) : Prop :=
  rows.moving = true → ∀ route, rows.route = some route → route.state = .parked

/-- Every uncommitted entry was there before, for the same incarnation. -/
def NoNewMoves (rows rows' : RoutingRows) : Prop :=
  ∀ x ∈ rows'.migrations, x.uncommitted = true →
    ∃ y ∈ rows.migrations, y.uncommitted = true ∧ y.incarnation = x.incarnation

theorem NoNewMoves.of_eq {rows'} (h : rows'.migrations = rows.migrations) : NoNewMoves rows rows' := by
  intro x hx hu
  rw [h] at hx
  exact ⟨x,hx,hu,rfl⟩

theorem NoNewMoves.moving {rows'} (h : NoNewMoves rows rows')
    (hroute : ∀ route', rows'.route = some route' → ∃ route, rows.route = some route ∧
      route.incarnation = route'.incarnation) (hmov : rows'.moving = true) : rows.moving = true := by
  obtain ⟨route',m,hr',hm,hu,hi⟩ := moving_iff.mp hmov
  obtain ⟨route,hr,hinc⟩ := hroute route' hr'
  obtain ⟨y,hy,hyu,hyi⟩ := h m hm hu
  exact moving_iff.mpr ⟨route,y,hr,hy,hyu,hyi.trans (hi.trans hinc.symm)⟩

/-- The journal's transactions that begin no migration and never undo a committed one. -/
def RouteOp.settles : RouteOp → Bool
  | .beginSandboxMigration .. => false
  | .advanceSandboxMigration _ expected phase _ =>
    expected.all fun p => routed.rank ≤ phase.rank || p.rank ≤ phase.rank
  | _ => true

theorem noNewMoves_of_step {after op} (h : JournalStep rows op after) (hop : op.settles = true) :
    NoNewMoves rows after := by
  have hwr : ∀ {migrationId m m'}, rows.getSandboxMigration migrationId = some m →
      m'.incarnation = m.incarnation → (m'.uncommitted = true → m.uncommitted = true) →
      NoNewMoves rows (rows.putSandboxMigration m') := by
    intro migrationId m m' hm hi hu x hx hxu
    rcases RoutingRows.mem_putSandboxMigration hx with rfl | ⟨hx,-⟩
    · exact ⟨m,List.mem_of_find?_eq_some hm,hu hxu,hi.symm⟩
    · exact ⟨x,hx,hxu,rfl⟩
  cases h with
  | kept | waking => exact .of_eq rfl
  | began => cases hop
  | @advanced m migrationId expected phase update hm hmem =>
    simp only [settles,List.all_eq_true,or_eq_true,decide_eq_true_eq] at hop
    refine hwr hm rfl fun hu => ?_
    have hphase := hop _ hmem
    have hlt : phase.rank < routed.rank := of_decide_eq_true hu
    exact decide_eq_true (by omega)
  | routed hm =>
    exact hwr hm rfl fun hu => (by simp [SandboxMigration.uncommitted] at hu)
  | completed hm =>
    exact hwr hm rfl fun hu => (by simp [SandboxMigration.uncommitted,rank] at hu)
  | closed =>
    intro x hx hu
    obtain ⟨old,_,rfl⟩ := List.mem_map.mp hx
    simp [SandboxMigration.uncommitted,RoutingRows.close_phase,rank] at hu

theorem parkedWhileMoving_of_step {after op} (h : JournalStep rows op after) (hop : op.settles = true)
    (hwake : ∀ migrationId now, op = .completeSandboxMigration migrationId true now → rows.moving =
      false) (hp : ParkedWhileMoving rows) : ParkedWhileMoving after := by
  have hback := (noNewMoves_of_step h hop).moving fun route' => journalStep_incarnation h
  intro hmov route hroute
  have hbef := hback hmov
  cases h with
  | kept | advanced | closed => exact hp hbef route hroute
  | began => cases hop
  | routed => exact some.inj hroute ▸ rfl
  | @waking _ _ migrationId now => simp [hwake migrationId now rfl] at hbef
  | @completed _ current migrationId wake now _ _ hcur _ =>
    cases wake with
    | true => simp [hwake migrationId now rfl] at hbef
    | false => exact hp hbef route (hcur.trans hroute)

theorem commit_toRoutingRows (rows : SandboxRows) (after) :
    (rows.commit after).toRoutingRows = after := by
  have hroute := rows.commit_route after
  have hmig := commit_migrations rows after
  cases h : (rows.commit _).toRoutingRows
  simp_all

theorem exec_transact (store : Store) {op} (hop : op.migrates = true) (key id) :
    (store.exec (.transact key op)).rows id = store.rows id ∨ id = key ∧
      JournalStep (store.rows id).toRoutingRows op
        ((store.exec (.transact key op)).rows id).toRoutingRows := by
  simp only [exec]
  cases hc : store.commit key (op.apply (store.rows key).toRoutingRows) with
  | error => exact .inl rfl
  | ok s =>
    obtain ⟨hself,hother⟩ := commit_ok hc
    by_cases hid : id = key
    · subst hid
      refine .inr ⟨rfl,?_⟩
      show JournalStep _ op (s.rows id).toRoutingRows
      rw [hself,commit_toRoutingRows]
      exact journalStep_of_apply (.inl hop)
    · exact .inl (hother id hid)

structure Still (store store' : Store) : Prop where
  moves : ∀ id, NoNewMoves (store.rows id).toRoutingRows (store'.rows id).toRoutingRows
  parked : ∀ id, ParkedWhileMoving (store.rows id).toRoutingRows →
    ParkedWhileMoving (store'.rows id).toRoutingRows

namespace Still

variable {store store' : Store}

theorem of_rows (h : ∀ id, store'.rows id = store.rows id ∨
      (store.rows id).moving = false ∧ (store'.rows id).migrations = (store.rows id).migrations ∧
        ∀ route', (store'.rows id).route = some route' →
          ∃ route, (store.rows id).route = some route ∧ route.incarnation = route'.incarnation) :
    Still store store' := by
  refine ⟨fun id => ?_,fun id hp => ?_⟩
  · rcases h id with hsame | ⟨_,hm,_⟩
    · exact .of_eq (by rw [hsame])
    · exact .of_eq hm
  · rcases h id with hsame | ⟨hstill,hm,hroute⟩
    · rwa [hsame]
    · intro hmov
      have hbef := (NoNewMoves.of_eq hm).moving hroute hmov
      simp [hstill] at hbef

theorem reserve {requests now} (h : ∀ r ∈ requests, (store.rows r.sandboxId).moving = false) :
    Still store (store.exec (.reserveSandboxWakes requests now)) := by
  refine of_rows fun id => ?_
  simp only [exec]
  cases hs : store.reserveSandboxWakes requests now with
  | error => exact .inl rfl
  | ok s =>
    rcases reserveSandboxWakes_rows hs id with hsame | ⟨⟨r,hr,rfl⟩,current,hc,hrows⟩
    · exact .inl hsame
    refine .inr ⟨h r hr,?_,fun route' hroute' => ⟨current,hc,?_⟩⟩
    · show (s.rows r.sandboxId).migrations = _
      rw [hrows]
    · have hst : (s.rows r.sandboxId).route = some route' := hroute'
      rw [hrows] at hst
      exact some.inj hst ▸ rfl

theorem confirm {route proof now} (h : (store.rows route.sandboxId).moving = false) :
    Still store (store.exec (.confirmSandboxWake route proof now)) := by
  refine of_rows fun id => ?_
  simp only [exec]
  cases hs : store.confirmSandboxWake route proof now with
  | error => exact .inl rfl
  | ok r =>
    rcases setSandboxStateIfCurrent_ok hs with he | ⟨current,stored,hc,hw,hkey,hinc,-,-⟩
    · exact .inl (by rw [after,he])
    obtain ⟨hself,hother⟩ := writeLifecycle_ok hw
    rw [hkey] at hself hother
    by_cases hid : id = route.sandboxId
    · subst hid
      refine .inr ⟨h,?_,fun route' hroute' => ⟨current,hc,?_⟩⟩
      · show (r.1.rows route.sandboxId).migrations = _
        rw [hself]
        rfl
      · have hst : (r.1.rows route.sandboxId).route = some route' := hroute'
        rw [hself] at hst
        exact some.inj hst ▸ hinc.symm
    · exact .inl (hother id hid)

theorem transact {op key} (hop : op.migrates = true) (hs : op.settles = true)
    (hwake : ∀ migrationId now, op = .completeSandboxMigration migrationId true now →
      (store.rows key).moving = false) : Still store (store.exec (.transact key op)) := by
  refine ⟨fun id => ?_,fun id hp => ?_⟩
  · rcases exec_transact store hop key id with hsame | ⟨-,hstep⟩
    · exact .of_eq (by rw [hsame])
    · exact noNewMoves_of_step hstep hs
  · rcases exec_transact store hop key id with hsame | ⟨rfl,hstep⟩
    · rwa [hsame]
    · exact parkedWhileMoving_of_step hstep hs hwake hp

end Still

namespace WakeGateway

variable {g g' : WakeGateway}

structure Inv (g : WakeGateway) : Prop where
  parked : ∀ id, ParkedWhileMoving (g.store.rows id).toRoutingRows
  /-- What an open batch admitted stays free of migrations while it holds the reservation. -/
  admitted : ∀ batch, g.batch = some batch → ∀ r ∈ batch.requests,
    r.sandboxId ∉ batch.activeMigrations →
    ∀ m ∈ (g.store.rows r.sandboxId).migrations, m.uncommitted = false

theorem not_moving {rows : RoutingRows} (h : ∀ m ∈ rows.migrations, m.uncommitted = false) :
    rows.moving = false := by
  refine eq_false_iff.mpr fun hmov => ?_
  obtain ⟨_,m,_,hm,hu,_⟩ := moving_iff.mp hmov
  simp [h m hm] at hu

theorem uncommitted_of_inactive {rows : RoutingRows} (h : rows.activeMigrations = []) :
    ∀ m ∈ rows.migrations, m.uncommitted = false := by
  intro m hm
  have hphase : m.phase = .complete := by simpa using List.filter_eq_nil_iff.mp h m hm
  simp [SandboxMigration.uncommitted,hphase,rank]

theorem Inv.still (hi : g.Inv) {store batch} (h : Still g.store store)
    (hbatch : batch = g.batch ∨ batch = none) : Inv ⟨store,batch⟩ := by
  refine ⟨fun id => h.parked id (hi.parked id),fun b hb r hr hn m hm => ?_⟩
  rcases hbatch with rfl | rfl
  · refine eq_false_iff.mpr fun hu => ?_
    obtain ⟨y,hy,hyu,-⟩ := h.moves r.sandboxId m hm hu
    simp [hi.admitted b hb r hr hn y hy] at hyu
  · cases hb

theorem Inv.begins (hi : g.Inv) (hbatch : g.batch = none) {id migrationId source destination}
    (hpk : (g.store.getSandbox id).all (·.state = .parked) = true) :
    (g.exec (.transact id (.beginSandboxMigration source migrationId destination))).Inv := by
  have hop : (beginSandboxMigration source migrationId destination).migrates = true := rfl
  refine ⟨fun k => ?_,fun b hb => ?_⟩
  · rcases exec_transact g.store hop id k with hsame | ⟨rfl,hstep⟩
    · intro hmov route hroute
      simp only [exec,hsame] at hmov hroute
      exact hi.parked k hmov route hroute
    · intro _ route hroute
      simp only [exec] at hroute
      revert hroute
      generalize ((g.store.exec _).rows k).toRoutingRows = after at hstep
      intro hroute
      have hall : ∀ r, g.store.getSandbox k = some r → r.state = .parked := by
        intro r hr
        simpa [hr] using hpk
      cases hstep with
      | kept | began | closed => exact hall route hroute
  · rw [exec,hbatch] at hb
    cases hb

theorem Inv.step (hi : g.Inv) {e} (hf : g.Fits e) (hs : g.step e = some g') : g'.Inv := by
  cases e with
  | openBatch =>
    obtain ⟨-,rfl⟩ := some_of_guard hs
    refine ⟨hi.parked,fun b hb r hr hn => uncommitted_of_inactive ?_⟩
    cases hb
    by_contra hact
    exact hn (List.mem_filter.mpr ⟨List.mem_map_of_mem hr,by simpa using hact⟩)
  | reserveBatch =>
    obtain ⟨batch,hb,rfl⟩ := map_eq_some_iff.mp hs
    refine hi.still (.reserve fun r hr => not_moving ?_) (.inr rfl)
    obtain ⟨hr,hn⟩ := List.mem_filter.mp hr
    exact hi.admitted batch hb r hr (by simpa using hn)
  | plan =>
    obtain ⟨hfree,rfl⟩ := some_of_guard hs
    refine hi.still (.reserve fun r hr => not_moving (uncommitted_of_inactive ?_)) (.inl rfl)
    obtain rfl := List.mem_singleton.mp hr
    by_contra hact
    exact hfree (by simp [hact])
  | reserveCurrent =>
    cases hs
    refine hi.still (.reserve fun r hr => ?_) (.inl rfl)
    obtain rfl := List.mem_singleton.mp hr
    simpa [Fits,fits] using hf
  | confirmWake =>
    cases hs
    exact hi.still (.confirm (by simpa [Fits,fits] using hf)) (.inl rfl)
  | beginMigration =>
    obtain ⟨hnone,rfl⟩ := some_of_guard hs
    exact hi.begins (by simpa using hnone) hf
  | drive id migrationId call =>
    cases hs
    refine hi.still (.transact ?_ ?_ fun m now h => ?_) (.inl rfl)
    · cases call <;> rfl
    · cases call <;> simp [DriverCall.op,settles,rank]
    · cases call <;> cases h
  | routeMigration =>
    cases hs
    exact hi.still (.transact rfl rfl fun _ _ h => by cases h) (.inl rfl)
  | completeMigration =>
    cases hs
    refine hi.still (.transact rfl rfl fun m now' h => ?_) (.inl rfl)
    cases h
    simpa [Fits,fits] using hf

theorem Inv.of_start (h : g.Start) : g.Inv := by
  refine ⟨fun id hmov => ?_,fun b hb => ?_⟩
  · simp [not_moving (uncommitted_of_inactive (h.2 id))] at hmov
  · rw [h.1] at hb
    cases hb

theorem Inv.of_reaches (h : Reaches WakeGateway.step Fits Start g) : g.Inv :=
  h.invariant (fun _ hs => .of_start hs) fun _ _ _ hi => hi.step

end WakeGateway

/-- In every run whose migrations begin on parked routes, and in which no wake beside the batches and
plans is for a moving incarnation, the route is parked until its migration commits, and a commit finds it
parked. -/
theorem wake_survives_migration {g : WakeGateway}
    (h : Reaches WakeGateway.step WakeGateway.Fits WakeGateway.Start g) (id : String) :
    (∀ m ∈ (g.store.rows id).activeMigrations, m.phase.rank < MigrationPhase.routed.rank →
      ∀ route, g.store.getSandbox id = some route → route.incarnation = m.incarnation →
      route.state = .parked) ∧
    ∀ migrationId now, (routeSandboxMigration migrationId now).apply
        (g.store.rows id).toRoutingRows ≠ (g.store.rows id).toRoutingRows →
      ∃ route, g.store.getSandbox id = some route ∧ route.state = .parked := by
  have hi := WakeGateway.Inv.of_reaches h
  refine ⟨fun m hm hphase route hroute hinc => ?_,fun migrationId now hcm => ?_⟩
  · have hmov : (g.store.rows id).moving = true :=
      moving_iff.mpr ⟨route,m,hroute,(List.mem_filter.mp hm).1,decide_eq_true hphase,hinc.symm⟩
    exact hi.parked id hmov route hroute
  · revert hcm
    generalize (routeSandboxMigration migrationId now).apply (g.store.rows id).toRoutingRows =
      after, JournalStep.of_route (g.store.rows id).toRoutingRows migrationId now = hstep
    intro hcm
    cases hstep with
    | kept => exact absurd rfl hcm
    | closed _ hop => simp at hop
    | @routed m current _ _ _ hm hphase hroute hown _ =>
      have hinc : current.incarnation = m.incarnation := by
        simp only [SandboxRoute.ownedBy,and_eq_true,decide_eq_true_eq] at hown
        exact hown.1.1
      have hmov : (g.store.rows id).moving = true :=
        moving_iff.mpr ⟨current,m,hroute,List.mem_of_find?_eq_some hm,
          by simp [SandboxMigration.uncommitted,hphase,rank],hinc.symm⟩
      exact ⟨current,hroute,hi.parked id hmov current hroute⟩

namespace Example

def parkedGateway : WakeGateway := ⟨parked,none⟩

theorem parkedGateway_starts : parkedGateway.Start := by
  refine ⟨rfl,fun id => ?_⟩
  have hjnl : (parked.rows id).migrations = [] := by
    simp only [parked,exec]
    cases h : fresh.upsertSandbox parkedRoute true none with
    | error => rfl
    | ok =>
      rcases upsertSandbox_ok h with he | ⟨stored,hw,-⟩
      · rw [after,he]
        rfl
      · obtain ⟨hself,hother⟩ := write_ok hw
        rw [after]
        by_cases hid : id = stored.sandboxId
        · rw [hid,hself]
          rfl
        · rw [hother id hid]
          rfl
  show List.filter _ (parked.rows id).migrations = []
  rw [hjnl]
  rfl

def stageMove : List WakeEvent :=
  [.beginMigration "sandbox" parkedRoute "move-1" destination,
    .drive "sandbox" "move-1" (.prepared {}),.drive "sandbox" "move-1" (.staged {})]

def wakeBatch : List WakeEvent := [.openBatch [parkedRoute],.reserveBatch none]

def stagedIn (state : RouteState) (g : WakeGateway) : Bool :=
  ((g.store.rows "sandbox").getSandboxMigration "move-1").any (·.phase = .staged) &&
    (g.store.getSandbox "sandbox").any (·.state = state)

def commitMove : WakeEvent := .routeMigration "sandbox" "move-1" none

end Example

open Example

/-- The batch read the migration and leaves its wake out. -/
theorem wake_survives_migration_staged :
    ∃ g, Reaches WakeGateway.step WakeGateway.Fits WakeGateway.Start g ∧
      (routeSandboxMigration "move-1" none).apply (g.store.rows "sandbox").toRoutingRows ≠
        (g.store.rows "sandbox").toRoutingRows ∧
      ∃ route, g.store.getSandbox "sandbox" = some route ∧ route.state = .parked := by
  obtain ⟨g,hr,hcm⟩ := Reaches.exists_of_runMeeting WakeGateway.step WakeGateway.Fits
    parkedGateway_starts (stageMove ++ wakeBatch) (fun g =>
      (routeSandboxMigration "move-1" none).apply (g.store.rows "sandbox").toRoutingRows ≠
        (g.store.rows "sandbox").toRoutingRows) (by decide +kernel)
  exact ⟨g,hr,hcm,(wake_survives_migration hr "sandbox").2 "move-1" none hcm⟩

/-- A migration that begins after the wake was reserved overwrites it. -/
theorem reserved_wake_overwritten :
    ∃ g g', Reaches WakeGateway.step anyEvent WakeGateway.Start g ∧ stagedIn .waking g = true ∧
      g.step commitMove = some g' ∧ ∃ route, g'.store.getSandbox "sandbox" = some route ∧
        route.state = .parked ∧ route.node = destination := by
  obtain ⟨g,hr,hsta,g',hg',hroute⟩ := Reaches.exists_of_run WakeGateway.step parkedGateway_starts
    (wakeBatch ++ stageMove) (fun g => stagedIn .waking g = true ∧
      ∃ g' ∈ g.step commitMove, ∃ route ∈ g'.store.getSandbox "sandbox",
        route.state = .parked ∧ route.node = destination) (by decide +kernel)
  exact ⟨g,g',hr,hsta,hg',hroute⟩

end UCloudSandboxes.Routing
