import UCloudSandboxes.Routing.Generations

namespace UCloudSandboxes.Routing
open Machine Relation RoutingRows Store List

def MigrationPhase.rank : MigrationPhase → Nat
  | .planned => 0
  | .prepared => 1
  | .staged => 2
  | .routed => 3
  | .activated => 4
  | .complete => 5

/-- The compare-and-swaps the gateway asks for: out of an active phase, and never back. -/
def RouteOp.forward : RouteOp → Bool
  | .advanceSandboxMigration _ expected phase _ =>
    expected.all fun p => p ≠ .complete && p.rank ≤ phase.rank
  | _ => true

def StoreEvent.forward : StoreEvent → Bool
  | .transact _ op => op.forward
  | _ => true

def Forward (_ : Store) (e : StoreEvent) : Prop := e.forward = true

instance (s : Store) (e : StoreEvent) : Decidable (Forward s e) :=
  inferInstanceAs (Decidable (_ = true))

/-- A write of a journal, which moves no phase back if the transaction is a `forward` one. -/
inductive JournalWrite (forward : Bool) (rows : RoutingRows) : List SandboxMigration → Prop
  | same : JournalWrite forward rows rows.migrations
  | closed (message : String) : JournalWrite forward rows (rows.migrations.map (·.close message))
  | planned {m} : rows.getSandboxMigration m.migrationId = none →
      rows.activeMigrations = [] → JournalWrite forward rows (rows.putSandboxMigration m).migrations
  | moved {m m'} : rows.getSandboxMigration m'.migrationId = some m →
      rows.activeUnique m' = true → (forward = true → m.phase.rank ≤ m'.phase.rank) →
      m'.source = m.source → m'.destination = m.destination → m'.incarnation = m.incarnation →
      JournalWrite forward rows (rows.putSandboxMigration m').migrations

theorem journalWrite_of_step {rows after op} (h : JournalStep rows op after) :
    JournalWrite op.forward rows after.migrations := by
  have hid : ∀ {migrationId m}, rows.getSandboxMigration migrationId = some m →
      rows.getSandboxMigration m.migrationId = some m := by
    intro migrationId m hm
    rw [getSandboxMigration_migrationId hm]
    exact hm
  cases h with
  | kept | waking => exact .same
  | began hnone hact => exact .planned hnone hact
  | advanced hm hmem hone =>
    have hfound := hid hm
    refine .moved hfound hone (fun hop => ?_) rfl rfl rfl
    simp only [RouteOp.forward,all_eq_true,Bool.and_eq_true,decide_eq_true_eq] at hop
    exact (hop _ hmem).2
  | routed hm hphase | completed hm hphase =>
    have hfound := hid hm
    exact .moved hfound (activeUnique_of_active hfound (by simp [hphase]))
      (by simp [hphase,MigrationPhase.rank]) rfl rfl rfl
  | closed message => exact .closed message

theorem commit_migrations (rows : SandboxRows) (after) :
    (rows.commit after).migrations = after.migrations := by
  unfold SandboxRows.commit
  split
  · rfl
  · cases after.route <;> rfl

def Separate (l : List SandboxMigration) : Prop :=
  l.Pairwise fun a b => a.migrationId ≠ b.migrationId ∧ (a.phase = .complete ∨ b.phase = .complete)

namespace Separate

variable {rows : RoutingRows} {m m' : SandboxMigration}

theorem length_activeMigrations (h : Separate rows.migrations) :
    rows.activeMigrations.length ≤ 1 := by
  have hact : rows.activeMigrations.Pairwise fun a b =>
      a.migrationId ≠ b.migrationId ∧ (a.phase = .complete ∨ b.phase = .complete) :=
    h.sublist filter_sublist
  have hphase : ∀ x ∈ rows.activeMigrations, x.phase ≠ .complete := by
    intro x hx
    simpa using (mem_filter.mp hx).2
  match hl : rows.activeMigrations with
  | [] => simp
  | [a] => simp
  | a :: b :: rest =>
    rw [hl] at hact hphase
    have hab := ((pairwise_cons.mp hact).1 b (by simp)).2
    rcases hab with ha | hb
    · exact absurd ha (hphase a (by simp))
    · exact absurd hb (hphase b (by simp))

/-- What the index admits is the only active migration: the others are complete. -/
theorem others (h : Separate rows.migrations) (hone : rows.activeUnique m' = true) :
    m'.phase = .complete ∨ ∀ a ∈ rows.migrations, a.migrationId ≠ m'.migrationId →
      a.phase = .complete := by
  simp only [activeUnique,Bool.or_eq_true,decide_eq_true_eq] at hone
  rcases hone with (hcpl | hnil) | hany
  · exact .inl hcpl
  · exact .inr fun a ha _ => by simpa using filter_eq_nil_iff.mp hnil a ha
  · obtain ⟨x,hx,hid⟩ := any_eq_true.mp hany
    obtain ⟨hmem,hact⟩ := mem_filter.mp hx
    refine .inr fun a ha hne => ?_
    have hxa : x ≠ a := fun he => hne (he ▸ of_decide_eq_true hid)
    have : Std.Symm fun a b : SandboxMigration => a.migrationId ≠ b.migrationId ∧
        (a.phase = .complete ∨ b.phase = .complete) := ⟨fun _ _ hab => ⟨hab.1.symm,hab.2.symm⟩⟩
    exact (h.forall hmem ha hxa).2.resolve_left (of_decide_eq_true hact)

theorem write (h : Separate rows.migrations) (hm : rows.getSandboxMigration m'.migrationId = some m)
    (hone : rows.activeUnique m' = true) : Separate (rows.putSandboxMigration m').migrations := by
  have hany : rows.migrations.any (·.migrationId = m'.migrationId) = true := by
    refine any_eq_true.mpr ⟨m,mem_of_find?_eq_some hm,?_⟩
    simpa using find?_some hm
  have hoth := h.others hone
  unfold putSandboxMigration
  rw [if_pos hany]
  refine pairwise_map.mpr (h.imp_of_mem fun {a b} ha hb hab => ?_)
  by_cases hia : a.migrationId = m'.migrationId
  · have hib : ¬ b.migrationId = m'.migrationId := fun hb' => hab.1 (hia.trans hb'.symm)
    simp only [if_pos hia,if_neg hib]
    exact ⟨fun he => hib he.symm,hoth.imp_right fun ho => ho b hb hib⟩
  · by_cases hib : b.migrationId = m'.migrationId
    · simp only [if_neg hia,if_pos hib]
      exact ⟨hia,(hoth.imp_right fun ho => ho a ha hia).symm⟩
    · simp only [if_neg hia,if_neg hib]
      exact hab

end Separate

theorem close_migrationId (message) (m : SandboxMigration) :
    (m.close message).migrationId = m.migrationId := by
  unfold SandboxMigration.close
  split <;> rfl

theorem Separate.of_journalWrite {forward rows l} (h : JournalWrite forward rows l)
    (hs : Separate rows.migrations) : Separate l := by
  cases h with
  | same => exact hs
  | closed message =>
    refine pairwise_map.mpr (hs.imp fun {a b} hab => ?_)
    rw [close_migrationId,close_migrationId]
    exact ⟨hab.1,.inl (close_phase message a)⟩
  | @planned m hnone hact =>
    have hcpl : ∀ a ∈ rows.migrations, a.migrationId ≠ m.migrationId ∧ a.phase = .complete := by
      intro a ha
      refine ⟨by simpa using find?_eq_none.mp hnone a ha,?_⟩
      simpa using filter_eq_nil_iff.mp hact a ha
    have hany : ¬ rows.migrations.any (·.migrationId = m.migrationId) = true := by
      simpa using fun a ha => (hcpl a ha).1
    unfold putSandboxMigration
    rw [if_neg hany]
    refine pairwise_append.mpr ⟨hs,pairwise_singleton ..,fun a ha b hb => ?_⟩
    obtain rfl := mem_singleton.mp hb
    exact ⟨(hcpl a ha).1,.inl (hcpl a ha).2⟩
  | moved hm hone => exact hs.write hm hone

/-- No phase of the journal moves back, and what a migration is between does not change. -/
def Advances (rows rows' : RoutingRows) : Prop :=
  ∀ migrationId m, rows.getSandboxMigration migrationId = some m →
    ∃ m', rows'.getSandboxMigration migrationId = some m' ∧ m.phase.rank ≤ m'.phase.rank ∧
      m'.source = m.source ∧ m'.destination = m.destination ∧ m'.incarnation = m.incarnation

namespace Advances

variable {rows rows' rows'' : RoutingRows}

theorem refl (rows) : Advances rows rows :=
  fun _ m hm => ⟨m,hm,Nat.le_refl _,rfl,rfl,rfl⟩

theorem trans (h : Advances rows rows') (h' : Advances rows' rows'') : Advances rows rows'' := by
  intro migrationId m hm
  obtain ⟨m',hm',hle,hs,hd,hi⟩ := h migrationId m hm
  obtain ⟨m'',hm'',hle',hs',hd',hi'⟩ := h' migrationId m' hm'
  exact ⟨m'',hm'',hle.trans hle',hs'.trans hs,hd'.trans hd,hi'.trans hi⟩

theorem of_journalWrite (h : JournalWrite true rows rows'.migrations) : Advances rows rows' := by
  obtain ⟨route,migrations⟩ := rows'
  intro migrationId m hm
  cases h with
  | same => exact ⟨m,hm,Nat.le_refl _,rfl,rfl,rfl⟩
  | closed message =>
    refine ⟨m.close message,?_,?_,?_⟩
    · rw [getSandboxMigration_map rows route _ (close_migrationId message),hm]
      rfl
    · rw [close_phase]
      cases m.phase <;> decide
    · unfold SandboxMigration.close
      split <;> exact ⟨rfl,rfl,rfl⟩
  | @planned new hnone _ =>
    have hne : migrationId ≠ new.migrationId := by
      rintro rfl
      exact Option.some_ne_none _ (hm.symm.trans hnone)
    exact ⟨m,(getSandboxMigration_put_ne hne).trans hm,Nat.le_refl _,rfl,rfl,rfl⟩
  | @moved old new hold _ hle hsou hdest hinc =>
    by_cases hid : migrationId = new.migrationId
    · subst hid
      cases hold.symm.trans hm
      exact ⟨new,rows.getSandboxMigration_put new,hle rfl,hsou,hdest,hinc⟩
    · exact ⟨m,(getSandboxMigration_put_ne hid).trans hm,Nat.le_refl _,rfl,rfl,rfl⟩

end Advances

variable {store : Store}

theorem exec_journal (store : Store) (e id) : ReflTransGen (fun rows after : SandboxRows =>
    JournalWrite e.forward rows.toRoutingRows after.migrations) (store.rows id)
      ((store.exec e).rows id) := by
  refine ReflTransGen.mono (fun rows after hw => ?_) _ _ (exec_writes store e id)
  cases hw with
  | deleted => exact .closed "sandbox deleted before migration completed"
  | journaled hop hstep =>
    subst hop
    rw [commit_migrations]
    exact journalWrite_of_step hstep
  | _ => exact .same

theorem separate_of_reaches (h : Reaches step anyEvent (· = .fresh) store) (id) :
    Separate (store.rows id).migrations := by
  refine h.keeps (I := fun s => Separate (s.rows id).migrations) ?_ ?_
  · exact .nil
  · intro s e s' hs _ hstep
    cases hstep
    generalize (s.exec e).rows id = rows', exec_journal s e id = hw
    induction hw with
    | refl => exact hs
    | tail _ hw ih => exact ih.of_journalWrite hw

theorem advances_of_reaches {store'} (h : Reaches step Forward (· = store) store') (id) :
    Advances (store.rows id).toRoutingRows (store'.rows id).toRoutingRows := by
  refine h.keeps
    (I := fun s => Advances (store.rows id).toRoutingRows (s.rows id).toRoutingRows) (.refl _) ?_
  intro s e s' hadv hok hstep
  cases hstep
  generalize (s.exec e).rows id = rows', exec_journal s e id = hw
  induction hw with
  | refl => exact hadv
  | tail _ hw ih => exact ih.trans (.of_journalWrite (hok ▸ hw))

/-- Without a route no migration is active: deleting it completed its journal. -/
def Settled (rows : RoutingRows) : Prop := rows.route = none → rows.activeMigrations = []

theorem settled_of_step {rows after op} (h : JournalStep rows op after)
    (hop : op.forward = true ∨ rows.route ≠ none) (hs : Settled rows) : Settled after := by
  intro hnone
  cases h with
  | kept => exact hs hnone
  | began _ _ hroute => exact absurd (hroute.symm.trans hnone) (Option.some_ne_none _)
  | @advanced m migrationId expected phase update hm hmem =>
    have hop := hop.resolve_right fun hsome => hsome hnone
    simp only [RouteOp.forward,all_eq_true,Bool.and_eq_true] at hop
    have hact : m ∈ rows.activeMigrations :=
      mem_filter.mpr ⟨mem_of_find?_eq_some hm,by simpa using (hop _ hmem).1⟩
    rw [hs hnone] at hact
    cases hact
  | routed | waking | completed => cases hnone
  | closed message => exact activeMigrations_closed rows rows.route message

theorem settled_of_write {e id rows rows'} (h : RowWrite e id rows rows')
    (he : e.forward = true ∨ rows.route ≠ none) (hs : Settled rows.toRoutingRows) :
    Settled rows'.toRoutingRows := by
  cases h with
  | reported => exact hs
  | deleted =>
    intro _
    exact activeMigrations_closed rows.toRoutingRows none "sandbox deleted before migration completed"
  | @journaled op after hop hstep =>
    subst hop
    intro hnone
    have hafter := settled_of_step hstep he hs ((SandboxRows.commit_route ..).symm.trans hnone)
    unfold activeMigrations at hafter ⊢
    rw [commit_migrations]
    exact hafter
  | _ => intro hnone; cases hnone

theorem settled_of_writes {e id rows rows'} (h : RowWrites e id rows rows') (he : e.forward = true)
    (hs : Settled rows.toRoutingRows) : Settled rows'.toRoutingRows := by
  induction h with
  | refl => exact hs
  | tail _ hw ih => exact settled_of_write hw (.inl he) ih

theorem settled_of_reaches (h : Reaches step Forward (· = .fresh) store) (id) :
    Settled (store.rows id).toRoutingRows := by
  refine h.keeps (I := fun s => Settled (s.rows id).toRoutingRows) (fun _ => rfl) ?_
  intro s e s' hs hok hstep
  cases hstep
  exact settled_of_writes (exec_writes s e id) hok hs

/-- Whatever removes a route completes its journals. -/
theorem settled_exec {e id} (hroute : store.getSandbox id ≠ none) :
    Settled ((store.exec e).rows id).toRoutingRows := by
  have hstart : Settled (store.rows id).toRoutingRows := fun hnone => absurd hnone hroute
  obtain hw | ⟨report,_,_,rfl,-⟩ := exec_cases store e id
  · generalize (store.exec e).rows id = rows', hw.row = hw
    cases hw with
    | refl => exact hstart
    | single hw => exact settled_of_write hw (.inr hroute) hstart
  · exact settled_of_writes (exec_writes store _ id) rfl hstart

def ChangesRoute (store : Store) (e : StoreEvent) (id : String) : Prop :=
  (store.exec e).getSandbox id ≠ store.getSandbox id

instance (store : Store) (e : StoreEvent) (id : String) : Decidable (ChangesRoute store e id) :=
  inferInstanceAs (Decidable (_ ≠ _))

theorem step_of_changesRoute {id op} (hop : op.migrates = true)
    (h : ChangesRoute store (.transact id op) id) :
    ∃ after, JournalStep (store.rows id).toRoutingRows op after ∧ after.route ≠ store.getSandbox id ∧
      (store.exec (.transact id op)).rows id = (store.rows id).commit after := by
  have hrows : (store.exec (.transact id op)).rows id =
      (store.rows id).commit (op.apply (store.rows id).toRoutingRows) := by
    unfold ChangesRoute at h
    simp only [exec] at h ⊢
    cases hc : store.commit id (op.apply (store.rows id).toRoutingRows) with
    | error => exact absurd (by rw [hc]; rfl) h
    | ok => exact (commit_ok hc).1
  refine ⟨_,journalStep_of_apply (.inl hop),fun hsame => h ?_,hrows⟩
  rw [← rows_route,hrows,SandboxRows.commit_route]
  exact hsame

/-- A journal of the sandbox changes its undeleted incarnation: in place, or from the source to the
destination as a staged migration is routed. -/
def OwnRouteOnly (store : Store) (id : String) (op : RouteOp) : Prop :=
  ∃ m ∈ (store.rows id).migrations, ∃ current stored, store.getSandbox id = some current ∧
    (store.exec (.transact id op)).getSandbox id = some stored ∧
    current.deleteOperationId = "" ∧ current.incarnation = m.incarnation ∧
    stored.incarnation = m.incarnation ∧ (stored.node = current.node ∨
      (∃ now, op = .routeSandboxMigration m.migrationId now) ∧ m.phase = .staged ∧
        current.node = m.source ∧ stored.node = m.destination)

theorem changesRoute_cases {id op} (hop : op.migrates = true)
    (h : ChangesRoute store (.transact id op) id) :
    OwnRouteOnly store id op := by
  obtain ⟨after,hstep,hne,hrows⟩ := step_of_changesRoute hop h
  have howned : ∀ {r : SandboxRoute} {i n}, r.ownedBy i n = true →
      r.incarnation = i ∧ r.node = n ∧ r.deleteOperationId = "" := by
    simp [SandboxRoute.ownedBy]
  unfold OwnRouteOnly
  rw [← rows_route (store.exec _),hrows,SandboxRows.commit_route]
  cases hstep with
  | kept | began | advanced | closed => exact absurd rfl hne
  | routed hm hphase hcur hown =>
    obtain ⟨hi,hn,hd⟩ := howned hown
    rw [← getSandboxMigration_migrationId hm]
    exact ⟨_,mem_of_find?_eq_some hm,_,_,hcur,rfl,hd,hi,hi,.inr ⟨⟨_,rfl⟩,hphase,hn,rfl⟩⟩
  | waking hm _ hcur hown =>
    obtain ⟨hi,hn,hd⟩ := howned hown
    exact ⟨_,mem_of_find?_eq_some hm,_,_,hcur,rfl,hd,hi,hi,.inl rfl⟩
  | completed hm _ hcur hown =>
    obtain ⟨hi,hn,hd⟩ := howned hown
    refine ⟨_,mem_of_find?_eq_some hm,_,_,hcur,rfl,hd,hi,?_,.inl ?_⟩
    · split <;> exact hi
    · split <;> rfl

theorem routed_of_changesRoute {id migrationId now}
    (h : ChangesRoute store (.transact id (.routeSandboxMigration migrationId now)) id) :
    ∃ m m', (store.rows id).getSandboxMigration migrationId = some m ∧ m.phase = .staged ∧
      ((store.exec (.transact id (.routeSandboxMigration migrationId now))).rows id).getSandboxMigration
        migrationId = some m' ∧ m'.phase = .routed := by
  obtain ⟨after,hstep,hne,hrows⟩ := step_of_changesRoute rfl h
  have hjnl : ∀ after : RoutingRows,
      ((store.rows id).commit after).getSandboxMigration migrationId =
        after.getSandboxMigration migrationId := by
    intro after
    simp only [getSandboxMigration,commit_migrations]
  rw [hrows,hjnl]
  cases hstep with
  | kept | closed => exact absurd rfl hne
  | @routed m current snapshot _ _ hm hphase _ _ _ =>
    refine ⟨m,{ m with phase := .routed, error := "" },hm,hphase,?_,rfl⟩
    rw [← getSandboxMigration_migrationId hm]
    exact (store.rows id).getSandboxMigration_put { m with phase := .routed, error := "" }

/-- At most one migration of a sandbox is active, a transaction of a journal moves only its own
route, and a removed route has no active journal. While journals only move forward, a completed one
stays complete and a route is moved once. -/
theorem migration_moves_route_once (store : Store) (id : String) :
    (Reaches Store.step anyEvent (· = .fresh) store → (store.rows id).activeMigrations.length ≤ 1) ∧
    (∀ op, op.migrates = true → ChangesRoute store (.transact id op) id →
      OwnRouteOnly store id op) ∧
    (∀ e, store.getSandbox id ≠ none → (store.exec e).getSandbox id = none →
      ((store.exec e).rows id).activeMigrations = []) ∧
    (Reaches Store.step Forward (· = .fresh) store →
      store.getSandbox id = none → (store.rows id).activeMigrations = []) ∧
    (∀ store' migrationId m, Reaches Store.step Forward (· = store) store' →
      (store.rows id).getSandboxMigration migrationId = some m →
      ∃ m', (store'.rows id).getSandboxMigration migrationId = some m' ∧ m'.source = m.source ∧
        m'.destination = m.destination ∧ m'.incarnation = m.incarnation ∧
        (m.phase = .complete → m'.phase = .complete)) ∧ ∀ migrationId now store',
      ChangesRoute store (.transact id (.routeSandboxMigration migrationId now)) id →
      Reaches Store.step Forward
        (· = store.exec (.transact id (.routeSandboxMigration migrationId now))) store' →
      ∀ now', ¬ ChangesRoute store' (.transact id (.routeSandboxMigration migrationId now')) id := by
  refine ⟨fun hr => (separate_of_reaches hr id).length_activeMigrations,
    fun op => changesRoute_cases,fun e => settled_exec,fun hr => settled_of_reaches hr id,?_,?_⟩
  · intro store' migrationId m hr' hm
    obtain ⟨m',hm',hle,hs,hd,hi⟩ := advances_of_reaches hr' id migrationId m hm
    refine ⟨m',hm',hs,hd,hi,fun hcpl => ?_⟩
    rw [hcpl] at hle
    cases hphase : m'.phase <;> simp [hphase,MigrationPhase.rank] at hle ⊢
  · intro migrationId now store' hchg hr' now' hagain
    obtain ⟨_,routed,_,_,hrtd,hphase⟩ := routed_of_changesRoute hchg
    obtain ⟨staged,_,hsta,hphase',_⟩ := routed_of_changesRoute hagain
    -- the journal is past staged, and stays there
    obtain ⟨m',hm',hle,-⟩ := advances_of_reaches hr' id migrationId routed hrtd
    cases hm'.symm.trans hsta
    rw [hphase,hphase'] at hle
    exact absurd hle (by decide)

namespace Example

def destination : NodeIdentity := ⟨"node-2","job-2","http://node-2"⟩

def createdRoute : SandboxRoute :=
  { sandboxId := "sandbox", node, resources := {}, state := .creating, incarnation }

def begin (migrationId : String) : StoreEvent :=
  .transact "sandbox" (.beginSandboxMigration createdRoute migrationId destination)

def advance (migrationId : String) (expected phase : MigrationPhase) : StoreEvent :=
  .transact "sandbox" (.advanceSandboxMigration migrationId [expected] phase {})

def stagedEvents : List StoreEvent :=
  [create "create-1",begin "move-1",advance "move-1" .planned .prepared,
    advance "move-1" .prepared .staged]

def commit : StoreEvent := .transact "sandbox" (.routeSandboxMigration "move-1" none)

def closedEvents : List StoreEvent :=
  [create "create-1",begin "move-1",advance "move-1" .planned .complete]

end Example

open Example

theorem migration_moves_route_once_staged : ∃ store,
    (store.rows "sandbox").activeMigrations.length ≤ 1 ∧
    ChangesRoute store commit "sandbox" ∧
    ¬ ChangesRoute (store.exec commit) commit "sandbox" := by
  obtain ⟨store,hr,hchg⟩ := Reaches.exists_from_runMeeting step Forward .fresh stagedEvents
    (ChangesRoute · commit "sandbox") (by decide +kernel)
  have honce := migration_moves_route_once store "sandbox"
  exact ⟨store,honce.1 (hr.mono fun _ _ _ => trivial),hchg,
    honce.2.2.2.2.2 "move-1" none _ hchg (.start rfl) none⟩

/-- A compare-and-swap out of complete makes a completed migration active again. -/
theorem reopened_migration_active : ∃ store, Reaches Store.step anyEvent (· = .fresh) store ∧
      (store.rows "sandbox").activeMigrations = [] ∧
      ((store.exec (advance "move-1" .complete .planned)).rows
        "sandbox").activeMigrations.length = 1 :=
  Reaches.exists_from_run step .fresh closedEvents _ (by decide +kernel)

end UCloudSandboxes.Routing
