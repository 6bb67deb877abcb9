import UCloudSandboxes.Gateway.CommandActs
import UCloudSandboxes.Gateway.Groups

namespace UCloudSandboxes.Gateway
open Machine Routing GroupStore GroupSystem GroupRun List Bool

variable {store : Store} {id : String} {route : SandboxRoute} {fingerprint : String → String}
variable {utcNow : Nat} {st st' : GroupStore} {run : GroupRun}

/-- No intent is written or retargeted: a sandbox keeps its incarnation and worker or its route
goes. -/
def Fewer (store store' : Store) : Prop :=
  ∀ id, store'.getSandbox id = none ∨ allocation store' id = allocation store id

theorem Fewer.none {store store'} (h : Fewer store store') (hnone : store.getSandbox id = none) :
    store'.getSandbox id = none := by
  rcases h id with hgone | hsame
  · exact hgone
  · rw [allocation] at hsame
    exact Option.map_eq_none_iff.mp (hsame.trans (Option.map_eq_none_iff.mpr hnone))

section Absent

theorem getSandbox_exec_none {e} (hroutes : CommandEvent.routes e = true)
    (hpla : CommandEvent.places (.route e) = false) (hnone : store.getSandbox id = none) :
    (store.exec e).getSandbox id = none := by
  have hcre : e.creates = false := by
    cases e with
    | upsertSandbox => cases hroutes
    | allocateCreate | retargetCreate => cases hpla
    | _ => rfl
  obtain h | ⟨_,_,_,-,h⟩ := exec_cases store e id
  · exact h.absent hcre hnone
  have hrow : (store.rows id).route = none := hnone
  rw [SandboxRows.settle] at h
  split at h
  · refine foldlM_invariant (P := fun r : SandboxRows => r.route = none) (fun r item r' hr hs => ?_) hrow h
    simp only [SandboxRows.settleEntry,accepted,hr] at hs
    cases hs
    exact hr
  · rw [← Store.rows_route,← Except.ok.inj h]
    simp only [SandboxRows.settleAbsent,hrow]

theorem getSandbox_step_none {c c' : CommandSystem} {e} (hpla : e.places = false)
    (h : c.step e = some c') (hnone : c.db.routes.getSandbox id = none) :
    c'.db.routes.getSandbox id = none := by
  have hqd {db : CommandStore} (h : Queued c.db db) : db.routes.getSandbox id = none := by
    rw [h.routes]
    exact hnone
  cases e with
  | tick => exact Option.some.inj h ▸ hnone
  | submit =>
    obtain ⟨-,rfl⟩ := some_of_guard h
    simp only [CommandStore.submit]
    split <;> exact hnone
  | claim =>
    obtain ⟨-,h⟩ := of_guard h nofun
    exact Option.some.inj h ▸ hqd (.claim _ _ _ _ _)
  | renew => exact Option.some.inj h ▸ hqd (.renew _ _ _ _ _)
  | defer => exact Option.some.inj h ▸ hqd (.defer _ _ _ _ _)
  | complete => exact Option.some.inj h ▸ hqd (.complete _ _ _ _)
  | prune => exact Option.some.inj h ▸ hqd (.prune _ _ _)
  | cancel => exact Option.some.inj h ▸ hqd (.cancel _ _ _)
  | execute => cases hpla
  | route =>
    obtain ⟨hroutes,rfl⟩ := some_of_check h
    exact getSandbox_exec_none hroutes hpla hnone

end Absent

section Transactions
variable {α β : Type} {body : Store → α → Store × β}

theorem each_invariant {P : Store → Prop} {items}
    (hbody : ∀ routes, ∀ a ∈ items, P routes → P (body routes a).1) {routes} (h : P routes) :
    P (each body routes items).1 := by
  induction items generalizing routes with
  | nil => exact h
  | cons a items ih =>
    have hfirst := hbody routes a mem_cons_self h
    exact ih (fun routes a ha => hbody routes a (.tail _ ha)) hfirst

theorem mem_each {items routes b} (h : b ∈ (each body routes items).2) :
    ∃ a ∈ items, ∃ routes, b = (body routes a).2 := by
  induction items generalizing routes with
  | nil => cases h
  | cons a items ih =>
    rcases mem_cons.mp h with rfl | hrest
    · exact ⟨a,(.head _),routes,rfl⟩
    · obtain ⟨a',ha',hb⟩ := ih hrest
      exact ⟨a',.tail _ ha',hb⟩

theorem reserveOne_ne {p} (hid : id ≠ p.sandboxId) (routes) :
    (reserveOne fingerprint utcNow routes p).1.getSandbox id = routes.getSandbox id := by
  rw [reserveOne]
  split
  · rename_i routes' route hallo
    obtain ⟨rfl,-⟩ | ⟨-,hnew⟩ := Store.allocateCreate_cases hallo
    · rfl
    · exact hnew.reads.2 id hid
  · rfl

theorem reserveOne_route (p routes) :
    ∀ route ∈ (reserveOne fingerprint utcNow routes p).2, route.sandboxId = p.sandboxId := by
  rw [reserveOne]
  split
  · rename_i routes' route hallo
    rintro _ ⟨⟩
    obtain ⟨-,hroute⟩ | ⟨-,hnew⟩ := Store.allocateCreate_cases hallo
    · exact Store.getSandbox_id hroute
    · exact hnew.own
  · rintro _ ⟨⟩

theorem retargetOne_none {move routes} (hnone : routes.getSandbox id = none) :
    (retargetOne utcNow routes move).1.getSandbox id = none := by
  rw [retargetOne]
  split
  · rename_i routes' moved hret
    obtain heq | ⟨hstd,new,-,hnew⟩ := Store.retargetCreate_cases hret
    · cases heq
      exact hnone
    · have hid : id ≠ move.1.sandboxId := by
        rintro rfl
        exact hstd hnone
      exact (hnew.reads.2 id hid).trans hnone
  · exact hnone

theorem retargetOne_route (move routes) :
    ∀ route ∈ (retargetOne utcNow routes move).2, route.sandboxId = move.1.sandboxId := by
  rw [retargetOne]
  split
  · rename_i routes' moved hret
    obtain heq | ⟨-,new,rfl,hnew⟩ := Store.retargetCreate_cases hret
    · cases heq
      rintro _ ⟨⟩
    · rintro _ ⟨⟩
      exact hnew.own
  · rintro _ ⟨⟩

theorem ok_of_active {x} {r r' : GroupStore × List (Option SandboxRoute)} (h : (do
    st.commandRow x
    st.requireActiveGroup
    .ok r) = .ok r') : st.group.any (·.state = .active) = true ∧ r = r' := by
  obtain ⟨_,-,h⟩ := ok_of_bind_ok h
  obtain ⟨_,hact,h⟩ := ok_of_bind_ok h
  rw [requireActiveGroup] at hact
  split at hact
  · exact ⟨‹_›,Except.ok.inj h⟩
  · cases hact

theorem confirmCreates_kept (utcNow routes) (st : GroupStore) :
    (∀ id, allocation (st.confirmCreates utcNow routes).db.routes id = allocation st.db.routes id) ∧
      (st.confirmCreates utcNow routes).group = st.group ∧
      (∀ id ∈ st.members, id ∈ (st.confirmCreates utcNow routes).members) ∧
      ∀ id ∈ (st.confirmCreates utcNow routes).members, id ∈ st.members ∨
        ∃ route ∈ routes, route.sandboxId = id := by
  induction routes generalizing st with
  | nil => exact ⟨fun _ => rfl,rfl,fun _ h => h,fun _ => .inl⟩
  | cons route routes ih =>
    obtain ⟨hall,hgroup,hmore,hmembers⟩ := ih (confirmOne utcNow st route)
    have hone : (∀ id, allocation (confirmOne utcNow st route).db.routes id =
        allocation st.db.routes id) ∧ (confirmOne utcNow st route).group = st.group ∧
        (∀ id ∈ st.members, id ∈ (confirmOne utcNow st route).members) ∧
        ∀ id ∈ (confirmOne utcNow st route).members, id ∈ st.members ∨ route.sandboxId = id := by
      rw [confirmOne]
      split
      · rename_i routes' confirmed hcon
        refine ⟨allocation_confirm hcon,rfl,fun id hid => ?_,fun id hid => ?_⟩
        · exact (AList.mem_insert _).mpr (.inr hid)
        · exact ((AList.mem_insert _).mp hid).symm.imp (fun h => h) fun h => h.symm
      · exact ⟨fun _ => rfl,rfl,fun _ h => h,fun _ => .inl⟩
      · exact ⟨fun _ => rfl,rfl,fun _ h => h,fun _ => .inl⟩
    obtain ⟨hall₁,hgroup₁,hmore₁,hmembers₁⟩ := hone
    refine ⟨fun id => (hall id).trans (hall₁ id),hgroup.trans hgroup₁,
      fun id hid => hmore id (hmore₁ id hid),fun id hid => ?_⟩
    rcases hmembers id hid with h | ⟨r,hr,hid⟩
    · exact (hmembers₁ id h).imp (fun h => h) fun h => ⟨route,(.head _),h⟩
    · exact .inr ⟨r,.tail _ hr,hid⟩

end Transactions

namespace GroupRun

theorem mayPlace_routed (hrtd : run.routed = true) : run.mayPlace id = true ↔
    ∃ m ∈ run.unplaced, m.sandboxId = id ∧ m.route = none := by
  simp [mayPlace,hrtd]

structure Tidy (run : GroupRun) : Prop where
  idle : run.routed = false → run.dispatched = []
  apart : ∀ r ∈ run.dispatched, ∀ m ∈ run.unplaced, m.sandboxId = r.sandboxId → m.route ≠ none
  own : ∀ m ∈ run.unplaced, ∀ r, m.route = some r → r.sandboxId = m.sandboxId

theorem Tidy.mayPlace_dispatched (ht : run.Tidy) {r} (hr : r ∈ run.dispatched) :
    run.mayPlace r.sandboxId = false := by
  rw [← not_eq_true]
  intro h
  cases hrtd : run.routed with
  | false =>
    rw [ht.idle hrtd] at hr
    cases hr
  | true =>
    obtain ⟨m,hm,hid,hnone⟩ := (mayPlace_routed hrtd).mp h
    exact ht.apart r hr m hm hid hnone

theorem Tidy.moving_own (ht : run.Tidy) {p move} (h : run.moving p = some move) :
    move.1.sandboxId = p.sandboxId := by
  obtain ⟨r,hr,rfl⟩ := Option.map_eq_some_iff.mp h
  obtain ⟨m,hm,hroute⟩ := exists_of_findSome?_eq_some hr
  obtain ⟨hm,hid⟩ := mem_filter.mp hm
  exact (ht.own m hm r hroute).trans (of_decide_eq_true hid)

structure GoesOn (run run' : GroupRun) : Prop where
  tidy : run.Tidy → run'.Tidy
  mayPlace : ∀ id, run'.mayPlace id = true → run.mayPlace id = true

theorem goesOn_readRoutes (hrtd : run.routed = false) (routes) :
    run.GoesOn (run.readRoutes fingerprint routes) := by
  refine ⟨fun _ => ⟨nofun,fun r hr m hm hid hnone => ?_,fun m hm r hr => ?_⟩,fun id h => ?_⟩
  · obtain ⟨k,-,hk⟩ := mem_filterMap.mp hr
    have hroute := (Option.filter_eq_some_iff.mp hk).1
    obtain ⟨k',hk',rfl⟩ := mem_map.mp hm
    have habsent := (mem_filter.mp hk').2
    obtain rfl : k' = k := hid.trans (routes.getSandbox_id hroute)
    simp [hroute] at habsent
  · obtain ⟨k,-,rfl⟩ := mem_map.mp hm
    cases hr
  · obtain ⟨m,hm,rfl,-⟩ := (mayPlace_routed rfl).mp h
    obtain ⟨k,hk,rfl⟩ := mem_map.mp hm
    have habsent := (mem_filter.mp hk).2
    rw [and_eq_true] at habsent
    simpa [mayPlace,hrtd] using habsent.2

section
variable (hrtd : run.routed = true)
include hrtd

theorem GoesOn.of_unplaced {run'} (hrtd' : run'.routed = true) (htidy : run.Tidy → run'.Tidy)
    (h : ∀ m ∈ run'.unplaced, m.route = none → m ∈ run.unplaced) : run.GoesOn run' := by
  refine ⟨htidy,fun id hid => ?_⟩
  obtain ⟨m,hm,rfl,hnone⟩ := (mayPlace_routed hrtd').mp hid
  exact (mayPlace_routed hrtd).mpr ⟨m,h m hm hnone,rfl,hnone⟩

theorem goesOn_place {plans routes} (hids : ∀ r ∈ routes, ∃ p ∈ plans, p.sandboxId = r.sandboxId) :
    run.GoesOn (run.place plans routes) := by
  refine .of_unplaced hrtd hrtd (fun ht => ⟨fun h => ?_,fun r hr m hm hid => ?_,fun m hm => ?_⟩)
    fun m hm _ => (mem_filter.mp hm).1
  · exact absurd (hrtd.symm.trans h) nofun
  · obtain ⟨hm,hplan⟩ := mem_filter.mp hm
    rcases mem_append.mp hr with hold | hnew
    · exact ht.apart r hold m hm hid
    obtain ⟨p,hp,hpid⟩ := hids r hnew
    have hany : (plans.any fun p => p.sandboxId = m.sandboxId) = true :=
      any_eq_true.mpr ⟨p,hp,by simp [hpid,hid]⟩
    simp [hany] at hplan
  · exact ht.own m (mem_filter.mp hm).1

theorem goesOn_reject (ids) : run.GoesOn (run.reject ids) := by
  have hcases : ∀ m ∈ (run.reject ids).unplaced, m ∈ run.unplaced ∨ m.route.any (·.sandboxId = m.sandboxId) := by
    intro m hm
    rcases mem_append.mp hm with hold | hback
    · exact .inl hold
    · obtain ⟨r,-,rfl⟩ := mem_map.mp hback
      exact .inr (by simp)
  refine .of_unplaced hrtd hrtd (fun ht => ⟨fun h => ?_,fun r hr m hm hid => ?_,fun m hm r hr => ?_⟩)
    fun m hm hnone => ?_
  · exact absurd (hrtd.symm.trans h) nofun
  · rcases hcases m hm with hold | hback
    · exact ht.apart r (mem_filter.mp hr).1 m hold hid
    · rintro hnone
      simp [hnone] at hback
  · rcases hcases m hm with hold | hback
    · exact ht.own m hold r hr
    · simpa [hr] using hback
  · exact (hcases m hm).resolve_right (by simp [hnone])

theorem goesOn_settle (ids) : run.GoesOn (run.settle ids) := by
  refine .of_unplaced hrtd hrtd (fun ht => ⟨fun h => ?_,fun r hr m hm => ?_,fun m hm => ?_⟩)
    fun m hm _ => (mem_filter.mp hm).1
  · exact absurd (hrtd.symm.trans h) nofun
  · exact ht.apart r (mem_filter.mp hr).1 m (mem_filter.mp hm).1
  · exact ht.own m (mem_filter.mp hm).1

theorem goesOn_cleared : run.GoesOn { run with unplaced := [] } := by
  have hnil : ∀ m, m ∉ ({ run with unplaced := [] } : GroupRun).unplaced := fun m => not_mem_nil
  refine .of_unplaced hrtd hrtd (fun ht => ⟨ht.idle,fun r _ m hm => ?_,fun m hm => ?_⟩) fun m hm => ?_
  · exact absurd hm (hnil m)
  · exact absurd hm (hnil m)
  · exact absurd hm (hnil m)

end

end GroupRun

def RunAct.observed : RunAct → List SandboxRoute
  | .confirm observed => observed
  | _ => []

structure RunActed (s s' : GroupSystem) (t : Nat) (run : GroupRun) (observed : List SandboxRoute) : Prop where
  group : s'.group = s.group
  members : ∀ id ∈ s.members, id ∈ s'.members
  recorded : ∀ id ∈ s'.members, id ∈ s.members ∨ ∃ route ∈ observed, route.sandboxId = id
  dispatched : ∀ route ∈ observed, ∃ r ∈ run.dispatched, r.sandboxId = route.sandboxId
  runs : s'.runs = s.runs.erase t ∨ ∃ run', run.GoesOn run' ∧ s'.runs = s.runs.insert t run'
  absent : ∀ id, run.mayPlace id = false → s.commands.db.routes.getSandbox id = none →
    s'.commands.db.routes.getSandbox id = none
  closed : s.group.any (·.state = .active) = false → Fewer s.commands.db.routes s'.commands.db.routes

namespace RunActed
variable {s s' : GroupSystem} {t : Nat} {run' : GroupRun}

theorem of_runs {runs}
    (h : runs = s.runs.erase t ∨ ∃ run', run.GoesOn run' ∧ runs = s.runs.insert t run') :
    RunActed s { s with runs } t run [] :=
  ⟨rfl,fun _ h => h,fun _ => .inl,fun _ hr => absurd hr not_mem_nil,h,
    fun _ _ h => h,fun _ _ => .inr rfl⟩

theorem of_routes {routes} (hrun : run.GoesOn run')
    (habsent : ∀ id, run.mayPlace id = false → s.commands.db.routes.getSandbox id = none →
      routes.getSandbox id = none)
    (hcls : s.group.any (·.state = .active) = false → Fewer s.commands.db.routes routes) :
    RunActed s { s.withStore { s.store with db := { s.store.db with routes } } with
      runs := s.runs.insert t run' } t run [] :=
  ⟨rfl,fun _ h => h,fun _ => .inl,fun _ hr => absurd hr not_mem_nil,
    .inr ⟨run',hrun,rfl⟩,habsent,hcls⟩

end RunActed

namespace GroupSystem
variable {s s' : GroupSystem} {e : GroupEvent} {t : Nat}

section
variable (hrtd : run.routed = true)
include hrtd

theorem acted_error {α} {f : α → GroupStore × GroupRun} {error} :
    RunActed s (s.after t run f (.error error)) t run [] := by
  cases error with
  | groupDeleted => exact .of_runs (.inr ⟨_,goesOn_cleared hrtd,rfl⟩)
  | command => exact .of_runs (.inl rfl)

theorem acted_reserve {plans} (hfresh : plans.all run.fresh = true) :
    RunActed s (s.after t run (fun r => (r.1,run.place plans (written plans r.2)))
      (s.store.reserveCreateIntents (s.executor utcNow run.executor) fingerprint utcNow plans)) t run [] := by
  cases h : s.store.reserveCreateIntents (s.executor utcNow run.executor) fingerprint utcNow plans with
  | error => exact acted_error hrtd
  | ok r =>
    obtain ⟨hact,rfl⟩ := ok_of_active h
    refine .of_routes (goesOn_place hrtd fun route hroute => ?_) (fun id hplace hnone => ?_)
      fun hina => ?_
    · obtain ⟨pair,hmem,hwr⟩ := mem_filterMap.mp hroute
      obtain ⟨p,hp,routes,hres⟩ := mem_each (of_mem_zip hmem).2
      rw [hres] at hwr
      have hown := reserveOne_route p routes route (Option.filter_eq_some_iff.mp hwr).1
      exact ⟨p,hp,hown.symm⟩
    · refine each_invariant (P := fun routes => routes.getSandbox id = none) (fun routes p hp h => ?_) hnone
      have hmay : run.mayPlace p.sandboxId = true := by
        rw [mayPlace,if_pos hrtd]
        exact all_eq_true.mp hfresh p hp
      have hne : id ≠ p.sandboxId := by
        rintro rfl
        simp [hmay] at hplace
      exact (reserveOne_ne hne routes).trans h
    · exact absurd (hact.symm.trans hina) nofun

theorem acted_retarget (ht : run.Tidy) (plans) :
    RunActed s (s.after t run (fun r => (r.1,run.place plans (r.2.filterMap fun route => route)))
      (s.store.retargetCreateIntents (s.executor utcNow run.executor) utcNow
        (plans.filterMap run.moving))) t run [] := by
  cases h : s.store.retargetCreateIntents (s.executor utcNow run.executor) utcNow
    (plans.filterMap run.moving) with
  | error error => exact acted_error hrtd
  | ok r =>
    obtain ⟨hact,rfl⟩ := ok_of_active h
    refine .of_routes (goesOn_place hrtd fun route hroute => ?_) (fun id _ hnone => ?_)
      fun hina => ?_
    · obtain ⟨result,hmem,rfl⟩ := mem_filterMap.mp hroute
      obtain ⟨move,hmove,routes,hres⟩ := mem_each hmem
      obtain ⟨p,hp,hmov⟩ := mem_filterMap.mp hmove
      refine ⟨p,hp,?_⟩
      rw [retargetOne_route move routes route hres.symm]
      exact (ht.moving_own hmov).symm
    · exact each_invariant (P := fun routes => routes.getSandbox id = none)
        (fun routes move _ h => retargetOne_none h) hnone
    · exact absurd (hact.symm.trans hina) nofun

theorem acted_confirm {observed}
    (hobs : (observed.all fun route => run.dispatched.any (sameSandboxRouteIncarnation · route)) = true)
    : RunActed s { s.withStore (s.store.confirmCreates utcNow observed) with
      runs := s.runs.insert t (run.settle (observed.map (·.sandboxId))) } t run observed := by
  obtain ⟨hall,hgroup,hmore,hmembers⟩ := confirmCreates_kept utcNow observed s.store
  refine ⟨hgroup,hmore,hmembers,fun route hroute => ?_,.inr ⟨_,goesOn_settle hrtd _,rfl⟩,
    fun id _ hnone => ?_,fun _ id => .inr (hall id)⟩
  · obtain ⟨r,hr,hsame⟩ := any_eq_true.mp (all_eq_true.mp hobs route hroute)
    simp only [sameSandboxRouteIncarnation,and_eq_true,decide_eq_true_eq] at hsame
    exact ⟨r,hr,hsame.1.1⟩
  · have hfewer : Fewer s.store.db.routes (s.store.confirmCreates utcNow observed).db.routes :=
      fun id => .inr (hall id)
    exact hfewer.none hnone

theorem acted_abandon (id route) : RunActed s (s.after t run (fun st => (st,run.settle [id]))
      (s.store.abandon (s.executor utcNow run.executor) route)) t run [] := by
  cases h : s.store.abandon (s.executor utcNow run.executor) route with
  | error => exact acted_error hrtd
  | ok =>
    obtain ⟨_,-,h⟩ := ok_of_bind_ok h
    split at h
    · cases h
      exact .of_runs (.inr ⟨_,goesOn_settle hrtd _,rfl⟩)
    · cases h
      have hfewer : Fewer s.commands.db.routes (s.commands.db.routes.deleteSandbox route.sandboxId) := by
        intro id
        by_cases hid : id = route.sandboxId
        · exact .inl (hid ▸ getSandbox_deleteSandbox ..)
        · have hrow := congrArg (·.route) (Store.rows_deleteSandbox_ne s.commands.db.routes hid)
          exact .inr (congrArg (Option.map _) hrow)
      exact .of_routes (goesOn_settle hrtd _) (fun k _ hnone => hfewer.none hnone) fun _ => hfewer

end

theorem acted_of_act {a} (ht : run.Tidy) (hrtd : run.routed = decide (a ≠ .readRoutes))
    (h : s.act fingerprint t run utcNow a = some s') : RunActed s s' t run a.observed := by
  cases a with
  | readRoutes =>
    cases h
    exact .of_runs (.inr ⟨_,goesOn_readRoutes hrtd _,rfl⟩)
  | reserve =>
    obtain ⟨hfresh,rfl⟩ := some_of_check h
    exact acted_reserve hrtd hfresh
  | retarget plans =>
    obtain ⟨-,rfl⟩ := some_of_check h
    exact acted_retarget hrtd ht plans
  | rejected ids =>
    cases h
    exact .of_runs (.inr ⟨_,goesOn_reject hrtd ids,rfl⟩)
  | confirm =>
    obtain ⟨hobs,rfl⟩ := some_of_check h
    exact acted_confirm hrtd hobs
  | settle ids =>
    cases h
    exact .of_runs (.inr ⟨_,goesOn_settle hrtd ids,rfl⟩)
  | abandon id =>
    obtain ⟨route,-,rfl⟩ := Option.map_eq_some_iff.mp h
    exact acted_abandon hrtd id route
  | finish =>
    cases h
    exact .of_runs (.inl rfl)

theorem runs_of_acted {observed} (h : RunActed s s' t run observed) {t' run'}
    (hlook : s'.runs.lookup t' = some run') :
    (t' ≠ t ∧ s.runs.lookup t' = some run') ∨ (t' = t ∧ run.GoesOn run') := by
  rcases h.runs with hruns | ⟨run₁,hgoes,hruns⟩
  · rw [hruns] at hlook
    exact .inl (lookup_of_erase hlook)
  · rw [hruns] at hlook
    obtain ⟨rfl,rfl⟩ | hold := lookup_of_insert hlook
    · exact .inr ⟨rfl,hgoes⟩
    · exact .inl hold

def GroupKept (s s' : GroupSystem) : Prop :=
  s.group.any (·.state = .deleted) = true → s'.group.any (·.state = .deleted) = true

inductive Stepped (s s' : GroupSystem) : GroupEvent → Prop
  | outside {e : GroupEvent} (hruns : s'.runs = s.runs) (hmembers : s'.members = s.members)
      (hgroup : s.GroupKept s') (habsent : ∀ id, s.commands.db.routes.getSandbox id = none →
        s'.commands.db.routes.getSandbox id = none) : Stepped s s' e
  | enter {e : GroupEvent} {t : Nat} {run : GroupRun} (hruns : s'.runs = s.runs.insert t run)
      (hmembers : s'.members = s.members) (hgroup : s.GroupKept s')
      (hroutes : s'.commands = s.commands) (htidy : run.Tidy)
      (hplace : ∀ id ∈ s.members, run.mayPlace id = false) : Stepped s s' e
  | act {t utcNow : Nat} {a : RunAct} {run : GroupRun} (hrun : s.runs.lookup t = some run)
      (h : RunActed s s' t run a.observed) : Stepped s s' (.act t utcNow a)

theorem groupKept_ensure (group) : s.GroupKept (s.withStore (s.store.ensureSandboxGroup group)) := by
  intro hdel
  obtain ⟨g,hg,hstate⟩ := (Option.any_eq_true _ _).mp hdel
  have hkept : (s.withStore (s.store.ensureSandboxGroup group)).group = some g := by
    show (s.group <|> some group) = some g
    rw [hg]
    rfl
  rw [hkept]
  exact hstate

theorem stepped_of_step (htidy : ∀ t run, s.runs.lookup t = some run → run.Tidy)
    (h : s.step fingerprint e = some s') : s.Stepped s' e := by
  cases e with
  | command =>
    obtain ⟨hpla,h⟩ := of_guard h nofun
    obtain ⟨commands,hstep,rfl⟩ := Option.map_eq_some_iff.mp h
    exact .outside rfl rfl (fun h => h) fun id => getSandbox_step_none (by simpa using hpla) hstep
  | enter t claim utcNow group =>
    obtain ⟨-,h⟩ := of_guard h nofun
    split at h
    · cases h
      exact .outside rfl rfl (fun h => h) fun _ h => h
    · obtain ⟨stored,hst,rfl⟩ := Option.map_eq_some_iff.mp h
      split
      · have htidy : Tidy { executor := claim, group := stored } :=
          ⟨fun _ => rfl,fun _ hr => absurd hr not_mem_nil,fun _ hm => absurd hm not_mem_nil⟩
        refine .enter rfl rfl (groupKept_ensure group) rfl htidy fun id hid => ?_
        obtain ⟨g,-,rfl⟩ := Option.map_eq_some_iff.mp hst
        have hpl : id ∈ s.members.keys := hid
        simp [mayPlace,withStore,store,ensureSandboxGroup,hpl]
      · exact .outside rfl rfl (groupKept_ensure group) fun _ h => h
  | act t =>
    obtain ⟨run,hrun,h⟩ := Option.bind_eq_some_iff.mp h
    obtain ⟨hrtd,h⟩ := of_check h nofun
    exact .act hrun (acted_of_act (htidy t run hrun) hrtd h)
  | deleteGroup =>
    cases h
    refine .outside rfl rfl (fun h => ?_) fun _ h => h
    obtain ⟨g,hg,-⟩ := (Option.any_eq_true _ _).mp h
    have hdel : (s.withStore s.store.deleteSandboxGroup).group = some { g with state := .deleted } :=
      congrArg (Option.map _) hg
    rw [hdel]
    rfl

theorem tidy_step (htidy : ∀ t run, s.runs.lookup t = some run → run.Tidy)
    (h : s.step fingerprint e = some s') : ∀ t run, s'.runs.lookup t = some run → run.Tidy := by
  intro t run hrun
  cases stepped_of_step htidy h with
  | outside hruns => exact htidy t run (hruns ▸ hrun)
  | @enter _ t₁ run₁ hruns _ _ _ htidy₁ =>
    rw [hruns] at hrun
    obtain ⟨-,rfl⟩ | ⟨-,hold⟩ := lookup_of_insert hrun
    · exact htidy₁
    · exact htidy t run hold
  | act hrun₁ hacted =>
    rcases runs_of_acted hacted hrun with ⟨-,hold⟩ | ⟨-,hgoes⟩
    · exact htidy t run hold
    · exact hgoes.tidy (htidy _ _ hrun₁)

structure Inv (s : GroupSystem) : Prop where
  tidy : ∀ t run, s.runs.lookup t = some run → run.Tidy
  recorded : ∀ id ∈ s.members, ∀ t run, s.runs.lookup t = some run → run.mayPlace id = false

theorem not_mayPlace_observed {utcNow a} (hi : s.Inv)
    (halone : s.confirmsAlone (.act t utcNow a) = true) (hrun : s.runs.lookup t = some run)
    (h : RunActed s s' t run a.observed) {route} (hroute : route ∈ a.observed) {t' run'}
    (hrun' : s.runs.lookup t' = some run') : run'.mayPlace route.sandboxId = false := by
  by_cases ht : t' = t
  · subst ht
    obtain rfl := Option.some.inj (hrun'.symm.trans hrun)
    obtain ⟨r,hr,hsame⟩ := h.dispatched route hroute
    exact hsame ▸ (hi.tidy t' run' hrun).mayPlace_dispatched hr
  · cases a with
    | confirm =>
      have hentry := all_eq_true.mp halone ⟨t',run'⟩ (AList.mem_lookup_iff.mp hrun')
      simp only [ht,decide_false,Bool.false_or,all_eq_true,not_eq_true'] at hentry
      exact hentry route hroute
    | _ => cases hroute

theorem inv_step (hi : s.Inv) (halone : s.confirmsAlone e = true) (h : s.step fingerprint e = some s') :
    s'.Inv := by
  refine ⟨tidy_step hi.tidy h,fun id hid t run hrun => ?_⟩
  cases stepped_of_step hi.tidy h with
  | outside hruns hmembers => exact hi.recorded id (hmembers ▸ hid) t run (hruns ▸ hrun)
  | @enter _ t₁ run₁ hruns hmembers _ _ _ hplace =>
    rw [hruns] at hrun
    rw [hmembers] at hid
    obtain ⟨-,rfl⟩ | ⟨-,hold⟩ := lookup_of_insert hrun
    · exact hplace id hid
    · exact hi.recorded id hid t run hold
  | act hrun₁ hacted =>
    -- a member recorded before, or one just confirmed, is placed by no execution before the act
    have hbef : ∀ t run, s.runs.lookup t = some run → run.mayPlace id = false := by
      intro t run hrun
      rcases hacted.recorded id hid with hold | ⟨route,hroute,rfl⟩
      · exact hi.recorded id hold t run hrun
      · exact not_mayPlace_observed hi halone hrun₁ hacted hroute hrun
    rcases runs_of_acted hacted hrun with ⟨-,hold⟩ | ⟨-,hgoes⟩
    · exact hbef t run hold
    rw [← not_eq_true]
    intro hplace
    cases (hbef _ _ hrun₁).symm.trans (hgoes.mayPlace id hplace)

theorem gone_step (hi : s.Inv) (h : s.step fingerprint e = some s') (hid : id ∈ s.members)
    (hnone : s.commands.db.routes.getSandbox id = none) :
    id ∈ s'.members ∧ s'.commands.db.routes.getSandbox id = none := by
  cases stepped_of_step hi.tidy h with
  | outside _ hmembers _ habsent => exact ⟨hmembers ▸ hid,habsent id hnone⟩
  | enter _ hmembers _ hroutes => exact ⟨hmembers ▸ hid,hroutes ▸ hnone⟩
  | act hrun hacted =>
    exact ⟨hacted.members id hid,hacted.absent id (hi.recorded id hid _ _ hrun) hnone⟩

theorem tidy_start : ∀ t run, start.runs.lookup t = some run → run.Tidy := nofun

theorem inv_of_reaches
    (hs : Reaches (step fingerprint) (fun s e => s.confirmsAlone e = true) (· = .start) s) : s.Inv := by
  exact hs.keeps ⟨tidy_start,nofun⟩ fun s e s' => inv_step

theorem tidy_of_reaches (hs : Reaches (step fingerprint) anyEvent (· = .start) s) :
    ∀ t run, s.runs.lookup t = some run → run.Tidy := by
  exact hs.keeps tidy_start
    fun s e s' htidy _ => tidy_step htidy

end GroupSystem

/-- While every member is confirmed with no other execution about to place it, no execution
allocates a deleted confirmed member again; in any run none writes or moves an intent of a deleted
group. -/
theorem group_never_recreates {s : GroupSystem} :
    (Reaches (step fingerprint) (fun s e => s.confirmsAlone e = true) (· = .start) s →
      ∀ id ∈ s.members, s.commands.db.routes.getSandbox id = none →
      ∀ s', Reaches (step fingerprint) (fun s e => s.confirmsAlone e = true) (· = s) s' →
      ∀ t utcNow a s'', s'.step fingerprint (.act t utcNow a) = some s'' →
        ¬ Allocates s'.commands.db.routes s''.commands.db.routes id) ∧
    (Reaches (step fingerprint) anyEvent (· = .start) s →
      s.group.any (·.state = .deleted) = true →
      ∀ s', Reaches (step fingerprint) anyEvent (· = s) s' →
      ∀ t utcNow a s'', s'.step fingerprint (.act t utcNow a) = some s'' →
        Fewer s'.commands.db.routes s''.commands.db.routes) := by
  refine ⟨fun hs id hid hnone s' hs' t utcNow a s'' hstep => ?_,
    fun hs hdel s' hs' t utcNow a s'' hstep => ?_⟩
  · have hgone : s'.Inv ∧ id ∈ s'.members ∧ s'.commands.db.routes.getSandbox id = none := by
      refine hs'.keeps (I := fun s' => s'.Inv ∧ id ∈ s'.members ∧
        s'.commands.db.routes.getSandbox id = none) ⟨inv_of_reaches hs,hid,hnone⟩ ?_
      intro s e s' hi halone h
      exact ⟨inv_step hi.1 halone h,gone_step hi.1 h hi.2.1 hi.2.2⟩
    have hafter := (gone_step hgone.1 hstep hgone.2.1 hgone.2.2).2
    rintro ⟨route,hroute,-⟩
    exact absurd (hafter.symm.trans hroute) nofun
  · have hcls : (∀ t run, s'.runs.lookup t = some run → run.Tidy) ∧
        s'.group.any (·.state = .deleted) = true := by
      refine hs'.keeps (I := fun s' => (∀ t run, s'.runs.lookup t = some run → run.Tidy) ∧
        s'.group.any (·.state = .deleted) = true) ⟨tidy_of_reaches hs,hdel⟩ fun s e s' hi _ h => ?_
      refine ⟨tidy_step hi.1 h,?_⟩
      cases stepped_of_step hi.1 h with
      | outside _ _ hgroup | enter _ _ hgroup => exact hgroup hi.2
      | act _ hacted => exact hacted.group ▸ hi.2
    obtain ⟨run,hrun,h⟩ := Option.bind_eq_some_iff.mp hstep
    obtain ⟨hrtd,h⟩ := of_check h nofun
    refine (acted_of_act (hcls.1 t run hrun) hrtd h).closed ?_
    obtain ⟨g,hg,hstate⟩ := (Option.any_eq_true _ _).mp hcls.2
    simp [hg,of_decide_eq_true hstate]

namespace Example

def groupRequest : SandboxGroup := { groupId := "group", requestHash := "hash", spec := "spec", count := 2 }

def memberPlan (index : Nat) (operationId : String) : GroupPlan where
  sandboxId := memberId "group" index
  node := ⟨"node","job","http://node"⟩
  resources := {}
  nodeEpoch := ""
  activityEpoch := 0
  operationId := operationId

def memberRoute : List SandboxRoute :=
  match reserveOne (fun _ => "spec") 0 .fresh (memberPlan 0 "create-1") with
  | (_,reserved) => reserved.toList

def placedEvents : List GroupEvent :=
  [.command (.submit "command" .group "group" "hash" "key" 600),
    .command (.claim "command" "claim-1" 30),
    .enter 1 (some ("command","claim-1")) 0 groupRequest,
    .act 1 0 .readRoutes,
    .act 1 0 (.reserve [memberPlan 0 "create-1"])]

def member : String := memberId "group" 0

/-- An execution places the member, loses its claim to a second one, and goes on to confirm it. -/
def overlapEvents : List GroupEvent :=
  placedEvents ++ [.command (.tick 31),
    .command (.claim "command" "claim-2" 30),
    .enter 2 (some ("command","claim-2")) 31 groupRequest,
    .act 1 31 (.confirm memberRoute),
    .command (.route (.transact member .deleteSandbox)),
    .act 2 31 .readRoutes]

def replayEvents : List GroupEvent :=
  placedEvents ++ [.act 1 0 (.confirm memberRoute),
    .act 1 0 .finish,
    .command (.route (.transact member .deleteSandbox)),
    .enter 2 (some ("command","claim-1")) 0 groupRequest,
    .act 2 0 .readRoutes]

end Example

open Example

/-- An execution that read the group before the member was confirmed, and the routes after it was
deleted, creates it anew. -/
theorem group_recreates_overlapping : ∃ s s' : GroupSystem,
    Reaches (step fun _ => "spec") anyEvent (· = .start) s ∧
    member ∈ s.members ∧ s.commands.db.routes.getSandbox member = none ∧
    s.step (fun _ => "spec") (.act 2 31 (.reserve [memberPlan 0 "create-2"])) = some s' ∧
    Allocates s.commands.db.routes s'.commands.db.routes member := by
  obtain ⟨s,hs,hmemb,hnone,s',hs',hsome⟩ := Reaches.exists_from_run (step fun _ => "spec") .start
    overlapEvents (fun s => member ∈ s.members ∧
      s.commands.db.routes.getSandbox member = none ∧
      ∃ s' ∈ s.step (fun _ => "spec") (.act 2 31 (.reserve [memberPlan 0 "create-2"])),
        (s'.commands.db.routes.getSandbox member).isSome) (by decide +kernel)
  obtain ⟨route,hroute⟩ := Option.isSome_iff_exists.mp hsome
  refine ⟨s,s',hs,hmemb,hnone,hs',route,hroute,fun old hold => ?_⟩
  exact absurd (hnone.symm.trans hold) nofun

/-- The same command executed again creates the second member, and not the deleted one. -/
theorem group_never_recreates_replay : ∃ s s' : GroupSystem,
    member ∈ s.members ∧ s.commands.db.routes.getSandbox member = none ∧
    s.step (fun _ => "spec") (.act 2 0 (.reserve [memberPlan 1 "create-2"])) = some s' ∧
    (s'.commands.db.routes.getSandbox (memberId "group" 1)).isSome ∧
    ¬ Allocates s.commands.db.routes s'.commands.db.routes member := by
  obtain ⟨s,hs,hmemb,hnone,s',hs',hsome⟩ := Reaches.exists_from_runMeeting (step fun _ => "spec")
    (fun s e => s.confirmsAlone e = true) .start replayEvents (fun s => member ∈ s.members ∧
      s.commands.db.routes.getSandbox member = none ∧
      ∃ s' ∈ s.step (fun _ => "spec") (.act 2 0 (.reserve [memberPlan 1 "create-2"])),
        (s'.commands.db.routes.getSandbox (memberId "group" 1)).isSome) (by decide +kernel)
  exact ⟨s,s',hmemb,hnone,hs',hsome,
    group_never_recreates.1 hs _ hmemb hnone s (.start rfl) 2 0 _ s' hs'⟩

end UCloudSandboxes.Gateway
