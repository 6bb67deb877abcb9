import UCloudSandboxes.Gateway.Commands
import UCloudSandboxes.Machine.Transaction

namespace UCloudSandboxes.Gateway
open Machine Routing CommandStore Store Option

variable {store store' : Store} {db db' : CommandStore} {x : Executor} {c c' : Command}
variable {act : CommandAct} {id : String} {route : SandboxRoute} {e : StoreEvent}

section Stores

theorem allocation_confirm {allow now r} (h : store.confirmSandboxObservation route allow now = .ok r)
    (id) : allocation r.1 id = allocation store id := by
  obtain he | ⟨hany,u,hu,he⟩ := confirmSandboxObservation_ok h
  · rw [he]
  obtain ⟨current,hcur,hrec⟩ := (Option.any_eq_true _ _).mp hany
  obtain ⟨-,hinc,hnode⟩ := sameSandboxRouteIncarnation_iff.mp ((Bool.and_eq_true _ _).mp hrec).2
  obtain hsame | ⟨stored,hw,hkey,hinc',-,hnode',-⟩ := upsertSandbox_ok hu
  · rw [he,hsame]
  obtain ⟨hself,hother⟩ := getSandbox_of_write (he ▸ hw)
  rw [hkey] at hself hother
  by_cases hid : id = route.sandboxId
  · subst hid
    simp [allocation,hself,hcur,hinc,hnode,hinc',hnode']
  · simp only [allocation,hother id hid]

/-- What the transactions of the routing domain do to the generations of the sandboxes. -/
structure Onward (routes routes' : Store) : Prop where
  hwm : ∀ id, routes.generationHwm id ≤ routes'.generationHwm id
  bounded : (∀ id, (routes.rows id).Bounded) → ∀ id, (routes'.rows id).Bounded
  origin : ∀ id route', routes'.getSandbox id = some route' →
    (∃ route, routes.getSandbox id = some route ∧ route.incarnation = route'.incarnation) ∨
    routes.generationHwm id < route'.incarnation.generation

theorem Onward.refl (store) : Onward store store :=
  ⟨fun _ => le_rfl,fun h => h,fun _ route hroute => .inl ⟨route,hroute,rfl⟩⟩

theorem onward_exec (store) (h : CommandEvent.routes e = true) : Onward store (store.exec e) := by
  have hfol := exec_follows store e
  refine ⟨fun id => (hfol id).hwm,fun hb id => (hfol id).bounded (hb id),fun id route' hroute' => ?_⟩
  rcases (hfol id).origin route' hroute' with hsame | hlt | hup
  · exact .inl hsame
  · exact .inr hlt
  · cases e with
    | upsertSandbox => cases h
    | _ => exact hup.elim

theorem onward_delete (store id) : Onward store (store.deleteSandbox id) := by
  have hrows : ∀ k, (store.deleteSandbox id).rows k =
      if k = id then (store.rows id).delete else store.rows k := by
    intro k
    split
    · subst k
      exact store.rows_deleteSandbox id
    · rename_i hk
      exact store.rows_deleteSandbox_ne hk
  refine ⟨fun k => ?_,fun hb k => ?_,fun k route' hroute' => ?_⟩
  · have h := congrArg (·.generationHwm) (hrows k)
    split at h
    · subst k
      exact h.ge
    · exact h.ge
  · rw [hrows k]
    split
    · intro route hroute
      cases hroute
    · exact hb k
  · have h := congrArg (·.route) (hrows k)
    rw [rows_route,hroute'] at h
    split at h
    · cases h
    · exact .inl ⟨route',h.symm,rfl⟩

theorem onward_allocate {a specHash operationId now}
    (h : store.allocateCreate a specHash operationId now = .ok (store',route)) : Onward store store' := by
  have hexec := onward_exec store (e := .allocateCreate a specHash operationId now) rfl
  simpa only [exec,h,after] using hexec

theorem onward_retarget {a operationId now moved}
    (h : store.retargetCreate route a operationId now = .ok (store',moved)) : Onward store store' := by
  have hexec := onward_exec store (e := .retargetCreate route a operationId now) rfl
  simpa only [exec,h,after] using hexec

theorem getSandbox_deleteSandbox (store : Store) (id) : (store.deleteSandbox id).getSandbox id = none :=
  congrArg (·.route) (store.rows_deleteSandbox id)

theorem mem_ended (h : store.getSandbox id = some route)
    (hgone : ∀ r, store'.getSandbox id = some r → r.incarnation ≠ route.incarnation) :
    route.incarnation.generation ∈ ended store store' id := by
  have hnone : (store'.getSandbox id).any (·.incarnation = route.incarnation) = false := by
    rw [← Bool.not_eq_true,any_eq_true]
    rintro ⟨r,hr,heq⟩
    exact hgone r hr (of_decide_eq_true heq)
  simp [ended,h,hnone]

def Allocates (routes routes' : Store) (id : String) : Prop :=
  ∃ route', routes'.getSandbox id = some route' ∧
    ∀ route, routes.getSandbox id = some route → route.incarnation ≠ route'.incarnation

theorem not_allocates {routes routes'} (h : allocation routes' id = allocation routes id) :
    ¬ Allocates routes routes' id := by
  rintro ⟨route',hroute',hnew⟩
  rw [allocation,hroute',eq_comm] at h
  obtain ⟨route,hroute,heq⟩ := map_eq_some_iff.mp h
  exact hnew route hroute (congrArg Prod.fst heq)

end Stores

section Rows

theorem lookup_updateCommand (db : CommandStore) (id k f) :
    (db.updateCommand id f).commands.lookup k =
      (db.commands.lookup k).map fun c => if k = id then f c else c :=
  lookup_mapRows ..

theorem commandRow_ok (h : db.commandRow x = .ok c) :
    db.commands.lookup x.commandId = some c ∧ c.heldBy x.claimToken x.now = true ∧
      ∀ g, c.generation = some g → ∃ route, db.routes.getSandbox c.sandboxId = some route ∧
        route.incarnation.generation = g := by
  rw [commandRow] at h
  split at h
  · cases h
  rename_i row hrow
  obtain ⟨hlook,hheld⟩ := filter_eq_some_iff.mp hrow
  cases hg : row.generation with
  | none =>
    simp only [hg] at h
    split at h
    · cases h
    · cases h
      exact ⟨hlook,hheld,fun g hg' => absurd (hg.symm.trans hg') nofun⟩
  | some =>
    simp only [hg] at h
    obtain ⟨hstd,h⟩ := of_check h nofun
    cases h
    obtain ⟨route,hroute,hgen⟩ := (any_eq_true _ _).mp hstd
    refine ⟨hlook,hheld,fun g' hg' => ⟨route,hroute,?_⟩⟩
    exact (of_decide_eq_true hgen).trans (some.inj (hg.symm.trans hg'))

theorem ok_of_raise {α} {r : Except Raised α} {a} (h : raise r = .ok a) : r = .ok a := by
  cases r with
  | ok => exact congrArg Except.ok (Except.ok.inj h)
  | error => cases h

theorem bindCommand_ok (h : db.bindCommand x c route = .ok db') :
    c.kind = .group ∧ db' = db ∨ c.kind = .create ∧ route.sandboxId = c.sandboxId ∧
      db' = db.allocated x route := by
  rw [bindCommand] at h
  split at h
  · rename_i hgroup
    cases h
    exact .inl ⟨hgroup,rfl⟩
  · obtain ⟨hown,h⟩ := of_guard h nofun
    rw [not_or,not_not,not_not] at hown
    cases h
    exact .inr ⟨hown.1,hown.2.symm,rfl⟩

end Rows

inductive Acted (db : CommandStore) (x : Executor) : CommandStore → Prop
  | confirmed {routes : Store} : Onward db.routes routes →
      (∀ id, allocation routes id = allocation db.routes id) → Acted db x { db with routes }
  | kept {c : Command} : db.commandRow x = .ok c → Acted db x db
  | bound {c : Command} {route : SandboxRoute} : db.commandRow x = .ok c → c.kind = .create →
      db.routes.getSandbox c.sandboxId = some route →
      Acted db x
        (db.allocated x route)
  /-- A new incarnation, where there was none or in place of the one that stood. -/
  | placed {c : Command} {routes : Store} {route : SandboxRoute} : db.commandRow x = .ok c →
      c.kind = .create → Onward db.routes routes → routes.getSandbox c.sandboxId = some route →
      (∀ k, k ≠ c.sandboxId → routes.getSandbox k = db.routes.getSandbox k) →
      db.routes.generationHwm c.sandboxId < route.incarnation.generation →
      Acted db x (allocated { db with routes } x route)
  | released {c : Command} {removed : SandboxRoute} : db.commandRow x = .ok c → c.kind = .create →
      db.routes.getSandbox c.sandboxId = some removed →
      Acted db x (updateCommand { db with routes := db.routes.deleteSandbox c.sandboxId }
        x.commandId ({ · with generation := none }))
  | grouped {c : Command} {routes : Store} : db.commandRow x = .ok c → c.kind = .group →
      Onward db.routes routes → Acted db x { db with routes }

theorem acted_check {request} (h : db.checkCommandRequest x request = .ok db') : Acted db x db' := by
  obtain ⟨c,hrow,h⟩ := ok_of_bind_ok h
  obtain ⟨-,h⟩ := of_guard h nofun
  cases hroute : db.routes.getSandbox c.sandboxId with
  | none =>
    simp only [hroute] at h
    cases h
    exact .kept hrow
  | some =>
    simp only [hroute] at h
    split at h
    · rename_i hcr
      cases h
      exact .bound hrow hcr.1 hroute
    · cases h
      exact .kept hrow

theorem acted_created {routes} (hrow : db.commandRow x = .ok c) (honw : Onward db.routes routes)
    (hnew : db.routes.Creates routes id route)
    (h : { db with routes }.bindCommand x c route = .ok db') : Acted db x db' := by
  rcases bindCommand_ok h with ⟨hgroup,rfl⟩ | ⟨hcr,hown,rfl⟩
  · exact .grouped hrow hgroup honw
  · obtain rfl : c.sandboxId = id := hown.symm.trans hnew.own
    exact .placed hrow hcr honw hnew.reads.1 hnew.reads.2 hnew.fresh

theorem acted_allocate {a specHash operationId}
    (h : db.allocateSandboxCreate x a specHash operationId = .ok (db',route)) : Acted db x db' := by
  obtain ⟨c,hrow,h⟩ := ok_of_bind_ok h
  obtain ⟨⟨routes,route'⟩,hall,h⟩ := ok_of_bind_ok h
  obtain ⟨db₁,hbind,h⟩ := ok_of_bind_ok h
  cases h
  have honw := onward_allocate (ok_of_raise hall)
  obtain ⟨rfl,hroute⟩ | ⟨-,hnew⟩ := allocateCreate_cases (ok_of_raise hall)
  · rcases bindCommand_ok hbind with ⟨hgroup,rfl⟩ | ⟨hcr,hown,rfl⟩
    · exact .grouped hrow hgroup honw
    · rw [← getSandbox_id hroute,hown] at hroute
      exact .bound hrow hcr hroute
  · exact acted_created hrow honw hnew hbind

theorem acted_retarget {a operationId moved}
    (h : db.retargetCreateIntent x route a operationId = .ok (db',moved)) : Acted db x db' := by
  obtain ⟨c,hrow,h⟩ := ok_of_bind_ok h
  obtain ⟨⟨routes,moved'⟩,hret,h⟩ := ok_of_bind_ok h
  have honw := onward_retarget (ok_of_raise hret)
  obtain heq | ⟨-,new,rfl,hnew⟩ := retargetCreate_cases (ok_of_raise hret)
  · cases heq
    cases h
    exact .kept hrow
  · obtain ⟨db₁,hbind,h⟩ := ok_of_bind_ok h
    cases h
    exact acted_created hrow honw hnew hbind

theorem acted_release {sandboxId generation createOperationId removed}
    (h : db.deleteSandboxIfCurrent x sandboxId generation createOperationId = .ok (db',removed)) :
    Acted db x db' := by
  obtain ⟨c,hrow,h⟩ := ok_of_bind_ok h
  cases hcur : db.current sandboxId generation createOperationId with
  | none =>
    simp only [hcur] at h
    cases h
    exact .kept hrow
  | some =>
    simp only [hcur] at h
    have hroute := (filter_eq_some_iff.mp hcur).1
    split at h
    · rename_i hgroup
      cases h
      exact .grouped hrow hgroup (onward_delete db.routes sandboxId)
    · obtain ⟨hown,h⟩ := of_guard h nofun
      rw [not_or,not_not,not_not] at hown
      obtain ⟨hcr,rfl⟩ := hown
      cases h
      exact .released hrow hcr hroute

theorem acted_confirm {confirmed}
    (h : db.confirmCreate x route = .ok (db',confirmed)) : Acted db x db' := by
  obtain ⟨⟨routes,confirmed'⟩,hcon,h⟩ := ok_of_bind_ok h
  cases h
  have hok := ok_of_raise hcon
  have honw : Onward db.routes routes := by
    have hexec := onward_exec db.routes
      (e := .confirmSandboxObservation route true (some x.utcNow)) rfl
    simpa only [exec,hok,after] using hexec
  exact .confirmed honw (allocation_confirm hok)

theorem acted_of_apply (h : act.apply db x = .ok db') : Acted db x db' := by
  cases act with
  | check => exact acted_check h
  | allocate =>
    obtain ⟨r,hr,rfl⟩ := ok_of_map_ok h
    exact acted_allocate hr
  | retarget =>
    obtain ⟨r,hr,rfl⟩ := ok_of_map_ok h
    exact acted_retarget hr
  | release =>
    obtain ⟨r,hr,rfl⟩ := ok_of_map_ok h
    exact acted_release hr
  | confirm =>
    obtain ⟨r,hr,rfl⟩ := ok_of_map_ok h
    exact acted_confirm hr

namespace Acted

theorem onward (h : Acted db x db') : Onward db.routes db'.routes := by
  cases h with
  | confirmed honw | placed _ _ honw | grouped _ _ honw => exact honw
  | kept | bound => exact .refl _
  | released => exact onward_delete ..

theorem lookup_ne (h : Acted db x db') (hid : id ≠ x.commandId) :
    db'.commands.lookup id = db.commands.lookup id := by
  have hupd : ∀ (db : CommandStore) f,
      (db.updateCommand x.commandId f).commands.lookup id = db.commands.lookup id := by
    simp [lookup_updateCommand,hid]
  cases h with
  | confirmed | kept | grouped => rfl
  | bound | placed | released => exact hupd ..

/-- The executor's own command stays bound or is bound to what stands now, and what it is no longer
bound to was ended. -/
theorem own (h : Acted db x db') (hb : ∀ id, (db.routes.rows id).Bounded)
    (hc' : db'.commands.lookup x.commandId = some c') :
    ∃ c, db.commands.lookup x.commandId = some c ∧ c'.sandboxId = c.sandboxId ∧
      (∀ g, c'.generation = some g → c.generation = some g ∨
        ∃ route, db'.routes.getSandbox c.sandboxId = some route ∧ route.incarnation.generation = g) ∧
      ∀ g, c.generation = some g → c'.generation = some g ∨ g ∈ ended db.routes db'.routes c.sandboxId := by
  cases h with
  | confirmed | kept | grouped => exact ⟨c',hc',rfl,fun _ => .inl,fun _ => .inl⟩
  | bound hrow hcr hroute =>
    obtain ⟨hlook,-,hstd⟩ := commandRow_ok hrow
    rw [allocated,lookup_updateCommand,hlook,map_some,if_pos rfl,some.injEq] at hc'
    subst hc'
    refine ⟨_,hlook,rfl,fun g hg => .inr ⟨_,hroute,some.inj hg⟩,fun g hg => .inl ?_⟩
    obtain ⟨route',hroute',hgen⟩ := hstd g hg
    cases hroute.symm.trans hroute'
    exact congrArg some hgen
  | placed hrow hcr honw hroute hother hnew =>
    obtain ⟨hlook,-,hstd⟩ := commandRow_ok hrow
    rw [allocated,lookup_updateCommand] at hc'
    simp only [hlook,map_some,some.injEq] at hc'
    subst hc'
    refine ⟨_,hlook,rfl,fun g hg => .inr ⟨_,hroute,some.inj hg⟩,fun g hg => .inr ?_⟩
    obtain ⟨old,hold,rfl⟩ := hstd g hg
    refine mem_ended hold fun r hr heq => ?_
    cases hroute.symm.trans hr
    have hle := hb _ old hold
    rw [← heq] at hle
    exact absurd hle (Nat.not_le_of_lt hnew)
  | released hrow =>
    obtain ⟨hlook,-,hstd⟩ := commandRow_ok hrow
    rw [lookup_updateCommand] at hc'
    simp only [hlook,map_some,some.injEq] at hc'
    subst hc'
    refine ⟨_,hlook,rfl,fun g hg => absurd hg nofun,fun g hg => .inr ?_⟩
    obtain ⟨old,hold,rfl⟩ := hstd g hg
    refine mem_ended hold fun r hr _ => ?_
    exact absurd ((getSandbox_deleteSandbox ..).symm.trans hr) nofun

end Acted

theorem Acted.placed_of_allocates (h : Acted db x db') (hc : db.commands.lookup x.commandId = some c)
    (hcr : c.kind = .create) (hnew : Allocates db.routes db'.routes id) :
    c.heldBy x.claimToken x.now = true ∧ id = c.sandboxId ∧
      ∀ g, c.generation = some g → ∃ route, db.routes.getSandbox id = some route ∧
        route.incarnation.generation = g := by
  have hrow : ∀ {c₁}, db.commandRow x = .ok c₁ → c = c₁ := fun hrow =>
    some.inj (hc.symm.trans (commandRow_ok hrow).1)
  cases h with
  | confirmed _ hsame => exact absurd hnew (not_allocates (hsame id))
  | kept | bound => exact absurd hnew (not_allocates rfl)
  | placed hrow₁ _ _ _ hother =>
    obtain rfl := hrow hrow₁
    obtain ⟨-,hheld,hstd⟩ := commandRow_ok hrow₁
    by_cases hid : id = c.sandboxId
    · subst hid
      exact ⟨hheld,rfl,hstd⟩
    · exact absurd hnew (not_allocates (congrArg (Option.map _) (hother id hid)))
  | released hrow₁ =>
    obtain rfl := hrow hrow₁
    by_cases hid : id = c.sandboxId
    · obtain ⟨route',hroute',-⟩ := hnew
      subst hid
      exact absurd ((getSandbox_deleteSandbox ..).symm.trans hroute') nofun
    · have hother := congrArg (·.route) (db.routes.rows_deleteSandbox_ne hid)
      exact absurd hnew (not_allocates (congrArg (Option.map _) hother))
  | grouped hrow₁ hgroup =>
    obtain rfl := hrow hrow₁
    exact absurd (hcr.symm.trans hgroup) nofun

/-- Statements on the queue leave what a command is about, its incarnation, and a command that is
done. -/
structure Queued (db db' : CommandStore) : Prop where
  routes : db'.routes = db.routes
  row : ∀ id c', db'.commands.lookup id = some c' → ∃ c, db.commands.lookup id = some c ∧
    c'.kind = c.kind ∧ c'.sandboxId = c.sandboxId ∧ c'.generation = c.generation ∧
    (c.state = .done → c'.state = .done)

namespace Queued

theorem refl (db) : Queued db db := ⟨rfl,fun _ c hc => ⟨c,hc,rfl,rfl,rfl,fun h => h⟩⟩

theorem of_mapRows {f} (hf : ∀ id c, (f id c).kind = c.kind ∧
    (f id c).sandboxId = c.sandboxId ∧ (f id c).generation = c.generation ∧
    (c.state = .done → (f id c).state = .done)) :
    Queued db { db with commands := mapRows db.commands f } := by
  refine ⟨rfl,fun id c' hc' => ?_⟩
  rw [lookup_mapRows] at hc'
  obtain ⟨c,hc,rfl⟩ := map_eq_some_iff.mp hc'
  exact ⟨c,hc,hf id c⟩

theorem of_update (id) {f} (hf : ∀ c, (f c).kind = c.kind ∧
    (f c).sandboxId = c.sandboxId ∧ (f c).generation = c.generation ∧
    (c.state = .done → (f c).state = .done)) : Queued db (db.updateCommand id f) := by
  refine of_mapRows fun k c => ?_
  split
  · exact hf c
  · exact ⟨rfl,rfl,rfl,fun h => h⟩

variable (db) (id)

theorem claim (token leaseTime now) : Queued db (db.claim id token leaseTime now) := by
  refine of_update id fun c => ?_
  split
  · rename_i hdue
    exact ⟨rfl,rfl,rfl,fun hdone => by simp [Command.due,hdone] at hdue⟩
  · exact ⟨rfl,rfl,rfl,fun h => h⟩

theorem renew (token leaseTime now) : Queued db (db.renew id token leaseTime now) := by
  refine of_update id fun c => ?_
  split <;> exact ⟨rfl,rfl,rfl,fun h => h⟩

theorem defer (token delay now) : Queued db (db.defer id token delay now) := by
  refine of_update id fun c => ?_
  split
  · rename_i hcla
    exact ⟨rfl,rfl,rfl,fun hdone => by simp [Command.claimedBy,hdone] at hcla⟩
  · exact ⟨rfl,rfl,rfl,fun h => h⟩

theorem complete (token now) : Queued db (db.complete id token now) := by
  refine of_update id fun c => ?_
  split
  · exact ⟨rfl,rfl,rfl,fun _ => rfl⟩
  · exact ⟨rfl,rfl,rfl,fun h => h⟩

theorem prune (batch now) : Queued db (db.prune batch now) := by
  refine ⟨rfl,fun id c' hc' => ?_⟩
  rw [CommandStore.prune,lookup_keepRows] at hc'
  exact ⟨c',(filter_eq_some_iff.mp hc').1,rfl,rfl,rfl,fun h => h⟩

theorem cancel (sandboxId now) : Queued db (db.cancelCreateCommands sandboxId now) := by
  refine of_mapRows fun id c => ?_
  split
  · exact ⟨rfl,rfl,rfl,fun _ => rfl⟩
  · exact ⟨rfl,rfl,rfl,fun h => h⟩

end Queued

end UCloudSandboxes.Gateway
