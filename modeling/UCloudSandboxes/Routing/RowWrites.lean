import UCloudSandboxes.Routing.Updates

/-! What the store's transactions write to the rows of one sandbox: sequences of a few kinds of row
writes. -/
namespace UCloudSandboxes.Routing
open Machine Relation Store SandboxRows RoutingRows Option Except

/-- While the row stays the same incarnation in the same boot its activity epoch has not dropped. -/
def KeepsActivity (route : SandboxRoute) (after : Option SandboxRoute) : Prop :=
  ∀ route', after = some route' → route'.incarnation = route.incarnation →
    route'.nodeEpoch = route.nodeEpoch → route.activityEpoch ≤ route'.activityEpoch

theorem KeepsActivity.none (route) : KeepsActivity route none := by
  intro route' h
  cases h

variable {route : SandboxRoute}

theorem KeepsActivity.of_le {stored}
    (h : stored.nodeEpoch = route.nodeEpoch → route.activityEpoch ≤ stored.activityEpoch) :
    KeepsActivity route (some stored) := by
  intro route' he _ hepoch
  cases he
  exact h hepoch

theorem KeepsActivity.same {after} (h : after = some route) : KeepsActivity route after :=
  h ▸ .of_le fun _ => Nat.le_refl _

theorem KeepsActivity.of_unversioned {stored} (hb : route.nodeEpoch ≠ "") (h : stored.nodeEpoch = "") :
    KeepsActivity route (some stored) :=
  .of_le fun he => absurd (he.symm.trans h) hb

theorem keepsActivity_ownerLost (rows : SandboxRows) (hb : route.nodeEpoch ≠ "") (observedAt) :
    KeepsActivity route (rows.ownerLost observedAt route).route := by
  unfold ownerLost
  split
  · rw [writeSandbox_route]
    exact .of_unversioned hb rfl
  · rw [delete_route]
    exact .none route

inductive RowWrite (e : StoreEvent) (id : String) (rows : SandboxRows) : SandboxRows → Prop
  | observed {current route : SandboxRoute} : rows.route = some current →
      route.incarnation = current.incarnation → RowWrite e id rows (rows.writeSandbox route)
  | lifecycle {current route : SandboxRoute} : rows.route = some current →
      route.incarnation = current.incarnation →
      RowWrite e id rows (rows.writeSandboxLifecycle route)
  | touched {current route : SandboxRoute} : rows.route = some current →
      route.incarnation = current.incarnation → route.snapshot = current.snapshot →
      RowWrite e id rows { rows with route := some route }
  | reported {current : SandboxRoute} {report : InventoryReport} (object : DependencyObject) :
      e = .reconcile report → rows.route = some current →
      RowWrite e id rows (rows.writeStorageDependency ⟨current.incarnation.generation,object⟩)
  /-- A new incarnation, above the high-water mark and the generation it replaces. -/
  | created {route : SandboxRoute} : rows.generationHwm < route.incarnation.generation →
      (∀ current, rows.route = some current →
        current.incarnation.generation < route.incarnation.generation) →
      RowWrite e id rows (rows.writeSandbox route)
  | restored {route stored : SandboxRoute} {allow : Bool} {now : Option Nat} :
      e = .upsertSandbox route allow now → route.sandboxId = id → rows.route = none →
      stored.incarnation = route.incarnation → RowWrite e id rows (rows.writeSandbox stored)
  | deleted : RowWrite e id rows rows.delete
  | journaled {op : RouteOp} {after : RoutingRows} : e = .transact id op →
      JournalStep rows.toRoutingRows op after → RowWrite e id rows (rows.commit after)

abbrev RowWritten (e : StoreEvent) (id : String) : SandboxRows → SandboxRows → Prop :=
  ReflGen (RowWrite e id)

abbrev RowWrites (e : StoreEvent) (id : String) : SandboxRows → SandboxRows → Prop :=
  ReflTransGen (RowWrite e id)

def StoreEvent.creates : StoreEvent → Bool
  | .upsertSandbox .. | .allocateCreate .. | .retargetCreate .. => true
  | _ => false

/-- At most one row write in the rows of one sandbox, and a versioned route keeps its activity
epoch. -/
structure Written (e : StoreEvent) (id : String) (rows rows' : SandboxRows) : Prop where
  row : RowWritten e id rows rows'
  activity : ∀ current, rows.route = some current → current.nodeEpoch ≠ "" →
    KeepsActivity current rows'.route
  absent : e.creates = false → rows.route = none → rows'.route = none

section Store

variable {store store' : Store} {e : StoreEvent} {id : String} {stored route current : SandboxRoute}
  {rows rows' : SandboxRows} {now : Option Nat}

@[refl]
theorem Written.refl : Written e id rows rows := ⟨.refl,fun _ h _ => .same h,fun _ h => h⟩

theorem Written.of_route (h : RowWrite e id rows rows') (hroute : rows.route = some current)
    (hkeep : current.nodeEpoch ≠ "" → KeepsActivity current rows'.route) : Written e id rows rows' := by
  refine ⟨.single h,fun c hc => ?_,fun _ hn => ?_⟩
  · cases hroute.symm.trans hc
    exact hkeep
  · cases hroute.symm.trans hn

private theorem written_of_own {key after} (hself : store'.rows key = after)
    (hother : ∀ k, k ≠ key → store'.rows k = store.rows k)
    (h : id = key → Written e id (store.rows id) after) :
    Written e id (store.rows id) (store'.rows id) := by
  by_cases hid : id = key
  · have hw := h hid
    rwa [← hself,← hid] at hw
  · rw [hother id hid]

theorem written_of_write (hw : store.write stored = .ok store')
    (h : id = stored.sandboxId → Written e id (store.rows id) ((store.rows id).writeSandbox stored)) :
    Written e id (store.rows id) (store'.rows id) := by
  obtain ⟨hself,hother⟩ := write_ok hw
  refine written_of_own hself hother fun hid => ?_
  have hrow := h hid
  rwa [hid] at hrow ⊢

theorem upsertSandbox_ok {allow r} (h : store.upsertSandbox route allow now = .ok r) :
    r.1 = store ∨ ∃ stored, store.write stored = .ok r.1 ∧ stored.sandboxId = route.sandboxId ∧
      stored.incarnation = route.incarnation ∧ stored.nodeEpoch = route.nodeEpoch ∧
      stored.node = route.node ∧ ∀ existing, store.getSandbox route.sandboxId = some existing →
        routeUpdateIsCurrent existing route allow = true ∧
        (route.nodeEpoch = existing.nodeEpoch → existing.activityEpoch ≤ stored.activityEpoch) := by
  unfold upsertSandbox at h
  split at h
  · exact .inl (ok.inj h ▸ rfl)
  next hup =>
  obtain ⟨s,hw,rfl⟩ := ok_of_map_ok h
  refine .inr ⟨_,hw,?_⟩
  generalize store.getSandbox route.sandboxId = row at hup
  cases row with
  | none =>
    cases hup
    exact ⟨rfl,rfl,rfl,rfl,by simp⟩
  | some =>
    obtain ⟨hcur,⟨⟩⟩ := of_guard hup nofun
    refine ⟨rfl,rfl,rfl,rfl,fun existing hx => ?_⟩
    cases hx
    refine ⟨by simpa using hcur,fun heq => ?_⟩
    simp only [heq]
    exact Nat.le_max_right ..

theorem confirmSandboxObservation_ok {allow}
    (h : store.confirmSandboxObservation route allow now = .ok r) :
    r.1 = store ∨ (store.getSandbox route.sandboxId).any (receipted route) = true ∧
      ∃ u, store.upsertSandbox route allow now = .ok u ∧ r.1 = u.1 := by
  unfold confirmSandboxObservation at h
  split at h
  · obtain ⟨u,hu,rfl⟩ := ok_of_map_ok h
    exact .inr ⟨‹_›,u,hu,rfl⟩
  · exact .inl (ok.inj h ▸ rfl)

/-- `set_sandbox_state_if_current`: nothing, or the exact incarnation's lifecycle columns, with an
admissible proof. -/
theorem setSandboxStateIfCurrent_ok {expected state proof update}
    (h : store.setSandboxStateIfCurrent route expected state proof update now = .ok r) :
    r.1 = store ∨ ∃ current stored, store.getSandbox route.sandboxId = some current ∧
      store.writeLifecycle stored = .ok r.1 ∧ stored.sandboxId = route.sandboxId ∧
      stored.incarnation = current.incarnation ∧
      (∀ p, proof = some p → p.nodeEpoch ≠ "" ∧ p.admissible route current = true) ∧
      stored.activityEpoch = (proof.map (·.activityEpoch)).getD current.activityEpoch := by
  obtain ⟨written,hwr,h⟩ := ok_of_bind_ok h
  cases written with
  | none => exact .inl (ok.inj h ▸ rfl)
  | some stored =>
    obtain ⟨s,hw,rfl⟩ := ok_of_map_ok h
    obtain ⟨current,hc,hproof,rfl⟩ := stateIfCurrent_ok hwr
    have hid : current.sandboxId = route.sandboxId := store.getSandbox_id hc
    exact .inr ⟨current,_,hc,hw,hid,rfl,hproof,rfl⟩

theorem admissible_activity {proof : Store.LifecycleProof}
    (h : proof.admissible route current = true) : current.activityEpoch ≤ proof.activityEpoch := by
  unfold Store.LifecycleProof.admissible at h
  simp only [Bool.and_eq_true,Bool.not_eq_true',decide_eq_false_iff_not] at h
  omega

theorem written_upsertSandbox {allow r} (h : store.upsertSandbox route allow now = .ok r)
    (hnone : store.getSandbox route.sandboxId = none → e = .upsertSandbox route allow now) :
    Written e id (store.rows id) (r.1.rows id) := by
  rcases upsertSandbox_ok h with he | ⟨stored,hw,hkey,hinc,hepoch,-,hcheck⟩
  · exact he ▸ .refl
  refine written_of_write hw fun hid => ?_
  have hroute : route.sandboxId = id := (hid.trans hkey).symm
  cases hc : store.getSandbox route.sandboxId with
  | none =>
    have hrow : (store.rows id).route = none := hroute ▸ hc
    refine ⟨.single (.restored (hnone hc) hroute hrow hinc),fun current hcur => ?_,fun he => ?_⟩
    · cases hrow.symm.trans hcur
    · rw [hnone hc] at he
      cases he
  | some existing =>
    obtain ⟨hcur,hle⟩ := hcheck existing hc
    obtain ⟨-,hsame,-⟩ := sameSandboxRouteIncarnation_iff.mp (routeUpdateIsCurrent_iff.mp hcur).1
    have hrow : (store.rows id).route = some existing := hroute ▸ hc
    exact .of_route (.observed hrow (hinc.trans hsame.symm)) hrow fun _ =>
      .of_le fun he => hle (hepoch.symm.trans he)

theorem written_setSandboxState {expected state proof update r}
    (h : store.setSandboxStateIfCurrent route expected state proof update now = .ok r) :
    Written e id (store.rows id) (r.1.rows id) := by
  rcases setSandboxStateIfCurrent_ok h with he | ⟨current,stored,hc,hw,hkey,hinc,hproof,hact⟩
  · exact he ▸ .refl
  obtain ⟨hself,hother⟩ := writeLifecycle_ok hw
  refine written_of_own hself hother fun hid => ?_
  rw [hkey] at hid ⊢
  subst hid
  refine .of_route (.lifecycle hc hinc) hc fun _ => .of_le fun _ => ?_
  rw [hact]
  cases proof with
  | none => exact Nat.le_refl _
  | some p => exact admissible_activity (hproof p rfl).2

theorem written_creates {key new} (h : store.Creates store' key new) (hcre : e.creates = true) :
    Written e id (store.rows id) (store'.rows id) := by
  obtain ⟨rfl,hw,hfresh,hnewer⟩ := h
  refine written_of_write hw fun hid => ?_
  have hold : ∀ current, (store.rows id).route = some current →
      current.incarnation.generation < new.incarnation.generation := hid ▸ hnewer
  refine ⟨.single (.created (hid ▸ hfresh) hold),fun current hcur _ route' he hinc => ?_,
    fun he => by simp [he] at hcre⟩
  -- a created route is a new generation, so another incarnation
  cases he
  exact absurd (congrArg Incarnation.generation hinc) (hold current hcur).ne'

theorem written_ownerLost {observedAt} (hroute : rows.route = some route) :
    Written e id rows (rows.ownerLost observedAt route) := by
  refine .of_route ?_ hroute fun hb => keepsActivity_ownerLost rows hb observedAt
  unfold ownerLost
  split
  · exact .observed hroute rfl
  · exact .deleted

theorem reserveSandboxWake_ok (h : store.reserveSandboxWake now route = .ok store') :
    store' = store ∨ ∃ current, store.getSandbox route.sandboxId = some current ∧
      store'.rows route.sandboxId = { store.rows route.sandboxId with
        route := some (current.reserveWake now) } ∧
      ∀ k, k ≠ route.sandboxId → store'.rows k = store.rows k := by
  unfold reserveSandboxWake at h
  split at h
  · exact .inl (ok.inj h).symm
  rename_i current hwake
  obtain ⟨v,hb,rfl⟩ := ok_of_map_ok h
  have hv := build_ok hb
  have hc := (filter_eq_some_iff.mp hwake).1
  have hcur : current.sandboxId = route.sandboxId := store.getSandbox_id hc
  have hid : v.val.sandboxId = route.sandboxId := by rw [hv]; exact hcur
  refine .inr ⟨current,hc,?_,fun k hk => rows_put_ne _ _ _ (hid ▸ hk)⟩
  rw [← hid]
  simp only [rows_put,hv]

theorem reserveSandboxWakes_rows {requests}
    (h : store.reserveSandboxWakes requests now = .ok store') (id) :
    store'.rows id = store.rows id ∨ (∃ r ∈ requests, r.sandboxId = id) ∧
      ∃ current, (store.rows id).route = some current ∧ store'.rows id = { store.rows id with
          route := some (current.reserveWake now) } := by
  induction requests generalizing store with
  | nil =>
    cases h
    exact .inl rfl
  | cons r requests ih =>
    obtain ⟨s,hs,hrest⟩ := ok_of_bind_ok h
    have hfirst : s.rows id = store.rows id ∨ r.sandboxId = id ∧
        ∃ current, (store.rows id).route = some current ∧ s.rows id = { store.rows id with
          route := some (current.reserveWake now) } := by
      rcases reserveSandboxWake_ok hs with rfl | ⟨current,hc,hself,hother⟩
      · exact .inl rfl
      by_cases hid : id = r.sandboxId
      · subst hid
        exact .inr ⟨rfl,current,hc,hself⟩
      · exact .inl (hother id hid)
    rcases hfirst with hsame | ⟨hid,current,hc,hs⟩ <;>
      rcases ih hrest with hsame' | ⟨⟨r',hr',hid'⟩,current',hc',hs'⟩
    · exact .inl (hsame'.trans hsame)
    · rw [hsame] at hc' hs'
      exact .inr ⟨⟨r',.tail _ hr',hid'⟩,current',hc',hs'⟩
    · exact .inr ⟨⟨r,(.head _),hid⟩,current,hc,hsame'.trans hs⟩
    · -- a second request of the same sandbox finds its wake reserved
      rw [hs] at hc' hs'
      obtain rfl := some.inj hc'
      exact .inr ⟨⟨r,(.head _),hid⟩,current,hc,hs'⟩

def retiredRow (r : EpochRetirement) (rows : SandboxRows) (route : SandboxRoute) :
    SandboxRows :=
  if sandboxOwnerLossDisposition route = .terminalDelete then rows
  else if route.workerState = .attached ∧ r.reportsParked route = true then
    rows.writeSandbox (r.adopt route)
  else rows.ownerLostIfCurrent r.observedAt route

theorem rows_retireRoute_self (r) (store : Store) (route) :
    (store.retireRoute r route).rows route.sandboxId =
      retiredRow r (store.rows route.sandboxId) route := by
  unfold retireRoute retiredRow
  split
  · rfl
  split
  · exact rows_writeSandbox ..
  · exact rows_settleOwnerLost_self ..

theorem rows_retireRoute_ne (r) (store : Store) (route k) (hk : k ≠ route.sandboxId) :
    (store.retireRoute r route).rows k = store.rows k := by
  unfold retireRoute
  split
  · rfl
  split
  · exact rows_writeSandbox_ne _ _ hk
  · exact rows_settleOwnerLost_ne _ _ _ _ hk

theorem written_retireNodeEpochs (r) :
    Written e id (store.rows id) ((store.retireNodeEpochs r).rows id) := by
  unfold retireNodeEpochs
  rw [rows_forRoutes r.owns _ (retiredRow r) (rows_retireRoute_self r) (rows_retireRoute_ne r)]
  cases hc : store.getSandbox id with
  | none => exact .refl
  | some route =>
    dsimp only
    split
    · rename_i howns
      simp only [EpochRetirement.owns,Bool.and_eq_true,decide_eq_true_eq] at howns
      have hlost : (store.rows id).ownerLostIfCurrent r.observedAt route =
          (store.rows id).ownerLost r.observedAt route := by
        simp [ownerLostIfCurrent,hc]
      unfold retiredRow
      split
      · exact .refl
      split
      · exact .of_route (.observed hc rfl) hc fun _ => .of_le fun he => absurd he.symm howns.1.2
      · exact hlost ▸ written_ownerLost hc
    · exact .refl

end Store

section Reconcile

variable {e : StoreEvent} {id : String} {call : InventoryCall} {rows rows' : SandboxRows}
  {report : InventoryReport}

theorem writes_settleEntry {item} (he : e = .reconcile report)
    (h : rows.settleEntry call item = .ok rows') : RowWrites e id rows rows' := by
  obtain ⟨rfl,-⟩ | ⟨existing,c,d,hroute,ho,-,rfl⟩ := settleEntry_cases h
  · exact .refl
  have hw : RowWrite e id rows (rows.observed existing c.val) := by
    unfold observed
    split
    · rename_i hmark
      exact .touched hroute (observe_kept ho).1 (by rw [← of_decide_eq_true hmark])
    · exact .observed hroute (observe_kept ho).1
  cases d with
  | none => exact .single hw
  | some => exact .tail (.single hw) (.reported _ he (observed_route ..))

theorem writes_settle {own reported} (he : e = .reconcile report)
    (h : rows.settle call own reported = .ok rows') : RowWrites e id rows rows' := by
  unfold settle at h
  split at h
  · exact foldlM_invariant (P := fun r : SandboxRows => RowWrites e id rows r)
      (fun r item r' hp hs => hp.trans (writes_settleEntry he hs)) .refl h
  · cases h
    unfold settleAbsent
    cases hroute : rows.route with
    | none => exact .refl
    | some =>
      dsimp only
      split
      · exact (written_ownerLost hroute).row.to_reflTransGen
      · exact .refl

end Reconcile

section RouteOps

variable {e : StoreEvent} {id : String}

/-- At most the route row is rewritten, for the same incarnation. -/
def RoutingRows.Rewrites (rows after : RoutingRows) : Prop :=
  after = rows ∨ ∃ current stored, rows.route = some current ∧
    after = { rows with route := some stored } ∧ stored.incarnation = current.incarnation

theorem written_of_rewrites {rows after current} (hroute : rows.route = some current)
    (h : rows.toRoutingRows.Rewrites after ∧
      (current.nodeEpoch ≠ "" → KeepsActivity current after.route)) :
    Written e id rows (rows.commit after) := by
  refine ⟨?_,fun c hc => ?_,fun _ hn => absurd (hroute.symm.trans hn) nofun⟩
  case refine_2 =>
    cases hroute.symm.trans hc
    exact commit_route rows after ▸ h.2
  rcases h.1 with rfl | ⟨current,stored,hroute,rfl,hinc⟩
  · have hsame : rows.commit rows.toRoutingRows = rows := by simp [SandboxRows.commit]
    rw [hsame]
  · unfold SandboxRows.commit
    split
    · exact .refl
    · exact .single (.observed hroute hinc)

theorem commit_deleteSandbox {rows : SandboxRows} {current} (hroute : rows.route = some current) :
    rows.commit rows.toRoutingRows.deleteSandbox = rows.delete := by
  simp [SandboxRows.commit,delete,RoutingRows.deleteSandbox,hroute]

theorem keepsActivity_journal {rows current op after} (h : JournalStep rows op after)
    (hroute : rows.route = some current) (hb : current.nodeEpoch ≠ "") :
    KeepsActivity current after.route := by
  cases h with
  | kept | began | advanced | closed => exact .same hroute
  | routed => exact .of_unversioned hb rfl
  | waking _ _ hr =>
    cases hr.symm.trans hroute
    exact .of_le fun _ => Nat.le_refl _
  | @completed _ _ _ wake _ _ _ hr =>
    cases hr.symm.trans hroute
    cases wake <;> exact .of_le fun _ => Nat.le_refl _

theorem absent_journal {rows op after} (h : JournalStep rows op after) (hnone : rows.route = none) :
    after.route = none := by
  cases h with
  | kept | began | advanced | closed => exact hnone
  | routed _ _ hr | waking _ _ hr | completed _ _ hr => cases hnone.symm.trans hr

theorem written_transact (rows op) :
    Written (.transact id op) id rows (rows.commit (op.apply rows.toRoutingRows)) := by
  have hjou (h : JournalStep rows.toRoutingRows op (op.apply rows.toRoutingRows)) :
      Written (.transact id op) id rows (rows.commit (op.apply rows.toRoutingRows)) :=
    ⟨.single (.journaled rfl h),fun _ hc hb => by
      rw [commit_route]
      exact keepsActivity_journal h hc hb,fun _ hn => (commit_route ..).trans (absent_journal h hn)⟩
  cases hroute : rows.route with
  | none => exact hjou (journalStep_of_apply (.inr hroute))
  | some current =>
    have hsame : rows.toRoutingRows.Rewrites rows.toRoutingRows ∧
        (current.nodeEpoch ≠ "" → KeepsActivity current rows.route) := ⟨.inl rfl,fun _ => .same hroute⟩
    have hput {stored} (hinc : stored.incarnation = current.incarnation) :
        rows.toRoutingRows.Rewrites { rows.toRoutingRows with route := some stored } :=
      .inr ⟨current,stored,hroute,rfl,hinc⟩
    have hdel : Written (.transact id op) id rows (rows.commit rows.toRoutingRows.deleteSandbox) :=
      commit_deleteSandbox hroute ▸ .of_route .deleted hroute fun _ => .none current
    cases op with
    | beginSandboxMigration | advanceSandboxMigration | routeSandboxMigration
    | completeSandboxMigration | terminalizeOrphanedSandboxMigrations =>
      exact hjou (journalStep_of_apply (.inl rfl))
    | beginSandboxDetach route now =>
      refine written_of_rewrites hroute ?_
      dsimp only [RouteOp.apply]
      unfold beginSandboxDetach
      rw [hroute]
      dsimp only
      split
      · exact hsame
      split
      · exact hsame
      · exact hsame
      · split
        · exact ⟨hput rfl,fun _ => .of_le fun _ => Nat.le_refl _⟩
        · exact hsame
    | completeSandboxDetach route now =>
      refine written_of_rewrites hroute ?_
      dsimp only [RouteOp.apply]
      unfold completeSandboxDetach
      rw [hroute]
      dsimp only
      split
      · exact hsame
      split
      · exact hsame
      · split
        · exact ⟨hput rfl,fun hb => .of_unversioned hb rfl⟩
        · exact hsame
      · exact hsame
    | prepareSandboxDelete operationId now =>
      refine written_of_rewrites hroute ?_
      dsimp only [RouteOp.apply]
      unfold prepareSandboxDelete
      rw [hroute]
      dsimp only
      split
      · exact hsame
      · exact ⟨hput rfl,fun _ => .of_le fun _ => Nat.le_refl _⟩
    | deleteSandbox => exact hdel
    | deleteSandboxIfCurrent =>
      dsimp only [RouteOp.apply]
      unfold deleteSandboxIfCurrent
      rw [hroute]
      dsimp only
      split
      · exact hdel
      · exact written_of_rewrites hroute hsame

end RouteOps

private theorem written_after {store : Store} {e id} {α : Type}
    {f : α → Store} {x}
    (h : ∀ a, x = .ok a → Written e id (store.rows id) ((f a).rows id)) :
    Written e id (store.rows id) ((store.after f x).rows id) := by
  cases x with
  | error => exact .refl
  | ok a => exact h a rfl

theorem exec_written (store : Store) {e} (he : ∀ report, e ≠ .reconcile report) (id) :
    Written e id (store.rows id) ((store.exec e).rows id) := by
  cases e with
  | reconcile report => exact absurd rfl (he report)
  | upsertSandbox =>
    exact written_after fun r h => written_upsertSandbox h fun _ => rfl
  | confirmSandboxObservation route =>
    refine written_after fun r h => ?_
    rcases confirmSandboxObservation_ok h with he | ⟨hany,u,hu,he⟩
    · rw [he]
    rw [he]
    exact written_upsertSandbox hu fun hnone => by simp [hnone] at hany
  | setSandboxStateIfCurrent =>
    exact written_after fun r => written_setSandboxState
  | confirmSandboxWake => exact written_after fun r => written_setSandboxState
  | reserveSandboxWakes =>
    refine written_after fun s h => ?_
    rcases reserveSandboxWakes_rows h id with hsame | ⟨-,current,hc,hrows⟩
    · rw [id_eq,hsame]
    · rw [id_eq,hrows]
      exact .of_route (.touched hc rfl rfl) hc fun _ => .of_le fun _ => Nat.le_refl _
  | allocateCreate =>
    refine written_after fun r h => ?_
    obtain ⟨he,-⟩ | ⟨-,hnew⟩ := Store.allocateCreate_cases h
    · rw [he]
    · exact written_creates hnew rfl
  | retargetCreate =>
    refine written_after fun r h => ?_
    obtain rfl | ⟨-,new,-,hnew⟩ := Store.retargetCreate_cases h
    · exact .refl
    · exact written_creates hnew rfl
  | retireNodeEpochs r => exact written_retireNodeEpochs r
  | deleteSandboxesForJobs jobIds now | deleteStaleSandboxes jobs nodes olderThan now =>
    refine (Store.rows_settleOwnerLost _ now store id).symm ▸ ?_
    cases hc : store.getSandbox id with
    | none => exact .refl
    | some =>
      dsimp only
      split
      · exact written_ownerLost hc
      · exact .refl
  | transact key op =>
    refine written_after fun s h => ?_
    obtain ⟨hself,hother⟩ := Store.commit_ok h
    by_cases hid : id = key
    · subst hid
      exact hself ▸ written_transact _ op
    · show Written _ id (store.rows id) (s.rows id)
      rw [hother id hid]

theorem exec_cases (store : Store) (e id) : Written e id (store.rows id) ((store.exec e).rows id) ∨
    ∃ report own reported, e = .reconcile report ∧
      (store.rows id).settle report.toInventoryCall own reported = .ok ((store.exec e).rows id) := by
  by_cases he : ∃ report, e = .reconcile report
  · obtain ⟨report,rfl⟩ := he
    simp only [Store.exec]
    cases h : reconcileSandboxesForNode store report with
    | error => exact .inl .refl
    | ok => exact .inr ⟨report,_,_,rfl,reconcile_rows h id⟩
  · exact .inl (exec_written store (fun report hr => he ⟨report,hr⟩) id)

theorem exec_writes (store : Store) (e id) :
    RowWrites e id (store.rows id) ((store.exec e).rows id) := by
  obtain h | ⟨report,_,_,he,h⟩ := exec_cases store e id
  · exact h.row.to_reflTransGen
  · exact writes_settle he h

end UCloudSandboxes.Routing
