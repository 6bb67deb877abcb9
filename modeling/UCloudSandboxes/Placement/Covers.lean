import UCloudSandboxes.Placement.Fences

namespace UCloudSandboxes.Placement
open Machine Routing RoutingRows Tx List Option

variable {snapshot : Tables} {tx tx' : Tx snapshot} {extra : List String} {id : String}

namespace Tx

structure Covers (extra : List String) (tx : Tx snapshot) : Prop where
  routes : ∀ route, .upsertSandbox route ∈ tx.writes →
    ∀ k ∈ routeKeys (tx.view.sandboxes.lookup route.sandboxId), k ∈ tx.touched ++ extra
  migrations : ∀ m, .upsertMigration m ∈ tx.writes →
    ∀ k ∈ incomingKeys (tx.view.migrations.lookup m.migrationId), k ∈ tx.touched ++ extra

theorem writes_foldl (keys : List String) (tx : Tx snapshot) :
    ∀ w ∈ (keys.foldl advance tx).writes, w ∈ tx.writes ∨ ∃ k, w = .advance k := by
  induction keys generalizing tx with
  | nil => exact fun w => .inl
  | cons key keys ih =>
    intro w hw
    rcases ih (tx.advance key) w hw with hw | hw
    · rw [advance] at hw
      split at hw
      · exact .inl hw
      rcases mem_append.mp hw with hw | hw
      · exact .inl hw
      · exact .inr ⟨key,mem_singleton.mp hw⟩
    · exact .inr hw

namespace Covers

theorem start (snapshot extra) : Covers extra (start snapshot) :=
  ⟨fun _ h => absurd h not_mem_nil,fun _ h => absurd h not_mem_nil⟩

section
variable (h : Covers extra tx)
include h

theorem mono {tx' : Tx snapshot}
    (hs : tx'.view.sandboxes = tx.view.sandboxes) (hm : tx'.view.migrations = tx.view.migrations)
    (hkept : ∀ k ∈ tx.touched, k ∈ tx'.touched)
    (hwri : ∀ w ∈ tx'.writes, w ∈ tx.writes ∨ ∃ k, w = .advance k) : Covers extra tx' := by
  have hall : ∀ k ∈ tx.touched ++ extra, k ∈ tx'.touched ++ extra := by
    intro k hk
    rcases mem_append.mp hk with hk | hk
    · exact mem_append_left _ (hkept k hk)
    · exact mem_append_right _ hk
  refine ⟨fun route hroute k hk => ?_,fun m hmem k hk => ?_⟩
  · rcases hwri _ hroute with hold | ⟨_,hw⟩
    · rw [hs] at hk
      exact hall k (h.routes route hold k hk)
    · cases hw
  · rcases hwri _ hmem with hold | ⟨_,hw⟩
    · rw [hm] at hk
      exact hall k (h.migrations m hold k hk)
    · cases hw

theorem fence (identities) : Covers extra (tx.capacityFence identities) := by
  have ha := advanced_capacityFence tx identities
  exact h.mono ha.sandboxes ha.migrations ha.kept (writes_foldl _ tx)

theorem write_route {w route} (hw : w.route = some (route.sandboxId,some route))
    (hm : w.migration = none) (hkeys : ∀ k ∈ identityKeys route.node, k ∈ tx.touched ++ extra) :
    Covers extra (tx.write w) := by
  refine ⟨fun r hr k hk => ?_,fun m hmem k hk => ?_⟩
  · rw [write,sandboxes_apply,hw] at hk
    dsimp only at hk
    split at hk
    · exact hkeys k (by simpa [routeKeys] using hk)
    rename_i hne
    rcases mem_append.mp hr with hold | hnew
    · exact h.routes r hold k hk
    · obtain rfl := mem_singleton.mp hnew
      exact absurd (congrArg Prod.fst (some.inj hw)) hne
  · rw [write,migrations_apply,hm] at hk
    rcases mem_append.mp hmem with hold | hnew
    · exact h.migrations m hold k hk
    · obtain rfl := mem_singleton.mp hnew
      cases hm

theorem writeSandboxMigration (m) : Covers extra (tx.writeSandboxMigration m) := by
  have hfen := h.fence [m.source,m.destination]
  have hkeys := (touched_writeSandboxMigration tx m).2
  refine ⟨fun r hr k hk => ?_,fun m' hm' k hk => ?_⟩
  · rcases mem_append.mp hr with hold | hnew
    · exact hfen.routes r hold k hk
    · cases mem_singleton.mp hnew
  · rw [Tx.writeSandboxMigration,write,migrations_apply] at hk
    dsimp only [RowWrite.migration] at hk
    split at hk
    · obtain ⟨x,hx,-,hk⟩ := mem_incomingKeys hk
      cases hx
      exact mem_append_left _ (hkeys k hk)
    · rename_i hne
      rcases mem_append.mp hm' with hold | hnew
      · exact hfen.migrations m' hold k hk
      · cases mem_singleton.mp hnew
        exact absurd rfl hne

end

end Covers

section Writers
variable {before after : RoutingRows}

theorem touched_writeSandbox (tx : Tx snapshot) {route}
    (h : sameCapacityProjection (tx.view.sandboxes.lookup route.sandboxId) route = false) :
    ∀ k ∈ identityKeys route.node, k ∈ (tx.writeSandbox route).touched := by
  intro k hk
  rw [writeSandbox,if_neg (by simp [h])]
  exact (advanced_capacityFence tx _).touched k (by simp [hk])

theorem kept_foldl (items : List SandboxMigration) (tx : Tx snapshot) :
    ∀ k ∈ tx.touched, k ∈ (items.foldl writeSandboxMigration tx).touched := by
  induction items generalizing tx with
  | nil => exact fun _ h => h
  | cons m items ih => exact fun k hk => ih _ k ((touched_writeSandboxMigration tx m).1 k hk)

theorem touched_foldl {items : List SandboxMigration} {m} (hm : m ∈ items) (tx : Tx snapshot) :
    ∀ k ∈ identityKeys m.destination, k ∈ (items.foldl writeSandboxMigration tx).touched := by
  induction items generalizing tx with
  | nil => cases hm
  | cons m' items ih =>
    intro k hk
    rcases mem_cons.mp hm with rfl | hm
    · exact kept_foldl items _ k ((touched_writeSandboxMigration tx m).2 k hk)
    · exact ih hm _ k hk

theorem touched_store {m} (hm : m ∈ after.migrations) (hnew : m ∉ before.migrations) :
    ∀ k ∈ identityKeys m.destination, k ∈ (tx.store before after).touched := by
  have hitem : m ∈ after.migrations.filter fun m => !before.migrations.contains m := by
    simp [hm,hnew]
  exact touched_foldl hitem _

theorem touched_store_route (route) (hafter : after.route = some route)
    (hchd : before.route ≠ some route)
    (hpro : sameCapacityProjection (tx.view.sandboxes.lookup route.sandboxId) route = false) :
    ∀ k ∈ identityKeys route.node, k ∈ (tx.store before after).touched := by
  intro k hk
  rw [store,hafter]
  dsimp only
  rw [if_neg hchd]
  exact kept_foldl _ _ k (touched_writeSandbox tx hpro k hk)

end Writers

end Tx

section Journals
variable {rows : RoutingRows} {migrationId : String} {now : Option Nat}

def DistinctIds (rows : RoutingRows) : Prop :=
  ∀ m ∈ rows.migrations, rows.getSandboxMigration m.migrationId = some m

theorem Tables.distinctIds (db : Tables) (id) : DistinctIds (db.rows id) := by
  intro m hm
  cases hfind : (db.rows id).getSandboxMigration m.migrationId with
  | none =>
    have hnone := find?_eq_none.mp hfind m hm
    simp at hnone
  | some =>
    have hm' := Tables.lookup_of_mem_rows (mem_of_find?_eq_some hfind)
    rw [getSandboxMigration_migrationId hfind,Tables.lookup_of_mem_rows hm] at hm'
    exact hm'.symm

theorem mem_written (rows : RoutingRows) (m) : m ∈ (rows.putSandboxMigration m).migrations :=
  mem_of_find?_eq_some (getSandboxMigration_put rows m)

theorem not_mem_of_phase (hd : DistinctIds rows) {m m'}
    (hm : rows.getSandboxMigration migrationId = some m) (hid : m'.migrationId = m.migrationId)
    (hphase : m'.phase ≠ m.phase) : m' ∉ rows.migrations := by
  intro hmem
  have hfound := hd m' hmem
  rw [hid,getSandboxMigration_migrationId hm,hm] at hfound
  exact hphase (congrArg SandboxMigration.phase (some.inj hfound)).symm

end Journals

theorem not_sameCapacityProjection {current route} (h : current.state ≠ route.state) :
    sameCapacityProjection (some current) route = false := by
  rw [← Bool.not_eq_true]
  intro hsame
  have hstate : (projection current).state = (projection route).state :=
    congrArg SandboxRoute.state (some.inj (projection_of_same hsame))
  exact h hstate

namespace Tx

theorem touched_reserveSandboxWakes (requests now) : ∀ r ∈ requests, ∀ k ∈ identityKeys r.node,
      k ∈ (reserveSandboxWakes (start snapshot) requests now).touched := by
  have hkept : ∀ (items : List SandboxRoute) (tx : Tx snapshot),
      (items.foldl (reserveSandboxWake now) tx).touched = tx.touched := by
    intro items
    induction items with
    | nil => exact fun _ => rfl
    | cons r items ih =>
      intro tx
      rw [foldl_cons,ih,reserveSandboxWake]
      split <;> rfl
  intro r hr k hk
  rw [reserveSandboxWakes,hkept]
  refine (advanced_capacityFence _ _).touched k (mem_flatMap.mpr ⟨r.node,mem_map_of_mem hr,hk⟩)

theorem touched_complete {m migrationId now}
    (hm : (snapshot.rows id).getSandboxMigration migrationId = some m)
    (hadm : (m.phase = .activated &&
        (snapshot.sandboxes.lookup id).any (·.ownedBy m.incarnation m.destination) ||
      m.phase = .complete && (snapshot.sandboxes.lookup id).any fun current =>
        current.ownedBy m.incarnation m.destination && current.state = .parked) = true) :
    ∀ k ∈ identityKeys m.destination,
      k ∈ (transact (start snapshot) id (.completeSandboxMigration migrationId true now)).touched := by
  rw [Bool.or_eq_true,Bool.and_eq_true,Bool.and_eq_true,decide_eq_true_eq,decide_eq_true_eq] at hadm
  rcases hadm with ⟨hphase,hroute⟩ | ⟨hphase,hroute⟩
  · obtain ⟨current,hcur,howned⟩ := (any_eq_true _ _).mp hroute
    have hrow : (snapshot.rows id).route = some current := hcur
    have hafter : (RouteOp.completeSandboxMigration migrationId true now).apply (snapshot.rows id) =
        { (snapshot.rows id).putSandboxMigration { m with phase := .complete, error := "" } with
          route := some (current.reserveWake now) } := by
      simp [RouteOp.apply,completeSandboxMigration,hm,hphase,hrow,howned]
    refine touched_store (m := { m with phase := .complete, error := "" }) ?_
      (not_mem_of_phase (snapshot.distinctIds id) hm rfl (by simp [hphase]))
    rw [show (start snapshot).view = snapshot from rfl,hafter]
    exact mem_written _ _
  · obtain ⟨current,hcur,howned⟩ := (any_eq_true _ _).mp hroute
    rw [Bool.and_eq_true,decide_eq_true_eq] at howned
    have hrow : (snapshot.rows id).route = some current := hcur
    have hafter : (RouteOp.completeSandboxMigration migrationId true now).apply (snapshot.rows id) =
        { snapshot.rows id with route := some (current.reserveWake now) } := by
      simp [RouteOp.apply,completeSandboxMigration,hm,hphase,hrow,howned]
    have hnode : current.node = m.destination := by
      have howned' := howned.1
      simp only [SandboxRoute.ownedBy,Bool.and_eq_true,decide_eq_true_eq] at howned'
      exact howned'.1.2
    have hstate : current.state ≠ RouteState.waking := by simp [howned.2]
    rw [← hnode]
    refine touched_store_route (current.reserveWake now) ?_ ?_ ?_
    · rw [show (start snapshot).view = snapshot from rfl,hafter]
    · rw [show (start snapshot).view = snapshot from rfl,hrow]
      intro heq
      exact hstate (congrArg SandboxRoute.state (some.inj heq))
    · have hview : (start snapshot).view.sandboxes.lookup (current.reserveWake now).sandboxId =
          some current := by
        rw [SandboxRoute.reserveWake,snapshot.routeKeyed id current hcur]
        exact hcur
      rw [hview]
      exact not_sameCapacityProjection hstate

end Tx

theorem admits_touched {op : PlacementOp} {hwm} (h : op.run (start snapshot) hwm = .ok tx) {node}
    (hnode : node ∈ op.admits snapshot) : ∀ k ∈ identityKeys node, k ∈ tx.touched := by
  cases op with
  | reserveSandboxWakes requests now =>
    cases h
    obtain ⟨r,hr,rfl⟩ := mem_map.mp hnode
    exact touched_reserveSandboxWakes requests now r (mem_filter.mp hr).1
  | allocateCreate allocation =>
    rw [PlacementOp.admits] at hnode
    split at hnode
    · cases hnode
    rename_i habsent
    obtain rfl := mem_singleton.mp hnode
    have hnone : snapshot.sandboxes.lookup allocation.sandboxId = none := AList.lookup_eq_none.mpr habsent
    simp only [PlacementOp.run,allocateCreate,Store.SandboxRouteAllocation.creating] at h
    rw [show (start snapshot).view.sandboxes.lookup allocation.sandboxId = none from hnone] at h
    cases h
    intro k hk
    refine touched_writeSandbox _ ?_ k hk
    rw [show (start snapshot).view.sandboxes.lookup allocation.sandboxId = none from hnone]
    rfl
  | transact id op =>
    cases h
    cases op with
    | beginSandboxMigration source migrationId =>
      simp only [PlacementOp.admits] at hnode
      split at hnode
      · rename_i r hok
        split at hnode
        · cases hnode
        rename_i hfresh
        obtain rfl := mem_singleton.mp hnode
        have hguard : ¬ (migrationId ∈ (start snapshot).view.migrations || source.sandboxId ≠ id) =
          true := hfresh
        rw [Bool.or_eq_true,not_or,decide_eq_true_eq] at hfresh
        have hnone : (snapshot.rows id).getSandboxMigration migrationId = none := by
          cases hfind : (snapshot.rows id).getSandboxMigration migrationId with
          | none => rfl
          | some m =>
            have hlook := Tables.lookup_of_mem_rows (mem_of_find?_eq_some hfind)
            rw [getSandboxMigration_migrationId hfind] at hlook
            exact absurd (AList.lookup_isSome.mp (isSome_iff_exists.mpr ⟨m,hlook⟩)) hfresh.1
        rw [transact,if_neg hguard]
        have hwrite : (RouteOp.beginSandboxMigration source migrationId node).apply (snapshot.rows id) =
            (snapshot.rows id).putSandboxMigration (source.plan migrationId node) := by
          simp only [RouteOp.apply,hok]
          rw [beginSandboxMigration,hnone] at hok
          obtain ⟨-,hok⟩ := of_guard hok (by simp)
          split at hok
          · cases hok
          obtain ⟨-,hok⟩ := of_check hok (by simp)
          dsimp only at hok
          split at hok <;> cases hok
          exact (writeSandboxMigration_some ‹_›).2.symm
        refine touched_store (m := source.plan migrationId node) ?_ fun hold => ?_
        · exact hwrite ▸ mem_written _ _
        · have hlook := Tables.lookup_of_mem_rows hold
          exact hfresh.1 (AList.lookup_isSome.mp (isSome_iff_exists.mpr ⟨_,hlook⟩))
      · cases hnode
    | completeSandboxMigration migrationId wake =>
      cases wake with
      | false => cases hnode
      | true =>
        simp only [PlacementOp.admits] at hnode
        split at hnode
        · rename_i m hm
          split at hnode
          · rename_i hadm
            obtain rfl := mem_singleton.mp hnode
            exact touched_complete hm hadm
          · cases hnode
        · cases hnode
    | _ => cases hnode
  | _ => cases hnode

end UCloudSandboxes.Placement
