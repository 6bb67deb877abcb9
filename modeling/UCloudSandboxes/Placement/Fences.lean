import UCloudSandboxes.Placement.Tables

namespace UCloudSandboxes.Placement
open Machine Routing RoutingRows List PlacementOp

variable {snapshot db : Tables} {tx tx' : Tx snapshot} {extra : List String} {id : String} {w : RowWrite}

def projection (route : SandboxRoute) : SandboxRoute :=
  { route with
    updatedAt := none
    activityEpoch := if route.state = .running then 0 else route.activityEpoch }

def routeKeys (route : Option SandboxRoute) : List String :=
  route.toList.flatMap fun r => identityKeys r.node

def incomingKeys (m : Option SandboxMigration) : List String :=
  (m.filter (·.phase ≠ .complete)).toList.flatMap fun m => identityKeys m.destination

theorem projection_of_same {previous route} (h : sameCapacityProjection previous route = true) :
    previous.map projection = some (projection route) := by
  obtain ⟨p,rfl,heq⟩ := (Option.any_eq_true _ _).mp h
  have heq := of_decide_eq_true heq
  rw [← heq]
  by_cases hrun : p.state = .running
  · simp [projection,hrun]
  simp [projection,hrun]
  intro hp hr
  exact absurd (hp.trans hr) hrun

theorem routeKeys_of_projection {r r'} (h : r.map projection = r'.map projection) :
    routeKeys r = routeKeys r' := by
  have hkeys : ∀ r : Option SandboxRoute, routeKeys r = routeKeys (r.map projection) := by
    intro r
    cases r <;> rfl
  rw [hkeys r,hkeys r',h]

section Rows

theorem sandboxes_apply (db : Tables) (w id) : (db.apply w).sandboxes.lookup id = match w.route with
      | some (k,v) => if id = k then v else db.sandboxes.lookup id
      | none => db.sandboxes.lookup id := by
  cases w with
  | upsertSandbox | updateSandbox => exact lookup_insert_ite ..
  | deleteSandbox k =>
    show (db.sandboxes.erase k).lookup id = if id = k then none else db.sandboxes.lookup id
    split
    · subst id
      exact AList.lookup_erase _ _
    · rename_i hid
      exact AList.lookup_erase_ne hid
  | _ => rfl

theorem migrations_apply (db : Tables) (w id) : (db.apply w).migrations.lookup id =
      match w.migration with
      | some m => if id = m.migrationId then some m else db.migrations.lookup id
      | none => db.migrations.lookup id := by
  cases w with
  | upsertMigration | updateMigration => exact lookup_insert_ite ..
  | _ => rfl

end Rows

/-- Where a row reads other than in the snapshot, the workers of both rows are fenced. -/
def Guarded {ρ π : Type} (read : Option ρ → π) (keys : Option ρ → List String) (fences : List String)
    (before after : String → Option ρ) : Prop :=
  ∀ id, read (after id) ≠ read (before id) → ∀ k ∈ keys (before id) ++ keys (after id), k ∈ fences

section
variable {ρ π : Type} {read : Option ρ → π} {keys : Option ρ → List String} {fences : List String}
  {before after : String → Option ρ} (h : Guarded read keys fences before after)
include h

theorem Guarded.mono {fences'} (hsub : ∀ k ∈ fences, k ∈ fences') :
    Guarded read keys fences' before after :=
  fun id hne k hk => hsub k (h id hne k hk)

theorem Guarded.update {key row} (hkeys : ∀ {a b}, read a = read b → keys a = keys b)
    (hfence : read row ≠ read (after key) → ∀ k ∈ keys (after key) ++ keys row, k ∈ fences) :
    Guarded read keys fences before fun id => if id = key then row else after id := by
  intro id hne k hk
  dsimp only at hne hk
  by_cases hid : id = key
  · subst hid
    rw [if_pos rfl] at hne hk
    by_cases hbef : read (after id) = read (before id)
    · rw [← hbef] at hne
      rw [← hkeys hbef] at hk
      exact hfence hne k hk
    · by_cases hsame : read row = read (after id)
      · rw [hkeys hsame] at hk
        exact h id hbef k hk
      · rcases mem_append.mp hk with hk | hk
        · exact h id hbef k (mem_append_left _ hk)
        · exact hfence hsame k (mem_append_right _ hk)
  · rw [if_neg hid] at hne hk
    exact h id hne k hk

end

structure Tx.Advanced (tx tx' : Tx snapshot) (keys : List String) : Prop where
  sandboxes : tx'.view.sandboxes = tx.view.sandboxes
  migrations : tx'.view.migrations = tx.view.migrations
  kept : ∀ k ∈ tx.touched, k ∈ tx'.touched
  touched : ∀ k ∈ keys, k ∈ tx'.touched

namespace Tx

theorem advanced_advance (tx : Tx snapshot) (key) : Advanced tx (tx.advance key) [key] := by
  rw [advance]
  split
  · rename_i h
    exact ⟨rfl,rfl,fun _ hk => hk,fun k hk => by simpa [mem_singleton.mp hk] using h⟩
  · exact ⟨rfl,rfl,fun _ => .tail _,fun k hk => mem_singleton.mp hk ▸ (.head _)⟩

theorem advanced_foldl (keys) (tx : Tx snapshot) : Advanced tx (keys.foldl advance tx) keys := by
  induction keys generalizing tx with
  | nil => exact ⟨rfl,rfl,fun _ h => h,fun _ h => absurd h not_mem_nil⟩
  | cons key keys ih =>
    have hone := advanced_advance tx key
    have hrest := ih (tx.advance key)
    refine ⟨hrest.sandboxes.trans hone.sandboxes,hrest.migrations.trans hone.migrations,
      fun k hk => hrest.kept k (hone.kept k hk),fun k hk => ?_⟩
    rcases mem_cons.mp hk with rfl | hk
    · exact hrest.kept k (hone.touched k (.head _))
    · exact hrest.touched k hk

theorem advanced_capacityFence (tx : Tx snapshot) (identities) :
    Advanced tx (tx.capacityFence identities) (identities.flatMap identityKeys) :=
  advanced_foldl _ tx

structure Fenced (extra : List String) (tx : Tx snapshot) : Prop where
  routes : Guarded (Option.map projection) routeKeys (tx.touched ++ extra)
    (snapshot.sandboxes.lookup ·) (tx.view.sandboxes.lookup ·)
  migrations : Guarded (fun m => m) incomingKeys (tx.touched ++ extra)
    (snapshot.migrations.lookup ·) (tx.view.migrations.lookup ·)

namespace Fenced

theorem start (snapshot) (extra) : Fenced extra (start snapshot) :=
  ⟨fun _ => absurd rfl,fun _ => absurd rfl⟩

theorem of_advanced {keys} (h : Fenced extra tx) (ha : Advanced tx tx' keys) : Fenced extra tx' := by
  have hkept : ∀ k ∈ tx.touched ++ extra, k ∈ tx'.touched ++ extra := by
    intro k hk
    rcases mem_append.mp hk with hk | hk
    · exact mem_append_left _ (ha.kept k hk)
    · exact mem_append_right _ hk
  refine ⟨?_,?_⟩
  · rw [ha.sandboxes]
    exact h.routes.mono hkept
  · rw [ha.migrations]
    exact h.migrations.mono hkept

/-- A route row is written: if it changes what admissions read, the workers of the old and of the new
row are fenced. -/
theorem write_route (h : Fenced extra tx) {key row} (hw : w.route = some (key,row))
    (hm : w.migration = none)
    (hfence : row.map projection ≠ (tx.view.sandboxes.lookup key).map projection →
      ∀ k ∈ routeKeys (tx.view.sandboxes.lookup key) ++ routeKeys row, k ∈ tx.touched ++ extra) :
    Fenced extra (tx.write w) := by
  refine ⟨?_,?_⟩
  · simp only [write,sandboxes_apply,hw]
    exact h.routes.update routeKeys_of_projection hfence
  · simp only [write,migrations_apply,hm]
    exact h.migrations

end Fenced

variable {route : SandboxRoute}

theorem fenced_unlessSame (h : Fenced extra tx) {nodes}
    (hw : w.route = some (route.sandboxId,some route)) (hm : w.migration = none)
    (hnodes : ∀ k ∈ routeKeys (tx.view.sandboxes.lookup route.sandboxId) ++ identityKeys route.node,
      k ∈ nodes.flatMap identityKeys) :
    Fenced extra ((if sameCapacityProjection (tx.view.sandboxes.lookup route.sandboxId) route then tx
      else tx.capacityFence nodes).write w) := by
  split
  · rename_i hsame
    exact h.write_route hw hm fun hne => absurd (projection_of_same hsame).symm hne
  · have ha := advanced_capacityFence tx nodes
    refine (h.of_advanced ha).write_route hw hm fun _ k hk => mem_append_left _ (ha.touched k ?_)
    rw [ha.sandboxes] at hk
    exact hnodes k (by simpa [routeKeys] using hk)

theorem fenced_writeSandbox (h : Fenced extra tx) (route) : Fenced extra (tx.writeSandbox route) :=
  fenced_unlessSame h rfl rfl fun k hk => by simpa [routeKeys,or_comm] using hk

theorem mem_incomingKeys {m k} (h : k ∈ incomingKeys m) :
    ∃ m', m = some m' ∧ m'.phase ≠ .complete ∧ k ∈ identityKeys m'.destination := by
  obtain ⟨m',hm,hk⟩ := mem_flatMap.mp h
  obtain ⟨hm,hact⟩ := Option.filter_eq_some_iff.mp (Option.mem_toList.mp hm)
  exact ⟨m',hm,of_decide_eq_true hact,hk⟩

theorem touched_writeSandboxMigration (tx : Tx snapshot) (m) :
    (∀ k ∈ tx.touched, k ∈ (tx.writeSandboxMigration m).touched) ∧
      ∀ k ∈ identityKeys m.destination, k ∈ (tx.writeSandboxMigration m).touched := by
  have ha := advanced_capacityFence tx [m.source,m.destination]
  exact ⟨ha.kept,fun k hk => ha.touched k (by simp [hk])⟩

section
variable (tx : Tx snapshot)

theorem writeSandbox_migrations (route) :
    (tx.writeSandbox route).view.migrations = tx.view.migrations := by
  rw [writeSandbox]
  split
  · rfl
  · exact (advanced_capacityFence tx _).migrations

def Dwindles : Prop :=
  ∀ key m, tx.view.migrations.lookup key = some m → m.phase ≠ .complete →
    snapshot.migrations.lookup key = some m

end

structure Settling (extra : List String) (tx : Tx snapshot) : Prop where
  fenced : Fenced extra tx
  dwindles : Dwindles tx

structure Releasable (tx : Tx snapshot) (route : SandboxRoute) : Prop where
  row : tx.view.sandboxes.lookup route.sandboxId = some route
  settled : ∀ m ∈ snapshot.activeMigrations route.sandboxId, m.destination = route.node

structure Settles (extra : List String) (tx : Tx snapshot) (route : SandboxRoute) (tx' : Tx snapshot) :
    Prop where
  settling : Settling extra tx → Releasable tx route → Settling extra tx'
  other : ∀ id, id ≠ route.sandboxId → tx'.view.sandboxes.lookup id = tx.view.sandboxes.lookup id

theorem Settling.writeSandbox (h : Settling extra tx) (route) :
    Settling extra (tx.writeSandbox route) := by
  refine ⟨fenced_writeSandbox h.fenced route,fun key m hm => ?_⟩
  rw [writeSandbox_migrations] at hm
  exact h.dwindles key m hm

theorem Settling.foldl {body} (hbody : ∀ tx route, Settles extra tx route (body tx route))
    {routes : List SandboxRoute} (hnodup : (routes.map (·.sandboxId)).Nodup)
    (hroutes : ∀ route ∈ routes, Releasable tx route) (h : Settling extra tx) :
    Settling extra (routes.foldl body tx) := by
  induction routes generalizing tx with
  | nil => exact h
  | cons route routes ih =>
    rw [map_cons,nodup_cons] at hnodup
    have hone := hbody tx route
    refine ih hnodup.2 (fun other hother => ?_) (hone.settling h (hroutes route (.head _)))
    have hr := hroutes other (.tail _ hother)
    have hne : other.sandboxId ≠ route.sandboxId := by
      intro heq
      exact hnodup.1 (heq ▸ mem_map_of_mem hother)
    exact ⟨(hone.other _ hne).trans hr.row,hr.settled⟩

end Tx

theorem Tables.lookup_of_mem_rows {m} (h : m ∈ (db.rows id).migrations) :
    db.migrations.lookup m.migrationId = some m := by
  have h : m ∈ rowsWhere db.migrations fun _ m => m.sandboxId = id := h
  obtain ⟨key,hkey,-⟩ := mem_rowsWhere.mp h
  rw [db.migrationKeyed key m hkey]
  exact hkey

variable (rows : RoutingRows)

namespace Tx

theorem Settling.start (snapshot) (extra) : Settling extra (start snapshot) :=
  ⟨.start snapshot extra,fun _ _ h _ => h⟩

end Tx

end UCloudSandboxes.Placement
