import Mathlib.Data.List.AList
import UCloudSandboxes.Machine.Keyed
import UCloudSandboxes.Routing.Migration

/-! The gateway's route store: the route table, and for every sandbox id the storage dependency, the
high-water mark and the migration journal. -/
namespace UCloudSandboxes.Routing
open Machine SandboxRoute Function AList

inductive Raised where
  | valueError (message : String)
  | typeError (message : String)
  deriving DecidableEq

/-- The JSON of a dependency row: an empty object, a route's descriptor, or a bare publication. -/
inductive DependencyObject where
  | empty
  | snapshot (descriptor : SnapshotObject)
  | publication (reference : SnapshotReference)
  deriving DecidableEq

structure StorageDependency where
  generation : Nat
  storageSnapshot : DependencyObject
  deriving DecidableEq

abbrev ValidRoute := { route : SandboxRoute // route.valid = true }

def SandboxRoute.build (route : SandboxRoute) : Except Raised ValidRoute :=
  if h : route.valid = true then .ok ⟨route,h⟩
  else .error (.valueError "a detaching or detached route must be a fully published park")

variable {route : SandboxRoute}

theorem build_ok {v} (h : route.build = .ok v) : v.val = route := by
  unfold build at h
  split at h
  · exact (Except.ok.inj h) ▸ rfl
  · cases h

theorem build_of_valid (h : route.valid = true) : route.build = .ok ⟨route,h⟩ := by
  simp [build,h]

theorem detachOwnerLostRoute_valid (h : sandboxOwnerLossDisposition route = .recoverDetached)
    (updatedAt) : (detachOwnerLostRoute route updatedAt).valid = true := by
  have hd : isPortableParkedRoute (detachOwnerLostRoute route updatedAt) = true := by
    unfold sandboxOwnerLossDisposition at h
    split at h
    · cases h
    split at h
    · assumption
    · cases h
  simp [valid,hd]

structure SandboxRows extends RoutingRows where
  dependency : Option StorageDependency := none
  generationHwm : Nat := 0
  deriving DecidableEq

namespace SandboxRows

section
variable (rows : SandboxRows)

/-- `_write_sandbox`: the route row, its generation's dependency and the high-water mark. -/
def writeSandbox (route : SandboxRoute) : SandboxRows :=
  let kept := rows.dependency.filter (·.generation = route.incarnation.generation)
  { rows with
    route := some route
    dependency :=
      if route.snapshot.storageSnapshot.isEmpty then kept
      else some ⟨route.incarnation.generation,.snapshot route.snapshot.storageSnapshot⟩
    generationHwm := max rows.generationHwm route.incarnation.generation }

def writeSandboxLifecycle (route : SandboxRoute) : SandboxRows :=
  { rows with
    route := some route
    dependency :=
      if route.snapshot.storageSnapshot.isEmpty then rows.dependency
      else some ⟨route.incarnation.generation,.snapshot route.snapshot.storageSnapshot⟩ }

/-- `_write_storage_dependencies` for one row: an empty object replaces nothing. -/
def writeStorageDependency (d : StorageDependency) : SandboxRows :=
  { rows with
    dependency :=
      match rows.dependency with
      | none => some d
      | some old => if d.storageSnapshot = .empty then some old else some d }

def delete : SandboxRows :=
  { rows.toRoutingRows.deleteSandbox with
    dependency := none, generationHwm := rows.generationHwm }

/-- A route whose worker is proven lost: a published park is detached, any other is deleted. -/
def ownerLost (observedAt : Option Nat) (rows : SandboxRows) (route : SandboxRoute) : SandboxRows :=
  if sandboxOwnerLossDisposition route = .recoverDetached then
    rows.writeSandbox (detachOwnerLostRoute route observedAt)
  else rows.delete

/-- The same for the incarnation that was read: the delete is conditional on it. -/
def ownerLostIfCurrent (observedAt : Option Nat) (rows : SandboxRows) (route : SandboxRoute) :
    SandboxRows :=
  if sandboxOwnerLossDisposition route = .recoverDetached then rows.ownerLost observedAt route
  else match rows.route with
    | none => rows
    | some current =>
      if current.incarnation = route.incarnation then rows.ownerLost observedAt route else rows

/-- A transaction on the route and its journal: a changed route goes through `_write_sandbox`. -/
def commit (after : RoutingRows) : SandboxRows :=
  let journaled := { rows with migrations := after.migrations }
  if after.route = rows.route then journaled
  else match after.route with
    | some route => journaled.writeSandbox route
    | none => { journaled with route := none, dependency := none }

@[simp]
theorem writeSandbox_route (route) : (rows.writeSandbox route).route = some route := rfl

@[simp]
theorem writeStorageDependency_route (d) : (rows.writeStorageDependency d).route = rows.route := rfl

@[simp]
theorem delete_route : rows.delete.route = none := rfl

@[simp]
theorem commit_route (after) : (rows.commit after).route = after.route := by
  unfold commit
  split
  · rename_i h
    exact h.symm
  · cases after.route <;> rfl

end

end SandboxRows

/-- The store. Routes are kept under their own id, and only routes their constructor accepts. -/
structure Store where
  routes : AList (fun _ : String => SandboxRoute)
  dependency : String → Option StorageDependency := fun _ => none
  generationHwm : String → Nat := fun _ => 0
  migrations : String → List SandboxMigration := fun _ => []
  sound : ∀ id route, routes.lookup id = some route → route.sandboxId = id ∧ route.valid = true

namespace Store

def rows (store : Store) (id : String) : SandboxRows :=
  { route := store.routes.lookup id
    migrations := store.migrations id
    dependency := store.dependency id
    generationHwm := store.generationHwm id }

def getSandbox (store : Store) (id : String) : Option SandboxRoute := store.routes.lookup id

@[simp]
theorem rows_route (store : Store) (id) : (store.rows id).route = store.getSandbox id := rfl

variable {id : String}

theorem getSandbox_id {store : Store} {route} (h : store.getSandbox id = some route) :
    route.sandboxId = id :=
  (store.sound id route h).1

theorem getSandbox_valid {store : Store} {route} (h : store.getSandbox id = some route) :
    route.valid = true :=
  (store.sound id route h).2

def fitsRow (id : String) : Option SandboxRoute → Prop
  | none => True
  | some route => route.sandboxId = id ∧ route.valid = true

private def putRoute (routes : AList (fun _ : String => SandboxRoute)) (id : String) :
    Option SandboxRoute → AList (fun _ : String => SandboxRoute)
  | none => routes.erase id
  | some route => routes.insert id route

private theorem lookup_putRoute (routes id route) : (putRoute routes id route).lookup id = route := by
  cases route with
  | none => exact lookup_erase id routes
  | some => exact lookup_insert routes

private theorem lookup_putRoute_ne (routes) {k} (h : k ≠ id) (route) :
    (putRoute routes id route).lookup k = routes.lookup k := by
  cases route with
  | none => exact lookup_erase_ne h
  | some => exact lookup_insert_ne h

section
variable (store : Store)

def put (id : String) (rows : SandboxRows) (h : fitsRow id rows.route) : Store where
  routes := putRoute store.routes id rows.route
  dependency := update store.dependency id rows.dependency
  generationHwm := update store.generationHwm id rows.generationHwm
  migrations := update store.migrations id rows.migrations
  sound := by
    intro k route hk
    by_cases hid : k = id
    · subst hid
      rw [lookup_putRoute] at hk
      rw [hk] at h
      exact h
    · rw [lookup_putRoute_ne _ hid] at hk
      exact store.sound k route hk

@[simp]
theorem rows_put (id rows) (h : fitsRow id rows.route) : (store.put id rows h).rows id = rows := by
  simp [Store.rows,put,lookup_putRoute]

theorem rows_put_ne {k} (rows) (h : fitsRow id rows.route) (hk : k ≠ id) :
    (store.put id rows h).rows k = store.rows k := by
  simp [Store.rows,put,lookup_putRoute_ne _ hk,update_of_ne hk]

theorem fitsRow_self (route : ValidRoute) : fitsRow route.val.sandboxId (some route.val) :=
  ⟨rfl,route.property⟩

def writeSandbox (route : ValidRoute) : Store :=
  store.put route.val.sandboxId ((store.rows route.val.sandboxId).writeSandbox route.val)
    (fitsRow_self route)

def writeSandboxLifecycle (route : ValidRoute) : Store :=
  store.put route.val.sandboxId ((store.rows route.val.sandboxId).writeSandboxLifecycle route.val)
    (fitsRow_self route)

theorem fitsRow_getSandbox (id) : fitsRow id (store.getSandbox id) := by
  cases h : store.getSandbox id with
  | none => trivial
  | some route => exact store.sound id route h

def writeStorageDependency (id : String) (d : StorageDependency) : Store :=
  store.put id ((store.rows id).writeStorageDependency d) (store.fitsRow_getSandbox id)

def deleteSandbox (id : String) : Store :=
  store.put id (store.rows id).delete trivial

@[simp]
theorem rows_writeSandbox (route) : (store.writeSandbox route).rows route.val.sandboxId =
      (store.rows route.val.sandboxId).writeSandbox route.val := rows_put ..

theorem rows_writeSandbox_ne (route) {k} (hk : k ≠ route.val.sandboxId) :
    (store.writeSandbox route).rows k = store.rows k :=
  rows_put_ne _ _ _ hk

@[simp]
theorem rows_writeSandboxLifecycle (route) :
    (store.writeSandboxLifecycle route).rows route.val.sandboxId =
      (store.rows route.val.sandboxId).writeSandboxLifecycle route.val := rows_put ..

@[simp]
theorem rows_deleteSandbox (id) :
    (store.deleteSandbox id).rows id = (store.rows id).delete := rows_put ..

theorem rows_deleteSandbox_ne {k} (hk : k ≠ id) :
    (store.deleteSandbox id).rows k = store.rows k := rows_put_ne _ _ _ hk

def sandboxes : List SandboxRoute := store.routes.entries.map (·.2)

theorem itemsOf_sandboxes (id) : itemsOf sandboxId id store.sandboxes =
      (store.getSandbox id).toList := by
  have hkeyed : ∀ e ∈ store.routes.entries, e.2.sandboxId = e.1 := fun e he =>
    (store.sound e.1 e.2 (mem_lookup_iff.mpr he)).1
  have hall : ∀ l : List (Sigma fun _ : String => SandboxRoute), (∀ e ∈ l, e.2.sandboxId = e.1) →
      itemsOf sandboxId id (l.map (·.2)) = l.lookupAll id := by
    intro l
    induction l with
    | nil => intro _; rfl
    | cons e l ih =>
      intro hl
      obtain ⟨k,route⟩ := e
      have hk : route.sandboxId = k := hl ⟨k,route⟩ (by simp)
      have ih' := ih fun e he => hl e (by simp [he])
      by_cases hid : id = k
      · subst hid
        rw [List.lookupAll_cons_eq,← ih']
        simp [itemsOf,hk]
      · rw [List.lookupAll_cons_ne _ _ (by simpa using hid),← ih']
        simp [itemsOf,hk,Ne.symm hid]
  rw [sandboxes,hall _ hkeyed,List.lookupAll_eq_dlookup id store.routes.nodupKeys]
  rfl

theorem view_forRoutes {σ ρ : Type} (view : σ → String → ρ) (select body) (own : ρ → SandboxRoute → ρ)
    (hself : ∀ s route, view (body s route) route.sandboxId = own (view s route.sandboxId) route)
    (hother : ∀ s route k, k ≠ route.sandboxId → view (body s route) k = view s k)
    (store : Store) (s) (id) : view ((store.sandboxes.filter select).foldl body s) id =
      match store.getSandbox id with
      | none => view s id
      | some route => if select route then own (view s id) route else view s id := by
  have hitems : itemsOf sandboxId id (store.sandboxes.filter select) =
      (store.getSandbox id).toList.filter select := by
    rw [← store.itemsOf_sandboxes id]
    simp only [itemsOf,List.filter_filter]
    congr 1
    funext route
    rw [Bool.and_comm]
  rw [foldl_own sandboxId view body own hself hother,hitems]
  cases store.getSandbox id with
  | none => rfl
  | some route => cases hs : select route <;> simp [hs]

theorem rows_forRoutes (select body) (own : SandboxRows → SandboxRoute → SandboxRows)
    (hself : ∀ store route, (body store route).rows route.sandboxId =
      own (store.rows route.sandboxId) route)
    (hother : ∀ store route k, k ≠ route.sandboxId → (body store route).rows k = store.rows k)
    (store : Store) (id) : ((store.sandboxes.filter select).foldl body store).rows id =
      match store.getSandbox id with
      | none => store.rows id
      | some route => if select route then own (store.rows id) route else store.rows id :=
  view_forRoutes Store.rows select body own hself hother store store id

/-- `_detach_owner_lost_route_unlocked` or `_delete_sandbox_unlocked`, conditional on the
incarnation that was read. -/
def settleOwnerLost (observedAt : Option Nat) (store : Store) (route : SandboxRoute) : Store :=
  if h : sandboxOwnerLossDisposition route = .recoverDetached then
    store.writeSandbox ⟨detachOwnerLostRoute route observedAt,detachOwnerLostRoute_valid h observedAt⟩
  else match store.getSandbox route.sandboxId with
    | none => store
    | some current =>
      if current.incarnation = route.incarnation then store.deleteSandbox route.sandboxId else store

theorem rows_settleOwnerLost_self (observedAt) (store : Store) (route) :
    (store.settleOwnerLost observedAt route).rows route.sandboxId =
      (store.rows route.sandboxId).ownerLostIfCurrent observedAt route := by
  unfold settleOwnerLost SandboxRows.ownerLostIfCurrent SandboxRows.ownerLost
  rw [rows_route]
  split
  · exact rows_writeSandbox ..
  cases store.getSandbox route.sandboxId with
  | none => rfl
  | some =>
    dsimp only
    split
    · exact rows_deleteSandbox ..
    · rfl

theorem rows_settleOwnerLost_ne (observedAt) (store : Store) (route k) (hk : k ≠ route.sandboxId) :
    (store.settleOwnerLost observedAt route).rows k = store.rows k := by
  unfold settleOwnerLost
  split
  · exact rows_writeSandbox_ne _ _ hk
  split
  · rfl
  split
  · exact rows_deleteSandbox_ne _ hk
  · rfl

theorem rows_settleOwnerLost (select observedAt) (store : Store) (id) :
    ((store.sandboxes.filter select).foldl (settleOwnerLost observedAt) store).rows id =
      match store.getSandbox id with
      | none => store.rows id | some route =>
        if select route then (store.rows id).ownerLost observedAt route else store.rows id := by
  rw [rows_forRoutes select _ (SandboxRows.ownerLostIfCurrent observedAt) (rows_settleOwnerLost_self observedAt)
    (rows_settleOwnerLost_ne observedAt)]
  cases hroute : store.getSandbox id with
  | none => rfl
  | some route =>
    have hrow : (store.rows id).ownerLostIfCurrent observedAt route =
        (store.rows id).ownerLost observedAt route := by
      simp [SandboxRows.ownerLostIfCurrent,hroute]
    simp only [hrow]

/-- Commit a transaction on one route. A route that left its worker without a published park is
refused. -/
def commit (id : String) (after : RoutingRows) : Except Raised Store :=
  match hroute : after.route with
  | none => .ok (store.put id ((store.rows id).commit after) (by simp [hroute,fitsRow]))
  | some route =>
    if h : route.sandboxId = id ∧ route.valid = true then
      .ok (store.put id ((store.rows id).commit after) (by simpa [hroute,fitsRow] using h))
    else .error (.valueError "a detaching or detached route must be a fully published park")

end

theorem commit_ok {store store' : Store} {after} (h : store.commit id after = .ok store') :
    store'.rows id = (store.rows id).commit after ∧ ∀ k, k ≠ id → store'.rows k = store.rows k := by
  unfold commit at h
  split at h
  · cases h
    exact ⟨rows_put ..,fun k => rows_put_ne _ _ _⟩
  · split at h
    · cases h
      exact ⟨rows_put ..,fun k => rows_put_ne _ _ _⟩
    · cases h

end Store

end UCloudSandboxes.Routing
