import UCloudSandboxes.Routing.Freshness

namespace UCloudSandboxes.Routing
open Machine SandboxRows Example List

def DependencyObject.isEmpty : DependencyObject → Bool
  | .empty => true
  | .snapshot descriptor => descriptor.isEmpty
  | .publication _ => false

def SandboxRoute.published (route : SandboxRoute) : List DependencyObject :=
  [.snapshot route.snapshot.storageSnapshot].filter (!·.isEmpty)

variable (before after : Option SandboxRoute) (call : InventoryCall) (rows : SandboxRows)
  (since : List DependencyObject)

/-- The rows `storage_snapshot_dependencies_readonly` selects under one id: its dependency, the
route's descriptor and the active migrations'. -/
def SandboxRows.storageSnapshotDependencies : List DependencyObject :=
  let dependency := match rows.route, rows.dependency with
    | some route, some d => if d.generation = route.incarnation.generation then [d.storageSnapshot] else []
    | _, _ => []
  let routed := rows.route.toList.map fun route => .snapshot route.snapshot.storageSnapshot
  let moving := rows.activeMigrations.map fun m => .snapshot m.storageSnapshot
  (dependency ++ routed ++ moving).filter (!·.isEmpty)

/-- `storage_snapshot_dependencies_readonly`: the union over the sandboxes. -/
def Store.roots (store : Store) (object : DependencyObject) : Prop :=
  ∃ id, object ∈ (store.rows id).storageSnapshotDependencies

def sameGeneration : Bool :=
  before.map (·.incarnation.generation) = after.map (·.incarnation.generation)

/-- The last reported dependency after a write: itself, or a descriptor carried since. -/
def carriedSince : List DependencyObject :=
  if since = [] || !sameGeneration before after then []
  else (after.toList.flatMap (·.published)) ++ since

def SandboxRows.reports (item : SandboxInventoryEntry) : Option DependencyObject :=
  match rows.route with
  | none => none
  | some existing =>
    match observe call existing item, dependencyObject item with
    | .ok (some _), .ok (some object) => if object.isEmpty then none else some object
    | _, _ => none

def noteEntry (s : SandboxRows × List DependencyObject) (item : SandboxInventoryEntry)
    : SandboxRows × List DependencyObject :=
  match s.1.settleEntry call item with
  | .error _ => s
  | .ok rows =>
    (rows,
      match s.1.reports call item with
      | some object => [object]
      | none => carriedSince s.1.route rows.route s.2)

/-- A store with each sandbox's last nonempty dependency for its generation and the descriptors
carried since. -/
structure Reported where
  store : Store
  since : String → List DependencyObject

namespace Reported

def fresh : Reported := ⟨.fresh,fun _ => []⟩

def sinceAfter (s : Reported) (id : String) : StoreEvent → List DependencyObject
  | .reconcile report =>
    match reconcileSandboxesForNode s.store report with
    | .error _ => s.since id
    | .ok _ =>
      let rows := s.store.rows id
      if report.reportedIds.contains id then
        ((report.own id).foldl (noteEntry report.toInventoryCall) (rows,s.since id)).2
      else carriedSince rows.route (rows.settleAbsent report.toInventoryCall).route (s.since id)
  | e => carriedSince (s.store.getSandbox id) ((s.store.exec e).getSandbox id) (s.since id)

def step (s : Reported) (e : StoreEvent) : Option Reported :=
  some ⟨s.store.exec e,fun id => s.sinceAfter id e⟩

end Reported

def Rooted : Prop :=
  since ≠ [] → ∃ route object, rows.route = some route ∧ object ∈ since ∧ object.isEmpty = false ∧
    rows.dependency = some ⟨route.incarnation.generation,object⟩

namespace Rooted

variable {rows rows' : SandboxRows} {since : List DependencyObject} {route : SandboxRoute}

theorem nil (rows) : Rooted rows [] := absurd rfl

section
variable (h : Rooted rows since)
include h

theorem write (hroute : rows'.route = some route)
    (hdep : ∀ current, rows.route = some current →
      current.incarnation.generation = route.incarnation.generation →
      ∀ object, rows.dependency = some ⟨route.incarnation.generation,object⟩ →
      rows'.dependency = rows.dependency ∨
        route.snapshot.storageSnapshot.isEmpty = false ∧ rows'.dependency =
          some ⟨route.incarnation.generation,.snapshot route.snapshot.storageSnapshot⟩) :
    Rooted rows' (carriedSince rows.route rows'.route since) := by
  intro hne
  unfold carriedSince at hne ⊢
  split at hne
  · exact absurd rfl hne
  rename_i hguard
  simp only [Bool.or_eq_true,decide_eq_true_eq,not_or] at hguard
  obtain ⟨hsince,hsame⟩ := hguard
  obtain ⟨current,object,hcur,hmem,hempty,hrow⟩ := h hsince
  rw [hcur,hroute] at hsame
  have hgen : current.incarnation.generation = route.incarnation.generation := by
    simpa [sameGeneration] using hsame
  rw [if_neg (by simp [hsince, hcur, hroute, hsame])]
  rw [hgen] at hrow
  rcases hdep current hcur hgen object hrow with hkept | ⟨hs,hnew⟩
  · exact ⟨route,object,hroute,mem_append_right _ hmem,hempty,hkept.trans hrow⟩
  · refine ⟨route,.snapshot route.snapshot.storageSnapshot,hroute,?_,hs,hnew⟩
    simp [hroute,SandboxRoute.published,DependencyObject.isEmpty,hs]

theorem writeSandbox :
    Rooted (rows.writeSandbox route) (carriedSince rows.route (some route) since) := by
  refine h.write rfl fun current hcur hgen object hrow => ?_
  unfold SandboxRows.writeSandbox
  split
  · exact .inl (by simp [hrow])
  · rename_i hs
    exact .inr ⟨Bool.eq_false_iff.mpr hs,rfl⟩

theorem writeSandboxLifecycle :
    Rooted (rows.writeSandboxLifecycle route) (carriedSince rows.route (some route) since) := by
  refine h.write rfl fun current hcur hgen object hrow => ?_
  unfold SandboxRows.writeSandboxLifecycle
  split
  · exact .inl rfl
  · rename_i hs
    exact .inr ⟨Bool.eq_false_iff.mpr hs,rfl⟩

theorem gone (hroute : rows'.route = none) :
    Rooted rows' (carriedSince rows.route rows'.route since) := by
  intro hne
  unfold carriedSince at hne
  split at hne
  · exact absurd rfl hne
  rename_i hguard
  simp only [Bool.or_eq_true,decide_eq_true_eq,not_or] at hguard
  obtain ⟨current,_,hcur,_⟩ := h hguard.1
  simp [sameGeneration,hcur,hroute] at hguard

theorem keep (hdep : rows'.dependency = rows.dependency) :
    Rooted rows' (carriedSince rows.route rows'.route since) := by
  cases hroute : rows'.route with
  | none => exact hroute ▸ h.gone hroute
  | some => exact hroute ▸ h.write hroute fun _ _ _ _ _ => .inl hdep

end

end Rooted

theorem rooted_of_write {e id rows rows' since} (hw : RowWrite e id rows rows')
    (he : ∀ report, e ≠ .reconcile report) (h : Rooted rows since) :
    Rooted rows' (carriedSince rows.route rows'.route since) := by
  cases hw with
  | observed | created | restored => exact h.writeSandbox
  | lifecycle => exact h.writeSandboxLifecycle
  | touched => exact h.keep rfl
  | reported _ hr => exact absurd hr (he _)
  | deleted => exact h.gone rfl
  | @journaled op after _ _ =>
    have hjnl : Rooted { rows with migrations := after.migrations } since := h
    unfold SandboxRows.commit
    split
    · exact h.keep rfl
    cases after.route with
    | none => exact h.gone rfl
    | some => exact hjnl.writeSandbox

section Reconcile

variable {call : InventoryCall} {rows rows' : SandboxRows} {since : List DependencyObject}
  {item : SandboxInventoryEntry}

theorem isEmpty_dependencyObject {object} (h : dependencyObject item = .ok (some object))
    (he : object.isEmpty = true) : object = .empty := by
  unfold dependencyObject at h
  split at h
  · cases h
  · cases h
    rfl
  · obtain ⟨_,-,⟨⟩⟩ := ok_of_map_ok h
    cases he

theorem Rooted.observed {existing candidate} (h : Rooted rows since) :
    Rooted (rows.observed existing candidate)
      (carriedSince rows.route (rows.observed existing candidate).route since) := by
  unfold SandboxRows.observed
  split
  · exact h.keep rfl
  · exact h.writeSandbox

theorem rooted_settleEntry (h : Rooted rows since) (hs : rows.settleEntry call item = .ok rows') :
    Rooted rows' (match rows.reports call item with
      | some object => [object] | none => carriedSince rows.route rows'.route since) := by
  obtain ⟨rfl,hnone⟩ | ⟨existing,c,d,hroute,ho,hd,rfl⟩ := settleEntry_cases hs
  · have hr : rows'.reports call item = none := by
      unfold reports
      cases hroute : rows'.route with
      | none => rfl
      | some existing => simp [hnone existing hroute]
    rw [hr]
    exact h.keep rfl
  have hr : rows.reports call item = d.bind fun object => if object.isEmpty then none else some object := by
    cases d <;> simp [reports,hroute,ho,hd]
  rw [hr]
  cases d with
  | none => exact h.observed
  | some object =>
    dsimp only [Option.bind_some,Option.elim_some]
    have hobs : Rooted (rows.observed existing c.val)
      (carriedSince rows.route (rows.observed existing c.val).route since) := h.observed
    by_cases he : object.isEmpty = true
    · obtain rfl := isEmpty_dependencyObject hd he
      intro hne
      obtain ⟨route,kept,hr',hmem,hk,hrow⟩ := hobs hne
      refine ⟨route,kept,hr',hmem,hk,?_⟩
      simp [writeStorageDependency,hrow]
    · rw [if_neg he]
      have hne : object ≠ .empty := fun hempty => he (hempty ▸ rfl)
      refine fun _ => ⟨c.val,object,observed_route ..,mem_singleton_self _,
        Bool.eq_false_iff.mpr he,?_⟩
      unfold writeStorageDependency
      split
      · rfl
      · rw [if_neg hne]

theorem Rooted.settleAbsent (h : Rooted rows since) :
    Rooted (rows.settleAbsent call) (carriedSince rows.route (rows.settleAbsent call).route since) := by
  have hcases : rows.settleAbsent call = rows ∨ rows.settleAbsent call = rows.delete ∨
      ∃ route, rows.settleAbsent call = rows.writeSandbox route := by
    unfold SandboxRows.settleAbsent SandboxRows.ownerLost
    split
    · exact .inl rfl
    split
    · split
      · exact .inr (.inr ⟨_,rfl⟩)
      · exact .inr (.inl rfl)
    · exact .inl rfl
  rcases hcases with he | he | ⟨route,he⟩
  · rw [he]
    exact h.keep rfl
  · rw [he]
    exact h.gone rfl
  · rw [he]
    exact h.writeSandbox

theorem rooted_entries {own : List SandboxInventoryEntry} (h : Rooted rows since)
    (hs : own.foldlM (settleEntry call) rows = .ok rows') :
    Rooted rows' (own.foldl (noteEntry call) (rows,since)).2 := by
  induction own generalizing rows since with
  | nil =>
    cases hs
    exact h
  | cons item own ih =>
    obtain ⟨first,hfirst,hs⟩ := ok_of_bind_ok hs
    have hnote : noteEntry call (rows,since) item = (first,
        match rows.reports call item with
        | some object => [object]
        | none => carriedSince rows.route first.route since) := by
      simp [noteEntry,hfirst]
    rw [foldl_cons,hnote]
    exact ih (rooted_settleEntry h hfirst) hs

end Reconcile

namespace Reported

variable {s s' : Reported} {e : StoreEvent}

theorem rooted_step (h : ∀ id, Rooted (s.store.rows id) (s.since id)) (hs : s.step e = some s') :
    ∀ id, Rooted (s'.store.rows id) (s'.since id) := by
  cases hs
  intro id
  by_cases he : ∃ report, e = .reconcile report
  · obtain ⟨report,rfl⟩ := he
    simp only [sinceAfter,Store.exec]
    cases hr : reconcileSandboxesForNode s.store report with
    | error => exact h id
    | ok result =>
      have hrows := reconcile_rows hr id
      unfold settle at hrows
      split at hrows
      · rename_i hrep
        rw [if_pos hrep]
        exact rooted_entries (h id) hrows
      · rename_i hrep
        rw [if_neg hrep]
        have hrow := Except.ok.inj hrows
        show Rooted (result.store.rows id) _
        rw [← hrow]
        exact (h id).settleAbsent
  · have hne : ∀ report, e ≠ .reconcile report := fun report hr => he ⟨report,hr⟩
    have hsince : s.sinceAfter id e =
        carriedSince (s.store.rows id).route ((s.store.exec e).rows id).route (s.since id) := by
      cases e with
      | reconcile report => exact absurd rfl (hne report)
      | _ => rfl
    show Rooted ((s.store.exec e).rows id) (s.sinceAfter id e)
    rw [hsince]
    generalize (s.store.exec e).rows id = rows', (exec_written s.store hne id).row = hw
    cases hw with
    | refl => exact (h id).keep rfl
    | single hw => exact rooted_of_write hw hne (h id)

theorem rooted_of_reaches (h : Reaches step anyEvent (· = fresh) s) :
    ∀ id, Rooted (s.store.rows id) (s.since id) := by
  refine h.keeps (I := fun s => ∀ id, Rooted (s.store.rows id) (s.since id)) (fun id => ?_)
    fun s e s' hi _ hs => rooted_step hi hs
  exact .nil _

end Reported

open Reported

/-- The roots contain the descriptor of every stored route and active migration, and of every live
sandbox the last dependency reported or a descriptor carried since. -/
theorem storage_rooted {s : Reported} (h : Reaches step anyEvent (· = .fresh) s) (id : String) :
    (∀ route, s.store.getSandbox id = some route → route.snapshot.storageSnapshot.isEmpty = false →
      s.store.roots (.snapshot route.snapshot.storageSnapshot)) ∧
    (∀ m ∈ (s.store.rows id).activeMigrations, m.storageSnapshot.isEmpty = false →
      s.store.roots (.snapshot m.storageSnapshot)) ∧
    (s.since id ≠ [] → (s.store.getSandbox id).isSome ∧
      ∃ object ∈ s.since id, s.store.roots object) := by
  refine ⟨fun route hroute hs => ⟨id,?_⟩,fun m hm hs => ⟨id,?_⟩,fun hne => ?_⟩
  · refine mem_filter.mpr ⟨?_,by simp [DependencyObject.isEmpty,hs]⟩
    simp only [Store.rows_route,hroute]
    simp
  · refine mem_filter.mpr ⟨mem_append_right _ ?_,by simp [DependencyObject.isEmpty,hs]⟩
    exact mem_map_of_mem hm
  · obtain ⟨route,object,hroute,hmem,hempty,hrow⟩ := rooted_of_reaches h id hne
    rw [Store.rows_route] at hroute
    refine ⟨by simp [hroute],object,hmem,id,?_⟩
    refine mem_filter.mpr ⟨?_,by simp [hempty]⟩
    simp [hroute,hrow]

namespace Example

def runningRoute : SandboxRoute :=
  { sandboxId := "sandbox", node, resources := {}, state := .running, incarnation
    nodeEpoch := "boot-a", activityEpoch := 5 }

def lower : SnapshotReference := ⟨"sha256:lower","snapshots","lower"⟩

def reportLower : StoreEvent :=
  .reconcile
    { node, observedAt := none, nodeEpoch := "boot-a", activityEpoch := 6
      observations :=
        [{ sandboxId := "sandbox", incarnation, state := .running,
           storageDependency := some (.accepted lower) }] }

def publishPark : StoreEvent :=
  .setSandboxStateIfCurrent runningRoute [.running] .parked (some ⟨"boot-a",7⟩)
    { storageSnapshot := some (.descriptor snapshot) } none

def reported : List StoreEvent := [.upsertSandbox runningRoute true none,reportLower]

end Example

open Example

theorem storage_rooted_reported : ∃ s, Reaches step anyEvent (· = .fresh) s ∧
      s.since "sandbox" = [.publication lower] ∧ s.store.roots (.publication lower) := by
  obtain ⟨s,hr,hsince⟩ := Reaches.exists_from_run step .fresh reported
    (·.since "sandbox" = [.publication lower]) (by decide +kernel)
  obtain ⟨_,object,hmem,hroot⟩ := (storage_rooted hr "sandbox").2.2 (by simp [hsince])
  rw [hsince,mem_singleton] at hmem
  exact ⟨s,hr,hsince,hmem ▸ hroot⟩

theorem publication_mem {rows : SandboxRows} {p}
    (h : .publication p ∈ rows.storageSnapshotDependencies) :
    ∃ route, rows.route = some route ∧ ∃ g, rows.dependency = some ⟨g,.publication p⟩ := by
  have hmem := (mem_filter.mp h).1
  cases hroute : rows.route with
  | none => simp [hroute] at hmem
  | some route =>
    refine ⟨route,rfl,?_⟩
    cases hd : rows.dependency with
    | none => simp [hd] at hmem
    | some d =>
      obtain ⟨g,object⟩ := d
      have hobj : object = .publication p := by
        by_cases hg : g = route.incarnation.generation
        · simpa [hroute,hd,hg,eq_comm] using hmem
        · simp [hroute,hd,hg] at hmem
      exact ⟨g,by rw [hobj]⟩

/-- The publication of a park takes the place of the dependency that was reported. -/
theorem reported_dependency_replaced : ∃ s route, Reaches step anyEvent (· = .fresh) s ∧
      s.store.getSandbox "sandbox" = some route ∧ route.incarnation = incarnation ∧
      s.since "sandbox" = [.snapshot (.descriptor snapshot),.publication lower] ∧
      ¬ s.store.roots (.publication lower) := by
  obtain ⟨s,hr,hkeys,⟨route,hroute,hinc⟩,hsince,hrow⟩ := Reaches.exists_from_run step .fresh
    (reported ++ [publishPark]) (fun s => s.store.routes.keys = ["sandbox"] ∧
      (∃ route ∈ s.store.getSandbox "sandbox", route.incarnation = incarnation) ∧
      s.since "sandbox" = [.snapshot (.descriptor snapshot),.publication lower] ∧
      (s.store.rows "sandbox").dependency = some ⟨1,.snapshot (.descriptor snapshot)⟩)
    (by decide +kernel)
  refine ⟨s,route,hr,hroute,hinc,hsince,fun ⟨id,hroot⟩ => ?_⟩
  obtain ⟨other,hother,g,hdep⟩ := publication_mem hroot
  have hid : id = "sandbox" := by
    have hin : id ∈ s.store.routes := by
      by_contra hnot
      simp [Store.getSandbox,AList.lookup_eq_none.mpr hnot] at hother
    simpa [hkeys] using AList.mem_keys.mp hin
  subst hid
  simp [hrow] at hdep

end UCloudSandboxes.Routing
