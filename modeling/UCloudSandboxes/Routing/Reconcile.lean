import UCloudSandboxes.Routing.Inventory

/-! One reconciliation per sandbox: the fold of its own entries, or the absence rule. -/
namespace UCloudSandboxes.Routing
open Machine SandboxRows Reconciling Store List Except

variable {existing : SandboxRoute} {item : SandboxInventoryEntry}

theorem routeUpdateIsCurrent_iff {candidate allow} :
    routeUpdateIsCurrent existing candidate allow = true ↔
      sameSandboxRouteIncarnation existing candidate = true ∧
      (candidate.nodeEpoch ≠ "" → candidate.nodeEpoch ≠ existing.nodeEpoch → allow = true) ∧
      (candidate.nodeEpoch = existing.nodeEpoch →
        existing.activityEpoch ≤ candidate.activityEpoch) := by
  unfold routeUpdateIsCurrent
  by_cases hsame : sameSandboxRouteIncarnation existing candidate = true
  · by_cases heq : candidate.nodeEpoch = existing.nodeEpoch
    · simp [heq]
    · have hne : ¬ existing.nodeEpoch = candidate.nodeEpoch := fun h => heq h.symm
      by_cases hempty : candidate.nodeEpoch = ""
      · rw [hempty] at hne heq
        simp [hempty,hne]
      · simp [hempty,heq]
  · simp [hsame]

theorem observe_some {call c} (h : observe call existing item = .ok (some c)) :
    ∃ state published, item.state.routeState = some state ∧
      publishedSnapshot existing item = .ok published ∧
      c.val = inventoryCandidate call existing item state published ∧
      routeUpdateIsCurrent existing c.val false = true := by
  unfold observe at h
  split at h
  · cases h
  rename_i state hstate
  obtain ⟨published,hpub,h⟩ := ok_of_bind_ok h
  obtain ⟨candidate,hb,h⟩ := ok_of_bind_ok h
  split at h
  · cases h
  split at h
  · cases h
  rename_i hcur
  obtain rfl : candidate = c := by simpa using h
  exact ⟨state,published,hstate,hpub,build_ok hb,by simpa using hcur⟩

theorem observe_sandboxId {call c} (h : observe call existing item = .ok (some c)) :
    c.val.sandboxId = existing.sandboxId := by
  obtain ⟨_,_,_,_,hc,_⟩ := observe_some h
  rw [hc]
  rfl

theorem observe_kept {call c} (h : observe call existing item = .ok (some c)) :
    c.val.incarnation = existing.incarnation ∧ c.val.node = existing.node ∧
      item.incarnation = existing.incarnation ∧ call.node = existing.node ∧
      c.val.nodeEpoch = call.nodeEpoch ∧ c.val.activityEpoch = call.activityEpoch ∧
      c.val.updatedAt = call.observedAt ∧ c.val.workerState = existing.workerState := by
  obtain ⟨_,_,_,_,hc,hcur⟩ := observe_some h
  obtain ⟨-,hinc,hnode⟩ :=
    sameSandboxRouteIncarnation_iff.mp (routeUpdateIsCurrent_iff.mp hcur).1
  rw [hc] at hinc hnode ⊢
  exact ⟨hinc.symm,hnode.symm,hinc.symm,hnode.symm,rfl,rfl,rfl,rfl⟩

theorem accepted_none {call item route} (h : accepted call item route = .ok none) :
    ∀ existing, route = some existing → observe call existing item = .ok none := by
  rintro existing rfl
  unfold accepted at h
  dsimp only at h
  split at h
  · cases h
  · assumption
  · obtain ⟨_,-,⟨⟩⟩ := ok_of_map_ok h

theorem accepted_some {call item route e c d} (h : accepted call item route = .ok (some (e,c,d))) :
    route = some e ∧ observe call e item = .ok (some c) ∧ dependencyObject item = .ok d := by
  unfold accepted at h
  split at h
  · cases h
  split at h
  · cases h
  · cases h
  · obtain ⟨_,hd,⟨⟩⟩ := ok_of_map_ok h
    exact ⟨rfl,by assumption,hd⟩

namespace SandboxRows

variable (call : InventoryCall) (rows : SandboxRows)

/-- The rows after an accepted entry: a watermark touches the route row only. -/
def observed (existing candidate : SandboxRoute) : SandboxRows :=
  if onlyWatermark existing candidate then { rows with route := some candidate }
  else rows.writeSandbox candidate

def settleEntry (item : SandboxInventoryEntry) : Except Raised SandboxRows :=
  (accepted call item rows.route).map fun
    | none => rows
    | some (existing,candidate,object) =>
      object.elim (rows.observed existing candidate.val) fun object =>
        (rows.observed existing candidate.val).writeStorageDependency
          ⟨candidate.val.incarnation.generation,object⟩

def settleAbsent : SandboxRows :=
  match rows.route with
  | none => rows
  | some route =>
    if route.node.nodeUrl = call.node.nodeUrl && !absenceKeeps call route then
      rows.ownerLost call.observedAt route
    else rows

def settle (own : List SandboxInventoryEntry) (reported : Bool) (rows : SandboxRows)
    : Except Raised SandboxRows :=
  if reported then own.foldlM (settleEntry call) rows else .ok (rows.settleAbsent call)

theorem observed_route (existing candidate) :
    (rows.observed existing candidate).route = some candidate := by
  unfold observed
  split <;> rfl

variable {call rows} in
theorem settleEntry_cases {rows' item} (h : rows.settleEntry call item = .ok rows') :
    (rows' = rows ∧ ∀ existing, rows.route = some existing → observe call existing item = .ok none) ∨
    ∃ existing c d, rows.route = some existing ∧ observe call existing item = .ok (some c) ∧
      dependencyObject item = .ok d ∧ rows' = d.elim (rows.observed existing c.val) fun object =>
        (rows.observed existing c.val).writeStorageDependency ⟨c.val.incarnation.generation,object⟩ := by
  obtain ⟨a,ha,rfl⟩ := ok_of_map_ok h
  cases a with
  | none => exact .inl ⟨rfl,accepted_none ha⟩
  | some a =>
    obtain ⟨hroute,ho,hd⟩ := accepted_some ha
    exact .inr ⟨_,_,_,hroute,ho,hd,rfl⟩

end SandboxRows

structure OwnRows where
  rows : SandboxRows
  existing : Option SandboxRoute
  touched : Bool
  dependencies : List StorageDependency

namespace OwnRows

def accept (o : OwnRows) (existing candidate : SandboxRoute) : OwnRows :=
  { o with
    rows := if onlyWatermark existing candidate then o.rows else o.rows.writeSandbox candidate
    existing := some candidate
    touched := onlyWatermark existing candidate || o.touched }

def gather (o : OwnRows) (unique : Bool) (d : StorageDependency) : OwnRows :=
  if unique then { o with dependencies := o.dependencies ++ [d] }
  else { o with
    rows := (o.dependencies ++ [d]).foldl writeStorageDependency o.rows
    dependencies := [] }

def observeEntry (call : InventoryCall) (unique : Bool) (o : OwnRows) (item : SandboxInventoryEntry) :
    Except Raised OwnRows :=
  (accepted call item o.existing).map fun
    | none => o
    | some (existing,candidate,object) =>
      object.elim (o.accept existing candidate.val) fun object =>
        (o.accept existing candidate.val).gather unique ⟨candidate.val.incarnation.generation,object⟩

end OwnRows

namespace Reconciling

variable (t : Reconciling)

def own (id : String) : OwnRows where
  rows := t.store.rows id
  existing := t.existingById id
  touched := decide (id ∈ t.touchedIds)
  dependencies := (itemsOf Prod.fst id t.dependencies).map Prod.snd

/-- Without unique ids no dependency row waits between two entries. -/
def Flushed (unique : Bool) (t : Reconciling) : Prop := unique = false → t.dependencies = []

theorem own_accept (existing c) : (t.accept existing c).own c.val.sandboxId =
      (t.own c.val.sandboxId).accept existing c.val := by
  unfold own accept OwnRows.accept
  by_cases hw : onlyWatermark existing c.val = true
  · simp [hw]
  · simp [hw]

theorem own_accept_ne (existing c) {k} (hk : k ≠ c.val.sandboxId) :
    (t.accept existing c).own k = t.own k := by
  unfold own accept
  by_cases hw : onlyWatermark existing c.val = true
  · simp [hw,hk]
  · simp [hw,hk,rows_writeSandbox_ne _ _ hk]

theorem rows_writeDependencies (k) : t.writeDependencies.store.rows k =
      (t.own k).dependencies.foldl writeStorageDependency (t.own k).rows := by
  have h := foldl_own Prod.fst rows
    (fun store d => store.writeStorageDependency d.1 d.2)
    (fun rows d => rows.writeStorageDependency d.2)
    (fun store d => rows_put ..) (fun store d k => rows_put_ne _ _ _)
    t.dependencies t.store k
  simpa [writeDependencies,own,foldl_map] using h

theorem own_writeDependencies (k) : t.writeDependencies.own k = { t.own k with
        rows := (t.own k).dependencies.foldl writeStorageDependency (t.own k).rows
        dependencies := [] } := by
  rw [← rows_writeDependencies]
  rfl

private theorem own_append (id k d) : own { t with dependencies := t.dependencies ++ [(id,d)] } k =
      { t.own k with dependencies := (t.own k).dependencies ++ if id = k then [d] else [] } := by
  by_cases h : id = k <;> simp [own,itemsOf,h]

theorem own_gather (unique id d) : (t.gather unique id d).own id = (t.own id).gather unique d := by
  cases unique with
  | true => simp [gather,OwnRows.gather,own_append]
  | false => simp [gather,OwnRows.gather,own_writeDependencies,own_append]

theorem own_gather_ne {t unique} (hf : Flushed unique t) {id k} (d) (hk : k ≠ id) :
    (t.gather unique id d).own k = t.own k := by
  cases unique with
  | true => simp [gather,own_append,hk.symm]
  | false =>
    have hnone : (t.own k).dependencies = [] := by simp [own,hf rfl]
    simp [gather,own_writeDependencies,own_append,hk.symm,hnone]
    exact hnone ▸ rfl

theorem accepted_id {call item e c d}
    (h : accepted call item (t.existingById item.sandboxId) = .ok (some (e,c,d))) :
    c.val.sandboxId = item.sandboxId := by
  obtain ⟨he,ho,-⟩ := accepted_some h
  exact (observe_sandboxId ho).trans (t.keyed _ _ he)

theorem observeEntry_ownKey (call) (unique) :
    OwnKey (Flushed unique) SandboxInventoryEntry.sandboxId own (observeEntry call unique)
      (OwnRows.observeEntry call unique) where
  keep := by
    intro t item t' hf h
    obtain ⟨a,-,rfl⟩ := ok_of_map_ok h
    obtain _ | ⟨e,c,_ | object⟩ := a
    · exact hf
    · exact hf
    · rintro rfl
      rfl
  self := by
    intro t item hf
    have hexi : (t.own item.sandboxId).existing = t.existingById item.sandboxId := rfl
    unfold observeEntry OwnRows.observeEntry
    rw [hexi]
    cases ha : accepted call item (t.existingById item.sandboxId) with
    | error => rfl
    | ok a =>
      obtain _ | ⟨e,c,object⟩ := a
      · rfl
      have hid := accepted_id t ha
      cases object with
      | none => simp only [Except.map,Option.elim,← hid,own_accept]
      | some => simp only [Except.map,Option.elim,← hid,own_gather,own_accept]
  other := by
    intro t item t' k hf h hk
    obtain ⟨a,ha,rfl⟩ := ok_of_map_ok h
    obtain _ | ⟨e,c,object⟩ := a
    · rfl
    rw [← accepted_id t ha] at hk
    cases object with
    | none => exact own_accept_ne t e c hk
    | some =>
      have hf' : Flushed unique (t.accept e c) := hf
      exact (own_gather_ne hf' _ hk).trans (own_accept_ne t e c hk)

end Reconciling

namespace SandboxRows

def touch (call : InventoryCall) (rows : SandboxRows) : SandboxRows :=
  { rows with
    route := rows.route.map call.watermark }

theorem touch_touch (call) (rows : SandboxRows) : (rows.touch call).touch call = rows.touch call := by
  cases h : rows.route <;> simp [touch,InventoryCall.watermark,h]

theorem touch_watermark {call} {rows : SandboxRows} {existing c} (hroute : rows.route = some existing)
    (hw : onlyWatermark existing c = true) (ha : c.activityEpoch = call.activityEpoch)
    (hu : c.updatedAt = call.observedAt) : rows.touch call = { rows with route := some c } := by
  have hc : { c with activityEpoch := existing.activityEpoch, updatedAt := existing.updatedAt } =
      existing := by simpa [onlyWatermark] using hw
  have hroute' : rows.route.map call.watermark = some c := by
    rw [hroute,← hc,Option.map_some,InventoryCall.watermark,← ha,← hu]
  simp only [touch,hroute']

end SandboxRows

namespace OwnRows

def finish (call : InventoryCall) (o : OwnRows) : SandboxRows :=
  let written := o.dependencies.foldl writeStorageDependency o.rows
  if o.touched then written.touch call else written

structure Represents (call : InventoryCall) (o : OwnRows) (rows : SandboxRows) : Prop where
  existing : o.existing = rows.route
  finish : o.finish call = rows

theorem finish_accept {call o rows} (hr : Represents call o rows)
    (hd : o.dependencies = []) {existing c} (hroute : rows.route = some existing)
    (ha : c.activityEpoch = call.activityEpoch) (hu : c.updatedAt = call.observedAt) :
    (o.accept existing c).finish call = rows.observed existing c := by
  have hfin := hr.finish
  simp only [finish,hd,foldl_nil] at hfin
  by_cases hw : onlyWatermark existing c = true
  · have htouch : o.rows.touch call = rows.touch call := by
      rw [← hfin]
      split
      · rw [touch_touch]
      · rfl
    simp only [finish,accept,hd,hw,observed,foldl_nil,Bool.true_or,if_true]
    rw [htouch,touch_watermark hroute hw ha hu]
  · have hwrite : o.rows.writeSandbox c = rows.writeSandbox c := by
      rw [← hfin]
      split <;> rfl
    have htouch : (rows.writeSandbox c).touch call = rows.writeSandbox c := by
      simp [touch,InventoryCall.watermark,SandboxRows.writeSandbox,← ha,← hu]
    simp [finish,accept,hd,hw,observed,hwrite,htouch]

theorem finish_gather (call) (o : OwnRows) (unique d) :
    (o.gather unique d).finish call = (o.finish call).writeStorageDependency d := by
  cases unique <;> cases ht : o.touched <;> simp [gather,finish,ht] <;> rfl

theorem observeEntry_represents {call o rows} (hr : Represents call o rows) (hd : o.dependencies = [])
    (unique) (item) :
    (∃ e, o.observeEntry call unique item = .error e ∧ rows.settleEntry call item = .error e) ∨
    ∃ o' rows', o.observeEntry call unique item = .ok o' ∧ rows.settleEntry call item = .ok rows' ∧
      Represents call o' rows' ∧ (unique = false → o'.dependencies = []) := by
  unfold observeEntry settleEntry
  rw [hr.existing]
  cases ha : accepted call item rows.route with
  | error e => exact .inl ⟨e,rfl,rfl⟩
  | ok a =>
    obtain _ | ⟨existing,c,object⟩ := a
    · exact .inr ⟨o,rows,rfl,rfl,hr,fun _ => hd⟩
    obtain ⟨hroute,ho,-⟩ := accepted_some ha
    obtain ⟨-,-,-,-,-,hact,hu,-⟩ := observe_kept ho
    have hacc := finish_accept hr hd hroute hact hu
    have hroute' := rows.observed_route existing c.val
    cases object with
    | none => exact .inr ⟨_,_,rfl,rfl,⟨hroute'.symm,hacc⟩,fun _ => hd⟩
    | some object =>
      have hgat := finish_gather call (o.accept existing c.val) unique
        ⟨c.val.incarnation.generation,object⟩
      rw [hacc] at hgat
      refine .inr ⟨_,_,rfl,rfl,⟨?_,hgat⟩,?_⟩
      · dsimp only [Option.elim]
        rw [writeStorageDependency_route,hroute']
        cases unique <;> rfl
      · rintro rfl
        rfl

theorem foldlM_represents {call unique} {items : List SandboxInventoryEntry}
    (hitems : unique = true → items.length ≤ 1) {o rows}
    (hr : Represents call o rows) (hd : o.dependencies = []) :
    (∃ e, items.foldlM (observeEntry call unique) o = .error e ∧
      items.foldlM (settleEntry call) rows = .error e) ∨
    ∃ o' rows', items.foldlM (observeEntry call unique) o = .ok o' ∧
      items.foldlM (settleEntry call) rows = .ok rows' ∧ Represents call o' rows' := by
  induction items generalizing o rows with
  | nil => exact .inr ⟨o,rows,rfl,rfl,hr⟩
  | cons item items ih =>
    simp only [foldlM_cons]
    rcases observeEntry_represents hr hd unique item with ⟨e,ho,hs⟩ | ⟨o₁,rows₁,ho,hs,hr₁,hd₁⟩
    · exact .inl ⟨e,by rw [ho]; rfl,by rw [hs]; rfl⟩
    rw [ho,hs]
    cases unique with
    | false => exact ih (by simp) hr₁ (hd₁ rfl)
    | true =>
      obtain rfl : items = [] := by simpa using hitems rfl
      exact .inr ⟨o₁,rows₁,rfl,rfl,hr₁⟩

end OwnRows

theorem rows_absent (store : Store) (call reported id) :
    ((store.absentRoutes call reported).foldl (settleOwnerLost call.observedAt) store).rows id =
      if reported.contains id then store.rows id else (store.rows id).settleAbsent call := by
  have habsent : store.absentRoutes call reported = store.sandboxes.filter fun route =>
      !absenceKeeps call route && (route.node.nodeUrl = call.node.nodeUrl &&
        !reported.contains route.sandboxId) := by
    simp only [absentRoutes,sandboxRoutesForNodeUrl,filter_filter]
  rw [habsent,rows_settleOwnerLost]
  unfold settleAbsent
  rw [rows_route]
  cases hroute : store.getSandbox id with
  | none => simp
  | some route =>
    simp only [store.getSandbox_id hroute]
    cases reported.contains id with
    | true => simp
    | false =>
      cases absenceKeeps call route with
      | true => simp
      | false =>
        by_cases hurl : route.node.nodeUrl = call.node.nodeUrl
        · simp
        · simp

theorem rows_touchSandbox (call) (store : Store) (id) :
    (store.touchSandbox call id).rows id = (store.rows id).touch call := by
  unfold touchSandbox touch
  split
  · rename_i h
    simp [rows,getSandbox] at h ⊢
    simp [h]
  · rename_i route h
    refine (rows_put ..).trans ?_
    rw [rows_route,h]
    rfl

theorem rows_touched (call) (ids : List String) (store id) :
    (ids.foldl (touchSandbox call) store).rows id =
      if id ∈ ids then (store.rows id).touch call else store.rows id := by
  have hne (store : Store) (id k) (hk : k ≠ id) : (store.touchSandbox call id).rows k = store.rows k := by
    unfold touchSandbox
    split
    · rfl
    · exact rows_put_ne _ _ _ hk
  rw [foldl_own (fun id => id) rows _ (fun rows _ => rows.touch call) (rows_touchSandbox call) hne]
  have hfold : ∀ (l : List String) (rows : SandboxRows),
      l.foldl (fun rows _ => rows.touch call) rows = if l = [] then rows else rows.touch call := by
    intro l
    induction l with
    | nil => intro rows; rfl
    | cons a l ih =>
      intro rows
      rw [foldl_cons,ih]
      split <;> simp [touch_touch]
  rw [hfold]
  by_cases hid : id ∈ ids
  · rw [if_pos hid,if_neg fun hnil => ?_]
    exact absurd (mem_itemsOf.mpr ⟨hid,rfl⟩) (hnil ▸ not_mem_nil)
  · rw [if_neg hid,if_pos]
    exact filter_eq_nil_iff.mpr fun a ha hk => hid ((by simpa using hk : a = id) ▸ ha)

def InventoryReport.own (report : InventoryReport) (id : String) : List SandboxInventoryEntry :=
  itemsOf SandboxInventoryEntry.sandboxId id report.observations

private theorem loop_own (store) (report : InventoryReport) (id) :
    let ids := report.observations.map (·.sandboxId)
    (∃ e, (report.own id).foldlM (OwnRows.observeEntry report.toInventoryCall (decide ids.Nodup))
        ((start store ids).own id) = .error e ∧
      (report.own id).foldlM (settleEntry report.toInventoryCall) (store.rows id) = .error e) ∨
    ∃ o rows, (report.own id).foldlM (OwnRows.observeEntry report.toInventoryCall (decide ids.Nodup))
        ((start store ids).own id) = .ok o ∧
      (report.own id).foldlM (settleEntry report.toInventoryCall) (store.rows id) =
        .ok rows ∧ o.finish report.toInventoryCall = rows := by
  intro ids
  by_cases hid : id ∈ ids
  · have huni : decide ids.Nodup = true → (report.own id).length ≤ 1 := fun h =>
      itemsOf_length_le_one (by simpa using h) id
    have hstart : OwnRows.Represents report.toInventoryCall ((start store ids).own id) (store.rows id) :=
      ⟨by simp [own,start,hid],by simp [own,start,OwnRows.finish]⟩
    rcases OwnRows.foldlM_represents huni hstart rfl with herr | ⟨o,rows,ho,hs,hr⟩
    · exact .inl herr
    · exact .inr ⟨o,rows,ho,hs,hr.finish⟩
  · have hnone : report.own id = [] := filter_eq_nil_iff.mpr fun item hitem h =>
      hid (mem_map.mpr ⟨item,hitem,by simpa using h⟩)
    rw [hnone]
    exact .inr ⟨_,_,rfl,rfl,by simp [OwnRows.finish,own,start]⟩

private theorem rows_after_loop (looped : Reconciling) (report : InventoryReport) (id)
    (hrep : report.reportedIds.contains id = true ∨
      ((looped.own id).touched = false ∧ (looped.own id).dependencies = [])) :
    (looped.writeDependencies.touchedIds.foldl (touchSandbox report.toInventoryCall)
      ((looped.writeDependencies.store.absentRoutes report.toInventoryCall report.reportedIds).foldl
        (settleOwnerLost report.observedAt) looped.writeDependencies.store)).rows id =
      if report.reportedIds.contains id then (looped.own id).finish report.toInventoryCall
      else (looped.own id).rows.settleAbsent report.toInventoryCall := by
  have htou : decide (id ∈ looped.touchedIds) = (looped.own id).touched := rfl
  have hids : looped.writeDependencies.touchedIds = looped.touchedIds := rfl
  have habsent := rows_absent looped.writeDependencies.store report.toInventoryCall
  rw [rows_touched,habsent,rows_writeDependencies,hids]
  by_cases hid : report.reportedIds.contains id = true
  · simp only [hid,if_true,OwnRows.finish,← htou,decide_eq_true_eq]
  obtain ⟨ht,hd⟩ := hrep.resolve_left hid
  have hnot : ¬ id ∈ looped.touchedIds := by
    intro hmem
    rw [← htou,decide_eq_true hmem] at ht
    cases ht
  rw [if_neg hnot,if_neg hid,if_neg hid,hd]
  rfl

private theorem flushed_start (store ids unique) :
    Reconciling.Flushed unique (start store ids) := fun _ => rfl

theorem reconcile_rows {store report result}
    (h : reconcileSandboxesForNode store report = .ok result) (id) :
    (store.rows id).settle report.toInventoryCall (report.own id) (report.reportedIds.contains id) =
      .ok (result.store.rows id) := by
  unfold reconcileSandboxesForNode at h
  split at h
  · cases h
  obtain ⟨looped,hloop,⟨⟩⟩ := ok_of_bind_ok h
  have hown := (observeEntry_ownKey report.toInventoryCall _).foldlM_ok
    (flushed_start store _ _) hloop id
  unfold settle
  rcases loop_own store report id with ⟨e,herr,-⟩ | ⟨o,rows,ho,hs,hfin⟩
  · rw [InventoryReport.own,hown] at herr
    cases herr
  · obtain rfl : looped.own id = o := by
      rw [InventoryReport.own,hown] at ho
      exact ok.inj ho
    by_cases hrep : report.reportedIds.contains id = true
    · rw [if_pos hrep,hs,rows_after_loop looped report id (.inl hrep),if_pos hrep,hfin]
    have hnil : report.own id = [] := filter_eq_nil_iff.mpr fun item hitem hid =>
      hrep (contains_iff_mem.mpr (mem_append_right _ (mem_map.mpr ⟨item,hitem,by simpa using hid⟩)))
    rw [InventoryReport.own] at hnil
    rw [hnil] at hown
    have hstart : own (start store _) id = looped.own id :=
      ok.inj hown
    rw [if_neg hrep,rows_after_loop looped report id (.inr (hstart ▸ ⟨rfl,rfl⟩)),if_neg hrep,
      ← hstart]
    rfl

theorem reconcile_isOk_iff {store report} :
    (∃ result, reconcileSandboxesForNode store report = .ok result) ↔
      report.exact = true ∧ ∀ id, ∃ rows,
        (report.own id).foldlM (settleEntry report.toInventoryCall) (store.rows id) = .ok rows := by
  have hloop := (observeEntry_ownKey report.toInventoryCall
    (decide (report.observations.map (·.sandboxId)).Nodup)).foldlM_isOk_iff report.observations
      (flushed_start store (report.observations.map (·.sandboxId)) _)
  have hown : (∀ id, ∃ o, (itemsOf SandboxInventoryEntry.sandboxId id report.observations).foldlM
      (OwnRows.observeEntry report.toInventoryCall
        (decide (report.observations.map (·.sandboxId)).Nodup))
      ((start store (report.observations.map (·.sandboxId))).own id) = .ok o) ↔
      ∀ id, ∃ rows,
        (report.own id).foldlM (settleEntry report.toInventoryCall) (store.rows id) = .ok rows := by
    refine forall_congr' fun id => ?_
    rcases loop_own store report id with ⟨e,ho,hs⟩ | ⟨o,rows,ho,hs,-⟩
    · rw [InventoryReport.own] at ho hs ⊢
      rw [ho,hs]
      simp
    · rw [InventoryReport.own] at ho hs ⊢
      rw [ho,hs]
      simp
  rw [← hown,← hloop]
  unfold reconcileSandboxesForNode
  by_cases hexact : report.exact = true
  · rw [if_neg (by simp [hexact])]
    dsimp only
    constructor
    · rintro ⟨result,hr⟩
      obtain ⟨looped,heq,-⟩ := ok_of_bind_ok hr
      exact ⟨hexact,looped,heq⟩
    · rintro ⟨-,looped,heq⟩
      rw [heq]
      exact ⟨_,rfl⟩
  · simp [hexact]

end UCloudSandboxes.Routing
