import UCloudSandboxes.Routing.Freshness

namespace UCloudSandboxes.Routing
open Machine SandboxInventoryEntry SandboxRows Bool

def offered (call : InventoryCall) (route : SandboxRoute) (item : SandboxInventoryEntry) :
    SandboxRoute :=
  { route with
    node := call.node
    incarnation := item.incarnation
    nodeEpoch := call.nodeEpoch
    activityEpoch := call.activityEpoch }

namespace SandboxInventoryEntry

variable (item : SandboxInventoryEntry)

def dependencyRefused : Bool :=
  match item.storageDependency with
  | some (.valueError _) | some (.typeError _) => true
  | _ => false

/-- The descriptor parser fails with something else than the `ValueError` the loop expects. -/
def descriptorUnforeseen : Bool :=
  match item.storageSnapshot with
  | .typeError _ => true
  | _ => false

/-- The entry ends the transaction: it reports a detaching or detached sandbox running, its
descriptor breaks the parser, or it is current with a refused dependency. -/
def breaks (call : InventoryCall) (route : SandboxRoute) (item : SandboxInventoryEntry) : Bool :=
  match item.state with
  | .other _ => false
  | .running => route.workerState ≠ .attached ||
      (routeUpdateIsCurrent route (offered call route item) false && item.dependencyRefused)
  | .parked => (item.incarnation = route.incarnation && item.descriptorUnforeseen) ||
      (routeUpdateIsCurrent route (offered call route item) false && item.dependencyRefused)

end SandboxInventoryEntry

section Observe

variable {call : InventoryCall} {route : SandboxRoute} {item : SandboxInventoryEntry}

theorem routeUpdateIsCurrent_candidate (state published) :
    routeUpdateIsCurrent route (inventoryCandidate call route item state published) false =
      routeUpdateIsCurrent route (offered call route item) false := rfl

theorem observe_of_built {state published c} (hstate : item.state.routeState = some state)
    (hpub : publishedSnapshot route item = .ok published)
    (hb : (inventoryCandidate call route item state published).build = .ok c) :
    observe call route item =
      .ok (if routeUpdateIsCurrent route (offered call route item) false then some c else none) := by
  have hc := build_ok hb
  unfold observe
  rw [hstate,hpub]
  dsimp only [bind,Except.bind]
  rw [hb]
  dsimp only
  rw [hc,routeUpdateIsCurrent_candidate]
  by_cases hcur : routeUpdateIsCurrent route (offered call route item) false = true
  · have hgen : item.incarnation.generation = route.incarnation.generation :=
      congrArg Incarnation.generation
        (sameSandboxRouteIncarnation_iff.mp (routeUpdateIsCurrent_iff.mp hcur).1).2.1.symm
    rw [if_neg (by simpa [inventoryCandidate] using hgen),hcur]
    rfl
  · have hfalse : routeUpdateIsCurrent route (offered call route item) false = false := by
      simpa using hcur
    rw [hfalse]
    simp

theorem observe_running (call route) (h : item.state = .running) :
    (route.workerState = .attached ∧ ∃ c, observe call route item =
      .ok (if routeUpdateIsCurrent route (offered call route item) false then some c else none)) ∨
    (route.workerState ≠ .attached ∧ ∃ e, observe call route item = .error e) := by
  have hstate : item.state.routeState = some .running := by rw [h]; rfl
  have hpub : publishedSnapshot route item = .ok none := by simp [publishedSnapshot,h]
  by_cases hatt : route.workerState = .attached
  · have hvalid : (inventoryCandidate call route item .running none).valid = true :=
      valid_of_attached hatt
    exact .inl ⟨hatt,_,observe_of_built hstate hpub (build_of_valid hvalid)⟩
  · refine .inr ⟨hatt,?_⟩
    have hinv : ¬ (inventoryCandidate call route item .running none).valid = true := by
      simp [SandboxRoute.valid,inventoryCandidate,isPortableParkedRoute,hatt]
    unfold observe
    rw [hstate,hpub]
    dsimp only [bind,Except.bind]
    rw [SandboxRoute.build,dif_neg hinv]
    exact ⟨_,rfl⟩

theorem routeWithInventorySnapshot_ok {v} (h : routeWithInventorySnapshot route item = .ok v) :
    { route with snapshot := v.val.snapshot }.valid = true := by
  have hval : v.val = { route with snapshot := v.val.snapshot } := by
    obtain ⟨-,h⟩ := of_guard h nofun
    obtain ⟨-,h⟩ := of_guard h nofun
    split at h
    · cases h
    split at h
    · cases h
    · rw [build_ok h]
  rw [← hval]
  exact v.property

theorem routeWithInventorySnapshot_typeError (hstate : item.state = .parked)
    (hid : item.sandboxId = route.sandboxId) :
    (∃ message, routeWithInventorySnapshot route item = .error (.typeError message)) ↔
      item.incarnation = route.incarnation ∧ item.descriptorUnforeseen = true := by
  unfold routeWithInventorySnapshot descriptorUnforeseen
  by_cases hinc : item.incarnation = route.incarnation
  · rw [if_neg (by simp [hid, hinc]),if_neg (by simp [hstate])]
    cases item.storageSnapshot with
    | empty | valueError => simp [Offered.parse]
    | typeError => simp [Offered.parse,hinc]
    | accepted =>
      refine iff_of_false ?_ (by simp)
      rintro ⟨message,h⟩
      dsimp only [Offered.parse] at h
      split at h
      · cases h
      · unfold SandboxRoute.build at h
        split at h <;> cases h
  · simp [hinc]

theorem publishedSnapshot_parked (hstate : item.state = .parked)
    (hid : item.sandboxId = route.sandboxId) :
    (¬ (item.incarnation = route.incarnation ∧ item.descriptorUnforeseen = true) ∧
      ∃ published, publishedSnapshot route item = .ok published ∧
        ∀ columns, published = some columns → { route with snapshot := columns }.valid = true) ∨
    ((item.incarnation = route.incarnation ∧ item.descriptorUnforeseen = true) ∧
      ∃ e, publishedSnapshot route item = .error e) := by
  have hbad := routeWithInventorySnapshot_typeError hstate hid
  unfold publishedSnapshot
  by_cases hempty : item.storageSnapshot.isEmpty = true
  · have hfor : item.descriptorUnforeseen = false := by
      unfold descriptorUnforeseen
      cases hs : item.storageSnapshot <;> simp_all [Offered.isEmpty]
    exact .inl ⟨by simp [hfor],none,by simp [hempty],nofun⟩
  · rw [if_pos (by simp [hstate, hempty])]
    cases hr : routeWithInventorySnapshot route item with
    | ok =>
      refine .inl ⟨fun hb => ?_,_,rfl,fun columns hc => ?_⟩
      · obtain ⟨message,hm⟩ := hbad.mpr hb
        rw [hr] at hm
        cases hm
      · cases hc
        exact routeWithInventorySnapshot_ok hr
    | error e =>
      cases e with
      | valueError =>
        refine .inl ⟨fun hb => ?_,none,rfl,nofun⟩
        obtain ⟨_,hm⟩ := hbad.mpr hb
        rw [hr] at hm
        cases hm
      | typeError message => exact .inr ⟨hbad.mp ⟨message,hr⟩,_,rfl⟩

theorem candidate_parked_valid (hvalid : route.valid = true) {published}
    (hpub : ∀ columns, published = some columns → { route with snapshot := columns }.valid = true) :
    (inventoryCandidate call route item .parked published).valid = true := by
  unfold SandboxRoute.valid inventoryCandidate isPortableParkedRoute at *
  cases published with
  | none =>
    simp only [or_eq_true,and_eq_true,decide_eq_true_eq] at hvalid ⊢
    exact hvalid.imp_right fun h => ⟨trivial,by simpa using h.2⟩
  | some columns =>
    have h := hpub columns rfl
    simp only [or_eq_true,and_eq_true,decide_eq_true_eq] at h ⊢
    exact h.imp_right fun h => ⟨trivial,by simpa using h.2⟩

theorem dependencyObject_isOk :
    (∃ object, dependencyObject item = .ok object) ↔ item.dependencyRefused = false := by
  unfold dependencyObject dependencyRefused
  cases item.storageDependency with
  | none => simp
  | some offered => cases offered <;> simp [Offered.parse,Except.map]

end Observe

section Settle

variable {call : InventoryCall} {rows rows' : SandboxRows} {route : SandboxRoute}
variable {item : SandboxInventoryEntry}

private theorem settleEntry_observed (hroute : rows.route = some route) {c current}
    (ho : observe call route item = .ok (if current then some c else none)) :
    (∃ rows', rows.settleEntry call item = .ok rows') ↔
      (current && item.dependencyRefused) = false := by
  unfold settleEntry accepted
  rw [hroute]
  dsimp only
  rw [ho]
  cases current with
  | false => simp [Except.map]
  | true =>
    rw [Bool.true_and,← dependencyObject_isOk]
    cases dependencyObject item <;> simp [Except.map]

private theorem settleEntry_raised (hroute : rows.route = some route) {e}
    (ho : observe call route item = .error e) : ¬ ∃ rows', rows.settleEntry call item = .ok rows' := by
  simp [settleEntry,accepted,hroute,ho,Except.map]

theorem settleEntry_isOk_iff (call) (hroute : rows.route = some route) (hvalid : route.valid = true)
    (hid : item.sandboxId = route.sandboxId) :
    (∃ rows', rows.settleEntry call item = .ok rows') ↔ item.breaks call route = false := by
  unfold breaks
  cases hstate : item.state with
  | other =>
    have ho : observe call route item = .ok none := by
      unfold observe
      rw [hstate]
      rfl
    simp [settleEntry,accepted,hroute,ho,Except.map]
  | running =>
    rcases observe_running call route hstate with
      ⟨hatt,c,ho⟩ | ⟨hdet,e,ho⟩
    · rw [settleEntry_observed hroute ho]
      simp [hatt]
    · exact iff_of_false (settleEntry_raised hroute ho) (by simp [hdet])
  | parked =>
    have hpk : item.state.routeState = some .parked := by rw [hstate]; rfl
    rcases publishedSnapshot_parked hstate hid with ⟨hok,_,hpub,hcol⟩ | ⟨⟨hinc,hbad⟩,e,hpub⟩
    · rw [settleEntry_observed hroute (observe_of_built hpk hpub
        (build_of_valid (candidate_parked_valid hvalid hcol)))]
      have hfor : (decide (item.incarnation = route.incarnation) &&
          item.descriptorUnforeseen) = false := by
        rw [and_eq_false_iff]
        by_cases hinc : item.incarnation = route.incarnation
        · exact .inr (by simpa [hinc] using hok)
        · exact .inl (by simpa using hinc)
      rw [hfor,Bool.false_or]
    · refine iff_of_false (settleEntry_raised (e := e) hroute ?_) (by simp [hinc,hbad])
      unfold observe
      rw [hpk,hpub]
      rfl

theorem current_offered_iff {other} :
    routeUpdateIsCurrent route (offered call route other) false = true ↔
      (route.incarnation = other.incarnation ∧ route.node = call.node) ∧
      (call.nodeEpoch ≠ "" → call.nodeEpoch = route.nodeEpoch) ∧
      (call.nodeEpoch = route.nodeEpoch → route.activityEpoch ≤ call.activityEpoch) := by
  rw [routeUpdateIsCurrent_iff,sameSandboxRouteIncarnation_iff]
  simp [offered]

theorem breaks_of_observed {c} (ho : observe call route item = .ok (some c))
    (other : SandboxInventoryEntry) : other.breaks call c.val = other.breaks call route := by
  obtain ⟨hinc,hnode,-,-,hepoch,hact,-,hwor⟩ := observe_kept ho
  obtain ⟨_,_,_,_,_,hcur⟩ := observe_some ho
  obtain ⟨-,hadopt,hle⟩ := routeUpdateIsCurrent_iff.mp hcur
  have hfresh : routeUpdateIsCurrent c.val (offered call c.val other) false =
      routeUpdateIsCurrent route (offered call route other) false := by
    rw [Bool.eq_iff_iff,current_offered_iff,current_offered_iff,hinc,hnode,hepoch,hact]
    rw [hepoch] at hadopt hle
    rw [hact] at hle
    refine and_congr_right fun _ => iff_of_true ⟨fun _ => rfl,fun _ => Nat.le_refl _⟩ ⟨fun hne => ?_,hle⟩
    by_contra hother
    cases hadopt hne hother
  unfold breaks
  rw [hfresh,hinc,hwor]

theorem foldlM_settleEntry_isOk_iff {items : List SandboxInventoryEntry}
    (hroute : rows.route = some route) (hvalid : route.valid = true)
    (hid : ∀ item ∈ items, item.sandboxId = route.sandboxId) :
    (∃ rows', items.foldlM (settleEntry call) rows = .ok rows') ↔
      ∀ item ∈ items, item.breaks call route = false := by
  induction items generalizing rows route with
  | nil => exact iff_of_true ⟨rows,rfl⟩ (by simp)
  | cons item items ih =>
    have hitem := settleEntry_isOk_iff call hroute hvalid (hid item (by simp))
    have hrest : ∀ i ∈ items, i.sandboxId = route.sandboxId := fun i hi => hid i (by simp [hi])
    rw [List.forall_mem_cons,List.foldlM_cons,← hitem]
    cases hs : rows.settleEntry call item with
    | error =>
      refine iff_of_false ?_ (fun h => ?_)
      · rintro ⟨_,h⟩
        cases h
      · obtain ⟨_,h⟩ := h.1
        cases h
    | ok rows₁ =>
      have hfold : (∃ rows', items.foldlM (settleEntry call) rows₁ = .ok rows') ↔
          ∀ i ∈ items, i.breaks call route = false := by
        rcases settleEntry_ok hs with rfl | ⟨existing,c,hexi,ho,hc⟩
        · exact ih hroute hvalid hrest
        cases hexi.symm.trans hroute
        have hcid := observe_sandboxId ho
        rw [ih hc c.property fun i hi => (hrest i hi).trans hcid.symm]
        simp only [breaks_of_observed ho]
      exact hfold.trans ⟨fun h => ⟨⟨rows₁,rfl⟩,h⟩,And.right⟩

end Settle

/-- A reconciliation returns, and leaves each sandbox what its own entries and rows determine,
exactly when the inventory names its worker and no entry breaks on its stored route. -/
theorem reconcile_isolated_iff (store : Store) (report : InventoryReport) :
    (∃ result, reconcileSandboxesForNode store report = .ok result ∧
      ∀ id, (store.rows id).settle report.toInventoryCall (report.own id)
        (report.reportedIds.contains id) = .ok (result.store.rows id)) ↔
    report.exact = true ∧ ∀ item ∈ report.observations, ∀ route,
      store.getSandbox item.sandboxId = some route →
        item.breaks report.toInventoryCall route = false := by
  have hok : (∃ result, reconcileSandboxesForNode store report = .ok result ∧
      ∀ id, (store.rows id).settle report.toInventoryCall (report.own id)
        (report.reportedIds.contains id) = .ok (result.store.rows id)) ↔
      ∃ result, reconcileSandboxesForNode store report = .ok result :=
    exists_congr fun result => and_iff_left_of_imp reconcile_rows
  rw [hok,reconcile_isOk_iff]
  refine and_congr_right fun _ => ⟨fun h item hitem route hroute => ?_,fun h id => ?_⟩
  · have hown : ∀ i ∈ report.own item.sandboxId, i.sandboxId = route.sandboxId := fun i hi =>
      (mem_itemsOf.mp hi).2.trans (store.getSandbox_id hroute).symm
    exact (foldlM_settleEntry_isOk_iff hroute (store.getSandbox_valid hroute) hown).mp
      (h item.sandboxId) item (mem_itemsOf.mpr ⟨hitem,rfl⟩)
  · cases hroute : store.getSandbox id with
    | none =>
      have hfold : ∀ items : List SandboxInventoryEntry,
          items.foldlM (settleEntry report.toInventoryCall) (store.rows id) =
            .ok (store.rows id) := by
        intro items
        induction items with
        | nil => rfl
        | cons item items ih =>
          have hs : (store.rows id).settleEntry report.toInventoryCall item = .ok (store.rows id) := by
            simp [settleEntry,accepted,hroute,Except.map]
          rw [List.foldlM_cons,hs]
          exact ih
      exact ⟨_,hfold _⟩
    | some route =>
      refine (foldlM_settleEntry_isOk_iff hroute (store.getSandbox_valid hroute) ?_).mpr ?_
      · exact fun i hi => (mem_itemsOf.mp hi).2.trans (store.getSandbox_id hroute).symm
      · intro i hi
        obtain ⟨hmem,hid⟩ := mem_itemsOf.mp hi
        exact h i hmem route (hid ▸ hroute)

namespace Example

def publishedRoute : SandboxRoute :=
  { parkedRoute with
    snapshot := ⟨storageNativeMigrationSchema,"sha256:1","repository","tag",.descriptor snapshot⟩ }

def neighbour : SandboxRoute :=
  { parkedRoute with sandboxId := "neighbour", state := .running }

def detaching : List StoreEvent :=
  [.upsertSandbox publishedRoute true none, .upsertSandbox neighbour true none,
    .transact "sandbox" (.beginSandboxDetach publishedRoute none)]

def neighbourParked : SandboxInventoryEntry := { sandboxId := "neighbour", incarnation, state := .parked }

def inventory (observations : List SandboxInventoryEntry) : InventoryReport :=
  { node, observedAt := none, nodeEpoch := "boot-a", activityEpoch := 6, observations }

end Example

open Example

/-- A `running` sample of a detaching sandbox raises, even of another generation, and the
neighbour's park is lost with it. -/
theorem reconcile_lost_to_one_entry : ∃ store, Reaches Store.step anyEvent (· = Store.fresh) store ∧
      (reconcileSandboxesForNode store (inventory
        [{ sandboxId := "sandbox", incarnation := ⟨7,"create-7","spec-7"⟩, state := .running },
          neighbourParked])).map (fun _ => ()) =
        .error (.valueError "a detaching or detached route must be a fully published park") ∧
      (reconcileSandboxesForNode store (inventory [neighbourParked])).toOption.bind
        (fun result => result.store.getSandbox "neighbour") =
        some { neighbour with state := .parked, activityEpoch := 6 } := by
  refine ⟨_,.of_run (.start rfl) (Store.run_step detaching Store.fresh),?_,?_⟩ <;> decide +kernel

end UCloudSandboxes.Routing
