import UCloudSandboxes.Routing.RowWrites

namespace UCloudSandboxes.Routing
open Machine Store SandboxRows RoutingRows Option Except

/-- Evidence of a sandbox's state; `reports` tells a receipt or a settled inventory entry from a
proof, an absence and an entry in transition. -/
structure Observation where
  nodeEpoch : String
  activityEpoch : Nat
  adopts : Bool
  reports : Bool
  deriving DecidableEq

open Observation

/-- Evidence of the boot but older, of another boot without leave to adopt it, or of no boot unless
it reports a state. -/
def Observation.stale (o : Observation) (nodeEpoch : String) (activityEpoch : Nat) : Prop :=
  if o.nodeEpoch = "" then o.reports = false
  else o.nodeEpoch = nodeEpoch ∧ o.activityEpoch < activityEpoch ∨
    o.nodeEpoch ≠ nodeEpoch ∧ o.adopts = false

theorem Observation.stale.mono {o : Observation} {nodeEpoch} {activity activity' : Nat}
    (hs : o.stale nodeEpoch activity) (hle : activity ≤ activity') : o.stale nodeEpoch activity' := by
  unfold stale at hs ⊢
  split_ifs at hs ⊢
  · exact hs
  · exact hs.imp_left fun ⟨he,hlt⟩ => ⟨he,Nat.lt_of_lt_of_le hlt hle⟩

/-- What an inventory says of the sandbox whose entries in it are `own`. -/
def InventoryCall.observation (call : InventoryCall) (own : List SandboxInventoryEntry) : Observation :=
  ⟨call.nodeEpoch,call.activityEpoch,false,own.any (·.state.routeState.isSome)⟩

section Reconcile

variable {call : InventoryCall} {rows rows' : SandboxRows} {route : SandboxRoute}

/-- What the accepted entries of one inventory can have made of a stored route. -/
private def Observed (call : InventoryCall) (route : SandboxRoute) (after : Option SandboxRoute) :
    Prop :=
  after = some route ∨ ∃ stored, after = some stored ∧ stored.nodeEpoch = call.nodeEpoch ∧
    stored.activityEpoch = call.activityEpoch ∧
    (call.nodeEpoch = route.nodeEpoch → route.activityEpoch ≤ call.activityEpoch)

variable {item : SandboxInventoryEntry}

theorem settleEntry_ok (h : rows.settleEntry call item = .ok rows') :
    rows' = rows ∨ ∃ existing c, rows.route = some existing ∧
      observe call existing item = .ok (some c) ∧ rows'.route = some c.val := by
  obtain ⟨rfl,-⟩ | ⟨existing,c,d,hroute,ho,-,rfl⟩ := settleEntry_cases h
  · exact .inl rfl
  · refine .inr ⟨existing,c,hroute,ho,?_⟩
    cases d <;> exact observed_route ..

private theorem observed_settleEntry (ho : Observed call route rows.route)
    (h : rows.settleEntry call item = .ok rows') : Observed call route rows'.route := by
  rcases settleEntry_ok h with rfl | ⟨existing,c,hroute,hobs,hc⟩
  · exact ho
  obtain ⟨-,-,-,-,hepoch,hact,-,-⟩ := observe_kept hobs
  refine .inr ⟨c.val,hc,hepoch,hact,fun he => ?_⟩
  rcases ho with ho | ⟨stored,-,-,-,hle⟩
  · obtain rfl : existing = route := some.inj (hroute.symm.trans ho)
    obtain ⟨_,_,_,_,_,hcur⟩ := observe_some hobs
    rw [← hact]
    exact (routeUpdateIsCurrent_iff.mp hcur).2.2 (hepoch.trans he)
  · exact hle he

section
variable (hroute : rows.route = some route)
include hroute

theorem keepsActivity_settle {own reported}
    (hb : route.nodeEpoch ≠ "") (h : rows.settle call own reported = .ok rows') :
    KeepsActivity route rows'.route := by
  unfold settle at h
  split at h
  · have ho : Observed call route rows'.route :=
      foldlM_invariant (P := fun rows => Observed call route rows.route)
        (fun _ _ _ hp hs => observed_settleEntry hp hs) (.inl hroute) h
    rcases ho with ho | ⟨stored,hs,hepoch,hact,hle⟩
    · exact .same ho
    · rw [hs]
      exact .of_le fun he => hact ▸ hle (hepoch.symm.trans he)
  · cases h
    unfold settleAbsent
    rw [hroute]
    dsimp only
    split
    · exact keepsActivity_ownerLost rows hb _
    · exact .same hroute

theorem settleEntry_stale {own}
    (hs : (call.observation own).stale route.nodeEpoch route.activityEpoch) (hitem : item ∈ own)
    (h : rows.settleEntry call item = .ok rows') : rows' = rows := by
  rcases settleEntry_ok h with rfl | ⟨existing,c,hexi,hobs,-⟩
  · rfl
  obtain rfl : existing = route := some.inj (hexi.symm.trans hroute)
  obtain ⟨-,-,-,-,hepoch,hact,-,-⟩ := observe_kept hobs
  obtain ⟨_,_,hstate,_,_,hcur⟩ := observe_some hobs
  obtain ⟨-,hadopt,hle⟩ := routeUpdateIsCurrent_iff.mp hcur
  rw [hepoch] at hadopt hle
  rw [hact] at hle
  unfold stale at hs
  split_ifs at hs with hnone
  · exact absurd (List.any_eq_false.mp hs item hitem) (by simp [hstate])
  · rcases hs with ⟨heq,hlt⟩ | ⟨hne,-⟩
    · exact absurd (hle heq) (Nat.not_le.mpr hlt)
    · cases hadopt hnone hne

theorem settle_stale {own reported} (hb : route.nodeEpoch ≠ "")
    (hs : (call.observation own).stale route.nodeEpoch route.activityEpoch)
    (h : rows.settle call own reported = .ok rows') : rows' = rows := by
  unfold settle at h
  split at h
  · refine foldlM_mem_invariant (P := fun r => r = rows) (fun r item r' hitem hp hr => ?_) rfl h
    subst hp
    exact settleEntry_stale hroute hs hitem hr
  · cases h
    have hkeeps : absenceKeeps call route = true := by
      simp only [stale,InventoryCall.observation] at hs
      split_ifs at hs with hnone
      · simp [absenceKeeps,hb,hnone]
      · rcases hs with ⟨-,hlt⟩ | ⟨hne,-⟩
        · simp [absenceKeeps,hlt]
        · simp [absenceKeeps,hb,Ne.symm hne]
    simp [settleAbsent,hroute,hkeeps]

end

end Reconcile

section Store

variable {store : Store} {current : SandboxRoute} {id : String}

theorem exec_keepsActivity (e) (hcur : store.getSandbox id = some current)
    (hb : current.nodeEpoch ≠ "") : KeepsActivity current ((store.exec e).getSandbox id) := by
  obtain h | ⟨_,_,_,-,h⟩ := exec_cases store e id
  · exact h.activity current hcur hb
  · exact keepsActivity_settle hcur hb h

/-- Inventories speak of every sandbox of their worker, receipts and proofs of one. -/
def StoreEvent.observation (id : String) : StoreEvent → Option Observation
  | .reconcile report => some (report.observation (report.own id))
  | .upsertSandbox route allow _ | .confirmSandboxObservation route allow _ =>
    if route.sandboxId = id then some ⟨route.nodeEpoch,route.activityEpoch,allow,true⟩ else none
  | .setSandboxStateIfCurrent route _ _ (some proof) _ _ | .confirmSandboxWake route proof _ =>
    if route.sandboxId = id then some ⟨proof.nodeEpoch,proof.activityEpoch,false,false⟩ else none
  | _ => none

theorem upsert_stale {route allow now r} (hcur : store.getSandbox route.sandboxId = some current)
    (hs : stale ⟨route.nodeEpoch,route.activityEpoch,allow,true⟩ current.nodeEpoch
      current.activityEpoch) (h : store.upsertSandbox route allow now = .ok r) : r.1 = store := by
  rcases upsertSandbox_ok h with he | ⟨stored,-,-,-,-,-,hcheck⟩
  · exact he
  obtain ⟨-,hadopt,hle⟩ := routeUpdateIsCurrent_iff.mp (hcheck current hcur).1
  unfold stale at hs
  split_ifs at hs with hnone
  rcases hs with ⟨heq,hlt⟩ | ⟨hother,hno⟩
  · exact absurd (hle heq) (Nat.not_le.mpr hlt)
  · exact absurd (hadopt hnone hother) (by simpa using hno)

theorem setState_stale {route expected state proof update now r}
    (hcur : store.getSandbox route.sandboxId = some current) (hb : current.nodeEpoch ≠ "")
    (hs : stale ⟨proof.nodeEpoch,proof.activityEpoch,false,false⟩ current.nodeEpoch
      current.activityEpoch)
    (h : store.setSandboxStateIfCurrent route expected state (some proof) update now = .ok r) :
    r.1 = store := by
  rcases setSandboxStateIfCurrent_ok h with he | ⟨c,stored,hc,-,-,-,hproof,-⟩
  · exact he
  cases hc.symm.trans hcur
  have hadm := (hproof proof rfl).2
  have hact := admissible_activity hadm
  unfold LifecycleProof.admissible at hadm
  simp only [Bool.and_eq_true,Bool.not_eq_true',Bool.and_eq_false_iff,decide_eq_false_iff_not,
    not_not] at hadm
  have heq := hadm.1.2.resolve_left hb
  unfold stale at hs
  split_ifs at hs with hnone
  · exact absurd (heq.trans hnone) hb
  · rcases hs with ⟨-,hlt⟩ | ⟨hother,-⟩
    · exact absurd hact (Nat.not_le.mpr hlt)
    · exact absurd heq.symm hother

private theorem after_unchanged {α} {f : α → Store} {x}
    (h : ∀ a, x = .ok a → (f a).getSandbox id = store.getSandbox id) :
    (store.after f x).getSandbox id = store.getSandbox id := by
  cases x with
  | error => rfl
  | ok a => exact h a rfl

theorem exec_stale {e o} (hcur : store.getSandbox id = some current)
    (hb : current.nodeEpoch ≠ "") (ho : e.observation id = some o)
    (hs : o.stale current.nodeEpoch current.activityEpoch) :
    (store.exec e).getSandbox id = store.getSandbox id := by
  cases e with
  | reconcile report =>
    cases ho
    refine after_unchanged fun result h => ?_
    have hroute : (store.rows id).route = some current := hcur
    rw [← rows_route,settle_stale hroute hb hs (reconcile_rows h id),rows_route]
  | upsertSandbox =>
    obtain ⟨rfl,rfl⟩ := some_of_check ho
    exact after_unchanged fun r h => by rw [upsert_stale hcur hs h]
  | confirmSandboxObservation =>
    obtain ⟨rfl,rfl⟩ := some_of_check ho
    refine after_unchanged fun r h => ?_
    rcases confirmSandboxObservation_ok h with he | ⟨-,u,hu,he⟩
    · rw [he]
    · rw [he,upsert_stale hcur hs hu]
  | setSandboxStateIfCurrent route expected state proof =>
    cases proof with
    | none => cases ho
    | some =>
      obtain ⟨rfl,rfl⟩ := some_of_check ho
      exact after_unchanged fun r h => by rw [setState_stale hcur hb hs h]
  | confirmSandboxWake =>
    obtain ⟨rfl,rfl⟩ := some_of_check ho
    exact after_unchanged fun r h => by rw [setState_stale hcur hb hs h]
  | _ => cases ho

end Store

def SameBoot (id : String) (route : SandboxRoute) (store : Store) : Prop :=
  (store.getSandbox id).any (fun r => r.incarnation = route.incarnation && r.node = route.node &&
    r.nodeEpoch = route.nodeEpoch) = true

instance (id : String) (route : SandboxRoute) (store : Store) : Decidable (SameBoot id route store) :=
  inferInstanceAs (Decidable (_ = true))

theorem sameBoot_iff {id route store} : SameBoot id route store ↔ ∃ r, store.getSandbox id = some r ∧
      r.incarnation = route.incarnation ∧ r.node = route.node ∧ r.nodeEpoch = route.nodeEpoch := by
  simp [SameBoot,any_eq_true,and_assoc]

theorem activityEpoch_le {id proof start store} (hstored : start.getSandbox id = some proof)
    (hversioned : proof.nodeEpoch ≠ "")
    (hrun : Reaches step (fun s _ => SameBoot id proof s) (· = start) store) :
    KeepsActivity proof (store.getSandbox id) := by
  refine hrun.invariant (I := fun s => KeepsActivity proof (s.getSandbox id)) ?_ ?_
  · rintro s rfl
    exact .same hstored
  · intro s e s' hkeeps hboot hstep
    obtain rfl : s.exec e = s' := some.inj hstep
    obtain ⟨r,hr,hinc,-,hepoch⟩ := sameBoot_iff.mp hboot
    intro route' hr' hinc' hepoch'
    exact Nat.le_trans (hkeeps r hr hinc hepoch)
      (exec_keepsActivity e hr (hepoch ▸ hversioned) route' hr' (hinc'.trans hinc.symm)
        (hepoch'.trans hepoch.symm))

/-- While a route with a lifecycle proof stays with its worker boot, the activity epoch never
decreases, and a stale observation leaves the row as it is. -/
theorem stale_observation_keeps_route {id : String} {proof : SandboxRoute} {start store : Store}
    (hstored : start.getSandbox id = some proof) (hversioned : proof.nodeEpoch ≠ "")
    (hrun : Reaches Store.step (fun s _ => SameBoot id proof s) (· = start) store)
    (hboot : SameBoot id proof store) :
    (∃ route, store.getSandbox id = some route ∧ proof.activityEpoch ≤ route.activityEpoch) ∧
    ∀ e o store', e.observation id = some o → o.stale proof.nodeEpoch proof.activityEpoch →
      store.step e = some store' → store'.getSandbox id = store.getSandbox id := by
  obtain ⟨r,hr,hinc,-,hepoch⟩ := sameBoot_iff.mp hboot
  have hle := activityEpoch_le hstored hversioned hrun r hr hinc hepoch
  refine ⟨⟨r,hr,hle⟩,fun e o store' ho hs hstep => ?_⟩
  obtain rfl : store.exec e = store' := some.inj hstep
  exact exec_stale hr (hepoch ▸ hversioned) ho (hepoch ▸ hs.mono hle)

namespace Example

def node : NodeIdentity := ⟨"node-1","job-1","http://node-1"⟩

def parkedRoute : SandboxRoute :=
  { sandboxId := "sandbox", node, resources := {}, state := .parked, incarnation
    nodeEpoch := "boot-a", activityEpoch := 5 }

def parked : Store := fresh.exec (.upsertSandbox parkedRoute true none)

def wake : StoreEvent := .confirmSandboxWake parkedRoute ⟨"boot-a",7⟩ none

def woken : Store := parked.exec wake

def parkedSample (nodeEpoch : String) (activityEpoch : Nat) : StoreEvent :=
  .reconcile
    { node, observedAt := none, nodeEpoch, activityEpoch
      observations := [{ sandboxId := "sandbox", incarnation, state := .parked }] }

end Example

open Example

theorem stale_observation_keeps_route_woken :
    parked.getSandbox "sandbox" = some parkedRoute ∧
    woken.getSandbox "sandbox" = some { parkedRoute with state := .running, activityEpoch := 7 } ∧
    (woken.exec (parkedSample "boot-a" 4)).getSandbox "sandbox" = woken.getSandbox "sandbox" := by
  have hstored : parked.getSandbox "sandbox" = some parkedRoute := by decide +kernel
  have hwoken : woken.getSandbox "sandbox" =
      some { parkedRoute with state := .running, activityEpoch := 7 } := by decide +kernel
  have hrun : Reaches step (fun s _ => SameBoot "sandbox" parkedRoute s) (· = parked) woken :=
    .step (.start rfl) (by decide +kernel : SameBoot "sandbox" parkedRoute parked) (e := wake) rfl
  have hboot : SameBoot "sandbox" parkedRoute woken := by decide +kernel
  exact ⟨hstored,hwoken,(stale_observation_keeps_route hstored (by decide) hrun hboot).2
    (parkedSample "boot-a" 4) _ _ rfl (.inl ⟨rfl,by decide⟩) rfl⟩

/-- Two samples that undo an acknowledged wake: a heartbeat without a boot epoch, and a delayed
receipt of the boot before. -/
theorem stale_observation_undoes_wake : Reaches Store.step anyEvent (· = Store.fresh) woken ∧
    woken.getSandbox "sandbox" = some { parkedRoute with state := .running, activityEpoch := 7 } ∧
    (woken.exec (parkedSample "" 0)).getSandbox "sandbox" =
      some { parkedRoute with nodeEpoch := "", activityEpoch := 0 } ∧
    (woken.exec (.confirmSandboxObservation
        { parkedRoute with nodeEpoch := "boot-0", activityEpoch := 3 } true none)).getSandbox
      "sandbox" = some { parkedRoute with nodeEpoch := "boot-0", activityEpoch := 3 } := by
  refine ⟨.step (.step (.start rfl) trivial rfl) (e := wake) trivial rfl,?_,?_,?_⟩ <;> decide +kernel

end UCloudSandboxes.Routing
