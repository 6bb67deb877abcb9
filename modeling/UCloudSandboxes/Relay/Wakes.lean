import UCloudSandboxes.Relay.Leases

namespace UCloudSandboxes.Relay
open Machine Accounting Relation Request Relay.System Option RelayStore Example Bool

variable {δ : Type} {d : Deployment δ} {settings : Settings} {now : Nat} {op : Op} {id : Token}
variable {db db' : RelayStore δ} {r r' : Request δ} {reply : Reply}

namespace Request

/-- A pending delivery has an open wake, not a local wait's; an unanswered request has none. -/
structure Wakes (r : Request δ) : Prop where
  pending : r.deliveryPending = true → r.localWait = false ∧ ∃ l, r.wake = some l ∧ l.done = false
  unanswered : r.state ≠ .completed → r.wake = none

theorem Wakes.congr (h : r.Wakes) (hstate : r'.state = r.state) (hwake : r'.wake = r.wake)
    (hlocal : r'.localWait = r.localWait) (hpend : r'.deliveryPending = r.deliveryPending) :
    r'.Wakes :=
  ⟨by rw [hpend,hlocal,hwake]; exact h.pending,by rw [hstate,hwake]; exact h.unanswered⟩

theorem Wakes.of_released (hpend : r.deliveryPending = false)
    (huna : r.state ≠ .completed → r.wake = none) : r.Wakes :=
  ⟨fun h => absurd (hpend.symm.trans h) Bool.false_ne_true,huna⟩

theorem Wakes.mapObligation (h : r.Wakes) {f} (hf : ∀ l, (f l).done = l.done) (action) :
    (r.mapObligation f action).Wakes := by
  cases action with
  | park => exact h.congr rfl rfl rfl rfl
  | wake =>
    refine ⟨fun hpend => ?_,fun hstate => ?_⟩
    · obtain ⟨hlocal,l,hl,hopen⟩ := h.pending hpend
      exact ⟨hlocal,f l,by simp [Request.mapObligation,hl],(hf l).trans hopen⟩
    · simp [Request.mapObligation,h.unanswered hstate]

theorem wakes_complete (h : r.Wakes) (hc : r.state ≠ .completed) (response deferred) :
    (r.complete d response now deferred).Wakes := by
  refine ⟨fun hpend => ?_,absurd rfl⟩
  simp only [complete,and_eq_true,not_eq_true'] at hpend
  obtain ⟨⟨⟨hdef,hsb⟩,hnoti⟩,hlocal⟩ := hpend
  simp only [hdef,hsb,hnoti,Bool.true_and] at hlocal
  simp [complete,hdef,hsb,hnoti,hlocal,h.unanswered hc]

theorem wakes_settle (r : Request δ) (response) : (r.settle d response now).Wakes := by
  by_cases hc : r.state = .completed
  · rw [settle,if_pos hc]
    exact .of_released rfl (absurd hc)
  · rw [settle,if_neg hc]
    refine .of_released ?_ (absurd rfl)
    simp [closeLifecycle,complete]

theorem wakes_notified {l} (h : r.Wakes) (action) (hl : r.obligation action = some l)
    (epoch unavailable) : (r.notified action epoch unavailable now).Wakes := by
  cases action with
  | park => exact h.congr rfl rfl rfl rfl
  | wake =>
    refine .of_released rfl fun hne => ?_
    -- only an answered request has a wake to dispatch
    have hnone := h.unanswered hne
    rw [obligation,hnone] at hl
    cases hl

theorem wakes_dispatched {l} (h : r.Wakes) (action)
    (hl : r.obligation action = some l) (attempts outcome) :
    (r.dispatched action attempts outcome now).Wakes := by
  cases outcome with
  | delivered epoch => exact wakes_notified h action hl epoch false
  | unavailable => exact wakes_notified h action hl none true
  | failed =>
    refine h.mapObligation (fun l => ?_) action
    rfl
  | deferred =>
    refine Wakes.mapObligation ?_ (fun l => ?_) action
    · split
      · exact h.congr rfl rfl rfl rfl
      · exact h
    · rfl

end Request

theorem Change.wakes (h : Change d now op id r r') (hw : r.Wakes) : r'.Wakes := by
  cases h with
  | leased _ hpick =>
    have hstate := state_of_claimable (Poll.claimable_of_pick hpick)
    exact ⟨hw.pending,fun _ => hw.unanswered hstate⟩
  | renewed | reattached => exact hw.congr rfl rfl rfl rfl
  | requeued hvalid =>
    have hstate := state_of_validLease hvalid
    exact ⟨hw.pending,fun _ => hw.unanswered (by rw [hstate]; nofun)⟩
  | answered hc => exact wakes_complete hw hc ..
  | settled => exact wakes_settle r _
  | released hc => exact .of_released rfl (absurd hc)
  | confirmed hlocal =>
    refine .of_released ?_ fun hne => ?_
    · -- a local wait is never pending
      by_contra hpend
      have hnot := (hw.pending (by simpa [confirmLocal] using hpend)).1
      rw [hlocal] at hnot
      cases hnot
    · have hnone := hw.unanswered (by simpa [confirmLocal] using hne)
      simp [confirmLocal,mapObligation,hnone]
  | claimed =>
    refine hw.mapObligation (fun l => ?_) _
    rfl
  | claimsRenewed =>
    refine (hw.mapObligation (fun l => ?_) .park).mapObligation (fun l => ?_) .wake
    all_goals
      dsimp only
      split <;> rfl
  | dispatched _ _ hl => exact wakes_dispatched hw _ hl _ _

theorem Changed.wakes (h : Changed d now op id r r') (hw : r.Wakes) : r'.Wakes := by
  induction h with
  | refl => exact hw
  | tail _ hlast ih => exact hlast.wakes ih

theorem Fate.wakes {before after} (h : Fate d settings now op id before after)
    (hb : ∀ r, before = some r → r.Wakes) (ha : after = some r) : r.Wakes := by
  cases h with
  | absent | removed => cases ha
  | entered =>
    cases ha
    exact .of_released rfl fun _ => rfl
  | changed hchd =>
    cases ha
    exact hchd.wakes (hb _ rfl)
  | compacted hchd =>
    cases ha
    exact (hchd.wakes (hb _ rfl)).congr rfl rfl rfl rfl

theorem Request.retired_spec {retention} (h : r.retired now retention = true) :
    r.state = .completed ∧ r.deliveryPending = false ∧
      ∀ action l, r.obligation action = some l → l.done = true := by
  simp only [retired,openLifecycle,and_eq_true,decide_eq_true_eq,not_eq_true', or_eq_false_iff] at h
  obtain ⟨⟨⟨⟨hstate,hpend⟩,-⟩,-⟩,hpark,hwake⟩ := h
  refine ⟨hstate,hpend,fun action l hl => ?_⟩
  cases action with
  | park => simpa [show r.park = some l from hl] using hpark
  | wake => simpa [show r.wake = some l from hl] using hwake

theorem Request.obligation_dispatched_ne {action other} (hne : other ≠ action) (attempts outcome) :
    (r.dispatched action attempts outcome now).obligation other = r.obligation other := by
  cases outcome with
  | deferred =>
    simp only [dispatched]
    split <;> cases action <;> cases other <;> first | rfl | exact absurd rfl hne
  | _ => cases action <;> cases other <;> first | rfl | exact absurd rfl hne

theorem obligation_reattach {caller row} (hr : db.requests.lookup id = some r)
    (hr' : (db.reattach caller row).requests.lookup id = some r') (action) :
    r'.obligation action = r.obligation action := by
  have same : db.requests.lookup id = some r' → r'.obligation action = r.obligation action :=
    fun h => by rw [some.inj (hr.symm.trans h)]
  unfold reattach at hr'
  split at hr'
  · exact same hr'
  split at hr'
  · exact same hr'
  simp only [update,lookup_mapRows,hr,map_some,some.injEq] at hr'
  subst hr'
  split <;> cases action <;> rfl

theorem dispatchComplete_row {work outcome}
    (h : db.dispatchComplete now work outcome = .ok (db',reply)) (hr : db.requests.lookup id = some r)
    (hr' : db'.requests.lookup id = some r') (action) : r'.obligation action = r.obligation action ∨
    work.requestId = id ∧ work.action = action ∧
      ∃ l, r.obligation action = some l ∧ l.heldBy work.claimToken = true := by
  obtain ⟨row,hlock,h⟩ := ok_of_bind_ok h
  obtain ⟨hrow,-⟩ := requestLock_ok hlock
  split at h
  · cases h
    exact .inl (by rw [some.inj (hr.symm.trans hr')])
  · rename_i current hcur
    split at h
    · cases h
      exact .inl (by rw [some.inj (hr.symm.trans hr')])
    · rename_i hheld
      by_cases hown : work.requestId = id ∧ work.action = action
      · obtain ⟨rfl,rfl⟩ := hown
        cases hrow.symm.trans hr
        exact .inr ⟨rfl,rfl,current,hcur,by simpa using hheld⟩
      · -- the row after the update, the same but for the dispatched obligation
        refine .inl ?_
        cases h
        generalize hr₁ : (if id = work.requestId then
          r.dispatched work.action work.attempts (work.sent outcome) now else r) = r₁
        have hupd : (db.dispatched now work outcome).requests.lookup id = some r₁ := by
          simp only [RelayStore.dispatched,update,lookup_mapRows,hr,map_some,hr₁]
        have hsame : r₁.obligation action = r.obligation action := by
          subst hr₁
          split
          · rename_i hid
            exact obligation_dispatched_ne (fun ha => hown ⟨hid.symm,ha.symm⟩) _ _
          · rfl
        rw [← hsame]
        split at hr'
        · exact obligation_reattach hupd hr' action
        · rw [some.inj (hupd.symm.trans hr')]

theorem System.wakes_of_reaches [DecidableEq δ] {s}
    (h : Reaches (step d) anyEvent (· = .start) s) (hr : s.db.requests.lookup id = some r) :
    r.Wakes := by
  have hall : s.Inv ∧ ∀ id r, s.db.requests.lookup id = some r → r.Wakes := by
    refine h.keeps (I := fun s => s.Inv ∧ ∀ id r, s.db.requests.lookup id = some r → r.Wakes)
      ⟨inv_start,fun id r hr => by simp [start,empty] at hr⟩ ?_
    rintro s e s' ⟨hi,hw⟩ - hs
    refine ⟨hi.step hs,fun id r hr => ?_⟩
    rcases hi.fate hs id with hsame | ⟨_,_,_,-,-,hfate⟩
    · exact hw id r (hsame ▸ hr)
    · exact hfate.wakes (hw id) hr
  exact hall.2 id r hr

/-- A deferred answer's wake is open until one dispatcher with the current claim token closes it,
and the request stays until then. -/
theorem deferred_answer_keeps_wake [DecidableEq δ] {s : System δ}
    (hs : Reaches (step d) anyEvent (· = .start) s) :
    (∀ id r, s.db.requests.lookup id = some r → (r.state = .completed → r.deliveryPending = true →
        ∃ l, r.obligation .wake = some l ∧ l.done = false) ∧
      (r.state ≠ .completed → r.obligation .wake = none)) ∧
    (∀ e s' id r, step d s e = some s' → s.db.requests.lookup id = some r →
      s'.db.requests.lookup id = none → r.state = .completed ∧ r.deliveryPending = false ∧
        ∀ action l, r.obligation action = some l → l.done = true) ∧
    ∀ settings now work outcome s' id r r' action l l',
      step d s (.transact settings now (.dispatch work outcome)) = some s' →
      s.db.requests.lookup id = some r → s'.db.requests.lookup id = some r' →
      r.obligation action = some l → r'.obligation action = some l' →
      l.done = false → l'.done = true →
      work ∈ s.works ∧ work.requestId = id ∧ work.action = action ∧ l.claimToken = some work.claimToken ∧
        ∀ w ∈ s.works, w.claimToken = work.claimToken → w = work := by
  have hi := inv_of_reaches hs
  refine ⟨fun id r hr => ?_,fun e s' id r hstep hr hgone => ?_,?_⟩
  · have hw := wakes_of_reaches hs hr
    exact ⟨fun _ hpend => (hw.pending hpend).2,hw.unanswered⟩
  · rcases hi.fate hstep id with hsame | ⟨_,_,_,-,-,hfate⟩
    · rw [hsame,hr] at hgone
      cases hgone
    · rw [hr,hgone] at hfate
      cases hfate with
      | removed hret => exact retired_spec hret
  · intro settings now work outcome s' id r r' action l l' hstep hr hr' hl hl' hopen hdone
    rcases step_cases hstep with ⟨hdb,-⟩ | ⟨_,_,_,db,_,heq,hen,happly,rfl⟩
    · rw [hdb,hr] at hr'
      obtain rfl := some.inj hr'
      rw [some.inj (hl.symm.trans hl'),hdone] at hopen
      cases hopen
    · cases heq
      have hcar := enabled.carried hen
      rcases dispatchComplete_row happly hr hr' action with hsame | ⟨hid,hactn,l₁,hl₁,hheld⟩
      · rw [hsame] at hl'
        rw [some.inj (hl.symm.trans hl'),hdone] at hopen
        cases hopen
      · cases hl.symm.trans hl₁
        simp only [Lifecycle.heldBy,and_eq_true,decide_eq_true_eq] at hheld
        exact ⟨hcar,hid,hactn,hheld.2,fun w hw => hi.works.eq_of_key hw hcar⟩

theorem deferred_answer_keeps_wake_pending : ∃ (s : System WorkerResponse) (r : Request WorkerResponse),
    Reaches (step deployment) anyEvent (· = .start) s ∧
    s.db.requests.lookup "request" = some r ∧ r.deliveryPending = true ∧
    ∃ l, r.obligation .wake = some l ∧ l.done = false := by
  obtain ⟨s,hs,r,hr,hstate,hpend⟩ := Reaches.exists_from_run (step deployment) .start answeredEvents
    (fun s => ∃ r ∈ s.db.requests.lookup "request", r.state = .completed ∧ r.deliveryPending = true)
    (by decide +kernel)
  exact ⟨s,r,hs,hr,hpend,((deferred_answer_keeps_wake hs).1 "request" r hr).1 hstate hpend⟩

theorem Request.reservedBytes_dispatched (action attempts outcome) :
    (r.dispatched action attempts outcome now).reservedBytes = r.reservedBytes := by
  cases outcome with
  | deferred =>
    simp only [dispatched,postpone,reservedBytes_mapObligation]
    split <;> rfl
  | _ => cases action <;> rfl

theorem Change.reservedBytes (h : Change d now op id r r') : r'.reservedBytes = r.reservedBytes := by
  cases h with
  | settled =>
    unfold settle
    split <;> rfl
  | confirmed => simp [confirmLocal]
  | claimed => simp
  | claimsRenewed => simp [renewClaims]
  | dispatched => exact reservedBytes_dispatched ..
  | _ => rfl

theorem Changed.reservedBytes (h : Changed d now op id r r') : r'.reservedBytes = r.reservedBytes := by
  induction h with
  | refl => rfl
  | tail _ hlast ih => exact hlast.reservedBytes.trans ih

structure Balanced (d : Deployment δ) (db : RelayStore δ) : Prop where
  sum : db.reservedBytes = (tableSum reservedBytes db.requests : Int)
  budget : db.reservedBytes ≤ d.storageBudget

theorem Rewrote.balanced (h : Rewrote d now op db db') (hb : Balanced d db) : Balanced d db' := by
  obtain ⟨f,hf,hreqs,hquota⟩ := h
  refine ⟨?_,hquota ▸ hb.budget⟩
  rw [hquota,hreqs,tableSum_mapRows fun k v hv => (hf k v hv).reservedBytes]
  exact hb.sum

theorem Request.compact_gives {k batch} (h : compacts batch k r = true) :
    r.compact.reservedBytes + (r.reservedBytes - r.completedBytes - 65536) = r.reservedBytes := by
  have hcom := (and_eq_true_iff.mp h).2
  simp only [compactable,and_eq_true,decide_eq_true_eq] at hcom
  simp only [compact]
  omega

theorem maintain_balanced (batch) (hb : Balanced d db) :
    Balanced d (db.maintain d settings now batch).1 := by
  have hrew : Rewrote d now (.maintain batch) db (db.expire d now batch.expired) :=
    (expire_quietly batch.expired).1
  have hexp := hrew.balanced hb
  have hsum := hexp.sum
  have hbud := hexp.budget
  have hcomp := tableSum_mapRows_where (t := (db.expire d now batch.expired).requests)
    (g := reservedBytes) (f := compact) (p := compacts batch.compacted)
    (fun _ _ => compact_gives)
  unfold maintain
  dsimp only
  generalize db.expire d now batch.expired = expired at *
  generalize mapRows expired.requests (fun id r =>
    if compacts batch.compacted id r then r.compact else r) = compacted at *
  have hdel := tableSum_keepRows (t := compacted) (g := reservedBytes)
    (p := removes settings now batch.removed)
  refine ⟨?_,?_⟩
  · dsimp only
    omega
  · dsimp only
    omega

theorem Transacted.balanced (h : Transacted d settings now db op db') (hb : Balanced d db)
    (hnew : ∀ q, op = .enqueue q → db.requests.lookup q.requestId = none) : Balanced d db' := by
  cases h with
  | rewrote h => exact h.balanced hb
  | @entered q reg hop hbud =>
    refine ⟨?_,hbud⟩
    rw [tableSum_insert_new _ _ (AList.lookup_eq_none.mp (hnew q hop)),hb.sum]
    rfl
  | maintained => exact maintain_balanced _ hb

theorem System.balanced_of_reaches [DecidableEq δ] {s}
    (h : Reaches (step d) anyEvent (· = .start) s) : Balanced d s.db := by
  have hboth : s.Inv ∧ Balanced d s.db := by
    refine h.keeps (I := fun s => s.Inv ∧ Balanced d s.db) ⟨inv_start,rfl,Int.natCast_nonneg _⟩ ?_
    rintro s e s' ⟨hi,hb⟩ - hs
    refine ⟨hi.step hs,?_⟩
    rcases step_cases hs with ⟨hdb,-⟩ | ⟨_,_,_,_,_,rfl,hen,happly,rfl⟩
    · exact hdb ▸ hb
    · exact (transacted_of_apply happly).balanced hb (hi.enters hen)
  exact hboth.2

/-- The quota row is the sum of the stored requests' reserved bytes, not negative and within the
budget, and no step raises the reservation of a stored request. -/
theorem storage_accounting_exact [DecidableEq δ] {s : System δ}
    (hs : Reaches (step d) anyEvent (· = .start) s) :
    s.db.reservedBytes = (tableSum Request.reservedBytes s.db.requests : Int) ∧
    0 ≤ s.db.reservedBytes ∧ s.db.reservedBytes ≤ d.storageBudget ∧
    (∀ r : Request δ, r.compactable = true → r.compact.reservedBytes < r.reservedBytes) ∧
    ∀ e s' id r r', step d s e = some s' → s.db.requests.lookup id = some r →
      s'.db.requests.lookup id = some r' → r'.reservedBytes ≤ r.reservedBytes := by
  have hb := balanced_of_reaches hs
  refine ⟨hb.sum,?_,hb.budget,fun r hr => ?_,fun e s' id r r' hstep hr hr' => ?_⟩
  · rw [hb.sum]
    exact Int.natCast_nonneg _
  · simp only [compactable,and_eq_true,decide_eq_true_eq] at hr
    exact hr.2
  · rcases (inv_of_reaches hs).fate hstep id with hsame | ⟨_,_,_,-,-,hfate⟩
    · rw [hsame,hr] at hr'
      rw [some.inj hr']
    · rw [hr,hr'] at hfate
      cases hfate with
      | changed hchd => exact hchd.reservedBytes.le
      | compacted hchd hcom =>
        simp only [compactable,and_eq_true,decide_eq_true_eq] at hcom
        rw [← hchd.reservedBytes]
        exact hcom.2.le

/-- An answered request keeps its reservation until a maintenance pass takes back the rest. -/
theorem storage_accounting_exact_compacted : ∃ s : System WorkerResponse,
    Reaches (step deployment) anyEvent (· = .start) s ∧ s.db.reservedBytes = 8 + 65536 ∧
    s.db.reservedBytes = (tableSum Request.reservedBytes s.db.requests : Int) := by
  obtain ⟨s,hs,hbytes⟩ := Reaches.exists_from_run (step deployment) .start (answeredEvents ++
    [.transact process 1000 (.maintain ⟨[],["request"],[]⟩)]) (·.db.reservedBytes = 8 + 65536)
    (by decide +kernel)
  exact ⟨s,hs,hbytes,(storage_accounting_exact hs).1⟩

end UCloudSandboxes.Relay
