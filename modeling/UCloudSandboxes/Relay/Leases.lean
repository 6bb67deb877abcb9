import UCloudSandboxes.Relay.Fates

namespace UCloudSandboxes.Relay
open Machine Relation Request Option Bool

variable {δ : Type} {d : Deployment δ} {settings : Settings} {now : Nat} {op : Op} {id : Token}
variable {r r' : Request δ}

namespace Request

theorem state_of_validLease {leaseId} (h : r.validLease leaseId now = .ok ()) : r.state = .leased := by
  obtain ⟨l,-,hl⟩ := validLease_ok h
  simp only [leasedUnder,and_eq_true,decide_eq_true_eq] at hl
  exact hl.1.1.1

theorem not_leasedUnder_of_claimable {clock} (h : r.claimable now = true) (hclock : now ≤ clock)
    (leaseId) : r.leasedUnder leaseId clock = false := by
  by_contra hl
  simp only [leasedUnder,claimable,not_eq_false,and_eq_true,or_eq_true,
    decide_eq_true_eq,any_eq_true] at h hl
  obtain ⟨⟨⟨hstate,-⟩,at',hat,hlate⟩,-⟩ := hl
  obtain ⟨-,hpend | ⟨-,at'',hat',hexp⟩⟩ := h
  · rw [hstate] at hpend
    cases hpend
  · cases hat.symm.trans hat'
    omega

theorem state_of_claimable (h : r.claimable now = true) : r.state ≠ .completed := by
  intro hc
  simp [claimable,hc] at h

theorem dispatched_same (r : Request δ) (action attempts outcome now) :
    (r.dispatched action attempts outcome now).state = r.state ∧
    (r.dispatched action attempts outcome now).result = r.result ∧
    (r.dispatched action attempts outcome now).leaseId = r.leaseId := by
  cases outcome with
  | delivered | unavailable => cases action <;> exact ⟨rfl,rfl,rfl⟩
  | failed => simp [dispatched,postpone]
  | deferred =>
    simp only [dispatched,postpone,state_mapObligation,result_mapObligation,leaseId_mapObligation]
    split <;> exact ⟨rfl,rfl,rfl⟩

/-- A request is completed exactly when it has an answer, kept with the digest of its bytes. -/
structure Answered (d : Deployment δ) (r : Request δ) : Prop where
  iff : r.state = .completed ↔ r.result.isSome = true
  digest : ∀ res, r.result = some res → res.digest = d.digest res.response

theorem Answered.congr (h : r.Answered d) (hstate : r'.state = r.state) (hresu : r'.result = r.result) :
    r'.Answered d :=
  ⟨by rw [hstate,hresu]; exact h.iff,by rw [hresu]; exact h.digest⟩

theorem answered_complete (r : Request δ) (response now deferred) :
    (r.complete d response now deferred).Answered d :=
  ⟨iff_of_true rfl rfl,fun res h => by obtain rfl := some.inj h; rfl⟩

end Request

theorem Change.completed (h : Change d now op id r r') (hc : r.state = .completed) :
    r'.state = .completed ∧ r'.result = r.result ∧ r'.leaseId = r.leaseId := by
  cases h with
  | leased _ hpick => exact absurd hc (state_of_claimable (Poll.claimable_of_pick hpick))
  | renewed hvalid | requeued hvalid => rw [state_of_validLease hvalid] at hc; cases hc
  | answered hstate => exact absurd hc hstate
  | settled =>
    rw [settle,if_pos hc]
    exact ⟨hc,rfl,rfl⟩
  | released | reattached => exact ⟨hc,rfl,rfl⟩
  | confirmed => simp [confirmLocal,hc]
  | claimed => simp [hc]
  | claimsRenewed => simp [renewClaims,hc]
  | dispatched =>
    rw [← hc]
    exact dispatched_same ..

theorem Change.answered_kept (h : Change d now op id r r') (ha : r.Answered d) : r'.Answered d := by
  by_cases hc : r.state = .completed
  · obtain ⟨hstate,hresu,-⟩ := h.completed hc
    exact ha.congr (hstate.trans hc.symm) hresu
  cases h with
  | leased | requeued => exact ⟨iff_of_false nofun fun hsome => hc (ha.iff.mpr hsome),ha.digest⟩
  | renewed | released | reattached => exact ha.congr rfl rfl
  | answered => exact answered_complete ..
  | settled =>
    rw [settle,if_neg hc]
    exact (answered_complete r _ now false).congr rfl rfl
  | confirmed => exact ha.congr (by simp [confirmLocal]) (by simp [confirmLocal])
  | claimed => exact ha.congr (by simp) (by simp)
  | claimsRenewed => exact ha.congr (by simp [renewClaims]) (by simp [renewClaims])
  | dispatched =>
    obtain ⟨hstate,hresu,-⟩ := dispatched_same r _ _ _ now
    exact ha.congr hstate hresu

theorem Changed.completed (h : Changed d now op id r r') (hc : r.state = .completed) :
    r'.state = .completed ∧ r'.result = r.result ∧ r'.leaseId = r.leaseId := by
  induction h with
  | refl => exact ⟨hc,rfl,rfl⟩
  | tail _ hlast ih =>
    obtain ⟨hstate,hresu,hlease⟩ := hlast.completed ih.1
    exact ⟨hstate,hresu.trans ih.2.1,hlease.trans ih.2.2⟩

theorem Changed.answered_kept (h : Changed d now op id r r') (ha : r.Answered d) : r'.Answered d := by
  induction h with
  | refl => exact ha
  | tail _ hlast ih => exact hlast.answered_kept ih

/-- What became of a request that was completed: nothing, or it is gone. -/
def Stands (r : Request δ) (row : Option (Request δ)) : Prop :=
  ∀ r', row = some r' → r'.state = .completed ∧ r'.result = r.result ∧ r'.leaseId = r.leaseId

theorem Fate.answered_kept {before after} (h : Fate d settings now op id before after)
    (hb : ∀ r, before = some r → r.Answered d) (ha : after = some r) : r.Answered d := by
  cases h with
  | absent | removed => cases ha
  | entered =>
    cases ha
    exact ⟨iff_of_false nofun nofun,nofun⟩
  | changed hchd =>
    cases ha
    exact hchd.answered_kept (hb _ rfl)
  | compacted hchd =>
    cases ha
    exact (hchd.answered_kept (hb _ rfl)).congr rfl rfl

theorem Fate.stands {before after} (h : Fate d settings now op id before after) (hs : Stands r before)
    (hent : ∀ q, op = .enqueue q → id ≠ q.requestId) : Stands r after := by
  intro r' hr'
  cases h with
  | absent | removed => cases hr'
  | entered hop hid => exact absurd hid (hent _ hop)
  | changed hchd | compacted hchd =>
    obtain rfl := some.inj hr'
    obtain ⟨hstate,hresu,hlease⟩ := hs _ rfl
    obtain ⟨hstate',hresu',hlease'⟩ := hchd.completed hstate
    exact ⟨hstate',hresu'.trans hresu,hlease'.trans hlease⟩

namespace System
variable [DecidableEq δ] {s s' : System δ} {e : Event}

def holds (s : System δ) (g : Grant) : Bool :=
  (s.db.requests.lookup g.requestId).any (·.leasedUnder g.leaseId s.clock)

def AllAnswered (d : Deployment δ) (s : System δ) : Prop :=
  ∀ id r, s.db.requests.lookup id = some r → r.Answered d

theorem AllAnswered.step (ha : s.AllAnswered d) (hi : s.Inv) (h : step d s e = some s') :
    s'.AllAnswered d := by
  intro id r hr
  rcases hi.fate h id with hsame | ⟨_,_,_,-,-,hfate⟩
  · exact ha id r (hsame ▸ hr)
  · exact hfate.answered_kept (ha id) hr

theorem AllAnswered.of_reaches (ha : s.AllAnswered d) (hi : s.Inv)
    (h : Reaches (System.step d) anyEvent (· = s) s') : s'.AllAnswered d := by
  have hboth : s'.Inv ∧ s'.AllAnswered d := by
    refine h.keeps (I := fun s => s.Inv ∧ s.AllAnswered d) ⟨hi,ha⟩ fun s e s' hi _ hs => ?_
    exact ⟨hi.1.step hs,hi.2.step hi.1 hs⟩
  exact hboth.2

omit [DecidableEq δ] in
theorem allAnswered_start : (start : System δ).AllAnswered d :=
  fun id r hr => by simp [start,RelayStore.empty] at hr

theorem drawn_step (h : System.step d s e = some s') (hid : id ∈ s.drawn) : id ∈ s'.drawn := by
  rcases step_cases h with ⟨-,hdrawn,-⟩ | ⟨_,_,_,_,_,-,-,-,rfl⟩
  · exact hdrawn ▸ hid
  · exact List.mem_append_left _ hid

theorem stands_of_reaches (hi : s.Inv) (hr : s.db.requests.lookup id = some r)
    (hc : r.state = .completed) (h : Reaches (System.step d) anyEvent (· = s) s') :
    Stands r (s'.db.requests.lookup id) := by
  have hall : s'.Inv ∧ id ∈ s'.drawn ∧ Stands r (s'.db.requests.lookup id) := by
    refine h.keeps (I := fun s => s.Inv ∧ id ∈ s.drawn ∧ Stands r (s.db.requests.lookup id)) ?_ ?_
    · refine ⟨hi,hi.requests id r hr,fun r' hr' => ?_⟩
      cases hr.symm.trans hr'
      exact ⟨hc,rfl,rfl⟩
    · rintro s e s' ⟨hi,hid,hstd⟩ - hs
      refine ⟨hi.step hs,drawn_step hs hid,?_⟩
      rcases hi.fate hs id with hsame | ⟨_,now,op,-,hen,hfate⟩
      · exact hsame ▸ hstd
      refine hfate.stands hstd ?_
      rintro q rfl rfl
      exact (enabled.spec hen).2.2 q.requestId (by simp [Op.drawn]) hid
  exact hall.2.2

omit [DecidableEq δ] in
theorem not_holds_of_granted {p} (hnow : now ≤ s.clock) {g g'} (hg : g ∈ s.db.granted now p)
    (hid : g'.requestId = g.requestId) : s.holds g' = false := by
  obtain ⟨e,he,hgrant⟩ := List.mem_filterMap.mp hg
  obtain ⟨leaseId,hpick,rfl⟩ := map_eq_some_iff.mp hgrant
  have hrow : s.db.requests.lookup e.1 = some e.2 := AList.mem_lookup_iff.mpr he
  rw [holds,hid,hrow]
  exact not_leasedUnder_of_claimable (Poll.claimable_of_pick hpick) hnow _

theorem respond_late {res} (ha : s.AllAnswered d) (hd : Function.Injective d.digest)
    (hs : Stands r (s.db.requests.lookup id)) (hres : r.result = some res)
    (token response leaseId deferred) :
    (s.db.respond d now id token response leaseId deferred = .ok (s.db,.duplicate) ∧
      response = res.response ∧ leaseId = r.leaseId) ∨
    ∃ error, s.db.respond d now id token response leaseId deferred = .error error := by
  cases hresp : s.db.respond d now id token response leaseId deferred with
  | error error => exact .inr ⟨error,rfl⟩
  | ok out =>
    obtain ⟨db',reply⟩ := out
    obtain ⟨r',hlock,hcases⟩ := respond_ok hresp
    obtain ⟨hrow,-⟩ := RelayStore.requestLock_ok hlock
    obtain ⟨hstate,hresu,hlease⟩ := hs r' hrow
    rcases hcases with ⟨-,hdig,hsame,hdb,hreply⟩ | ⟨hne,-⟩
    · refine .inl ⟨by rw [hdb,hreply],?_,hsame.symm.trans hlease⟩
      rw [hresu,hres] at hdig
      have hst := (ha id r' hrow).digest res (hresu.trans hres)
      exact (hd (hst.symm.trans (some.inj hdig))).symm
    · exact absurd hstate hne

end System
open Relay.System

/-- Every request gets one answer: one valid lease at a time, a response only under the current one,
and a completed answer stands. -/
theorem one_answer [DecidableEq δ] (hd : Function.Injective d.digest) {s : System δ}
    (hs : Reaches (System.step d) anyEvent (· = .start) s) :
    (∀ g ∈ s.grants, ∀ g' ∈ s.grants, g.requestId = g'.requestId → s.holds g → s.holds g' → g = g') ∧
    (∀ settings now p s', System.step d s (.transact settings now (.poll p)) = some s' →
      ∀ g ∈ s'.grants, g ∉ s.grants → ∀ g' ∈ s.grants, g'.requestId = g.requestId → ¬ s.holds g') ∧
    (∀ now id token response leaseId deferred db',
      s.db.respond d now id token response leaseId deferred = .ok (db',.committed) →
      (∃ r l g, s.db.requests.lookup id = some r ∧ leaseId = some l ∧ r.leasedUnder l now ∧
        s.db.rollouts.lookup r.rolloutId = some g ∧ g.enabled ∧ g.registrationToken = token ∧
        r.registrationToken = token) ∧
      ∃ r', db'.requests.lookup id = some r' ∧ r'.result = some ⟨response,d.digest response⟩) ∧
    ∀ id r, s.db.requests.lookup id = some r → r.state = .completed →
      ∃ res, r.result = some res ∧ ∀ s', Reaches (System.step d) anyEvent (· = s) s' →
        (∀ r', s'.db.requests.lookup id = some r' → r'.state = .completed ∧ r'.result = some res) ∧
        ∀ now token response leaseId deferred,
          (s'.db.respond d now id token response leaseId deferred = .ok (s'.db,.duplicate) ∧
            response = res.response ∧ leaseId = r.leaseId) ∨
          ∃ error, s'.db.respond d now id token response leaseId deferred = .error error := by
  have hi := inv_of_reaches hs
  have ha : s.AllAnswered d := allAnswered_start.of_reaches inv_start hs
  refine ⟨?_,?_,?_,?_⟩
  · intro g hg g' hg' hid hold hold'
    -- both leases are the one in the request's row
    obtain ⟨r,hr,hl⟩ := (any_eq_true _ _).mp hold
    obtain ⟨r',hr',hl'⟩ := (any_eq_true _ _).mp hold'
    cases hr.symm.trans (hid ▸ hr')
    simp only [leasedUnder,and_eq_true,decide_eq_true_eq] at hl hl'
    exact hi.grants.eq_of_key hg hg' (some.inj (hl.1.1.2.symm.trans hl'.1.1.2))
  · intro settings now p s' hstep g hg hnew g' hg' hid
    rcases step_cases hstep with ⟨-,-,hgra,-⟩ | ⟨_,_,_,_,_,heq,hen,-,rfl⟩
    · exact absurd (hgra ▸ hg) hnew
    cases heq
    have hgr := (List.mem_append.mp hg).resolve_left hnew
    simp [not_holds_of_granted (enabled.spec hen).1 hgr hid]
  · intro now id token response leaseId deferred db' hresp
    obtain ⟨r,hlock,⟨-,-,-,-,hreply⟩ | ⟨-,hvalid,rfl,-⟩⟩ := respond_ok hresp
    · cases hreply
    obtain ⟨hrow,hreg⟩ := RelayStore.requestLock_ok hlock
    obtain ⟨htoken,g,hg,hen,hgto⟩ := hreg token rfl
    obtain ⟨l,hl,hlsd⟩ := validLease_ok hvalid
    refine ⟨⟨r,l,g,hrow,hl,hlsd,hg,hen,hgto,htoken⟩,?_⟩
    refine ⟨r.complete d response now deferred,?_,rfl⟩
    simp [RelayStore.update,hrow]
  · intro id r hr hc
    obtain ⟨res,hres⟩ := isSome_iff_exists.mp ((ha id r hr).iff.mp hc)
    refine ⟨res,hres,fun s' hs' => ?_⟩
    have hstd := stands_of_reaches hi hr hc hs'
    refine ⟨fun r' hr' => ?_,fun now token response leaseId deferred => ?_⟩
    · obtain ⟨hstate,hresu,-⟩ := hstd r' hr'
      exact ⟨hstate,hresu.trans hres⟩
    · exact respond_late (ha.of_reaches hi hs') hd hstd hres token response leaseId deferred

namespace Example

def deployment : Deployment WorkerResponse where
  parkNotifier := true
  wakeNotifier := true
  storageBudget := 2 * responseReservation
  digest := fun response => response
  retainedBytes := fun _ => 8
  budget_admits := by decide

def process : Settings where
  requestTimeout := 7200000
  retention := 3600000
  claimTime := 30000
  localModelWaits := false

def request : Enqueue where
  rolloutId := "rollout"
  size := 100
  digest := "digest"
  idempotencyKey := none
  deferIdempotency := false
  expectedToken := none
  localWait := false
  requestId := "request"

def poll : Poll where
  rolloutId := "rollout"
  registrationToken := "token"
  limit := 1
  leaseTime := 60000
  workerId := some "worker"
  picks := [("request","lease")]

def response : WorkerResponse := { status := 200, body := .bytes "answer" }

def other : WorkerResponse := { status := 200, body := .bytes "another answer" }

def answeredEvents : List Event :=
  [.tick 1000,
    .transact process 1000 (.register "rollout" "token" (some "sandbox") (some 1)),
    .transact process 1000 (.enqueue request),
    .transact process 1000 (.poll poll),
    .transact process 1000 (.respond "request" "token" response (some "lease") true)]

end Example

open Example

theorem one_answer_committed : ∃ s : System WorkerResponse,
    Reaches (System.step deployment) anyEvent (· = .start) s ∧
    ∃ error, s.db.respond deployment 1000 "request" "token" other (some "lease") true =
      .error error := by
  obtain ⟨s,hs,r,hr,hstate,hresu⟩ := Reaches.exists_from_run (step deployment) .start answeredEvents
    (fun s => ∃ r ∈ s.db.requests.lookup "request", r.state = .completed ∧
      r.result = some ⟨response,response⟩) (by decide +kernel)
  obtain ⟨res,hres,hlater⟩ := (one_answer Function.injective_id hs).2.2.2 "request" r hr hstate
  cases hresu.symm.trans hres
  refine ⟨s,hs,((hlater s (.start rfl)).2 1000 "token" other (some "lease") true).resolve_left ?_⟩
  rintro ⟨-,hsame,-⟩
  exact absurd hsame (by decide)

end UCloudSandboxes.Relay
