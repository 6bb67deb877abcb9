import UCloudSandboxes.Machine.Basic
import UCloudSandboxes.Relay.Store
import UCloudSandboxes.Machine.Transaction

/-! Any number of relay processes over one database, the leases of their workers and the obligations
of their dispatchers, under a clock that never goes back. -/
namespace UCloudSandboxes.Relay
open Machine Option

inductive Op
  | register (rolloutId : String) (token : Token) (sandboxId : Option String) (generation : Option Nat)
  | unregister (rolloutId : String) (token : Token)
  | enqueue (q : Enqueue)
  | poll (p : Poll)
  | renew (id token : Token) (leaseId : Option Token) (leaseTime : Nat) (workerId : Option String)
  | respond (id token : Token) (response : WorkerResponse) (leaseId : Option Token) (deferDelivery : Bool)
  | retry (id token : Token) (leaseId : Option Token)
  | cancel (id : Token) (response : WorkerResponse)
  | release (id : Token)
  | detach (id : Token)
  | deliverLocal (id : Token) (acknowledged : Bool)
  | callerUnavailable (sandboxId : String) (generation : Nat) (reason : String)
  | maintain (batch : Maintenance)
  | claim (c : Claim)
  | renewClaims (owned : List Work)
  | dispatch (work : Work) (outcome : Notified)
deriving DecidableEq

def Op.drawn : Op → List Token
  | .register _ token _ _ => [token]
  | .enqueue q => [q.requestId]
  | .poll p => p.picks.map (·.2)
  | .claim c => c.picks.map (·.2)
  | _ => []

variable {δ : Type} [DecidableEq δ]

def Op.apply (d : Deployment δ) (settings : Settings) (now : Nat) (db : RelayStore δ) :
    Op → Except RelayError (RelayStore δ × Reply)
  | .register rolloutId token sandboxId generation =>
    .ok (db.registerRollout d now rolloutId token sandboxId generation)
  | .unregister rolloutId token => db.unregisterRollout d now rolloutId token
  | .enqueue q => db.enqueue d settings now q
  | .poll p => db.poll now p
  | .renew id token leaseId leaseTime workerId => db.renewLease now id token leaseId leaseTime workerId
  | .respond id token response leaseId deferDelivery =>
    db.respond d now id token response leaseId deferDelivery
  | .retry id token leaseId => db.retryWorkerFailure now id token leaseId
  | .cancel id response => db.cancelRequest d now id response
  | .release id => db.releaseCompletedResponse now id
  | .detach id => db.markCallerDetached id
  | .deliverLocal id acknowledged => db.deliverLocalWait id acknowledged
  | .callerUnavailable sandboxId generation reason =>
    .ok (db.callerUnavailable d now sandboxId generation reason,.done)
  | .maintain batch => .ok (db.maintain d settings now batch)
  | .claim c => .ok (db.claimLifecycle d settings now c)
  | .renewClaims owned => .ok (db.renewLifecycleClaims settings now owned)
  | .dispatch work outcome => db.dispatchComplete now work outcome

/-- The database, the clock, the ids drawn, the leases handed out and the obligations dispatchers
carry. -/
structure System (δ : Type) where
  db : RelayStore δ
  clock : Nat
  drawn : List Token
  grants : List Grant
  works : List Work

inductive Event
  | tick (elapsed : Nat)
  /-- A transaction of a process with its own settings, that read the clock at `now`. -/
  | transact (settings : Settings) (now : Nat) (op : Op)
  /-- Dispatching processes crash: their work is lost, the claims stay in the database. -/
  | crash (lost : List Work)
deriving DecidableEq

namespace System

def start : System δ := ⟨.empty,0,[],[],[]⟩

/-- A committed transaction leaves the tables, the ids it drew, the leases and obligations it gave
out. -/
def record (d : Deployment δ) (s : System δ) (now : Nat) (op : Op) (db : RelayStore δ) : System δ :=
  { s with
    db
    drawn := s.drawn ++ op.drawn
    grants := s.grants ++ (match op with | .poll p => s.db.granted now p | _ => [])
    works := (match op with | .dispatch work _ => s.works.erase work | _ => s.works) ++
      (match op with | .claim c => s.db.claimedWorks d now c | _ => []) }

/-- Drawn ids are new and differ, the clock read is past, and only a dispatcher that carries an
obligation ends it. -/
def enabled (s : System δ) (now : Nat) (op : Op) : Bool :=
  now ≤ s.clock && op.drawn.Nodup && op.drawn.all (!s.drawn.contains ·) &&
    match op with
    | .dispatch work _ => s.works.contains work
    | .renewClaims owned => owned.all s.works.contains
    | _ => true

def step (d : Deployment δ) (s : System δ) : Event → Option (System δ)
  | .tick elapsed => some { s with clock := s.clock + elapsed }
  | .transact settings now op =>
    if s.enabled now op then
      match op.apply d settings now s.db with
      | .ok (db,_) => some (s.record d now op db)
      | .error _ => some s
    else none
  | .crash lost => some { s with works := s.works.filter (!lost.contains ·) }

variable {d : Deployment δ} {s s' : System δ} {e : Event} {now : Nat} {op : Op}

omit [DecidableEq δ] in
theorem enabled.spec (h : s.enabled now op = true) :
    now ≤ s.clock ∧ op.drawn.Nodup ∧ ∀ id ∈ op.drawn, id ∉ s.drawn := by
  simp only [enabled,Bool.and_eq_true,decide_eq_true_eq,List.all_eq_true] at h
  exact ⟨h.1.1.1,h.1.1.2,fun id hid => by simpa using h.1.2 id hid⟩

omit [DecidableEq δ] in
theorem enabled.carried {work outcome} (h : s.enabled now (.dispatch work outcome) = true) :
    work ∈ s.works := by
  simp only [enabled,Bool.and_eq_true] at h
  exact List.contains_iff_mem.mp h.2

theorem step_cases (h : step d s e = some s') :
    (s'.db = s.db ∧ s'.drawn = s.drawn ∧ s'.grants = s.grants ∧ s'.works.Sublist s.works) ∨
    ∃ settings now op db reply, e = .transact settings now op ∧ s.enabled now op = true ∧
      op.apply d settings now s.db = .ok (db,reply) ∧ s' = s.record d now op db := by
  cases e with
  | tick =>
    cases h
    exact .inl ⟨rfl,rfl,rfl,.refl _⟩
  | crash =>
    cases h
    exact .inl ⟨rfl,rfl,rfl,List.filter_sublist⟩
  | transact settings now op =>
    obtain ⟨hen,h⟩ := of_check h nofun
    split at h
    · rename_i db reply happly
      cases h
      exact .inr ⟨settings,now,op,db,reply,rfl,hen,happly,rfl⟩
    · cases h
      exact .inl ⟨rfl,rfl,rfl,.refl _⟩

end System

/-! What a relay transaction can do to one request it keeps, and to the tables. -/
open Accounting Relation RelayStore

variable {δ : Type} {d : Deployment δ} {settings : Settings} {now : Nat} {op : Op} {id : Token}
variable {db db' : RelayStore δ} {r r' : Request δ} {reply : Reply}

theorem RelayStore.requestLock_ok {token} (h : db.requestLock id token = .ok r) :
    db.requests.lookup id = some r ∧ ∀ t, token = some t → r.registrationToken = t ∧
      ∃ g, db.rollouts.lookup r.rolloutId = some g ∧ g.enabled = true ∧ g.registrationToken = t := by
  unfold requestLock at h
  cases hrow : db.requests.lookup id with
  | none => simp [hrow] at h
  | some row =>
    simp only [hrow] at h
    cases token with
    | none =>
      obtain rfl : row = r := by simpa using h
      exact ⟨rfl,nofun⟩
    | some =>
      cases hreg : db.rollouts.lookup row.rolloutId with
      | none => simp [hreg] at h
      | some g =>
        simp only [hreg] at h
        split_ifs at h with hcur htoken
        obtain rfl : row = r := by simpa using h
        refine ⟨rfl,fun t ht => ?_⟩
        cases ht
        rw [not_or,Bool.not_eq_true,Bool.not_eq_false',not_not] at hcur
        exact ⟨not_not.mp htoken,g,hreg,hcur⟩

def Request.leasedUnder (r : Request δ) (leaseId : Token) (now : Nat) : Bool :=
  r.state = .leased && r.leaseId = some leaseId && r.leaseExpiresAt.any (now < ·) && now < r.expiresAt

theorem Request.validLease_ok {leaseId} (h : r.validLease leaseId now = .ok ()) :
    ∃ l, leaseId = some l ∧ r.leasedUnder l now = true := by
  unfold validLease at h
  split_ifs at h with hact hexp
  rw [not_or,not_or,not_not] at hact
  obtain ⟨hstate,hsome,hlease⟩ := hact
  obtain ⟨l,rfl⟩ := ne_none_iff_exists'.mp hsome
  rw [not_or] at hexp
  cases hat : r.leaseExpiresAt with
  | none => simp [hat] at hexp
  | some =>
    simp only [hat,all_some,decide_eq_true_eq,not_le] at hexp
    simp [leasedUnder,hstate,not_not.mp hlease,hat,hexp]

inductive Change (d : Deployment δ) (now : Nat) (op : Op) (id : Token) (r : Request δ) :
    Request δ → Prop
  | leased {p leaseId} : op = .poll p → p.pick now id r = some leaseId →
      Change d now op id r (r.lease leaseId p.leaseTime p.workerId now)
  | renewed {leaseId leaseTime workerId} : r.validLease leaseId now = .ok () →
      Change d now op id r (r.renew leaseTime workerId now)
  | requeued {leaseId} : r.validLease leaseId now = .ok () → Change d now op id r r.requeue
  | answered {response deferred} : r.state ≠ .completed →
      Change d now op id r (r.complete d response now deferred)
  | settled {response} : r.unfinished = true → Change d now op id r (r.settle d response now)
  | released : r.state = .completed → Change d now op id r (r.release now)
  | confirmed : r.localWait = true → Change d now op id r r.confirmLocal
  | reattached : Change d now op id r { r with reattachable := true }
  | claimed {c token claimTime} : op = .claim c → c.pick d now id r = some token →
      Change d now op id r (r.mapObligation (·.claim token claimTime now) c.action)
  | claimsRenewed {owned claimUntil} : Change d now op id r (r.renewClaims owned id claimUntil)
  | dispatched {work outcome outcome' l} : op = .dispatch work outcome → work.requestId = id →
      r.obligation work.action = some l → l.heldBy work.claimToken = true →
      Change d now op id r (r.dispatched work.action work.attempts outcome' now)

def Changed (d : Deployment δ) (now : Nat) (op : Op) (id : Token) : Request δ → Request δ → Prop :=
  ReflTransGen (Change d now op id)

/-- The tables with every request changed, and the registrations. -/
def Rewrote (d : Deployment δ) (now : Nat) (op : Op) (db db' : RelayStore δ) : Prop :=
  ∃ f, (∀ id r, db.requests.lookup id = some r → Changed d now op id r (f id r)) ∧
    db'.requests = mapRows db.requests f ∧ db'.reservedBytes = db.reservedBytes

namespace Rewrote

theorem refl (db) : Rewrote d now op db db :=
  ⟨fun _ r => r,fun _ _ _ => .refl,mapRows_id.symm,rfl⟩

theorem of_mapRows {f}
    (hf : ∀ id r, db.requests.lookup id = some r → f id r ≠ r → Change d now op id r (f id r)) :
    Rewrote d now op db { db with requests := mapRows db.requests f } := by
  refine ⟨f,fun id r hr => ?_,rfl,rfl⟩
  by_cases hkept : f id r = r
  · rw [hkept]
    exact .refl
  · exact .single (hf id r hr hkept)

theorem of_update {f} (hf : ∀ r, db.requests.lookup id = some r → Change d now op id r (f r)) :
    Rewrote d now op db (db.update id f) := by
  refine of_mapRows fun k r hr hne => ?_
  by_cases hk : k = id
  · subst hk
    rw [if_pos rfl]
    exact hf r hr
  · rw [if_neg hk] at hne
    exact absurd rfl hne

theorem of_lock {f token} (hlock : db.requestLock id token = .ok r) (hf : Change d now op id r (f r)) :
    Rewrote d now op db (db.update id f) := by
  refine of_update fun r' hr' => ?_
  cases (requestLock_ok hlock).1.symm.trans hr'
  exact hf

theorem trans {db''} (h : Rewrote d now op db db') (h' : Rewrote d now op db' db'') :
    Rewrote d now op db db'' := by
  obtain ⟨f,hf,hreqs,hquota⟩ := h
  obtain ⟨g,hg,hreqs',hquota'⟩ := h'
  refine ⟨fun id r => g id (f id r),fun id r hr => ?_,?_,hquota'.trans hquota⟩
  · refine (hf id r hr).trans (hg id (f id r) ?_)
    rw [hreqs,lookup_mapRows,hr,map_some]
  · rw [hreqs',hreqs,mapRows_mapRows]

theorem reattach (db id r) : Rewrote d now op db (db.reattach id r) := by
  unfold RelayStore.reattach
  split
  · exact refl db
  split
  · exact refl db
  · exact of_update fun _ _ => .reattached

end Rewrote

structure RetryIdentity where
  rolloutId : String
  registrationToken : Token
  key : String
deriving DecidableEq

structure RetryRow where
  identity : Option RetryIdentity
  requestDigest : String
  reattachable : Bool
deriving DecidableEq

namespace Request

def retry (r : Request δ) : RetryRow where
  identity := r.idempotencyKey.map fun key => ⟨r.rolloutId,r.registrationToken,key⟩
  requestDigest := r.requestDigest
  reattachable := r.reattachable

section Kept
variable (r)

theorem retry_mapObligation (f action) : (r.mapObligation f action).retry = r.retry := by
  cases action <;> rfl

theorem retry_settle (response) : (r.settle d response now).retry = r.retry := by
  simp only [settle]
  split <;> rfl

theorem retry_dispatched (action attempts outcome) :
    (r.dispatched action attempts outcome now).retry = r.retry := by
  cases outcome with
  | failed => exact retry_mapObligation ..
  | deferred =>
    simp only [dispatched,postpone]
    rw [retry_mapObligation]
    split <;> rfl
  | unavailable | delivered => cases action <;> rfl

theorem retry_renewClaims (owned claimUntil) : (r.renewClaims owned id claimUntil).retry = r.retry := by
  simp only [renewClaims]
  rw [retry_mapObligation,retry_mapObligation]

end Kept

end Request

/-- Every row is one that was there, with the same retry columns. -/
structure Quiet (db db' : RelayStore δ) : Prop where
  row : ∀ id r', db'.requests.lookup id = some r' →
    ∃ r, db.requests.lookup id = some r ∧ r'.retry = r.retry

namespace Quiet

theorem refl (db : RelayStore δ) : Quiet db db := ⟨fun _ r h => ⟨r,h,rfl⟩⟩

theorem of_requests (h : db'.requests = db.requests) : Quiet db db' := ⟨fun _ r hr => ⟨r,h ▸ hr,rfl⟩⟩

theorem trans {db''} (h : Quiet db db') (h' : Quiet db' db'') : Quiet db db'' := by
  refine ⟨fun id r'' hr'' => ?_⟩
  obtain ⟨r',hr',he'⟩ := h'.row id r'' hr''
  obtain ⟨r,hr,he⟩ := h.row id r' hr'
  exact ⟨r,hr,he'.trans he⟩

theorem of_mapRows {f} (hf : ∀ id r, (f id r).retry = r.retry) :
    Quiet db { db with requests := mapRows db.requests f } := by
  refine ⟨fun id r' hr' => ?_⟩
  rw [lookup_mapRows] at hr'
  obtain ⟨r,hr,rfl⟩ := map_eq_some_iff.mp hr'
  exact ⟨r,hr,hf id r⟩

theorem of_update (id f) (hf : ∀ r, (f r).retry = r.retry) : Quiet db (db.update id f) := by
  refine of_mapRows fun k r => ?_
  split
  · exact hf r
  · rfl

theorem of_keepRows {p} : Quiet db { db with requests := keepRows db.requests p } := by
  refine ⟨fun id r' hr' => ?_⟩
  rw [lookup_keepRows] at hr'
  exact ⟨r',(filter_eq_some_iff.mp hr').1,rfl⟩

end Quiet

def Quietly (d : Deployment δ) (now : Nat) (op : Op) (db db' : RelayStore δ) : Prop :=
  Rewrote d now op db db' ∧ ∀ id r', db'.requests.lookup id = some r' →
    ∃ r, db.requests.lookup id = some r ∧ r'.retry = r.retry

namespace Quietly

theorem quiet (h : Quietly d now op db db') : Quiet db db' := ⟨h.2⟩

theorem refl (db) : Quietly d now op db db := ⟨.refl db,(Quiet.refl db).row⟩

theorem of_mapRows {f}
    (hf : ∀ id r, db.requests.lookup id = some r → f id r ≠ r → Change d now op id r (f id r))
    (hretry : ∀ id r, (f id r).retry = r.retry) :
    Quietly d now op db { db with requests := mapRows db.requests f } :=
  ⟨.of_mapRows hf,(Quiet.of_mapRows hretry).row⟩

theorem of_lock {f token} (hlock : db.requestLock id token = .ok r) (hf : Change d now op id r (f r))
    (hretry : ∀ r, (f r).retry = r.retry) : Quietly d now op db (db.update id f) :=
  ⟨.of_lock hlock hf,(Quiet.of_update id f hretry).row⟩

end Quietly

inductive Transacted (d : Deployment δ) (settings : Settings) (now : Nat) (db : RelayStore δ) (op : Op) :
    RelayStore δ → Prop
  | rewrote {after} : Rewrote d now op db after → Transacted d settings now db op after
  | entered {q reg} : op = .enqueue q →
      db.reservedBytes + (q.row d settings reg now).reservedBytes ≤ d.storageBudget →
      Transacted d settings now db op ⟨db.rollouts,db.requests.insert q.requestId (q.row d settings reg now),
        db.reservedBytes + (q.row d settings reg now).reservedBytes⟩
  | maintained {batch} : op = .maintain batch →
      Transacted d settings now db op (db.maintain d settings now batch).1

section Operations

theorem retireRegistration_quietly (rolloutId token) :
    Quietly d now op db (db.retireRegistration d now rolloutId token) := by
  refine .of_mapRows (fun id r _ hne => ?_) fun id r => ?_
  · split_ifs at hne ⊢ with hsel
    · exact .settled hsel.2.2
    · exact absurd rfl hne
  · split
    · exact r.retry_settle unregisteredResponse
    · rfl

theorem expire_quietly (batch) : Quietly d now op db (db.expire d now batch) := by
  refine .of_mapRows (fun id r _ hne => ?_) fun id r => ?_
  · split_ifs at hne ⊢ with hsel
    · exact .answered hsel.2.1
    · exact absurd rfl hne
  · split <;> rfl

theorem poll_quietly {p} (h : db.poll now p = .ok (db',reply)) : Quietly d now (.poll p) db db' := by
  obtain ⟨reg,-,h⟩ := ok_of_bind_ok h
  cases h
  refine .of_mapRows (fun id r _ hne => ?_) fun id r => ?_
  · cases hpick : p.pick now id r with
    | none => simp [hpick] at hne
    | some => exact .leased rfl hpick
  · split <;> rfl

theorem retryWorkerFailure_quietly {token leaseId}
    (h : db.retryWorkerFailure now id token leaseId = .ok (db',reply)) : Quietly d now op db db' := by
  obtain ⟨r,hlock,h⟩ := ok_of_bind_ok h
  split at h
  · cases h
    exact .refl db
  · obtain ⟨_,hvalid,h⟩ := ok_of_bind_ok h
    split_ifs at h
    · cases h
      exact .refl db
    · cases h
      exact .of_lock hlock (.requeued hvalid) fun _ => rfl

theorem markCallerDetached_rewrote (h : db.markCallerDetached id = .ok (db',reply)) :
    Rewrote d now op db db' := by
  obtain ⟨r,-,h⟩ := ok_of_bind_ok h
  cases h
  exact .reattach db id r

theorem dispatchComplete_rewrote {work outcome}
    (h : db.dispatchComplete now work outcome = .ok (db',reply)) :
    Rewrote d now (.dispatch work outcome) db db' := by
  obtain ⟨r,hlock,h⟩ := ok_of_bind_ok h
  split at h
  · cases h
    exact .refl db
  · rename_i current hcur
    split at h
    · cases h
      exact .refl db
    · rename_i hheld
      have hdis : Rewrote d now (.dispatch work outcome) db (db.dispatched now work outcome) := by
        exact .of_lock hlock (.dispatched rfl rfl hcur (by simpa using hheld))
      cases h
      split
      · exact hdis.trans (.reattach _ _ r)
      · exact hdis

end Operations

variable [DecidableEq δ]

theorem respond_ok {token response leaseId deferred}
    (h : db.respond d now id token response leaseId deferred = .ok (db',reply)) :
    ∃ r, db.requestLock id (some token) = .ok r ∧
      (r.state = .completed ∧ r.result.map (·.digest) = some (d.digest response) ∧ r.leaseId = leaseId ∧
          db' = db ∧ reply = .duplicate ∨ r.state ≠ .completed ∧ r.validLease leaseId now = .ok () ∧
          db' = db.update id (fun r => r.complete d response now deferred) ∧ reply = .committed) := by
  obtain ⟨r,hlock,h⟩ := ok_of_bind_ok h
  refine ⟨r,hlock,?_⟩
  split_ifs at h with hcom hsame
  · cases h
    rw [not_or,not_not,not_not] at hsame
    exact .inl ⟨hcom,hsame.1,hsame.2,rfl,rfl⟩
  · obtain ⟨_,hvalid,h⟩ := ok_of_bind_ok h
    cases h
    exact .inr ⟨hcom,hvalid,rfl,rfl⟩

def Op.quiet : Op → Bool
  | .enqueue _ | .detach _ | .deliverLocal _ _ | .dispatch _ _ | .maintain _ => false
  | _ => true

theorem quietly_of_apply (hq : op.quiet = true) (h : op.apply d settings now db = .ok (db',reply)) :
    Quietly d now op db db' := by
  cases op with
  | register =>
    cases h
    cases db.rollouts.lookup _ with
    | none => exact Quietly.refl db
    | some previous => exact retireRegistration_quietly _ previous.registrationToken
  | unregister =>
    dsimp only [Op.apply] at h
    unfold unregisterRollout at h
    split at h
    · cases h
      exact Quietly.refl db
    · split_ifs at h
      · cases h
        exact Quietly.refl db
      · cases h
        exact retireRegistration_quietly ..
  | poll => exact poll_quietly h
  | renew =>
    obtain ⟨r,hlock,h⟩ := ok_of_bind_ok h
    split_ifs at h
    obtain ⟨_,hvalid,h⟩ := ok_of_bind_ok h
    cases h
    exact .of_lock hlock (.renewed hvalid) fun _ => rfl
  | respond =>
    obtain ⟨r,hlock,⟨-,-,-,rfl,-⟩ | ⟨hstate,-,rfl,-⟩⟩ := respond_ok h
    · exact .refl _
    · exact .of_lock hlock (.answered hstate) fun _ => rfl
  | retry => exact retryWorkerFailure_quietly h
  | cancel =>
    obtain ⟨r,hlock,h⟩ := ok_of_bind_ok h
    split_ifs at h with hcom
    · cases h
      exact .refl db
    · cases h
      exact .of_lock hlock (.answered hcom) fun _ => rfl
  | release =>
    obtain ⟨r,hlock,h⟩ := ok_of_bind_ok h
    split_ifs at h with hcom
    cases h
    exact .of_lock hlock (.released (not_not.mp hcom)) fun _ => rfl
  | callerUnavailable sandboxId generation reason =>
    cases h
    refine .of_mapRows (fun id r _ hne => ?_) fun id r => ?_
    · split_ifs at hne ⊢ with hsel
      · exact .settled hsel.2.2
      · exact absurd rfl hne
    · split
      · exact r.retry_settle (unavailableResponse reason)
      · rfl
  | claim c =>
    cases h
    refine .of_mapRows (fun id r _ hne => ?_) fun id r => ?_
    · cases hpick : c.pick d now id r with
      | none => simp [hpick] at hne
      | some => exact .claimed rfl hpick
    · split
      · exact r.retry_mapObligation _ _
      · rfl
  | renewClaims owned =>
    cases h
    exact .of_mapRows (fun _ _ _ _ => .claimsRenewed) fun _ r => r.retry_renewClaims owned _
  | _ => cases hq

theorem transacted_of_apply (h : op.apply d settings now db = .ok (db',reply)) :
    Transacted d settings now db op db' := by
  cases op with
  | enqueue =>
    obtain ⟨reg,-,h⟩ := ok_of_bind_ok h
    split at h
    · unfold retried at h
      split_ifs at h
      cases h
      exact .rewrote (.refl db)
    · unfold insertRequest at h
      dsimp only at h
      split_ifs at h with hbud
      cases h
      exact .entered rfl hbud
  | detach => exact .rewrote (markCallerDetached_rewrote h)
  | deliverLocal =>
    refine .rewrote ?_
    obtain ⟨r,hlock,h⟩ := ok_of_bind_ok h
    split_ifs at h with hlocal
    · cases h
      exact .refl db
    · cases h
      exact .of_lock hlock (.confirmed (by simpa using hlocal))
    · exact markCallerDetached_rewrote h
  | maintain =>
    cases h
    exact .maintained rfl
  | dispatch => exact .rewrote (dispatchComplete_rewrote h)
  | _ => exact .rewrote (quietly_of_apply rfl h).1

end UCloudSandboxes.Relay
