import UCloudSandboxes.Relay.Leases
import UCloudSandboxes.Relay.Races

namespace UCloudSandboxes.Relay
open Machine RelayStore Option Flight List RetryRow

variable {δ : Type} {d : Deployment δ} {settings : Settings} {now : Nat} {op : Op} {id : Token}
variable {db db' : RelayStore δ} {r r' : Request δ} {reply : Reply} {i : RetryIdentity}
variable {found : Option (Token × Request δ)} {f : Flight δ} {c : Contention}

namespace RelayStore

theorem mem_entries : (⟨id,r⟩ : Sigma fun _ : Token => Request δ) ∈ db.requests.entries ↔
    db.requests.lookup id = some r := AList.mem_lookup_iff.symm

variable {except : Option Token}

theorem owner_none (h : db.owner i except = none) (hr : db.requests.lookup id = some r)
    (ho : r.owns i = true) : except = some id := by
  have hn := find?_eq_none.mp (map_eq_none_iff.mp h) ⟨id,r⟩ (mem_entries.mpr hr)
  simp only [ho,Bool.true_and,decide_eq_true_eq,not_not] at hn
  exact hn.symm

theorem owner_some (h : db.owner i except = some (id,r)) :
    db.requests.lookup id = some r ∧ r.owns i = true := by
  obtain ⟨e,he,heq⟩ := map_eq_some_iff.mp h
  obtain ⟨rfl,rfl⟩ := Prod.mk.inj heq
  have hp := find?_some he
  rw [Bool.and_eq_true] at hp
  exact ⟨mem_entries.mp (mem_of_find?_eq_some he),hp.1⟩

theorem owner_isSome_iff : (db.owner i except).isSome = true ↔
    ∃ id r, db.requests.lookup id = some r ∧ r.owns i = true ∧ some id ≠ except := by
  simp only [owner,isSome_map,find?_isSome,Bool.and_eq_true,decide_eq_true_eq]
  constructor
  · rintro ⟨e,he,ho,hne⟩
    exact ⟨e.1,e.2,mem_entries.mp he,ho,hne⟩
  · rintro ⟨id,r,hr,ho,hne⟩
    exact ⟨⟨id,r⟩,mem_entries.mpr hr,ho,hne⟩

theorem owner_update {g} (hg : ∀ r, (g r).retry = r.retry) :
    ((db.update id g).owner i except).isSome = (db.owner i except).isSome := by
  rw [Bool.eq_iff_iff,owner_isSome_iff,owner_isSome_iff]
  refine exists_congr fun k => ?_
  have howns (r : Request δ) : (if k = id then g r else r).owns i = r.owns i := by
    split
    · exact Request.owns_congr (hg r) i
    · rfl
  simp only [update,lookup_mapRows,map_eq_some_iff]
  constructor
  · rintro ⟨_,⟨r,hr,rfl⟩,ho,hne⟩
    exact ⟨r,hr,howns r ▸ ho,hne⟩
  · rintro ⟨r,hr,ho,hne⟩
    exact ⟨_,⟨r,hr,rfl⟩,(howns r).trans ho,hne⟩

theorem identityOwner_eq (i) :
    db.identityOwner i.rolloutId i.registrationToken i.key = db.owner i none := by
  simp only [identityOwner]
  congr 2
  funext e
  rw [Bool.eq_iff_iff]
  simp [Request.owns_iff,and_assoc]

theorem reattach_eq (h : r.retry.identity = some i) :
    db.reattach id r = db.claimIdentity id (db.owner i (some id)) := by
  obtain ⟨key,hkey,rfl⟩ := map_eq_some_iff.mp h
  simp only [reattach,hkey,claimIdentity,owner]
  congr 1
  simp [Request.owns_iff,and_assoc]

theorem reattach_none (h : r.retry.identity = none) : db.reattach id r = db := by
  have hkey : r.idempotencyKey = none := map_eq_none_iff.mp h
  simp [reattach,hkey]

theorem requestLock_none (hr : db.requests.lookup id = some r) : db.requestLock id none = .ok r := by
  rw [requestLock,hr]

theorem markCallerDetached_eq (hr : db.requests.lookup id = some r) (hi : r.retry.identity = some i) :
    db.markCallerDetached id = .ok (db.claimIdentity id (db.owner i (some id)),.done) := by
  rw [markCallerDetached,requestLock_none hr,← reattach_eq hi]
  rfl

theorem owns_claimIdentity {found id'}
    (hr : (db.claimIdentity id found).requests.lookup id' = some r') (ho : r'.owns i = true) :
    (∃ r, db.requests.lookup id' = some r ∧ r.owns i = true) ∨
      found = none ∧ id' = id ∧ ∃ r, db.requests.lookup id = some r ∧ r.retry.identity = some i := by
  rw [claimIdentity] at hr
  split at hr
  · exact .inl ⟨r',hr,ho⟩
  rename_i hfound
  rw [update,lookup_mapRows] at hr
  obtain ⟨r,hbef,rfl⟩ := map_eq_some_iff.mp hr
  split at ho
  · subst id'
    have hi : r.retry.identity = some i := of_decide_eq_true (Bool.and_eq_true_iff.mp ho).2
    exact .inr ⟨not_isSome_iff_eq_none.mp hfound,rfl,r,hbef,hi⟩
  · exact .inl ⟨r,hbef,ho⟩

theorem row_claimIdentity {found id'} (hr : (db.claimIdentity id found).requests.lookup id' = some r') :
    ∃ r, db.requests.lookup id' = some r ∧ (r.reattachable = true → r'.reattachable = true) := by
  rw [claimIdentity] at hr
  split at hr
  · exact ⟨r',hr,fun hflag => hflag⟩
  rw [update,lookup_mapRows] at hr
  obtain ⟨r,hbef,rfl⟩ := map_eq_some_iff.mp hr
  refine ⟨r,hbef,fun hflag => ?_⟩
  split
  · rfl
  · exact hflag

end RelayStore

def OwnersKept (db db' : RelayStore δ) : Prop :=
  ∀ id r' i, db'.requests.lookup id = some r' → r'.owns i = true →
    ∃ r, db.requests.lookup id = some r ∧ r.owns i = true

theorem Quiet.ownersKept (h : Quiet db db') : OwnersKept db db' := by
  intro id r' i hr' ho
  obtain ⟨r,hr,he⟩ := h.row id r' hr'
  exact ⟨r,hr,(Request.owns_congr he i) ▸ ho⟩

theorem Enqueue.owns_row {q : Enqueue} {reg} (h : (q.row d settings reg now).owns i = true) :
    q.idempotencyKey = some i.key ∧ i = ⟨q.rolloutId,reg.registrationToken,i.key⟩ := by
  obtain ⟨hr,ht,hk,-⟩ := Request.owns_iff.mp h
  exact ⟨hk,by rw [show q.rolloutId = i.rolloutId from hr,show reg.registrationToken = _ from ht]⟩

theorem enqueue_ownersKept {q} (hc : Op.contends db (.enqueue q) = none)
    (h : db.enqueue d settings now q = .ok (db',reply)) : OwnersKept db db' := by
  obtain ⟨reg,hreg,h⟩ := ok_of_bind_ok h
  have hkey : q.idempotencyKey = none := by simpa [Op.contends,hreg] using hc
  simp only [hkey,bind_none,insertRequest] at h
  split_ifs at h
  cases h
  intro id r' i hr' ho
  obtain ⟨-,rfl⟩ | ⟨-,hr'⟩ := lookup_of_insert hr'
  · exact absurd (Enqueue.owns_row ho).1 (by simp [hkey])
  · exact ⟨r',hr',ho⟩

theorem markCallerDetached_ownersKept (hc : Op.contends db (.detach id) = none)
    (h : db.markCallerDetached id = .ok (db',reply)) : OwnersKept db db' := by
  obtain ⟨r,hlock,h⟩ := ok_of_bind_ok h
  cases h
  have hr := (requestLock_ok hlock).1
  rw [reattach_none (by simpa [Op.contends, hr] using hc)]
  exact (Quiet.refl db).ownersKept

theorem deliverLocalWait_ownersKept {acknowledged}
    (hc : Op.contends db (.deliverLocal id acknowledged) = none)
    (h : db.deliverLocalWait id acknowledged = .ok (db',reply)) : OwnersKept db db' := by
  obtain ⟨r,hlock,h⟩ := ok_of_bind_ok h
  have hr := (requestLock_ok hlock).1
  split_ifs at h with hlocal hack
  · cases h
    exact (Quiet.refl db).ownersKept
  · cases h
    exact (Quiet.of_update id _ fun r => r.retry_mapObligation _ _).ownersKept
  · refine markCallerDetached_ownersKept ?_ h
    have hlocal : r.localWait = true := by simpa using hlocal
    simpa [Op.contends,hr,hlocal,hack] using hc

theorem dispatchComplete_ownersKept {work outcome}
    (hc : Op.contends db (.dispatch work outcome) = none)
    (h : db.dispatchComplete now work outcome = .ok (db',reply)) : OwnersKept db db' := by
  obtain ⟨r,hlock,h⟩ := ok_of_bind_ok h
  have hr := (requestLock_ok hlock).1
  have hdis : Quiet db (db.dispatched now work outcome) :=
    .of_update _ _ fun r => r.retry_dispatched ..
  split at h
  · cases h
    exact (Quiet.refl db).ownersKept
  · rename_i current hcur
    split at h
    · cases h
      exact (Quiet.refl db).ownersKept
    · rename_i hheld
      cases h
      split
      · rename_i hchd
        rw [reattach_none]
        · exact hdis.ownersKept
        · have hheld : current.heldBy work.claimToken = true := by simpa using hheld
          simpa [Op.contends,hr,hcur,hheld,hchd] using hc
      · exact hdis.ownersKept

section
variable [DecidableEq δ]

theorem ownersKept_of_apply (hc : op.contends db = none)
    (h : op.apply d settings now db = .ok (db',reply)) : OwnersKept db db' := by
  cases op with
  | enqueue => exact enqueue_ownersKept hc h
  | detach => exact markCallerDetached_ownersKept hc h
  | deliverLocal => exact deliverLocalWait_ownersKept hc h
  | maintain batch =>
    cases h
    exact (quiet_maintain batch).ownersKept
  | dispatch => exact dispatchComplete_ownersKept hc h
  | _ => exact (quietly_of_apply rfl h).quiet.ownersKept

end

theorem Op.contends_cases (h : op.contends db = some c) : (∃ q reg key, op = .enqueue q ∧
      validateRegistration (db.rollouts.lookup q.rolloutId) q.expectedToken = .ok reg ∧
      q.idempotencyKey = some key ∧ c = ⟨⟨q.rolloutId,reg.registrationToken,key⟩,none⟩) ∨
    ∃ id r, c.row = some id ∧ db.requests.lookup id = some r ∧ r.retry.identity = some c.identity ∧
      (op = .detach id ∨ (∃ acknowledged, op = .deliverLocal id acknowledged) ∨
        ∃ work outcome, op = .dispatch work outcome ∧ work.requestId = id) := by
  cases op with
  | enqueue q =>
    simp only [contends] at h
    split at h
    · cases h
    rename_i reg hreg
    obtain ⟨key,hkey,rfl⟩ := map_eq_some_iff.mp h
    exact .inl ⟨q,reg,key,rfl,hreg,hkey,rfl⟩
  | detach id =>
    obtain ⟨r,hr,h⟩ := bind_eq_some_iff.mp h
    obtain ⟨i,hi,rfl⟩ := map_eq_some_iff.mp h
    exact .inr ⟨id,r,rfl,hr,hi,.inl rfl⟩
  | deliverLocal id acknowledged =>
    obtain ⟨r,hr,h⟩ := bind_eq_some_iff.mp h
    split_ifs at h
    obtain ⟨i,hi,rfl⟩ := map_eq_some_iff.mp h
    exact .inr ⟨id,r,rfl,hr,hi,.inr (.inl ⟨acknowledged,rfl⟩)⟩
  | dispatch work outcome =>
    obtain ⟨r,hr,h⟩ := bind_eq_some_iff.mp h
    split_ifs at h
    obtain ⟨i,hi,rfl⟩ := map_eq_some_iff.mp h
    exact .inr ⟨work.requestId,r,rfl,hr,hi,.inr (.inr ⟨work,outcome,rfl,rfl⟩)⟩
  | _ => cases h

namespace Flight

section
variable (hc : f.op.contends db = some f.contention)
include hc

/-- A transaction with an identity's lock leaves the request it enters, or the rows but for its own
flag. -/
theorem finish_cases (h : f.finish d found db = .ok (db',reply)) :
    (∃ q reg, f.op = .enqueue q ∧ found = none ∧
      validateRegistration (db.rollouts.lookup q.rolloutId) q.expectedToken = .ok reg ∧
      db'.requests = db.requests.insert q.requestId (q.row d f.settings reg f.now)) ∨ Quiet db db' ∨
    ∃ id db₁, f.contention.row = some id ∧ Quiet db db₁ ∧ db' = db₁.claimIdentity id found := by
  rcases Op.contends_cases hc with
    ⟨q,_,key,hop,-,-,-⟩ | ⟨id,r,hrow,-,-,hop | ⟨_,hop⟩ | ⟨work,outcome,hop,rfl⟩⟩
  · simp only [finish,hop] at h
    obtain ⟨reg,hreg,h⟩ := ok_of_bind_ok h
    cases found with
    | none =>
      simp only [insertRequest] at h
      split_ifs at h
      cases h
      exact .inl ⟨q,reg,hop,rfl,hreg,rfl⟩
    | some =>
      simp only [retried] at h
      split_ifs at h
      cases h
      exact .inr (.inl (.refl db))
  · simp only [finish,hop] at h
    cases h
    exact .inr (.inr ⟨id,db,hrow,.refl db,rfl⟩)
  · simp only [finish,hop] at h
    cases h
    exact .inr (.inr ⟨id,db,hrow,.refl db,rfl⟩)
  · simp only [finish,hop] at h
    cases h
    exact .inr (.inr ⟨work.requestId,_,hrow,.of_update _ _ fun r => r.retry_dispatched ..,rfl⟩)

theorem owns_finish (h : f.finish d found db = .ok (db',reply))
    (hr : db'.requests.lookup id = some r') (ho : r'.owns i = true) :
    (∃ r, db.requests.lookup id = some r ∧ r.owns i = true) ∨
      found = none ∧ i = f.contention.identity ∧
        (f.contention.row = some id ∨ ∃ q, f.op = .enqueue q ∧ f.contention.row = none ∧
          id = q.requestId) := by
  rcases finish_cases hc h with ⟨q,reg,hop,hfound,hreg,hrows⟩ | hquiet | ⟨own,db₁,hown,hquiet,rfl⟩
  · rw [hrows] at hr
    obtain ⟨rfl,rfl⟩ | ⟨-,hr⟩ := lookup_of_insert hr
    · obtain ⟨hkey,hi⟩ := Enqueue.owns_row ho
      simp only [hop,Op.contends,hreg,hkey,map_some,some.injEq] at hc
      rw [← hc]
      exact .inr ⟨hfound,hi,.inr ⟨q,hop,rfl,rfl⟩⟩
    · exact .inl ⟨r',hr,ho⟩
  · exact .inl (hquiet.ownersKept id r' i hr ho)
  · rcases owns_claimIdentity hr ho with ⟨r₁,hr₁,ho₁⟩ | ⟨hfound,rfl,r₁,hr₁,hi₁⟩
    · exact .inl (hquiet.ownersKept id r₁ i hr₁ ho₁)
    · obtain ⟨r,hr,he⟩ := hquiet.row id r₁ hr₁
      rcases Op.contends_cases hc with ⟨q,_,_,-,-,-,hnone⟩ | ⟨own,r₀,hrow,hr₀,hi₀,-⟩
      · rw [hnone] at hown
        cases hown
      · cases hown.symm.trans hrow
        cases hr.symm.trans hr₀
        rw [he,hi₀] at hi₁
        exact .inr ⟨hfound,(some.inj hi₁).symm,.inl hown⟩

theorem finish_eq_apply [DecidableEq δ] :
    f.finish d (db.owner f.contention.identity f.contention.row) db =
      f.op.apply d f.settings f.now db := by
  obtain ⟨settings,now,op,⟨i,row⟩,read⟩ := f
  cases op with
  | enqueue q =>
    rcases Op.contends_cases hc with ⟨q,reg,key,⟨⟩,hreg,hkey,⟨⟩⟩ | ⟨_,_,_,-,-,hop | ⟨_,hop⟩ | ⟨_,_,hop,-⟩⟩
    · simp only [finish,Op.apply,enqueue,hreg,hkey, ← identityOwner_eq]
      rfl
    all_goals cases hop
  | detach =>
    obtain ⟨r,hr,hc⟩ := bind_eq_some_iff.mp hc
    obtain ⟨i,hi,⟨⟩⟩ := map_eq_some_iff.mp hc
    exact (markCallerDetached_eq hr hi).symm
  | deliverLocal id acknowledged =>
    obtain ⟨r,hr,hc⟩ := bind_eq_some_iff.mp hc
    split_ifs at hc with hlocal
    obtain ⟨i,hi,⟨⟩⟩ := map_eq_some_iff.mp hc
    obtain rfl : acknowledged = false := by simpa using hlocal.2
    simp only [finish,Op.apply,deliverLocalWait,requestLock_none hr]
    simpa [bind,Except.bind,hlocal.1] using (markCallerDetached_eq hr hi).symm
  | dispatch work outcome =>
    obtain ⟨r,hr,hc⟩ := bind_eq_some_iff.mp hc
    split_ifs at hc with hheld
    obtain ⟨i,hi,⟨⟩⟩ := map_eq_some_iff.mp hc
    obtain ⟨hheld,hchd⟩ := hheld
    obtain ⟨current,hcur,hheld⟩ := (any_eq_true _ _).mp hheld
    have hother : ((db.dispatched now work outcome).owner i (some work.requestId)).isSome =
      (db.owner i (some work.requestId)).isSome :=
      owner_update fun r => r.retry_dispatched ..
    simp only [finish,Op.apply,dispatchComplete,requestLock_none hr]
    simp only [bind,Except.bind,hcur,hheld,hchd,Bool.not_true,Bool.false_eq_true,if_false,
      if_true,reattach_eq hi,claimIdentity,hother]
  | _ => cases hc

theorem row_finish (h : f.finish d found db = .ok (db',reply)) (hr : db'.requests.lookup id = some r') :
    (∃ r, db.requests.lookup id = some r ∧ (r.reattachable = true → r'.reattachable = true)) ∨
      ∃ q reg, f.op = .enqueue q ∧ id = q.requestId ∧ r' = q.row d f.settings reg f.now := by
  rcases finish_cases hc h with ⟨q,reg,hop,-,-,hrows⟩ | hquiet | ⟨own,db₁,-,hquiet,rfl⟩
  · rw [hrows] at hr
    obtain ⟨rfl,rfl⟩ | ⟨-,hr⟩ := lookup_of_insert hr
    · exact .inr ⟨q,reg,hop,rfl,rfl⟩
    · exact .inl ⟨r',hr,fun hflag => hflag⟩
  · obtain ⟨r,hr,he⟩ := hquiet.row id r' hr
    exact .inl ⟨r,hr,fun hflag => (congrArg reattachable he).trans hflag⟩
  · obtain ⟨r₁,hr₁,hkept⟩ := row_claimIdentity hr
    obtain ⟨r,hr,he⟩ := hquiet.row id r₁ hr₁
    exact .inl ⟨r,hr,fun hflag => hkept ((congrArg reattachable he).trans hflag)⟩

theorem contends_of_undisturbed [DecidableEq δ] (h : f.undisturbed db db' = true)
    : f.op.contends db' = some f.contention := by
  rcases Op.contends_cases hc with
    ⟨q,_,_,hop,-,-,-⟩ | ⟨id,r,hrow,-,-,hop | ⟨_,hop⟩ | ⟨work,outcome,hop,rfl⟩⟩
  all_goals
    simp only [undisturbed,hop] at h
    rw [hop] at hc ⊢
  · simp only [Op.contends] at hc ⊢
    rw [of_decide_eq_true h]
    exact hc
  all_goals
    rw [hrow] at h
    simp only [Op.contends] at hc ⊢
    rw [of_decide_eq_true h]
    exact hc

end

end Flight

theorem Change.reattachable (h : Change d now op id r r') (hr : r.reattachable = true) :
    r'.reattachable = true := by
  cases h with
  | reattached => rfl
  | settled => exact (congrArg reattachable (r.retry_settle _)).trans hr
  | claimed => exact (congrArg reattachable (r.retry_mapObligation _ _)).trans hr
  | @claimsRenewed owned claimUntil =>
    have he : (r.renewClaims owned id claimUntil).retry = r.retry := r.retry_renewClaims owned claimUntil
    exact (congrArg reattachable he).trans hr
  | dispatched => exact (congrArg reattachable (r.retry_dispatched _ _ _)).trans hr
  | _ => exact hr

theorem Changed.reattachable (h : Changed d now op id r r') (hr : r.reattachable = true) :
    r'.reattachable = true := by
  induction h with
  | refl => exact hr
  | tail _ hlast ih => exact hlast.reattachable ih

theorem Fate.reattachable {before after} (h : Fate d settings now op id before after)
    (hb : ∀ r, before = some r → r.reattachable = true)
    (hent : ∀ q, op = .enqueue q → id ≠ q.requestId) (ha : after = some r) :
    r.reattachable = true := by
  cases h with
  | absent | removed => cases ha
  | entered hop hid => exact absurd hid (hent _ hop)
  | changed hchd | compacted hchd =>
    cases ha
    exact hchd.reattachable (hb _ rfl)

namespace Racing
variable [DecidableEq δ] {s s' : Racing δ} {e : RaceEvent} {t : Nat}

/-- No two requests of one identity are reattachable, an open transaction has its locks, and one
that found no owner has the only one. -/
structure Inv (s : Racing δ) : Prop where
  sys : s.sys.Inv
  once : ∀ i id₁ id₂ r₁ r₂, s.sys.db.requests.lookup id₁ = some r₁ →
    s.sys.db.requests.lookup id₂ = some r₂ → r₁.owns i = true → r₂.owns i = true → id₁ = id₂
  locks : ∀ t f, s.flights.lookup t = some f → f.op.contends s.sys.db = some f.contention
  clear : ∀ t f, s.flights.lookup t = some f → f.read = some none → ∀ id r,
    s.sys.db.requests.lookup id = some r → r.owns f.contention.identity = true →
      f.contention.row = some id
  apart : ∀ t₁ t₂ f₁ f₂, s.flights.lookup t₁ = some f₁ → s.flights.lookup t₂ = some f₂ →
    f₁.contention.identity = f₂.contention.identity → t₁ = t₂

omit [DecidableEq δ] in
theorem inv_start : (start : Racing δ).Inv :=
  ⟨System.inv_start,fun _ _ _ _ _ h => by simp [start,System.start,empty] at h,
    by simp [start],by simp [start],by simp [start]⟩

theorem undisturbed_flight {but} (h : s.undisturbed db but = true) (hf : s.flights.lookup t = some f)
    (hbut : some t ≠ but) : f.undisturbed s.sys.db db = true := by
  have hall := all_eq_true.mp h ⟨t,f⟩ (AList.mem_lookup_iff.mp hf)
  simpa [hbut] using hall

namespace Inv

omit [DecidableEq δ] in
theorem erase (hi : s.Inv) (t) : Inv { s with flights := s.flights.erase t } where
  sys := hi.sys
  once := hi.once
  locks t' f' hf' := hi.locks t' f' (lookup_of_erase hf').2
  clear t' f' hf' := hi.clear t' f' (lookup_of_erase hf').2
  apart t₁ t₂ f₁ f₂ hf₁ hf₂ := hi.apart t₁ t₂ f₁ f₂ (lookup_of_erase hf₁).2 (lookup_of_erase hf₂).2

theorem whole (hi : s.Inv) {sys} (hsys : sys.Inv) (hkept : OwnersKept s.sys.db sys.db)
    (hu : s.undisturbed sys.db none = true) : Inv { s with sys } where
  sys := hsys
  once i id₁ id₂ r₁ r₂ hr₁ hr₂ ho₁ ho₂ := by
    obtain ⟨q₁,hq₁,hp₁⟩ := hkept id₁ r₁ i hr₁ ho₁
    obtain ⟨q₂,hq₂,hp₂⟩ := hkept id₂ r₂ i hr₂ ho₂
    exact hi.once i id₁ id₂ q₁ q₂ hq₁ hq₂ hp₁ hp₂
  locks t f hf := contends_of_undisturbed (hi.locks t f hf) (undisturbed_flight hu hf nofun)
  clear t f hf hread id r hr ho := by
    obtain ⟨r₀,hr₀,ho₀⟩ := hkept id r _ hr ho
    exact hi.clear t f hf hread id r₀ hr₀ ho₀
  apart := hi.apart

omit [DecidableEq δ] in
theorem put (hi : s.Inv) (hc : f.op.contends s.sys.db = some f.contention)
    (hclear : f.read = some none → ∀ id r, s.sys.db.requests.lookup id = some r →
      r.owns f.contention.identity = true → f.contention.row = some id)
    (hapart : ∀ t' f', s.flights.lookup t' = some f' →
      f'.contention.identity = f.contention.identity → t' = t) :
    Inv { s with flights := s.flights.insert t f } := by
  refine ⟨hi.sys,hi.once,fun t' f' hf' => ?_,fun t' f' hf' => ?_,fun t₁ t₂ f₁ f₂ hf₁ hf₂ heq => ?_⟩
  · rcases lookup_of_insert hf' with ⟨-,rfl⟩ | ⟨-,hf'⟩
    · exact hc
    · exact hi.locks t' f' hf'
  · rcases lookup_of_insert hf' with ⟨-,rfl⟩ | ⟨-,hf'⟩
    · exact hclear
    · exact hi.clear t' f' hf'
  · rcases lookup_of_insert hf₁ with ⟨h₁,rfl⟩ | ⟨-,hold₁⟩ <;>
      rcases lookup_of_insert hf₂ with ⟨h₂,rfl⟩ | ⟨-,hold₂⟩
    · exact h₁.trans h₂.symm
    · exact h₁.trans (hapart t₂ f₂ hold₂ heq.symm).symm
    · exact (hapart t₁ f₁ hold₁ heq).trans h₂.symm
    · exact hi.apart t₁ t₂ f₁ f₂ hold₁ hold₂ heq

omit [DecidableEq δ] in
theorem enter (hi : s.Inv) (hc : f.op.contends s.sys.db = some f.contention) (hread : f.read = none)
    (hfree : s.flights.entries.all (!·.2.excludes f.contention) = true) :
    Inv { s with flights := s.flights.insert t f } := by
  refine hi.put hc (fun h => ?_) fun t' f' hf' heq => ?_
  · rw [hread] at h
    cases h
  · have hall := all_eq_true.mp hfree ⟨t',f'⟩ (AList.mem_lookup_iff.mp hf')
    simp [excludes,heq] at hall

omit [DecidableEq δ] in
theorem read (hi : s.Inv) (hf : s.flights.lookup t = some f) :
    let found := s.sys.db.owner f.contention.identity f.contention.row
    Inv { s with flights := s.flights.insert t { f with read := some found } } :=
  hi.put (hi.locks t f hf) (fun hread _ _ hr ho => owner_none (some.inj hread) hr ho)
    fun t' f' hf' heq => hi.apart t' t f' f hf' hf heq

theorem commit (hi : s.Inv) (hf : s.flights.lookup t = some f) (hread : f.read = some found)
    (hen : s.sys.enabled f.now f.op = true) (h : f.finish d found s.sys.db = .ok (db,reply))
    (hu : s.undisturbed db (some t) = true) :
    Inv ⟨s.sys.record d f.now f.op db,s.flights.erase t⟩ := by
  have hc := hi.locks t f hf
  have howns {id r i} (hr : db.requests.lookup id = some r) (ho : r.owns i = true) :=
    owns_finish hc h hr ho
  -- with no other owner found, the identity's owner is the transaction's own request
  have hown {id r} (hr : db.requests.lookup id = some r) (ho : r.owns f.contention.identity = true)
      (hnone : found = none) : f.contention.row = some id ∨
        ∃ q, f.op = .enqueue q ∧ f.contention.row = none ∧ id = q.requestId := by
    rcases howns hr ho with ⟨r₀,hr₀,ho₀⟩ | ⟨-,-,hself⟩
    · exact .inl (hi.clear t f hf (hnone ▸ hread) id r₀ hr₀ ho₀)
    · exact hself
  have hone {id₁ id₂ r₁ r₂} (hr₁ : db.requests.lookup id₁ = some r₁)
      (hr₂ : db.requests.lookup id₂ = some r₂) (ho₁ : r₁.owns f.contention.identity = true)
      (ho₂ : r₂.owns f.contention.identity = true) (hnone : found = none) : id₁ = id₂ := by
    rcases hown hr₁ ho₁ hnone with h₁ | ⟨q₁,hq₁,hn₁,rfl⟩ <;>
      rcases hown hr₂ ho₂ hnone with h₂ | ⟨q₂,hq₂,hn₂,rfl⟩
    · exact some.inj (h₁.symm.trans h₂)
    · exact absurd (h₁.symm.trans hn₂) nofun
    · exact absurd (h₂.symm.trans hn₁) nofun
    · obtain rfl : q₁ = q₂ := by simpa using hq₁.symm.trans hq₂
      rfl
  refine ⟨hi.sys.record hen fun id r hr => ?_,fun i id₁ id₂ r₁ r₂ hr₁ hr₂ ho₁ ho₂ => ?_,
    fun t' f' hf' => ?_,fun t' f' hf' hread' id r hr ho => ?_,(hi.erase t).apart⟩
  · rcases row_finish hc h hr with ⟨r₀,hr₀,-⟩ | ⟨q,_,hop,rfl,-⟩
    · exact mem_append_left _ (hi.sys.requests id r₀ hr₀)
    · exact mem_append_right _ (by simp [hop,Op.drawn])
  · rcases howns hr₁ ho₁ with ⟨q₁,hq₁,hp₁⟩ | ⟨hnone,rfl,-⟩
    · rcases howns hr₂ ho₂ with ⟨q₂,hq₂,hp₂⟩ | ⟨hnone,rfl,-⟩
      · exact hi.once i id₁ id₂ q₁ q₂ hq₁ hq₂ hp₁ hp₂
      · exact hone hr₁ hr₂ ho₁ ho₂ hnone
    · exact hone hr₁ hr₂ ho₁ ho₂ hnone
  · obtain ⟨hne,hold⟩ := lookup_of_erase hf'
    refine contends_of_undisturbed (hi.locks t' f' hold) (undisturbed_flight hu hold ?_)
    exact fun heq => hne (some.inj heq)
  · obtain ⟨hne,hold⟩ := lookup_of_erase hf'
    rcases howns hr ho with ⟨r₀,hr₀,ho₀⟩ | ⟨-,heq,-⟩
    · exact hi.clear t' f' hold hread' id r₀ hr₀ ho₀
    · exact absurd (hi.apart t' t f' f hold hf heq) hne

end Inv

theorem commit_cases (h : step d s (.commit t) = some s') :
    ∃ f found, s.flights.lookup t = some f ∧ f.read = some found ∧ s.sys.enabled f.now f.op = true ∧
      (s' = { s with flights := s.flights.erase t } ∨
        ∃ db reply, f.finish d found s.sys.db = .ok (db,reply) ∧ s.undisturbed db (some t) = true ∧
          s' = ⟨s.sys.record d f.now f.op db,s.flights.erase t⟩) := by
  obtain ⟨f,hf,h⟩ := bind_eq_some_iff.mp h
  obtain ⟨found,hread,h⟩ := bind_eq_some_iff.mp h
  obtain ⟨hen,h⟩ := of_check h nofun
  refine ⟨f,found,hf,hread,hen,?_⟩
  split at h
  · cases h
    exact .inl rfl
  · rename_i db reply hfin
    obtain ⟨hu,rfl⟩ := some_of_check h
    exact .inr ⟨db,reply,hfin,hu,rfl⟩

/-- A step of the relay that takes no identity's lock, a transaction that begins, queries or ends
without a write, or one that commits. -/
theorem step_cases (h : step d s e = some s') :
    (∃ e' sys, e = .whole e' ∧ e'.uncontended s.sys.db = true ∧ s.sys.step d e' = some sys ∧
      s.undisturbed sys.db none = true ∧ s' = { s with sys }) ∨
    (∃ t f, f.op.contends s.sys.db = some f.contention ∧ f.read = none ∧
      s.flights.entries.all (!·.2.excludes f.contention) = true ∧
      s' = { s with flights := s.flights.insert t f }) ∨
    (∃ t f, s.flights.lookup t = some f ∧ s' = ⟨s.sys,s.flights.insert t
      { f with read := some (s.sys.db.owner f.contention.identity f.contention.row) }⟩) ∨
    (∃ t, s' = { s with flights := s.flights.erase t }) ∨
    ∃ t f found db reply, e = .commit t ∧ s.flights.lookup t = some f ∧ f.read = some found ∧
      s.sys.enabled f.now f.op = true ∧ f.finish d found s.sys.db = .ok (db,reply) ∧
      s.undisturbed db (some t) = true ∧ s' = ⟨s.sys.record d f.now f.op db,s.flights.erase t⟩ := by
  cases e with
  | whole e' =>
    obtain ⟨hfree,h⟩ := of_check h nofun
    obtain ⟨sys,hsys,h⟩ := bind_eq_some_iff.mp h
    obtain ⟨hu,rfl⟩ := some_of_check h
    exact .inl ⟨e',sys,rfl,hfree,hsys,hu,rfl⟩
  | enter t settings now op =>
    obtain ⟨c,hc,h⟩ := bind_eq_some_iff.mp h
    obtain ⟨hfree,rfl⟩ := some_of_check h
    exact .inr (.inl ⟨t,{ settings, now, op, contention := c },hc,rfl,hfree.2,rfl⟩)
  | read t =>
    obtain ⟨f,hf,h⟩ := bind_eq_some_iff.mp h
    split at h
    · cases h
      exact .inr (.inr (.inl ⟨t,f,hf,rfl⟩))
    · cases h
  | commit t =>
    obtain ⟨f,found,hf,hread,hen,rfl | ⟨db,reply,hfin,hu,rfl⟩⟩ := commit_cases h
    · exact .inr (.inr (.inr (.inl ⟨t,rfl⟩)))
    · exact .inr (.inr (.inr (.inr ⟨t,f,found,db,reply,rfl,hf,hread,hen,hfin,hu,rfl⟩)))
  | abort t =>
    simp only [step] at h
    split at h
    · cases h
      exact .inr (.inr (.inr (.inl ⟨t,rfl⟩)))
    · cases h

theorem Inv.step (hi : s.Inv) (h : step d s e = some s') : s'.Inv := by
  rcases step_cases h with ⟨e',sys,-,hfree,hsys,hu,rfl⟩ | ⟨t,f,hc,hread,hfree,rfl⟩ | ⟨t,f,hf,rfl⟩ |
    ⟨t,rfl⟩ | ⟨t,f,found,db,reply,-,hf,hread,hen,hfin,hu,rfl⟩
  · refine hi.whole (hi.sys.step hsys) ?_ hu
    rcases System.step_cases hsys with ⟨hdb,-⟩ | ⟨settings,now,op,db,reply,rfl,-,happly,rfl⟩
    · exact (Quiet.of_requests (congrArg requests hdb)).ownersKept
    · exact ownersKept_of_apply (isNone_iff_eq_none.mp hfree) happly
  · exact hi.enter hc hread hfree
  · exact hi.read hf
  · exact hi.erase t
  · exact hi.commit hf hread hen hfin hu

theorem inv_of_reaches (h : Reaches (Racing.step d) anyEvent (· = start) s) : s.Inv :=
  h.keeps inv_start fun _ _ _ hi _ => hi.step

def Reattachable (id : Token) (s : Racing δ) : Prop :=
  id ∈ s.sys.drawn ∧ ∀ r, s.sys.db.requests.lookup id = some r → r.reattachable = true

theorem Reattachable.step (hk : s.Reattachable id) (hi : s.Inv) (h : Racing.step d s e = some s') :
    s'.Reattachable id := by
  obtain ⟨hdrawn,hflag⟩ := hk
  rcases step_cases h with ⟨e',sys,-,-,hsys,-,rfl⟩ | ⟨_,_,-,-,-,rfl⟩ | ⟨_,_,-,rfl⟩ | ⟨_,rfl⟩ |
    ⟨t,f,found,db,reply,-,hf,-,hen,hfin,-,rfl⟩
  · refine ⟨System.drawn_step hsys hdrawn,fun r hr => ?_⟩
    rcases hi.sys.fate hsys id with hsame | ⟨_,now,op,-,hen,hfate⟩
    · exact hflag r (hsame ▸ hr)
    refine hfate.reattachable hflag ?_ hr
    rintro q rfl rfl
    exact (System.enabled.spec hen).2.2 q.requestId (by simp [Op.drawn]) hdrawn
  · exact ⟨hdrawn,hflag⟩
  · exact ⟨hdrawn,hflag⟩
  · exact ⟨hdrawn,hflag⟩
  · refine ⟨mem_append_left _ hdrawn,fun r hr => ?_⟩
    rcases row_finish (hi.locks t f hf) hfin hr with ⟨r₀,hr₀,hkept⟩ | ⟨q,_,hop,rfl,-⟩
    · exact hkept (hflag r₀ hr₀)
    · exact absurd hdrawn ((System.enabled.spec hen).2.2 q.requestId (by simp [hop,Op.drawn]))

theorem Reattachable.of_reaches (hk : s.Reattachable id) (hi : s.Inv)
    (h : Reaches (Racing.step d) anyEvent (· = s) s') : s'.Reattachable id := by
  have hboth : s'.Inv ∧ s'.Reattachable id := by
    refine h.keeps (I := fun s => s.Inv ∧ s.Reattachable id) ⟨hi,hk⟩ fun s e s' hi _ hs => ?_
    exact ⟨hi.1.step hs,hi.2.step hi.1 hs⟩
  exact hboth.2

section Enqueues
variable {q : Enqueue}

omit [DecidableEq δ] in
theorem Inv.enqueues (hi : s.Inv) (hf : s.flights.lookup t = some f) (hop : f.op = .enqueue q) :
    ∃ reg key, validateRegistration (s.sys.db.rollouts.lookup q.rolloutId) q.expectedToken = .ok reg ∧
      q.idempotencyKey = some key ∧ f.contention = ⟨⟨q.rolloutId,reg.registrationToken,key⟩,none⟩ := by
  have hc := hi.locks t f hf
  rw [hop] at hc
  rcases Op.contends_cases hc with ⟨_,reg,key,⟨⟩,hreg,hkey,hc⟩ | ⟨_,_,_,-,-,h | ⟨_,h⟩ | ⟨_,_,h,-⟩⟩
  · exact ⟨reg,key,hreg,hkey,hc⟩
  all_goals cases h

omit [DecidableEq δ] in
theorem Inv.owner_found (hi : s.Inv) (hf : s.flights.lookup t = some f) (hop : f.op = .enqueue q)
    (hr : s.sys.db.requests.lookup id = some r) (ho : r.owns f.contention.identity = true) :
    s.sys.db.owner f.contention.identity f.contention.row = some (id,r) := by
  obtain ⟨_,_,-,-,hc⟩ := hi.enqueues hf hop
  cases hfound : s.sys.db.owner f.contention.identity f.contention.row with
  | none => exact absurd (owner_none hfound hr ho) (by simp [hc])
  | some =>
    obtain ⟨hr',ho'⟩ := owner_some hfound
    obtain rfl := hi.once _ _ _ _ _ hr hr' ho ho'
    cases hr.symm.trans hr'
    rfl

theorem Inv.created (hi : s.Inv) (hf : s.flights.lookup t = some f) (hop : f.op = .enqueue q)
    (hdefer : q.deferIdempotency = false) (h : Racing.step d s (.commit t) = some s')
    (hthere : (s'.sys.db.requests.lookup q.requestId).isSome = true) : s'.Reattachable q.requestId := by
  obtain ⟨_,key,-,hkey,-⟩ := hi.enqueues hf hop
  obtain ⟨_,found,hf',-,hen,hend⟩ := commit_cases h
  cases hf.symm.trans hf'
  have hfresh := hi.sys.enters hen q hop
  rcases hend with rfl | ⟨db,reply,hfin,-,rfl⟩
  · rw [hfresh] at hthere
    cases hthere
  · refine ⟨mem_append_right _ (by simp [hop,Op.drawn]),fun r hr => ?_⟩
    rcases row_finish (hi.locks t f hf) hfin hr with ⟨r₀,hr₀,-⟩ | ⟨q',reg,hop',-,rfl⟩
    · cases hfresh.symm.trans hr₀
    · obtain rfl : q = q' := by simpa using hop.symm.trans hop'
      simp [Enqueue.row,hkey,hdefer]

end Enqueues

end Racing

/-- However enqueues, disconnects, wakes and completions interleave, at most one request of an
identity is reattachable, and an enqueue finds it. -/
theorem retries_reattach [DecidableEq δ] {s : Racing δ}
    (hs : Reaches (Racing.step d) anyEvent (· = .start) s) :
    (∀ i id₁ id₂ r₁ r₂, s.sys.db.requests.lookup id₁ = some r₁ →
      s.sys.db.requests.lookup id₂ = some r₂ → r₁.owns i = true → r₂.owns i = true → id₁ = id₂) ∧
    (∀ t f q, s.flights.lookup t = some f → f.op = .enqueue q →
      (∃ reg key, validateRegistration (s.sys.db.rollouts.lookup q.rolloutId) q.expectedToken = .ok reg ∧
        q.idempotencyKey = some key ∧
        f.contention.identity = ⟨q.rolloutId,reg.registrationToken,key⟩) ∧
      (∀ id r, s.sys.db.requests.lookup id = some r → r.owns f.contention.identity = true →
        f.read = none → ∃ s', Racing.step d s (.read t) = some s' ∧
          s'.flights.lookup t = some { f with read := some (some (id,r)) }) ∧
      (∀ id existing, f.read = some (some (id,existing)) → f.finish d (some (id,existing)) s.sys.db =
        if existing.requestDigest ≠ q.digest then
          .error (.conflict "idempotency key was already used for a different relay request")
        else if id ∈ s.sys.db.requests then .ok (s.sys.db,.queued id)
        else .error (.notFound "request not found")) ∧
      (f.read = some none → ∀ id r, s.sys.db.requests.lookup id = some r →
        r.owns f.contention.identity = false)) ∧
    ∀ t f q key s', s.flights.lookup t = some f → f.op = .enqueue q → q.idempotencyKey = some key →
      q.deferIdempotency = false → Racing.step d s (.commit t) = some s' →
      (s'.sys.db.requests.lookup q.requestId).isSome = true →
      ∀ s'', Reaches (Racing.step d) anyEvent (· = s') s'' → ∀ r,
        s''.sys.db.requests.lookup q.requestId = some r → r.reattachable = true := by
  have hi := Racing.inv_of_reaches hs
  refine ⟨hi.once,fun t f q hf hop => ⟨?_,?_,?_,?_⟩,?_⟩
  · obtain ⟨reg,key,hreg,hkey,hc⟩ := hi.enqueues hf hop
    exact ⟨reg,key,hreg,hkey,by rw [hc]⟩
  · intro id r hr ho hread
    refine ⟨⟨s.sys,s.flights.insert t { f with read := some (some (id,r)) }⟩,?_,AList.lookup_insert _⟩
    simp only [Racing.step,hf,bind_some,hread,isNone_none,if_true]
    rw [hi.owner_found hf hop hr ho]
  · intro id existing _
    obtain ⟨reg,_,hreg,-⟩ := hi.enqueues hf hop
    simp only [finish,hop,hreg]
    rfl
  · intro hread id r hr
    obtain ⟨_,_,-,-,hc⟩ := hi.enqueues hf hop
    rw [← Bool.not_eq_true]
    intro ho
    exact absurd (hi.clear t f hf hread id r hr ho) (by simp [hc])
  · intro t f q key s' hf hop hkey hdefer hstep hthere s'' hs'' r hr
    exact ((hi.created hf hop hdefer hstep hthere).of_reaches (hi.step hstep) hs'').2 r hr

namespace Example

def keyed (id : Token) : Enqueue := { request with idempotencyKey := some "key", requestId := id }

def retriedEvents : List RaceEvent :=
  [.whole (.tick 1000),
    .whole (.transact process 1000 (.register "rollout" "token" (some "sandbox") (some 1))),
    .enter 1 process 1000 (.enqueue (keyed "first")),
    .read 1,
    .commit 1,
    .enter 2 process 1000 (.enqueue (keyed "second"))]

end Example

open Example

theorem retries_reattach_second : ∃ s : Racing WorkerResponse,
    Reaches (Racing.step deployment) anyEvent (· = .start) s ∧
    ∃ s' r, Racing.step deployment s (.read 2) = some s' ∧
      (s'.flights.lookup 2).bind (·.read) = some (some ("first",r)) ∧
      r.requestDigest = (keyed "second").digest := by
  obtain ⟨s,hs,r,hr,f,hf,ho,hdig,hread,hop⟩ := Reaches.exists_from_run (Racing.step deployment) .start
    retriedEvents (fun s => ∃ r ∈ s.sys.db.requests.lookup "first", ∃ f ∈ s.flights.lookup 2,
      r.owns f.contention.identity ∧ r.requestDigest = "digest" ∧ f.read = none ∧
        f.op = .enqueue (keyed "second")) (by decide +kernel)
  obtain ⟨s',hs',hf'⟩ := ((retries_reattach hs).2.1 2 f (keyed "second") hf hop).2.1 "first" r hr ho hread
  exact ⟨s,hs,s',r,hs',by rw [hf']; rfl,hdig⟩

/-- A transaction that commits on what its query finds then does what it would have done at once. -/
theorem flight_finishes_atomically [DecidableEq δ] {s : Racing δ} {t f}
    (hs : Reaches (Racing.step d) anyEvent (· = .start) s) (hf : s.flights.lookup t = some f) :
    f.finish d (s.sys.db.owner f.contention.identity f.contention.row) s.sys.db =
      f.op.apply d f.settings f.now s.sys.db :=
  finish_eq_apply ((Racing.inv_of_reaches hs).locks t f hf)

theorem flight_finishes_atomically_second : ∃ (f : Flight WorkerResponse) (db : RelayStore WorkerResponse),
    f.op = .enqueue (keyed "second") ∧
    f.finish deployment (db.owner f.contention.identity f.contention.row) db =
      f.op.apply deployment f.settings f.now db := by
  obtain ⟨s,hs,f,hf,hop⟩ := Reaches.exists_from_run (Racing.step deployment) .start retriedEvents
    (fun s => ∃ f ∈ s.flights.lookup 2, f.op = .enqueue (keyed "second")) (by decide +kernel)
  exact ⟨f,_,hop,flight_finishes_atomically hs hf⟩

end UCloudSandboxes.Relay
