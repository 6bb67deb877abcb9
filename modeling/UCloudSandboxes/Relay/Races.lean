import UCloudSandboxes.Relay.Fates

namespace UCloudSandboxes.Relay
open Machine

variable {δ : Type} {d : Deployment δ} {settings : Settings} {now : Nat} {id : Token}
variable {db db' : RelayStore δ} {r r' : Request δ} {reply : Reply} {i : RetryIdentity}

namespace Request

def owns (r : Request δ) (i : RetryIdentity) : Bool :=
  r.retry.reattachable && r.retry.identity = some i

theorem owns_congr (h : r'.retry = r.retry) (i) : r'.owns i = r.owns i := by
  rw [owns,owns,h]

theorem owns_iff : r.owns i = true ↔ r.rolloutId = i.rolloutId ∧
    r.registrationToken = i.registrationToken ∧ r.idempotencyKey = some i.key ∧ r.reattachable = true := by
  obtain ⟨rollout,token,key⟩ := i
  simp only [owns,retry,Bool.and_eq_true,decide_eq_true_eq,Option.map_eq_some_iff,
    RetryIdentity.mk.injEq]
  constructor
  · rintro ⟨ha,k,hk,rfl,rfl,rfl⟩
    exact ⟨rfl,rfl,hk,ha⟩
  · rintro ⟨rfl,rfl,hk,ha⟩
    exact ⟨ha,key,hk,rfl,rfl,rfl⟩

end Request

theorem quiet_maintain (batch) : Quiet db (db.maintain d settings now batch).1 := by
  have hqui : Quietly d now (.maintain batch) db (db.expire d now batch.expired) := expire_quietly _
  have hexp := hqui.quiet
  generalize hdb : db.expire d now batch.expired = expired at hexp
  have hcom : Quiet expired { expired with
      requests := mapRows expired.requests fun id r =>
        if RelayStore.compacts batch.compacted id r then r.compact else r } := by
    refine .of_mapRows fun id r => ?_
    split <;> rfl
  simp only [RelayStore.maintain,hdb]
  exact ((hexp.trans hcom).trans .of_keepRows).trans (.of_requests rfl)

/-! Transactions that race for a retry identity under read committed: each takes the identity's
advisory lock, reads who owns it, then writes and commits, with others in between as the rows locked
allow. -/

variable (db : RelayStore δ)

def RelayStore.owner (i : RetryIdentity) (except : Option Token) : Option (Token × Request δ) :=
  (db.requests.entries.find? fun e => e.2.owns i && some e.1 ≠ except).map fun e => (e.1,e.2)

/-- What a transaction that takes an advisory lock has locked: the identity, and the request's row. -/
structure Contention where
  identity : RetryIdentity
  row : Option Token
deriving DecidableEq

def Op.contends : Op → Option Contention
  | .enqueue q =>
    match validateRegistration (db.rollouts.lookup q.rolloutId) q.expectedToken with
    | .error _ => none
    | .ok reg => q.idempotencyKey.map fun key => ⟨⟨q.rolloutId,reg.registrationToken,key⟩,none⟩
  | .detach id => (db.requests.lookup id).bind fun r => r.retry.identity.map (⟨·,some id⟩)
  | .deliverLocal id acknowledged =>
    (db.requests.lookup id).bind fun r =>
      if r.localWait ∧ !acknowledged then r.retry.identity.map (⟨·,some id⟩) else none
  | .dispatch work outcome =>
    (db.requests.lookup work.requestId).bind fun r =>
      if (r.obligation work.action).any (·.heldBy work.claimToken) ∧
          (work.sent outcome).transport.any (r.transportChanged work.action) then
        r.retry.identity.map (⟨·,some work.requestId⟩)
      else none
  | _ => none

/-- `UPDATE ... SET reattachable=true` unless another owner was found. -/
def RelayStore.claimIdentity (id : Token) (found : Option (Token × Request δ)) : RelayStore δ :=
  if found.isSome then db else db.update id fun r => { r with reattachable := true }

structure Flight (δ : Type) where
  settings : Settings
  now : Nat
  op : Op
  contention : Contention
  read : Option (Option (Token × Request δ)) := none

namespace Flight

def finish (d : Deployment δ) (f : Flight δ) (found : Option (Token × Request δ)) (db : RelayStore δ) :
    Except RelayError (RelayStore δ × Reply) :=
  match f.op with
  | .enqueue q => do
    let reg ← validateRegistration (db.rollouts.lookup q.rolloutId) q.expectedToken
    match found with
    | some (id,existing) => db.retried q id existing
    | none => db.insertRequest d f.settings f.now q reg
  | .detach id => .ok (db.claimIdentity id found,.done)
  | .deliverLocal id _ => .ok (db.claimIdentity id found,.done)
  | .dispatch work outcome =>
    .ok ((db.dispatched f.now work outcome).claimIdentity work.requestId found,.done)
  | _ => .ok (db,.done)

/-- The rows the transaction has locked are as they were: the registration's for an enqueue, else
the request's. -/
def undisturbed [DecidableEq δ] (f : Flight δ) (db db' : RelayStore δ) : Bool :=
  match f.op with
  | .enqueue q => db'.rollouts.lookup q.rolloutId = db.rollouts.lookup q.rolloutId
  | _ => f.contention.row.all fun id => db'.requests.lookup id = db.requests.lookup id

/-- Transactions that cannot hold their locks together: the lock's name has the registration token
and the key. -/
def excludes (f : Flight δ) (c : Contention) : Bool :=
  (f.contention.identity.registrationToken = c.identity.registrationToken &&
      f.contention.identity.key = c.identity.key) ||
    c.row.any fun id => f.contention.row = some id

end Flight

variable [DecidableEq δ]

structure Racing (δ : Type) where
  sys : System δ
  flights : AList fun _ : Nat => Flight δ

inductive RaceEvent
  | whole (e : Event)
  | enter (t : Nat) (settings : Settings) (now : Nat) (op : Op)
  | read (t : Nat)
  | commit (t : Nat)
  | abort (t : Nat)
deriving DecidableEq

def Event.uncontended : Event → Bool
  | .transact _ _ op => (op.contends db).isNone
  | _ => true

namespace Racing

def start : Racing δ := ⟨.start,∅⟩

def undisturbed (s : Racing δ) (db : RelayStore δ) (but : Option Nat) : Bool :=
  s.flights.entries.all fun e => some e.1 = but || e.2.undisturbed s.sys.db db

def step (d : Deployment δ) (s : Racing δ) : RaceEvent → Option (Racing δ)
  | .whole e =>
    if e.uncontended s.sys.db then
      (s.sys.step d e).bind fun sys =>
        if s.undisturbed sys.db none then some { s with sys } else none
    else none
  | .enter t settings now op =>
    (op.contends s.sys.db).bind fun contention =>
      if t ∉ s.flights ∧ s.flights.entries.all (!·.2.excludes contention) then
        some { s with flights := s.flights.insert t { settings, now, op, contention } }
      else none
  | .read t =>
    (s.flights.lookup t).bind fun f =>
      if f.read.isNone then
        let found := s.sys.db.owner f.contention.identity f.contention.row
        some { s with flights := s.flights.insert t { f with read := some found } }
      else none
  | .commit t =>
    (s.flights.lookup t).bind fun f => f.read.bind fun found =>
      if s.sys.enabled f.now f.op then
        match f.finish d found s.sys.db with
        | .error _ => some { s with flights := s.flights.erase t }
        | .ok (db,_) =>
          if s.undisturbed db (some t) then
            some ⟨s.sys.record d f.now f.op db,s.flights.erase t⟩
          else none
      else none
  | .abort t => if t ∈ s.flights then some { s with flights := s.flights.erase t } else none

end Racing

end UCloudSandboxes.Relay
