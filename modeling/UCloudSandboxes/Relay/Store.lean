import UCloudSandboxes.Machine.Table

/-! One request of the model relay: its row with its result and lifecycle obligations, and what
transactions do to it. Times are milliseconds of the database's clock. -/
namespace UCloudSandboxes.Relay

def maxWorkerResponseBytes : Nat := 32 * 1024 ^ 2

def responseReservation : Nat := maxWorkerResponseBytes + 65536

def localWakeGrace : Nat := 5000

def maxTransientWorkerDeliveries : Nat := 3

/-- Request ids, registration tokens, lease ids and claim tokens. -/
abbrev Token := String

inductive ResponseBody
  | bytes (raw : String)
  | openaiError (message errorType : String)
deriving DecidableEq

structure WorkerResponse where
  status : Nat
  body : ResponseBody
  headers : List (String × String) := []
deriving DecidableEq

/-- What all relay processes share: the lifecycle notifiers, the storage budget, and a response's
SHA-256 and retained size. -/
structure Deployment (δ : Type) where
  parkNotifier : Bool
  wakeNotifier : Bool
  storageBudget : Nat
  digest : WorkerResponse → δ
  retainedBytes : WorkerResponse → Nat
  budget_admits : responseReservation ≤ storageBudget

structure Settings where
  requestTimeout : Nat
  retention : Nat
  claimTime : Nat
  localModelWaits : Bool
deriving DecidableEq

inductive RequestState
  | pending
  | leased
  | completed
deriving DecidableEq

inductive LifecycleAction
  | park
  | wake
deriving DecidableEq

inductive RelayError
  | notFound (text : String)
  | conflict (text : String)
  | gone (text : String)
  | tooManyRequests (text : String)
deriving DecidableEq

structure Lifecycle where
  done : Bool := false
  claimToken : Option Token := none
  claimUntil : Option Nat := none
  nextAttemptAt : Nat
  attempts : Nat := 0
  lastError : Option String := none
deriving DecidableEq

structure RelayResult (δ : Type) where
  response : WorkerResponse
  digest : δ
deriving DecidableEq

structure Request (δ : Type) where
  rolloutId : String
  registrationToken : Token
  createdAt : Nat
  expiresAt : Nat
  payloadBytes : Nat
  reservedBytes : Nat
  state : RequestState
  idempotencyKey : Option String
  requestDigest : String
  reattachable : Bool
  sandboxId : Option String
  sandboxGeneration : Option Nat
  localWait : Bool
  leaseId : Option Token := none
  leaseExpiresAt : Option Nat := none
  leasedBy : Option String := none
  deliveredAt : Option Nat := none
  firstDeliveredAt : Option Nat := none
  deliveryCount : Nat := 0
  completedAt : Option Nat := none
  completedBytes : Nat := 0
  deliveryPending : Bool := false
  acceptedNotifiedAt : Option Nat := none
  parkedTransportEpoch : Option String := none
  wakeNotifiedAt : Option Nat := none
  wakeTransportEpoch : Option String := none
  deliveryReleasedAt : Option Nat := none
  result : Option (RelayResult δ) := none
  park : Option Lifecycle := none
  wake : Option Lifecycle := none
deriving DecidableEq

namespace Request
variable {δ : Type} (r : Request δ)

def obligation : LifecycleAction → Option Lifecycle
  | .park => r.park
  | .wake => r.wake

def mapObligation (f : Lifecycle → Lifecycle) : LifecycleAction → Request δ
  | .park => { r with park := r.park.map f }
  | .wake => { r with wake := r.wake.map f }

section MapObligation
variable (f : Lifecycle → Lifecycle) (action : LifecycleAction)

@[simp]
theorem state_mapObligation : (r.mapObligation f action).state = r.state := by cases action <;> rfl

@[simp]
theorem result_mapObligation : (r.mapObligation f action).result = r.result := by cases action <;> rfl

@[simp]
theorem leaseId_mapObligation : (r.mapObligation f action).leaseId = r.leaseId := by cases action <;> rfl

@[simp]
theorem deliveryPending_mapObligation :
    (r.mapObligation f action).deliveryPending = r.deliveryPending := by
  cases action <;> rfl

@[simp]
theorem reservedBytes_mapObligation : (r.mapObligation f action).reservedBytes = r.reservedBytes := by
  cases action <;> rfl

end MapObligation

def unfinished : Bool := r.state ≠ .completed || r.deliveryPending

/-- The rows `poll` may hand out at a time: pending, or leased and not renewed in time. -/
def claimable (now : Nat) : Bool :=
  now < r.expiresAt && (r.state = .pending || r.state = .leased && r.leaseExpiresAt.any (· ≤ now))

def lease (leaseId : Token) (leaseTime : Nat) (workerId : Option String) (now : Nat) : Request δ :=
  { r with
    state := .leased
    leaseId := some leaseId
    leaseExpiresAt := some (now + max 1 leaseTime)
    leasedBy := workerId
    deliveredAt := some now
    firstDeliveredAt := r.firstDeliveredAt.or (some now)
    deliveryCount := r.deliveryCount + 1 }

def validLease (leaseId : Option Token) (now : Nat) : Except RelayError Unit :=
  if r.state ≠ .leased ∨ leaseId = none ∨ r.leaseId ≠ leaseId then
    .error (.conflict "request lease is no longer active")
  else if r.leaseExpiresAt.all (· ≤ now) ∨ r.expiresAt ≤ now then
    .error (.conflict "request lease has expired")
  else .ok ()

def renew (leaseTime : Nat) (workerId : Option String) (now : Nat) : Request δ :=
  { r with leaseExpiresAt := some (now + max 1 leaseTime), leasedBy := workerId.or r.leasedBy }

def requeue : Request δ :=
  { r with
    state := .pending, leaseId := none, leaseExpiresAt := none, leasedBy := none, deliveredAt := none }

section
variable (d : Deployment δ) (response : WorkerResponse) (now : Nat)

/-- Commit a response. With a wake notifier a deferred answer stays pending until its wake; one of
a local wait is delivered at once and its wake waits for the acknowledgment. -/
def complete (deferred : Bool) : Request δ :=
  let wake := deferred && r.sandboxId.isSome && d.wakeNotifier
  let atOnce := wake && r.localWait
  let pending := wake && !atOnce
  { r with
    result := some ⟨response,d.digest response⟩
    state := .completed
    completedAt := some now
    completedBytes := d.retainedBytes response
    deliveryPending := pending
    payloadBytes := 0
    -- ON CONFLICT DO NOTHING keeps a row that is already there
    wake := if pending || atOnce then
        r.wake.or (some { nextAttemptAt := now + if atOnce then localWakeGrace else 0 })
      else r.wake
    park := r.park.map fun l => if l.done || l.claimToken.isSome then l else { l with done := true } }

def release (now : Nat) : Request δ :=
  { r with deliveryPending := false, deliveryReleasedAt := some now }

def closeLifecycle : Request δ :=
  let close := fun l : Lifecycle => { l with done := true, claimToken := none, claimUntil := none }
  { r with park := r.park.map close, wake := r.wake.map close }

/-- End a request whose caller or registration is gone: it is released or answered, and no lifecycle
work is left. -/
def settle : Request δ :=
  (if r.state = .completed then r.release now else r.complete d response now false).closeLifecycle

end

def confirmLocal : Request δ :=
  r.mapObligation (fun l => if l.done || l.claimToken.isSome then l else { l with done := true }) .wake

def compactable : Bool := r.state = .completed && r.completedBytes + 65536 < r.reservedBytes

def compact : Request δ := { r with reservedBytes := r.completedBytes + 65536 }

def openLifecycle : Bool := r.park.any (!·.done) || r.wake.any (!·.done)

def retired (now retention : Nat) : Bool :=
  r.state = .completed && !r.deliveryPending && r.completedAt.any (· < now - retention) &&
    (r.deliveryReleasedAt.or r.completedAt).any (· < now - retention) && !r.openLifecycle

end Request

variable (l : Lifecycle)

def Lifecycle.due (now : Nat) : Bool :=
  !l.done && l.nextAttemptAt ≤ now && l.claimUntil.all (· ≤ now)

def Lifecycle.claim (token : Token) (claimTime now : Nat) : Lifecycle :=
  { l with claimToken := some token, claimUntil := some (now + claimTime), attempts := l.attempts + 1 }

def Lifecycle.heldBy (token : Token) : Bool := !l.done && l.claimToken = some token

inductive Notified
  | delivered (epoch : Option String)
  | unavailable
  | deferred (delay : Nat) (epoch : Option String)
  | failed (error : String)
deriving DecidableEq

def Notified.transport : Notified → Option (Option String)
  | .delivered epoch => some epoch
  | .unavailable => some none
  | .deferred _ _ => none
  | .failed _ => none

namespace Request
variable {δ : Type} (r : Request δ)

variable (action : LifecycleAction) (epoch : Option String) (error : Option String)
  (unavailable : Bool) (now : Nat)

def postpone (nextAttemptAt : Nat) : Request δ :=
  r.mapObligation (fun l =>
    { l with claimToken := none, claimUntil := none, lastError := error, nextAttemptAt }) action

/-- The worker accepted the park decision: the first receipt and its transport stay. -/
def accept : Request δ :=
  { r with
    acceptedNotifiedAt := r.acceptedNotifiedAt.or (some now)
    parkedTransportEpoch := r.parkedTransportEpoch.or epoch }

def awake : Request δ :=
  { r with
    wakeNotifiedAt := if unavailable then none else some now
    wakeTransportEpoch := epoch
    deliveryPending := false
    deliveryReleasedAt := some now }

def finish : Request δ :=
  r.mapObligation (fun l =>
    { l with done := true, claimToken := none, claimUntil := none, lastError := error }) action

/-- A wake over another transport than the one that parked: the caller has to attach again. -/
def transportChanged : Bool :=
  match action with
  | .wake => epoch.isSome && r.parkedTransportEpoch.isSome && epoch ≠ r.parkedTransportEpoch
  | .park =>
    let original := r.parkedTransportEpoch.or epoch
    original.isSome && r.wakeTransportEpoch.isSome && original ≠ r.wakeTransportEpoch

def notified : Request δ :=
  let error := if unavailable then some "caller_unavailable" else none
  match action with
  | .wake => (r.awake epoch unavailable now).finish .wake error
  | .park => (r.accept epoch now).finish .park error

def dispatched (attempts : Nat) (outcome : Notified) (now : Nat) : Request δ :=
  match outcome with
  -- min(5, 0.05 * 2 ** min(attempts, 7)) seconds
  | .failed error => r.postpone action (some error) (now + min 5000 (50 * 2 ^ min attempts 7))
  | .deferred delay epoch =>
    (if action = .park ∧ epoch.isSome then r.accept epoch now else r).postpone action none (now + delay)
  | .unavailable => r.notified action none true now
  | .delivered epoch => r.notified action epoch false now

end Request

/-! The relay's tables and its transactions, each one function of the tables; one that raises leaves
them as they were. `LIMIT` and `SKIP LOCKED` leave out any rows: the batch is an argument. -/
open Machine

structure Rollout where
  registrationToken : Token
  sandboxId : Option String
  sandboxGeneration : Option Nat
  enabled : Bool
deriving DecidableEq

structure RelayStore (δ : Type) where
  rollouts : AList fun _ : String => Rollout
  requests : AList fun _ : Token => Request δ
  reservedBytes : Int

structure Grant where
  requestId : Token
  leaseId : Token
  workerId : Option String
deriving DecidableEq

structure Work where
  requestId : Token
  action : LifecycleAction
  claimToken : Token
  attempts : Nat
  requestState : RequestState
deriving DecidableEq

/-- A park whose request was answered when it was claimed is not sent. -/
def Work.sent (w : Work) (outcome : Notified) : Notified :=
  if w.action = .park ∧ w.requestState = .completed then .delivered none else outcome

inductive Reply
  | done
  | unregistered (changed : Bool)
  | registered (token : Token)
  | queued (requestId : Token)
  | leased (grants : List Grant)
  | committed
  | duplicate
  | retried (requeued : Bool)
  | answered (response : Option WorkerResponse)
  | claimed (works : List Work)
deriving DecidableEq

structure Enqueue where
  rolloutId : String
  size : Nat
  digest : String
  idempotencyKey : Option String
  deferIdempotency : Bool
  expectedToken : Option Token
  localWait : Bool
  requestId : Token
deriving DecidableEq

structure Poll where
  rolloutId : String
  registrationToken : Token
  limit : Nat
  leaseTime : Nat
  workerId : Option String
  /-- The requests taken, each with the lease id drawn for it. -/
  picks : List (Token × Token)
deriving DecidableEq

structure Maintenance where
  expired : List Token
  compacted : List Token
  removed : List Token
deriving DecidableEq

variable {δ : Type}

def validateRegistration (record : Option Rollout) (token : Option Token) : Except RelayError Rollout :=
  match record with
  | none => .error (.notFound "rollout is not registered")
  | some record =>
    if !record.enabled then .error (.notFound "rollout is not registered")
    else if token.all (· = record.registrationToken) then .ok record
    else .error (.conflict "rollout registration is no longer current")

def Enqueue.row (q : Enqueue) (d : Deployment δ) (settings : Settings) (reg : Rollout) (now : Nat) :
    Request δ :=
  let atOnce := q.localWait && settings.localModelWaits && reg.sandboxId.isSome
  { rolloutId := q.rolloutId
    registrationToken := reg.registrationToken
    createdAt := now
    expiresAt := now + settings.requestTimeout
    payloadBytes := q.size
    reservedBytes := q.size + responseReservation
    state := .pending
    idempotencyKey := q.idempotencyKey
    requestDigest := q.digest
    reattachable := q.idempotencyKey.isSome && !q.deferIdempotency
    sandboxId := reg.sandboxId
    sandboxGeneration := reg.sandboxGeneration
    localWait := atOnce
    park := if reg.sandboxId.isSome && d.parkNotifier && !atOnce then some { nextAttemptAt := now }
      else none }

def unregisteredResponse : WorkerResponse :=
  { status := 410, body := .openaiError "rollout unregistered" "relay_unregistered" }

def expiredResponse : WorkerResponse :=
  { status := 504, body := .openaiError "relay request expired" "relay_timeout" }

def unavailableResponse (reason : String) : WorkerResponse :=
  { status := 410, body := .openaiError "sandbox caller unavailable" reason }

def Poll.pick (p : Poll) (now : Nat) (id : Token) (r : Request δ) : Option Token :=
  if r.rolloutId = p.rolloutId ∧ r.registrationToken = p.registrationToken ∧ r.claimable now then
    (p.picks.take (max 1 (min 256 p.limit))).lookup id
  else none

namespace RelayStore
variable (db : RelayStore δ) (d : Deployment δ) (settings : Settings) (now : Nat)

def empty : RelayStore δ := ⟨∅,∅,0⟩

def update (id : Token) (f : Request δ → Request δ) : RelayStore δ :=
  { db with requests := mapRows db.requests fun k r => if k = id then f r else r }

/-- The request's row under its lock; with a token, its registration is current and locked too. -/
def requestLock (id : Token) (token : Option Token) : Except RelayError (Request δ) :=
  match db.requests.lookup id with
  | none => .error (.notFound "request not found")
  | some r =>
    match token with
    | none => .ok r
    | some token =>
      match db.rollouts.lookup r.rolloutId with
      | none => .error (.notFound "request not found")
      | some g =>
        if !g.enabled ∨ g.registrationToken ≠ token then
          .error (.conflict "rollout registration is no longer current")
        else if r.registrationToken ≠ token then
          .error (.conflict "request registration is no longer current")
        else .ok r

variable (rolloutId : String) (token : Token)

def retireRegistration : RelayStore δ :=
  { db with requests := mapRows db.requests fun _ r =>
      if r.rolloutId = rolloutId ∧ r.registrationToken = token ∧ r.unfinished then
        r.settle d unregisteredResponse now
      else r }

def registerRollout (sandboxId : Option String) (sandboxGeneration : Option Nat)
    : RelayStore δ × Reply :=
  let retired := match db.rollouts.lookup rolloutId with
    | none => db
    | some previous => db.retireRegistration d now rolloutId previous.registrationToken
  ({ retired with
      rollouts := retired.rollouts.insert rolloutId ⟨token,sandboxId,sandboxGeneration,true⟩ },
    .registered token)

def unregisterRollout : Except RelayError (RelayStore δ × Reply) :=
  match db.rollouts.lookup rolloutId with
  | none => .ok (db,.unregistered false)
  | some row =>
    if !row.enabled then .ok (db,.unregistered false)
    else if row.registrationToken ≠ token then
      .error (.conflict "rollout registration is no longer current")
    else
      let retired := db.retireRegistration d now rolloutId token
      .ok ({ retired with rollouts := retired.rollouts.insert rolloutId { row with enabled := false } },
        .unregistered true)

def identityOwner (key : String) : Option (Token × Request δ) :=
  (db.requests.entries.find? fun e => e.2.rolloutId = rolloutId && e.2.registrationToken = token &&
    e.2.idempotencyKey = some key && e.2.reattachable).map fun e => (e.1,e.2)

def insertRequest (q : Enqueue) (reg : Rollout) : Except RelayError (RelayStore δ × Reply) :=
  let row := q.row d settings reg now
  if db.reservedBytes + row.reservedBytes ≤ d.storageBudget then
    .ok ({ db with
        requests := db.requests.insert q.requestId row
        reservedBytes := db.reservedBytes + row.reservedBytes },.queued q.requestId)
  else .error (.tooManyRequests "relay durable storage budget is exhausted")

/-- A retry of the request found, whose row `_load` reads again. -/
def retried (q : Enqueue) (id : Token) (existing : Request δ) :
    Except RelayError (RelayStore δ × Reply) :=
  if existing.requestDigest ≠ q.digest then
    .error (.conflict "idempotency key was already used for a different relay request")
  else if id ∈ db.requests then .ok (db,.queued id)
  else .error (.notFound "request not found")

def enqueue (q : Enqueue) : Except RelayError (RelayStore δ × Reply) := do
  let reg ← validateRegistration (db.rollouts.lookup q.rolloutId) q.expectedToken
  match q.idempotencyKey.bind (db.identityOwner q.rolloutId reg.registrationToken) with
  | some (id,existing) => db.retried q id existing
  | none => db.insertRequest d settings now q reg

def granted (p : Poll) : List Grant :=
  db.requests.entries.filterMap fun e =>
    (p.pick now e.1 e.2).map fun leaseId => ⟨e.1,leaseId,p.workerId⟩

def poll (p : Poll) : Except RelayError (RelayStore δ × Reply) := do
  let _ ← validateRegistration (db.rollouts.lookup p.rolloutId) (some p.registrationToken)
  .ok ({ db with requests := mapRows db.requests fun id r =>
        match p.pick now id r with
        | some leaseId => r.lease leaseId p.leaseTime p.workerId now
        | none => r },
    .leased (db.granted now p))

def renewLease (id token : Token) (leaseId : Option Token) (leaseTime : Nat) (workerId : Option String) :
    Except RelayError (RelayStore δ × Reply) := do
  let r ← db.requestLock id (some token)
  if r.state = .completed then .error (.gone "request is already completed")
  else
    let _ ← r.validLease leaseId now
    .ok (db.update id fun r => r.renew leaseTime workerId now,.done)

def respond [DecidableEq δ] (id token : Token) (response : WorkerResponse) (leaseId : Option Token)
    (deferDelivery : Bool) : Except RelayError (RelayStore δ × Reply) := do
  let r ← db.requestLock id (some token)
  if r.state = .completed then
    if r.result.map (·.digest) ≠ some (d.digest response) ∨ r.leaseId ≠ leaseId then
      .error (.conflict "committed response or lease differs")
    else .ok (db,.duplicate)
  else
    let _ ← r.validLease leaseId now
    .ok (db.update id fun r => r.complete d response now deferDelivery,.committed)

def retryWorkerFailure (id token : Token) (leaseId : Option Token) :
    Except RelayError (RelayStore δ × Reply) := do
  let r ← db.requestLock id (some token)
  if r.state = .completed then .ok (db,.retried false)
  else
    let _ ← r.validLease leaseId now
    if maxTransientWorkerDeliveries ≤ r.deliveryCount then .ok (db,.retried false)
    else .ok (db.update id Request.requeue,.retried true)

variable (id : Token) (batch : List Token)

def cancelRequest (response : WorkerResponse) : Except RelayError (RelayStore δ × Reply) := do
  let r ← db.requestLock id none
  if r.state = .completed then .ok (db,.answered (r.result.map (·.response)))
  else .ok (db.update id fun r => r.complete d response now true,.answered (some response))

def releaseCompletedResponse : Except RelayError (RelayStore δ × Reply) := do
  let r ← db.requestLock id none
  if r.state ≠ .completed then .error (.conflict "response is not committed")
  else .ok (db.update id fun r => r.release now,.done)

/-- Only one row of a retry identity is reattachable. -/
def reattach (r : Request δ) : RelayStore δ :=
  match r.idempotencyKey with
  | none => db
  | some key =>
    if db.requests.entries.any fun e => e.2.rolloutId = r.rolloutId &&
        e.2.registrationToken = r.registrationToken && e.2.idempotencyKey = some key &&
        e.2.reattachable && e.1 ≠ id then db
    else db.update id fun r => { r with reattachable := true }

def markCallerDetached : Except RelayError (RelayStore δ × Reply) := do
  let r ← db.requestLock id none
  .ok (db.reattach id r,.done)

def confirmLocalDelivery : RelayStore δ := db.update id Request.confirmLocal

/-- The HTTP handler after it wrote the answer of a local wait. -/
def deliverLocalWait (acknowledged : Bool) : Except RelayError (RelayStore δ × Reply) := do
  let r ← db.requestLock id none
  if !r.localWait then .ok (db,.done)
  else if acknowledged then .ok (db.confirmLocalDelivery id,.done)
  else db.markCallerDetached id

/-- One terminal caller's transaction of `reconcile_unavailable_callers`. -/
def callerUnavailable (sandboxId : String) (generation : Nat) (reason : String) : RelayStore δ :=
  { db with requests := mapRows db.requests fun _ r =>
      if r.sandboxId = some sandboxId ∧ r.sandboxGeneration = some generation ∧ r.unfinished then
        r.settle d (unavailableResponse reason) now
      else r }

def expire : RelayStore δ :=
  { db with requests := mapRows db.requests fun id r =>
      if (batch.take 128).contains id ∧ r.state ≠ .completed ∧ r.expiresAt ≤ now then
        r.complete d expiredResponse now true
      else r }

def compacts (id : Token) (r : Request δ) : Bool :=
  (batch.take 2048).contains id && r.compactable

def removes (id : Token) (r : Request δ) : Bool :=
  (batch.take 1024).contains id && r.retired now settings.retention

def maintain (batch : Maintenance) : RelayStore δ × Reply :=
  let expired := db.expire d now batch.expired
  let selected := compacts batch.compacted
  let freed := (rowsWhere expired.requests selected).map fun r =>
    r.reservedBytes - r.completedBytes - 65536
  let compacted := mapRows expired.requests fun id r => if selected id r then r.compact else r
  let removed := removes settings now batch.removed
  let deleted := (rowsWhere compacted removed).map Request.reservedBytes
  ({ expired with
      requests := keepRows compacted fun id r => !removed id r
      reservedBytes := expired.reservedBytes - (freed.sum + deleted.sum : Nat) },.done)

def notifies : LifecycleAction → Bool
  | .park => d.parkNotifier
  | .wake => d.wakeNotifier

end RelayStore

structure Claim where
  action : LifecycleAction
  limit : Nat
  picks : List (Token × Token)
deriving DecidableEq

/-- Extend the claims a process still holds on one request; each exact token is checked. -/
def Request.renewClaims (r : Request δ) (owned : List Work) (id : Token) (claimUntil : Nat) : Request δ :=
  let renew := fun action (l : Lifecycle) =>
    if owned.any fun w => w.requestId = id && w.action = action && l.heldBy w.claimToken then
      { l with claimUntil := some claimUntil }
    else l
  (r.mapObligation (renew .park) .park).mapObligation (renew .wake) .wake

section
variable (c : Claim) (d : Deployment δ) (now : Nat) (id : Token) (r : Request δ)

def Claim.pick : Option Token :=
  if RelayStore.notifies d c.action ∧ (r.obligation c.action).any (·.due now) then
    (c.picks.take c.limit).lookup id
  else none

def Claim.work : Option Work :=
  (c.pick d now id r).bind fun token => (r.obligation c.action).map fun l =>
    ⟨id,c.action,token,l.attempts + 1,r.state⟩

end

namespace RelayStore
variable (db : RelayStore δ) (d : Deployment δ) (settings : Settings) (now : Nat)

def claimedWorks (c : Claim) : List Work := db.requests.entries.filterMap fun e => c.work d now e.1 e.2

def claimLifecycle (c : Claim) : RelayStore δ × Reply :=
  ({ db with requests := mapRows db.requests fun id r =>
        match c.pick d now id r with
        | some token => r.mapObligation (·.claim token settings.claimTime now) c.action
        | none => r },
    .claimed (db.claimedWorks d now c))

def renewLifecycleClaims (owned : List Work) : RelayStore δ × Reply :=
  ({ db with requests := mapRows db.requests fun id r =>
      r.renewClaims owned id (now + settings.claimTime) },.done)

def dispatched (work : Work) (outcome : Notified) : RelayStore δ :=
  db.update work.requestId fun r => r.dispatched work.action work.attempts (work.sent outcome) now

def dispatchComplete (work : Work) (outcome : Notified) : Except RelayError (RelayStore δ × Reply) := do
  let r ← db.requestLock work.requestId none
  match r.obligation work.action with
  | none => .ok (db,.done)
  | some current =>
    if !current.heldBy work.claimToken then .ok (db,.done)
    else
      let db' := db.dispatched now work outcome
      let reattaches := (work.sent outcome).transport.any (r.transportChanged work.action)
      .ok (if reattaches then db'.reattach work.requestId r else db',.done)

end RelayStore

end UCloudSandboxes.Relay
