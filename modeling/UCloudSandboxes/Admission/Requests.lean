import UCloudSandboxes.Admission.Fair
import UCloudSandboxes.Admission.Sessions

/-! Requests in progress between the service's lock sections, from their first check to a grant or
their last destructor, the pools they queue in, and the callers that hold tokens. -/
namespace UCloudSandboxes.Admission
open Machine

/-- What a request asks for. Growth reserves bytes, not slots, and is requoted. -/
inductive Work where
  | startup (requested : Shape) (cost : Cost)
  | restore (requested : Shape) (cost : Cost)
  | growth (memoryMb : Nat) (kind : Kind) (requestId : String)
  deriving DecidableEq

namespace Work

def pool : Work → Option Pool
  | .startup .. => some .startup
  | .restore .. => some .restore
  | .growth .. => none

def cost (owner : Owner) (quoted : Observations) (quotedAt : Rat) : Work → Cost
  | .startup _ cost | .restore _ cost => cost
  | .growth memoryMb kind requestId =>
    growthCost (quoted.memoryMode owner) (memoryMb * mib) kind requestId (quoted.historical owner) quotedAt

def shape : Work → Shape
  | .startup requested _ | .restore requested _ => ⟨requested.vcpu, requested.memoryMb, 0⟩
  | .growth memoryMb _ _ => ⟨0, memoryMb, 0⟩

def grant (token : String) (chargedAt : Rat) : Work → Grant
  | .startup requested _ => .hold token requested (some .startup)
  | .restore requested _ => .hold token requested (some .restore)
  | .growth .. => .growth chargedAt

end Work

inductive Stage where
  | began
  /-- A startup reads the drain gate before it queues. -/
  | demanded (demand : Nat)
  | entering (demand : Nat)
  | queued (demand : Nat) (ticket : Ticket Owner)
  /-- A startup reads the drain gate again with its slot. -/
  | slotted (demand : Nat)
  | admitting (demand : Nat) (previousError : Option String)
  | sampling (demand : Nat) (previousError : Option String)
  /-- It gave up: `Slot` is dropped first. -/
  | returning (demand : Nat)
  | leaving (demand : Nat)
  deriving DecidableEq

structure InProgress where
  holder : Holder
  owner : Owner
  work : Work
  deadline : Rat
  stage : Stage := .began
  deriving DecidableEq

/-- What the second lock section of a pass reads: a fresh token, the sample, and growth's quote. -/
structure Pass where
  token : String
  metrics : Option Metrics
  obs : Observations
  refreshNow : Rat
  now : Rat
  quoted : Observations
  quotedAt : Rat
  chargedAt : Rat

namespace InProgress

def demand (r : InProgress) : Option Nat :=
  match r.stage with
  | .began => none
  | .demanded demand | .entering demand | .queued demand _ | .slotted demand | .admitting demand _
  | .sampling demand _ | .returning demand | .leaving demand => some demand

def ticket (r : InProgress) (pool : Pool) : Option (Ticket Owner) :=
  match r.stage with
  | .queued _ ticket => if r.work.pool = some pool then some ticket else none
  | _ => none

def slot (r : InProgress) : Option Pool :=
  match r.stage with
  | .slotted _ | .admitting .. | .sampling .. | .returning _ => r.work.pool
  | _ => none

section
variable (r : InProgress) (demand : Nat)

def demanded : InProgress :=
  { r with stage := match r.work with
    | .startup .. => .demanded demand
    | .restore .. => .entering demand
    | .growth .. => .admitting demand none }

def seated : InProgress :=
  { r with stage := match r.work with
    | .startup .. => .slotted demand
    | .restore .. | .growth .. => .admitting demand none }

def entered : Except FairError (Entered Owner) → InProgress
  | .ok .granted => r.seated demand
  | .ok (.queued ticket) => { r with stage := .queued demand ticket }
  | _ => { r with stage := .leaving demand }

def giveUp : InProgress :=
  { r with stage := if r.work.pool.isSome then .returning demand else .leaving demand }

def covered (growth : Growth) : Bool :=
  match r.work with
  | .growth _ kind requestId => (growth.covered r.owner (kind = .startup) requestId).isSome
  | .startup .. | .restore .. => false

def gateRequest (node : Node) (previousError : Option String) (now : Rat) : Request where
  node := node
  owner := r.owner
  requested := r.work.shape
  cost := none
  deadline := r.deadline
  now := now
  previousError := previousError

def attempt (previousError : Option String) (p : Pass) : Admit where
  holder := r.holder
  owner := r.owner
  requested := r.work.shape
  cost := r.work.cost r.owner p.quoted p.quotedAt
  deadline := r.deadline
  previousError := previousError
  demand := demand
  grant := r.work.grant p.token p.chargedAt

def pass (config : Config) (s : State) (previousError : Option String) (p : Pass) :
    State × Option Decision :=
  s.pass config (r.attempt demand previousError p) p.metrics p.obs p.refreshNow p.now

end

structure SameAccount (r r' : InProgress) : Prop where
  demand : r'.demand = r.demand
  ticket : ∀ p, r'.ticket p = r.ticket p
  slot : r'.slot = r.slot

variable {r : InProgress}

theorem account_began (hr : r.stage = .began) :
    r.demand = none ∧ (∀ p, r.ticket p = none) ∧ r.slot = none := by
  simp [InProgress.demand,InProgress.ticket,InProgress.slot,hr]

theorem account_entering {demand} (hr : r.stage = .demanded demand ∨ r.stage = .entering demand) :
    r.demand = some demand ∧ (∀ p, r.ticket p = none) ∧ r.slot = none := by
  obtain hr | hr := hr <;> simp [InProgress.demand,InProgress.ticket,InProgress.slot,hr]

theorem account_leaving {demand} (hr : r.stage = .leaving demand) :
    r.demand = some demand ∧ (∀ p, r.ticket p = none) ∧ r.slot = none := by
  simp [InProgress.demand,InProgress.ticket,InProgress.slot,hr]

theorem account_seated (r : InProgress) (demand) :
    (r.seated demand).demand = some demand ∧ (∀ p, (r.seated demand).ticket p = none) ∧
      (r.seated demand).slot = r.work.pool := by
  unfold InProgress.seated InProgress.demand InProgress.ticket InProgress.slot
  cases r.work <;> exact ⟨rfl,fun _ => rfl,rfl⟩

theorem account_queued {demand ticket} (hr : r.stage = .queued demand ticket) :
    r.demand = some demand ∧ (∀ p, r.ticket p = if r.work.pool = some p then some ticket else none) ∧
      r.slot = none := by
  simp [InProgress.demand,InProgress.ticket,InProgress.slot,hr]

theorem account_admitting {demand}
    (hr : r.stage = .slotted demand ∨ (∃ error, r.stage = .admitting demand error) ∨
      (∃ error, r.stage = .sampling demand error) ∨ r.stage = .returning demand) :
    r.demand = some demand ∧ (∀ p, r.ticket p = none) ∧ r.slot = r.work.pool := by
  unfold InProgress.demand ticket slot
  obtain hr | ⟨_,hr⟩ | ⟨_,hr⟩ | hr := hr <;> rw [hr] <;> exact ⟨rfl,fun _ => rfl,rfl⟩

theorem account_demanded (r : InProgress) (demand) :
    (r.demanded demand).demand = some demand ∧ (∀ p, (r.demanded demand).ticket p = none) ∧
      (r.demanded demand).slot = none := by
  unfold demanded InProgress.demand ticket slot
  cases hwork : r.work <;> refine ⟨rfl,fun _ => rfl,?_⟩ <;> simp [Work.pool]

theorem account_giveUp (r : InProgress) (demand) :
    (r.giveUp demand).demand = some demand ∧ (∀ p, (r.giveUp demand).ticket p = none) ∧
      (r.giveUp demand).slot = r.work.pool := by
  unfold giveUp InProgress.demand ticket slot
  cases r.work <;> exact ⟨rfl,fun _ => rfl,rfl⟩

theorem SameAccount.of {r' demand} {ticket : Pool → Option (Ticket Owner)} {slot}
    (h : r.demand = demand ∧ (∀ p, r.ticket p = ticket p) ∧ r.slot = slot)
    (h' : r'.demand = demand ∧ (∀ p, r'.ticket p = ticket p) ∧ r'.slot = slot) : SameAccount r r' :=
  ⟨h'.1.trans h.1.symm,fun p => (h'.2.1 p).trans (h.2.1 p).symm,h'.2.2.trans h.2.2.symm⟩

end InProgress

structure Service where
  state : State
  pools : Pool → Callers Owner
  requests : AList fun _ : Nat => InProgress := ∅

def Pool.ofKind : Kind → Option Pool
  | .startup => some .startup
  | .restore => some .restore
  | .publication => some .publication
  | .capture => none

namespace Service

inductive Event where
  | begin (id : Nat) (holder : Holder) (owner : Owner) (work : Work) (deadline : Rat)
  | covered (id : Nat)
  | demand (id : Nat) (quoted : Observations) (quotedAt : Rat)
  | checkOpen (id : Nat)
  | enter (id : Nat)
  | finish (id : Nat)
  | gate (id : Nat) (now : Rat)
  | pass (id : Nat) (p : Pass)
  /-- The caller went away while the request waited, or a read between its lock sections failed. -/
  | drop (id : Nat)
  | returnSlot (id : Nat)
  | withdraw (id : Nat)
  | observe (token : String) (holder : Holder) (owner : Owner) (cost : Cost)
  | publication (token : String) (holder : Holder) (owner : Owner)
  | release (token : String) (holder : Holder)
  | hello (session : String) (reassert : List Reassert)
  | cancelWaiters (pool : Pool) (owner : Option Owner)
  | close
  | openAdmission
  | endRecovery
  | detached (e : Admission.Event)

variable (s : Service)

def withPool (p : Pool) (c : Callers Owner) : Service :=
  { s with pools := Function.update s.pools p c }

def set (id : Nat) (r : InProgress) : Service :=
  { s with requests := s.requests.insert id r }

def remove (id : Nat) : Service := { s with requests := s.requests.erase id }

def dropHeld (entry : Sigma fun _ : String => Held) : Service :=
  let dropped : Service := { s with state := s.state.dropHeld entry }
  match entry.2.slot with
  | some p => dropped.withPool p ((s.pools p).release 1)
  | none => dropped

/-- Release a held claim, its demand and its slot; `false` when this holder holds no such token. -/
def release (token : String) (holder : Holder) : Service × Bool :=
  match s.state.held.lookup token with
  | some held => if held.holder = holder then (s.dropHeld ⟨token, held⟩, true) else (s, false)
  | none => (s, false)

def tryAcquire (s : Service) (pool : Option Pool) (owner : Owner) : Service × Option Pool :=
  match pool with
  | none => (s, none)
  | some p =>
    let entered := (s.pools p).enter 1 (some owner) false
    match entered.2 with
    | .ok .granted => (s.withPool p entered.1, some p)
    | _ => (s, none)

def accept (s : Service) (session : String) (item : Reassert) : Service :=
  if item.token ∈ s.state.held then s
  else
    let acquired := s.tryAcquire (Pool.ofKind item.cost.kind) item.owner
    { acquired.1 with state := s.state.accept session item acquired.2 }

def hello (s : Service) (session : String) (reassert : List Reassert) : Service :=
  let dropped := (s.state.stale session).foldl dropHeld s
  let greeted : Service :=
    { dropped with state := { dropped.state with agentSession := some session } }
  let accepted := reassert.foldl (fun s item => s.accept session item) greeted
  { accepted with state := { accepted.state with recovering := false } }

def requestStep (config : Config) (s : Service) (id : Nat) (r : InProgress) : Event → Option Service
  | .covered _ =>
    if r.stage = .began && r.covered s.state.growth then some (s.remove id) else none
  | .demand _ quoted quotedAt =>
    match r.stage with
    | .began =>
      let waited := s.state.ledger.wait r.owner (r.work.cost r.owner quoted quotedAt)
      let waiting : Service := { s with state := { s.state with ledger := waited.1 } }
      some (waiting.set id (r.demanded waited.2))
    | _ => none
  | .checkOpen _ =>
    match r.stage with
    | .demanded demand =>
      let next : Stage := if s.state.admissionOpen then .entering demand else .leaving demand
      some (s.set id { r with stage := next })
    | .slotted demand =>
      let next : Stage := if s.state.admissionOpen then .admitting demand none else .returning demand
      some (s.set id { r with stage := next })
    | _ => none
  | .enter _ =>
    match r.stage, r.work.pool with
    | .entering demand, some p =>
      let entered := (s.pools p).enter 1 (some r.owner) true
      some ((s.withPool p entered.1).set id (r.entered demand entered.2))
    | _, _ => none
  | .finish _ =>
    match r.stage, r.work.pool with
    | .queued demand ticket, some p =>
      let finished := (s.pools p).finish ticket
      some ((s.withPool p finished.1).set id
        (if finished.2 then r.seated demand else { r with stage := .leaving demand }))
    | _, _ => none
  | .gate _ now =>
    match r.stage with
    | .admitting demand error =>
      let request := r.gateRequest (s.state.node config) error now
      some (s.set id (if s.state.current r.holder true && (gate request).isNone
        then { r with stage := .sampling demand error } else r.giveUp demand))
    | _ => none
  | .pass _ p =>
    match r.stage with
    | .sampling demand error =>
      if p.token ∈ s.state.held then none
      else
        let result := r.pass demand config s.state error p
        let passed : Service := { s with state := result.1 }
        some (match result.2 with
          | some .grant => passed.remove id
          | some (.wait reason _) => passed.set id { r with stage := .admitting demand (some reason) }
          | _ => passed.set id (r.giveUp demand))
    | _ => none
  | .drop _ =>
    match r.stage, r.work.pool with
    | .began, _ => some (s.remove id)
    | .queued demand ticket, some p =>
      some ((s.withPool p ((s.pools p).drop ticket)).set id { r with stage := .leaving demand })
    | .admitting demand _, _ | .sampling demand _, _ => some (s.set id (r.giveUp demand))
    | _, _ => none
  | .returnSlot _ =>
    match r.stage, r.work.pool with
    | .returning demand, some p =>
      some ((s.withPool p ((s.pools p).release 1)).set id { r with stage := .leaving demand })
    | _, _ => none
  | .withdraw _ =>
    match r.stage with
    | .leaving demand =>
      let withdrawn : Service :=
        { s with state := { s.state with ledger := s.state.ledger.unwait demand } }
      some (withdrawn.remove id)
    | _ => none
  | _ => none

def Event.request : Event → Option Nat
  | .covered id | .demand id .. | .checkOpen id | .enter id | .finish id | .gate id _ | .pass id _
  | .drop id | .returnSlot id | .withdraw id => some id
  | _ => none

/-- `none` when the step cannot happen now; a token `getrandom` makes is not in use. -/
def step (config : Config) (s : Service) (e : Event) : Option Service :=
  match e with
  | .begin id holder owner work deadline =>
    if s.state.current holder true && (s.requests.lookup id).isNone then
      some (s.set id { holder, owner, work, deadline })
    else none
  | .observe token holder owner cost =>
    if token ∈ s.state.held then none
    else (Admission.step config s.state (.observe token holder owner cost)).map fun state =>
      { s with state }
  | .publication token holder owner =>
    if token ∈ s.state.held then none
    else
      let acquired := s.tryAcquire (some .publication) owner
      if acquired.2.isNone then none
      else (Admission.step config s.state (.publication token holder owner)).map fun state =>
        { acquired.1 with state }
  | .release token holder => some (s.release token holder).1
  | .hello session reassert => some (s.hello session reassert)
  | .cancelWaiters p owner =>
    if p = .publication then none else some (s.withPool p ((s.pools p).cancelWaiters owner))
  | .close => some { s with state := { s.state with admissionOpen := false } }
  | .openAdmission => some { s with state := { s.state with admissionOpen := true } }
  | .endRecovery => some { s with state := { s.state with recovering := false } }
  | .detached e =>
    if e.background || e matches .settle .. then
      (Admission.step config s.state e).map fun state => { s with state }
    else none
  | e => e.request.bind fun id => (s.requests.lookup id).bind fun r => requestStep config s id r e

def Start (slots : Pool → Nat) (s : Service) : Prop :=
  Admission.Start s.state ∧ (∀ p, Callers.Start (slots p) (s.pools p)) ∧ s.requests = ∅

end Service

end UCloudSandboxes.Admission
