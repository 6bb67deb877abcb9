import UCloudSandboxes.Machine.Basic
import UCloudSandboxes.Admission.Growth

/-! The admission service, one lock section a step, with growth commits whose durable write is in
flight. -/
namespace UCloudSandboxes.Admission
open Accounting

inductive Holder where
  | noded
  | agent (session : String)
  deriving DecidableEq

inductive Pool where
  | startup
  | restore
  | publication
  deriving DecidableEq

structure Held where
  holder : Holder
  claim : Claim
  demand : Option Nat
  slot : Option Pool
  deriving DecidableEq

inductive CommitPhase where
  | inFlight
  | answered (result : Option (Option GrowthIntent))
  | recorded
  deriving DecidableEq

structure GrowthAdmission where
  owner : Owner
  cost : Cost
  demand : Nat
  phase : CommitPhase := .inFlight
  deriving DecidableEq

structure Config where
  capacity : Option Shape
  ramBackingConfigured : Bool
  deriving DecidableEq

structure State where
  ledger : Ledger
  growth : Growth
  admissionOpen : Bool
  /-- The heartbeat's transient revision: +1 per reservation claim and release. -/
  revision : Nat
  held : AList (fun _ : String => Held) := ∅
  agentSession : Option String := none
  recovering : Bool := true
  growing : List GrowthAdmission := []

inductive Grant where
  /-- A startup or restore claim under a fresh token, with the slot the request took. -/
  | hold (token : String) (requested : Shape) (slot : Option Pool)
  /-- A growth admission's provisional charge; `now` was read before the admission began. -/
  | growth (now : Rat)
  deriving DecidableEq

structure Admit where
  holder : Holder
  owner : Owner
  requested : Shape
  cost : Cost
  deadline : Rat
  previousError : Option String := none
  demand : Nat
  grant : Grant
  deriving DecidableEq

structure Reassert where
  owner : Owner
  cost : Cost
  requested : Option Shape
  token : String
  deriving DecidableEq

structure Snapshot where
  admissionOpen : Bool
  transientRevision : Nat
  resourceReservations : List (Owner × Shape)
  deriving DecidableEq

namespace State

variable (s : State) (config : Config) (session : String)

def node (s : State) : Node :=
  ⟨s.admissionOpen, config.capacity, config.ramBackingConfigured⟩

/-- The holder may act: an agent only under its hello'd session, and nobody while recovering. -/
def current (holder : Holder) (grant : Bool) : Bool :=
  (match holder with
    | .noded => true
    | .agent session => s.agentSession = some session) && !(grant && s.recovering)

def hold (token : String) (holder : Holder) (owner : Owner) (cost : Cost) (requested : Option Shape)
    (demand : Option Nat) (slot : Option Pool) : State :=
  let claimed := s.ledger.claim owner cost requested
  { s with
    ledger := claimed.1
    revision := if requested.isSome then s.revision + 1 else s.revision
    held := s.held.insert token ⟨holder, claimed.2, demand, slot⟩ }

/-- Release a held claim and the demand it keeps; its slot goes back to the pool. -/
def unhold (held : Held) : State :=
  let released := (s.ledger.release held.claim).getD s.ledger
  { s with
    ledger := match held.demand with
      | some token => released.unwait token
      | none => released
    revision := if held.claim.requested.isSome then s.revision + 1 else s.revision }

def withGrowth (op : Growth → Ledger → Growth × Ledger) : State :=
  let result := op s.growth s.ledger
  { s with growth := result.1, ledger := result.2 }

/-- Before deciding, the second lock section has current forecasts and the requoted demand. -/
def refreshed (s : State) (a : Admit) (metrics : Option Metrics) (obs : Observations) (now : Rat)
    : State :=
  if config.capacity.isSome && metrics.isSome then
    let s := s.withGrowth fun g l => g.currentForecasts l obs now
    match a.grant with
    | .hold .. => s
    | .growth _ => { s with ledger := s.ledger.refreshWaitCost a.owner a.cost }
  else s

def request (s : State) (a : Admit) (now : Rat) : Request where
  node := s.node config
  owner := a.owner
  requested := a.requested
  cost := some a.cost
  deadline := a.deadline
  now := now
  previousError := a.previousError

def granted (a : Admit) (obs : Observations) : State :=
  match a.grant with
  | .hold token requested slot =>
    s.hold token a.holder a.owner a.cost (some requested) (some a.demand) slot
  | .growth now =>
    let s := s.withGrowth fun g l => g.chargeProvisional a.owner a.cost l obs now
    { s with growing := s.growing ++ [⟨a.owner, a.cost, a.demand, .inFlight⟩] }

def pass (s : State) (a : Admit) (metrics : Option Metrics) (obs : Observations)
    (refreshNow now : Rat) : State × Option Decision :=
  if !s.current a.holder true then (s, none)
  else
    let s := s.refreshed config a metrics obs refreshNow
    match decide metrics s.ledger (s.request config a now) with
    | .grant => (s.granted a obs, some .grant)
    | decision => (s, some decision)

def dropHeld (entry : Sigma fun _ : String => Held) : State :=
  { s with held := s.held.erase entry.1 }.unhold entry.2

/-- Accept one claim a session reasserts: it already runs, with the slot its pool had for it. -/
def accept (item : Reassert) (slot : Option Pool) : State :=
  if item.token ∈ s.held then s
  else s.hold item.token (.agent session) item.owner item.cost item.requested none slot

def stale : List (Sigma fun _ : String => Held) :=
  if s.agentSession = some session then []
  else s.held.entries.filter fun entry => match entry.2.holder with
    | .agent other => other ≠ session
    | .noded => false

/-- The agent's hello: drop the claims of any other agent session, accept those reasserted, and end
recovery. -/
def hello (reassert : List (Reassert × Option Pool)) : State :=
  let dropped := (s.stale session).foldl dropHeld s
  let accepted := reassert.foldl (fun s item => s.accept session item.1 item.2)
    { dropped with agentSession := some session }
  { accepted with recovering := false }

def recoveringMessage : String := "node admission is recovering after a restart"

def snapshot (obs : Observations) (now : Rat) : Except String (Snapshot × State) :=
  if s.recovering then .error recoveringMessage
  else
    let current := s.withGrowth fun g l => g.currentForecasts l obs now
    .ok (⟨current.admissionOpen, current.revision, current.ledger.resourceReservations⟩, current)

def setPhase (demand : Nat) (phase : CommitPhase) : State :=
  { s with growing := s.growing.map fun a => if a.demand = demand then { a with phase } else a }

end State

inductive Event where
  | demand (owner : Owner) (cost : Cost)
  | withdraw (token : Nat)
  | pass (a : Admit) (metrics : Option Metrics) (obs : Observations) (refreshNow now : Rat)
  /-- A capture is accounted, never queued or refused. -/
  | observe (token : String) (holder : Holder) (owner : Owner) (cost : Cost)
  | publication (token : String) (holder : Holder) (owner : Owner)
  | release (token : String) (holder : Holder)
  | hello (session : String) (reassert : List (Reassert × Option Pool))
  | endRecovery
  | setOpen (isOpen : Bool)
  | forecasts (obs : Observations) (now : Rat)
  /-- After a sampler pass; `keep` is `none` when the registrations could not be read. -/
  | residentPass (keep : Option (Owner → Bool)) (obs : Observations) (now : Rat)
  | record (key : Owner) (intent : Option GrowthIntent) (obs : Observations) (now : Rat)
  | forget (key : Owner) (obs : Observations) (now : Rat)
  | answer (demand : Nat) (result : Option (Option GrowthIntent))
  | publish (demand : Nat) (obs : Observations) (now : Rat)
  | settle (demand : Nat) (obs : Observations) (now : Rat)

def step (config : Config) (s : State) : Event → Option State
  | .demand owner cost => some { s with ledger := (s.ledger.wait owner cost).1 }
  | .withdraw token => some { s with ledger := s.ledger.unwait token }
  | .pass a metrics obs refreshNow now => some (s.pass config a metrics obs refreshNow now).1
  | .observe token holder owner cost =>
    if s.current holder false then some (s.hold token holder owner cost none none none) else none
  | .publication token holder owner =>
    if s.current holder true && !(s.ledger.foregroundWaiting && 0 < s.ledger.activeCount .publication)
    then some (s.hold token holder owner
      { kind := .publication, memoryBytes := none, provenance := "bounded-storage-backend-stream" }
      none none (some .publication))
    else none
  | .release token holder =>
    match s.held.lookup token with
    | some held => if held.holder = holder then some (s.dropHeld ⟨token, held⟩) else none
    | none => none
  | .hello session reassert => some (s.hello session reassert)
  | .endRecovery => some { s with recovering := false }
  | .setOpen isOpen => some { s with admissionOpen := isOpen }
  | .forecasts obs now => some (s.withGrowth fun g l => g.currentForecasts l obs now)
  | .residentPass keep obs now =>
    let retained := match keep with
      | some keep => s.withGrowth fun g l => g.retain keep l obs now
      | none => s
    some (retained.withGrowth fun g l => g.refreshForecasts l obs now)
  | .record key intent obs now => some (s.withGrowth fun g l => g.record key intent l obs now)
  | .forget key obs now => some (s.withGrowth fun g l => g.forget key l obs now)
  | .answer demand result =>
    match s.growing.find? (·.demand = demand) with
    | some ⟨_, _, _, .inFlight⟩ => some (s.setPhase demand (.answered result))
    | _ => none
  | .publish demand obs now =>
    match s.growing.find? (·.demand = demand) with
    | some ⟨owner, _, _, .answered (some intent)⟩ =>
      some ((s.withGrowth fun g l => g.record owner intent l obs now).setPhase demand .recorded)
    | _ => none
  | .settle demand obs now =>
    match s.growing.find? (·.demand = demand) with
    | some ⟨owner, _, _, .answered none⟩ | some ⟨owner, _, _, .recorded⟩ =>
      let cleared := s.withGrowth fun g l => g.clearProvisional owner l obs now
      some { cleared with
        ledger := cleared.ledger.unwait demand
        growing := cleared.growing.filter (·.demand ≠ demand) }
    | _ => none

def Start (s : State) : Prop :=
  ∃ intents obs now isOpen revision,
    let growth : Growth := { intents := intents }
    let refreshed := growth.refreshForecasts {} obs now
    s = { ledger := refreshed.2, growth := refreshed.1, admissionOpen := isOpen, revision }

end UCloudSandboxes.Admission
