import UCloudSandboxes.Machine.Table
import UCloudSandboxes.Routing.Generations

/-! The gateway's durable commands: queue rows that executors claim, and the routing transactions
run under a claim. -/
namespace UCloudSandboxes.Gateway
open Machine Routing

inductive CommandKind where
  | create
  | wake
  | group
  deriving DecidableEq

inductive CommandState where
  | queued
  | running
  | done
  deriving DecidableEq

/-- `claim_token` and `claim_until`, set together or not at all. -/
structure CommandClaim where
  token : String
  expires : Nat
  deriving DecidableEq

structure Command where
  commandKey : String
  kind : CommandKind
  sandboxId : String
  request : String
  deadline : Nat
  nextAttemptAt : Nat
  state : CommandState := .queued
  claim : Option CommandClaim := none
  generation : Option Nat := none
  completedAt : Option Nat := none
  deriving DecidableEq

namespace Command

variable (c : Command)

def claimedBy (token : String) : Bool :=
  c.state = .running && c.claim.any (·.token = token)

def heldBy (token : String) (now : Nat) : Bool :=
  c.state = .running && c.claim.any fun claim => claim.token = token && now < claim.expires

def due (now : Nat) : Bool :=
  c.state ≠ .done && c.nextAttemptAt ≤ now && c.claim.all (·.expires ≤ now)

def finish (now : Nat) : Command :=
  { c with state := .done, claim := none, completedAt := some now }

end Command

inductive CommandError where
  | rejected (message : String)
  | raised (error : Raised)
  deriving DecidableEq

structure CommandStore where
  routes : Store
  commands : AList fun _ : String => Command

/-- Who runs a transaction: an executor with its command and claim, at two clocks. -/
structure Executor where
  commandId : String
  claimToken : String
  now : Nat
  utcNow : Nat
  deriving DecidableEq

namespace CommandStore

def updateCommand (db : CommandStore) (id : String) (f : Command → Command) : CommandStore :=
  { db with commands := mapRows db.commands fun k c => if k = id then f c else c }

section Queue

section
variable (db : CommandStore)

/-- `submit`: an outstanding command of the same key is joined. -/
def submit (id : String) (c : Command) : CommandStore :=
  if db.commands.entries.any fun e => e.2.commandKey = c.commandKey && e.2.state ≠ .done then db
  else { db with commands := db.commands.insert id c }

def claim (db : CommandStore) (id token : String) (leaseTime now : Nat) : CommandStore :=
  db.updateCommand id fun c =>
    if c.due now then { c with state := .running, claim := some ⟨token,now + leaseTime⟩ } else c

def renew (id token : String) (leaseTime now : Nat) : CommandStore :=
  db.updateCommand id fun c =>
    if c.claimedBy token then { c with claim := some ⟨token,now + leaseTime⟩ } else c

def defer (id token : String) (delay now : Nat) : CommandStore :=
  db.updateCommand id fun c =>
    if c.claimedBy token then
      { c with state := .queued, claim := none, nextAttemptAt := now + delay }
    else c

def complete (id token : String) (now : Nat) : CommandStore :=
  db.updateCommand id fun c => if c.claimedBy token then c.finish now else c

def prune (batch : List String) (now : Nat) : CommandStore :=
  { db with commands := keepRows db.commands fun id c =>
      !(batch.contains id && c.state = .done && c.completedAt.any (· + 3600 < now)) }

/-- `cancel_create_commands`: what a delete of the sandbox does first. -/
def cancelCreateCommands (sandboxId : String) (now : Nat) : CommandStore :=
  { db with commands := mapRows db.commands fun _ c =>
      if c.sandboxId = sandboxId ∧ c.kind = .create ∧ c.state ≠ .done then c.finish now else c }

end

end Queue

section
variable (db : CommandStore) (x : Executor)

/-- `_command_row`: the executor's command, if its claim is current and its incarnation stands. -/
def commandRow : Except CommandError Command :=
  match (db.commands.lookup x.commandId).filter (·.heldBy x.claimToken x.now) with
  | none => .error (.rejected "placement claim expired or was replaced")
  | some c =>
    match c.generation with
    | some g =>
      if (db.routes.getSandbox c.sandboxId).any (·.incarnation.generation = g) then .ok c
      else .error (.rejected "placement command incarnation no longer exists")
    | none =>
      if c.deadline ≤ x.utcNow then
        .error (.rejected "placement command expired before allocation")
      else .ok c

def allocated (route : SandboxRoute) : CommandStore :=
  db.updateCommand x.commandId ({ · with generation := some route.incarnation.generation })

/-- `_check_command_request`: a route that stands already is the one a create is about. -/
def checkCommandRequest (request : String) : Except CommandError CommandStore := do
  let c ← db.commandRow x
  if c.request ≠ request then
    .error (.rejected "placement request differs from durable command")
  else match db.routes.getSandbox c.sandboxId with
    | none => .ok db
    | some route =>
      if c.kind = .create ∧ c.generation = none then .ok (db.allocated x route) else .ok db

/-- `_bind_command`: a group command binds no generation. -/
def bindCommand (c : Command) (route : SandboxRoute) : Except CommandError CommandStore :=
  if c.kind = .group then .ok db
  else if c.kind ≠ .create ∨ c.sandboxId ≠ route.sandboxId then
    .error (.rejected "placement command allocation differs")
  else .ok (db.allocated x route)

def raise {α : Type} : Except Raised α → Except CommandError α
  | .ok a => .ok a
  | .error e => .error (.raised e)

/-- `allocate_sandbox_create_with_pending` and `reserve_create_intent`. -/
def allocateSandboxCreate (allocation : Store.SandboxRouteAllocation) (specHash operationId : String)
    : Except CommandError (CommandStore × SandboxRoute) := do
  let c ← db.commandRow x
  let (routes,route) ← raise (db.routes.allocateCreate allocation specHash operationId (some x.utcNow))
  let db ← { db with routes }.bindCommand x c route
  .ok (db,route)

def retargetCreateIntent (route : SandboxRoute) (allocation : Store.SandboxRouteAllocation)
    (operationId : String) :
    Except CommandError (CommandStore × Option SandboxRoute) := do
  let c ← db.commandRow x
  let (routes,moved) ← raise (db.routes.retargetCreate route allocation operationId (some x.utcNow))
  match moved with
  | none => .ok ({ db with routes },none)
  | some moved =>
    let db ← { db with routes }.bindCommand x c moved
    .ok (db,some moved)

def current (sandboxId : String) (generation : Nat) (createOperationId : String) :
    Option SandboxRoute :=
  (db.routes.getSandbox sandboxId).filter fun route => route.incarnation.generation = generation &&
    (createOperationId = "" || route.incarnation.createOperationId = createOperationId)

/-- `delete_sandbox_if_current`: the release and the permission to place again commit together. -/
def deleteSandboxIfCurrent (sandboxId : String) (generation : Nat) (createOperationId : String)
    : Except CommandError (CommandStore × Option SandboxRoute) := do
  let c ← db.commandRow x
  match db.current sandboxId generation createOperationId with
  | none => .ok (db,none)
  | some removed =>
    let db := { db with routes := db.routes.deleteSandbox sandboxId }
    if c.kind = .group then .ok (db,some removed)
    else if c.kind ≠ .create ∨ c.sandboxId ≠ sandboxId then
      .error (.rejected "placement command cannot release this route")
    else .ok (db.updateCommand x.commandId ({ · with generation := none }),some removed)

/-- `confirm_create` and `confirm_sandbox_observation`: they read no command. -/
def confirmCreate (route : SandboxRoute) :
    Except CommandError (CommandStore × Option SandboxRoute) := do
  let (routes,confirmed) ← raise (db.routes.confirmSandboxObservation route true (some x.utcNow))
  .ok ({ db with routes },confirmed)

end

end CommandStore

inductive CommandAct where
  | check (request : String)
  | allocate (allocation : Store.SandboxRouteAllocation) (specHash operationId : String)
  | retarget (route : SandboxRoute) (allocation : Store.SandboxRouteAllocation) (operationId : String)
  | release (sandboxId : String) (generation : Nat) (createOperationId : String)
  | confirm (route : SandboxRoute)
  deriving DecidableEq

def CommandAct.apply (db : CommandStore) (x : Executor) : CommandAct → Except CommandError CommandStore
  | .check request => db.checkCommandRequest x request
  | .allocate allocation specHash operationId =>
    (db.allocateSandboxCreate x allocation specHash operationId).map (·.1)
  | .retarget route allocation operationId =>
    (db.retargetCreateIntent x route allocation operationId).map (·.1)
  | .release sandboxId generation createOperationId =>
    (db.deleteSandboxIfCurrent x sandboxId generation createOperationId).map (·.1)
  | .confirm route => (db.confirmCreate x route).map (·.1)

/-- The tables, the clock, the ids and tokens drawn, and the incarnations each command bound and
ended. -/
structure CommandSystem where
  db : CommandStore
  clock : Nat
  drawn : List String
  bound : String → List Nat
  released : String → List Nat

inductive CommandEvent where
  | tick (elapsed : Nat)
  | submit (id : String) (kind : CommandKind) (sandboxId request commandKey : String) (deadline : Nat)
  | claim (id token : String) (leaseTime : Nat)
  | renew (id token : String) (leaseTime : Nat)
  | defer (id token : String) (delay : Nat)
  | complete (id token : String)
  | prune (batch : List String)
  | cancel (sandboxId : String)
  | execute (id token : String) (utcNow : Nat) (act : CommandAct)
  /-- Any transaction on routes outside the executions: deletes, inventories, other creates. -/
  | route (e : StoreEvent)

def allocation (routes : Store) (id : String) : Option (Incarnation × NodeIdentity) :=
  (routes.getSandbox id).map fun route => (route.incarnation,route.node)

def ended (before after : Store) (id : String) : List Nat :=
  match before.getSandbox id with
  | none => []
  | some route =>
    if (after.getSandbox id).any (·.incarnation = route.incarnation) then []
    else [route.incarnation.generation]

/-- A bare upsert only confirms the route that an acceptance of a publication has read in its
transaction. -/
def CommandEvent.routes : StoreEvent → Bool
  | .upsertSandbox .. => false
  | _ => true

namespace CommandSystem

def start : CommandSystem := ⟨⟨.fresh,∅⟩,0,[],fun _ => [],fun _ => []⟩

variable (s : CommandSystem)

def sandboxOf (id : String) : Option String :=
  (s.db.commands.lookup id).map (·.sandboxId)

def record (id : String) (db : CommandStore) : CommandSystem :=
  { s with
    db
    bound := Function.update s.bound id
      (s.bound id ++ ((db.commands.lookup id).bind (·.generation)).toList)
    released := Function.update s.released id
      (s.released id ++ (s.sandboxOf id).toList.flatMap (ended s.db.routes db.routes)) }

def step : CommandEvent → Option CommandSystem
  | .tick elapsed => some { s with clock := s.clock + elapsed }
  | .submit id kind sandboxId request commandKey deadline =>
    if id ∈ s.drawn then none
    else
      let c := { commandKey, kind, sandboxId, request, deadline, nextAttemptAt := s.clock }
      some { s with db := s.db.submit id c, drawn := id :: s.drawn }
  | .claim id token leaseTime =>
    if token ∈ s.drawn then none
    else some { s with db := s.db.claim id token leaseTime s.clock, drawn := token :: s.drawn }
  | .renew id token leaseTime => some { s with db := s.db.renew id token leaseTime s.clock }
  | .defer id token delay => some { s with db := s.db.defer id token delay s.clock }
  | .complete id token => some { s with db := s.db.complete id token s.clock }
  | .prune batch => some { s with db := s.db.prune batch s.clock }
  | .cancel sandboxId => some { s with db := s.db.cancelCreateCommands sandboxId s.clock }
  | .execute id token utcNow act =>
    match act.apply s.db ⟨id,token,s.clock,utcNow⟩ with
    | .ok db => some (s.record id db)
    | .error _ => some s
  | .route e =>
    if CommandEvent.routes e then some { s with db := { s.db with routes := s.db.routes.exec e } }
    else none

end CommandSystem

end UCloudSandboxes.Gateway
