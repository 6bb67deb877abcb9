import UCloudSandboxes.Gateway.Commands

/-! Group creates: one request for many sandboxes, repeated until every member is placed. An
execution reads the group with its confirmed members, then the routes, and places the rest. -/
namespace UCloudSandboxes.Gateway
open Machine Routing

inductive GroupState where
  | active
  | deleted
  deriving DecidableEq

structure SandboxGroup where
  groupId : String
  requestHash : String
  spec : String
  count : Nat
  state : GroupState := .active
  placed : List String := []
  deriving DecidableEq

/-- `f"{group_id}-{index:04d}"`. -/
def memberId (groupId : String) (index : Nat) : String :=
  let digits := toString index
  groupId ++ "-" ++ "".pushn '0' (4 - digits.length) ++ digits

def SandboxGroup.memberIds (group : SandboxGroup) : List String :=
  (List.range group.count).map (memberId group.groupId)

structure GroupMember where
  sandboxId : String
  route : Option SandboxRoute := none
  deriving DecidableEq

/-- An execution of the group's request. One that runs for a durable command has its claim. -/
structure GroupRun where
  executor : Option (String × String)
  group : SandboxGroup
  routed : Bool := false
  unplaced : List GroupMember := []
  dispatched : List SandboxRoute := []
  deriving DecidableEq

def GroupRun.mayPlace (run : GroupRun) (id : String) : Bool :=
  if run.routed then run.unplaced.any fun m => m.sandboxId = id && m.route.isNone
  else !run.group.placed.contains id

structure GroupPlan where
  sandboxId : String
  node : NodeIdentity
  resources : ResourceQuantity
  nodeEpoch : String
  activityEpoch : Nat
  operationId : String
  deriving DecidableEq

def GroupPlan.allocation (p : GroupPlan) : Store.SandboxRouteAllocation where
  sandboxId := p.sandboxId
  node := p.node
  resources := p.resources
  nodeEpoch := p.nodeEpoch
  activityEpoch := p.activityEpoch

inductive GroupError where
  | command (error : CommandError)
  | groupDeleted
  deriving DecidableEq

/-- The routing tables, with the row of the group and the rows of its confirmed members. -/
structure GroupStore where
  db : CommandStore
  group : Option SandboxGroup
  members : AList fun _ : String => Nat

namespace GroupStore

variable (st : GroupStore) (x : Option Executor) (now : Nat) (fingerprint : String → String)

/-- `_sandbox_group_unlocked`: the row with the members placed so far. -/
def sandboxGroup : Option SandboxGroup :=
  st.group.map ({ · with placed := st.members.keys })

def ensureSandboxGroup (group : SandboxGroup) : GroupStore :=
  { st with group := st.group <|> some group }

def deleteSandboxGroup : GroupStore :=
  { st with group := st.group.map ({ · with state := .deleted }) }

def commandRow : Option Executor → Except GroupError Unit
  | none => .ok ()
  | some x =>
    match st.db.commandRow x with
    | .ok _ => .ok ()
    | .error e => .error (.command e)

def requireActiveGroup : Except GroupError Unit :=
  if st.group.any (·.state = .active) then .ok () else .error .groupDeleted

/-- One member of `reserve_create_intents`; `none` where a route with another spec holds the id. -/
def reserveOne (now : Nat) (routes : Store) (p : GroupPlan) : Store × Option SandboxRoute :=
  match routes.allocateCreate p.allocation (fingerprint p.sandboxId) p.operationId (some now) with
  | .ok (routes,route) => (routes,some route)
  | .error _ => (routes,none)

def each {α β : Type} (body : Store → α → Store × β) (routes : Store) : List α → Store × List β
  | [] => (routes,[])
  | a :: rest =>
    let (routes,b) := body routes a
    let (routes,bs) := each body routes rest
    (routes,b :: bs)

def reserveCreateIntents (now : Nat) (plans : List GroupPlan)
    : Except GroupError (GroupStore × List (Option SandboxRoute)) := do
  st.commandRow x
  st.requireActiveGroup
  let (routes,reserved) := each (reserveOne fingerprint now) st.db.routes plans
  .ok ({ st with db := { st.db with routes } },reserved)

def retargetOne (routes : Store) (move : SandboxRoute × GroupPlan) : Store × Option SandboxRoute :=
  match routes.retargetCreate move.1 move.2.allocation move.2.operationId (some now) with
  | .ok (routes,moved) => (routes,moved)
  | .error _ => (routes,none)

def retargetCreateIntents (moves : List (SandboxRoute × GroupPlan)) :
    Except GroupError (GroupStore × List (Option SandboxRoute)) := do
  st.commandRow x
  st.requireActiveGroup
  let (routes,moved) := each (retargetOne now) st.db.routes moves
  .ok ({ st with db := { st.db with routes } },moved)

/-- One member of `confirm_creates`: a receipt for the exact incarnation. It reads neither the
command nor the group. -/
def confirmOne (st : GroupStore) (route : SandboxRoute) : GroupStore :=
  match st.db.routes.confirmSandboxObservation route true (some now) with
  | .ok (routes,some _) =>
    { st with
      db := { st.db with routes }
      members := st.members.insert route.sandboxId route.incarnation.generation }
  | .ok (_,none) => st
  | .error _ => st

def confirmCreates (routes : List SandboxRoute) : GroupStore :=
  routes.foldl (confirmOne now) st

def abandon (route : SandboxRoute) : Except GroupError GroupStore := do
  st.commandRow x
  match st.db.current route.sandboxId route.incarnation.generation route.incarnation.createOperationId with
  | none => .ok st
  | some _ => .ok { st with db := { st.db with routes := st.db.routes.deleteSandbox route.sandboxId } }

end GroupStore

inductive RunAct where
  | readRoutes
  | reserve (plans : List GroupPlan)
  | retarget (plans : List GroupPlan)
  /-- Workers definitely rejected these members: they are planned again, with their intents. -/
  | rejected (ids : List String)
  | confirm (observed : List SandboxRoute)
  | settle (ids : List String)
  /-- A member that no worker took, or whose create failed: its intent is dropped. -/
  | abandon (id : String)
  | finish
  deriving DecidableEq

namespace GroupRun

variable (run : GroupRun) (fingerprint : String → String) (plans : List GroupPlan) (ids : List String)

/-- An unconfirmed create of this very member, to be replayed where it is. -/
def replays (route : SandboxRoute) : Bool :=
  route.deleteOperationId = "" && route.incarnation.specHash = fingerprint route.sandboxId &&
    (route.state = .creating || route.state = .unknown)

/-- The members sorted by the routes read: to place, to replay, or settled. -/
def readRoutes (routes : Store) (run : GroupRun) : GroupRun :=
  { run with
    routed := true
    unplaced := (run.group.memberIds.filter fun id =>
      (routes.getSandbox id).isNone && !run.group.placed.contains id).map ({ sandboxId := · })
    dispatched := run.group.memberIds.filterMap fun id =>
      (routes.getSandbox id).filter (replays fingerprint) }

def fresh (p : GroupPlan) : Bool :=
  run.unplaced.any fun m => m.sandboxId = p.sandboxId && m.route.isNone

def moving (p : GroupPlan) : Option (SandboxRoute × GroupPlan) :=
  ((run.unplaced.filter fun m => m.sandboxId = p.sandboxId).findSome? (·.route)).map (·,p)

def written (reserved : List (Option SandboxRoute)) : List SandboxRoute :=
  (plans.zip reserved).filterMap fun pr => pr.2.filter (·.incarnation.createOperationId = pr.1.operationId)

def place (routes : List SandboxRoute) : GroupRun :=
  { run with
    unplaced := run.unplaced.filter fun m => !plans.any fun p => p.sandboxId = m.sandboxId
    dispatched := run.dispatched ++ routes }

def reject : GroupRun :=
  let back := run.dispatched.filter fun route => ids.contains route.sandboxId
  { run with
    unplaced := run.unplaced ++ back.map fun route => ⟨route.sandboxId,some route⟩
    dispatched := run.dispatched.filter fun route => !ids.contains route.sandboxId }

def settle : GroupRun :=
  { run with
    unplaced := run.unplaced.filter fun m => !ids.contains m.sandboxId
    dispatched := run.dispatched.filter fun route => !ids.contains route.sandboxId }

def intent (id : String) : Option SandboxRoute :=
  run.dispatched.find? (·.sandboxId = id) <|>
    (run.unplaced.filter fun m => m.sandboxId = id).findSome? (·.route)

end GroupRun

structure GroupSystem where
  commands : CommandSystem
  group : Option SandboxGroup
  members : AList fun _ : String => Nat
  runs : AList fun _ : Nat => GroupRun

inductive GroupEvent where
  | command (e : CommandEvent)
  | enter (t : Nat) (executor : Option (String × String)) (utcNow : Nat) (group : SandboxGroup)
  | act (t : Nat) (utcNow : Nat) (a : RunAct)
  | deleteGroup

/-- The queue's statements, deletes and inventories; the members have no other creates. -/
def CommandEvent.places : CommandEvent → Bool
  | .execute .. => true
  | .route (.allocateCreate ..) => true
  | .route (.retargetCreate ..) => true
  | _ => false

namespace GroupSystem

def start : GroupSystem := ⟨.start,none,∅,∅⟩

variable (s : GroupSystem) (fingerprint : String → String)

def store : GroupStore := ⟨s.commands.db,s.group,s.members⟩

def withStore (st : GroupStore) : GroupSystem :=
  { s with commands := { s.commands with db := st.db }, group := st.group, members := st.members }

def executor (utcNow : Nat) (claim : Option (String × String)) : Option Executor :=
  claim.map fun c => ⟨c.1,c.2,s.commands.clock,utcNow⟩

/-- An execution after one of its transactions: a lost claim or a deleted group ends it. -/
def after {α : Type} (s : GroupSystem) (t : Nat) (run : GroupRun) (f : α → GroupStore × GroupRun) :
    Except GroupError α → GroupSystem
  | .ok a => { s.withStore (f a).1 with runs := s.runs.insert t (f a).2 }
  | .error .groupDeleted => { s with runs := s.runs.insert t { run with unplaced := [] } }
  | .error (.command _) => { s with runs := s.runs.erase t }

def act (s : GroupSystem) (t : Nat) (run : GroupRun) (utcNow : Nat) : RunAct → Option GroupSystem
  | .readRoutes =>
    some { s with runs := s.runs.insert t (run.readRoutes fingerprint s.commands.db.routes) }
  | .reserve plans =>
    if plans.all run.fresh then
      some (s.after t run (fun r => (r.1,run.place plans (GroupRun.written plans r.2)))
        (s.store.reserveCreateIntents (s.executor utcNow run.executor) fingerprint utcNow plans))
    else none
  | .retarget plans =>
    if plans.all fun p => (run.moving p).isSome then
      some (s.after t run (fun r => (r.1,run.place plans (r.2.filterMap fun route => route)))
        (s.store.retargetCreateIntents (s.executor utcNow run.executor) utcNow
          (plans.filterMap run.moving)))
    else none
  | .rejected ids => some { s with runs := s.runs.insert t (run.reject ids) }
  | .confirm observed =>
    if observed.all fun route => run.dispatched.any (sameSandboxRouteIncarnation · route) then
      some { s.withStore (s.store.confirmCreates utcNow observed) with
        runs := s.runs.insert t (run.settle (observed.map (·.sandboxId))) }
    else none
  | .settle ids => some { s with runs := s.runs.insert t (run.settle ids) }
  | .abandon id =>
    (run.intent id).map fun route =>
      s.after t run (fun st => (st,run.settle [id]))
        (s.store.abandon (s.executor utcNow run.executor) route)
  | .finish => some { s with runs := s.runs.erase t }

def step (s : GroupSystem) : GroupEvent → Option GroupSystem
  | .command e =>
    if e.places then none else (s.commands.step e).map ({ s with commands := · })
  | .enter t claim utcNow group =>
    if t ∈ s.runs then none
    else match s.store.commandRow (s.executor utcNow claim) with
      | .error _ => some s
      | .ok _ =>
        let s := s.withStore (s.store.ensureSandboxGroup group)
        s.store.sandboxGroup.map fun stored =>
          if stored.requestHash = group.requestHash ∧ stored.state = .active then
            { s with runs := s.runs.insert t { executor := claim, group := stored } }
          else s
  | .act t utcNow a =>
    (s.runs.lookup t).bind fun run =>
      -- the routes are read first, and once
      if run.routed = decide (a ≠ .readRoutes) then s.act fingerprint t run utcNow a else none
  | .deleteGroup => some (s.withStore s.store.deleteSandboxGroup)

/-- A member is confirmed while no other execution may still place it for the first time. -/
def confirmsAlone : GroupEvent → Bool
  | .act t _ (.confirm observed) => s.runs.entries.all fun e =>
      e.1 = t || observed.all fun route => !e.2.mayPlace route.sandboxId
  | _ => true

end GroupSystem

end UCloudSandboxes.Gateway
