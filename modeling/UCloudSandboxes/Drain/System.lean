import UCloudSandboxes.Registry.Registration

/-! A worker under drain: the durable drain state behind its gate, what the gate admits, migration
imports, and the heartbeat sampled in two reads. -/
namespace UCloudSandboxes.Drain
open Option
open Registry (isOperationId)

abbrev Owner := String × Nat

structure NodeDrainState where
  draining : Bool := false
  token : String := ""
  drainActivityEpoch : Nat := 0
  admissionOpen : Bool := true
  deriving DecidableEq

inductive DrainError where
  | invalid (message : String)
  | conflict (message : String)
  deriving DecidableEq

/-- `configure_drain` under the drain guard; `none` when the request changes nothing. -/
def NodeDrainState.configure (current : NodeDrainState) (token : String) (draining : Bool) :
    Except DrainError (Option NodeDrainState) :=
  if !isOperationId token then .error (.invalid "drain token contains unsupported characters")
  else if draining then
    if current.draining && current.token ≠ token then
      .error (.conflict "node is draining with another token")
    else if !current.draining then
      .ok (some { draining := true, token, drainActivityEpoch := 0, admissionOpen := false })
    else .ok none
  -- The same refusal whether the node is draining with another token or open after one.
  else if current.token ≠ token then .error (.conflict "node is not draining with this token")
  else if current.draining then .ok (some { draining := false, token, admissionOpen := true })
  else .ok none

structure Registered where
  owner : Owner
  deleting : Bool := false
  deriving DecidableEq

/-- A running create. `held` says that its admission is still in the ledger. -/
structure Create where
  owner : Owner
  byNoded : Bool
  held : Bool := true
  deriving DecidableEq

/-- The transient half of a heartbeat, read first. `reply` is the drain request it answers. -/
structure Sample where
  reply : Option Nat
  activeSandboxCreates : Nat
  activeExecOperations : Nat
  transientRevision : Nat
  deriving DecidableEq

structure Heartbeat where
  draining : Bool
  admissionOpen : Bool
  drainToken : String
  drainActivityEpoch : Nat
  activityEpoch : Nat
  inventory : List Owner
  activeImageBuilds : Nat
  activeSandboxCreates : Nat
  /-- How many registrations the worker had added when the inventory was read. -/
  added : Nat
  deriving DecidableEq

/-- `node_drain_ready`: a heartbeat proves that one drain incarnation is empty. -/
def Heartbeat.drainReady (heartbeat : Heartbeat) (token : String) : Bool :=
  token ≠ "" && heartbeat.draining && !heartbeat.admissionOpen && heartbeat.drainToken = token &&
    heartbeat.drainActivityEpoch = heartbeat.activityEpoch && heartbeat.inventory.isEmpty &&
      heartbeat.activeImageBuilds + heartbeat.activeSandboxCreates = 0

structure Worker where
  /-- Noded keeps the admission ledger, which then survives the agent. -/
  rustAdmission : Bool
  drain : NodeDrainState := {}
  row : NodeDrainState := {}
  admissionOpen : Bool := true
  registrations : List Registered := []
  creates : List Create := []
  wakes : List Owner := []
  execs : List Owner := []
  activityEpoch : Nat := 0
  activityRevision : Nat := 0
  /-- Drain requests that took effect and still owe their response. -/
  handled : List Nat := []
  /-- A heartbeat holds the drain guard while it is sampled. -/
  sample : Option Sample := none
  added : Nat := 0
  deriving DecidableEq

namespace Worker

variable (w : Worker) (owner : Owner) (sample : Sample) (create : Nat) (builds : Nat)

def records : List Registered := w.registrations.filter (!·.deleting)

def closedUnder (token : String) : Bool := !w.admissionOpen && w.drain.token = token

def setDrain (drain : NodeDrainState) : Worker :=
  { w with drain, row := drain, admissionOpen := drain.admissionOpen }

def register : Worker :=
  if w.registrations.any (·.owner.1 = owner.1) then w
  else { w with
    registrations := ⟨owner,false⟩ :: w.registrations
    activityRevision := w.activityRevision + 1
    added := w.added + 1 }

def admitCreate (byNoded : Bool) : Option Worker :=
  if w.admissionOpen then some { w with
    creates := { owner, byNoded } :: w.creates
    activityEpoch := w.activityEpoch + 1 }
  else none

def planCreate : Option Worker :=
  w.creates[create]?.map fun c => w.register c.owner

def endCreate : Option Worker :=
  w.creates[create]?.map fun _ => { w with
    creates := w.creates.eraseIdx create
    activityEpoch := w.activityEpoch + 1 }

def expireCreate : Option Worker :=
  w.creates[create]?.bind fun c =>
    if c.byNoded && !w.rustAdmission then some { w with
      creates := w.creates.set create { c with held := false }
      activityEpoch := w.activityEpoch + 1 }
    else none

/-- `stage_storage_native_import` plans the registration whatever the gate says. -/
def stageImport : Worker := w.register owner

def owns : Bool := w.records.any (·.owner = owner)

def admitWake : Option Worker :=
  if w.admissionOpen && w.owns owner then some { w with
    wakes := owner :: w.wakes
    activityEpoch := w.activityEpoch + 1 }
  else none

def endWake (wake : Nat) : Worker :=
  { w with wakes := w.wakes.eraseIdx wake, activityEpoch := w.activityEpoch + 1 }

def acquireExec : Option Worker :=
  if w.admissionOpen && w.owns owner then some { w with
    execs := owner :: w.execs
    activityEpoch := w.activityEpoch + 1 }
  else none

def releaseExec (exec : Nat) : Worker :=
  { w with execs := w.execs.eraseIdx exec, activityEpoch := w.activityEpoch + 1 }

def beginDelete : Worker :=
  { w with
    registrations := w.registrations.map fun r =>
      if r.owner = owner then { r with deleting := true } else r
    activityRevision := w.activityRevision + 1 }

def commitDeleted : Worker :=
  { w with
    registrations := w.registrations.filter fun r => !(r.owner = owner && r.deleting)
    activityRevision := w.activityRevision + 1 }

/-- Transient operations before the durable inventory, both under the drain guard. -/
def beginSample (reply : Option Nat) : Option Worker :=
  if w.sample.isNone && reply.all w.handled.contains then some { w with
    sample := some {
      reply
      activeSandboxCreates := (w.creates.filter (·.held)).length + w.wakes.length
      activeExecOperations := w.execs.length
      transientRevision := w.activityEpoch } }
  else none

/-- The inventory half: an empty draining node acknowledges the revision it was empty at. -/
def acknowledged : NodeDrainState :=
  let revision := w.activityRevision + sample.transientRevision
  if w.drain.draining && w.records.isEmpty &&
      sample.activeSandboxCreates + sample.activeExecOperations = 0 && builds = 0 &&
      w.drain.drainActivityEpoch ≠ revision then
    { w.drain with drainActivityEpoch := revision }
  else w.drain

def finishSample : Worker :=
  let drain := w.acknowledged sample builds
  { w with
    drain
    row := if drain = w.drain then w.row else drain
    handled := w.handled.filter (some · ≠ sample.reply)
    sample := none }

def heartbeat : Heartbeat :=
  let drain := w.acknowledged sample builds
  { draining := drain.draining
    admissionOpen := drain.admissionOpen
    drainToken := if drain.draining then drain.token else ""
    drainActivityEpoch := drain.drainActivityEpoch
    activityEpoch := w.activityRevision + sample.transientRevision
    inventory := w.records.map (·.owner)
    activeImageBuilds := builds
    activeSandboxCreates := sample.activeSandboxCreates
    added := w.added }

def abortSample : Worker :=
  { w with handled := w.handled.filter (some · ≠ sample.reply), sample := none }

/-- The agent restarts: it loads the drain row before it serves. Its own work ends with it; noded's
creates go on, held only if noded keeps the ledger. -/
def restart (activityEpoch : Nat) : Worker :=
  { w with
    drain := w.row
    admissionOpen := !w.row.draining
    creates := (w.creates.filter (·.byNoded)).map fun c =>
      { c with held := c.held && w.rustAdmission }
    wakes := []
    execs := []
    activityEpoch
    handled := []
    sample := none }

end Worker

inductive Work where
  | admitCreate (owner : Owner) (byNoded : Bool)
  | planCreate (create : Nat)
  | endCreate (create : Nat)
  | expireCreate (create : Nat)
  | stageImport (owner : Owner)
  | admitWake (owner : Owner)
  | endWake (wake : Nat)
  | acquireExec (owner : Owner)
  | releaseExec (exec : Nat)
  | beginDelete (owner : Owner)
  | commitDeleted (owner : Owner)
  | beginSample (reply : Option Nat)
  | abortSample
  | restart (activityEpoch : Nat)
  deriving DecidableEq

def Worker.step (w : Worker) : Work → Option Worker
  | .admitCreate owner byNoded => w.admitCreate owner byNoded
  | .planCreate create => w.planCreate create
  | .endCreate create => w.endCreate create
  | .expireCreate create => w.expireCreate create
  | .stageImport owner => some (w.stageImport owner)
  | .admitWake owner => w.admitWake owner
  | .endWake wake => some (w.endWake wake)
  | .acquireExec owner => w.acquireExec owner
  | .releaseExec exec => some (w.releaseExec exec)
  | .beginDelete owner => some (w.beginDelete owner)
  | .commitDeleted owner => some (w.commitDeleted owner)
  | .beginSample reply => w.beginSample reply
  | .abortSample => w.sample.map w.abortSample
  | .restart activityEpoch => some (w.restart activityEpoch)

/-! The drain handshake of the autoscaler and one worker. Requests may be lost or executed late,
their responses lost; the autoscaler may crash between any two steps. -/

inductive IntentState where
  | active
  | canceling
  deriving DecidableEq

structure DrainIntent where
  token : String
  state : IntentState
  deriving DecidableEq

structure DrainRequest where
  id : Nat
  token : String
  draining : Bool
  deriving DecidableEq

inductive Response where
  | error
  | drain (state : NodeDrainState)
  deriving DecidableEq

def Response.acknowledges (response : Response) (token : String) (draining : Bool) : Bool :=
  match response with
  | .error => false
  | .drain state =>
    state.token = token && state.draining = draining && state.admissionOpen = !draining

def Response.succeeded : Response → Bool
  | .error => false
  | .drain _ => true

structure Call where
  request : DrainRequest
  response : Option Response := none
  deriving DecidableEq

/-- `drainToken` of a stop operation, with the heartbeat that made it ready. -/
structure StopProof where
  drainToken : String
  heartbeat : Heartbeat
  deriving DecidableEq

structure System where
  worker : Worker
  intent : Option DrainIntent := none
  call : Option Call := none
  flight : List DrainRequest := []
  nextId : Nat := 0
  /-- Heartbeats on their way to the gateway, the last one it stored, and the one of this cycle. -/
  sent : List Heartbeat := []
  stored : Option Heartbeat := none
  loaded : Option Heartbeat := none
  proof : Option StopProof := none
  stopped : List StopProof := []
  /-- Tokens drawn so far, and those of intents that a cancellation retired. -/
  drawn : List String := []
  canceled : List String := []
  deriving DecidableEq

inductive Event where
  | loadNodes
  | prepareDrainIntent (token : String)
  | beginDrainCancellation
  | post
  | answer
  | giveUp
  | crash
  | retireDrainIntent
  | submitStop
  | drop (id : Nat)
  | execute (id : Nat)
  | work (work : Work)
  | finishSample (builds : Nat)
  | deliver (heartbeat : Nat)
  deriving DecidableEq

namespace System

variable (s : System)

/-- A durable intent: a new one with a fresh token, or the active one again. -/
def prepareDrainIntent (token : String) : Option System :=
  match s.intent with
  | none =>
    if isOperationId token && !s.drawn.contains token then
      some { s with intent := some ⟨token,.active⟩, drawn := token :: s.drawn }
    else none
  | some ⟨_,.active⟩ => some s
  -- Raises: the drain intent is canceling.
  | some ⟨_,.canceling⟩ => none

/-- Demand cancels an active drain unless its stop was already submitted. -/
def beginDrainCancellation : Option System :=
  match s.intent with
  | some ⟨token,.active⟩ =>
    if s.stopped.any (·.drainToken = token) then none
    else some { s with intent := some ⟨token,.canceling⟩ }
  | _ => none

def posted (request : DrainRequest) : System :=
  { s with call := some { request }, flight := request :: s.flight, nextId := s.nextId + 1 }

def post : Option System :=
  s.intent.map fun intent => s.posted ⟨s.nextId,intent.token,decide (intent.state = .active)⟩

/-- A canceling intent retires on an acknowledgement, an active one is ready to stop on a heartbeat
that proves it empty. -/
def answered (response : Response) : System :=
  let s := { s with call := none }
  match s.intent with
  | none => s
  | some ⟨token,.canceling⟩ =>
    if response.acknowledges token false then
      { s with intent := none, canceled := token :: s.canceled }
    else s
  | some ⟨token,.active⟩ =>
    if response.succeeded then
      { s with proof := (s.loaded.filter (·.drainReady token)).map fun heartbeat =>
          ⟨token,heartbeat⟩ }
    else s

/-- `_stop_operation_has_safety_proof`: the intent must still be active under the proof's token. -/
def submitStop : Option System :=
  s.proof.bind fun proof =>
    if s.intent = some ⟨proof.drainToken,.active⟩ then
      some { s with proof := none, stopped := proof :: s.stopped }
    else none

/-- A response reaches the autoscaler only while it still waits for it. -/
def answeredCall (call : Option Call) (id : Nat) (response : Response) : Option Call :=
  call.map fun call =>
    if call.request.id = id && call.response.isNone then { call with response := some response }
    else call

def respond (id : Nat) (response : Response) : System :=
  { s with call := answeredCall s.call id response }

def execute (id : Nat) : Option System :=
  match s.flight.find? (·.id = id) with
  | none => none
  | some request =>
    if s.worker.sample.isSome then none
    else
      let s := { s with flight := s.flight.filter (·.id ≠ id) }
      match s.worker.drain.configure request.token request.draining with
      | .error _ => some (s.respond id .error)
      | .ok change =>
        let worker := change.elim s.worker s.worker.setDrain
        some { s with worker := { worker with handled := id :: worker.handled } }

def finishSample (builds : Nat) : Option System :=
  s.worker.sample.map fun sample =>
    let worker := s.worker.finishSample sample builds
    match sample.reply with
    | none => { s with worker, sent := s.worker.heartbeat sample builds :: s.sent }
    | some id => { s with worker }.respond id (.drain worker.drain)

def idle (next : Option System) : Option System := if s.call.isNone then next else none

def step : Event → Option System
  | .loadNodes => s.idle (some { s with loaded := s.stored, proof := none })
  | .prepareDrainIntent token => s.idle (s.prepareDrainIntent token)
  | .beginDrainCancellation => s.idle s.beginDrainCancellation
  | .post => s.idle s.post
  | .answer => s.call.bind fun call => call.response.map s.answered
  | .giveUp => some { s with call := none }
  | .crash => some { s with call := none, loaded := none, proof := none }
  | .retireDrainIntent => s.idle (some { s with intent := none })
  | .submitStop => s.idle s.submitStop
  | .drop id => some { s with flight := s.flight.filter (·.id ≠ id) }
  | .execute id => s.execute id
  | .work work => (s.worker.step work).map fun worker => { s with worker }
  | .finishSample builds => s.finishSample builds
  | .deliver heartbeat => s.sent[heartbeat]?.map fun heartbeat => { s with stored := some heartbeat }

def Start : Prop := ∃ rustAdmission, s = { worker := { rustAdmission } }

inductive Effect (s : System) : Event → System → Prop
  | loaded : s.call = none → Effect s .loadNodes { s with loaded := s.stored, proof := none }
  | prepared {token : String} : s.call = none → s.intent = none → isOperationId token = true →
      token ∉ s.drawn → Effect s (.prepareDrainIntent token)
        { s with intent := some ⟨token,.active⟩, drawn := token :: s.drawn }
  | again {token : String} : Effect s (.prepareDrainIntent token) s
  | canceling {token : String} : s.call = none → s.intent = some ⟨token,.active⟩ →
      Effect s .beginDrainCancellation { s with intent := some ⟨token,.canceling⟩ }
  | posted {intent : DrainIntent} {request : DrainRequest} : s.call = none →
      s.intent = some intent →
      request = ⟨s.nextId,intent.token,decide (intent.state = .active)⟩ →
      Effect s .post (s.posted request)
  | retired {call : Call} {response : Response} {token : String} : s.call = some call →
      call.response = some response → s.intent = some ⟨token,.canceling⟩ →
      response.acknowledges token false = true →
      Effect s .answer { s with call := none, intent := none, canceled := token :: s.canceled }
  | ready {token : String} {proof : Option StopProof} : s.intent = some ⟨token,.active⟩ →
      (∀ p, proof = some p → p.drainToken = token ∧ s.loaded = some p.heartbeat ∧
        p.heartbeat.drainReady token = true) →
      Effect s .answer { s with call := none, proof }
  | ignored : Effect s .answer { s with call := none }
  | gaveUp : Effect s .giveUp { s with call := none }
  | crashed : Effect s .crash { s with call := none, loaded := none, proof := none }
  | forgotten : s.call = none → Effect s .retireDrainIntent { s with intent := none }
  | submitted {proof : StopProof} : s.proof = some proof →
      s.intent = some ⟨proof.drainToken,.active⟩ →
      Effect s .submitStop { s with proof := none, stopped := proof :: s.stopped }
  | dropped {id : Nat} : Effect s (.drop id) { s with flight := s.flight.filter (·.id ≠ id) }
  | refused {id : Nat} {request : DrainRequest} : request ∈ s.flight → request.id = id →
      Effect s (.execute id) { s with
        flight := s.flight.filter (·.id ≠ id)
        call := answeredCall s.call id .error }
  | executed {id : Nat} {request : DrainRequest} {change : Option NodeDrainState} {worker : Worker} :
      request ∈ s.flight → request.id = id → s.worker.sample = none →
      s.worker.drain.configure request.token request.draining = .ok change →
      worker = change.elim s.worker s.worker.setDrain →
      Effect s (.execute id) { s with
        flight := s.flight.filter (·.id ≠ id)
        worker := { worker with handled := id :: worker.handled } }
  | worked {work : Work} {worker : Worker} : s.worker.step work = some worker →
      Effect s (.work work) { s with worker }
  | sampled {builds : Nat} {sample : Sample} : s.worker.sample = some sample →
      sample.reply = none → Effect s (.finishSample builds) { s with
        worker := s.worker.finishSample sample builds
        sent := s.worker.heartbeat sample builds :: s.sent }
  | replied {builds id : Nat} {sample : Sample} : s.worker.sample = some sample →
      sample.reply = some id → Effect s (.finishSample builds) { s with
        worker := s.worker.finishSample sample builds
        call := answeredCall s.call id (.drain (s.worker.finishSample sample builds).drain) }
  | delivered {i : Nat} {heartbeat : Heartbeat} : heartbeat ∈ s.sent →
      Effect s (.deliver i) { s with stored := some heartbeat }

variable {s s' : System}

theorem idle_eq_some {next} (h : s.idle next = some s') : s.call = none ∧ next = some s' := by
  unfold idle at h
  split at h
  · exact ⟨isNone_iff_eq_none.mp ‹_›,h⟩
  · cases h

theorem prepareDrainIntent_effect {token} (hc : s.call = none)
    (h : s.prepareDrainIntent token = some s') : s.Effect (.prepareDrainIntent token) s' := by
  unfold prepareDrainIntent at h
  split at h
  · rename_i hi
    obtain ⟨hnew,h⟩ := Machine.of_check h nofun
    cases h
    simp only [Bool.and_eq_true,Bool.not_eq_true',List.contains_eq_mem,decide_eq_false_iff_not]
      at hnew
    exact .prepared hc hi hnew.1 hnew.2
  · cases h
    exact .again
  · cases h

theorem answered_effect {call response} (hc : s.call = some call) (hr : call.response = some response) :
    s.Effect .answer (s.answered response) := by
  unfold answered
  dsimp only
  split
  · exact .ignored
  · rename_i token hi
    split
    · exact .retired hc hr hi ‹_›
    · exact .ignored
  · rename_i token hi
    split
    · refine .ready hi fun p hp => ?_
      obtain ⟨heartbeat,hl,rfl⟩ := map_eq_some_iff.mp hp
      exact ⟨rfl,(filter_eq_some_iff.mp hl)⟩
    · exact .ignored

theorem execute_effect {id} (h : s.execute id = some s') : s.Effect (.execute id) s' := by
  unfold execute at h
  split at h
  · cases h
  rename_i request hfind
  have hmem := List.mem_of_find?_eq_some hfind
  have hid : request.id = id := by simpa using List.find?_some hfind
  obtain ⟨hsam,h⟩ := Machine.of_guard h nofun
  dsimp only at h
  split at h
  · cases h
    exact .refused hmem hid
  · rename_i change hconf
    cases h
    exact .executed hmem hid (by simpa using hsam) hconf rfl

theorem effect_of_step {e} (h : s.step e = some s') : s.Effect e s' := by
  cases e with
  | loadNodes =>
    obtain ⟨hc,h⟩ := idle_eq_some h
    cases h
    exact .loaded hc
  | prepareDrainIntent =>
    obtain ⟨hc,h⟩ := idle_eq_some h
    exact prepareDrainIntent_effect hc h
  | beginDrainCancellation =>
    obtain ⟨hc,h⟩ := idle_eq_some h
    unfold beginDrainCancellation at h
    split at h
    · split at h
      · cases h
      · cases h
        exact .canceling hc ‹_›
    · cases h
  | post =>
    obtain ⟨hc,h⟩ := idle_eq_some h
    obtain ⟨intent,hi,rfl⟩ := map_eq_some_iff.mp h
    exact .posted hc hi rfl
  | answer =>
    obtain ⟨call,hc,h⟩ := bind_eq_some_iff.mp h
    obtain ⟨response,hr,rfl⟩ := map_eq_some_iff.mp h
    exact answered_effect hc hr
  | giveUp =>
    cases h
    exact .gaveUp
  | crash =>
    cases h
    exact .crashed
  | retireDrainIntent =>
    obtain ⟨hc,h⟩ := idle_eq_some h
    cases h
    exact .forgotten hc
  | submitStop =>
    obtain ⟨-,h⟩ := idle_eq_some h
    obtain ⟨proof,hp,h⟩ := bind_eq_some_iff.mp h
    split at h
    · cases h
      exact .submitted hp ‹_›
    · cases h
  | drop =>
    cases h
    exact .dropped
  | execute => exact execute_effect h
  | work =>
    obtain ⟨worker,hw,rfl⟩ := map_eq_some_iff.mp h
    exact .worked hw
  | finishSample =>
    obtain ⟨sample,hs,rfl⟩ := map_eq_some_iff.mp h
    split
    · exact .sampled hs ‹_›
    · exact .replied hs ‹_›
  | deliver =>
    obtain ⟨heartbeat,hb,rfl⟩ := map_eq_some_iff.mp h
    exact .delivered (List.mem_of_getElem? hb)

end System
end UCloudSandboxes.Drain
