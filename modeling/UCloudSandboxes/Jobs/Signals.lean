import UCloudSandboxes.Jobs.Reports

/-! The process groups that the guest agent and the job supervisor signal. Its leader's id may be
another group's once the leader is reaped. -/
namespace UCloudSandboxes.Jobs
open Machine

/-- A zombie has exited and still holds its id. -/
inductive Leader
  | live | zombie | reaped

structure AgentOp where
  leader : Leader := .live
  reaped : Bool := false
  cancelled : Bool := false
  finished : Bool := false

inductive OpAct
  | exits | marks | reaps | finishes | signals | cancels

namespace AgentOp

variable (op : AgentOp)

def signal : List Leader := if op.reaped then [] else [op.leader]

def act : OpAct → Option (AgentOp × List Leader)
  | .exits => if op.leader matches .live then some ({ op with leader := .zombie },[]) else none
  -- `wait` passes over an error of `waitExited`, so the mark may come before the exit
  | .marks => if op.reaped then none else some ({ op with reaped := true },[])
  | .reaps =>
    if op.reaped && op.leader matches .zombie then some ({ op with leader := .reaped },[]) else none
  | .finishes => if op.leader matches .reaped then some ({ op with finished := true },[]) else none
  | .signals => some (op,op.signal)
  | .cancels =>
    if op.cancelled || op.finished then some (op,[]) else some ({ op with cancelled := true },op.signal)

def Marked : Prop := op.leader = .reaped → op.reaped = true

theorem act_spec {op op' : AgentOp} {a sent} (h : op.Marked) (ha : op.act a = some (op',sent)) :
    op'.Marked ∧ .reaped ∉ sent := by
  unfold Marked at *
  cases a <;> grind [act,signal]

end AgentOp

/-- `supervisor.state`, and `supervisor.command` by the leader of its group. -/
structure Job where
  jobId : String
  state : JobState
  command : Option Leader

inductive JobAct
  | exits | reaps | finishes (state : JobState) | signal (jobId : String) (number : Nat) | forward

def JobAct.signals : JobAct → Bool
  | .signal _ _ | .forward => true
  | _ => false

/-- `cmd.Wait` reaps and then waits for the output; only after it does `wait` take the lock. -/
def Job.act (job : Job) : JobAct → Option (Job × List Leader)
  | .exits =>
    if job.command matches some .live then some ({ job with command := some .zombie },[]) else none
  | .reaps =>
    if job.command matches some .zombie then some ({ job with command := some .reaped },[]) else none
  | .finishes state =>
    if job.command matches some .reaped then some ({ job with state, command := none },[]) else none
  | .signal jobId number => some (job,
      if number = 0 ∨ 64 < number ∨ number = 9 ∨ number = 19 ∨ jobId ≠ job.jobId ∨ job.state ≠ .running
      then [] else job.command.toList)
  | .forward => some (job,job.command.toList)

theorem Job.act_sent {job job' : Job} {a sent} (ha : job.act a = some (job',sent))
    (h : .reaped ∈ sent) : a.signals = true ∧ job.command = some .reaped := by
  cases a <;> grind [Job.act,JobAct.signals]

/-- How far `supervisor.start` gets: not persisted, not started, killed as its spec cannot be
written, or running. -/
inductive Launch
  | refused | failed | unfed (exited : Bool) | running

/-- An op of the agent, the supervisor, and the leader of each signal's group when it was sent. -/
structure Guest where
  op : AgentOp := {}
  job : Option Job := none
  sent : List Leader := []

inductive GuestEvent
  | op (a : OpAct) | start (jobId : String) (launch : Launch) | job (a : JobAct)

namespace Guest

variable (s : Guest)

def start (jobId : String) : Launch → Guest
  | .refused => s
  | .failed => { s with job := some ⟨jobId,.failed,none⟩ }
  | .unfed exited => { s with
      job := some ⟨jobId,.failed,none⟩, sent := (if exited then .zombie else .live) :: s.sent }
  | .running => { s with job := some ⟨jobId,.running,some .live⟩ }

def step : GuestEvent → Option Guest
  | .op a => (s.op.act a).map fun (op,sent) => { s with op, sent := sent ++ s.sent }
  | .start jobId launch => some (if s.job.isSome then s else s.start jobId launch)
  | .job a => (s.job.bind (·.act a)).map fun (job,sent) => { s with job, sent := sent ++ s.sent }

/-- No signal reaches the supervisor between the reaping of its job and the end of `wait`. -/
def Timely : GuestEvent → Prop
  | .job a => a.signals = true → ∀ job, s.job = some job → job.command ≠ some .reaped
  | _ => True

def Inv : Prop := s.op.Marked ∧ .reaped ∉ s.sent

variable {s} {s' : Guest}

theorem Inv.step (h : s.Inv) {e} (hok : s.Timely e) (hs : s.step e = some s') : s'.Inv := by
  cases e with
  | op a =>
    obtain ⟨⟨op,sent⟩,ha,rfl⟩ := Option.map_eq_some_iff.mp hs
    obtain ⟨hmar,hsent⟩ := AgentOp.act_spec h.1 ha
    exact ⟨hmar,fun hr => (List.mem_append.mp hr).elim hsent h.2⟩
  | start jobId launch =>
    cases hs
    split
    · exact h
    cases launch with
    | unfed exited => exact ⟨h.1,by cases exited <;> simp [start,h.2]⟩
    | _ => exact h
  | job a =>
    obtain ⟨⟨job',sent⟩,ha,rfl⟩ := Option.map_eq_some_iff.mp hs
    obtain ⟨job,hjob,ha⟩ := Option.bind_eq_some_iff.mp ha
    refine ⟨h.1,fun hr => (List.mem_append.mp hr).elim (fun hr => ?_) h.2⟩
    obtain ⟨hsig,hrea⟩ := Job.act_sent ha hr
    exact hok hsig job hjob hrea

/-- When signals are timely, every signal goes to a group whose leader is not reaped. -/
theorem signals_own_groups (h : Reaches step Timely (· = {}) s) : .reaped ∉ s.sent := by
  exact (h.keeps (I := Inv) ⟨nofun,List.not_mem_nil⟩ fun _ _ _ hi => hi.step).2

theorem signals_own_groups_sent : ∃ s, Reaches step Timely (· = {}) s ∧ s.sent = [.zombie,.live] ∧
    .reaped ∉ s.sent := by
  have h : Reaches step Timely (· = {}) _ := .step (.step (.step (.step (.start rfl)
    (e := .start "job" .running) trivial rfl) (e := .job (.signal "job" 15)) (by rintro - _ ⟨⟩; nofun) rfl)
    (e := .op .exits) trivial rfl) (e := .op .cancels) trivial rfl
  exact ⟨_,h,rfl,signals_own_groups h⟩

/-- The job has exited and is reaped, a descendant keeps its output open, and a signal arrives. -/
theorem signals_reaped_group : ∃ s, Reaches step anyEvent (· = {}) s ∧ .reaped ∈ s.sent :=
  ⟨_,.of_run (.start rfl) (show run step {} [.start "job" .running,.job .exits,.job .reaps,
    .job (.signal "job" 15)] = some _ from rfl),.head _⟩

end Guest
end UCloudSandboxes.Jobs
