import UCloudSandboxes.Machine.Basic

/-! The reports of finished jobs that noded sends to admission off the request path. -/
namespace UCloudSandboxes.Jobs
open Machine

inductive JobState
  | starting | running | exited | signaled | failed
  deriving DecidableEq

structure JobKey where
  sandboxId : String
  generation : Nat
  jobId : String
  deriving DecidableEq

structure JobRecord extends JobKey where
  state : JobState

def JobRecord.terminal (r : JobRecord) : Bool := r.state ∈ [.exited,.signaled,.failed]

def terminalSeenEntries : Nat := 64 * 1024

/-- `TerminalQueue` with its channel and the report under way; the succeeded ones are a ghost. -/
structure TerminalQueue where
  seen : List JobKey := []
  queued : List JobKey := []
  running : Option JobKey := none
  reported : List JobKey := []

inductive TerminalEvent
  | observe (record : JobRecord)
  | receive
  | report (succeeds : Bool)

namespace TerminalQueue

variable (q : TerminalQueue)

def observe (record : JobRecord) : TerminalQueue :=
  if !record.terminal || record.toJobKey ∈ q.seen then q
  else { q with
    seen := record.toJobKey :: if q.seen.length ≥ terminalSeenEntries then [] else q.seen
    queued := q.queued ++ [record.toJobKey] }

def step : TerminalEvent → Option TerminalQueue
  | .observe record => some (q.observe record)
  | .receive =>
    match q.running, q.queued with
    | none, k :: queued => some { q with queued, running := some k }
    | _, _ => none
  | .report succeeds => q.running.map fun k =>
      { q with running := none, reported := if succeeds then k :: q.reported else q.reported }

def Pursued (k : JobKey) : Prop := k ∈ q.reported ∨ k ∈ q.queued ∨ q.running = some k

/-- A report fails only if its job is not suppressed, or has another report. -/
def survives : TerminalEvent → Prop
  | .report false => ∀ k, q.running = some k → k ∈ q.seen → k ∈ q.reported ∨ k ∈ q.queued
  | _ => True

def Inv : Prop := ∀ k ∈ q.seen, q.Pursued k

variable {q} {q' : TerminalQueue}

theorem Inv.observe (h : q.Inv) (record) : (q.observe record).Inv := by
  unfold TerminalQueue.observe
  split
  · exact h
  intro k hk
  rcases List.mem_cons.mp hk with rfl | hk
  · exact .inr (.inl (List.mem_append_right _ (.head _)))
  split at hk
  · cases hk
  · exact (h k hk).imp_right (·.imp_left (List.mem_append_left _))

theorem Inv.step (h : q.Inv) {e} (hok : q.survives e) (hs : q.step e = some q') : q'.Inv := by
  cases e with
  | observe record =>
    obtain rfl := Option.some.inj hs
    exact h.observe record
  | receive =>
    simp only [TerminalQueue.step] at hs
    split at hs
    · cases hs
      intro k hk
      have := h k hk
      grind [Pursued]
    · cases hs
  | report succeeds =>
    obtain ⟨j,hj,rfl⟩ := Option.map_eq_some_iff.mp hs
    intro k hk
    have := h k hk
    cases succeeds <;> grind [Pursued,survives]

/-- While a failed report leaves its job open to another, a terminal record without a report queues
one. -/
theorem finished_job_reported (h : Reaches step survives (· = {}) q) {record : JobRecord}
    (hterminal : record.terminal = true) (hnone : ¬ q.Pursued record.toJobKey) :
    record.toJobKey ∈ (q.observe record).queued := by
  have hinv : q.Inv := h.keeps nofun fun _ _ _ hi => hi.step
  have huns : record.toJobKey ∉ q.seen := fun hseen => hnone (hinv _ hseen)
  simp [observe,hterminal,huns]

def exited (jobId : String) : JobRecord := ⟨⟨"s",1,jobId⟩,.exited⟩

theorem finished_job_reported_second : ∃ q, Reaches step survives (· = {}) q ∧
    (exited "b").toJobKey ∈ (q.observe (exited "b")).queued := by
  have h : Reaches step survives (· = {}) _ := .step (.step (.step (.start rfl)
    (e := .observe (exited "a")) trivial rfl) (e := .receive) trivial rfl) (e := .report true) trivial rfl
  exact ⟨_,h,finished_job_reported h rfl (by unfold Pursued; decide)⟩

/-- A report that fails leaves its key seen: neither queued nor in flight, and not queued again. -/
theorem failed_report_forgotten : ∃ q, Reaches step anyEvent (· = {}) q ∧
    ¬ q.Pursued (exited "a").toJobKey ∧ (exited "a").toJobKey ∉ (q.observe (exited "a")).queued :=
  ⟨_,.of_run (.start rfl) (show run step {} [.observe (exited "a"),.receive,.report false] = some _ from rfl),
    by unfold Pursued; decide,by decide⟩

end TerminalQueue
end UCloudSandboxes.Jobs
