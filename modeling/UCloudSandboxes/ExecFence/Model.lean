import Mathlib.Data.List.AList
import UCloudSandboxes.Machine.Basic
import UCloudSandboxes.Machine.Flock

/-! The exec fence of one sandbox: its two lock files, and the tasks of the agent and noded that
lock them, one system call at a time. -/
namespace UCloudSandboxes.ExecFence
open Machine Function

/-- `.<id>.transition` (T) and `.<id>.activity` (A). -/
inductive LockFile
  | transition
  | activity
deriving DecidableEq

inductive Role
  /-- noded's `ExecFence::acquire`. -/
  | exec
  /-- The agent's `hold_activity`. -/
  | activity
  /-- The agent's `transition`; a delete is one that allows shared activity. -/
  | transition (allowShared : Bool)
  | pause
deriving DecidableEq

namespace Role

def mode : Role → LockMode
  | .exec | .activity => .shared
  | .transition _ | .pause => .exclusive

/-- Roles that keep A shared and let T go. -/
def leases : Role → Bool
  | .exec | .activity => true
  | .transition _ | .pause => false

def takesActivity : Role → Bool
  | .transition allowShared => !allowShared
  | _ => true

/-- A pause does not make the activity file: its mtime is the activity clock. -/
def creates : Role → LockFile → Bool
  | .pause, .activity => false
  | _, _ => true

/-- Which locks are waited for; the others are asked with `LOCK_NB`. -/
def waits : Role → LockFile → Bool
  | .transition _, .transition => true
  | .activity, .activity => true
  | _, _ => false

end Role

inductive Stage
  | opening (file : LockFile)
  | locking (file : LockFile)
  | checking (file : LockFile)
  | releasing
  | held
  | discarding
  | discarded
  | closing
deriving DecidableEq

structure Task where
  role : Role
  stage : Stage := .opening .transition
  transition : Option Descriptor := none
  activity : Option Descriptor := none
deriving DecidableEq

namespace Task

def descriptor (t : Task) : LockFile → Option Descriptor
  | .transition => t.transition
  | .activity => t.activity

def put (t : Task) (file : LockFile) (d : Option Descriptor) (stage : Stage) : Task :=
  match file with
  | .transition => { t with transition := d, stage }
  | .activity => { t with activity := d, stage }

def verified (t : Task) : LockFile → Task
  | .transition => { t with stage := if t.role.takesActivity then .opening .activity else .held }
  | .activity => { t with stage := if t.role.leases then .releasing else .held }

end Task

structure Fence where
  links : LockFile → Option Nat
  next : Nat
  tasks : AList fun _ : Nat => Task

inductive Event
  | spawn (id : Nat) (role : Role)
  | advance (id : Nat)
  /-- A `LOCK_NB` lock is refused by a holder outside the protocol: a probe of A, or a forked
  child's descriptor. -/
  | refuse (id : Nat)
  | discard (id : Nat)
  | finish (id : Nat)
  /-- The process of a task ends, or the task gives up: its descriptors are closed. -/
  | drop (id : Nat)
  | touch
deriving DecidableEq

namespace Fence

def fresh : Fence := ⟨fun _ => none,0,∅⟩

variable (s : Fence) (id : Nat) (t : Task) (file : LockFile)

def put : Fence := { s with tasks := s.tasks.insert id t }

def drop : Fence := { s with tasks := s.tasks.erase id }

def make : Fence :=
  { s with links := update s.links file (some s.next), next := s.next + 1 }

def unlink : Fence := { s with links := update s.links file none }

section Links
variable (s : Fence) (file : LockFile) {f : LockFile}

@[simp]
theorem links_make_ne (h : f ≠ file) : (s.make file).links f = s.links f := update_of_ne h ..

@[simp]
theorem links_unlink_self : (s.unlink file).links file = none := update_self ..

@[simp]
theorem links_unlink_ne (h : f ≠ file) : (s.unlink file).links f = s.links f := update_of_ne h ..

end Links

def openFile : Fence :=
  match s.links file with
  | some inode => s.put id (t.put file (some ⟨inode,none⟩) (.locking file))
  | none =>
    if t.role.creates file then
      (s.make file).put id (t.put file (some ⟨s.next,none⟩) (.locking file))
    -- only a pause gets here, at A: with no file there is nothing to hold
    else s.put id { t with stage := .held }

/-- No other open description of the inode holds a lock in the way. -/
def grants (d : Descriptor) : Bool :=
  s.tasks.entries.all fun e => e.1 = id || (e.2.descriptor file).all (!d.excludes ·)

/-- A refused lock closes its descriptor: at T the agent's activity tries again; at A the task lets
T go. -/
def refused : LockFile → Fence
  | .transition =>
    if t.role = .activity then s.put id (t.put .transition none (.opening .transition)) else s.drop id
  | .activity => s.put id (t.put .activity none .closing)

def lockFile : Option Fence :=
  (t.descriptor file).bind fun d =>
    let locked : Descriptor := ⟨d.inode,some t.role.mode⟩
    if s.grants id file locked then some (s.put id (t.put file (some locked) (.checking file)))
    else if t.role.waits file then none
    else some (s.refused id t file)

/-- Keep a lock on the inode the path names; close any other and open again. -/
def checkFile : Option Fence :=
  (t.descriptor file).map fun d =>
    if s.links file = some d.inode then s.put id (t.verified file)
    else s.put id (t.put file none (.opening file))

def advance : Option Fence :=
  match t.stage with
  | .opening file => some (s.openFile id t file)
  | .locking file => s.lockFile id t file
  | .checking file => s.checkFile id t file
  | .releasing => some (s.put id (t.put .transition none .held))
  | .discarding => some ((s.unlink .transition).put id { t with stage := .discarded })
  | .closing => some (s.drop id)
  | .held | .discarded => none

/-- Leave what is held: a lease closes A; the others close A, then T. -/
def finish : Option Fence :=
  match t.stage with
  | .held => some (if t.role.leases then s.drop id else s.put id (t.put .activity none .closing))
  | .discarded => some (s.drop id)
  | _ => none

def step : Event → Option Fence
  | .spawn id role => if id ∈ s.tasks then none else some (s.put id { role })
  | .advance id => (s.tasks.lookup id).bind (s.advance id)
  | .refuse id => (s.tasks.lookup id).bind fun t =>
    match t.stage with
    | .locking file => if t.role.waits file then none else some (s.refused id t file)
    | _ => none
  | .discard id => (s.tasks.lookup id).bind fun t =>
    if t.role = .transition true ∧ t.stage = .held then
      some ((s.unlink .activity).put id { t with stage := .discarding })
    else none
  | .finish id => (s.tasks.lookup id).bind (s.finish id)
  | .drop id => some (s.drop id)
  | .touch => some (if (s.links .activity).isSome then s else s.make .activity)

end Fence

end UCloudSandboxes.ExecFence
