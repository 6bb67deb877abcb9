import Mathlib.Data.Option.Basic

/-! Advisory locks of open files, as `flock` gives them: shared locks stand together, an exclusive
one alone. -/
namespace UCloudSandboxes.Machine

inductive LockMode
  | shared
  | exclusive
deriving DecidableEq

def LockMode.conflicts : LockMode → LockMode → Bool
  | .shared, .shared => false
  | _, _ => true

structure Descriptor where
  inode : Nat
  lock : Option LockMode := none
deriving DecidableEq

namespace Descriptor

def excludes (d e : Descriptor) : Bool :=
  d.inode = e.inode && d.lock.any fun m => e.lock.any m.conflicts

theorem excludes_comm (d e : Descriptor) : d.excludes e = e.excludes d := by
  obtain ⟨i,m⟩ := d
  obtain ⟨j,n⟩ := e
  rcases m with _ | m <;> rcases n with _ | n <;> try simp [excludes]
  cases m <;> cases n <;> simp [LockMode.conflicts,eq_comm]

@[simp]
theorem excludes_unlocked (i) (e) : (⟨i,none⟩ : Descriptor).excludes e = false := by
  simp [excludes]

theorem excludes_exclusive (i) (m) :
    (⟨i,some .exclusive⟩ : Descriptor).excludes ⟨i,some m⟩ = true := by
  simp [excludes,LockMode.conflicts]

end Descriptor

end UCloudSandboxes.Machine
