import Mathlib.Data.List.Basic

/-! A file replaced by a rename: readers see the last one, and only a sync of the directory settles
which version a power loss leaves. -/
namespace UCloudSandboxes.Machine

/-- A name in a directory: the version last synced, and those renamed over it since, newest first. -/
structure Replaced (α : Type*) where
  synced : α
  later : List α := []

inductive Written
  | failed
  | renamed
  | synced
deriving DecidableEq

namespace Replaced
variable {α : Type*} {p : α → Prop} {f : Replaced α} {a : α} {w : Written}

section
variable (f : Replaced α)

def current : α := f.later.headD f.synced

def versions : List α := f.later ++ [f.synced]

def write (a : α) : Written → Replaced α
  | .failed => f
  | .renamed => { f with later := a :: f.later }
  | .synced => ⟨a,[]⟩

/-- After a power loss the name holds one of its versions, and no other is left. -/
def recovered (n : Nat) : Option (Replaced α) := f.versions[n]?.map (⟨·,[]⟩)

theorem current_mem_versions : f.current ∈ f.versions := by
  obtain ⟨s,l⟩ := f
  cases l <;> simp [current,versions]

end

theorem current_write (hw : w ≠ .failed) : (f.write a w).current = a := by
  cases w with
  | failed => exact absurd rfl hw
  | renamed | synced => rfl

def Each (p : α → Prop) (f : Replaced α) : Prop := ∀ a ∈ f.versions, p a

theorem Each.current (h : f.Each p) : p f.current := h _ f.current_mem_versions

theorem each_single : (⟨a,[]⟩ : Replaced α).Each p ↔ p a := by
  simp [Each,versions]

theorem Each.write (h : f.Each p) (ha : p a) : (f.write a w).Each p := by
  cases w with
  | failed => exact h
  | renamed =>
    intro v hv
    rcases List.mem_cons.mp hv with rfl | hv
    · exact ha
    · exact h v hv
  | synced => exact each_single.mpr ha

theorem Each.recovered {f' n} (h : f.Each p) (hr : f.recovered n = some f') : f'.Each p := by
  obtain ⟨v,hv,rfl⟩ := Option.map_eq_some_iff.mp hr
  exact each_single.mpr (h v (List.mem_of_getElem? hv))

end Replaced

end UCloudSandboxes.Machine
