import Mathlib.Algebra.BigOperators.Group.List.Basic
import Mathlib.Algebra.GroupWithZero.Nat
import Mathlib.Data.List.Nodup

/-! Weighted items served from a budget in queue order: what one sweep serves, and the load of a set
of items as some are marked. -/
namespace UCloudSandboxes.Machine

variable {α : Type*} (weight : α → Nat)

def load (items : List α) : Nat := (items.map weight).sum

@[simp]
theorem load_nil : load weight [] = 0 := rfl

@[simp]
theorem load_cons (a : α) (items) : load weight (a :: items) = weight a + load weight items :=
  rfl

@[simp]
theorem load_append (l l') : load weight (l ++ l') = load weight l + load weight l' := by
  simp [load]

theorem load_perm {l l'} (h : l.Perm l') : load weight l = load weight l' :=
  (h.map weight).sum_eq

/-- Serve heads while they fit: the items served, and the queue that stays. -/
def serve : Nat → List α → List α × List α
  | _, [] => ([], [])
  | budget, a :: rest =>
    if weight a ≤ budget then
      let served := serve (budget - weight a) rest
      (a :: served.1, served.2)
    else ([], a :: rest)

variable (budget : Nat) (queue : List α)

theorem serve_append : (serve weight budget queue).1 ++ (serve weight budget queue).2 = queue := by
  induction queue generalizing budget with
  | nil => rfl
  | cons a rest ih =>
    rw [serve]
    split
    · exact congrArg (a :: ·) (ih _)
    · rfl

theorem load_serve_le : load weight (serve weight budget queue).1 ≤ budget := by
  induction queue generalizing budget with
  | nil => exact Nat.zero_le _
  | cons a rest ih =>
    rw [serve]
    split
    · have hrest := ih (budget - weight a)
      simp only [load_cons]
      omega
    · exact Nat.zero_le _

theorem serve_stuck {a : α} (h : (serve weight budget queue).2.head? = some a) :
    budget - load weight (serve weight budget queue).1 < weight a := by
  induction queue generalizing budget with
  | nil => cases h
  | cons b rest ih =>
    rw [serve] at h ⊢
    split
    · rename_i hfits
      rw [if_pos hfits] at h
      have hrest := ih _ h
      simp only [load_cons]
      omega
    · rename_i hfits
      rw [if_neg hfits] at h
      obtain rfl : b = a := by simpa using h
      simpa using hfits

variable [DecidableEq α]

theorem load_filter_mark {items marked} {p q : α → Bool} (hitems : items.Nodup)
    (hmar : marked.Nodup) (hsub : marked ⊆ items) (hnew : ∀ a ∈ marked, p a = false)
    (hq : ∀ a ∈ items, q a = (p a || decide (a ∈ marked))) :
    load weight (items.filter q) = load weight (items.filter p) + load weight marked := by
  rw [← load_append]
  refine load_perm weight ((List.perm_ext_iff_of_nodup (hitems.filter _) ?_).mpr fun a => ?_)
  · refine (hitems.filter _).append hmar fun a ha hm => ?_
    simp [hnew a hm] at ha
  · simp only [List.mem_filter,List.mem_append]
    by_cases ha : a ∈ items
    · simp [ha,hq a ha]
    · simp only [ha,false_and,false_or,false_iff]
      exact fun hm => ha (hsub hm)

theorem load_filter_ne {items} (h : items.Nodup) {a : α} (ha : a ∈ items) :
    load weight (items.filter (· ≠ a)) + weight a = load weight items := by
  have hperm : (a :: items.filter (· ≠ a)).Perm items := by
    refine (List.perm_ext_iff_of_nodup ?_ h).mpr fun b => ?_
    · exact List.nodup_cons.mpr ⟨by simp,h.filter _⟩
    · by_cases hb : b = a
      · simp [hb,ha]
      · simp [hb]
  rw [← load_perm weight hperm,load_cons,Nat.add_comm]

end UCloudSandboxes.Machine
