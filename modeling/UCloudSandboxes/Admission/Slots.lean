import UCloudSandboxes.Machine.Values
import UCloudSandboxes.Admission.FairRuns

namespace UCloudSandboxes.Admission.Callers
open Machine List

variable {O : Type} {capacity : Nat} {c : Callers O}

structure Slots (capacity : Nat) (c : Callers O) : Prop where
  inv : c.Inv capacity
  pending : ∀ t ∈ c.pending, t.weight = 1
  held : ∀ t ∈ c.held, t.weight = 1
  reserved : c.unreserved = 0

theorem load_of_units {l : List (Ticket O)} (h : ∀ t ∈ l, t.weight = 1) :
    load Ticket.weight l = l.length := by
  induction l with
  | nil => rfl
  | cons t l ih =>
    rw [load_cons,length_cons,h t (.head _), ih fun t ht => h t (.tail _ ht)]
    omega

namespace Slots

theorem conserve (h : c.Slots capacity) :
    c.pool.available + c.pending.countP (c.pool.granted.contains ·.id) + c.held.length = capacity := by
  have hbooks := h.inv.books.conserve
  have hpend := load_of_units (l := c.pending.filter (c.pool.granted.contains ·.id))
    fun t ht => h.pending t (mem_of_mem_filter ht)
  rw [outstanding,load_append,load_of_units h.held,h.reserved] at hbooks
  rw [countP_eq_length_filter]
  omega

theorem start (h : Start capacity c) : c.Slots capacity := by
  have hinv := Inv.start h
  obtain ⟨pool,-,rfl⟩ := h
  exact ⟨hinv,by simp,by simp,rfl⟩

theorem enter (h : c.Slots capacity) (owner blocking) : let result := c.enter 1 owner blocking
    result.1.Slots capacity ∧
    ((result.2 = .ok .granted ∧ result.1.pending = c.pending ∧
        result.1.held.length = c.held.length + 1) ∨
      (∃ t, result.2 = .ok (.queued t) ∧ result.1.pending = c.pending ++ [t] ∧
        result.1.held = c.held) ∨
      ((result.2 = .ok .refused ∨ ∃ error, result.2 = .error error) ∧ result.1 = c)) := by
  have hinv := h.inv.enter 1 owner blocking
  unfold Callers.enter at hinv ⊢
  cases hr : c.pool.enter 1 owner blocking with
  | error error => exact ⟨h,.inr (.inr ⟨.inr ⟨error,rfl⟩,rfl⟩)⟩
  | ok result =>
    obtain ⟨pool,result⟩ := result
    rw [hr] at hinv
    obtain ⟨rfl,-,-,rfl⟩ | ⟨rfl,rfl⟩ | ⟨rfl,-,rfl⟩ := FairCapacity.enter_ok hr
    · refine ⟨⟨hinv,h.pending,fun t ht => ?_,h.reserved⟩,.inl ⟨rfl,rfl,by simp⟩⟩
      obtain ht | ht := mem_append.mp ht
      · exact h.held t ht
      · obtain rfl := mem_singleton.mp ht
        rfl
    · exact ⟨h,.inr (.inr ⟨.inl rfl,rfl⟩)⟩
    · refine ⟨⟨hinv,fun t ht => ?_,h.held,h.reserved⟩,.inr (.inl ⟨_,rfl,rfl,rfl⟩)⟩
      obtain ht | ht := mem_append.mp ht
      · exact h.pending t ht
      · obtain rfl := mem_singleton.mp ht
        rfl

variable [DecidableEq O]

section
variable (h : c.Slots capacity)
include h

theorem pending_filter {t} (ht : t ∈ c.pending) :
    c.pending.Perm (t :: c.pending.filter (· ≠ t)) := by
  have hnodup : (c.pending.map id).Nodup := by simpa using h.inv.books.pending_nodup
  exact perm_cons_filter_key hnodup ht

theorem finish {t} (ht : t ∈ c.pending) :
    (c.finish t).1.Slots capacity ∧ c.pending.Perm (t :: (c.finish t).1.pending) ∧
      (c.finish t).1.held.length = c.held.length + (c.finish t).2.toNat := by
  have hinv := h.inv.finish ht
  have hpend : ∀ t' ∈ c.pending.filter (· ≠ t), t'.weight = 1 := fun t' ht' =>
    h.pending t' (mem_of_mem_filter ht')
  unfold Callers.finish at hinv ⊢
  cases hr : (c.pool.finish t).2 with
  | true =>
    simp only [hr] at hinv ⊢
    refine ⟨⟨hinv,hpend,fun t' ht' => ?_,h.reserved⟩,h.pending_filter ht,by simp⟩
    obtain ht' | ht' := mem_append.mp ht'
    · exact h.held t' ht'
    · obtain rfl := mem_singleton.mp ht'
      exact h.pending t' ht
  | false =>
    simp only [hr] at hinv ⊢
    exact ⟨⟨hinv,hpend,h.held,h.reserved⟩,h.pending_filter ht,rfl⟩

theorem drop {t} (ht : t ∈ c.pending) :
    (c.drop t).Slots capacity ∧ c.pending.Perm (t :: (c.drop t).pending) ∧ (c.drop t).held = c.held :=
  ⟨⟨h.inv.drop ht,fun t' ht' => h.pending t' (mem_of_mem_filter ht'),h.held,h.reserved⟩,
    h.pending_filter ht,rfl⟩

theorem release (hheld : 0 < c.held.length) :
    (c.release 1).Slots capacity ∧ (c.release 1).pending = c.pending ∧
      (c.release 1).held.length + 1 = c.held.length := by
  have hinv := h.inv.release 1
  have hcons := h.conserve
  have hcap := h.inv.books.capacity_eq
  obtain ⟨pool,hpool⟩ : ∃ pool, c.pool.release 1 = .ok pool := by
    unfold FairCapacity.release
    rw [if_neg (by simp; omega)]
    exact ⟨_,rfl⟩
  obtain ⟨t,ht⟩ : ∃ t, c.held.find? (·.weight = 1) = some t := by
    obtain ⟨t,ht⟩ := exists_mem_of_length_pos hheld
    rw [← Option.isSome_iff_exists,find?_isSome]
    exact ⟨t,ht,by simpa using h.held t ht⟩
  have hmem := mem_of_find?_eq_some ht
  unfold Callers.release at hinv ⊢
  rw [hpool] at hinv ⊢
  simp only [ht] at hinv ⊢
  refine ⟨⟨hinv,h.pending,fun t' ht' => h.held t' (mem_of_mem_erase ht'),h.reserved⟩,trivial,?_⟩
  rw [length_erase_of_mem hmem]
  omega

theorem cancelWaiters (owner) :
    (c.cancelWaiters owner).Slots capacity ∧ (c.cancelWaiters owner).pending = c.pending ∧
      (c.cancelWaiters owner).held = c.held :=
  ⟨⟨h.inv.cancelWaiters owner,h.pending,h.held,h.reserved⟩,rfl,rfl⟩

end

end Slots

end UCloudSandboxes.Admission.Callers
