import Mathlib.Data.List.Nodup

/-! Rules read from the top, where the first match decides: what placing a missing rule at an end
does to the others' order. -/
namespace UCloudSandboxes.Machine
open List

variable {ρ : Type*} {r x y : ρ} {l rs : List ρ} {P Q : ρ → Prop}

def Ahead (P Q : ρ → Prop) (l : List ρ) : Prop := l.Pairwise fun a b => Q a → ¬ P b

namespace Ahead

theorem cons (h : Ahead P Q l) (hx : ¬ Q x) : Ahead P Q (x :: l) :=
  Pairwise.cons (fun _ _ hq => absurd hq hx) h

theorem concat (h : Ahead P Q l) (hx : ¬ P x) : Ahead P Q (l ++ [x]) := by
  refine pairwise_append.mpr ⟨h,pairwise_singleton _ _,?_⟩
  intro a _ b hb _
  rwa [mem_singleton.mp hb]

/-- Where only rules of `P` and `Q` match, and one of `P` does, the first match is of `P`. -/
theorem find? (h : Ahead P Q l) {m : ρ → Bool} (hr : r ∈ l) (hP : P r) (hm : m r = true)
    (hall : ∀ x ∈ l, m x = true → P x ∨ Q x) : ∃ x, l.find? m = some x ∧ P x := by
  obtain ⟨x,hx⟩ := Option.isSome_iff_exists.mp (find?_isSome.mpr ⟨r,hr,hm⟩)
  refine ⟨x,hx,?_⟩
  obtain ⟨hmx,above,below,rfl,habove⟩ := find?_eq_some_iff_append.mp hx
  by_contra hn
  have hq : Q x := (hall x (by simp) hmx).resolve_left hn
  rcases mem_append.mp hr with hr | hr
  · simpa [hm] using habove r hr
  rcases mem_cons.mp hr with rfl | hr
  · exact hn hP
  · exact (pairwise_cons.mp (pairwise_append.mp h).2.1).1 r hr hq hP

end Ahead

variable [DecidableEq ρ]

def putTop (l : List ρ) (r : ρ) : List ρ := if r ∈ l then l else r :: l

def putBottom (l : List ρ) (r : ρ) : List ρ := if r ∈ l then l else l ++ [r]

def putAll (rs l : List ρ) : List ρ := rs.foldl putTop l

theorem mem_putTop : y ∈ putTop l r ↔ y = r ∨ y ∈ l := by
  rw [putTop]
  split
  · exact ⟨.inr,fun h => h.elim (fun he => he ▸ ‹_›) id⟩
  · exact mem_cons

theorem mem_putBottom : y ∈ putBottom l r ↔ y = r ∨ y ∈ l := by
  rw [putBottom]
  split
  · exact ⟨.inr,fun h => h.elim (fun he => he ▸ ‹_›) id⟩
  · rw [mem_append,mem_singleton,or_comm]

theorem mem_putAll : y ∈ putAll rs l ↔ y ∈ rs ∨ y ∈ l := by
  induction rs generalizing l with
  | nil => simp [putAll]
  | cons r rs ih =>
    change y ∈ putAll rs (putTop l r) ↔ _
    rw [ih,mem_putTop,mem_cons]
    tauto

theorem nodup_putTop (h : l.Nodup) : (putTop l r).Nodup := by
  rw [putTop]
  split
  · exact h
  · exact nodup_cons.mpr ⟨‹_›,h⟩

theorem nodup_putBottom (h : l.Nodup) : (putBottom l r).Nodup := by
  rw [putBottom]
  split
  · exact h
  · rw [← concat_eq_append]
    exact h.concat ‹_›

theorem nodup_putAll (h : l.Nodup) : (putAll rs l).Nodup := by
  induction rs generalizing l with
  | nil => exact h
  | cons r rs ih => exact ih (nodup_putTop h)

theorem Ahead.putTop (h : Ahead P Q l) (hr : ¬ Q r) : Ahead P Q (putTop l r) := by
  rw [Machine.putTop]
  split
  · exact h
  · exact h.cons hr

theorem Ahead.putBottom (h : Ahead P Q l) (hr : ¬ P r) : Ahead P Q (putBottom l r) := by
  rw [Machine.putBottom]
  split
  · exact h
  · exact h.concat hr

theorem Ahead.putAll (h : Ahead P Q l) (hr : ∀ r ∈ rs, ¬ Q r) : Ahead P Q (putAll rs l) := by
  induction rs generalizing l with
  | nil => exact h
  | cons r rs ih =>
    exact ih (h.putTop (hr r (.head _))) fun x hx => hr x (.tail _ hx)

def above (r : ρ) (l : List ρ) : List ρ := l.takeWhile (· ≠ r)

@[simp]
theorem above_cons_self : above r (r :: l) = [] := by
  simp [above]

theorem above_cons_ne (h : x ≠ r) : above r (x :: l) = x :: above r l := by
  simp [above,h]

theorem above_append (h : r ∈ l) (l') : above r (l ++ l') = above r l := by
  induction l with
  | nil => cases h
  | cons x l ih =>
    by_cases hx : x = r
    · subst hx
      simp
    · have hr : r ∈ l := (mem_cons.mp h).resolve_left (Ne.symm hx)
      rw [cons_append,above_cons_ne hx,above_cons_ne hx,ih hr]

theorem above_filter {p : ρ → Bool} (h : p r = true) : above r (l.filter p) = (above r l).filter p := by
  induction l with
  | nil => rfl
  | cons x l ih =>
    by_cases hx : x = r
    · subst hx
      simp [h]
    · cases hp : p x with
      | false =>
        have hn : ¬ p x = true := by simp [hp]
        rw [filter_cons_of_neg hn,ih,above_cons_ne hx,filter_cons_of_neg hn]
      | true =>
        rw [filter_cons_of_pos hp,above_cons_ne hx,ih,above_cons_ne hx,filter_cons_of_pos hp]

theorem above_putBottom (h : r ∈ l) (x : ρ) : above r (putBottom l x) = above r l := by
  rw [putBottom]
  split
  · rfl
  · exact above_append h _

theorem mem_above_putTop (h : r ∈ l) : y ∈ above r (putTop l x) ↔ (y = x ∧ y ∉ l) ∨ y ∈ above r l := by
  rw [putTop]
  split
  · rename_i hx
    exact ⟨.inr,fun h => h.elim (fun ⟨he,hn⟩ => absurd (he ▸ hx) hn) id⟩
  · rename_i hx
    have hne : x ≠ r := fun he => hx (he ▸ h)
    rw [above_cons_ne hne,mem_cons]
    exact or_congr_left ⟨fun he => ⟨he,he ▸ hx⟩,And.left⟩

theorem mem_above_putAll (h : r ∈ l) :
    y ∈ above r (putAll rs l) ↔ (y ∈ rs ∧ y ∉ l) ∨ y ∈ above r l := by
  induction rs generalizing l with
  | nil => simp [putAll]
  | cons x rs ih =>
    change y ∈ above r (putAll rs (putTop l x)) ↔ _
    rw [ih (mem_putTop.mpr (.inr h)),mem_above_putTop h,mem_putTop,mem_cons]
    tauto

theorem mem_of_mem_above_putAll (h : r ∉ l) (hr : r ∈ rs) (hy : y ∈ above r (putAll rs l)) : y ∈ rs := by
  induction rs generalizing l with
  | nil => cases hr
  | cons x rs ih =>
    change y ∈ above r (putAll rs (putTop l x)) at hy
    by_cases hx : r = x
    · subst hx
      rw [mem_above_putAll (mem_putTop.mpr (.inl rfl)),putTop,if_neg h] at hy
      simp only [above_cons_self,not_mem_nil,or_false] at hy
      exact .tail _ hy.1
    · refine .tail _ (ih ?_ ((mem_cons.mp hr).resolve_left hx) hy)
      rw [mem_putTop]
      exact not_or.mpr ⟨hx,h⟩

end UCloudSandboxes.Machine
