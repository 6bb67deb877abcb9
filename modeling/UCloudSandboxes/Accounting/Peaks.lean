import Mathlib.Algebra.GroupWithZero.Nat
import Mathlib.Algebra.Order.BigOperators.Group.Finset
import Mathlib.Data.List.AList

/-! Per-key maxima of listed amounts, and the running total of the peaks' excess over a base. -/
namespace UCloudSandboxes.Accounting
open List

variable {α : Type*} [DecidableEq α]

/-- The largest amount listed for a key; an unknown amount counts for nothing. -/
def peak : List (α × Option Nat) → α → Nat
  | [], _ => 0
  | (k, v) :: rest, a => if k = a then max (v.getD 0) (peak rest a) else peak rest a

@[simp]
theorem peak_nil (a : α) : peak [] a = 0 := rfl

theorem peak_cons (k) (v) (rest) (a : α) :
    peak ((k, v) :: rest) a = if k = a then max (v.getD 0) (peak rest a) else peak rest a := rfl

theorem peak_append (l l') (a : α) : peak (l ++ l') a = max (peak l a) (peak l' a) := by
  induction l with
  | nil => simp
  | cons e l ih =>
    obtain ⟨k,v⟩ := e
    simp only [cons_append,peak_cons,ih]
    split
    · exact (max_assoc _ _ _).symm
    · rfl

/-- Raise one key's peak; a key enters only with a positive amount. -/
def raise (k : α) (v : Nat) : List (α × Nat) → List (α × Nat)
  | [] => if 0 < v then [(k, v)] else []
  | (k', v') :: rest => if k' = k then (k', max v' v) :: rest else (k', v') :: raise k v rest

variable (l : List (α × Option Nat))

/-- The peaks of the listed amounts, one entry a key, in the order the keys first appear. -/
def peaks : List (α × Nat) :=
  l.foldl (fun acc e => match e.2 with | none => acc | some v => raise e.1 v acc) []

def amount : List (α × Nat) → α → Nat
  | [], _ => 0
  | (k, v) :: rest, a => if k = a then v else amount rest a

theorem amount_raise (k) (v) (l) (a : α) :
    amount (raise k v l) a = if k = a then max (amount l a) v else amount l a := by
  induction l with
  | nil =>
    by_cases hv : 0 < v
    · simp [raise,hv,amount]
    · have hv : v = 0 := by omega
      simp [raise,hv]
  | cons e l ih =>
    obtain ⟨k',v'⟩ := e
    by_cases hk : k' = k
    · subst hk
      by_cases ha : k' = a <;> simp [raise,amount,ha]
    · by_cases ha : k' = a
      · subst ha
        simp [raise,amount,hk,Ne.symm hk]
      · simp [raise,amount,hk,ha,ih]

theorem keys_raise (k) (v) (l : List (α × Nat)) : (raise k v l).map (·.1) = l.map (·.1) ∨
      k ∉ l.map (·.1) ∧ (raise k v l).map (·.1) = l.map (·.1) ++ [k] := by
  induction l with
  | nil => by_cases hv : 0 < v <;> simp [raise,hv]
  | cons e l ih =>
    obtain ⟨k',v'⟩ := e
    by_cases hk : k' = k
    · exact .inl (by simp [raise,hk])
    rcases ih with ih | ⟨hnew,ih⟩
    · exact .inl (by simp [raise,hk,ih])
    · exact .inr ⟨by simpa [Ne.symm hk] using hnew,by simp [raise,hk,ih]⟩

theorem nodup_raise {k : α} {v l} (h : (l.map (·.1)).Nodup) : ((raise k v l).map (·.1)).Nodup := by
  rcases keys_raise k v l with hk | ⟨hnew,hk⟩
  · rwa [hk]
  rw [hk]
  refine nodup_append.mpr ⟨h,nodup_singleton k,?_⟩
  rintro x hx y hy rfl
  exact hnew (mem_singleton.mp hy ▸ hx)

theorem mem_keys_raise {k a : α} {v l} (h : a ∈ (raise k v l).map (·.1)) : a ∈ l.map (·.1) ∨ a = k := by
  rcases keys_raise k v l with hk | ⟨_,hk⟩
  · exact .inl (hk ▸ h)
  · rw [hk,mem_append,mem_singleton] at h
    exact h

private theorem foldl_raise (l) (acc : List (α × Nat))
    (hacc : (acc.map (·.1)).Nodup) :
    let result := l.foldl (fun acc e => match e.2 with | none => acc | some v => raise e.1 v acc) acc
    (result.map (·.1)).Nodup ∧ (∀ a, amount result a = max (amount acc a) (peak l a)) ∧
      ∀ a ∈ result.map (·.1), a ∈ acc.map (·.1) ∨ a ∈ l.map (·.1) := by
  induction l generalizing acc with
  | nil => exact ⟨hacc,fun a => by simp,fun a => .inl⟩
  | cons e l ih =>
    obtain ⟨k,v⟩ := e
    cases v with
    | none =>
      obtain ⟨hnodup,hamo,hkeys⟩ := ih acc hacc
      refine ⟨hnodup,fun a => (hamo a).trans ?_,fun a ha => (hkeys a ha).imp_right fun h => ?_⟩
      · simp [peak_cons]
      · exact .tail _ h
    | some v =>
      obtain ⟨hnodup,hamo,hkeys⟩ := ih (raise k v acc) (nodup_raise hacc)
      refine ⟨hnodup,fun a => (hamo a).trans ?_,fun a ha => ?_⟩
      · rw [amount_raise,peak_cons]
        split
        · exact max_assoc _ _ _
        · rfl
      · rcases hkeys a ha with h | h
        · rcases mem_keys_raise h with h | rfl
          · exact .inl h
          · exact .inr (mem_cons_self ..)
        · exact .inr (.tail _ h)

theorem nodup_peaks : ((peaks l).map (·.1)).Nodup :=
  (foldl_raise l [] nodup_nil).1

theorem amount_peaks (a) : amount (peaks l) a = peak l a := by
  have h := (foldl_raise l [] nodup_nil).2.1 a
  exact h.trans (by simp [amount])

theorem sum_excess (f : α → Nat) {l} (hn : (l.map (·.1)).Nodup) {s} (hs : ∀ a ∈ l.map (·.1), a ∈ s) :
    (l.map fun e => e.2 - f e.1).sum = ∑ a ∈ s, (amount l a - f a) := by
  induction l generalizing s with
  | nil => simp [amount]
  | cons e l ih =>
    obtain ⟨k,v⟩ := e
    simp only [map_cons,nodup_cons] at hn
    have hk : k ∈ s := hs k (by simp)
    have hrest : ∀ a ∈ l.map (·.1), a ∈ s.erase k := fun a ha =>
      Finset.mem_erase.mpr ⟨fun he => hn.1 (he ▸ ha),hs a (.tail _ ha)⟩
    have herase : ∑ a ∈ s.erase k, (amount ((k, v) :: l) a - f a) =
        ∑ a ∈ s.erase k, (amount l a - f a) :=
      Finset.sum_congr rfl fun a ha => by
        rw [amount,if_neg (Ne.symm (Finset.mem_erase.mp ha).1)]
    rw [map_cons,sum_cons,ih hn.2 hrest,← Finset.add_sum_erase s _ hk,herase]
    simp [amount]

/-- A base sum kept beside a table, plus the excess of the listed peaks over the table. -/
def total (base : Nat) (f : α → Nat) (l : List (α × Option Nat)) : Nat :=
  (peaks l).foldl (fun t e => t + (e.2 - f e.1)) base

private theorem foldl_add_eq {β} (g : β → Nat) (l : List β) (base) :
    l.foldl (fun t e => t + g e) base = base + (l.map g).sum := by
  induction l generalizing base with
  | nil => rfl
  | cons e l ih =>
    rw [foldl_cons,ih,map_cons,sum_cons]
    omega

/-- Every key is charged the larger of its table entry and its peak, once. -/
theorem total_eq_sum (f : α → Nat) (l) {base s}
    (hbase : base = ∑ a ∈ s, f a) (hs : ∀ a ∈ l.map (·.1), a ∈ s) :
    total base f l = ∑ a ∈ s, max (f a) (peak l a) := by
  calc total base f l = base + ((peaks l).map fun e => e.2 - f e.1).sum := foldl_add_eq _ _ _
    _ = ∑ a ∈ s, f a + ∑ a ∈ s, (peak l a - f a) := by
        rw [sum_excess f (nodup_peaks l) fun a ha =>
          hs a (((foldl_raise l [] nodup_nil).2.2 a ha).resolve_left (by simp)),hbase]
        simp only [amount_peaks]
    _ = ∑ a ∈ s, max (f a) (peak l a) := by
        rw [← Finset.sum_add_distrib]
        exact Finset.sum_congr rfl fun a _ => by omega

section Table
variable {β : Type*}

variable (g : β → Nat) (m : AList fun _ : α => β)

def tableSum : Nat := (m.entries.map fun e => g e.2).sum

def tableAt (a : α) : Nat := ((m.lookup a).map g).getD 0

theorem sum_kerase {M} [AddCommMonoid M] (g : β → M) (a) (l : List (Sigma fun _ : α => β)) :
    ((l.kerase a).map fun e => g e.2).sum + ((l.dlookup a).map g).getD 0 =
      (l.map fun e => g e.2).sum := by
  induction l with
  | nil => simp
  | cons e l ih =>
    obtain ⟨k,b⟩ := e
    by_cases hk : a = k
    · subst hk
      simp [add_comm]
    · rw [kerase_cons_ne hk,dlookup_cons_ne _ _ hk]
      simp only [map_cons,sum_cons]
      rw [add_assoc,ih]

theorem tableSum_erase (a) : tableSum g (m.erase a) + tableAt g m a = tableSum g m :=
  sum_kerase g a m.entries

theorem tableSum_insert (a) (b) : tableSum g (m.insert a b) = g b + tableSum g (m.erase a) := rfl

theorem tableSum_insert_new {m : AList fun _ : α => β} {a} (b) (h : a ∉ m) :
    tableSum g (m.insert a b) = tableSum g m + g b := by
  have hsum := tableSum_erase g m a
  have hzero : tableAt g m a = 0 := by simp [tableAt,AList.lookup_eq_none.mpr h]
  rw [tableSum_insert]
  omega

theorem tableSum_eq_sum {s} (hs : ∀ a ∈ m.keys, a ∈ s) : tableSum g m = ∑ a ∈ s, tableAt g m a := by
  induction m using AList.insertRec generalizing s with
  | H0 => simp [tableSum,tableAt]
  | IH a b m ha ih =>
    have has : a ∈ s := hs a (by simp)
    have hrest : ∀ k ∈ m.keys, k ∈ s.erase a := fun k hk =>
      Finset.mem_erase.mpr ⟨fun he => ha (he ▸ hk),hs k (by
        rw [← AList.mem_keys,AList.mem_insert]
        exact .inr hk)⟩
    have herase : ∑ k ∈ s.erase a, tableAt g (m.insert a b) k = ∑ k ∈ s.erase a, tableAt g m k :=
      Finset.sum_congr rfl fun k hk => by
        rw [tableAt,AList.lookup_insert_ne (Finset.mem_erase.mp hk).1,tableAt]
    rw [tableSum_insert_new g b ha,ih hrest,← Finset.add_sum_erase s _ has,herase]
    simp [tableAt,Nat.add_comm]

end Table

end UCloudSandboxes.Accounting
