import Mathlib.Data.List.Basic

/-! Loops over a keyed state. A body that touches only its item's own key computes, for every key,
what the items of that key compute alone. -/
namespace UCloudSandboxes.Machine
open List

variable {σ ι κ ρ ε : Type}

theorem ok_of_bind_ok {α β : Type} {x} {f : α → Except ε β} {b : β}
    (h : x >>= f = .ok b) : ∃ a, x = .ok a ∧ f a = .ok b := by
  cases x with
  | error => cases h
  | ok a => exact ⟨a,rfl,h⟩

theorem ok_of_map_ok {α β : Type} {x : Except ε α} {f : α → β} {b : β} (h : x.map f = .ok b) :
    ∃ a, x = .ok a ∧ f a = b := by
  cases x with
  | error => cases h
  | ok a => exact ⟨a,rfl,Except.ok.inj h⟩

variable [DecidableEq κ]

variable (key : ι → κ)

def itemsOf (k : κ) (items : List ι) : List ι := items.filter fun i => key i = k

@[simp]
theorem itemsOf_nil (k : κ) : itemsOf key k [] = [] := rfl

theorem itemsOf_cons_self (i : ι) (items) :
    itemsOf key (key i) (i :: items) = i :: itemsOf key (key i) items := by
  simp [itemsOf]

theorem itemsOf_cons_ne {key : ι → κ} {k : κ} {i : ι} (h : k ≠ key i) (items) :
    itemsOf key k (i :: items) = itemsOf key k items := by
  simp [itemsOf,h.symm]

theorem mem_itemsOf {key : ι → κ} {k : κ} {i : ι} {items} :
    i ∈ itemsOf key k items ↔ i ∈ items ∧ key i = k := by
  simp [itemsOf]

theorem itemsOf_length_le_one {key : ι → κ} {items} (h : (items.map key).Nodup) (k : κ) :
    (itemsOf key k items).length ≤ 1 := by
  induction items with
  | nil => simp
  | cons i items ih =>
    obtain ⟨hi,hitems⟩ := nodup_cons.mp h
    by_cases hk : k = key i
    · subst hk
      have hnone : itemsOf key (key i) items = [] := by
        refine filter_eq_nil_iff.mpr fun j hj hjk => hi ?_
        have hkey : key j = key i := by simpa using hjk
        exact hkey ▸ mem_map_of_mem hj
      simp [itemsOf_cons_self,hnone]
    · rw [itemsOf_cons_ne hk]
      exact ih hitems

/-- An item changes, or fails on, only the part of the state under its own key, as `own` says from
that part alone. -/
structure OwnKey (I : σ → Prop) (key : ι → κ) (view : σ → κ → ρ) (body : σ → ι → Except ε σ)
    (own : ρ → ι → Except ε ρ) : Prop where
  keep : ∀ {s i s'}, I s → body s i = .ok s' → I s'
  self : ∀ {s} i, I s → (body s i).map (view · (key i)) = own (view s (key i)) i
  other : ∀ {s i s' k}, I s → body s i = .ok s' → k ≠ key i → view s' k = view s k

namespace OwnKey

variable {I : σ → Prop} {key : ι → κ} {view : σ → κ → ρ} {body : σ → ι → Except ε σ}
variable {own : ρ → ι → Except ε ρ}

omit [DecidableEq κ] in
theorem own_ok (h : OwnKey I key view body own) {s s' : σ} {i : ι} (hI : I s)
    (hs : body s i = .ok s') : own (view s (key i)) i = .ok (view s' (key i)) := by
  rw [← h.self i hI,hs]
  rfl

theorem foldlM_ok (h : OwnKey I key view body own) {items} {s s' : σ} (hI : I s)
    (hs : items.foldlM body s = .ok s') (k : κ) :
    (itemsOf key k items).foldlM own (view s k) = .ok (view s' k) := by
  induction items generalizing s with
  | nil =>
    obtain rfl : s = s' := by simpa [pure,Except.pure] using hs
    rfl
  | cons i items ih =>
    obtain ⟨t,hb,hs⟩ := ok_of_bind_ok hs
    by_cases hk : k = key i
    · subst hk
      rw [itemsOf_cons_self,foldlM_cons,h.own_ok hI hb]
      exact ih (h.keep hI hb) hs
    · rw [itemsOf_cons_ne hk,← h.other hI hb hk]
      exact ih (h.keep hI hb) hs

theorem foldlM_isOk_iff (h : OwnKey I key view body own) (items) {s : σ} (hI : I s) :
    (∃ s', items.foldlM body s = .ok s') ↔
      ∀ k, ∃ r, (itemsOf key k items).foldlM own (view s k) = .ok r := by
  refine ⟨fun ⟨s',hs⟩ k => ⟨_,h.foldlM_ok hI hs k⟩,fun hown => ?_⟩
  induction items generalizing s with
  | nil => exact ⟨s,rfl⟩
  | cons i items ih =>
    cases hb : body s i with
    | error =>
      obtain ⟨r,hr⟩ := hown (key i)
      rw [itemsOf_cons_self,foldlM_cons,← h.self i hI,hb] at hr
      cases hr
    | ok t =>
      have hrest : ∀ k, ∃ r, (itemsOf key k items).foldlM own (view t k) = .ok r := by
        intro k
        obtain ⟨r,hr⟩ := hown k
        by_cases hk : k = key i
        · subst hk
          rw [itemsOf_cons_self,foldlM_cons,h.own_ok hI hb] at hr
          exact ⟨r,hr⟩
        · rw [itemsOf_cons_ne hk] at hr
          exact ⟨r,by rw [h.other hI hb hk]; exact hr⟩
      obtain ⟨s',hs⟩ := ih (h.keep hI hb) hrest
      exact ⟨s',by rw [foldlM_cons,hb]; exact hs⟩

end OwnKey

theorem foldlM_mem_invariant {body : σ → ι → Except ε σ} {P : σ → Prop} {items : List ι}
    (hstep : ∀ s, ∀ i, ∀ s', i ∈ items → P s → body s i = .ok s' → P s') {s s' : σ} (hs : P s)
    (h : items.foldlM body s = .ok s') : P s' := by
  induction items generalizing s with
  | nil =>
    obtain rfl : s = s' := by simpa [pure,Except.pure] using h
    exact hs
  | cons i items ih =>
    obtain ⟨t,hb,h⟩ := ok_of_bind_ok h
    have hfirst := hstep s i t mem_cons_self hs hb
    exact ih (fun s i s' hi => hstep s i s' (.tail _ hi)) hfirst h

theorem foldlM_invariant {body : σ → ι → Except ε σ} {P : σ → Prop} {items : List ι}
    (hstep : ∀ s i s', P s → body s i = .ok s' → P s') {s s' : σ} (hs : P s)
    (h : items.foldlM body s = .ok s') : P s' :=
  foldlM_mem_invariant (fun s i s' _ => hstep s i s') hs h

theorem foldl_own (view : σ → κ → ρ) (body : σ → ι → σ) (own : ρ → ι → ρ)
    (hself : ∀ s i, view (body s i) (key i) = own (view s (key i)) i)
    (hother : ∀ s i k, k ≠ key i → view (body s i) k = view s k) (items) (s : σ) (k : κ) :
    view (items.foldl body s) k = (itemsOf key k items).foldl own (view s k) := by
  induction items generalizing s with
  | nil => rfl
  | cons i items ih =>
    rw [foldl_cons,ih]
    by_cases hk : k = key i
    · subst hk
      rw [itemsOf_cons_self,foldl_cons,hself]
    · rw [itemsOf_cons_ne hk,hother s i k hk]

section LastWritten
variable {ν : Type} {items : List (κ × Option ν)} {k : κ}

/-- The last value the items write under `k`, over what stood there. -/
def lastWritten (items : List (κ × Option ν)) (k : κ) (v : Option ν) : Option ν :=
  (itemsOf Prod.fst k items).foldl (fun v item => item.2.or v) v

@[simp]
theorem lastWritten_nil (k : κ) (v : Option ν) : lastWritten [] k v = v := rfl

theorem lastWritten_cons_self (x v) :
    lastWritten ((k, x) :: items) k v = lastWritten items k (x.or v) := by
  rw [lastWritten,itemsOf_cons_self Prod.fst (k, x) items]
  rfl

theorem lastWritten_cons_ne {k' : κ} (h : k ≠ k') (x v) :
    lastWritten ((k', x) :: items) k v = lastWritten items k v := by
  rw [lastWritten,itemsOf_cons_ne (i := (k', x)) h items]
  rfl

theorem lastWritten_eq_or (items : List (κ × Option ν)) (k : κ) (v : Option ν) :
    lastWritten items k v = (lastWritten items k none).or v := by
  unfold lastWritten
  generalize itemsOf Prod.fst k items = own
  induction own generalizing v with
  | nil => rfl
  | cons item own ih =>
    rw [foldl_cons,foldl_cons,ih (item.2.or v),ih (item.2.or none),Option.or_none, Option.or_assoc]

theorem mem_of_lastWritten {x : ν} (h : lastWritten items k none = some x) : (k, some x) ∈ items := by
  induction items with
  | nil => cases h
  | cons item items ih =>
    obtain ⟨k',y⟩ := item
    by_cases hk : k = k'
    · subst hk
      rw [lastWritten_cons_self,lastWritten_eq_or,Option.or_eq_some_iff] at h
      obtain hlater | ⟨-,hy⟩ := h
      · exact .tail _ (ih hlater)
      · rw [Option.or_none] at hy
        exact hy ▸ (.head _)
    · rw [lastWritten_cons_ne hk] at h
      exact .tail _ (ih h)

theorem lastWritten_ne_none {x : ν} (h : (k, some x) ∈ items) (v : Option ν) :
    lastWritten items k v ≠ none := by
  induction items generalizing v with
  | nil => cases h
  | cons item items ih =>
    obtain hhead | htail := mem_cons.mp h
    · subst hhead
      rw [lastWritten_cons_self,lastWritten_eq_or]
      simp
    · obtain ⟨k',y⟩ := item
      by_cases hk : k = k'
      · subst hk
        rw [lastWritten_cons_self]
        exact ih htail _
      · rw [lastWritten_cons_ne hk]
        exact ih htail v

end LastWritten

end UCloudSandboxes.Machine
