import Mathlib.Data.List.AList
import Mathlib.Data.List.Perm.Basic

/-! The values of a keyed table up to order, so that counts and sums follow one changed entry. -/
namespace UCloudSandboxes.Machine
open List AList

variable {K V : Type}

variable (t : AList fun _ : K => V)

def values : List V := t.entries.map (·.2)

@[simp]
theorem values_empty : values (∅ : AList fun _ : K => V) = [] := rfl

variable [DecidableEq K] {t : AList fun _ : K => V}

theorem lookup_of_erase {k k' v} (h : (t.erase k).lookup k' = some v) :
    k' ≠ k ∧ t.lookup k' = some v := by
  by_cases hk : k' = k
  · subst hk
    rw [lookup_erase] at h
    cases h
  · rw [lookup_erase_ne hk] at h
    exact ⟨hk,h⟩

theorem lookup_of_insert {k k' v v'} (h : (t.insert k v).lookup k' = some v') :
    (k' = k ∧ v' = v) ∨ (k' ≠ k ∧ t.lookup k' = some v') := by
  by_cases hk : k' = k
  · subst hk
    rw [lookup_insert] at h
    exact .inl ⟨rfl,(Option.some.inj h).symm⟩
  · rw [lookup_insert_ne hk] at h
    exact .inr ⟨hk,h⟩

theorem lookup_insert_ite (k k') (v) :
    (t.insert k v).lookup k' = if k' = k then some v else t.lookup k' := by
  split
  · subst k'
    exact lookup_insert t
  · exact lookup_insert_ne ‹_›

theorem values_insert (k) (v) : values (t.insert k v) = v :: values (t.erase k) := rfl

theorem values_insert_new {k} (h : k ∉ t) (v) : values (t.insert k v) = v :: values t := by
  unfold values
  rw [entries_insert_of_notMem h,map_cons]

theorem values_erase {k v} (h : t.lookup k = some v) :
    (values t).Perm (v :: values (t.erase k)) := by
  have hmem : (⟨k,v⟩ : Sigma fun _ : K => V) ∈ t.entries := mem_lookup_iff.mp h
  obtain ⟨w,before,after,-,hent,herase⟩ := exists_of_kerase (mem_keys_of_mem hmem)
  have hw : w = v := by
    have hlook : t.lookup k = some w := mem_lookup_iff.mpr (by simp [hent])
    exact Option.some.inj (hlook.symm.trans h)
  unfold values
  rw [show (t.erase k).entries = before ++ after from herase,hent,hw]
  simp

theorem mem_values {v} : v ∈ values t ↔ ∃ k, t.lookup k = some v := by
  constructor
  · intro h
    obtain ⟨⟨k,w⟩,hmem,rfl⟩ := mem_map.mp h
    exact ⟨k,mem_lookup_iff.mpr hmem⟩
  · rintro ⟨k,hk⟩
    exact mem_map.mpr ⟨⟨k,v⟩,mem_lookup_iff.mp hk,rfl⟩

section Parts
variable {β : Type} {part : V → Option β} {k : K} {v w : V} {b : β}

theorem parts_insert_new (h : k ∉ t) (v) : (values (t.insert k v)).filterMap part =
    (part v).toList ++ (values t).filterMap part := by
  rw [values_insert_new h,filterMap_cons]
  cases part v <;> rfl

theorem parts_erase (part : V → Option β) (h : t.lookup k = some v) : ((values t).filterMap part).Perm
    ((part v).toList ++ (values (t.erase k)).filterMap part) := by
  refine ((values_erase h).filterMap part).trans ?_
  rw [filterMap_cons]
  cases part v <;> exact Perm.refl _

theorem parts_erase_none (h : t.lookup k = some v) (hv : part v = none) :
    ((values t).filterMap part).Perm ((values (t.erase k)).filterMap part) := by
  have herase := parts_erase part h
  rwa [hv] at herase

theorem parts_erase_some (h : t.lookup k = some v) (hv : part v = some b) :
    ((values t).filterMap part).Perm (b :: (values (t.erase k)).filterMap part) := by
  have herase := parts_erase part h
  rwa [hv] at herase

theorem parts_insert (t : AList fun _ : K => V) (k) (w) : (values (t.insert k w)).filterMap part =
    (part w).toList ++ (values (t.erase k)).filterMap part := by
  rw [values_insert,filterMap_cons]
  cases part w <;> rfl

theorem parts_insert_same (h : t.lookup k = some v) (hpart : part w = part v) :
    ((values (t.insert k w)).filterMap part).Perm ((values t).filterMap part) := by
  rw [parts_insert,hpart]
  exact (parts_erase part h).symm

theorem parts_insert_add (h : t.lookup k = some v) (hv : part v = none) (hw : part w = some b) :
    ((values (t.insert k w)).filterMap part).Perm (b :: (values t).filterMap part) := by
  rw [parts_insert,hw]
  exact (parts_erase_none h hv).symm.cons b

theorem parts_insert_drop (h : t.lookup k = some v) (hv : part v = some b) (hw : part w = none) :
    ((values t).filterMap part).Perm (b :: (values (t.insert k w)).filterMap part) := by
  rw [parts_insert,hw]
  exact parts_erase_some h hv

end Parts

theorem perm_cons_filter_key {key : V → K} {l : List V} (h : (l.map key).Nodup) {v : V}
    (hv : v ∈ l) : l.Perm (v :: l.filter (key · ≠ key v)) := by
  induction l with
  | nil => cases hv
  | cons w l ih =>
    obtain ⟨hw,hl⟩ := nodup_cons.mp h
    by_cases hvw : key w = key v
    · -- the keys after the head differ from its own, so it is the item asked for
      obtain rfl : w = v := inj_on_of_nodup_map h mem_cons_self hv hvw
      have hother : ∀ x ∈ l, key x ≠ key w := fun x hx hkey => hw (hkey ▸ mem_map_of_mem hx)
      rw [filter_cons_of_neg (by simp),filter_eq_self.mpr (by simpa using hother)]
    · have hmem : v ∈ l := (mem_cons.mp hv).resolve_left fun heq => hvw (heq ▸ rfl)
      rw [filter_cons_of_pos (by simpa using hvw)]
      exact ((ih hl hmem).cons w).trans (Perm.swap ..)

end UCloudSandboxes.Machine
