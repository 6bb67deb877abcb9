import UCloudSandboxes.Accounting.Peaks
import UCloudSandboxes.Machine.Values

/-! Statements over a whole keyed table, what they do to lookups and sums, and ids drawn at random
for rows. -/
namespace UCloudSandboxes.Machine
open Accounting List

variable {K V : Type} (t : AList fun _ : K => V)

variable (p : K → V → Bool) (f : K → V → V)

def mapRows : AList fun _ : K => V :=
  ⟨t.entries.map fun e => ⟨e.1,f e.1 e.2⟩,by
    rw [NodupKeys,keys,map_map]
    exact t.nodupKeys⟩

def keepRows : AList fun _ : K => V :=
  ⟨t.entries.filter fun e => p e.1 e.2,t.nodupKeys.sublist filter_sublist⟩

def rowsWhere : List V := (t.entries.filter fun e => p e.1 e.2).map (·.2)

variable {t}

theorem mapRows_id : mapRows t (fun _ v => v) = t :=
  AList.ext (map_id' t.entries)

theorem mapRows_mapRows (f g : K → V → V) :
    mapRows (mapRows t f) g = mapRows t fun k v => g k (f k v) :=
  AList.ext (map_map ..)

theorem tableSum_mapRows_where {g d : V → Nat} {p : K → V → Bool} {f : V → V}
    (h : ∀ k v, p k v = true → g (f v) + d v = g v) :
    tableSum g (mapRows t fun k v => if p k v then f v else v) + ((rowsWhere t p).map d).sum =
      tableSum g t := by
  unfold tableSum mapRows rowsWhere
  dsimp only
  generalize t.entries = entries
  induction entries with
  | nil => rfl
  | cons e =>
    simp only [map_cons,sum_cons,filter_cons]
    by_cases hp : p e.1 e.2 = true
    · have he := h e.1 e.2 hp
      simp only [hp,if_true,map_cons,sum_cons]
      omega
    · simp only [hp,Bool.false_eq_true,if_false]
      omega

theorem tableSum_keepRows {g : V → Nat} {p : K → V → Bool} :
    tableSum g (keepRows t fun k v => !p k v) + ((rowsWhere t p).map g).sum = tableSum g t := by
  unfold tableSum keepRows rowsWhere
  dsimp only
  generalize t.entries = entries
  induction entries with
  | nil => rfl
  | cons e =>
    simp only [filter_cons]
    cases hp : p e.1 e.2
    · simp only [Bool.not_false,if_true,map_cons,sum_cons]
      rw [if_neg (by simp)]
      omega
    · simp only [if_true,map_cons,sum_cons]
      rw [if_neg (by simp)]
      omega

theorem mem_of_lookup {α β : Type} [BEq α] [LawfulBEq α] {l : List (α × β)} {a : α} {b : β}
    (h : l.lookup a = some b) : (a,b) ∈ l := by
  obtain ⟨before,after,rfl,-⟩ := lookup_eq_some_iff.mp h
  simp

theorem nodup_picked {β : Type} (pick : K → V → Option β) {picks : List (K × β)}
    (hpick : ∀ k v b, pick k v = some b → (k,b) ∈ picks) (hn : (picks.map (·.2)).Nodup) :
    (t.entries.filterMap fun e => pick e.1 e.2).Nodup := by
  refine pairwise_filterMap.mpr ?_
  refine (nodupKeys_iff_pairwise.mp t.nodupKeys).imp fun {e e'} hne b hb b' hb' heq => hne ?_
  subst heq
  exact congrArg Prod.fst (inj_on_of_nodup_map hn (hpick _ _ _ hb) (hpick _ _ _ hb') rfl)

variable [DecidableEq K]

theorem tableSum_mapRows {g : V → Nat} {f : K → V → V}
    (h : ∀ k v, t.lookup k = some v → g (f k v) = g v) : tableSum g (mapRows t f) = tableSum g t := by
  unfold tableSum mapRows
  rw [map_map]
  exact congrArg sum (map_congr_left fun e he => h e.1 e.2 (AList.mem_lookup_iff.mpr he))

@[simp]
theorem lookup_mapRows (k) : (mapRows t f).lookup k = (t.lookup k).map (f k) := by
  cases hk : t.lookup k with
  | none =>
    rw [Option.map_none,AList.lookup_eq_none]
    rw [AList.lookup_eq_none] at hk
    simpa [mapRows,AList.mem_keys,AList.keys,keys] using hk
  | some v =>
    refine AList.mem_lookup_iff.mpr (mem_map.mpr ⟨⟨k,v⟩,AList.mem_lookup_iff.mp hk,rfl⟩)

@[simp]
theorem lookup_keepRows (k) : (keepRows t p).lookup k = (t.lookup k).filter (p k) := by
  refine Option.ext fun v => ?_
  rw [Option.filter_eq_some_iff,← Option.mem_def,AList.mem_lookup_iff,← Option.mem_def,
    AList.mem_lookup_iff]
  exact mem_filter

theorem mem_rowsWhere {p : K → V → Bool} {v} :
    v ∈ rowsWhere t p ↔ ∃ k, t.lookup k = some v ∧ p k v = true := by
  simp only [rowsWhere,mem_map,mem_filter]
  refine ⟨?_,?_⟩
  · rintro ⟨e,⟨he,hp⟩,rfl⟩
    exact ⟨e.1,AList.mem_lookup_iff.mpr he,hp⟩
  · rintro ⟨k,hk,hp⟩
    exact ⟨⟨k,v⟩,⟨AList.mem_lookup_iff.mp hk,hp⟩,rfl⟩

structure Drawn {ι κ : Type} (key : ι → κ) (drawn : List κ) (items : List ι) : Prop where
  nodup : (items.map key).Nodup
  mem : ∀ i ∈ items, key i ∈ drawn

namespace Drawn

variable {ι κ : Type} {key : ι → κ} {drawn : List κ} {items : List ι}

theorem nil (key : ι → κ) (drawn) : Drawn key drawn [] := ⟨nodup_nil,by simp⟩

theorem sublist {items'} (h : Drawn key drawn items) (hs : items'.Sublist items) :
    Drawn key drawn items' :=
  ⟨h.nodup.sublist (hs.map key),fun i hi => h.mem i (hs.subset hi)⟩

theorem extend {ids items'} (h : Drawn key drawn items)
    (h' : Drawn key ids items') (hnew : ∀ k ∈ ids, k ∉ drawn) :
    Drawn key (drawn ++ ids) (items ++ items') := by
  refine ⟨?_,fun i hi => ?_⟩
  · rw [map_append]
    refine Nodup.append h.nodup h'.nodup (disjoint_left.mpr fun k hk hk' => ?_)
    obtain ⟨i,hi,rfl⟩ := mem_map.mp hk
    obtain ⟨j,hj,hkey⟩ := mem_map.mp hk'
    exact hnew (key j) (h'.mem j hj) (hkey ▸ h.mem i hi)
  · rcases mem_append.mp hi with hi | hi
    · exact mem_append_left _ (h.mem i hi)
    · exact mem_append_right _ (h'.mem i hi)

theorem eq_of_key (h : Drawn key drawn items) {i j : ι} (hi : i ∈ items) (hj : j ∈ items)
    (hkey : key i = key j) : i = j :=
  inj_on_of_nodup_map h.nodup hi hj hkey

end Drawn

end UCloudSandboxes.Machine
