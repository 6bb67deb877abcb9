import Mathlib.Algebra.BigOperators.Group.Finset.Basic
import Mathlib.Algebra.Order.Group.Int
import Mathlib.Data.List.Sort
import Mathlib.Data.Prod.Lex
import Mathlib.Data.String.Basic
import UCloudSandboxes.Machine.Basic

/-! Least recently used images are evicted until the bytes they alone own reach the target. -/
namespace UCloudSandboxes.Storage.Eviction
open List Function Machine

/-- A managed image with its tags' names; its blobs are a dictionary from digest to size. -/
structure ManagedImage where
  repository : String
  digest : String
  tags : List String
  lastUsed : Option Int
  blobs : List (String × Int)

def ManagedImage.keys (image : ManagedImage) : List String := image.blobs.map Prod.fst

structure EvictionRequest where
  usedBytes : Int
  targetUsedBytes : Int
  graceSeconds : Int
  live : List String
  leasedDigests : List (String × String)
  now : Int

inductive Kept
  | live | leased | grace | ageUnknown | targetReached
  deriving DecidableEq

structure LruEvictionPlan where
  evict : List ManagedImage
  projectedFreedBytes : Int
  kept : Kept → Nat

def imageIsReferenced (image : ManagedImage) (live : List String) : Bool :=
  live.contains (image.repository ++ "@" ++ image.digest) ||
    image.tags.any fun tag => live.contains (image.repository ++ ":" ++ tag)

def EvictionRequest.keeps (r : EvictionRequest) (image : ManagedImage) : Option Kept :=
  if imageIsReferenced image r.live then some .live
  else if r.leasedDigests.contains (image.repository, image.digest) then some .leased
  else match image.lastUsed with
    | none => some .ageUnknown
    | some used => if r.now - r.graceSeconds ≤ used then some .grace else none

def owners (images : List ManagedImage) : String → Int :=
  images.foldl (fun owners image =>
    image.keys.foldl (fun owners blob => update owners blob (owners blob + 1)) owners) fun _ => 0

def recordSize (sizes : String → Int) (blob : String × Int) : String → Int :=
  update sizes blob.1 (max (sizes blob.1) blob.2)

def sizes (images : List ManagedImage) : String → Int :=
  images.foldl (fun sizes image => image.blobs.foldl recordSize sizes) fun _ => 0

structure Projection where
  owners : String → Int
  freed : Int := 0
  evict : List ManagedImage := []
  targetReached : Nat := 0

def Projection.release (sizes : String → Int) (p : Projection) (blob : String) : Projection :=
  let owners := update p.owners blob (p.owners blob - 1)
  { p with owners, freed := if owners blob = 0 then p.freed + sizes blob else p.freed }

namespace EvictionRequest

variable (r : EvictionRequest) (images : List ManagedImage)

def evictNext (sizes : String → Int) (p : Projection) (image : ManagedImage) : Projection :=
  if r.usedBytes - p.freed ≤ r.targetUsedBytes then { p with targetReached := p.targetReached + 1 }
  else image.keys.foldl (Projection.release sizes) { p with evict := p.evict ++ [image] }

def sortKey (image : ManagedImage) : Int ×ₗ String ×ₗ String :=
  toLex (image.lastUsed.getD 0, toLex (image.repository, image.digest))

def candidates : List ManagedImage :=
  (images.filter (r.keeps · = none)).mergeSort (sortKey · ≤ sortKey ·)

def selectLruEvictions : LruEvictionPlan :=
  let p := (r.candidates images).foldl (r.evictNext (sizes images)) { owners := owners images }
  { evict := p.evict
    projectedFreedBytes := p.freed
    kept := fun why =>
      if why = .targetReached then p.targetReached else images.countP (r.keeps · = some why) }

end EvictionRequest

/-- Bytes of the blobs without an owner left; `owned` lists a blob once for each. -/
def unowned (images : List ManagedImage) (owned : List String) : Int :=
  ∑ blob ∈ (images.flatMap (·.keys)).toFinset with blob ∉ owned, sizes images blob

def freedBytes (images retained : List ManagedImage) : Int :=
  unowned images (retained.flatMap (·.keys))

variable {images rest todo : List ManagedImage} {p : Projection} {r : EvictionRequest}

theorem owners_eq (images) (blob) : owners images blob = (images.flatMap (·.keys)).count blob := by
  suffices h : ∀ (keys : List String) (start : String → Int), keys.foldl
      (fun owners blob => update owners blob (owners blob + 1)) start blob =
      start blob + keys.count blob by
    rw [owners,← foldl_flatMap,h]
    simp
  intro keys
  induction keys with
  | nil => simp
  | cons key keys ih =>
    intro start
    rw [foldl_cons,ih,count_cons]
    by_cases hb : blob = key
    · subst hb
      simp
      omega
    · simp [hb,Ne.symm hb]

/-- The size of a blob is the largest that any image gives it. -/
theorem sizes_isGreatest (images) (blob) :
    (∀ image ∈ images, ∀ size, (blob,size) ∈ image.blobs → size ≤ sizes images blob) ∧
      (sizes images blob = 0 ∨ ∃ image ∈ images, (blob,sizes images blob) ∈ image.blobs) := by
  suffices h : ∀ (blobs : List (String × Int)) (start : String → Int),
      (start blob ≤ blobs.foldl recordSize start blob ∧
        ∀ size, (blob,size) ∈ blobs → size ≤ blobs.foldl recordSize start blob) ∧
      (blobs.foldl recordSize start blob = start blob ∨
        (blob,blobs.foldl recordSize start blob) ∈ blobs) by
    have h := h (images.flatMap (·.blobs)) fun _ => 0
    rw [foldl_flatMap] at h
    exact ⟨fun image hi size hs => h.1.2 size (mem_flatMap.mpr ⟨image,hi,hs⟩),
      h.2.imp_right mem_flatMap.mp⟩
  intro blobs
  induction blobs with
  | nil => simp
  | cons entry blobs ih =>
    intro start
    obtain ⟨key,size⟩ := entry
    obtain ⟨⟨hstart,hall⟩,hone⟩ := ih (recordSize start (key,size))
    rw [foldl_cons]
    by_cases hb : blob = key
    · subst hb
      have hmax : recordSize start (blob,size) blob = max (start blob) size := update_self ..
      rw [hmax] at hstart hone
      refine ⟨⟨(le_max_left ..).trans hstart,fun size hs => ?_⟩,?_⟩
      · rcases mem_cons.mp hs with hs | hs
        · cases hs
          exact (le_max_right ..).trans hstart
        · exact hall size hs
      · rcases hone with hone | hone
        · rcases max_choice (start blob) size with hm | hm
          · exact .inl (hone.trans hm)
          · rw [hone,hm]
            exact .inr (.head _)
        · exact .inr (.tail _ hone)
    · have hsame : recordSize start (key,size) blob = start blob := update_of_ne hb ..
      rw [hsame] at hstart hone
      refine ⟨⟨hstart,fun size hs => hall size ?_⟩,hone.imp_right (.tail _)⟩
      rcases mem_cons.mp hs with hs | hs
      · cases hs
        exact absurd rfl hb
      · exact hs

/-- The accumulators stand for the owners not yet evicted. -/
structure Owed (images : List ManagedImage) (p : Projection) (owned : List String) : Prop where
  owners : ∀ blob, p.owners blob = owned.count blob
  freed : p.freed = unowned images owned

theorem unowned_of_notMem {blob owned}
    (hb : blob ∈ images.flatMap (·.keys)) (h : blob ∉ owned) :
    unowned images owned = unowned images (blob :: owned) + sizes images blob := by
  rw [unowned,unowned,add_comm,← Finset.sum_insert (by simp)]
  congr 1
  ext key
  simp only [Finset.mem_filter,mem_toFinset,Finset.mem_insert,mem_cons,not_or]
  by_cases hk : key = blob
  · subst hk
    exact iff_of_true ⟨hb,h⟩ (.inl rfl)
  · simp [hk]

theorem Owed.release {blob owned} (h : Owed images p (blob :: owned))
    (hb : blob ∈ images.flatMap (·.keys)) : Owed images (p.release (sizes images) blob) owned := by
  have hleft : p.owners blob - 1 = owned.count blob := by
    rw [h.owners,count_cons_self]
    omega
  constructor
  · intro key
    by_cases hk : key = blob
    · subst hk
      simpa [Projection.release] using hleft
    · simp [Projection.release,hk,h.owners,Ne.symm hk]
  · simp only [Projection.release,update_self,hleft,h.freed]
    by_cases hlast : blob ∈ owned
    · rw [if_neg (by simpa [count_eq_zero] using hlast),unowned,unowned]
      congr 1
      ext key
      have : key = blob → key ∈ owned := fun hk => hk ▸ hlast
      grind
    · rw [if_pos (by simpa [count_eq_zero] using hlast),unowned_of_notMem hb hlast]

theorem Owed.foldl {keys owned} (h : Owed images p (keys ++ owned))
    (hk : keys ⊆ images.flatMap (·.keys)) :
    Owed images (keys.foldl (Projection.release (sizes images)) p) owned ∧
      (keys.foldl (Projection.release (sizes images)) p).evict = p.evict := by
  induction keys generalizing p with
  | nil => exact ⟨h,rfl⟩
  | cons key keys ih =>
    obtain ⟨hkey,hk⟩ := cons_subset.mp hk
    exact ih (h.release hkey) hk

open EvictionRequest

theorem foldl_reached (images todo : List ManagedImage)
    (h : r.usedBytes - p.freed ≤ r.targetUsedBytes) :
    ∃ n, todo.foldl (r.evictNext (sizes images)) p = { p with targetReached := n } := by
  induction todo generalizing p with
  | nil => exact ⟨_,rfl⟩
  | cons image todo ih =>
    rw [foldl_cons,evictNext,if_pos h]
    exact ih h

/-- The loop evicts a first part of the candidates, the last of them still short of the target. -/
theorem foldl_evictNext (hmem : todo ⊆ images)
    (h : Owed images p ((todo ++ rest).flatMap (·.keys))) :
    let q := todo.foldl (r.evictNext (sizes images)) p
    ∃ evicted left, todo = evicted ++ left ∧ q.evict = p.evict ++ evicted ∧
      q.freed = freedBytes images (left ++ rest) ∧
      (∀ init last, evicted = init ++ [last] →
        r.targetUsedBytes < r.usedBytes - freedBytes images (last :: (left ++ rest))) ∧
      (r.targetUsedBytes < r.usedBytes - q.freed → left = []) := by
  induction todo generalizing p with
  | nil => exact ⟨[],[],rfl,by simp,h.freed,by simp,fun _ => rfl⟩
  | cons image todo ih =>
    by_cases hr : r.usedBytes - p.freed ≤ r.targetUsedBytes
    · obtain ⟨n,hn⟩ := foldl_reached images (image :: todo) hr
      rw [hn]
      exact ⟨[],_,rfl,by simp,h.freed,by simp,fun hlt => absurd hr (not_le.mpr hlt)⟩
    · obtain ⟨himage,hmem⟩ := cons_subset.mp hmem
      have hkeys : image.keys ⊆ images.flatMap (·.keys) := fun _ hk =>
        mem_flatMap.mpr ⟨image,himage,hk⟩
      have hshort := not_le.mp (h.freed ▸ hr)
      rw [foldl_cons,evictNext,if_neg hr]
      obtain ⟨hnext,hevict⟩ := Owed.foldl (p := { p with evict := p.evict ++ [image] })
        ⟨h.owners,h.freed⟩ hkeys
      obtain ⟨evicted,left,rfl,he,hfreed,hlast,hleft⟩ := ih hmem hnext
      refine ⟨image :: evicted,left,rfl,he.trans (by simp [hevict]),hfreed,fun init last heq => ?_,hleft⟩
      cases init with
      | nil =>
        obtain ⟨rfl,rfl⟩ := cons.inj heq
        exact hshort
      | cons _ init => exact hlast init last (cons.inj heq).2

theorem owed_start {all} (h : images ~ all) :
    Owed images { owners := owners images } (all.flatMap (·.keys)) := by
  have hkeys := h.flatMap_right ManagedImage.keys
  refine ⟨fun blob => (owners_eq ..).trans (congrArg _ (hkeys.count_eq blob)),?_⟩
  rw [unowned,Finset.filter_false_of_mem fun blob hb => ?_]
  · rfl
  · exact not_not.mpr (hkeys.mem_iff.mp (mem_toFinset.mp hb))

theorem pairwise_candidates (r : EvictionRequest) (images : List ManagedImage) :
    (r.candidates images).Pairwise fun a b => a.lastUsed.getD 0 ≤ b.lastUsed.getD 0 := by
  refine (pairwise_mergeSort ?_ ?_ _).imp fun h => ?_
  · intro a b c hab hbc
    simpa using le_trans (of_decide_eq_true hab) (of_decide_eq_true hbc)
  · intro a b
    simpa using le_total (sortKey a) (sortKey b)
  · exact Prod.Lex.monotone_fst _ _ (of_decide_eq_true h)

theorem of_keeps_none {image} (h : r.keeps image = none) :
    imageIsReferenced image r.live = false ∧
      (image.repository, image.digest) ∉ r.leasedDigests ∧
      ∃ used, image.lastUsed = some used ∧ used < r.now - r.graceSeconds := by
  obtain ⟨hlive,h⟩ := of_guard h nofun
  obtain ⟨hleased,h⟩ := of_guard h nofun
  cases hu : image.lastUsed with
  | none => simp [hu] at h
  | some used =>
    rw [hu] at h
    obtain ⟨hgrace,-⟩ := of_guard h nofun
    exact ⟨by simpa using hlive,by simpa using hleased,used,rfl,not_le.mp hgrace⟩

/-- The evicted images are the least recently used of those nothing keeps, as few as reach the target,
and the bytes freed are those no retained image needs. -/
theorem selectLruEvictions_exact (r : EvictionRequest) (images : List ManagedImage) :
    let plan := r.selectLruEvictions images
    ∃ candidates retained, candidates ~ images.filter (r.keeps · = none) ∧
      candidates.Pairwise (fun a b => a.lastUsed.getD 0 ≤ b.lastUsed.getD 0) ∧
      plan.evict <+: candidates ∧ images ~ plan.evict ++ retained ∧
      (∀ image ∈ plan.evict, imageIsReferenced image r.live = false ∧
        (image.repository, image.digest) ∉ r.leasedDigests ∧
        ∃ used, image.lastUsed = some used ∧ used < r.now - r.graceSeconds) ∧
      plan.projectedFreedBytes = freedBytes images retained ∧
      (∀ init last, plan.evict = init ++ [last] →
        r.targetUsedBytes < r.usedBytes - freedBytes images (last :: retained)) ∧
      (r.targetUsedBytes < r.usedBytes - plan.projectedFreedBytes → plan.evict = candidates) := by
  have hperm : r.candidates images ~ images.filter (r.keeps · = none) := mergeSort_perm ..
  have hmem {image : ManagedImage} (h : image ∈ r.candidates images) :
      image ∈ images ∧ r.keeps image = none := by simpa using hperm.mem_iff.mp h
  obtain ⟨rest,hall⟩ : ∃ rest, images ~ r.candidates images ++ rest :=
    ⟨_,((hperm.append_right _).trans (filter_append_perm ..)).symm⟩
  obtain ⟨evicted,left,hc,he,hfreed,hlast,hleft⟩ :=
    foldl_evictNext (r := r) (fun _ h => (hmem h).1) (owed_start hall)
  have he : (r.selectLruEvictions images).evict = evicted := he
  refine ⟨_,left ++ rest,hperm,pairwise_candidates r images,⟨left,he ▸ hc.symm⟩,?_,
    fun image h => ?_,hfreed,he ▸ hlast,fun hlt => ?_⟩
  · rw [he,← append_assoc,← hc]
    exact hall
  · exact of_keeps_none (hmem (hc ▸ mem_append_left _ (he ▸ h))).2
  · rw [he,hc,hleft hlt,append_nil]

/-- Of two images that share a blob one is evicted: its own blob is freed and reaches the target. -/
example :
    let old : ManagedImage := ⟨"repository","old",[],some 5,[("base",8),("top",12)]⟩
    let new : ManagedImage := ⟨"repository","new",[],some 7,[("base",9)]⟩
    let p := [old,new].foldl (EvictionRequest.evictNext ⟨30,20,10,[],[],100⟩ (sizes [old,new]))
      { owners := owners [old,new] }
    p.evict.map (·.digest) = ["old"] ∧ p.freed = 12 ∧ p.targetReached = 1 := by
  decide +kernel

end UCloudSandboxes.Storage.Eviction
