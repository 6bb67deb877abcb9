import Mathlib.Algebra.GroupWithZero.Nat
import UCloudSandboxes.Machine.Basic

/-! Which layers of a snapshot chain a publication merges, and how long the chains stay. -/
namespace UCloudSandboxes.Storage.SnapshotChain
open Machine Option List

structure PublishedStorageLayer where
  digest : String
  size : Nat
  deriving DecidableEq

abbrev Chain := List PublishedStorageLayer

/-- A sealed layer on the node; `dataBytes` is what `local_layer_data_bytes` estimates. -/
structure LocalLayer where
  path : String
  dataBytes : Nat
  deriving DecidableEq

structure SnapshotPublisher where
  compactAfterLayers : Nat
  compactAfterBytes : Nat
  repoBlobUrl : String

/-- One publication: its arguments, what exporting and uploading answer, and whether the metadata is
`committed`. -/
structure Publication where
  sourceLayerPaths : List LocalLayer
  virtualSize : Int
  existingRepoBlobUrl : String
  globalConfigPath : Option String
  dense : LocalLayer → Option PublishedStorageLayer
  compacted : Chain → List LocalLayer → Option PublishedStorageLayer
  committed : Bool

def snapshotChainNeedsCompaction (layerSizes : List Nat) (maxLayers maxDeltaBytes : Nat) : Bool :=
  maxLayers < layerSizes.length || maxDeltaBytes < (layerSizes.drop 1).sum

/-- The backward loop: `selected` are the bytes from `start` on. -/
def widen (layerSizes : List Nat) (maxLayers : Nat) : (start selected : Nat) → Nat
  | 0, _ => 0
  | start + 1, selected =>
    let size := layerSizes.getD start 0
    if size ≤ selected ∨ maxLayers ≤ start + 1 then widen layerSizes maxLayers start (selected + size)
    else start + 1

def snapshotCompactionStart (layerSizes : List Nat) (maxLayers maxDeltaBytes : Nat)
    (reusableBase originChanged : Bool) : Option Nat :=
  if originChanged then some 0
  else if !snapshotChainNeedsCompaction layerSizes maxLayers maxDeltaBytes then none
  else if !reusableBase || maxLayers < 2 then some 0
  else
    let last := layerSizes.length - 1
    let start := widen layerSizes maxLayers last (layerSizes.getD last 0)
    if start < last then some start else none

section Planner

variable {sizes : List Nat} {maxLayers start selected : Nat}

theorem sum_drop (sizes : List Nat) (i : Nat) :
    (sizes.drop i).sum = sizes.getD i 0 + (sizes.drop (i + 1)).sum := by
  induction sizes generalizing i with
  | nil => simp
  | cons size sizes ih =>
    cases i with
    | zero => simp
    | succ i => simpa using ih i

theorem widen_lt (h : 0 < maxLayers) : widen sizes maxLayers start selected < maxLayers := by
  fun_induction widen with
  | case1 => exact h
  | case2 start selected size _ ih => exact ih
  | case3 start selected size hstop => omega

theorem widen_larger (h : selected = (sizes.drop start).sum)
    (hpos : 0 < widen sizes maxLayers start selected) :
    (sizes.drop (widen sizes maxLayers start selected)).sum <
      sizes.getD (widen sizes maxLayers start selected - 1) 0 := by
  fun_induction widen with
  | case1 => cases hpos
  | case2 start selected size _ ih => exact ih (by rw [h,sum_drop sizes start,Nat.add_comm]) hpos
  | case3 start selected size hstop =>
    have hsize : selected < size := by omega
    exact h ▸ hsize

variable {maxDeltaBytes : Nat} {reusableBase originChanged : Bool}

theorem start_spec (h : 0 < maxLayers) (hs : snapshotCompactionStart sizes maxLayers maxDeltaBytes
      reusableBase originChanged = some start) :
    start < maxLayers ∧ (0 < start → (sizes.drop start).sum < sizes.getD (start - 1) 0) := by
  unfold snapshotCompactionStart at hs
  split at hs
  · cases hs
    exact ⟨h,nofun⟩
  obtain ⟨-,hs⟩ := of_guard hs nofun
  split at hs
  · cases hs
    exact ⟨h,nofun⟩
  obtain ⟨-,rfl⟩ := some_of_check hs
  refine ⟨widen_lt h,widen_larger ?_⟩
  rw [sum_drop,drop_eq_nil_of_le (by omega)]
  rfl

theorem length_le_of_none (h : 0 < maxLayers) (hs : snapshotCompactionStart sizes maxLayers
      maxDeltaBytes reusableBase originChanged = none) : sizes.length ≤ maxLayers := by
  unfold snapshotCompactionStart at hs
  obtain ⟨-,hs⟩ := of_guard hs nofun
  split at hs
  · rename_i hneeds
    simp only [snapshotChainNeedsCompaction,Bool.not_eq_true',Bool.or_eq_false_iff,
      decide_eq_false_iff_not,Nat.not_lt] at hneeds
    exact hneeds.1
  obtain ⟨-,hs⟩ := of_guard hs nofun
  obtain ⟨hstart,-⟩ := of_guard hs nofun
  have : widen sizes maxLayers (sizes.length - 1) (sizes.getD (sizes.length - 1) 0) < maxLayers :=
    widen_lt h
  omega

end Planner

def isAbsolute (path : String) : Bool := path.toList.head? == some '/'

def layerSizes (existing : Chain) (paths : List LocalLayer) : List Nat :=
  existing.map (·.size) ++ paths.map (·.dataBytes)

namespace SnapshotPublisher

variable (p : SnapshotPublisher) (existing : Chain) (call : Publication)

def originChanged : Bool :=
  !existing.isEmpty && call.existingRepoBlobUrl != "" &&
    rstrip (· == '/') call.existingRepoBlobUrl != rstrip (· == '/') p.repoBlobUrl

def compactStart : Option Nat :=
  snapshotCompactionStart (layerSizes existing call.sourceLayerPaths) p.compactAfterLayers
    p.compactAfterBytes (!existing.isEmpty) (p.originChanged existing call)

/-- The layers to publish and whether they were merged; `none` where the source raises. -/
def chainLayers : Option (Chain × Bool) :=
  match p.compactStart existing call with
  | some start =>
    let start := min start existing.length
    if call.globalConfigPath.any isAbsolute then
      (call.compacted (existing.drop start) call.sourceLayerPaths).map fun layer =>
        (existing.take start ++ [layer], true)
    else none
  | none => (call.sourceLayerPaths.mapM call.dense).map fun layers => (existing ++ layers, false)

def publishLocked : Option (Chain × Bool) :=
  if call.virtualSize ≤ 0 ∨ call.sourceLayerPaths = [] ∧ existing = [] ∨
    ∃ layer ∈ call.sourceLayerPaths, !isAbsolute layer.path then none
  else if call.committed then p.chainLayers existing call
  else none

def publish : Option Chain := (p.publishLocked existing call).map Prod.fst

/-- A publication leaves every new layer after the chain, or a kept prefix and one layer merged from
the rest. -/
inductive Published : Chain × Bool → Prop
  | append {new : Chain} : p.compactStart existing call = none →
      call.sourceLayerPaths.mapM call.dense = some new → Published (existing ++ new, false)
  | merge {start : Nat} {kept rest : Chain} {layer : PublishedStorageLayer} :
      p.compactStart existing call = some start → existing = kept ++ rest →
      kept.length = min start existing.length →
      call.compacted rest call.sourceLayerPaths = some layer → Published (kept ++ [layer], true)

variable {p existing call} {result : Chain × Bool}

theorem published (h : p.publishLocked existing call = some result) :
    p.Published existing call result := by
  obtain ⟨-,h⟩ := of_guard h nofun
  obtain ⟨-,h⟩ := of_check h nofun
  unfold chainLayers at h
  cases hs : p.compactStart existing call with
  | none =>
    rw [hs] at h
    obtain ⟨new,hnew,rfl⟩ := map_eq_some_iff.mp h
    exact .append hs hnew
  | some start =>
    rw [hs] at h
    obtain ⟨-,h⟩ := of_check h nofun
    obtain ⟨layer,hlayer,rfl⟩ := map_eq_some_iff.mp h
    exact .merge hs (take_append_drop ..).symm (by simp) hlayer

theorem length_of_mapM {f : LocalLayer → Option PublishedStorageLayer} {paths : List LocalLayer}
    {layers : Chain} (h : paths.mapM f = some layers) :
    layers.length = paths.length := by
  induction paths generalizing layers with
  | nil => cases h; rfl
  | cons path paths ih =>
    simp only [mapM_cons,bind_eq_bind,bind_eq_some_iff] at h
    obtain ⟨_,-,rest,hrest,h⟩ := h
    cases h
    simp [ih hrest]

theorem Published.length_le (hmax : 0 < p.compactAfterLayers)
    (h : p.Published existing call result) : result.1.length ≤ p.compactAfterLayers := by
  cases h with
  | append hs hnew =>
    have hlen := length_le_of_none hmax hs
    simpa [layerSizes,length_of_mapM hnew] using hlen
  | merge hs _ hk _ =>
    have := (start_spec hmax hs).1
    simp
    omega

/-- Every chain published after a bounded one is bounded. The layer right before the range chosen is
larger than the range, and the last kept one if the range begins inside the chain. -/
theorem publications_bounded (hmax : 2 ≤ p.compactAfterLayers)
    (first : Chain) (hfirst : first.length ≤ p.compactAfterLayers)
    {chain : Chain} (h : Reaches p.publish anyEvent (· = first) chain) :
    chain.length ≤ p.compactAfterLayers ∧
    (∀ call result, p.publishLocked chain call = some result →
      result.1.length ≤ p.compactAfterLayers ∧ p.Published chain call result) ∧
    ∀ call start, p.compactStart chain call = some start →
      let sizes := layerSizes chain call.sourceLayerPaths
      (0 < start → (sizes.drop start).sum < sizes.getD (start - 1) 0) ∧
      (start ≤ chain.length → ∀ last ∈ (chain.take start).getLast?,
        (sizes.drop start).sum < last.size) := by
  have hpos : 0 < p.compactAfterLayers := by omega
  refine ⟨h.keeps (I := fun chain => chain.length ≤ p.compactAfterLayers) hfirst ?_,
    fun call result hs => ⟨(published hs).length_le hpos,published hs⟩,fun call start hstart => ?_⟩
  · intro chain call next _ _ hs
    obtain ⟨_,hp,rfl⟩ := map_eq_some_iff.mp hs
    exact (published hp).length_le hpos
  · have hlarger := (start_spec hpos hstart).2
    refine ⟨hlarger,fun hin last hlast => ?_⟩
    rw [getLast?_take] at hlast
    obtain ⟨hne,hlast⟩ := of_guard hlast nofun
    have hlt : start - 1 < chain.length := by omega
    rw [getElem?_eq_getElem hlt] at hlast
    cases hlast
    have hget : (layerSizes chain call.sourceLayerPaths).getD (start - 1) 0 =
        chain[start - 1].size := by simp [layerSizes,getElem?_append_left,hlt]
    exact hget ▸ hlarger (by omega)

/-- A small base, and three local layers of which the first is the largest. -/
def burst : Publication where
  sourceLayerPaths := [⟨"/a", 10⟩, ⟨"/b", 3⟩, ⟨"/c", 3⟩]
  virtualSize := 1
  existingRepoBlobUrl := ""
  globalConfigPath := some "/config"
  dense := fun _ => none
  compacted := fun _ _ => some ⟨"merged", 16⟩
  committed := true

theorem publications_bounded_burst : ∃ result,
    publishLocked ⟨10, 5, ""⟩ [⟨"base", 1⟩] burst = some result ∧ result.1.length ≤ 10 :=
  ⟨_,rfl,((publications_bounded (p := ⟨10, 5, ""⟩) (by decide) [⟨"base", 1⟩] (by decide)
    (.start rfl)).2.1 burst _ rfl).1⟩

/-- The planner stops behind the largest local layer, and keeps a base smaller than its range. -/
theorem burst_keeps_smaller :
    publishLocked ⟨10, 5, ""⟩ [⟨"base", 1⟩] burst = some ([⟨"base", 1⟩, ⟨"merged", 16⟩], true) ∧
    compactStart ⟨10, 5, ""⟩ [⟨"base", 1⟩] burst = some 2 ∧
    (layerSizes [⟨"base", 1⟩] burst.sourceLayerPaths).length ≤ 10 ∧
    ((layerSizes [⟨"base", 1⟩] burst.sourceLayerPaths).drop 2).sum = 6 := by
  decide

end SnapshotPublisher
end UCloudSandboxes.Storage.SnapshotChain
