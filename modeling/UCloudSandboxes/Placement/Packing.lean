import Mathlib.Algebra.Order.BigOperators.Group.List
import Mathlib.Algebra.Order.Ring.Nat
import Mathlib.Algebra.Order.Ring.Rat
import Mathlib.Data.Prod.Lex
import UCloudSandboxes.Routing.Migration

/-! The autoscaler's bin packing: runs of equal requests are placed together, as if one by one. -/
namespace UCloudSandboxes.Placement.Packing
open Nat
open Routing (ResourceQuantity)

structure ScalePolicy where
  defaultNodeResources : ResourceQuantity
  maxNodes : Nat

structure SandboxPlacementRequest where
  resources : ResourceQuantity
  count : Nat
  excludedJobIds : List String

structure Bin where
  jobId : String
  available : ResourceQuantity
  total : ResourceQuantity

structure Planner where
  bins : List Bin
  missing : Nat

def dynamicRequestFits (requested available total : ResourceQuantity) : Bool :=
  0 ≤ requested.vcpu && (0 < requested.vcpu || 0 < requested.memoryMb || 0 < requested.diskMb) &&
    requested.vcpu ≤ total.vcpu && requested.memoryMb ≤ total.memoryMb &&
    requested.diskMb ≤ available.diskMb

def reserveDynamicResources (available requested : ResourceQuantity) : ResourceQuantity :=
  { available with diskMb := available.diskMb - requested.diskMb }

namespace SandboxPlacementRequest

variable (placement : SandboxPlacementRequest)

def allows (bin : Bin) : Bool :=
  !placement.excludedJobIds.contains bin.jobId &&
    dynamicRequestFits placement.resources bin.available bin.total

def leftover (bin : Bin) : Int ×ₗ Int ×ₗ Rat :=
  toLex ((bin.available.diskMb : Int) - placement.resources.diskMb,
    toLex ((bin.available.memoryMb : Int) - placement.resources.memoryMb,
      bin.available.vcpu - placement.resources.vcpu))

/-- The first of the fitting bins that leave least, with its index. -/
def bestFit : List Bin → Option (Bin × Nat)
  | [] => none
  | bin :: bins =>
    let later := bestFit bins
    if placement.allows bin ∧
      ∀ item ∈ later, placement.leftover bin ≤ placement.leftover item.1 then some (bin, 0)
    else later.map fun item => (item.1, item.2 + 1)

def reserve (bin : Bin) (batch : Nat) : Bin :=
  let requested := { placement.resources with diskMb := placement.resources.diskMb * batch }
  { bin with available := reserveDynamicResources bin.available requested }

/-- How many of the remaining equal requests one bin takes at once. -/
def batch (bin : Bin) (remaining : Nat) : Nat :=
  if 0 < placement.resources.diskMb then
    min remaining (bin.available.diskMb / placement.resources.diskMb)
  else remaining

/-- One more new node; the planner stops with an answer above the fleet's size. -/
def openNode (policy : ScalePolicy) (s : Planner) : Except Nat Planner :=
  let node := policy.defaultNodeResources
  if policy.maxNodes < s.missing + 1 then .error (s.missing + 1)
  else .ok
    { missing := s.missing + 1
      bins := s.bins ++ [⟨"", if dynamicRequestFits placement.resources node node then
        reserveDynamicResources node placement.resources else {}, node⟩] }

/-- Place `remaining` equal requests; `none` if the loop is cut off. -/
def placeRun (policy : ScalePolicy) : (fuel remaining : Nat) → Planner → Option (Except Nat Planner)
  | _, 0, s => some (.ok s)
  | 0, _ + 1, _ => none
  | fuel + 1, remaining + 1, s =>
    match bestFit placement s.bins with
    | some (bin, i) =>
      let batch := placement.batch bin (remaining + 1)
      placeRun policy fuel (remaining + 1 - batch)
        { s with bins := s.bins.set i (placement.reserve bin batch) }
    | none =>
      match placement.openNode policy s with
      | .error missing => some (.error missing)
      | .ok s => placeRun policy fuel remaining s

def placeOne (policy : ScalePolicy) (s : Planner) : Except Nat Planner :=
  match placement.bestFit s.bins with
  | some (bin, i) => .ok { s with bins := s.bins.set i (placement.reserve bin 1) }
  | none => placement.openNode policy s

end SandboxPlacementRequest

namespace ScalePolicy

variable (policy : ScalePolicy)

def placeRuns (fuel : Nat) : List SandboxPlacementRequest → Planner → Option (Except Nat Planner)
  | [], s => some (.ok s)
  | placement :: requests, s =>
    match placement.placeRun policy fuel placement.count s with
    | some (.ok s) => placeRuns fuel requests s
    | stopped => stopped

def missing : Except Nat Planner → Nat
  | .error missing => missing
  | .ok s => s.missing

def nodesForUnplacedRequests (fuel : Nat) (bins : List Bin)
    (requests : List SandboxPlacementRequest) : Option Nat :=
  (policy.placeRuns fuel requests ⟨bins, 0⟩).map missing

def placeEach : List SandboxPlacementRequest → Planner → Except Nat Planner
  | [], s => .ok s
  | placement :: requests, s => (placement.placeOne policy s).bind (placeEach requests)

end ScalePolicy

def units (requests : List SandboxPlacementRequest) : List SandboxPlacementRequest :=
  requests.flatMap fun placement => List.replicate placement.count placement

def Placeable : List Bin → List SandboxPlacementRequest → Prop
  | _, [] => True
  | bins, placement :: requests => ∃ i bin, bins[i]? = some bin ∧ placement.allows bin ∧
      Placeable (bins.set i (placement.reserve bin 1)) requests

/-- The request may use the bin if it leaves as much disk as the request asks for. -/
def SandboxPlacementRequest.suits (placement : SandboxPlacementRequest) (bin : Bin) : Bool :=
  placement.allows { bin with available := placement.resources }

/-- The disk that the requests placed on bin `i` ask for. -/
def diskOn (placed : List (Nat × SandboxPlacementRequest)) (i : Nat) : Nat :=
  ((placed.filter (·.1 = i)).map (·.2.resources.diskMb)).sum

/-- Every request is on a bin that suits it, and no bin is asked for more disk than it has. -/
structure Packed (bins : List Bin) (placed : List (Nat × SandboxPlacementRequest)) : Prop where
  suits : ∀ p ∈ placed, ∃ bin, bins[p.1]? = some bin ∧ p.2.suits bin
  fits : ∀ i bin, bins[i]? = some bin → diskOn placed i ≤ bin.available.diskMb

section Runs

open List SandboxPlacementRequest ScalePolicy

variable {placement : SandboxPlacementRequest} {requests : List SandboxPlacementRequest}
  {policy : ScalePolicy} {bins : List Bin} {bin bin' : Bin} {i n : Nat} {s : Planner}

theorem allows_iff :
    placement.allows bin ↔ placement.suits bin ∧ placement.resources.diskMb ≤ bin.available.diskMb := by
  simp [suits,allows,dynamicRequestFits,and_assoc]

theorem diskOn_cons (placed) (j : Nat) : diskOn ((i,placement) :: placed) j =
    (if i = j then placement.resources.diskMb else 0) + diskOn placed j := by
  by_cases h : i = j <;> simp [diskOn,h]

theorem packed_cons {placed} (hget : bins[i]? = some bin) : Packed bins ((i,placement) :: placed) ↔
    placement.allows bin ∧ Packed (bins.set i (placement.reserve bin 1)) placed := by
  obtain ⟨hi,-⟩ := List.getElem?_eq_some_iff.mp hget
  have hset (j) : (bins.set i (placement.reserve bin 1))[j]? =
      if i = j then some (placement.reserve bin 1) else bins[j]? := by rw [getElem?_set,if_pos hi]
  have hdisk : (placement.reserve bin 1).available.diskMb =
      bin.available.diskMb - placement.resources.diskMb := by
    simp [reserve,reserveDynamicResources]
  have hsame (p : SandboxPlacementRequest) : p.suits (placement.reserve bin 1) = p.suits bin := rfl
  rw [allows_iff]
  constructor
  · rintro ⟨hsuits,hfits⟩
    obtain ⟨hsuit,hsuits⟩ := forall_mem_cons.mp hsuits
    have hfit := hfits i bin hget
    exact ⟨by grind [diskOn_cons],by grind,by grind [diskOn_cons]⟩
  · rintro ⟨hallows,hsuits,hfits⟩
    exact ⟨by grind,by grind [diskOn_cons]⟩

/-- Requests are placeable iff every one has a bin that suits it and no bin is asked for more disk
than it has. -/
theorem placeable_iff :
    Placeable bins requests ↔ ∃ placed, placed.map (·.2) = requests ∧ Packed bins placed := by
  induction requests generalizing bins with
  | nil => simp [Placeable,Packed.mk,diskOn]
  | cons placement requests ih =>
    simp only [Placeable,ih]
    constructor
    · rintro ⟨i,bin,hget,hallows,placed,rfl,hpacked⟩
      exact ⟨(i,placement) :: placed,rfl,(packed_cons hget).mpr ⟨hallows,hpacked⟩⟩
    · rintro ⟨placed,hmap,hpacked⟩
      obtain ⟨⟨i,_⟩,placed,rfl,rfl,rfl⟩ := map_eq_cons_iff.mp hmap
      obtain ⟨bin,hget,-⟩ := hpacked.suits _ mem_cons_self
      obtain ⟨hallows,hpacked⟩ := (packed_cons hget).mp hpacked
      exact ⟨i,bin,hget,hallows,placed,rfl,hpacked⟩

theorem bestFit_spec (h : placement.bestFit bins = some (bin, i)) :
    bins[i]? = some bin ∧ placement.allows bin := by
  induction bins generalizing i with
  | nil => cases h
  | cons head bins ih =>
    rw [bestFit] at h
    split at h
    · cases h
      exact ⟨rfl,‹_ ∧ _›.1⟩
    · obtain ⟨⟨_,j⟩,hj,h⟩ := Option.map_eq_some_iff.mp h
      cases h
      exact ih hj

theorem bestFit_set (h : placement.bestFit bins = some (bin, i)) (hb : placement.allows bin')
    (hle : placement.leftover bin' ≤ placement.leftover bin) :
    placement.bestFit (bins.set i bin') = some (bin', i) := by
  induction bins generalizing i with
  | nil => cases h
  | cons head bins ih =>
    rw [bestFit] at h
    split at h
    · rename_i hhead
      cases h
      exact if_pos ⟨hb,fun item hi => hle.trans (hhead.2 item hi)⟩
    · rename_i hhead
      obtain ⟨⟨_,j⟩,hj,h⟩ := Option.map_eq_some_iff.mp h
      cases h
      rw [set_cons_succ,bestFit,ih hj,if_neg]
      · rfl
      · rintro ⟨hallows,hlater⟩
        refine hhead ⟨hallows,?_⟩
        rintro item hi
        cases hj ▸ hi
        exact (hlater _ rfl).trans hle

theorem leftover_reserve (n) :
    placement.leftover (placement.reserve bin n) ≤ placement.leftover bin := by
  refine Prod.Lex.toLex_mono ⟨?_,le_rfl⟩
  simp only [reserve,reserveDynamicResources]
  omega

theorem allows_reserve (h : placement.allows bin)
    (hn : placement.resources.diskMb * (n + 1) ≤ bin.available.diskMb) :
    placement.allows (placement.reserve bin n) := by
  refine allows_iff.mpr ⟨(allows_iff.mp h).1,?_⟩
  rw [mul_succ] at hn
  simp only [reserve,reserveDynamicResources]
  omega

theorem reserve_reserve (n) : placement.reserve (placement.reserve bin n) 1 =
    placement.reserve bin (n + 1) := by
  simp [reserve,reserveDynamicResources,mul_succ,Nat.sub_sub]

theorem placeEach_append (xs ys) :
    policy.placeEach (xs ++ ys) s = (policy.placeEach xs s).bind (policy.placeEach ys) := by
  induction xs generalizing s with
  | nil => rfl
  | cons x xs ih =>
    rw [cons_append,placeEach,placeEach]
    cases x.placeOne policy s with
    | error => rfl
    | ok s => exact ih

theorem batch_spec (h : placement.allows bin) (remaining) :
    ∃ n, placement.batch bin (remaining + 1) = n + 1 ∧ n ≤ remaining ∧
      placement.resources.diskMb * (n + 1) ≤ bin.available.diskMb := by
  unfold batch
  split
  · rename_i hpos
    have hone := Nat.div_pos (allows_iff.mp h).2 hpos
    refine ⟨min (remaining + 1) (bin.available.diskMb / placement.resources.diskMb) - 1,
      by omega,by omega,?_⟩
    exact (Nat.mul_le_mul_left _ (by omega)).trans (mul_div_le ..)
  · rename_i hzero
    exact ⟨remaining,rfl,le_rfl,by simp [Nat.eq_zero_of_not_pos hzero]⟩

theorem placeEach_batch (h : placement.bestFit s.bins = some (bin, i))
    (hn : placement.resources.diskMb * (n + 1) ≤ bin.available.diskMb) :
    policy.placeEach (replicate (n + 1) placement) s =
      .ok { s with bins := s.bins.set i (placement.reserve bin (n + 1)) } := by
  induction n with
  | zero => simp [placeEach,placeOne,h,Except.bind]
  | succ n ih =>
    have hbest := bestFit_set h (allows_reserve (bestFit_spec h).2 hn) (leftover_reserve (n + 1))
    rw [replicate_succ',placeEach_append,ih ((Nat.mul_le_mul_left _ (le_succ _)).trans hn)]
    simp [Except.bind,placeEach,placeOne,hbest,reserve_reserve]

theorem placeRun_eq {fuel remaining} (h : remaining ≤ fuel) :
    placement.placeRun policy fuel remaining s =
      some (policy.placeEach (replicate remaining placement) s) := by
  induction fuel generalizing remaining s with
  | zero =>
    obtain rfl : remaining = 0 := by omega
    rfl
  | succ fuel ih =>
    cases remaining with
    | zero => rfl
    | succ remaining =>
      rw [placeRun]
      cases hb : placement.bestFit s.bins with
      | none =>
        simp only [replicate_succ,placeEach,placeOne,hb]
        cases placement.openNode policy s with
        | error => rfl
        | ok s => exact ih (by omega)
      | some item =>
        obtain ⟨n,hn,hle,hd⟩ := batch_spec (bestFit_spec hb).2 remaining
        obtain ⟨left,rfl⟩ := Nat.exists_eq_add_of_le hle
        simp only [hn]
        rw [ih (by omega),Nat.add_right_comm,← replicate_append_replicate,placeEach_append,
          placeEach_batch hb hd,Nat.add_sub_cancel_left]
        rfl

theorem placeRuns_eq {fuel} (h : ∀ placement ∈ requests, placement.count ≤ fuel) :
    policy.placeRuns fuel requests s = some (policy.placeEach (units requests) s) := by
  induction requests generalizing s with
  | nil => rfl
  | cons placement requests ih =>
    obtain ⟨hcount,h⟩ := forall_mem_cons.mp h
    rw [placeRuns,placeRun_eq hcount,units,flatMap_cons,placeEach_append]
    cases policy.placeEach (replicate placement.count placement) s with
    | error => rfl
    | ok s => exact ih h

theorem placeEach_missing (policy : ScalePolicy) (requests : List SandboxPlacementRequest)
    (s : Planner) :
    s.missing < missing (policy.placeEach requests s) ∨
      missing (policy.placeEach requests s) = s.missing ∧ Placeable s.bins requests := by
  induction requests generalizing s with
  | nil => exact .inr ⟨rfl,trivial⟩
  | cons placement requests ih =>
    rw [placeEach,placeOne]
    cases hb : placement.bestFit s.bins with
    | some item =>
      obtain ⟨hget,hallows⟩ := bestFit_spec hb
      exact (ih { s with bins := s.bins.set item.2 (placement.reserve item.1 1) }).imp_right
        fun h => ⟨h.1,item.2,item.1,hget,hallows,h.2⟩
    | none =>
      left
      dsimp only [openNode]
      split
      · exact lt_succ_self _
      · obtain hlt | ⟨heq,-⟩ := ih ⟨_,s.missing + 1⟩
        · exact (lt_succ_self _).trans hlt
        · exact (lt_succ_self _).trans_eq heq.symm

/-- The batched planner ends with the answer of placing the requests one by one, zero only if the
bins given take them all. -/
theorem nodesForUnplacedRequests_eq (policy : ScalePolicy) (bins : List Bin)
    (requests : List SandboxPlacementRequest) (turns : Nat) :
    let answer := missing (policy.placeEach (units requests) ⟨bins, 0⟩)
    policy.nodesForUnplacedRequests ((requests.map (·.count)).sum + turns) bins requests =
      some answer ∧ (¬Placeable bins (units requests) → answer ≠ 0) := by
  refine ⟨congrArg (Option.map _) (placeRuns_eq fun placement h => ?_),fun hnot => ?_⟩
  · have hle : placement.count ≤ _ := le_sum_of_mem (mem_map_of_mem (f := (·.count)) h)
    omega
  · obtain hlt | ⟨-,h⟩ := placeEach_missing policy (units requests) ⟨bins, 0⟩
    · exact hlt.ne'
    · exact absurd h hnot

/-- A node as the autoscaler starts it. -/
def ScalePolicy.node (policy : ScalePolicy) : Bin :=
  ⟨"", policy.defaultNodeResources, policy.defaultNodeResources⟩

theorem placeEach_node (hnode : ∀ placement ∈ requests, placement.allows policy.node)
    (h : missing (policy.placeEach requests s) ≤ policy.maxNodes) :
    ∃ k, missing (policy.placeEach requests s) = s.missing + k ∧
      Placeable (s.bins ++ replicate k policy.node) requests := by
  induction requests generalizing s with
  | nil => exact ⟨0,rfl,trivial⟩
  | cons placement requests ih =>
    obtain ⟨hp,hnode⟩ := forall_mem_cons.mp hnode
    rw [placeEach,placeOne] at h ⊢
    cases hb : placement.bestFit s.bins with
    | some item =>
      rw [hb] at h
      obtain ⟨hget,hallows⟩ := bestFit_spec hb
      obtain ⟨hi,-⟩ := List.getElem?_eq_some_iff.mp hget
      obtain ⟨k,hk,hplace⟩ := ih hnode h
      refine ⟨k,hk,item.2,item.1,(getElem?_append_left hi).trans hget,hallows,?_⟩
      rwa [set_append_left _ _ hi]
    | none =>
      simp only [hb,openNode] at h ⊢
      split at h
      · exact absurd h (Nat.not_le_of_lt ‹_›)
      · rename_i hmax
        obtain ⟨k,hk,hplace⟩ := ih hnode h
        refine ⟨k + 1,?_,s.bins.length,policy.node,by simp [replicate_succ],hp,?_⟩
        · rw [if_neg hmax]
          exact hk.trans (Nat.add_right_comm ..)
        -- The new node as the planner opens it is the started one with this request reserved.
        · rw [if_pos (by exact ((Bool.and_eq_true _ _).mp hp).2),append_assoc] at hplace
          simpa [replicate_succ,reserve,ScalePolicy.node] using hplace

/-- So many new nodes take every request, if each fits a new node and the fleet may hold them. -/
theorem nodes_answered_suffice (policy : ScalePolicy) (bins : List Bin)
    (requests : List SandboxPlacementRequest) (fuel k : Nat)
    (hfuel : ∀ placement ∈ requests, placement.count ≤ fuel)
    (hnode : ∀ placement ∈ requests, placement.allows policy.node) (hk : k ≤ policy.maxNodes)
    (h : policy.nodesForUnplacedRequests fuel bins requests = some k) :
    Placeable (bins ++ replicate k policy.node) (units requests) := by
  rw [nodesForUnplacedRequests,placeRuns_eq hfuel] at h
  cases h
  have hunits : ∀ placement ∈ units requests, placement.allows policy.node := fun placement hp => by
    obtain ⟨_,hmem,hp⟩ := mem_flatMap.mp hp
    exact eq_of_mem_replicate hp ▸ hnode _ hmem
  obtain ⟨k,hk,hplace⟩ := placeEach_node hunits hk
  rwa [hk,Nat.zero_add]

theorem nodes_answered_suffice_two : Placeable (replicate 2 ⟨"",⟨1,0,4⟩,⟨1,0,4⟩⟩)
    (units [⟨⟨1,0,2⟩,3,[]⟩]) :=
  nodes_answered_suffice ⟨⟨1,0,4⟩,5⟩ [] _ 3 2 (by decide) (by decide) (by decide) (by decide +kernel)

end Runs

end UCloudSandboxes.Placement.Packing
