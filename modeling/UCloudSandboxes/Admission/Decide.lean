import Mathlib.Algebra.Order.Ring.Rat
import UCloudSandboxes.Accounting.Peaks

namespace UCloudSandboxes.Admission
open Accounting List

inductive Kind where
  | startup
  | restore
  | capture
  | publication
  deriving DecidableEq

inductive Resource where
  | memory
  | ramBacking
  deriving DecidableEq

/-- A transition's cost; `none` is an unknown quantity, never zero. -/
structure Cost where
  kind : Kind
  memoryBytes : Option Nat
  readBytes : Option Nat := none
  writeBytes : Option Nat := none
  provenance : String := "unknown"
  ramBackingBytes : Option Nat := none
  deriving DecidableEq

def Cost.get (cost : Cost) : Resource → Option Nat
  | .memory => cost.memoryBytes
  | .ramBacking => cost.ramBackingBytes

/-- A configured shape, not a reservation of CPU or RAM. -/
structure Shape where
  vcpu : Rat
  memoryMb : Nat
  diskMb : Nat := 0
  deriving DecidableEq

abbrev Owner := String × Nat

structure Claim where
  token : Nat
  owner : Owner
  cost : Cost
  requested : Option Shape := none
  deriving DecidableEq

namespace Claim

variable (item : Claim)

abbrev entry (r : Resource) : Owner × Option Nat := (item.owner, item.cost.get r)

def queue (kind : Kind) (active : List Owner) (owners : List Claim) : List Claim :=
  if item.cost.kind = kind && !active.contains item.owner && !owners.any (·.owner = item.owner)
  then owners ++ [item] else owners

def reserve (result : List (Owner × Shape)) : List (Owner × Shape) :=
  match item.requested with
  | none => result
  | some requested =>
    if result.any (·.1 = item.owner) then
      result.map fun entry => if entry.1 = item.owner then (entry.1, requested) else entry
    else result ++ [(item.owner, requested)]

end Claim

abbrev Forecasts := AList fun _ : Owner => Cost

theorem totals_empty (r) : 0 = tableSum (fun cost => (cost.get r).getD 0) (∅ : Forecasts) := rfl

theorem unknowns_empty : 0 = tableSum (·.memoryBytes.isNone.toNat) (∅ : Forecasts) := rfl

/-- Claims and queued demands stand in token order. The running sums over the forecasts, and that
they are the sums, are part of the ledger; no sum of the code's `u64`s is taken to wrap. -/
structure Ledger where
  next : Nat := 0
  claims : List Claim := []
  waiting : List Claim := []
  growth : Forecasts := ∅
  growthTotals : Resource → Nat := fun _ => 0
  growthUnknown : Nat := 0
  totals : ∀ r, growthTotals r = tableSum (fun cost => (cost.get r).getD 0) growth := by
    exact totals_empty
  unknowns : growthUnknown = tableSum (fun cost => cost.memoryBytes.isNone.toNat) growth := by
    exact unknowns_empty

namespace Ledger

variable (l : Ledger) (owner : Owner) (cost : Cost) (r : Resource)

def wait : Ledger × Nat :=
  ({ l with next := l.next + 1, waiting := l.waiting ++ [⟨l.next + 1, owner, cost, none⟩] }, l.next + 1)

def unwait (token : Nat) : Ledger :=
  { l with waiting := l.waiting.filter (·.token ≠ token) }

def refreshWaitCost : Ledger :=
  { l with waiting := l.waiting.map fun item =>
      if item.owner = owner && item.cost.kind = cost.kind then { item with cost } else item }

def claim (l : Ledger) (owner : Owner) (cost : Cost) (requested : Option Shape) : Ledger × Claim :=
  let claim : Claim := ⟨l.next + 1, owner, cost, requested⟩
  ({ l with next := l.next + 1, claims := l.claims ++ [claim] }, claim)

def activeCount (kind : Kind) : Nat := l.claims.countP (·.cost.kind = kind)

/-- Release compares every field of the claim; `none` when it is not owned. -/
def release (claim : Claim) : Option Ledger :=
  if l.claims.find? (·.token = claim.token) = some claim then
    some { l with claims := l.claims.filter (·.token ≠ claim.token) }
  else none

def dropForecast : Ledger where
  next := l.next
  claims := l.claims
  waiting := l.waiting
  growth := l.growth.erase owner
  growthTotals := fun r => l.growthTotals r - ((l.growth.lookup owner).bind (·.get r)).getD 0
  growthUnknown := l.growthUnknown -
    ((l.growth.lookup owner).map (·.memoryBytes.isNone.toNat)).getD 0
  totals := fun r => by
    have h := tableSum_erase (fun cost : Cost => (cost.get r).getD 0) l.growth owner
    rw [l.totals r,← h]
    cases hl : l.growth.lookup owner <;> simp [tableAt,hl]
  unknowns := by
    have h := tableSum_erase (fun cost : Cost => cost.memoryBytes.isNone.toNat) l.growth owner
    rw [l.unknowns,← h]
    cases hl : l.growth.lookup owner <;> simp [tableAt,hl]

def addForecast (fresh : owner ∉ l.growth) : Ledger where
  next := l.next
  claims := l.claims
  waiting := l.waiting
  growth := l.growth.insert owner cost
  growthTotals := fun r => l.growthTotals r + (cost.get r).getD 0
  growthUnknown := l.growthUnknown + cost.memoryBytes.isNone.toNat
  totals := fun r => by rw [tableSum_insert_new _ _ fresh,l.totals r]
  unknowns := by rw [tableSum_insert_new _ _ fresh,l.unknowns]

/-- One owner's residual primary-process growth; `none` forgets it. -/
def setGrowthForecast (cost : Option Cost) : Ledger :=
  match cost with
  | none => l.dropForecast owner
  | some cost => (l.dropForecast owner).addForecast owner cost (by
      simp [dropForecast,AList.mem_erase])

def setGrowthForecasts (forecasts : List (Owner × Cost)) : Ledger :=
  let cleared := l.growth.keys.foldl (fun l owner => l.setGrowthForecast owner none) l
  forecasts.foldl (fun l f => l.setGrowthForecast f.1 (some f.2)) cleared

def forecast (owner : Owner) : Nat :=
  ((l.growth.lookup owner).bind (·.get r)).getD 0

def total (extra : List (Owner × Option Nat)) : Nat :=
  Accounting.total (l.growthTotals r) (l.forecast r)
    ((l.claims.map (·.entry r)) ++ extra)

/-- The first queued demand per owner of this kind, skipping owners with a claim of it. -/
def pending (kind : Kind) : List Claim :=
  let active := (l.claims.filter (·.cost.kind = kind)).map (·.owner)
  l.waiting.foldl (fun owners item => item.queue kind active owners) []

/-- What the ledger charges with this transition; a startup also leaves every queued restore its
demand. -/
def projectedMemoryBytes : Nat :=
  let queued := if cost.kind = .startup then
    (l.pending .restore).map (·.entry r) else []
  l.total r ((owner, cost.get r) :: queued)

def foregroundWaiting : Bool :=
  !(l.pending .startup).isEmpty || !(l.pending .restore).isEmpty

/-- Configured shapes for the heartbeat: per owner, in first-claim order, the latest claim's. -/
def resourceReservations : List (Owner × Shape) :=
  l.claims.foldl (fun result item => item.reserve result) []

def claimed (owner : Owner) : Nat :=
  peak (l.claims.map (·.entry r)) owner

def owners : Finset Owner := l.growth.keys.toFinset ∪ (l.claims.map (·.owner)).toFinset

theorem growthTotals_eq_sum (r) {s} (hs : l.growth.keys.toFinset ⊆ s) :
    l.growthTotals r = ∑ o ∈ s, l.forecast r o := by
  rw [l.totals r,tableSum_eq_sum _ _ fun a ha => hs (mem_toFinset.mpr ha)]
  refine Finset.sum_congr rfl fun o _ => ?_
  unfold forecast tableAt
  cases l.growth.lookup o <;> rfl

theorem total_eq_sum (r extra) {s} (hs : l.owners ⊆ s) (hextra : (extra.map (·.1)).toFinset ⊆ s) :
    l.total r extra = ∑ o ∈ s, max (l.forecast r o) (max (l.claimed r o) (peak extra o)) := by
  have hgw : l.growth.keys.toFinset ⊆ s := Finset.subset_union_left.trans hs
  have hcl : (l.claims.map (·.owner)).toFinset ⊆ s := Finset.subset_union_right.trans hs
  unfold total
  rw [Accounting.total_eq_sum _ _ (l.growthTotals_eq_sum r hgw)]
  · exact Finset.sum_congr rfl fun o _ => by rw [peak_append,claimed]
  · intro o ho
    rw [map_append,mem_append,map_map] at ho
    rcases ho with ho | ho
    · exact hcl (mem_toFinset.mpr ho)
    · exact hextra (mem_toFinset.mpr ho)

theorem growthUnknown_eq_countP :
    l.growthUnknown = l.growth.entries.countP (·.2.memoryBytes.isNone) := by
  rw [l.unknowns,tableSum]
  induction l.growth.entries with
  | nil => rfl
  | cons e rest ih =>
    rw [map_cons,sum_cons,ih,countP_cons,add_comm]
    cases e.2.memoryBytes <;> rfl

theorem forecast_le_totals {previous} (h : l.growth.lookup owner = some previous) :
    (previous.get r).getD 0 ≤ l.growthTotals r ∧
      previous.memoryBytes.isNone.toNat ≤ l.growthUnknown := by
  have hat (f : Cost → Nat) : f previous ≤ tableSum f l.growth := by
    rw [← tableSum_erase f l.growth owner,tableAt,h]
    exact Nat.le_add_left ..
  rw [l.totals r,l.unknowns]
  exact ⟨hat fun cost => (cost.get r).getD 0,hat fun cost => cost.memoryBytes.isNone.toNat⟩

inductive Op where
  | setGrowthForecast (owner : Owner) (cost : Option Cost)
  | setGrowthForecasts (forecasts : List (Owner × Cost))
  | claim (owner : Owner) (cost : Cost) (requested : Option Shape)
  | release (claim : Claim)
  | wait (owner : Owner) (cost : Cost)
  | unwait (token : Nat)
  | refreshWaitCost (owner : Owner) (cost : Cost)

def apply (l : Ledger) : Op → Ledger
  | .setGrowthForecast owner cost => l.setGrowthForecast owner cost
  | .setGrowthForecasts forecasts => l.setGrowthForecasts forecasts
  | .claim owner cost requested => (l.claim owner cost requested).1
  | .release claim => (l.release claim).getD l
  | .wait owner cost => (l.wait owner cost).1
  | .unwait token => l.unwait token
  | .refreshWaitCost owner cost => l.refreshWaitCost owner cost

/-- In every ledger the totals are the sums over the owners, and the next replacement subtracts what
is there. -/
theorem totals_exact (ops : List Op) : let l := ops.foldl apply {}
    (∀ r extra, l.total r extra = ∑ o ∈ l.owners ∪ (extra.map (·.1)).toFinset,
      max (l.forecast r o) (max (l.claimed r o) (peak extra o))) ∧
    l.growthUnknown = l.growth.entries.countP (·.2.memoryBytes.isNone) ∧
    ∀ owner previous, l.growth.lookup owner = some previous →
      (∀ r, (previous.get r).getD 0 ≤ l.growthTotals r) ∧
        previous.memoryBytes.isNone.toNat ≤ l.growthUnknown := by
  intro l
  refine ⟨fun r extra => ?_,l.growthUnknown_eq_countP,fun owner previous h => ?_⟩
  · exact l.total_eq_sum r extra Finset.subset_union_left Finset.subset_union_right
  · exact ⟨fun r => (l.forecast_le_totals owner r h).1,(l.forecast_le_totals owner .memory h).2⟩

@[simp]
theorem claims_setGrowthForecast (owner cost) : (l.setGrowthForecast owner cost).claims = l.claims := by
  cases cost <;> rfl

@[simp]
theorem waiting_setGrowthForecast (owner cost) :
    (l.setGrowthForecast owner cost).waiting = l.waiting := by
  cases cost <;> rfl

theorem lookup_setGrowthForecast (owner cost o) : (l.setGrowthForecast owner cost).growth.lookup o =
      if o = owner then cost else l.growth.lookup o := by
  by_cases ho : o = owner
  · subst ho
    cases cost <;> simp [setGrowthForecast,dropForecast,addForecast]
  · cases cost <;> simp [setGrowthForecast,dropForecast,addForecast,ho]

private theorem foldl_forget (keys : List Owner) (l : Ledger) :
    let cleared := keys.foldl (fun l owner => l.setGrowthForecast owner none) l
    cleared.claims = l.claims ∧ cleared.waiting = l.waiting ∧
      ∀ o, cleared.growth.lookup o = if o ∈ keys then none else l.growth.lookup o := by
  induction keys generalizing l with
  | nil => exact ⟨rfl,rfl,fun o => by simp⟩
  | cons k keys ih =>
    obtain ⟨hcl,hwait,hlook⟩ := ih (l.setGrowthForecast k none)
    refine ⟨hcl.trans (claims_setGrowthForecast ..),
      hwait.trans (waiting_setGrowthForecast ..),fun o => (hlook o).trans ?_⟩
    rw [lookup_setGrowthForecast]
    by_cases ho : o = k <;> simp [ho]

theorem setGrowthForecasts_nil :
    (l.setGrowthForecasts []).claims = l.claims ∧ (l.setGrowthForecasts []).waiting = l.waiting ∧
      ∀ o, (l.setGrowthForecasts []).growth.lookup o = none := by
  obtain ⟨hcl,hwait,hlook⟩ := foldl_forget l.growth.keys l
  refine ⟨hcl,hwait,fun o => (hlook o).trans ?_⟩
  split
  · rfl
  · rename_i ho
    exact AList.lookup_eq_none.mpr ho

end Ledger

def physicalMemoryFloorMb : Nat := 2048

/-- A memory wait resamples once the sampler's cache expired. -/
def retrySeconds : Rat := 21 / 100

def memoryPsiFullLimit : Rat := 10

def mib : Nat := 1024 * 1024

def closed : String := "direct node admission is closed"
def shapeExceeded : String := "sandbox CPU or memory request exceeds the physical node shape"
def noMetrics : String := "direct node has no fresh runtime metrics for dynamic admission"
def memoryPressure : String := "direct node memory pressure blocks active admission"
def physicalHeadroom : String := "direct node has insufficient physical live memory headroom"
def liveHeadroom : String := "direct node has insufficient live memory headroom"
def projectedReserved : String := "node memory headroom is reserved by in-flight transitions"
def projectedRamReserved : String := "node RAM backing headroom is reserved by in-flight transitions"

/-- The runtime metrics admission reads. `memoryBacking` holds the RAM backing sample's available
bytes, if known. -/
structure Metrics where
  memoryTotalMb : Nat
  memoryAvailableMb : Nat
  swapTotalMb : Nat := 0
  swapFreeMb : Nat := 0
  memoryPsiFullAvg10 : Option Rat := none
  memoryBacking : Option (Option Nat) := none
  deriving DecidableEq

structure Node where
  admissionOpen : Bool
  /-- `none` disables pressure checks: slot-only. -/
  capacity : Option Shape
  /-- Absent backing evidence is then 0 available, never unlimited. -/
  ramBackingConfigured : Bool
  deriving DecidableEq

structure Checks where
  shape : Bool := true
  memoryPsi : Bool := true
  deriving DecidableEq

/-- One admission attempt; times are monotonic seconds, `now` is read after the sample. -/
structure Request where
  node : Node
  owner : Owner
  requested : Shape
  cost : Option Cost
  checks : Checks := {}
  deadline : Rat
  now : Rat
  previousError : Option String := none
  deriving DecidableEq

inductive Refusal where
  | closed (message : String)
  | capacity (message : String)
  deriving DecidableEq

inductive Decision where
  | grant
  | wait (reason : String) (seconds : Rat)
  | refuse (refusal : Refusal)
  deriving DecidableEq

/-- No disk is available to a pressure-only check. -/
def fits (requested capacity : Shape) : Bool :=
  0 ≤ requested.vcpu && (0 < requested.vcpu || 0 < requested.memoryMb || 0 < requested.diskMb) &&
    requested.vcpu ≤ capacity.vcpu && requested.memoryMb ≤ capacity.memoryMb && requested.diskMb = 0

variable (metrics : Metrics) (request : Request)

def memoryPressureError (requestedMemoryMb : Nat) (checkPsi : Bool) : Option String :=
  if checkPsi && metrics.memoryPsiFullAvg10.any (memoryPsiFullLimit ≤ ·) then some memoryPressure
  else if 0 < metrics.memoryTotalMb && metrics.memoryAvailableMb < physicalMemoryFloorMb then
    some physicalHeadroom
  else
    let minimum := max physicalMemoryFloorMb requestedMemoryMb
    let available := if 0 < metrics.swapTotalMb then metrics.memoryAvailableMb + metrics.swapFreeMb
      else metrics.memoryAvailableMb
    let known := 0 < metrics.swapTotalMb || 0 < metrics.memoryTotalMb
    if known && available < minimum then some liveHeadroom else none

def pressureError (metrics : Option Metrics) (requestedMemoryMb : Nat) (checkPsi : Bool) :
    Option String :=
  match metrics with
  | none => some noMetrics
  | some metrics => memoryPressureError metrics requestedMemoryMb checkPsi

/-- A slow sampler must not grant after the retry deadline. -/
def late : Option Decision :=
  match request.previousError with
  | some error => if request.deadline ≤ request.now then some (.refuse (.capacity error)) else none
  | none => none

def gate : Option Refusal :=
  if !request.node.admissionOpen then some (.closed closed)
  else if request.node.capacity.any (fun c => request.checks.shape && !fits request.requested c) then
    some (.capacity shapeExceeded)
  else match request.previousError with
    | some error => if request.deadline ≤ request.now then some (.capacity error) else none
    | none => none

def Metrics.headroom : Nat :=
  if 0 < metrics.memoryTotalMb then (metrics.memoryAvailableMb - physicalMemoryFloorMb) * mib else 0

/-- The RAM backing a sample leaves; `none` where no backing is configured or measured. -/
def Metrics.ramAvailable (node : Node) : Option Nat :=
  match metrics.memoryBacking with
  | some available => some (available.getD 0)
  | none => if node.ramBackingConfigured then some 0 else none

/-- The projected shortage of a transition on a sample; RAM backing is checked last and wins. -/
def projectionError (ledger : Ledger) (request : Request) (cost : Cost) : Option String :=
  let projectedRam := ledger.projectedMemoryBytes request.owner cost .ramBacking
  if (metrics.ramAvailable request.node).any (· < projectedRam) then some projectedRamReserved
  else if metrics.memoryTotalMb = 0 ||
      metrics.headroom < ledger.projectedMemoryBytes request.owner cost .memory then
    some projectedReserved
  else none

def Request.footprintMb : Nat :=
  match request.cost.bind (·.memoryBytes) with
  | some bytes => (bytes + mib - 1) / mib
  | none => request.requested.memoryMb

def waitOrRefuse (error : String) : Decision :=
  if request.deadline ≤ request.now + retrySeconds then .refuse (.capacity error)
  else .wait error (min retrySeconds (request.deadline - request.now))

def decide (metrics : Option Metrics) (ledger : Ledger) (request : Request) : Decision :=
  if !request.node.admissionOpen then .refuse (.closed closed)
  else match request.node.capacity with
    | none => (late request).getD .grant
    | some capacity =>
      if request.checks.shape && !fits request.requested capacity then
        .refuse (.capacity shapeExceeded)
      else
        let pressure := pressureError metrics request.footprintMb request.checks.memoryPsi
        let projected := match request.cost, metrics with
          | some cost, some metrics => projectionError metrics ledger request cost
          | _, _ => none
        match late request with
        | some refused => refused
        | none =>
          match projected, pressure with
          | some error, _ => waitOrRefuse request error
          | none, none => .grant
          | none, some error =>
            let memoryWait :=
              request.cost.any (fun cost => cost.kind = .startup || cost.kind = .restore) &&
              metrics.any fun m => 0 < m.memoryTotalMb &&
                (memoryPressureError m request.footprintMb request.checks.memoryPsi).isSome
            if memoryWait then waitOrRefuse request error else .refuse (.capacity error)

theorem waitOrRefuse_ne_grant (request error) : waitOrRefuse request error ≠ .grant := by
  unfold waitOrRefuse
  split <;> simp

theorem decide_open {metrics ledger request} (h : decide metrics ledger request = .grant) :
    request.node.admissionOpen = true := by
  unfold decide at h
  split at h
  · cases h
  · rename_i hopen
    simpa using hopen

theorem decide_grant {metrics ledger request cost capacity}
    (hcap : request.node.capacity = some capacity) (hcost : request.cost = some cost)
    (h : decide metrics ledger request = .grant) : ∃ m, metrics = some m ∧ 0 < m.memoryTotalMb ∧
      ledger.projectedMemoryBytes request.owner cost .memory ≤ m.headroom ∧
      ∀ available, m.ramAvailable request.node = some available →
        ledger.projectedMemoryBytes request.owner cost .ramBacking ≤ available := by
  unfold decide at h
  simp only [hcap,hcost] at h
  split at h
  · cases h
  split at h
  · cases h
  split at h
  · -- a late answer is a refusal
    rename_i hlate
    unfold late at hlate
    split at hlate
    · split at hlate
      · cases hlate
        cases h
      · cases hlate
    · cases hlate
  · cases metrics with
    | none =>
      simp only [pressureError] at h
      simp at h
    | some m =>
      split at h
      · exact absurd h (waitOrRefuse_ne_grant _ _)
      · rename_i hproj _
        unfold projectionError at hproj
        dsimp only at hproj
        split at hproj
        · cases hproj
        rename_i hram
        split at hproj
        · cases hproj
        rename_i hmem
        simp only [Bool.or_eq_true,decide_eq_true_eq,not_or,Nat.not_lt] at hmem
        refine ⟨m,rfl,by omega,hmem.2,fun available ha => ?_⟩
        simp only [ha,Option.any_some,decide_eq_true_eq,Nat.not_lt] at hram
        exact hram
      · split at h
        · exact absurd h (waitOrRefuse_ne_grant _ _)
        · cases h

end UCloudSandboxes.Admission
