import UCloudSandboxes.Admission.Decide

namespace UCloudSandboxes.Admission
open AList

def growthObservationMaxAgeSeconds : Rat := 30

def prefetchMaxBytes : Nat := 1024 * 1024 * 1024

inductive MemoryMode where
  | ram
  | file
  deriving DecidableEq

structure ResidentSample where
  currentBytes : Nat
  sampledAt : Rat
  sharedMemoryBytes : Nat := 0
  /-- 0 when the kernel lacks it. -/
  peakBytes : Nat := 0
  swapBytes : Nat := 0
  deriving DecidableEq

variable (mode : MemoryMode) (bound : Nat) (sample : Option ResidentSample) (now : Rat)

def growthSample : Option ResidentSample :=
  sample.filter fun sample => !(growthObservationMaxAgeSeconds < now - sample.sampledAt)

/-- The bound less observed resident pages; on RAM backing only shmem counts. -/
def growthRemaining : Nat :=
  let observed := match growthSample sample now, mode with
    | none, _ => 0
    | some sample, .ram => min sample.currentBytes sample.sharedMemoryBytes
    | some sample, .file => sample.currentBytes
  bound - observed

/-- The physical and RAM-backing growth a continuation needs to return to its demonstrated peak. -/
def continuationGrowth : Nat × Nat :=
  let fallback := growthRemaining mode bound (growthSample sample now) now
  match growthSample sample now with
  | none => (fallback, fallback)
  | some sample =>
    if sample.peakBytes = 0 then (fallback, fallback)
    else
      let ceiling := min bound sample.peakBytes
      let shared := min sample.currentBytes sample.sharedMemoryBytes
      let swapped := min sample.swapBytes (ceiling - sample.currentBytes)
      (ceiling - sample.currentBytes - swapped + min swapped prefetchMaxBytes,
        ceiling - shared - swapped)

/-- RAM backing follows memory unless given, and is 0 off RAM placement. -/
def transitionMemoryCost (kind : Kind) (mode : MemoryMode)
    (memoryBytes ramBackingBytes readBytes : Option Nat) (provenance : String) : Cost where
  kind := kind
  memoryBytes := memoryBytes
  readBytes := readBytes
  provenance := provenance
  ramBackingBytes := match mode with
    | .ram => ramBackingBytes.or memoryBytes
    | .file => some 0

/-- Launches keep the whole bound until their first safe wait; continuations go back to their peak,
unknown if file-backed. -/
def growthCost (kind : Kind) (requestId : String) (sample : Option ResidentSample) (now : Rat) : Cost :=
  if mode = .file && requestId ≠ "" then
    transitionMemoryCost kind mode none none none "reclaimable-file-growth"
  else if requestId = "" then
    transitionMemoryCost kind mode (some (growthRemaining mode bound sample now)) none none
      "primary-process-growth-forecast"
  else
    let growth := continuationGrowth mode bound sample now
    transitionMemoryCost kind mode (some growth.1) (some growth.2) none
      "primary-process-growth-forecast"

/-- A managed guest runs nothing until its launch, so its create costs 0. -/
def startupCost (requestedMemoryMb : Nat) (managed : Bool) : Cost :=
  if managed then transitionMemoryCost .startup mode (some 0) none none "managed-guest-before-launch"
  else transitionMemoryCost .startup mode (some (requestedMemoryMb * mib)) none none
    "requested-memory-bound"

structure Observations where
  historical : Owner → Option ResidentSample
  memoryMode : Owner → MemoryMode

inductive GrowthPhase where
  | queued
  | active
  | safe
  | parked
  | terminal
  deriving DecidableEq

structure GrowthIntent where
  sandboxId : String
  generation : Int
  jobId : String
  launchSha256 : String
  memoryBytes : Int
  phase : GrowthPhase
  requestId : String
  deriving DecidableEq

abbrev Expiry := WithBot (WithTop Rat)

def Expiry.time (t : Rat) : Expiry := ((t : WithTop Rat) : WithBot (WithTop Rat))

def Expiry.never : Expiry := ((⊤ : WithTop Rat) : WithBot (WithTop Rat))

structure Growth where
  intents : AList fun _ : Owner => GrowthIntent := ∅
  /-- Admitted growth whose durable commit is in flight. -/
  provisional : AList fun _ : Owner => Cost := ∅
  /-- When the oldest sample a cached forecast credits ages out. -/
  creditExpires : Expiry := ⊥

namespace Growth

section
variable (g : Growth)

def active (key : Owner) : Option GrowthIntent :=
  (g.intents.lookup key).filter (·.phase = .active)

/-- An active intent is forecast from its sample; other phases charge only a provisional claim. -/
def forecastCost (key : Owner) (obs : Observations) (now : Rat) : Option Cost :=
  match g.active key with
  | some item => some (growthCost (obs.memoryMode key) item.memoryBytes.toNat .restore item.requestId
      (growthSample (obs.historical key) now) now)
  | none => g.provisional.lookup key

def updateForecast (key : Owner) (ledger : Ledger) (obs : Observations) (now : Rat) : Growth × Ledger :=
  let credited := match g.active key, growthSample (obs.historical key) now with
    | some _, some sample => { g with creditExpires :=
        (min g.creditExpires (Expiry.time (sample.sampledAt + growthObservationMaxAgeSeconds))) }
    | _, _ => g
  (credited, ledger.setGrowthForecast key (g.forecastCost key obs now))

/-- The sandboxes with an intent or a provisional charge; the source sorts them first. -/
def keys : List Owner := (g.intents.keys ++ g.provisional.keys).dedup

def refreshForecasts (ledger : Ledger) (obs : Observations) (now : Rat) : Growth × Ledger :=
  g.keys.foldl (fun s key => s.1.updateForecast key s.2 obs now)
    ({ g with creditExpires := Expiry.never }, ledger.setGrowthForecasts [])

def currentForecasts (ledger : Ledger) (obs : Observations) (now : Rat) : Growth × Ledger :=
  if g.creditExpires < Expiry.time now then g.refreshForecasts ledger obs now
  else (g, ledger)

def record (key : Owner) (intent : Option GrowthIntent) (ledger : Ledger) (obs : Observations)
    (now : Rat) : Growth × Ledger :=
  let g := match intent with
    | some intent => { g with intents := g.intents.insert key intent }
    | none => g
  g.updateForecast key ledger obs now

def forget (key : Owner) (ledger : Ledger) (obs : Observations) (now : Rat) : Growth × Ledger :=
  let g := { g with intents := g.intents.erase key, provisional := g.provisional.erase key }
  g.updateForecast key ledger obs now

/-- Charge admitted bytes before the admission lock is released. -/
def chargeProvisional (key : Owner) (cost : Cost) (ledger : Ledger) (obs : Observations) (now : Rat)
    : Growth × Ledger :=
  let g := { g with provisional := g.provisional.insert key cost }
  g.updateForecast key ledger obs now

def clearProvisional (key : Owner) (ledger : Ledger) (obs : Observations) (now : Rat) :
    Growth × Ledger :=
  let g := { g with provisional := g.provisional.erase key }
  g.updateForecast key ledger obs now

def retain (keep : Owner → Bool) (ledger : Ledger) (obs : Observations) (now : Rat) : Growth × Ledger :=
  (g.intents.keys.filter (!keep ·)).foldl (fun s key =>
    let g := { s.1 with intents := s.1.intents.erase key }
    g.updateForecast key s.2 obs now) (g, ledger)

def covered (key : Owner) (startup : Bool) (requestId : String) : Option GrowthIntent :=
  (g.intents.lookup key).filter fun previous =>
    previous.phase = .active || previous.phase = .terminal ||
      (!startup && previous.phase = .safe && previous.requestId ≠ "" &&
        previous.requestId ≠ requestId)

/-- Where no primary runs, the ledger's forecast is the provisional charge. -/
def Agrees (l : Ledger) : Prop :=
  ∀ key, g.active key = none → l.growth.lookup key = g.provisional.lookup key

end

variable {g : Growth} {l : Ledger}

theorem active_of_intents {g' : Growth} {key} (h : g'.intents.lookup key = g.intents.lookup key) :
    g'.active key = g.active key := by
  unfold active
  rw [h]

theorem updateForecast_spec (g : Growth) (key l obs now) :
    (g.updateForecast key l obs now).1.intents = g.intents ∧
      (g.updateForecast key l obs now).1.provisional = g.provisional ∧
      (g.updateForecast key l obs now).2 = l.setGrowthForecast key (g.forecastCost key obs now) := by
  unfold updateForecast
  refine ⟨?_,?_,rfl⟩
  all_goals split <;> rfl

section Tables
variable (g : Growth) (key : Owner) (l : Ledger) (obs : Observations) (now : Rat)

variable (intent : Option GrowthIntent)

theorem intents_record :
    (g.record key intent l obs now).1.intents = intent.elim g.intents (g.intents.insert key ·) := by
  unfold record
  rw [(updateForecast_spec ..).1]
  cases intent <;> rfl

@[simp]
theorem provisional_record : (g.record key intent l obs now).1.provisional = g.provisional := by
  unfold record
  rw [(updateForecast_spec ..).2.1]
  cases intent <;> rfl

@[simp]
theorem intents_forget : (g.forget key l obs now).1.intents = g.intents.erase key :=
  (updateForecast_spec ..).1

@[simp]
theorem provisional_forget : (g.forget key l obs now).1.provisional = g.provisional.erase key :=
  (updateForecast_spec ..).2.1

@[simp]
theorem intents_chargeProvisional (cost) :
    (g.chargeProvisional key cost l obs now).1.intents = g.intents :=
  (updateForecast_spec ..).1

@[simp]
theorem provisional_chargeProvisional (cost) :
    (g.chargeProvisional key cost l obs now).1.provisional = g.provisional.insert key cost :=
  (updateForecast_spec ..).2.1

@[simp]
theorem intents_clearProvisional : (g.clearProvisional key l obs now).1.intents = g.intents :=
  (updateForecast_spec ..).1

@[simp]
theorem provisional_clearProvisional :
    (g.clearProvisional key l obs now).1.provisional = g.provisional.erase key :=
  (updateForecast_spec ..).2.1

end Tables

theorem agrees_updateForecast {key} (obs) (now)
    (h : ∀ o, o ≠ key → g.active o = none → l.growth.lookup o = g.provisional.lookup o) :
    Agrees (g.updateForecast key l obs now).1 (g.updateForecast key l obs now).2 := by
  obtain ⟨hints,hpro,hled⟩ := updateForecast_spec g key l obs now
  intro o ho
  rw [active_of_intents (g := g) (by rw [hints])] at ho
  rw [hpro,hled,Ledger.lookup_setGrowthForecast]
  by_cases hk : o = key
  · subst hk
    simp [forecastCost,ho]
  · rw [if_neg hk]
    exact h o hk ho

theorem agrees_record (key intent obs now) (h : Agrees g l) :
    Agrees (g.record key intent l obs now).1 (g.record key intent l obs now).2 := by
  apply agrees_updateForecast
  intro o hk ho
  cases intent with
  | none => exact h o ho
  | some =>
    rw [active_of_intents (g := g) (by exact lookup_insert_ne hk)] at ho
    exact h o ho

theorem agrees_forget (key obs now) (h : Agrees g l) :
    Agrees (g.forget key l obs now).1 (g.forget key l obs now).2 := by
  apply agrees_updateForecast
  intro o hk ho
  rw [active_of_intents (g := g) (by exact lookup_erase_ne hk)] at ho
  exact (h o ho).trans (lookup_erase_ne hk).symm

theorem agrees_clearProvisional (key obs now) (h : Agrees g l) :
    Agrees (g.clearProvisional key l obs now).1 (g.clearProvisional key l obs now).2 := by
  apply agrees_updateForecast
  intro o hk ho
  exact (h o ho).trans (lookup_erase_ne hk).symm

structure Reforecast (g : Growth) (l : Ledger) (result : Growth × Ledger) : Prop where
  agrees : Agrees result.1 result.2
  intents : result.1.intents = g.intents
  provisional : result.1.provisional = g.provisional
  claims : result.2.claims = l.claims
  waiting : result.2.waiting = l.waiting

private theorem foldl_updateForecast (obs now) (keys : List Owner) (g) (l)
    (h : ∀ o, o ∉ keys → g.active o = none → l.growth.lookup o = g.provisional.lookup o) :
    Reforecast g l (keys.foldl (fun s key => s.1.updateForecast key s.2 obs now) (g, l)) := by
  induction keys generalizing g l with
  | nil => exact ⟨fun o ho => h o (by simp) ho,rfl,rfl,rfl,rfl⟩
  | cons k keys ih =>
    obtain ⟨hints,hpro,hled⟩ := updateForecast_spec g k l obs now
    obtain ⟨hagr,hi,hp,hc,hw⟩ := ih (g.updateForecast k l obs now).1 (g.updateForecast k l obs now).2
      (by
        intro o ho hact
        rw [active_of_intents (g := g) (by rw [hints])] at hact
        rw [hpro,hled,Ledger.lookup_setGrowthForecast]
        by_cases hk : o = k
        · subst hk
          simp [forecastCost,hact]
        · rw [if_neg hk]
          exact h o (by simp [hk,ho]) hact)
    refine ⟨hagr,hi.trans hints,hp.trans hpro,hc.trans ?_,hw.trans ?_⟩
    · rw [hled,Ledger.claims_setGrowthForecast]
    · rw [hled,Ledger.waiting_setGrowthForecast]

theorem refreshForecasts_spec (g) (l) (obs) (now) :
    Reforecast g l (g.refreshForecasts l obs now) := by
  obtain ⟨hcl,hwait,hlook⟩ := l.setGrowthForecasts_nil
  obtain ⟨hagr,hi,hp,hc,hw⟩ := foldl_updateForecast obs now g.keys
    { g with creditExpires := Expiry.never } (l.setGrowthForecasts []) (by
      intro o ho _
      rw [hlook o]
      simp only [keys,List.mem_dedup,List.mem_append,not_or] at ho
      exact (lookup_eq_none.mpr ho.2).symm)
  exact ⟨hagr,hi,hp,hc.trans hcl,hw.trans hwait⟩

theorem currentForecasts_spec (obs) (now) (h : Agrees g l) :
    Reforecast g l (g.currentForecasts l obs now) := by
  unfold currentForecasts
  split
  · exact refreshForecasts_spec g l obs now
  · exact ⟨h,rfl,rfl,rfl,rfl⟩

theorem retain_spec (keep : Owner → Bool) (obs now) (h : Agrees g l) :
    let result := g.retain keep l obs now
    Agrees result.1 result.2 ∧ result.1.provisional = g.provisional ∧
      ∀ o, g.active o = none → result.1.active o = none := by
  unfold retain
  generalize g.intents.keys.filter (!keep ·) = stale
  induction stale generalizing g l with
  | nil => exact ⟨h,rfl,fun _ ho => ho⟩
  | cons k stale ih =>
    let g' : Growth := { g with intents := g.intents.erase k }
    obtain ⟨hints,hpro,_⟩ := updateForecast_spec g' k l obs now
    have hother : ∀ o, o ≠ k → g'.active o = g.active o := fun o hk =>
      active_of_intents (lookup_erase_ne hk)
    have hagr : Agrees (g'.updateForecast k l obs now).1 (g'.updateForecast k l obs now).2 :=
      agrees_updateForecast obs now fun o hk ho => h o ((hother o hk) ▸ ho)
    obtain ⟨hfinal,hprov,hact⟩ := ih hagr
    refine ⟨hfinal,hprov.trans hpro,fun o ho => hact o ?_⟩
    rw [active_of_intents (g := g') (by rw [hints])]
    by_cases hk : o = k
    · subst hk
      simp [active,g']
    · rw [hother o hk]
      exact ho

end Growth

end UCloudSandboxes.Admission
