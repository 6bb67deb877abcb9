import UCloudSandboxes.Admission.Service

namespace UCloudSandboxes.Admission
open Accounting Machine Growth Ledger Finset

namespace Ledger

section
variable (l : Ledger) (kind : Kind) (r : Resource) (owner : Owner)

def queued : Nat :=
  peak ((l.waiting.filter (·.cost.kind = kind)).map (·.entry r)) owner

/-- The first queued demand of a kind; none while the owner holds a claim of the kind. -/
def firstQueued : Nat :=
  if l.claims.any (fun item => item.cost.kind = kind && item.owner = owner) then 0
  else ((l.waiting.find? fun item => item.cost.kind = kind && item.owner = owner).bind
    (·.cost.get r)).getD 0

end

private theorem foldl_pending (kind r) (active : List Owner) (o) (waiting found : List Claim) :
    peak ((waiting.foldl (fun owners item => item.queue kind active owners) found).map (·.entry r)) o =
      if found.any (·.owner = o) || active.contains o then
        peak (found.map (·.entry r)) o
      else max (peak (found.map (·.entry r)) o)
        (((waiting.find? fun item => item.cost.kind = kind && item.owner = o).bind
          (·.cost.get r)).getD 0) := by
  induction waiting generalizing found with
  | nil => simp
  | cons item waiting ih =>
    rw [List.foldl_cons,ih,Claim.queue]
    by_cases ho : item.owner = o
    · subst ho
      by_cases hk : item.cost.kind = kind
      · by_cases hf : found.any (·.owner = item.owner) = true ∨ item.owner ∈ active
        · have hskip : ¬ ((item.cost.kind = kind && !active.contains item.owner &&
              !found.any (·.owner = item.owner)) = true) := by
            rcases hf with hf | hf <;> simp [hf]
          have hfound : (found.any (·.owner = item.owner) || active.contains item.owner) = true := by
            simpa using hf
          rw [if_neg hskip,if_pos hfound,if_pos hfound]
        · rw [not_or] at hf
          simp [peak_append,peak_cons,hk,hf.1,hf.2]
      · simp [hk]
    · have hpeak : ∀ l : List Claim, peak ((l ++ [item]).map (·.entry r)) o =
          peak (l.map (·.entry r)) o := by
        simp [peak_append,peak_cons,ho]
      split <;> split <;> simp_all

theorem peak_pending (l : Ledger) (kind) (r) (o) :
    peak ((l.pending kind).map (·.entry r)) o =
      l.firstQueued kind r o := by
  unfold pending firstQueued
  rw [foldl_pending]
  have hactive : ((l.claims.filter (·.cost.kind = kind)).map (·.owner)).contains o =
      l.claims.any (fun item => item.cost.kind = kind && item.owner = o) := by
    induction l.claims with
    | nil => rfl
    | cons item claims ih =>
      by_cases hk : item.cost.kind = kind
      · by_cases ho : item.owner = o
        · simp [hk,ho]
        · have hb : (o == item.owner) = false := beq_eq_false_iff_ne.mpr (Ne.symm ho)
          simpa [hk,ho,hb] using ih
      · simpa [hk] using ih
  simp only [List.any_nil,Bool.false_or,hactive,List.map_nil,peak_nil,Nat.zero_max]

end Ledger

namespace State

variable (s : State) (r : Resource)

/-- The charge of an owner's admitted but uncommitted growth; a running primary's is its forecast. -/
def provisional (owner : Owner) : Nat :=
  if (s.growth.active owner).isSome then 0
  else ((s.growth.provisional.lookup owner).bind (·.get r)).getD 0

def charge (owner : Owner) : Nat :=
  max (s.ledger.forecast r owner) (max (s.ledger.claimed r owner) (s.provisional r owner))

def owners : Finset Owner :=
  s.ledger.owners ∪ s.growth.provisional.keys.toFinset ∪ (s.ledger.waiting.map (·.owner)).toFinset

def totalCharge (queued : Owner → Nat) : Nat :=
  ∑ o ∈ s.owners, max (s.charge r o) (queued o)

/-- All charges and the queued demand fit the sample: memory above the floor, and the RAM backing if
any. -/
def Within (config : Config) (s : State) (m : Metrics) (queued : Resource → Owner → Nat) : Prop :=
  s.totalCharge .memory (queued .memory) ≤ (m.memoryAvailableMb - physicalMemoryFloorMb) * mib ∧
    ∀ available, m.ramAvailable (s.node config) = some available →
      s.totalCharge .ramBacking (queued .ramBacking) ≤ available

variable {s : State}

theorem charge_eq (h : Agrees s.growth s.ledger) (r o) :
    s.charge r o = max (s.ledger.forecast r o) (s.ledger.claimed r o) := by
  have hle : s.provisional r o ≤ s.ledger.forecast r o := by
    unfold provisional forecast
    cases hactive : s.growth.active o with
    | some => simp
    | none => simp [h o hactive]
  unfold charge
  omega

theorem totalCharge_le {l : Ledger} {r queued extra}
    (h : ∀ o, max (s.charge r o) (queued o) ≤ max (l.forecast r o) (max (l.claimed r o) (peak extra o)))
    : s.totalCharge r queued ≤ l.total r extra := by
  rw [l.total_eq_sum r extra (s := s.owners ∪ l.owners ∪ (extra.map (·.1)).toFinset)
    (subset_union_right.trans subset_union_left) subset_union_right]
  calc s.totalCharge r queued
      ≤ ∑ o ∈ s.owners, max (l.forecast r o) (max (l.claimed r o) (peak extra o)) :=
        sum_le_sum fun o _ => h o
    _ ≤ _ := sum_le_sum_of_subset (subset_union_left.trans subset_union_left)

structure Frame (s s' : State) : Prop where
  growth : s'.growth = s.growth
  forecasts : s'.ledger.growth = s.ledger.growth
  growing : s'.growing = s.growing

theorem Frame.trans {s' s''} (h : Frame s s') (h' : Frame s' s'') : Frame s s'' :=
  ⟨h'.growth.trans h.growth,h'.forecasts.trans h.forecasts,h'.growing.trans h.growing⟩

theorem Frame.agrees {s'} (h : Frame s s') (ha : Agrees s.growth s.ledger) :
    Agrees s'.growth s'.ledger := by
  intro o ho
  rw [h.growth] at ho ⊢
  rw [h.forecasts]
  exact ha o ho

theorem frame_hold (s token) (holder) (owner cost requested demand slot) :
    Frame s (s.hold token holder owner cost requested demand slot) := ⟨rfl,rfl,rfl⟩

theorem frame_unhold (s) (held) : Frame s (s.unhold held) := by
  refine ⟨rfl,?_,rfl⟩
  have hrls : ((s.ledger.release held.claim).getD s.ledger).growth = s.ledger.growth := by
    unfold release
    split <;> rfl
  unfold unhold
  cases held.demand <;> exact hrls

theorem frame_foldl {β f} (hf : ∀ s b, Frame s (f s b)) (l : List β) (s) : Frame s (l.foldl f s) := by
  induction l generalizing s with
  | nil => exact ⟨rfl,rfl,rfl⟩
  | cons b l ih => exact (hf s b).trans (ih (f s b))

theorem frame_dropHeld (s entry) : Frame s (s.dropHeld entry) := by
  have h := frame_unhold { s with held := s.held.erase entry.1 } entry.2
  exact ⟨h.growth,h.forecasts,h.growing⟩

theorem frame_hello (s session) (reassert) : Frame s (s.hello session reassert) := by
  have hdrop := frame_foldl frame_dropHeld (s.stale session) s
  have hacc := frame_foldl (f := fun s item => s.accept session item.1 item.2) (fun s item => by
      unfold accept
      split
      · exact ⟨rfl,rfl,rfl⟩
      · exact frame_hold ..) reassert
    { (s.stale session).foldl dropHeld s with agentSession := some session }
  exact ⟨hacc.growth.trans hdrop.growth,hacc.forecasts.trans hdrop.forecasts,
    hacc.growing.trans hdrop.growing⟩

theorem refreshed_spec (config a metrics obs now) (h : Agrees s.growth s.ledger) :
    let s' := s.refreshed config a metrics obs now
    Agrees s'.growth s'.ledger ∧ s'.growth.intents = s.growth.intents ∧
      s'.growth.provisional = s.growth.provisional ∧ s'.growing = s.growing ∧
      s'.node config = s.node config := by
  unfold refreshed
  split
  · obtain ⟨hagr,hi,hp,_,_⟩ := currentForecasts_spec obs now h
    cases a.grant with
    | hold | growth => exact ⟨hagr,hi,hp,rfl,rfl⟩
  · exact ⟨h,rfl,rfl,rfl,rfl⟩

theorem agrees_granted (a obs) (h : Agrees s.growth s.ledger) :
    Agrees (s.granted a obs).growth (s.granted a obs).ledger := by
  unfold granted
  cases a.grant with
  | hold => exact (frame_hold ..).agrees h
  | growth => exact agrees_updateForecast obs _ fun o hk ho => (h o ho).trans (AList.lookup_insert_ne hk).symm

theorem pass_cases (config) (s : State) (a metrics obs refreshNow now) :
    let s₁ := s.refreshed config a metrics obs refreshNow
    let result := s.pass config a metrics obs refreshNow now
    result.1 = s ∧ result.2 = none ∨
    result.1 = s₁ ∧ result.2 ≠ some .grant ∨
    result.1 = s₁.granted a obs ∧ result.2 = some .grant ∧
      decide metrics s₁.ledger (s₁.request config a now) = .grant := by
  unfold pass
  split
  · exact .inl ⟨rfl,rfl⟩
  dsimp only
  split
  · rename_i hd
    exact .inr (.inr ⟨rfl,rfl,hd⟩)
  · rename_i hd
    exact .inr (.inl ⟨rfl,fun h => hd (Option.some.inj h)⟩)

end State

open State

theorem agrees_step {config s s' e} (h : Agrees s.growth s.ledger) (hs : step config s e = some s') :
    Agrees s'.growth s'.ledger := by
  unfold step at hs
  cases e with
  | demand | withdraw | endRecovery | setOpen =>
    cases hs
    exact h
  | pass a metrics obs refreshNow now =>
    cases hs
    have hfresh := (refreshed_spec config a metrics obs refreshNow h).1
    rcases pass_cases config s a metrics obs refreshNow now with ⟨hs,_⟩ | ⟨hs,_⟩ | ⟨hs,_⟩
    · rw [hs]
      exact h
    · rw [hs]
      exact hfresh
    · rw [hs]
      exact agrees_granted a obs hfresh
  | observe | publication =>
    exact (some_of_check hs).2 ▸ (frame_hold ..).agrees h
  | release =>
    dsimp only at hs
    split at hs
    · exact (some_of_check hs).2 ▸ (frame_dropHeld ..).agrees h
    · cases hs
  | hello =>
    cases hs
    exact (frame_hello ..).agrees h
  | forecasts obs now =>
    cases hs
    exact (currentForecasts_spec obs now h).agrees
  | residentPass =>
    cases hs
    exact (refreshForecasts_spec ..).agrees
  | record key intent obs now =>
    cases hs
    exact agrees_record key intent obs now h
  | forget key obs now =>
    cases hs
    exact agrees_forget key obs now h
  | answer =>
    dsimp only at hs
    split at hs
    · cases hs
      exact h
    · cases hs
  | publish demand obs now =>
    dsimp only at hs
    split at hs
    · cases hs
      exact agrees_record _ _ obs now h
    · cases hs
  | settle demand obs now =>
    dsimp only at hs
    split at hs
    · cases hs
      exact agrees_clearProvisional _ obs now h
    · cases hs
      exact agrees_clearProvisional _ obs now h
    · cases hs

theorem agrees_start {s} (h : Start s) : Agrees s.growth s.ledger := by
  obtain ⟨intents,obs,now,isOpen,revision,rfl⟩ := h
  exact (refreshForecasts_spec ..).agrees

theorem peak_le_peak_cons (e : Owner × Option Nat) (l o) : peak l o ≤ peak (e :: l) o := by
  rw [peak_cons]
  split
  · exact le_max_right ..
  · exact le_rfl

theorem charge_granted_le {s : State} (h : Agrees s.growth s.ledger) (a obs)
    (hactive : ∀ t, a.grant = .growth t → s.growth.active a.owner = none) (r o extra) :
    (s.granted a obs).charge r o ≤ max (s.ledger.forecast r o)
      (max (s.ledger.claimed r o) (peak ((a.owner, a.cost.get r) :: extra) o)) := by
  rw [charge_eq (agrees_granted a obs h)]
  cases hg : a.grant with
  | hold =>
    have hfor : (s.granted a obs).ledger.forecast r o = s.ledger.forecast r o := by
      simp only [granted,hg]
      rfl
    have hcla : (s.granted a obs).ledger.claimed r o =
        max (s.ledger.claimed r o) (peak [(a.owner, a.cost.get r)] o) := by
      simp only [granted,hg,hold,claim,claimed,List.map_append,peak_append]
      rfl
    rw [hcla,peak_cons,peak_cons,peak_nil]
    split <;> omega
  | growth t =>
    have hcla : (s.granted a obs).ledger.claimed r o = s.ledger.claimed r o := by
      simp [granted,hg,withGrowth,chargeProvisional,claimed,updateForecast_spec]
    have hlook : (s.granted a obs).ledger.growth.lookup o =
        if o = a.owner then some a.cost else s.ledger.growth.lookup o := by
      have hcost : forecastCost { s.growth with
          provisional := s.growth.provisional.insert a.owner a.cost } a.owner obs t = some a.cost := by
        have hnone := hactive t hg
        unfold active at hnone
        simp [forecastCost,active,hnone]
      simp only [granted,hg,withGrowth,chargeProvisional,updateForecast_spec,
        lookup_setGrowthForecast,hcost]
    by_cases ho : a.owner = o
    · have hfor : (s.granted a obs).ledger.forecast r o = (a.cost.get r).getD 0 := by
        simp [forecast,hlook,ho]
      rw [peak_cons,if_pos ho]
      omega
    · have hfor : (s.granted a obs).ledger.forecast r o = s.ledger.forecast r o := by
        simp [forecast,hlook,Ne.symm ho]
      omega

theorem firstQueued_granted (s : State) (a) (obs)
    (hkind : a.cost.kind = .startup) (r) (o) :
    (s.granted a obs).ledger.firstQueued .restore r o = s.ledger.firstQueued .restore r o := by
  cases hg : a.grant with
  | hold =>
    simp [granted,hg,hold,claim,firstQueued,hkind]
  | growth =>
    simp [granted,hg,withGrowth,chargeProvisional,firstQueued,updateForecast_spec]

theorem granted_within {config} {s : State} (h : Agrees s.growth s.ledger)
    {a m obs now capacity} (hcap : config.capacity = some capacity)
    (hactive : ∀ t, a.grant = .growth t → s.growth.active a.owner = none)
    (hd : decide (some m) s.ledger (s.request config a now) = .grant) :
    Within config (s.granted a obs) m (fun _ _ => 0) ∧ (a.cost.kind = .startup →
        Within config (s.granted a obs) m ((s.granted a obs).ledger.firstQueued .restore)) := by
  obtain ⟨_,hm,htotal,hmem,hram⟩ := decide_grant hcap (by rfl) hd
  cases hm
  have hhea : m.headroom = (m.memoryAvailableMb - physicalMemoryFloorMb) * mib := by
    simp [Metrics.headroom,htotal]
  have hnode : m.ramAvailable ((s.granted a obs).node config) = m.ramAvailable (s.node config) := by
    rfl
  rw [hhea] at hmem
  have hproj : ∀ r, (s.granted a obs).totalCharge r (fun _ => 0) ≤
      s.ledger.projectedMemoryBytes a.owner a.cost r := fun r =>
    totalCharge_le fun o => max_le (charge_granted_le h a obs hactive r o _) (Nat.zero_le _)
  refine ⟨⟨(hproj .memory).trans hmem,fun available ha =>
    (hproj .ramBacking).trans (hram available (hnode ▸ ha))⟩,fun hkind => ?_⟩
  have hqd : ∀ r, (s.granted a obs).totalCharge r
      ((s.granted a obs).ledger.firstQueued .restore r) ≤
        s.ledger.projectedMemoryBytes a.owner a.cost r := by
    intro r
    refine totalCharge_le fun o => max_le (charge_granted_le h a obs hactive r o _) ?_
    rw [if_pos hkind,firstQueued_granted s a obs hkind,← s.ledger.peak_pending .restore r o]
    exact (peak_le_peak_cons _ _ _).trans ((le_max_right _ _).trans (le_max_right _ _))
  exact ⟨(hqd .memory).trans hmem,fun available ha =>
    (hqd .ramBacking).trans (hram available (hnode ▸ ha))⟩

/-- Whenever a claim is granted on a measured sample, the charges of all owners fit it, for a
startup with the first queued restore of every owner without a restore claim. A growth of an owner
whose primary runs is exempt. -/
theorem grant_within_headroom (config : Config) (capacity : Shape)
    (hcap : config.capacity = some capacity) (s : State)
    (hs : Reaches (step config) anyEvent Start s) (a : Admit) (m : Metrics) (obs : Observations)
    (refreshNow now : Rat) (hactive : ∀ t, a.grant = .growth t → s.growth.active a.owner = none)
    (hgrant : (s.pass config a (some m) obs refreshNow now).2 = some .grant) :
    let s' := (s.pass config a (some m) obs refreshNow now).1
    Within config s' m (fun _ _ => 0) ∧
      (a.cost.kind = .startup → Within config s' m (s'.ledger.firstQueued .restore)) := by
  obtain ⟨hagr,hints,_⟩ :=
    refreshed_spec config a (some m) obs refreshNow
      (hs.invariant (fun _ => agrees_start) fun _ _ _ hinv _ => agrees_step hinv)
  rcases pass_cases config s a (some m) obs refreshNow now with ⟨_,hno⟩ | ⟨_,hno⟩ | ⟨hpass,_,hd⟩
  · rw [hno] at hgrant
    cases hgrant
  · exact absurd hgrant hno
  · dsimp only
    rw [hpass]
    refine granted_within hagr hcap (fun t ht => ?_) hd
    rw [active_of_intents (congrArg _ hints)]
    exact hactive t ht

namespace Example

def config : Config := ⟨some ⟨8,65536,0⟩,false⟩

def sample : Metrics := { memoryTotalMb := 65536, memoryAvailableMb := 4096 }

def observations : Observations := ⟨fun _ => none,fun _ => .file⟩

def opened : State where
  ledger := (refreshForecasts {} {} observations 0).2
  growth := (refreshForecasts {} {} observations 0).1
  admissionOpen := true
  revision := 0

theorem opened_starts : Start opened := ⟨∅,observations,0,true,0,rfl⟩

def restoreCost (mb : Nat) : Cost := transitionMemoryCost .restore .file (some (mb * mib)) none none "quoted"

def startup : Admit where
  holder := .noded
  owner := ("new",1)
  requested := ⟨1,1024,0⟩
  cost := startupCost .file 1024 false
  deadline := 10
  demand := 3
  grant := .hold "token" ⟨1,1024,0⟩ (some .startup)

/-- Two wakes of one sandbox queue, the second quoted higher; then a create queues. -/
def queueing : List Event :=
  [.endRecovery, .demand ("old",1) (restoreCost 1), .demand ("old",1) (restoreCost 4096),
   .demand ("new",1) startup.cost]

def queuedState : State := (run (step config) opened queueing).getD opened

theorem queuedState_reached : Reaches (step config) anyEvent Start queuedState :=
  .of_run (.start opened_starts) (show run (step config) opened queueing = some queuedState from rfl)

end Example

open Example

theorem grant_within_headroom_create :
    (queuedState.pass config startup (some sample) observations 1 1).2 = some .grant ∧
    Within config (queuedState.pass config startup
      (some sample) observations 1 1).1 sample (fun _ _ => 0) := by
  have hgrant : (queuedState.pass config startup (some sample)
      observations 1 1).2 = some .grant := by decide +kernel
  exact ⟨hgrant,(grant_within_headroom config _ rfl queuedState
    queuedState_reached startup sample observations 1 1
    (by intro t ht; cases ht) hgrant).1⟩

/-- A create is granted although another sandbox's second queued wake no longer fits: only an
owner's first queued restore counts. -/
theorem grant_exceeds_every_queued_restore : ∃ s, Reaches (step config) anyEvent Start s ∧
      (s.pass config startup (some sample) observations 1 1).2 =
        some .grant ∧ startup.cost.kind = .startup ∧
      let s' := (s.pass config startup (some sample) observations 1 1).1
      ¬ Within config s' sample (s'.ledger.queued .restore) := by
  refine ⟨queuedState,queuedState_reached,by decide +kernel,rfl,fun h => ?_⟩
  exact absurd h.1 (by decide +kernel)

end UCloudSandboxes.Admission
