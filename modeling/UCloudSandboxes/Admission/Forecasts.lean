import UCloudSandboxes.Machine.Keyed
import UCloudSandboxes.Admission.Growth

namespace UCloudSandboxes.Admission
open Machine AList

def GrowthIntent.key (intent : GrowthIntent) : Owner := (intent.sandboxId, intent.generation.toNat)

def GrowthIntent.forecast (intent : GrowthIntent) (key : Owner) (obs : Observations) (now : Rat) :
    Cost :=
  growthCost (obs.memoryMode key) intent.memoryBytes.toNat .restore intent.requestId
    (growthSample (obs.historical key) now) now

namespace Growth

def new (intents : List GrowthIntent) : Growth where
  intents := intents.foldl (fun table intent => table.insert intent.key intent) ∅

variable {g g' : Growth} {key o : Owner} {l : Ledger}

theorem lookup_new (intents key) : (new intents).intents.lookup key =
      lastWritten (intents.map fun intent => (intent.key, some intent)) key none := by
  have hfold : ∀ table : AList fun _ : Owner => GrowthIntent,
      (intents.foldl (fun table intent => table.insert intent.key intent) table).lookup key =
        lastWritten (intents.map fun intent => (intent.key, some intent)) key (table.lookup key) := by
    induction intents with
    | nil => exact fun _ => rfl
    | cons intent intents ih =>
      intro table
      rw [List.foldl_cons,ih,List.map_cons]
      by_cases hk : key = intent.key
      · rw [hk,lookup_insert,lastWritten_cons_self,Option.some_or]
      · rw [lookup_insert_ne hk,lastWritten_cons_ne hk]
  exact hfold ∅

theorem forecastCost_congr (hi : g'.intents.lookup o = g.intents.lookup o)
    (hp : g'.provisional.lookup o = g.provisional.lookup o) (obs now) :
    g'.forecastCost o obs now = g.forecastCost o obs now := by
  unfold forecastCost
  rw [active_of_intents hi,hp]

/-- Every owner is charged the forecast of its intent, on the observations of some update. -/
def Charged (g : Growth) (l : Ledger) : Prop :=
  ∀ key, ∃ obs now, l.growth.lookup key = g.forecastCost key obs now

section
variable (h : Charged g l)
include h

theorem Charged.updateForecast (obs now)
    (hi : ∀ o, o ≠ key → g'.intents.lookup o = g.intents.lookup o)
    (hp : ∀ o, o ≠ key → g'.provisional.lookup o = g.provisional.lookup o) :
    Charged (g'.updateForecast key l obs now).1 (g'.updateForecast key l obs now).2 := by
  obtain ⟨hints,hprov,hled⟩ := updateForecast_spec g' key l obs now
  intro o
  rw [hled,Ledger.lookup_setGrowthForecast]
  by_cases hk : o = key
  · refine ⟨obs,now,?_⟩
    rw [if_pos hk,hk]
    exact (forecastCost_congr (by rw [hints]) (by rw [hprov]) obs now).symm
  · obtain ⟨obs',now',hchg⟩ := h o
    refine ⟨obs',now',?_⟩
    rw [if_neg hk,hchg]
    exact (forecastCost_congr (by rw [hints,hi o hk]) (by rw [hprov,hp o hk]) _ _).symm

theorem Charged.record (key intent obs now) :
    Charged (g.record key intent l obs now).1 (g.record key intent l obs now).2 := by
  cases intent with
  | none => exact h.updateForecast obs now (fun _ _ => rfl) fun _ _ => rfl
  | some =>
    exact h.updateForecast obs now (fun _ hk => lookup_insert_ne hk) fun _ _ => rfl

theorem Charged.forget (key obs now) : Charged (g.forget key l obs now).1 (g.forget key l obs now).2 :=
  h.updateForecast obs now (fun _ hk => lookup_erase_ne hk) fun _ hk =>
    lookup_erase_ne hk

theorem Charged.chargeProvisional (key cost obs now) :
    Charged (g.chargeProvisional key cost l obs now).1 (g.chargeProvisional key cost l obs now).2 :=
  h.updateForecast obs now (fun _ _ => rfl) fun _ => lookup_insert_ne

theorem Charged.clearProvisional (key obs now) :
    Charged (g.clearProvisional key l obs now).1 (g.clearProvisional key l obs now).2 :=
  h.updateForecast obs now (fun _ _ => rfl) fun _ => lookup_erase_ne

theorem Charged.foldl_record (items obs now) :
    let result := items.foldl (fun (r : Growth × Ledger) item =>
      r.1.record item.1 item.2 r.2 obs now) (g, l)
    Charged result.1 result.2 ∧
      ∀ o, result.1.intents.lookup o = lastWritten items o (g.intents.lookup o) := by
  induction items generalizing g l with
  | nil => exact ⟨h,fun _ => rfl⟩
  | cons item items ih =>
    obtain ⟨key,intent⟩ := item
    obtain ⟨hfinal,hlook⟩ := ih (h.record key intent obs now)
    refine ⟨hfinal,fun o => (hlook o).trans ?_⟩
    rw [intents_record]
    by_cases hk : o = key
    · subst hk
      rw [lastWritten_cons_self]
      cases intent <;> simp
    · rw [lastWritten_cons_ne hk]
      cases intent with
      | none => rfl
      | some => rw [Option.elim_some,lookup_insert_ne hk]

theorem Charged.foldl_forget (keys : List Owner) (obs now) :
    let result := keys.foldl (fun (r : Growth × Ledger) key => r.1.forget key r.2 obs now) (g, l)
    Charged result.1 result.2 ∧
      ∀ o, result.1.intents.lookup o = if o ∈ keys then none else g.intents.lookup o := by
  induction keys generalizing g l with
  | nil => exact ⟨h,fun _ => by simp⟩
  | cons key keys ih =>
    obtain ⟨hfinal,hlook⟩ := ih (h.forget key obs now)
    refine ⟨hfinal,fun o => (hlook o).trans ?_⟩
    by_cases hk : o = key
    · subst hk
      simp
    · simp [hk]

end

private theorem Charged.foldl_erase (obs now) (stale : List Owner) (h : Charged g l) :
    let result := stale.foldl (fun (s : Growth × Ledger) key =>
      let g := { s.1 with intents := s.1.intents.erase key }
      g.updateForecast key s.2 obs now) (g, l)
    Charged result.1 result.2 ∧
      ∀ o, result.1.intents.lookup o = if o ∈ stale then none else g.intents.lookup o := by
  induction stale generalizing g l with
  | nil => exact ⟨h,fun _ => by simp⟩
  | cons k stale ih =>
    let erased : Growth := { g with intents := g.intents.erase k }
    have hchg : Charged (erased.updateForecast k l obs now).1 (erased.updateForecast k l obs now).2 :=
      h.updateForecast obs now (fun _ hk => lookup_erase_ne hk) fun _ _ => rfl
    obtain ⟨hfinal,hlook⟩ := ih hchg
    refine ⟨hfinal,fun o => (hlook o).trans ?_⟩
    rw [(updateForecast_spec erased k l obs now).1]
    by_cases hk : o = k
    · subst hk
      simp [erased]
    · simp [hk,erased]

theorem Charged.retain (h : Charged g l) (keep obs) (now) :
    let result := g.retain keep l obs now
    Charged result.1 result.2 ∧
      ∀ o, result.1.intents.lookup o = if keep o then g.intents.lookup o else none := by
  obtain ⟨hchg,hlook⟩ := h.foldl_erase obs now (g.intents.keys.filter (!keep ·))
  refine ⟨hchg,fun o => (hlook o).trans ?_⟩
  by_cases hkeep : keep o = true
  · simp [hkeep]
  by_cases ho : o ∈ g.intents
  · simp [hkeep,mem_keys.mp ho]
  · simp [lookup_eq_none.mpr ho]

private theorem lookup_foldl_updateForecast (obs) (now) (keys : List Owner)
    (g : Growth) (l : Ledger) (o) :
    (keys.foldl (fun s key => s.1.updateForecast key s.2 obs now) (g, l)).2.growth.lookup o =
      if o ∈ keys then g.forecastCost o obs now else l.growth.lookup o := by
  induction keys generalizing g l with
  | nil => simp
  | cons k keys ih =>
    obtain ⟨hints,hprov,hled⟩ := updateForecast_spec g k l obs now
    have hsame : (g.updateForecast k l obs now).1.forecastCost o obs now = g.forecastCost o obs now :=
      forecastCost_congr (by rw [hints]) (by rw [hprov]) obs now
    rw [List.foldl_cons,ih,hsame,hled,Ledger.lookup_setGrowthForecast]
    by_cases hk : o = k
    · simp [hk]
    · simp [hk]

section
variable (g : Growth) (l : Ledger) (obs : Observations) (now : Rat)

theorem lookup_refreshForecasts (o)
    : (g.refreshForecasts l obs now).2.growth.lookup o = g.forecastCost o obs now := by
  rw [refreshForecasts,lookup_foldl_updateForecast]
  split
  · rfl
  rename_i ho
  simp only [keys,List.mem_dedup,List.mem_append,not_or] at ho
  have hint : g.intents.lookup o = none := lookup_eq_none.mpr ho.1
  have hprov : g.provisional.lookup o = none := lookup_eq_none.mpr ho.2
  rw [l.setGrowthForecasts_nil.2.2 o]
  simp [forecastCost,active,hint,hprov]

theorem charged_refreshForecasts :
    Charged (g.refreshForecasts l obs now).1 (g.refreshForecasts l obs now).2 := by
  intro o
  refine ⟨obs,now,?_⟩
  obtain ⟨-,hints,hprov,-⟩ := refreshForecasts_spec g l obs now
  rw [lookup_refreshForecasts]
  exact (forecastCost_congr (by rw [hints]) (by rw [hprov]) obs now).symm

end

theorem Charged.currentForecasts (h : Charged g l) (obs now) :
    Charged (g.currentForecasts l obs now).1 (g.currentForecasts l obs now).2 := by
  unfold Growth.currentForecasts
  split
  · exact charged_refreshForecasts g l obs now
  · exact h

end Growth
end UCloudSandboxes.Admission
