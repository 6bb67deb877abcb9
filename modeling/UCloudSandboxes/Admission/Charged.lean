import UCloudSandboxes.Admission.Headroom

namespace UCloudSandboxes.Admission
open Machine Growth State Example List

/-- Every granted growth whose commit is in flight is charged at least what was granted. -/
def Charged (s : State) : Prop :=
  ∀ a ∈ s.growing, a.phase = .inFlight → ∀ r, (a.cost.get r).getD 0 ≤
    max (s.ledger.forecast r a.owner) (s.ledger.claimed r a.owner)

def State.committing (s : State) (owner : Owner) : Bool :=
  s.growing.any fun a => a.phase = .inFlight && a.owner = owner

/-- A growth is granted only to an owner without an unsettled admission or a running primary; while
its commit is in flight nobody else activates or forgets it. -/
def growsAlone (config : Config) (s : State) : Event → Bool
  | .pass a metrics obs refreshNow now =>
    match a.grant with
    | .hold .. => true
    | .growth _ => (s.pass config a metrics obs refreshNow now).2 ≠ some .grant ||
        (s.growing.all (·.owner ≠ a.owner) && (s.growth.active a.owner).isNone)
  | .record key intent _ _ => !(intent.any (·.phase = .active) && s.committing key)
  | .forget key _ _ => !s.committing key
  | _ => true

def Alone (config : Config) (s : State) (e : Event) : Prop := growsAlone config s e = true

instance (config : Config) (s : State) (e : Event) : Decidable (Alone config s e) :=
  inferInstanceAs (Decidable (_ = true))

/-- An uncommitted admission is its owner's only one and owns the provisional charge. -/
structure Inv (s : State) : Prop where
  agrees : Agrees s.growth s.ledger
  distinct : (s.growing.map (·.owner)).Nodup
  provisional : ∀ a ∈ s.growing, a.phase = .inFlight →
    s.growth.provisional.lookup a.owner = some a.cost ∧ s.growth.active a.owner = none

namespace Inv

variable {s : State} {obs : Observations} {a : GrowthAdmission} {intent : Option GrowthIntent}

theorem charged (h : Inv s) : Charged s := by
  intro a ha hphase r
  obtain ⟨hprov,hact⟩ := h.provisional a ha hphase
  have hfor : s.ledger.forecast r a.owner = (a.cost.get r).getD 0 := by
    simp [Ledger.forecast,h.agrees a.owner hact,hprov]
  omega

theorem eq_of_owner (h : Inv s) {b} (ha : a ∈ s.growing) (hb : b ∈ s.growing)
    (hab : a.owner = b.owner) : a = b :=
  inj_on_of_nodup_map h.distinct ha hb hab

theorem keep {s'} (h : Inv s) (hagr : Agrees s'.growth s'.ledger)
    (hdist : (s'.growing.map (·.owner)).Nodup)
    (hgrow : ∀ a ∈ s'.growing, a.phase = .inFlight → a ∈ s.growing)
    (hprov : ∀ a ∈ s'.growing, a.phase = .inFlight → s'.growth.provisional.lookup a.owner =
      s.growth.provisional.lookup a.owner)
    (hact : ∀ a ∈ s'.growing, a.phase = .inFlight → s.growth.active a.owner = none →
      s'.growth.active a.owner = none) : Inv s' where
  agrees := hagr
  distinct := hdist
  provisional := fun a ha hphase => by
    obtain ⟨hp,hno⟩ := h.provisional a (hgrow a ha hphase) hphase
    exact ⟨(hprov a ha hphase).trans hp,hact a ha hphase hno⟩

theorem frame {s'} (h : Inv s) (hf : Frame s s') : Inv s' := by
  refine h.keep (hf.agrees h.agrees) (hf.growing ▸ h.distinct) (fun a ha _ => hf.growing ▸ ha)
    (fun a _ _ => by rw [hf.growth]) fun a _ _ hno => ?_
  rw [hf.growth]
  exact hno

theorem withGrowth (h : Inv s) {op}
    (hagr : Agrees (op s.growth s.ledger).1 (op s.growth s.ledger).2)
    (hprov : (op s.growth s.ledger).1.provisional = s.growth.provisional)
    (hact : ∀ o, s.growth.active o = none → (op s.growth s.ledger).1.active o = none) :
    Inv (s.withGrowth op) :=
  h.keep hagr h.distinct (fun _ ha _ => ha) (fun _ _ _ => congrArg _ hprov)
    fun a _ _ => hact a.owner

theorem refresh (h : Inv s) (obs now) : Inv (s.withGrowth fun g l => g.refreshForecasts l obs now) := by
  obtain ⟨hagr,hi,hp,_⟩ := refreshForecasts_spec s.growth s.ledger obs now
  exact h.withGrowth hagr hp fun o ho => (active_of_intents (congrArg _ hi)).trans ho

theorem not_committing {key} (h : s.committing key = false) (ha : a ∈ s.growing)
    (hphase : a.phase = .inFlight) : a.owner ≠ key := by
  intro he
  have : s.committing key = true :=
    any_eq_true.mpr ⟨a,ha,by simp [hphase,he]⟩
  simp [h] at this

theorem record (h : Inv s) {key now}
    (hother : intent.any (·.phase = .active) = true → s.committing key = false) :
    Inv (s.withGrowth fun g l => g.record key intent l obs now) := by
  refine h.keep (agrees_record key intent obs now h.agrees) h.distinct (fun _ ha _ => ha)
    (fun a _ _ => by simp [State.withGrowth]) fun a ha hphase hno => ?_
  by_cases hk : a.owner = key
  · cases hint : intent.any (·.phase = .active) with
    | false =>
      subst hk
      dsimp only [State.withGrowth]
      unfold active at hno ⊢
      rw [intents_record]
      -- A published intent that does not run keeps the owner's primary stopped.
      cases intent with
      | none => exact hno
      | some intent =>
        have hphase : ¬intent.phase = .active := by simpa using hint
        simp [hphase]
    | true => exact absurd hk (not_committing (hother hint) ha hphase)
  · refine (active_of_intents ?_).trans hno
    dsimp only [State.withGrowth]
    rw [intents_record]
    cases intent with
    | none => rfl
    | some => exact AList.lookup_insert_ne hk

theorem forget (h : Inv s) {key now} (hother : s.committing key = false) :
    Inv (s.withGrowth fun g l => g.forget key l obs now) := by
  refine h.keep (agrees_forget key obs now h.agrees) h.distinct (fun _ ha _ => ha)
    (fun a ha hphase => ?_) fun a ha hphase hno => ?_
  · have hk := not_committing hother ha hphase
    simp [State.withGrowth,hk]
  · have hk := not_committing hother ha hphase
    rw [← hno]
    apply active_of_intents
    simp [State.withGrowth,hk]

theorem grant (h : Inv s) {a t} (hg : a.grant = .growth t) (hnew : ∀ b ∈ s.growing, b.owner ≠ a.owner)
    (hact : s.growth.active a.owner = none) : Inv (s.granted a obs) := by
  have hgr : s.granted a obs = { s.withGrowth (fun g l => g.chargeProvisional a.owner a.cost l obs t) with
      growing := s.growing ++ [⟨a.owner, a.cost, a.demand, .inFlight⟩] } := by
    unfold granted
    rw [hg]
    rfl
  have hlook : ∀ o, (s.granted a obs).growth.provisional.lookup o =
      if o = a.owner then some a.cost else s.growth.provisional.lookup o := by
    intro o
    rw [hgr]
    by_cases ho : o = a.owner
    · subst ho
      simp [State.withGrowth]
    · simp [State.withGrowth,ho]
  have hsame : ∀ o, (s.granted a obs).growth.active o = s.growth.active o := by
    intro o
    rw [hgr]
    apply active_of_intents
    simp [State.withGrowth]
  refine ⟨agrees_granted a obs h.agrees,?_,fun b hb hphase => ?_⟩
  · rw [hgr]
    simp only [map_append]
    refine nodup_append.mpr ⟨h.distinct,nodup_singleton _,?_⟩
    rintro o ho o' ho' rfl
    obtain ⟨b,hb,rfl⟩ := mem_map.mp ho
    exact hnew b hb (mem_singleton.mp ho')
  · rw [hlook,hsame]
    rw [hgr] at hb
    rcases mem_append.mp hb with hb | hb
    · obtain ⟨hp,hno⟩ := h.provisional b hb hphase
      rw [if_neg (hnew b hb)]
      exact ⟨hp,hno⟩
    · obtain rfl := mem_singleton.mp hb
      exact ⟨if_pos rfl,hact⟩

theorem map_owner_setPhase (s : State) (demand phase) :
    (s.setPhase demand phase).growing.map (·.owner) = s.growing.map (·.owner) := by
  simp only [setPhase,map_map]
  refine map_congr_left fun a _ => ?_
  dsimp only [Function.comp]
  split <;> rfl

theorem setPhase (h : Inv s) {demand phase} (hphase : phase ≠ .inFlight) :
    Inv (s.setPhase demand phase) := by
  refine h.keep h.agrees (map_owner_setPhase s demand phase ▸ h.distinct) (fun a ha hin => ?_)
    (fun _ _ _ => rfl) fun _ _ _ hno => hno
  obtain ⟨b,hb,rfl⟩ := mem_map.mp ha
  by_cases hd : b.demand = demand
  · rw [if_pos hd] at hin
    exact absurd hin hphase
  · rwa [if_neg hd]

theorem publish (h : Inv s) (ha : a ∈ s.growing) (hphase : a.phase ≠ .inFlight) (intent obs now) :
    Inv ((s.withGrowth fun g l => g.record a.owner intent l obs now).setPhase a.demand .recorded) := by
  apply Inv.setPhase
  · refine h.record fun _ => ?_
    rw [State.committing,any_eq_false]
    intro b hb
    simp only [Bool.and_eq_true,decide_eq_true_eq,not_and]
    intro hin hab
    exact hphase (h.eq_of_owner ha hb hab.symm ▸ hin)
  · simp

theorem settle (h : Inv s) (ha : a ∈ s.growing) (hphase : a.phase ≠ .inFlight) (obs now) :
    let cleared := s.withGrowth fun g l => g.clearProvisional a.owner l obs now
    Inv { cleared with
      ledger := cleared.ledger.unwait a.demand
      growing := cleared.growing.filter (·.demand ≠ a.demand) } := by
  refine h.keep (agrees_clearProvisional a.owner obs now h.agrees)
    (h.distinct.sublist (filter_sublist.map _)) (fun b hb _ => (mem_filter.mp hb).1)
    (fun b hb hin => ?_) fun b _ _ hno => ?_
  · have hne : b.owner ≠ a.owner := fun hab =>
      hphase (h.eq_of_owner (mem_filter.mp hb).1 ha hab ▸ hin)
    simp [State.withGrowth,hne]
  · rw [← hno]
    apply active_of_intents
    simp [State.withGrowth]

theorem pass {config} (h : Inv s) {a metrics refreshNow now}
    (hok : Alone config s (.pass a metrics obs refreshNow now)) :
    Inv (s.pass config a metrics obs refreshNow now).1 := by
  obtain ⟨hagr,hints,hprov,hgrow,_⟩ :=
    refreshed_spec config a metrics obs refreshNow h.agrees
  have hfresh : Inv (s.refreshed config a metrics obs refreshNow) :=
    h.keep hagr (hgrow ▸ h.distinct) (fun _ hb _ => hgrow ▸ hb)
      (fun _ _ _ => congrArg _ hprov)
      fun b _ _ hno => (active_of_intents (congrArg _ hints)).trans hno
  rcases pass_cases config s a metrics obs refreshNow now with ⟨hs,_⟩ | ⟨hs,_⟩ | ⟨hs,hgrant,_⟩
  · rw [hs]
    exact h
  · rw [hs]
    exact hfresh
  · rw [hs]
    cases hg : a.grant with
    | hold token requested slot =>
      have : (s.refreshed config a metrics obs refreshNow).granted a obs =
          (s.refreshed config a metrics obs refreshNow).hold token a.holder a.owner a.cost
            (some requested) (some a.demand) slot := by
        unfold granted
        rw [hg]
      rw [this]
      exact hfresh.frame (frame_hold ..)
    | growth =>
      simp only [Alone,growsAlone,hg,hgrant,ne_eq,not_true_eq_false,decide_false,
        Bool.false_or,Bool.and_eq_true,all_eq_true,decide_not,Bool.not_eq_true',
        decide_eq_false_iff_not,Option.isNone_iff_eq_none] at hok
      refine hfresh.grant hg (fun b hb => hok.1 b (hgrow ▸ hb)) ?_
      rw [active_of_intents (congrArg _ hints)]
      exact hok.2

theorem step {config s' e} (h : Inv s) (hok : Alone config s e) (hs : step config s e = some s') :
    Inv s' := by
  unfold Admission.step at hs
  cases e with
  | demand | withdraw | endRecovery | setOpen =>
    cases hs
    exact h.frame ⟨rfl,rfl,rfl⟩
  | pass =>
    cases hs
    exact h.pass hok
  | observe | publication =>
    exact (some_of_check hs).2 ▸ h.frame (frame_hold ..)
  | release =>
    dsimp only at hs
    split at hs
    · exact (some_of_check hs).2 ▸ h.frame (frame_dropHeld ..)
    · cases hs
  | hello =>
    cases hs
    exact h.frame (frame_hello ..)
  | forecasts obs now =>
    cases hs
    obtain ⟨hagr,hi,hp,_⟩ := currentForecasts_spec obs now h.agrees
    exact h.withGrowth hagr hp fun o ho => (active_of_intents (congrArg _ hi)).trans ho
  | residentPass keep obs now =>
    cases hs
    cases keep with
    | none => exact h.refresh obs now
    | some keep =>
      obtain ⟨hagr,hp,hact⟩ := retain_spec keep obs now h.agrees
      exact (h.withGrowth hagr hp hact).refresh obs now
  | record =>
    cases hs
    refine h.record fun hact => ?_
    simpa [Alone,growsAlone,hact] using hok
  | forget =>
    cases hs
    refine h.forget ?_
    simpa [Alone,growsAlone] using hok
  | answer =>
    dsimp only at hs
    split at hs
    · cases hs
      exact h.setPhase (by simp)
    · cases hs
  | publish demand obs now =>
    dsimp only at hs
    split at hs
    · rename_i owner cost d intent hfind
      cases hs
      obtain rfl : d = demand := by simpa using find?_some hfind
      exact h.publish (mem_of_find?_eq_some hfind) (by simp) intent obs now
    · cases hs
  | settle demand obs now =>
    dsimp only at hs
    split at hs
    · rename_i owner cost d hfind
      cases hs
      obtain rfl : d = demand := by simpa using find?_some hfind
      exact h.settle (mem_of_find?_eq_some hfind) (by simp) obs now
    · rename_i owner cost d hfind
      cases hs
      obtain rfl : d = demand := by simpa using find?_some hfind
      exact h.settle (mem_of_find?_eq_some hfind) (by simp) obs now
    · cases hs

theorem start (h : Start s) : Inv s := by
  have hagr := agrees_start h
  obtain ⟨intents,obs,now,isOpen,revision,rfl⟩ := h
  exact ⟨hagr,nodup_nil,by simp⟩

end Inv

/-- While the admissions of one owner do not overlap, a granted growth is charged until its own
commit answers. -/
theorem growth_stays_charged (config : Config) (s : State)
    (hs : Reaches (step config) (Alone config) Start s) : Charged s :=
  (hs.invariant (fun _ => Inv.start) fun _ _ _ hinv hok => hinv.step hok : Inv s).charged

namespace Example

def growthQuote : Cost := growthCost .ram (512 * mib) .restore "request" none 0

def continuation (demand : Nat) : Admit where
  holder := .noded
  owner := ("old",1)
  requested := ⟨0,512,0⟩
  cost := growthQuote
  deadline := 10
  demand := demand
  grant := .growth 1

def admission (demand : Nat) : Event :=
  .pass (continuation demand) (some sample) observations 1 1

def one : List Event := [.endRecovery, .demand ("old",1) growthQuote, admission 1]

/-- Two continuations of one sandbox are admitted; the first one's commit fails and settles. -/
def two : List Event :=
  [.endRecovery, .demand ("old",1) growthQuote, .demand ("old",1) growthQuote, admission 1,
   admission 2, .answer 1 none, .settle 1 observations 2]

end Example

open Example

theorem growth_stays_charged_one : ∃ s, Reaches (step config) (Alone config) Start s ∧
      s.growing = [⟨("old",1),growthQuote,1,.inFlight⟩] ∧ Charged s := by
  obtain ⟨s,hs,hgrow⟩ := Reaches.exists_of_runMeeting (step config) (Alone config) opened_starts one
    (·.growing = [⟨("old",1),growthQuote,1,.inFlight⟩]) (by decide +kernel)
  exact ⟨s,hs,hgrow,growth_stays_charged config s hs⟩

/-- The first of two overlapping admissions of an owner clears the charge of the second. -/
theorem growth_uncharged_by_sibling : ∃ s, Reaches (step config) anyEvent Start s ∧
      s.growing = [⟨("old",1),growthQuote,2,.inFlight⟩] ∧ ¬ Charged s := by
  obtain ⟨s,hs,hgrow,hfor,hcla⟩ := Reaches.exists_of_run (step config) opened_starts two (fun s =>
    s.growing = [⟨("old",1),growthQuote,2,.inFlight⟩] ∧ s.ledger.forecast .memory ("old",1) = 0 ∧
      s.ledger.claimed .memory ("old",1) = 0) (by decide +kernel)
  refine ⟨s,hs,hgrow,fun hchg => ?_⟩
  have hle := hchg ⟨("old",1),growthQuote,2,.inFlight⟩ (by simp [hgrow]) rfl .memory
  rw [hfor,hcla] at hle
  exact absurd hle (by decide +kernel)

end UCloudSandboxes.Admission
