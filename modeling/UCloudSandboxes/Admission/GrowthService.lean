import UCloudSandboxes.Registry.NodeRegistry
import UCloudSandboxes.Admission.Forecasts

/-! Managed growth over its durable rows: writers commit in the registry under the turns of their
keys and publish in memory afterwards, while resident passes prune the memory. -/
namespace UCloudSandboxes.Admission
open Machine AList Option
open Registry (GrowthAction RegistryError Result NodeRegistry Operation)

structure Step where
  key : Owner
  action : GrowthAction
  jobId : String := ""
  launchSha256 : String := ""
  requestId : String := ""
  deriving DecidableEq

def Step.arguments (step : Step) : String × Registry.GrowthStep :=
  (step.key.1, ⟨step.key.2, step.action, step.jobId, step.launchSha256, step.requestId⟩)

def Step.inRange (step : Step) : Bool := step.key.2 < 2 ^ 63

def outOfRange : RegistryError := .invalid "growth intent generation is out of range"

/-- `GrowthStore::growth_intent`; `refused` is a write that SQLite failed. -/
def growthIntent (registry : NodeRegistry) (step : Step) (refused : Bool) :
    Result (NodeRegistry × Option GrowthIntent) :=
  if !step.inRange then .error outOfRange
  else if refused then .error .unreadable
  else registry.growthIntent step.arguments.1 step.arguments.2

/-- `GrowthStore::growth_steps`: one generation out of range fails the whole batch. -/
def growthSteps (registry : NodeRegistry) (steps : List Step) (refused : Bool) :
    Result (NodeRegistry × List (Result (Option GrowthIntent))) :=
  if !steps.all Step.inRange then .error outOfRange
  else if refused then .error .unreadable
  else registry.growthIntentSteps (steps.map Step.arguments)

inductive EventAction where
  | park
  | wait
  | activate
  | terminal
  | bind
  | forget
  deriving DecidableEq

def EventAction.growthAction : EventAction → Option GrowthAction
  | .park => some .park
  | .wait => some .wait
  | .activate => some .activate
  | .terminal => some .terminal
  | .bind => some .bind
  | .forget => none

structure GrowthEvent where
  owner : Owner
  action : EventAction
  jobId : String := ""
  launchSha256 : String := ""
  requestId : String := ""
  deriving DecidableEq

structure OwnerRecord where
  owned : Bool
  managed : Bool
  deriving DecidableEq

/-- The step of an item whose sandbox is owned and managed; any other item answers without one. -/
def GrowthEvent.step? (records : String → Option OwnerRecord) (event : GrowthEvent) : Option Step :=
  match event.action.growthAction, records event.owner.1 with
  | some action, some ⟨true, true⟩ =>
    some ⟨event.owner, action, event.jobId, event.launchSha256, event.requestId⟩
  | _, _ => none

inductive WriterKind where
  | transition
  | admission
  | events
  deriving DecidableEq

inductive WriterStage where
  | admitting
  | queued
  /-- Holds its turns: the store answered each step, and nothing is published yet. -/
  | committed (intents : List (Option GrowthIntent))
  | settling
  deriving DecidableEq

structure Writer where
  kind : WriterKind
  steps : List Step
  forgets : List Owner := []
  stage : WriterStage := .queued
  deriving DecidableEq

namespace Writer

def keys (w : Writer) : List Owner := w.steps.map Step.key ++ w.forgets

def holds (w : Writer) (key : Owner) : Bool :=
  match w.stage with
  | .committed _ => key ∈ w.keys
  | _ => false

/-- Each step's key with the intent to publish for it; a failed step publishes none. -/
def items (w : Writer) : List (Owner × Option GrowthIntent) :=
  match w.stage with
  | .committed intents => (w.steps.map Step.key).zip intents
  | _ => []

end Writer

structure GrowthService where
  growth : Growth
  ledger : Ledger
  registry : NodeRegistry
  writers : AList (fun _ : Nat => Writer) := ∅
  /-- A resident pass between reading the registrations (which may fail) and its lock section. -/
  pass : Option (Option (List Owner)) := none

namespace GrowthService

variable (s : GrowthService) (id : Nat) (w : Writer)

def turnFree (key : Owner) : Bool :=
  s.writers.entries.all fun entry => !entry.2.holds key

def idle : Bool := s.writers.entries.isEmpty && s.pass.isNone

def withGrowth (op : Growth → Ledger → Growth × Ledger) : GrowthService :=
  let result := op s.growth s.ledger
  { s with growth := result.1, ledger := result.2 }

def setWriter : GrowthService :=
  { s with writers := s.writers.insert id w }

def dropWriter : GrowthService :=
  { s with writers := s.writers.erase id }

/-- A continuation an intent covers revokes the park of its request; a launch writes nothing. -/
def fenceCovered (owner : Owner) (requestId : String) : GrowthService :=
  if requestId = "" then s
  else match s.registry.call owner.1 (.relayWakeFence owner.2 requestId true) with
    | some registry => { s with registry }
    | none => s

/-- The durable half of a writer that has its turns. A growth admission that fails has its charge
left to clear. -/
def commit (refused : Bool) : Option GrowthService :=
  match w.kind, w.steps with
  | .events, steps =>
    match growthSteps s.registry steps refused with
    | .ok (registry, answers) => some ({ s with registry }.setWriter id { w with
        stage := .committed (answers.map NodeRegistry.published) })
    | .error _ => some (s.setWriter id { w with stage := .committed (steps.map fun _ => none) })
  | kind, [step] =>
    match growthIntent s.registry step refused with
    | .ok (registry, intent) =>
      some ({ s with registry }.setWriter id { w with stage := .committed [intent] })
    | .error _ =>
      if kind = .admission then some (s.setWriter id { w with stage := .settling })
      else some (s.dropWriter id)
  | _, _ => none

def publish (obs : Observations) (now : Rat) : GrowthService :=
  s.withGrowth fun g l =>
    let recorded := w.items.foldl (fun (r : Growth × Ledger) item =>
      r.1.record item.1 item.2 r.2 obs now) (g, l)
    w.forgets.foldl (fun (r : Growth × Ledger) key => r.1.forget key r.2 obs now) recorded

def retain (keys : Option (List Owner)) (obs : Observations) (now : Rat) : GrowthService :=
  let retained := match keys with
    | some keys => s.withGrowth fun g l => g.retain (fun key => key ∈ keys) l obs now
    | none => s
  retained.withGrowth fun g l => g.refreshForecasts l obs now

inductive Event where
  | registry (sandboxId : String) (operation : Operation)
  | transition (id : Nat) (step : Step)
  | admission (id : Nat) (owner : Owner) (startup : Bool) (requestId jobId launchSha256 : String)
  | grant (id : Nat) (cost : Cost) (obs : Observations) (now : Rat)
  | refuse (id : Nat)
  | events (id : Nat) (events : List GrowthEvent) (records : String → Option OwnerRecord)
  | commit (id : Nat) (refused : Bool)
  | publish (id : Nat) (obs : Observations) (now : Rat)
  | settle (id : Nat) (obs : Observations) (now : Rat)
  | readKeys (readable : Bool)
  | residentPass (obs : Observations) (now : Rat)
  | forecasts (obs : Observations) (now : Rat)

def step (s : GrowthService) : Event → Option GrowthService
  | .registry sandboxId operation =>
    match operation with
    | .growthIntent _ => none
    | _ => (s.registry.call sandboxId operation).map fun registry => { s with registry }
  | .transition id step =>
    if id ∈ s.writers then none else some (s.setWriter id { kind := .transition, steps := [step] })
  | .admission id owner startup requestId jobId launchSha256 =>
    if id ∈ s.writers || !s.turnFree owner then none
    else match s.growth.covered owner startup requestId with
      | some _ => some (s.fenceCovered owner requestId)
      | none => some (s.setWriter id
          { kind := .admission
            steps := [⟨owner, .activate, jobId, launchSha256, requestId⟩]
            stage := .admitting })
  | .grant id cost obs now =>
    match s.writers.lookup id with
    | some ⟨kind, [step], forgets, .admitting⟩ =>
      some ((s.withGrowth fun g l => g.chargeProvisional step.key cost l obs now).setWriter id
        ⟨kind, [step], forgets, .queued⟩)
    | _ => none
  | .refuse id =>
    match s.writers.lookup id with
    | some ⟨_, _, _, .admitting⟩ => some (s.dropWriter id)
    | _ => none
  | .events id events records =>
    if id ∈ s.writers then none
    else some (s.setWriter id
      { kind := .events
        steps := events.filterMap (GrowthEvent.step? records)
        forgets := (events.filter (·.action = .forget)).map GrowthEvent.owner })
  | .commit id refused =>
    match s.writers.lookup id with
    | some w => if w.stage = .queued && w.keys.all s.turnFree then s.commit id w refused else none
    | none => none
  | .publish id obs now =>
    match s.writers.lookup id with
    | some w =>
      match w.stage with
      | .committed _ =>
        let published := s.publish w obs now
        if w.kind = .admission then some (published.setWriter id { w with stage := .settling })
        else some (published.dropWriter id)
      | _ => none
    | none => none
  | .settle id obs now =>
    match s.writers.lookup id with
    | some ⟨_, [step], _, .settling⟩ =>
      some ((s.withGrowth fun g l => g.clearProvisional step.key l obs now).dropWriter id)
    | _ => none
  | .readKeys readable =>
    if s.pass.isSome then none
    else some { s with pass := some (if readable then some s.registry.keys else none) }
  | .residentPass obs now =>
    match s.pass with
    | some keys => some { s.retain keys obs now with pass := none }
    | none => none
  | .forecasts obs now => some (s.withGrowth fun g l => g.currentForecasts l obs now)

/-- The service just opened: the rows of registered owners are in memory, charged without a sample. -/
def opened (registry : NodeRegistry) (obs : Observations) (now : Rat) : GrowthService :=
  let intents := registry.growthIntents.filter fun intent => intent.key ∈ registry.keys
  let refreshed := (Growth.new intents).refreshForecasts {} obs now
  { growth := refreshed.1, ledger := refreshed.2, registry }

def Start : Prop :=
  ∃ registry obs now,
    (∀ sandboxId, Reaches Registry.Entry.step anyEvent (· = { sandboxId })
      (NodeRegistry.entry registry sandboxId)) ∧
    s = opened registry obs now

end GrowthService

open Writer

namespace Writer

theorem items_eq_nil {w : Writer} (h : ∀ intents, w.stage ≠ .committed intents) : w.items = [] := by
  unfold items
  split
  · rename_i intents hstage
    exact absurd hstage (h intents)
  · rfl

theorem holds_of_items {w : Writer} {owner i} (h : (owner, i) ∈ w.items) : w.holds owner = true := by
  unfold items at h
  unfold holds
  cases hstage : w.stage with
  | committed =>
    rw [hstage] at h
    exact decide_eq_true (List.mem_append_left _ (List.of_mem_zip h).1)
  | admitting | queued | settling =>
    rw [hstage] at h
    cases h

end Writer

namespace GrowthService

def Unpublished (s : GrowthService) (owner : Owner) (i : GrowthIntent) : Prop :=
  ∃ id w, s.writers.lookup id = some w ∧ lastWritten w.items owner none = some i

variable {s : GrowthService}

theorem not_unpublished_of_turnFree {owner} (h : s.turnFree owner = true) (i) :
    ¬ s.Unpublished owner i := by
  rintro ⟨id,w,hw,hi⟩
  have hfree := List.all_eq_true.mp h ⟨id,w⟩ (mem_lookup_iff.mp hw)
  simp [holds_of_items (mem_of_lastWritten hi)] at hfree

section Writers
variable {s s' : GrowthService} {id : Nat}

theorem Unpublished.frame {owner i} (h : s.Unpublished owner i)
    (hother : ∀ id', id' ≠ id → s'.writers.lookup id' = s.writers.lookup id')
    (hnone : ∀ w, s.writers.lookup id = some w → w.items = []) : s'.Unpublished owner i := by
  obtain ⟨id',w,hw,hi⟩ := h
  have hid : id' ≠ id := by
    rintro rfl
    rw [hnone w hw] at hi
    cases hi
  exact ⟨id',w,(hother id' hid).trans hw,hi⟩

theorem lookup_setWriter_ne {id'} (h : id' ≠ id) (w) :
    (s.setWriter id w).writers.lookup id' = s.writers.lookup id' :=
  lookup_insert_ne h

theorem items_of_setWriter {w w'} (hnew : w.items = [])
    (h : (s.setWriter id w).writers.lookup id = some w') : w'.items = [] := by
  rw [setWriter,lookup_insert] at h
  exact some.inj h ▸ hnew

theorem items_of_dropWriter {w} (h : (s.dropWriter id).writers.lookup id = some w) : w.items = [] := by
  rw [dropWriter,lookup_erase] at h
  cases h

end Writers

structure Quiet (s s' : GrowthService) : Prop where
  registry : s'.registry = s.registry
  intents : s'.growth.intents = s.growth.intents
  charged : s.growth.Charged s.ledger → s'.growth.Charged s'.ledger
  unpublished : ∀ owner i, s'.Unpublished owner i ↔ s.Unpublished owner i

theorem quiet_withGrowth {op} (hints : (op s.growth s.ledger).1.intents = s.growth.intents)
    (hchg : s.growth.Charged s.ledger → (op s.growth s.ledger).1.Charged (op s.growth s.ledger).2) :
    s.Quiet (s.withGrowth op) :=
  ⟨rfl,hints,hchg,fun _ _ => .rfl⟩

theorem Quiet.writers {t ws} (h : s.Quiet t) {id}
    (hother : ∀ id', id' ≠ id → ws.lookup id' = t.writers.lookup id')
    (hold : ∀ w, t.writers.lookup id = some w → w.items = [])
    (hnew : ∀ w, ws.lookup id = some w → w.items = []) : s.Quiet { t with writers := ws } where
  registry := h.registry
  intents := h.intents
  charged := h.charged
  unpublished owner i := by
    rw [← h.unpublished owner i]
    exact ⟨fun hu => hu.frame (fun id' hid => (hother id' hid).symm) hnew,
      fun hu => hu.frame hother hold⟩

theorem Quiet.setWriter {t} (h : s.Quiet t) {id w}
    (hold : ∀ w, t.writers.lookup id = some w → w.items = []) (hnew : w.items = []) :
    s.Quiet (t.setWriter id w) :=
  h.writers (fun _ hid => lookup_setWriter_ne hid w) hold fun _ => items_of_setWriter hnew

theorem Quiet.dropWriter {t} (h : s.Quiet t) {id}
    (hold : ∀ w, t.writers.lookup id = some w → w.items = []) : s.Quiet (t.dropWriter id) :=
  h.writers (fun _ hid => lookup_erase_ne hid) hold fun _ => items_of_dropWriter

theorem Quiet.refl (s : GrowthService) : s.Quiet s := ⟨rfl,rfl,id,fun _ _ => .rfl⟩

inductive Effect (s : GrowthService) (e : Event) : GrowthService → Prop
  | quiet {s'} : s.Quiet s' → Effect s e s'
  /-- Only a call of its own registers an import; a covered continuation's call is a wake fence. -/
  | called {sandboxId operation registry} :
      (∀ step, operation ≠ .growthIntent step) →
      ((∃ candidate migration full, operation = .planImport candidate migration full) →
        e = .registry sandboxId operation) →
      s.registry.call sandboxId operation = some registry → Effect s e { s with registry }
  | committed {id w registry intents} :
      s.writers.lookup id = some w → w.items = [] → (∀ key ∈ w.keys, s.turnFree key = true) →
      s.registry.Written registry ((w.steps.map Step.key).zip intents) →
      Effect s e ({ s with registry }.setWriter id { w with stage := .committed intents })
  | published {id w obs now s'} :
      e = .publish id obs now → s.writers.lookup id = some w → s'.registry = s.registry →
      s'.growth = (s.publish w obs now).growth → s'.ledger = (s.publish w obs now).ledger →
      (∀ id', id' ≠ id → s'.writers.lookup id' = s.writers.lookup id') →
      (∀ w, s'.writers.lookup id = some w → w.items = []) → Effect s e s'
  | pruned {keys obs now} :
      e = .residentPass obs now → s.pass = some keys →
      Effect s e { s.retain keys obs now with pass := none }

theorem effect_commit {s'} (e) {id w refused} (hs : s.registry.Sound)
    (hw : s.writers.lookup id = some w) (hqd : w.stage = .queued)
    (hfree : ∀ key ∈ w.keys, s.turnFree key = true) (h : s.commit id w refused = some s') :
    s.Effect e s' := by
  have hitems : w.items = [] := items_eq_nil fun intents hstage => by simp [hqd] at hstage
  have hold : ∀ w', s.writers.lookup id = some w' → w'.items = [] := by
    intro w' hw'
    obtain rfl : w = w' := some.inj (hw.symm.trans hw')
    exact hitems
  unfold commit at h
  split at h
  · -- A batch, refused as a whole or answered item by item.
    split at h
    · rename_i registry answers hok
      cases h
      refine .committed hw hitems hfree ?_
      unfold growthSteps at hok
      split_ifs at hok
      have hwr := NodeRegistry.growthIntentSteps_spec hs hok
      rwa [NodeRegistry.publications,List.map_map] at hwr
    · cases h
      refine .committed hw hitems hfree (show s.registry.Written s.registry _ from ?_)
      have hrefd := NodeRegistry.Written.refused hs (w.steps.map Step.key)
      rw [List.map_map] at hrefd
      rwa [List.zip_map']
  · rename_i kind step hsteps hkind
    split at h
    · rename_i registry intent hok
      cases h
      refine .committed hw hitems hfree ?_
      rw [hsteps]
      unfold growthIntent at hok
      split_ifs at hok
      exact NodeRegistry.growthIntent_spec hs hok
    · split at h
      · cases h
        exact .quiet ((Quiet.refl s).setWriter hold (items_eq_nil nofun))
      · cases h
        exact .quiet ((Quiet.refl s).dropWriter hold)
  · cases h

theorem effect_of_step {s' e} (hs : s.registry.Sound) (h : s.step e = some s') : s.Effect e s' := by
  have hnew {id : Nat} (hid : id ∉ s.writers) : ∀ w, s.writers.lookup id = some w → w.items = [] := by
    intro w hw
    rw [lookup_eq_none.mpr hid] at hw
    cases hw
  have hold {id : Nat} {w : Writer} (hw : s.writers.lookup id = some w) (hitems : w.items = []) :
      ∀ w, s.writers.lookup id = some w → w.items = [] := by
    intro w' hw'
    exact some.inj (hw.symm.trans hw') ▸ hitems
  cases e with
  | registry =>
    simp only [step] at h
    split at h
    · cases h
    rename_i hgw
    obtain ⟨registry,hcall,rfl⟩ := map_eq_some_iff.mp h
    exact .called (fun step => hgw step) (fun _ => rfl) hcall
  | transition id step =>
    obtain ⟨hid,rfl⟩ := some_of_guard h
    exact .quiet ((Quiet.refl s).setWriter (hnew hid) (items_eq_nil nofun))
  | admission =>
    obtain ⟨hfree,h⟩ := of_guard h nofun
    simp only [Bool.or_eq_true,decide_eq_true_eq,not_or] at hfree
    split at h
    · cases h
      unfold fenceCovered
      split
      · exact .quiet (.refl s)
      split
      · rename_i registry hcall
        exact .called (by simp) (by simp) hcall
      · exact .quiet (.refl s)
    · cases h
      exact .quiet ((Quiet.refl s).setWriter (hnew hfree.1) (items_eq_nil nofun))
  | grant id cost obs now =>
    simp only [step] at h
    split at h
    · rename_i kind step forgets hw
      cases h
      refine .quiet (Quiet.setWriter (quiet_withGrowth ?_ ?_) (hold hw (items_eq_nil nofun))
        (items_eq_nil nofun))
      · exact Growth.intents_chargeProvisional ..
      · exact fun hchg => hchg.chargeProvisional step.key cost obs now
    · cases h
  | refuse =>
    simp only [step] at h
    split at h
    · rename_i kind steps forgets hw
      cases h
      exact .quiet ((Quiet.refl s).dropWriter (hold hw (items_eq_nil nofun)))
    · cases h
  | events =>
    obtain ⟨hid,rfl⟩ := some_of_guard h
    exact .quiet ((Quiet.refl s).setWriter (hnew hid) (items_eq_nil nofun))
  | commit =>
    simp only [step] at h
    split at h
    · rename_i w hw
      obtain ⟨hready,h⟩ := of_check h nofun
      simp only [Bool.and_eq_true,decide_eq_true_eq,List.all_eq_true] at hready
      exact effect_commit _ hs hw hready.1 hready.2 h
    · cases h
  | publish =>
    simp only [step] at h
    split at h
    · rename_i w hw
      split at h
      · split at h
        · cases h
          exact .published rfl hw rfl rfl rfl (fun _ hid => lookup_setWriter_ne hid _)
            fun _ => items_of_setWriter rfl
        · cases h
          exact .published rfl hw rfl rfl rfl (fun _ => lookup_erase_ne)
            fun _ => items_of_dropWriter
      · cases h
    · cases h
  | settle id obs now =>
    simp only [step] at h
    split at h
    · rename_i kind step forgets hw
      cases h
      refine .quiet (Quiet.dropWriter (quiet_withGrowth ?_ ?_) (hold hw (items_eq_nil nofun)))
      · exact Growth.intents_clearProvisional ..
      · exact fun hchg => hchg.clearProvisional step.key obs now
    · cases h
  | readKeys =>
    simp only [step] at h
    split at h
    · cases h
    · cases h
      exact .quiet ⟨rfl,rfl,id,fun _ _ => .rfl⟩
  | residentPass =>
    simp only [step] at h
    split at h
    · rename_i keys hkeys
      cases h
      exact .pruned rfl hkeys
    · cases h
  | forecasts obs now =>
    cases h
    refine .quiet (quiet_withGrowth ?_ fun hchg => hchg.currentForecasts obs now)
    unfold Growth.currentForecasts
    split
    · exact (Growth.refreshForecasts_spec ..).intents
    · rfl

end GrowthService
end UCloudSandboxes.Admission
