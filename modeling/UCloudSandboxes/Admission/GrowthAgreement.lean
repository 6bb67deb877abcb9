import UCloudSandboxes.Admission.GrowthService

namespace UCloudSandboxes.Admission.GrowthService
open Machine Growth Option Registry.Entry.Example AList
open Registry (NodeRegistry Operation)

structure Agree (s : GrowthService) : Prop where
  sound : s.registry.Sound
  charged : s.growth.Charged s.ledger
  pending : ∀ {owner i}, s.registry.registers owner = true → s.Unpublished owner i →
    s.registry.row owner = some i
  settled : ∀ {owner}, s.registry.registers owner = true → (∀ i, ¬ s.Unpublished owner i) →
    s.growth.intents.lookup owner = s.registry.row owner
  /-- What is kept of an owner that is gone belongs to a deleted incarnation. -/
  retired : ∀ {owner i}, s.registry.registers owner = false →
    s.Unpublished owner i ∨ s.growth.intents.lookup owner = some i → s.registry.Retired owner

namespace Agree

variable {s s' : GrowthService}

section
variable (h : s.Agree)
include h

theorem quiet (hq : s.Quiet s') : s'.Agree where
  sound := hq.registry ▸ h.sound
  charged := hq.charged h.charged
  pending hreg hu := by
    rw [hq.registry] at hreg ⊢
    exact h.pending hreg ((hq.unpublished _ _).mp hu)
  settled hreg hu := by
    rw [hq.registry] at hreg ⊢
    rw [hq.intents]
    exact h.settled hreg fun i hi => hu i ((hq.unpublished _ _).mpr hi)
  retired hreg hknown := by
    rw [hq.registry] at hreg ⊢
    rw [hq.intents,hq.unpublished] at hknown
    exact h.retired hreg hknown

theorem called {sandboxId operation registry}
    (hgw : ∀ step, operation ≠ .growthIntent step)
    (himp : ∀ {candidate migration full}, operation = .planImport candidate migration full →
      let owner := (sandboxId, candidate.sandboxGeneration)
      s.registry.registers owner = false →
        ∀ i, ¬ (s.Unpublished owner i ∨ s.growth.intents.lookup owner = some i))
    (hcall : s.registry.call sandboxId operation = some registry) : Agree { s with registry } := by
  have hcha := h.sound.change hcall hgw
  -- Nothing is kept of an owner the call registers: its generation is not retired, or it imports it.
  have hjoi {owner : Owner} (hreg : s.registry.registers owner = false)
      (hret : s.registry.Retired owner → ∃ candidate migration full,
        operation = .planImport candidate migration full ∧
        owner = (sandboxId, candidate.sandboxGeneration)) (i : GrowthIntent) :
      ¬ (s.Unpublished owner i ∨ s.growth.intents.lookup owner = some i) := by
    intro hknown
    obtain ⟨candidate,migration,full,hop,rfl⟩ := hret (h.retired hreg hknown)
    exact himp hop hreg i hknown
  refine ⟨h.sound.call hcall,h.charged,fun {owner i} hreg hu => ?_,fun {owner} hreg hu => ?_,
    fun {owner i} hreg hknown => ?_⟩
  · cases hcha owner with
    | kept hsame hrow =>
      rw [hsame] at hreg
      exact (hrow hreg).trans (h.pending hreg hu)
    | left _ hgone => rw [hgone] at hreg; cases hreg
    | joined hwas _ _ hret => exact absurd (.inl hu) (hjoi hwas hret i)
  · cases hcha owner with
    | kept hsame hrow =>
      rw [hsame] at hreg
      exact (h.settled hreg hu).trans (hrow hreg).symm
    | left _ hgone => rw [hgone] at hreg; cases hreg
    | joined hwas _ hrow hret =>
      rw [hrow]
      exact eq_none_iff_forall_ne_some.mpr fun i hi => hjoi hwas hret i (.inr hi)
  · cases hcha owner with
    | kept hsame =>
      rw [hsame] at hreg
      exact (h.retired hreg hknown).call hcall
    | left hwas _ hgone =>
      obtain hret | hrow := hgone
      · exact hret
      have hnone : ∀ j, ¬ s.Unpublished owner j := fun j hj =>
        absurd (hrow.symm.trans (h.pending hwas hj)) nofun
      rcases hknown with hu | hi
      · exact absurd hu (hnone i)
      · rw [h.settled hwas hnone,hrow] at hi
        cases hi
    | joined _ hnow => rw [hnow] at hreg; cases hreg

theorem committed {id w registry intents} (hw : s.writers.lookup id = some w)
    (hitems : w.items = []) (hfree : ∀ key ∈ w.keys, s.turnFree key = true)
    (hwr : s.registry.Written registry ((w.steps.map Step.key).zip intents)) :
    Agree ({ s with registry }.setWriter id { w with stage := .committed intents }) := by
  let items := (w.steps.map Step.key).zip intents
  let committing : GrowthService :=
    { s with registry }.setWriter id { w with stage := .committed intents }
  have hunp (owner : Owner) (i : GrowthIntent) : committing.Unpublished owner i ↔
      lastWritten items owner none = some i ∨ s.Unpublished owner i := by
    constructor
    · rintro ⟨id',w',hw',hi⟩
      by_cases hid : id' = id
      · subst hid
        rw [show committing.writers.lookup id' = _ from lookup_insert _] at hw'
        obtain rfl := some.inj hw'
        exact .inl hi
      · exact .inr ⟨id',w',(lookup_setWriter_ne hid _).symm.trans hw',hi⟩
    · rintro (hi | hu)
      · exact ⟨id,_,lookup_insert _,hi⟩
      · refine hu.frame (fun _ hid => lookup_setWriter_ne hid _) fun w' hw' => ?_
        exact some.inj (hw.symm.trans hw') ▸ hitems
  have hother {owner : Owner} {i : GrowthIntent} (hu : s.Unpublished owner i) :
      lastWritten items owner none = none := by
    refine eq_none_iff_forall_ne_some.mpr fun j hj => ?_
    have hkey := (List.of_mem_zip (mem_of_lastWritten hj)).1
    exact not_unpublished_of_turnFree (hfree owner (List.mem_append_left _ hkey)) i hu
  have hrow {owner : Owner} (hreg : registry.registers owner = true) :
      registry.row owner = (lastWritten items owner none).or (s.registry.row owner) := by
    rw [hwr.row owner (hwr.registers owner ▸ hreg),lastWritten_eq_or]
  refine ⟨hwr.sound,h.charged,fun {owner i} hreg hu => ?_,fun {owner} hreg hu => ?_,
    fun {owner i} hreg hknown => ?_⟩
  · refine (hrow hreg).trans ?_
    obtain hi | hu := (hunp owner i).mp hu
    · rw [hi,some_or]
    · rw [hother hu]
      exact h.pending (hwr.registers owner ▸ hreg) hu
  · have hnone : lastWritten items owner none = none :=
      eq_none_iff_forall_ne_some.mpr fun i hi => hu i ((hunp owner i).mpr (.inl hi))
    refine (h.settled (hwr.registers owner ▸ hreg) fun i hi =>
      hu i ((hunp owner i).mpr (.inr hi))).trans ?_
    exact ((hrow hreg).trans (by rw [hnone,none_or])).symm
  · have hwas : s.registry.registers owner = false := (hwr.registers owner).symm.trans hreg
    rw [hunp] at hknown
    obtain (hi | hu) | hi := hknown
    · rw [hwr.owned owner i (mem_of_lastWritten hi)] at hwas
      cases hwas
    · exact (hwr.retired owner).mpr (h.retired hwas (.inl hu))
    · exact (hwr.retired owner).mpr (h.retired hwas (.inr hi))

theorem published {id w obs now} (hw : s.writers.lookup id = some w)
    (hforg : ∀ owner ∈ w.forgets, s.registry.registers owner = false)
    (hregi : s'.registry = s.registry) (hgw : s'.growth = (s.publish w obs now).growth)
    (hled : s'.ledger = (s.publish w obs now).ledger)
    (hother : ∀ id', id' ≠ id → s'.writers.lookup id' = s.writers.lookup id')
    (hitems : ∀ w, s'.writers.lookup id = some w → w.items = []) : s'.Agree := by
  obtain ⟨hrec,hreco⟩ := h.charged.foldl_record w.items obs now
  obtain ⟨hchg,hforget⟩ := hrec.foldl_forget w.forgets obs now
  have hints (owner : Owner) : s'.growth.intents.lookup owner =
      if owner ∈ w.forgets then none
      else (lastWritten w.items owner none).or (s.growth.intents.lookup owner) := by
    rw [hgw,← lastWritten_eq_or]
    exact (hforget owner).trans (by rw [hreco owner])
  have hunp {owner : Owner} {i : GrowthIntent} (hu : s'.Unpublished owner i) :
      s.Unpublished owner i := hu.frame (fun id' hid => (hother id' hid).symm) hitems
  refine ⟨hregi ▸ h.sound,?_,fun {owner i} hreg hu => ?_,fun {owner} hreg hu => ?_,
    fun {owner i} hreg hknown => ?_⟩
  · rw [hgw,hled]
    exact hchg
  · rw [hregi] at hreg ⊢
    exact h.pending hreg (hunp hu)
  · rw [hregi] at hreg ⊢
    have hkept : owner ∉ w.forgets := fun hmem => by simp [hforg owner hmem] at hreg
    rw [hints,if_neg hkept]
    cases hlast : lastWritten w.items owner none with
    | some => exact (h.pending hreg ⟨id,w,hw,hlast⟩).symm
    | none =>
      refine h.settled hreg fun i ⟨id',w',hw',hi⟩ => hu i ⟨id',w',?_,hi⟩
      have hid : id' ≠ id := by
        rintro rfl
        rw [← some.inj (hw.symm.trans hw'),hlast] at hi
        cases hi
      exact (hother id' hid).trans hw'
  · rw [hregi] at hreg ⊢
    refine h.retired (i := i) hreg ?_
    obtain hu | hi := hknown
    · exact .inl (hunp hu)
    rw [hints] at hi
    split at hi
    · cases hi
    obtain hlast | ⟨-,hi⟩ := or_eq_some_iff.mp hi
    · exact .inl ⟨id,w,hw,hlast⟩
    · exact .inr hi

theorem retained {keep} (obs now)
    (hkeep : ∀ owner ∈ s.growth.intents.keys, s.registry.registers owner = true →
      keep owner = true) : Agree (s.withGrowth fun g l => g.retain keep l obs now) := by
  obtain ⟨hchg,hlook⟩ := h.charged.retain keep obs now
  refine ⟨h.sound,hchg,h.pending,fun {owner} hreg hu => ?_, fun {owner i} hreg hknown => ?_⟩
  · refine ((hlook owner).trans ?_).trans (h.settled hreg hu)
    by_cases hmem : owner ∈ s.growth.intents
    · rw [if_pos (hkeep owner (mem_keys.mp hmem) hreg)]
    · rw [lookup_eq_none.mpr hmem,ite_self]
  · refine h.retired (i := i) hreg (hknown.imp_right fun hi => ?_)
    have hkept := (hlook owner).symm.trans hi
    split at hkept
    · exact hkept
    · cases hkept

theorem pruned {keys} (obs now)
    (hkeys : ∀ read, keys = some read → ∀ owner ∈ s.growth.intents.keys,
      s.registry.registers owner = true → owner ∈ read) :
    Agree { s.retain keys obs now with pass := none } := by
  have href {t : GrowthService} (ht : t.Agree) :
      Agree (t.withGrowth fun g l => g.refreshForecasts l obs now) :=
    ht.quiet (quiet_withGrowth (refreshForecasts_spec ..).intents fun _ =>
      charged_refreshForecasts _ _ obs now)
  have hreta : Agree (s.retain keys obs now) := by
    cases keys with
    | none => exact href h
    | some read =>
      refine href (h.retained obs now fun owner hmem hreg => ?_)
      exact decide_eq_true (hkeys read rfl owner hmem hreg)
  exact hreta.quiet ⟨rfl,rfl,id,fun _ _ => .rfl⟩

end

end Agree

theorem row_eq_some_iff {registry : NodeRegistry} (hs : registry.Sound) {owner}
    (hreg : registry.registers owner = true) {i} :
    registry.row owner = some i ↔ i ∈ registry.growthIntents ∧ i.key = owner := by
  rw [hs.row_of_registers hreg,NodeRegistry.mem_growthIntents]
  constructor
  · intro hi
    obtain ⟨registration,hr,hg⟩ := Registry.Entry.registers_iff.mp hreg
    obtain ⟨hid,hgen⟩ := (hs.rowOwned owner.1).keyedBy hr i hi
    refine ⟨⟨owner.1,hi⟩,Prod.ext (hid.trans (hs.sandboxId owner.1)) ?_⟩
    rw [GrowthIntent.key,hgen,hg,Int.toNat_natCast]
  · rintro ⟨⟨sandboxId,hi⟩,rfl⟩
    have hid : i.sandboxId = sandboxId :=
      ((hs.rowOwned sandboxId) i hi).1.trans (hs.sandboxId sandboxId)
    rw [GrowthIntent.key,hid]
    exact hi

theorem agree_of_start {s} (h : Start s) : s.Agree := by
  obtain ⟨registry,obs,now,hreach,rfl⟩ := h
  have hs := NodeRegistry.sound_of_reaches hreach
  let intents := registry.growthIntents.filter fun intent => intent.key ∈ registry.keys
  have hlook {owner : Owner} {i : GrowthIntent}
      (hi : (new intents).intents.lookup owner = some i) : i ∈ intents ∧ i.key = owner := by
    rw [lookup_new] at hi
    obtain ⟨j,hj,heq⟩ := List.mem_map.mp (mem_of_lastWritten hi)
    obtain ⟨rfl,hji⟩ := Prod.mk.inj heq
    exact some.inj hji ▸ ⟨hj,rfl⟩
  have hints : (opened registry obs now).growth.intents = (new intents).intents :=
    (refreshForecasts_spec ..).intents
  have hnone : ∀ owner i, ¬ (opened registry obs now).Unpublished owner i := by
    rintro owner i ⟨id,w,hw,-⟩
    cases hw
  refine ⟨hs,charged_refreshForecasts _ _ obs now,fun _ hu => absurd hu (hnone _ _),
    fun {owner} hreg _ => ?_,fun {owner i} hreg hknown => ?_⟩
  · rw [hints]
    refine ext fun i => ⟨fun hi => ?_,fun hi => ?_⟩
    · obtain ⟨hmem,hkey⟩ := hlook hi
      exact (row_eq_some_iff hs hreg).mpr ⟨(List.mem_filter.mp hmem).1,hkey⟩
    · obtain ⟨hmem,hkey⟩ := (row_eq_some_iff hs hreg).mp hi
      have hkept : i ∈ intents :=
        List.mem_filter.mpr ⟨hmem,decide_eq_true (hkey ▸ NodeRegistry.mem_keys.mpr hreg)⟩
      have hwr : (owner, some i) ∈ intents.map fun intent => (intent.key, some intent) :=
        hkey ▸ List.mem_map_of_mem hkept
      obtain ⟨j,hj⟩ := ne_none_iff_exists'.mp (lastWritten_ne_none hwr none)
      rw [← lookup_new] at hj
      obtain ⟨hjmem,hjkey⟩ := hlook hj
      have hrow := (row_eq_some_iff hs hreg).mpr ⟨(List.mem_filter.mp hjmem).1,hjkey⟩
      exact hj.trans (hrow.symm.trans hi)
  · obtain hu | hi := hknown
    · exact absurd hu (hnone _ _)
    · rw [hints] at hi
      obtain ⟨hmem,rfl⟩ := hlook hi
      have hkeys := of_decide_eq_true (List.mem_filter.mp hmem).2
      cases hreg.symm.trans (NodeRegistry.mem_keys.mp hkeys)

/-- Named, so that the definitions below do not each prove it. -/
local instance lawful_owner : LawfulBEq Owner := inferInstance

namespace Example

def owner : Owner := ("sandbox", 1)

def observations : Observations := ⟨fun _ => none,fun _ => .ram⟩

def fresh : GrowthService := opened {} observations 0

theorem fresh_starts : Start fresh := ⟨{},observations,0,fun _ => .start rfl,rfl⟩

def created : List Event :=
  [.registry owner.1 (.plan (candidate owner.2) false),
    .registry owner.1 (.move (.commitQuota 1)), .registry owner.1 (.move (.commitRootfs 2 false)),
    .registry owner.1 (.move (.commitOwned 3))]

def launch : Step := ⟨owner,.launch,"job",digest,""⟩

def launched : List Event :=
  [.transition 0 launch, .commit 0 false, .publish 0 observations 0,
    .admission 1 owner true "" "job" digest,
    .grant 1 { kind := .startup, memoryBytes := some 0 } observations 0, .commit 1 false,
    .publish 1 observations 0, .settle 1 observations 0]

abbrev running (s : GrowthService) : Prop :=
  s.idle = true ∧ owner ∈ s.registry.keys ∧ ∃ intent ∈ s.registry.row owner, intent.phase = .active

end Example

open GrowthService.Example

/-- A pass that read the registrations before the owner was created prunes its committed launch: the
row is active, and nothing is charged for it. -/
theorem pass_prunes_registered_owner : ∃ s owner intent, Reaches step anyEvent Start s ∧
    s.idle = true ∧ owner ∈ s.registry.keys ∧ s.registry.row owner = some intent ∧
    intent.phase = .active ∧ s.growth.intents.lookup owner = none ∧
    s.ledger.growth.lookup owner = none := by
  obtain ⟨s,hs,⟨hidle,howner,intent,hrow,hact⟩,hint,hchar⟩ := Reaches.exists_of_run step fresh_starts
    (.readKeys true :: created ++ launched ++ [.residentPass observations 0])
    (fun s => running s ∧ s.growth.intents.lookup owner = none ∧ s.ledger.growth.lookup owner = none)
    (by decide +kernel)
  exact ⟨s,owner,intent,hs,hidle,howner,hrow,hact,hint,hchar⟩

/-- A pass prunes no registered owner with an intent in memory; a forget names no registered owner;
an import registers an owner only when nothing is kept or being written of it. -/
def fits (s : GrowthService) : Event → Bool
  | .registry sandboxId (.planImport candidate _ _) =>
    let owner := (sandboxId, candidate.sandboxGeneration)
    owner ∈ s.registry.keys || (s.growth.intents.lookup owner).isNone && s.turnFree owner
  | .publish id _ _ =>
    (s.writers.lookup id).all fun w => w.forgets.all fun owner => owner ∉ s.registry.keys
  | .residentPass _ _ =>
    (s.pass.join).all fun read => s.growth.intents.keys.all fun owner =>
      owner ∉ s.registry.keys || owner ∈ read
  | _ => true

def Fits (s : GrowthService) (e : Event) : Prop := s.fits e = true

instance (s : GrowthService) (e : Event) : Decidable (s.Fits e) :=
  inferInstanceAs (Decidable (_ = true))

theorem Agree.effect {s s' : GrowthService} {e} (h : s.Agree) (hfits : s.Fits e) (he : s.Effect e s') :
    s'.Agree := by
  cases he with
  | quiet hq => exact h.quiet hq
  | called hgw hevent hcall =>
    refine h.called hgw (fun {candidate migration full} hop hreg i => ?_) hcall
    subst hop
    rw [hevent ⟨_,_,_,rfl⟩] at hfits
    simp only [Fits,fits,NodeRegistry.mem_keys,hreg,Bool.or_eq_true,Bool.and_eq_true,
      isNone_iff_eq_none,decide_eq_true_eq,Bool.false_eq_true,false_or] at hfits
    rintro (hu | hi)
    · exact not_unpublished_of_turnFree hfits.2 i hu
    · rw [hfits.1] at hi
      cases hi
  | committed hw hitems hfree hwr => exact h.committed hw hitems hfree hwr
  | published hevent hw hregi hgw hled hother hitems =>
    subst hevent
    refine h.published hw (fun owner hmem => ?_) hregi hgw hled hother hitems
    simp only [Fits,fits,hw,all_some,List.all_eq_true,NodeRegistry.mem_keys] at hfits
    simpa using hfits owner hmem
  | pruned hevent hpass =>
    subst hevent
    refine h.pruned _ _ fun read hread owner hmem hreg => ?_
    subst hread
    simp only [Fits,fits,hpass,join_some,all_some,List.all_eq_true, NodeRegistry.mem_keys] at hfits
    simpa [hreg] using hfits owner hmem

theorem Agree.reaches {s} (h : Reaches step Fits Start s) : s.Agree :=
  h.invariant (fun _ => agree_of_start) fun _ _ _ hs hfits hstep =>
    hs.effect hfits (effect_of_step hs.sound hstep)

/-- With no operation in flight, the intent in memory of a registered owner is its durable row, and
a running primary is charged that row's forecast, as the next refresh does. -/
theorem growth_agrees_with_rows {s : GrowthService} (h : Reaches step Fits Start s)
    (hidle : s.idle = true) {owner : Owner} (howner : owner ∈ s.registry.keys) :
    s.growth.intents.lookup owner = s.registry.row owner ∧
      ∀ intent, s.registry.row owner = some intent → intent.phase = .active →
        (∃ obs now, s.ledger.growth.lookup owner = some (intent.forecast owner obs now)) ∧
        ∀ obs now, (s.growth.refreshForecasts s.ledger obs now).2.growth.lookup owner =
          some (intent.forecast owner obs now) := by
  have hagree := Agree.reaches h
  have hnone : ∀ i, ¬ s.Unpublished owner i := by
    rintro i ⟨id,w,hw,-⟩
    simp only [idle,Bool.and_eq_true,List.isEmpty_iff] at hidle
    have hmem := mem_lookup_iff.mp hw
    rw [hidle.1] at hmem
    cases hmem
  have hrow := hagree.settled (NodeRegistry.mem_keys.mp howner) hnone
  refine ⟨hrow,fun intent hint hact => ?_⟩
  have hfor (obs now) : s.growth.forecastCost owner obs now = some (intent.forecast owner obs now) := by
    rw [Growth.forecastCost,Growth.active,hrow.trans hint,Option.filter_some,
      if_pos (decide_eq_true hact)]
    rfl
  obtain ⟨obs,now,hchg⟩ := hagree.charged owner
  refine ⟨⟨obs,now,hchg.trans (hfor obs now)⟩,fun obs now => ?_⟩
  rw [lookup_refreshForecasts,hfor]

theorem growth_agrees_with_rows_launched : ∃ s intent, Reaches step Fits Start s ∧ s.idle = true ∧
    s.growth.intents.lookup owner = some intent ∧ intent.phase = .active ∧
    ∃ obs now, s.ledger.growth.lookup owner = some (intent.forecast owner obs now) := by
  obtain ⟨s,hs,hidle,howner,intent,hrow,hact⟩ := Reaches.exists_of_runMeeting step Fits fresh_starts
    (created ++ launched ++ [.readKeys true, .residentPass observations 0]) running (by decide +kernel)
  obtain ⟨hlook,hchg⟩ := growth_agrees_with_rows hs hidle howner
  exact ⟨s,intent,hs,hidle,hlook.trans hrow,hact,(hchg intent hrow hact).1⟩

end UCloudSandboxes.Admission.GrowthService
