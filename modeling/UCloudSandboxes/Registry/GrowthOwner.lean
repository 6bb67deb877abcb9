import UCloudSandboxes.Registry.Retired

namespace UCloudSandboxes.Registry
open Machine GrowthStep Except Option
open Admission (GrowthIntent GrowthPhase)

/-- A later row of one incarnation: `terminal` is final, `queued` is not entered again, a primary
keeps its identity. -/
structure Precedes (i i' : GrowthIntent) : Prop where
  generation : i'.generation = i.generation
  terminal : i.phase = .terminal → i'.phase = .terminal
  launched : i.phase ≠ .queued → i'.phase ≠ .queued
  identity : i.phase ≠ .queued → i.jobId ≠ "" →
    i'.jobId = i.jobId ∧ i'.launchSha256 = i.launchSha256

namespace Precedes

theorem refl (i) : Precedes i i := ⟨rfl,id,id,fun _ _ => ⟨rfl,rfl⟩⟩

theorem trans {i j k} (h : Precedes i j) (h' : Precedes j k) : Precedes i k where
  generation := h'.generation.trans h.generation
  terminal hi := h'.terminal (h.terminal hi)
  launched hi := h'.launched (h.launched hi)
  identity hi hjob := by
    obtain ⟨hj,hl⟩ := h.identity hi hjob
    obtain ⟨hj',hl'⟩ := h'.identity (h.launched hi) (hj ▸ hjob)
    exact ⟨hj'.trans hj,hl'.trans hl⟩

theorem of_phase {i phase requestId} (hterm : i.phase = .terminal → phase = .terminal)
    (hphase : phase ≠ .queued) : Precedes i { i with phase, requestId } :=
  ⟨rfl,hterm,fun _ => hphase,fun _ _ => ⟨rfl,rfl⟩⟩

variable (step : GrowthStep)

theorem terminate (i) : Precedes i (step.terminate i) := by
  unfold GrowthStep.terminate
  split
  · exact of_phase (fun _ => rfl) nofun
  · exact refl i

theorem capture (i) : Precedes i (GrowthStep.capture i) := by
  unfold GrowthStep.capture
  split
  · rename_i h
    simp only [Bool.and_eq_true,decide_eq_true_eq] at h
    exact of_phase (fun hterm => absurd hterm h.1) nofun
  · exact refl i

theorem settle (i) : Precedes i (step.settle i) := by
  unfold GrowthStep.settle
  split
  · rename_i hp
    exact of_phase (by simp [hp]) nofun
  · rename_i hp
    exact of_phase (by simp [hp]) nofun
  · exact ⟨rfl,id,id,fun _ _ => ⟨rfl,rfl⟩⟩
  · exact refl i
  · exact refl i

theorem charge (i) : Precedes i (step.charge i) := by
  have hchg (hp : i.phase ≠ .terminal) :
      Precedes i { i with phase := .active, requestId := step.requestId } :=
    of_phase (fun hterm => absurd hterm hp) nofun
  unfold GrowthStep.charge
  cases hp : i.phase with
  | queued | safe =>
    dsimp only
    split
    · exact hchg (by simp [hp])
    · exact refl i
  | parked => exact hchg (by simp [hp])
  | active | terminal => exact refl i

theorem rename {i jobId launchSha256} (h : i.phase = .queued ∨ i.jobId = "") :
    Precedes i { i with jobId, launchSha256 } := by
  refine ⟨rfl,id,id,fun hp hjob => ?_⟩
  obtain hq | hempty := h
  · exact absurd hq hp
  · exact absurd hempty hjob

theorem identify {step : GrowthStep} {sandboxId owner i row}
    (h : step.identify sandboxId owner (some i) = .ok row) : ∃ i', row = some i' ∧ Precedes i i' := by
  simp only [GrowthStep.identify] at h
  split_ifs at h with hempty hbind hsame howned
  · exact ⟨_,(ok.inj h).symm,rename (.inr hempty)⟩
  · exact ⟨i,(ok.inj h).symm,refl i⟩
  · exact ⟨i,(ok.inj h).symm,refl i⟩
  · simp only [Bool.or_eq_true,decide_eq_true_eq,not_or,not_not] at howned
    exact ⟨_,(ok.inj h).symm,rename (.inl howned.2)⟩

theorem next {step : GrowthStep} {sandboxId owner rows i row} (hi : rows.row = some i)
    (h : step.next sandboxId owner rows = .ok row) : ∃ i', row = some i' ∧ Precedes i i' := by
  unfold GrowthStep.next at h
  rw [hi] at h
  cases hactn : step.action with
  | launch | bind =>
    rw [hactn] at h
    dsimp only at h
    split at h
    · cases h
    · exact identify h
  | terminal =>
    rw [hactn] at h
    exact ⟨_,(ok.inj h).symm,terminate step i⟩
  | park =>
    rw [hactn] at h
    exact ⟨_,(ok.inj h).symm,capture i⟩
  | wait =>
    rw [hactn] at h
    dsimp only at h
    split at h
    · cases h
    · exact ⟨_,(ok.inj h).symm,settle step i⟩
  | activate =>
    rw [hactn] at h
    exact ⟨_,(ok.inj h).symm,charge step i⟩

end Precedes

namespace GrowthRows

structure Advances (generation : Nat) (rows rows' : GrowthRows) : Prop where
  row : ∀ {i}, rows.row = some i → i.generation = generation →
    ∃ i', rows'.row = some i' ∧ Precedes i i'
  fences : ∀ {requestId}, rows.wakeFenced generation requestId = true →
    rows'.wakeFenced generation requestId = true

theorem Advances.refl (generation rows) : Advances generation rows rows :=
  ⟨fun {i} hi _ => ⟨i,hi,.refl i⟩,id⟩

theorem Advances.trans {generation a b c} (h : Advances generation a b) (h' : Advances generation b c) :
    Advances generation a c := by
  refine ⟨fun {i} hi hg => ?_,fun hf => h'.fences (h.fences hf)⟩
  obtain ⟨j,hj,hij⟩ := h.row hi hg
  obtain ⟨k,hk,hjk⟩ := h'.row hj (hij.generation.trans hg)
  exact ⟨k,hk,hij.trans hjk⟩

theorem wakeFenced_insertWakeFence (rows : GrowthRows) (generation requestId) :
    (rows.insertWakeFence generation requestId).wakeFenced generation requestId = true := by
  simp [wakeFenced,insertWakeFence]

theorem Advances.insertWakeFence (generation rows fenced requestId) :
    Advances generation rows (rows.insertWakeFence fenced requestId) := by
  refine ⟨fun {i} hi _ => ⟨i,hi,.refl i⟩,fun hf => ?_⟩
  simp only [wakeFenced,List.contains_iff_mem] at hf ⊢
  exact List.mem_insert_of_mem hf

theorem Advances.forget {generation other} (rows) (h : generation ≠ other) :
    Advances generation rows (rows.forget other) := by
  refine ⟨fun {i} hi hg => ⟨i,?_,.refl i⟩,fun hf => ?_⟩
  · have hother : i.generation ≠ (other : Int) := by omega
    simp [GrowthRows.forget,hi,hother]
  · simp only [wakeFenced,GrowthRows.forget,List.contains_iff_mem,List.mem_filter] at hf ⊢
    exact ⟨hf,by simpa using h⟩

end GrowthRows

theorem GrowthStep.fence_row (step : GrowthStep) (rows) : (step.fence rows).row = rows.row := by
  unfold fence
  split <;> rfl

theorem growthIntentStep_ok {sandboxId registration rows rows' step}
    (h : growthIntentStep sandboxId registration rows step = .ok rows') : ∃ owner,
      registration = some owner ∧ owner.sandboxGeneration = step.generation ∧ owner.phase = .owned ∧
      step.next sandboxId owner rows = .ok rows'.row ∧
      rows' = step.fence { rows with row := rows'.row } := by
  unfold growthIntentStep at h
  split at h
  · cases h
  rename_i owner
  obtain ⟨howned,h⟩ := of_guard h nofun
  simp only [Bool.or_eq_true,decide_eq_true_eq,not_or,not_not] at howned
  split at h
  · cases h
  · obtain ⟨row,hrow,rfl⟩ := ok_of_map_ok h
    rw [step.fence_row]
    exact ⟨owner,rfl,howned.1,howned.2,hrow,rfl⟩

theorem growthIntentStep_advances {sandboxId registration rows rows' step}
    (generation) (h : growthIntentStep sandboxId registration rows step = .ok rows') :
    rows.Advances generation rows' := by
  obtain ⟨owner,-,-,-,hrow,hrows⟩ := growthIntentStep_ok h
  refine ⟨fun hi _ => Precedes.next hi hrow,fun hf => ?_⟩
  · rw [hrows,fence]
    split
    · exact (GrowthRows.Advances.insertWakeFence generation _ _ _).fences hf
    · exact hf

namespace Entry

/-- Every call but the deletion of this incarnation. -/
def Lasting (generation : Nat) (_ : Entry) (operation : Operation) : Prop :=
  ∀ revision overlap, operation ≠ .commitDeleted generation revision overlap

theorem Effect.advances {e e' operation generation} (h : e.Effect operation e')
    (hlas : Lasting generation e operation) : e.growth.Advances generation e'.growth := by
  cases h with
  | deleted =>
    refine .forget _ fun hg => ?_
    subst hg
    exact hlas _ _ rfl
  | grown h => exact growthIntentStep_advances generation h
  | fenced => exact .insertWakeFence ..
  | planned h | imported h =>
    obtain ⟨rows,-,-,-,rfl⟩ := planCandidate_ok h
    exact .refl ..
  | bound _ _ | moved _ _ | aborted _ | read | kept | released _ _ _ _ | reserved _ _ =>
    exact .refl ..

theorem advances_of_reaches {e e' generation} (h : Reaches step (Lasting generation) (· = e) e') :
    e.growth.Advances generation e'.growth := by
  refine h.keeps (I := fun t => e.growth.Advances generation t.growth) (.refl ..) ?_
  intro s operation s' ih hlas hs
  exact ih.trans ((effect_of_step hs).advances hlas)

/-- The calls that wake a request: its activation, and a wake fence recorded for it. -/
inductive Wakes (generation : Nat) (requestId : String) : Operation → Prop
  | activation {step} : step.generation = generation → step.action = .activate →
      step.requestId = requestId → Wakes generation requestId (.growthIntent step)
  | fence : Wakes generation requestId (.relayWakeFence generation requestId true)

theorem Wakes.fences {generation requestId operation} {e e' : Entry}
    (hw : Wakes generation requestId operation) (h : e.apply operation = .ok e') :
    requestId = "" ∨ e'.growth.wakeFenced generation requestId = true := by
  have heff := effect_of_apply h
  cases hw with
  | @activation item hg hactn hr =>
    subst hg hr
    cases heff with
    | grown hgrown =>
      by_cases hempty : item.requestId = ""
      · exact .inl hempty
      · obtain ⟨owner,-,-,-,-,hrows⟩ := growthIntentStep_ok hgrown
        rw [hrows,GrowthStep.fence,if_pos (by simp [hactn,hempty])]
        exact .inr (GrowthRows.wakeFenced_insertWakeFence ..)
  | fence =>
    cases heff with
    | fenced => exact .inr (GrowthRows.wakeFenced_insertWakeFence ..)

theorem reaches_growthIntentSteps {e generation} {start : Entry → Prop} (steps)
    (h : Reaches step (Lasting generation) start e) :
    Reaches step (Lasting generation) start (e.growthIntentSteps steps) := by
  induction steps generalizing e with
  | nil => exact h
  | cons item steps ih =>
    refine ih ?_
    dsimp only
    cases hitem : e.growthIntent item with
    | error => exact h
    | ok =>
      have hlas : Lasting generation e (.growthIntent item) := fun _ _ => nofun
      exact .step h hlas (by rw [step,apply,hitem]; rfl)

/-- While an incarnation lasts, its growth row stays, `terminal` is never left, `queued` is never
entered again, a primary keeps its identity, and no wait succeeds for a woken request. -/
theorem growth_rows_go_forward {e e' : Entry} {generation : Nat}
    (h : Reaches step (Lasting generation) (· = e) e') :
    (∀ {i}, e.growth.row = some i → i.generation = generation →
      ∃ i', e'.growth.row = some i' ∧ i'.generation = generation ∧
        (i.phase = .terminal → i'.phase = .terminal) ∧ (i.phase ≠ .queued → i'.phase ≠ .queued) ∧
        (i.phase ≠ .queued → i.jobId ≠ "" → i'.jobId = i.jobId ∧ i'.launchSha256 = i.launchSha256)) ∧
    (∀ {before : Entry} {operation requestId}, Wakes generation requestId operation →
      before.apply operation = .ok e → ∀ jobId launchSha256 after,
        e'.growthIntent ⟨generation,.wait,jobId,launchSha256,requestId⟩ ≠ .ok after) := by
  have hadv := advances_of_reaches h
  refine ⟨?_,?_⟩
  · intro i hi hg
    obtain ⟨i',hi',hp⟩ := hadv.row hi hg
    exact ⟨i',hi',hp.generation.trans hg,hp.terminal,hp.launched,hp.identity⟩
  · intro before operation requestId hw happly jobId launchSha256 after hwait
    obtain ⟨growth,hgw,-⟩ := ok_of_map_ok hwait
    -- No wait succeeds without a request or under its request's fence.
    obtain ⟨owner,-,-,-,hrow,-⟩ := growthIntentStep_ok hgw
    have hguard := (of_guard hrow nofun).1
    simp only [Bool.or_eq_true,decide_eq_true_eq,not_or] at hguard
    obtain ⟨hreq,hfree⟩ := hguard
    obtain hempty | hfen := hw.fences happly
    · exact hreq hempty
    · simp [hadv.fences hfen] at hfree

namespace Example

def queued : Entry :=
  let record := { candidate 1 with phase := .owned, revision := 3 }
  { empty with
    rows.registration := some record
    growth.row := some ⟨"sandbox",1,"job",digest,512 * Admission.mib,.queued,""⟩ }

def activate : GrowthStep := ⟨1,.activate,"job",digest,"wake"⟩

def active : Entry :=
  { queued with growth := ⟨some ⟨"sandbox",1,"job",digest,512 * Admission.mib,.active,"wake"⟩,[(1,"wake")]⟩ }

def ended : Entry :=
  active.growthIntentSteps [⟨1,.park,"","",""⟩, ⟨1,.wait,"","","later"⟩, ⟨1,.terminal,"job","",""⟩]

end Example

open Example

theorem growth_rows_go_forward_ended :
    queued.apply (.growthIntent activate) = .ok active ∧
      ended.growth.row.map (·.phase) = some .terminal ∧
      (∃ i', ended.growth.row = some i' ∧ i'.jobId = "job") ∧ ∀ jobId launchSha256 after,
        ended.growthIntent ⟨1,.wait,jobId,launchSha256,"wake"⟩ ≠ .ok after := by
  have hact : queued.apply (.growthIntent activate) = .ok active := by
    decide +kernel
  have hended : Reaches step (Lasting 1) (· = active) ended :=
    reaches_growthIntentSteps _ (.start rfl)
  obtain ⟨hrow,hwait⟩ := growth_rows_go_forward hended
  obtain ⟨i',hi',-,-,-,hide⟩ := hrow rfl rfl
  refine ⟨hact,by decide +kernel,⟨i',hi',(hide nofun (by decide)).1⟩,?_⟩
  exact hwait (.activation rfl rfl rfl) hact

end Entry

/-! A `managed_growth` row belongs to the registration of its sandbox id, and is registered, kept or
dropped with it. -/
open SandboxRows

def KeyedBy (sandboxId : String) (generation : Nat) (row : Option GrowthIntent) : Prop :=
  ∀ i, row = some i → i.sandboxId = sandboxId ∧ i.generation = (generation : Int)

namespace KeyedBy

variable {sandboxId : String} {generation : Nat} {row : Option GrowthIntent} {i i' : GrowthIntent}

theorem none : KeyedBy sandboxId generation none := nofun

theorem moved (h : KeyedBy sandboxId generation (some i)) (hid : i'.sandboxId = i.sandboxId)
    (hgen : i'.generation = i.generation) : KeyedBy sandboxId generation (some i') := by
  rintro _ ⟨⟩
  obtain ⟨hi,hg⟩ := h i rfl
  exact ⟨hid.trans hi,hgen.trans hg⟩

theorem newIntent {owner phase jobId launchSha256 requestId}
    (h : (GrowthStep.newIntent sandboxId owner phase jobId launchSha256 requestId).map some = .ok row) :
    KeyedBy sandboxId owner.sandboxGeneration row := by
  obtain ⟨i,hi,rfl⟩ := ok_of_map_ok h
  unfold GrowthStep.newIntent at hi
  split at hi
  · cases hi
  obtain ⟨-,hi⟩ := of_guard hi nofun
  cases hi
  rintro _ ⟨⟩
  exact ⟨rfl,rfl⟩

theorem identify {step : GrowthStep} {owner row'} (h : KeyedBy sandboxId owner.sandboxGeneration row)
    (hok : step.identify sandboxId owner row = .ok row') :
    KeyedBy sandboxId owner.sandboxGeneration row' := by
  cases row with
  | none => exact newIntent hok
  | some =>
    simp only [identify] at hok
    split_ifs at hok
    all_goals
      cases hok
      exact h.moved rfl rfl

variable (step : GrowthStep)

theorem terminate (h : KeyedBy sandboxId generation row) :
    KeyedBy sandboxId generation (row.map step.terminate) := by
  cases row with
  | none => exact .none
  | some =>
    rw [map_some,terminate]
    split
    · exact h.moved rfl rfl
    · exact h

theorem capture (h : KeyedBy sandboxId generation row) :
    KeyedBy sandboxId generation (row.map capture) := by
  cases row with
  | none => exact .none
  | some =>
    rw [map_some,capture]
    split
    · exact h.moved rfl rfl
    · exact h

theorem settle (h : KeyedBy sandboxId generation (some i)) :
    KeyedBy sandboxId generation (some (step.settle i)) := by
  unfold GrowthStep.settle
  split
  all_goals exact h.moved rfl rfl

theorem charge (h : KeyedBy sandboxId generation (some i)) :
    KeyedBy sandboxId generation (some (step.charge i)) := by
  unfold GrowthStep.charge
  split
  · split
    · exact h.moved rfl rfl
    · exact h
  · exact h.moved rfl rfl
  · split
    · exact h.moved rfl rfl
    · exact h
  all_goals exact h

theorem next {step : GrowthStep} {owner rows}
    (hrows : KeyedBy sandboxId owner.sandboxGeneration rows.row)
    (h : step.next sandboxId owner rows = .ok row) : KeyedBy sandboxId owner.sandboxGeneration row := by
  unfold GrowthStep.next at h
  cases hactn : step.action with
  | launch | bind =>
    rw [hactn] at h
    dsimp only at h
    split at h
    · cases h
    · exact hrows.identify h
  | terminal =>
    rw [hactn] at h
    exact ok.inj h ▸ hrows.terminate step
  | park =>
    rw [hactn] at h
    exact ok.inj h ▸ hrows.capture
  | wait =>
    rw [hactn] at h
    obtain ⟨-,h⟩ := of_guard h nofun
    cases hr : rows.row with
    | none => rw [hr] at h; exact newIntent h
    | some =>
      rw [hr] at h hrows
      exact ok.inj h ▸ hrows.settle step
  | activate =>
    rw [hactn] at h
    cases hr : rows.row with
    | none => rw [hr] at h; exact newIntent h
    | some =>
      rw [hr] at h hrows
      exact ok.inj h ▸ hrows.charge step

end KeyedBy

namespace Entry

def registers (e : Entry) (generation : Nat) : Bool :=
  e.rows.registration.any (·.sandboxGeneration = generation)

variable {e e' : Entry} {operation : Operation}

theorem registers_iff {generation} : e.registers generation = true ↔
    ∃ r, e.rows.registration = some r ∧ r.sandboxGeneration = generation := by
  simp [registers,any_eq_true]

theorem registers_of_none (h : e.rows.registration = none) (generation) :
    e.registers generation = false := by
  simp [registers,h]

theorem registers_of_some {r} (h : e.rows.registration = some r) (generation) :
    e.registers generation = decide (r.sandboxGeneration = generation) := by
  simp [registers,h]

/-- The growth row is keyed by the registration, which is past a bare import plan. -/
def RowOwned (e : Entry) : Prop :=
  ∀ i, e.growth.row = some i → i.sandboxId = e.sandboxId ∧ ∃ r, e.rows.registration = some r ∧
    i.generation = (r.sandboxGeneration : Int) ∧ r.phase ≠ .importPlanned

theorem RowOwned.keyedBy {r} (h : e.RowOwned) (hr : e.rows.registration = some r) :
    KeyedBy e.sandboxId r.sandboxGeneration e.growth.row := by
  intro i hi
  obtain ⟨hid,r',hr',hg,-⟩ := h i hi
  obtain rfl : r = r' := some.inj (hr.symm.trans hr')
  exact ⟨hid,hg⟩

theorem RowOwned.row_of_none (h : e.RowOwned) (hr : e.rows.registration = none) :
    e.growth.row = none := by
  refine eq_none_iff_forall_ne_some.mpr fun i hi => ?_
  obtain ⟨-,r,hr',-⟩ := h i hi
  simp [hr] at hr'

theorem RowOwned.row_of_importPlanned {r} (h : e.RowOwned) (hr : e.rows.registration = some r)
    (hphase : r.phase = .importPlanned) : e.growth.row = none := by
  refine eq_none_iff_forall_ne_some.mpr fun i hi => ?_
  obtain ⟨-,r',hr',-,hne⟩ := h i hi
  obtain rfl : r = r' := some.inj (hr.symm.trans hr')
  exact hne hphase

theorem RowOwned.planCandidate {candidate full} (ho : e.RowOwned)
    (h : e.planCandidate candidate full = .ok e') : e'.RowOwned := by
  obtain ⟨rows,-,-,hrows,rfl⟩ := planCandidate_ok h
  obtain ⟨rfl,-⟩ | ⟨hnone,rfl,-⟩ := planCandidate_cases hrows
  · exact ho
  · intro i hi
    simp [ho.row_of_none hnone] at hi

theorem Effect.sandboxId (h : e.Effect operation e') : e'.sandboxId = e.sandboxId := by
  cases h with
  | planned h | imported h =>
    obtain ⟨rows,-,-,-,rfl⟩ := planCandidate_ok h
    rfl
  | _ => rfl

theorem Effect.rowOwned (h : e.Effect operation e') (ho : e.RowOwned) : e'.RowOwned := by
  cases h with
  | planned h | imported h => exact ho.planCandidate h
  | moved h =>
    obtain ⟨record,updated,hr,hr',hsame,-,-,hphase⟩ := Transition.apply_ok h
    intro i hi
    obtain ⟨hid,hg⟩ := ho.keyedBy hr i hi
    exact ⟨hid,updated,hr',by rw [hg,hsame.generation],hphase⟩
  | aborted h =>
    obtain ⟨record,hr,hphase,rfl⟩ := abortImportPlanned_cases h
    intro i hi
    simp [ho.row_of_importPlanned hr hphase] at hi
  | deleted h =>
    -- The row's generation is the deleted one, so the delete forgets it.
    obtain ⟨record,hr,-,rfl,rfl⟩ := commitDeleted_cases h
    intro i hi
    simp only [GrowthRows.forget,filter_eq_some_iff,decide_eq_true_eq] at hi
    exact absurd (ho.keyedBy hr i hi.1).2 hi.2
  | grown h =>
    obtain ⟨owner,hr,-,hphase,hnext,-⟩ := growthIntentStep_ok h
    intro i hi
    obtain ⟨hid,hg⟩ := (ho.keyedBy hr).next hnext i hi
    exact ⟨hid,owner,hr,hg,by simp [hphase]⟩
  | bound _ _ | fenced | read | kept | released _ _ _ _ | reserved _ _ => exact ho

inductive OwnerChange (e : Entry) (operation : Operation) (e' : Entry) (generation : Nat) : Prop
  | kept : e'.registers generation = e.registers generation →
      (e.registers generation = true → e'.growth.row = e.growth.row) → OwnerChange ..
  | left : e.registers generation = true → e'.registers generation = false →
      (e'.rows.RetiredGeneration generation ∨ e.growth.row = none) → OwnerChange ..
  | joined : e.registers generation = false → e'.registers generation = true →
      e'.growth.row = none →
      (e.rows.RetiredGeneration generation → ∃ candidate migration full,
        operation = .planImport candidate migration full ∧
        candidate.sandboxGeneration = generation) → OwnerChange ..

theorem OwnerChange.planCandidate {candidate full generation} (ho : e.RowOwned)
    (h : e.planCandidate candidate full = .ok e')
    (hret : candidate.phase = .importPlanned → candidate.sandboxGeneration = generation →
      ∃ candidate migration full, operation = .planImport candidate migration full ∧
      candidate.sandboxGeneration = generation) : OwnerChange e operation e' generation := by
  obtain ⟨rows,-,-,hrows,rfl⟩ := planCandidate_ok h
  obtain ⟨rfl,-⟩ | ⟨hnone,rfl,-,hlocal,-⟩ := planCandidate_cases hrows
  · exact .kept rfl fun _ => rfl
  by_cases hg : candidate.sandboxGeneration = generation
  · refine .joined (registers_of_none hnone _) (registers_iff.mpr ⟨candidate,rfl,hg⟩)
      (ho.row_of_none hnone) fun ⟨tombstone,ht,hle⟩ => ?_
    by_cases hphase : candidate.phase = .importPlanned
    · exact hret hphase hg
    · have hlt := hlocal hphase tombstone ht
      omega
  · refine .kept ?_ fun _ => rfl
    rw [registers_of_none hnone,registers_of_some (r := candidate) rfl,decide_eq_false hg]

theorem Effect.ownerChange (h : e.Effect operation e') (ho : e.RowOwned)
    (hgw : ∀ step, operation ≠ .growthIntent step) (generation) :
    OwnerChange e operation e' generation := by
  cases h with
  | planned h => exact .planCandidate ho h nofun
  | imported h => exact .planCandidate ho h fun _ hg => ⟨_,_,_,rfl,hg⟩
  | moved h =>
    obtain ⟨record,updated,hr,hr',hsame,-⟩ := Transition.apply_ok h
    refine .kept ?_ fun _ => rfl
    rw [registers_of_some (r := record) hr,registers_of_some (r := updated) hr',hsame.generation]
  | aborted h =>
    obtain ⟨record,hr,hphase,rfl⟩ := abortImportPlanned_cases h
    by_cases hg : record.sandboxGeneration = generation
    · exact .left (registers_iff.mpr ⟨record,hr,hg⟩) (registers_of_none rfl _)
        (.inr (ho.row_of_importPlanned hr hphase))
    · refine .kept ?_ fun _ => rfl
      rw [registers_of_some hr,registers_of_none rfl,decide_eq_false hg]
  | deleted h =>
    obtain ⟨record,hr,-,rfl,rfl⟩ := commitDeleted_cases h
    by_cases hg : record.sandboxGeneration = generation
    · refine .left (registers_iff.mpr ⟨record,hr,hg⟩) (registers_of_none rfl _) (.inl ⟨_,rfl,?_⟩)
      rw [← hg]
      exact Nat.le_max_right ..
    · refine .kept ?_ fun hreg => ?_
      · rw [registers_of_some hr,registers_of_none rfl,decide_eq_false hg]
      · rw [registers_of_some hr,decide_eq_false hg] at hreg
        cases hreg
  | grown => exact absurd rfl (hgw _)
  | bound _ _ | fenced | read | kept | released _ _ _ _ | reserved _ _ =>
    exact .kept rfl fun _ => rfl

theorem growthIntent_ok {step} (h : e.growthIntent step = .ok e') :
    e.registers step.generation = true ∧ e'.rows = e.rows ∧
      (e'.growth.row = none → e.growth.row = none) := by
  obtain ⟨growth,hg,rfl⟩ := ok_of_map_ok h
  obtain ⟨owner,hr,hgen,-,hnext,-⟩ := growthIntentStep_ok hg
  refine ⟨registers_iff.mpr ⟨owner,hr,hgen⟩,rfl,fun hnone => ?_⟩
  refine eq_none_iff_forall_ne_some.mpr fun i hi => ?_
  obtain ⟨i',hi',-⟩ := Precedes.next hi hnext
  exact absurd (hnone.symm.trans hi') nofun

end Entry
end UCloudSandboxes.Registry
