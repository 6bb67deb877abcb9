import UCloudSandboxes.Registry.DiskClaims
import UCloudSandboxes.Registry.Retired

namespace UCloudSandboxes.Registry
open Machine Accounting SandboxRows Entry DiskEntry Option DiskClaim

theorem DiskSpec.requestedDiskMb_ok (spec : DiskSpec) : ∃ requestedMb,
    spec.requestedDiskMb = .ok requestedMb ∧ ∀ d, spec.diskMb = some d → d ≤ requestedMb := by
  obtain ⟨parkable,memoryMb,diskMb,hm,hd,hlim⟩ := spec
  unfold requestedDiskMb
  cases parkable with
  | false => exact ⟨_,rfl,by rintro d rfl; rfl⟩
  | true =>
    obtain ⟨h₁,h₂⟩ := hlim rfl
    obtain ⟨memory,rfl⟩ := isSome_iff_exists.mp h₁
    obtain ⟨disk,rfl⟩ := isSome_iff_exists.mp h₂
    have hpos : 0 < memory ∧ 0 < disk := by
      constructor
      · exact Nat.pos_of_ne_zero fun h => hm (by rw [h])
      · exact Nat.pos_of_ne_zero fun h => hd (by rw [h])
    refine ⟨disk + (memory / allocatorChunkMb + 1) * allocatorChunkMb + memory + fixedOverheadMb,
      by simp [hpos],fun d h => ?_⟩
    cases h
    omega

namespace DiskEntry

structure Fixed (e : DiskEntry) (row : RegistrationDisk) : Prop where
  bare : row.workspaceMb = 0 ∧ row.memoryMb = 0
  reserved : reservedMb e.spec e.quotaTotalMb = .ok row.reservedMb
  covers : ∀ d, e.spec.diskMb = some d → d ≤ row.reservedMb
  released : 0 < e.releasedMb row → e.spec.diskMb = some (e.releasedMb row)

/-- A remount is admitted for at least the grant of a dynamic row. -/
def Dynamic (e : DiskEntry) (row : RegistrationDisk) : Prop :=
  0 < e.releasedMb row → row.workspaceMb ≤ e.releasedMb row

/-- A registration has its claim row, and only one past its plan has released a workspace. -/
structure Charged (e : DiskEntry) : Prop where
  absent : e.entry.rows.registration = none → e.disk = none
  present : ∀ r, e.entry.rows.registration = some r →
    ∃ row, e.disk = some row ∧ row.sandboxGeneration = r.sandboxGeneration
  fixed : ∀ row, e.disk = some row → row.dynamic = false → e.Fixed row
  dynamic : ∀ row, e.disk = some row → row.dynamic = true → e.Dynamic row
  unreleased : (∀ r, e.entry.rows.registration = some r → r.phase ∈ [Phase.planned,.importPlanned]) →
    ∀ w, e.entry.workspaceCapacity = some w → w.releasedMb = 0

variable {e : DiskEntry}

theorem releasedMb_congr {e' : DiskEntry} (row)
    (h : e'.entry.workspaceCapacity = e.entry.workspaceCapacity) :
    e'.releasedMb row = e.releasedMb row := by
  rw [releasedMb,releasedMb,mountEpoch,mountEpoch,h]

variable {row : RegistrationDisk}

theorem releasedMb_eq_zero (h : ∀ w, e.entry.workspaceCapacity = some w → w.releasedMb = 0) (row) :
    e.releasedMb row = 0 := by
  unfold releasedMb mountEpoch
  cases hw : e.entry.workspaceCapacity with
  | none => rfl
  | some w =>
    dsimp only
    split
    · exact h w hw
    · rfl

theorem claimMb_of_disk (h : e.disk = some row) : e.claimMb = row.claimMb (e.releasedMb row) := by
  rw [claimMb,h]
  rfl

theorem claimMb_of_none (h : e.disk = none) : e.claimMb = 0 := by
  rw [claimMb,h]
  rfl

theorem Fixed.claimMb_nonneg (h : e.Fixed row) : 0 ≤ row.claimMb (e.releasedMb row) := by
  unfold RegistrationDisk.claimMb
  by_cases hr : 0 < e.releasedMb row
  · have hle := h.covers _ (h.released hr)
    omega
  · rw [if_neg hr]
    omega

theorem Charged.claimMb_nonneg (h : e.Charged) : 0 ≤ e.claimMb := by
  cases hd : e.disk with
  | none => rw [claimMb_of_none hd]
  | some row =>
    rw [claimMb_of_disk hd]
    cases hdyn : row.dynamic with
    | false => exact (h.fixed row hd hdyn).claimMb_nonneg
    | true =>
      unfold RegistrationDisk.claimMb
      split <;> omega

theorem charged_of_row {owner} (hr : e.entry.rows.registration = some owner) (hd : e.disk = some row)
    (hgen : row.sandboxGeneration = owner.sandboxGeneration)
    (hrow : if row.dynamic then e.Dynamic row else e.Fixed row)
    (hunr : owner.phase ∈ [Phase.planned,.importPlanned] → ∀ w, e.entry.workspaceCapacity =
      some w → w.releasedMb = 0) : e.Charged := by
  refine ⟨fun hn => ?_,fun r hr' => ?_,fun row' hd' hdyn => ?_,fun row' hd' hdyn => ?_,fun hp => ?_⟩
  · rw [hr] at hn
    cases hn
  · cases hr.symm.trans hr'
    exact ⟨row,hd,hgen⟩
  · cases hd.symm.trans hd'
    simpa [hdyn] using hrow
  · cases hd.symm.trans hd'
    simpa [hdyn] using hrow
  · exact hunr (hp owner hr)

theorem Charged.owner (h : e.Charged) (hd : e.disk = some row) : ∃ owner,
    e.entry.rows.registration = some owner ∧ row.sandboxGeneration = owner.sandboxGeneration := by
  cases hr : e.entry.rows.registration with
  | none => cases (h.absent hr).symm.trans hd
  | some owner =>
    obtain ⟨row',hd',hgen⟩ := h.present owner hr
    cases hd.symm.trans hd'
    exact ⟨owner,rfl,hgen⟩

end DiskEntry

namespace DiskRegistry

variable {capacityMb : Nat} {r r' : DiskRegistry} {sandboxId : String} {e : DiskEntry}

@[simp]
theorem entry_set_self : (r.set sandboxId e).entry sandboxId = e := by
  simp [entry,set]

theorem entry_set_ne {other} (h : other ≠ sandboxId) :
    (r.set sandboxId e).entry other = r.entry other := by
  simp [entry,set,AList.lookup_insert_ne h]

theorem claimsMb_set :
    (r.set sandboxId e).claimsMb = r.claimsMb - (r.entry sandboxId).claimMb + e.claimMb := by
  have hsum := sum_kerase claimMb sandboxId r.entries.entries
  have hat : ((r.entries.entries.dlookup sandboxId).map claimMb).getD 0 =
      (r.entry sandboxId).claimMb := by
    rw [entry,AList.lookup]
    cases r.entries.entries.dlookup sandboxId <;> rfl
  have hset : (r.set sandboxId e).claimsMb =
      e.claimMb + ((r.entries.entries.kerase sandboxId).map fun e => e.2.claimMb).sum := rfl
  rw [hset,claimsMb]
  omega

structure Sound (capacityMb : Nat) (r : DiskRegistry) : Prop where
  charged : ∀ sandboxId, (r.entry sandboxId).Charged
  fits : r.reservedDiskBytes ≤ mib capacityMb

theorem Sound.set (h : r.Sound capacityMb) {d} (he : e.Charged)
    (hle : e.claimMb ≤ (r.entry sandboxId).claimMb + d)
    (hd : d ≤ 0 ∨ r.exhausted capacityMb (mib d) = false) : (r.set sandboxId e).Sound capacityMb := by
  refine ⟨fun other => ?_,?_⟩
  · by_cases ho : other = sandboxId
    · subst ho
      rw [entry_set_self]
      exact he
    · rw [entry_set_ne ho]
      exact h.charged other
  · have hfits := h.fits
    simp only [exhausted,decide_eq_false_iff_not] at hd
    unfold reservedDiskBytes mib at *
    rw [claimsMb_set]
    dsimp only [DiskRegistry.set]
    omega

end DiskRegistry

theorem Entry.reserveWorkspaceForMount_fits {e e' : Entry} {generation full}
    (h : e.reserveWorkspaceForMount generation full = .ok e') :
    (e.mountEpoch generation).2 = 0 ∨ full = false := by
  unfold reserveWorkspaceForMount at h
  split at h
  · cases h
  split at h
  · cases h
  dsimp only at h
  obtain ⟨hfits,h⟩ := of_guard h nofun
  simpa [or_iff_not_imp_left] using hfits

theorem Transition.apply_phase {rows rows'} {transition : Transition} {updated}
    (h : transition.apply rows = .ok rows') (hr : rows'.registration = some updated) :
    updated.phase ∉ [Phase.planned,.importPlanned] := by
  cases transition with
  | beginMoveOut | abortMoveOut =>
    simp only [Transition.apply] at h
    obtain ⟨_,-,-,hr'⟩ := SandboxRows.transition_ok h
    cases hr.symm.trans hr'
    simp
  | _ =>
    obtain ⟨_,-,-,hr'⟩ := SandboxRows.transition_ok h
    cases hr.symm.trans hr'
    simp

namespace DiskEntry

variable {e : DiskEntry}

theorem Charged.of_entry {entry} (h : e.Charged)
    (hr : entry.rows.registration = e.entry.rows.registration)
    (hw : entry.workspaceCapacity = e.entry.workspaceCapacity) : Charged { e with entry } := by
  have hrele (row) : releasedMb { e with entry } row = e.releasedMb row := releasedMb_congr row hw
  refine ⟨fun hn => h.absent (hr ▸ hn),fun r hn => h.present r (hr ▸ hn),fun row hd hf => ?_,
    fun row hd hf => ?_,fun hp w hn => h.unreleased (fun r hn => hp r (hr ▸ hn)) w (hw ▸ hn)⟩
  · obtain ⟨hb,hres,hc,hrel⟩ := h.fixed row hd hf
    exact ⟨hb,hres,hc,by rwa [hrele]⟩
  · have hdyn := h.dynamic row hd hf
    rw [Dynamic] at hdyn ⊢
    rwa [hrele]

theorem charged_of_plan {record requestedMb} {initialClaim : Option DiskClaim}
    (hreq : e.spec.requestedDiskMb = .ok requestedMb) (hquota : e.quotaTotalMb = none)
    (hr : e.entry.rows.registration = some record) (hd : e.disk = some (initialClaim.elim
      (writeDiskClaim none record.sandboxGeneration requestedMb)
      (writeDiskClaim none record.sandboxGeneration requestedMb).setDynamicClaim))
    (hzero : ∀ w, e.entry.workspaceCapacity = some w → w.releasedMb = 0) :
    e.Charged ∧ e.claimMb = ((initialClaim.map totalMb).getD requestedMb : Nat) := by
  have hrele := releasedMb_eq_zero hzero
  cases initialClaim with
  | none =>
    have hd : e.disk = some { sandboxGeneration := record.sandboxGeneration, reservedMb := requestedMb } := hd
    obtain ⟨_,hreq',hcov⟩ := e.spec.requestedDiskMb_ok
    cases hreq.symm.trans hreq'
    refine ⟨charged_of_row hr hd rfl ?_ fun _ => hzero,?_⟩
    · refine ⟨⟨rfl,rfl⟩,by rw [hquota]; exact hreq,hcov,fun h => ?_⟩
      rw [hrele] at h
      exact absurd h (lt_irrefl 0)
    · rw [claimMb_of_disk hd,hrele]
      simp [RegistrationDisk.claimMb]
  | some =>
    refine ⟨charged_of_row hr hd rfl (fun h => ?_) fun _ => hzero,?_⟩
    · rw [hrele] at h
      exact absurd h (lt_irrefl 0)
    · rw [claimMb_of_disk hd,hrele]
      simp [RegistrationDisk.claimMb,RegistrationDisk.setDynamicClaim,totalMb,add_comm]

theorem claimMb_congr {e' : DiskEntry} (hd : e'.disk = e.disk)
    (hw : e'.entry.workspaceCapacity = e.entry.workspaceCapacity) : e'.claimMb = e.claimMb := by
  rw [claimMb,hd]
  exact congrArg (Option.elim e.disk 0) (funext fun row => by rw [releasedMb_congr row hw])

variable {row : RegistrationDisk}

/-- A record written back: its fixed claim is refreshed from the same quota, or lowered but covers
the workspace. -/
theorem Charged.rewritten {updated entry quota reserved} (h : e.Charged)
    (hd : e.disk = some row) (hgen : row.sandboxGeneration = updated.sandboxGeneration)
    (hr : entry.rows.registration = some updated)
    (hphase : updated.phase ∉ [Phase.planned,.importPlanned])
    (hw : entry.workspaceCapacity = e.entry.workspaceCapacity)
    (hrese : reservedMb e.spec quota = .ok reserved)
    (hcase : row.dynamic = false → quota = e.quotaTotalMb ∨ reserved ≤ row.reservedMb ∧
      ∀ d, e.spec.diskMb = some d → d ≤ reserved) : let e' : DiskEntry := { e with
      entry
      quotaTotalMb := quota
      disk := some (writeDiskClaim (some row) updated.sandboxGeneration reserved) }
    e'.Charged ∧ e'.claimMb ≤ e.claimMb := by
  intro e'
  have hrele (row) : e'.releasedMb row = e.releasedMb row := releasedMb_congr row hw
  cases hdyn : row.dynamic with
  | true =>
    have hd' : e'.disk = some row := by simp [e',writeDiskClaim,hdyn]
    refine ⟨charged_of_row hr hd' hgen ?_ fun hp => absurd hp hphase,
      (claimMb_congr (hd'.trans hd.symm) hw).le⟩
    rw [if_pos hdyn,Dynamic,hrele]
    exact h.dynamic row hd hdyn
  | false =>
    have hd' : e'.disk = some { row with reservedMb := reserved } := by
      simp [e',writeDiskClaim,hdyn,hgen]
    have hfixed := h.fixed row hd hdyn
    have hrel : e'.releasedMb { row with reservedMb := reserved } = e.releasedMb row :=
      hrele _
    have hboth : reserved ≤ row.reservedMb ∧ (∀ d, e.spec.diskMb = some d → d ≤ reserved) := by
      obtain rfl | hboth := hcase hdyn
      · cases hfixed.reserved.symm.trans hrese
        exact ⟨le_rfl,hfixed.covers⟩
      · exact hboth
    refine ⟨charged_of_row hr hd' hgen ?_ fun hp => absurd hp hphase,?_⟩
    · rw [if_neg (by simp [hdyn])]
      exact ⟨hfixed.bare,hrese,hboth.2,by rw [hrel]; exact hfixed.released⟩
    · rw [claimMb_of_disk hd',claimMb_of_disk hd,hrel]
      simp only [RegistrationDisk.claimMb]
      omega

theorem Charged.released {owner epoch mb} (h : e.Charged)
    (hr : e.entry.rows.registration = some owner) (hphase : owner.phase = .owned)
    (hd : e.disk = some row) (hgen : row.sandboxGeneration = owner.sandboxGeneration)
    (hmb : row.dynamic = false → e.spec.diskMb = some mb) :
    let w : WorkspaceCapacity := ⟨owner.sandboxGeneration,epoch,
      (((e.disk.filter (·.dynamic)).map (·.workspaceMb)).map (max · 1)).getD mb⟩
    let e' : DiskEntry := { e with entry := { e.entry with workspaceCapacity := some w } }
    e'.Charged ∧ e'.claimMb ≤ e.claimMb := by
  intro w e'
  have hrele : e'.releasedMb row = w.releasedMb := by
    exact congrArg Prod.snd (if_pos hgen.symm)
  have hd' : e'.disk = some row := hd
  have hplan : owner.phase ∉ [Phase.planned,.importPlanned] := by
    rw [hphase]
    decide
  cases hdyn : row.dynamic with
  | true =>
    have hw : w.releasedMb = max row.workspaceMb 1 := by simp [w,hd,filter_some,hdyn]
    refine ⟨charged_of_row hr hd' hgen ?_ fun hp => absurd hp hplan,?_⟩
    · rw [if_pos hdyn,Dynamic,hrele,hw]
      exact fun _ => le_max_left _ _
    · rw [claimMb_of_disk hd',claimMb_of_disk hd]
      simp only [RegistrationDisk.claimMb]
      split <;> split <;> omega
  | false =>
    have hw : w.releasedMb = mb := by simp [w,hd,filter_some,hdyn]
    have hfixed := h.fixed row hd hdyn
    refine ⟨charged_of_row hr hd' hgen ?_ fun hp => absurd hp hplan,?_⟩
    · rw [if_neg (by simp [hdyn])]
      refine ⟨hfixed.bare,hfixed.reserved,hfixed.covers,fun _ => ?_⟩
      rw [hrele,hw]
      exact hmb hdyn
    · rw [claimMb_of_disk hd',claimMb_of_disk hd,hrele,hw]
      simp only [RegistrationDisk.claimMb]
      by_cases hold : 0 < e.releasedMb row
      · obtain rfl : mb = e.releasedMb row :=
          some.inj ((hmb hdyn).symm.trans (hfixed.released hold))
        exact le_rfl
      · rw [if_neg hold]
        split <;> omega

theorem Charged.mounted {generation epoch owner} (h : e.Charged)
    (hr : e.entry.rows.registration = some owner) (hg : owner.sandboxGeneration = generation) :
    let e' : DiskEntry := { e with entry :=
      { e.entry with workspaceCapacity := some ⟨generation,epoch,0⟩ } }
    e'.Charged ∧ e'.claimMb ≤ e.claimMb + ((e.entry.mountEpoch generation).2 : Nat) := by
  intro e'
  obtain ⟨row,hd,hgen⟩ := h.present owner hr
  have hzero (row) : e'.releasedMb row = 0 := releasedMb_eq_zero (by rintro _ ⟨⟩; rfl) row
  have hd' : e'.disk = some row := hd
  refine ⟨⟨h.absent,h.present,fun row' hrow hf => ?_,fun row' _ _ hpos => ?_,fun _ w hw => ?_⟩,?_⟩
  · have hfixed := h.fixed row' hrow hf
    refine ⟨hfixed.bare,hfixed.reserved,hfixed.covers,fun hpos => ?_⟩
    rw [hzero] at hpos
    exact absurd hpos (lt_irrefl 0)
  · rw [hzero] at hpos
    exact absurd hpos (lt_irrefl 0)
  · cases hw
    rfl
  · have hrele : (e.entry.mountEpoch generation).2 = e.releasedMb row := by
      rw [releasedMb,hgen,hg]
    rw [claimMb_of_disk hd',claimMb_of_disk hd,hzero]
    simp only [RegistrationDisk.claimMb,lt_irrefl,if_false]
    by_cases hpos : 0 < e.releasedMb row
    · rw [if_pos hpos]
      cases hdyn : row.dynamic with
      | true =>
        have := h.dynamic row hd hdyn hpos
        rw [if_pos rfl]
        omega
      | false =>
        have := (h.fixed row hd hdyn).bare.1
        omega
    · rw [if_neg hpos]
      omega

theorem Charged.adopted {row' adopt} (h : e.Charged) (hd : e.disk = some row)
    (ha : e.dynamicRow row adopt = some row') :
    row'.dynamic = true ∧ row'.sandboxGeneration = row.sandboxGeneration ∧
      Charged { e with disk := some row' } ∧
      claimMb { e with disk := some row' } = e.claimMb := by
  unfold dynamicRow at ha
  split at ha
  · rename_i hdyn
    cases ha
    have he : { e with disk := some row } = e := by rw [← hd]
    exact ⟨hdyn,rfl,he.symm ▸ h,by rw [he]⟩
  · rename_i hfixed
    rw [Bool.not_eq_true] at hfixed
    obtain ⟨-,ha⟩ := of_check ha nofun
    unfold adoptDynamicClaim at ha
    split at ha
    · rename_i diskMb _ _ hdisk
      cases ha
      have hf := h.fixed row hd hfixed
      have hcov := hf.covers _ hdisk
      obtain ⟨owner,hr,hgen⟩ := h.owner hd
      refine ⟨rfl,rfl,charged_of_row hr rfl hgen (fun hpos => ?_) fun hp => h.unreleased fun r hr' => ?_,?_⟩
      · exact (some.inj (hdisk.symm.trans (hf.released hpos))).le
      · cases hr.symm.trans hr'
        exact hp
      · rw [claimMb_of_disk rfl,claimMb_of_disk hd]
        have hrele : releasedMb { e with
            disk := some (row.setDynamicClaim ⟨diskMb,row.reservedMb - diskMb⟩) }
            (row.setDynamicClaim ⟨diskMb,row.reservedMb - diskMb⟩) = e.releasedMb row := rfl
        rw [hrele]
        simp only [RegistrationDisk.claimMb,RegistrationDisk.setDynamicClaim,hfixed,hf.bare.1,
          hf.bare.2,if_true,Bool.false_eq_true,if_false]
        by_cases hpos : 0 < e.releasedMb row
        · have := some.inj (hdisk.symm.trans (hf.released hpos))
          omega
        · rw [if_neg hpos]
          omega
    · cases ha

theorem releasedMb_rereleased {workspaceMb} (hpos : 0 < e.releasedMb row) {e' : DiskEntry}
    (hw : e'.entry.workspaceCapacity = e.rereleased true workspaceMb) :
    e'.releasedMb row = max workspaceMb 1 := by
  unfold releasedMb mountEpoch at hpos ⊢
  rw [hw,rereleased,if_pos rfl]
  cases hw : e.entry.workspaceCapacity with
  | none => simp [hw] at hpos
  | some =>
    rw [hw] at hpos
    dsimp only [map_some] at hpos ⊢
    split at hpos
    · rename_i hgen
      rw [if_pos hgen]
    · exact absurd hpos (lt_irrefl 0)

theorem Charged.updated (h : e.Charged) (new : DiskClaim) (hd : e.disk = some row)
    (hdyn : row.dynamic = true) : let published : Bool := 0 < e.releasedMb row
    let e' : DiskEntry := { e with
      entry := { e.entry with workspaceCapacity := e.rereleased published new.workspaceMb }
      disk := some { row with workspaceMb := new.workspaceMb, memoryMb := new.memoryMb } }
    e'.Charged ∧ e'.claimMb = e.claimMb + new.deltaMb row.claim published := by
  intro published e'
  have hd' : e'.disk = some { row with workspaceMb := new.workspaceMb, memoryMb := new.memoryMb } :=
    rfl
  obtain ⟨owner,hr,hgen⟩ := h.owner hd
  have hunr (hp : owner.phase ∈ [Phase.planned,.importPlanned]) :=
    h.unreleased fun r hr' => some.inj (hr.symm.trans hr') ▸ hp
  by_cases hpos : 0 < e.releasedMb row
  · have hpub : published = true := decide_eq_true hpos
    have hrele : e'.releasedMb { row with
        workspaceMb := new.workspaceMb
        memoryMb := new.memoryMb } = max new.workspaceMb 1 :=
      releasedMb_rereleased hpos (by rw [← hpub])
    refine ⟨charged_of_row hr hd' hgen ?_ fun hp => ?_,?_⟩
    · rw [if_pos hdyn,Dynamic,hrele]
      exact fun _ => le_max_left _ _
    · rw [releasedMb_eq_zero (hunr hp)] at hpos
      exact absurd hpos (lt_irrefl 0)
    · rw [claimMb_of_disk hd',claimMb_of_disk hd,hrele,hpub]
      simp only [RegistrationDisk.claimMb,deltaMb,RegistrationDisk.claim,hdyn,if_true]
      omega
  · have hpub : published = false := decide_eq_false hpos
    have hw : e'.entry.workspaceCapacity = e.entry.workspaceCapacity := by
      simp only [e',rereleased,hpub,Bool.false_eq_true,if_false]
    have hrele (row) : e'.releasedMb row = e.releasedMb row := releasedMb_congr row hw
    refine ⟨charged_of_row hr hd' hgen ?_ fun hp w hw' => hunr hp w (hw ▸ hw'),?_⟩
    · rw [if_pos hdyn,Dynamic,hrele]
      exact fun hpos' => absurd hpos' hpos
    · have hsame : e.releasedMb { row with
          workspaceMb := new.workspaceMb
          memoryMb := new.memoryMb } = e.releasedMb row := rfl
      rw [claimMb_of_disk hd',claimMb_of_disk hd,hrele,hpub]
      simp only [RegistrationDisk.claimMb,deltaMb,RegistrationDisk.claim,
        Bool.false_eq_true,if_false]
      omega

end DiskEntry

namespace DiskRegistry

variable {capacityMb : Nat} {r r' : DiskRegistry} {sandboxId : String}

theorem planCandidate_ok {candidate spec split initialClaim}
    (h : r.planCandidate capacityMb sandboxId candidate spec split initialClaim = .ok r') :
    r' = r ∨ ∃ requestedMb entry, spec.requestedDiskMb = .ok requestedMb ∧
      (r.entry sandboxId).entry.rows.registration = none ∧
      (r.entry sandboxId).entry.planCandidate { candidate with memoryMb := spec.memoryMb }
        (capacityMb ≠ 0 && r.exhausted capacityMb
          (mib ((initialClaim.map totalMb).getD requestedMb : Nat))) = .ok entry ∧
      r' = r.set sandboxId {
        entry
        spec
        splitMemoryBacking := split
        disk := some (initialClaim.elim
          (writeDiskClaim (r.entry sandboxId).disk candidate.sandboxGeneration requestedMb)
          (writeDiskClaim (r.entry sandboxId).disk candidate.sandboxGeneration
            requestedMb).setDynamicClaim) } := by
  unfold planCandidate at h
  split at h
  · cases h
  rename_i requestedMb hreq
  dsimp only at h
  split at h
  · cases h
  rename_i entry hentry
  split at h
  · exact .inl (Except.ok.inj h).symm
  rename_i hnone
  cases h
  exact .inr ⟨requestedMb,entry,hreq,by simpa using hnone,hentry,rfl⟩

theorem planCandidate_sound {candidate spec split initialClaim} (hcap : capacityMb ≠ 0)
    (hs : r.Sound capacityMb)
    (h : r.planCandidate capacityMb sandboxId candidate spec split initialClaim = .ok r') :
    r'.Sound capacityMb := by
  obtain rfl | ⟨requestedMb,entry,hreq,hnone,hentry,rfl⟩ := planCandidate_ok h
  · exact hs
  have hchg := hs.charged sandboxId
  have hdisk := hchg.absent hnone
  have hzero := hchg.unreleased fun record hr => by rw [hnone] at hr; cases hr
  obtain ⟨rows,-,-,hrows,rfl⟩ := Entry.planCandidate_ok hentry
  obtain ⟨-,_,hr,-⟩ | ⟨-,hrows,-,-,hfull⟩ := planCandidate_cases hrows
  · cases hnone.symm.trans hr
  rw [hdisk]
  obtain ⟨hnew,hclaim⟩ := charged_of_plan (e := {
      entry := { (r.entry sandboxId).entry with rows }
      spec
      splitMemoryBacking := split
      disk := _ }) hreq rfl (congrArg (·.registration) hrows) rfl hzero
  refine hs.set (d := ((initialClaim.map totalMb).getD requestedMb : Nat)) hnew ?_ (.inr ?_)
  · rw [claimMb_of_none hdisk,zero_add]
    exact hclaim.le
  · simpa [hcap] using hfull

theorem move_sound {transition quotaTotalMb} (hs : r.Sound capacityMb)
    (hquota : transition.setsQuota = true → ∀ row, (r.entry sandboxId).disk = some row →
      row.dynamic = false → quotaTotalMb ≤ row.reservedMb ∧
        ∀ d, (r.entry sandboxId).spec.diskMb = some d → d ≤ quotaTotalMb)
    (h : r.move sandboxId transition quotaTotalMb = .ok r') : r'.Sound capacityMb := by
  unfold move at h
  dsimp only at h
  split at h
  · cases h
  rename_i entry hmoved
  obtain ⟨rows,hrows,rfl,-⟩ := moved_ok hmoved
  split at h
  · cases h
  rename_i updated hupd
  split at h
  · cases h
  · cases h
  rename_i reservedMb _ hrese
  cases h
  obtain ⟨record,_,hr,hr',hsame,-⟩ := Transition.apply_ok hrows
  cases hupd.symm.trans hr'
  have hchg := hs.charged sandboxId
  obtain ⟨row,hd,hgen⟩ := hchg.present record hr
  have hrow : ({ (r.entry sandboxId).entry with rows } : Entry).rows.registration = some updated :=
    hupd
  obtain ⟨hnew,hle⟩ := hchg.rewritten hd (hgen.trans hsame.generation) hrow
    (Transition.apply_phase hrows hupd) rfl hrese fun hfixed => by
      cases hq : transition.setsQuota with
      | false => exact .inl rfl
      | true =>
        rw [hq] at hrese
        cases hrese
        exact .inr (hquota hq row hd hfixed)
  rw [hd]
  exact hs.set (d := 0) hnew (by rwa [add_zero]) (.inl le_rfl)

theorem Sound.removed (hs : r.Sound capacityMb) {entry} (hr : entry.rows.registration = none)
    (hzero : ∀ w, entry.workspaceCapacity = some w → w.releasedMb = 0) :
    (r.set sandboxId { r.entry sandboxId with entry, disk := none }).Sound capacityMb := by
  refine hs.set (d := 0) ⟨fun _ => rfl,fun record h => ?_,nofun,nofun,fun _ => hzero⟩ ?_ (.inl le_rfl)
  · rw [hr] at h
    cases h
  · rw [add_zero]
    exact (hs.charged sandboxId).claimMb_nonneg

theorem abortImportPlanned_sound {revision migration retire} (hs : r.Sound capacityMb)
    (h : r.abortImportPlanned sandboxId revision migration retire = .ok r') : r'.Sound capacityMb := by
  obtain ⟨entry,hentry,rfl⟩ := ok_of_map_ok h
  obtain ⟨rows,hrows,rfl,-⟩ := moved_ok hentry
  obtain ⟨record,hr,hphase,-⟩ := abortImportPlanned_cases hrows
  refine hs.removed (abortImportPlanned_ok hrows) ?_
  refine (hs.charged sandboxId).unreleased fun record' hr' => ?_
  cases hr.symm.trans hr'
  simp [hphase]

variable {generation : Nat}

section
variable (hs : r.Sound capacityMb)
include hs

theorem Sound.kept {entry}
    (hr : entry.rows.registration = (r.entry sandboxId).entry.rows.registration)
    (hw : entry.workspaceCapacity = (r.entry sandboxId).entry.workspaceCapacity) :
    (r.set sandboxId { r.entry sandboxId with entry }).Sound capacityMb := by
  refine hs.set (d := 0) ((hs.charged sandboxId).of_entry hr hw) ?_ (.inl le_rfl)
  have hclaim : claimMb { r.entry sandboxId with entry } = (r.entry sandboxId).claimMb :=
    claimMb_congr rfl hw
  rw [hclaim,add_zero]

theorem reserveReflinkOverlap_sound {id allocatedBytes manifest}
    (h : r.reserveReflinkOverlap capacityMb id allocatedBytes manifest = .ok r') :
    r'.Sound capacityMb := by
  unfold reserveReflinkOverlap at h
  split at h
  · cases h
  split at h
  · cases h
  split at h
  · cases h
  split at h
  · split at h
    · cases h
      exact hs
    · cases h
  · rename_i hnew
    obtain ⟨hfits,h⟩ := of_guard h nofun
    cases h
    simp only [Bool.or_eq_true,decide_eq_true_eq,not_or,exhausted] at hfits
    refine ⟨hs.charged,?_⟩
    have hsum : tableSum ReflinkOverlap.allocatedBytes
        (r.overlaps.insert id ⟨allocatedBytes,manifest⟩) =
        tableSum ReflinkOverlap.allocatedBytes r.overlaps + allocatedBytes :=
      tableSum_insert_new _ _ (AList.lookup_eq_none.mp hnew)
    have hbytes := hfits.2
    unfold reservedDiskBytes at hbytes ⊢
    simp only [claimsMb] at hbytes ⊢
    omega

theorem releaseReflinkOverlap_sound {id manifest} (h : r.releaseReflinkOverlap id manifest = .ok r')
    : r'.Sound capacityMb := by
  unfold releaseReflinkOverlap at h
  split at h
  · cases h
  split at h
  · cases h
    exact hs
  · obtain ⟨-,h⟩ := of_guard h nofun
    cases h
    refine ⟨hs.charged,?_⟩
    have hsum := tableSum_erase ReflinkOverlap.allocatedBytes r.overlaps id
    have hfits := hs.fits
    unfold reservedDiskBytes at hfits ⊢
    simp only [claimsMb] at hfits ⊢
    omega

theorem updateDiskClaim_sound {workspaceMb memoryMb requireCapacity adopt claim}
    (hraise : requireCapacity = false → ∀ row held, (r.entry sandboxId).disk = some row →
      (r.entry sandboxId).dynamicRow row adopt = some held → (held.claim.updated workspaceMb
        memoryMb).deltaMb held.claim (0 < (r.entry sandboxId).releasedMb row) ≤ 0)
    (h : r.updateDiskClaim capacityMb sandboxId generation workspaceMb memoryMb requireCapacity adopt =
      .ok (r',claim)) : r'.Sound capacityMb := by
  unfold updateDiskClaim at h
  dsimp only at h
  split at h
  · cases h
  rename_i row hfil
  obtain ⟨hd,-⟩ := filter_eq_some_iff.mp hfil
  split at h
  · cases h
    exact hs
  rename_i held hheld
  have hchg := hs.charged sandboxId
  obtain ⟨hdyn,hgen,hado,hclaim⟩ := hchg.adopted hd hheld
  have hs₁ := hs.set (d := 0) hado (by rw [hclaim,add_zero]) (.inl le_rfl)
  split at h
  · cases h
    exact hs₁
  obtain ⟨hfits,h⟩ := of_guard h nofun
  cases h
  have hrele : releasedMb { r.entry sandboxId with disk := some held } held =
      (r.entry sandboxId).releasedMb row := by
    rw [releasedMb,releasedMb,hgen]
  have hupd := hado.updated (held.claim.updated workspaceMb memoryMb) rfl hdyn
  simp only [hrele] at hupd
  refine hs₁.set hupd.1 (by rw [entry_set_self]; exact hupd.2.le) ?_
  cases requireCapacity with
  | false => exact .inl (hraise rfl row held hd hheld)
  | true =>
    simp only [Bool.true_and,Bool.and_eq_true,decide_eq_true_eq,not_and,Bool.or_eq_true,
      not_or,Bool.not_eq_true] at hfits
    rcases Int.lt_or_le 0 ((held.claim.updated workspaceMb memoryMb).deltaMb held.claim
      (0 < (r.entry sandboxId).releasedMb row)) with hpos | hneg
    · exact .inr (hfits hpos).2
    · exact .inl hneg

theorem releasePublishedWorkspace_sound {workspaceMb expected released}
    (hpla : ∀ row, (r.entry sandboxId).disk = some row → row.dynamic = false →
      (r.entry sandboxId).spec.diskMb = some workspaceMb)
    (h : r.releasePublishedWorkspace sandboxId generation workspaceMb expected = .ok (r',released)) :
    r'.Sound capacityMb := by
  obtain ⟨⟨entry,_⟩,hentry,heq⟩ := ok_of_map_ok h
  obtain ⟨rfl,-⟩ := Prod.mk.inj heq
  obtain ⟨rfl,-⟩ | ⟨-,owner,hr,rfl,hphase,-,rfl⟩ := releasePublishedWorkspace_ok hentry
  · exact hs.kept rfl rfl
  have hchg := hs.charged sandboxId
  obtain ⟨row,hd,hgen⟩ := hchg.present owner hr
  obtain ⟨hnew,hle⟩ := hchg.released hr hphase hd hgen (hpla row hd)
  exact hs.set (d := 0) hnew (by rwa [add_zero]) (.inl le_rfl)

end

theorem reserveWorkspaceForMount_sound (hcap : capacityMb ≠ 0) (hs : r.Sound capacityMb)
    (h : r.reserveWorkspaceForMount capacityMb sandboxId generation = .ok r') :
    r'.Sound capacityMb := by
  obtain ⟨entry,hentry,rfl⟩ := ok_of_map_ok h
  have hfits := reserveWorkspaceForMount_fits hentry
  obtain ⟨owner,hr,hg,rfl⟩ := reserveWorkspaceForMount_ok hentry
  obtain ⟨hnew,hle⟩ := (hs.charged sandboxId).mounted hr hg
  refine hs.set hnew hle ?_
  rcases hfits with hzero | hfull
  · exact .inl (by rw [hzero]; exact le_rfl)
  · exact .inr (by simpa [hcap] using hfull)

theorem keepBooks_sound {operation} (hs : r.Sound capacityMb)
    (hkeep : ∀ e', (r.entry sandboxId).entry.Effect operation e' →
      e'.rows = (r.entry sandboxId).entry.rows ∧
        e'.workspaceCapacity = (r.entry sandboxId).entry.workspaceCapacity)
    (h : r.keepBooks sandboxId operation = .ok r') : r'.Sound capacityMb := by
  obtain ⟨entry,hentry,rfl⟩ := ok_of_map_ok h
  obtain ⟨hrows,hw⟩ := hkeep entry (effect_of_apply hentry)
  exact hs.kept (by rw [hrows]) hw

section
variable (r : DiskRegistry) (call : String × DiskOperation)

/-- Claim increases require capacity, a quota commit does not exceed the planned charge, and a
published workspace is released with its planned size. Neither is read for a dynamic claim. -/
def asPlanned : Bool :=
  let e := r.entry call.1
  match call.2 with
  | .updateDiskClaim _ workspaceMb memoryMb requireCapacity adopt => requireCapacity ||
    e.disk.all fun row => (e.dynamicRow row adopt).all fun held =>
      (held.claim.updated workspaceMb memoryMb).deltaMb held.claim (0 < e.releasedMb row) ≤ 0
  | .move transition quotaTotalMb => !transition.setsQuota ||
    e.disk.all fun row => row.dynamic || quotaTotalMb ≤ row.reservedMb
  | .releasePublishedWorkspace _ workspaceMb _ =>
    e.disk.all fun row => row.dynamic || e.spec.diskMb = some workspaceMb
  | _ => true

/-- A quota committed for a fixed claim also covers the workspace its spec plans. -/
def quotaCovers : Bool :=
  let e := r.entry call.1
  match call.2 with
  | .move transition quotaTotalMb => !transition.setsQuota ||
    e.disk.all fun row => row.dynamic || e.spec.diskMb.all (· ≤ quotaTotalMb)
  | _ => true

def AsPlanned : Prop := r.asPlanned call = true

def Covered : Prop :=
  r.asPlanned call = true ∧ r.quotaCovers call = true

end

instance (r : DiskRegistry) (call : String × DiskOperation) : Decidable (r.AsPlanned call) :=
  inferInstanceAs (Decidable (_ = true))

instance (r : DiskRegistry) (call : String × DiskOperation) : Decidable (r.Covered call) :=
  inferInstanceAs (Decidable (_ ∧ _))

theorem Sound.step (hcap : capacityMb ≠ 0) {call} (hs : r.Sound capacityMb) (hok : r.Covered call)
    (h : r.step capacityMb call = some r') : r'.Sound capacityMb := by
  obtain ⟨sandboxId,operation⟩ := call
  obtain ⟨hpla,hcov⟩ := hok
  have h : r.apply capacityMb sandboxId operation = .ok r' := by
    unfold DiskRegistry.step at h
    cases ha : r.apply capacityMb sandboxId operation with
    | error => rw [ha] at h; cases h
    | ok => rw [ha] at h; rw [some.inj h]
  cases operation with
  | plan candidate spec split =>
    rw [apply,plan] at h
    split at h
    · cases h
    · exact planCandidate_sound hcap hs h
  | planImport => exact planCandidate_sound hcap hs h
  | move =>
    refine move_sound hs (fun hq row hd hfixed => ?_) h
    simp only [asPlanned,quotaCovers,hq,hd,hfixed,Bool.not_true,Bool.false_or,all_some,
      decide_eq_true_eq] at hpla hcov
    exact ⟨hpla,fun d hdisk => by simpa [hdisk] using hcov⟩
  | abortImportPlanned => exact abortImportPlanned_sound hs h
  | commitDeleted =>
    obtain ⟨entry,hentry,rfl⟩ := ok_of_map_ok h
    cases commitDeleted_effect hentry with
    | deleted hrows => exact hs.removed (commitDeleted_ok hrows) nofun
  | updateDiskClaim =>
    obtain ⟨⟨_,_⟩,hupda,rfl⟩ := ok_of_map_ok h
    refine updateDiskClaim_sound hs (fun hreq row held hd hheld => ?_) hupda
    simpa [asPlanned,hreq,hd,hheld] using hpla
  | releasePublishedWorkspace =>
    obtain ⟨⟨_,_⟩,hrls,rfl⟩ := ok_of_map_ok h
    refine releasePublishedWorkspace_sound hs (fun row hd hfixed => ?_) hrls
    simpa [asPlanned,hd,hfixed] using hpla
  | reserveWorkspaceForMount => exact reserveWorkspaceForMount_sound hcap hs h
  | reserveReflinkOverlap =>
    exact reserveReflinkOverlap_sound hs h
  | releaseReflinkOverlap => exact releaseReflinkOverlap_sound hs h
  | bindRuntimeCompatibility | growthIntent =>
    exact keepBooks_sound hs (fun _ heff => by cases heff; exact ⟨rfl,rfl⟩) h
  | relayWakeFence =>
    exact keepBooks_sound hs (fun _ heff => by cases heff <;> exact ⟨rfl,rfl⟩) h

theorem sound_start (capacityMb) : Sound capacityMb {} := by
  refine ⟨fun _ => ⟨fun _ => rfl,nofun,nofun,nofun,nofun⟩,?_⟩
  have hzero : reservedDiskBytes {} = 0 := rfl
  rw [mib]
  omega

theorem start_empty : Start {} := rfl

namespace Example
open Entry.Example (candidate)

def spec (diskMb : Nat) (h : some diskMb ≠ some 0 := by decide) : DiskSpec :=
  ⟨false,some 512,some diskMb,by decide,h,nofun⟩

def created (quotaTotalMb : Nat) : List (String × DiskOperation) :=
  [("a", .plan (candidate 1) (spec 100) true none),
    ("a", .move (.commitRootfs 1 true) quotaTotalMb),
    ("a", .move (.commitOwned 2) 0)]

def neighbour : String × DiskOperation := ("b", .plan (candidate 1) (spec 140) false none)

end Example

open Example

/-- For a quota below the workspace a release takes off more than was charged, and an adoption
charges the whole workspace without asking for capacity. -/
theorem small_quota_overcommits :
    (∃ r, Reaches (step 150) AsPlanned Start r ∧ (r.entry "a").claimMb < 0) ∧
      ∃ r, Reaches (step 150) AsPlanned Start r ∧ mib 150 < r.reservedDiskBytes :=
  ⟨Reaches.exists_of_runMeeting (step 150) _ start_empty (created 1 ++
      [("a", .releasePublishedWorkspace 1 100 0)]) _ (by decide +kernel),
    Reaches.exists_of_runMeeting (step 150) _ start_empty (created 1 ++
      [neighbour,
        ("a", .updateDiskClaim 1 none none true true)]) _ (by decide +kernel)⟩

/-- The hard capacity is never overcommitted and no net charge is negative, in every run in which
claim increases require capacity, releases are as planned, and a quota commit stays within the
planned charge and covers the planned workspace. -/
theorem disk_never_overcommitted {capacityMb : Nat} (hcap : capacityMb ≠ 0) {r : DiskRegistry}
    (h : Reaches (step capacityMb) Covered Start r) :
    r.reservedDiskBytes ≤ mib capacityMb ∧ ∀ sandboxId, 0 ≤ (r.entry sandboxId).claimMb := by
  have hsound : r.Sound capacityMb := by
    exact h.keeps (sound_start capacityMb) fun s call s' hs => hs.step hcap
  exact ⟨hsound.fits,fun sandboxId => (hsound.charged sandboxId).claimMb_nonneg⟩

/-- A workspace released and adopted, and another sandbox planned into the room it left. -/
theorem disk_never_overcommitted_published : ∃ r, Reaches (step 150) Covered Start r ∧
    r.reservedDiskBytes = mib 140 ∧ r.reservedDiskBytes ≤ mib 150 ∧
      ∀ sandboxId, 0 ≤ (r.entry sandboxId).claimMb := by
  obtain ⟨r,hr,heq⟩ := Reaches.exists_of_runMeeting (step 150) Covered start_empty (created 100 ++
    [("a", .releasePublishedWorkspace 1 100 0),
      neighbour,
      ("a", .updateDiskClaim 1 none none true true)]) (·.reservedDiskBytes = mib 140) (by decide +kernel)
  exact ⟨r,hr,heq,disk_never_overcommitted (by decide) hr⟩

end DiskRegistry
end UCloudSandboxes.Registry
