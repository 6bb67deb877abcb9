import UCloudSandboxes.Registry.Entry

namespace UCloudSandboxes.Registry
open Machine SandboxRows Registration Transition Option Bool

theorem Registration.validate_asPlanned {r candidate : Registration}
    (hsame : candidate.SameIdentity r) (h : r.validate = .ok ()) :
    candidate.asPlanned.validate = .ok () := by
  obtain ⟨hg,ho,hc,-,-,-⟩ := validate_iff.mp h
  rw [← hsame.generation] at hg
  rw [← hsame.operation] at ho
  rw [← hsame.compatibility] at hc
  exact validate_iff.mpr ⟨hg,ho,hc,absurd rfl,absurd rfl,rfl⟩

theorem Registration.validate_asImport {r candidate : Registration}
    (hsame : candidate.SameIdentity r) (hm : r.migrationId ≠ "") (h : r.validate = .ok ()) :
    (candidate.asImport ⟨r.migrationId,r.migrationSha256⟩).validate = .ok () := by
  obtain ⟨hg,ho,hc,hid,hsha,hvalid⟩ := validate_iff.mp h
  rw [← hsame.generation] at hg
  rw [← hsame.operation] at ho
  rw [← hsame.compatibility] at hc
  refine validate_iff.mpr ⟨hg,ho,hc,hid,hsha,?_⟩
  simp only [migrationOwnershipValid,and_eq_true] at hvalid ⊢
  exact ⟨hvalid.1,by simp [asImport,hm]⟩

/-- A transition keeps the migration, starts a move after retiring the old one, or aborts it. -/
inductive Transition.Change (rows rows' : SandboxRows) (record updated : Registration) : Prop
  | kept : rows'.migrationTombstones = rows.migrationTombstones →
      updated.migrationId = record.migrationId →
      (record.phase ∈ [Phase.owned,.movingOut,.deleting] → updated.phase = .deleting) → Change ..
  | out : rows'.migrationTombstones = (rows.retireIfMigrating record).migrationTombstones →
      updated.phase = .movingOut → Change ..
  | back : rows'.migrationTombstones = rows.migrationTombstones → record.phase = .movingOut →
      updated.migrationId = "" → Change ..

def Transition.Applied (rows rows' : SandboxRows) : Prop :=
  ∃ record updated, rows.registration = some record ∧ rows'.registration = some updated ∧
    record.SameIdentity updated ∧ rows'.generationTombstone = rows.generationTombstone ∧
    Transition.Change rows rows' record updated ∧ updated.phase ≠ .importPlanned

private theorem transition_kept {rows rows' revision fences phase} (hreti : fences.retire = false)
    (hpla : phase ≠ .importPlanned)
    (hphase : ∀ p ∈ fences.fromPhases, p ∈ [Phase.owned,.movingOut,.deleting] → phase = .deleting)
    (h : rows.transition revision fences phase id = .ok rows') :
    Transition.Applied rows rows' := by
  obtain ⟨record,hr,hold,rfl⟩ := transition_eq h
  refine ⟨record,_,hr,rfl,⟨rfl,rfl,rfl,rfl⟩,?_,.kept ?_ rfl fun hp => ?_,hpla⟩
  · simp [hreti]
  · simp [hreti]
  · exact hphase record.phase (Fences.hold_phase hold) hp

theorem Transition.apply_ok {rows rows'} {transition : Transition}
    (h : transition.apply rows = .ok rows') :
    Transition.Applied rows rows' := by
  cases transition with
  | beginMoveOut =>
    rw [apply] at h
    obtain ⟨record,hr,-,rfl⟩ := transition_eq h
    refine ⟨record,_,hr,rfl,⟨rfl,rfl,rfl,rfl⟩,?_,.out rfl rfl,nofun⟩
    simp only [if_true,retireIfMigrating]
    split <;> rfl
  | abortMoveOut =>
    rw [apply] at h
    obtain ⟨record,hr,hold,rfl⟩ := transition_eq h
    have hphase := Fences.hold_phase hold
    refine ⟨record,_,hr,rfl,⟨rfl,rfl,rfl,rfl⟩,rfl,.back rfl ?_ rfl,nofun⟩
    simpa [Fences.fenced] using hphase
  | commitRootfs revision quota => exact transition_kept rfl (by decide) (by cases quota <;> decide) h
  | commitQuota revision | commitOwned revision | commitImportQuota revision
  | commitImportRootfs revision | commitImportReady revision migration
  | activateImport revision migration | beginDelete revision expectedGeneration
  | beginDeleteMoved revision migration | beginDeleteImport revision migration =>
    exact transition_kept rfl (by decide) (by simp [Fences.fenced]) h

namespace SandboxRows

variable {rows rows' : SandboxRows} {revision : Nat}

theorem mem_retireIfMigrating {record} (h : record.migrationId ≠ "") :
    record.migrationId ∈ (rows.retireIfMigrating record).migrationTombstones := by
  rw [retireIfMigrating,if_pos h]
  exact .head _

theorem subset_retireIfMigrating (rows : SandboxRows) (record) :
    rows.migrationTombstones ⊆ (rows.retireIfMigrating record).migrationTombstones := by
  unfold retireIfMigrating
  split
  · exact List.subset_cons_self _ _
  · exact List.Subset.refl _

def RetiredGeneration (rows : SandboxRows) (generation : Nat) : Prop :=
  ∃ tombstone, rows.generationTombstone = some tombstone ∧ generation ≤ tombstone

def RetiredMigration (rows : SandboxRows) (migrationId : String) : Prop :=
  migrationId ∈ rows.migrationTombstones

structure KeepsTombstones (rows rows' : SandboxRows) : Prop where
  generation : ∀ {generation}, rows.RetiredGeneration generation → rows'.RetiredGeneration generation
  migration : ∀ {migrationId}, rows.RetiredMigration migrationId → rows'.RetiredMigration migrationId

theorem KeepsTombstones.of_eq (hg : rows'.generationTombstone = rows.generationTombstone)
    (hm : rows.migrationTombstones ⊆ rows'.migrationTombstones) : KeepsTombstones rows rows' where
  generation h := by rwa [RetiredGeneration,hg]
  migration h := hm h

theorem KeepsTombstones.refl (rows) : KeepsTombstones rows rows :=
  .of_eq rfl (List.Subset.refl _)

theorem KeepsTombstones.planCandidate {candidate full}
    (h : rows.planCandidate candidate full = .ok rows') : KeepsTombstones rows rows' := by
  obtain ⟨rfl,-⟩ | ⟨-,rfl,-⟩ := planCandidate_cases h
  · exact .refl _
  · exact .of_eq rfl (List.Subset.refl _)

theorem KeepsTombstones.transition {transition : Transition} (h : transition.apply rows = .ok rows') :
    KeepsTombstones rows rows' := by
  obtain ⟨record,updated,-,-,-,hg,hchg,-⟩ := apply_ok h
  refine .of_eq hg ?_
  cases hchg with
  | kept hm | back hm => exact hm ▸ List.Subset.refl _
  | out hm => exact hm ▸ subset_retireIfMigrating rows record

theorem KeepsTombstones.abortImportPlanned {migration retire}
    (h : rows.abortImportPlanned revision migration retire = .ok rows') :
    KeepsTombstones rows rows' := by
  obtain ⟨record,-,-,rfl⟩ := abortImportPlanned_cases h
  cases retire with
  | true => exact .of_eq rfl (List.subset_cons_self _ _)
  | false => exact .of_eq rfl (List.Subset.refl _)

theorem KeepsTombstones.commitDeleted {generation}
    (h : rows.commitDeleted generation revision = .ok rows') : KeepsTombstones rows rows' := by
  obtain ⟨record,-,-,-,rfl⟩ := commitDeleted_cases h
  refine ⟨fun ⟨tombstone,ht,hle⟩ => ⟨_,rfl,?_⟩,fun hm => subset_retireIfMigrating rows record hm⟩
  rw [ht]
  exact Nat.le_trans hle (Nat.le_max_left ..)

end SandboxRows

namespace Entry

variable {e e' : Entry} {operation : Operation} {migrationId : String}

theorem Effect.keepsTombstones (h : e.Effect operation e') : e.rows.KeepsTombstones e'.rows := by
  cases h with
  | planned h | imported h =>
    obtain ⟨rows,-,-,hrows,rfl⟩ := planCandidate_ok h
    exact .planCandidate hrows
  | moved h => exact .transition h
  | aborted h => exact .abortImportPlanned h
  | deleted h => exact .commitDeleted h
  | bound _ _ | grown _ | fenced | read | kept | released _ _ _ _ | reserved _ _ => exact .refl _

theorem keepsTombstones_of_reaches {t} (h : Reaches step anyEvent (· = e) t) :
    e.rows.KeepsTombstones t.rows := by
  refine h.keeps (I := fun t => e.rows.KeepsTombstones t.rows) (.refl _) ?_
  intro s operation s' ih _ hs
  have hstep := (effect_of_step hs).keepsTombstones
  exact ⟨fun hg => hstep.generation (ih.generation hg),fun hm => hstep.migration (ih.migration hm)⟩

/-- The stored record validates and belongs to the bound compatibility. -/
structure Consistent (e : Entry) : Prop where
  valid : ∀ {r}, e.rows.registration = some r → r.validate = .ok ()
  compatible : ∀ {r bound}, e.rows.registration = some r → e.runtimeCompatibility = some bound →
    bound = r.runtimeCompatibilitySha256

theorem Consistent.planCandidate {candidate full} (hc : e.Consistent)
    (h : e.planCandidate candidate full = .ok e') : e'.Consistent := by
  obtain ⟨rows,hv,hb,hrows,rfl⟩ := planCandidate_ok h
  obtain ⟨rfl,-⟩ | ⟨-,rfl,-⟩ := planCandidate_cases hrows
  · exact hc
  refine ⟨fun hr => ?_,fun hr hbound => ?_⟩
  · exact some.inj hr ▸ hv
  · exact some.inj hr ▸ hb _ hbound

theorem Effect.consistent (h : e.Effect operation e') (hc : e.Consistent) : e'.Consistent := by
  cases h with
  | bound _ hrows =>
    exact ⟨hc.valid,fun hr hb => (some.inj hb).symm.trans (hrows _ hr).symm⟩
  | planned h | imported h => exact hc.planCandidate h
  | moved h hv =>
    obtain ⟨record,updated,hr,hr',hsame,-,-⟩ := apply_ok h
    refine ⟨hv _,fun hu hb => ?_⟩
    obtain rfl : updated = _ := some.inj (hr'.symm.trans hu)
    exact (hc.compatible hr hb).trans hsame.compatibility
  | aborted h =>
    have hnone := abortImportPlanned_ok h
    exact ⟨fun hr => by simp [hnone] at hr,fun hr => by simp [hnone] at hr⟩
  | deleted h =>
    have hnone := commitDeleted_ok h
    exact ⟨fun hr => by simp [hnone] at hr,fun hr => by simp [hnone] at hr⟩
  | grown _ | fenced | read | kept | released _ _ _ _ | reserved _ _ => exact ⟨hc.valid,hc.compatible⟩

/-- Once activated under `M`, a registration keeps it until `M` is retired. -/
def KeptOrRetired (migrationId : String) (e : Entry) : Prop :=
  e.rows.RetiredMigration migrationId ∨ ∃ r, e.rows.registration = some r ∧
    r.migrationId = migrationId ∧ (r.phase = .owned ∨ r.phase = .deleting)

theorem Effect.keptOrRetired (h : e.Effect operation e') (hid : migrationId ≠ "")
    (hk : KeptOrRetired migrationId e) : KeptOrRetired migrationId e' := by
  obtain hret | ⟨r,hr,rfl,hphase⟩ := hk
  · exact .inl (h.keepsTombstones.migration hret)
  cases h with
  | planned h | imported h =>
    obtain ⟨rows,-,-,hrows,rfl⟩ := planCandidate_ok h
    obtain ⟨rfl,-⟩ | ⟨hnone,-⟩ := planCandidate_cases hrows
    · exact .inr ⟨r,hr,rfl,hphase⟩
    · simp [hr] at hnone
  | moved h =>
    obtain ⟨record,updated,hrec,hr',-,-,hchg,-⟩ := apply_ok h
    obtain rfl : r = record := some.inj (hr.symm.trans hrec)
    cases hchg with
    | kept _ hm hdel =>
      refine .inr ⟨updated,hr',hm,.inr (hdel ?_)⟩
      obtain hp | hp := hphase <;> simp [hp]
    | out hm =>
      rw [KeptOrRetired,SandboxRows.RetiredMigration,hm]
      exact .inl (mem_retireIfMigrating hid)
    | back _ hp => simp [hp] at hphase
  | aborted h =>
    obtain ⟨record,hrec,hp,-⟩ := abortImportPlanned_cases h
    obtain rfl : r = record := some.inj (hr.symm.trans hrec)
    simp [hp] at hphase
  | deleted h =>
    obtain ⟨record,hrec,-,-,rfl⟩ := commitDeleted_cases h
    obtain rfl : r = record := some.inj (hr.symm.trans hrec)
    exact .inl (mem_retireIfMigrating hid)
  | bound _ _ | grown _ | fenced | read | kept | released _ _ _ _ | reserved _ _ =>
    exact .inr ⟨r,hr,rfl,hphase⟩

/-- Under a retired migration a registration can only be on its way out. -/
structure OnlyLeaving (migrationId : String) (e : Entry) : Prop where
  retired : e.rows.RetiredMigration migrationId
  leaving : ∀ {r}, e.rows.registration = some r → r.migrationId = migrationId →
    r.phase = .movingOut ∨ r.phase = .deleting

theorem Effect.onlyLeaving (h : e.Effect operation e') (hid : migrationId ≠ "")
    (hl : OnlyLeaving migrationId e) : OnlyLeaving migrationId e' := by
  refine ⟨h.keepsTombstones.migration hl.retired,fun {r} hr hm => ?_⟩
  cases h with
  | planned h =>
    obtain ⟨rows,-,-,hrows,rfl⟩ := planCandidate_ok h
    obtain ⟨rfl,-⟩ | ⟨-,rfl,-⟩ := planCandidate_cases hrows
    · exact hl.leaving hr hm
    · cases hr
      exact absurd hm hid.symm
  | imported h =>
    obtain ⟨rows,-,-,hrows,rfl⟩ := planCandidate_ok h
    obtain ⟨rfl,-⟩ | ⟨-,rfl,hfresh,-⟩ := planCandidate_cases hrows
    · exact hl.leaving hr hm
    · cases hr
      exact absurd (hm ▸ hl.retired) (hfresh rfl)
  | moved h =>
    obtain ⟨record,updated,hrec,hr',-,-,hchg,-⟩ := apply_ok h
    obtain rfl : updated = r := some.inj (hr'.symm.trans hr)
    cases hchg with
    | kept _ hmig hdel =>
      have hphase := hl.leaving hrec (hmig.symm.trans hm)
      exact .inr (hdel (by obtain hp | hp := hphase <;> simp [hp]))
    | out _ hp => exact .inl hp
    | back _ _ hempty => exact absurd (hempty.symm.trans hm) hid.symm
  | aborted h => simp [abortImportPlanned_ok h] at hr
  | deleted h => simp [commitDeleted_ok h] at hr
  | bound _ _ | grown _ | fenced | read | kept | released _ _ _ _ | reserved _ _ =>
    exact hl.leaving hr hm

theorem activateImport_ok {revision migration} (hc : e.Consistent)
    (h : e.apply (.move (.activateImport revision migration)) = .ok e') :
    migration.id ≠ "" ∧ KeptOrRetired migration.id e' := by
  obtain ⟨rows,hrows,rfl,-⟩ := moved_ok h
  obtain ⟨record,hr,hold,rfl⟩ := transition_eq hrows
  have hid : record.migrationId = migration.id := Fences.hold_migration rfl hold
  have hphase : record.phase = .importReady := by simpa [Fences.fenced] using Fences.hold_phase hold
  have hvalid := (validate_iff.mp (hc.valid hr)).2.2.2.2.2
  simp only [migrationOwnershipValid,hphase,and_eq_true] at hvalid
  have hne : record.migrationId ≠ "" := by simpa using hvalid.2.symm
  exact ⟨hid ▸ hne,.inr ⟨_,rfl,hid,.inl rfl⟩⟩

theorem onlyLeaving_of_activation {t u revision migration} (hc : e.Consistent)
    (h : e.apply (.move (.activateImport revision migration)) = .ok e')
    (ht : Reaches step anyEvent (· = e') t)
    (hleft : ∀ r, t.rows.registration = some r → r.migrationId ≠ migration.id)
    (hu : Reaches step anyEvent (· = t) u) : OnlyLeaving migration.id u := by
  obtain ⟨hid,hkept⟩ := activateImport_ok hc h
  have hkept : KeptOrRetired migration.id t := by
    exact ht.keeps hkept fun s operation s' hk _ hs => (effect_of_step hs).keptOrRetired hid hk
  have hret : t.rows.RetiredMigration migration.id := by
    obtain hret | ⟨r,hr,hm,-⟩ := hkept
    · exact hret
    · exact absurd hm (hleft r hr)
  exact hu.keeps ⟨hret,fun hr hm => absurd hm (hleft _ hr)⟩ fun s operation s' hl _ hs =>
    (effect_of_step hs).onlyLeaving hid hl

theorem Consistent.replay {r candidate full} (hc : e.Consistent)
    (hr : e.rows.registration = some r) (hsame : candidate.SameIdentity r)
    (hvalid : candidate.validate = .ok ())
    (hmig : candidate.phase = .importPlanned → r.migrationId = candidate.migrationId ∧
      r.migrationSha256 = candidate.migrationSha256) : e.planCandidate candidate full = .ok e := by
  have hbound : e.runtimeCompatibility.any (· ≠ candidate.runtimeCompatibilitySha256) = false := by
    cases hb : e.runtimeCompatibility with
    | none => rfl
    | some => simp [hc.compatible hr hb,hsame.compatibility]
  have hrows : e.rows.planCandidate candidate full = .ok e.rows := by
    unfold SandboxRows.planCandidate
    rw [hr]
    dsimp only
    rw [if_pos]
    simp only [hsame.generation,hsame.operation,hsame.spec,hsame.compatibility,decide_true,
      Bool.true_and,or_eq_true,not_eq_true',decide_eq_false_iff_not,and_eq_true,
      decide_eq_true_eq]
    by_cases hp : candidate.phase = .importPlanned
    · exact .inr (hmig hp)
    · exact .inl hp
  unfold Entry.planCandidate
  rw [hvalid]
  rw [hbound,hrows]
  rfl

/-- No plan of a deleted generation and no import under a retired migration registers again; a
repeated plan returns the registration present. -/
theorem retired_identities_register_nothing {e : Entry} (he : Reaches step anyEvent Start e) :
    (∀ {generation revision overlap e' t candidate full t'},
      e.apply (.commitDeleted generation revision overlap) = .ok e' →
      Reaches step anyEvent (· = e') t → candidate.sandboxGeneration ≤ generation →
      t.plan candidate full = .ok t' →
      t' = t ∧ ∃ existing, t.rows.registration = some existing ∧ candidate.SameIdentity existing) ∧
    (∀ {revision migration e' t u candidate sha256 full u'},
      e.apply (.move (.activateImport revision migration)) = .ok e' →
      Reaches step anyEvent (· = e') t →
      (∀ r, t.rows.registration = some r → r.migrationId ≠ migration.id) →
      Reaches step anyEvent (· = t) u → u.planImport candidate ⟨migration.id,sha256⟩ full = .ok u' →
      u' = u ∧ ∃ existing, u.rows.registration = some existing ∧ candidate.SameIdentity existing ∧
        existing.migrationId = migration.id ∧
        (existing.phase = .movingOut ∨ existing.phase = .deleting)) ∧
    (∀ {r candidate full}, e.rows.registration = some r → candidate.SameIdentity r →
      e.plan candidate full = .ok e ∧ (r.migrationId ≠ "" →
        e.planImport candidate ⟨r.migrationId,r.migrationSha256⟩ full = .ok e)) := by
  have hc : e.Consistent := by
    refine he.invariant ?_ fun s operation s' hc _ hs => (effect_of_step hs).consistent hc
    rintro _ ⟨sandboxId,rfl⟩
    exact ⟨nofun,nofun⟩
  refine ⟨?_,?_,?_⟩
  · intro generation revision overlap e' t candidate full t' hd ht hle hplan
    have hretir : e'.rows.RetiredGeneration generation := by
      cases effect_of_apply hd with
      | deleted hrows =>
        obtain ⟨record,-,-,-,rfl⟩ := commitDeleted_cases hrows
        exact ⟨_,rfl,Nat.le_max_right ..⟩
    have hret := (keepsTombstones_of_reaches ht).generation hretir
    obtain ⟨tombstone,htom,hg⟩ := hret
    obtain ⟨rows,-,-,hrows,rfl⟩ := planCandidate_ok hplan
    obtain ⟨rfl,existing,hr,hsame,-⟩ | ⟨-,-,-,hfresh,-⟩ := planCandidate_cases hrows
    · exact ⟨rfl,existing,hr,hsame.generation,hsame.operation,hsame.spec,hsame.compatibility⟩
    · have hlt : tombstone < candidate.sandboxGeneration := hfresh nofun tombstone htom
      omega
  · intro revision migration e' t u candidate sha256 full u' ha ht hleft hu hplan
    have hl := onlyLeaving_of_activation hc ha ht hleft hu
    obtain ⟨rows,-,-,hrows,rfl⟩ := planCandidate_ok hplan
    obtain ⟨rfl,existing,hr,hsame,hm⟩ | ⟨-,-,hfresh,-⟩ := planCandidate_cases hrows
    · refine ⟨rfl,existing,hr,?_,(hm rfl).1,hl.leaving hr (hm rfl).1⟩
      exact ⟨hsame.generation,hsame.operation,hsame.spec,hsame.compatibility⟩
    · exact absurd hl.retired (hfresh rfl)
  · intro r candidate full hr hsame
    refine ⟨hc.replay hr ?_ (validate_asPlanned hsame (hc.valid hr)) nofun,fun hm => ?_⟩
    · exact ⟨hsame.generation,hsame.operation,hsame.spec,hsame.compatibility⟩
    · refine hc.replay hr ?_ (validate_asImport hsame hm (hc.valid hr)) fun _ => ⟨rfl,rfl⟩
      exact ⟨hsame.generation,hsame.operation,hsame.spec,hsame.compatibility⟩

namespace Example

def deleting : Entry :=
  { empty with rows.registration := some { candidate 1 with phase := .deleting, revision := 4 } }

theorem reaches_deleting : Reaches step anyEvent Start deleting := by
  have hrun : run step empty [.plan (candidate 1) false, .move (.commitRootfs 1 true),
      .move (.commitOwned 2), .move (.beginDelete 3 none)] = some deleting := by decide +kernel
  exact .of_run (.start ⟨_,rfl⟩) hrun

def deleted : Entry := { empty with rows.generationTombstone := some 1 }

def imported : Entry :=
  { deleted with rows.registration := some ((candidate 1).asImport migration) }

def ready : Entry :=
  let record := { (candidate 1).asImport migration with phase := .importReady, revision := 4 }
  { empty with rows.registration := some record }

theorem reaches_ready : Reaches step anyEvent Start ready := by
  have hrun : run step empty [.planImport (candidate 1) migration false,
      .move (.commitImportQuota 1), .move (.commitImportRootfs 2),
      .move (.commitImportReady 3 migration)] = some ready := by decide +kernel
  exact .of_run (.start ⟨_,rfl⟩) hrun

def activated : Entry :=
  let record := { (candidate 1).asImport migration with phase := .owned, revision := 5 }
  { empty with rows.registration := some record }

def left : Entry := { deleted with rows.migrationTombstones := ["move"] }

def leaving : Entry :=
  { left with rows.registration := some { candidate 2 with
      phase := .movingOut
      migrationId := "move"
      migrationSha256 := digest
      revision := 4 } }

end Example

open Example

theorem retired_identities_register_nothing_deleted :
    deleting.apply (.commitDeleted 1 4 false) = .ok deleted ∧
      deleting.plan (candidate 1) false = .ok deleting ∧
      ∀ t full t', Reaches step anyEvent (· = deleted) t →
        t.plan (candidate 1) full = .ok t' → t' = t := by
  have hdele : deleting.apply (.commitDeleted 1 4 false) = .ok deleted := by
    decide +kernel
  have hparts := retired_identities_register_nothing reaches_deleting
  refine ⟨hdele,(hparts.2.2 rfl ⟨rfl,rfl,rfl,rfl⟩).1,fun t full t' ht hplan => ?_⟩
  exact (hparts.1 hdele ht (Nat.le_refl 1) hplan).1

/-- A deleted generation comes back by import, and a local plan of it is then a replay; so is
an import under a retired migration that a later registration moves out under. -/
theorem retired_identities_replayed : (Reaches step anyEvent Start deleting ∧
      deleting.apply (.commitDeleted 1 4 false) = .ok deleted ∧
      Reaches step anyEvent (· = deleted) imported ∧
      imported.plan (candidate 1) false = .ok imported) ∧
    (Reaches step anyEvent Start ready ∧
      ready.apply (.move (.activateImport 4 migration)) = .ok activated ∧
      Reaches step anyEvent (· = activated) left ∧
      left.rows.registration = none ∧
      Reaches step anyEvent (· = left) leaving ∧
      leaving.planImport (candidate 2) migration false = .ok leaving) := by
  have himp : run step deleted [.planImport (candidate 1) migration false] = some imported := by
    decide +kernel
  have hleft : run step activated [.move (.beginDelete 5 none), .commitDeleted 1 6 false] =
      some left := by
    decide +kernel
  have hlea : run step left [.plan (candidate 2) false,
      .move (.commitRootfs 1 true), .move (.commitOwned 2),
      .move (.beginMoveOut 3 migration)] = some leaving := by
    decide +kernel
  refine ⟨⟨reaches_deleting,?_,.of_run (.start rfl) himp,?_⟩,
    reaches_ready,?_,.of_run (.start rfl) hleft,rfl,.of_run (.start rfl) hlea,?_⟩ <;>
  decide +kernel

theorem revision_of_apply {rows rows'} {transition : Transition}
    (h : transition.apply rows = .ok rows') : ∃ r r', rows.registration = some r ∧
      rows'.registration = some r' ∧ r'.revision = r.revision + 1 := by
  cases transition <;>
  · rw [Transition.apply] at h
    obtain ⟨r,hr,-,hr'⟩ := transition_ok h
    exact ⟨r,_,hr,hr',rfl⟩

/-- While a registration stands, its revision never goes back and names one version of the record. -/
theorem revision_names_version {e e' : Entry} {r r' : Registration}
    (h : Reaches step (fun s _ => s.rows.registration.isSome) (· = e) e')
    (hr : e.rows.registration = some r) (hr' : e'.rows.registration = some r') :
    r.revision ≤ r'.revision ∧ (r'.revision = r.revision → r' = r) := by
  refine h.keeps (I := fun s => ∀ r', s.rows.registration = some r' →
    r.revision ≤ r'.revision ∧ (r'.revision = r.revision → r' = r)) ?_ ?_ r' hr'
  · intro r' hr'
    cases hr.symm.trans hr'
    exact ⟨le_rfl,fun _ => rfl⟩
  intro s operation s' ih hok hs r' hr'
  cases effect_of_step hs with
  | planned h | imported h =>
    obtain ⟨rows,-,-,hrows,rfl⟩ := planCandidate_ok h
    obtain ⟨rfl,-⟩ | ⟨hnone,-⟩ := planCandidate_cases hrows
    · exact ih r' hr'
    · simp [hnone] at hok
  | moved h =>
    obtain ⟨old,new,hold,hnew,hrev⟩ := revision_of_apply h
    cases hnew.symm.trans hr'
    have hle := (ih old hold).1
    exact ⟨by omega,fun heq => absurd heq (by omega)⟩
  | aborted h => simp [abortImportPlanned_ok h] at hr'
  | deleted h => simp [commitDeleted_ok h] at hr'
  | bound _ _ | grown _ | fenced | read | kept | released _ _ _ _ | reserved _ _ => exact ih r' hr'

theorem revision_names_version_activated :
    ∃ r, activated.rows.registration = some r ∧ 4 ≤ r.revision := by
  have hstep : ready.step (.move (.activateImport 4 migration)) = some activated := by decide +kernel
  exact ⟨_,rfl,(revision_names_version (.step (.start rfl) rfl hstep) rfl rfl).1⟩

end Entry
end UCloudSandboxes.Registry
