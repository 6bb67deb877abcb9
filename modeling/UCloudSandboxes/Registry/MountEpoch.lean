import UCloudSandboxes.Registry.Retired

/-! Publishers against mounts. A publisher captures the mount epoch, publishes without the lifecycle
lock, and releases with that epoch; every mount, deletion and import in between is meant to refuse
it. -/
namespace UCloudSandboxes.Registry
open Machine Option

/-- An epoch a publisher holds. `fresh` says that nothing superseded it since. -/
structure Capture where
  sandboxGeneration : Nat
  mountEpoch : Nat
  fresh : Bool := true
  deriving DecidableEq

structure Publishing where
  entry : Entry
  captures : List Capture := []
  deriving DecidableEq

inductive Publishing.Event where
  | call (operation : Operation)
  | capture (sandboxGeneration : Nat)
  | finish (publisher : Nat)
  deriving DecidableEq

def Operation.supersedes (e : Entry) (generation : Nat) : Operation → Bool
  | .reserveWorkspaceForMount mounted _ => mounted = generation
  | .commitDeleted deleted _ _ => deleted = generation
  | .abortImportPlanned _ _ _ => e.rows.registration.any (·.sandboxGeneration = generation)
  | .planImport candidate _ _ =>
    e.rows.registration.isNone && candidate.sandboxGeneration = generation
  | _ => false

def Capture.after (c : Capture) (e : Entry) (operation : Operation) : Capture :=
  if operation.supersedes e c.sandboxGeneration then { c with fresh := false } else c

namespace Publishing

variable (s : Publishing)

def step : Event → Option Publishing
  | .call operation => (s.entry.step operation).map fun entry =>
      { entry, captures := s.captures.map (·.after s.entry operation) }
  | .capture generation =>
    let capture : Capture := ⟨generation,(s.entry.mountEpoch generation).1,true⟩
    some { s with captures := capture :: s.captures }
  | .finish publisher => some { s with captures := s.captures.eraseIdx publisher }

def Start : Prop := s.entry.Start ∧ s.captures = []

/-- Epochs are captured of an incarnation past `import_planned`, and an import registers a
generation only when no publisher holds an epoch of it. -/
def fits : Event → Bool
  | .capture generation => s.entry.rows.registration.any fun r =>
      r.sandboxGeneration = generation && r.phase ≠ .importPlanned
  | .call (.planImport candidate _ _) => s.entry.rows.registration.isSome ||
      s.captures.all (·.sandboxGeneration ≠ candidate.sandboxGeneration)
  | _ => true

def Fits (event : Event) : Prop := s.fits event = true

instance (s : Publishing) (event : Event) : Decidable (s.Fits event) :=
  inferInstanceAs (Decidable (_ = true))

end Publishing

/-- The captured epoch's incarnation is there, with a later epoch once superseded; or it was deleted
for good. -/
inductive Capture.Held (e : Entry) (c : Capture) : Prop
  | present {owner} : e.rows.registration = some owner →
      owner.sandboxGeneration = c.sandboxGeneration → owner.phase ≠ .importPlanned →
      c.mountEpoch ≤ (e.mountEpoch c.sandboxGeneration).1 →
      (c.fresh = false → c.mountEpoch < (e.mountEpoch c.sandboxGeneration).1) → Held e c
  | gone : e.rows.RetiredGeneration c.sandboxGeneration →
      (∀ r, e.rows.registration = some r → r.sandboxGeneration ≠ c.sandboxGeneration) → Held e c

namespace Capture

@[simp]
theorem after_generation (c : Capture) (e operation) :
    (c.after e operation).sandboxGeneration = c.sandboxGeneration := by
  unfold after
  split <;> rfl

@[simp]
theorem after_epoch (c : Capture) (e operation) : (c.after e operation).mountEpoch = c.mountEpoch := by
  unfold after
  split <;> rfl

variable {e : Entry} {c : Capture} {operation : Operation}

theorem Held.after {e'} (h : c.Held e') (hkeep : operation.supersedes e c.sandboxGeneration = false) :
    (c.after e operation).Held e' := by
  rw [Capture.after,hkeep]
  exact h

theorem Held.congr {e'} (h : c.Held e) (hrows : e'.rows = e.rows)
    (hwor : e'.workspaceCapacity = e.workspaceCapacity) : c.Held e' := by
  have hepoch : e'.mountEpoch c.sandboxGeneration = e.mountEpoch c.sandboxGeneration := by
    rw [Entry.mountEpoch,Entry.mountEpoch,hwor]
  cases h with
  | present hr hg hp hle hlt =>
    exact .present (hrows ▸ hr) hg hp (hepoch ▸ hle) (fun hf => hepoch ▸ hlt hf)
  | gone hret habsent => exact .gone (hrows ▸ hret) (hrows ▸ habsent)

theorem Held.moved {rows} {transition : Transition} (h : c.Held e)
    (hrows : transition.apply e.rows = .ok rows) : c.Held { e with rows } := by
  obtain ⟨record,updated,hr,hr',hsame,htom,-,hphase⟩ := Transition.apply_ok hrows
  cases h with
  | @present owner howner hg _ hle hlt =>
    obtain rfl : owner = record := some.inj (howner.symm.trans hr)
    exact .present hr' (hsame.generation.symm.trans hg) hphase hle hlt
  | gone hret habsent =>
    refine .gone ?_ fun r hrow => ?_
    · rwa [SandboxRows.RetiredGeneration,htom]
    · obtain rfl : updated = r := some.inj (hr'.symm.trans hrow)
      exact hsame.generation ▸ habsent record hr

theorem Held.planned {e' candidate full} (h : c.Held e)
    (hplan : e.planCandidate candidate full = .ok e')
    (hother : e.rows.registration = none → e.rows.RetiredGeneration c.sandboxGeneration →
      candidate.phase = .importPlanned → candidate.sandboxGeneration ≠ c.sandboxGeneration) :
    c.Held e' := by
  obtain ⟨rows,-,-,hrows,rfl⟩ := Entry.planCandidate_ok hplan
  obtain ⟨rfl,-⟩ | ⟨hnone,rfl,-,hlocal,-⟩ := SandboxRows.planCandidate_cases hrows
  · exact h
  cases h with
  | present hr => simp [hnone] at hr
  | gone hret =>
    refine .gone hret fun r hr => ?_
    cases hr
    by_cases hp : candidate.phase = .importPlanned
    · exact hother hnone hret hp
    obtain ⟨tombstone,ht,hle⟩ := hret
    have hlt := hlocal hp tombstone ht
    omega

theorem Held.deleted {rows generation revision growth} (h : c.Held e)
    (hrows : e.rows.commitDeleted generation revision = .ok rows) :
    (c.after e operation).Held { e with rows, workspaceCapacity := none, growth } := by
  have hkeeps := SandboxRows.KeepsTombstones.commitDeleted hrows
  obtain ⟨record,hr,-,rfl,rfl⟩ := SandboxRows.commitDeleted_cases hrows
  refine .gone ?_ nofun
  rw [after_generation]
  cases h with
  | @present owner howner hg _ _ _ =>
    obtain rfl : owner = record := some.inj (howner.symm.trans hr)
    exact ⟨_,rfl,hg ▸ Nat.le_max_right ..⟩
  | gone hret => exact hkeeps.generation hret

theorem Held.aborted {rows revision migration retire} (h : c.Held e)
    (hrows : e.rows.abortImportPlanned revision migration retire = .ok rows) :
    (c.after e operation).Held { e with rows } := by
  have hkeeps := SandboxRows.KeepsTombstones.abortImportPlanned hrows
  have hnone := SandboxRows.abortImportPlanned_ok hrows
  obtain ⟨record,hr,hp,-⟩ := SandboxRows.abortImportPlanned_cases hrows
  cases h with
  | @present owner howner _ hphase _ _ =>
    obtain rfl : owner = record := some.inj (howner.symm.trans hr)
    exact absurd hp hphase
  | gone hret =>
    refine .gone ?_ fun r hr => ?_
    · rw [after_generation]
      exact hkeeps.generation hret
    · simp [hnone] at hr

theorem mountEpoch_of_row {generation epoch releasedMb} :
    Entry.mountEpoch { e with workspaceCapacity := some ⟨generation,epoch,releasedMb⟩ } generation =
      (epoch,releasedMb) :=
  if_pos rfl

theorem Held.released {owner releasedMb} (h : c.Held e) (hr : e.rows.registration = some owner) :
    c.Held { e with workspaceCapacity := some ⟨owner.sandboxGeneration,
      (e.mountEpoch owner.sandboxGeneration).1,releasedMb⟩ } := by
  cases h with
  | @present owner' howner hg hp hle hlt =>
    obtain rfl : owner' = owner := some.inj (howner.symm.trans hr)
    rw [← hg] at hle hlt
    refine .present hr hg hp ?_ fun hf => ?_
    · rwa [← hg,mountEpoch_of_row]
    · rw [← hg,mountEpoch_of_row]
      exact hlt hf
  | gone hret habsent => exact .gone hret habsent

theorem Held.reserved {owner full} (h : c.Held e) (hr : e.rows.registration = some owner) :
    (c.after e (.reserveWorkspaceForMount owner.sandboxGeneration full)).Held
      { e with workspaceCapacity := some ⟨owner.sandboxGeneration,
        (e.mountEpoch owner.sandboxGeneration).1 + 1,0⟩ } := by
  cases h with
  | @present owner' howner hg hp hle _ =>
    obtain rfl : owner' = owner := some.inj (howner.symm.trans hr)
    rw [← hg] at hle
    have hlt : c.mountEpoch < (e.mountEpoch owner'.sandboxGeneration).1 + 1 := Nat.lt_succ_of_le hle
    refine .present hr (by simpa using hg) hp ?_ fun _ => ?_
    all_goals rw [after_generation,after_epoch,← hg,mountEpoch_of_row]
    · exact Nat.le_of_lt hlt
    · exact hlt
  | gone hret habsent =>
    exact .gone (by simpa using hret) (by simpa using habsent)

theorem Held.effect {e'} (h : c.Held e) (heff : e.Effect operation e')
    (himp : ∀ candidate migration full, operation = .planImport candidate migration full →
      e.rows.registration = none → candidate.sandboxGeneration ≠ c.sandboxGeneration) :
    (c.after e operation).Held e' := by
  cases heff with
  | planned hplan => exact (h.planned hplan nofun).after rfl
  | @imported candidate migration full _ hplan =>
    have hother := himp candidate migration full rfl
    refine (h.planned hplan fun hnone _ _ => hother hnone).after ?_
    cases hr : e.rows.registration with
    | some => simp [Operation.supersedes,hr]
    | none => simp [Operation.supersedes,hother hr]
  | moved hrows => exact (h.moved hrows).after rfl
  | aborted hrows => exact h.aborted hrows
  | deleted hrows => exact h.deleted hrows
  | released hr hg _ hepoch =>
    subst hg hepoch
    exact (h.released hr).after rfl
  | reserved hr hg =>
    subst hg
    exact h.reserved hr
  | bound _ _ | grown _ | fenced | read | kept => refine Held.after (h.congr ?_ ?_) ?_ <;> rfl

end Capture

namespace Publishing

theorem held_step {s s' : Publishing} {event} (h : ∀ c ∈ s.captures, c.Held s.entry)
    (hfits : s.Fits event) (hs : s.step event = some s') : ∀ c ∈ s'.captures, c.Held s'.entry := by
  cases event with
  | call =>
    obtain ⟨entry,hentry,rfl⟩ := map_eq_some_iff.mp hs
    intro c' hc'
    obtain ⟨c,hc,rfl⟩ := List.mem_map.mp hc'
    refine (h c hc).effect (Entry.effect_of_step hentry) ?_
    rintro candidate migration full rfl hnone
    have hall : s.captures.all (·.sandboxGeneration ≠ candidate.sandboxGeneration) = true := by
      simpa [Fits,fits,hnone] using hfits
    have hne := List.all_eq_true.mp hall c hc
    exact fun hg => by simp [hg] at hne
  | capture =>
    cases hs
    obtain ⟨owner,hr,howner⟩ := (any_eq_true _ _).mp hfits
    simp only [Bool.and_eq_true,decide_eq_true_eq] at howner
    rintro c (_ | ⟨_,hc⟩)
    · exact .present hr howner.1 howner.2 (Nat.le_refl _) nofun
    · exact h c hc
  | finish =>
    cases hs
    exact fun c hc => h c (List.mem_of_mem_eraseIdx hc)

theorem held_of_reaches {s} (h : Reaches step Fits Start s) : ∀ c ∈ s.captures, c.Held s.entry := by
  refine h.invariant ?_ fun _ _ _ => held_step
  rintro s ⟨-,hnone⟩
  simp [hnone]

/-- In every run that fits, a release takes effect only if no mount, deletion or import happened
since its capture. -/
theorem release_takes_effect_only_fresh {s : Publishing} (h : Reaches step Fits Start s) {c : Capture}
    (hc : c ∈ s.captures) {workspaceMb : Nat} {claim : Option Nat} {e' : Entry}
    (hr : s.entry.releasePublishedWorkspace c.sandboxGeneration workspaceMb c.mountEpoch claim =
      .ok (e',true)) : c.fresh = true := by
  obtain ⟨-,hfalse⟩ | ⟨-,owner,hrow,hg,-,hepoch,-⟩ := Entry.releasePublishedWorkspace_ok hr
  · cases hfalse
  cases held_of_reaches h c hc with
  | present _ _ _ _ hlt =>
    cases hfresh : c.fresh with
    | true => rfl
    | false =>
      have := hlt hfresh
      omega
  | gone _ habsent => exact absurd hg (habsent owner hrow)

namespace Example
open Entry.Example (candidate digest migration empty)

def mounted : List Event :=
  [.call (.plan (candidate 1) false), .call (.move (.commitRootfs 1 true)),
    .call (.move (.commitOwned 2)), .call (.reserveWorkspaceForMount 1 false), .capture 1]

def movedOutAndBack : List Event :=
  [.call (.move (.beginMoveOut 3 ⟨"out",digest⟩)), .call (.move (.beginDeleteMoved 4 ⟨"out",digest⟩)),
    .call (.commitDeleted 1 5 false), .call (.planImport (candidate 1) migration false),
    .call (.move (.commitImportQuota 1)), .call (.move (.commitImportRootfs 2)),
    .call (.move (.commitImportReady 3 migration)), .call (.move (.activateImport 4 migration)),
    .call (.reserveWorkspaceForMount 1 false)]

def releases (s : Publishing) (p : Capture → Bool) : Bool :=
  s.captures.any fun c => p c &&
    match s.entry.releasePublishedWorkspace c.sandboxGeneration 64 c.mountEpoch none with
    | .ok (_,released) => released
    | .error _ => false

theorem start_empty : Start ⟨Entry.Example.empty,[]⟩ := ⟨⟨_,rfl⟩,rfl⟩

theorem exists_release {s p} (h : releases s p = true) :
    ∃ c ∈ s.captures, p c = true ∧ ∃ e', s.entry.releasePublishedWorkspace c.sandboxGeneration 64
      c.mountEpoch none = .ok (e',true) := by
  obtain ⟨c,hc,hp⟩ := List.any_eq_true.mp h
  simp only [Bool.and_eq_true] at hp
  refine ⟨c,hc,hp.1,?_⟩
  have hr := hp.2
  split at hr
  · rename_i e' released hrls
    exact ⟨e',by rw [hrls,hr]⟩
  · cases hr

end Example

open Example

/-- The epoch restarts with a re-import: the old publisher's release takes effect on the workspace
mounted again. -/
theorem release_after_reimport : ∃ s, Reaches step anyEvent Start s ∧ ∃ c ∈ s.captures,
    c.fresh = false ∧ ∃ e', s.entry.releasePublishedWorkspace c.sandboxGeneration 64 c.mountEpoch none =
      .ok (e',true) := by
  obtain ⟨s,hs,hp⟩ := Reaches.exists_of_run step start_empty (mounted ++ movedOutAndBack)
    (fun s => releases s (!·.fresh) = true) (by decide +kernel)
  obtain ⟨c,hc,hfresh,hrls⟩ := exists_release hp
  exact ⟨s,hs,c,hc,by simpa using hfresh,hrls⟩

theorem release_takes_effect_only_fresh_mounted : ∃ s, Reaches step Fits Start s ∧
    ∃ c ∈ s.captures, (∃ e', s.entry.releasePublishedWorkspace c.sandboxGeneration 64 c.mountEpoch
      none = .ok (e',true)) ∧ c.fresh = true := by
  obtain ⟨s,hs,hp⟩ := Reaches.exists_of_runMeeting step Fits start_empty mounted
    (fun s => releases s (fun _ => true) = true) (by decide +kernel)
  obtain ⟨c,hc,-,e',hrls⟩ := exists_release hp
  exact ⟨s,hs,c,hc,⟨e',hrls⟩,release_takes_effect_only_fresh hs hc hrls⟩

end Publishing
end UCloudSandboxes.Registry
