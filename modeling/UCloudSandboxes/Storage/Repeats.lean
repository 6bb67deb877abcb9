import UCloudSandboxes.Storage.Published

/-! Calls that the node repeats under one operation id, told apart by the revision they were made
at. -/
namespace UCloudSandboxes.Storage
open Machine Record Option

/-- A row of `operations`; the digest of its request stands for kind and revision. -/
structure Operation where
  operationId : String
  kind : Kind
  expectedRevision : Nat
  deriving DecidableEq

/-- The journal with its operation rows. Creates and imports keep theirs under step names of their
own. -/
structure Journal where
  volume : Volume := {}
  operations : List Operation := []
  deriving DecidableEq

inductive JournalEvent where
  | begin (id : String) (kind : Kind) (expectedRevision : Nat)
  | work (e : Event)

namespace Journal

variable (j : Journal)

def used (id : String) : Bool := j.operations.any (·.operationId = id)

def begin (id : String) (kind : Kind) (expectedRevision : Nat) : Option Journal :=
  if j.volume.record.any (·.revision = expectedRevision) then
    (step j.volume (.begin kind)).map fun volume =>
      { volume, operations := ⟨id,kind,expectedRevision⟩ :: j.operations }
  else none

def advance : JournalEvent → Option Journal
  | .begin id kind expectedRevision =>
    -- a row under the id is replayed or refused, and nothing is written
    if j.used id then some j else j.begin id kind expectedRevision
  | .work (.begin _) => none
  | .work e => (step j.volume e).map fun volume => { j with volume }

/-- The record of an operation asked for at the revision just read whose calls all succeed. `status`
tells how operations with a row ended. -/
def operate (status : String → Status) (id : String) (kind : Kind) (r : Record) : Option Record :=
  match j.operations.find? (·.operationId = id) with
  | some op => if op = ⟨id,kind,r.revision⟩ && status id = .completed then some r else none
  | none => (r.begin kind).bind (·.succeed kind 0 r.chain)

end Journal

/-- `supersede_publication`: local lifecycle goes ahead of a slow upload. -/
def Record.supersedePublication (r : Record) : Record :=
  if r.state = .publishing then { r with
    revision := r.revision + 1, state := .released
    operation := r.operation.map fun op => (op.1, .failed), error := "" }
  else r

inductive Call where
  | deleteVolume
  | publishSnapshot

namespace Call

def target : Call → VolumeState
  | deleteVolume => .deleted
  | publishSnapshot => .published

/-- `converge_volume` for one call, alone and with nothing left that could fail. -/
def run (c : Call) (status : String → Status) (id : String) (j : Journal) : Option Record :=
  j.volume.record.bind fun r =>
    if r.state = c.target then some r
    else match c with
      | deleteVolume => j.operate status id .deleteVolume r.supersedePublication
      | publishSnapshot =>
        if r.state = .released then j.operate status id .publishSnapshot r else none

def accepts (r : Record) : Call → Bool
  | deleteVolume => Kind.deleteVolume.allowedStates.contains r.supersedePublication.state
  | publishSnapshot => r.state = .released && r.sealedLayerPaths ≠ []

/-- The volume is there already, or the id was never used and the record accepts the call. -/
def ready (c : Call) (id : String) (j : Journal) : Bool :=
  j.volume.record.any fun r => r.state = c.target || !j.used id && c.accepts r

end Call

variable {v v' : Volume} {r r' : Record} {j j' : Journal} {c : Call} {kind : Kind} {id : String}
  {status : String → Status}

def Volume.revision (v : Volume) : Nat := v.record.elim 0 (·.revision)

theorem succeed_revision {capture publication} (h : r.succeed kind capture publication = some r') :
    r'.revision = r.revision := by
  cases kind <;> simp only [succeed] at h <;> (try split at h) <;> cases h <;> rfl

theorem reconcile_revision (ownerMatches deletion) :
    r.revision ≤ (r.reconcile ownerMatches deletion).revision := by
  unfold reconcile
  repeat' split
  all_goals simp [markReconcileError,fail,succeed]

theorem fenced_revision {p write} (hs : v.fenced p write = some v')
    (hw : ∀ r, write r = some v' → r.revision ≤ v'.revision) : v.revision ≤ v'.revision := by
  obtain ⟨-,hs⟩ := of_check hs nofun
  split at hs
  · rename_i r hr
    rw [Volume.revision,hr]
    split at hs
    · exact hw r hs
    · cases hs
      simp [Volume.revision,hr]
  · cases hs

theorem step_begin (hr : v.record = some r) (hs : step v (.begin kind) = some v') :
    v'.revision = r.revision + 1 := by
  simp only [step,hr] at hs
  split at hs
  · rename_i r' hb
    cases hs
    obtain ⟨-,rfl⟩ := begin_some hb
    cases kind <;> rfl
  · cases hs

theorem step_revision {e} (hs : step v e = some v') : v.revision ≤ v'.revision := by
  cases e with
  | createVolume | supersede =>
    simp only [step] at hs
    split at hs
    · rename_i hr
      first | cases hs | cases (some_of_check hs).2
      simp [Volume.revision,hr]
    · cases hs
  | acquireSnapshot =>
    cases (some_of_check hs).2
    cases h : v.record <;> simp [Volume.revision,h]
  | begin kind =>
    cases hr : v.record with
    | none => simp [Volume.revision,hr]
    | some r =>
      rw [step_begin hr hs,Volume.revision,hr]
      exact Nat.le_succ _
  | succeed p =>
    refine fenced_revision hs fun r hw => ?_
    obtain ⟨r',hr',rfl⟩ := map_eq_some_iff.mp hw
    rw [← succeed_revision hr']
    cases p.kind <;> exact Nat.le_refl _
  | fail =>
    refine fenced_revision hs fun r hw => ?_
    cases hw
    exact Nat.le_refl _
  | stall | adopt =>
    refine fenced_revision (of_check hs (by simp)).2 fun r hw => ?_
    first | cases hw | cases (some_of_check hw).2
    exact Nat.le_refl _
  | crash =>
    cases hs
    exact Nat.le_refl _
  | reconcile ownerMatches deletion =>
    cases (some_of_check hs).2
    cases h : v.record <;> simp [Volume.revision,h,reconcile_revision]

namespace Journal

/-- Every row was begun at a revision the record has left. -/
def Bounded (j : Journal) : Prop := ∀ op ∈ j.operations, op.expectedRevision < j.volume.revision

theorem Bounded.step (h : j.Bounded) {e} (hs : step j.volume e = some v) :
    { j with volume := v : Journal }.Bounded :=
  fun op hop => Nat.lt_of_lt_of_le (h op hop) (step_revision hs)

theorem Bounded.advance (h : j.Bounded) {e} (hs : j.advance e = some j') : j'.Bounded := by
  cases e with
  | begin id kind n =>
    simp only [Journal.advance] at hs
    split at hs
    · cases hs
      exact h
    · obtain ⟨hrev,hs⟩ := of_check hs nofun
      obtain ⟨r,hr,hn⟩ := (any_eq_true _ _).mp hrev
      obtain ⟨v,hv,rfl⟩ := map_eq_some_iff.mp hs
      intro op hop
      rcases List.mem_cons.mp hop with rfl | hop
      · rw [step_begin hr hv,of_decide_eq_true hn]
        exact Nat.lt_succ_self _
      · exact h.step hv op hop
  | work e =>
    cases e
    case begin => cases hs
    all_goals
      simp only [Journal.advance,map_eq_some_iff] at hs
      obtain ⟨v,hv,rfl⟩ := hs
      exact h.step hv

theorem operate_eq (h : j.Bounded) (hr : j.volume.revision ≤ r.revision) :
    j.operate status id kind r =
      if j.used id then none else (r.begin kind).bind (·.succeed kind 0 r.chain) := by
  rw [operate]
  split
  · rename_i op hop
    have hmem := List.mem_of_find?_eq_some hop
    have hlt := Nat.lt_of_lt_of_le (h op hmem) hr
    have hused : j.used id = true := List.any_eq_true.mpr ⟨op,hmem,by simpa using List.find?_some hop⟩
    rw [if_pos hused]
    refine if_neg fun heq => ?_
    simp only [Bool.and_eq_true,decide_eq_true_eq] at heq
    exact absurd hlt (heq.1 ▸ Nat.lt_irrefl _)
  · rename_i hnone
    rw [if_neg]
    simpa [used] using hnone

end Journal

open Call

theorem run_state (h : j.Bounded) :
    (c.run status id j).map (·.state) = if c.ready id j then some c.target else none := by
  rw [Call.run,Call.ready]
  cases hr : j.volume.record with
  | none => rfl
  | some r =>
    have hrev : j.volume.revision = r.revision := by rw [Volume.revision,hr]; rfl
    rw [bind_some,any_some]
    by_cases hs : r.state = c.target
    · simp [hs]
    rw [if_neg hs,decide_eq_false hs]
    cases c with
    | deleteVolume =>
      have hle : r.revision ≤ r.supersedePublication.revision := by
        rw [supersedePublication]
        split <;> simp
      simp only [Journal.operate_eq h (hrev ▸ hle)]
      cases j.used id <;>
        by_cases ha : r.supersedePublication.state ∈ Kind.deleteVolume.allowedStates <;>
        simp [begin,succeed,accepts,target,ha]
    | publishSnapshot =>
      simp only [Journal.operate_eq h (Nat.le_of_eq hrev)]
      cases j.used id <;> by_cases ha : r.state = .released <;> by_cases hl : r.sealedLayerPaths = [] <;>
        simp [begin,succeed,accepts,target,Kind.allowedStates,chain, ha,hl]

/-- A repeated call succeeds exactly when the volume is there already or no attempt left a row under
its id; repeated after success it changes nothing. -/
theorem repeated_call_succeeds_iff (c : Call) (status id)
    (hj : Reaches Journal.advance anyEvent (· = {}) j) :
    ((∃ r, c.run status id j = some r ∧ r.state = c.target) ↔ c.ready id j = true) ∧
      ∀ r j', c.run status id j = some r → j'.volume.record = some r →
        c.run status id j' = some r := by
  have hb : j.Bounded := by
    refine hj.keeps (fun _ hop => ?_) fun _ _ _ hi _ => hi.advance
    cases hop
  have hstate : (c.run status id j).map (·.state) = _ := run_state hb
  refine ⟨⟨?_,fun h => ?_⟩,fun r j' hrun hr => ?_⟩
  · rintro ⟨r,hrun,-⟩
    rw [hrun] at hstate
    exact (of_check hstate.symm nofun).1
  · rw [if_pos h] at hstate
    exact map_eq_some_iff.mp hstate
  · rw [hrun] at hstate
    have hs := some.inj (of_check hstate.symm nofun).2
    rw [Call.run,hr,bind_some,if_pos hs.symm]

namespace Example

def parked : List JournalEvent :=
  [.work .createVolume, .work (.succeed ⟨1,.createVolume⟩ 0 []), .begin "seal" .freezeAndSeal 1,
   .work (.succeed ⟨2,.freezeAndSeal⟩ 1 []), .begin "release" .releaseRuntime 2,
   .work (.succeed ⟨3,.releaseRuntime⟩ 0 [])]

theorem reaches_of_parked (es) {j} (h : Machine.run Journal.advance {} (parked ++ es) = some j) :
    Reaches Journal.advance anyEvent (· = {}) j := .of_run (.start rfl) h

end Example

theorem repeated_call_succeeds_first : ∃ j r, Reaches Journal.advance anyEvent (· = {}) j ∧
    publishSnapshot.run (fun _ => .failed) "publish" j = some r ∧ r.state = .published := by
  have hj := Example.reaches_of_parked [] rfl
  obtain ⟨r,hr⟩ := (repeated_call_succeeds_iff .publishSnapshot (fun _ => .failed) "publish" hj).1.mpr rfl
  exact ⟨_,r,hj,hr⟩

/-- An upload or a deletion that failed once is refused under its id for good. -/
theorem failed_call_stays_refused :
    (∃ j, Reaches Journal.advance anyEvent (· = {}) j ∧ j.volume.record.any (·.state = .released) ∧
      publishSnapshot.run (fun _ => .failed) "publish" j = none) ∧
    ∃ j, Reaches Journal.advance anyEvent (· = {}) j ∧ j.volume.record.any (·.state = .error) ∧
      deleteVolume.run (fun _ => .failed) "delete" j = none :=
  ⟨⟨_,Example.reaches_of_parked [.begin "publish" .publishSnapshot 3,
    .work (.fail ⟨4,.publishSnapshot⟩ "unreachable")] rfl,rfl,rfl⟩,
   ⟨_,Example.reaches_of_parked [.begin "delete" .deleteVolume 3,
    .work (.fail ⟨4,.deleteVolume⟩ "busy")] rfl,rfl,rfl⟩⟩

end UCloudSandboxes.Storage
