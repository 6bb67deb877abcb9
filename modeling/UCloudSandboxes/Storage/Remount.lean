import UCloudSandboxes.Storage.Published

/-! A mount that fails in the daemon's hands can be discarded and repeated; one that a crash cuts
off cannot. -/
namespace UCloudSandboxes.Storage
open Machine Option Record

namespace Volume

def operate (v : Volume) (kind : Kind) : Option Volume :=
  run step v [.begin kind, .succeed ⟨v.record.elim 0 (·.revision) + 1,kind⟩ 0 []]

/-- A discard settles the volume on the layers of `r`, and a mount after it succeeds. -/
def Recovers (v : Volume) (r : Record) : Prop :=
  ∃ d w m, v.operate .discardMountedCow = some d ∧ d.record = some w ∧
    (w.state = .released ∨ w.state = .published) ∧ w.publishedLayers = r.publishedLayers ∧
    w.sealedLayerPaths = r.sealedLayerPaths ∧ d.operate .mountSnapshotCow = some m ∧
    m.record.map (·.state) = some .mounted

/-- In the middle of a mount: begun, and with the compactions it took over so far. -/
structure Mounting (v : Volume) (r : Record) : Prop where
  record : v.record = some r
  state : r.state = .acquiring
  running : ⟨r.revision,.mountSnapshotCow⟩ ∈ v.running

/-- The mount journals its failure, or the daemon ends before and is reconciled at its next start. -/
inductive Interruption where
  | exception (error : String)
  | crash (ownerMatches : Bool) (deletion : Record.Deletion)

def interrupted (v : Volume) (r : Record) : Interruption → Option Volume
  | .exception error => step v (.fail ⟨r.revision,.mountSnapshotCow⟩ error)
  | .crash ownerMatches deletion => run step v [.crash, .reconcile ownerMatches deletion]

variable {v v' : Volume} {r f : Record}

theorem operate_record {kind} (hr : v.record = some r) (hk : kind.completesAtOnce = false) :
    (v.operate kind).bind (·.record) = (r.begin kind).bind (·.succeed kind 0 []) := by
  cases hb : r.begin kind with
  | none => simp [operate,run,step,hr,hb]
  | some b =>
    have hrev : b.revision = r.revision + 1 := by
      obtain ⟨_,rfl⟩ := some_of_check hb
      rfl
    cases hs : b.succeed kind 0 [] <;> cases kind <;>
      simp_all [operate,run,step,fenced,recordBegin,recordSucceed]

theorem recovers_iff (hr : v.record = some r) (hs : r.state = .error) :
    v.Recovers r ↔ r.recoverMount = true := by
  constructor
  · rintro ⟨d,w,-,hd,hw,-⟩
    have h := operate_record hr (rfl : Kind.discardMountedCow.completesAtOnce = false)
    by_contra hf
    simp [hd,hw,begin,Kind.allowedStates,hs,hf] at h
  · intro hf
    have hl : r.hasLayers = true := (Bool.and_eq_true _ _ ▸ hf).2
    obtain ⟨d,hd,hw⟩ := bind_eq_some_iff.mp <|
      (operate_record hr (rfl : Kind.discardMountedCow.completesAtOnce = false)).trans <| by
        rw [begin,if_pos (by simp [hf])]
        exact if_pos hl
    obtain ⟨m,hm,hstate⟩ := bind_eq_some_iff.mp <|
      (operate_record hw (rfl : Kind.mountSnapshotCow.completesAtOnce = false)).trans <| by
        rw [begin,if_pos (by simp [Kind.allowedStates])]
        exact if_pos hl
    refine ⟨d,_,m,hd,hw,?_,rfl,rfl,hm,by rw [hstate]; rfl⟩
    by_cases hp : r.publishedLayers = [] <;> simp [hp]

/-- An interrupted mount can be discarded and repeated exactly when the volume has layers and its
failure was journaled. -/
theorem interrupted_mount_recovers_iff {i : Interruption} (h : v.Mounting r)
    (hi : v.interrupted r i = some v') :
    v'.Recovers r ↔ r.hasLayers = true ∧ ∃ error, i = .exception error := by
  cases i with
  | exception error =>
    simp only [interrupted,step,fenced,h.running,h.record] at hi
    cases hi
    show Recovers _ (r.fail .mountSnapshotCow error) ↔ _
    have hl : (r.fail .mountSnapshotCow error).hasLayers = r.hasLayers := rfl
    rw [recovers_iff rfl rfl,recoverMount,hl]
    simp [fail]
  | crash ownerMatches deletion =>
    obtain ⟨error,hf⟩ : ∃ error, r.reconcile ownerMatches deletion = r.markReconcileError error := by
      cases ownerMatches <;> simp [reconcile,h.state,ownsDevice]
    simp only [interrupted,run,step,h.record,bind_some,map_some,hf] at hi
    cases hi
    show Recovers _ (r.markReconcileError error) ↔ _
    rw [recovers_iff rfl rfl]
    simp [markReconcileError,recoverMount]

end Volume

namespace Example

def importMounted : List Event :=
  [.acquireSnapshot [⟨[0]⟩], .succeed ⟨1,.acquireSnapshot⟩ 0 [], .begin .mountSnapshotCow]

def mountBegun : Record := ⟨2,.acquiring,some (.mountSnapshotCow,.pending),[],[⟨[0]⟩],""⟩

def mounting : Volume :=
  { record := some mountBegun, running := [⟨2,.mountSnapshotCow⟩], committed := some [0] }

theorem mounting_reached : Reaches step anyEvent Start mounting ∧ mounting.Mounting mountBegun :=
  ⟨.of_run (.start new_starts) (show run step {} importMounted = _ from rfl),rfl,rfl,.head _⟩

end Example

open Example

theorem interrupted_mount_recovers_exception : ∃ v',
    mounting.interrupted mountBegun (.exception "busy") = some v' ∧ v'.Recovers mountBegun :=
  ⟨_,rfl,(Volume.interrupted_mount_recovers_iff mounting_reached.2 rfl).mpr ⟨rfl,"busy",rfl⟩⟩

/-- A mount that a crash cuts off stays in error, though its device is still its own. -/
theorem crashed_mount_stays_lost : ∃ v v' r, Reaches step anyEvent Start v ∧ v.Mounting r ∧
    v.interrupted r (.crash true .done) = some v' ∧ ¬ v'.Recovers r := by
  refine ⟨_,_,_,mounting_reached.1,mounting_reached.2,rfl,?_⟩
  rintro ⟨d,_,_,hd,-⟩
  cases hd

end UCloudSandboxes.Storage
