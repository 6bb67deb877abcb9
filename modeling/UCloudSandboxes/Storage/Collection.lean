import UCloudSandboxes.Machine.Basic
import UCloudSandboxes.Machine.Table

/-! The snapshot collector of an object store: two reads a run, markers that persist, and deletes
sent one by one while others write and reference. -/
namespace UCloudSandboxes.Storage
open Machine AList Option

variable {κ : Type} [DecidableEq κ]

/-- Managed objects and unreferenced markers, by modification time; a marker is named by its target. -/
structure Bucket (κ : Type) where
  objects : AList fun _ : κ => Nat := ∅
  markers : AList fun _ : κ => Nat := ∅

structure S3SnapshotGcPlan (κ : Type) where
  protected_ : List κ
  candidates : List κ
  markersToCreate : List κ
  markersToClear : List κ
  deriving DecidableEq

inductive Disposition where
  | keep
  | clear
  | mark
  | remark
  | delete
  | wait
  deriving DecidableEq

namespace Bucket

variable (b : Bucket κ) (referenced : List κ) (now grace : Nat)

/-- The body of the plan's loop. A write after the marking restarts the grace period. -/
def disposition (key : κ) (modifiedAt : Nat) : Disposition :=
  match b.markers.lookup key with
  | none => if key ∈ referenced then .keep else .mark
  | some markedAt =>
    if key ∈ referenced then .clear
    else if markedAt < modifiedAt then .remark
    else if markedAt + grace ≤ now then .delete
    else .wait

def listed (ds : List Disposition) : List κ :=
  (b.objects.entries.filter fun e => b.disposition referenced now grace e.1 e.2 ∈ ds).map (·.1)

/-- `plan_s3_snapshot_gc`. A marker without its target is cleared. -/
def plan : S3SnapshotGcPlan κ where
  protected_ := referenced
  candidates := b.listed referenced now grace [.delete]
  markersToCreate := b.listed referenced now grace [.mark,.remark]
  markersToClear := b.listed referenced now grace [.clear,.remark] ++
    b.markers.keys.filter (· ∉ b.objects)

end Bucket

inductive Mutation (κ : Type) where
  | delete (key : κ)
  | clear (key : κ)
  | mark (key : κ)
  deriving DecidableEq

namespace S3SnapshotGcPlan

def allows (p : S3SnapshotGcPlan κ) (key : κ) : Prop := key ∈ p.markersToClear ∨ key ∈ p.candidates

instance (p : S3SnapshotGcPlan κ) (key : κ) : Decidable (p.allows key) :=
  inferInstanceAs (Decidable (_ ∨ _))

/-- `execute_s3_snapshot_gc` after its revalidation, as the requests it sends. -/
def execute (p current : S3SnapshotGcPlan κ) : List (Mutation κ) :=
  let candidates := p.candidates.filter fun k => k ∈ current.candidates ∧ k ∉ current.protected_
  candidates.flatMap (fun k => [.delete k,.clear k]) ++
    (current.markersToClear.filter fun k => p.allows k ∧ k ∉ candidates).map .clear ++
    (p.markersToCreate.filter (· ∈ current.markersToCreate)).map .mark

end S3SnapshotGcPlan

/-- The run in progress: after its first read, with its plan, after the second read, or sending
requests. -/
inductive GcPhase (κ : Type) where
  | idle
  | planning (referenced : List κ)
  | planned (p : S3SnapshotGcPlan κ)
  | revalidating (p : S3SnapshotGcPlan κ) (referenced : List κ)
  | executing (todo : List (Mutation κ)) (referenced : List κ)
  deriving DecidableEq

/-- An object's last marking: when, and whether it was read as referenced or written since. -/
structure Marking where
  markedAt : Nat
  seen : Bool := false
  written : Bool := false

/-- The bucket, the objects referenced, and the run. `checks` are when publishers found or wrote an
object. -/
structure Collection (κ : Type) where
  clock : Nat
  bucket : Bucket κ
  references : List κ
  phase : GcPhase κ := .idle
  markings : κ → Option Marking := fun _ => none
  checks : List (κ × Nat) := []

inductive GcEvent (κ : Type) where
  | tick (duration : Nat)
  | write (key : κ)
  | reuse (key : κ)
  | refer (references : List κ)
  | readReferences
  | list (now : Nat)
  | send
  | finish
  | abort

namespace Collection

def mutate (c : Collection κ) : Mutation κ → Collection κ
  | .delete k => { c with bucket := { c.bucket with objects := c.bucket.objects.erase k } }
  | .clear k => { c with bucket := { c.bucket with markers := c.bucket.markers.erase k } }
  | .mark k => { c with
      bucket := { c.bucket with markers := c.bucket.markers.insert k c.clock }
      markings := Function.update c.markings k (some ⟨c.clock,false,false⟩) }

def readTo (c : Collection κ) (phase : GcPhase κ) : Collection κ :=
  { c with
    phase
    markings := fun k =>
      if k ∈ c.references then (c.markings k).map ({ · with seen := true }) else c.markings k }

def step (grace : Nat) (c : Collection κ) : GcEvent κ → Option (Collection κ)
  | .tick duration => some { c with clock := c.clock + duration }
  | .write k => some { c with
      bucket := { c.bucket with objects := c.bucket.objects.insert k c.clock }
      markings := Function.update c.markings k ((c.markings k).map ({ · with written := true }))
      checks := (k,c.clock) :: c.checks }
  | .reuse k => if k ∈ c.bucket.objects then some { c with checks := (k,c.clock) :: c.checks } else none
  | .refer references => some { c with references }
  | .readReferences =>
    match c.phase with
    | .idle => some (c.readTo (.planning c.references))
    | .planned p => some (c.readTo (.revalidating p c.references))
    | _ => none
  | .list now =>
    if now ≤ c.clock then
      match c.phase with
      | .planning referenced =>
        some { c with phase := .planned (c.bucket.plan referenced now grace) }
      | .revalidating p referenced =>
        some { c with
          phase := .executing (p.execute (c.bucket.plan referenced now grace)) referenced }
      | _ => none
    else none
  | .send =>
    match c.phase with
    | .executing (m :: todo) referenced =>
      some { c.mutate m with phase := .executing todo referenced }
    | _ => none
  | .finish =>
    match c.phase with
    | .executing [] _ => some { c with phase := .idle }
    | _ => none
  | .abort => some { c with phase := .idle }

end Collection

open GcPhase

variable {b : Bucket κ} {p current : S3SnapshotGcPlan κ} {k : κ}
  {referenced : List κ} {now grace : Nat}

namespace Bucket

theorem mem_listed {ds} : k ∈ b.listed referenced now grace ds ↔
    ∃ modifiedAt, b.objects.lookup k = some modifiedAt ∧
      b.disposition referenced now grace k modifiedAt ∈ ds := by
  simp only [listed,List.mem_map,List.mem_filter,decide_eq_true_eq]
  constructor
  · rintro ⟨e,⟨he,hd⟩,rfl⟩
    exact ⟨e.2,mem_lookup_iff.mpr he,hd⟩
  · rintro ⟨modifiedAt,hk,hd⟩
    exact ⟨⟨k,modifiedAt⟩,⟨mem_lookup_iff.mp hk,hd⟩,rfl⟩

theorem mem_candidates (h : k ∈ (b.plan referenced now grace).candidates) :
    k ∉ referenced ∧ ∃ modifiedAt markedAt, b.objects.lookup k = some modifiedAt ∧
      b.markers.lookup k = some markedAt ∧ modifiedAt ≤ markedAt ∧ markedAt + grace ≤ now := by
  obtain ⟨modifiedAt,hk,hd⟩ := mem_listed.mp h
  unfold disposition at hd
  split at hd <;> split_ifs at hd <;> simp_all

theorem mem_markersToCreate (h : k ∈ (b.plan referenced now grace).markersToCreate) :
    k ∉ referenced ∧ k ∉ (b.plan referenced now grace).candidates := by
  obtain ⟨modifiedAt,hk,hd⟩ := mem_listed.mp h
  refine ⟨fun hr => ?_,fun hc => ?_⟩
  · unfold disposition at hd
    split at hd <;> simp [hr] at hd
  · obtain ⟨modifiedAt',hk',hd'⟩ := mem_listed.mp hc
    simp_all

theorem mem_markersToClear (hr : k ∈ referenced) (hm : k ∈ b.markers) :
    k ∈ (b.plan referenced now grace).markersToClear := by
  cases hk : b.objects.lookup k with
  | none =>
    have hobj := lookup_eq_none.mp hk
    exact List.mem_append_right _ (by simpa [hobj] using mem_keys.mp hm)
  | some modifiedAt =>
    obtain ⟨markedAt,hmarked⟩ := isSome_iff_exists.mp (lookup_isSome.mpr hm)
    exact List.mem_append_left _ (mem_listed.mpr ⟨modifiedAt,hk,by simp [disposition,hmarked,hr]⟩)

end Bucket

namespace S3SnapshotGcPlan

theorem delete_mem_execute : .delete k ∈ p.execute current ↔
    k ∈ p.candidates ∧ k ∈ current.candidates ∧ k ∉ current.protected_ := by
  simp [execute]

theorem mark_mem_execute : .mark k ∈ p.execute current ↔
    k ∈ p.markersToCreate ∧ k ∈ current.markersToCreate := by
  simp [execute]

theorem clear_mem_execute (hk : k ∈ current.markersToClear) (hp : p.allows k) :
    .clear k ∈ p.execute current := by
  by_cases hc : k ∈ p.candidates ∧ k ∈ current.candidates ∧ k ∉ current.protected_
  · exact List.mem_append_left _ (List.mem_append_left _ (by simpa using hc))
  · exact List.mem_append_left _ (List.mem_append_right _ (by
      simpa [hk,hp,← imp_iff_not_or] using hc))

end S3SnapshotGcPlan

namespace GcPhase

def deletes : GcPhase κ → κ → Bool
  | .executing todo _, k => .delete k ∈ todo
  | _, _ => false

/-- The run in progress has read the object as referenced, and has not cleared its marker. -/
def sees : GcPhase κ → κ → Bool
  | .planning referenced, k | .revalidating _ referenced, k => k ∈ referenced
  | .planned p, k => k ∈ p.protected_
  | .executing todo referenced, k => k ∈ referenced ∧ .clear k ∈ todo
  | .idle, _ => false

end GcPhase

namespace Collection

variable {c c' : Collection κ} {e : GcEvent κ}

/-- The two reads of a run agree on the marked objects, those it planned to delete apart; a run that
saw one is not abandoned; no write hits an object about to be deleted, or has the time of its
marking. -/
def steady (c : Collection κ) (e : GcEvent κ) : Prop :=
  (match e with
    | .write k => (c.bucket.markers.lookup k).all (· < c.clock) && !c.phase.deletes k
    | .readReferences => match c.phase with
      | .planned p => c.bucket.markers.keys.all fun k =>
        (k ∈ c.references → p.allows k) ∧ (k ∈ p.protected_ → k ∈ c.references)
      | _ => true
    | .abort => c.bucket.markers.keys.all fun k => !c.phase.sees k
    | _ => true) = true

def Told (c : Collection κ) (phase : GcPhase κ) (k : κ) (markedAt : Nat) : Prop :=
  ∃ a, c.markings k = some a ∧ a.markedAt = markedAt ∧ (a.seen = true → phase.sees k = true) ∧
    (a.written = true → ∀ modifiedAt, c.bucket.objects.lookup k = some modifiedAt →
      markedAt < modifiedAt)

def Due (grace : Nat) (c : Collection κ) (k : κ) : Prop :=
  ∃ a, c.markings k = some a ∧ a.markedAt + grace ≤ c.clock ∧ a.seen = false ∧ a.written = false

structure Inv (grace : Nat) (c : Collection κ) : Prop where
  told : ∀ k m, c.bucket.markers.lookup k = some m → c.Told c.phase k m
  allowed : ∀ p referenced, c.phase = .revalidating p referenced →
    ∀ k ∈ referenced, k ∈ c.bucket.markers → p.allows k
  due : ∀ todo referenced, c.phase = .executing todo referenced → ∀ k, .delete k ∈ todo →
    .mark k ∉ todo ∧ c.Due grace k
  cleared : ∀ todo referenced, c.phase = .executing todo referenced → ∀ k ∈ referenced,
    .mark k ∉ todo ∧ (k ∈ c.bucket.markers → .clear k ∈ todo)

theorem Told.frame {phase m} (h : c.Told c.phase k m) (hmar : c'.markings = c.markings)
    (hobje : c'.bucket.objects = c.bucket.objects)
    (hsees : c.phase.sees k = true → phase.sees k = true) : c'.Told phase k m := by
  obtain ⟨a,ha,hm,hseen,hwr⟩ := h
  exact ⟨a,hmar ▸ ha,hm,fun hs => hsees (hseen hs),hobje ▸ hwr⟩

theorem Inv.frame (h : c.Inv grace) (hbuc : c'.bucket = c.bucket) (hphase : c'.phase = c.phase)
    (hmar : c'.markings = c.markings) (hclock : c.clock ≤ c'.clock) : c'.Inv grace := by
  refine ⟨fun k m hk => ?_,fun p r hp => ?_,fun todo r hp k hd => ?_,fun todo r hp => ?_⟩
  · exact (h.told k m (hbuc ▸ hk)).frame hmar (by rw [hbuc]) (by rw [hphase]; exact id)
  · rw [hbuc]
    exact h.allowed p r (hphase ▸ hp)
  · obtain ⟨hmark,a,ha,hdue,hrest⟩ := h.due todo r (hphase ▸ hp) k hd
    exact ⟨hmark,a,hmar ▸ ha,Nat.le_trans hdue hclock,hrest⟩
  · rw [hbuc]
    exact h.cleared todo r (hphase ▸ hp)

theorem Inv.write (h : c.Inv grace) (hok : c.steady (.write k))
    (hs : c.step grace (.write k) = some c') : c'.Inv grace := by
  cases hs
  simp only [steady,Bool.and_eq_true] at hok
  refine ⟨fun k' m hk' => ?_,h.allowed,fun todo r hp k' hd => ?_,h.cleared⟩
  · obtain ⟨a,ha,hm,hseen,hwr⟩ := h.told k' m hk'
    by_cases hk : k' = k
    · subst hk
      refine ⟨{ a with written := true },by simp [ha],hm,hseen,fun _ modifiedAt hmod => ?_⟩
      cases (lookup_insert _).symm.trans hmod
      simpa [show c.bucket.markers.lookup k' = some m from hk'] using hok.1
    · exact ⟨a,by simpa [hk] using ha,hm,hseen,by simpa [lookup_insert_ne hk] using hwr⟩
  · obtain ⟨hmark,a,ha,hdue⟩ := h.due todo r hp k' hd
    have hk : k' ≠ k := by
      rintro rfl
      have hphase : c.phase = .executing todo r := hp
      simp [hphase,deletes,hd] at hok
    exact ⟨hmark,a,by simpa [hk] using ha,hdue⟩

theorem told_readTo {phase m} (h : c.Told c.phase k m) (hnew : k ∈ c.references → phase.sees k = true)
    (hold : c.phase.sees k = true → phase.sees k = true) : (c.readTo phase).Told phase k m := by
  obtain ⟨a,ha,hm,hseen,hwr⟩ := h
  by_cases hk : k ∈ c.references
  · exact ⟨{ a with seen := true },by simp [readTo,hk,ha],hm,fun _ => hnew hk,hwr⟩
  · exact ⟨a,by simp [readTo,hk,ha],hm,fun hs => hold (hseen hs),hwr⟩

theorem Inv.readReferences (h : c.Inv grace) (hok : c.steady .readReferences)
    (hs : c.step grace .readReferences = some c') : c'.Inv grace := by
  simp only [step] at hs
  split at hs
  · rename_i hidle
    cases hs
    refine ⟨fun k m hk => told_readTo (h.told k m hk) (by simp [sees]) ?_,nofun,nofun,nofun⟩
    simp [hidle,sees]
  · rename_i p hp
    cases hs
    simp only [steady,hp,List.all_eq_true,decide_eq_true_eq] at hok
    refine ⟨fun k m hk => told_readTo (h.told k m hk) (by simp [sees]) ?_,?_,nofun,nofun⟩
    · have hmem := mem_keys.mp (lookup_isSome.mp (isSome_of_eq_some hk))
      simpa [hp,sees] using (hok k hmem).2
    · rintro _ _ ⟨⟩ k hk hm
      exact (hok k (mem_keys.mp hm)).1 hk
  · cases hs

open S3SnapshotGcPlan

theorem Inv.list (h : c.Inv grace) (hs : c.step grace (.list now) = some c') : c'.Inv grace := by
  obtain ⟨hnow,hs⟩ := of_check hs nofun
  split at hs
  · rename_i referenced hp
    cases hs
    exact ⟨fun k m hk => (h.told k m hk).frame rfl rfl (by rw [hp]; exact id),nofun,nofun,nofun⟩
  · rename_i p referenced hp
    cases hs
    have hclear : ∀ k ∈ referenced, k ∈ c.bucket.markers →
        .clear k ∈ p.execute (c.bucket.plan referenced now grace) := fun k hk hm =>
      clear_mem_execute (Bucket.mem_markersToClear hk hm) (h.allowed p _ hp k hk hm)
    refine ⟨fun k m hk => (h.told k m hk).frame rfl rfl fun hs => ?_,nofun,?_,?_⟩
    · have hm := lookup_isSome.mp (isSome_of_eq_some hk)
      simp only [hp,sees,decide_eq_true_eq] at hs ⊢
      exact ⟨hs,hclear k hs hm⟩
    · rintro _ _ ⟨⟩ k hd
      have hc := (delete_mem_execute.mp hd).2.1
      refine ⟨fun hm => ?_,?_⟩
      · exact (Bucket.mem_markersToCreate (mark_mem_execute.mp hm).2).2 hc
      · obtain ⟨hr,modifiedAt,m,hmod,hk,hle,hdue⟩ := Bucket.mem_candidates hc
        obtain ⟨a,ha,rfl,hseen,hwr⟩ := h.told k m hk
        refine ⟨a,ha,Nat.le_trans hdue hnow,?_,?_⟩
        · simpa [hp,sees,hr] using hseen
        · exact eq_false_of_ne_true fun hw => absurd (hwr hw _ hmod) (Nat.not_lt.mpr hle)
    · rintro _ _ ⟨⟩ k hk
      exact ⟨fun hm =>
        (Bucket.mem_markersToCreate (mark_mem_execute.mp hm).2).1 hk,hclear k hk⟩
  · cases hs

theorem Inv.send (h : c.Inv grace) (hs : c.step grace .send = some c') : c'.Inv grace := by
  simp only [step] at hs
  split at hs
  · rename_i m todo referenced hp
    cases hs
    have htold := h.told
    have hdue := h.due _ _ hp
    have hcle := h.cleared _ _ hp
    simp only [hp] at htold
    cases m with
    | delete =>
      refine ⟨fun k m hk => ?_,nofun,?_,?_⟩
      · obtain ⟨a,ha,hm,hseen,hwr⟩ := htold k m hk
        exact ⟨a,ha,hm,by simpa [sees] using hseen,
          fun hw at' hat => hwr hw at' (lookup_of_erase hat).2⟩
      · rintro _ _ ⟨⟩ k hd
        exact ⟨fun hm => (hdue k (.tail _ hd)).1 (.tail _ hm),(hdue k (.tail _ hd)).2⟩
      · rintro _ _ ⟨⟩ k hk
        exact ⟨fun hm => (hcle k hk).1 (.tail _ hm),fun hm => by simpa using (hcle k hk).2 hm⟩
    | clear =>
      refine ⟨fun k m hk => ?_,nofun,?_,?_⟩
      · obtain ⟨hne,hk⟩ := lookup_of_erase hk
        obtain ⟨a,ha,hm,hseen,hwr⟩ := htold k m hk
        exact ⟨a,ha,hm,by simpa [sees,hne] using hseen,hwr⟩
      · rintro _ _ ⟨⟩ k hd
        exact ⟨fun hm => (hdue k (.tail _ hd)).1 (.tail _ hm),(hdue k (.tail _ hd)).2⟩
      · rintro _ _ ⟨⟩ k hk
        refine ⟨fun hm => (hcle k hk).1 (.tail _ hm),fun hm => ?_⟩
        obtain ⟨hne,hm⟩ := mem_erase.mp hm
        simpa [hne] using (hcle k hk).2 hm
    | mark =>
      refine ⟨fun k m hk => ?_,nofun,?_,?_⟩
      · obtain ⟨rfl,rfl⟩ | ⟨hne,hk⟩ := lookup_of_insert hk
        · exact ⟨_,Function.update_self ..,rfl,nofun,nofun⟩
        · obtain ⟨a,ha,hm,hseen,hwr⟩ := htold k m hk
          exact ⟨a,by simpa [mutate,hne] using ha,hm,by simpa [sees] using hseen,hwr⟩
      · rintro _ _ ⟨⟩ k hd
        obtain ⟨hmark,a,ha,hrest⟩ := hdue k (.tail _ hd)
        simp only [List.mem_cons,Mutation.mark.injEq,not_or] at hmark
        exact ⟨hmark.2,a,by simpa [mutate,hmark.1] using ha,hrest⟩
      · rintro _ _ ⟨⟩ k hk
        obtain ⟨hmark,hclear⟩ := hcle k hk
        simp only [List.mem_cons,Mutation.mark.injEq,not_or] at hmark
        exact ⟨hmark.2,fun hm => by simpa using hclear (((mem_insert _).mp hm).resolve_left hmark.1)⟩
  · cases hs

theorem Inv.step (h : c.Inv grace) (hok : c.steady e) (hs : c.step grace e = some c') :
    c'.Inv grace := by
  cases e with
  | tick =>
    cases hs
    exact h.frame rfl rfl rfl (Nat.le_add_right ..)
  | write => exact h.write hok hs
  | reuse =>
    obtain ⟨-,⟨⟩⟩ := of_check hs nofun
    exact h.frame rfl rfl rfl (Nat.le_refl _)
  | refer =>
    cases hs
    exact h.frame rfl rfl rfl (Nat.le_refl _)
  | readReferences => exact h.readReferences hok hs
  | list => exact h.list hs
  | send => exact h.send hs
  | finish =>
    simp only [Collection.step] at hs
    split at hs <;> cases hs
    rename_i hp
    exact ⟨fun k m hk => (h.told k m hk).frame rfl rfl (by simp [hp,sees]),nofun,nofun,nofun⟩
  | abort =>
    cases hs
    simp only [steady,List.all_eq_true,Bool.not_eq_true'] at hok
    refine ⟨fun k m hk => (h.told k m hk).frame rfl rfl fun hsees => ?_,nofun,nofun,nofun⟩
    have hmem := mem_keys.mp (lookup_isSome.mp (isSome_of_eq_some hk))
    rw [hok k hmem] at hsees
    cases hsees

def Start (c : Collection κ) : Prop :=
  c.bucket.markers = ∅ ∧ c.phase = .idle ∧ c.markings = fun _ => none

/-- A run deletes only an object marked a grace period ago that no read since has found referenced
and nobody has written; at its end nothing that revalidation found referenced is marked. -/
theorem deletes_only_unreferenced (h : Reaches (step grace) steady Start c) :
    (∀ k todo referenced, c.phase = .executing (.delete k :: todo) referenced → c.Due grace k) ∧
    (∀ referenced, c.phase = .executing [] referenced → ∀ k ∈ referenced, k ∉ c.bucket.markers) := by
  have hinv : c.Inv grace := h.invariant
    (fun s hs => ⟨by simp [hs.1],by simp [hs.2.1],by simp [hs.2.1],by simp [hs.2.1]⟩)
    (fun _ _ _ hi => hi.step)
  refine ⟨fun k todo referenced hp => (hinv.due _ _ hp k (.head _)).2,fun referenced hp k hk hm => ?_⟩
  exact absurd ((hinv.cleared _ _ hp k hk).2 hm) List.not_mem_nil

instance (c : Collection κ) (e : GcEvent κ) : Decidable (c.steady e) :=
  inferInstanceAs (Decidable (_ = true))

def unused : Collection String := { clock := 0, bucket := ⟨singleton "layer" 0,∅⟩, references := [] }

def collect : List (GcEvent String) :=
  [.readReferences,.list 0,.readReferences,.list 0,.send,.finish]

theorem start_unused : unused.Start := ⟨rfl,rfl,rfl⟩

theorem deletes_only_unreferenced_layer : ∃ c : Collection String,
    Reaches (step 7) steady Start c ∧ c.phase = .executing [.delete "layer",.clear "layer"] [] ∧
      c.Due 7 "layer" := by
  obtain ⟨c,hc,hp⟩ := Reaches.exists_of_runMeeting (step 7) steady start_unused
    (collect ++ [.tick 7,.readReferences,.list 7,.readReferences,.list 7])
    (·.phase = .executing [.delete "layer",.clear "layer"] []) (by decide +kernel)
  exact ⟨c,hc,hp,(deletes_only_unreferenced hc).1 _ _ _ hp⟩

def returning : List (GcEvent String) :=
  collect ++ [.tick 3,.readReferences,.list 3,.refer ["layer"],.readReferences,.list 3]

/-- A reference that returns between the two reads leaves a young marker; once gone again, the
object is deleted at that marker's age. -/
theorem returned_reference_keeps_marker :
    (∃ c : Collection String, Reaches (step 7) anyEvent Start c ∧
      c.phase = .executing [] ["layer"] ∧ "layer" ∈ c.bucket.markers) ∧
    ∃ c : Collection String, Reaches (step 7) anyEvent Start c ∧
      c.phase = .executing [.delete "layer",.clear "layer"] [] ∧
        (c.markings "layer").any (·.seen) = true :=
  ⟨Reaches.exists_of_run (step 7) start_unused returning _ (by decide +kernel),
    Reaches.exists_of_run (step 7) start_unused (returning ++ [.finish,.refer [],.tick 4,
      .readReferences,.list 7,.readReferences,.list 7]) _ (by decide +kernel)⟩

end Collection
end UCloudSandboxes.Storage
