import UCloudSandboxes.Storage.Collection

namespace UCloudSandboxes.Storage
open Machine AList Collection
namespace Collection

variable {κ : Type} [DecidableEq κ] {c c' : Collection κ} {e : GcEvent κ} {k : κ} {grace : Nat}

section
variable (grace : Nat) (c : Collection κ)

/-- Some publisher found or wrote the object, and may still commit a publication that names it. -/
def Checked (k : κ) : Prop :=
  ∃ t, (k,t) ∈ c.checks ∧ c.clock < t + grace

def Wanted (k : κ) : Prop := k ∈ c.references ∨ c.Checked grace k

/-- A publication names what was referenced or was checked within the grace period. -/
def timely : GcEvent κ → Bool
  | .refer references => references.all fun k => k ∈ c.references || c.checks.any fun (k',t) =>
    k' = k && c.clock < t + grace
  | _ => true

/-- Moreover, a publisher reuses only an unmarked object that the run is not about to delete. -/
def careful (e : GcEvent κ) : Prop :=
  (c.timely grace e && match e with
    | .write k => !c.phase.deletes k
    | .reuse k => k ∉ c.bucket.markers && !c.phase.deletes k
    | _ => true) = true

end

instance (c : Collection κ) (e : GcEvent κ) : Decidable (c.careful grace e) :=
  inferInstanceAs (Decidable (_ = true))

def Aged (grace : Nat) (c : Collection κ) (k : κ) : Prop :=
  ∃ m, c.bucket.markers.lookup k = some m ∧ m + grace ≤ c.clock

def Rewritten (c : Collection κ) (k : κ) : Prop :=
  ∃ m a, c.bucket.markers.lookup k = some m ∧ c.bucket.objects.lookup k = some a ∧ m < a

/-- What the run in progress would delete is not wanted, or will be found so. -/
def Apart (grace : Nat) (c : Collection κ) : Prop :=
  match c.phase with
  | .planned p => ∀ k ∈ p.candidates, c.Aged grace k ∧ (c.Checked grace k → c.Rewritten k)
  | .revalidating p referenced => ∀ k ∈ p.candidates, c.Aged grace k ∧
    (c.Wanted grace k → k ∈ referenced ∨ c.Rewritten k)
  | .executing todo _ => ∀ k, .delete k ∈ todo → ¬ c.Wanted grace k
  | _ => True

structure Kept (grace : Nat) (c : Collection κ) : Prop where
  object : ∀ k a, c.bucket.objects.lookup k = some a → a ≤ c.clock
  marker : ∀ k m, c.bucket.markers.lookup k = some m → m ≤ c.clock
  check : ∀ k t, (k,t) ∈ c.checks → t ≤ c.clock
  wanted : ∀ k, c.Wanted grace k → k ∈ c.bucket.objects
  fresh : ∀ k t m a, (k,t) ∈ c.checks → c.clock < t + grace → c.bucket.markers.lookup k = some m →
    c.bucket.objects.lookup k = some a → t ≤ m ∨ m < a
  apart : c.Apart grace

theorem Apart.frame (h : c.Apart grace) (hphase : c'.phase = c.phase)
    (haged : ∀ k, c.Aged grace k → c'.Aged grace k) (hrew : ∀ k, c.Rewritten k → c'.Rewritten k)
    (hchk : ∀ k, c'.Checked grace k → c.Checked grace k ∨
      (c.Aged grace k → c'.Rewritten k) ∧ c.phase.deletes k = false)
    (href : ∀ k ∈ c'.references, c.Wanted grace k) : c'.Apart grace := by
  unfold Apart at h ⊢
  rw [hphase]
  cases hp : c.phase with
  | idle | planning referenced => trivial
  | planned =>
    rw [hp] at h
    refine fun k hk => ⟨haged k (h k hk).1,fun hc => ?_⟩
    obtain hc | ⟨hc,-⟩ := hchk k hc
    · exact hrew k ((h k hk).2 hc)
    · exact hc (h k hk).1
  | revalidating p referenced =>
    rw [hp] at h
    have hold : ∀ k ∈ p.candidates, c.Wanted grace k → k ∈ referenced ∨ c'.Rewritten k :=
      fun k hk hw => ((h k hk).2 hw).imp_right (hrew k)
    refine fun k hk => ⟨haged k (h k hk).1,fun hw => ?_⟩
    obtain hr | hc := hw
    · exact hold k hk (href k hr)
    obtain hc | ⟨hc,-⟩ := hchk k hc
    · exact hold k hk (.inr hc)
    · exact .inr (hc (h k hk).1)
  | executing =>
    rw [hp] at h
    refine fun k hd hw => ?_
    obtain hr | hc := hw
    · exact h k hd (href k hr)
    obtain hc | ⟨-,hnot⟩ := hchk k hc
    · exact h k hd (.inr hc)
    · simp [hp,GcPhase.deletes,hd] at hnot

theorem Kept.tick (h : c.Kept grace) (duration) :
    Kept grace { c with clock := c.clock + duration } := by
  have hchk : ∀ k, Checked grace { c with clock := c.clock + duration } k → c.Checked grace k :=
    fun k ⟨t,ht,hlt⟩ => ⟨t,ht,Nat.lt_of_le_of_lt (Nat.le_add_right ..) hlt⟩
  refine ⟨fun k a ha => Nat.le_add_right_of_le (h.object k a ha),
    fun k m hm => Nat.le_add_right_of_le (h.marker k m hm),
    fun k t ht => Nat.le_add_right_of_le (h.check k t ht),
    fun k hk => h.wanted k (hk.imp_right (hchk k)),
    fun k t m a ht hlt => h.fresh k t m a ht (Nat.lt_of_le_of_lt (Nat.le_add_right ..) hlt),
    h.apart.frame rfl ?_ (fun _ => id) (fun k hc => .inl (hchk k hc)) fun k => .inl⟩
  exact fun k ⟨m,hm,hle⟩ => ⟨m,hm,Nat.le_add_right_of_le hle⟩

theorem Kept.upload (h : c.Kept grace) (k markings) : Kept grace { c with
      bucket := { c.bucket with objects := c.bucket.objects.insert k c.clock }, markings } := by
  refine ⟨fun k' a ha => ?_,h.marker,h.check,fun k' hk' => ?_,fun k' t m a ht hlt hm ha => ?_,
    h.apart.frame rfl (fun _ => id) (fun k' hr => ?_) (fun _ => .inl) fun k => .inl⟩
  · obtain ⟨-,rfl⟩ | ⟨-,ha⟩ := lookup_of_insert ha
    · exact Nat.le_refl _
    · exact h.object k' a ha
  · exact (mem_insert _).mpr (.inr (h.wanted k' hk'))
  · obtain ⟨rfl,rfl⟩ | ⟨-,ha⟩ := lookup_of_insert ha
    · exact (Nat.lt_or_ge m c.clock).symm.imp_left (h.check k' t ht).trans
    · exact h.fresh k' t m a ht hlt hm ha
  · obtain ⟨m,a,hm,ha,hlt⟩ := hr
    by_cases hk : k' = k
    · subst hk
      exact ⟨m,c.clock,hm,lookup_insert _,Nat.lt_of_lt_of_le hlt (h.object k' a ha)⟩
    · exact ⟨m,a,hm,(lookup_insert_ne hk).trans ha,hlt⟩

theorem Kept.found (hg : 0 < grace) (h : c.Kept grace) (hk : k ∈ c.bucket.objects)
    (hfresh : ∀ m a, c.bucket.markers.lookup k = some m → c.bucket.objects.lookup k = some a →
      c.clock ≤ m ∨ m < a) (hnot : c.phase.deletes k = false) :
    Kept grace { c with checks := (k,c.clock) :: c.checks } := by
  have hcheck : ∀ k' t, (k',t) ∈ (k,c.clock) :: c.checks → k' = k ∧ t = c.clock ∨ (k',t) ∈ c.checks :=
    fun k' t ht => (List.mem_cons.mp ht).imp_left Prod.mk.inj
  have hchk : ∀ k', Checked grace { c with checks := (k,c.clock) :: c.checks } k' →
      k' = k ∨ c.Checked grace k' := fun k' ⟨t,ht,hlt⟩ =>
    (hcheck k' t ht).imp And.left fun ht => ⟨t,ht,hlt⟩
  refine ⟨h.object,h.marker,fun k' t ht => ?_,fun k' hk' => ?_,fun k' t m a ht hlt hm ha => ?_,
    h.apart.frame rfl (fun _ => id) (fun _ => id) (fun k' hc => ?_) fun k => .inl⟩
  · obtain ⟨-,rfl⟩ | ht := hcheck k' t ht
    · exact Nat.le_refl _
    · exact h.check k' t ht
  · obtain hr | hc := hk'
    · exact h.wanted k' (.inl hr)
    · obtain rfl | hc := hchk k' hc
      · exact hk
      · exact h.wanted k' (.inr hc)
  · obtain ⟨rfl,rfl⟩ | ht := hcheck k' t ht
    · exact hfresh m a hm ha
    · exact h.fresh k' t m a ht hlt hm ha
  · obtain rfl | hc := hchk k' hc
    · refine .inr ⟨fun ⟨m,hm,hle⟩ => ?_,hnot⟩
      obtain ⟨a,ha⟩ := Option.isSome_iff_exists.mp (lookup_isSome.mpr hk)
      exact ⟨m,a,hm,ha,(hfresh m a hm ha).resolve_left (by omega)⟩
    · exact .inl hc

theorem Kept.list {now} (h : c.Kept grace) (hs : c.step grace (.list now) = some c') :
    c'.Kept grace := by
  obtain ⟨hnow,hs⟩ := of_check hs nofun
  have hapart := h.apart
  unfold Apart at hapart
  split at hs
  · cases hs
    refine { h with apart := fun k hk => ?_ }
    obtain ⟨-,a,m,ha,hm,-,hdue⟩ := Bucket.mem_candidates hk
    refine ⟨⟨m,hm,hdue.trans hnow⟩,fun ⟨t,ht,hlt⟩ => ⟨m,a,hm,ha,?_⟩⟩
    have hlt : c.clock < t + grace := hlt
    exact (h.fresh k t m a ht hlt hm ha).resolve_left (by omega)
  · rename_i hp
    cases hs
    rw [hp] at hapart
    refine { h with apart := fun k hd hw => ?_ }
    obtain ⟨hk,hc,-⟩ := S3SnapshotGcPlan.delete_mem_execute.mp hd
    obtain ⟨hr,a,m,ha,hm,hle,-⟩ := Bucket.mem_candidates hc
    obtain ⟨m',a',hm',ha',hlt⟩ := ((hapart k hk).2 hw).resolve_left hr
    cases hm.symm.trans hm'
    cases ha.symm.trans ha'
    omega
  · cases hs

theorem Kept.send (h : c.Kept grace) (hs : c.step grace .send = some c') : c'.Kept grace := by
  simp only [step] at hs
  split at hs
  · rename_i m todo referenced hp
    cases hs
    have hapart := h.apart
    rw [Apart,hp] at hapart
    have hrest : ∀ k, .delete k ∈ todo → ¬ c.Wanted grace k := fun k hd => hapart k (.tail _ hd)
    cases m with
    | delete key =>
      refine ⟨fun k a ha => h.object k a (lookup_of_erase ha).2,h.marker,h.check,fun k hk => ?_,
        fun k t m a ht hlt hm ha => h.fresh k t m a ht hlt hm (lookup_of_erase ha).2,hrest⟩
      exact mem_erase.mpr ⟨fun heq => hapart key (.head _) (heq ▸ hk),h.wanted k hk⟩
    | clear =>
      exact ⟨h.object,fun k m hm => h.marker k m (lookup_of_erase hm).2,h.check,h.wanted,
        fun k t m a ht hlt hm => h.fresh k t m a ht hlt (lookup_of_erase hm).2,hrest⟩
    | mark =>
      refine ⟨h.object,fun k m hm => ?_,h.check,h.wanted,fun k t m a ht hlt hm => ?_,hrest⟩
      · obtain ⟨-,rfl⟩ | ⟨-,hm⟩ := lookup_of_insert hm
        · exact Nat.le_refl _
        · exact h.marker k m hm
      · obtain ⟨-,rfl⟩ | ⟨-,hm⟩ := lookup_of_insert hm
        · exact fun _ => .inl (h.check k t ht)
        · exact h.fresh k t m a ht hlt hm
  · cases hs

theorem Kept.step (hg : 0 < grace) (h : c.Kept grace) (hok : c.careful grace e)
    (hs : c.step grace e = some c') : c'.Kept grace := by
  simp only [careful,Bool.and_eq_true] at hok
  obtain ⟨htim,hok⟩ := hok
  cases e with
  | tick duration =>
    cases hs
    exact h.tick duration
  | write k =>
    cases hs
    refine (h.upload k _).found hg ((mem_insert _).mpr (.inl rfl)) (fun m a hm ha => ?_)
      (by simpa using hok)
    cases (lookup_insert _).symm.trans ha
    exact (Nat.lt_or_ge m c.clock).symm
  | reuse =>
    obtain ⟨hk,rfl⟩ := some_of_check hs
    simp only [Bool.and_eq_true,decide_eq_true_eq,Bool.not_eq_true'] at hok
    refine h.found hg hk (fun m a hm => ?_) hok.2
    rw [lookup_eq_none.mpr hok.1] at hm
    cases hm
  | refer references =>
    cases hs
    have hwan : ∀ k ∈ references, c.Wanted grace k := by
      simpa [timely,Wanted,Checked] using htim
    exact { h with
      wanted := fun k hk => h.wanted k (hk.elim (hwan k) .inr)
      apart := h.apart.frame rfl (fun _ => id) (fun _ => id) (fun _ => .inl) hwan }
  | readReferences =>
    have hapart := h.apart
    unfold Apart at hapart
    simp only [step] at hs
    split at hs
    · cases hs
      exact { h with apart := trivial }
    · rename_i hp
      cases hs
      rw [hp] at hapart
      exact { h with apart := fun k hk => ⟨(hapart k hk).1,Or.imp_right (hapart k hk).2⟩ }
    · cases hs
  | list now => exact h.list hs
  | send => exact h.send hs
  | finish =>
    simp only [step] at hs
    split at hs <;> cases hs
    exact { h with apart := trivial }
  | abort =>
    cases hs
    exact { h with apart := trivial }

def Begun (c : Collection κ) : Prop :=
  c.Start ∧ c.checks = [] ∧ (∀ k ∈ c.references, k ∈ c.bucket.objects) ∧
    ∀ k a, c.bucket.objects.lookup k = some a → a ≤ c.clock

theorem Begun.kept (h : c.Begun) : c.Kept grace := by
  obtain ⟨⟨hm,hp,-⟩,hc,hr,ho⟩ := h
  refine ⟨ho,by simp [hm],by simp [hc],fun k hk => hr k ?_,by simp [hc],by simp [Apart,hp]⟩
  simpa [Wanted,Checked,hc] using hk

/-- Every object of a committed publication exists. -/
theorem publications_stay_complete (hg : 0 < grace)
    (h : Reaches (step grace) (careful grace) Begun c) :
    ∀ k ∈ c.references, k ∈ c.bucket.objects := by
  have hkept : c.Kept grace :=
    h.invariant (fun _ => Begun.kept) fun _ _ _ hi => hi.step hg
  exact fun k hk => hkept.wanted k (.inl hk)

theorem begun_unused : unused.Begun := by
  refine ⟨start_unused,rfl,nofun,fun k a ha => ?_⟩
  obtain ⟨-,rfl⟩ | ⟨-,ha⟩ := lookup_of_insert (t := ∅) ha
  · exact Nat.le_refl _
  · cases ha

theorem publications_stay_complete_layer : ∃ c : Collection String,
    Reaches (step 7) (careful 7) Begun c ∧ c.references = ["layer"] ∧
      ∀ k ∈ c.references, k ∈ c.bucket.objects := by
  obtain ⟨c,hc,hr⟩ := Reaches.exists_of_runMeeting (step 7) (careful 7) begun_unused
    [.reuse "layer",.readReferences,.list 0,.tick 6,.refer ["layer"]] (·.references = ["layer"])
    (by decide +kernel)
  exact ⟨c,hc,hr,publications_stay_complete (by decide) hc⟩

/-- A publisher finds the object between the two listings of the run that deletes it. -/
theorem reused_object_deleted : ∃ c : Collection String,
    Reaches (step 7) (fun c e => c.timely 7 e = true) Begun c ∧
      "layer" ∈ c.references ∧ "layer" ∉ c.bucket.objects :=
  Reaches.exists_of_runMeeting (step 7) _ begun_unused (collect ++ [.tick 7,.readReferences,.list 7,
    .reuse "layer",.readReferences,.list 7,.send,.refer ["layer"]]) _ (by decide +kernel)

end Collection
end UCloudSandboxes.Storage
