import UCloudSandboxes.ExecFence.Model
import UCloudSandboxes.Machine.Values

namespace UCloudSandboxes.ExecFence
open Machine ExecFence.Task Option Bool

variable {links links' : LockFile → Option Nat} {t t' u : Task} {s s' : Fence} {id : Nat}
variable {file : LockFile}

theorem Role.mode_of_not_leases {r : Role} (h : r.leases = false) : r.mode = .exclusive := by
  cases r <;> first | rfl | cases h

theorem Role.mode_of_leases {r : Role} (h : r.leases = true) : r.mode = .shared := by
  cases r <;> first | rfl | cases h

namespace Task

@[simp]
theorem descriptor_stage (stage f) : ({ t with stage } : Task).descriptor f = t.descriptor f := by
  cases f <;> rfl

def Fenced (links : LockFile → Option Nat) (t : Task) : Prop :=
  ∃ i, t.transition = some ⟨i,some t.role.mode⟩ ∧ links .transition = some i

def leased (t : Task) : Bool := t.role.leases && (t.stage = .releasing || t.stage = .held)

/-- A transition without `allow_shared`, or a pause, in its body. -/
def exclusiveHold (t : Task) : Bool :=
  t.stage = .held && !t.role.leases && t.role.takesActivity

def bare (t : Task) : Bool := t.exclusiveHold && t.activity.isNone

@[simp]
theorem role_put (d stage) : (t.put file d stage).role = t.role := by
  cases file <;> rfl

@[simp]
theorem stage_put (d stage) : (t.put file d stage).stage = stage := by
  cases file <;> rfl

theorem descriptor_put (d stage f) :
    (t.put file d stage).descriptor f = if f = file then d else t.descriptor f := by
  cases file <;> cases f <;> rfl

theorem descriptor_of_closed {stage f d} (h : (t.put file none stage).descriptor f = some d) :
    t.descriptor f = some d := by
  rw [descriptor_put] at h
  split at h
  · cases h
  · exact h

def Outline (links : LockFile → Option Nat) (t : Task) : Prop :=
  match t.stage with
  | .opening .transition => t.activity = none
  | .locking .transition => t.activity = none
  | .checking .transition => t.activity = none ∧ ∃ i, t.transition = some ⟨i,some t.role.mode⟩
  | .opening .activity => t.Fenced links ∧ t.role.takesActivity = true ∧ t.activity = none
  | .locking .activity => t.Fenced links ∧ t.role.takesActivity = true
  | .checking .activity => t.Fenced links ∧ t.role.takesActivity = true ∧
      ∃ i, t.activity = some ⟨i,some t.role.mode⟩
  | .releasing => t.Fenced links ∧ t.role.leases = true ∧ ∃ i, t.activity = some ⟨i,some .shared⟩
  | .held =>
    if t.role.leases then ∃ i, t.activity = some ⟨i,some .shared⟩
    else t.Fenced links ∧ (t.role.takesActivity = false → t.activity = none) ∧
      ∀ d, t.activity = some d → d.lock = some .exclusive ∧ links .activity = some d.inode
  | .discarding => t.Fenced links ∧ t.role.leases = false
  | .discarded => True
  | .closing => t.Fenced links

/-- The locks of two tasks stand together, and next to a pause without A no lease is on the linked
A. -/
structure Apart (links : LockFile → Option Nat) (t u : Task) : Prop where
  locks : ∀ f d e, t.descriptor f = some d → u.descriptor f = some e → d.excludes e = false
  left : t.bare = true → u.leased = true → ∀ d, u.activity = some d → links .activity ≠ some d.inode
  right : u.bare = true → t.leased = true → ∀ d, t.activity = some d → links .activity ≠ some d.inode

theorem Apart.symm (h : Apart links t u) : Apart links u t :=
  ⟨fun f d e hd he => (Descriptor.excludes_comm d e).trans (h.locks f e d he hd),h.right,h.left⟩

theorem Apart.not_fenced (h : Apart links t u) (ht : t.Fenced links) (hmode : t.role.mode = .exclusive) :
    ¬ u.Fenced links := by
  rintro ⟨j,hj,hlink'⟩
  obtain ⟨i,hi,hlink⟩ := ht
  cases hlink.symm.trans hlink'
  have hexc := h.locks .transition _ _ hi hj
  rw [hmode,Descriptor.excludes_exclusive] at hexc
  cases hexc

theorem Outline.fenced_of_held (h : t.Outline links) (hs : t.stage = .held) (hl : t.role.leases = false) :
    t.Fenced links := by
  simp only [Outline,hs,hl] at h
  exact h.1

theorem Outline.activity_of_leased (h : t.Outline links) (hl : t.leased = true) :
    ∃ i, t.activity = some ⟨i,some .shared⟩ := by
  simp only [leased,and_eq_true,or_eq_true,decide_eq_true_eq] at hl
  obtain ⟨hls,hs | hs⟩ := hl
  · simp only [Outline,hs] at h
    exact h.2.2
  · simpa only [Outline,hs,hls,if_true] using h

theorem bare_spec (h : t.bare = true) :
    t.stage = .held ∧ t.role.leases = false ∧ t.activity = none := by
  simp only [bare,exclusiveHold,and_eq_true,decide_eq_true_eq,not_eq_true', isNone_iff_eq_none] at h
  exact ⟨h.1.1.1,h.1.1.2,h.2⟩

theorem Apart.weaken (h : Apart links t u)
    (hd : ∀ f d, t'.descriptor f = some d → d.lock = none ∨ t.descriptor f = some d)
    (hbare : t'.bare = true → t.bare = true)
    (hlsd : t'.leased = true → t.leased = true ∧ t'.activity = t.activity) : Apart links t' u := by
  refine ⟨fun f d e hdf he => ?_,fun hb => h.left (hbare hb),fun hb hl d ha => ?_⟩
  · rcases hd f d hdf with hnone | hold
    · obtain ⟨i,lock⟩ := d
      obtain rfl : lock = none := hnone
      exact Descriptor.excludes_unlocked i e
    · exact h.locks f d e hold he
  · obtain ⟨hl,hsame⟩ := hlsd hl
    exact h.right hb hl d (hsame ▸ ha)

/-- What a task relies on survives a change of the paths that keeps it fenced and the A it holds
exclusively. -/
theorem Outline.relink (h : t.Outline links) (hfen : t.Fenced links → t.Fenced links')
    (hact : t.stage = .held → t.role.leases = false → ∀ d, t.activity = some d →
      links .activity = some d.inode → links' .activity = some d.inode) : t.Outline links' := by
  revert h
  unfold Outline
  cases hs : t.stage with
  | opening f | locking f | checking f => cases f with
    | transition => exact fun h => h
    | activity => exact fun h => ⟨hfen h.1,h.2⟩
  | releasing | discarding => exact fun h => ⟨hfen h.1,h.2⟩
  | held =>
    dsimp only
    split
    · exact fun h => h
    rename_i hl
    exact fun ⟨hf,hsha,ha⟩ => ⟨hfen hf,hsha,fun d hd =>
      ⟨(ha d hd).1,hact hs (by simpa using hl) d hd (ha d hd).2⟩⟩
  | discarded => exact fun h => h
  | closing => exact hfen

end Task

namespace Fence

/-- Inodes in use were made, every task relies on what holds, and no two are in each other's way. -/
structure Inv (s : Fence) : Prop where
  linked : ∀ f i, s.links f = some i → i < s.next
  opened : ∀ id t f d, s.tasks.lookup id = some t → t.descriptor f = some d → d.inode < s.next
  outline : ∀ id t, s.tasks.lookup id = some t → t.Outline s.links
  apart : ∀ i j t u, i ≠ j → s.tasks.lookup i = some t → s.tasks.lookup j = some u → t.Apart s.links u

theorem Inv.put (hi : s.Inv) (hope : ∀ f d, t.descriptor f = some d → d.inode < s.next)
    (hout : t.Outline s.links)
    (hapart : ∀ j u, j ≠ id → s.tasks.lookup j = some u → t.Apart s.links u) : (s.put id t).Inv := by
  have hlook : ∀ {j u}, (s.put id t).tasks.lookup j = some u →
      j = id ∧ u = t ∨ j ≠ id ∧ s.tasks.lookup j = some u := lookup_of_insert
  refine ⟨hi.linked,fun j u f d hu hd => ?_,fun j u hu => ?_,fun i j u v hne hu hv => ?_⟩
  · rcases hlook hu with ⟨-,rfl⟩ | ⟨-,hu⟩
    · exact hope f d hd
    · exact hi.opened j u f d hu hd
  · rcases hlook hu with ⟨-,rfl⟩ | ⟨-,hu⟩
    · exact hout
    · exact hi.outline j u hu
  · rcases hlook hu with ⟨rfl,rfl⟩ | ⟨hiid,hu'⟩ <;> rcases hlook hv with ⟨rfl,rfl⟩ | ⟨hjid,hv'⟩
    · exact absurd rfl hne
    · exact hapart j v hjid hv'
    · exact (hapart i u hiid hu').symm
    · exact hi.apart i j u v hne hu' hv'

theorem Inv.drop (hi : s.Inv) (id) : (s.drop id).Inv := by
  have hlook : ∀ {j u}, (s.drop id).tasks.lookup j = some u → s.tasks.lookup j = some u :=
    fun hu => (lookup_of_erase hu).2
  exact ⟨hi.linked,fun j u f d hu => hi.opened j u f d (hlook hu),fun j u hu => hi.outline j u (hlook hu),
    fun i j u v hne hu hv => hi.apart i j u v hne (hlook hu) (hlook hv)⟩

theorem Inv.make (hi : s.Inv) (hnone : s.links file = none) : (s.make file).Inv := by
  have hold : ∀ {f i}, s.links f = some i → (s.make file).links f = some i := by
    intro f i hf
    have hne : f ≠ file := by
      rintro rfl
      rw [hnone] at hf
      cases hf
    rw [links_make_ne _ _ hne]
    exact hf
  have hnew : ∀ {f i}, (s.make file).links f = some i → s.links f = some i ∨ i = s.next := by
    intro f i hf
    by_cases hfile : f = file
    · subst hfile
      simp only [make,Function.update_self] at hf
      exact .inr (some.inj hf).symm
    · rw [links_make_ne _ _ hfile] at hf
      exact .inl hf
  -- a lease is on a file made before
  have hlsd : ∀ {j u d}, s.tasks.lookup j = some u → u.activity = some d →
      s.links .activity ≠ some d.inode → (s.make file).links .activity ≠ some d.inode := by
    intro j u d hu hd hne hlink
    have hlt : d.inode < s.next := hi.opened j u .activity d hu hd
    rcases hnew hlink with hlink | hlink
    · exact hne hlink
    · omega
  refine ⟨fun f i hf => ?_,fun j u f d hu hd => ?_,fun j u hu => ?_,fun i j u v hne hu hv => ?_⟩
  · rcases hnew hf with hf | rfl
    · exact Nat.lt_succ_of_lt (hi.linked f i hf)
    · exact Nat.lt_succ_self _
  · exact Nat.lt_succ_of_lt (hi.opened j u f d hu hd)
  · exact (hi.outline j u hu).relink (fun ⟨i,ht,hlink⟩ => ⟨i,ht,hold hlink⟩) fun _ _ _ _ => hold
  · have hapart := hi.apart i j u v hne hu hv
    exact ⟨hapart.locks,fun hb hl d hd => hlsd hv hd (hapart.left hb hl d hd),
      fun hb hl d hd => hlsd hu hd (hapart.right hb hl d hd)⟩

theorem Inv.unlink (hi : s.Inv)
    (hout : ∀ j u, s.tasks.lookup j = some u → u.Outline (s.unlink file).links) :
    (s.unlink file).Inv := by
  have hold : ∀ {f i}, (s.unlink file).links f = some i → s.links f = some i := by
    intro f i hf
    by_cases hfile : f = file
    · subst hfile
      rw [links_unlink_self] at hf
      cases hf
    · rwa [links_unlink_ne _ _ hfile] at hf
  refine ⟨fun f i hf => hi.linked f i (hold hf),hi.opened,hout,fun i j u v hne hu hv => ?_⟩
  have hapart := hi.apart i j u v hne hu hv
  exact ⟨hapart.locks,fun hb hl d hd hlink => hapart.left hb hl d hd (hold hlink),
    fun hb hl d hd hlink => hapart.right hb hl d hd (hold hlink)⟩

section
variable (hi : s.Inv) (ht : s.tasks.lookup id = some t)
include hi ht

theorem Inv.move
    (hd : ∀ f d, t'.descriptor f = some d → d.lock = none ∧ d.inode < s.next ∨ t.descriptor f = some d)
    (hbare : t'.bare = true → t.bare = true)
    (hlsd : t'.leased = true → t.leased = true ∧ t'.activity = t.activity)
    (hout : t'.Outline s.links) : (s.put id t').Inv := by
  refine hi.put (fun f d hfd => ?_) hout fun j u hj hu => ?_
  · rcases hd f d hfd with ⟨-,hlt⟩ | hold
    · exact hlt
    · exact hi.opened id t f d ht hold
  · exact (hi.apart id j t u (Ne.symm hj) ht hu).weaken (fun f d hfd => (hd f d hfd).imp_left And.left)
      hbare hlsd

theorem Inv.moveTo
    (hd : ∀ f d, t'.descriptor f = some d → d.lock = none ∧ d.inode < s.next ∨ t.descriptor f = some d)
    (hheld : t'.stage ≠ .held) (hrel : t'.stage ≠ .releasing) (hout : t'.Outline s.links) :
    (s.put id t').Inv := by
  refine hi.move ht hd (fun hb => ?_) (fun hl => ?_) hout
  · exact absurd (bare_spec hb).1 hheld
  · simp only [leased,and_eq_true,or_eq_true,decide_eq_true_eq] at hl
    rcases hl.2 with hl | hl
    · exact absurd hl hrel
    · exact absurd hl hheld

theorem Inv.opened_at (hs : t.stage = .opening file) {i} (hlt : i < s.next)
    : (s.put id (t.put file (some ⟨i,none⟩) (.locking file))).Inv := by
  have hout := hi.outline id t ht
  refine hi.moveTo ht (fun f d hd => ?_) ?_ ?_ ?_
  · rw [descriptor_put] at hd
    split at hd
    · cases hd
      exact .inl ⟨rfl,hlt⟩
    · exact .inr hd
  · cases file <;> nofun
  · cases file <;> nofun
  · cases file with
    | transition =>
      simp only [Task.Outline,hs] at hout
      exact hout
    | activity =>
      simp only [Task.Outline,hs] at hout
      exact ⟨hout.1,hout.2.1⟩

theorem Inv.openFile (hs : t.stage = .opening file) : (s.openFile id t file).Inv := by
  unfold Fence.openFile
  cases hlink : s.links file with
  | some i => exact hi.opened_at ht hs (hi.linked file i hlink)
  | none =>
    dsimp only
    split
    · exact (hi.make hlink).opened_at ht hs (Nat.lt_succ_self _)
    -- a pause finds no A file: no lease can be on a linked one
    obtain ⟨hfile,hrole⟩ : file = .activity ∧ t.role = .pause := by
      cases file <;> cases hr : t.role <;> simp_all [Role.creates]
    subst hfile
    have hout := hi.outline id t ht
    simp only [Task.Outline,hs] at hout
    obtain ⟨hfen,htakes,hnone⟩ := hout
    refine hi.put (fun f d hd => hi.opened id t f d ht (by simpa using hd)) ?_ fun j u hj hu => ?_
    · simp only [hrole]
      refine ⟨hrole ▸ hfen,fun h => ?_,fun d hd => ?_⟩
      · exact hnone
      · rw [hnone] at hd
        cases hd
    · have hapart := hi.apart id j t u (Ne.symm hj) ht hu
      refine ⟨fun f d e hd => hapart.locks f d e (by simpa using hd),fun _ _ d _ => ?_,fun _ hl => ?_⟩
      · rw [hlink]
        nofun
      · simp [leased,hrole,Role.leases] at hl

end

section
variable (hi : s.Inv) (ht : s.tasks.lookup id = some t)
include hi ht

theorem Inv.refused (hs : t.stage = .locking file) : (s.refused id t file).Inv := by
  have hout := hi.outline id t ht
  cases file with
  | transition =>
    simp only [Task.Outline,hs] at hout
    unfold Fence.refused
    dsimp only
    split
    · exact hi.moveTo ht (fun f d hd => .inr (descriptor_of_closed hd)) nofun nofun hout
    · exact hi.drop id
  | activity =>
    simp only [Task.Outline,hs] at hout
    exact hi.moveTo ht (fun f d hd => .inr (descriptor_of_closed hd)) nofun nofun hout.1

theorem Inv.lockFile (hs : t.stage = .locking file) (h : s.lockFile id t file = some s') : s'.Inv := by
  obtain ⟨d,hd,h⟩ := bind_eq_some_iff.mp h
  dsimp only at h
  split at h
  · rename_i hgra
    cases h
    have hout := hi.outline id t ht
    have hlt : d.inode < s.next := hi.opened id t file d ht hd
    refine hi.put (fun f e he => ?_) ?_ fun j u hj hu => ?_
    · rw [descriptor_put] at he
      split at he
      · cases he
        exact hlt
      · exact hi.opened id t f e ht he
    · cases file with
      | transition =>
        simp only [Task.Outline,hs] at hout
        exact ⟨hout,_,rfl⟩
      | activity =>
        simp only [Task.Outline,hs] at hout
        exact ⟨hout.1,hout.2,_,rfl⟩
    · have hapart := hi.apart id j t u (Ne.symm hj) ht hu
      refine ⟨fun f e e' he he' => ?_,fun hb => ?_,fun _ hl => ?_⟩
      · rw [descriptor_put] at he
        split at he
        · rename_i hf
          subst hf
          cases he
          have hentry := List.all_eq_true.mp hgra ⟨j,u⟩ (AList.mem_lookup_iff.mp hu)
          simpa [hj,he'] using hentry
        · exact hapart.locks f e e' he he'
      · simpa using (bare_spec hb).1
      · simp [leased] at hl
  · split at h
    · cases h
    · cases h
      exact hi.refused ht hs

theorem Inv.verified_transition (hs : t.stage = .checking .transition) {d}
    (hd : t.transition = some d) (hlink : s.links .transition = some d.inode)
    : (s.put id (t.verified .transition)).Inv := by
  have hout := hi.outline id t ht
  simp only [Task.Outline,hs] at hout
  obtain ⟨hnone,i,hi'⟩ := hout
  have hfen : t.Fenced s.links := by
    cases hd.symm.trans hi'
    exact ⟨i,hi',hlink⟩
  unfold verified
  cases htakes : t.role.takesActivity with
  | true => exact hi.moveTo ht (fun f d hfd => .inr (by simpa using hfd)) nofun nofun ⟨hfen,htakes,hnone⟩
  | false =>
    have hls : t.role.leases = false := by
      cases hr : t.role <;> simp_all [Role.takesActivity,Role.leases]
    refine hi.move ht (fun f d hfd => .inr (by simpa using hfd)) (fun hb => ?_) (fun hl => ?_) ?_
    · simp [bare,exclusiveHold,htakes] at hb
    · simp [leased,hls] at hl
    · simp only [Task.Outline,hls]
      exact ⟨hfen,fun _ => hnone,fun d hd => absurd (hnone.symm.trans hd) nofun⟩

/-- A is the linked file. No pause that holds T alone is next to a lease that comes this way: the
lease still holds T. -/
theorem Inv.verified_activity (hs : t.stage = .checking .activity) {d}
    (hd : t.activity = some d) (hlink : s.links .activity = some d.inode)
    : (s.put id (t.verified .activity)).Inv := by
  have hout := hi.outline id t ht
  simp only [Task.Outline,hs] at hout
  obtain ⟨hfen,htakes,i,hi'⟩ := hout
  unfold verified
  cases hls : t.role.leases with
  | true =>
    rw [Role.mode_of_leases hls] at hi'
    refine hi.put (fun f d hfd => hi.opened id t f d ht (by simpa using hfd)) ⟨hfen,hls,i,hi'⟩
      fun j u hj hu => ?_
    have hapart := hi.apart id j t u (Ne.symm hj) ht hu
    refine ⟨fun f d e hfd => hapart.locks f d e (by simpa using hfd),fun hb => ?_,fun hb => ?_⟩
    · exact absurd (bare_spec hb).1 nofun
    · obtain ⟨hheld,hnot,-⟩ := bare_spec hb
      have hfen' := (hi.outline j u hu).fenced_of_held hheld hnot
      exact absurd hfen (hapart.symm.not_fenced hfen' (Role.mode_of_not_leases hnot))
  | false =>
    rw [Role.mode_of_not_leases hls] at hi'
    refine hi.move ht (fun f d hfd => .inr (by simpa using hfd)) (fun hb => ?_) (fun hl => ?_) ?_
    · have hnone : t.activity = none := (bare_spec hb).2.2
      rw [hnone] at hd
      cases hd
    · simp [leased,hls] at hl
    · simp only [Task.Outline,hls]
      refine ⟨hfen,fun hnot => absurd (htakes.symm.trans hnot) nofun,fun e he => ?_⟩
      cases hd.symm.trans he
      cases hd.symm.trans hi'
      exact ⟨rfl,hlink⟩

theorem Inv.checkFile (hs : t.stage = .checking file) (h : s.checkFile id t file = some s')
    : s'.Inv := by
  obtain ⟨d,hd,rfl⟩ := map_eq_some_iff.mp h
  have hout := hi.outline id t ht
  split
  · rename_i hlink
    cases file with
    | transition => exact hi.verified_transition ht hs hd hlink
    | activity => exact hi.verified_activity ht hs hd hlink
  · refine hi.moveTo ht (fun f d hd => .inr (descriptor_of_closed hd)) ?_ ?_ ?_
    · cases file <;> nofun
    · cases file <;> nofun
    · cases file with
      | transition =>
        simp only [Task.Outline,hs] at hout
        exact hout.1
      | activity =>
        simp only [Task.Outline,hs] at hout
        exact ⟨hout.1,hout.2.1,rfl⟩

theorem Inv.alone (hfen : t.Fenced s.links) (hls : t.role.leases = false) {j}
    (hj : j ≠ id) (hu : s.tasks.lookup j = some u) : ¬ u.Fenced s.links :=
  (hi.apart id j t u (Ne.symm hj) ht hu).not_fenced hfen (Role.mode_of_not_leases hls)

theorem Inv.discarding (hrole : t.role = .transition true) (hs : t.stage = .held)
    : ((s.unlink .activity).put id { t with stage := .discarding }).Inv := by
  have hout := hi.outline id t ht
  have hls : t.role.leases = false := by rw [hrole]; rfl
  have hfen := hout.fenced_of_held hs hls
  simp only [Task.Outline,hs,hls] at hout
  have hnone : t.activity = none := hout.2.1 (by rw [hrole]; rfl)
  have hkept : ∀ {u : Task}, u.Fenced s.links → u.Fenced (s.unlink .activity).links :=
    fun ⟨i,hu,hlink⟩ => ⟨i,hu,(links_unlink_ne s .activity (by decide)).trans hlink⟩
  have hunl : (s.unlink .activity).Inv := by
    refine hi.unlink fun j u hu => (hi.outline j u hu).relink hkept fun hheld hnot d hd _ => ?_
    by_cases hj : j = id
    · subst hj
      cases ht.symm.trans hu
      exact absurd (hnone.symm.trans hd) nofun
    · exact absurd ((hi.outline j u hu).fenced_of_held hheld hnot) (hi.alone ht hfen hls hj hu)
  exact hunl.moveTo ht (fun f d hd => .inr (by simpa using hd)) nofun nofun ⟨hkept hfen,hls⟩

theorem Inv.discarded (hs : t.stage = .discarding) :
    ((s.unlink .transition).put id { t with stage := .discarded }).Inv := by
  have hout := hi.outline id t ht
  simp only [Task.Outline,hs] at hout
  obtain ⟨hfen,hls⟩ := hout
  have hput : (s.put id { t with stage := .discarded }).Inv :=
    hi.moveTo ht (fun f d hd => .inr (by simpa using hd)) nofun nofun trivial
  refine hput.unlink fun j u hu => ?_
  obtain ⟨-,rfl⟩ | ⟨hj,hu⟩ := lookup_of_insert hu
  · exact trivial
  refine (hi.outline j u hu).relink (fun hf => ?_) fun _ _ d _ hlink => ?_
  · exact absurd hf (hi.alone ht hfen hls hj hu)
  · exact (links_unlink_ne _ .transition (by decide)).trans hlink

theorem Inv.advance (h : s.advance id t = some s') : s'.Inv := by
  have hout := hi.outline id t ht
  unfold Fence.advance at h
  cases hs : t.stage with
  | opening =>
    rw [hs] at h
    cases h
    exact hi.openFile ht hs
  | locking =>
    rw [hs] at h
    exact hi.lockFile ht hs h
  | checking =>
    rw [hs] at h
    exact hi.checkFile ht hs h
  | releasing =>
    rw [hs] at h
    cases h
    simp only [Task.Outline,hs] at hout
    obtain ⟨-,hls,hact⟩ := hout
    refine hi.move ht (fun f d hd => .inr (Task.descriptor_of_closed hd)) (fun hb => ?_) (fun _ => ?_) ?_
    · have hnot : t.role.leases = false := (Task.bare_spec hb).2.1
      rw [hls] at hnot
      cases hnot
    · exact ⟨by simp [Task.leased,hs,hls],rfl⟩
    · simpa only [Task.Outline,Task.put,hls,if_true] using hact
  | discarding =>
    rw [hs] at h
    cases h
    exact hi.discarded ht hs
  | closing =>
    rw [hs] at h
    cases h
    exact hi.drop id
  | held | discarded => rw [hs] at h; cases h

theorem Inv.finish (h : s.finish id t = some s') : s'.Inv := by
  unfold Fence.finish at h
  split at h
  · rename_i hs
    cases h
    split
    · exact hi.drop id
    rename_i hls
    have hfen := (hi.outline id t ht).fenced_of_held hs (by simpa using hls)
    exact hi.moveTo ht (fun f d hd => .inr (descriptor_of_closed hd)) nofun nofun hfen
  · cases h
    exact hi.drop id
  · cases h

end

theorem inv_fresh : fresh.Inv := by
  refine ⟨nofun,?_,?_,?_⟩ <;> simp [fresh]

theorem Inv.step {e} (hi : s.Inv) (h : s.step e = some s') : s'.Inv := by
  cases e with
  | spawn =>
    obtain ⟨-,rfl⟩ := some_of_guard h
    refine hi.put (fun f d hd => ?_) rfl fun j u _ _ => ⟨fun f d e hd => ?_,fun hb => ?_,fun _ hl => ?_⟩
    · cases f <;> cases hd
    · cases f <;> cases hd
    · exact absurd (bare_spec hb).1 nofun
    · simp [leased] at hl
  | advance =>
    obtain ⟨t,ht,h⟩ := bind_eq_some_iff.mp h
    exact hi.advance ht h
  | refuse =>
    obtain ⟨t,ht,h⟩ := bind_eq_some_iff.mp h
    split at h
    · rename_i hs
      split at h
      · cases h
      · cases h
        exact hi.refused ht hs
    · cases h
  | discard =>
    obtain ⟨t,ht,h⟩ := bind_eq_some_iff.mp h
    obtain ⟨hdel,rfl⟩ := some_of_check h
    exact hi.discarding ht hdel.1 hdel.2
  | finish =>
    obtain ⟨t,ht,h⟩ := bind_eq_some_iff.mp h
    exact hi.finish ht h
  | drop id =>
    cases h
    exact hi.drop id
  | touch =>
    cases h
    split
    · exact hi
    · rename_i hnone
      exact hi.make (by simpa using hnone)

end Fence

/-- The exec fence excludes: no activity lease on the linked A stands next to an exclusive hold, and
no two tasks hold the linked T exclusively. -/
theorem fence_excludes {s : Fence} (hs : Reaches Fence.step anyEvent (· = .fresh) s) {i j : Nat}
    {t u : Task} (ht : s.tasks.lookup i = some t) (hu : s.tasks.lookup j = some u) :
    (t.leased = true → ∀ d, t.activity = some d → s.links .activity = some d.inode →
      u.exclusiveHold = false) ∧
    (∀ d e, t.transition = some d → u.transition = some e → d.lock = some .exclusive →
      e.lock = some .exclusive → s.links .transition = some d.inode →
      s.links .transition = some e.inode → i = j) := by
  have hi : s.Inv := hs.keeps Fence.inv_fresh
    fun _ _ _ hi _ => hi.step
  refine ⟨fun hlsd d hd hlink => ?_,fun d e hd he hlock hlock' hlink hlink' => ?_⟩
  · by_contra hexcl
    rw [not_eq_false] at hexcl
    have hrole := hexcl
    simp only [exclusiveHold,and_eq_true,decide_eq_true_eq,not_eq_true'] at hrole
    obtain ⟨⟨hheld,hnot⟩,-⟩ := hrole
    have hne : i ≠ j := by
      rintro rfl
      cases ht.symm.trans hu
      simp [leased,hnot] at hlsd
    have hapart := hi.apart i j t u hne ht hu
    cases hact : u.activity with
    | none =>
      exact hapart.right (by simp [bare,hexcl,hact]) hlsd d hd hlink
    | some e =>
      obtain ⟨n,hn⟩ := (hi.outline i t ht).activity_of_leased hlsd
      cases hd.symm.trans hn
      have hout := hi.outline j u hu
      simp only [Task.Outline,hheld,hnot] at hout
      obtain ⟨hlock,hlink'⟩ := hout.2.2 e hact
      obtain ⟨m,lock⟩ := e
      obtain rfl : lock = some .exclusive := hlock
      obtain rfl : n = m := some.inj (hlink.symm.trans hlink')
      have hexc := hapart.symm.locks .activity _ _ hact hn
      rw [Descriptor.excludes_exclusive] at hexc
      cases hexc
  · by_contra hne
    have hexc := (hi.apart i j t u hne ht hu).locks .transition d e hd he
    obtain ⟨n,lock⟩ := d
    obtain ⟨m,lock'⟩ := e
    obtain rfl : lock = some .exclusive := hlock
    obtain rfl : lock' = some .exclusive := hlock'
    obtain rfl : n = m := some.inj (hlink.symm.trans hlink')
    rw [Descriptor.excludes_exclusive] at hexc
    cases hexc

namespace Example

def leaseEvents : List Event := .spawn 0 .exec :: List.replicate 7 (.advance 0)

def deleteEvents : List Event := .spawn 1 (.transition true) :: List.replicate 3 (.advance 1)

end Example

open Example

/-- Next to the lease of an exec only a transition that allows it gets into its body. -/
theorem fence_excludes_leased : ∃ (s : Fence) (t u : Task),
    Reaches Fence.step anyEvent (· = .fresh) s ∧ s.tasks.lookup 0 = some t ∧ s.tasks.lookup 1 = some u ∧
    t.leased = true ∧ u.stage = .held ∧ u.exclusiveHold = false := by
  obtain ⟨s,hs,ht,hu,hlink⟩ := Reaches.exists_from_run Fence.step .fresh (leaseEvents ++ deleteEvents)
    (fun s => s.tasks.lookup 0 = some ⟨.exec,.held,none,some ⟨1,some .shared⟩⟩ ∧
      s.tasks.lookup 1 = some ⟨.transition true,.held,some ⟨0,some .exclusive⟩,none⟩ ∧
      s.links .activity = some 1) (by decide +kernel)
  exact ⟨s,_,_,hs,ht,hu,rfl,rfl,(fence_excludes hs ht hu).1 rfl _ rfl hlink⟩

/-- A delete leaves the lease on an unlinked file, next to which a pause may hold the new fence. -/
example : ((run Fence.step .fresh (leaseEvents ++ deleteEvents ++
    [.discard 1,.advance 1,.finish 1,.spawn 2 .pause] ++ List.replicate 4 (.advance 2))).any fun s =>
      (s.tasks.lookup 0).any (·.leased) && (s.tasks.lookup 2).any (·.exclusiveHold)) = true := by
  decide +kernel

end UCloudSandboxes.ExecFence
