import UCloudSandboxes.Warden.Invariant

namespace UCloudSandboxes.Warden
open Option Attempt
open Storage (VolumeState)

/-- A procedure between two actions: the invariant holds and it knows the journal. -/
def Held (t : Attempt) : Prop := Inv t.node ∧ t.record = t.node.journal

theorem Held.cases {t} (h : Held t) : ∃ n, Inv n ∧ t = ⟨n, n.journal⟩ := by
  obtain ⟨n,r⟩ := t
  obtain ⟨hi,rfl⟩ : Inv n ∧ r = n.journal := h
  exact ⟨n,hi,rfl⟩

/-- What may happen under a procedure that holds the lock. -/
def Moves (t t' : Attempt) : Prop :=
  t' = { t with node := { t.node with status := .dead } } ∨
    t' = { t with node := { t.node with workspace := { t.node.workspace with state := .error } } }

variable (n : Node) (P : Node → Prop)

/-- The sentry is stopped or about to be, and nothing is published. -/
def Capturing : Prop :=
  n.journal.state = .hibernating ∧ n.journal.authority = .live ∧
    n.complete n.journal.hibernationGeneration = none

/-- The checkpoint is taken: the sentry does not run, and nothing is published. -/
def Stopped : Prop := Capturing n ∧ n.status ≠ .running

def Published : Prop :=
  n.journal.state = .hibernating ∧ n.journal.authority = .live ∧
    (n.complete n.journal.hibernationGeneration).isSome

def Reaped : Prop :=
  n.journal.state = .hibernating ∧ n.journal.authority = .pending ∧
    (n.complete n.journal.hibernationGeneration).isSome

def On (t : Attempt) : Prop := P t.node

/-- Assertions that the exit of the sentry and a failing volume leave alone. -/
structure Stable (P : Node → Prop) : Prop where
  exit : ∀ n, P n → P { n with status := .dead }
  error : ∀ n, P n → P { n with workspace := { n.workspace with state := .error } }

theorem Stable.moves {P} (h : Stable P) (t t') (hp : On P t) (hm : Moves t t') : On P t' := by
  rcases hm with rfl | rfl
  · exact h.exit _ hp
  · exact h.error _ hp

theorem Stable.and {P Q} (hP : Stable P) (hQ : Stable Q) : Stable fun n => P n ∧ Q n :=
  ⟨fun n h => ⟨hP.exit n h.1,hQ.exit n h.2⟩,fun n h => ⟨hP.error n h.1,hQ.error n h.2⟩⟩

def Durable : Prop :=
  ∀ n workspace status committed, P n → P { n with workspace, status, committed }

theorem Durable.stable {P} (h : Durable P) : Stable P :=
  ⟨fun n => h n _ _ _,fun n => h n _ _ _⟩

theorem durable_capturing : Durable Capturing := fun _ _ _ _ h => h

theorem durable_published : Durable Published := fun _ _ _ _ h => h

theorem durable_reaped : Durable Reaped := fun _ _ _ _ h => h

theorem stable_dead : Stable fun n => n.status = .dead := ⟨fun _ _ => rfl,fun _ h => h⟩

/-- What park's exception handler starts from: without COMPLETE the capture is still the sentry's. -/
def Recoverable : Prop :=
  n.complete n.journal.hibernationGeneration = none →
    n.journal.state = .hibernating ∧ n.journal.authority = .live

/-- No COMPLETE generation of the sandbox's sentry is lost. -/
def Keeps (t t' : Attempt) : Prop :=
  t'.node.sentry = t.node.sentry ∧
    ∀ k m, t.node.complete k = some m → m.captured = t.node.sentry → t'.node.complete k = some m

def Action.looks : Action → Bool
  | .requireAlive | .openSentryFence | .requirePaused | .persistParkedManifest => true
  | _ => false

def Action.deletes : Action → Bool
  | .deletePublished .. => true
  | _ => false

section Actions

variable {t t' : Attempt} {answer : String}

theorem Attempt.write_eq_some {result} (h : t.write result = some t') :
    ∃ r, result = .ok r ∧ t' = ⟨{ t.node with journal := r },r⟩ := by
  cases result with
  | error => simp [write] at h
  | ok r => exact ⟨r,rfl,(some.inj h).symm⟩

theorem Attempt.withWorkspace_eq_some {w} (h : t.withWorkspace w = some t') :
    ∃ v, w = some v ∧ t' = { t with node := { t.node with workspace := v } } := by
  cases w with
  | none => simp [withWorkspace] at h
  | some v => exact ⟨v,rfl,(some.inj h).symm⟩

theorem act_beginHibernate {operationId} (h : Held t) (hs : t.node.journal.state = .running)
    (he : t.exec (.beginHibernate operationId) answer = some t') : Held t' ∧ Capturing t'.node := by
  obtain ⟨r,hr,rfl⟩ := write_eq_some he
  obtain ⟨hstate,hauth,-,hgen,-⟩ := Record.beginHibernate_ok hs hr
  refine ⟨⟨h.1.beginHibernate hs hr,rfl⟩,hstate,hauth,?_⟩
  -- directories exist up to the old generation only
  have hnone : t.node.generations.lookup r.hibernationGeneration = none := by
    by_contra hk
    have := h.1.keys _ hk
    omega
  simp [Node.complete,hnone]

variable {P : Node → Prop}

theorem exec_looks {a} (ha : a.looks = true) (he : t.exec a answer = some t') : t' = t := by
  cases a with
  | requireAlive | openSentryFence | persistParkedManifest => exact (Machine.some_of_check he).2.symm
  | requirePaused => exact (Machine.some_of_guard he).2.symm
  | _ => cases ha

theorem act_looks {a} (ha : a.looks = true) (h : Held t) (hP : P t.node)
    (he : t.exec a answer = some t') : Held t' ∧ P t'.node := by
  obtain rfl := exec_looks ha he
  exact ⟨h,hP⟩

theorem exec_checkpoint (he : t.exec .checkpoint answer = some t') : t' = t.withStatus .paused := by
  exact (Machine.some_of_check he).2.symm

theorem exec_ensureRuntimeRunning (he : t.exec .ensureRuntimeRunning answer = some t') :
    t' = t.withStatus .running := by
  exact (Machine.some_of_check he).2.symm

theorem Workspace.perform_eq_some {w w' : Workspace} {kind final} (h : w.perform kind final = some w') :
    w' = { w with state := final } := by
  simp only [Workspace.perform,ite_none_right_eq_some,some.injEq] at h
  exact h.2.symm

theorem exec_commitCapture (he : t.exec .commitCapture answer = some t') :
    t' = t ∨ t.node.splitMemory = true ∧ (t' = { t with node := { t.node with
          workspace := { t.node.workspace with state := .sealed }
          committed := some (t.node.workspace.captureId,t.node.container) } } ∨
        t.node.workspace.state = .mounted ∧
          ∃ workspace, t' = { t with node := { t.node with workspace } }) := by
  unfold exec commitCapture at he
  dsimp only at he
  split at he
  · next hsplit =>
    split at he
    · cases he
    obtain ⟨-,he⟩ := Machine.of_guard he nofun
    split at he
    · obtain ⟨u,hu,rfl⟩ := map_eq_some_iff.mp he
      obtain ⟨w,hw,rfl⟩ := withWorkspace_eq_some hu
      obtain rfl := Workspace.perform_eq_some hw
      exact .inr ⟨hsplit,.inl rfl⟩
    · obtain ⟨w,-,rfl⟩ := withWorkspace_eq_some he
      exact .inr ⟨hsplit,.inr ⟨‹_›,w,rfl⟩⟩
    · exact .inl (some.inj he).symm
  · exact .inl (some.inj he).symm

theorem exec_abortWorkspaceCapture (he : t.exec .abortWorkspaceCapture answer = some t') :
    t' = t ∨ t.node.splitMemory = true ∧ t' = { t with node := { t.node with
      workspace := { t.node.workspace with state := .mounted } } } := by
  unfold exec abortWorkspaceCapture at he
  dsimp only at he
  split at he
  · split at he
    · obtain ⟨w,hw,rfl⟩ := withWorkspace_eq_some he
      obtain rfl := Workspace.perform_eq_some hw
      exact .inr ⟨‹_›,rfl⟩
    · exact .inl (some.inj he).symm
    · cases he
  · exact .inl (some.inj he).symm

theorem exec_prepareCapture (he : t.exec .prepareCapture answer = some t') :
    t' = t ∨ t.node.splitMemory = true ∧ t' = { t with node := { t.node with
      workspace := { state := .capturePrepared, captureId := answer } } } := by
  unfold exec at he
  dsimp only at he
  split at he
  · obtain ⟨w,hw,rfl⟩ := withWorkspace_eq_some he
    obtain ⟨v,hv,rfl⟩ := map_eq_some_iff.mp hw
    obtain rfl := Workspace.perform_eq_some hv
    exact .inr ⟨‹_›,rfl⟩
  · exact .inl (some.inj he).symm

theorem exec_discardPending (he : t.exec .discardPending answer = some t') :
    t' = t ∨ (t.node.generations.lookup t.record.hibernationGeneration = some .pending ∧
      t' = t.withGenerations (t.node.generations.erase t.record.hibernationGeneration)) := by
  unfold exec discardPending at he
  dsimp only at he
  split at he
  · next hl => exact .inr ⟨hl,(some.inj he).symm⟩
  · cases he
  · exact .inl (some.inj he).symm

theorem exec_prepareGeneration (he : t.exec .prepareGeneration answer = some t') :
    t' = t ∨ (t.node.generations.lookup t.record.hibernationGeneration = none ∧ t' = t.withGenerations
        (t.node.generations.insert t.record.hibernationGeneration .pending)) := by
  unfold exec prepareGeneration at he
  dsimp only at he
  split at he
  · exact .inl (some.inj he).symm
  · cases he
  · next hl => exact .inr ⟨hl,(some.inj he).symm⟩

theorem exec_publishComplete (he : t.exec .publishComplete answer = some t') :
    (t' = t ∧ (t.node.complete t.record.hibernationGeneration).isSome) ∨
      (t.node.generations.lookup t.record.hibernationGeneration = some .pending ∧
        (t.node.splitMemory = true → t.node.workspace.state = .capturePrepared) ∧
        ∃ h, t' = t.withGenerations (t.node.generations.insert t.record.hibernationGeneration
          (.complete (t.manifest answer h)))) := by
  unfold exec publishComplete at he
  dsimp only at he
  split at he
  · cases he
  next hne =>
  split at he
  · next hl =>
    refine .inr ⟨hl,fun hsplit => ?_,_,(some.inj he).symm⟩
    by_contra hw
    exact hne (.inr ⟨hsplit,hw⟩)
  · next hl =>
    simp only [ite_none_right_eq_some,some.injEq] at he
    exact .inl ⟨he.2.symm,by simp [Node.complete,hl]⟩
  · cases he

theorem exec_deletes {a} (ha : a.deletes = true) (he : t.exec a answer = some t') : ∃ k,
    t.node.generations.lookup k ≠ none ∧
        t' = t.withGenerations (t.node.generations.insert k .pending) ∨
      t.node.generations.lookup k = some .pending ∧
        t' = t.withGenerations (t.node.generations.erase k) := by
  cases a with
  | deletePublished k =>
    obtain ⟨-,he⟩ := Machine.of_guard he nofun
    split at he
    · exact ⟨k,.inl ⟨by simp [*],(some.inj he).symm⟩⟩
    · exact ⟨k,.inr ⟨‹_›,(some.inj he).symm⟩⟩
    · cases he
  | _ => cases ha

theorem exec_keeps {a} (ha : a.deletes = false) (he : t.exec a answer = some t') : Keeps t t' := by
  have hsame : ∀ n : Node, n.generations = t.node.generations → n.sentry = t.node.sentry →
      ∀ r, Keeps t ⟨n,r⟩ := by
    intro n hg hs r
    exact ⟨hs,fun k m hk _ => by simpa only [Node.complete,hg] using hk⟩
  have hpend : ∀ {j k : Nat} {m : Manifest}, t.node.generations.lookup j = some .pending →
      t.node.complete k = some m → k ≠ j := by
    rintro j k m hl hk rfl
    simp [Node.complete,hl] at hk
  have hwrite : ∀ result, t.write result = some t' → Keeps t t' := by
    intro result hw
    obtain ⟨r,-,rfl⟩ := write_eq_some hw
    exact hsame _ rfl rfl _
  cases a with
  | deletePublished => simp [Action.deletes] at ha
  | beginHibernate | markSentryReaped | abortHibernate | quarantine => exact hwrite _ he
  | ensureReleased | ensureWorkspaceMounted =>
    obtain ⟨w,-,rfl⟩ := withWorkspace_eq_some he
    exact hsame _ rfl rfl _
  | requireAlive | openSentryFence | requirePaused | persistParkedManifest =>
    rw [exec_looks rfl he]
    exact hsame _ rfl rfl _
  | terminate | deleteRuntime =>
    cases he
    exact hsame _ rfl rfl _
  | terminateIdentities =>
    cases he
    split <;> exact hsame _ rfl rfl _
  | checkpoint => rw [exec_checkpoint he]; exact hsame _ rfl rfl _
  | ensureRuntimeRunning => rw [exec_ensureRuntimeRunning he]; exact hsame _ rfl rfl _
  | prepareCapture =>
    obtain rfl | ⟨-,rfl⟩ := exec_prepareCapture he <;> exact hsame _ rfl rfl _
  | commitParked =>
    unfold exec at he
    dsimp only at he
    split at he
    · exact hwrite _ he
    · cases he
  | abortWorkspaceCapture =>
    obtain rfl | ⟨-,rfl⟩ := exec_abortWorkspaceCapture he <;> exact hsame _ rfl rfl _
  | commitCapture =>
    obtain rfl | ⟨-,rfl | ⟨-,w,rfl⟩⟩ := exec_commitCapture he <;> exact hsame _ rfl rfl _
  | prepareGeneration =>
    obtain rfl | ⟨hl,rfl⟩ := exec_prepareGeneration he
    · exact hsame _ rfl rfl _
    · exact ⟨rfl,fun k m hk _ => (t.node.complete_insert_pending hl).trans hk⟩
  | publishComplete =>
    obtain ⟨rfl,-⟩ | ⟨hl,-,hd,rfl⟩ := exec_publishComplete he
    · exact hsame _ rfl rfl _
    · exact ⟨rfl,fun k m hk _ => (t.node.complete_insert_ne (hpend hl hk) _).trans hk⟩
  | discardPending =>
    obtain rfl | ⟨hl,rfl⟩ := exec_discardPending he
    · exact hsame _ rfl rfl _
    · exact ⟨rfl,fun k m hk _ => (t.node.complete_erase_ne (hpend hl hk)).trans hk⟩

theorem act_prepareGeneration (h : Held t) (hc : Capturing t.node)
    (he : t.exec .prepareGeneration answer = some t') : Held t' ∧ Capturing t'.node := by
  obtain ⟨n,hi,rfl⟩ := h.cases
  obtain rfl | ⟨hn,rfl⟩ := exec_prepareGeneration he
  · exact ⟨h,hc⟩
  · exact ⟨⟨hi.insertPending le_rfl hn,rfl⟩,hc.1,hc.2.1,(n.complete_insert_pending hn).trans hc.2.2⟩

theorem act_checkpoint (h : Held t) (hc : Capturing t.node)
    (he : t.exec .checkpoint answer = some t') :
    Held t' ∧ Capturing t'.node ∧ t'.node.status ≠ .running := by
  rw [exec_checkpoint he]
  exact ⟨⟨h.1.withStatus (fun _ => hc.2.1) nofun,h.2⟩,hc,nofun⟩

theorem act_prepareCapture (h : Held t) (hc : Capturing t.node)
    (hr : t.node.status ≠ .running) (he : t.exec .prepareCapture answer = some t') :
    Held t' ∧ Capturing t'.node ∧ t'.node.status ≠ .running := by
  obtain rfl | ⟨hsplit,rfl⟩ := exec_prepareCapture he
  · exact ⟨h,hc,hr⟩
  refine ⟨⟨h.1.withWorkspace (fun k m hk hm _ => ?_) (fun _ _ => by simp) (fun hn => ?_),h.2⟩,hc,hr⟩
  · exact absurd hm (h.1.uncaptured hc.2.2 k m hk)
  · simp [hsplit] at hn

theorem act_publishComplete (h : Held t) (hc : Capturing t.node) (hr : t.node.status ≠ .running)
    (he : t.exec .publishComplete answer = some t') : Held t' ∧ Published t'.node := by
  obtain ⟨n,hi,rfl⟩ := h.cases
  obtain ⟨rfl,hsome⟩ | ⟨-,hv,hd,rfl⟩ := exec_publishComplete he
  · exact ⟨h,hc.1,hc.2.1,hsome⟩
  · refine ⟨⟨hi.publish hc.1 hr rfl rfl rfl rfl hv hc.2.2,rfl⟩,hc.1,hc.2.1,?_⟩
    simp [withGenerations]

theorem act_terminate (hP : Stable P) (h : Held t) (hp : P t.node)
    (he : t.exec .terminate answer = some t') : Held t' ∧ P t'.node ∧ t'.node.status = .dead := by
  cases he
  exact ⟨⟨h.1.exit,h.2⟩,hP.exit _ hp,rfl⟩

theorem act_markSentryReaped (h : Held t) (hd : t.node.status = .dead)
    (he : t.exec .markSentryReaped answer = some t') :
    Held t' ∧ t'.node.status = .dead ∧ t'.node.container = t.node.container ∧
      t'.node.splitMemory = t.node.splitMemory ∧
      ((t.node.complete t.node.journal.hibernationGeneration).isSome → Reaped t'.node) := by
  obtain ⟨r,hr,rfl⟩ := write_eq_some he
  obtain ⟨-,hstate,hauth,-,-,hgen,-⟩ := Record.markSentryReaped_ok hr
  refine ⟨⟨h.1.markSentryReaped hd hr,rfl⟩,hd,rfl,rfl,fun hp => ⟨hstate,hauth,?_⟩⟩
  rw [← hgen] at hp
  exact hp

theorem act_deleteRuntime (h : Held t) (hr : Reaped t.node)
    (he : t.exec .deleteRuntime answer = some t') :
    Held t' ∧ Reaped t'.node ∧ t'.node.container = false := by
  cases he
  exact ⟨⟨h.1.deleteRuntime (by simp [hr.2.1]),h.2⟩,hr,rfl⟩

theorem act_commitParked (h : Held t) (hr : Reaped t.node)
    (hc : t.node.splitMemory = true → t.node.container = false)
    (he : t.exec .commitParked answer = some t') : Held t' ∧ t'.node.journal.state = .parked := by
  obtain ⟨n,hi,rfl⟩ := h.cases
  unfold exec at he
  dsimp only at he
  split at he
  · next m hm =>
    obtain ⟨r,hok,rfl⟩ := write_eq_some he
    exact ⟨⟨hi.commitParked hm hr.1 hr.2.1 hc hok,rfl⟩,(Record.commitParked_ok hr.1 hok).1⟩
  · cases he

theorem act_quarantine {reason dead} (h : Held t) (hd : t.node.status = .dead)
    (he : t.exec (.quarantine reason dead) answer = some t') :
    Held t' ∧ t'.node.journal.state = .recoveryRequired := by
  obtain ⟨r,hok,rfl⟩ := write_eq_some he
  exact ⟨⟨h.1.quarantine hd hok,rfl⟩,(Record.quarantine_ok hok).1⟩

/-- What the release of parked storage relies on and leaves alone. -/
structure Releasable (n : Node) : Prop where
  state : n.journal.state = .hibernating ∨ n.journal.state = .parked
  complete : (n.complete n.journal.hibernationGeneration).isSome
  container : n.splitMemory = true → n.container = false

theorem Held.owned (h : Held t) (hr : Releasable t.node) :
    ∃ m, t.node.complete t.node.journal.hibernationGeneration = some m ∧
      m.captured = t.node.sentry ∧ Owned t.node t.node.journal.hibernationGeneration m := by
  obtain ⟨m,hm⟩ := isSome_iff_exists.mp hr.complete
  have hc := h.1.current m hm hr.state
  exact ⟨m,hm,hc,h.1.owned _ m hm hc⟩

theorem act_commitCapture (hP : Durable P) (h : Held t) (hp : P t.node) (hr : Releasable t.node)
    (he : t.exec .commitCapture answer = some t') : Held t' ∧ P t'.node := by
  obtain ⟨m,hk,hcap,how⟩ := h.owned hr
  obtain ⟨n,hi,rfl⟩ := h.cases
  obtain rfl | ⟨hsplit,rfl | ⟨hw,w,rfl⟩⟩ := exec_commitCapture he
  · exact ⟨h,hp⟩
  · have hiw : Inv { n with workspace := { n.workspace with state := .sealed } } :=
      hi.withWorkspace (fun _ _ _ _ _ => ⟨rfl,by simp⟩)
        (fun _ hfree => absurd hcap (hfree _ m hk)) fun hn => absurd hsplit (by simp [hn])
    refine ⟨⟨{ hiw with committed := fun c present hcp => ?_, owned := fun k m hk hm =>
      { hiw.owned k m hk hm with } },rfl⟩,hP n _ _ _ hp⟩
    simp only [some.injEq,Prod.mk.injEq] at hcp
    rw [← hcp.2]
    exact hr.container hsplit
  · -- a published capture is never mounted again
    exact absurd (hw ▸ how.volume hsplit) (by decide)

theorem act_ensureReleased (hP : Durable P) (h : Held t) (hp : P t.node) (hr : Releasable t.node)
    (he : t.exec .ensureReleased answer = some t') : Held t' ∧ P t'.node := by
  obtain ⟨m,hk,hcap,how⟩ := h.owned hr
  obtain ⟨w,hw,rfl⟩ := withWorkspace_eq_some he
  refine ⟨⟨h.1.withWorkspace (fun _ _ _ _ hsplit => ?_)
    (fun _ hfree => absurd hcap (hfree _ m hk)) (fun hsplit => ?_),h.2⟩,hP _ _ _ _ hp⟩
  · have := how.volume hsplit
    simp only [Workspace.ensureReleased] at hw
    split at hw <;> simp_all
    all_goals subst hw; simp_all
  · have := h.1.legacy hsplit
    simp only [Workspace.ensureReleased] at hw
    split at hw <;> simp_all
    all_goals subst hw; simp_all

theorem act_abortWorkspaceCapture (h : Held t) (hc : Capturing t.node)
    (he : t.exec .abortWorkspaceCapture answer = some t') : Held t' ∧ Capturing t'.node := by
  obtain rfl | ⟨hsplit,rfl⟩ := exec_abortWorkspaceCapture he
  · exact ⟨h,hc⟩
  · refine ⟨⟨h.1.withWorkspace (fun k m hk hm _ => ?_) (fun _ _ => by simp) (by simp),h.2⟩,hc⟩
    exact absurd hm (h.1.uncaptured hc.2.2 k m hk)

theorem act_ensureRuntimeRunning (h : Held t) (hc : Capturing t.node)
    (he : t.exec .ensureRuntimeRunning answer = some t') : Held t' ∧ Capturing t'.node := by
  rw [exec_ensureRuntimeRunning he]
  exact ⟨⟨h.1.withStatus (fun _ => hc.2.1) (fun _ => h.1.uncaptured hc.2.2),h.2⟩,hc⟩

theorem act_abortHibernate (h : Held t) (hc : Capturing t.node)
    (he : t.exec .abortHibernate answer = some t') : Held t' ∧ t'.node.journal.state = .running := by
  obtain ⟨n,hi,rfl⟩ := h.cases
  obtain ⟨r,hr,rfl⟩ := write_eq_some he
  exact ⟨⟨hi.abortHibernate hc.2.2 hc.2.1 hr,rfl⟩,(Record.abortHibernate_ok hr).1⟩

theorem act_discardPending (h : Held t) (hs : t.node.journal.state = .running)
    (he : t.exec .discardPending answer = some t') : Held t' ∧ t'.node.journal.state = .running := by
  obtain ⟨n,hi,rfl⟩ := h.cases
  obtain rfl | ⟨hl,rfl⟩ := exec_discardPending he
  · exact ⟨h,hs⟩
  · exact ⟨⟨hi.erasePending hl,rfl⟩,hs⟩

theorem act_deletes {a} (ha : a.deletes = true) (h : Held t) (hs : t.node.journal.state = .running)
    (he : t.exec a answer = some t') :
    (Held t' ∧ t'.node.journal.state = .running) ∧ Keeps t t' := by
  have hfree := h.1.uncaptured_of_running hs
  obtain ⟨k,⟨hk,rfl⟩ | ⟨hl,rfl⟩⟩ := exec_deletes ha he
  · exact ⟨⟨⟨h.1.unlinkComplete hs hk,h.2⟩,hs⟩,rfl,fun j m hj hm => absurd hm (hfree j m hj)⟩
  · exact ⟨⟨⟨h.1.erasePending hl,h.2⟩,hs⟩,rfl,fun j m hj hm => absurd hm (hfree j m hj)⟩

theorem act_ensureWorkspaceMounted (hP : Durable P) (h : Held t) (hp : P t.node)
    (hl : t.node.splitMemory = false) (he : t.exec .ensureWorkspaceMounted answer = some t') :
    Held t' ∧ P t'.node := by
  obtain ⟨w,hw,rfl⟩ := withWorkspace_eq_some he
  refine ⟨⟨h.1.withWorkspace (by simp [hl]) (by simp [hl]) (fun _ => ?_),h.2⟩,hP _ _ _ _ hp⟩
  simp only [Workspace.ensureMounted] at hw
  split at hw <;> simp_all
  all_goals subst hw; simp

theorem act_terminateIdentities (h : Held t) (he : t.exec .terminateIdentities answer = some t') :
    Held t' ∧ t'.node.status = .dead := by
  obtain ⟨n,hi,rfl⟩ := h.cases
  cases he
  split
  · exact ⟨⟨hi.exit,rfl⟩,rfl⟩
  next hn =>
  refine ⟨h,?_⟩
  by_contra hd
  have hl : n.journal.authority = .live := by
    by_contra ha
    exact hd (hi.reaped ha)
  simp [Node.alive,(hi.live hl).1,hd] at hn

end Actions

end UCloudSandboxes.Warden
