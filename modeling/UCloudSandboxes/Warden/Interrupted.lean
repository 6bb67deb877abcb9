import UCloudSandboxes.Warden.Outlines

namespace UCloudSandboxes.Warden
open Machine Attempt Record List Ends Option

/-- The journal has one owner: the manifest, the original sentry, or an operator. -/
def Settled (n : Node) : Prop :=
  n.journal.state = .parked ∨
    (n.journal.state = .running ∧ n.journal.sentry = some n.sentry) ∨
    n.journal.state = .recoveryRequired

section Settling

variable {n : Node}

abbrev Settles (n : Node) (record : Record) (acts : List Action) : Prop :=
  Ends exec "" (On Settled) ⟨n, record⟩ acts

theorem journal_kept {t t' : Attempt} {a b}
    (ha : a ∈ Action.discardPending :: .persistParkedManifest :: releaseParkedStorage ∨
      a.deletes = true) (he : t.exec a b = some t') :
    t'.node.journal = t.node.journal ∧ t'.node.sentry = t.node.sentry := by
  rcases ha with ha | ha
  · simp only [releaseParkedStorage,mem_cons,not_mem_nil,or_false] at ha
    rcases ha with rfl | rfl | rfl | rfl
    · obtain rfl | ⟨-,rfl⟩ := exec_discardPending he <;> exact ⟨rfl,rfl⟩
    · rw [exec_looks rfl he]
      exact ⟨rfl,rfl⟩
    · obtain rfl | ⟨-,rfl | ⟨-,w,rfl⟩⟩ := exec_commitCapture he <;> exact ⟨rfl,rfl⟩
    · obtain ⟨w,-,rfl⟩ := withWorkspace_eq_some he
      exact ⟨rfl,rfl⟩
  · obtain ⟨-,⟨-,rfl⟩ | ⟨-,rfl⟩⟩ := exec_deletes ha he <;> exact ⟨rfl,rfl⟩

variable {acts : List Action}

theorem settles_kept {record} (hs : Settled n)
    (ha : ∀ a ∈ acts, a ∈ Action.discardPending :: .persistParkedManifest :: releaseParkedStorage ∨
      a.deletes = true) : Settles n record acts := by
  refine of_forall (fun a hmem t t' hq he => ?_) hs
  obtain ⟨hj,hsen⟩ := journal_kept (ha a hmem) he
  simpa only [On,Settled,hj,hsen] using hq

theorem settles_quarantine {reason dead} (h : n.journal.authority = .live → dead = true) :
    Settles n n.journal [.quarantine reason dead] := by
  obtain ⟨r,hr⟩ : ∃ r, n.journal.quarantine reason n.journal.revision dead = .ok r := by
    by_cases ha : n.journal.authority = .live
    · simp [quarantine,requireRevision,bind,Except.bind,ha,h ha]
    · simp [quarantine,requireRevision,bind,Except.bind,ha]
  have he : exec ⟨n,n.journal⟩ (.quarantine reason dead) "" = some ⟨{ n with journal := r },r⟩ := by
    simp [exec,write,hr]
  exact cons he (.inr (.inr (quarantine_ok hr).1))

theorem settles_markSentryReaped (hs : n.journal.state = .hibernating)
    (hk : n.journal.operationKind = .hibernate) (ha : n.journal.authority = .live)
    (next : ∀ r : Record, r.state = .hibernating → r.authority = .pending → r.operationKind =
      .hibernate → r.operationId = n.journal.operationId → r.hibernationGeneration =
      n.journal.hibernationGeneration → Settles { n with journal := r } r acts) :
    Settles n n.journal (.markSentryReaped :: acts) := by
  obtain ⟨r,hr⟩ : ∃ r, n.journal.markSentryReaped n.journal.operationId n.journal.revision = .ok r := by
    simp [markSentryReaped,bind,Except.bind,requireOperation_self hk,hs,ha]
  obtain ⟨-,hstate,hauth,hkind,hop,hgen,-⟩ := markSentryReaped_ok hr
  exact cons (by simp [exec,write,hr]) (next r hstate hauth hkind hop hgen)

theorem settles_commitParked {m} (hs : n.journal.state = .hibernating)
    (hk : n.journal.operationKind = .hibernate) (ha : n.journal.authority = .pending)
    (hm : n.complete n.journal.hibernationGeneration = some m)
    (hg : m.hibernationGeneration = n.journal.hibernationGeneration)
    (ho : m.operationId = n.journal.operationId)
    (hacts : ∀ a ∈ acts, a ∈ Action.persistParkedManifest :: releaseParkedStorage) :
    Settles n n.journal (.commitParked :: acts) := by
  obtain ⟨r,hr⟩ : ∃ r, n.journal.commitParked m n.journal.operationId n.journal.revision = .ok r := by
    simp [commitParked,bind,Except.bind,requireOperation_self hk,hs,ha,hg,ho]
  have he : exec ⟨n,n.journal⟩ .commitParked "" = write ⟨n,n.journal⟩ (.ok r) := by
    simp [exec,hm,hr]
  refine cons he (settles_kept ?_ fun a hmem => .inl ?_)
  · exact .inl (commitParked_ok hs hr).1
  · exact .tail _ (hacts a hmem)

theorem settles_resume (hi : Inv n) (hc : Capturing n) (hd : n.status ≠ .dead)
    (hw : n.workspace.state ≠ .error) :
    Settles n n.journal (reconcileTail n .resumeOrRetryHibernate) := by
  obtain ⟨hsent,hcont⟩ := hi.live hc.2.1
  have halive : n.alive n.journal.sentry = true := by simp [hi.alive_sentry,hd]
  refine cons (by simp only [exec,halive]; rfl) ?_
  have habort : (exec ⟨n,n.journal⟩ .abortWorkspaceCapture "").isSome := by
    cases hsplit : n.splitMemory with
    | false => simp [exec,abortWorkspaceCapture,hsplit]
    | true =>
      have hv := hi.volume hsplit (hi.uncaptured hc.2.2)
      simp only [mem_cons,not_mem_nil,or_false,hw] at hv
      rcases hv with hv | hv <;>
        simp [exec,abortWorkspaceCapture,hsplit,hv,withWorkspace,
          Workspace.abortCapture,Workspace.perform,Storage.Kind.allowedStates]
  obtain ⟨u,habort⟩ := isSome_iff_exists.mp habort
  obtain ⟨w,rfl⟩ : ∃ w, u = ⟨{ n with workspace := w },n.journal⟩ := by
    obtain rfl | ⟨-,rfl⟩ := exec_abortWorkspaceCapture habort <;> exact ⟨_,rfl⟩
  refine cons habort ?_
  have hrun : exec ⟨{ n with workspace := w },n.journal⟩ .ensureRuntimeRunning "" =
      some ⟨{ n with workspace := w, status := .running },n.journal⟩ := by
    simp [exec,Node.runtimeStatus,Node.alive,hsent,hd,hcont,withStatus]
  refine cons hrun ?_
  obtain ⟨r,hr⟩ : ∃ r, n.journal.abortHibernate n.journal.operationId n.journal.revision
      n.journal.sentry = .ok r := by
    simp [abortHibernate,bind,Except.bind,requireOperation_self (hi.hibernating hc.1),hc.1,hc.2.1]
  obtain ⟨hstate,-,hsen,-⟩ := abortHibernate_ok hr
  have habort' : exec ⟨{ n with workspace := w, status := .running },n.journal⟩
      .abortHibernate "" =
      some ⟨{ n with workspace := w, status := .running, journal := r },r⟩ := by
    simp [exec,write,hr]
  refine cons habort' (settles_kept (.inr (.inl ⟨hstate,hsen.trans hsent⟩)) ?_)
  simp

theorem settles_finishPublished (hi : Inv n) (hp : Published n) (hd : n.status ≠ .dead) :
    Settles n n.journal (reconcileTail n .finishPublishedGeneration) := by
  obtain ⟨hs,hl,hm⟩ := hp
  obtain ⟨m,hm⟩ := isSome_iff_exists.mp hm
  have how := hi.owned _ m hm (hi.current m hm (.inl hs))
  have halive : n.alive n.journal.sentry = true := by simp [hi.alive_sentry,hd]
  refine cons (by simp only [exec,halive]; rfl) ?_
  refine settles_markSentryReaped (n := { n with status := .dead }) hs (hi.hibernating hs) hl
    fun r hstate hauth hkind hop hgen => ?_
  have hm' : n.complete r.hibernationGeneration = some m := by rw [hgen]; exact hm
  refine settles_commitParked (n := { n with status := .dead, journal := r, container := false })
    hstate hkind hauth hm' ?_ ?_ ?_
  · exact how.generation.trans hgen.symm
  · exact how.operation.trans hop.symm
  · simp

theorem settles_reconcile (hi : Inv n) (hf : foreignCapture n = false)
    (hw : n.workspace.state ≠ .error) : Settles n n.journal (reconcileProgram n n.journal) := by
  have hdec := decided_reconcile hi hf
  generalize reconcileProgram n n.journal = acts at hdec ⊢
  cases hdec with
  | rest hs => exact .inr (.inr hs)
  | quarantine reason hd hl => exact settles_quarantine hl
  | delete h hs =>
    exact settles_kept (.inr (.inl ⟨hs,(hi.live (live_of_running hs)).1⟩)) fun a ha => .inr (h a ha)
  | lose reason hs hd =>
    rw [reap]
    split
    · next ha =>
      exact settles_markSentryReaped hs (hi.hibernating hs) ha fun r _ hauth _ _ _ =>
        settles_quarantine (n := { n with journal := r }) fun hl => by simp [hauth] at hl
    · next ha => exact settles_quarantine fun hl => absurd hl ha
  | resume h hd => exact settles_resume hi h hd hw
  | @park m hs hd hm hr =>
    have hkind := hi.hibernating hs
    have how := hi.owned _ m hm (hi.current m hm (.inl hs))
    rw [reap]
    split
    · next ha =>
      refine settles_markSentryReaped hs hkind ha fun r hstate hauth hkind hop hgen => ?_
      refine settles_commitParked (n := { n with journal := r }) hstate hkind hauth
        (by rw [hgen]; exact hm) (how.generation.trans hgen.symm)
        (how.operation.trans hop.symm) fun a => .tail _
    · next ha =>
      have hp := (authority_of_hibernating hs).resolve_left ha
      exact settles_commitParked hs hkind hp hm how.generation how.operation fun a => .tail _
  | finish h hd => exact settles_finishPublished hi h hd
  | release hs =>
    exact settles_kept (.inl hs) fun a ha => .inl (.tail _ (.tail _ ha))

theorem settles_storageError : Settles n n.journal quarantineStorageError := by
  have hfence : ∃ status, exec ⟨n,n.journal⟩ .terminateIdentities "" =
      some ⟨{ n with status },n.journal⟩ := by
    simp only [exec]
    split
    · exact ⟨_,rfl⟩
    · exact ⟨n.status,rfl⟩
  obtain ⟨status,he⟩ := hfence
  exact cons he (settles_quarantine (n := { n with status }) fun _ => rfl)

theorem run_settles {s record} (hp : s.procedure = some ⟨.decided,record,acts⟩)
    (h : Settles s.node record acts) :
    ∃ k s', runMeeting step fits s (replicate k (.proceed .done "")) = some s' ∧
      s'.procedure = none ∧ Settled s'.node := by
  induction acts generalizing s record with
  | nil =>
    have hfits : fits s (.proceed .done "") := fun hd => by simp [decides,hp] at hd
    refine ⟨1,{ s with procedure := none },?_,rfl,h⟩
    simp [runMeeting,hfits,step,hp,State.proceed]
  | cons a acts ih =>
    have hfits : fits s (.proceed .done "") := fun hd => by simp [decides,hp] at hd
    unfold Settles Ends at h
    split at h
    · next t ht =>
      obtain ⟨k,s',hrun,hidle,hset⟩ :=
        ih (s := ⟨t.node,some ⟨.decided,t.record,acts⟩⟩) rfl h
      refine ⟨k + 1,s',?_,hidle,hset⟩
      simpa [replicate_succ,runMeeting,hfits,step,hp,State.proceed,ht] using hrun
    · next ht =>
      refine ⟨1,{ s with procedure := none },?_,rfl,h⟩
      simp [runMeeting,hfits,step,hp,State.proceed,ht,State.raise]

theorem run_examined {s} (hi : Inv s.node) (hp : s.procedure = some ⟨.examine,s.node.journal,[]⟩)
    (hf : foreignCapture s.node = false) (hu : undeletedRuntime s.node = false)
    (hw : s.node.workspace.state ≠ .error) :
    ∃ k s', runMeeting step fits s (replicate k (.proceed .done "")) = some s' ∧
      s'.procedure = none ∧ Settled s'.node := by
  have hfits : fits s (.proceed .done "") := fun _ => ⟨hf,hu⟩
  obtain ⟨k,s',hrun,hidle,hset⟩ := run_settles
    (s := ⟨s.node,some ⟨.decided,s.node.journal,reconcileProgram s.node s.node.journal⟩⟩) rfl
    (settles_reconcile hi hf hw)
  refine ⟨k + 1,s',?_,hidle,hset⟩
  simpa [replicate_succ,runMeeting,hfits,step,hp,State.proceed] using hrun

theorem reconcile_settles {s} (hi : Inv s.node) (hidle : s.procedure = none)
    (hf : foreignCapture s.node = false) (hu : undeletedRuntime s.node = false) :
    ∃ k s', runMeeting step fits s (.reconcile :: replicate k (.proceed .done "")) = some s' ∧
      s'.procedure = none ∧ Settled s'.node := by
  have hfits : fits s .reconcile := fun hd => by simp [decides] at hd
  have hstart : ∀ es, runMeeting step fits s (.reconcile :: es) =
      runMeeting step fits { s with procedure := startReconcile s.node } es := by
    simp [runMeeting,hfits,step,hidle,hi.restoring]
  simp only [hstart]
  unfold startReconcile
  split
  · next hs => exact ⟨0,_,rfl,rfl,.inr (.inr hs)⟩
  split
  · exact run_settles rfl settles_storageError
  next hw =>
  split
  · next hleg =>
    simp only [Bool.and_eq_true,Bool.not_eq_true'] at hleg
    -- a legacy workspace is mounted again before the reconcile looks at the artifact
    have hv := hi.legacy hleg.2
    simp only [mem_cons,not_mem_nil,or_false,hw] at hv
    have hmount : (exec ⟨s.node,s.node.journal⟩ .ensureWorkspaceMounted "").isSome := by
      rcases hv with hv | hv <;> simp [exec,withWorkspace,Workspace.ensureMounted,hv]
    obtain ⟨t,he⟩ := isSome_iff_exists.mp hmount
    have hdur : Durable fun n => n.splitMemory = false := fun _ _ _ _ h => h
    obtain ⟨hheld,-⟩ := act_ensureWorkspaceMounted hdur ⟨hi,rfl⟩ hleg.2 hleg.2 he
    obtain ⟨w,hw',rfl⟩ := withWorkspace_eq_some he
    have hmou : w.state ≠ .error := by
      rcases hv with hv | hv <;>
        simp only [Workspace.ensureMounted,hv,some.injEq] at hw' <;>
        simp [← hw',hv]
    obtain ⟨k,s',hrun,hend,hset⟩ := run_examined
      (s := ⟨{ s.node with workspace := w },some ⟨.examine,s.node.journal,[]⟩⟩) hheld.1 rfl hf hu
      hmou
    refine ⟨k + 1,s',?_,hend,hset⟩
    have hquiet : fits { s with procedure := some ⟨.examine,s.node.journal,
        [.ensureWorkspaceMounted]⟩ } (.proceed .done "") := fun hd => by simp [decides] at hd
    simpa [replicate_succ,runMeeting,hquiet,step,State.proceed,he] using hrun
  · exact run_examined hi rfl hf hu hw

end Settling

theorem Sound.keeps {s s'} (h : Sound s) {e} (hs : step s e = some s') :
    Keeps ⟨s.node,s.node.journal⟩ ⟨s'.node,s'.node.journal⟩ := by
  have hsame : ∀ n : Node, n.generations = s.node.generations → n.sentry = s.node.sentry →
      Keeps ⟨s.node,s.node.journal⟩ ⟨n,n.journal⟩ := by
    intro n hg hsen
    exact ⟨hsen,fun k m hk _ => by simpa only [Node.complete,hg] using hk⟩
  cases e with
  | park | reconcile =>
    obtain ⟨-,rfl⟩ := some_of_check hs
    exact hsame _ rfl rfl
  | proceed outcome =>
    obtain ⟨p,hp,rfl⟩ := map_eq_some_iff.mp hs
    obtain ⟨hrec,hready⟩ := h.procedure p hp
    unfold State.proceed
    split
    · split <;> exact hsame _ rfl rfl
    next a rest hrest =>
    rw [hrest] at hready
    rw [hrec]
    split
    · exact hsame _ rfl rfl
    next t ht =>
    obtain ⟨-,hk,-⟩ := hready.act ⟨h.node,rfl⟩ ht
    cases outcome with
    | done => exact hk
    | refused => exact hsame _ rfl rfl
    | lost => exact hk
  | crash | sentryExit | storageError =>
    cases hs
    exact hsame _ rfl rfl

/-- Whatever follows, a COMPLETE generation stays and the sentry it captured does not run. -/
theorem Sound.published_persists {s s'} (h : Sound s) {k m} (hk : s.node.complete k = some m)
    (hm : m.captured = s.node.sentry) (hr : Reaches step fits (· = s) s') :
    s'.node.complete k = some m ∧ s'.node.sentry = s.node.sentry ∧ s'.node.status ≠ .running := by
  have hinv : Sound s' ∧ s'.node.complete k = some m ∧ s'.node.sentry = s.node.sentry := by
    refine hr.invariant (I := fun u => Sound u ∧ u.node.complete k = some m ∧
      u.node.sentry = s.node.sentry) (fun u hu => ?_) (fun u e u' hu hok hs => ?_)
    · rw [show u = s from hu]
      exact ⟨h,hk,rfl⟩
    · obtain ⟨hsen,hkeep⟩ := hu.1.keeps hs
      exact ⟨hu.1.next hok hs,hkeep k m hu.2.1 (hm.trans hu.2.2.symm),hsen.trans hu.2.2⟩
  obtain ⟨hsound,hc,hsen⟩ := hinv
  exact ⟨hc,hsen,(hsound.node.owned k m hc (hm.trans hsen.symm)).notRunning⟩

/-- The journal names the checkpoint, its sentry is dead, and its workspace has no other owner. -/
def ParkOwns (n : Node) : Prop :=
  ∃ m, n.complete n.journal.hibernationGeneration = some m ∧
    n.journal.manifestSha256 = m.metadataSha256 ∧ n.status = .dead ∧
    ∀ c, m.workspace = some c → n.container = false ∧
      ∀ present, n.committed = some (c, present) → present = false

/-- In every run whose reconciles decide about no foreign capture and over no undeleted runtime, a
park ends in one owner however interrupted. -/
theorem interrupted_park_one_owner {s : State} (h : Reaches step fits Start s) :
    (∀ k m, s.node.complete k = some m → m.captured = s.node.sentry →
      ∀ s', Reaches step fits (· = s) s' →
        s'.node.complete k = some m ∧ s'.node.sentry = s.node.sentry ∧ s'.node.status ≠ .running) ∧
    (s.node.journal.state = .parked → ParkOwns s.node) ∧
    (s.procedure = none → foreignCapture s.node = false → undeletedRuntime s.node = false →
      ∃ k s', runMeeting step fits s (.reconcile :: replicate k (.proceed .done "")) = some s' ∧
        s'.procedure = none ∧ Settled s'.node) := by
  have hs := Sound.of_reaches h
  have hi := hs.node
  refine ⟨fun k m hk hm s' => hs.published_persists hk hm,fun hp => ?_,reconcile_settles hi⟩
  obtain ⟨m,hm,hd,hc⟩ := hi.parked hp
  have how := hi.owned _ m hm (hi.current m hm (.inr hp))
  refine ⟨m,hm,hd,hi.reaped (s.node.journal.not_live (by simp [hp]) (by simp [hp])),fun c hw => ?_⟩
  have hsplit : s.node.splitMemory = true := by
    rw [how.workspace] at hw
    by_contra hn
    simp [Node.workspaceRef,hn] at hw
  exact ⟨hc hsplit,hi.committed c⟩

namespace Example

def sentry : Identity := ⟨7, 9⟩

theorem identified_live : HibernationAuthority.live = .candidate → (none : Option Identity).isSome :=
  fun h => by cases h

def created : State where
  node := {
    splitMemory := true
    reflinkMemoryRestore := false
    fingerprint := "runtime-a"
    journal := {
      hibernationGeneration := 0
      state := .running
      authority := .live
      operationKind := .initialise
      operationId := "create"
      revision := 0
      sentry := some sentry
      legal := legal_running
      digested := nofun
      identified := identified_live }
    generations := ∅
    workspace := { state := .mounted }
    sentry
    status := .running
    container := true }

theorem created_start : Start created :=
  ⟨rfl,rfl,rfl,rfl,rfl,rfl,rfl,rfl,fun k hk => by simp [created] at hk,
    fun k m hk => by simp [created,Node.complete] at hk⟩

def parkUpTo (actions : Nat) : List Event :=
  .park "park-1" :: replicate actions (.proceed .done "a1")

def reconcileAs (fingerprint : String) (actions : Nat) : List Event :=
  [.crash fingerprint, .reconcile] ++ replicate actions (.proceed .done "")

end Example

open Example in
/-- The agent dies right after COMPLETE; the reconcile of the same runtime parks the sandbox. -/
theorem interrupted_park_one_owner_parked :
    ∃ s, Reaches step fits Start s ∧ s.node.journal.state = .parked ∧ ParkOwns s.node := by
  obtain ⟨s,hr,hp⟩ := Reaches.exists_of_runMeeting step fits created_start
    (parkUpTo 7 ++ reconcileAs "runtime-a" 10) (·.node.journal.state = .parked) (by decide +kernel)
  exact ⟨s,hr,hp,(interrupted_park_one_owner hr).2.1 hp⟩

def Example.cleanup : List Event :=
  replicate 2 (.proceed .done "") ++ .reconcile :: replicate 2 (.proceed .done "")

open Example in
/-- Under another runtime the reconcile resumes the captured sentry, and the next removes its
COMPLETE generation; over a reaped sentry it commits before the runtime is deleted. -/
theorem interrupted_park_two_owners : (∃ s, Reaches step anyEvent Start s ∧ s.node.status = .running ∧
      (∃ m, s.node.complete 1 = some m ∧ m.captured = s.node.sentry) ∧
      ∃ s', run step s cleanup = some s' ∧ s'.node.complete 1 = none) ∧
    (∃ s, Reaches step anyEvent Start s ∧ s.node.journal.state = .parked ∧
      s.node.committed = some ("a1", true)) := by
  obtain ⟨s,hr,hs⟩ := Reaches.exists_of_run step created_start (parkUpTo 7 ++ reconcileAs "runtime-b" 4)
    (fun s => s.node.status = .running ∧ (∃ m ∈ s.node.complete 1, m.captured = s.node.sentry) ∧
      ∃ s' ∈ run step s cleanup, s'.node.complete 1 = none) (by decide +kernel)
  exact ⟨⟨s,hr,hs⟩,Reaches.exists_of_run step created_start
    (parkUpTo 10 ++ reconcileAs "runtime-a" 3) _ (by decide +kernel)⟩

end UCloudSandboxes.Warden
