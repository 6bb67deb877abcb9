import UCloudSandboxes.Warden.Actions

namespace UCloudSandboxes.Warden
open Machine

abbrev Plan (P : Node → Prop) (acts : List Action) : Prop :=
  Outline Attempt.exec Moves Keeps Held (fun a => a.inTry = true) (On Recoverable) (On P) acts

/-- One step of an outline whose assertions are about the node, outside park's inner `try`. -/
theorem Plan.cons {P Q a rest} (hP : Stable P) (ha : (a.inTry || a.deletes) = false)
    (act : ∀ t b t', Held t → P t.node → t.exec a b = some t' → Held t' ∧ Q t'.node)
    (next : Plan Q rest) : Plan P (a :: rest) := by
  obtain ⟨htry,hdel⟩ := Bool.or_eq_false_iff.mp ha
  exact Outline.cons hP.moves act (fun _ _ _ _ _ => exec_keeps hdel)
    (fun h => by simp [htry] at h) next

theorem Plan.consTry {P Q a rest} (hP : Stable P) (ha : a.deletes = false)
    (act : ∀ t b t', Held t → P t.node → t.exec a b = some t' → Held t' ∧ Q t'.node)
    (hr : ∀ n, Inv n → P n ∨ Q n → Recoverable n) (next : Plan Q rest) : Plan P (a :: rest) :=
  Outline.cons hP.moves act (fun _ _ _ _ _ => exec_keeps ha) (fun _ _ hi h => hr _ hi.1 h) next

section Plans

variable {n : Node}

theorem plan_release {P rest} (hP : Durable P) (hr : ∀ n, Inv n → P n → Releasable n)
    (next : Plan P rest) : Plan P (releaseParkedStorage ++ rest) := by
  refine Plan.cons hP.stable rfl (Q := P) (fun t b t' h hp he => ?_)
    (Plan.cons hP.stable rfl (Q := P) (fun t b t' h hp he => ?_) next)
  · exact act_commitCapture hP h hp (hr _ h.1 hp) he
  · exact act_ensureReleased hP h hp (hr _ h.1 hp) he

theorem plan_quarantine {reason dead} : Plan (fun n => n.status = .dead) [.quarantine reason dead] :=
  Plan.cons stable_dead rfl (Q := fun _ => True)
    (fun _ _ _ h hd he => ⟨(act_quarantine h hd he).1,trivial⟩) .nil

theorem plan_resumeOriginal : Plan Capturing resumeOriginal := by
  have hrunn : Stable fun n => n.journal.state = .running := ⟨fun _ h => h,fun _ h => h⟩
  refine Plan.cons durable_capturing.stable rfl (fun _ _ _ => act_abortWorkspaceCapture) ?_
  refine Plan.cons durable_capturing.stable rfl (fun _ _ _ => act_ensureRuntimeRunning) ?_
  refine Plan.cons (Q := fun n => n.journal.state = .running) durable_capturing.stable rfl
    (fun _ _ _ => act_abortHibernate) ?_
  exact Plan.cons (Q := fun n => n.journal.state = .running) hrunn rfl
    (fun _ _ _ => act_discardPending) .nil

theorem plan_stopRuntime {rest} (next : Plan (fun n => Reaped n ∧ n.container = false) rest) :
    Plan Published (.terminate :: .markSentryReaped :: .deleteRuntime :: rest) :=
  Plan.cons durable_published.stable rfl
    (fun _ _ _ => act_terminate durable_published.stable)
    (Plan.cons (durable_published.stable.and stable_dead) rfl
      (fun _ _ _ h hp he => (act_markSentryReaped h hp.2 he).imp_right (·.2.2.2 hp.1.2.2))
      (Plan.cons durable_reaped.stable rfl (fun _ _ _ => act_deleteRuntime) next))

theorem durable_deleted : Durable fun n => Reaped n ∧ n.container = false := fun _ _ _ _ h => h

theorem plan_commitParked {P} (hP : Stable P)
    (hr : ∀ n, P n → Reaped n ∧ (n.splitMemory = true → n.container = false)) {rest}
    (next : Plan (fun n => n.journal.state = .parked) rest) : Plan P (.commitParked :: rest) :=
  Plan.cons hP rfl (fun _ _ _ h hp he => act_commitParked h (hr _ hp).1 (hr _ hp).2 he) next

theorem plan_releaseParked : Plan (fun n => n.journal.state = .parked) releaseParkedStorage := by
  have hP : Durable fun n => n.journal.state = .parked := fun _ _ _ _ h => h
  have hm : ∀ n, Inv n → n.journal.state = .parked → Releasable n := by
    intro n hi hp
    obtain ⟨m,hm,-,hc⟩ := hi.parked hp
    exact ⟨.inr hp,by simp [hm],hc⟩
  exact (plan_release hP hm .nil : Plan _ (releaseParkedStorage ++ []))

theorem published_recoverable (n) (h : Published n) : Recoverable n :=
  fun hn => by simp [Published,hn] at h

theorem plan_park {operationId} :
    Plan (fun n => n.journal.state = .running) (parkProgram operationId) := by
  have hsto : Stable Stopped := durable_capturing.stable.and ⟨fun _ _ => nofun,fun _ h => h⟩
  have hdele : Plan (fun n => Reaped n ∧ n.container = false)
      (releaseParkedStorage ++ [.commitParked]) :=
    plan_release durable_deleted (fun n _ h => ⟨.inl h.1.1,h.1.2.2,fun _ => h.2⟩)
      (plan_commitParked durable_deleted.stable (fun n h => ⟨h.1,fun _ => h.2⟩) .nil)
  have hcap : ∀ n, Capturing n ∨ Stopped n → Recoverable n := by
    rintro n (h | h)
    · exact fun _ => ⟨h.1,h.2.1⟩
    · exact fun _ => ⟨h.1.1,h.1.2.1⟩
  have hstop : ∀ n, Stopped n ∨ Stopped n → Recoverable n :=
    fun n h => hcap n (.inr (or_self_iff.mp h))
  refine Plan.cons ⟨fun _ h => h,fun _ h => h⟩ rfl (fun _ _ _ => act_beginHibernate) ?_
  refine Plan.cons durable_capturing.stable rfl (fun _ _ _ => act_prepareGeneration) ?_
  refine Plan.consTry (Q := Stopped) durable_capturing.stable rfl
    (fun _ _ _ => act_checkpoint) (fun n _ => hcap n) ?_
  refine Plan.consTry (Q := Stopped) hsto rfl (fun _ _ _ => act_looks rfl) (fun n _ => hstop n) ?_
  refine Plan.consTry (Q := Stopped) hsto rfl (fun _ _ _ => act_looks rfl) (fun n _ => hstop n) ?_
  refine Plan.consTry (Q := Stopped) hsto rfl
    (fun _ _ _ h hc he => act_prepareCapture h hc.1 hc.2 he) (fun n _ => hstop n) ?_
  refine Plan.consTry hsto rfl (fun _ _ _ h hc => act_publishComplete h hc.1 hc.2)
    (fun n _ h => h.elim (fun h => hcap n (.inr h)) (published_recoverable n)) ?_
  refine Plan.consTry durable_published.stable rfl (fun _ _ _ => act_looks rfl)
    (fun n _ h => published_recoverable n (or_self_iff.mp h)) ?_
  exact plan_stopRuntime hdele

theorem plan_deletes {acts : List Action} (h : ∀ a ∈ acts, a.deletes = true) :
    Plan (fun n => n.journal.state = .running) acts := by
  have hrunn : Stable fun n => n.journal.state = .running := ⟨fun _ h => h,fun _ h => h⟩
  refine Outline.of_forall hrunn.moves (fun a ha => ?_) (fun a ha => ?_) (fun a ha => ?_)
  · exact fun _ _ _ hh hs he => (act_deletes (h a ha) hh hs he).1
  · exact fun _ _ _ hh hs he => (act_deletes (h a ha) hh hs he).2
  · cases a with
    | deletePublished => nofun
    | _ => cases h _ ha

theorem plan_finishPublished : Plan Published (reconcileTail n .finishPublishedGeneration) := by
  refine Plan.cons durable_published.stable rfl (fun _ _ _ => act_looks rfl) ?_
  refine plan_stopRuntime ?_
  refine plan_commitParked durable_deleted.stable (fun n h => ⟨h.1,fun _ => h.2⟩) ?_
  refine Plan.consTry ⟨fun _ h => h,fun _ h => h⟩ rfl (fun _ _ _ h hp he => act_looks rfl h hp he)
    (fun n hi h => ?_)
    plan_releaseParked
  obtain ⟨m,hm,-⟩ := hi.parked (or_self_iff.mp h)
  exact fun hn => by simp [hn] at hm

/-- A dead sentry's capture that is complete, under a deleted runtime if it names a workspace. -/
structure Finishable (n : Node) : Prop where
  state : n.journal.state = .hibernating
  dead : n.status = .dead
  complete : (n.complete n.journal.hibernationGeneration).isSome
  container : n.splitMemory = true → n.container = false

theorem stable_finishable : Stable Finishable :=
  ⟨fun _ h => { h with dead := rfl },fun _ h => { h with }⟩

theorem plan_finishPending :
    Plan Finishable (.markSentryReaped :: .commitParked :: releaseParkedStorage) := by
  refine Plan.cons stable_finishable rfl (Q := fun n => Reaped n ∧ (n.splitMemory = true →
    n.container = false)) (fun t b t' h hf he => ?_) ?_
  · obtain ⟨h',-,hc,hsplit,hr⟩ := act_markSentryReaped h hf.dead he
    exact ⟨h',hr hf.complete,by rw [hc,hsplit]; exact hf.container⟩
  · exact plan_commitParked ⟨fun _ h => h,fun _ h => h⟩ (fun _ h => h) plan_releaseParked

end Plans

section Decision

variable {n : Node}

theorem Inv.alive_sentry (hi : Inv n) : n.alive n.journal.sentry = decide (n.status ≠ .dead) := by
  by_cases ha : n.journal.authority = .live
  · simp [Node.alive,(hi.live ha).1]
  · simp [Node.alive,hi.reaped ha]

theorem Inv.alive_candidate (hi : Inv n) : n.alive n.journal.candidate = false := by
  simp [Node.alive,hi.candidate]

theorem Inv.published_eq (hi : Inv n)
    (hs : n.journal.state = .hibernating ∨ n.journal.state = .parked) :
    n.published n.journal = n.complete n.journal.hibernationGeneration := by
  simp [Node.published,hi.positive hs]

/-- Of the checks reconcile makes of the sandbox's own capture only the runtime can fail. -/
theorem Inv.artifactError_eq (hi : Inv n)
    (hs : n.journal.state = .hibernating ∨ n.journal.state = .parked) {m}
    (hm : n.complete n.journal.hibernationGeneration = some m) :
    n.artifactError n.journal m = if m.runtime = n.fingerprint then none else
      some "hibernation artifact does not match the requested sandbox or runtime" := by
  have how := hi.owned _ m hm (hi.current m hm hs)
  by_cases hr : m.runtime = n.fingerprint
  · have hsha : n.journal.state = .parked → m.metadataSha256 = n.journal.manifestSha256 := by
      intro hp
      obtain ⟨m',hm',hd,-⟩ := hi.parked hp
      obtain rfl : m = m' := Option.some.inj (hm.symm.trans hm')
      exact hd.symm
    simp only [Node.artifactError,hr,how.generation,how.operation,ne_eq,not_true_eq_false,if_false,
      and_false,if_true,hi.restoring,or_false,ite_eq_right_iff,reduceCtorEq,imp_false,not_and,not_not]
    exact hsha
  · simp [Node.artifactError,hr]

def reap (n : Node) : List Action := if n.journal.authority = .live then [.markSentryReaped] else []

/-- COMPLETE of the journal's capture names another runtime while the captured sentry is alive. -/
def foreignCapture (n : Node) : Bool :=
  n.journal.state = .hibernating && n.alive n.journal.sentry &&
    (n.complete n.journal.hibernationGeneration).any (·.runtime ≠ n.fingerprint)

/-- What a reconcile can decide to do, and what it knows of the node by then. -/
inductive Decided (n : Node) : List Action → Prop
  | rest (hs : n.journal.state = .recoveryRequired) : Decided n []
  | quarantine (reason : String) {dead} (hd : n.status = .dead)
      (hl : n.journal.authority = .live → dead = true) : Decided n [.quarantine reason dead]
  | delete {acts} (h : ∀ a ∈ acts, a.deletes = true) (hs : n.journal.state = .running) : Decided n acts
  | lose (reason : String) (hs : n.journal.state = .hibernating) (hd : n.status = .dead) :
      Decided n (reap n ++ [.quarantine reason false])
  | resume (h : Capturing n) (hd : n.status ≠ .dead) :
      Decided n (reconcileTail n .resumeOrRetryHibernate)
  | park {m} (hs : n.journal.state = .hibernating) (hd : n.status = .dead)
      (hm : n.complete n.journal.hibernationGeneration = some m) (hr : m.runtime = n.fingerprint) :
      Decided n (reap n ++ .commitParked :: releaseParkedStorage)
  | finish (h : Published n) (hd : n.status ≠ .dead) :
      Decided n (reconcileTail n .finishPublishedGeneration)
  | release (hs : n.journal.state = .parked) : Decided n releaseParkedStorage

theorem decided_running (hi : Inv n) (hs : n.journal.state = .running) :
    Decided n (reconcileProgram n n.journal) := by
  have ha := Record.live_of_running hs
  by_cases hd : n.status = .dead
  · obtain ⟨reason,hp⟩ : ∃ reason, reconcileProgram n n.journal = [.quarantine reason true] := by
      cases he : (n.published n.journal).bind (n.artifactError n.journal) <;>
        simp [reconcileProgram,reconcileJournal,hi.alive_sentry,hi.alive_candidate,hd,he,ha,hs,
          classifyHibernationRecovery,reconcileTail]
    rw [hp]
    exact .quarantine reason hd fun _ => rfl
  · have hp : reconcileProgram n n.journal = reconcileTail n .adoptRunning := by
      cases he : (n.published n.journal).bind (n.artifactError n.journal) <;>
        simp [reconcileProgram,reconcileJournal,hi.alive_sentry,hd,hs,classifyHibernationRecovery]
    rw [hp,reconcileTail]
    refine .delete (fun a ha => ?_) hs
    split at ha
    · cases ha
    · obtain ⟨k,-,ha⟩ := List.mem_flatMap.mp ha
      simp only [List.mem_cons,List.not_mem_nil,or_false] at ha
      rcases ha with rfl | rfl <;> rfl

open Decided

theorem decided_hibernating (hi : Inv n) (hs : n.journal.state = .hibernating)
    (hf : foreignCapture n = false) : Decided n (reconcileProgram n n.journal) := by
  have hp := hi.published_eq (.inl hs)
  have hl : n.status ≠ .dead → n.journal.authority = .live := by
    intro hd
    by_contra ha
    exact hd (hi.reaped ha)
  simp only [reconcileProgram,reconcileJournal,hi.alive_sentry,hi.alive_candidate,hp]
  cases hm : n.complete n.journal.hibernationGeneration with
  | none =>
    by_cases hd : n.status = .dead
    · simpa [hd,hs,classifyHibernationRecovery,reconcileTail,reap] using lose _ hs hd
    · simpa [hd,hs,hl hd,classifyHibernationRecovery] using resume ⟨hs,hl hd,hm⟩ hd
  | some m =>
    have he := hi.artifactError_eq (.inl hs) hm
    by_cases hr : m.runtime = n.fingerprint
    · by_cases hd : n.status = .dead
      · simpa [he,hr,hd,hs,classifyHibernationRecovery,reconcileTail,reap] using park hs hd hm hr
      · simpa [he,hr,hd,hs,hl hd,classifyHibernationRecovery] using
          finish ⟨hs,hl hd,by simp [hm]⟩ hd
    · have hd : n.status = .dead := by
        simpa [foreignCapture,hs,hi.alive_sentry,hm,hr] using hf
      simpa [he,hr,hd,reconcileTail] using quarantine _ hd (decide_eq_true ·)

/-- Away from a foreign capture a reconcile of a sound node decides one of these. -/
theorem decided_reconcile (hi : Inv n) (hf : foreignCapture n = false) :
    Decided n (reconcileProgram n n.journal) := by
  cases hs : n.journal.state with
  | running => exact decided_running hi hs
  | hibernating => exact decided_hibernating hi hs hf
  | restoring => exact absurd hs hi.restoring
  | parked =>
    have ha := n.journal.not_live (by simp [hs]) (by simp [hs])
    obtain ⟨m,hm,-⟩ := hi.parked hs
    have hp := (hi.published_eq (.inr hs)).trans hm
    have he := hi.artifactError_eq (.inr hs) hm
    simp only [reconcileProgram,reconcileJournal,hi.alive_sentry,hi.alive_candidate,hp]
    by_cases hr : m.runtime = n.fingerprint
    · simpa [he,hr,hs,classifyHibernationRecovery,reconcileTail] using release hs
    · simpa [he,hr,hi.reaped ha,reconcileTail] using quarantine _ (hi.reaped ha) (decide_eq_true ·)
  | recoveryRequired =>
    have ha := n.journal.not_live (by simp [hs]) (by simp [hs])
    simp only [reconcileProgram,reconcileJournal,hi.alive_sentry,hi.alive_candidate,hi.reaped ha]
    cases he : (n.published n.journal).bind (n.artifactError n.journal) with
    | none => simpa [hs,classifyHibernationRecovery,reconcileTail] using rest hs
    | some reason =>
      simpa [reconcileTail] using quarantine _ (hi.reaped ha) (decide_eq_true ·)

end Decision

/-- COMPLETE names a workspace capture, its sentry is gone, and runsc still holds the container. -/
def undeletedRuntime (n : Node) : Bool :=
  n.splitMemory && n.journal.state = .hibernating && !n.alive n.journal.sentry && n.container &&
    (n.complete n.journal.hibernationGeneration).any (·.runtime = n.fingerprint)

def decides (s : State) : Event → Bool
  | .proceed _ _ => s.procedure.any fun p => p.phase = .examine && p.rest = []
  | _ => false

/-- No reconcile decides about a foreign capture or over an undeleted runtime. -/
def fits (s : State) (e : Event) : Prop :=
  decides s e = true → foreignCapture s.node = false ∧ undeletedRuntime s.node = false

instance (s : State) (e : Event) : Decidable (fits s e) := by
  unfold fits
  infer_instance

abbrev Ready (n : Node) (acts : List Action) : Prop :=
  Machine.Ready Attempt.exec Moves Keeps Held (fun a => a.inTry = true) (On Recoverable) acts
    ⟨n, n.journal⟩

theorem ready_reconcile {n} (hi : Inv n) (hf : foreignCapture n = false)
    (hu : undeletedRuntime n = false) : Ready n (reconcileProgram n n.journal) := by
  have hdec := decided_reconcile hi hf
  generalize reconcileProgram n n.journal = acts at hdec ⊢
  cases hdec with
  | rest hs => exact ⟨fun _ => True,trivial,.nil⟩
  | quarantine reason hd hl => exact plan_quarantine.ready hd
  | delete h hs => exact (plan_deletes h).ready hs
  | lose reason hs hd =>
    rw [reap]
    split
    · exact (Plan.cons stable_dead rfl (fun _ _ _ h hd he => (act_markSentryReaped h hd he).imp_right (·.1))
        plan_quarantine).ready hd
    · exact plan_quarantine.ready hd
  | resume h hd =>
    exact (Plan.cons durable_capturing.stable rfl (fun _ _ _ => act_looks rfl) plan_resumeOriginal).ready h
  | park hs hd hm hr =>
    have hc : n.splitMemory = true → n.container = false := by
      intro hsplit
      simpa [undeletedRuntime,hsplit,hs,hi.alive_sentry,hd,hm,hr] using hu
    rw [reap]
    split
    · exact plan_finishPending.ready ⟨hs,hd,by simp [hm],hc⟩
    next ha =>
    have hp := (Record.authority_of_hibernating hs).resolve_left ha
    exact (plan_commitParked (P := fun n => Reaped n ∧ (n.splitMemory = true →
      n.container = false)) ⟨fun _ h => h,fun _ h => h⟩ (fun _ h => h)
      plan_releaseParked).ready ⟨⟨hs,hp,by simp [hm]⟩,hc⟩
  | finish h hd => exact plan_finishPublished.ready h
  | release hs => exact plan_releaseParked.ready hs

/-- Every node state meets the invariant, and a procedure in progress is within its outline. -/
structure Sound (s : State) : Prop where
  node : Inv s.node
  procedure : ∀ p, s.procedure = some p → p.record = s.node.journal ∧ Ready s.node p.rest

namespace Sound

variable {s s' : State}

theorem idle {n} (h : Inv n) : Sound { node := n } := ⟨h,fun p hp => by cases hp⟩

theorem start {n} (h : Inv n) {phase acts} (hr : Ready n acts) :
    Sound { node := n, procedure := some ⟨phase,n.journal,acts⟩ } := by
  refine ⟨h,?_⟩
  rintro p hp
  cases hp
  exact ⟨rfl,hr⟩

theorem of_start (h : Start s) : Sound s := by
  obtain ⟨n,p⟩ := s
  obtain rfl : p = none := h.idle
  have hrun : n.journal.state = .running := h.running
  have hw : n.workspace.state = .mounted := h.workspace
  have hnc : n.committed = none := h.committed
  exact idle {
    keys := h.generations
    owned := fun k m hk hm => absurd hm (h.foreign k m hk)
    current := fun m _ hs => by simp [hrun] at hs
    live := fun _ => ⟨h.sentry,h.container⟩
    reaped := fun ha => absurd (Record.live_of_running hrun) ha
    hibernating := fun hs => by simp [hrun] at hs
    parked := fun hs => by simp [hrun] at hs
    positive := fun hs => by simp [hrun] at hs
    restoring := by simp [hrun]
    candidate := h.candidate
    committed := fun c b hc => by simp [hnc] at hc
    volume := fun _ _ => by simp [hw]
    legacy := fun _ => by simp [hw] }

theorem record_inTry {t t' : Attempt} {a b} (ha : a.inTry = true) (he : t.exec a b = some t') :
    t'.record = t.record := by
  cases a <;> simp only [Action.inTry,Bool.false_eq_true] at ha
  case checkpoint =>
    rw [exec_checkpoint he]
    rfl
  case requireAlive | requirePaused | persistParkedManifest => rw [exec_looks rfl he]
  case prepareCapture => obtain rfl | ⟨-,rfl⟩ := exec_prepareCapture he <;> rfl
  case publishComplete =>
    obtain ⟨rfl,-⟩ | ⟨-,-,hd,rfl⟩ := exec_publishComplete he <;> rfl

/-- The handler of the inner `try` either resumes the original sentry or quarantines a dead one. -/
theorem raise {n p a} (h : Inv n) (hr : a.inTry = true → p.record = n.journal ∧ Recoverable n) :
    Sound (State.raise n p a) := by
  unfold State.raise
  split
  · next hc =>
    simp only [Bool.and_eq_true,Option.isNone_iff_eq_none] at hc
    obtain ⟨hrec,hrecov⟩ := hr hc.1.2
    rw [hrec] at hc ⊢
    refine start h ?_
    rw [rollbackCapture,h.alive_sentry]
    obtain ⟨hs,hl⟩ := hrecov hc.2
    split
    · exact plan_resumeOriginal.ready ⟨hs,hl,hc.2⟩
    next hd =>
    have hdead : n.status = .dead := by simpa using hd
    exact plan_quarantine.ready hdead
  · exact idle h

theorem proceed (h : Sound s) {p} (hp : s.procedure = some p) (outcome) (answer)
    (hok : fits s (.proceed outcome answer)) : Sound (s.proceed p outcome answer) := by
  obtain ⟨hrec,hready⟩ := h.procedure p hp
  unfold State.proceed
  split
  · next hrest =>
    split
    · next hphase =>
      obtain ⟨hf,hu⟩ := hok (by simp [decides,hp,hphase,hrest])
      rw [hrec]
      exact start h.node (ready_reconcile h.node hf hu)
    · exact idle h.node
  · next a rest hrest =>
    rw [hrest] at hready
    have hheld : Held ⟨s.node,s.node.journal⟩ := ⟨h.node,rfl⟩
    rw [hrec]
    split
    · exact raise h.node fun ha => ⟨hrec,(hready.raised hheld ha).1⟩
    next t ht =>
    obtain ⟨hheld',-,hready'⟩ := hready.act hheld ht
    cases outcome with
    | done =>
      refine ⟨hheld'.1,?_⟩
      rintro q hq
      cases hq
      refine ⟨hheld'.2,?_⟩
      obtain ⟨n,-,rfl⟩ := hheld'.cases
      exact hready'
    | refused => exact raise h.node fun ha => ⟨hrec,(hready.raised hheld ha).1⟩
    | lost =>
      refine raise hheld'.1 fun ha => ⟨?_,(hready.raised hheld ha).2 _ _ ht⟩
      rw [← hheld'.2,record_inTry ha ht,hrec]

theorem reconcile (h : Inv s.node) : Sound { s with procedure := startReconcile s.node } := by
  unfold startReconcile
  split
  · exact idle h
  split
  · exact start h ((Plan.cons (P := fun _ => True) ⟨fun _ _ => trivial,fun _ _ => trivial⟩ rfl
      (fun _ _ _ h _ he => act_terminateIdentities h he) plan_quarantine).ready trivial)
  refine start h ?_
  split
  · next hsplit =>
    have hl : Durable fun n => n.splitMemory = false := fun _ _ _ _ h => h
    simp only [Bool.and_eq_true,Bool.not_eq_true'] at hsplit
    exact (Plan.cons (P := fun n => n.splitMemory = false) hl.stable rfl
      (fun _ _ _ h hp he => act_ensureWorkspaceMounted hl h hp hp he) .nil).ready hsplit.2
  · exact ⟨fun _ => True,trivial,.nil⟩

theorem moved {n} (h : Sound s) (hi : Inv n) (hj : n.journal = s.node.journal)
    (hm : Moves ⟨s.node,s.node.journal⟩ ⟨n,n.journal⟩) : Sound { s with node := n } := by
  refine ⟨hi,fun p hp => ?_⟩
  obtain ⟨hrec,hready⟩ := h.procedure p hp
  exact ⟨hrec.trans hj.symm,hready.moved hm⟩

theorem next (h : Sound s) {e} (hok : fits s e) (hs : step s e = some s') : Sound s' := by
  cases e with
  | park =>
    obtain ⟨⟨-,hrun,-⟩,rfl⟩ := some_of_check hs
    exact start h.node (plan_park.ready hrun)
  | reconcile =>
    obtain ⟨-,rfl⟩ := some_of_check hs
    exact reconcile h.node
  | proceed outcome answer =>
    obtain ⟨p,hp,rfl⟩ := Option.map_eq_some_iff.mp hs
    exact h.proceed hp outcome answer hok
  | crash =>
    cases hs
    exact idle { h.node with owned := fun k m hk hm => { h.node.owned k m hk hm with } }
  | sentryExit =>
    cases hs
    exact h.moved h.node.exit rfl (.inl rfl)
  | storageError =>
    cases hs
    exact h.moved h.node.storageError rfl (.inr rfl)

theorem of_reaches (h : Reaches step fits Start s) : Sound s :=
  h.invariant (fun _ => of_start) fun _ _ _ hi => hi.next

end Sound

end UCloudSandboxes.Warden
