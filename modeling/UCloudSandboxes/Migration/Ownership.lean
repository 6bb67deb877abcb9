import UCloudSandboxes.Migration.Protocol

namespace UCloudSandboxes.Migration
open Routing Registry Machine RoutingRows List SandboxRows Option
open Routing.Example (snapshot)

variable {mv : Move} {s : State}

/-- A source abort takes effect only before the route commit, and no route commit follows one. -/
def abortExcludesCommit (mv : Move) (s : State) (e : Event) : Prop :=
  ∀ s' ∈ step mv s e, s'.sourceReleased = true → s'.routeCommitted = false

instance : DecidableRel (abortExcludesCommit mv) := fun s e =>
  inferInstanceAs (Decidable (∀ s' ∈ step mv s e, _))

def early (m : SandboxMigration) : Prop := m.phase ≠ .routed ∧ m.phase ≠ .activated

def Call.early : Call → Prop
  | .activate _ | .finalize _ => False
  | _ => True

/-- The source's row can never become startable again without a new import. -/
def sourceGone (s : State) : Prop :=
  s.sourceRows.phase? = none ∨ s.sourceRows.phase? = some .deleting

def sourceFencedOrGone (mv : Move) (s : State) : Prop :=
  s.sourceRows.movingOutUnder mv.migrationId = true ∨ sourceGone s

/-- Until the route is committed: nothing late is in flight, the route is the source's, and a
prepared journal has a fenced source unless an abort released it. -/
structure Uncommitted (mv : Move) (s : State) : Prop where
  journal : ∀ m, s.journal mv = some m → early m
  tasks : ∀ m, .advance m ∈ s.tasks → early m
  calls : ∀ c, c ∈ s.calls ∨ c ∈ s.orphans → c.early
  answers : ∀ a ∈ s.answers, a.call.early
  destination : s.destinationRows.phase? ≠ some .owned
  route : ∀ route, s.routing.route = some route →
    route.node = mv.source ∧ (route.workerState = .detached → sourceGone s)
  fenced : ∀ m, s.journal mv = some m → m.phase = .prepared ∨ m.phase = .staged →
    m.sourceFenced = true → s.sourceReleased = false →
      s.sourceRows.movingOutUnder mv.migrationId = true
  unfenced : ∀ m, s.journal mv = some m → m.phase = .prepared ∨ m.phase = .staged →
    m.sourceFenced = false → sourceGone s
  prepared : ∀ a ∈ s.answers, (∃ m, a.call = .prepare m) → s.sourceReleased = false →
    s.sourceRows.movingOutUnder mv.migrationId = true

structure Inv (mv : Move) (s : State) : Prop where
  exclusive : s.sourceReleased = true → s.routeCommitted = false
  target : ∀ m, s.journal mv = some m → m.destination = mv.destination
  uncommitted : s.routeCommitted = false → Uncommitted mv s
  committed : s.routeCommitted = true → sourceFencedOrGone mv s

variable {rows : SandboxRows}

theorem movingOutUnder_phase {id} (h : rows.movingOutUnder id = true) :
    rows.phase? = some .movingOut := by
  unfold movingOutUnder at h
  cases hr : rows.registration with
  | none => simp [hr] at h
  | some =>
    simp only [hr,any_some,Bool.and_eq_true,decide_eq_true_eq] at h
    simp [phase?,hr,h.1]

theorem inv_start (h : Start mv s) : Inv mv s := by
  obtain ⟨route,hr,hn,hd,hj,hdest,ht,hc,ho,ha,hcom,hrel⟩ := h
  refine ⟨by simp [hrel],by simp [hj],fun _ => ?_,by simp [hcom]⟩
  exact
    { journal := by simp [hj]
      tasks := by simp [ht]
      calls := by simp [hc,ho]
      answers := by simp [ha]
      destination := hdest
      route := by
        intro route' hr'
        obtain rfl : route = route' := by simpa [hr] using hr'
        exact ⟨hn,hd⟩
      fenced := by simp [hj]
      unfenced := by simp [hj]
      prepared := by simp [ha] }

theorem Inv.shrink (h : Inv mv s) {tasks calls orphans answers} (ht : ∀ t ∈ tasks, t ∈ s.tasks)
    (hc : ∀ c, c ∈ calls ∨ c ∈ orphans → c ∈ s.calls ∨ c ∈ s.orphans)
    (ha : ∀ a ∈ answers, a ∈ s.answers) : Inv mv { s with tasks, calls, orphans, answers } :=
  ⟨h.exclusive,h.target,fun hu =>
    have u := h.uncommitted hu
    { u with
      tasks := fun m hm => u.tasks m (ht _ hm)
      calls := fun c hm => u.calls c (hc c hm)
      answers := fun a hm => u.answers a (ha a hm)
      prepared := fun a hm => u.prepared a (ha a hm) },h.committed⟩

theorem Inv.spawn (h : Inv mv s) {t} (ht : s.routeCommitted = false → ∀ m, t = .advance m → early m) :
    Inv mv (s.spawn t) :=
  ⟨h.exclusive,h.target,fun hu =>
    have u := h.uncommitted hu
    { u with
      tasks := by
        intro m hm
        rcases mem_cons.mp hm with hm | hm
        · exact ht hu m hm.symm
        · exact u.tasks m hm },h.committed⟩

theorem Inv.send (h : Inv mv s) {c} (hc : s.routeCommitted = false → c.early) : Inv mv (s.send c) :=
  ⟨h.exclusive,h.target,fun hu =>
    have u := h.uncommitted hu
    { u with
      calls := by
        intro c' hm
        rcases hm with hm | hm
        · rcases mem_cons.mp hm with rfl | hm
          · exact hc hu
          · exact u.calls c' (.inl hm)
        · exact u.calls c' (.inr hm) },h.committed⟩

/-- The journal keeps its phase and fence or ends; the route keeps its worker or goes. -/
structure Settles (mv : Move) (s : State) (rows : RoutingRows) : Prop where
  route : ∀ route, rows.route = some route → ∃ old, s.routing.route = some old ∧
    route.node = old.node ∧ route.workerState = old.workerState
  journal : ∀ m, rows.getSandboxMigration mv.migrationId = some m → ∃ old, s.journal mv = some old ∧
    m.destination = old.destination ∧
      (m.phase = old.phase ∧ m.sourceFenced = old.sourceFenced ∨ m.phase = .complete)

theorem Inv.settle (h : Inv mv s) {rows} (hs : Settles mv s rows) :
    Inv mv { s with routing := rows } := by
  refine ⟨h.exclusive,?_,fun hu => ?_,h.committed⟩
  · intro m hm
    obtain ⟨old,hold,hdst,_⟩ := hs.journal m hm
    rw [hdst]
    exact h.target old hold
  · have u := h.uncommitted hu
    -- A journal that is still prepared or staged is the old one in phase and fence.
    have hkeep : ∀ m, rows.getSandboxMigration mv.migrationId = some m →
        m.phase = .prepared ∨ m.phase = .staged →
          ∃ old, s.journal mv = some old ∧ m.phase = old.phase ∧ m.sourceFenced = old.sourceFenced := by
      intro m hm hp
      obtain ⟨old,hold,_,hph | hph⟩ := hs.journal m hm
      · exact ⟨old,hold,hph⟩
      · simp [hph] at hp
    exact
      { u with
        journal := by
          intro m hm
          obtain ⟨old,hold,_,⟨hph,_⟩ | hph⟩ := hs.journal m hm
          · simpa [early,hph] using u.journal old hold
          · simp [early,hph]
        route := by
          intro route hr
          obtain ⟨old,hold,hn,hw⟩ := hs.route route hr
          rw [hn,hw]
          exact u.route old hold
        fenced := by
          intro m hm hp hf
          obtain ⟨old,hold,hph,hfe⟩ := hkeep m hm hp
          exact u.fenced old hold (hph ▸ hp) (hfe ▸ hf)
        unfenced := by
          intro m hm hp hf
          obtain ⟨old,hold,hph,hfe⟩ := hkeep m hm hp
          exact u.unfenced old hold (hph ▸ hp) (hfe ▸ hf) }

theorem settles_of_advance {rows expected phase update m'} (hf : update.sourceFenced = none)
    (hp : phase = .complete ∨ expected = [phase])
    (h : s.routing.advanceSandboxMigration mv.migrationId expected phase update = some (rows,m')) :
    Settles mv s rows := by
  obtain ⟨m,hm,he,hroute,hget,hphase,hdst,hfe⟩ := advanceSandboxMigration_some h
  refine ⟨fun route hr => ⟨route,hroute ▸ hr,rfl,rfl⟩,?_⟩
  intro m₁ hm₁
  obtain rfl : m' = m₁ := by simpa [hget] using hm₁
  refine ⟨m,hm,hdst,?_⟩
  rcases hp with rfl | rfl
  · exact .inr hphase
  · have hph : m.phase = phase := by simpa using he
    exact .inl ⟨by rw [hphase,hph],by simpa [hf] using hfe⟩

theorem Inv.moveJournal (h : Inv mv s) {m phase} (hp : phase = .complete ∨ [m.phase] = [phase])
    (error) : Inv mv (s.moveJournal mv m phase error) := by
  unfold State.moveJournal
  split
  · rename_i rows m' ha
    exact h.settle (settles_of_advance rfl hp ha)
  · exact h

theorem Inv.recordError (h : Inv mv s) (m detail) : Inv mv (s.recordError mv m detail) :=
  h.moveJournal (.inr rfl) detail

theorem Inv.failCall (h : Inv mv s) (c detail) : Inv mv (failCall mv s c detail) := by
  cases c with
  | delete => exact h
  | prepare m | stage m | activate m | finalize m | abortImport m | abortSource m =>
    exact h.recordError m detail

theorem settles_refl (mv s) : Settles mv s s.routing :=
  ⟨fun route hr => ⟨route,hr,rfl,rfl⟩,fun m hm => ⟨m,hm,rfl,.inl ⟨rfl,rfl⟩⟩⟩

theorem settles_complete (mv s wake now) :
    Settles mv s (s.routing.completeSandboxMigration mv.migrationId wake now).1 := by
  rcases completeSandboxMigration_cases s.routing mv.migrationId wake now with
    he | ⟨m,current,stored,hm,hr,hroute,hn,hw,m',hm',hp,hdst⟩
  · rw [he]
    exact settles_refl mv s
  · refine ⟨?_,?_⟩
    · intro route hr'
      obtain rfl : stored = route := by simpa [hroute] using hr'
      exact ⟨current,hr,hn,hw⟩
    · intro m₁ hm₁
      obtain rfl : m' = m₁ := by simpa [hm'] using hm₁
      exact ⟨m,hm,hdst,.inr hp⟩

theorem settles_end {route} (text : SandboxMigration → String)
    (hroute : ∀ r, route = some r → s.routing.route = some r) :
    Settles mv s ⟨route,s.routing.migrations.map fun m =>
      if m.phase = .complete then m else { m with phase := .complete, error := text m }⟩ := by
  refine ⟨fun r hr => ⟨r,hroute r hr,rfl,rfl⟩,?_⟩
  intro m hm
  rw [getSandboxMigration_map _ _ _ (by intro m; split <;> rfl)] at hm
  obtain ⟨old,hold,rfl⟩ := map_eq_some_iff.mp hm
  refine ⟨old,hold,?_,.inr ?_⟩
  · split <;> rfl
  · split
    · assumption
    · rfl

theorem settles_delete (mv) (s generation operationId) :
    Settles mv s (s.routing.deleteSandboxIfCurrent generation operationId).1 := by
  unfold deleteSandboxIfCurrent
  split
  · exact settles_refl mv s
  split
  · exact settles_end _ (by simp)
  · exact settles_refl mv s

theorem settles_prepareDelete (mv s operationId now) :
    Settles mv s (s.routing.prepareSandboxDelete operationId now) := by
  unfold prepareSandboxDelete
  split
  · exact settles_refl mv s
  rename_i current hr
  split
  · exact settles_refl mv s
  refine ⟨?_,fun m hm => ⟨m,hm,rfl,.inl ⟨rfl,rfl⟩⟩⟩
  intro route hr'
  obtain rfl := some.inj hr'
  exact ⟨current,hr,rfl,rfl⟩

section
variable (h : Inv mv s)
include h

theorem Inv.journaled {rows m} (hget : rows.getSandboxMigration mv.migrationId = some m)
    (hroute : rows.route = s.routing.route) (hdst : m.destination = mv.destination)
    (hearly : s.routeCommitted = false → early m)
    (hfen : s.routeCommitted = false → m.phase = .prepared ∨ m.phase = .staged →
      (m.sourceFenced = true → s.sourceReleased = false →
        s.sourceRows.movingOutUnder mv.migrationId = true) ∧
      (m.sourceFenced = false → sourceGone s)) :
    Inv mv { s with routing := rows, tasks := .advance m :: s.tasks } := by
  have hone : ∀ m₁, rows.getSandboxMigration mv.migrationId = some m₁ → m = m₁ := fun _ hm₁ =>
    some.inj (hget.symm.trans hm₁)
  refine ⟨h.exclusive,fun m₁ hm₁ => hone m₁ hm₁ ▸ hdst,fun hu => ?_,h.committed⟩
  have u := h.uncommitted hu
  exact
    { u with
      journal := fun m₁ hm₁ => hone m₁ hm₁ ▸ hearly hu
      tasks := by
        intro m₁ hm₁
        rcases mem_cons.mp hm₁ with hm₁ | hm₁
        · exact Task.advance.inj hm₁ ▸ hearly hu
        · exact u.tasks m₁ hm₁
      route := fun route hr => u.route route (hroute ▸ hr)
      fenced := fun m₁ hm₁ hp => hone m₁ hm₁ ▸ (hfen hu (hone m₁ hm₁ ▸ hp)).1
      unfenced := fun m₁ hm₁ hp => hone m₁ hm₁ ▸ (hfen hu (hone m₁ hm₁ ▸ hp)).2 }

theorem Inv.advanceTo_early {expected phase update} (hphase : phase = .prepared ∨ phase = .staged)
    (hfen : s.routeCommitted = false → ∀ m, s.journal mv = some m → m.phase = expected →
      (update.sourceFenced.getD m.sourceFenced = true → s.sourceReleased = false →
        s.sourceRows.movingOutUnder mv.migrationId = true) ∧
      (update.sourceFenced.getD m.sourceFenced = false → sourceGone s))
    : Inv mv (s.advanceTo mv expected phase update) := by
  unfold State.advanceTo
  split
  · rename_i rows m' ha
    obtain ⟨m,hm,he,hroute,hget,hp,hdst,hfe⟩ := advanceSandboxMigration_some ha
    refine h.journaled hget hroute (hdst.trans (h.target m hm)) (fun _ => ?_) fun hu _ => ?_
    · rcases hphase with rfl | rfl <;> simp [early,hp]
    · rw [hfe]
      exact hfen hu m hm (by simpa using he)
  · exact h

theorem Inv.advanceTo_late (hc : s.routeCommitted = true) {expected phase update} :
    Inv mv (s.advanceTo mv expected phase update) := by
  unfold State.advanceTo
  split
  · rename_i rows m' ha
    obtain ⟨m,hm,_,hroute,hget,_,hdst,_⟩ := advanceSandboxMigration_some ha
    exact h.journaled hget hroute (hdst.trans (h.target m hm)) (by simp [hc]) (by simp [hc])
  · exact h

theorem Inv.setSource (hgone : sourceGone s → sourceGone { s with sourceRows := rows })
    (hmovi : s.sourceRows.movingOutUnder mv.migrationId = true → rows.movingOutUnder mv.migrationId = true)
    : Inv mv { s with sourceRows := rows } :=
  ⟨h.exclusive,h.target,fun hu =>
    have u := h.uncommitted hu
    { u with
      route := fun route hr => ⟨(u.route route hr).1,fun hd => hgone ((u.route route hr).2 hd)⟩
      fenced := fun m hm hp hf hrel => hmovi (u.fenced m hm hp hf hrel)
      unfenced := fun m hm hp hf => hgone (u.unfenced m hm hp hf)
      prepared := fun a ha hp hrel => hmovi (u.prepared a ha hp hrel) },
    fun hc => (h.committed hc).imp hmovi hgone⟩

theorem Inv.setDestination (hrows : s.routeCommitted = false → rows.phase? ≠ some .owned) :
    Inv mv { s with destinationRows := rows } :=
  ⟨h.exclusive,h.target,fun hu =>
    have u := h.uncommitted hu
    { u with
      destination := hrows hu },h.committed⟩

theorem Inv.release (hc : s.routeCommitted = false)
    (hmovi : s.sourceRows.movingOutUnder mv.migrationId = true) :
    Inv mv { s with sourceRows := rows, sourceReleased := true } := by
  have hgone : ¬ sourceGone s := by
    rintro (hg | hg) <;> simp [movingOutUnder_phase hmovi] at hg
  have u := h.uncommitted hc
  refine ⟨fun _ => hc,h.target,fun _ => ?_,by simp [hc]⟩
  exact
    { u with
      route := fun route hr => ⟨(u.route route hr).1,fun hd => absurd ((u.route route hr).2 hd) hgone⟩
      fenced := by simp
      unfenced := fun m hm hp hf => absurd (u.unfenced m hm hp hf) hgone
      prepared := by simp }

theorem Inv.delete_source {generation}
    (hp : Registry.deleteSandbox s.sourceRows generation = .progress rows) :
    Inv mv { s with sourceRows := rows } := by
  obtain ⟨hnot,hnew⟩ := deleteSandbox_progress hp
  apply h.setSource
  · intro _
    rcases hnew with hd | hn
    · exact .inr hd
    · exact .inl (by simp [phase?,hn])
  · intro hm
    exact absurd (movingOutUnder_phase hm) hnot

theorem Inv.serve {c snapshot full} (hc : c ∈ s.calls ∨ c ∈ s.orphans)
    (hok : (s.setRows mv rows c).sourceReleased = true → (s.setRows mv rows c).routeCommitted = false)
    (hp : handle mv (s.rowsOf mv c) c snapshot full = .progress rows) :
    Inv mv (s.setRows mv rows c) := by
  cases c with
  | prepare =>
    obtain ⟨howned,hmovi⟩ := prepareStorageNativeMove_progress hp
    have howned : s.sourceRows.phase? = some .owned := howned
    apply h.setSource
    · rintro (hg | hg) <;> simp [howned] at hg
    · exact fun _ => hmovi
  | stage =>
    refine h.setDestination fun _ howned => ?_
    obtain ⟨r,hr,hphase⟩ := map_eq_some_iff.mp howned
    simpa [hphase] using (stageStorageNativeImport_progress hp hr).1
  | activate =>
    refine h.setDestination fun hu => ?_
    exact absurd ((h.uncommitted hu).calls _ hc) (by simp [Call.early])
  | finalize =>
    have hnew := finalizeMovedSource_progress hp
    refine ⟨h.exclusive,h.target,fun hu => ?_,fun _ => .inr ?_⟩
    · exact absurd ((h.uncommitted hu).calls _ hc) (by simp [Call.early])
    · rcases hnew with hd | hn
      · exact .inr hd
      · exact .inl (by simp [State.setRows,phase?,hn])
  | abortImport =>
    refine h.setDestination fun _ howned => ?_
    obtain ⟨r,hr,hphase⟩ := map_eq_some_iff.mp howned
    simpa [hphase] using abortImport_progress hp hr
  | abortSource =>
    exact h.release (hok rfl) (abortMove_progress hp).1
  | delete =>
    simp only [State.rowsOf] at hp
    simp only [State.setRows]
    split
    · rename_i hn
      rw [if_pos hn] at hp
      exact h.delete_source hp
    · rename_i hn
      refine h.setDestination fun _ => ?_
      rcases (deleteSandbox_progress hp).2 with hd | hd
      · simp [hd]
      · simp [phase?,hd]

theorem Inv.routeCommit {rows m' route now tasks} (hrel : s.sourceReleased = false)
    (hr : s.routing.routeSandboxMigration mv.migrationId now = some (rows,m',route)) :
    Inv mv { s with routing := rows, tasks := tasks, routeCommitted := true } := by
  rcases routeSandboxMigration_some hr with
    ⟨rfl,hget,hphase⟩ | ⟨m,hm,hphase,hget,hdst⟩
  · -- Replay: the journal is already routed, so the commit happened before.
    have hcom : s.routeCommitted = true := by
      by_contra hc
      exact ((h.uncommitted (by simpa using hc)).journal m' hget).1 hphase
    exact ⟨by simp [hrel],h.target,by simp,fun _ => h.committed hcom⟩
  · refine ⟨by simp [hrel],?_,by simp,fun _ => ?_⟩
    · intro m₁ hm₁
      obtain rfl : m' = m₁ := by simpa [State.journal,hget] using hm₁
      rw [hdst]
      exact h.target m hm
    · cases hc : s.routeCommitted with
      | true => exact h.committed hc
      | false =>
        have u := h.uncommitted hc
        cases hf : m.sourceFenced with
        | true => exact .inl (u.fenced m hm (.inr hphase) hf hrel)
        | false => exact .inr (u.unfenced m hm (.inr hphase) hf)

theorem Inv.runAdvance {m refs now} (hm : s.routeCommitted = false → early m)
    (hok : (runAdvance mv s m refs now).sourceReleased = true →
      (runAdvance mv s m refs now).routeCommitted = false) : Inv mv (runAdvance mv s m refs now) := by
  revert hok
  unfold Migration.runAdvance
  split
  · split
    · exact fun _ => h.recordError m _
    · rename_i route hr
      split
      · rename_i hd
        split
        · exact fun _ => h.recordError m _
        · refine fun _ => h.advanceTo_early (.inl rfl) fun hu m₁ _ _ => ⟨by simp,fun _ => ?_⟩
          exact ((h.uncommitted hu).route route hr).2 hd
      · exact fun _ => h.send fun _ => trivial
      · exact fun _ => h.recordError m _
  · split
    · exact fun _ => h.send fun _ => trivial
    · exact fun _ => h.recordError m _
  · split
    · exact fun _ => h.recordError m _
    split
    · exact fun _ => h.recordError m _
    · rename_i hr
      exact fun hok => h.routeCommit (by simpa using hok) hr
  · rename_i hphase
    exact fun _ => h.send fun hu => absurd hphase (hm hu).1
  · rename_i hphase
    split
    · exact fun _ => h.send fun hu => absurd hphase (hm hu).2
    · exact fun _ => h.settle (settles_complete mv s false now)
  · exact fun _ => h

theorem Inv.runTask {t refs now s'} (ht : t ∈ s.tasks)
    (hs : runTask mv { s with tasks := s.tasks.erase t } refs now t = s')
    (hok : s'.sourceReleased = true → s'.routeCommitted = false) : Inv mv s' := by
  have h₁ : Inv mv { s with tasks := s.tasks.erase t } :=
    h.shrink (fun _ hm => mem_of_mem_erase hm) (fun _ hm => hm) (fun _ hm => hm)
  cases t with
  | advance m =>
    cases hs
    exact h₁.runAdvance (fun hu => (h.uncommitted hu).tasks m ht) hok
  | abort =>
    simp only [Migration.runTask] at hs
    split at hs <;> cases hs
    · exact h₁.send fun _ => trivial
    · exact h₁.send fun _ => trivial
  | abortSource =>
    cases hs
    exact h₁.send fun _ => trivial

theorem Inv.runAnswer {a wake now} (ha : a ∈ s.answers) :
    Inv mv (runAnswer mv { s with answers := s.answers.erase a } wake now a) := by
  have h₁ : Inv mv { s with answers := s.answers.erase a } :=
    h.shrink (fun _ hm => hm) (fun _ hm => hm) (fun _ => mem_of_mem_erase)
  have hcmt : ¬ a.call.early → s.routeCommitted = true := by
    intro hlate
    by_contra hc
    exact hlate ((h.uncommitted (by simpa using hc)).answers a ha)
  unfold Migration.runAnswer
  cases hcall : a.call with
  | prepare m =>
    dsimp only
    split
    · refine h₁.advanceTo_early (.inl rfl) fun hu m₁ _ _ => ⟨fun _ hrel => ?_,by simp⟩
      exact (h.uncommitted hu).prepared a ha ⟨m,hcall⟩ hrel
    · exact h₁.recordError m _
  | stage m =>
    dsimp only
    split
    · refine h₁.advanceTo_early (.inr rfl) fun hu m₁ hm₁ hp => ⟨fun hf hrel => ?_,fun hf => ?_⟩
      · exact (h.uncommitted hu).fenced m₁ hm₁ (.inl hp) hf hrel
      · exact (h.uncommitted hu).unfenced m₁ hm₁ (.inl hp) hf
    · exact h₁.recordError m _
  | activate => exact h₁.advanceTo_late (hcmt (by simp [hcall,Call.early]))
  | finalize => exact h₁.settle (settles_complete mv _ wake now)
  | abortImport => exact h₁.spawn (by simp)
  | abortSource => exact h₁.moveJournal (.inl rfl) _
  | delete => exact h₁.settle (settles_delete mv _ _ _)

theorem Inv.answer {c snapshot} (hc : c ∈ s.calls)
    (hd : handle mv (s.rowsOf mv c) c snapshot false = .done) :
    Inv mv { s with calls := s.calls.erase c, answers := ⟨c,snapshot⟩ :: s.answers } := by
  refine ⟨h.exclusive,h.target,fun hu => ?_,h.committed⟩
  have u := h.uncommitted hu
  exact
    { u with
      calls := fun c' hm => u.calls c' (hm.imp_left mem_of_mem_erase)
      answers := by
        intro a hm
        rcases mem_cons.mp hm with rfl | hm
        · exact u.calls c (.inl hc)
        · exact u.answers a hm
      prepared := by
        intro a hm hp hrel
        rcases mem_cons.mp hm with rfl | hm
        · obtain ⟨m,rfl⟩ := hp
          exact prepareStorageNativeMove_done hd
        · exact u.prepared a hm hp hrel }

theorem Inv.begin {read rows m}
    (hb : s.routing.beginSandboxMigration read mv.migrationId mv.destination = .ok (rows,m)) :
    Inv mv { s with routing := rows, tasks := .advance m :: s.tasks } := by
  unfold beginSandboxMigration at hb
  cases hj : s.routing.getSandboxMigration mv.migrationId with
  | some =>
    rw [hj] at hb
    cases hb
    exact h.spawn fun hu m₁ he => Task.advance.inj he ▸ (h.uncommitted hu).journal _ hj
  | none =>
    rw [hj] at hb
    obtain ⟨-,hb⟩ := of_guard hb nofun
    split at hb
    · cases hb
    obtain ⟨hown,hb⟩ := of_check hb nofun
    dsimp only at hb
    split at hb <;> cases hb
    obtain ⟨-,rfl⟩ := writeSandboxMigration_some ‹_›
    refine h.journaled (getSandboxMigration_put ..) rfl rfl ?_ ?_ <;> simp [early,SandboxRoute.plan]

theorem Inv.step {s' e} (hok : abortExcludesCommit mv s e) (hs : step mv s e = some s') :
    Inv mv s' := by
  specialize hok s' hs
  cases e with
  | «begin» read =>
    simp only [Migration.step] at hs
    split at hs <;> cases hs
    exact h.begin ‹_›
  | drive =>
    obtain ⟨m,hm,rfl⟩ := map_eq_some_iff.mp hs
    exact h.spawn fun hu m₁ he => Task.advance.inj he ▸ (h.uncommitted hu).journal m hm
  | cancel =>
    obtain ⟨m,hm,hs⟩ := bind_eq_some_iff.mp hs
    obtain ⟨-,rfl⟩ := some_of_check hs
    exact h.spawn (by simp)
  | resolve =>
    obtain ⟨m,hm,hs⟩ := bind_eq_some_iff.mp hs
    obtain ⟨-,hs⟩ := of_guard hs nofun
    split at hs <;> cases hs
    · exact h.spawn (by simp)
    · exact h.spawn fun hu m₁ he => Task.advance.inj he ▸ (h.uncommitted hu).journal m hm
  | run =>
    obtain ⟨ht,hs⟩ := some_of_check hs
    exact h.runTask ht hs hok
  | serve =>
    obtain ⟨hc,hs⟩ := of_check hs nofun
    split at hs <;> cases hs
    exact h.serve hc hok ‹_›
  | answer =>
    obtain ⟨hc,rfl⟩ := some_of_check hs
    exact h.answer hc.1 hc.2
  | fail c detail =>
    obtain ⟨-,rfl⟩ := some_of_check hs
    have h₁ : Inv mv { s with calls := s.calls.erase c } :=
      h.shrink (fun _ hm => hm) (fun _ hm => hm.imp_left mem_of_mem_erase) (fun _ hm => hm)
    exact h₁.failCall c detail
  | timeout c detail =>
    obtain ⟨hc,rfl⟩ := some_of_check hs
    have h₁ : Inv mv { s with calls := s.calls.erase c, orphans := c :: s.orphans } := by
      refine h.shrink (fun _ hm => hm) (fun c' hm => ?_) (fun _ hm => hm)
      rcases hm with hm | hm
      · exact .inl (mem_of_mem_erase hm)
      rcases mem_cons.mp hm with rfl | hm
      · exact .inl hc
      · exact .inr hm
    exact h₁.failCall c detail
  | lose a detail =>
    obtain ⟨-,rfl⟩ := some_of_check hs
    have h₁ : Inv mv { s with answers := s.answers.erase a } :=
      h.shrink (fun _ hm => hm) (fun _ hm => hm) (fun _ => mem_of_mem_erase)
    exact h₁.failCall a.call detail
  | receive =>
    obtain ⟨ha,rfl⟩ := some_of_check hs
    exact h.runAnswer ha
  | prepareDelete operationId now =>
    cases hs
    exact h.settle (settles_prepareDelete mv s operationId now)
  | dispatchDelete =>
    obtain ⟨route,hr,hs⟩ := bind_eq_some_iff.mp hs
    obtain ⟨-,rfl⟩ := some_of_check hs
    exact h.send fun _ => trivial
  | deleteDetached =>
    obtain ⟨route,hr,hs⟩ := bind_eq_some_iff.mp hs
    obtain ⟨-,rfl⟩ := some_of_check hs
    exact h.settle (settles_delete mv s _ _)
  | terminalizeOrphans =>
    cases hs
    refine h.settle ?_
    unfold terminalizeOrphanedSandboxMigrations
    split
    · exact settles_refl mv s
    · rename_i hr
      exact settles_end _ (by simp)

theorem Inv.atMostOneOwner : AtMostOneOwner s := by
  rintro ⟨hsrc,hdst⟩
  cases hc : s.routeCommitted with
  | true =>
    rcases h.committed hc with h | h | h
    · simp [movingOutUnder_phase h] at hsrc
    · simp [h] at hsrc
    · simp [h] at hsrc
  | false => exact (h.uncommitted hc).destination hdst

theorem Inv.sourceStaysFenced : SourceStaysFenced mv s := by
  intro m route hm _ hr hnode
  have hc : s.routeCommitted = true := by
    by_contra hc
    have hsrc := ((h.uncommitted (by simpa using hc)).route route hr).1
    exact mv.distinct (hsrc.symm.trans (hnode.trans (h.target m hm)))
  rcases h.committed hc with hmov | hnone | hdel
  · exact .inl hmov
  · exact .inr (.inr hnone)
  · exact .inr (.inl hdel)

end

/-- If the source abort and the route commit exclude each other, no state has two owners and a
committed route leaves a fenced source behind. -/
theorem migration_single_owner (mv : Move) (s : State)
    (h : Reaches (step mv) (abortExcludesCommit mv) (Start mv) s) :
    AtMostOneOwner s ∧ SourceStaysFenced mv s := by
  have hinv : Inv mv s := h.invariant (fun _ => inv_start) (fun _ _ _ hi => hi.step)
  exact ⟨hinv.atMostOneOwner,hinv.sourceStaysFenced⟩

namespace Example

def move : Move where
  migrationId := "move"
  source := ⟨"node-a","job-a","http://a"⟩
  destination := ⟨"node-b","job-b","http://b"⟩
  distinct := by decide

def route : SandboxRoute where
  sandboxId := "sandbox"
  node := move.source
  resources := {}
  state := .parked
  incarnation := snapshot.incarnation

def start : State where
  routing := { route := some route }
  sourceRows := { registration := some ⟨1,"create-1","spec-1","",.owned,"","",1,none⟩ }
  destinationRows := {}

def planned : SandboxMigration where
  migrationId := "move"
  sandboxId := "sandbox"
  phase := .planned
  source := move.source
  destination := move.destination
  incarnation := snapshot.incarnation

def prepared : SandboxMigration := { planned with
  phase := .prepared
  storageSchema := snapshot.schema
  snapshotSha256 := snapshot.sha256
  storageSnapshot := .descriptor snapshot
  sourceFenced := true }

def staged : SandboxMigration := { prepared with phase := .staged }

def routed : SandboxMigration := { staged with phase := .routed }

def activated : SandboxMigration := { routed with phase := .activated }

def preparing : List Event :=
  [.begin route, .run (.advance planned) true none, .serve (.prepare planned) snapshot false,
   .answer (.prepare planned) snapshot, .receive ⟨.prepare planned,snapshot⟩ false none]

def activating (m : SandboxMigration) : List Event :=
  .run (.advance m) true none :: replicate 4 (.serve (.stage m) snapshot false) ++
    [.answer (.stage m) snapshot, .receive ⟨.stage m,snapshot⟩ false none,
     .run (.advance staged) true none, .run (.advance routed) true none,
     .serve (.activate routed) snapshot false]

def uninterrupted : List Event := preparing ++ activating prepared ++
  [.answer (.activate routed) snapshot, .receive ⟨.activate routed,snapshot⟩ false none,
   .run (.advance activated) true none, .serve (.finalize activated) snapshot false]

theorem start_starts : Start move start :=
  ⟨route,rfl,rfl,by decide,by decide,by decide,rfl,rfl,rfl,rfl,rfl,rfl⟩

end Example

open Example

theorem migration_single_owner_uninterrupted :
    ∃ s, Reaches (step move) (abortExcludesCommit move) (Start move) s ∧
      s.destinationRows.phase? = some .owned ∧ s.sourceRows.phase? = some .deleting ∧
      AtMostOneOwner s ∧ SourceStaysFenced move s := by
  obtain ⟨s,hs,hdst,hsrc⟩ := Reaches.exists_of_runMeeting (step move) (abortExcludesCommit move)
    start_starts uninterrupted (fun s => s.destinationRows.phase? = some .owned ∧
      s.sourceRows.phase? = some .deleting) (by decide +kernel)
  exact ⟨s,hs,hdst,hsrc,migration_single_owner move s hs⟩

namespace Example

def retried : SandboxMigration := { prepared with error := "connection reset" }

/-- Prepare the source; cancel, with the source's abort executed and its answer lost; retry. -/
def lostAbort : List Event := preparing ++
  [.cancel, .run (.abort prepared) true none, .answer (.abortImport prepared) snapshot,
   .receive ⟨.abortImport prepared,snapshot⟩ false none, .run (.abortSource prepared) true none,
   .serve (.abortSource prepared) snapshot false, .answer (.abortSource prepared) snapshot,
   .lose ⟨.abortSource prepared,snapshot⟩ "connection reset", .drive] ++ activating retried

end Example

/-- A source abort whose answer was lost leaves the journal prepared with an owned source; the retry
then activates the destination. -/
theorem migration_two_owners :
    ∃ s, Reaches (step move) anyEvent (Start move) s ∧ ¬ AtMostOneOwner s ∧
      ¬ SourceStaysFenced move s := by
  obtain ⟨s,hs,hsrc,hdst,m,hm,hfen,route,hroute,hnode⟩ := Reaches.exists_of_run (step move) start_starts
    lostAbort (fun s => s.sourceRows.phase? = some .owned ∧ s.destinationRows.phase? = some .owned ∧
      ∃ m ∈ s.journal move, m.sourceFenced = true ∧ ∃ route ∈ s.routing.route,
        route.node = m.destination) (by decide +kernel)
  refine ⟨s,hs,fun hone => hone ⟨hsrc,hdst⟩,fun hstays => ?_⟩
  rcases hstays m route hm hfen hroute hnode with h | h | h
  · simp [movingOutUnder_phase h] at hsrc
  · simp [h] at hsrc
  · simp [h] at hsrc

end UCloudSandboxes.Migration
