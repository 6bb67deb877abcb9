import UCloudSandboxes.Drain.Handshake

namespace UCloudSandboxes.Drain
open Machine Option List

namespace Worker

variable {w w' : Worker}

/-- The worker drains under `token`, runs no create, and has only registrations being deleted. -/
structure Emptied (w : Worker) (token : String) (added : Nat) : Prop where
  draining : w.drain.draining = true
  token : w.drain.token = token
  creates : w.creates = []
  records : w.records = []
  added : w.added = added

/-- Every create is in the ledger, and an open sample of a draining worker counts them all. -/
structure Held (w : Worker) : Prop where
  creates : ∀ c ∈ w.creates, c.held = true
  sampled : ∀ sample, w.sample = some sample → w.drain.draining = true →
    sample.activeSandboxCreates = 0 → w.creates = []

theorem records_eq_nil : w.records = [] ↔ ∀ r ∈ w.registrations, r.deleting = true := by
  simp [records]

/-- No import is planned behind the closed gate, and no create of noded outlives its hold. -/
def guarded (w : Worker) : Work → Bool
  | .stageImport _ => w.admissionOpen
  | .expireCreate _ => false
  | .restart _ => w.rustAdmission || w.creates.all (!·.byNoded)
  | _ => true

theorem Held.of_register (h : w.Held) (owner) : (w.register owner).Held := by
  unfold register
  split
  · exact h
  · exact ⟨h.creates,h.sampled⟩

theorem Held.step {work} (hg : w.Gated) (h : w.Held) (hok : w.guarded work = true)
    (hs : w.step work = some w') : w'.Held := by
  cases work with
  | admitCreate =>
    obtain ⟨hopen,rfl⟩ := some_of_check hs
    refine ⟨?_,fun sample _ hd => ?_⟩
    · rintro c (_ | ⟨_,hc⟩)
      · rfl
      · exact h.creates c hc
    · rw [hg.gate,hd] at hopen
      cases hopen
  | planCreate =>
    obtain ⟨c,-,rfl⟩ := map_eq_some_iff.mp hs
    exact h.of_register c.owner
  | endCreate =>
    obtain ⟨c,hc,rfl⟩ := map_eq_some_iff.mp hs
    refine ⟨fun c hc => h.creates c (mem_of_mem_eraseIdx hc),fun sample hs hd hz => ?_⟩
    rw [h.sampled sample hs hd hz] at hc
    cases hc
  | expireCreate => cases hok
  | stageImport owner =>
    cases hs
    exact h.of_register owner
  | admitWake | acquireExec =>
    obtain ⟨-,rfl⟩ := some_of_check hs
    exact ⟨h.creates,h.sampled⟩
  | beginSample =>
    obtain ⟨-,rfl⟩ := some_of_check hs
    refine ⟨h.creates,?_⟩
    rintro sample ⟨⟩ - hz
    have hnone := eq_nil_of_length_eq_zero (Nat.eq_zero_of_add_eq_zero_right hz)
    exact (filter_eq_self.mpr h.creates).symm.trans hnone
  | abortSample =>
    obtain ⟨sample,-,rfl⟩ := map_eq_some_iff.mp hs
    exact ⟨h.creates,fun _ hn => by cases hn⟩
  | restart =>
    cases hs
    refine ⟨fun c hc => ?_,by simp [Worker.restart]⟩
    obtain ⟨c',hc',rfl⟩ := mem_map.mp hc
    obtain ⟨hmem,hby⟩ := mem_filter.mp hc'
    rcases (Bool.or_eq_true _ _).mp hok with hrust | hnone
    · simp [h.creates c' hmem,hrust]
    · have := all_eq_true.mp hnone c' hmem
      simp [hby] at this
  | endWake wake | releaseExec exec | beginDelete owner | commitDeleted owner =>
    cases hs
    exact ⟨h.creates,h.sampled⟩

theorem Emptied.step {work token added} (hg : w.Gated) (h : w.Emptied token added)
    (hok : w.guarded work = true) (hs : w.step work = some w') : w'.Emptied token added := by
  have hcls : w.admissionOpen = false := by rw [hg.gate,h.draining]; rfl
  cases work with
  | admitCreate | admitWake | acquireExec =>
    obtain ⟨hopen,-⟩ := some_of_check hs
    rw [hcls] at hopen
    cases hopen
  | planCreate | endCreate =>
    obtain ⟨c,hc,-⟩ := map_eq_some_iff.mp hs
    rw [h.creates] at hc
    cases hc
  | expireCreate => cases hok
  | stageImport =>
    have hopen : w.admissionOpen = true := hok
    rw [hcls] at hopen
    cases hopen
  | beginDelete =>
    cases hs
    refine { h with records := records_eq_nil.mpr fun r hr => ?_ }
    obtain ⟨r',hr',rfl⟩ := mem_map.mp hr
    split
    · rfl
    · exact records_eq_nil.mp h.records r' hr'
  | commitDeleted =>
    cases hs
    exact { h with records := records_eq_nil.mpr fun r hr =>
      records_eq_nil.mp h.records r (mem_of_mem_filter hr) }
  | beginSample =>
    rw [Worker.step,beginSample] at hs
    split at hs
    · cases hs
      exact { h with }
    · cases hs
  | abortSample =>
    obtain ⟨sample,-,rfl⟩ := map_eq_some_iff.mp hs
    exact { h with }
  | restart =>
    cases hs
    refine { h with draining := ?_, token := ?_, creates := ?_ }
    · exact (congrArg _ hg.row).trans h.draining
    · exact (congrArg _ hg.row).trans h.token
    · simp [Worker.restart,h.creates]
  | endWake wake | releaseExec exec =>
    cases hs
    exact { h with }

theorem Emptied.finishSample {token added} (hg : w.Gated) (h : w.Emptied token added) (sample builds) :
    (w.finishSample sample builds).Emptied token added := by
  obtain ⟨-,hd,ht⟩ := hg.finishSample sample builds
  exact ⟨hd.trans h.draining,ht.trans h.token,h.creates,h.records,h.added⟩

theorem Held.emptied (h : w.Held) {sample builds token} (hs : w.sample = some sample)
    (hready : (w.heartbeat sample builds).drainReady token = true) :
    w.Emptied token (w.heartbeat sample builds).added ∧ token ≠ "" := by
  obtain ⟨epoch,he⟩ := acknowledged_same (w := w) sample builds
  simp only [Heartbeat.drainReady,heartbeat,he,Bool.and_eq_true,decide_eq_true_eq,
    List.isEmpty_iff,map_eq_nil_iff] at hready
  obtain ⟨⟨⟨⟨⟨⟨hne,hd⟩,-⟩,ht⟩,-⟩,hinv⟩,hzero⟩ := hready
  rw [if_pos hd] at ht
  exact ⟨⟨hd,ht,h.sampled sample hs hd (by omega),hinv,rfl⟩,by simpa using hne⟩

end Worker

namespace System

variable {s s' : System} {e : Event}

def Guarded (s : System) : Event → Prop
  | .work work => s.worker.guarded work = true
  | _ => True

instance (s : System) (e : Event) : Decidable (s.Guarded e) := by
  cases e <;> unfold Guarded <;> infer_instance

def Known (s : System) (heartbeat : Heartbeat) : Prop :=
  heartbeat ∈ s.sent ∨ s.stored = some heartbeat ∨ s.loaded = some heartbeat ∨
    ∃ p, s.proof = some p ∧ p.heartbeat = heartbeat

structure Proves (s : System) (heartbeat : Heartbeat) : Prop where
  drawn : ∀ t, heartbeat.drainReady t = true → t ∈ s.drawn
  emptied : ∀ t, heartbeat.drainReady t = true → s.intent = some ⟨t,.active⟩ →
    s.worker.Emptied t heartbeat.added

structure Proven (s : System) : Prop where
  held : s.worker.Held
  /-- No cancellation carries the token of an active intent. -/
  flight : ∀ r ∈ s.flight, r.draining = false → s.intent ≠ some ⟨r.token,.active⟩
  proves : ∀ heartbeat, s.Known heartbeat → s.Proves heartbeat
  ready : ∀ p, s.proof = some p → p.heartbeat.drainReady p.drainToken = true

theorem proven_start (h : Start s) : s.Proven := by
  obtain ⟨rustAdmission,rfl⟩ := h
  refine ⟨⟨nofun,nofun⟩,nofun,?_,nofun⟩
  rintro heartbeat (h | h | h | ⟨p,h,-⟩) <;> cases h

theorem Proven.proves_of_known (h : s.Proven) (hw : s'.worker = s.worker)
    (hdrawn : ∀ t ∈ s.drawn, t ∈ s'.drawn)
    (hint : ∀ t ∈ s.drawn, s'.intent = some ⟨t,.active⟩ → s.intent = some ⟨t,.active⟩)
    (hknown : ∀ heartbeat, s'.Known heartbeat → s.Known heartbeat) :
    ∀ heartbeat, s'.Known heartbeat → s'.Proves heartbeat := by
  intro heartbeat hk
  have hp := h.proves heartbeat (hknown heartbeat hk)
  refine ⟨fun t ht => hdrawn t (hp.drawn t ht),fun t ht hi => ?_⟩
  rw [hw]
  exact hp.emptied t ht (hint t (hp.drawn t ht) hi)

theorem Proven.step (hw : s.Wired) (h : s.Proven) (hok : s.Guarded e) (he : s.Effect e s') :
    s'.Proven := by
  cases he with
  | loaded =>
    refine { h with proves := h.proves_of_known rfl (fun _ => id) (fun _ _ => id) ?_, ready := nofun }
    rintro hb (hk | hk | hk | ⟨p,hk,-⟩)
    · exact .inl hk
    · exact .inr (.inl hk)
    · exact .inr (.inl hk)
    · cases hk
  | again => exact h
  | prepared hc hi hv hnew =>
    refine { h with
      flight := ?_
      proves := h.proves_of_known rfl (fun _ => mem_cons_of_mem _) ?_ (fun _ => id) }
    · rintro r hr - ⟨⟩
      exact hnew (hw.flight r hr).1
    · rintro t ht ⟨⟩
      exact absurd ht hnew
  | canceling | retired | forgotten =>
    exact { h with
      flight := nofun
      proves := h.proves_of_known rfl (fun _ => id) nofun (fun _ => id) }
  | @posted intent request hc hi hreq =>
    subst hreq
    refine { h with
      flight := ?_
      proves := h.proves_of_known rfl (fun _ => id) (fun _ _ => id) (fun _ => id) }
    rintro r (_ | ⟨_,hr⟩)
    · intro hdir hact
      have hstate := congrArg DrainIntent.state (some.inj (hi.symm.trans hact))
      exact of_decide_eq_false hdir hstate
    · exact h.flight r hr
  | @ready token proof hi hproof =>
    refine { h with
      proves := h.proves_of_known rfl (fun _ => id) (fun _ _ => id) ?_
      ready := fun p hp => ?_ }
    · rintro hb (hk | hk | hk | ⟨p,hk,rfl⟩)
      · exact .inl hk
      · exact .inr (.inl hk)
      · exact .inr (.inr (.inl hk))
      · exact .inr (.inr (.inl (hproof p hk).2.1))
    · obtain ⟨rfl,-,hready⟩ := hproof p hp
      exact hready
  | ignored | gaveUp =>
    exact { h with proves := h.proves_of_known rfl (fun _ => id) (fun _ _ => id) (fun _ => id) }
  | crashed =>
    refine { h with proves := h.proves_of_known rfl (fun _ => id) (fun _ _ => id) ?_, ready := nofun }
    rintro hb (hk | hk | hk | ⟨p,hk,-⟩)
    · exact .inl hk
    · exact .inr (.inl hk)
    · cases hk
    · cases hk
  | submitted =>
    refine { h with proves := h.proves_of_known rfl (fun _ => id) (fun _ _ => id) ?_, ready := nofun }
    rintro hb (hk | hk | hk | ⟨p,hk,-⟩)
    · exact .inl hk
    · exact .inr (.inl hk)
    · exact .inr (.inr (.inl hk))
    · cases hk
  | dropped | refused =>
    exact { h with
      flight := fun r hr => h.flight r (mem_of_mem_filter hr)
      proves := h.proves_of_known rfl (fun _ => id) (fun _ _ => id) (fun _ => id) }
  | @executed id request change worker hmem hid hs hconf hwor =>
    subst hwor
    refine { h with
      held := ?_, flight := fun r hr => h.flight r (mem_of_mem_filter hr), proves := ?_ }
    · refine ⟨?_,fun sample hsam => ?_⟩
      · cases change with
        | none => exact h.held.creates
        | some => exact h.held.creates
      · cases change with
        | none => exact absurd (hs.symm.trans hsam) nofun
        | some => exact absurd (hs.symm.trans hsam) nofun
    · intro hb hk
      have hp := h.proves hb hk
      refine ⟨hp.drawn,fun t ht hi => ?_⟩
      have hemp := hp.emptied t ht hi
      -- While a heartbeat is ready for the active intent, no request changes the worker.
      obtain rfl : change = none := by
        obtain ⟨⟨hnone,-⟩ | ⟨-,hd⟩,hcan⟩ := NodeDrainState.configure_ok hconf
        · exact hnone
        rw [hemp.draining] at hd
        have hdir : request.draining = false := by simpa using hd
        have htoken := (hcan hdir).symm.trans hemp.token
        exact absurd (htoken ▸ hi) (h.flight request hmem hdir)
      exact { hemp with }
  | worked hwork =>
    refine { h with held := h.held.step hw.gated hok hwork, proves := fun hb hk => ?_ }
    have hp := h.proves hb hk
    exact ⟨hp.drawn,fun t ht hi => (hp.emptied t ht hi).step hw.gated hok hwork⟩
  | @sampled builds sample hs hr =>
    refine { h with held := ⟨h.held.creates,nofun⟩, proves := ?_ }
    rintro hb ((_ | ⟨_,hk⟩) | hk)
    · refine ⟨fun t ht => ?_,fun t ht hi => ?_⟩
      · obtain ⟨hemp,hne⟩ := h.held.emptied hs ht
        exact hemp.token ▸ hw.token.resolve_left (hemp.token ▸ hne)
      · exact (h.held.emptied hs ht).1.finishSample hw.gated sample builds
    · have hp := h.proves hb (.inl hk)
      exact ⟨hp.drawn,fun t ht hi => (hp.emptied t ht hi).finishSample hw.gated sample builds⟩
    · have hp := h.proves hb (.inr hk)
      exact ⟨hp.drawn,fun t ht hi => (hp.emptied t ht hi).finishSample hw.gated sample builds⟩
  | @replied builds id sample hs hr =>
    refine { h with held := ⟨h.held.creates,nofun⟩, proves := fun hb hk => ?_ }
    have hp := h.proves hb hk
    exact ⟨hp.drawn,fun t ht hi => (hp.emptied t ht hi).finishSample hw.gated sample builds⟩
  | delivered hmem =>
    refine { h with proves := h.proves_of_known rfl (fun _ => id) (fun _ _ => id) ?_ }
    rintro hb (hk | hk | hk | hk)
    · exact .inl hk
    · exact .inl (some.inj hk ▸ hmem)
    · exact .inr (.inr (.inl hk))
    · exact .inr (.inr (.inr hk))

/-- A stop with a drain proof finds only registrations being deleted and no create, and nothing was
added since the heartbeat's sample. -/
theorem stopped_worker_holds_nothing (h : Reaches step Guarded Start s) {p : StopProof}
    (hp : s.proof = some p) (hs : s.step .submitStop = some s') :
    (∀ r ∈ s.worker.registrations, r.deleting = true) ∧ s.worker.creates = [] ∧
      s.worker.added = p.heartbeat.added := by
  obtain ⟨-,hpro⟩ : s.Wired ∧ s.Proven := by
    refine h.invariant (I := fun s => s.Wired ∧ s.Proven)
      (fun _ hs => ⟨wired_start hs,proven_start hs⟩) ?_
    rintro s e s' ⟨hw,hp⟩ hok hs
    exact ⟨hw.step (effect_of_step hs),hp.step hw hok (effect_of_step hs)⟩
  cases effect_of_step hs with
  | submitted hp' hi =>
    cases hp.symm.trans hp'
    have hemp := (hpro.proves _ (.inr (.inr (.inr ⟨p,hp,rfl⟩)))).emptied _ (hpro.ready p hp) hi
    exact ⟨Worker.records_eq_nil.mp hemp.records,hemp.creates,hemp.added⟩

theorem stopped_worker_holds_nothing_drained : ∃ s p s', Reaches step Guarded Start s ∧
    s.proof = some p ∧ s.step .submitStop = some s' ∧
    (∀ r ∈ s.worker.registrations, r.deleting = true) ∧ s.worker.creates = [] ∧
      s.worker.added = p.heartbeat.added := by
  obtain ⟨s,hreach,⟨p,hp,-⟩,s',hs,-⟩ := Reaches.exists_of_runMeeting step Guarded start_fresh
    [.work (.admitCreate ("sb-a",1) true),.work (.planCreate 0),.prepareDrainIntent "drain-a",.post,
      .execute 0,.giveUp,.work (.endCreate 0),.work (.beginDelete ("sb-a",1)),
      .work (.commitDeleted ("sb-a",1)),.work (.beginSample none),.finishSample 0,.deliver 0,
      .loadNodes,.post,.execute 1,.work (.beginSample (some 1)),.finishSample 0,.answer]
    (fun s => (∃ p ∈ s.proof, True) ∧ ∃ s' ∈ s.step .submitStop, True) (by decide +kernel)
  exact ⟨s,p,s',hreach,hp,hs,stopped_worker_holds_nothing hreach hp hs⟩

/-- One drain from its request to a stop that is ready, with work after its heartbeat. -/
def drainRun (late : List Event) : List Event :=
  [.prepareDrainIntent "drain-a",.post,.execute 0,.giveUp,.work (.beginSample none),.finishSample 0,
    .deliver 0,.loadNodes] ++ late ++
  [.post,.execute 1,.work (.beginSample (some 1)),.finishSample 0,.answer]

/-- Not in the inventory or the ledger: a registration being deleted, an import planned behind the
closed gate, a create of noded whose handoff the agent forgot. -/
theorem stopped_worker_holds_registration :
    (∃ s, Reaches step anyEvent Start s ∧ (s.step .submitStop).isSome = true ∧
      s.worker.registrations = [⟨("sb-a",1),true⟩]) ∧
    (∃ s p, Reaches step anyEvent Start s ∧ s.proof = some p ∧ (s.step .submitStop).isSome = true ∧
      s.worker.registrations = [⟨("sb-a",1),false⟩] ∧ s.worker.added ≠ p.heartbeat.added) ∧
    ∃ s, Reaches step anyEvent Start s ∧ (s.step .submitStop).isSome = true ∧
      s.worker.creates ≠ [] := by
  have hstart : Start { worker := { rustAdmission := false } } := ⟨false,rfl⟩
  refine ⟨Reaches.exists_of_run step start_fresh ([.work (.admitCreate ("sb-a",1) true),
    .work (.planCreate 0),.work (.endCreate 0),.work (.beginDelete ("sb-a",1))] ++ drainRun []) _
    (by decide +kernel),?_,Reaches.exists_of_run step hstart
    ([.work (.admitCreate ("sb-a",1) true),.work (.expireCreate 0)] ++ drainRun []) _
    (by decide +kernel)⟩
  obtain ⟨s,hs,p,hp,himp⟩ := Reaches.exists_of_run step start_fresh
    (drainRun [.work (.stageImport ("sb-a",1))]) (fun s => ∃ p ∈ s.proof,
      (s.step .submitStop).isSome = true ∧ s.worker.registrations = [⟨("sb-a",1),false⟩] ∧
        s.worker.added ≠ p.heartbeat.added) (by decide +kernel)
  exact ⟨s,p,hs,hp,himp⟩

end System
end UCloudSandboxes.Drain
