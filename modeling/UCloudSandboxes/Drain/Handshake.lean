import Mathlib.Data.List.Nodup
import UCloudSandboxes.Drain.System

namespace UCloudSandboxes.Drain
open Machine Worker Option List NodeDrainState
open Registry (isOperationId)

/-- A request not refused leaves its direction under its token; a cancellation is only for the token
last seen. -/
theorem NodeDrainState.configure_ok {current : NodeDrainState} {token draining change}
    (h : current.configure token draining = .ok change) :
    (change = none ∧ current.draining = draining ∧ current.token = token ∨
      change = some { draining, token, admissionOpen := !draining } ∧ current.draining ≠ draining) ∧
      (draining = false → current.token = token) := by
  obtain ⟨-,h⟩ := of_guard h nofun
  cases draining with
  | true =>
    simp only [if_true] at h
    obtain ⟨htoken,h⟩ := of_guard h nofun
    split at h
    · rename_i hd
      cases h
      exact ⟨.inr ⟨rfl,by simpa using hd⟩,nofun⟩
    · rename_i hd
      cases h
      have hd : current.draining = true := by simpa using hd
      exact ⟨.inl ⟨rfl,hd,by simpa [hd] using htoken⟩,nofun⟩
  | false =>
    simp only [Bool.false_eq_true,if_false] at h
    obtain ⟨htoken,h⟩ := of_guard h nofun
    rw [not_not] at htoken
    split at h
    · rename_i hd
      cases h
      exact ⟨.inr ⟨rfl,by simpa using hd⟩,fun _ => htoken⟩
    · rename_i hd
      cases h
      exact ⟨.inl ⟨rfl,by simpa using hd,htoken⟩,fun _ => htoken⟩

theorem NodeDrainState.configure_cancel {current : NodeDrainState} {token}
    (hv : isOperationId token = true) (ht : current.token = token) :
    ∃ change, current.configure token false = .ok change := by
  unfold configure
  cases hd : current.draining <;> simp [hv,ht]

namespace Worker

variable {w w' : Worker}

structure Gated (w : Worker) : Prop where
  row : w.row = w.drain
  gate : w.admissionOpen = !w.drain.draining
  drain : w.drain.admissionOpen = !w.drain.draining

theorem register_same (owner) : (w.register owner).drain = w.drain ∧
    (w.register owner).row = w.row ∧ (w.register owner).admissionOpen = w.admissionOpen := by
  unfold register
  split <;> exact ⟨rfl,rfl,rfl⟩

theorem step_same {work} (hg : w.Gated) (h : w.step work = some w') :
    w'.drain = w.drain ∧ w'.row = w.row ∧ w'.admissionOpen = w.admissionOpen := by
  cases work with
  | admitCreate | admitWake | acquireExec | beginSample =>
    obtain ⟨-,rfl⟩ := some_of_check h
    exact ⟨rfl,rfl,rfl⟩
  | planCreate =>
    obtain ⟨c,-,rfl⟩ := map_eq_some_iff.mp h
    exact register_same c.owner
  | endCreate | abortSample =>
    obtain ⟨_,-,rfl⟩ := map_eq_some_iff.mp h
    exact ⟨rfl,rfl,rfl⟩
  | expireCreate =>
    obtain ⟨c,-,h⟩ := bind_eq_some_iff.mp h
    obtain ⟨-,rfl⟩ := some_of_check h
    exact ⟨rfl,rfl,rfl⟩
  | stageImport owner =>
    cases h
    exact register_same owner
  | restart =>
    cases h
    exact ⟨hg.row,rfl,by rw [hg.gate,← hg.row]; rfl⟩
  | endWake wake | releaseExec exec | beginDelete owner | commitDeleted owner =>
    cases h
    exact ⟨rfl,rfl,rfl⟩

theorem Gated.step {work} (hg : w.Gated) (h : w.step work = some w') : w'.Gated := by
  obtain ⟨hd,hrow,hopen⟩ := step_same hg h
  exact ⟨by rw [hrow,hd,hg.row],by rw [hopen,hd,hg.gate],by rw [hd,hg.drain]⟩

theorem acknowledged_same (sample builds) :
    ∃ epoch, w.acknowledged sample builds = { w.drain with drainActivityEpoch := epoch } := by
  unfold acknowledged
  dsimp only
  split
  · exact ⟨_,rfl⟩
  · exact ⟨w.drain.drainActivityEpoch,rfl⟩

theorem Gated.finishSample (hg : w.Gated) (sample builds) : (w.finishSample sample builds).Gated ∧
      (w.finishSample sample builds).drain.draining = w.drain.draining ∧
      (w.finishSample sample builds).drain.token = w.drain.token := by
  obtain ⟨epoch,he⟩ := acknowledged_same (w := w) sample builds
  unfold Worker.finishSample
  dsimp only
  rw [he]
  refine ⟨⟨?_,hg.gate,hg.drain⟩,rfl,rfl⟩
  split
  · rename_i hsame
    exact hg.row.trans hsame.symm
  · rfl

theorem Gated.configured (hg : w.Gated) {token draining change}
    (h : w.drain.configure token draining = .ok change) :
    (change.elim w w.setDrain).Gated ∧ (change.elim w w.setDrain).drain.draining = draining ∧
      (change.elim w w.setDrain).drain.token = token := by
  obtain ⟨⟨rfl,hd,ht⟩ | ⟨rfl,-⟩,-⟩ := configure_ok h
  · exact ⟨hg,hd,ht⟩
  · exact ⟨⟨rfl,rfl,rfl⟩,rfl,rfl⟩

end Worker

namespace System

variable {s s' : System} {e : Event}

/-- Tokens are drawn, requests are numbered, and a request of the pending intent is awaited. -/
structure Wired (s : System) : Prop where
  gated : s.worker.Gated
  valid : ∀ t ∈ s.drawn, isOperationId t = true
  intent : ∀ i, s.intent = some i → i.token ∈ s.drawn
  flight : ∀ r ∈ s.flight, r.token ∈ s.drawn ∧ r.id < s.nextId
  ids : (s.flight.map (·.id)).Nodup
  call : ∀ c, s.call = some c → c.request.id < s.nextId ∧
    s.intent = some ⟨c.request.token,if c.request.draining then .active else .canceling⟩
  token : s.worker.drain.token = "" ∨ s.worker.drain.token ∈ s.drawn
  canceled : ∀ t ∈ s.canceled, t ∈ s.drawn ∧ ∀ i, s.intent = some i → i.token ≠ t

theorem Wired.flight_of_filter {id} (h : s.Wired) : (∀ r ∈ s.flight.filter (·.id ≠ id),
    r.token ∈ s.drawn ∧ r.id < s.nextId) ∧ ((s.flight.filter (·.id ≠ id)).map (·.id)).Nodup :=
  ⟨fun r hr => h.flight r (mem_of_mem_filter hr), h.ids.sublist (filter_sublist.map _)⟩

theorem answeredCall_request {call id response c} (h : answeredCall call id response = some c) :
    ∃ c', call = some c' ∧ c.request = c'.request ∧
      (c = c' ∨ c'.request.id = id ∧ c.response = some response) := by
  obtain ⟨c',hc,hcall⟩ := map_eq_some_iff.mp h
  split at hcall
  · rename_i hid
    rw [← hcall]
    simp only [Bool.and_eq_true,decide_eq_true_eq] at hid
    exact ⟨c',hc,rfl,.inr ⟨hid.1,rfl⟩⟩
  · exact ⟨c',hc,by rw [hcall],.inl hcall.symm⟩

theorem Wired.answeredCall (h : s.Wired) {id response} (c)
    (hc : answeredCall s.call id response = some c) : c.request.id < s.nextId ∧
      s.intent = some ⟨c.request.token,if c.request.draining then .active else .canceling⟩ := by
  obtain ⟨c',hc',hreq,-⟩ := answeredCall_request hc
  rw [hreq]
  exact h.call c' hc'

theorem wired_start (h : Start s) : s.Wired := by
  obtain ⟨rustAdmission,rfl⟩ := h
  exact ⟨⟨rfl,rfl,rfl⟩,nofun,nofun,nofun,nodup_nil,nofun,.inl rfl,nofun⟩

theorem Wired.step (h : s.Wired) (he : s.Effect e s') : s'.Wired := by
  cases he with
  | loaded | again | submitted | delivered => exact { h with }
  | gaveUp | crashed | ignored | ready => exact { h with call := nofun }
  | prepared hc hi hv hnew =>
    refine { h with
      valid := ?_, intent := ?_, flight := ?_, call := ?_, token := ?_, canceled := ?_ }
    · rintro t (_ | ⟨_,ht⟩)
      · exact hv
      · exact h.valid t ht
    · rintro i ⟨⟩
      exact (.head _)
    · exact fun r hr => ⟨.tail _ (h.flight r hr).1,(h.flight r hr).2⟩
    · intro c hc'
      rw [hc] at hc'
      cases hc'
    · exact h.token.imp_right (mem_cons_of_mem _)
    · rintro t ht
      refine ⟨.tail _ (h.canceled t ht).1,?_⟩
      rintro i ⟨⟩ rfl
      exact hnew (h.canceled _ ht).1
  | @canceling token hc hi =>
    refine { h with intent := ?_, call := ?_, canceled := ?_ }
    · rintro i ⟨⟩
      exact h.intent ⟨token,.active⟩ hi
    · intro c hc'
      rw [hc] at hc'
      cases hc'
    · refine fun t ht => ⟨(h.canceled t ht).1,?_⟩
      rintro i ⟨⟩
      exact (h.canceled t ht).2 ⟨token,.active⟩ hi
  | @posted intent request hc hi hreq =>
    subst hreq
    refine { h with flight := ?_, ids := ?_, call := ?_ }
    · rintro r (_ | ⟨_,hr⟩)
      · exact ⟨h.intent _ hi,Nat.lt_succ_self _⟩
      · exact ⟨(h.flight r hr).1,Nat.lt_succ_of_lt (h.flight r hr).2⟩
    · refine nodup_cons.mpr ⟨fun hmem => ?_,h.ids⟩
      obtain ⟨r,hr,hid⟩ := mem_map.mp hmem
      exact absurd (hid ▸ (h.flight r hr).2) (Nat.lt_irrefl _)
    · rintro c ⟨⟩
      refine ⟨Nat.lt_succ_self _,?_⟩
      obtain ⟨token,state⟩ := intent
      cases state <;> exact hi
  | @retired call response token hc hr hi hack =>
    refine { h with intent := nofun, call := nofun, canceled := ?_ }
    rintro t (_ | ⟨_,ht⟩)
    · exact ⟨h.intent _ hi,nofun⟩
    · exact ⟨(h.canceled t ht).1,nofun⟩
  | forgotten hc =>
    refine { h with intent := nofun, call := ?_, canceled := fun t ht => ⟨(h.canceled t ht).1,nofun⟩ }
    intro c hc'
    rw [hc] at hc'
    cases hc'
  | dropped => exact { h with flight := h.flight_of_filter.1, ids := h.flight_of_filter.2 }
  | refused => exact { h with
      flight := h.flight_of_filter.1, ids := h.flight_of_filter.2, call := h.answeredCall }
  | @executed id request change worker hmem hid hs hconf hw =>
    subst hw
    obtain ⟨hg,-,ht⟩ := h.gated.configured hconf
    refine { h with
      gated := ⟨hg.row,hg.gate,hg.drain⟩
      flight := h.flight_of_filter.1
      ids := h.flight_of_filter.2
      token := .inr ?_ }
    exact ht ▸ (h.flight request hmem).1
  | worked hwork =>
    refine { h with gated := h.gated.step hwork, token := ?_ }
    rw [(step_same h.gated hwork).1]
    exact h.token
  | @sampled builds sample hs hr =>
    obtain ⟨hg,-,ht⟩ := h.gated.finishSample sample builds
    exact { h with gated := hg, token := ht ▸ h.token }
  | @replied builds id sample hs hr =>
    obtain ⟨hg,-,ht⟩ := h.gated.finishSample sample builds
    exact { h with gated := hg, token := ht ▸ h.token, call := h.answeredCall }

/-- No drain request is executed after a cancellation with its token or once its intent is gone; an
intent is canceled only after the worker executed one of its drain requests. -/
def timely (s : System) : Event → Bool
  | .execute id => s.flight.all fun r => r.id ≠ id || !r.draining ||
      (s.intent.any (·.token = r.token) &&
        (s.worker.drain.draining || s.worker.drain.token ≠ r.token))
  | .beginDrainCancellation => s.intent.all (·.token = s.worker.drain.token)
  | _ => true

def Timely (s : System) (e : Event) : Prop := s.timely e = true

instance (s : System) (e : Event) : Decidable (s.Timely e) := inferInstanceAs (Decidable (_ = true))

/-- The worker last saw a canceling intent's token, is open once it is acknowledged, and is not
closed under a token retired by cancellation. -/
structure Converging (s : System) : Prop where
  canceling : ∀ t, s.intent = some ⟨t,.canceling⟩ → s.worker.drain.token = t
  acknowledged : ∀ c r t, s.call = some c → c.response = some r →
    s.intent = some ⟨t,.canceling⟩ → r.acknowledges t false = true → s.worker.drain.draining = false
  retired : ∀ t ∈ s.canceled, s.worker.closedUnder t = false

theorem converging_start (h : Start s) : s.Converging := by
  obtain ⟨rustAdmission,rfl⟩ := h
  exact ⟨nofun,nofun,nofun⟩

theorem closedUnder_of_open {w : Worker} (hg : w.Gated) (hd : w.drain.draining = false) (t) :
    w.closedUnder t = false := by
  rw [closedUnder,hg.gate,hd]
  rfl

theorem closedUnder_of_token {w : Worker} {t} (ht : w.drain.token ≠ t) : w.closedUnder t = false := by
  simp [closedUnder,ht]

theorem Converging.of_same {w} (hw : s.Wired) (h : s.Converging) (hg : w.Gated)
    (hd : w.drain.draining = s.worker.drain.draining) (ht : w.drain.token = s.worker.drain.token) :
    Converging { s with worker := w } := by
  refine ⟨fun t hi => ht.trans (h.canceling t hi),fun c r t hc hr hi hack => ?_,fun t hmem => ?_⟩
  · exact hd.trans (h.acknowledged c r t hc hr hi hack)
  · rw [← h.retired t hmem,closedUnder,closedUnder,ht,hg.gate,hw.gated.gate,hd]

variable {request : DrainRequest}

theorem Converging.executed {change} (hw : s.Wired) (h : s.Converging)
    (hmem : request ∈ s.flight) (hok : s.Timely (.execute request.id))
    (hconf : s.worker.drain.configure request.token request.draining = .ok change) :
    Converging { s with worker := change.elim s.worker s.worker.setDrain } := by
  obtain ⟨hg,hd,ht⟩ := hw.gated.configured hconf
  cases hdir : request.draining with
  | false =>
    rw [hdir] at hd hconf
    have hold := (configure_ok hconf).2 rfl
    exact ⟨fun t hi => (ht.trans hold.symm).trans (h.canceling t hi),fun _ _ _ _ _ _ _ => hd,
      fun t _ => closedUnder_of_open hg hd t⟩
  | true =>
    obtain ⟨hint,hlate⟩ : s.intent.any (·.token = request.token) = true ∧
        (s.worker.drain.draining = true ∨ s.worker.drain.token ≠ request.token) := by
      have := all_eq_true.mp hok request hmem
      simpa [hdir] using this
    obtain ⟨i,hi,htoken⟩ : ∃ i, s.intent = some i ∧ i.token = request.token := by
      cases hi : s.intent with
      | none => simp [hi] at hint
      | some i => exact ⟨i,rfl,by simpa [hi] using hint⟩
    refine ⟨fun t hcan => ?_,fun c r t hc hr hcan hack => ?_,fun t hmem => ?_⟩
    · cases hi.symm.trans hcan
      exact ht.trans htoken.symm
    · cases hi.symm.trans hcan
      have hopen := h.acknowledged c r t hc hr hcan hack
      have hseen := h.canceling t hcan
      rcases hlate with hlate | hlate
      · rw [hopen] at hlate
        cases hlate
      · exact absurd (hseen.trans htoken) hlate
    · refine closedUnder_of_token fun h' => (hw.canceled t hmem).2 i hi ?_
      rw [htoken,← ht,h']

theorem Converging.step (hw : s.Wired) (h : s.Converging) (hok : s.Timely e) (he : s.Effect e s') :
    s'.Converging := by
  cases he with
  | loaded | again | submitted | delivered | dropped => exact { h with }
  | gaveUp | crashed | ignored | ready => exact { h with acknowledged := nofun }
  | prepared | forgotten => exact ⟨nofun,nofun,h.retired⟩
  | @canceling token hc hi =>
    have hseen : token = s.worker.drain.token := by
      have : s.intent.all (·.token = s.worker.drain.token) = true := hok
      simpa [hi] using this
    refine ⟨?_,fun c r t hc' => ?_,h.retired⟩
    · rintro t ⟨⟩
      exact hseen.symm
    · rw [hc] at hc'
      cases hc'
  | posted => exact { h with acknowledged := by rintro c r t ⟨⟩ ⟨⟩ }
  | @retired call response token hc hr hi hack =>
    refine ⟨nofun,nofun,?_⟩
    rintro t (_ | ⟨_,ht⟩)
    · exact closedUnder_of_open hw.gated (h.acknowledged call response token hc hr hi hack) token
    · exact h.retired t ht
  | refused =>
    refine { h with acknowledged := fun c r t hc hr hi hack => ?_ }
    obtain ⟨c',hc',-,rfl | ⟨-,herr⟩⟩ := answeredCall_request hc
    · exact h.acknowledged c r t hc' hr hi hack
    · cases herr.symm.trans hr
      cases hack
  | @executed id request change worker hmem hid hs hconf hwor =>
    subst hwor hid
    have h' := h.executed hw hmem hok hconf
    exact ⟨h'.canceling,h'.acknowledged,h'.retired⟩
  | worked hwork =>
    have hd := (step_same hw.gated hwork).1
    exact h.of_same hw (hw.gated.step hwork) (by rw [hd]) (by rw [hd])
  | @sampled builds sample hs hr =>
    obtain ⟨hg,hd,ht⟩ := hw.gated.finishSample sample builds
    have h' := h.of_same hw hg hd ht
    exact ⟨h'.canceling,h'.acknowledged,h'.retired⟩
  | @replied builds id sample hs hr =>
    obtain ⟨hg,hd,ht⟩ := hw.gated.finishSample sample builds
    have h' := h.of_same hw hg hd ht
    refine ⟨h'.canceling,fun c r t hc hr hi hack => ?_,h'.retired⟩
    obtain ⟨c',hc',-,rfl | ⟨-,hreply⟩⟩ := answeredCall_request hc
    · exact h'.acknowledged c r t hc' hr hi hack
    cases hreply.symm.trans hr
    simp only [Response.acknowledges,Bool.and_eq_true,decide_eq_true_eq] at hack
    exact hack.1.2

def executed (s : System) (id : Nat) : List Event :=
  (if s.worker.sample.isSome then [.work .abortSample] else []) ++
    [.execute id,.work (.beginSample (some id)),.finishSample 0,.answer]

def cycle (s : System) : List Event := .giveUp :: .post :: s.executed s.nextId

theorem find?_flight (h : (s.flight.map (·.id)).Nodup) (hmem : request ∈ s.flight) :
    s.flight.find? (·.id = request.id) = some request := by
  obtain ⟨r,hr⟩ : ∃ r, s.flight.find? (·.id = request.id) = some r :=
    isSome_iff_exists.mp (find?_isSome.mpr ⟨request,hmem,by simp⟩)
  have hid : r.id = request.id := by simpa using find?_some hr
  rw [hr,inj_on_of_nodup_map h (mem_of_find?_eq_some hr) hmem hid]

theorem run_sampled {id token} (hg : s.worker.Gated) (hd : s.worker.drain.draining = false)
    (ht : s.worker.drain.token = token) (hs : s.worker.sample = none) (hh : id ∈ s.worker.handled)
    (hc : s.call = some { request }) (hid : request.id = id) (hi : s.intent = some ⟨token,.canceling⟩) :
    ∃ s', run step s [.work (.beginSample (some id)),.finishSample 0,.answer] = some s' ∧
      s'.intent = none ∧ token ∈ s'.canceled := by
  obtain ⟨sample,hbegin,hreply⟩ : ∃ sample : Sample,
      s.worker.beginSample (some id) = some { s.worker with sample := some sample } ∧
        sample.reply = some id := by
    rw [Worker.beginSample,if_pos (by simpa [hs] using hh)]
    exact ⟨_,rfl,rfl⟩
  obtain ⟨hg',hd',ht'⟩ := Worker.Gated.finishSample (w := { s.worker with sample := some sample })
    ⟨hg.row,hg.gate,hg.drain⟩ sample 0
  have hack : (Response.drain ({ s.worker with sample := some sample }.finishSample sample 0).drain
      ).acknowledges token false = true := by
    simp [Response.acknowledges,hg'.drain,hd',ht',hd,ht]
  simp only [run,step,Worker.step,hbegin,map_some,bind_some,finishSample,hreply,
    respond,hc,answeredCall,hid,decide_true,isNone_none,Bool.and_self,if_true,answered,
    hi,hack]
  exact ⟨_,rfl,rfl,(.head _)⟩

theorem retires_of_call (hw : s.Wired) (hs : s.worker.sample = none) (hmem : request ∈ s.flight)
    (hc : s.call = some { request }) (hi : s.intent = some ⟨request.token,.canceling⟩)
    (hdir : request.draining = false) (hseen : s.worker.drain.token = request.token) :
    ∃ s', run step s [.execute request.id,.work (.beginSample (some request.id)),.finishSample 0,
      .answer] = some s' ∧ s'.intent = none ∧ request.token ∈ s'.canceled := by
  obtain ⟨change,hconf⟩ :=
    configure_cancel (hw.valid _ (hw.flight request hmem).1) hseen
  obtain ⟨hg,hd,ht⟩ := hw.gated.configured hconf
  have hstep : s.step (.execute request.id) = some { s with
      flight := s.flight.filter (·.id ≠ request.id)
      worker := { change.elim s.worker s.worker.setDrain with
        handled := request.id :: (change.elim s.worker s.worker.setDrain).handled } } := by
    simp only [step,execute,find?_flight hw.ids hmem,hs,hdir,hconf,isSome_none,
      Bool.false_eq_true,if_false]
  rw [run,hstep]
  refine run_sampled ⟨hg.row,hg.gate,hg.drain⟩ hd ht ?_ mem_cons_self hc rfl hi
  cases change with
  | none | some => exact hs

theorem retires_of_awaited (hw : s.Wired) (hmem : request ∈ s.flight)
    (hc : s.call = some { request }) (hi : s.intent = some ⟨request.token,.canceling⟩)
    (hdir : request.draining = false) (hseen : s.worker.drain.token = request.token) :
    ∃ s', run step s (s.executed request.id) = some s' ∧ s'.intent = none ∧
      request.token ∈ s'.canceled := by
  unfold executed
  cases hs : s.worker.sample with
  | none => exact retires_of_call hw hs hmem hc hi hdir hseen
  | some sample =>
    have hstep : s.step (.work .abortSample) =
        some { s with worker := s.worker.abortSample sample } := by
      simp [step,Worker.step,hs]
    rw [isSome_some,if_pos rfl,cons_append,run,hstep]
    exact retires_of_call (hw.step (effect_of_step hstep)) rfl hmem hc hi hdir hseen

theorem retires_cycle {token} (hw : s.Wired) (h : s.Converging)
    (hi : s.intent = some ⟨token,.canceling⟩) :
    ∃ s', run step s s.cycle = some s' ∧ s'.intent = none ∧ token ∈ s'.canceled := by
  let request : DrainRequest := ⟨s.nextId,token,false⟩
  have hgave : s.step .giveUp = some { s with call := none } := rfl
  have hpost : { s with call := none }.step .post = some (s.posted request) := by
    simp [step,idle,post,posted,hi,request]
  have hw' := (hw.step (effect_of_step hgave)).step (effect_of_step hpost)
  rw [cycle,run,hgave,bind_some,run,hpost]
  have hcanc : s.intent = some ⟨request.token,.canceling⟩ := hi
  exact retires_of_awaited hw' mem_cons_self rfl hcanc rfl (h.canceling token hi)

/-- When drain requests are timely, an executed cancellation lets its intent retire, and a retired
token never closes the worker. -/
theorem drain_handshake_converges (h : Reaches step Timely Start s) :
    (∀ token, s.intent = some ⟨token,.canceling⟩ →
      (∃ s', run step s s.cycle = some s' ∧ s'.intent = none ∧ token ∈ s'.canceled) ∧
      ∀ request ∈ s.flight, s.call = some { request } →
        ∃ s', run step s (s.executed request.id) = some s' ∧ s'.intent = none ∧ token ∈ s'.canceled) ∧
    ∀ token ∈ s.canceled, s.worker.closedUnder token = false := by
  obtain ⟨hw,hc⟩ : s.Wired ∧ s.Converging := by
    refine h.invariant (I := fun s => s.Wired ∧ s.Converging)
      (fun _ hs => ⟨wired_start hs,converging_start hs⟩) ?_
    rintro s e s' ⟨hw,hc⟩ hok hs
    exact ⟨hw.step (effect_of_step hs),hc.step hw hok (effect_of_step hs)⟩
  refine ⟨fun token hi => ⟨retires_cycle hw hc hi,fun request hmem hcall => ?_⟩,hc.retired⟩
  have hpend := hi.symm.trans (hw.call _ hcall).2
  cases hdir : request.draining with
  | true => simp [hdir] at hpend
  | false =>
    obtain rfl : token = request.token := by simpa [hdir] using hpend
    exact retires_of_awaited hw hmem hcall hi hdir (hc.canceling _ hi)

theorem start_fresh : Start { worker := { rustAdmission := true } } := ⟨true,rfl⟩

/-- An executed drain, canceled while a sample is open, and the same drain after the cycle that
retires it. -/
theorem drain_handshake_converges_canceling :
    (∃ s, Reaches step Timely Start s ∧ s.intent = some ⟨"drain-a",.canceling⟩ ∧
      ∃ s', run step s s.cycle = some s' ∧ s'.intent = none ∧ "drain-a" ∈ s'.canceled) ∧
    ∃ s, Reaches step Timely Start s ∧ "drain-a" ∈ s.canceled ∧
      s.worker.closedUnder "drain-a" = false := by
  obtain ⟨s,hs,hi⟩ := Reaches.exists_of_runMeeting step Timely start_fresh
    [.prepareDrainIntent "drain-a",.post,.execute 0,.giveUp,.beginDrainCancellation,
      .work (.beginSample none)] (·.intent = some ⟨"drain-a",.canceling⟩) (by decide +kernel)
  obtain ⟨s',hs',hmem⟩ := Reaches.exists_of_runMeeting step Timely start_fresh
    [.prepareDrainIntent "drain-a",.post,.execute 0,.giveUp,.beginDrainCancellation,.post,
      .execute 1,.work (.beginSample (some 1)),.finishSample 0,.answer] ("drain-a" ∈ ·.canceled)
    (by decide +kernel)
  exact ⟨⟨s,hs,hi,((drain_handshake_converges hs).1 _ hi).1⟩,
    ⟨s',hs',hmem,(drain_handshake_converges hs').2 _ hmem⟩⟩

/-- The worker never saw `token`, and no drain request with it is left that could tell it. -/
structure Lost (token : String) (s : System) : Prop where
  drawn : token ∈ s.drawn
  seen : s.worker.drain.token ≠ token
  flight : ∀ r ∈ s.flight, r.token = token → r.draining = false
  intent : s.intent ≠ some ⟨token,.active⟩
  call : ∀ c r, s.call = some c → c.response = some r → r.acknowledges token false = false
  canceled : token ∉ s.canceled

theorem Lost.step {token} (hw : s.Wired) (h : s.Lost token) (he : s.Effect e s') :
    s'.Lost token := by
  cases he with
  | loaded | again | submitted | delivered => exact { h with }
  | gaveUp | crashed | ignored | ready => exact { h with call := nofun }
  | dropped => exact { h with flight := fun r hr => h.flight r (mem_of_mem_filter hr) }
  | forgotten | canceling => exact { h with intent := nofun }
  | prepared hc hi hv hnew =>
    refine { h with drawn := .tail _ h.drawn, intent := ?_ }
    rintro ⟨⟩
    exact hnew h.drawn
  | @posted intent request hc hi hreq =>
    subst hreq
    refine { h with flight := ?_, call := by rintro c r ⟨⟩ ⟨⟩ }
    rintro r (_ | ⟨_,hr⟩)
    · intro htoken
      refine decide_eq_false fun hact => h.intent ?_
      rw [hi,← htoken,← hact]
    · exact h.flight r hr
  | @retired call response t hc hr hi hack =>
    refine { h with intent := nofun, call := nofun, canceled := ?_ }
    rintro (_ | ⟨_,hmem⟩)
    · rw [h.call call response hc hr] at hack
      cases hack
    · exact h.canceled hmem
  | refused =>
    refine { h with
      flight := fun r hr => h.flight r (mem_of_mem_filter hr), call := fun c r hc hr => ?_ }
    obtain ⟨c',hc',-,rfl | ⟨-,herr⟩⟩ := answeredCall_request hc
    · exact h.call c r hc' hr
    · cases herr.symm.trans hr
      rfl
  | @executed id request change worker hmem hid hs hconf hwor =>
    subst hwor
    refine { h with
      flight := fun r hr => h.flight r (mem_of_mem_filter hr), seen := fun htoken => ?_ }
    have htoken : request.token = token := (hw.gated.configured hconf).2.2.symm.trans htoken
    have hold := (configure_ok hconf).2 (h.flight request hmem htoken)
    exact h.seen (hold.trans htoken)
  | worked hwork =>
    have hd := (step_same hw.gated hwork).1
    exact { h with seen := by rw [hd]; exact h.seen }
  | @sampled builds sample hs hr =>
    have ht := (hw.gated.finishSample sample builds).2.2
    exact { h with seen := by rw [ht]; exact h.seen }
  | @replied builds id sample hs hr =>
    have ht := (hw.gated.finishSample sample builds).2.2
    refine { h with seen := by rw [ht]; exact h.seen, call := fun c r hc hr => ?_ }
    obtain ⟨c',hc',-,rfl | ⟨-,hreply⟩⟩ := answeredCall_request hc
    · exact h.call c r hc' hr
    · cases hreply.symm.trans hr
      simp [Response.acknowledges,ht,h.seen]

/-- The drain request was lost, and the worker has refused the cancellation. -/
def lostDrain : System where
  worker := { rustAdmission := true }
  intent := some ⟨"drain-a",.canceling⟩
  call := some ⟨⟨1,"drain-a",false⟩,some .error⟩
  nextId := 2
  drawn := ["drain-a"]

/-- After a lost drain request no run retires the canceling intent, and one executed after the
cancellation closes the worker under the retired token. -/
theorem untimely_drain_diverges : (Reaches step anyEvent Start lostDrain ∧
      ∀ es s', run step lostDrain es = some s' → "drain-a" ∉ s'.canceled) ∧
    ∃ s, Reaches step anyEvent Start s ∧ "drain-a" ∈ s.canceled ∧ s.intent = none ∧
      s.worker.closedUnder "drain-a" = true := by
  have hlost : run step { worker := { rustAdmission := true } }
      [.prepareDrainIntent "drain-a",.post,.drop 0,.giveUp,.beginDrainCancellation,.post,
        .execute 1] = some lostDrain := by decide +kernel
  have hreach := Reaches.of_run (.start start_fresh) hlost
  refine ⟨⟨hreach,fun es s' hrun => ?_⟩,Reaches.exists_of_run step start_fresh
    [.prepareDrainIntent "drain-a",.post,.giveUp,.post,.execute 1,.giveUp,.beginDrainCancellation,
      .post,.execute 2,.work (.beginSample (some 2)),.finishSample 0,.answer,.execute 0] _
    (by decide +kernel)⟩
  have hw : lostDrain.Wired := hreach.invariant (fun _ => wired_start)
    fun _ _ _ hw _ hs => hw.step (effect_of_step hs)
  have hs' : Reaches step anyEvent (· = lostDrain) s' := .of_run (.start rfl) hrun
  refine (hs'.keeps (I := fun s : System => s.Wired ∧ s.Lost "drain-a") ?_ ?_).2.canceled
  · refine ⟨hw,by decide,by decide,nofun,by decide,?_,by decide⟩
    rintro c r ⟨⟩ ⟨⟩
    rfl
  · rintro s e s' ⟨hw,hl⟩ - hs
    exact ⟨hw.step (effect_of_step hs),hl.step hw (effect_of_step hs)⟩

end System
end UCloudSandboxes.Drain
