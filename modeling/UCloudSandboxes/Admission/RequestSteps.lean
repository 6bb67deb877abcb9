import UCloudSandboxes.Admission.Requests

/-! What one lock section of a request, a token or a pool can do, as a step of the service's state
or none. -/
namespace UCloudSandboxes.Admission
open Machine Option

namespace Service

inductive Effect (config : Config) (s : Service) : Event → Service → Prop
  | begun {id r} (new : id ∉ s.requests) (stage : r.stage = .began)
      (current : s.state.current r.holder true = true) :
      Effect config s (.begin id r.holder r.owner r.work r.deadline) (s.set id r)
  | moved {e id r r'} (found : s.requests.lookup id = some r)
      (same : r.SameAccount r') : Effect config s e (s.set id r')
  | ended {e id r} (found : s.requests.lookup id = some r)
      (stage : r.stage = .began) : Effect config s e (s.remove id)
  | demand {id r quoted quotedAt}
      (found : s.requests.lookup id = some r) (stage : r.stage = .began) :
      Effect config s (.demand id quoted quotedAt) (Service.set { s with state := { s.state with
        ledger := (s.state.ledger.wait r.owner (r.work.cost r.owner quoted quotedAt)).1 } } id
        (r.demanded (s.state.ledger.next + 1)))
  | entered {id r p demand}
      (found : s.requests.lookup id = some r) (stage : r.stage = .entering demand)
      (pool : r.work.pool = some p) :
      Effect config s (.enter id) ((s.withPool p ((s.pools p).enter 1 (some r.owner) true).1).set id
        (r.entered demand ((s.pools p).enter 1 (some r.owner) true).2))
  | finished {id r p demand ticket}
      (found : s.requests.lookup id = some r) (stage : r.stage = .queued demand ticket)
      (pool : r.work.pool = some p) :
      Effect config s (.finish id) ((s.withPool p ((s.pools p).finish ticket).1).set id
        (if ((s.pools p).finish ticket).2 then r.seated demand else { r with stage := .leaving demand }))
  | dropped {id r p demand ticket}
      (found : s.requests.lookup id = some r) (stage : r.stage = .queued demand ticket)
      (pool : r.work.pool = some p) :
      Effect config s (.drop id) ((s.withPool p ((s.pools p).drop ticket)).set id
        { r with stage := .leaving demand })
  | returned {id r p demand}
      (found : s.requests.lookup id = some r) (stage : r.stage = .returning demand)
      (pool : r.work.pool = some p) :
      Effect config s (.returnSlot id) ((s.withPool p ((s.pools p).release 1)).set id
        { r with stage := .leaving demand })
  | withdrawn {id r demand}
      (found : s.requests.lookup id = some r) (stage : r.stage = .leaving demand) :
      Effect config s (.withdraw id) (Service.remove { s with state := { s.state with
        ledger := s.state.ledger.unwait demand } } id)
  | passed {id p r r' demand error}
      (found : s.requests.lookup id = some r) (fresh : p.token ∉ s.state.held)
      (refused : (r.pass demand config s.state error p).2 ≠ some .grant) (same : r.SameAccount r') :
      Effect config s (.pass id p) (Service.set { s with state :=
        (r.pass demand config s.state error p).1 } id r')
  | granted {id p r demand error}
      (found : s.requests.lookup id = some r) (stage : r.stage = .sampling demand error)
      (fresh : p.token ∉ s.state.held)
      (granted : (r.pass demand config s.state error p).2 = some .grant) :
      Effect config s (.pass id p) (Service.remove { s with state :=
        (r.pass demand config s.state error p).1 } id)
  | observed {token} {holder : Holder} {owner cost}
      (fresh : token ∉ s.state.held) (current : s.state.current holder false = true) :
      Effect config s (.observe token holder owner cost)
        { s with state := s.state.hold token holder owner cost none none none }
  | published {token} {holder : Holder} {owner state}
      (fresh : token ∉ s.state.held)
      (acquired : ((s.pools .publication).enter 1 (some owner) false).2 = .ok .granted)
      (step : Admission.step config s.state (.publication token holder owner) = some state) :
      Effect config s (.publication token holder owner)
        { s.withPool .publication ((s.pools .publication).enter 1 (some owner) false).1 with state }
  | released {token} {holder : Holder} {held : Held}
      (found : s.state.held.lookup token = some held) (holds : held.holder = holder) :
      Effect config s (.release token holder) (s.dropHeld ⟨token,held⟩)
  | unknown {token} {holder : Holder} : Effect config s (.release token holder) s
  | hello {session reassert} :
      Effect config s (.hello session reassert) (s.hello session reassert)
  | cancelled {p owner} :
      Effect config s (.cancelWaiters p owner) (s.withPool p ((s.pools p).cancelWaiters owner))
  | closed : Effect config s .close { s with state := { s.state with admissionOpen := false } }
  | opened : Effect config s .openAdmission { s with state := { s.state with admissionOpen := true } }
  | recovered : Effect config s .endRecovery { s with state := { s.state with recovering := false } }
  | background {e state} (background : e.background = true)
      (step : Admission.step config s.state e = some state) :
      Effect config s (.detached e) { s with state }
  | settled {demand obs now state}
      (step : Admission.step config s.state (.settle demand obs now) = some state) :
      Effect config s (.detached (.settle demand obs now)) { s with state }

open InProgress

theorem effect_of_requestStep {config s s' id r e} (hid : s.requests.lookup id = some r)
    (he : e.request = some id) (hs : requestStep config s id r e = some s') : Effect config s e s' := by
  unfold requestStep at hs
  cases e with
  | covered =>
    simp only [ite_none_right_eq_some,some.injEq,Bool.and_eq_true, decide_eq_true_eq] at hs
    obtain ⟨⟨hstage,-⟩,rfl⟩ := hs
    exact .ended hid hstage
  | demand =>
    cases he
    dsimp only at hs
    split at hs
    · rename_i hstage
      cases hs
      exact .demand hid hstage
    · cases hs
  | checkOpen =>
    dsimp only at hs
    split at hs
    · rename_i demand hstage
      cases hs
      refine .moved hid (.of (account_entering (.inl hstage)) ?_)
      split
      · exact account_entering (.inr rfl)
      · exact account_leaving rfl
    · rename_i demand hstage
      cases hs
      refine .moved hid (.of (account_admitting (.inl hstage)) ?_)
      split
      · exact account_admitting (.inr (.inl ⟨none,rfl⟩))
      · exact account_admitting (.inr (.inr (.inr rfl)))
    · cases hs
  | enter =>
    cases he
    dsimp only at hs
    split at hs
    · rename_i demand p hstage hpool
      cases hs
      exact .entered hid hstage hpool
    · cases hs
  | finish =>
    cases he
    dsimp only at hs
    split at hs
    · rename_i demand ticket p hstage hpool
      cases hs
      exact .finished hid hstage hpool
    · cases hs
  | gate =>
    dsimp only at hs
    split at hs
    · rename_i demand error hstage
      cases hs
      refine .moved hid (.of (account_admitting (.inr (.inl ⟨error,hstage⟩))) ?_)
      split
      · exact account_admitting (.inr (.inr (.inl ⟨error,rfl⟩)))
      · exact account_giveUp ..
    · cases hs
  | pass =>
    cases he
    dsimp only at hs
    split at hs
    · rename_i demand error hstage
      obtain ⟨hfresh,hs⟩ := of_guard hs nofun
      have hacc := account_admitting (.inr (.inr (.inl ⟨error,hstage⟩)))
      cases hs
      split
      · exact .granted hid hstage hfresh (by assumption)
      · rename_i reason seconds hwait
        exact .passed hid hfresh (by rw [hwait]; simp)
          (.of hacc (account_admitting (.inr (.inl ⟨some reason,rfl⟩))))
      · rename_i hgrant _
        exact .passed hid hfresh (fun h => hgrant h) (.of hacc (account_giveUp ..))
    · cases hs
  | drop =>
    cases he
    dsimp only at hs
    split at hs
    · rename_i hstage
      cases hs
      exact .ended hid hstage
    · rename_i demand ticket p hstage hpool
      cases hs
      exact .dropped hid hstage hpool
    · rename_i demand error hstage
      cases hs
      exact .moved hid (.of (account_admitting (.inr (.inl ⟨error,hstage⟩))) (account_giveUp ..))
    · rename_i demand error hstage
      cases hs
      exact .moved hid (.of (account_admitting (.inr (.inr (.inl ⟨error,hstage⟩)))) (account_giveUp ..))
    · cases hs
  | returnSlot =>
    cases he
    dsimp only at hs
    split at hs
    · rename_i demand p hstage hpool
      cases hs
      exact .returned hid hstage hpool
    · cases hs
  | withdraw =>
    cases he
    dsimp only at hs
    split at hs
    · rename_i demand hstage
      cases hs
      exact .withdrawn hid hstage
    · cases hs
  | _ => cases hs

theorem effect_of_step {config s s' e} (hs : step config s e = some s') : Effect config s e s' := by
  have hreq : (e.request.bind fun id => (s.requests.lookup id).bind fun r =>
      requestStep config s id r e) = some s' → Effect config s e s' := by
    intro hs
    obtain ⟨id,hid,hs⟩ := bind_eq_some_iff.mp hs
    obtain ⟨r,hr,hs⟩ := bind_eq_some_iff.mp hs
    exact effect_of_requestStep hr hid hs
  cases e with
  | begin id holder owner work deadline =>
    simp only [step,ite_none_right_eq_some,some.injEq,Bool.and_eq_true, isNone_iff_eq_none] at hs
    obtain ⟨⟨hcur,hnew⟩,rfl⟩ := hs
    exact .begun (r := { holder, owner, work, deadline }) (AList.lookup_eq_none.mp hnew) rfl hcur
  | observe =>
    simp only [step,ite_none_left_eq_some,map_eq_some_iff] at hs
    obtain ⟨hfresh,state,hstate,rfl⟩ := hs
    obtain ⟨hcur,rfl⟩ := some_of_check hstate
    exact .observed hfresh hcur
  | publication =>
    simp only [step,ite_none_left_eq_some,map_eq_some_iff] at hs
    obtain ⟨hfresh,hacq,state,hstate,rfl⟩ := hs
    unfold tryAcquire at hacq ⊢
    dsimp only at hacq ⊢
    split at hacq
    · rename_i hgr
      exact .published hfresh hgr hstate
    · simp at hacq
  | release =>
    cases hs
    unfold release
    split
    · rename_i held hheld
      split
      · exact .released hheld (by assumption)
      · exact .unknown
    · exact .unknown
  | hello =>
    cases hs
    exact .hello
  | cancelWaiters =>
    exact (some_of_guard hs).2 ▸ .cancelled
  | close =>
    cases hs
    exact .closed
  | openAdmission =>
    cases hs
    exact .opened
  | endRecovery =>
    cases hs
    exact .recovered
  | detached e =>
    simp only [step,ite_none_right_eq_some,map_eq_some_iff] at hs
    obtain ⟨hdet,state,hstate,rfl⟩ := hs
    cases e with
    | settle => exact .settled hstate
    | forecasts | residentPass | record | forget | answer | publish => exact .background rfl hstate
    | _ => simp [Admission.Event.background] at hdet
  | _ => exact hreq hs

inductive Lower (s : Service) : Event → Admission.Event → Prop
  | demand {id quoted quotedAt owner cost} :
      Lower s (.demand id quoted quotedAt) (.demand owner cost)
  | withdraw {id demand} : Lower s (.withdraw id) (.withdraw demand)
  | pass {id p r demand error}
      (found : s.requests.lookup id = some r) :
      Lower s (.pass id p) (.pass (r.attempt demand error p) p.metrics p.obs p.refreshNow p.now)
  | observe {token} {holder : Holder} {owner cost} :
      Lower s (.observe token holder owner cost) (.observe token holder owner cost)
  | publication {token} {holder : Holder} {owner} :
      Lower s (.publication token holder owner) (.publication token holder owner)
  | release {token} {holder : Holder} : Lower s (.release token holder) (.release token holder)
  | hello {session reassert items}
      (same : items.map (·.1) = reassert) : Lower s (.hello session reassert) (.hello session items)
  | close : Lower s .close (.setOpen false)
  | openAdmission : Lower s .openAdmission (.setOpen true)
  | endRecovery : Lower s .endRecovery .endRecovery
  | background {e} (background : e.background = true) : Lower s (.detached e) e
  | settle {demand obs now} :
      Lower s (.detached (.settle demand obs now)) (.settle demand obs now)

theorem state_dropHeld (s : Service) (entry) : (s.dropHeld entry).state = s.state.dropHeld entry := by
  unfold dropHeld
  split <;> rfl

theorem state_foldl_accept (session reassert) (s : Service) :
    ∃ items : List (Reassert × Option Pool), items.map (·.1) = reassert ∧
      (reassert.foldl (fun s item => s.accept session item) s).state =
        items.foldl (fun s item => s.accept session item.1 item.2) s.state := by
  induction reassert generalizing s with
  | nil => exact ⟨[],rfl,rfl⟩
  | cons item reassert ih =>
    obtain ⟨slot,hslot⟩ : ∃ slot, (s.accept session item).state = s.state.accept session item slot := by
      unfold accept
      split
      · rename_i hheld
        exact ⟨none,by rw [State.accept,if_pos hheld]⟩
      · exact ⟨_,rfl⟩
    obtain ⟨items,hitems,hstate⟩ := ih (s.accept session item)
    refine ⟨(item,slot) :: items,by rw [List.map_cons,hitems],?_⟩
    rw [List.foldl_cons,hstate,hslot,List.foldl_cons]

theorem state_hello (s : Service) (session) (reassert) :
    ∃ items : List (Reassert × Option Pool), items.map (·.1) = reassert ∧
      (s.hello session reassert).state = s.state.hello session items := by
  let dropped := (s.state.stale session).foldl dropHeld s
  have hdro : dropped.state = (s.state.stale session).foldl State.dropHeld s.state :=
    (List.foldl_hom _ fun _ _ => (state_dropHeld ..).symm).symm
  obtain ⟨items,hitems,hstate⟩ := state_foldl_accept session reassert
    { dropped with state := { dropped.state with agentSession := some session } }
  refine ⟨items,hitems,?_⟩
  unfold hello State.hello
  dsimp only
  rw [hstate,hdro]

theorem lower_of_effect {config s s' e} (h : Effect config s e s') : s'.state = s.state ∨
      ∃ e', Lower s e e' ∧ e'.Fresh s.state ∧ Admission.step config s.state e' = some s'.state := by
  have htoken : ∀ {r : InProgress} {demand error} {p : Pass}, p.token ∉ s.state.held →
      Admission.Event.Fresh s.state
        (.pass (r.attempt demand error p) p.metrics p.obs p.refreshNow p.now) := by
    intro r demand error p hfresh token requested slot hgrant
    unfold InProgress.attempt Work.grant at hgrant
    split at hgrant <;> cases hgrant <;> exact hfresh
  cases h with
  | begun | moved | ended | entered | finished | dropped | returned | unknown | cancelled => exact .inl rfl
  | demand => exact .inr ⟨_,.demand,trivial,rfl⟩
  | withdrawn => exact .inr ⟨_,.withdraw,trivial,rfl⟩
  | passed hid hfresh | granted hid _ hfresh => exact .inr ⟨_,.pass hid,htoken hfresh,rfl⟩
  | observed hfresh hcur => exact .inr ⟨_,.observe,hfresh,by simp [Admission.step,hcur]⟩
  | published hfresh _ hstate => exact .inr ⟨_,.publication,hfresh,hstate⟩
  | released hheld hhol =>
    exact .inr ⟨_,.release,trivial,by simp [Admission.step,hheld,hhol,state_dropHeld]⟩
  | hello =>
    obtain ⟨items,hitems,hstate⟩ := state_hello s _ _
    exact .inr ⟨_,.hello hitems,trivial,by rw [hstate]; rfl⟩
  | closed => exact .inr ⟨_,.close,trivial,rfl⟩
  | opened => exact .inr ⟨_,.openAdmission,trivial,rfl⟩
  | recovered => exact .inr ⟨_,.endRecovery,trivial,rfl⟩
  | background hbg hstate =>
    exact .inr ⟨_,.background hbg,Admission.Event.fresh_of_background _ hbg,hstate⟩
  | settled hstate => exact .inr ⟨_,.settle,trivial,hstate⟩

end Service

end UCloudSandboxes.Admission
