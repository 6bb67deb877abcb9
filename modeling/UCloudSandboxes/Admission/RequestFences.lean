import UCloudSandboxes.Admission.Custody
import UCloudSandboxes.Admission.RequestSteps

namespace UCloudSandboxes.Admission
open Machine List Option

namespace Service

variable {capacity : Pool → Nat} {config : Config} {s s' : Service}

namespace Custody

section
variable (h : s.Custody capacity)
include h

theorem accept (session item) : Custody capacity (s.accept session item) := by
  unfold Service.accept
  split
  · exact h
  rename_i hfresh
  have hhold : ∀ slot, s.state.accept session item slot =
      s.state.hold item.token (.agent session) item.owner item.cost item.requested none slot :=
    fun slot => if_neg hfresh
  unfold tryAcquire
  split
  · simp only [hhold]
    exact h.held hfresh ..
  · dsimp only
    split
    · rename_i hgr
      simp only [hhold]
      exact h.heldSlot hfresh _ _ _ _ hgr
    · simp only [hhold]
      exact h.held hfresh ..

theorem hello (session) (reassert) : Custody capacity (s.hello session reassert) := by
  let dropped := (s.state.stale session).foldl Service.dropHeld s
  have hdro : Custody capacity dropped :=
    State.foldl_stale Service.state state_dropHeld (fun _ _ hheld h => h.dropHeld hheld) h session
  have hgre : Custody capacity
      { dropped with state := { dropped.state with agentSession := some session } } :=
    hdro.keep (.refl _) rfl rfl
  have hacc : Custody capacity (reassert.foldl (fun s item => s.accept session item) _) :=
    List.foldlRecOn reassert _ hgre fun _ h item _ => h.accept session item
  exact hacc.keep (.refl _) rfl rfl

theorem granted {id r demand error p} (hid : s.requests.lookup id = some r)
    (hstage : r.stage = .sampling demand error) (hfresh : p.token ∉ s.state.held)
    (hgrant : (r.pass demand config s.state error p).2 = some .grant)
    : Custody capacity (Service.remove { s with state :=
        (r.pass demand config s.state error p).1 } id) := by
  have hsame := State.same_refreshed config s.state (r.attempt demand error p) p.metrics p.obs p.refreshNow
  obtain ⟨hdem,htk,hslot⟩ := InProgress.account_admitting (.inr (.inr (.inl ⟨error,hstage⟩)))
  obtain ⟨hrefd,-⟩ | ⟨-,-,-,hstate⟩ :=
    State.pass_spec config s.state (r.attempt demand error p) p.metrics p.obs p.refreshNow p.now
  · exact absurd hgrant hrefd
  rw [InProgress.pass,hstate]
  have hkept := h.same hsame
  cases hwork : r.work with
  | startup requested | restore requested =>
    have hgrant' : (r.attempt demand error p).grant = .hold p.token requested r.slot := by
      simp [InProgress.attempt,Work.grant,Work.pool,hwork,hslot]
    rw [State.granted_hold hgrant']
    exact hkept.handedOver hid hdem htk (hsame.held ▸ hfresh) ..
  | growth =>
    have hgrant' : (r.attempt demand error p).grant = .growth p.chargedAt := by
      simp [InProgress.attempt,Work.grant,hwork]
    obtain ⟨charged,hchg,hgr⟩ := State.granted_growth _ p.obs hgrant'
    rw [hgr]
    have hnone : r.slot = none := by rw [hslot,hwork]; rfl
    exact (h.same (hsame.trans hchg)).committing hid hdem htk hnone

theorem effect {e} (he : Effect config s e s') : s'.Custody capacity := by
  cases he with
  | begun hnew hstage => exact h.begun hnew hstage
  | moved hid hsame => exact h.moved hid hsame
  | ended hid hstage => exact h.ended hid hstage
  | demand hid hstage =>
    obtain ⟨hdem,htk,hslot⟩ := InProgress.account_demanded _ (s.state.ledger.next + 1)
    exact h.demanded hid hstage hdem htk hslot
  | entered hid hstage hpool => exact h.entered hid hstage hpool
  | finished hid hstage hpool => exact h.finished hid hstage hpool
  | dropped hid hstage hpool => exact h.dropped hid hstage hpool
  | returned hid hstage hpool => exact h.returned hid hstage hpool
  | withdrawn hid hstage => exact h.withdrawn hid hstage
  | passed hid _ hrefd hsame =>
    obtain ⟨-,hkept⟩ | ⟨hgrant,-⟩ := State.pass_spec config s.state _ _ _ _ _
    · exact (h.same hkept).moved hid hsame
    · exact absurd hgrant hrefd
  | granted hid hstage hfresh hgrant => exact h.granted hid hstage hfresh hgrant
  | observed hfresh => exact h.held hfresh ..
  | published hfresh hacq hstate =>
    obtain ⟨-,rfl⟩ := some_of_check hstate
    exact h.heldSlot hfresh _ _ _ _ hacq
  | released hheld => exact h.dropHeld hheld
  | unknown => exact h
  | hello => exact h.hello ..
  | cancelled =>
    exact h.repool h.waits rfl ((h.seats _).cancelWaiters _) fun _ _ => ⟨Perm.refl _,rfl⟩
  | closed | opened | recovered => exact h.keep (.refl _) rfl rfl
  | background hbg hstate => exact h.same (same_step hbg hstate)
  | settled hstate =>
    obtain ⟨hmem,state,hsame,rfl⟩ := settle_spec hstate
    exact (h.same hsame).settled (hsame.growing ▸ hmem)

end

theorem reaches (h : Reaches (step config) anyEvent (Start capacity) s) : s.Custody capacity :=
  h.invariant (fun _ => start) fun _ _ _ hi _ hs => hi.effect (effect_of_step hs)

end Custody

theorem booked_step {e} (h : s.state.Booked) (hs : step config s e = some s') : s'.state.Booked := by
  obtain hstate | ⟨e',-,hfresh,hstep⟩ := lower_of_effect (effect_of_step hs)
  · exact hstate ▸ h
  · exact (turnover_step hfresh hstep).booked h

theorem booked_reaches (h : Reaches (step config) anyEvent (Start capacity) s) : s.state.Booked := by
  refine h.invariant ?_ fun _ _ _ hi _ => booked_step hi
  rintro s ⟨⟨intents,obs,now,isOpen,revision,hstate⟩,-⟩
  have hcl := (Growth.sameBooks_refreshForecasts { intents := intents } {} obs now).claims
  rw [hstate]
  refine ⟨?_,?_,?_⟩ <;> simp [hcl]

def heldUnits (s : Service) (p : Pool) : Nat := (values s.state.held).countP (·.slot == some p)

/-- Units of a pool that requests in progress have: a slot, or a grant they have not looked at. -/
def requestUnits (s : Service) (p : Pool) : Nat :=
  (values s.requests).countP (·.slot == some p) +
    (values s.requests).countP fun r => (r.ticket p).any ((s.pools p).pool.granted.contains ·.id)

/-- A request in progress, the token a request was granted, or a growth commit answers for it. -/
def Live (s : Service) (demand : Nat) : Prop :=
  (∃ r ∈ values s.requests, r.demand = some demand) ∨
    (∃ held ∈ values s.state.held, held.demand = some demand) ∨
      ∃ a ∈ s.state.growing, a.demand = demand

theorem Custody.units (h : s.Custody capacity) (p) :
    (s.pools p).pool.available + s.heldUnits p + s.requestUnits p = capacity p := by
  have hseats := h.seats p
  have hcons := hseats.slots.conserve
  have hslots : s.slots.count p = (values s.requests).countP (·.slot == some p) + s.heldUnits p := by
    rw [slots,count_append,count_filterMap,count_filterMap,heldUnits]
  have htks : (s.pools p).pending.countP ((s.pools p).pool.granted.contains ·.id) =
      (values s.requests).countP fun r => (r.ticket p).any ((s.pools p).pool.granted.contains ·.id) := by
    rw [hseats.pending.countP_eq,tickets,countP_filterMap]
    exact countP_congr fun r _ => by cases r.ticket p <;> simp
  rw [hseats.held] at hcons
  unfold requestUnits
  omega

theorem live_of_mem_demands {demand} (h : demand ∈ s.demands) : s.Live demand := by
  obtain h | h := mem_append.mp h
  · obtain ⟨r,hr,hdem⟩ := mem_filterMap.mp h
    exact .inl ⟨r,hr,hdem⟩
  · obtain h | h := mem_append.mp h
    · obtain ⟨held,hheld,hdem⟩ := mem_filterMap.mp h
      exact .inr (.inl ⟨held,hheld,hdem⟩)
    · obtain ⟨a,ha,hdem⟩ := mem_map.mp h
      exact .inr (.inr ⟨a,ha,hdem⟩)

theorem release_unheld {token holder}
    (h : ∀ held, s.state.held.lookup token = some held → held.holder ≠ holder) :
    s.release token holder = (s,false) := by
  unfold release
  split
  · rename_i held hheld
    rw [if_neg (h held hheld)]
  · rfl

/-- Held tokens and ledger claims are the same claims, the units of every pool add up, every queued
demand is of something live, and a foreign release changes nothing. -/
theorem admission_books_balance (h : Reaches (step config) anyEvent (Start capacity) s) :
    (s.state.ledger.claims.Perm ((values s.state.held).map (·.claim)) ∧ s.state.ledger.claims.Nodup) ∧
      (∀ p, (s.pools p).pool.available + s.heldUnits p + s.requestUnits p = capacity p) ∧
      (∀ w ∈ s.state.ledger.waiting, s.Live w.token) ∧
      (∀ token holder, (∀ held, s.state.held.lookup token = some held → held.holder ≠ holder) →
        s.release token holder = (s,false)) ∧
      ∀ token holder holder', (s.release token holder).2 = true →
        (s.release token holder).1.release token holder' = ((s.release token holder).1,false) := by
  have hboo := booked_reaches h
  have hcus := Custody.reaches h
  refine ⟨⟨hboo.claims,hboo.tokens.of_map _⟩,hcus.units,fun w hw => ?_,
    fun _ _ => release_unheld,fun token holder holder' hrel => ?_⟩
  · exact live_of_mem_demands (hcus.waits.perm.mem_iff.mp (mem_map_of_mem hw))
  · refine release_unheld fun held hheld => ?_
    unfold release at hrel hheld
    split at hheld
    · split at hheld
      · rw [state_dropHeld] at hheld
        exact absurd ((AList.lookup_erase ..).symm.trans hheld) nofun
      · simp_all
    · simp_all

namespace Example
open Admission.Example

def idle : Service := { state := opened, pools := fun _ => { pool := ⟨1,1,[],[],[],0⟩ } }

theorem idle_starts : Start (fun _ => 1) idle := ⟨opened_starts,fun _ => ⟨_,rfl,rfl⟩,rfl⟩

def startup (id : Nat) (holder : Holder) : List Event :=
  [.begin id holder ("new",1) (.startup ⟨1,1024,0⟩ (startupCost .file 1024 false)) 10,
   .demand id observations 0, .checkOpen id, .enter id]

def attempt (id : Nat) (token : String) : List Event :=
  [.checkOpen id, .gate id 1, .pass id ⟨token,some sample,observations,1,1,observations,0,1⟩]

end Example

theorem admission_books_balance_queued : ∃ s, Reaches (step Admission.Example.config) anyEvent
    (Start fun _ => 1) s ∧ s.requestUnits .startup = 1 ∧
      (s.pools .startup).pool.available + s.heldUnits .startup + s.requestUnits .startup = 1 := by
  obtain ⟨s,hs,hunits⟩ := Reaches.exists_of_run (step Admission.Example.config) Example.idle_starts
    ([.endRecovery] ++ Example.startup 0 .noded ++ Example.attempt 0 "a" ++ Example.startup 1 .noded ++
      [.release "a" .noded]) (·.requestUnits .startup = 1) (by decide +kernel)
  exact ⟨s,hs,hunits,(admission_books_balance hs).2.1 .startup⟩

open Admission.Example

variable {e : Event}

/-- Captures are accounted and reasserted claims already run: neither is granted. -/
def Event.accounts : Event → Bool
  | .observe .. | .hello .. => true
  | _ => false

def Hands (s s' : Service) (token : String) (held : Held) : Prop :=
  token ∉ s.state.held ∧ s'.state.held.lookup token = some held

def Starts (s s' : Service) (demand : Nat) : Prop :=
  demand ∉ s.state.growing.map (·.demand) ∧ demand ∈ s'.state.growing.map (·.demand)

theorem handed_of_hands (hs : step config s e = some s') {token held} (h : s.Hands s' token held) :
    ∃ e', Lower s e e' ∧ Handed s.state e' held.holder := by
  obtain hstate | ⟨e',hlower,-,hstep⟩ := lower_of_effect (effect_of_step hs)
  · have hlook : s.state.held.lookup token = some held := hstate ▸ h.2
    exact absurd (AList.lookup_isSome.mp (by rw [hlook]; rfl)) h.1
  · obtain hlook | hhnd := (stepped_of_step hstep).lookup h.2
    · exact absurd (AList.lookup_isSome.mp (by rw [hlook]; rfl)) h.1
    · exact ⟨e',hlower,hhnd⟩

theorem current_of_hands (hs : step config s e = some s') (he : e.accounts = false) {token held}
    (h : s.Hands s' token held) : s.state.current held.holder true = true := by
  obtain ⟨e',hlower,hhnd⟩ := handed_of_hands hs h
  generalize held.holder = holder at hhnd ⊢
  cases hhnd with
  | pass hcur | publication hcur => exact hcur
  | observe =>
    cases hlower with
    | observe => cases he
    | background hbg => cases hbg
  | hello =>
    cases hlower with
    | hello => cases he
    | background hbg => cases hbg

theorem current_of_starts (hs : step config s e = some s') {demand} (h : s.Starts s' demand) :
    ∃ id p r, e = .pass id p ∧ s.requests.lookup id = some r ∧ s.state.current r.holder true = true ∧
      s.state.admissionOpen = true := by
  obtain hstate | ⟨e',hlower,-,hstep⟩ := lower_of_effect (effect_of_step hs)
  · exact absurd (hstate ▸ h.2) h.1
  obtain ⟨a,metrics,obs,refreshNow,now,rfl,hcur,hopen⟩ := (stepped_of_step hstep).growing h.1 h.2
  cases hlower with
  | pass hid => exact ⟨_,_,_,rfl,hid,hcur,hopen⟩
  | background hbg => cases hbg

theorem fenced_effect (h : s.state.Fenced) (hs : step config s e = some s') : s'.state.Fenced := by
  obtain hstate | ⟨e',-,-,hstep⟩ := lower_of_effect (effect_of_step hs)
  · rw [hstate]
    exact h
  · exact fenced_step h hstep

/-- Claims held for an agent are the current session's, and only noded or that session is granted
anything, not while recovering. -/
theorem agent_session_fence (h : Reaches (step config) anyEvent (Start capacity) s) :
    s.state.Fenced ∧ ∀ {e s'}, step config s e = some s' →
      (∀ token held, s.Hands s' token held → e.accounts = false → s.state.recovering = false ∧
        ∀ session, held.holder = .agent session → s.state.agentSession = some session) ∧
      (∀ demand, s.Starts s' demand → ∃ id p r, e = .pass id p ∧ s.requests.lookup id = some r ∧
        s.state.recovering = false ∧
        ∀ session, r.holder = .agent session → s.state.agentSession = some session) ∧
      ∀ session reassert, e = .hello session reassert →
        s'.state.agentSession = some session ∧ s'.state.recovering = false ∧
        ∀ token held other, s'.state.held.lookup token = some held → held.holder = .agent other →
          other = session := by
  have hfen : s.state.Fenced := by
    refine h.invariant ?_ fun _ _ _ hi _ => fenced_effect hi
    rintro s ⟨⟨intents,obs,now,isOpen,revision,hstate⟩,-⟩ token held session hheld
    rw [hstate] at hheld
    cases hheld
  refine ⟨hfen,fun {e s'} hs => ⟨?_,?_,?_⟩⟩
  · intro token held hhands he
    have hcur := current_of_hands hs he hhands
    exact ⟨not_recovering_of_current hcur,
      fun session hhol => agentSession_of_current (hhol ▸ hcur)⟩
  · intro demand hsta
    obtain ⟨id,p,r,he,hid,hcur,-⟩ := current_of_starts hs hsta
    exact ⟨id,p,r,he,hid,not_recovering_of_current hcur,
      fun session hhol => agentSession_of_current (hhol ▸ hcur)⟩
  · rintro session reassert rfl
    obtain ⟨items,-,hstate⟩ := state_hello s session reassert
    obtain rfl := some.inj hs
    have hgates := State.gates_hello s.state session items
    rw [← hstate] at hgates
    simp only [State.gates,Prod.mk.injEq] at hgates
    refine ⟨hgates.1,hgates.2.2,fun token held other hheld hhol => ?_⟩
    have hother := fenced_effect hfen hs hheld hhol
    exact some.inj (hother.symm.trans hgates.1)

/-- A new session's hello drops a token of the old one, and its slot goes to a queued request of the
old session that will not be granted. -/
theorem agent_session_fence_queued : ∃ s, Reaches (step Admission.Example.config) anyEvent
    (Start fun _ => 1) s ∧ s.state.agentSession = some "two" ∧
      (s.requests.lookup 1).any (fun r => r.holder = .agent "one" && r.slot = some .startup) = true ∧
      s.state.Fenced := by
  obtain ⟨s,hs,hnew,hold⟩ := Reaches.exists_of_run (step config) Example.idle_starts
    ([.hello "one" []] ++ Example.startup 0 (.agent "one") ++ Example.attempt 0 "a" ++
      Example.startup 1 (.agent "one") ++ [.hello "two" [], .finish 1])
    (fun s => s.state.agentSession = some "two" ∧ (s.requests.lookup 1).any (fun r =>
      r.holder = .agent "one" && r.slot = some .startup) = true) (by decide +kernel)
  exact ⟨s,hs,hnew,hold,(agent_session_fence hs).1⟩

theorem closed_step (hs : step config s e = some s') (he : e ≠ .openAdmission)
    (h : s.state.admissionOpen = false) : s'.state.admissionOpen = false := by
  obtain hstate | ⟨e',hlower,-,hstep⟩ := lower_of_effect (effect_of_step hs)
  · exact hstate ▸ h
  have hgates : s'.state.admissionOpen = (e'.gates s.state).2.1 :=
    congrArg (·.2.1) (stepped_of_step hstep).gates
  rw [hgates]
  cases hlower with
  | openAdmission => exact absurd rfl he
  | close => rfl
  | background hbg =>
    cases e' with
    | setOpen => cases hbg
    | _ => exact h
  | _ => exact h

theorem closed_hands (hs : step config s e = some s') (hcls : s.state.admissionOpen = false)
    {token held} (h : s.Hands s' token held) :
    e.accounts = true ∨ ∃ token holder owner, e = .publication token holder owner := by
  obtain ⟨e',hlower,hhnd⟩ := handed_of_hands hs h
  generalize held.holder = holder at hhnd
  cases hhnd with
  | pass _ hopen => exact absurd (hcls.symm.trans hopen) (by simp)
  | publication =>
    cases hlower with
    | publication => exact .inr ⟨_,_,_,rfl⟩
    | background hbg => cases hbg
  | observe =>
    cases hlower with
    | observe => exact .inl rfl
    | background hbg => cases hbg
  | hello =>
    cases hlower with
    | hello => exact .inl rfl
    | background hbg => cases hbg

theorem sameRevision_reaches {s₁ s₂} (hboo : s₁.state.Booked)
    (h : Reaches (step config) anyEvent (· = s₁) s₂) : s₁.state.SameRevision s₂.state := by
  refine (h.keeps (I := fun s => s.state.Booked ∧ s₁.state.SameRevision s.state)
    ⟨hboo,Nat.le_refl _,fun _ => rfl⟩ ?_).2
  rintro s e s' ⟨hs₁,hrev⟩ - hs
  refine ⟨booked_step hs₁ hs,?_⟩
  obtain hstate | ⟨e',-,hfresh,hstep⟩ := lower_of_effect (effect_of_step hs)
  · exact hstate ▸ hrev
  · exact hrev.trans ((turnover_step hfresh hstep).sameRevision hs₁)

theorem snapshot_ok {state state' : State} {obs now snapshot}
    (h : state.snapshot obs now = .ok (snapshot,state')) : snapshot.transientRevision = state.revision ∧
      snapshot.resourceReservations = state.ledger.resourceReservations := by
  unfold State.snapshot at h
  split at h
  · cases h
  cases h
  have hcl := (Growth.sameBooks_currentForecasts state.growth state.ledger obs now).claims
  refine ⟨rfl,Ledger.resourceReservations_congr ?_⟩
  exact congrArg (filter _) hcl

/-- From a `close` to the next `open_admission` no pass grants anything; snapshots with the same
revision report the same reservations. -/
theorem closed_admission_grants_nothing (h : Reaches (step config) anyEvent (Start capacity) s) :
    (∀ {s₁ s₂ s₃ e}, step config s .close = some s₁ →
      Reaches (step config) (fun _ e => e ≠ .openAdmission) (· = s₁) s₂ → step config s₂ e = some s₃ →
        (∀ token held, s₂.Hands s₃ token held →
          e.accounts = true ∨ ∃ token holder owner, e = .publication token holder owner) ∧
        ∀ demand, ¬ s₂.Starts s₃ demand) ∧ ∀ {s₂ obs obs' now now' first second state state'},
      Reaches (step config) anyEvent (· = s) s₂ → s.state.snapshot obs now = .ok (first,state) →
      s₂.state.snapshot obs' now' = .ok (second,state') →
      first.transientRevision = second.transientRevision →
        first.resourceReservations = second.resourceReservations := by
  refine ⟨fun {s₁ s₂ s₃ e} hclose hrun hs => ?_,fun {s₂} _ _ _ _ _ _ _ _ hrun hfirst hsec hsame => ?_⟩
  · cases hclose
    have hcls := hrun.keeps (I := fun s => s.state.admissionOpen = false)
      rfl fun _ _ _ hi he hs => closed_step hs he hi
    refine ⟨fun token held => closed_hands hs hcls,fun demand hsta => ?_⟩
    obtain ⟨-,-,-,-,-,-,hopen⟩ := current_of_starts hs hsta
    exact absurd (hcls.symm.trans hopen) (by simp)
  · obtain ⟨hrev,hres⟩ := snapshot_ok hfirst
    obtain ⟨hrev',hres'⟩ := snapshot_ok hsec
    have hrese := (sameRevision_reaches (booked_reaches h) hrun).2
      (hrev'.symm.trans (hsame.symm.trans hrev))
    rw [hres,hres',Ledger.resourceReservations_congr hrese]

theorem closed_admission_grants_nothing_sampling : ∃ s s₁ s₂ p,
    Reaches (step Admission.Example.config) anyEvent (Start fun _ => 1) s ∧
      step Admission.Example.config s .close = some s₁ ∧
      step Admission.Example.config s₁ (.pass 0 p) = some s₂ ∧ ∀ token held, ¬ s₁.Hands s₂ token held := by
  let pass : Pass := ⟨"a",some sample,observations,1,1, observations,0,1⟩
  obtain ⟨s,hs,s₁,hclose,s₂,hs₂,-⟩ := Reaches.exists_of_run (step config) Example.idle_starts
    ([.endRecovery] ++ Example.startup 0 .noded ++ [.checkOpen 0, .gate 0 1]) (fun s =>
      ∃ s₁ ∈ step config s .close, ∃ s₂ ∈ step config s₁ (.pass 0 pass), True) (by decide +kernel)
  refine ⟨s,s₁,s₂,pass,hs,hclose,hs₂,fun token held hhands => ?_⟩
  have hgr := ((closed_admission_grants_nothing hs).1 hclose (.start rfl) hs₂).1 token held hhands
  simp [Event.accounts] at hgr

end Service

end UCloudSandboxes.Admission
