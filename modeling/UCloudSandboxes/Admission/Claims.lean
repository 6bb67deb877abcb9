import UCloudSandboxes.Machine.Values
import UCloudSandboxes.Admission.Headroom

namespace UCloudSandboxes.Admission
open Machine List Ledger

namespace Ledger

/-- The same claims and the same demands queued, whatever is forecast and quoted. -/
structure SameBooks (l l' : Ledger) : Prop where
  next : l'.next = l.next
  claims : l'.claims = l.claims
  waiting : l'.waiting.map (·.token) = l.waiting.map (·.token)

theorem SameBooks.refl (l) : SameBooks l l := ⟨rfl,rfl,rfl⟩

theorem SameBooks.trans {l l' l''} (h : SameBooks l l') (h' : SameBooks l' l'') : SameBooks l l'' :=
  ⟨h'.next.trans h.next,h'.claims.trans h.claims,h'.waiting.trans h.waiting⟩

theorem SameBooks.foldl {σ α} (ledger : σ → Ledger) {f}
    (hf : ∀ s a, SameBooks (ledger s) (ledger (f s a))) (items : List α) (s) :
    SameBooks (ledger s) (ledger (items.foldl f s)) := by
  induction items generalizing s with
  | nil => exact .refl _
  | cons a items ih => exact (hf s a).trans (ih (f s a))

theorem sameBooks_setGrowthForecast (l owner cost) : SameBooks l (l.setGrowthForecast owner cost) := by
  cases cost <;> exact ⟨rfl,rfl,rfl⟩

end Ledger

namespace Growth
open Ledger

variable (g : Growth) (key : Owner) (l : Ledger) (obs : Observations) (now : Rat)

theorem sameBooks_updateForecast : SameBooks l (g.updateForecast key l obs now).2 :=
  (updateForecast_spec g key l obs now).2.2 ▸ sameBooks_setGrowthForecast ..

theorem sameBooks_refreshForecasts : SameBooks l (g.refreshForecasts l obs now).2 := by
  have hcle : SameBooks l (l.setGrowthForecasts []) :=
    .foldl id (fun l owner => sameBooks_setGrowthForecast l owner none) l.growth.keys l
  exact hcle.trans (.foldl Prod.snd (fun s key => sameBooks_updateForecast s.1 key s.2 obs now)
    g.keys ({ g with creditExpires := Expiry.never }, l.setGrowthForecasts []))

theorem sameBooks_currentForecasts : SameBooks l (g.currentForecasts l obs now).2 := by
  unfold currentForecasts
  split
  · exact sameBooks_refreshForecasts ..
  · exact .refl l

end Growth

namespace State
open Ledger Growth

structure Same (s s' : State) : Prop where
  ledger : SameBooks s.ledger s'.ledger
  held : s'.held = s.held
  revision : s'.revision = s.revision
  admissionOpen : s'.admissionOpen = s.admissionOpen
  agentSession : s'.agentSession = s.agentSession
  recovering : s'.recovering = s.recovering
  growing : s'.growing.map (·.demand) = s.growing.map (·.demand)

theorem Same.refl (s) : Same s s := ⟨.refl _,rfl,rfl,rfl,rfl,rfl,rfl⟩

theorem Same.trans {s s' s''} (h : Same s s') (h' : Same s' s'') : Same s s'' :=
  ⟨h.ledger.trans h'.ledger,h'.held.trans h.held,h'.revision.trans h.revision,
    h'.admissionOpen.trans h.admissionOpen,h'.agentSession.trans h.agentSession,
    h'.recovering.trans h.recovering,h'.growing.trans h.growing⟩

theorem same_withGrowth (s) {op} (h : ∀ g l, SameBooks l (op g l).2) : Same s (s.withGrowth op) :=
  ⟨h _ _,rfl,rfl,rfl,rfl,rfl,rfl⟩

theorem same_setPhase (s demand phase) : Same s (s.setPhase demand phase) := by
  refine ⟨.refl _,rfl,rfl,rfl,rfl,rfl,?_⟩
  unfold setPhase
  rw [map_map]
  refine map_congr_left fun a _ => ?_
  dsimp only [Function.comp]
  split <;> rfl

theorem same_refreshed (config s a metrics obs now) :
    Same s (s.refreshed config a metrics obs now) := by
  unfold refreshed
  split
  · have hcur : Same s (s.withGrowth fun g l => g.currentForecasts l obs now) :=
      s.same_withGrowth fun _ _ => sameBooks_currentForecasts ..
    cases a.grant with
    | hold => exact hcur
    | growth =>
      refine hcur.trans ⟨⟨rfl,rfl,?_⟩,rfl,rfl,rfl,rfl,rfl,rfl⟩
      unfold refreshWaitCost
      rw [map_map]
      refine map_congr_left fun item _ => ?_
      dsimp only [Function.comp]
      split <;> rfl
  · exact .refl s

theorem pass_spec (config s a metrics obs refreshNow now) :
    let result := s.pass config a metrics obs refreshNow now
    (result.2 ≠ some .grant ∧ Same s result.1) ∨
    (result.2 = some .grant ∧ s.current a.holder true = true ∧ s.admissionOpen = true ∧
      result.1 = (s.refreshed config a metrics obs refreshNow).granted a obs) := by
  have hsame := same_refreshed config s a metrics obs refreshNow
  unfold pass
  split
  · exact .inl ⟨by simp,.refl s⟩
  rename_i hcur
  dsimp only
  split
  · rename_i hgrant
    have hopen := decide_open hgrant
    exact .inr ⟨rfl,by simpa using hcur,hsame.admissionOpen ▸ hopen,rfl⟩
  · rename_i hdec
    exact .inl ⟨fun h => hdec (Option.some.inj h),hsame⟩

theorem granted_growth (s) {a} (obs) {t} (h : a.grant = .growth t) :
    ∃ s', Same s s' ∧ s.granted a obs =
      { s' with growing := s'.growing ++ [⟨a.owner,a.cost,a.demand,.inFlight⟩] } := by
  refine ⟨s.withGrowth fun g l => g.chargeProvisional a.owner a.cost l obs t,
    s.same_withGrowth fun g l => ?_,?_⟩
  · exact sameBooks_updateForecast ..
  · unfold granted
    rw [h]

theorem granted_hold {s : State} {a obs token requested slot}
    (h : a.grant = .hold token requested slot) : s.granted a obs =
      s.hold token a.holder a.owner a.cost (some requested) (some a.demand) slot := by
  unfold granted
  rw [h]

end State

open State Ledger Growth

def Event.background : Event → Bool
  | .forecasts .. | .residentPass .. | .record .. | .forget .. | .answer .. | .publish .. => true
  | _ => false

theorem same_step {config s s' e} (he : e.background = true) (hs : step config s e = some s') :
    Same s s' := by
  unfold step at hs
  cases e with
  | forecasts =>
    cases hs
    exact s.same_withGrowth fun _ _ => sameBooks_currentForecasts ..
  | residentPass keep =>
    cases hs
    refine Same.trans ?_ (same_withGrowth _ fun _ _ => sameBooks_refreshForecasts ..)
    cases keep with
    | none => exact .refl s
    | some =>
      refine s.same_withGrowth fun _ _ => ?_
      exact SameBooks.foldl Prod.snd (fun _ _ => sameBooks_updateForecast ..) _ (_,_)
  | record | forget =>
    cases hs
    exact s.same_withGrowth fun _ _ => sameBooks_updateForecast ..
  | answer =>
    dsimp only at hs
    split at hs
    · cases hs
      exact same_setPhase ..
    · cases hs
  | publish =>
    dsimp only at hs
    split at hs
    · cases hs
      exact (s.same_withGrowth fun _ _ => sameBooks_updateForecast ..).trans (same_setPhase ..)
    · cases hs
  | _ => cases he

theorem settle_spec {config s s' demand obs now}
    (hs : step config s (.settle demand obs now) = some s') :
    demand ∈ s.growing.map (·.demand) ∧ ∃ s₁, Same s s₁ ∧ s' = { s₁ with
      ledger := s₁.ledger.unwait demand
      growing := s₁.growing.filter (·.demand ≠ demand) } := by
  have hfound : ∀ {a}, s.growing.find? (·.demand = demand) = some a →
      demand ∈ s.growing.map (·.demand) := fun h =>
    mem_map.mpr ⟨_,mem_of_find?_eq_some h,by simpa using find?_some h⟩
  unfold step at hs
  dsimp only at hs
  split at hs
  · rename_i h
    cases hs
    exact ⟨hfound h,_,s.same_withGrowth fun _ _ => sameBooks_updateForecast ..,rfl⟩
  · rename_i h
    cases hs
    exact ⟨hfound h,_,s.same_withGrowth fun _ _ => sameBooks_updateForecast ..,rfl⟩
  · cases hs

namespace Ledger

def reserved (l : Ledger) : List Claim := l.claims.filter (·.requested.isSome)

theorem resourceReservations_congr {l l' : Ledger} (h : l.reserved = l'.reserved) :
    l.resourceReservations = l'.resourceReservations := by
  have hres : ∀ l : Ledger,
      l.resourceReservations = l.reserved.foldl (fun result item => item.reserve result) [] := by
    intro l
    unfold resourceReservations reserved
    rw [foldl_filter]
    congr 1
    funext result item
    unfold Claim.reserve
    cases item.requested <;> simp
  rw [hres,hres,h]

theorem release_of_mem {l : Ledger} (h : (l.claims.map (·.token)).Nodup) {claim}
    (hc : claim ∈ l.claims) :
    l.release claim = some { l with claims := l.claims.filter (·.token ≠ claim.token) } := by
  unfold release
  rw [if_pos]
  obtain ⟨found,hfound⟩ : ∃ found, l.claims.find? (·.token = claim.token) = some found := by
    rw [← Option.isSome_iff_exists,find?_isSome]
    exact ⟨claim,hc,by simp⟩
  have htoken : found.token = claim.token := by simpa using find?_some hfound
  rw [hfound,inj_on_of_nodup_map h (mem_of_find?_eq_some hfound) hc htoken]

end Ledger

namespace State

/-- Held tokens and ledger claims are the same claims, each with a ledger token of its own. -/
structure Booked (s : State) : Prop where
  claims : s.ledger.claims.Perm ((values s.held).map (·.claim))
  tokens : (s.ledger.claims.map (·.token)).Nodup
  issued : ∀ c ∈ s.ledger.claims, c.token ≤ s.ledger.next

variable {s : State} {token : String}

theorem Booked.of_same {s'} (h : Booked s) (hheld : s'.held = s.held)
    (hcl : s'.ledger.claims = s.ledger.claims) (hnext : s.ledger.next ≤ s'.ledger.next) :
    Booked s' :=
  ⟨by rw [hcl,hheld]; exact h.claims,hcl ▸ h.tokens,
    fun c hc => (h.issued c (hcl ▸ hc)).trans hnext⟩

theorem Booked.hold (h : Booked s) (hfresh : token ∉ s.held) (holder)
    (owner cost requested demand slot) :
    Booked (s.hold token holder owner cost requested demand slot) := by
  have hnew : ∀ c ∈ s.ledger.claims, c.token ≠ s.ledger.next + 1 := fun c hc =>
    Nat.ne_of_lt (Nat.lt_succ_of_le (h.issued c hc))
  refine ⟨?_,?_,?_⟩
  · have hval := values_insert_new hfresh
    simp only [State.hold,hval]
    exact perm_append_comm.trans (h.claims.cons _)
  · simp only [State.hold,claim,map_append]
    refine nodup_append.mpr ⟨h.tokens,nodup_singleton _,?_⟩
    rintro t ht t' ht' rfl
    obtain ⟨c,hc,rfl⟩ := mem_map.mp ht
    exact hnew c hc (mem_singleton.mp ht')
  · intro c hc
    simp only [State.hold,claim,mem_append,mem_singleton] at hc ⊢
    obtain hc | rfl := hc
    · exact Nat.le_succ_of_le (h.issued c hc)
    · exact Nat.le_refl _

theorem Booked.claim_mem (h : Booked s) {held} (hheld : s.held.lookup token = some held) :
    held.claim ∈ s.ledger.claims :=
  h.claims.mem_iff.mpr (mem_map_of_mem (mem_values.mpr ⟨token,hheld⟩))

theorem Booked.ledger_dropHeld (h : Booked s) {held}
    (hheld : s.held.lookup token = some held) :
    (s.dropHeld ⟨token,held⟩).ledger.claims = s.ledger.claims.filter (·.token ≠ held.claim.token) ∧
    (s.dropHeld ⟨token,held⟩).ledger.next = s.ledger.next ∧ (s.dropHeld ⟨token,held⟩).ledger.waiting =
      held.demand.elim s.ledger.waiting fun t => s.ledger.waiting.filter (·.token ≠ t) := by
  have hrls := release_of_mem h.tokens (h.claim_mem hheld)
  simp only [dropHeld,unhold,hrls]
  cases held.demand <;> exact ⟨rfl,rfl,rfl⟩

theorem Booked.dropHeld (h : Booked s) {held} (hheld : s.held.lookup token = some held) :
    Booked (s.dropHeld ⟨token,held⟩) := by
  obtain ⟨hcl,hnext,-⟩ := h.ledger_dropHeld hheld
  refine ⟨?_,?_,?_⟩
  · have hled := perm_cons_filter_key h.tokens (h.claim_mem hheld)
    have hheld' := (values_erase hheld).map (·.claim)
    rw [hcl]
    exact ((hled.symm.trans h.claims).trans hheld').cons_inv
  · rw [hcl]
    exact h.tokens.sublist (filter_sublist.map _)
  · rw [hcl,hnext]
    exact fun c hc => h.issued c (mem_of_mem_filter hc)

/-- Every way the claims held change: a claim under a fresh token, or one dropped. -/
inductive Turnover : State → State → Prop
  | same {s s' : State} (held : s'.held = s.held) (claims : s'.ledger.claims = s.ledger.claims)
      (next : s.ledger.next ≤ s'.ledger.next) (revision : s'.revision = s.revision) : Turnover s s'
  | hold {s : State} {token : String} (fresh : token ∉ s.held) (holder : Holder) (owner : Owner)
      (cost : Cost) (requested : Option Shape) (demand : Option Nat) (slot : Option Pool) :
      Turnover s (s.hold token holder owner cost requested demand slot)
  | drop {s : State} {token : String} {held : Held} (present : s.held.lookup token = some held) :
      Turnover s (s.dropHeld ⟨token,held⟩)
  | trans {s s' s'' : State} : Turnover s s' → Turnover s' s'' → Turnover s s''

theorem Same.turnover {s'} (h : Same s s') : Turnover s s' :=
  .same h.held h.ledger.claims (le_of_eq h.ledger.next.symm) h.revision

theorem Turnover.booked {s'} (h : Turnover s s') (hs : Booked s) : Booked s' := by
  induction h with
  | same hheld hcl hnext => exact hs.of_same hheld hcl hnext
  | hold hfresh holder owner cost requested demand slot =>
    exact hs.hold hfresh holder owner cost requested demand slot
  | drop hheld => exact hs.dropHeld hheld
  | trans _ _ ih ih' => exact ih' (ih hs)

/-- Reservations change only with the revision, which never goes back. -/
def SameRevision (s s' : State) : Prop :=
  s.revision ≤ s'.revision ∧ (s'.revision = s.revision → s'.ledger.reserved = s.ledger.reserved)

theorem SameRevision.trans {s' s''} (h : SameRevision s s') (h' : SameRevision s' s'') :
    SameRevision s s'' := by
  refine ⟨h.1.trans h'.1,fun heq => ?_⟩
  have hle := h.1
  have hle' := h'.1
  exact (h'.2 (by omega)).trans (h.2 (by omega))

theorem Booked.sameRevision_dropHeld (h : Booked s) {held} (hheld : s.held.lookup token = some held) :
    SameRevision s (s.dropHeld ⟨token,held⟩) := by
  have hcl := (h.ledger_dropHeld hheld).1
  cases hreq : held.claim.requested with
  | some =>
    have hrev : (s.dropHeld ⟨token,held⟩).revision = s.revision + 1 := by
      simp [State.dropHeld,unhold,hreq]
    exact ⟨by omega,fun heq => by omega⟩
  | none =>
    have hrev : (s.dropHeld ⟨token,held⟩).revision = s.revision := by
      simp [State.dropHeld,unhold,hreq]
    refine ⟨le_of_eq hrev.symm,fun _ => ?_⟩
    unfold reserved
    rw [hcl,filter_filter]
    refine filter_congr fun c hc => ?_
    -- only the dropped claim has its token, and it reserves nothing
    by_cases htoken : c.token = held.claim.token
    · obtain rfl := inj_on_of_nodup_map h.tokens hc (h.claim_mem hheld) htoken
      simp [hreq]
    · simp [htoken]

theorem Turnover.sameRevision {s'} (h : Turnover s s') (hs : Booked s) : SameRevision s s' := by
  induction h with
  | same _ hcl _ hrev =>
    exact ⟨le_of_eq hrev.symm,fun _ => by rw [reserved,hcl,reserved]⟩
  | hold _ _ _ _ requested =>
    cases requested with
    | none => exact ⟨Nat.le_refl _,fun _ => by simp [reserved,State.hold,claim]⟩
    | some => exact ⟨Nat.le_succ _,fun heq => absurd heq (Nat.succ_ne_self _)⟩
  | drop hheld => exact hs.sameRevision_dropHeld hheld
  | trans h _ ih ih' => exact (ih hs).trans (ih' (h.booked hs))

/-- A hello that drops the stale claims keeps what dropping one of them keeps: tokens are distinct. -/
theorem foldl_stale {σ : Type} (state : σ → State) {drop : σ → (Sigma fun _ : String => Held) → σ}
    {I : σ → Prop} (hstate : ∀ x entry, state (drop x entry) = (state x).dropHeld entry)
    (hdrop : ∀ x entry, (state x).held.lookup entry.1 = some entry.2 → I x → I (drop x entry)) {x}
    (h : I x) (session) : I (((state x).stale session).foldl drop x) := by
  have hdist : (((state x).stale session).map (·.1)).Nodup := by
    unfold stale
    split
    · exact nodup_nil
    · exact (state x).held.nodupKeys.sublist filter_sublist
  have hheld : ∀ entry ∈ (state x).stale session, (state x).held.lookup entry.1 = some entry.2 := by
    intro entry hentry
    unfold stale at hentry
    split at hentry
    · cases hentry
    · exact AList.mem_lookup_iff.mpr (mem_of_mem_filter hentry)
  generalize (state x).stale session = entries at hdist hheld ⊢
  induction entries generalizing x with
  | nil => exact h
  | cons entry entries ih =>
    obtain ⟨hnew,hrest⟩ := nodup_cons.mp hdist
    refine ih (hdrop x entry (hheld entry (.head _)) h) hrest fun other hother => ?_
    have hne : other.1 ≠ entry.1 := fun heq => hnew (mem_map.mpr ⟨other,hother,heq⟩)
    rw [hstate]
    exact (AList.lookup_erase_ne hne).trans (hheld other (.tail _ hother))

theorem turnover_foldl_accept (session) (items : List (Reassert × Option Pool)) (s) :
    Turnover s (items.foldl (fun s item => s.accept session item.1 item.2) s) := by
  induction items generalizing s with
  | nil => exact (Same.refl s).turnover
  | cons item items ih =>
    refine .trans ?_ (ih _)
    dsimp only [accept]
    split
    · exact (Same.refl s).turnover
    · exact .hold (by assumption) ..

theorem turnover_hello (s session) (reassert) : Turnover s (s.hello session reassert) := by
  let dropped := (s.stale session).foldl State.dropHeld s
  let greeted : State := { dropped with agentSession := some session }
  have hdro : Turnover s dropped :=
    foldl_stale id (fun _ _ => rfl) (fun _ _ hheld h => h.trans (.drop hheld))
      (Same.refl s).turnover session
  have hgre : Turnover dropped greeted := .same rfl rfl (Nat.le_refl _) rfl
  have hacc := turnover_foldl_accept session reassert greeted
  exact ((hdro.trans hgre).trans hacc).trans (.same rfl rfl (Nat.le_refl _) rfl)

end State

/-- A token `getrandom` just made names no held claim. -/
def Event.Fresh (s : State) : Event → Prop
  | .pass a .. => ∀ token requested slot, a.grant = .hold token requested slot → token ∉ s.held
  | .observe token .. | .publication token .. => token ∉ s.held
  | _ => True

theorem Event.fresh_of_background {e : Event} (s) (h : e.background = true) : e.Fresh s := by
  cases e with
  | pass | observe | publication => cases h
  | _ => trivial

theorem turnover_pass (config) {s a metrics obs refreshNow now}
    (hfresh : Event.Fresh s (.pass a metrics obs refreshNow now)) :
    Turnover s (s.pass config a metrics obs refreshNow now).1 := by
  have href := same_refreshed config s a metrics obs refreshNow
  obtain ⟨-,hsame⟩ | ⟨-,-,-,hgr⟩ := pass_spec config s a metrics obs refreshNow now
  · exact hsame.turnover
  rw [hgr]
  cases hg : a.grant with
  | hold token requested slot =>
    have htoken : token ∉ (s.refreshed config a metrics obs refreshNow).held :=
      href.held ▸ hfresh token requested slot hg
    rw [granted_hold hg]
    exact href.turnover.trans (.hold htoken ..)
  | growth =>
    obtain ⟨charged,hchg,hs⟩ :=
      granted_growth (s.refreshed config a metrics obs refreshNow) obs hg
    rw [hs]
    exact (href.trans hchg).turnover.trans (.same rfl rfl (Nat.le_refl _) rfl)

theorem turnover_step {config s s' e} (hfresh : e.Fresh s) (hs : step config s e = some s') :
    Turnover s s' := by
  cases e with
  | demand =>
    cases hs
    exact .same rfl rfl (Nat.le_succ _) rfl
  | withdraw | endRecovery | setOpen =>
    cases hs
    exact .same rfl rfl (Nat.le_refl _) rfl
  | pass =>
    cases hs
    exact turnover_pass config hfresh
  | observe | publication =>
    exact (some_of_check hs).2 ▸ .hold hfresh ..
  | release =>
    dsimp only [step] at hs
    split at hs
    · rename_i hheld
      exact (some_of_check hs).2 ▸ .drop hheld
    · cases hs
  | hello =>
    cases hs
    exact turnover_hello ..
  | settle =>
    obtain ⟨-,s₁,hsame,rfl⟩ := settle_spec hs
    exact hsame.turnover.trans (.same rfl rfl (Nat.le_refl _) rfl)
  | _ => exact (same_step rfl hs).turnover

end UCloudSandboxes.Admission
