import UCloudSandboxes.Admission.Requests
import UCloudSandboxes.Admission.Slots

namespace UCloudSandboxes.Admission
open Machine InProgress Service List

theorem Ledger.tokens_unwait (l : Ledger) (token) :
    (l.unwait token).waiting.map (·.token) = (l.waiting.map (·.token)).filter (· ≠ token) := by
  rw [filter_map]
  rfl

theorem State.waiting_dropHeld (s : State) (token) (held) :
    (s.dropHeld ⟨token,held⟩).ledger.waiting.map (·.token) =
      held.demand.elim (s.ledger.waiting.map (·.token))
        (fun t => (s.ledger.waiting.map (·.token)).filter (· ≠ t)) ∧
    (s.dropHeld ⟨token,held⟩).ledger.next = s.ledger.next := by
  obtain ⟨hwait,hnext⟩ : ((s.ledger.release held.claim).getD s.ledger).waiting = s.ledger.waiting ∧
      ((s.ledger.release held.claim).getD s.ledger).next = s.ledger.next := by
    unfold Ledger.release
    split <;> exact ⟨rfl,rfl⟩
  unfold State.dropHeld State.unhold
  cases held.demand with
  | none => exact ⟨congrArg _ hwait,hnext⟩
  | some => exact ⟨by simp only [Ledger.tokens_unwait,hwait,Option.elim],hnext⟩

/-- The tokens queued are the demands answered for, each once. -/
structure Waits (tokens : List Nat) (next : Nat) (demands : List Nat) : Prop where
  perm : tokens.Perm demands
  distinct : tokens.Nodup
  issued : ∀ t ∈ tokens, t ≤ next

namespace Waits

variable {tokens tokens' demands demands' : List Nat} {next next' : Nat}

theorem keep (h : Waits tokens next demands) (hnext : next ≤ next') (hdems : demands'.Perm demands) :
    Waits tokens next' demands' :=
  ⟨h.perm.trans hdems.symm,h.distinct,fun t ht => (h.issued t ht).trans hnext⟩

theorem add (h : Waits tokens next demands) (hdems : demands'.Perm ((next + 1) :: demands)) :
    Waits (tokens ++ [next + 1]) (next + 1) demands' := by
  refine ⟨?_,?_,?_⟩
  · exact perm_append_comm.trans ((h.perm.cons _).trans hdems.symm)
  · refine nodup_append.mpr ⟨h.distinct,nodup_singleton _,?_⟩
    rintro t ht t' ht' rfl
    have hle := h.issued t ht
    obtain rfl := mem_singleton.mp ht'
    omega
  · intro t ht
    obtain ht | ht := mem_append.mp ht
    · exact Nat.le_succ_of_le (h.issued t ht)
    · exact le_of_eq (mem_singleton.mp ht)

theorem drop {t} (h : Waits tokens next demands) (hdems : demands.Perm (t :: demands')) :
    Waits (tokens.filter (· ≠ t)) next demands' := by
  have hmem : t ∈ tokens := h.perm.mem_iff.mpr (hdems.mem_iff.mpr (.head _))
  have hkey : (tokens.map id).Nodup := by simpa using h.distinct
  have htok := perm_cons_filter_key hkey hmem
  exact ⟨((htok.symm.trans h.perm).trans hdems).cons_inv,h.distinct.filter _,
    fun t' ht' => h.issued t' (mem_of_mem_filter ht')⟩

end Waits

structure Seats (capacity : Nat) (c : Callers Owner) (tickets : List (Ticket Owner)) (held : Nat) :
    Prop where
  slots : c.Slots capacity
  pending : c.pending.Perm tickets
  held : c.held.length = held

namespace Seats

variable {capacity held held' : Nat} {c : Callers Owner} {tickets tickets' : List (Ticket Owner)}
variable {t : Ticket Owner} {owner : Option Owner} {blocking : Bool}

variable (h : Seats capacity c tickets held)
include h

theorem keep (htks : tickets'.Perm tickets) (hheld : held' = held) :
    Seats capacity c tickets' held' :=
  ⟨h.slots,h.pending.trans htks.symm,h.held.trans hheld.symm⟩

theorem enterGranted
    (hans : (c.enter 1 owner blocking).2 = .ok .granted) (htks : tickets'.Perm tickets)
    (hheld : held' = held + 1) : Seats capacity (c.enter 1 owner blocking).1 tickets' held' := by
  obtain ⟨hslots,⟨-,hpend,hlen⟩ | ⟨t,ht,-⟩ | ⟨ht | ⟨error,ht⟩,-⟩⟩ := h.slots.enter owner blocking
  · refine ⟨hslots,?_,?_⟩
    · rw [hpend]
      exact h.pending.trans htks.symm
    · rw [hlen,hheld,h.held]
  all_goals
    rw [hans] at ht
    cases ht

theorem enterQueued
    (hans : (c.enter 1 owner blocking).2 = .ok (.queued t)) (htks : tickets'.Perm (t :: tickets))
    (hheld : held' = held) : Seats capacity (c.enter 1 owner blocking).1 tickets' held' := by
  obtain ⟨hslots,⟨ht,-⟩ | ⟨t',ht,hpend,hlen⟩ | ⟨ht | ⟨error,ht⟩,-⟩⟩ := h.slots.enter owner blocking
  case inr.inl =>
    rw [hans] at ht
    cases ht
    refine ⟨hslots,?_,?_⟩
    · rw [hpend]
      exact perm_append_comm.trans ((h.pending.cons t).trans htks.symm)
    · rw [hlen,hheld,h.held]
  all_goals
    rw [hans] at ht
    cases ht

theorem finish (htks : tickets.Perm (t :: tickets'))
    (hheld : held' = held + (c.finish t).2.toNat) : Seats capacity (c.finish t).1 tickets' held' := by
  have hmem : t ∈ c.pending := h.pending.mem_iff.mpr (htks.mem_iff.mpr (.head _))
  obtain ⟨hslots,hpend,hlen⟩ := h.slots.finish hmem
  refine ⟨hslots,((hpend.symm.trans h.pending).trans htks).cons_inv,?_⟩
  rw [hlen,hheld,h.held]

theorem drop (htks : tickets.Perm (t :: tickets'))
    (hheld : held' = held) : Seats capacity (c.drop t) tickets' held' := by
  have hmem : t ∈ c.pending := h.pending.mem_iff.mpr (htks.mem_iff.mpr (.head _))
  obtain ⟨hslots,hpend,hlen⟩ := h.slots.drop hmem
  refine ⟨hslots,((hpend.symm.trans h.pending).trans htks).cons_inv,?_⟩
  rw [hlen,hheld,h.held]

theorem release (htks : tickets'.Perm tickets)
    (hheld : held = held' + 1) : Seats capacity (c.release 1) tickets' held' := by
  have hlen := h.held
  obtain ⟨hslots,hpend,hrel⟩ := h.slots.release (by omega)
  refine ⟨hslots,?_,by omega⟩
  rw [hpend]
  exact h.pending.trans htks.symm

theorem cancelWaiters (owner) : Seats capacity (c.cancelWaiters owner) tickets held :=
  ⟨(h.slots.cancelWaiters owner).1,h.pending,h.held⟩

end Seats

namespace Service

def demands (s : Service) : List Nat :=
  (values s.requests).filterMap demand ++
    ((values s.state.held).filterMap Held.demand ++ s.state.growing.map (·.demand))

def tickets (s : Service) (p : Pool) : List (Ticket Owner) := (values s.requests).filterMap (·.ticket p)

def slots (s : Service) : List Pool :=
  (values s.requests).filterMap slot ++ (values s.state.held).filterMap Held.slot

/-- Every queued demand and every slot taken has one that answers for it. -/
structure Custody (capacity : Pool → Nat) (s : Service) : Prop where
  waits : Waits (s.state.ledger.waiting.map (·.token)) s.state.ledger.next s.demands
  seats : ∀ p, Seats (capacity p) (s.pools p) (s.tickets p) (s.slots.count p)

namespace Custody

variable {capacity : Pool → Nat} {s : Service} {id : Nat} {r r' : InProgress}

theorem start (h : Start capacity s) : s.Custody capacity := by
  obtain ⟨⟨intents,obs,now,isOpen,revision,hstate⟩,hpools,hreqs⟩ := h
  have hled := Growth.sameBooks_refreshForecasts { intents := intents } {} obs now
  have hdems : s.demands = [] := by simp [demands,hstate,hreqs]
  refine ⟨?_,fun p => ?_⟩
  · rw [hdems,hstate]
    simp only [hled.waiting]
    exact ⟨.nil,nodup_nil,by simp⟩
  · have hslots := Callers.Slots.start (hpools p)
    obtain ⟨pool,-,hpool⟩ := hpools p
    refine ⟨hslots,?_,?_⟩ <;> simp [hpool,tickets,slots,hstate,hreqs]

theorem keep (h : s.Custody capacity) {state} (hled : s.state.ledger.SameBooks state.ledger)
    (hheld : state.held = s.state.held)
    (hgrow : state.growing.map (·.demand) = s.state.growing.map (·.demand)) :
    Custody capacity { s with state } := by
  refine ⟨?_,fun p => ?_⟩
  · simp only [hled.waiting,hled.next,demands,hheld,hgrow]
    exact h.waits
  · simp only [slots,hheld]
    exact h.seats p

theorem same (h : s.Custody capacity) {state} (hs : s.state.Same state) :
    Custody capacity { s with state } :=
  h.keep hs.ledger hs.held hs.growing

theorem begun (h : s.Custody capacity) (hnew : id ∉ s.requests) (hr : r.stage = .began) :
    Custody capacity (s.set id r) := by
  obtain ⟨hdem,htk,hslot⟩ := account_began hr
  refine ⟨h.waits.keep (Nat.le_refl _) ?_,fun p => (h.seats p).keep ?_ ?_⟩
  · simp [demands,set,parts_insert_new hnew,hdem]
  · simp [tickets,set,parts_insert_new hnew,htk]
  · simp [slots,set,parts_insert_new hnew,hslot]

section
variable (h : s.Custody capacity) (hid : s.requests.lookup id = some r)
include h hid

theorem moved (hr : r.SameAccount r') : Custody capacity (s.set id r') := by
  refine ⟨h.waits.keep (Nat.le_refl _) ?_,fun p => (h.seats p).keep ?_ ?_⟩
  · exact (parts_insert_same hid hr.demand).append_right _
  · exact parts_insert_same hid (hr.ticket p)
  · exact ((parts_insert_same hid hr.slot).append_right _).count_eq p

theorem ended (hr : r.stage = .began) : Custody capacity (s.remove id) := by
  obtain ⟨hdem,htk,hslot⟩ := account_began hr
  refine ⟨h.waits.keep (Nat.le_refl _) ?_,fun p => (h.seats p).keep ?_ ?_⟩
  · exact (parts_erase_none hid hdem).symm.append_right _
  · exact (parts_erase_none hid (htk p)).symm
  · exact ((parts_erase_none hid hslot).symm.append_right _).count_eq p

theorem demanded (hr : r.stage = .began) {owner cost}
    (hdem : r'.demand = some (s.state.ledger.next + 1)) (htk : ∀ p, r'.ticket p = none)
    (hslot : r'.slot = none) : Custody capacity (set
      { s with state := { s.state with ledger := (s.state.ledger.wait owner cost).1 } } id r') := by
  obtain ⟨hdem₀,htk₀,hslot₀⟩ := account_began hr
  refine ⟨?_,fun p => (h.seats p).keep ?_ ?_⟩
  · have hadd := parts_insert_add hid hdem₀ hdem
    simp only [set,Ledger.wait,map_append]
    exact h.waits.add (hadd.append_right _)
  · exact parts_insert_same hid ((htk p).trans (htk₀ p).symm)
  · exact ((parts_insert_same hid (hslot.trans hslot₀.symm)).append_right _).count_eq p

end

variable {demand : Nat} {p : Pool}

theorem withdrawn (h : s.Custody capacity) (hid : s.requests.lookup id = some r)
    (hr : r.stage = .leaving demand) : Custody capacity (remove
      { s with state := { s.state with ledger := s.state.ledger.unwait demand } } id) := by
  obtain ⟨hdem,htk,hslot⟩ := account_leaving hr
  refine ⟨?_,fun p => (h.seats p).keep ?_ ?_⟩
  · have hdrop := h.waits.drop ((parts_erase_some hid hdem).append_right _)
    simp only [remove,Ledger.tokens_unwait]
    exact hdrop
  · exact (parts_erase_none hid (htk p)).symm
  · exact ((parts_erase_none hid hslot).symm.append_right _).count_eq p

theorem repool {s' : Service} (h : s.Custody capacity) {c}
    (hwaits : Waits (s'.state.ledger.waiting.map (·.token)) s'.state.ledger.next s'.demands)
    (hpools : s'.pools = Function.update s.pools p c)
    (hself : Seats (capacity p) c (s'.tickets p) (s'.slots.count p))
    (hother : ∀ q, q ≠ p → (s'.tickets q).Perm (s.tickets q) ∧ s'.slots.count q = s.slots.count q) :
    s'.Custody capacity := by
  refine ⟨hwaits,fun q => ?_⟩
  rw [hpools]
  by_cases hq : q = p
  · subst hq
    rw [Function.update_self]
    exact hself
  · rw [Function.update_of_ne hq]
    exact (h.seats q).keep (hother q hq).1 (hother q hq).2

section
variable (h : s.Custody capacity) (hid : s.requests.lookup id = some r)
include h hid

theorem reseated {c} (hdem : r'.demand = r.demand)
    (htk : ∀ q, q ≠ p → r'.ticket q = r.ticket q)
    (hslot : ∀ q, q ≠ p → (r'.slot.toList.count q = r.slot.toList.count q))
    (hself : Seats (capacity p) c ((s.set id r').tickets p) ((s.set id r').slots.count p)) :
    Custody capacity ((s.withPool p c).set id r') := by
  refine h.repool ?_ rfl hself fun q hq => ⟨parts_insert_same hid (htk q hq),?_⟩
  · exact h.waits.keep (Nat.le_refl _) ((parts_insert_same hid hdem).append_right _)
  · have hslots := (parts_erase slot hid).count_eq q
    simp only [slots,withPool,set,parts_insert,count_append,hslots,hslot q hq]

theorem leaves {c} (hdem₀ : r.demand = some demand) (hslot₀ : r.slot = none)
    (htk₀ : ∀ q, q ≠ p → r.ticket q = none)
    (hself : Seats (capacity p) c ((s.set id { r with stage := .leaving demand }).tickets p)
      (s.slots.count p)) :
    Custody capacity ((s.withPool p c).set id { r with stage := .leaving demand }) := by
  obtain ⟨hdem,htk,hslot⟩ := account_leaving (r := { r with stage := .leaving demand }) rfl
  refine h.reseated hid (hdem.trans hdem₀.symm)
    (fun q hq => (htk q).trans (htk₀ q hq).symm) (fun q _ => by rw [hslot,hslot₀]) ?_
  rw [slots,set,((parts_insert_same hid (hslot.trans hslot₀.symm)).append_right _).count_eq p]
  exact hself

theorem entered (hr : r.stage = .entering demand) (hp : r.work.pool = some p) :
    let entered := (s.pools p).enter 1 (some r.owner) true
    Custody capacity ((s.withPool p entered.1).set id (r.entered demand entered.2)) := by
  obtain ⟨hdem₀,htk₀,hslot₀⟩ := account_entering (.inr hr)
  have hseats := h.seats p
  unfold InProgress.entered
  dsimp only
  split
  · rename_i hans
    obtain ⟨hdem,htk,hslot⟩ := r.account_seated demand
    refine h.reseated hid (hdem.trans hdem₀.symm) (fun q _ => (htk q).trans (htk₀ q).symm)
      (fun q hq => ?_) (hseats.enterGranted hans ?_ ?_)
    · simp [hslot₀,hslot,hp,Ne.symm hq]
    · exact parts_insert_same hid ((htk p).trans (htk₀ p).symm)
    · have hadd := parts_insert_add hid hslot₀ (hslot.trans hp)
      simp only [slots,set,count_append,hadd.count_eq,count_cons_self]
      omega
  · rename_i ticket hans
    obtain ⟨hdem,htk,hslot⟩ := account_queued (r := { r with stage := .queued demand ticket }) rfl
    refine h.reseated hid (hdem.trans hdem₀.symm) (fun q hq => ?_) (fun q _ => ?_)
      (hseats.enterQueued hans ?_ ?_)
    · rw [htk,htk₀,hp,if_neg (by simpa using Ne.symm hq)]
    · rw [hslot,hslot₀]
    · exact parts_insert_add hid (htk₀ p) (by rw [htk,if_pos hp])
    · exact ((parts_insert_same hid (hslot.trans hslot₀.symm)).append_right _).count_eq p
  · rename_i hgr hqd
    obtain ⟨-,⟨ht,-⟩ | ⟨t,ht,-⟩ | ⟨-,hsame⟩⟩ := hseats.slots.enter (some r.owner) true
    · exact absurd ht hgr
    · exact absurd ht (hqd t)
    rw [hsame]
    refine h.leaves hid hdem₀ hslot₀ (fun q _ => htk₀ q) (hseats.keep ?_ rfl)
    exact parts_insert_same hid (((account_leaving rfl).2.1 p).trans (htk₀ p).symm)

theorem finished {ticket} (hr : r.stage = .queued demand ticket) (hp : r.work.pool = some p) :
    let finished := (s.pools p).finish ticket
    Custody capacity ((s.withPool p finished.1).set id
      (if finished.2 then r.seated demand else { r with stage := .leaving demand })) := by
  obtain ⟨hdem₀,htk₀,hslot₀⟩ := account_queued hr
  have htk₁ : ∀ q, q ≠ p → r.ticket q = none := fun q hq => by
    rw [htk₀,hp,if_neg (by simpa using Ne.symm hq)]
  have hseats := h.seats p
  dsimp only
  split
  · rename_i hkept
    obtain ⟨hdem,htk,hslot⟩ := r.account_seated demand
    refine h.reseated hid (hdem.trans hdem₀.symm)
      (fun q hq => (htk q).trans (htk₁ q hq).symm) (fun q hq => ?_) (hseats.finish ?_ ?_)
    · simp [hslot₀,hslot,hp,Ne.symm hq]
    · exact parts_insert_drop hid (by rw [htk₀,if_pos hp]) (htk p)
    · have hadd := parts_insert_add hid hslot₀ (hslot.trans hp)
      simp only [slots,set,count_append,hadd.count_eq,count_cons_self,hkept, Bool.toNat_true]
      omega
  · rename_i hkept
    refine h.leaves hid hdem₀ hslot₀ htk₁ (hseats.finish ?_ ?_)
    · exact parts_insert_drop hid (by rw [htk₀,if_pos hp]) ((account_leaving rfl).2.1 p)
    · simp [hkept]

theorem dropped {ticket} (hr : r.stage = .queued demand ticket) (hp : r.work.pool = some p) :
    Custody capacity ((s.withPool p ((s.pools p).drop ticket)).set id
      { r with stage := .leaving demand }) := by
  obtain ⟨hdem₀,htk₀,hslot₀⟩ := account_queued hr
  refine h.leaves hid hdem₀ hslot₀ (fun q hq => ?_) ((h.seats p).drop ?_ rfl)
  · rw [htk₀,hp,if_neg (by simpa using Ne.symm hq)]
  · exact parts_insert_drop hid (by rw [htk₀,if_pos hp]) ((account_leaving rfl).2.1 p)

theorem returned (hr : r.stage = .returning demand) (hp : r.work.pool = some p) :
    Custody capacity ((s.withPool p ((s.pools p).release 1)).set id
      { r with stage := .leaving demand }) := by
  obtain ⟨hdem₀,htk₀,hslot₀⟩ := account_admitting (.inr (.inr (.inr hr)))
  rw [hp] at hslot₀
  obtain ⟨hdem,htk,hslot⟩ := account_leaving (r := { r with stage := .leaving demand }) rfl
  refine h.reseated hid (hdem.trans hdem₀.symm) (fun q _ => (htk q).trans (htk₀ q).symm)
    (fun q hq => ?_) ((h.seats p).release ?_ ?_)
  · simp [hslot₀,hslot,Ne.symm hq]
  · exact parts_insert_same hid ((htk p).trans (htk₀ p).symm)
  · have hdrop := parts_insert_drop hid hslot₀ hslot
    simp only [slots,set,count_append,hdrop.count_eq,count_cons_self]
    omega

theorem handedOver (hdem : r.demand = some demand) (htk : ∀ p, r.ticket p = none) {token}
    (hfresh : token ∉ s.state.held) (holder) (owner) (cost requested) :
    Custody capacity (remove
      { s with state := s.state.hold token holder owner cost requested (some demand) r.slot } id) := by
  refine ⟨h.waits.keep (Nat.le_succ _) ?_,fun p => (h.seats p).keep ?_ ?_⟩
  · have hrest := parts_erase_some hid hdem
    simp only [demands,remove,State.hold,parts_insert_new hfresh]
    exact perm_middle.trans (hrest.symm.append_right _)
  · exact (parts_erase_none hid (htk p)).symm
  · have hrest := (parts_erase slot hid).count_eq p
    simp only [slots,remove,State.hold,parts_insert_new hfresh,count_append,hrest]
    omega

theorem committing {a} (hdem : r.demand = some a.demand) (htk : ∀ p, r.ticket p = none)
    (hslot : r.slot = none) : Custody capacity (remove
      { s with state := { s.state with growing := s.state.growing ++ [a] } } id) := by
  refine ⟨h.waits.keep (Nat.le_refl _) ?_,fun p => (h.seats p).keep ?_ ?_⟩
  · have hrest := parts_erase_some hid hdem
    simp only [demands,remove,map_append,← append_assoc]
    refine perm_append_comm.trans ?_
    simp only [append_assoc]
    exact hrest.symm.append_right _
  · exact (parts_erase_none hid (htk p)).symm
  · exact ((parts_erase_none hid hslot).symm.append_right _).count_eq p

end

theorem settled (h : s.Custody capacity) (hmem : demand ∈ s.state.growing.map (·.demand)) :
    Custody capacity { s with state := { s.state with
      ledger := s.state.ledger.unwait demand
      growing := s.state.growing.filter (·.demand ≠ demand) } } := by
  refine ⟨?_,h.seats⟩
  have hdist : (s.state.growing.map (·.demand)).Nodup :=
    ((h.waits.perm.nodup_iff.mp h.waits.distinct).of_append_right).of_append_right
  obtain ⟨a,ha,rfl⟩ := mem_map.mp hmem
  have hrest := (perm_cons_filter_key hdist ha).map (·.demand)
  have hdems : s.demands.Perm (a.demand :: (values s.requests).filterMap demand ++
      ((values s.state.held).filterMap Held.demand ++
        (s.state.growing.filter (·.demand ≠ a.demand)).map (·.demand))) := by
    refine ((hrest.append_left _).append_left _).trans ?_
    exact (perm_middle.append_left _).trans perm_middle
  simp only [Ledger.tokens_unwait]
  exact h.waits.drop hdems

theorem held (h : s.Custody capacity) {token} (hfresh : token ∉ s.state.held) (holder)
    (owner cost requested) :
    Custody capacity { s with state := s.state.hold token holder owner cost requested none none } := by
  refine ⟨h.waits.keep (Nat.le_succ _) ?_,fun p => (h.seats p).keep (Perm.refl _) ?_⟩
  · simp [demands,State.hold,parts_insert_new hfresh]
  · simp [slots,State.hold,parts_insert_new hfresh]

theorem heldSlot (h : s.Custody capacity) {token} (hfresh : token ∉ s.state.held)
    (holder) (owner cost requested) {asked}
    (hans : ((s.pools p).enter 1 asked false).2 = .ok .granted) :
    Custody capacity { s.withPool p ((s.pools p).enter 1 asked false).1 with
      state := s.state.hold token holder owner cost requested none (some p) } := by
  refine h.repool (h.waits.keep (Nat.le_succ _) ?_) rfl
    ((h.seats p).enterGranted hans (Perm.refl _) ?_) fun q hq => ⟨Perm.refl _,?_⟩
  · simp [demands,withPool,State.hold,parts_insert_new hfresh]
  · simp only [slots,withPool,State.hold,parts_insert_new hfresh,Option.toList_some,
      count_append,count_singleton_self]
    omega
  · simp [slots,withPool,State.hold,parts_insert_new hfresh,Ne.symm hq]

theorem dropHeld (h : s.Custody capacity) {token held}
    (hheld : s.state.held.lookup token = some held) : Custody capacity (s.dropHeld ⟨token,held⟩) := by
  obtain ⟨hwait,hnext⟩ := s.state.waiting_dropHeld token held
  have hwaits : Waits ((s.state.dropHeld ⟨token,held⟩).ledger.waiting.map (·.token))
      (s.state.dropHeld ⟨token,held⟩).ledger.next
      (demands { s with state := s.state.dropHeld ⟨token,held⟩ }) := by
    rw [hwait,hnext]
    cases hdem : held.demand with
    | none =>
      have hrest := parts_erase_none hheld hdem
      exact h.waits.keep (Nat.le_refl _) ((hrest.symm.append_right _).append_left _)
    | some =>
      have hrest := parts_erase_some hheld hdem
      refine h.waits.drop (((hrest.append_right _).append_left _).trans ?_)
      exact perm_middle
  unfold Service.dropHeld
  cases hslot : held.slot with
  | none =>
    have hrest := parts_erase_none hheld hslot
    exact ⟨hwaits,fun p => (h.seats p).keep (Perm.refl _) ((hrest.symm.append_left _).count_eq p)⟩
  | some p =>
    have hrest := parts_erase_some hheld hslot
    refine h.repool hwaits rfl ((h.seats p).release (Perm.refl _) ?_) fun q hq => ⟨Perm.refl _,?_⟩
    · rw [slots,(hrest.append_left _).count_eq,perm_middle.count_eq,count_cons_self]
      rfl
    · rw [slots,slots,(hrest.append_left _).count_eq,perm_middle.count_eq,
        count_cons_of_ne (Ne.symm hq)]
      rfl

end Custody

end Service

end UCloudSandboxes.Admission
