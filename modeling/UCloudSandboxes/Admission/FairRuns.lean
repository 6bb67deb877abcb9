import UCloudSandboxes.Admission.Fair

namespace UCloudSandboxes.Admission
open Machine FairCapacity Ticket List Nat

variable {O : Type}

def FairCapacity.Stuck (c : FairCapacity O) : Prop :=
  ∀ t, c.waiters.head? = some t → c.available < t.weight

/-- From `queue`, the heads that fit are granted, up to one that does not fit in what is left. -/
def FairCapacity.Sweeps (c : FairCapacity O) (queue : List (Ticket O)) (c' : FairCapacity O) : Prop :=
  ∃ now rest, queue = now ++ rest ∧ load weight now ≤ c.available ∧
    c'.available = c.available - load weight now ∧ c'.waiters = rest ∧
    c'.granted = c.granted ++ now.map (·.id) ∧ c'.Stuck

theorem FairCapacity.sweeps_grantWaiters {c c' : FairCapacity O} {queue} (hqueue : c'.waiters = queue)
    (hava : c'.available = c.available) (hgr : c'.granted = c.granted) :
    c.Sweeps queue c'.grantWaiters := by
  subst hqueue
  obtain ⟨now,rest,hwai,hload,hstuck,hpool⟩ := c'.grantWaiters_spec
  rw [hava] at hload hstuck hpool
  rw [hgr] at hpool
  exact ⟨now,rest,hwai,hload,by rw [hpool],by rw [hpool],by rw [hpool],hpool ▸ hstuck⟩

namespace Callers

structure Books (capacity : Nat) (s : Callers O) : Prop where
  capacity_eq : s.pool.capacity = capacity
  /-- Grants in entry order, then the queue in entry order. -/
  order : (s.pool.granted ++ s.pool.waiters.map (·.id)).Pairwise (· < ·)
  granted_lt : ∀ i ∈ s.pool.granted, i < s.pool.entered
  cancelled_lt : ∀ i ∈ s.pool.cancelled, i < s.pool.entered ∧ i ∉ s.pool.granted
  left_lt : ∀ i ∈ s.left, i < s.pool.entered
  tickets_lt : ∀ t ∈ s.tickets, t.id < s.pool.entered
  tickets_nodup : (s.tickets.map (·.id)).Nodup
  queue : ∀ t, t ∈ s.pool.waiters ↔ t ∈ s.tickets ∧ t.id ∉ s.pool.granted ∧
    t.id ∉ s.pool.cancelled ∧ t.id ∉ s.left
  waiting : s.pool.waiters ⊆ s.pending
  pending_tickets : s.pending ⊆ s.tickets
  pending_nodup : s.pending.Nodup
  pending_left : ∀ t ∈ s.pending, t.id ∉ s.left
  conserve : s.pool.available + load weight s.outstanding = capacity + s.unreserved

structure Inv (capacity : Nat) (s : Callers O) : Prop where
  books : s.Books capacity
  stuck : s.pool.Stuck

namespace Books

variable {capacity : Nat} {s : Callers O}

variable {t : Ticket O}

section
variable (h : s.Books capacity)
include h

theorem eq_of_id {t'} (ht : t ∈ s.tickets) (ht' : t' ∈ s.tickets) (hid : t.id = t'.id) : t = t' :=
  inj_on_of_nodup_map h.tickets_nodup ht ht' hid

theorem granted_nodup : s.pool.granted.Nodup :=
  ((pairwise_append.mp h.order).1).imp Nat.ne_of_lt

theorem waiters_nodup : s.pool.waiters.Nodup := by
  have hids := (pairwise_append.mp h.order).2.1
  exact Nodup.of_map _ (hids.imp Nat.ne_of_lt)

theorem fresh : s.pool.entered ∉ s.pool.granted ∧
    s.pool.entered ∉ s.pool.cancelled ∧ s.pool.entered ∉ s.left ∧
    ∀ t ∈ s.tickets, t.id ≠ s.pool.entered :=
  ⟨fun hi => Nat.lt_irrefl _ (h.granted_lt _ hi),fun hi => Nat.lt_irrefl _ (h.cancelled_lt _ hi).1,
    fun hi => Nat.lt_irrefl _ (h.left_lt _ hi),fun t ht => Nat.ne_of_lt (h.tickets_lt t ht)⟩

theorem tickets_nodup_append (ht : t.id = s.pool.entered) : ((s.tickets ++ [t]).map (·.id)).Nodup := by
  rw [map_append,nodup_append]
  refine ⟨h.tickets_nodup,by simp,fun i hi j hj => ?_⟩
  obtain ⟨t',ht',rfl⟩ := mem_map.mp hi
  obtain rfl : j = t.id := by simpa using hj
  exact ht ▸ h.fresh.2.2.2 t' ht'

theorem order_append :
    (s.pool.granted ++ s.pool.waiters.map (·.id) ++ [s.pool.entered]).Pairwise (· < ·) := by
  refine pairwise_append.mpr ⟨h.order,pairwise_singleton ..,fun i hi j hj => ?_⟩
  obtain rfl := mem_singleton.mp hj
  obtain hi | hi := mem_append.mp hi
  · exact h.granted_lt i hi
  · obtain ⟨t,ht,rfl⟩ := mem_map.mp hi
    exact h.tickets_lt t ((h.queue t).mp ht).1

theorem enterGranted (ht : t.id = s.pool.entered) (hempty : s.pool.waiters = [])
    (hfits : t.weight ≤ s.pool.available) : Books capacity { s with
      pool := { s.pool with
        available := s.pool.available - t.weight
        granted := s.pool.granted ++ [s.pool.entered]
        entered := s.pool.entered + 1 }
      tickets := s.tickets ++ [t]
      held := s.held ++ [t] } := by
  have hlt := lt_succ_self s.pool.entered
  refine ⟨h.capacity_eq,?_,?_,?_,fun i hi => lt_succ_of_lt (h.left_lt i hi),?_,
    h.tickets_nodup_append ht,fun t' => ?_,?_,?_,h.pending_nodup,h.pending_left,?_⟩
  · simpa [hempty] using h.order_append
  · intro i hi
    obtain hi | hi := mem_append.mp hi
    · exact lt_succ_of_lt (h.granted_lt i hi)
    · exact mem_singleton.mp hi ▸ hlt
  · intro i hi
    refine ⟨lt_succ_of_lt (h.cancelled_lt i hi).1,fun hg => ?_⟩
    obtain hg | hg := mem_append.mp hg
    · exact (h.cancelled_lt i hi).2 hg
    · exact h.fresh.2.1 (mem_singleton.mp hg ▸ hi)
  · intro t' ht'
    obtain ht' | ht' := mem_append.mp ht'
    · exact lt_succ_of_lt (h.tickets_lt t' ht')
    · rw [mem_singleton.mp ht',ht]
      exact hlt
  · have hqueue := h.queue t'
    rw [hempty] at hqueue ⊢
    simp only [not_mem_nil,false_iff,mem_append,mem_singleton] at hqueue ⊢
    rintro ⟨htk | rfl,hg,hc,hl⟩
    · exact hqueue ⟨htk,fun hi => hg (.inl hi),hc,hl⟩
    · exact hg (.inr ht)
  · simp [hempty]
  · exact fun t' ht' => mem_append_left _ (h.pending_tickets ht')
  · have hmar : s.pending.filter ((s.pool.granted ++ [s.pool.entered]).contains ·.id) =
        s.pending.filter (s.pool.granted.contains ·.id) := by
      refine filter_congr fun t' ht' => ?_
      have hne := h.fresh.2.2.2 t' (h.pending_tickets ht')
      simp [hne]
    have hcons := h.conserve
    simp only [outstanding,load_append,load_cons,load_nil] at hcons ⊢
    rw [hmar]
    omega

theorem enterQueued (ht : t.id = s.pool.entered) : Books capacity { s with
      pool := { s.pool with
        waiters := s.pool.waiters ++ [t]
        entered := s.pool.entered + 1 }
      tickets := s.tickets ++ [t]
      pending := s.pending ++ [t] } := by
  have hlt := lt_succ_self s.pool.entered
  refine ⟨h.capacity_eq,?_,fun i hi => lt_succ_of_lt (h.granted_lt i hi),
    fun i hi => ⟨lt_succ_of_lt (h.cancelled_lt i hi).1,(h.cancelled_lt i hi).2⟩,
    fun i hi => lt_succ_of_lt (h.left_lt i hi),?_,h.tickets_nodup_append ht,fun t' => ?_,?_,?_,
    ?_,?_,?_⟩
  · simpa [ht] using h.order_append
  · intro t' ht'
    obtain ht' | ht' := mem_append.mp ht'
    · exact lt_succ_of_lt (h.tickets_lt t' ht')
    · rw [mem_singleton.mp ht',ht]
      exact hlt
  · simp only [mem_append,mem_singleton]
    constructor
    · rintro (hmem | rfl)
      · obtain ⟨htk,hrest⟩ := (h.queue t').mp hmem
        exact ⟨.inl htk,hrest⟩
      · rw [ht]
        exact ⟨.inr rfl,h.fresh.1,h.fresh.2.1,h.fresh.2.2.1⟩
    · rintro ⟨htk | rfl,hrest⟩
      · exact .inl ((h.queue t').mpr ⟨htk,hrest⟩)
      · exact .inr rfl
  · intro t' ht'
    obtain ht' | ht' := mem_append.mp ht'
    · exact mem_append_left _ (h.waiting ht')
    · exact mem_append_right _ ht'
  · intro t' ht'
    obtain ht' | ht' := mem_append.mp ht'
    · exact mem_append_left _ (h.pending_tickets ht')
    · exact mem_append_right _ ht'
  · refine nodup_append.mpr ⟨h.pending_nodup,nodup_singleton _,fun a ha b hb hab => ?_⟩
    obtain rfl : b = t := mem_singleton.mp hb
    exact h.fresh.2.2.2 a (h.pending_tickets ha) (hab ▸ ht)
  · intro t' ht'
    obtain ht' | ht' := mem_append.mp ht'
    · exact h.pending_left t' ht'
    · rw [mem_singleton.mp ht',ht]
      exact h.fresh.2.2.1
  · have hmar : (s.pending ++ [t]).filter (s.pool.granted.contains ·.id) =
        s.pending.filter (s.pool.granted.contains ·.id) := by
      have hnot : t.id ∉ s.pool.granted := ht ▸ h.fresh.1
      simp [hnot]
    have hcons := h.conserve
    simp only [outstanding] at hcons ⊢
    rw [hmar]
    exact hcons

theorem returned (available held unreserved) (hunits : available + load weight held + s.unreserved =
    s.pool.available + load weight s.held + unreserved) :
    Books capacity { s with pool := { s.pool with available }, held, unreserved } := by
  refine ⟨h.capacity_eq,h.order,h.granted_lt,h.cancelled_lt,h.left_lt,h.tickets_lt,h.tickets_nodup,
    h.queue,h.waiting,h.pending_tickets,h.pending_nodup,h.pending_left,?_⟩
  have hcons := h.conserve
  simp only [outstanding,load_append] at hcons ⊢
  omega

end

variable [DecidableEq O]

section
variable (h : s.Books capacity)
include h

theorem grantWaiters : Inv capacity { s with pool := s.pool.grantWaiters } := by
  obtain ⟨now,rest,hwai,hload,hstuck,hpool⟩ := s.pool.grantWaiters_spec
  have hnow : ∀ t ∈ now, t ∈ s.pool.waiters := fun t ht => hwai ▸ mem_append_left _ ht
  have hqd := fun t ht => (h.queue t).mp (hnow t ht)
  have horder : (s.pool.granted ++ now.map (·.id) ++ rest.map (·.id)).Pairwise (· < ·) := by
    rw [append_assoc,← map_append,← hwai]
    exact h.order
  have hbef : ∀ t ∈ now, ∀ t' ∈ rest, t.id < t'.id := fun t ht t' ht' =>
    (pairwise_append.mp horder).2.2 _
      (mem_append_right _ (mem_map_of_mem ht)) _ (mem_map_of_mem ht')
  have hnodup : now.Nodup := (nodup_append.mp (hwai ▸ h.waiters_nodup)).1
  rw [hpool]
  refine ⟨⟨h.capacity_eq,horder,?_,?_,h.left_lt,h.tickets_lt,h.tickets_nodup,?_,?_,
    h.pending_tickets,h.pending_nodup,h.pending_left,?_⟩,hstuck⟩
  · intro i hi
    obtain hi | hi := mem_append.mp hi
    · exact h.granted_lt i hi
    · obtain ⟨t,ht,rfl⟩ := mem_map.mp hi
      exact h.tickets_lt t (hqd t ht).1
  · intro i hi
    refine ⟨(h.cancelled_lt i hi).1,fun hg => ?_⟩
    obtain hg | hg := mem_append.mp hg
    · exact (h.cancelled_lt i hi).2 hg
    · obtain ⟨t,ht,rfl⟩ := mem_map.mp hg
      exact (hqd t ht).2.2.1 hi
  · intro t
    have hmem : t ∈ s.pool.waiters ↔ t ∈ now ∨ t ∈ rest := by rw [hwai,mem_append]
    constructor
    · intro ht
      obtain ⟨htk,hg,hc,hl⟩ := (h.queue t).mp (hmem.mpr (.inr ht))
      refine ⟨htk,fun hg' => ?_,hc,hl⟩
      obtain hg' | hg' := mem_append.mp hg'
      · exact hg hg'
      obtain ⟨t',ht',hid⟩ := mem_map.mp hg'
      have := hbef t' ht' t ht
      omega
    · rintro ⟨htk,hg,hc,hl⟩
      have hg := mem_append.not.mp hg
      rw [not_or] at hg
      obtain ht | ht := hmem.mp ((h.queue t).mpr ⟨htk,hg.1,hc,hl⟩)
      · exact absurd (mem_map_of_mem ht) hg.2
      · exact ht
  · exact fun t ht => h.waiting (hwai ▸ mem_append_right _ ht)
  · have hmark : load weight (s.pending.filter
        ((s.pool.granted ++ now.map (·.id)).contains ·.id)) =
        load weight (s.pending.filter (s.pool.granted.contains ·.id)) + load weight now := by
      refine load_filter_mark weight h.pending_nodup hnodup
        (fun t ht => h.waiting (hnow t ht)) (fun t ht => by simpa using (hqd t ht).2.1) ?_
      intro t ht
      have hid : t.id ∈ now.map (·.id) ↔ t ∈ now := by
        refine ⟨fun hid => ?_,mem_map_of_mem⟩
        obtain ⟨t',ht',hid⟩ := mem_map.mp hid
        exact h.eq_of_id (hqd t' ht').1 (h.pending_tickets ht) hid ▸ ht'
      simp [← hid]
    have hcons := h.conserve
    simp only [outstanding,load_append] at hcons ⊢
    omega

theorem leave (ht : t ∈ s.pending) (hg : t.id ∉ s.pool.granted) :
    Books capacity { s with
      pool := { s.pool with waiters := s.pool.waiters.filter (·.id ≠ t.id) }
      pending := s.pending.filter (· ≠ t)
      left := s.left ++ [t.id] } := by
  have htk := h.pending_tickets ht
  refine ⟨h.capacity_eq,?_,h.granted_lt,h.cancelled_lt,?_,h.tickets_lt,h.tickets_nodup,fun t' => ?_,
    fun t' ht' => ?_,fun t' ht' => ?_,h.pending_nodup.filter _,fun t' ht' => ?_,?_⟩
  · exact h.order.sublist ((filter_sublist.map _).append_left _)
  · intro i hi
    obtain hi | hi := mem_append.mp hi
    · exact h.left_lt i hi
    · exact mem_singleton.mp hi ▸ h.tickets_lt t htk
  · have hqueue := h.queue t'
    simp only [mem_filter,mem_append,mem_singleton,decide_eq_true_eq]
    tauto
  · obtain ⟨hmem,hne⟩ := mem_filter.mp ht'
    refine mem_filter.mpr ⟨h.waiting hmem,?_⟩
    simp only [decide_not,Bool.not_eq_true',decide_eq_false_iff_not] at hne ⊢
    exact fun heq => hne (heq ▸ rfl)
  · exact h.pending_tickets (mem_of_mem_filter ht')
  · obtain ⟨hmem,hne⟩ := mem_filter.mp ht'
    simp only [decide_not,Bool.not_eq_true',decide_eq_false_iff_not] at hne
    simp only [mem_append,mem_singleton,not_or]
    exact ⟨h.pending_left t' hmem,fun hid => hne (h.eq_of_id (h.pending_tickets hmem) htk hid)⟩
  · have hout : (s.pending.filter (· ≠ t)).filter (s.pool.granted.contains ·.id) =
        s.pending.filter (s.pool.granted.contains ·.id) := by
      rw [filter_filter]
      refine filter_congr fun t' ht' => ?_
      by_cases heq : t' = t
      · simp [heq,hg]
      · simp [heq]
    have hcons := h.conserve
    simp only [outstanding] at hcons ⊢
    rw [hout]
    exact hcons

theorem load_pending (ht : t ∈ s.pending) (hg : t.id ∈ s.pool.granted) :
    load weight ((s.pending.filter (· ≠ t)).filter (s.pool.granted.contains ·.id)) + t.weight =
      load weight (s.pending.filter (s.pool.granted.contains ·.id)) := by
  have hmem : t ∈ s.pending.filter (s.pool.granted.contains ·.id) :=
    mem_filter.mpr ⟨ht,by simpa using hg⟩
  rw [← load_filter_ne weight (h.pending_nodup.filter _) hmem,filter_filter, filter_filter]
  simp only [Bool.and_comm]

theorem consume (ht : t ∈ s.pending) (hg : t.id ∈ s.pool.granted)
    {available held left} (hleft : left = s.left ∨ left = s.left ++ [t.id])
    (hunits : available + load weight held = s.pool.available + load weight s.held + t.weight) :
    Books capacity { s with
      pool := { s.pool with available }
      pending := s.pending.filter (· ≠ t)
      held
      left } := by
  have htk := h.pending_tickets ht
  have hmem : ∀ i ∈ left, i ∈ s.left ∨ i = t.id := fun i hi => by
    obtain rfl | rfl := hleft
    · exact .inl hi
    · simpa using hi
  refine ⟨h.capacity_eq,h.order,h.granted_lt,h.cancelled_lt,?_,h.tickets_lt,h.tickets_nodup,
    fun t' => ?_,fun t' ht' => ?_,fun t' ht' => ?_,h.pending_nodup.filter _,fun t' ht' => ?_,?_⟩
  · intro i hi
    obtain hi | rfl := hmem i hi
    · exact h.left_lt i hi
    · exact h.tickets_lt t htk
  · rw [h.queue t']
    obtain rfl | rfl := hleft
    · exact Iff.rfl
    simp only [mem_append,mem_singleton,not_or]
    refine ⟨fun ⟨htk',hg',hc,hl⟩ => ⟨htk',hg',hc,hl,fun hid => hg' (hid ▸ hg)⟩,
      fun ⟨htk',hg',hc,hl,_⟩ => ⟨htk',hg',hc,hl⟩⟩
  · refine mem_filter.mpr ⟨h.waiting ht',?_⟩
    simp only [decide_not,Bool.not_eq_true',decide_eq_false_iff_not]
    rintro rfl
    exact ((h.queue t').mp ht').2.1 hg
  · exact h.pending_tickets (mem_of_mem_filter ht')
  · obtain ⟨hpend,hne⟩ := mem_filter.mp ht'
    simp only [decide_not,Bool.not_eq_true',decide_eq_false_iff_not] at hne
    intro hl
    obtain hl | hid := hmem _ hl
    · exact h.pending_left t' hpend hl
    · exact hne (h.eq_of_id (h.pending_tickets hpend) htk hid)
  · have hload := h.load_pending ht hg
    have hcons := h.conserve
    simp only [outstanding,load_append] at hcons ⊢
    omega

theorem cancel (owner) : Books capacity { s with
    pool := { s.pool with
      waiters := s.pool.waiters.filter (!selects owner ·)
      cancelled := s.pool.cancelled ++ (s.pool.waiters.filter (selects owner)).map (·.id) } } := by
  have hsele : ∀ t, t ∈ s.tickets →
      (t.id ∈ (s.pool.waiters.filter (selects owner)).map (·.id) ↔
        t ∈ s.pool.waiters ∧ selects owner t = true) := by
    intro t ht
    refine ⟨fun hid => ?_,fun hmem => mem_map_of_mem (mem_filter.mpr hmem)⟩
    obtain ⟨t',ht',hid⟩ := mem_map.mp hid
    have hmem := mem_filter.mp ht'
    exact h.eq_of_id ((h.queue t').mp hmem.1).1 ht hid ▸ hmem
  refine ⟨h.capacity_eq,?_,h.granted_lt,?_,h.left_lt,h.tickets_lt,h.tickets_nodup,fun t => ?_,
    fun t ht => h.waiting (mem_of_mem_filter ht),h.pending_tickets,h.pending_nodup,
    h.pending_left,h.conserve⟩
  · exact h.order.sublist ((filter_sublist.map _).append_left _)
  · intro i hi
    obtain hi | hi := mem_append.mp hi
    · exact h.cancelled_lt i hi
    obtain ⟨t,ht,rfl⟩ := mem_map.mp hi
    obtain ⟨htk,hg,-⟩ := (h.queue t).mp (mem_of_mem_filter ht)
    exact ⟨h.tickets_lt t htk,hg⟩
  · have hqueue := h.queue t
    simp only [mem_filter,mem_append,not_or,Bool.not_eq_true']
    constructor
    · rintro ⟨hmem,hkept⟩
      obtain ⟨htk,hg,hc,hl⟩ := hqueue.mp hmem
      refine ⟨htk,hg,⟨hc,fun hid => ?_⟩,hl⟩
      simp [((hsele t htk).mp hid).2] at hkept
    · rintro ⟨htk,hg,⟨hc,hid⟩,hl⟩
      have hmem := hqueue.mpr ⟨htk,hg,hc,hl⟩
      refine ⟨hmem,Bool.eq_false_iff.mpr fun hsel => hid ?_⟩
      exact (hsele t htk).mpr ⟨hmem,hsel⟩

end

end Books

namespace Inv

variable {capacity : Nat} {s : Callers O}

theorem start (h : Start capacity s) : Inv capacity s := by
  obtain ⟨pool,hpool,rfl⟩ := h
  unfold new at hpool
  split at hpool
  · cases hpool
  cases hpool
  refine ⟨⟨rfl,Pairwise.nil,nofun,nofun,nofun,nofun,nodup_nil,fun t => ?_,nofun,nofun,
    nodup_nil,nofun,rfl⟩,nofun⟩
  exact ⟨nofun,fun ht => nomatch ht.1⟩

private theorem eraseP_eq_filter {queue : List (Ticket O)} (h : (queue.map (·.id)).Pairwise (· < ·))
    (id) : queue.eraseP (·.id = id) = queue.filter (·.id ≠ id) := by
  induction queue with
  | nil => rfl
  | cons t rest ih =>
    obtain ⟨hlt,hrest⟩ := pairwise_cons.mp h
    by_cases hid : t.id = id
    · have hkept : rest.filter (·.id ≠ id) = rest := by
        refine filter_eq_self.mpr fun t' ht' => ?_
        have hbef : t.id < t'.id := hlt t'.id (mem_map_of_mem ht')
        simp only [decide_eq_true_eq]
        omega
      simp only [eraseP_cons,hid,filter_cons,ne_eq]
      exact hkept.symm
    · simp only [eraseP_cons,hid,filter_cons,ne_eq]
      exact congrArg (t :: ·) (ih hrest)

theorem remove_eq (h : s.Books capacity) (t) : s.pool.remove t =
    { s.pool with waiters := s.pool.waiters.filter (·.id ≠ t.id) } := by
  rw [remove,eraseP_eq_filter (pairwise_append.mp h.order).2.1]

theorem finish_eq (h : s.Books capacity) {t} (hg : t.id ∉ s.pool.granted) :
    s.pool.finish t = (grantWaiters
      { s.pool with waiters := s.pool.waiters.filter (·.id ≠ t.id) }, false) := by
  rw [FairCapacity.finish,if_neg (by simpa using hg)]
  split
  · rename_i hc
    have hkept : s.pool.waiters.filter (·.id ≠ t.id) = s.pool.waiters := by
      refine filter_eq_self.mpr fun t' ht' => ?_
      have hnot := ((h.queue t').mp ht').2.2.1
      simp only [decide_eq_true_eq]
      exact fun hid => hnot (by simpa [hid] using hc)
    rw [hkept]
  · rw [remove_eq h t]

theorem drop_eq (h : s.Books capacity) {t} (hg : t.id ∉ s.pool.granted) :
    s.pool.drop t = grantWaiters
      { s.pool with waiters := s.pool.waiters.filter (·.id ≠ t.id) } := by
  rw [FairCapacity.drop,if_neg (by simpa using hg),remove_eq h t]

theorem enter (h : Inv capacity s) (weight owner blocking) :
    Inv capacity (s.enter weight owner blocking).1 := by
  unfold Callers.enter
  cases hr : s.pool.enter weight owner blocking with
  | error => exact h
  | ok result =>
    obtain ⟨pool,result⟩ := result
    obtain ⟨rfl,hempty,hfits,rfl⟩ | ⟨rfl,rfl⟩ | ⟨rfl,hfits,rfl⟩ := enter_ok hr
    all_goals dsimp only
    · refine ⟨h.books.enterGranted (t := ⟨s.pool.entered,weight,owner⟩) rfl hempty hfits,fun t ht => ?_⟩
      simp [hempty] at ht
    · exact h
    · refine ⟨h.books.enterQueued rfl,fun t ht => ?_⟩
      cases hw : s.pool.waiters with
      | nil =>
        obtain rfl : _ = t := by simpa [hw] using ht
        exact hfits hw
      | cons head =>
        have hhead : s.pool.waiters.head? = some t := by simpa [hw] using ht
        exact h.stuck t hhead

variable [DecidableEq O]

section
variable (h : Inv capacity s)
include h

theorem finish {t} (ht : t ∈ s.pending) : Inv capacity (s.finish t).1 := by
  unfold Callers.finish
  by_cases hg : t.id ∈ s.pool.granted
  · rw [FairCapacity.finish,if_pos (by simpa using hg)]
    refine ⟨h.books.consume ht hg (.inl rfl) ?_,h.stuck⟩
    rw [load_append,load_cons,load_nil,Nat.add_zero,Nat.add_assoc]
  · rw [finish_eq h.books hg]
    exact (h.books.leave ht hg).grantWaiters

theorem drop {t} (ht : t ∈ s.pending) : Inv capacity (s.drop t) := by
  unfold Callers.drop
  by_cases hg : t.id ∈ s.pool.granted
  · rw [FairCapacity.drop,if_pos (by simpa using hg)]
    exact (h.books.consume ht hg (.inr rfl) (Nat.add_right_comm ..)).grantWaiters
  · rw [drop_eq h.books hg]
    exact (h.books.leave ht hg).grantWaiters

theorem release (weight) : Inv capacity (s.release weight) := by
  unfold Callers.release FairCapacity.release
  split_ifs with hbad
  · exact h
  · dsimp only
    cases hfind : s.held.find? (·.weight = weight) with
    | some t =>
      have hwei : t.weight = weight := by simpa using find?_some hfind
      have herase := load_perm Ticket.weight (perm_cons_erase (mem_of_find?_eq_some hfind))
      rw [load_cons] at herase
      exact (h.books.returned _ (s.held.erase t) s.unreserved (by omega)).grantWaiters
    | none => exact (h.books.returned _ s.held _ (by omega)).grantWaiters

theorem cancelWaiters (owner) : Inv capacity (s.cancelWaiters owner) :=
  (h.books.cancel owner).grantWaiters

theorem step {s' event} (hs : s.step event = some s') : Inv capacity s' := by
  cases event with
  | enter weight owner blocking => exact Option.some.inj hs ▸ h.enter weight owner blocking
  | finish =>
    obtain ⟨t,ht,rfl⟩ := Option.map_eq_some_iff.mp hs
    exact h.finish (mem_of_find?_eq_some ht)
  | drop =>
    obtain ⟨t,ht,rfl⟩ := Option.map_eq_some_iff.mp hs
    exact h.drop (mem_of_find?_eq_some ht)
  | release weight => exact Option.some.inj hs ▸ h.release weight
  | cancelWaiters owner => exact Option.some.inj hs ▸ h.cancelWaiters owner

end

theorem reaches (h : Reaches Callers.step anyEvent (Start capacity) s) : Inv capacity s :=
  h.invariant (fun _ => start) fun _ _ _ hi _ => hi.step

end Inv

variable [DecidableEq O] {capacity : Nat} {s s' : Callers O}

/-- A release the pool accepts returns a ticket that is held. -/
def returnsTicket (s : Callers O) : Event O → Bool
  | .release weight => s.held.any (·.weight = weight) || !(s.pool.release weight).isOk
  | _ => true

theorem unreserved_step {event} (hok : s.returnsTicket event = true) (hs : s.step event = some s') :
    s'.unreserved = s.unreserved := by
  cases event with
  | enter =>
    cases hs
    unfold enter
    dsimp only
    split <;> rfl
  | finish =>
    obtain ⟨t,-,rfl⟩ := Option.map_eq_some_iff.mp hs
    unfold finish
    dsimp only
    split <;> rfl
  | drop =>
    obtain ⟨t,-,rfl⟩ := Option.map_eq_some_iff.mp hs
    rfl
  | release weight =>
    cases hs
    unfold release
    split
    · rfl
    · rename_i hpool
      obtain ⟨t,ht,hwei⟩ : ∃ t ∈ s.held, t.weight = weight := by
        simpa [returnsTicket,hpool,Except.isOk,Except.toBool] using hok
      split
      · rfl
      · rename_i hnone
        exact absurd (decide_eq_true hwei) (find?_eq_none.mp hnone t ht)
  | cancelWaiters =>
    cases hs
    rfl

/-- No ticket is granted twice, the queue holds what is neither granted nor given up, and its head
does not fit; free units and granted weights make up the capacity if each release returns a ticket. -/
theorem fair_capacity_conserves :
    (Reaches step anyEvent (Start capacity) s →
      s.pool.granted.Nodup ∧ (∀ t, t ∈ s.pool.waiters ↔ t ∈ s.tickets ∧ t.id ∉ s.pool.granted ∧
        t.id ∉ s.pool.cancelled ∧ t.id ∉ s.left) ∧
      ∀ t, s.pool.waiters.head? = some t → s.pool.available < t.weight) ∧
    (Reaches step (fun s e => s.returnsTicket e = true) (Start capacity) s →
      s.pool.available + load Ticket.weight s.outstanding = capacity) := by
  refine ⟨fun h => ?_,fun h => ?_⟩
  · obtain ⟨hbooks,hstuck⟩ := Inv.reaches h
    exact ⟨hbooks.granted_nodup,hbooks.queue,hstuck⟩
  · have hcons := (Inv.reaches (h.mono fun _ _ _ => trivial)).books.conserve
    have hzero : s.unreserved = 0 := by
      refine h.invariant (I := (·.unreserved = 0)) ?_ fun _ _ _ hi hok hs => ?_
      · rintro _ ⟨_,_,rfl⟩
        rfl
      · exact (unreserved_step hok hs).trans hi
    rwa [hzero] at hcons

namespace Example

def heavyHead : List (Event String) :=
  [.enter 1 none true, .enter 2 none true, .enter 1 none true]

theorem idle_start : Start 2 ({ pool := ⟨2,2,[],[],[],0⟩ } : Callers String) := ⟨_,rfl,rfl⟩

end Example

/-- The light ticket ahead is returned, and the heavy one waiting takes its units. -/
theorem fair_capacity_conserves_heavy : ∃ s,
    Reaches step (fun s e => s.returnsTicket e = true) (Start 2) s ∧
    s.pool.waiters = ([⟨2,1,none⟩] : List (Ticket String)) ∧
    s.pool.available + load Ticket.weight s.outstanding = 2 := by
  obtain ⟨s,hs,hwait⟩ := Reaches.exists_of_runMeeting step (fun s e => s.returnsTicket e = true)
    Example.idle_start (Example.heavyHead ++ [.release 1]) (·.pool.waiters = [⟨2,1,none⟩])
    (by decide +kernel)
  exact ⟨s,hs,hwait,fair_capacity_conserves.2 hs⟩

/-- `release` looks at no ticket: one unit of a reservation of two comes back and is free, while the
ticket is still granted. -/
theorem fair_capacity_unreserved : ∃ s : Callers String, Reaches step anyEvent (Start 2) s ∧
    s.pool.available = 1 ∧ load Ticket.weight s.outstanding = 2 :=
  ⟨_,.of_run (.start ⟨_,rfl,rfl⟩) (show run step _ [.enter 2 none true,.release 1] = some _ from rfl),
    rfl,rfl⟩

theorem granted_prefix {event} (hs : s.step event = some s') : s.pool.granted <+: s'.pool.granted := by
  cases event with
  | enter weight owner blocking =>
    cases hs
    unfold enter
    cases hr : s.pool.enter weight owner blocking with
    | error => exact prefix_rfl
    | ok result =>
      obtain ⟨pool,result⟩ := result
      obtain ⟨rfl,-,-,rfl⟩ | ⟨rfl,rfl⟩ | ⟨rfl,-,rfl⟩ := enter_ok hr
      · exact prefix_append ..
      · exact prefix_rfl
      · exact prefix_rfl
  | finish =>
    obtain ⟨t,-,rfl⟩ := Option.map_eq_some_iff.mp hs
    have hpool : (s.finish t).1.pool = (s.pool.finish t).1 := by
      unfold finish
      dsimp only
      split <;> rfl
    rw [hpool]
    unfold FairCapacity.finish
    split
    · exact prefix_rfl
    · dsimp only
      split <;> exact prefix_append ..
  | drop =>
    obtain ⟨t,-,rfl⟩ := Option.map_eq_some_iff.mp hs
    unfold drop FairCapacity.drop
    split <;> exact prefix_append ..
  | release =>
    cases hs
    unfold release FairCapacity.release
    split_ifs
    · exact prefix_rfl
    · dsimp only
      split <;> exact prefix_append ..
  | cancelWaiters =>
    cases hs
    exact prefix_append ..

theorem sweeps_left {ticket} (h : s.Books capacity) (hg : ticket ∉ s.pool.granted)
    (hs : s.step (.finish ticket) = some s' ∨ s.step (.drop ticket) = some s') :
    s.pool.Sweeps (s.pool.waiters.filter (·.id ≠ ticket)) s'.pool := by
  have hpool : s'.pool = grantWaiters
      { s.pool with waiters := s.pool.waiters.filter (·.id ≠ ticket) } := by
    rcases hs with hs | hs <;> obtain ⟨t,ht,rfl⟩ := Option.map_eq_some_iff.mp hs <;>
      obtain rfl : t.id = ticket := by simpa using find?_some ht
    · rw [finish,Inv.finish_eq h hg]
      rfl
    · exact Inv.drop_eq h hg
  rw [hpool]
  exact sweeps_grantWaiters rfl rfl rfl

/-- Grants are in entry order and stay, and what fits once a ticket leaves the queue is granted in
that call. -/
theorem fair_capacity_fifo (h : Reaches step anyEvent (Start capacity) s) :
    s.pool.granted.Pairwise (· < ·) ∧ (∀ i ∈ s.pool.granted, ∀ t ∈ s.pool.waiters, i < t.id) ∧
      ∀ {event s'}, s.step event = some s' → s.pool.granted <+: s'.pool.granted ∧
        (∀ ticket, event = .finish ticket ∨ event = .drop ticket → ticket ∉ s.pool.granted →
          s.pool.Sweeps (s.pool.waiters.filter (·.id ≠ ticket)) s'.pool) ∧
        (∀ owner, event = .cancelWaiters owner → s.outstanding ⊆ s'.outstanding ∧
          s.pool.Sweeps (s.pool.waiters.filter (!selects owner ·)) s'.pool) := by
  have hbooks := (Inv.reaches h).books
  obtain ⟨hgr,-,hbef⟩ := pairwise_append.mp hbooks.order
  refine ⟨hgr,fun i hi t ht => hbef i hi t.id (mem_map_of_mem ht),?_⟩
  intro event s' hs
  have hkept := granted_prefix hs
  refine ⟨hkept,?_,?_⟩
  · rintro ticket (rfl | rfl) hg
    · exact sweeps_left hbooks hg (.inl hs)
    · exact sweeps_left hbooks hg (.inr hs)
  · rintro owner rfl
    cases hs
    refine ⟨fun t ht => ?_,sweeps_grantWaiters rfl rfl rfl⟩
    obtain ht | ht := mem_append.mp ht
    · obtain ⟨hpend,hg⟩ := mem_filter.mp ht
      refine mem_append_left _ (mem_filter.mpr ⟨hpend,?_⟩)
      simp only [contains_iff_mem] at hg ⊢
      exact hkept.subset hg
    · exact mem_append_right _ ht

/-- The heavy head times out, and the light ticket behind it is granted in that call. -/
theorem fair_capacity_fifo_timeout : ∃ s s', Reaches step anyEvent (Start 2) s ∧
    s.step (.finish 1) = some s' ∧ s'.pool.granted = [0,2] ∧
    s.pool.Sweeps (s.pool.waiters.filter (·.id ≠ 1)) (s'.pool : FairCapacity String) := by
  obtain ⟨s,hs,⟨s',hs',hgr⟩,hold⟩ := Reaches.exists_of_run step Example.idle_start Example.heavyHead
    (fun s => (∃ s' ∈ s.step (.finish 1), s'.pool.granted = [0,2]) ∧ s.pool.granted = [0])
    (by decide +kernel)
  exact ⟨s,s',hs,hs',hgr,((fair_capacity_fifo hs).2.2 hs').2.1 1 (.inl rfl) (by simp [hold])⟩

end Callers
end UCloudSandboxes.Admission
