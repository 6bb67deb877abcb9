import UCloudSandboxes.Machine.Basic
import UCloudSandboxes.Network.HostRules

namespace UCloudSandboxes.Network
open Machine Tables Rule List

variable {r r' : Rule} {t t' : Tables} {c : Chain} {place : Place} {snapshot : Option (List (List Word))}

namespace Rule

def key (r : Rule) : List Word :=
  .text r.chain.table :: .text "-A" :: .text r.chain.name :: r.args

theorem ruleKey_check (r : Rule) : ruleKey r.check = r.key := by
  cases r <;> rfl

theorem ruleKey_saved (r : Rule) : ruleKey (.text "-t" :: .text r.chain.table :: r.saved) = r.key := by
  cases r <;> rfl

theorem key_injective : Function.Injective key := by
  intro r r' h
  cases r <;> cases r' <;> simp [key,args,chain] at h ⊢
  · exact h
  · obtain ⟨ha,hp⟩ := h
    exact TcpEgress.ext ha hp

end Rule

def Placed (t : Tables) : Prop := ∀ c, ∀ r ∈ t c, r.chain = c

theorem mem_iptablesSnapshot (h : Placed t) : ruleKey r.check ∈ iptablesSnapshot t ↔ r ∈ t r.chain := by
  have hall : ∀ c : Chain, c ∈ [Chain.input,.forward,.postrouting] := fun c => by
    cases c <;> simp
  rw [ruleKey_check]
  simp only [iptablesSnapshot,mem_flatMap,mem_map]
  constructor
  · rintro ⟨c,-,r',hr',hk⟩
    obtain rfl := h c r' hr'
    rw [ruleKey_saved] at hk
    obtain rfl := key_injective hk
    exact hr'
  · intro hr
    exact ⟨r.chain,hall _,r,hr,r.ruleKey_saved⟩

def Sees (snapshot : Option (List (List Word))) (t : Tables) (r : Rule) : Prop :=
  ∀ keys ∈ snapshot, ruleKey r.check ∈ keys → r ∈ t r.chain

theorem Sees.mono (h : Sees snapshot t r) (ht : r ∈ t r.chain → r ∈ t' r.chain) : Sees snapshot t' r :=
  fun keys hkeys hk => ht (h keys hkeys hk)

theorem ensureIptables_eq (h : Sees snapshot t r) (place) :
    (ensureIptables snapshot place r t).2 = if r ∈ t r.chain then t else t.install place r := by
  by_cases hr : r ∈ t r.chain
  · rw [ensureIptables,if_pos (.inr hr),if_pos hr]
  have hn : ¬ ((∃ keys ∈ snapshot, ruleKey r.check ∈ keys) ∨ r ∈ t r.chain) := by
    rintro (⟨keys,hkeys,hk⟩ | hr')
    · exact hr (h keys hkeys hk)
    · exact hr hr'
  rw [ensureIptables,if_neg hn,if_neg hr]

theorem ensure_top (h : Sees snapshot t r) (hc : r.chain = c) :
    (ensureIptables snapshot .top r t).2 c = putTop (t c) r := by
  subst hc
  rw [ensureIptables_eq h,putTop]
  split <;> simp [install]

theorem ensure_bottom (h : Sees snapshot t r) (hc : r.chain = c) :
    (ensureIptables snapshot .bottom r t).2 c = putBottom (t c) r := by
  subst hc
  rw [ensureIptables_eq h,putBottom]
  split <;> simp [install]

theorem ensure_other (hc : c ≠ r.chain) : (ensureIptables snapshot place r t).2 c = t c := by
  rw [ensureIptables]
  split <;> simp [install,hc]

theorem mem_ensure (h : r' ∈ t c) : r' ∈ (ensureIptables snapshot place r t).2 c := by
  rw [ensureIptables]
  split
  · exact h
  by_cases hc : c = r.chain
  · subst hc
    cases place <;> simp [install,h]
  · simpa [install,hc] using h

theorem mem_delete (h : r' ∈ t c) (hne : r' ≠ r) : r' ∈ t.delete r c := by
  by_cases hc : c = r.chain
  · subst hc
    simpa [delete] using (mem_erase_of_ne hne).mpr h
  · simpa [delete,hc] using h

theorem Placed.ensure (h : Placed t) : Placed (ensureIptables snapshot place r t).2 := by
  rw [ensureIptables]
  split
  · exact h
  intro c x hx
  by_cases hc : c = r.chain
  · subst hc
    cases place <;> simp only [install,Function.update_self] at hx
    · exact (mem_cons.mp hx).elim (fun he => he ▸ rfl) (h _ x)
    · exact (mem_append.mp hx).elim (h _ x) fun he => mem_singleton.mp he ▸ rfl
  · exact h c x (by simpa [install,hc] using hx)

theorem Placed.delete (h : Placed t) : Placed (t.delete r) := by
  intro c x hx
  by_cases hc : c = r.chain
  · subst hc
    exact h _ x (mem_of_mem_erase (by simpa [Tables.delete] using hx))
  · exact h c x (by simpa [Tables.delete,hc] using hx)

/-- In a reconciliation: the forward chain so far, and the rules the snapshot is still right about. -/
structure Tracks (snapshot : Option (List (List Word))) (seen : Rule → Prop) (t : Tables)
    (l : List Rule) : Prop where
  forward : t .forward = l
  placed : Placed t
  sees : ∀ r, seen r → Sees snapshot t r

namespace Tracks
variable {seen seen' : Rule → Prop} {l : List Rule}

section
variable (h : Tracks snapshot seen t l)
include h

theorem top (hc : r.chain = .forward) (hr : seen r) :
    Tracks snapshot seen (ensureIptables snapshot .top r t).2 (putTop l r) :=
  ⟨by rw [ensure_top (h.sees r hr) hc,h.forward],h.placed.ensure,
    fun x hx => (h.sees x hx).mono mem_ensure⟩

theorem bottom (hc : r.chain = .forward) (hr : seen r) :
    Tracks snapshot seen (ensureIptables snapshot .bottom r t).2 (putBottom l r) :=
  ⟨by rw [ensure_bottom (h.sees r hr) hc,h.forward],h.placed.ensure,
    fun x hx => (h.sees x hx).mono mem_ensure⟩

theorem other (hc : .forward ≠ r.chain) (place) :
    Tracks snapshot seen (ensureIptables snapshot place r t).2 l :=
  ⟨by rw [ensure_other hc,h.forward],h.placed.ensure,fun x hx => (h.sees x hx).mono mem_ensure⟩

theorem delete (hc : r.chain = .forward)
    (hs : ∀ x, seen' x → seen x ∧ x ≠ r) : Tracks snapshot seen' (t.delete r) (l.erase r) :=
  ⟨by simp [Tables.delete,hc,h.forward],h.placed.delete,
    fun x hx => (h.sees x (hs x hx).1).mono fun hm => mem_delete hm (hs x hx).2⟩

end

theorem topAll {α : Type} (rule) (hc : ∀ a, (rule a).chain = .forward) (hr : ∀ a, seen (rule a))
    (items : List α) (h : Tracks snapshot seen t l) :
    Tracks snapshot seen (items.foldl (fun t a => (ensureIptables snapshot .top (rule a) t).2) t)
      (putAll (items.map rule) l) := by
  induction items generalizing t l with
  | nil => exact h
  | cons a items ih => exact ih (h.top (hc a) (hr a))

theorem deleteAll {α : Type} (rule) (hc : ∀ a, (rule a).chain = .forward)
    (hs : ∀ a x, seen x → x ≠ rule a) (items : List α) (h : Tracks snapshot seen t l) :
    Tracks snapshot seen (items.foldl (fun t a => t.delete (rule a)) t) (l.diff (items.map rule)) := by
  induction items generalizing t l with
  | nil => exact h
  | cons a items ih =>
    rw [map_cons,diff_cons]
    exact ih (h.delete (hc a) fun x hx => ⟨hx,hs a x hx⟩)

theorem weaken (h : Tracks snapshot seen t l) (hs : ∀ x, seen' x → seen x) :
    Tracks snapshot seen' t l := ⟨h.forward,h.placed,fun x hx => h.sees x (hs x hx)⟩

end Tracks

theorem denyDestinations_snd (destinations moved t) :
    (denyDestinations snapshot destinations (moved,t)).2 =
      destinations.foldl (fun t d => (ensureIptables snapshot .top (.drop d) t).2) t := by
  induction destinations generalizing moved t with
  | nil => rfl
  | cons d destinations ih => exact ih _ _

def relayed (relays reordered : Bool) (l : List Rule) : List Rule :=
  if relays then putTop (if reordered then l.erase .relay else l) .relay else l

theorem tracks_relay {l} (relays reordered : Bool)
    (h : Tracks snapshot (fun r => ∀ e, r ≠ .egress e) t l) :
    Tracks snapshot (fun r => (∀ e, r ≠ .egress e) ∧ r ≠ .relay)
      (if relays then ensureRelayForwardAccept snapshot reordered t else t)
      (relayed relays reordered l) := by
  cases relays with
  | false => exact h.weaken fun _ hx => hx.1
  | true =>
    cases reordered with
    | false => exact (h.top rfl (by simp)).weaken fun _ hx => hx.1
    | true =>
      have hdel : Tracks snapshot (fun r => (∀ e, r ≠ .egress e) ∧ r ≠ .relay) (t.delete .relay)
          (l.erase .relay) := h.delete rfl fun _ hx => hx
      -- The snapshot was taken before the deletion, so it is not consulted.
      have htop : (ensureIptables none .top .relay (t.delete .relay)).2 .forward =
          putTop (t.delete .relay .forward) .relay := ensure_top nofun rfl
      exact ⟨htop.trans (by rw [hdel.forward]; rfl),hdel.placed.ensure,
        fun x hx => (hdel.sees x hx).mono mem_ensure⟩

/-- The forward chain after one reconciliation of `l`, with the endpoints recorded before it. -/
def reconciled (relays reordered : Bool) (c : HostConfig) (recorded : List TcpEgress) (l : List Rule) :
    List Rule :=
  let exceptions := putAll (c.egress.map .egress) (putAll (c.denied.map .drop) l)
  let live := exceptions.diff ((recorded.filter (· ∉ c.egress)).map .egress)
  putBottom (putBottom (relayed relays reordered live) .broad) .established

theorem forward_ensureHostRules {h} (hp : Placed h.tables) (relays) (c) (trusted) :
    ∃ reordered, (ensureHostRules relays c trusted h).tables .forward =
        reconciled relays reordered c h.recorded (h.tables .forward) ∧
      Placed (ensureHostRules relays c trusted h).tables ∧
      (ensureHostRules relays c trusted h).recorded = c.egress := by
  simp only [ensureHostRules]
  generalize hsnap : (if trusted then some (iptablesSnapshot h.tables) else none) = snapshot
  have hstart : Tracks snapshot (fun _ => True) h.tables (h.tables .forward) :=
    ⟨rfl,hp,fun r _ => by
      subst hsnap
      cases trusted with
      | false => exact nofun
      | true =>
        rintro _ ⟨⟩ hk
        exact (mem_iptablesSnapshot hp).mp hk⟩
  have hinput := hstart.other (r := .inputDrop) nofun .top
  have hdrops := hinput.topAll .drop (fun _ => rfl) (fun _ => trivial) c.denied
  rw [← denyDestinations_snd c.denied false] at hdrops
  generalize denyDestinations snapshot c.denied _ = moved at hdrops ⊢
  have hegr := hdrops.topAll .egress (fun _ => rfl) (fun _ => trivial) c.egress
  have hoth : Tracks snapshot (fun r => ∀ e, r ≠ .egress e) _ _ := hegr.weaken fun _ _ => trivial
  have hlive := hoth.deleteAll .egress (fun _ => rfl) (fun e x hx => hx e)
    (h.recorded.filter (· ∉ c.egress))
  have hrelay := tracks_relay relays moved.1 hlive
  have hbroad := hrelay.bottom (r := .broad) rfl (by simp)
  have hest := hbroad.bottom (r := .established) rfl (by simp)
  have hnat := hest.other (r := .masquerade) nofun .bottom
  exact ⟨moved.1,hnat.forward,hnat.placed,rfl⟩

def IsDrop (r : Rule) : Prop := ∃ d, r = .drop d

def IsOpen (r : Rule) : Prop := r = .broad ∨ r = .established

structure Ordered (relays : Bool) (recorded : List TcpEgress) (l : List Rule) : Prop where
  nodup : l.Nodup
  ahead : Ahead IsDrop IsOpen l
  relay : .relay ∈ l → relays = true
  recorded : ∀ e, .egress e ∈ l → e ∈ recorded

theorem Ordered.sublist {relays recorded l l'} (h : Ordered relays recorded l) (hs : l'.Sublist l) :
    Ordered relays recorded l' :=
  ⟨h.nodup.sublist hs,h.ahead.sublist hs,fun hr => h.relay (hs.subset hr),
    fun e he => h.recorded e (hs.subset he)⟩

section Reconciled
variable {relays reordered : Bool} {c : HostConfig} {recorded : List TcpEgress} {l : List Rule}

theorem mem_relayed : r ∈ relayed relays reordered l ↔ r ∈ l ∨ r = .relay ∧ relays = true := by
  cases relays with
  | false => simp [relayed]
  | true =>
    rw [relayed,if_pos rfl,mem_putTop]
    cases reordered with
    | false => simp [or_comm]
    | true =>
      by_cases hr : r = .relay <;> simp [hr]

theorem nodup_relayed (h : l.Nodup) : (relayed relays reordered l).Nodup := by
  rw [relayed]
  split
  · split
    · exact nodup_putTop (h.erase _)
    · exact nodup_putTop h
  · exact h

theorem ahead_relayed (h : Ahead IsDrop IsOpen l) : Ahead IsDrop IsOpen (relayed relays reordered l) := by
  have hr : ¬ IsOpen .relay := by simp [IsOpen]
  rw [relayed]
  split
  · split
    · exact Ahead.putTop (Pairwise.sublist erase_sublist h) hr
    · exact h.putTop hr
  · exact h

def excepted (c : HostConfig) (recorded : List TcpEgress) (l : List Rule) : List Rule :=
  (putAll (c.egress.map .egress) (putAll (c.denied.map .drop) l)).diff
    ((recorded.filter (· ∉ c.egress)).map .egress)

theorem excepted_eq_filter (h : l.Nodup) : excepted c recorded l =
    (putAll (c.egress.map .egress) (putAll (c.denied.map .drop) l)).filter
      (· ∉ (recorded.filter (· ∉ c.egress)).map .egress) :=
  (nodup_putAll (nodup_putAll h)).sdiff_eq_filter

theorem mem_excepted (h : l.Nodup) : r ∈ excepted c recorded l ↔
    ((∃ e ∈ c.egress, .egress e = r) ∨ (∃ d ∈ c.denied, .drop d = r) ∨ r ∈ l) ∧
      ¬ ∃ e ∈ recorded, e ∉ c.egress ∧ .egress e = r := by
  rw [excepted_eq_filter h,mem_filter,mem_putAll,mem_putAll]
  simp

theorem egress_mem_excepted (h : Ordered relays recorded l) (e) :
    .egress e ∈ excepted c recorded l ↔ e ∈ c.egress := by
  rw [mem_excepted h.nodup]
  have hrec := h.recorded e
  simp only [egress.injEq,reduceCtorEq,and_false,exists_false,false_or,exists_eq_right]
  constructor
  · rintro ⟨he | he,hn⟩
    · exact he
    · by_contra hc
      exact hn ⟨e,hrec he,hc,rfl⟩
  · rintro he
    refine ⟨.inl he,?_⟩
    rintro ⟨e',-,hc,rfl⟩
    exact hc he

theorem nodup_excepted (h : l.Nodup) : (excepted c recorded l).Nodup := by
  rw [excepted_eq_filter h]
  exact (nodup_putAll (nodup_putAll h)).filter _

theorem ahead_excepted (hn : l.Nodup) (h : Ahead IsDrop IsOpen l) :
    Ahead IsDrop IsOpen (excepted c recorded l) := by
  rw [excepted_eq_filter hn]
  refine Pairwise.filter _ (Ahead.putAll (h.putAll ?_) ?_)
  · intro r hr
    obtain ⟨d,-,rfl⟩ := mem_map.mp hr
    simp [IsOpen]
  · intro r hr
    obtain ⟨e,-,rfl⟩ := mem_map.mp hr
    simp [IsOpen]

theorem mem_reconciled : r ∈ reconciled relays reordered c recorded l ↔
    IsOpen r ∨ r ∈ excepted c recorded l ∨ r = .relay ∧ relays = true := by
  change r ∈ putBottom (putBottom (relayed relays reordered (excepted c recorded l)) _) _ ↔ _
  rw [mem_putBottom,mem_putBottom,mem_relayed,IsOpen]
  tauto

theorem Ordered.reconciled (h : Ordered relays recorded l) :
    Ordered relays c.egress (reconciled relays reordered c recorded l) := by
  refine ⟨nodup_putBottom (nodup_putBottom (nodup_relayed (nodup_excepted h.nodup))),?_,fun hr => ?_,
    fun e he => ?_⟩
  · have hb : ¬ IsDrop .broad := by simp [IsDrop]
    have he : ¬ IsDrop .established := by simp [IsDrop]
    exact ((ahead_relayed (ahead_excepted h.nodup h.ahead)).putBottom hb).putBottom he
  · rcases mem_reconciled.mp hr with ho | he | ⟨-,hr⟩
    · simp [IsOpen] at ho
    · exact h.relay (by simpa [mem_excepted h.nodup] using he)
    · exact hr
  · rcases mem_reconciled.mp he with ho | he | ⟨hc,-⟩
    · simp [IsOpen] at ho
    · exact (egress_mem_excepted h e).mp he
    · cases hc

theorem drop_mem_above_relayed (hn : l.Nodup) {e} (he : .egress e ∈ l) (d) :
    .drop d ∈ above (.egress e) (relayed relays reordered l) ↔ .drop d ∈ above (.egress e) l := by
  rw [relayed]
  split
  · split
    · have he' : egress e ∈ l.erase .relay := (mem_erase_of_ne (by simp)).mpr he
      rw [mem_above_putTop he',hn.erase_eq_filter,above_filter (by simp)]
      simp
    · rw [mem_above_putTop he]
      simp
  · rfl

theorem drop_mem_above_reconciled (h : Ordered relays recorded l) {e} (he : e ∈ c.egress) (d) :
    .drop d ∈ above (.egress e) (reconciled relays reordered c recorded l) ↔
      .egress e ∈ l ∧ (d ∈ c.denied ∧ .drop d ∉ l ∨ .drop d ∈ above (.egress e) l) := by
  have hx : .egress e ∈ excepted c recorded l := (egress_mem_excepted h e).mpr he
  have hr : .egress e ∈ relayed relays reordered (excepted c recorded l) :=
    mem_relayed.mpr (.inl hx)
  change .drop d ∈ above _ (putBottom (putBottom (relayed relays reordered (excepted c recorded l)) _) _) ↔ _
  rw [above_putBottom (mem_putBottom.mpr (.inr hr)),above_putBottom hr,
    drop_mem_above_relayed (nodup_excepted h.nodup) hx,excepted_eq_filter h.nodup,
    above_filter (by simp [he]),mem_filter]
  have hlive : (decide (drop d ∉ (recorded.filter (· ∉ c.egress)).map .egress)) = true := by simp
  rw [and_iff_left hlive]
  by_cases hl : .egress e ∈ l
  · rw [mem_above_putAll (mem_putAll.mpr (.inr hl)),mem_above_putAll hl]
    simp [hl]
  · have hmem : egress e ∈ c.egress.map .egress := mem_map_of_mem he
    have hn : egress e ∉ putAll (c.denied.map .drop) l := by simp [mem_putAll,hl]
    refine ⟨fun hd => ?_,fun hd => absurd hd.1 hl⟩
    simpa using mem_of_mem_above_putAll hn hmem hd

end Reconciled

def EndpointsFirst (c : HostConfig) (l : List Rule) : Prop :=
  ∀ e ∈ c.egress, .egress e ∈ l ∧ ∀ d, .drop d ∈ above (.egress e) l → d.contains e.address = false

/-- A packet to a configured endpoint, or one the relay's guards have marked. -/
def Excepted (relays : Bool) (c : HostConfig) (p : Packet) : Prop :=
  (∃ e ∈ c.egress, p.destination = e.address ∧ p.tcpPort = some e.port) ∨ relays = true ∧ p.marked = true

def DeniedDropped (relays : Bool) (c : HostConfig) (l : List Rule) : Prop :=
  ∀ p : Packet, cidr.contains p.source = true → (∃ d ∈ c.denied, d.contains p.destination = true) →
    ¬ Excepted relays c p → verdict l p = some .drop

/-- No exception that is there already stands below a drop that covers it, or is about to. -/
def Fits (c : HostConfig) (l : List Rule) : Prop :=
  ∀ e ∈ c.egress, .egress e ∈ l →
    (∀ d, .drop d ∈ above (.egress e) l → d.contains e.address = false) ∧
    ∀ d ∈ c.denied, d.contains e.address = true → .drop d ∈ l

structure Host.Inv (relays : Bool) (h : Host) : Prop where
  placed : Placed h.tables
  ordered : Ordered relays h.recorded (h.tables .forward)

section Runs
variable {relays : Bool} {h h' : Host} {e : HostEvent}

theorem Host.Inv.step (hi : h.Inv relays) (hs : h.step relays e = some h') : h'.Inv relays := by
  cases e with
  | reconcile c trusted =>
    cases hs
    obtain ⟨reordered,hf,hp,hr⟩ := forward_ensureHostRules hi.placed relays c trusted
    refine ⟨hp,?_⟩
    rw [hf]
    exact hi.ordered.reconciled
  | remove chain =>
    cases hs
    refine ⟨fun c r hr => ?_,?_⟩
    · by_cases hc : c = chain
      · subst hc
        simp only [Function.update_self] at hr
        exact hi.placed c r (eraseIdx_subset hr)
      · exact hi.placed c r (by simpa [hc] using hr)
    · by_cases hc : .forward = chain
      · subst hc
        exact hi.ordered.sublist (eraseIdx_sublist _ _)
      · simpa [hc] using hi.ordered

theorem inv_of_reaches (hr : Reaches (Host.step relays) anyEvent (· = .fresh) h) : h.Inv relays := by
  exact hr.keeps ⟨nofun,.nil,.nil,nofun,nofun⟩ fun _ _ _ hi _ => hi.step

theorem deniedDropped_of_ordered {c l} (ho : Ordered relays c.egress l)
    (hf : ∀ r ∈ l, r.chain = .forward) (hd : ∀ d ∈ c.denied, .drop d ∈ l) :
    DeniedDropped relays c l := by
  rintro p hsou ⟨d,hden,hcon⟩ hexc
  have hall : ∀ r ∈ l, matches? p r = true → IsDrop r ∨ IsOpen r := by
    intro r hr hm
    cases r with
    | inputDrop | masquerade => cases hf _ hr
    | drop d => exact .inl ⟨d,rfl⟩
    | egress e =>
      simp only [matches?,Bool.and_eq_true,decide_eq_true_eq] at hm
      exact absurd (.inl ⟨e,ho.recorded e hr,hm.1.2,hm.2⟩) hexc
    | relay =>
      simp only [matches?,Bool.and_eq_true] at hm
      exact absurd (.inr ⟨ho.relay hr,hm.2⟩) hexc
    | broad => exact .inr (.inl rfl)
    | established => exact .inr (.inr rfl)
  have hm : matches? p (.drop d) = true := by simp [matches?,hsou,hcon]
  obtain ⟨_,hfind,d',rfl⟩ := ho.ahead.find? (hd d hden) ⟨d,rfl⟩ hm hall
  rw [verdict,hfind]
  rfl

/-- After a reconciliation every denied packet is dropped, and the exceptions come first exactly
when none that was there had a covering drop above it or put above it. -/
theorem firewall_order (hr : Reaches (Host.step relays) anyEvent (· = .fresh) h) (c : HostConfig)
    (trusted : Bool) : EndpointsFirst c ((ensureHostRules relays c trusted h).tables .forward) ∧
      DeniedDropped relays c ((ensureHostRules relays c trusted h).tables .forward) ↔
    Fits c (h.tables .forward) := by
  have hi := inv_of_reaches hr
  obtain ⟨reordered,hf,hp,-⟩ := forward_ensureHostRules hi.placed relays c trusted
  have hpl := hp .forward
  rw [hf] at hpl ⊢
  have hn := hi.ordered.nodup
  have hden : DeniedDropped relays c (reconciled relays reordered c h.recorded (h.tables .forward)) := by
    refine deniedDropped_of_ordered hi.ordered.reconciled hpl fun d hd => ?_
    exact mem_reconciled.mpr (.inr (.inl ((mem_excepted hn).mpr (by simp [hd]))))
  rw [and_iff_left hden]
  constructor
  · intro hfirst e he hl
    refine ⟨fun d hd => ?_,fun d hd hcov => ?_⟩
    · exact (hfirst e he).2 d ((drop_mem_above_reconciled hi.ordered he d).mpr ⟨hl,.inr hd⟩)
    · by_contra hmis
      have hfalse := (hfirst e he).2 d
        ((drop_mem_above_reconciled hi.ordered he d).mpr ⟨hl,.inl ⟨hd,hmis⟩⟩)
      rw [hcov] at hfalse
      cases hfalse
  · intro hfits e he
    refine ⟨mem_reconciled.mpr (.inr (.inl ((egress_mem_excepted hi.ordered e).mpr he))),fun d hd => ?_⟩
    obtain ⟨hl,⟨hd,hmis⟩ | hd⟩ := (drop_mem_above_reconciled hi.ordered he d).mp hd
    · exact Bool.eq_false_iff.mpr fun hcov => hmis ((hfits e he hl).2 d hd hcov)
    · exact (hfits e he hl).1 d hd

end Runs

namespace Example

/-- The shipped denied destinations, and one service inside the first of them. -/
def service : TcpEgress := ⟨ipv4 10 1 2 3,8080⟩

def hostConfig : HostConfig := ⟨deniedDestinations,[service]⟩

def reconcileOnce : Host := ensureHostRules false hostConfig true .fresh

def dropRemoved : List HostEvent := [.reconcile hostConfig true,.remove .forward 6]

end Example

open Example

theorem firewall_order_twice : EndpointsFirst hostConfig
      ((ensureHostRules false hostConfig true reconcileOnce).tables .forward) := by
  have hr : Reaches (Host.step false) anyEvent (· = .fresh) reconcileOnce :=
    .step (e := .reconcile hostConfig true) (.start rfl) trivial rfl
  refine ((firewall_order hr hostConfig true).mpr ?_).1
  intro e he hl
  obtain rfl := mem_singleton.mp he
  refine ⟨fun d hd => ?_,?_⟩
  · have hnone : above (.egress service) (reconcileOnce.tables .forward) = [] := by
      decide +kernel
    cases hd
  · decide +kernel

/-- A deny rule that was removed by hand is put back on top, above the endpoint it covers. -/
theorem drop_above_exception : ∃ h, Reaches (Host.step false) anyEvent (· = .fresh) h ∧
    ¬ EndpointsFirst hostConfig ((ensureHostRules false hostConfig true h).tables .forward) ∧
    verdict ((ensureHostRules false hostConfig true h).tables .forward)
      ⟨ipv4 100 96 0 3,service.address,some service.port,false,false⟩ = some .drop := by
  obtain ⟨h,hr,habove,hver⟩ := Reaches.exists_from_run (Host.step false) .fresh dropRemoved (fun h =>
    .drop ⟨ipv4 10 0 0 0,8⟩ ∈ above (.egress service)
      ((ensureHostRules false hostConfig true h).tables .forward) ∧
    verdict ((ensureHostRules false hostConfig true h).tables .forward)
      ⟨ipv4 100 96 0 3,service.address,some service.port,false,false⟩ = some .drop) (by decide +kernel)
  refine ⟨h,hr,fun hfirst => ?_,hver⟩
  have hfalse := (hfirst service (mem_singleton.mpr rfl)).2 _ habove
  exact absurd hfalse (by decide)

end UCloudSandboxes.Network
