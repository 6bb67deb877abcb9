import UCloudSandboxes.Machine.Transaction
import UCloudSandboxes.Network.Slots

namespace UCloudSandboxes.Network
open Machine SlotState List AList

variable {st st' st'' : SlotState} {t : Turn} {key : LeaseKey} {keys keys' : List LeaseKey} {slot : Nat}

inductive Allocated (st : SlotState) (key : LeaseKey) :
    Except NetworkError (Lease × Bool × Bool) → SlotState → Prop
  | refused : key ∈ st.policies → Allocated st key (.error .policyImmutable) st
  | found {slot : Nat} : key ∉ st.policies → st.leases.lookup key = some slot →
      Allocated st key (.ok (⟨key,slot⟩,false,false)) st
  | exhausted : st.leases.lookup key = none → st.Exhausted → Allocated st key (.error .exhausted) st
  | granted {slot : Nat} {pooled : Bool} : st.leases.lookup key = none →
      1 ≤ slot ∧ slot ≤ maxSlots → slot ∉ st.leased →
      Allocated st key (.ok (⟨key,slot⟩,pooled,true)) (st.grant key slot)

theorem lease_of_mem_used (h : st.Sound) (hs : slot ∈ st.used) : lease key slot = .ok ⟨key,slot⟩ :=
  if_pos (h.slots slot hs)

theorem mem_used_of_lookup (h : st.leases.lookup key = some slot) : slot ∈ st.used :=
  mem_used.mpr (.inl (mem_leased.mpr ⟨key,h⟩))

theorem allocated_allocateOne (h : t.state.Sound) (key) :
    Allocated t.state key (allocateOne t key).1 (allocateOne t key).2.state := by
  simp only [allocateOne]
  split
  · exact .refused ‹_›
  split
  · rename_i hp _ slot hk
    rw [lease_of_mem_used h (mem_used_of_lookup hk)]
    exact .found hp hk
  · rename_i hk
    split
    · rename_i t' htake
      obtain ⟨hst,hfree⟩ := takeSlot_none htake
      rw [hst]
      refine .exhausted hk fun slot hl hu => ?_
      simpa using List.find?_eq_none.mp hfree slot (List.mem_range'_1.mpr (by omega))
    · rename_i slot pooled t' htake
      obtain ⟨hr,hf,hst⟩ := takeSlot_some h htake
      rw [lease,if_pos hr]
      simp only [hst]
      exact .granted hk hr hf

/-- What leasing to some keys may do: leases are added for those keys and none is lost. -/
structure Advance (keys : List LeaseKey) (st st' : SlotState) : Prop where
  sound : st'.Sound
  kept : ∀ key slot, st.leases.lookup key = some slot → st'.leases.lookup key = some slot
  frame : ∀ key, key ∉ keys → st'.leases.lookup key = st.leases.lookup key
  used : ∀ slot ∈ st.used, slot ∈ st'.used
  pool : ∀ slot ∈ st'.pool, slot ∈ st.pool

namespace Advance

theorem refl (h : st.Sound) : Advance keys st st :=
  ⟨h,fun _ _ hk => hk,fun _ _ => rfl,fun _ hs => hs,fun _ hs => hs⟩

theorem trans (h : Advance keys st st') (h' : Advance keys st' st'') : Advance keys st st'' :=
  ⟨h'.sound,fun k s hk => h'.kept k s (h.kept k s hk),
    fun k hk => (h'.frame k hk).trans (h.frame k hk),fun s hs => h'.used s (h.used s hs),
    fun s hs => h.pool s (h'.pool s hs)⟩

theorem mono (h : Advance keys st st') (hs : ∀ key ∈ keys, key ∈ keys') : Advance keys' st st' :=
  ⟨h.sound,h.kept,fun k hk => h.frame k fun hk' => hk (hs k hk'),h.used,h.pool⟩

theorem of_perm (hl : st'.leases = st.leases) (hp : st'.pool.Perm st.pool)
    (h' : st'.Sound) : Advance keys st st' := by
  refine ⟨h',fun k s hk => hl ▸ hk,fun k _ => by rw [hl],fun s hs => ?_,fun s => hp.mem_iff.mp⟩
  rw [mem_used,leased] at hs ⊢
  rw [hl,hp.mem_iff]
  exact hs

theorem grant (h : st.Sound) (hk : st.leases.lookup key = none) (hr : 1 ≤ slot ∧ slot ≤ maxSlots)
    (hf : slot ∉ st.leased) : Advance [key] st (st.grant key slot) := by
  refine ⟨h.grant hk hr hf,fun k s hks => ?_,fun k hne => ?_,fun s hs => ?_,
    fun s hs => (mem_filter.mp hs).1⟩
  · have hne : k ≠ key := by
      rintro rfl
      rw [hk] at hks
      cases hks
    exact (lookup_insert_ne hne).trans hks
  · exact lookup_insert_ne fun he => hne (mem_singleton.mpr he)
  · rw [mem_used,leased_grant hk]
    by_cases he : s = slot
    · exact .inl (mem_cons.mpr (.inl he))
    rcases mem_used.mp hs with hs | hs
    · exact .inl (.tail _ hs)
    · exact .inr (mem_filter.mpr ⟨hs,by simpa using he⟩)

theorem insertPolicy (h : Advance keys st st') (hk : key ∈ st'.leases) (policy) :
    Advance keys st (st'.insertPolicy key policy) := by
  have hpool : (st'.insertPolicy key policy).pool = st'.pool := by cases policy <;> rfl
  exact h.trans (.of_perm (leases_insertPolicy policy) (.of_eq hpool)
    (h.sound.insertPolicy hk policy))

end Advance

variable {o : Except NetworkError (Lease × Bool × Bool)}

theorem Allocated.advance (h : st.Sound) (ha : Allocated st key o st') : Advance [key] st st' := by
  cases ha with
  | refused | found | exhausted => exact .refl h
  | granted hk hr hf => exact .grant h hk hr hf

def Settled (keys : List LeaseKey) (st : SlotState) : Prop :=
  ∀ key ∈ keys, (st.leases.lookup key).isSome ∨ st.Exhausted

theorem Settled.advance (h : Settled keys st) (ha : Advance keys' st st') : Settled keys st' := by
  intro key hk
  rcases h key hk with hl | he
  · obtain ⟨slot,hl⟩ := Option.isSome_iff_exists.mp hl
    exact .inl (by rw [ha.kept key slot hl]; rfl)
  · exact .inr fun slot h1 h2 => ha.used slot (he slot h1 h2)

theorem Allocated.settled (h : st.Sound) (ha : Allocated st key o st') : Settled [key] st' := by
  intro k hk
  obtain rfl := mem_singleton.mp hk
  cases ha with
  | refused hp => exact .inl (lookup_isSome.mpr (h.policies k hp))
  | found _ hl => exact .inl (by rw [hl]; rfl)
  | exhausted _ he => exact .inr he
  | granted => exact .inl (by simp [grant,insertLease])

theorem Allocated.lookup {l pooled new} (ha : Allocated st key (.ok (l,pooled,new)) st') :
    l.key = key ∧ st'.leases.lookup key = some l.slot := by
  cases ha with
  | found _ hl => exact ⟨rfl,hl⟩
  | granted => exact ⟨rfl,lookup_insert _⟩

structure Grouped (keys : List LeaseKey) (st : SlotState) (outcomes : List Outcome) (written : Bool)
    (st' : SlotState) : Prop where
  advance : Advance keys st st'
  settled : Settled keys st'
  unwritten : written = false → st' = st
  told : ∀ o ∈ outcomes, ∀ l pooled, o.2 = .ok (l,pooled) →
    l.key = o.1 ∧ st'.leases.lookup o.1 = some l.slot
  found : ∀ key ∈ keys, ∀ slot, key ∉ st.policies → st.leases.lookup key = some slot →
    (key,.ok (⟨key,slot⟩,false)) ∈ outcomes

theorem Allocated.unwritten (ha : Allocated st key o st')
    (hn : (o.toOption.any fun (_,_,new) => new) = false) : st' = st := by
  cases ha with
  | refused | found | exhausted => rfl
  | granted => simp [Except.toOption] at hn

theorem Allocated.policies (ha : Allocated st key o st') : st'.policies = st.policies := by
  cases ha <;> rfl

theorem Allocated.eq_found (ha : Allocated st key o st') (hp : key ∉ st.policies)
    (hl : st.leases.lookup key = some slot) : o = .ok (⟨key,slot⟩,false,false) := by
  cases ha with
  | refused h => exact absurd h hp
  | found _ h => rw [Option.some.inj (hl.symm.trans h)]
  | exhausted h | granted h => cases hl.symm.trans h

theorem grouped_allocateAll (keys t) (h : t.state.Sound) :
    Grouped keys t.state (allocateAll keys t).1 (allocateAll keys t).2.1
      (allocateAll keys t).2.2.state := by
  induction keys generalizing t with
  | nil => exact ⟨.refl h,nofun,fun _ => rfl,nofun,nofun⟩
  | cons key keys ih =>
    have hone := allocated_allocateOne h key
    have hfirst := hone.advance h
    have hrest := ih _ hfirst.sound
    simp only [allocateAll]
    refine ⟨?_,?_,fun hn => ?_,fun o ho l pooled hl => ?_,fun k hk slot hp hl => ?_⟩
    · exact (hfirst.mono (by simp)).trans (hrest.advance.mono fun _ => mem_cons_of_mem _)
    · intro k hk
      rcases mem_cons.mp hk with rfl | hk
      · exact (hone.settled h).advance hrest.advance k (mem_singleton.mpr rfl)
      · exact hrest.settled k hk
    · obtain ⟨hn,hn'⟩ := Bool.or_eq_false_iff.mp hn
      exact (hrest.unwritten hn').trans (hone.unwritten hn)
    · rcases mem_cons.mp ho with rfl | ho
      · obtain ⟨⟨l',pooled',new⟩,ho,he⟩ := ok_of_map_ok hl
        obtain ⟨rfl,rfl⟩ := Prod.mk.inj he
        obtain ⟨hkey,hlook⟩ := (ho ▸ hone).lookup
        exact ⟨hkey,hrest.advance.kept _ _ hlook⟩
      · exact hrest.told o ho l pooled hl
    · rcases mem_cons.mp hk with rfl | hk
      · rw [hone.eq_found hp hl]
        exact (.head _)
      · exact mem_cons_of_mem _ (hrest.found k hk slot (hone.policies ▸ hp) (hfirst.kept k slot hl))

section
variable {file file' : StateFile} {ready : List Nat} {released : Option LeaseKey} {w : Written}
  {rules : Bool}

def held (file : StateFile) (key : LeaseKey) : Option Nat :=
  (contents file.current).leases.lookup key

/-- What one turn may do to the file: a sound version that keeps every lease but a released one. -/
def Changed (released : Option LeaseKey) (file file' : StateFile) : Prop :=
  ∃ st w, file' = file.write (some st) w ∧ st.Sound ∧
    ∀ key slot, released ≠ some key → held file key = some slot → st.leases.lookup key = some slot

theorem Changed.refl (h : (contents file.current).Sound) : Changed released file file :=
  ⟨contents file.current,.failed,rfl,h,fun _ _ _ hk => hk⟩

theorem Changed.of_advance (ha : Advance keys (contents file.current) st) (w) :
    Changed released file (file.write (some st) w) :=
  ⟨st,w,rfl,ha.sound,fun key slot _ => ha.kept key slot⟩

/-- A caller is told a lease that the file records: found there, or written through to the disk. -/
def Told (file file' : StateFile) (key : LeaseKey) (l : Lease) : Prop :=
  l.key = key ∧ held file' key = some l.slot ∧ (file' = file ∨ file'.later = [])

structure GroupServed (file : StateFile) (keys : List LeaseKey) (w : Written) (rules : Bool)
    (r : Turned (List Outcome)) : Prop where
  state : ∃ st, Advance keys (contents file.current) st ∧ Settled keys st ∧
    (r.file = file.write (some st) w ∨ r.file = file ∧ Settled keys (contents file.current))
  told : ∀ o ∈ r.answer, ∀ l pooled, o.2 = .ok (l,pooled) → Told file r.file o.1 l
  found : w = .synced → rules = true → ∀ key ∈ keys, ∀ slot,
    key ∉ (contents file.current).policies → held file key = some slot →
    (key,.ok (⟨key,slot⟩,false)) ∈ r.answer

theorem told_hostRules {outcomes : List Outcome} {P : Outcome → Lease → Prop} :
    ∀ o ∈ outcomes.map fun (key,outcome) => (key,outcome.bind fun _ => .error .hostRules),
      ∀ l pooled, o.2 = .ok (l,pooled) → P o l := by
  intro o ho l pooled hl
  obtain ⟨⟨key,outcome⟩,-,rfl⟩ := mem_map.mp ho
  cases outcome <;> cases hl

theorem groupServed_allocateGroup (h : (contents file.current).Sound) (ready keys w rules) :
    GroupServed file keys w rules (allocateGroup file ready keys w rules) := by
  obtain ⟨st,hload,hsound,hls,hpoli,hpool⟩ := exists_load h
  have hg := grouped_allocateAll keys ⟨ready,st⟩ hsound
  have hadv : Advance keys (contents file.current) st := .of_perm hls hpool hsound
  simp only [allocateGroup,hload]
  generalize allocateAll keys ⟨ready,st⟩ = r at hg ⊢
  obtain ⟨outcomes,written,t⟩ := r
  have hfound (key) (hk : key ∈ keys) (slot) (hp : key ∉ (contents file.current).policies)
      (hl : held file key = some slot) : (key,.ok (⟨key,slot⟩,false)) ∈ outcomes :=
    hg.found key hk slot (hpoli ▸ hp) (hls ▸ hl)
  have hstate := hadv.trans hg.advance
  cases written with
  | false =>
    -- Nothing new: every member had its lease already, or found no slot.
    obtain rfl : t.state = st := hg.unwritten rfl
    have hback : Advance keys t.state (contents file.current) := .of_perm hls.symm hpool.symm h
    cases rules with
    | true =>
      refine ⟨⟨_,hstate,hg.settled,.inr ⟨rfl,hg.settled.advance hback⟩⟩,fun o ho l p hl => ?_,
        fun _ _ => hfound⟩
      obtain ⟨hkey,hlook⟩ := hg.told o ho l p hl
      exact ⟨hkey,(congrArg _ hls.symm).trans hlook,.inl rfl⟩
    | false => exact ⟨⟨_,hstate,hg.settled,.inr ⟨rfl,hg.settled.advance hback⟩⟩,told_hostRules,nofun⟩
  | true =>
    by_cases hw : w = .synced
    · subst hw
      cases rules with
      | true =>
        refine ⟨⟨_,hstate,hg.settled,.inl rfl⟩,fun o ho l p hl => ?_,fun _ _ => hfound⟩
        obtain ⟨hkey,hlook⟩ := hg.told o ho l p hl
        exact ⟨hkey,hlook,.inr rfl⟩
      | false => exact ⟨⟨_,hstate,hg.settled,.inl rfl⟩,told_hostRules,nofun⟩
    · simp only [hw,ne_eq]
      refine ⟨⟨_,hstate,hg.settled,.inl rfl⟩,fun o ho l pooled hl => ?_,fun he => absurd he hw⟩
      obtain ⟨key,-,rfl⟩ := mem_map.mp ho
      cases hl

theorem checkLease_ok {policy avoided l} (h : checkLease st key policy avoided rules slot = .ok l) :
    l = ⟨key,slot⟩ := by
  simp only [checkLease,lease] at h
  grind

structure Ensured (file : StateFile) (key : LeaseKey) (policy : Option String) (avoided : List Nat)
    (rules : Bool) (r : Turned (Except NetworkError Lease)) : Prop where
  changed : Changed none file r.file
  told : ∀ l, r.answer = .ok l → Told file r.file key l
  found : ∀ slot, held file key = some slot →
    (contents file.current).policies.lookup key = policy → guestIp slot ∉ avoided → rules = true →
    r.answer = .ok ⟨key,slot⟩

theorem ensured_ensure (h : (contents file.current).Sound) (ready key policy avoided w rules) :
    Ensured file key policy avoided rules (ensure file ready key policy avoided w rules) := by
  obtain ⟨st,hload,hsound,hls,hpoli,hpool⟩ := exists_load h
  have hadv : Advance [key] (contents file.current) st := .of_perm hls hpool hsound
  simp only [ensure,hload]
  split
  · rename_i slot hk
    have hheld : held file key = some slot := by rw [held,← hls]; exact hk
    refine ⟨.refl h,fun l hl => ?_,fun s hs hp ha hr => ?_⟩
    · obtain rfl := checkLease_ok hl
      exact ⟨rfl,hheld,.inl rfl⟩
    · obtain rfl : slot = s := Option.some.inj (hheld.symm.trans hs)
      simp only [checkLease,lease_of_mem_used hsound (mem_used_of_lookup hk)]
      rw [if_neg (by rw [hpoli]; exact not_not.mpr hp),if_neg ha,if_pos hr]
  · rename_i hk
    have hfree : held file key = none := by rw [held,← hls]; exact hk
    have hnone (slot) (hs : held file key = some slot) : False := by simp [hfree] at hs
    split
    · exact ⟨.refl h,nofun,fun slot hs => (hnone slot hs).elim⟩
    rename_i slot pooled t htake
    obtain ⟨hr,hf,hst⟩ := takeSlot_some hsound htake
    have hgrant : Advance [key] (contents file.current) (st.grant key slot) :=
      hadv.trans (.grant hsound hk hr hf)
    have hnew : t.state.insertLease key slot = st.grant key slot := by rw [hst]; rfl
    have hlook : (st.grant key slot).leases.lookup key = some slot := lookup_insert _
    have hpol := hgrant.insertPolicy (lookup_isSome.mp (by rw [hlook]; rfl)) policy
    rw [hnew]
    refine ⟨.of_advance hpol w,fun l hl => ?_,fun slot hs => (hnone slot hs).elim⟩
    split at hl
    · rename_i hw
      obtain rfl := checkLease_ok hl
      refine ⟨rfl,?_,.inr (by rw [hw]; rfl)⟩
      rw [held,Replaced.current_write (by simp [hw])]
      exact (congrArg _ (leases_insertPolicy policy)).trans hlook
    · cases hl

end

end UCloudSandboxes.Network
