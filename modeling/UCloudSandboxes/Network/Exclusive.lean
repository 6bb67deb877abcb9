import Mathlib.Data.List.Dedup
import UCloudSandboxes.Machine.Basic
import UCloudSandboxes.Network.Allocations

namespace UCloudSandboxes.Network
open Machine SlotState Function Option Replaced.Each List

/-- A process's memory: the slots it has configured, and the refill's slot between its turns. -/
structure Process where
  ready : List Nat := []
  work : Option Work := none

structure System (π : Type) where
  file : StateFile
  process : π → Process
  owner : Option π
  /-- Releases between their two turns: who holds the lease's lock, and the slot it read. -/
  releasing : LeaseKey → Option (π × Nat)

inductive Event (π : Type)
  | group (p : π) (keys : List LeaseKey) (w : Written) (rules : Bool)
  | ensure (p : π) (key : LeaseKey) (policy : Option String) (avoided : List Nat) (w : Written)
      (rules : Bool)
  | own (p : π)
  | adopt (p : π) (names : List Nat) (written : Bool)
  | refill (p : π) (written : Bool)
  | filled (p : π) (configured : Bool)
  | trimmed (p : π) (written : Bool)
  | disown (p : π)
  | beginRelease (p : π) (key : LeaseKey)
  | finishRelease (p : π) (key : LeaseKey) (interface : Bool) (w : Written)
  | crash (p : π)
  | powerLoss (version : Nat)

variable {π : Type}

namespace System

def fresh : System π := ⟨⟨none,[]⟩,fun _ => {},none,fun _ => none⟩

variable [DecidableEq π]

def setReady (s : System π) (p : π) (ready : List Nat) : System π :=
  { s with process := update s.process p { s.process p with ready } }

def setWork (s : System π) (p : π) (work : Option Work) : System π :=
  { s with process := update s.process p { s.process p with work } }

def took {α : Type} (s : System π) (p : π) (r : Turned α) : System π :=
  { s.setReady p r.ready with file := r.file }

end System

variable [DecidableEq π]

/-- `size` is how many slots each process wants pooled. -/
def step (size : π → Nat) (s : System π) : Event π → Option (System π)
  | .group p keys w rules =>
    -- Each member's caller holds the lease's lock, so no release of it is under way.
    if ∃ key ∈ keys, (s.releasing key).isSome then none
    else some (s.took p (allocateGroup s.file (s.process p).ready keys w rules))
  | .ensure p key policy avoided w rules =>
    if (s.releasing key).isSome then none
    else some (s.took p (ensure s.file (s.process p).ready key policy avoided w rules))
  | .own p => if s.owner.isNone then some { s with owner := some p } else none
  | .adopt p names written =>
    if s.owner = some p then some { s with file := adoptStrayPoolNamespaces s.file names written }
    else none
  | .refill p written =>
    if s.owner = some p ∧ (s.process p).work = none then
      let r := refillOne (size p) s.file (s.process p).ready written
      some ((s.took p r).setWork p r.answer)
    else none
  | .filled p configured =>
    match (s.process p).work with
    | some (.fill slot) =>
      let ready := if configured then (s.process p).ready.insert slot else (s.process p).ready
      some ((s.setReady p ready).setWork p none)
    | _ => none
  | .trimmed p written =>
    match (s.process p).work with
    | some (.trim slot) => some { s.setWork p none with file := finishTrim s.file slot written }
    | _ => none
  | .disown p =>
    -- Hand-outs end before another owner starts.
    if s.owner = some p ∧ (s.process p).work = none then some { s.setReady p [] with owner := none }
    else none
  | .beginRelease p key =>
    if (s.releasing key).isSome then none
    else match load s.file.current with
      | .error _ => none
      | .ok state => (state.leases.lookup key).map fun slot =>
          { s with releasing := update s.releasing key (some (p,slot)) }
  | .finishRelease p key interface w =>
    match s.releasing key with
    | none => none
    | some (holder,slot) =>
      if holder = p then
        some { s with
          file := (finishRelease s.file key slot interface w).2
          releasing := update s.releasing key none }
      else none
  | .crash p =>
    some { s with
      process := update s.process p {}
      owner := s.owner.filter (· ≠ p)
      releasing := fun key => (s.releasing key).filter (·.1 ≠ p) }
  | .powerLoss version => (s.file.recovered version).map fun file => { System.fresh with file }

def Event.released : Event π → Option LeaseKey
  | .finishRelease _ key _ _ => some key
  | _ => none

section Turns
variable {file : StateFile} {released : Option LeaseKey}

theorem changed_poolWrite {st : SlotState} {pool} (h : { st with pool }.Sound)
    (hl : st.leases = (contents file.current).leases) (written) :
    Changed released file (poolWrite file { st with pool } written) :=
  ⟨_,_,rfl,h,fun _ _ _ hk => (congrArg _ hl).trans hk⟩

section
variable (h : (contents file.current).Sound)
include h

theorem changed_refillOne (size ready written) :
    Changed released file (refillOne size file ready written).file := by
  obtain ⟨st,hload,hsound,hls,-,-⟩ := exists_load h
  simp only [refillOne,hload]
  split
  · split <;> exact .refl h
  split
  · exact .refl h
  split
  · exact .refl h
  split
  · exact .refl h
  rename_i slot hfree
  obtain ⟨hr,hu⟩ := freeSlot_some hfree
  refine changed_poolWrite ?_ hls written
  exact hsound.of_perm_append (perm_insertionSort _ _) (nodup_singleton slot)
    (by simpa using hr) (by simpa using hu)

theorem changed_adopt (names written) :
    Changed released file (adoptStrayPoolNamespaces file names written) := by
  obtain ⟨st,hload,hsound,hls,-,-⟩ := exists_load h
  simp only [adoptStrayPoolNamespaces,hload]
  split
  · exact .refl h
  refine changed_poolWrite ?_ hls written
  refine hsound.of_perm_append (perm_insertionSort _ _) ((nodup_dedup _).filter _) ?_ ?_
  · intro slot hs
    simpa using (mem_filter.mp (mem_dedup.mp (mem_filter.mp hs).1)).2
  · intro slot hs
    simpa using (mem_filter.mp hs).2

theorem changed_finishRelease (key slot interface w) :
    Changed (some key) file (finishRelease file key slot interface w).2 := by
  obtain ⟨st,hload,hsound,hls,-,-⟩ := exists_load h
  simp only [finishRelease,hload]
  split
  · exact .refl h
  split
  · exact .refl h
  refine ⟨_,_,rfl,hsound.removeLease key,fun k s hne hk => ?_⟩
  have hne : k ≠ key := fun he => hne (by rw [he])
  exact (AList.lookup_erase_ne hne).trans ((congrArg _ hls).trans hk)

theorem changed_allocateGroup (ready keys w rules) :
    Changed released file (allocateGroup file ready keys w rules).file := by
  obtain ⟨st,ha,-,hf | ⟨hf,-⟩⟩ := (groupServed_allocateGroup h ready keys w rules).state
  · rw [hf]
    exact .of_advance ha w
  · rw [hf]
    exact .refl h

end

end Turns

variable {size : π → Nat} {s s' : System π} {e : Event π} {key : LeaseKey} {slot : Nat}

theorem file_step (hs : (contents s.file.current).Sound) (h : step size s e = some s') :
    Changed e.released s.file s'.file ∨ ∃ n, e = .powerLoss n ∧ s.file.recovered n = some s'.file := by
  cases e with
  | group p keys w rules =>
    obtain ⟨-,⟨⟩⟩ := of_guard h nofun
    exact .inl (changed_allocateGroup hs _ keys w rules)
  | ensure p key policy avoided w rules =>
    obtain ⟨-,⟨⟩⟩ := of_guard h nofun
    exact .inl (ensured_ensure hs _ key policy avoided w rules).changed
  | own | disown =>
    obtain ⟨-,⟨⟩⟩ := of_check h nofun
    exact .inl (.refl hs)
  | adopt p names written =>
    obtain ⟨-,⟨⟩⟩ := of_check h nofun
    exact .inl (changed_adopt hs names written)
  | refill p written =>
    obtain ⟨-,⟨⟩⟩ := of_check h nofun
    exact .inl (changed_refillOne hs (size p) _ written)
  | filled =>
    simp only [step] at h
    split at h
    · cases h
      exact .inl (.refl hs)
    · cases h
  | trimmed p written =>
    simp only [step] at h
    split at h
    · cases h
      obtain ⟨st,hload,hsound,hls,-,-⟩ := exists_load hs
      simp only [finishTrim,hload]
      exact .inl (changed_poolWrite (hsound.unpool _) hls written)
    · cases h
  | beginRelease =>
    obtain ⟨-,h⟩ := of_guard h nofun
    split at h
    · cases h
    · obtain ⟨slot,-,rfl⟩ := map_eq_some_iff.mp h
      exact .inl (.refl hs)
  | finishRelease p key interface w =>
    simp only [step] at h
    split at h
    · cases h
    · obtain ⟨-,⟨⟩⟩ := of_check h nofun
      exact .inl (changed_finishRelease hs key _ interface w)
  | crash =>
    cases h
    exact .inl (.refl hs)
  | powerLoss n =>
    obtain ⟨file,hf,rfl⟩ := map_eq_some_iff.mp h
    exact .inr ⟨n,rfl,hf⟩

def System.Sound (s : System π) : Prop := s.file.Each fun v => (contents v).Sound

theorem System.Sound.step (hs : s.Sound) (h : step size s e = some s') : s'.Sound := by
  rcases file_step hs.current h with ⟨st,w,hf,hst,-⟩ | ⟨n,-,hf⟩
  · rw [System.Sound,hf]
    exact write hs hst
  · exact recovered hs hf

def Records (key : LeaseKey) (slot : Nat) (v : Option SlotState) : Prop :=
  (contents v).leases.lookup key = some slot

theorem records_step (hs : s.Sound) (hr : e.released ≠ some key) (h : step size s e = some s')
    (hk : s.file.Each (Records key slot)) : s'.file.Each (Records key slot) := by
  rcases file_step hs.current h with ⟨st,w,hf,-,hkept⟩ | ⟨n,-,hf⟩
  · rw [hf]
    exact write hk (hkept key slot hr hk.current)
  · exact recovered hk hf

/-- The event is no release of the lease, and no power loss with a version at hand that does not
record it. -/
def Keeps (key : LeaseKey) (slot : Nat) (s : System π) (e : Event π) : Prop :=
  e.released ≠ some key ∧ ∀ n, e = .powerLoss n → s.file.Each (Records key slot)

theorem held_step (hs : s.Sound) (hk : Keeps key slot s e) (h : step size s e = some s')
    (hl : held s.file key = some slot) : held s'.file key = some slot := by
  rcases file_step hs.current h with ⟨st,w,hf,-,hkept⟩ | ⟨n,he,hf⟩
  · rw [hf]
    by_cases hw : w = .failed
    · rw [hw]
      exact hl
    · rw [held,Replaced.current_write hw]
      exact hkept key slot hk.1 hl
  · exact (recovered (hk.2 n he) hf).current

def Answered (s : System π) (e : Event π) (key : LeaseKey) (slot : Nat) : Prop :=
  match e with
  | .group p keys w rules => ∃ pooled,
      (key,.ok (⟨key,slot⟩,pooled)) ∈ (allocateGroup s.file (s.process p).ready keys w rules).answer
  | .ensure p key' policy avoided w rules =>
      (ensure s.file (s.process p).ready key' policy avoided w rules).answer = .ok ⟨key,slot⟩
  | _ => False

section
variable (hs : s.Sound) (h : step size s e = some s') (ha : Answered s e key slot)
include hs h ha

theorem told_of_answered :
    e.released = none ∧ (∀ n, e ≠ .powerLoss n) ∧ Told s.file s'.file key ⟨key,slot⟩ := by
  cases e with
  | group p keys w rules =>
    obtain ⟨-,⟨⟩⟩ := of_guard h nofun
    obtain ⟨pooled,ha⟩ := ha
    have hg := groupServed_allocateGroup hs.current (s.process p).ready keys w rules
    exact ⟨rfl,nofun,hg.told _ ha _ pooled rfl⟩
  | ensure p key' policy avoided w rules =>
    obtain ⟨-,⟨⟩⟩ := of_guard h nofun
    have ht := (ensured_ensure hs.current (s.process p).ready key' policy avoided w rules).told _ ha
    obtain rfl : key = key' := ht.1
    exact ⟨rfl,nofun,ht⟩
  | _ => exact ha.elim

theorem records_of_answered (hl : held s.file key = none) : s'.file.Each (Records key slot) := by
  obtain ⟨-,-,-,ht,hf⟩ := told_of_answered hs h ha
  rcases hf with hf | hf
  · rw [hf,hl] at ht
    cases ht
  · have hcur : s'.file.current = s'.file.synced := by rw [Replaced.current,hf]; rfl
    intro v hv
    rw [Replaced.versions,hf,nil_append,mem_singleton,← hcur] at hv
    rw [hv]
    exact ht

end

/-- Allocating the key again gives the slot, found by any group and any request for its policy. -/
def Repeats (size : π → Nat) (s : System π) (key : LeaseKey) (slot : Nat) : Prop :=
  (∀ e s' slot', step size s e = some s' → Answered s e key slot' → slot' = slot) ∧
  (∀ p keys, key ∈ keys → key ∉ (contents s.file.current).policies →
    Answered s (.group p keys .synced true) key slot) ∧
  (∀ p avoided w, guestIp slot ∉ avoided →
    Answered s (.ensure p key ((contents s.file.current).policies.lookup key) avoided w true) key slot)

theorem repeats_of_held (hs : s.Sound) (hl : held s.file key = some slot) : Repeats size s key slot := by
  refine ⟨fun e s' slot' h ha => ?_,fun p keys hk hp => ?_,fun p avoided w ha => ?_⟩
  · obtain ⟨hr,hn,-,ht,-⟩ := told_of_answered hs h ha
    have hk : Keeps key slot s e := ⟨by simp [hr],fun n he => absurd he (hn n)⟩
    exact some.inj (ht.symm.trans (held_step hs hk h hl))
  · exact ⟨false,(groupServed_allocateGroup hs.current _ keys .synced true).found rfl rfl key hk slot hp hl⟩
  · exact (ensured_ensure hs.current _ key _ avoided w true).found slot hl rfl ha rfl

/-- A group leases a slot to each member, leaves each as it was, or runs out of slots: then each
member has a lease or is as it was. -/
def ServesGroup (before after : StateFile) (keys : List LeaseKey) : Prop :=
  (∀ key ∈ keys, (held after key).isSome) ∨
  (∀ key ∈ keys, held after key = held before key) ∨
  (contents after.current).Exhausted ∧
    ∀ key ∈ keys, (held after key).isSome ∨ held after key = held before key

theorem servesGroup_allocateGroup {file} (h : (contents file.current).Sound) (ready keys w rules) :
    ServesGroup file (allocateGroup file ready keys w rules).file keys := by
  obtain ⟨st,ha,hset,hf | ⟨hf,-⟩⟩ := (groupServed_allocateGroup h ready keys w rules).state
  · rw [hf]
    by_cases hw : w = .failed
    · exact .inr (.inl fun key _ => by rw [hw]; rfl)
    have hcur : (file.write (some st) w).current = some st := Replaced.current_write hw
    by_cases hall : ∀ key ∈ keys, (st.leases.lookup key).isSome
    · left
      intro key hk
      rw [held,hcur]
      exact hall key hk
    · -- A member without a lease found no slot.
      obtain ⟨key,hk,hnone⟩ := not_forall₂.mp hall
      refine .inr (.inr ⟨?_,fun k _ => ?_⟩)
      · rw [hcur]
        exact (hset key hk).resolve_left hnone
      · rw [held,hcur]
        change (st.leases.lookup k).isSome ∨ st.leases.lookup k = held file k
        cases hbef : held file k with
        | none => cases hl : st.leases.lookup k <;> simp
        | some slot => exact .inl (by rw [ha.kept k slot hbef]; rfl)
  · rw [hf]
    exact .inr (.inl fun _ _ => rfl)

theorem sound_of_reaches (h : Reaches (step size) anyEvent (· = .fresh) s) : s.Sound := by
  exact h.keeps (Replaced.each_single.mpr SlotState.Sound.empty) fun s e s' hs _ => hs.step

/-- In every interleaving and after any crash: no slot has two leases or is leased and pooled, and a
repeated allocation gives the same slot until the lease ends. -/
theorem slots_exclusive (size : π → Nat) {s : System π}
    (h : Reaches (step size) anyEvent (· = .fresh) s) :
    (∀ v ∈ s.file.versions, ∀ key key' slot, Records key slot v → Records key' slot v → key = key') ∧
    (∀ v ∈ s.file.versions, ∃ st, load v = .ok st ∧ ∀ slot ∈ st.pool, slot ∉ st.leased) ∧
    (∀ e s₁ key slot, step size s e = some s₁ → Answered s e key slot →
      (∀ s₂, Reaches (step size) (Keeps key slot) (· = s₁) s₂ → Repeats size s₂ key slot) ∧
      (held s.file key = none → ∀ s₂,
        Reaches (step size) (fun _ e' => e'.released ≠ some key) (· = s₁) s₂ →
        Repeats size s₂ key slot)) ∧
    ∀ p keys w rules s₁, step size s (.group p keys w rules) = some s₁ →
      ServesGroup s.file s₁.file keys := by
  have hs := sound_of_reaches h
  refine ⟨fun v hv key key' slot => (hs v hv).eq_of_lookup,fun v hv => ?_,
    fun e s₁ key slot hstep ha => ?_,fun p keys w rules s₁ hstep => ?_⟩
  · obtain ⟨st,hload,hst,-⟩ := exists_load (hs v hv)
    exact ⟨st,hload,fun slot => hst.notMem_leased⟩
  · have hs₁ := hs.step hstep
    obtain ⟨-,-,-,hheld,-⟩ := told_of_answered hs hstep ha
    refine ⟨fun s₂ hr => ?_,fun hnew s₂ hr => ?_⟩
    · obtain ⟨hs₂,hl⟩ : s₂.Sound ∧ held s₂.file key = some slot := by
        exact hr.keeps (I := fun s => s.Sound ∧ held s.file key = some slot) ⟨hs₁,hheld⟩
          fun _ _ _ hi hk hs' => ⟨hi.1.step hs',held_step hi.1 hk hs' hi.2⟩
      exact repeats_of_held hs₂ hl
    · obtain ⟨hs₂,hl⟩ : s₂.Sound ∧ s₂.file.Each (Records key slot) := by
        exact hr.keeps (I := fun s => s.Sound ∧ s.file.Each (Records key slot))
          ⟨hs₁,records_of_answered hs hstep ha hnew⟩
          fun _ _ _ hi hk hs' => ⟨hi.1.step hs',records_step hi.1 hk hs' hi.2⟩
      exact repeats_of_held hs₂ hl.current
  · obtain ⟨-,⟨⟩⟩ := of_guard hstep nofun
    exact servesGroup_allocateGroup hs.current _ keys w rules

namespace Example

def sandbox (n : Nat) : LeaseKey := ⟨"sandbox",n⟩

def events : List (Event Unit) :=
  [.group () [sandbox 1,sandbox 2] .synced true,.own (),.refill () true,.filled () true,
    .group () [sandbox 3] .synced true,.beginRelease () (sandbox 1),.finishRelease () (sandbox 1) false .synced,
    .refill () true,.powerLoss 1]

end Example

open Example

theorem slots_exclusive_after_loss : ∃ s : System Unit,
    Reaches (step fun _ => 1) anyEvent (· = .fresh) s ∧ held s.file (sandbox 3) = some 3 ∧
      held s.file (sandbox 1) = none ∧
      ∀ key, Records key 3 s.file.current → key = sandbox 3 := by
  obtain ⟨s,hr,h3,h1⟩ := Reaches.exists_from_run (step fun _ : Unit => 1) .fresh events (fun s =>
    held s.file (sandbox 3) = some 3 ∧ held s.file (sandbox 1) = none) (by decide +kernel)
  exact ⟨s,hr,h3,h1,fun key hk => (slots_exclusive (fun _ => 1) hr).1 _ s.file.current_mem_versions
    key (sandbox 3) 3 hk h3⟩

theorem length_le_of_leased {st : SlotState} (h : st.Sound) {keys : List LeaseKey} (hn : keys.Nodup)
    (hall : ∀ key ∈ keys, (st.leases.lookup key).isSome) : keys.length ≤ maxSlots := by
  have hkeys : keys.length ≤ st.leases.keys.length :=
    (subperm_of_subset hn fun key hk => AList.mem_keys.mp (AList.lookup_isSome.mp (hall key hk))).length_le
  have hlsd : st.leased.Nodup := (nodup_append.mp h.once).1
  have hslots : st.leased.length ≤ (range' 1 maxSlots).length :=
    (subperm_of_subset hlsd fun slot hs => by
      obtain ⟨h1,h2⟩ := h.slots slot (mem_used.mpr (.inl hs))
      exact mem_range'_1.mpr ⟨h1,by omega⟩).length_le
  have hlen : st.leases.keys.length = st.leased.length := by
    rw [AList.keys,List.keys,List.length_map,leased,List.length_map]
  rw [length_range'] at hslots
  omega

theorem step_group_fresh (size : π → Nat) (p keys) : step size .fresh (.group p keys .synced true) =
      some (System.fresh.took p (allocateGroup (System.fresh : System π).file [] keys .synced true)) :=
  if_neg (by simp [System.fresh])

theorem partly_served (size : π → Nat) (p) {keys} (hn : keys.Nodup)
    (hlong : maxSlots < keys.length) :
    ∃ s₁, step size (.fresh : System π) (.group p keys .synced true) = some s₁ ∧
      ∃ a ∈ keys, ∃ b ∈ keys, (held s₁.file a).isSome ∧ held s₁.file b = none := by
  have hstep := step_group_fresh size p keys
  have hfile : (contents (System.fresh : System π).file.current).Sound := SlotState.Sound.empty
  have hser := groupServed_allocateGroup hfile [] keys .synced true
  have hempty : ¬ empty.Exhausted := fun he => by
    simpa [empty,used,leased] using he 1 (by decide) (by decide)
  generalize allocateGroup (System.fresh : System π).file [] keys .synced true = r at hser hstep
  refine ⟨_,hstep,?_⟩
  change ∃ a ∈ keys, ∃ b ∈ keys, (held r.file a).isSome ∧ held r.file b = none
  obtain ⟨st,ha,hset,hf | ⟨-,hset⟩⟩ := hser.state
  · rw [hf]
    have hall : ¬ ∀ key ∈ keys, (st.leases.lookup key).isSome := fun hall => by
      have hle := length_le_of_leased ha.sound hn hall
      omega
    obtain ⟨b,hb,hnone⟩ := not_forall₂.mp hall
    -- No slot is left, so the first one is leased, and only members were leased one.
    have hone := (hset b hb).resolve_left hnone 1 le_rfl (by decide)
    rcases mem_used.mp hone with hl | hp
    · obtain ⟨a,hl⟩ := mem_leased.mp hl
      have hmem : a ∈ keys := by
        by_contra hn
        have hframe := ha.frame a hn
        rw [hl] at hframe
        cases hframe
      exact ⟨a,hmem,b,hb,isSome_iff_exists.mpr ⟨1,hl⟩,not_isSome_iff_eq_none.mp hnone⟩
    · cases ha.pool 1 hp
  · replace hset : Settled keys empty := hset
    obtain ⟨key,hk⟩ := exists_mem_of_length_pos (Nat.zero_lt_of_lt hlong)
    exact (hempty ((hset key hk).resolve_left (by simp [empty]))).elim

namespace Example

def crowd : List LeaseKey := (range (maxSlots + 1)).map sandbox

theorem nodup_crowd : crowd.Nodup :=
  nodup_range.map fun _ _ => congrArg LeaseKey.generation

theorem length_crowd : crowd.length = maxSlots + 1 := by
  rw [crowd,List.length_map,length_range]

def unsynced : List (Event Unit) := [.group () [sandbox 1] .renamed true,.crash ()]

def lossy : List (Event Unit) := [.powerLoss 1,.group () [sandbox 2] .synced true]

def tells (s : System Unit) (slot : Nat) : Bool :=
  (sandbox 1,.ok (⟨sandbox 1,slot⟩,false)) ∈
    (allocateGroup s.file (s.process ()).ready [sandbox 1] .synced true).answer

end Example

/-- A group may lease a slot to only one member. A lease found before its write was synced may be
another sandbox's after a power loss. -/
theorem group_serves_partly :
    (∃ s s₁ : System Unit, Reaches (step fun _ => 0) anyEvent (· = .fresh) s ∧
      ∃ keys, step (fun _ => 0) s (.group () keys .synced true) = some s₁ ∧
        ∃ a ∈ keys, ∃ b ∈ keys, held s.file a = none ∧ (held s₁.file a).isSome ∧
          held s₁.file b = none) ∧
    ∃ s s₁ s₂ : System Unit, Reaches (step fun _ => 0) anyEvent (· = .fresh) s ∧
      ∃ e key, step (fun _ => 0) s e = some s₁ ∧ Answered s e key 1 ∧
        Reaches (step fun _ => 0) (fun _ e' => e'.released ≠ some key) (· = s₁) s₂ ∧
        Answered s₂ e key 2 := by
  refine ⟨?_,?_⟩
  · have hlong : maxSlots < crowd.length := by rw [length_crowd]; exact Nat.lt_succ_self _
    obtain ⟨s₁,hstep,a,ha,b,hb,hsome,hnone⟩ := partly_served (fun _ => 0) () nodup_crowd hlong
    exact ⟨.fresh,s₁,.start rfl,crowd,hstep,a,ha,b,hb,rfl,hsome,hnone⟩
  · obtain ⟨s,hr,h1,s₁,hs₁,hs⟩ := Reaches.exists_from_run (step fun _ : Unit => 0) .fresh unsynced
      (fun s => tells s 1 = true ∧ ∃ s₁ ∈ step (fun _ => 0) s (.group () [sandbox 1] .synced true),
        ∃ s₂ ∈ runMeeting (step fun _ => 0) (fun _ e => e.released ≠ some (sandbox 1)) s₁ lossy,
          tells s₂ 2 = true) (by decide +kernel)
    obtain ⟨s₂,hr₂,h2⟩ := Reaches.exists_from_runMeeting _ _ _ _ _ hs
    exact ⟨s,s₁,s₂,hr,_,sandbox 1,hs₁,⟨false,of_decide_eq_true h1⟩,hr₂,
      ⟨false,of_decide_eq_true h2⟩⟩

end UCloudSandboxes.Network
