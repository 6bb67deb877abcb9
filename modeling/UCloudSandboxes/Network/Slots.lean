import Mathlib.Algebra.GroupWithZero.Nat
import Mathlib.Data.List.AList
import Mathlib.Data.List.Sort
import UCloudSandboxes.Machine.Replaced

/-! The direct network's slot file: leases, the pool of slots configured ahead, and each call's turn
under the state lock. -/
namespace UCloudSandboxes.Network
open Machine List Prod

/-- One incarnation of a sandbox; the source joins both parts with a NUL. -/
structure LeaseKey where
  sandboxId : String
  generation : Nat
deriving DecidableEq

def maxSlots : Nat := 32767

inductive NetworkError
  | doubleAllocated
  | invalidPolicies
  | invalidPool
  | invalidSlot
  | policyImmutable
  | exhausted
  | forbiddenGuestIp
  | leaseChanged
  | interfaceExists
  | io
  | hostRules
deriving DecidableEq

def NetworkError.message : NetworkError → Option String
  | .doubleAllocated => "direct network state double-allocates a slot"
  | .invalidPolicies => "direct network policy state is invalid"
  | .invalidPool => "direct network pool state is invalid"
  | .invalidSlot => "direct network state contains an invalid slot"
  | .policyImmutable => "network policy is immutable for a sandbox generation"
  | .exhausted => "direct network slot capacity is exhausted"
  | .forbiddenGuestIp => "existing direct network lease reuses a forbidden guest IP"
  | .leaseChanged => "network lease changed during cleanup"
  | .interfaceExists => "cannot release relay policy while interface exists"
  | .io | .hostRules => none

structure Lease where
  key : LeaseKey
  slot : Nat
deriving DecidableEq

variable (file : StateFile) (avoided : List Nat) (slot : Nat) (t : Turn) (key : LeaseKey)

def hostIp : Nat := 100 * 2 ^ 24 + 96 * 2 ^ 16 + slot * 2

def guestIp : Nat := hostIp slot + 1

def lease (slot : Nat) : Except NetworkError Lease :=
  if 1 ≤ slot ∧ slot ≤ maxSlots then .ok ⟨key,slot⟩ else .error .invalidSlot

/-- The state file. A policy names the relay a lease's egress is bound to; without one it is direct. -/
structure SlotState where
  leases : AList fun _ : LeaseKey => Nat
  pool : List Nat
  policies : AList fun _ : LeaseKey => String

namespace SlotState

def empty : SlotState := ⟨∅,[],∅⟩

def leased (st : SlotState) : List Nat := st.leases.entries.map (·.2)

def used (st : SlotState) : List Nat := st.leased ++ st.pool

def unpool (st : SlotState) (slot : Nat) : SlotState :=
  { st with pool := st.pool.filter (· ≠ slot) }

end SlotState

/-- The state file: versions of its content, none before the first write. -/
abbrev StateFile := Replaced (Option SlotState)

def load : Option SlotState → Except NetworkError SlotState
  | none => .ok .empty
  | some raw =>
    if ¬ raw.leased.Nodup then .error .doubleAllocated
    else if ∃ key ∈ raw.policies.keys, key ∉ raw.leases then .error .invalidPolicies
    else if ∃ slot ∈ raw.pool, ¬ (1 ≤ slot ∧ slot ≤ maxSlots) then .error .invalidPool
    else if ¬ raw.pool.Nodup then .error .invalidPool
    else .ok { raw with pool := (raw.pool.filter (· ∉ raw.leased)).insertionSort (· ≤ ·) }

/-- A turn under the state lock: the loaded state, and the slots this process configured as the
pool's owner. -/
structure Turn where
  ready : List Nat
  state : SlotState

def claimPooled : Option Nat × Turn :=
  -- A ready slot no longer pooled was leased by an older release.
  let ready := t.ready.filter (· ∈ t.state.pool)
  match (ready.filter (guestIp · ∉ avoided)).min? with
  | none => (none,{ t with ready })
  | some slot =>
    (some slot,⟨ready.filter (· ≠ slot),t.state.unpool slot⟩)

def claim : Turn → Option Nat × Turn := claimPooled []

section
variable (st : SlotState)

def freeSlot : Option Nat :=
  (range' 1 maxSlots).find? fun slot => slot ∉ st.used ∧ guestIp slot ∉ avoided

def takeSlot : Option (Nat × Bool) × Turn :=
  match claimPooled avoided t with
  | (some slot,t) => (some (slot,true),t)
  | (none,t) => ((freeSlot avoided t.state).map (·,false),t)

def SlotState.insertLease (key : LeaseKey) (slot : Nat) : SlotState :=
  { st with leases := st.leases.insert key slot }

/-- One member: its existing lease, else the lowest ready pooled slot, else the lowest free one; and
whether the state changed. -/
def allocateOne : Except NetworkError (Lease × Bool × Bool) × Turn :=
  if key ∈ t.state.policies then (.error .policyImmutable,t)
  else match t.state.leases.lookup key with
    | some slot => ((lease key slot).map (·,false,false),t)
    | none =>
      match takeSlot [] t with
      | (none,t) => (.error .exhausted,t)
      | (some (slot,pooled),t) =>
        match lease key slot with
        | .error e => (.error e,t)
        | .ok l => (.ok (l,pooled,true),{ t with state := t.state.insertLease key slot })

abbrev Outcome := LeaseKey × Except NetworkError (Lease × Bool)

def allocateAll : List LeaseKey → Turn → List Outcome × Bool × Turn
  | [], t => ([],false,t)
  | key :: keys, t =>
    let (outcome,t) := allocateOne t key
    let (outcomes,written,t) := allocateAll keys t
    ((key,outcome.map fun (l,pooled,_) => (l,pooled)) :: outcomes,
      (outcome.toOption.any fun (_,_,new) => new) || written,t)

structure Turned (α : Type) where
  answer : α
  ready : List Nat
  file : StateFile

def everyone (keys : List LeaseKey) (e : NetworkError) : List Outcome := keys.map (·,.error e)

/-- The queued members with one durable write. `rules` is what reconciling the host's rules gave. -/
def allocateGroup (ready : List Nat) (keys : List LeaseKey) (w : Written) (rules : Bool)
    : Turned (List Outcome) :=
  match load file.current with
  | .error e => ⟨everyone keys e,ready,file⟩
  | .ok state =>
    let (outcomes,written,t) := allocateAll keys ⟨ready,state⟩
    let file := if written then file.write (some t.state) w else file
    if written ∧ w ≠ .synced then ⟨everyone keys .io,t.ready,file⟩
    else if rules then ⟨outcomes,t.ready,file⟩
    else ⟨outcomes.map fun (key,outcome) => (key,outcome.bind fun _ => .error .hostRules),t.ready,file⟩

def checkLease (key : LeaseKey) (policy : Option String) (avoided : List Nat) (rules : Bool)
    (slot : Nat) : Except NetworkError Lease :=
  if st.policies.lookup key ≠ policy then .error .policyImmutable
  else match lease key slot with
    | .error e => .error e
    | .ok l =>
      if guestIp slot ∈ avoided then .error .forbiddenGuestIp
      else if rules then .ok l else .error .hostRules

def SlotState.insertPolicy (key : LeaseKey) : Option String → SlotState
  | none => st
  | some relay => { st with policies := st.policies.insert key relay }

end

/-- The agent's allocation of one lease, with a policy and guest addresses to avoid. -/
def ensure (ready : List Nat) (key : LeaseKey) (policy : Option String) (avoided : List Nat)
    (w : Written) (rules : Bool) : Turned (Except NetworkError Lease) :=
  match load file.current with
  | .error e => ⟨.error e,ready,file⟩
  | .ok state =>
    match state.leases.lookup key with
    | some slot => ⟨checkLease state key policy avoided rules slot,ready,file⟩
    | none =>
      match takeSlot avoided ⟨ready,state⟩ with
      | (none,t) => ⟨.error .exhausted,t.ready,file⟩
      | (some (slot,_),t) =>
        let st := (t.state.insertLease key slot).insertPolicy key policy
        let file := file.write (some st) w
        ⟨if w = .synced then checkLease st key policy avoided rules slot else .error .io,t.ready,file⟩

/-- What the refill does to the kernel once it has let go of the lock. -/
inductive Work
  | fill (slot : Nat)
  | trim (slot : Nat)
deriving DecidableEq

def poolWrite (st : SlotState) (written : Bool) : StateFile :=
  file.write (some st) (if written then .renamed else .failed)

/-- The refill's turn: pick a slot to trim or to fill; `none` once the pool is settled or the turn
fails. -/
def refillOne (size : Nat) (file : StateFile) (ready : List Nat) (written : Bool) :
    Turned (Option Work) :=
  match load file.current with
  | .error _ => ⟨none,ready,file⟩
  | .ok state =>
    let pending := state.pool.filter (· ∉ ready)
    if size < state.pool.length then
      match pending.getLast?.or state.pool.getLast? with
      | none => ⟨none,ready,file⟩
      | some slot => ⟨some (.trim slot),ready.filter (· ≠ slot),file⟩
    else match pending.head? with
      | some slot => ⟨some (.fill slot),ready,file⟩
      | none =>
        if state.pool.length = size then ⟨none,ready,file⟩
        else match freeSlot [] state with
          | none => ⟨none,ready,file⟩
          | some slot =>
            -- Written before any kernel object exists, so none is orphaned.
            let grown := (state.pool ++ [slot]).insertionSort (· ≤ ·)
            ⟨if written then some (.fill slot) else none,ready,
              poolWrite file { state with pool := grown } written⟩

/-- The end of a trim: the slot leaves the pool once its kernel objects are gone. -/
def finishTrim (written : Bool) : StateFile :=
  match load file.current with
  | .error _ => file
  | .ok state => poolWrite file (state.unpool slot) written

/-- Pool namespaces found by name whose slot nobody owns join the pool. -/
def adoptStrayPoolNamespaces (names : List Nat) (written : Bool) : StateFile :=
  let named := (names.filter fun slot => 1 ≤ slot ∧ slot ≤ maxSlots).dedup
  match load file.current with
  | .error _ => file
  | .ok state =>
    let stray := named.filter (· ∉ state.used)
    if stray = [] then file
    else poolWrite file { state with pool := (state.pool ++ stray).insertionSort (· ≤ ·) } written

def SlotState.removeLease (st : SlotState) (key : LeaseKey) : SlotState :=
  { st with leases := st.leases.erase key, policies := st.policies.erase key }

/-- The end of a release. `interface` says whether the host interface is still seen. -/
def finishRelease (slot : Nat) (interface : Bool) (w : Written) :
    Except NetworkError Unit × StateFile :=
  match load file.current with
  | .error e => (.error e,file)
  | .ok state =>
    if state.leases.lookup key ≠ some slot then (.error .leaseChanged,file)
    else if key ∈ state.policies ∧ interface then (.error .interfaceExists,file)
    else (if w = .synced then .ok () else .error .io,file.write (some (state.removeLease key)) w)

namespace SlotState
variable {st : SlotState} {key key' : LeaseKey} {slot : Nat} {pool : List Nat}

structure Sound (st : SlotState) : Prop where
  once : st.used.Nodup
  slots : ∀ slot ∈ st.used, 1 ≤ slot ∧ slot ≤ maxSlots
  policies : ∀ key ∈ st.policies, key ∈ st.leases

theorem mem_leased : slot ∈ st.leased ↔ ∃ key, st.leases.lookup key = some slot := by
  constructor
  · intro h
    obtain ⟨e,he,rfl⟩ := mem_map.mp h
    exact ⟨e.1,AList.mem_lookup_iff.mpr he⟩
  · rintro ⟨key,h⟩
    exact mem_map.mpr ⟨⟨key,slot⟩,AList.mem_lookup_iff.mp h,rfl⟩

theorem mem_used : slot ∈ st.used ↔ slot ∈ st.leased ∨ slot ∈ st.pool := mem_append

namespace Sound

theorem empty : SlotState.empty.Sound := ⟨by decide,by simp [used,leased,SlotState.empty],nofun⟩

theorem eq_of_lookup (h : st.Sound) (hk : st.leases.lookup key = some slot)
    (hk' : st.leases.lookup key' = some slot) : key = key' := by
  have hl : st.leased.Nodup := (nodup_append.mp h.once).1
  have he := inj_on_of_nodup_map hl (AList.mem_lookup_iff.mp hk) (AList.mem_lookup_iff.mp hk') rfl
  exact congrArg Sigma.fst he

theorem notMem_leased (h : st.Sound) (hs : slot ∈ st.pool) : slot ∉ st.leased := fun hl =>
  (nodup_append.mp h.once).2.2 slot hl slot hs rfl

theorem of_subperm (h : st.Sound) (hp : pool.Subperm st.pool) : { st with pool }.Sound := by
  have hused : (st.leased ++ pool).Subperm st.used := (subperm_append_left _).mpr hp
  obtain ⟨l,hl,hsub⟩ := hused
  exact ⟨hl.nodup_iff.mp (h.once.sublist hsub),
    fun slot hs => h.slots slot (hsub.subset (hl.mem_iff.mpr hs)),h.policies⟩

theorem of_perm_append (h : st.Sound) {new} (hp : pool.Perm (st.pool ++ new)) (hn : new.Nodup)
    (hr : ∀ slot ∈ new, 1 ≤ slot ∧ slot ≤ maxSlots) (hf : ∀ slot ∈ new, slot ∉ st.used) :
    { st with pool }.Sound := by
  have hused : (st.leased ++ pool).Perm (st.used ++ new) := by
    rw [used,append_assoc]
    exact hp.append_left _
  refine ⟨hused.nodup_iff.mpr (nodup_append.mpr ⟨h.once,hn,?_⟩),fun slot hs => ?_,h.policies⟩
  · rintro slot hs _ hs' rfl
    exact hf slot hs' hs
  · rcases mem_append.mp (hused.mem_iff.mp hs) with hs | hs
    · exact h.slots slot hs
    · exact hr slot hs

end Sound

theorem Sound.unpool (h : st.Sound) (slot) : (st.unpool slot).Sound :=
  h.of_subperm filter_sublist.subperm

def grant (st : SlotState) (key : LeaseKey) (slot : Nat) : SlotState :=
  (st.unpool slot).insertLease key slot

theorem leased_grant (hk : st.leases.lookup key = none) :
    (st.grant key slot).leased = slot :: st.leased := by
  simp only [leased,grant,insertLease,unpool]
  rw [AList.entries_insert_of_notMem (AList.lookup_eq_none.mp hk),map_cons]

theorem Sound.grant (h : st.Sound) (hk : st.leases.lookup key = none)
    (hr : 1 ≤ slot ∧ slot ≤ maxSlots) (hf : slot ∉ st.leased) : (st.grant key slot).Sound := by
  have hpool : (st.pool.filter (· ≠ slot)).Sublist st.pool := filter_sublist
  have hsub : (st.leased ++ st.pool.filter (· ≠ slot)).Sublist st.used := hpool.append_left _
  have hused : (st.grant key slot).used = slot :: (st.leased ++ st.pool.filter (· ≠ slot)) := by
    rw [used,leased_grant hk]
    rfl
  refine ⟨?_,?_,?_⟩
  · rw [hused]
    refine nodup_cons.mpr ⟨fun hs => ?_,h.once.sublist hsub⟩
    rcases mem_append.mp hs with hs | hs
    · exact hf hs
    · simp at hs
  · intro s hs
    rw [hused] at hs
    rcases mem_cons.mp hs with rfl | hs
    · exact hr
    · exact h.slots s (hsub.subset hs)
  · intro k hkp
    exact (AList.mem_insert _).mpr (.inr (h.policies k hkp))

theorem leases_insertPolicy (policy) : (st.insertPolicy key policy).leases = st.leases := by
  cases policy <;> rfl

theorem Sound.insertPolicy (h : st.Sound) (hk : key ∈ st.leases) (policy) :
    (st.insertPolicy key policy).Sound := by
  cases policy with
  | none => exact h
  | some =>
    refine ⟨h.once,h.slots,fun k hkp => ?_⟩
    rcases (AList.mem_insert _).mp hkp with rfl | hkp
    · exact hk
    · exact h.policies k hkp

theorem Sound.removeLease (h : st.Sound) (key) : (st.removeLease key).Sound := by
  have hl : (st.removeLease key).leased.Sublist st.leased := (kerase_sublist key _).map _
  have hsub : (st.removeLease key).used.Sublist st.used := hl.append_right _
  refine ⟨h.once.sublist hsub,fun slot hs => h.slots slot (hsub.subset hs),fun k hkp => ?_⟩
  obtain ⟨hne,hkp⟩ := AList.mem_erase.mp hkp
  exact AList.mem_erase.mpr ⟨hne,h.policies k hkp⟩

end SlotState

def contents (v : Option SlotState) : SlotState := v.getD .empty

variable {v : Option SlotState} {st : SlotState} {t t' : Turn} {key : LeaseKey} {slot : Nat}
  {pooled : Bool} {avoided : List Nat}

open SlotState

theorem load_eq (h : (contents v).Sound) :
    load v = .ok { contents v with pool := (contents v).pool.insertionSort (· ≤ ·) } := by
  cases v with
  | none => rfl
  | some raw =>
    replace h : raw.Sound := h
    obtain ⟨hl,hp,-⟩ := nodup_append.mp h.once
    have hrange : ¬ ∃ slot ∈ raw.pool, ¬ (1 ≤ slot ∧ slot ≤ maxSlots) := by
      rintro ⟨slot,hs,hr⟩
      exact hr (h.slots slot (mem_used.mpr (.inr hs)))
    have hpol : ¬ ∃ key ∈ raw.policies.keys, key ∉ raw.leases := by
      rintro ⟨key,hk,hn⟩
      exact hn (h.policies key (AList.mem_keys.mpr hk))
    have hfil : raw.pool.filter (· ∉ raw.leased) = raw.pool :=
      filter_eq_self.mpr fun slot hs => by simpa using h.notMem_leased hs
    simp only [load]
    rw [if_neg (not_not.mpr hl),if_neg hpol,if_neg hrange,if_neg (not_not.mpr hp),hfil]
    rfl

theorem exists_load (h : (contents v).Sound) :
    ∃ st, load v = .ok st ∧ st.Sound ∧ st.leases = (contents v).leases ∧
      st.policies = (contents v).policies ∧ st.pool.Perm (contents v).pool :=
  have hp := perm_insertionSort (· ≤ ·) (contents v).pool
  ⟨_,load_eq h,h.of_subperm hp.subperm,rfl,rfl,hp⟩

theorem claimPooled_none (h : claimPooled avoided t = (none,t')) : t'.state = t.state := by
  simp only [claimPooled] at h
  split at h
  · exact (congrArg (·.2.state) h).symm
  · cases congrArg (·.1) h

theorem claimPooled_some (h : claimPooled avoided t = (some slot,t')) :
    slot ∈ t.state.pool ∧ t'.state = t.state.unpool slot := by
  simp only [claimPooled] at h
  split at h
  · cases congrArg (·.1) h
  rename_i s hmin
  obtain ⟨hs,rfl⟩ := mk.inj h
  cases hs
  have hs := min?_mem hmin
  simp only [mem_filter,decide_eq_true_eq] at hs
  exact ⟨hs.1.2,rfl⟩

theorem freeSlot_some (h : freeSlot avoided st = some slot) :
    (1 ≤ slot ∧ slot ≤ maxSlots) ∧ slot ∉ st.used := by
  have hs := find?_some h
  have hr := mem_range'_1.mp (mem_of_find?_eq_some h)
  simp only [decide_eq_true_eq] at hs
  exact ⟨by omega,hs.1⟩

def SlotState.Exhausted (st : SlotState) : Prop := ∀ slot, 1 ≤ slot → slot ≤ maxSlots → slot ∈ st.used

theorem takeSlot_some (h : t.state.Sound) (ht : takeSlot avoided t = (some (slot,pooled),t')) :
    (1 ≤ slot ∧ slot ≤ maxSlots) ∧ slot ∉ t.state.leased ∧ t'.state = t.state.unpool slot := by
  simp only [takeSlot] at ht
  split at ht
  · rename_i s t₁ hclaim
    obtain ⟨hs,rfl⟩ := mk.inj ht
    cases hs
    obtain ⟨hpool,hst⟩ := claimPooled_some hclaim
    exact ⟨h.slots _ (mem_used.mpr (.inr hpool)),h.notMem_leased hpool,hst⟩
  · rename_i t₁ hclaim
    obtain ⟨hs,rfl⟩ := mk.inj ht
    obtain ⟨s,hfree,hs⟩ := Option.map_eq_some_iff.mp hs
    obtain ⟨rfl,-⟩ := mk.inj hs
    rw [claimPooled_none hclaim] at hfree ⊢
    obtain ⟨hr,hu⟩ := freeSlot_some hfree
    rw [mem_used,not_or] at hu
    refine ⟨hr,hu.1,?_⟩
    -- The slot was not pooled, so nothing leaves the pool.
    have hpool : t.state.pool.filter (· ≠ s) = t.state.pool :=
      filter_eq_self.mpr fun x hx => by simpa using fun he : x = s => hu.2 (he ▸ hx)
    rw [unpool,hpool]

theorem takeSlot_none (ht : takeSlot avoided t = (none,t')) :
    t'.state = t.state ∧ freeSlot avoided t.state = none := by
  simp only [takeSlot] at ht
  split at ht
  · cases congrArg (·.1) ht
  rename_i t₁ hclaim
  obtain ⟨hs,rfl⟩ := mk.inj ht
  have hst := claimPooled_none hclaim
  exact ⟨hst,hst ▸ Option.map_eq_none_iff.mp hs⟩

end UCloudSandboxes.Network
