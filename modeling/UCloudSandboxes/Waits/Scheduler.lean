import UCloudSandboxes.Machine.Basic
import UCloudSandboxes.Network.Slots

/-! Node-local waits: relay packets are logged per guest address, and the policy pauses the
candidate of an address whose call is open. -/
namespace UCloudSandboxes.Waits
open Machine Network

structure RelayPacket where
  guest : Nat
  outbound : Bool
  payload : Nat
  flags : Nat := 0

namespace RelayPacket
variable (p : RelayPacket)

def calls : Bool := p.outbound && 0 < p.payload

def wakes : Bool := !p.outbound && (0 < p.payload || p.flags &&& 5 != 0)

end RelayPacket

structure Flow where
  lastOut : Nat := 0
  lastIn : Nat := 0
  cpu : List (Nat × Nat) := []
  answeredUntil : Nat := 0

namespace Flow
variable (f : Flow) (now : Nat)

def isOpen : Bool := f.lastIn < f.lastOut

def outstanding : Bool := f.isOpen && f.lastOut + 49999 ≤ now

def idle : Bool :=
  match f.cpu.head?, f.cpu.getLast? with
  | some first, some last => 2 ≤ f.cpu.length && first.1 + 49999 ≤ now && last.2 - first.2 ≤ 2000
  | _, _ => false

def dropOld : List (Nat × Nat) → List (Nat × Nat)
  | a :: b :: c :: rest => if b.1 + 49999 ≤ now then dropOld (b :: c :: rest) else a :: b :: c :: rest
  | samples => samples

def sample (usage : Nat) : Flow := { f with cpu := dropOld now (f.cpu ++ [(now, usage)]) }

/-- What a packet writes; an answer is watched for 30 s when its address has a candidate. -/
def observe (p : RelayPacket) (candidate : Bool) : Flow :=
  if p.calls then { f with lastOut := now }
  else if p.wakes then { f with
    lastIn := now
    answeredUntil := if candidate then now + 30000000 else f.answeredUntil }
  else f

def settle : Flow := if f.isOpen then { f with answeredUntil := 0 } else { f with cpu := [] }

end Flow

structure Address where
  flow : Option Flow := none
  wait : Option LeaseKey := none
  /-- What the policy thread read of the lease for its next refresh. -/
  listed : Option LeaseKey := none
  lease : Option LeaseKey := none
  /-- The incarnations with a logged request and no later answer. -/
  opened : List LeaseKey := []

structure Scheduler where
  addresses : Nat → Address := fun _ => {}
  busy : List LeaseKey := []
  clock : Nat := 0
  /-- The candidate found due, with its address, until its pause is submitted. -/
  due : Option (Nat × LeaseKey) := none
  /-- The pauses submitted, with whether the incarnation's own call was open then. -/
  pauses : List (LeaseKey × Bool) := []

inductive Event
  | create (guest : Nat) (key : LeaseKey)
  | delete (guest : Nat)
  | packet (p : RelayPacket) (now : Nat)
  | candidates (guests : List Nat)
  | refresh
  | settle
  | check (guest now usage : Nat)
  | submit (paused : Bool)
  | thaw (key : LeaseKey)
  | finish (key : LeaseKey)

namespace Address
variable (a : Address)

def observe (p : RelayPacket) (now : Nat) : Address :=
  { a with
    flow := (a.flow.getD {}).observe now p a.wait.isSome
    opened := if p.calls then a.lease.toList ++ a.opened else if p.wakes then [] else a.opened }

def refresh : Address :=
  { a with wait := a.listed, flow := if a.listed.isSome then a.flow else none }

structure Inv (clock : Nat) : Prop where
  time : ∀ f, a.flow = some f → f.lastOut ≤ clock
  call : ∀ key, some key ∈ [a.wait, a.listed, a.lease] → ∀ f, a.flow = some f → f.isOpen = true →
    key ∈ a.opened
  held : ∀ key, some key ∈ [a.wait, a.listed, a.lease] → ∀ l, a.lease = some l → l = key

end Address

namespace Scheduler
variable (s : Scheduler)

def put (guest : Nat) (a : Address) : Scheduler :=
  { s with addresses := Function.update s.addresses guest a }

def submit (key : LeaseKey) (own : Bool) : Scheduler :=
  if key ∈ s.busy then s else { s with busy := key :: s.busy, pauses := (key, own) :: s.pauses }

/-- Packets are those of the holder of an address; a tick looks at one candidate after the other. -/
def step : Event → Option Scheduler
  | .create guest key =>
    if (s.addresses guest).lease = none then
      some (s.put guest { s.addresses guest with lease := key }) else none
  | .delete guest => some (s.put guest { s.addresses guest with lease := none })
  | .packet p now =>
    if s.clock ≤ now ∧ (p.outbound = true → (s.addresses p.guest).lease ≠ none) then
      some ({ s with clock := now }.put p.guest ((s.addresses p.guest).observe p now)) else none
  | .candidates guests => some { s with addresses := fun guest =>
      { s.addresses guest with listed := if guest ∈ guests then (s.addresses guest).lease else none } }
  | .refresh => some { s with addresses := fun guest => (s.addresses guest).refresh }
  | .settle => some { s with addresses := fun guest =>
      { s.addresses guest with flow := (s.addresses guest).flow.map Flow.settle } }
  | .check guest now usage =>
    let a := s.addresses guest
    match a.wait, a.flow with
    | some key, some f =>
      let f := f.sample now usage
      let due := if f.outstanding now && f.idle now then some (guest, key) else none
      some ({ s with due }.put guest { a with flow := f })
    | _, _ => none
  | .submit paused =>
    match s.due with
    | some (guest, key) =>
      let s := { s with due := none }
      some (if paused then s else s.submit key (key ∈ (s.addresses guest).opened))
    | none => none
  | .thaw key => if key ∈ s.busy then none else some { s with busy := key :: s.busy }
  | .finish key => some { s with busy := s.busy.erase key }

/-- A guest address goes to an incarnation only when no candidate and no open flow holds it, and no
answer is logged between a candidate's check and its submit. -/
def fits : Event → Prop
  | .create guest _ => (s.addresses guest).wait = none ∧ (s.addresses guest).listed = none ∧
      ∀ f, (s.addresses guest).flow = some f → f.isOpen = false
  | .packet p _ => p.wakes = true → ∀ x ∈ s.due, x.1 ≠ p.guest
  | _ => True

structure Inv : Prop where
  addresses : ∀ guest, (s.addresses guest).Inv s.clock
  due : ∀ x ∈ s.due, x.2 ∈ (s.addresses x.1).opened
  own : ∀ x ∈ s.pauses, x.2 = true

end Scheduler

namespace Address.Inv
variable {a : Address} {clock : Nat}

theorem sub (h : a.Inv clock) {b : Address} (hope : b.opened = a.opened)
    (hnames : ∀ key, some key ∈ [b.wait, b.listed, b.lease] → some key ∈ [a.wait, a.listed, a.lease])
    (hlease : ∀ key, b.lease = some key → a.lease = some key)
    (hflow : ∀ f, b.flow = some f → ∃ f', a.flow = some f' ∧ f.lastOut = f'.lastOut ∧
      f.isOpen = f'.isOpen) : b.Inv clock := by
  refine ⟨fun f hf => ?_,fun key hk f hf ho => ?_,fun key hk l hl => ?_⟩
  · obtain ⟨f',hf',hout,-⟩ := hflow f hf
    exact hout ▸ h.time f' hf'
  · obtain ⟨f',hf',-,hopen⟩ := hflow f hf
    exact hope ▸ h.call key (hnames key hk) f' hf' (hopen ▸ ho)
  · exact h.held key (hnames key hk) l (hlease l hl)

theorem observe (h : a.Inv clock) {p now} (hnow : clock ≤ now)
    (hlease : p.outbound = true → a.lease ≠ none) : (a.observe p now).Inv now := by
  have hold : (a.flow.getD {}).lastOut ≤ clock ∧ ∀ key, some key ∈ [a.wait, a.listed, a.lease] →
      (a.flow.getD {}).isOpen = true → key ∈ a.opened := by
    cases hflow : a.flow with
    | none => exact ⟨Nat.zero_le _,nofun⟩
    | some f => exact ⟨h.time f hflow,fun key hk => h.call key hk f hflow⟩
  have hclock := hold.1.trans hnow
  refine ⟨?_,?_,h.held⟩ <;> unfold Address.observe Flow.observe <;> dsimp only
  · rintro _ ⟨⟩
    split
    · exact le_rfl
    · split <;> exact hclock
  · rintro key hk _ ⟨⟩ ho
    split
    · next hcalls =>
      obtain ⟨l,hl⟩ := Option.ne_none_iff_exists'.mp (hlease (Bool.and_elim_left hcalls))
      simp [hl,h.held key hk l hl]
    · next hcalls =>
      rw [if_neg hcalls] at ho
      split at ho
      · exact absurd hclock (by simpa [Flow.isOpen] using ho)
      next hwakes =>
      rw [if_neg hwakes]
      exact hold.2 key hk ho

end Address.Inv

namespace Scheduler.Inv
variable {s : Scheduler}

theorem put (h : s.Inv) {guest a clock} (hc : s.clock ≤ clock) (ha : a.Inv clock)
    (hdue : ∀ x ∈ s.due, x.1 = guest → x.2 ∈ a.opened) : ({ s with clock }.put guest a).Inv := by
  refine ⟨fun g => ?_,fun x hx => ?_,h.own⟩
  · by_cases hg : g = guest
    · subst hg
      simpa [Scheduler.put] using ha
    · have hold := h.addresses g
      simpa [Scheduler.put,hg] using (⟨fun f hf => (hold.time f hf).trans hc,hold.call,hold.held⟩ :
        (s.addresses g).Inv clock)
  · by_cases hg : x.1 = guest
    · simpa [Scheduler.put,hg] using hdue x hx hg
    · simpa [Scheduler.put,hg] using h.due x hx

theorem step (h : s.Inv) {e s'} (hok : s.fits e) (hs : s.step e = some s') : s'.Inv := by
  have hdue (guest) : ∀ x ∈ s.due, x.1 = guest → x.2 ∈ (s.addresses guest).opened := by
    rintro x hx rfl
    exact h.due x hx
  cases e with
  | create guest key =>
    obtain ⟨-,rfl⟩ := some_of_check hs
    obtain ⟨hwait,hlis,hcls⟩ := hok
    refine h.put le_rfl ⟨(h.addresses guest).time,fun k _ f hf ho => ?_,fun k hk l hl => ?_⟩ (hdue _)
    · simp [hcls f hf] at ho
    · simp_all
  | delete guest =>
    cases hs
    have hsub := (h.addresses guest).sub (b := { s.addresses guest with lease := none }) rfl (by grind)
      nofun fun f hf => ⟨f,hf,rfl,rfl⟩
    exact h.put le_rfl hsub (hdue _)
  | packet p now =>
    obtain ⟨⟨hnow,hlease⟩,rfl⟩ := some_of_check hs
    refine h.put hnow ((h.addresses _).observe hnow hlease) fun x hx hg => ?_
    have hmem := hdue _ x hx hg
    simp only [Address.observe]
    split
    · exact List.mem_append_right _ hmem
    · split
      · next hwakes => exact absurd hg (hok hwakes x hx)
      · exact hmem
  | candidates guests =>
    cases hs
    exact { h with addresses := fun g =>
      (h.addresses g).sub rfl (by grind) (fun _ h => h) fun f hf => ⟨f,hf,rfl,rfl⟩ }
  | refresh =>
    cases hs
    refine { h with addresses := fun g =>
      (h.addresses g).sub rfl (by grind [Address.refresh]) (fun _ h => h) fun f hf => ?_ }
    exact ⟨f,(of_check hf nofun).2,rfl,rfl⟩
  | settle =>
    cases hs
    refine { h with addresses := fun g =>
      (h.addresses g).sub rfl (fun _ h => h) (fun _ h => h) fun f hf => ?_ }
    obtain ⟨f,hf',rfl⟩ := Option.map_eq_some_iff.mp hf
    refine ⟨f,hf',?_⟩
    unfold Flow.settle
    split <;> exact ⟨rfl,rfl⟩
  | check guest now usage =>
    dsimp only [Scheduler.step] at hs
    split at hs
    · next key f hkey hf =>
      cases hs
      have hput : (s.put guest { s.addresses guest with flow := f.sample now usage }).Inv := by
        refine h.put le_rfl ((h.addresses guest).sub rfl (fun _ h => h) (fun _ h => h) ?_) (hdue _)
        rintro _ ⟨⟩
        exact ⟨f,hf,rfl,rfl⟩
      refine { hput with due := fun x hx => ?_ }
      obtain ⟨hd,⟨⟩⟩ := some_of_check hx
      simp only [Flow.outstanding,Bool.and_eq_true] at hd
      simpa [Scheduler.put] using (h.addresses guest).call key (by simp [hkey]) f hf hd.1.1
    · cases hs
  | submit paused =>
    dsimp only [Scheduler.step] at hs
    split at hs
    · next guest key hd =>
      cases hs
      have hsent : { s with due := none }.Inv := { h with due := nofun }
      split
      · exact hsent
      unfold submit
      split
      · exact hsent
      refine { hsent with own := fun x hx => ?_ }
      obtain rfl | hx := List.mem_cons.mp hx
      · exact decide_eq_true (h.due _ hd)
      · exact h.own x hx
    · cases hs
  | thaw key =>
    obtain ⟨-,rfl⟩ := some_of_guard hs
    exact { h with }
  | finish key =>
    cases hs
    exact { h with }

end Scheduler.Inv

namespace Scheduler

/-- While an address is handed on only once forgotten, a pause is for an incarnation whose own
request was logged with no later answer. -/
theorem pause_own_call {s} (h : Reaches step fits (· = {}) s) : ∀ x ∈ s.pauses, x.2 = true := by
  exact (h.keeps (I := Inv) ⟨fun _ => ⟨nofun,nofun,nofun⟩,nofun,nofun⟩ fun _ _ _ hi => hi.step).own

theorem pause_own_call_first : ∃ s, Reaches step fits (· = {}) s ∧ s.pauses = [(⟨"a",1⟩,true)] ∧
    ∀ x ∈ s.pauses, x.2 = true := by
  have h : Reaches step fits (· = {}) _ := .step (.step (.step (.step (.step (.step (.step (.start rfl)
    (e := .create 1 ⟨"a",1⟩) ⟨rfl,rfl,nofun⟩ rfl) (e := .candidates [1]) trivial rfl)
    (e := .refresh) trivial rfl) (e := .packet ⟨1,true,1,0⟩ 1) nofun rfl)
    (e := .check 1 60000 0) trivial rfl) (e := .check 1 120000 0) trivial rfl)
    (e := .submit false) trivial rfl
  exact ⟨_,h,rfl,pause_own_call h⟩

/-- The first incarnation at an address has sent its request. -/
def called : List Event :=
  [.create 1 ⟨"a",1⟩,.candidates [1],.refresh,.packet ⟨1,true,1,0⟩ 1]

/-- The next holder of an address is paused on the call that its last holder left open, and an
answer logged after the check is not seen by the submit. -/
theorem pause_other_call :
    (∃ s, Reaches step anyEvent (· = {}) s ∧ s.pauses = [(⟨"b",1⟩,false)]) ∧
    ∃ s, Reaches step anyEvent (· = {}) s ∧ s.pauses = [(⟨"a",1⟩,false)] :=
  ⟨Reaches.exists_from_run step _ (called ++ [.delete 1,.create 1 ⟨"b",1⟩,.candidates [1],.refresh,
    .check 1 60000 0,.check 1 120000 0,.submit false]) _ ⟨_,rfl,rfl⟩,
  Reaches.exists_from_run step _ (called ++ [.check 1 60000 0,.check 1 120000 0,
    .packet ⟨1,false,1,0⟩ 120000,.submit false]) _ ⟨_,rfl,rfl⟩⟩

end Scheduler
end UCloudSandboxes.Waits
