import Mathlib.Order.Basic
import UCloudSandboxes.Machine.Basic
import UCloudSandboxes.Machine.Values

/-! The activity clock of one worker boot adds up three counters, each read at a moment of its own. -/
namespace UCloudSandboxes.Drain
open Machine Option

/-- A process whose counter starts at the monotonic clock and stays known after its end. -/
structure Process where
  running : Bool := false
  value : Nat := 0

def Process.count (p : Process) : Process := { p with value := p.value + 1 }

structure ActivityRevision where
  durable : Nat
  agent : Nat
  noded : Nat

/-- `compose_activity_revision` -/
def ActivityRevision.value (r : ActivityRevision) : Nat := r.durable + (r.agent + r.noded)

/-- A thread of the agent: a heartbeat, which asks noded and then reads the counter and the
inventory, or a receipt. `before` is what was issued when the receipt began. -/
inductive Sampling where
  | asking (answer : Option Nat)
  | answered (noded : Nat)
  | counted (noded agent : Nat)
  | advanced (agent : Nat) (before : List ActivityRevision)
  | reading (agent : Nat) (before : List ActivityRevision) (answer : Option Nat)
  | read (agent : Nat) (before : List ActivityRevision)
  | composed (noded agent : Nat) (before : List ActivityRevision)

def Sampling.answer : Sampling → Option Nat
  | .asking answer | .reading _ _ answer => answer
  | _ => none

structure ActivityClock where
  agent : Process := {}
  noded : Process := {}
  durable : Nat := 0
  /-- `_noded_revision` of the running agent. -/
  seen : Option Nat := none
  threads : AList fun _ : Nat => Sampling := ∅
  published : List ActivityRevision := []
  receipts : List (ActivityRevision × List ActivityRevision) := []

inductive ClockEvent where
  | startAgent (now : Nat)
  | stopAgent
  | startNoded (now : Nat)
  | stopNoded
  | agentWork
  | nodedWork
  | write
  | heartbeat (thread : Nat)
  | receipt (thread : Nat)
  | run (thread : Nat)
  | fail (thread : Nat)

namespace ActivityClock

section
variable (s : ActivityClock)

def put (thread : Nat) (x : Sampling) : ActivityClock :=
  { s with threads := s.threads.insert thread x }

def see (revision : Nat) : ActivityClock :=
  { s with seen := some (max revision (s.seen.getD revision)) }

def publish (thread : Nat) (r : ActivityRevision) : ActivityClock :=
  { s with threads := s.threads.erase thread, published := r :: s.published }

def advance (thread : Nat) : Sampling → Option ActivityClock
  | .asking none =>
    if s.noded.running then some (s.put thread (.asking (some s.noded.value))) else none
  | .asking (some n) => some ((s.see n).put thread (.answered n))
  | .answered n => some (s.put thread (.counted n s.agent.value))
  | .counted n a => some (s.publish thread ⟨s.durable,a,n⟩)
  | .advanced a before => some (s.put thread (match s.seen with
    | some n => .composed n a before
    | none => .reading a before none))
  | .reading a before none =>
    if s.noded.running then some (s.put thread (.reading a before (some s.noded.value))) else none
  | .reading a before (some n) => some ((s.see n).put thread (.read a before))
  | .read a before => some (s.put thread (.composed (s.seen.getD 0) a before))
  | .composed n a before => some { s.publish thread ⟨s.durable,a,n⟩ with
      receipts := (⟨s.durable,a,n⟩,before) :: s.receipts }

def step : ClockEvent → Option ActivityClock
  | .startAgent now => if s.agent.running then none else some { s with agent := ⟨true,now⟩ }
  | .stopAgent => some { s with agent := { s.agent with running := false }, seen := none, threads := ∅ }
  | .startNoded now => if s.noded.running then none else some { s with noded := ⟨true,now⟩ }
  | .stopNoded => some { s with noded := { s.noded with running := false } }
  | .agentWork => if s.agent.running then some { s with agent := s.agent.count } else none
  | .nodedWork => if s.noded.running then some { s with noded := s.noded.count } else none
  | .write => some { s with durable := s.durable + 1 }
  | .heartbeat thread =>
    if s.agent.running ∧ thread ∉ s.threads then some (s.put thread (.asking none)) else none
  | .receipt thread =>
    if s.agent.running ∧ thread ∉ s.threads then
      some { s.put thread (.advanced (s.agent.value + 1) s.published) with agent := s.agent.count }
    else none
  | .run thread => (s.threads.lookup thread).bind (s.advance thread)
  | .fail thread => (s.threads.lookup thread).map fun
    | .reading a before _ => s.put thread (.read a before)
    | _ => { s with threads := s.threads.erase thread }

/-- At a start the monotonic clock is past the counter of the process before, as when it advances by
more than the events. -/
def timely : ClockEvent → Bool
  | .startAgent now => s.agent.value < now
  | .startNoded now => s.noded.value < now
  | _ => true

/-- Moreover noded answers a receipt's question when the agent has heard nothing from it yet. -/
def answered (e : ClockEvent) : Prop :=
  (s.timely e && match e with
    | .fail thread => s.seen.isSome || (s.threads.lookup thread).all fun
      | .reading .. => false
      | _ => true
    | _ => true) = true

end

instance (s : ActivityClock) (e : ClockEvent) : Decidable (s.answered e) :=
  inferInstanceAs (Decidable (_ = true))

variable {s s' : ActivityClock} {e : ClockEvent} {t : Nat} {x : Sampling} {n : Nat}

def Heard (s : ActivityClock) (n : Nat) : Prop := ∃ m, s.seen = some m ∧ n ≤ m

def Ahead (s : ActivityClock) (a : Nat) (before : List ActivityRevision) : Prop :=
  a ≤ s.agent.value ∧ ∀ p ∈ before, p ∈ s.published ∧ p.agent < a

def Fits (s : ActivityClock) : Sampling → Prop
  | .asking answer => ∀ n, answer = some n → n ≤ s.noded.value
  | .answered n => s.Heard n
  | .counted n a => s.Heard n ∧ a ≤ s.agent.value
  | .advanced a before => s.Ahead a before
  | .reading a before answer => s.Ahead a before ∧ ∀ n, answer = some n → n ≤ s.noded.value
  | .read a before => s.Ahead a before ∧ s.seen.isSome
  | .composed n a before => s.Heard n ∧ s.Ahead a before ∧ ∀ p ∈ before, p.noded ≤ n

/-- While the agent has heard nothing, what was published is an earlier agent's, and every answer on
its way is later. -/
structure Inv (s : ActivityClock) : Prop where
  seen : ∀ n, s.seen = some n → n ≤ s.noded.value
  threads : ∀ t x, s.threads.lookup t = some x → s.Fits x
  published : ∀ p ∈ s.published, p.agent ≤ s.agent.value ∧ p.noded ≤ s.noded.value ∧
    p.durable ≤ s.durable ∧ ∀ n, s.seen = some n → p.noded ≤ n
  answers : s.seen = none → ∀ t x n, s.threads.lookup t = some x → x.answer = some n →
    ∀ p ∈ s.published, p.noded ≤ n
  receipts : ∀ r ∈ s.receipts, ∀ p ∈ r.2, p.value < r.1.value

structure Grows (s s' : ActivityClock) : Prop where
  agent : s.agent.value ≤ s'.agent.value
  noded : s.noded.value ≤ s'.noded.value
  seen : ∀ n, s.Heard n → s'.Heard n
  published : ∀ p ∈ s.published, p ∈ s'.published

theorem Grows.ahead {a before} (h : Grows s s') (hx : s.Ahead a before) : s'.Ahead a before :=
  ⟨hx.1.trans h.agent,fun p hp => ⟨h.published p (hx.2 p hp).1,(hx.2 p hp).2⟩⟩

theorem Grows.fits (h : Grows s s') (hx : s.Fits x) : s'.Fits x := by
  cases x with
  | asking => exact fun n hn => (hx n hn).trans h.noded
  | answered n => exact h.seen n hx
  | counted n => exact ⟨h.seen n hx.1,hx.2.trans h.agent⟩
  | advanced => exact h.ahead hx
  | reading => exact ⟨h.ahead hx.1,fun n hn => (hx.2 n hn).trans h.noded⟩
  | read =>
    obtain ⟨m,hm⟩ := isSome_iff_exists.mp hx.2
    obtain ⟨m',hm',-⟩ := h.seen m ⟨m,hm,Nat.le_refl _⟩
    exact ⟨h.ahead hx.1,isSome_of_eq_some hm'⟩
  | composed n => exact ⟨h.seen n hx.1,h.ahead hx.2.1,hx.2.2⟩

namespace Inv

theorem moved (h : s.Inv) {agent noded durable} (ha : s.agent.value ≤ agent.value)
    (hn : s.noded.value ≤ noded.value) (hd : s.durable ≤ durable) :
    Inv { s with agent, noded, durable } := by
  have hgrows : Grows s { s with agent, noded, durable } := ⟨ha,hn,fun _ => id,fun _ => id⟩
  refine ⟨fun n hs => (h.seen n hs).trans hn,fun t x hx => hgrows.fits (h.threads t x hx),
    fun p hp => ?_,h.answers,h.receipts⟩
  obtain ⟨hpa,hpn,hpd,hseen⟩ := h.published p hp
  exact ⟨hpa.trans ha,hpn.trans hn,hpd.trans hd,hseen⟩

theorem put (h : s.Inv) (hx : s.Fits x)
    (hans : s.seen = none → ∀ n, x.answer = some n → ∀ p ∈ s.published, p.noded ≤ n) :
    (s.put t x).Inv := by
  have hgrows : Grows s (s.put t x) := ⟨Nat.le_refl _,Nat.le_refl _,fun _ => id,fun _ => id⟩
  refine ⟨h.seen,fun t' y hy => ?_,h.published,fun hs t' y n hy hn => ?_,h.receipts⟩
  · obtain ⟨-,rfl⟩ | ⟨-,hy⟩ := lookup_of_insert hy
    · exact hgrows.fits hx
    · exact hgrows.fits (h.threads t' y hy)
  · obtain ⟨-,rfl⟩ | ⟨-,hy⟩ := lookup_of_insert hy
    · exact hans hs n hn
    · exact h.answers hs t' y n hy hn

theorem drop (h : s.Inv) (t) : Inv { s with threads := s.threads.erase t } :=
  ⟨h.seen,fun t' x hx => h.threads t' x (lookup_of_erase hx).2,h.published,
    fun hs t' x n hx => h.answers hs t' x n (lookup_of_erase hx).2,h.receipts⟩

theorem see (h : s.Inv) (hx : s.threads.lookup t = some x) (hn : x.answer = some n)
    (hle : n ≤ s.noded.value) : (s.see n).Inv ∧ Grows s (s.see n) ∧ (s.see n).Heard n := by
  have hgrows : Grows s (s.see n) := by
    refine ⟨Nat.le_refl _,Nat.le_refl _,?_,fun _ => id⟩
    rintro m ⟨k,hk,hmk⟩
    refine ⟨_,rfl,hmk.trans ?_⟩
    rw [hk]
    exact Nat.le_max_right ..
  refine ⟨⟨?_,fun t x hx => hgrows.fits (h.threads t x hx),fun p hp => ?_,nofun,h.receipts⟩,hgrows,
    _,rfl,Nat.le_max_left ..⟩
  · rintro _ ⟨⟩
    cases hs : s.seen with
    | none => exact Nat.max_le.mpr ⟨hle,hle⟩
    | some k => exact Nat.max_le.mpr ⟨hle,h.seen k hs⟩
  · obtain ⟨hpa,hpn,hpd,hseen⟩ := h.published p hp
    refine ⟨hpa,hpn,hpd,?_⟩
    rintro _ ⟨⟩
    cases hs : s.seen with
    | none => exact (h.answers hs t x n hx hn p hp).trans (Nat.le_max_left ..)
    | some k => exact (hseen k hs).trans (Nat.le_max_right ..)

theorem publish (h : s.Inv) {a} (hn : s.Heard n) (ha : a ≤ s.agent.value) :
    (s.publish t ⟨s.durable,a,n⟩).Inv := by
  obtain ⟨m,hm,hnm⟩ := hn
  have hgrows : Grows s (s.publish t ⟨s.durable,a,n⟩) :=
    ⟨Nat.le_refl _,Nat.le_refl _,fun _ => id,fun _ => .tail _⟩
  refine ⟨h.seen,fun t' x hx => hgrows.fits (h.threads t' x (lookup_of_erase hx).2),fun p hp => ?_,
    fun hs => ?_,h.receipts⟩
  · obtain rfl | hp := List.mem_cons.mp hp
    · refine ⟨ha,hnm.trans (h.seen m hm),Nat.le_refl _,fun k hk => ?_⟩
      cases hm.symm.trans hk
      exact hnm
    · exact h.published p hp
  · cases hm.symm.trans hs

theorem advance (h : s.Inv) (hx : s.threads.lookup t = some x) (hs : s.advance t x = some s') :
    s'.Inv := by
  have hfits := h.threads t x hx
  have hlater : ∀ n, s.noded.value = n → ∀ p ∈ s.published, p.noded ≤ n :=
    fun n hn p hp => hn ▸ (h.published p hp).2.1
  unfold ActivityClock.advance at hs
  split at hs
  · obtain ⟨-,⟨⟩⟩ := of_check hs nofun
    exact h.put (fun n hn => (some.inj hn).ge) fun _ n hn => hlater n (some.inj hn)
  · cases hs
    obtain ⟨hseen,-,hheard⟩ := h.see hx rfl (hfits _ rfl)
    exact hseen.put hheard nofun
  · cases hs
    exact h.put ⟨hfits,Nat.le_refl _⟩ nofun
  · cases hs
    exact h.publish hfits.1 hfits.2
  · cases hs
    cases hseen : s.seen with
    | none => exact h.put ⟨hfits,nofun⟩ nofun
    | some n =>
      refine h.put ⟨⟨n,hseen,Nat.le_refl _⟩,hfits,fun p hp => ?_⟩ nofun
      exact (h.published p (hfits.2 p hp).1).2.2.2 n hseen
  · obtain ⟨-,⟨⟩⟩ := of_check hs nofun
    exact h.put ⟨hfits.1,fun n hn => (some.inj hn).ge⟩ fun _ n hn => hlater n (some.inj hn)
  · cases hs
    obtain ⟨hseen,hgrows,m,hm,-⟩ := h.see hx rfl (hfits.2 _ rfl)
    exact hseen.put ⟨hgrows.ahead hfits.1,isSome_of_eq_some hm⟩ nofun
  · cases hs
    obtain ⟨n,hn⟩ := isSome_iff_exists.mp hfits.2
    rw [hn]
    refine h.put ⟨⟨n,hn,Nat.le_refl _⟩,hfits.1,fun p hp => ?_⟩ nofun
    exact (h.published p (hfits.1.2 p hp).1).2.2.2 n hn
  · rename_i n a before
    cases hs
    obtain ⟨hheard,hahead,hnoded⟩ := hfits
    refine { h.publish hheard hahead.1 with receipts := fun r hr p hp => ?_ }
    obtain rfl | hr := List.mem_cons.mp hr
    · obtain ⟨hold,hlt⟩ := hahead.2 p hp
      have hle := (h.published p hold).2.2.1
      have hn := hnoded p hp
      simp only [ActivityRevision.value]
      omega
    · exact h.receipts r hr p hp

theorem step (h : s.Inv) (hok : s.answered e) (hs : s.step e = some s') : s'.Inv := by
  simp only [answered,Bool.and_eq_true] at hok
  obtain ⟨htim,hok⟩ := hok
  have hsame := Nat.le_refl
  cases e with
  | startAgent =>
    obtain ⟨-,⟨⟩⟩ := of_guard hs nofun
    exact h.moved (of_decide_eq_true htim).le (hsame _) (hsame _)
  | startNoded =>
    obtain ⟨-,⟨⟩⟩ := of_guard hs nofun
    exact h.moved (hsame _) (of_decide_eq_true htim).le (hsame _)
  | stopAgent =>
    cases hs
    refine ⟨nofun,by simp,fun p hp => ?_,by simp,h.receipts⟩
    obtain ⟨ha,hn,hd,-⟩ := h.published p hp
    exact ⟨ha,hn,hd,nofun⟩
  | stopNoded =>
    cases hs
    exact h.moved (hsame _) (hsame _) (hsame _)
  | agentWork =>
    obtain ⟨-,⟨⟩⟩ := of_check hs nofun
    exact h.moved (Nat.le_succ _) (hsame _) (hsame _)
  | nodedWork =>
    obtain ⟨-,⟨⟩⟩ := of_check hs nofun
    exact h.moved (hsame _) (Nat.le_succ _) (hsame _)
  | write =>
    cases hs
    exact h.moved (hsame _) (hsame _) (Nat.le_succ _)
  | heartbeat =>
    obtain ⟨-,⟨⟩⟩ := of_check hs nofun
    exact h.put nofun nofun
  | receipt =>
    obtain ⟨-,⟨⟩⟩ := of_check hs nofun
    have hcou : Inv { s with agent := s.agent.count } := h.moved (Nat.le_succ _) (hsame _) (hsame _)
    refine hcou.put ⟨hsame _,?_⟩ nofun
    exact fun p hp => ⟨hp,Nat.lt_succ_of_le (h.published p hp).1⟩
  | run =>
    obtain ⟨x,hx,hs⟩ := bind_eq_some_iff.mp hs
    exact h.advance hx hs
  | fail t =>
    obtain ⟨x,hx,rfl⟩ := map_eq_some_iff.mp hs
    cases x with
    | reading =>
      exact h.put ⟨(h.threads t _ hx).1,by simpa [hx] using hok⟩ nofun
    | _ => exact h.drop t

end Inv

def Start (s : ActivityClock) : Prop := s = {}

/-- A receipt is later than every heartbeat sampled, and every receipt issued, before it began. -/
theorem receipt_supersedes (h : Reaches step answered Start s) :
    ∀ r ∈ s.receipts, ∀ p ∈ r.2, p.value < r.1.value := by
  have hinv : s.Inv := h.keeps
    ⟨nofun,by simp,nofun,by simp,nofun⟩ fun _ _ _ hi => hi.step
  exact hinv.receipts

def sampled : List ClockEvent :=
  [.startNoded 100,.startAgent 100,.heartbeat 0,.run 0,.run 0,.run 0,.run 0]

theorem receipt_supersedes_heartbeat : ∃ s : ActivityClock, Reaches step answered Start s ∧
    s.receipts.map (·.1.value) = [201] ∧ s.receipts.map (·.2.map (·.value)) = [[200]] ∧
      ∀ r ∈ s.receipts, ∀ p ∈ r.2, p.value < r.1.value := by
  obtain ⟨s,hs,hvalue,hparts⟩ := Reaches.exists_of_runMeeting step answered (show Start {} from rfl)
    (sampled ++ [.receipt 1,.run 1,.stopNoded,.run 1]) (fun s => s.receipts.map (·.1.value) = [201] ∧
      s.receipts.map (·.2.map (·.value)) = [[200]]) (by decide +kernel)
  exact ⟨s,hs,hvalue,hparts,receipt_supersedes hs⟩

/-- The agent restarts while noded is down: its receipt lacks noded's part. -/
theorem receipt_without_noded : ∃ s : ActivityClock, Reaches step (fun s e => s.timely e = true) Start s ∧
    (s.receipts.any fun r => r.2.any (r.1.value < ·.value)) = true :=
  Reaches.exists_of_runMeeting step _ (show Start {} from rfl) (sampled ++ [.stopNoded,.stopAgent,
    .startAgent 120,.receipt 0,.run 0,.fail 0,.run 0,.run 0]) _ (by decide +kernel)

end ActivityClock
end UCloudSandboxes.Drain
