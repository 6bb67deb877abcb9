import UCloudSandboxes.Machine.Basic
import UCloudSandboxes.Machine.Fifo

/-! `FairCapacity`: weighted FIFO admission. The pool under its lock, and the callers with the
tickets they wait with and the grants they hold. -/
namespace UCloudSandboxes.Admission
open Machine

inductive FairError where
  | capacity
  | weight
  | release
  deriving DecidableEq

def FairError.message : FairError → String
  | .capacity => "capacity must be positive"
  | .weight => "request weight exceeds capacity"
  | .release => "capacity released without a reservation"

/-- One entry; `id` is its place in entry order and its identity. -/
structure Ticket (O : Type) where
  id : Nat
  weight : Nat
  owner : Option O
  deriving DecidableEq

/-- The pool. `granted` and `cancelled` are the tickets with that flag, oldest first. -/
structure FairCapacity (O : Type) where
  capacity : Nat
  available : Nat
  waiters : List (Ticket O) := []
  granted : List Nat := []
  cancelled : List Nat := []
  entered : Nat := 0
  deriving DecidableEq

inductive Entered (O : Type) where
  | granted
  | refused
  | queued (ticket : Ticket O)
  deriving DecidableEq

namespace FairCapacity

variable {O : Type}

def new (capacity : Nat) : Except FairError (FairCapacity O) :=
  if capacity < 1 then .error .capacity else .ok { capacity, available := capacity }

variable (c : FairCapacity O) (ticket : Ticket O)

/-- Reserve before notifying: only eligible FIFO heads are woken. -/
def grantWaiters : FairCapacity O :=
  let served := serve Ticket.weight c.available c.waiters
  { c with
    available := c.available - load Ticket.weight served.1
    waiters := served.2
    granted := c.granted ++ served.1.map (·.id) }

/-- The sweep grants a prefix of the queue that fits, up to a head that does not. -/
theorem grantWaiters_spec : ∃ now rest, c.waiters = now ++ rest ∧
    load Ticket.weight now ≤ c.available ∧
    (∀ t, rest.head? = some t → c.available - load Ticket.weight now < t.weight) ∧
    c.grantWaiters = { c with
      available := c.available - load Ticket.weight now
      waiters := rest
      granted := c.granted ++ now.map (·.id) } :=
  ⟨_,_,(serve_append ..).symm,load_serve_le ..,fun _ => serve_stuck _ _ _,rfl⟩

def remove : FairCapacity O :=
  { c with waiters := c.waiters.eraseP (·.id = ticket.id) }

/-- Take `weight` now if nobody queues ahead, else refuse or queue. -/
def enter (weight : Nat) (owner : Option O) (blocking : Bool) :
    Except FairError (FairCapacity O × Entered O) :=
  if !(0 < weight && weight ≤ c.capacity) then .error .weight
  else if c.waiters.isEmpty && weight ≤ c.available then
    .ok ({ c with
      available := c.available - weight
      granted := c.granted ++ [c.entered]
      entered := c.entered + 1 }, .granted)
  else if !blocking then .ok (c, .refused)
  else
    let ticket : Ticket O := ⟨c.entered, weight, owner⟩
    .ok ({ c with waiters := c.waiters ++ [ticket], entered := c.entered + 1 }, .queued ticket)

theorem enter_ok {c c' : FairCapacity O} {weight owner blocking result}
    (h : c.enter weight owner blocking = .ok (c',result)) :
    (result = .granted ∧ c.waiters = [] ∧ weight ≤ c.available ∧ c' = { c with
      available := c.available - weight
      granted := c.granted ++ [c.entered]
      entered := c.entered + 1 }) ∨
    (result = .refused ∧ c' = c) ∨
    (result = .queued ⟨c.entered,weight,owner⟩ ∧ (c.waiters = [] → c.available < weight) ∧ c' = { c with
      waiters := c.waiters ++ [⟨c.entered,weight,owner⟩]
      entered := c.entered + 1 }) := by
  obtain ⟨-,h⟩ := of_guard h nofun
  split at h
  · rename_i hfits
    simp only [Bool.and_eq_true,List.isEmpty_iff,decide_eq_true_eq] at hfits
    cases h
    exact .inl ⟨rfl,hfits.1,hfits.2,rfl⟩
  · rename_i hfits
    split at h
    · cases h
      exact .inr (.inl ⟨rfl,rfl⟩)
    · cases h
      refine .inr (.inr ⟨rfl,fun hempty => ?_,rfl⟩)
      simpa [hempty] using hfits

/-- After a wakeup or a timeout: a grant that raced it is kept; otherwise the waiter leaves the
queue and the next fitting heads are granted. -/
def finish : FairCapacity O × Bool :=
  if c.granted.contains ticket.id then (c, true)
  else ((if c.cancelled.contains ticket.id then c else c.remove ticket).grantWaiters, false)

def drop : FairCapacity O :=
  (if c.granted.contains ticket.id then { c with available := c.available + ticket.weight }
    else c.remove ticket).grantWaiters

def release (weight : Nat) : Except FairError (FairCapacity O) :=
  if weight = 0 || c.capacity < c.available + weight then .error .release
  else .ok { c with available := c.available + weight }.grantWaiters

variable [DecidableEq O]

def selects (owner : Option O) (ticket : Ticket O) : Bool := owner.isNone || ticket.owner = owner

def cancelWaiters (c : FairCapacity O) (owner : Option O) : FairCapacity O × Nat :=
  let selected := c.waiters.filter (selects owner)
  let woken : FairCapacity O := { c with
    waiters := c.waiters.filter (!selects owner ·)
    cancelled := c.cancelled ++ selected.map (·.id) }
  (woken.grantWaiters, selected.length)

end FairCapacity

/-- A pool and its callers: the entries that got a ticket, the live waiters, the accepted grants not
yet released, and the tickets given up. -/
structure Callers (O : Type) where
  pool : FairCapacity O
  tickets : List (Ticket O) := []
  pending : List (Ticket O) := []
  held : List (Ticket O) := []
  left : List Nat := []
  /-- Units of releases whose weight is no held ticket's. -/
  unreserved : Nat := 0
  deriving DecidableEq

namespace Callers

variable {O : Type}

inductive Event (O : Type) where
  | enter (weight : Nat) (owner : Option O) (blocking : Bool)
  | finish (ticket : Nat)
  | drop (ticket : Nat)
  | release (weight : Nat)
  | cancelWaiters (owner : Option O)
  deriving DecidableEq

def enter (s : Callers O) (weight : Nat) (owner : Option O) (blocking : Bool) :
    Callers O × Except FairError (Entered O) :=
  let ticket : Ticket O := ⟨s.pool.entered, weight, owner⟩
  match s.pool.enter weight owner blocking with
  | .error error => (s, .error error)
  | .ok (pool, .granted) =>
    ({ s with pool, tickets := s.tickets ++ [ticket], held := s.held ++ [ticket] }, .ok .granted)
  | .ok (pool, .refused) => ({ s with pool }, .ok .refused)
  | .ok (pool, .queued ticket) =>
    ({ s with pool, tickets := s.tickets ++ [ticket], pending := s.pending ++ [ticket] },
      .ok (.queued ticket))

/-- The tickets granted and not returned: accepted, or of waiters that did not finish. -/
def outstanding (s : Callers O) : List (Ticket O) :=
  s.pending.filter (s.pool.granted.contains ·.id) ++ s.held

variable [DecidableEq O]

section
variable (s : Callers O)

def finish (ticket : Ticket O) : Callers O × Bool :=
  let result := s.pool.finish ticket
  let pending := s.pending.filter (· ≠ ticket)
  (if result.2 then { s with pool := result.1, pending, held := s.held ++ [ticket] }
    else { s with pool := result.1, pending, left := s.left ++ [ticket.id] }, result.2)

def drop (ticket : Ticket O) : Callers O :=
  { s with
    pool := s.pool.drop ticket
    pending := s.pending.filter (· ≠ ticket)
    left := s.left ++ [ticket.id] }

def release (weight : Nat) : Callers O :=
  match s.pool.release weight with
  | .error _ => s
  | .ok pool =>
    match s.held.find? (·.weight = weight) with
    | some ticket => { s with pool, held := s.held.erase ticket }
    | none => { s with pool, unreserved := s.unreserved + weight }

def cancelWaiters (owner : Option O) : Callers O :=
  { s with pool := (s.pool.cancelWaiters owner).1 }

def step : Event O → Option (Callers O)
  | .enter weight owner blocking => some (s.enter weight owner blocking).1
  | .finish ticket => (s.pending.find? (·.id = ticket)).map fun t => (s.finish t).1
  | .drop ticket => (s.pending.find? (·.id = ticket)).map s.drop
  | .release weight => some (s.release weight)
  | .cancelWaiters owner => some (s.cancelWaiters owner)

end

def Start (capacity : Nat) (s : Callers O) : Prop :=
  ∃ pool, FairCapacity.new capacity = .ok pool ∧ s = { pool }

end Callers
end UCloudSandboxes.Admission
