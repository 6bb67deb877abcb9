import UCloudSandboxes.Registry.Tx

/-! The registry store of the owner process: writers that join a group under the turn, the index
beside the file, and its readers. Steps are cut where another thread or process can come in. -/
namespace UCloudSandboxes.Registry
open Machine Function

variable {σ : Schema} {α : Type}

structure Member (σ : Schema) (α : Type) where
  writer : Nat
  body : Body σ α

inductive Commit (σ : Schema) (α : Type) where
  | foreign (after : Tables σ)
  | group (members : List (Member σ α))

def Member.apply (tables : Tables σ) (m : Member σ α) : Option (Tables σ) :=
  (m.body.serial tables).map Prod.snd

/-- A group's commit is its members' bodies, each alone, one after the other. -/
def Commit.apply (tables : Tables σ) : Commit σ α → Option (Tables σ)
  | .foreign after => some after
  | .group members => members.foldlM Member.apply tables

/-- The owner connection. Its data version moves exactly when another connection commits. -/
structure Connection (σ : Schema) where
  dataVersion : Nat
  transaction : Option (Transaction (Tables σ)) := none

structure Group where
  id : Nat
  revision : Nat
  deriving DecidableEq

/-- The file, the state behind the turn, and the view. `history` and the members' bodies record what
was committed. -/
structure Store (σ : Schema) (α : Type) where
  committed : Tables σ
  history : List (Commit σ α) := []
  ownerLock : Bool := false
  owning : Bool := false
  owner : Option (Connection σ) := none
  group : Option Group := none
  members : List (Member σ α) := []
  staged : Staged σ := ∅
  bumps : Nat := 0
  index : Option (Index σ) := none
  checkedAt : Option Nat := none
  /-- What each finished group reported to its waiters. -/
  outcomes : Nat → Option (Result Unit) := fun _ => none
  nextGroup : Nat := 0

def groupCommitMax : Nat := 64

def recheck : Nat := 1000000000

def ownershipReleased : RegistryError := .registry "direct registry ownership was released"

/-- How a transaction's BEGIN or end went; a stuck connection is not back in autocommit. -/
inductive Opened where
  | done
  | failed
  | stuck
  deriving DecidableEq

/-- How a member ended: `lost` when a savepoint statement failed, with the group's cause. -/
inductive Ran (α : Type) where
  | joined (value : α)
  | failed (error : RegistryError)
  | lost (error cause : RegistryError)
  | panicked

def Cause.error : Cause → RegistryError
  | .failed error => error
  | .panicked => .registry "direct registry writer panicked"

namespace Store

variable (s : Store σ α) (connect : Option Nat)

/-- Closing the connection rolls back any open transaction. -/
def dropOwnerConnection : Store σ α := { s with owner := none, index := none }

def finish (group : Nat) (outcome : Result Unit) : Store σ α :=
  { s with outcomes := update s.outcomes group (some outcome) }

def takeGroup : Store σ α :=
  { s with group := none, members := [], staged := ∅, bumps := 0 }

def abandonGroup (error : RegistryError) : Store σ α :=
  match s.group with
  | none => s
  | some group => s.takeGroup.dropOwnerConnection.finish group.id (.error error)

/-- The owner connection, opened if there is none; a new one starts at any data version. -/
def connection : Option (Connection σ) :=
  match s.owner with
  | some c => some c
  | none => connect.map fun dataVersion => { dataVersion }

/-- First half of `begin_group`: BEGIN IMMEDIATE and the stamp. -/
def beginImmediate (begun : Bool) : Except (RegistryError × Store σ α) (Store σ α) :=
  if !s.ownerLock then .error (ownershipReleased,s)
  else match s.connection connect with
    | none => .error (.unreadable,s)
    | some c =>
      if begun then .ok { s with owner := some { c with transaction := some ⟨s.committed,[]⟩ } }
      else .error (.unreadable,s.dropOwnerConnection)

/-- `prove_index`: keep the index if revision and data version prove it equal to the snapshot. -/
def proveIndex (snapshot : Tables σ) (dataVersion : Nat) (readable : Bool) :
    Result (Store σ α) :=
  if s.index.any fun i => i.revision = snapshot.activityRevision && i.dataVersion = dataVersion then
    .ok s
  else if !readable then .error .unreadable
  else (readIndex snapshot dataVersion s.index).map fun index => { s with index := some index }

def openGroup (now : Nat) : Store σ α :=
  { s with
    checkedAt := some now
    staged := ∅
    bumps := 0
    members := []
    group := some ⟨s.nextGroup,s.committed.activityRevision⟩
    nextGroup := s.nextGroup + 1 }

def withTransaction (transaction : Option (Transaction (Tables σ))) : Store σ α :=
  { s with owner := s.owner.map ({ · with transaction }) }

/-- `member`: one body under its SAVEPOINT; a failed body's staged rows are dropped. -/
def member (s : Store σ α) (writer : Nat) (body : Body σ α) (answers : List Answer) :
    Ran α × Store σ α :=
  match s.index, s.owner with
  | some index, some c =>
    match Tx.savepoint ⟨c.transaction,answers,⟨index,s.staged,s.bumps⟩⟩ "member" with
    | .error stopped => (.lost stopped.cause.error stopped.cause.error,s)
    | .ok tx =>
      match body.run tx with
      | .ok (value,tx) =>
        match tx.release "member" with
        | .ok tx => (.joined value,{ s.withTransaction tx.transaction with
            staged := tx.staging.staged
            bumps := tx.staging.bumps
            members := s.members ++ [⟨writer,body⟩] })
        | .error stopped => (.lost stopped.cause.error stopped.cause.error,s)
      | .error ⟨.panicked,_⟩ => (.panicked,s)
      | .error ⟨.failed error,tx⟩ =>
        match tx.undo with
        | .ok tx => (.failed error,s.withTransaction tx.transaction)
        | .error stopped => (.lost error stopped.cause.error,s)
  | _, _ => (.lost ownershipReleased ownershipReleased,s)

def pending? : Option (Tables σ) :=
  s.owner.bind fun c => c.transaction.map (·.content)

/-- Assumed of SQLite: a COMMIT that reports an error has written nothing. -/
def commitSql (succeeds : Bool) : Except (RegistryError × Store σ α) (Store σ α) :=
  match s.group, s.pending? with
  | some _, some tables =>
    if succeeds then
      .ok { (s.withTransaction none).takeGroup with
        committed := tables
        history := s.history ++ [.group s.members] }
    else .error (.unreadable,s.abandonGroup .unreadable)
  | _, _ => .error (ownershipReleased,s.abandonGroup ownershipReleased)

section
variable (group : Group) (staged : Staged σ) (bumps : Nat)

def publishedIndex : Option (Index σ) :=
  if !staged.entries.isEmpty || 0 < bumps then
    s.index.map (·.applied staged (group.revision + bumps))
  else s.index

/-- The rest of `commit_group`: the staged rows reach the index, then the waiters hear of it. -/
def publish : Store σ α :=
  { s with index := s.publishedIndex group staged bumps }.finish group.id (.ok ())

end

/-- Another connection commits; it cannot while a group holds the write lock. -/
def overtaken (after : Tables σ) : Store σ α :=
  { s with
    committed := after
    history := s.history ++ [.foreign after]
    owner := s.owner.map fun c => { c with dataVersion := c.dataVersion + 1 } }

def foreignCommit (after : Tables σ) : Option (Store σ α) :=
  if s.pending?.isSome then none else some (s.overtaken after)

/-- `fresh_index` makes the next read of the owner revalidate its index. -/
def expire : Store σ α := if s.owning then { s with checkedAt := none } else s

def own : Store σ α := { s with ownerLock := true, owning := true }

def close : Store σ α :=
  { s.abandonGroup (.registry "direct registry was closed") with
    owning := false
    index := none
    ownerLock := false
    owner := none }

end Store

inductive CallState (α : Type) where
  | arrived
  | waiting (group : Nat) (value : α)
  | returned (result : Result α)
  | panicked

structure Call (σ : Schema) (α : Type) where
  body : Body σ α
  state : CallState α

/-- A read of the registrations: `grouped` records whether a group was open at the sample. -/
inductive ReadState (σ : Schema) where
  | called
  | expired
  | sampled (index : Option (Index σ)) (grouped : Bool)
  | locked
  | fallback
  | returned (result : Result (Index σ))

/-- One `view_index` call, or `fresh_index`; `since` counts the commits finished before it. -/
structure Read (σ : Schema) where
  fresh : Bool
  since : Nat
  state : ReadState σ

inductive Holder (σ : Schema) where
  | entered (writer : Nat)
  | begun (writer : Nat)
  | proved (writer : Nat)
  | joined (writer : Nat)
  | ran (writer : Nat) (failure : Option RegistryError)
  | committed (writer : Nat) (failure : Option RegistryError) (group : Group) (staged : Staged σ)
      (bumps : Nat)
  | reader (reader : Nat)
  | reading (reader : Nat) (snapshot : Tables σ) (dataVersion : Nat)
  | refreshed (reader : Nat)

structure System (σ : Schema) (α : Type) where
  store : Store σ α
  holder : Option (Holder σ) := none
  waiters : Nat := 0
  calls : Nat → Option (Call σ α) := fun _ => none
  reads : Nat → Option (Read σ) := fun _ => none

inductive Move (σ : Schema) (α : Type) where
  | arrive (writer : Nat) (body : Body σ α)
  | enter (writer : Nat)
  | beginGroup (connect : Option Nat) (begun : Bool)
  | proveIndex (readable : Bool)
  | openGroup (now : Nat)
  | member (answers : List Answer)
  | settle (committed : Bool)
  | publish
  | wake (writer : Nat)
  | foreign (after : Tables σ)
  | own
  | close
  | call (reader : Nat) (fresh : Bool)
  | expire (reader : Nat)
  | sample (reader : Nat) (now : Nat)
  | tryTurn (reader : Nat)
  | examine (connect : Option Nat) (opened : Opened)
  | proveSnapshot (readable stuck : Bool)
  | stamp (now : Nat) (ended : Opened)
  | read (reader : Nat) (succeeds : Bool)

namespace System

variable (s : System σ α) (store : Store σ α) (reader : Nat)

def setCall (writer : Nat) (state : CallState α) : System σ α :=
  { s with calls := update s.calls writer ((s.calls writer).map ({ · with state })) }

def setRead (state : ReadState σ) : System σ α :=
  { s with reads := update s.reads reader ((s.reads reader).map ({ · with state })) }

def leave (writer : Nat) (failure : Option RegistryError) : System σ α :=
  let s := { s with store, holder := none }
  match failure with
  | some e => s.setCall writer (.returned (.error e))
  | none => s

/-- The reader drops the turn and returns the current index; without one it reads the file. -/
def leaveReader : System σ α :=
  { s with store, holder := none }.setRead reader <|
    match store.index with
    | some index => .returned (.ok index)
    | none => .fallback

def failReader (error : RegistryError) (stuck : Bool) : System σ α :=
  { s with
    store := if stuck then store.dropOwnerConnection else store
    holder := none }.setRead reader (.returned (.error error))

def sampleView (now : Nat) : ReadState σ :=
  if !s.store.owning then .fallback
  else match s.store.index, s.store.checkedAt with
    | some index, some checked =>
      if now - checked < recheck then .returned (.ok index)
      else .sampled (some index) s.store.group.isSome
    | index?, _ => .sampled index? s.store.group.isSome

def stepHolder : Holder σ → Move σ α → Option (System σ α)
  | .entered w, .beginGroup connect begun =>
    if s.store.group.isSome then some { s with holder := some (.joined w) }
    else match s.store.beginImmediate connect begun with
      | .ok store => some { s with store, holder := some (.begun w) }
      | .error (e,store) => some (s.leave store w (some e))
  | .begun w, .proveIndex readable =>
    match s.store.proveIndex s.store.committed (s.store.owner.elim 0 (·.dataVersion)) readable with
    | .ok store => some { s with store, holder := some (.proved w) }
    | .error e => some (s.leave s.store.dropOwnerConnection w (some e))
  | .proved w, .openGroup now =>
    some { s with store := s.store.openGroup now, holder := some (.joined w) }
  | .joined w, .member answers =>
    match s.calls w, s.store.group with
    | some call, some group =>
      match s.store.member w call.body answers with
      | (.joined value,store) =>
        some ({ s with store, holder := some (.ran w none) }.setCall w (.waiting group.id value))
      | (.failed e,store) => some { s with store, holder := some (.ran w (some e)) }
      | (.lost e cause,store) =>
        some { s with store := store.abandonGroup cause, holder := some (.ran w (some e)) }
      | (.panicked,store) => some <| { s with
          store := store.abandonGroup (.registry "direct registry writer panicked")
          holder := none }.setCall w .panicked
    | _, _ => none
  | .ran w failure, .settle committed =>
    match s.store.group with
    | none => some (s.leave s.store w failure)
    | some group =>
      if s.waiters = 0 || groupCommitMax ≤ s.store.members.length then
        match s.store.commitSql committed with
        | .ok store => some { s with
            store
            holder := some (.committed w failure group s.store.staged s.store.bumps) }
        | .error (e,store) => some (s.leave store w (failure <|> some e))
      else some (s.leave s.store w failure)
  | .committed w failure group staged bumps, .publish =>
    some (s.leave (s.store.publish group staged bumps) w failure)
  | .reader r, .examine connect opened =>
    if !s.store.ownerLock then some ({ s with holder := none }.setRead r .fallback)
    else if s.store.group.isSome then some (s.leaveReader s.store r)
    else match s.store.connection connect, opened with
      | none, _ => some (s.failReader s.store r .unreadable false)
      | some c, .done => some { s with
          store := { s.store with owner := some c }
          holder := some (.reading r s.store.committed c.dataVersion) }
      | some c, opened =>
        some (s.failReader { s.store with owner := some c } r .unreadable (opened = .stuck))
  | .reading r snapshot dataVersion, .proveSnapshot readable stuck =>
    match s.store.proveIndex snapshot dataVersion readable with
    | .ok store => some { s with store, holder := some (.refreshed r) }
    | .error e => some (s.failReader s.store r e stuck)
  | .refreshed r, .stamp now ended =>
    let store := { s.store with checkedAt := some now }
    match ended with
    | .done => some (s.leaveReader store r)
    | ended => some (s.failReader store r .unreadable (ended = .stuck))
  | _, _ => none

def step : Move σ α → Option (System σ α)
  | .arrive w body =>
    if (s.calls w).isSome || !s.store.owning then none
    else some { s with
      waiters := s.waiters + 1
      calls := update s.calls w (some ⟨body,.arrived⟩) }
  | .enter w =>
    match s.holder, s.calls w with
    | none, some ⟨_,.arrived⟩ => some { s with
        waiters := s.waiters - 1
        holder := some (.entered w) }
    | _, _ => none
  | .wake w =>
    match s.calls w with
    | some ⟨_,.waiting group value⟩ => (s.store.outcomes group).map fun
      | .ok () => s.setCall w (.returned (.ok value))
      | .error _ => s.setCall w (.returned (.error (.registry "direct registry commit failed")))
    | _ => none
  | .foreign after => (s.store.foreignCommit after).map fun store => { s with store }
  | .own => if s.holder.isSome then none else some { s with store := s.store.own }
  | .close => if s.holder.isSome then none else some { s with store := s.store.close }
  | .call r fresh =>
    if (s.reads r).isSome then none
    else
      let read := ⟨fresh,s.store.history.length,if fresh then .called else .expired⟩
      some { s with reads := update s.reads r (some read) }
  | .expire r =>
    match s.reads r with
    | some ⟨_,_,.called⟩ => some <| { s with store := s.store.expire }.setRead r .expired
    | _ => none
  | .sample r now =>
    match s.reads r with
    | some ⟨_,_,.expired⟩ => some (s.setRead r (s.sampleView now))
    | _ => none
  | .tryTurn r =>
    match s.reads r, s.holder with
    | some ⟨_,_,.sampled _ _⟩, none =>
      some ({ s with holder := some (.reader r) }.setRead r .locked)
    -- the writer is trusted to have proved the index
    | some ⟨_,_,.sampled (some index) _⟩, some _ => some (s.setRead r (.returned (.ok index)))
    | _, _ => none
  | .read r succeeds =>
    match s.reads r with
    | some ⟨_,_,.fallback⟩ => some <| s.setRead r <| .returned <|
        if succeeds then readIndex s.store.committed 0 none else .error .unreadable
    | _ => none
  | move => s.holder.bind fun holder => s.stepHolder holder move

def Start (initial : Tables σ) (s : System σ α) : Prop := s = { store := { committed := initial } }

end System

end UCloudSandboxes.Registry
