import UCloudSandboxes.Machine.Transaction
import UCloudSandboxes.Registry.Tables

/-! Writer bodies. On the owner a body runs inside a savepoint of the group's transaction, reads the
index and the staged rows, and stages its writes; elsewhere it uses its own transaction. A body that
succeeds does the same in both. -/
namespace UCloudSandboxes.Registry
open Machine

variable {σ : Schema} {α : Type}

/-- What the engine answers to a statement. Some errors also roll back the whole transaction. -/
inductive Answer where
  | done
  | refused
  | rolledBack
  deriving DecidableEq

/-- A step of `growth_intent_steps`: it reads anything but writes only the other tables. -/
inductive Step (σ : Schema) where
  | done (failure : Option RegistryError)
  | get (sandboxId : String) (next : Option σ.Registration → Step σ)
  | query (next : Tables σ → Step σ)
  | execute (effect : σ.Others → σ.Others) (next : Step σ)

/-- What a writer does in its transaction. A failing read or write ends the body with its error. -/
inductive Body (σ : Schema) (α : Type) where
  | done (value : α)
  | fail (error : RegistryError)
  | panic
  | get (sandboxId : String) (next : Option σ.Registration → Body σ α)
  | query (next : Tables σ → Body σ α)
  | write (record : σ.Registration) (insert : Bool) (next : Body σ α)
  | delete (sandboxId : String) (next : Body σ α)
  | bumpActivity (next : Body σ α)
  | execute (effect : σ.Others → σ.Others) (next : Body σ α)
  /-- A step under its own savepoint, undone alone when it fails. -/
  | attempt (step : Step σ) (next : Option RegistryError → Body σ α)

namespace Tables

variable (tables : Tables σ) (id : String)

def insertRegistration (stored : Stored) : Result (Tables σ) :=
  if (tables.registrations.lookup id).isSome then .error .unreadable
  else .ok { tables with registrations := tables.registrations.insert id stored }

def updateRegistration (stored : Stored) : Result (Tables σ) :=
  if (tables.registrations.lookup id).isSome then
    .ok { tables with registrations := tables.registrations.insert id stored }
  else .error (.registry "direct registration disappeared")

def deleteRegistration : Result (Tables σ) :=
  if (tables.registrations.lookup id).isSome then
    .ok { tables with registrations := tables.registrations.erase id }
  else .error (.registry "direct registration disappeared")

def putRegistration (insert : Bool) (id : String) (stored : Stored) : Result (Tables σ) :=
  if insert then tables.insertRegistration id stored else tables.updateRegistration id stored

def executeOn (effect : σ.Others → σ.Others) : Tables σ :=
  { tables with others := effect tables.others }

def bump : Tables σ :=
  { tables with activityRevision := tables.activityRevision + 1 }

def write (record : σ.Registration) (insert : Bool) : Result (Tables σ) :=
  if σ.decode (σ.sandboxId record) (σ.imageId record) (σ.encode record) = .ok record then do
    let tables ← tables.putRegistration insert (σ.sandboxId record)
      ⟨σ.imageId record,σ.encode record⟩
    let reserved ← σ.reservedMb record
    .ok (tables.executeOn (σ.writeDiskClaim record reserved))
  else .error (.registry "direct registration encoding is invalid")

def delete (sandboxId : String) : Result (Tables σ) :=
  (tables.executeOn (σ.deleteDiskClaim sandboxId)).deleteRegistration sandboxId

end Tables

def Step.serial : Step σ → Tables σ → Result (Tables σ)
  | .done none, tables => .ok tables
  | .done (some e), _ => .error e
  | .get id next, tables => (next (tables.get id)).serial tables
  | .query next, tables => (next tables).serial tables
  | .execute effect next, tables => next.serial (tables.executeOn effect)

/-- The body alone in its own transaction: its value and what it leaves, if it succeeds. -/
def Body.serial : Body σ α → Tables σ → Option (α × Tables σ)
  | .done value, tables => some (value,tables)
  | .fail _, _ => none
  | .panic, _ => none
  | .get id next, tables => (next (tables.get id)).serial tables
  | .query next, tables => (next tables).serial tables
  | .write record insert next, tables =>
    match tables.write record insert with
    | .ok tables => next.serial tables
    | .error _ => none
  | .delete id next, tables =>
    match tables.delete id with
    | .ok tables => next.serial tables
    | .error _ => none
  | .bumpActivity next, tables => next.serial tables.bump
  | .execute effect next, tables => next.serial (tables.executeOn effect)
  | .attempt step next, tables =>
    match step.serial tables with
    | .ok tables => (next none).serial tables
    | .error e => (next (some e)).serial tables

structure Staging (σ : Schema) where
  index : Index σ
  staged : Staged σ
  bumps : Nat

/-- The owner connection inside a group, with the engine's answers still to come; no transaction
once it has rolled back. -/
structure Tx (σ : Schema) where
  transaction : Option (Transaction (Tables σ))
  answers : List Answer
  staging : Staging σ

inductive Cause where
  | failed (error : RegistryError)
  | panicked
  deriving DecidableEq

structure Stopped (σ : Schema) where
  cause : Cause
  tx : Tx σ

namespace Tx

variable (tx : Tx σ) (name : String) (sandboxId : String)

def stop (error : RegistryError) : Except (Stopped σ) α := .error ⟨.failed error,tx⟩

def statement (effect : Transaction (Tables σ) → Result (Transaction (Tables σ))) :
    Except (Stopped σ) (Tx σ) :=
  let rest := { tx with answers := tx.answers.tail }
  match tx.transaction, tx.answers.headD .done with
  -- after an automatic rollback only savepoint statements follow, and there is no savepoint
  | none, _ => rest.stop .unreadable
  | some _, .refused => rest.stop .unreadable
  | some _, .rolledBack => { rest with transaction := none }.stop .unreadable
  | some t, .done =>
    match effect t with
    | .ok t => .ok { rest with transaction := some t }
    | .error e => rest.stop e

def edit (effect : Tables σ → Result (Tables σ)) : Except (Stopped σ) (Tx σ) :=
  tx.statement fun t => (effect t.content).map fun content => { t with content }

def savepoint : Except (Stopped σ) (Tx σ) :=
  tx.statement fun t => .ok (t.savepoint name)

def rollbackTo : Except (Stopped σ) (Tx σ) :=
  tx.statement fun t => (t.rollbackTo name).elim (.error .unreadable) .ok

def release : Except (Stopped σ) (Tx σ) :=
  tx.statement fun t => (t.release name).elim (.error .unreadable) .ok

def get : Option σ.Registration :=
  (overlay tx.staging.index.rows tx.staging.staged sandboxId).map (·.record)

def query (next : Tables σ → Tx σ → Except (Stopped σ) α) : Except (Stopped σ) α := do
  let tx ← tx.statement .ok
  match tx.transaction with
  | some t => next t.content tx
  | none => tx.stop .unreadable

def stage (id : String) (row? : Option (Row σ id)) : Tx σ :=
  { tx with staging := { tx.staging with staged := tx.staging.staged.insert id row? } }

def write (record : σ.Registration) (insert : Bool) : Except (Stopped σ) (Tx σ) :=
  if h : σ.decode (σ.sandboxId record) (σ.imageId record) (σ.encode record) = .ok record then do
    let tx ← tx.edit (·.putRegistration insert (σ.sandboxId record)
      ⟨σ.imageId record,σ.encode record⟩)
    match σ.reservedMb record with
    | .error e => tx.stop e
    | .ok reserved =>
      let tx ← tx.edit fun tables => .ok (tables.executeOn (σ.writeDiskClaim record reserved))
      .ok (tx.stage (σ.sandboxId record) (some ⟨σ.imageId record,σ.encode record,record,h⟩))
  else tx.stop (.registry "direct registration encoding is invalid")

def delete : Except (Stopped σ) (Tx σ) := do
  let tx ← tx.edit fun tables => .ok (tables.executeOn (σ.deleteDiskClaim sandboxId))
  let tx ← tx.edit (·.deleteRegistration sandboxId)
  .ok (tx.stage sandboxId none)

def bumpActivity : Except (Stopped σ) (Tx σ) := do
  let tx ← tx.edit fun tables => .ok tables.bump
  .ok { tx with staging := { tx.staging with bumps := tx.staging.bumps + 1 } }

end Tx

def Step.run : Step σ → Tx σ → Except (Stopped σ) (Option RegistryError × Tx σ)
  | .done failure, tx => .ok (failure,tx)
  | .get id next, tx => (next (tx.get id)).run tx
  | .query next, tx => tx.query fun tables tx => (next tables).run tx
  | .execute effect next, tx => do
    let tx ← tx.edit fun tables => .ok (tables.executeOn effect)
    next.run tx

def Body.run : Body σ α → Tx σ → Except (Stopped σ) (α × Tx σ)
  | .done value, tx => .ok (value,tx)
  | .fail error, tx => tx.stop error
  | .panic, tx => .error ⟨.panicked,tx⟩
  | .get id next, tx => (next (tx.get id)).run tx
  | .query next, tx => tx.query fun tables tx => (next tables).run tx
  | .write record insert next, tx => do
    let tx ← tx.write record insert
    next.run tx
  | .delete id next, tx => do
    let tx ← tx.delete id
    next.run tx
  | .bumpActivity next, tx => do
    let tx ← tx.bumpActivity
    next.run tx
  | .execute effect next, tx => do
    let tx ← tx.edit fun tables => .ok (tables.executeOn effect)
    next.run tx
  | .attempt step next, tx => do
    let tx ← tx.savepoint "growth"
    let (failure,tx) ← step.run tx
    -- an unreadable registry has already ended the body
    let tx ← if failure.isSome then tx.rollbackTo "growth" else .ok tx
    let tx ← tx.release "growth"
    (next failure).run tx

/-- Index, staged rows and bumps together are the tables the transaction sees. -/
structure Staging.Reflects (staging : Staging σ) (tables : Tables σ) : Prop where
  revision : staging.index.revision + staging.bumps = tables.activityRevision
  rows : ∀ id, (overlay staging.index.rows staging.staged id).map Row.stored =
    tables.registrations.lookup id

namespace Staging.Reflects

variable {staging : Staging σ} {tables tables' : Tables σ}

theorem stage (h : staging.Reflects tables) {id row?}
    (hrev : tables'.activityRevision = tables.activityRevision)
    (hself : tables'.registrations.lookup id = row?.map Row.stored)
    (hother : ∀ k, k ≠ id → tables'.registrations.lookup k = tables.registrations.lookup k) :
    Staging.Reflects { staging with staged := staging.staged.insert id row? } tables' := by
  refine ⟨h.revision.trans hrev.symm,fun k => ?_⟩
  by_cases hk : k = id
  · subst hk
    rw [overlay,AList.lookup_insert,hself]
    rfl
  · rw [overlay,AList.lookup_insert_ne hk,hother k hk]
    exact h.rows k

theorem get (h : staging.Reflects tables) (id) :
    (overlay staging.index.rows staging.staged id).map (·.record) = tables.get id := by
  rw [Tables.get,← h.rows id]
  cases overlay staging.index.rows staging.staged id with
  | none => rfl
  | some row => simp [Row.stored,row.decodes,Except.toOption]

theorem applied (h : staging.Reflects tables) :
    (staging.index.applied staging.staged (staging.index.revision + staging.bumps)).Matches tables :=
  ⟨h.revision,fun id => (congrArg (Option.map Row.stored) (lookup_foldl_applyStaged _
    staging.staged.entries staging.staged.nodupKeys id)).trans (h.rows id)⟩

end Staging.Reflects

theorem Index.Matches.reflects {index : Index σ} {tables} (h : index.Matches tables) :
    Staging.Reflects ⟨index,∅,0⟩ tables :=
  ⟨h.revision,fun id => by simpa [overlay] using h.rows id⟩

theorem Tables.putRegistration_ok {tables tables' : Tables σ} {insert id stored}
    (h : tables.putRegistration insert id stored = .ok tables') :
    tables' = { tables with registrations := tables.registrations.insert id stored } := by
  unfold putRegistration insertRegistration updateRegistration at h
  split at h
  · split at h
    · cases h
    · exact (Except.ok.inj h).symm
  · split at h
    · exact (Except.ok.inj h).symm
    · cases h

namespace Tx

variable {points : List (String × Tables σ)} {tables : Tables σ} {tx : Tx σ}

/-- Open with these savepoints set and these tables in sight. -/
def Holds (points : List (String × Tables σ)) (tables : Tables σ) (tx : Tx σ) : Prop :=
  tx.transaction = some ⟨tables,points⟩

def Left (points : List (String × Tables σ)) (stopped : Stopped σ) : Prop :=
  ∀ t, stopped.tx.transaction = some t → t.savepoints = points

theorem Holds.left (h : tx.Holds points tables) (cause) : Left points ⟨cause,tx⟩ := by
  intro t ht
  cases h.symm.trans ht
  rfl

theorem statement_yields (h : tx.Holds points tables) (effect) :
    Yields (fun tx' => ∃ t, effect ⟨tables,points⟩ = .ok t ∧ tx'.transaction = some t ∧
      tx'.staging = tx.staging) (Left points) (tx.statement effect) := by
  have hleft : ∀ cause, Left points ⟨cause,⟨some ⟨tables,points⟩,tx.answers.tail,tx.staging⟩⟩ :=
    fun cause => Holds.left (show Holds points tables ⟨_,_,_⟩ from rfl) cause
  unfold statement
  rw [h]
  cases tx.answers.headD .done with
  | refused => exact hleft _
  | rolledBack => intro t ht; cases ht
  | done =>
    dsimp only
    cases he : effect ⟨tables,points⟩ with
    | error => exact hleft _
    | ok t => exact ⟨t,rfl,rfl,rfl⟩

theorem edit_yields (h : tx.Holds points tables) (effect) :
    Yields (fun tx' => ∃ tables', effect tables = .ok tables' ∧ tx'.Holds points tables' ∧
      tx'.staging = tx.staging) (Left points) (tx.edit effect) := by
  have hs := statement_yields h fun t => (effect t.content).map fun content => { t with content }
  unfold edit
  cases hx : tx.statement _ with
  | error => exact hs.of_error hx
  | ok =>
    obtain ⟨t,he,ht,hst⟩ := hs.of_ok hx
    obtain ⟨content,hc,rfl⟩ := ok_of_map_ok he
    exact ⟨content,hc,ht,hst⟩

/-- The transaction and the staging agree on the tables a member works on. -/
structure Sees (points : List (String × Tables σ)) (index : Index σ) (tables : Tables σ)
    (tx : Tx σ) : Prop where
  holds : tx.Holds points tables
  index : tx.staging.index = index
  reflects : tx.staging.Reflects tables

namespace Sees

variable {index : Index σ}

section
variable (h : tx.Sees points index tables)
include h

theorem get (id) : tx.get id = tables.get id :=
  h.reflects.get id

theorem query {P : α → Prop} {Q next}
    (hQ : ∀ stopped, Left points stopped → Q stopped)
    (hnext : ∀ tx', tx'.staging = tx.staging → tx'.Sees points index tables →
      Yields P Q (next tables tx')) : Yields P Q (tx.query next) := by
  refine ((statement_yields h.holds .ok).weaken hQ).bind fun tx' => ?_
  rintro ⟨t,he,ht,hst⟩
  cases he
  rw [ht]
  exact hnext tx' hst ⟨ht,hst ▸ h.index,hst ▸ h.reflects⟩

theorem execute (effect) :
    Yields (fun tx' => tx'.staging = tx.staging ∧ tx'.Sees points index (tables.executeOn effect))
      (Left points) (tx.edit fun tables => .ok (tables.executeOn effect)) := by
  have he := edit_yields h.holds fun tables => .ok (tables.executeOn effect)
  cases hx : tx.edit _ with
  | error => exact he.of_error hx
  | ok =>
    obtain ⟨tables',ht,hh,hst⟩ := he.of_ok hx
    cases ht
    exact ⟨hst,hh,hst ▸ h.index,hst ▸ ⟨h.reflects.revision,h.reflects.rows⟩⟩

theorem write (record insert) :
    Yields (fun tx' => ∃ tables', tables.write record insert = .ok tables' ∧
      tx'.Sees points index tables') (Left points) (tx.write record insert) := by
  unfold Tx.write Tables.write
  split
  case isFalse => exact h.holds.left _
  case isTrue =>
    refine (edit_yields h.holds _).bind fun tx₁ => ?_
    rintro ⟨tables₁,hput,hh₁,hst₁⟩
    rw [hput]
    cases hr : σ.reservedMb record with
    | error => exact hh₁.left _
    | ok =>
      refine (edit_yields hh₁ _).bind fun tx₂ => ?_
      rintro ⟨tables₂,hclaim,hh₂,hst₂⟩
      cases hclaim
      obtain rfl := Tables.putRegistration_ok hput
      have hst : tx₂.staging = tx.staging := hst₂.trans hst₁
      refine ⟨_,rfl,hh₂,(congrArg Staging.index hst).trans h.index,?_⟩
      unfold stage
      rw [hst]
      exact h.reflects.stage rfl (AList.lookup_insert _) fun k => AList.lookup_insert_ne

theorem delete (id) :
    Yields (fun tx' => ∃ tables', tables.delete id = .ok tables' ∧ tx'.Sees points index tables')
      (Left points) (tx.delete id) := by
  refine (edit_yields h.holds _).bind fun tx₁ => ?_
  rintro ⟨tables₁,hclaim,hh₁,hst₁⟩
  cases hclaim
  refine (edit_yields hh₁ _).bind fun tx₂ => ?_
  rintro ⟨tables₂,hdel,hh₂,hst₂⟩
  have hst : tx₂.staging = tx.staging := hst₂.trans hst₁
  refine ⟨tables₂,hdel,hh₂,(congrArg Staging.index hst).trans h.index,?_⟩
  unfold Tables.deleteRegistration at hdel
  split at hdel
  case isFalse => cases hdel
  cases hdel
  unfold stage
  rw [hst]
  exact h.reflects.stage rfl (AList.lookup_erase _ _) fun k => AList.lookup_erase_ne

theorem bumpActivity : Yields (Sees points index tables.bump) (Left points) tx.bumpActivity := by
  refine (edit_yields h.holds _).bind fun tx' => ?_
  rintro ⟨tables',hb,hh,hst⟩
  cases hb
  refine ⟨hh,hst ▸ h.index,?_⟩
  rw [hst]
  exact ⟨by rw [Tables.bump,← h.reflects.revision]; rfl,h.reflects.rows⟩

theorem statement {effect t} (he : effect ⟨tables,points⟩ = .ok t)
    (hr : tx.staging.Reflects t.content) :
    Yields (Sees t.savepoints index t.content) (Left points) (tx.statement effect) := by
  have hs := statement_yields h.holds effect
  cases hx : tx.statement effect with
  | error => exact hs.of_error hx
  | ok =>
    obtain ⟨_,he',ht,hst⟩ := hs.of_ok hx
    cases he.symm.trans he'
    exact ⟨ht,hst ▸ h.index,hst ▸ hr⟩

theorem savepoint (name) :
    Yields (Sees ((name,tables) :: points) index tables) (Left points) (tx.savepoint name) :=
  h.statement (t := ⟨tables,(name,tables) :: points⟩) rfl h.reflects

end

theorem inside {name saved} : Transaction.Inside name ⟨saved,points⟩
    (⟨tables,(name,saved) :: points⟩ : Transaction (Tables σ)) :=
  ⟨[],rfl,by simp⟩

theorem release {name saved} (h : tx.Sees ((name,saved) :: points) index tables) :
    Yields (Sees points index tables) (Left ((name,saved) :: points)) (tx.release name) := by
  refine h.statement (t := ⟨tables,points⟩) ?_ h.reflects
  rw [inside.release_eq]
  rfl

theorem rollbackTo {name saved} (h : tx.Sees ((name,saved) :: points) index tables)
    (hs : tx.staging.Reflects saved) :
    Yields (Sees ((name,saved) :: points) index saved) (Left ((name,saved) :: points))
      (tx.rollbackTo name) := by
  refine h.statement (t := ⟨saved,(name,saved) :: points⟩) ?_ hs
  rw [inside.rollbackTo_eq]
  rfl

end Sees

/-- A stopped body can be rolled back to the member's savepoint, if there is anything left. -/
def Undoable (outer : Transaction (Tables σ)) (stopped : Stopped σ) : Prop :=
  ∀ t, stopped.tx.transaction = some t → Transaction.Inside "member" outer t

variable {outer : Transaction (Tables σ)}

theorem Left.undoable {stopped} (h : Left (("member",outer.content) :: outer.savepoints) stopped) :
    Undoable outer stopped :=
  fun t ht => ⟨[],h t ht,by simp⟩

def undo (tx : Tx σ) : Except (Stopped σ) (Tx σ) := do
  let tx ← tx.rollbackTo "member"
  tx.release "member"

theorem statement_ok {effect tx'} (h : tx.statement effect = .ok tx') :
    ∃ t t', tx.transaction = some t ∧ effect t = .ok t' ∧ tx'.transaction = some t' := by
  unfold statement at h
  cases ht : tx.transaction with
  | none => rw [ht] at h; cases h
  | some t =>
    have hh : tx.Holds t.savepoints t.content := ht
    obtain ⟨t',he,ht',-⟩ := (statement_yields hh effect).of_ok h
    exact ⟨t,t',rfl,he,ht'⟩

theorem undo_ok {tx'} (hu : ∀ t, tx.transaction = some t → Transaction.Inside "member" outer t)
    (h : tx.undo = .ok tx') : tx'.transaction = some outer := by
  obtain ⟨_,hr,h⟩ := ok_of_bind_ok h
  obtain ⟨t,t₁,ht,he,ht₁⟩ := statement_ok hr
  rw [(hu t ht).rollbackTo_eq] at he
  cases he
  obtain ⟨t₂,t₃,ht₂,he₂,ht₃⟩ := statement_ok h
  cases ht₁.symm.trans ht₂
  cases he₂
  exact ht₃

end Tx

theorem Step.run_serial {points index} (step : Step σ) :
    ∀ {tx : Tx σ} {tables : Tables σ}, tx.Sees points index tables →
      Yields (fun p => p.2.staging = tx.staging ∧ ∃ tables', p.2.Sees points index tables' ∧
        step.serial tables = p.1.elim (.ok tables') .error) (Tx.Left points) (step.run tx) := by
  induction step with
  | done failure =>
    intro tx tables h
    refine ⟨rfl,tables,h,?_⟩
    cases failure <;> rfl
  | get id next ih =>
    intro tx tables h
    unfold Step.run Step.serial
    rw [h.get id]
    exact ih _ h
  | query next ih =>
    intro tx tables h
    refine h.query (fun _ => id) fun tx' hst h' => ?_
    have hnext := ih tables h'
    rw [hst] at hnext
    exact hnext
  | execute effect next ih =>
    intro tx tables h
    refine (h.execute effect).bind fun tx' ⟨hst,h'⟩ => ?_
    have hnext := ih h'
    rw [hst] at hnext
    exact hnext

/-- A body that succeeds in the group does what it does alone; one that stops leaves the member's
savepoint in reach. -/
theorem Body.run_serial {outer index} (body : Body σ α) :
    ∀ {tx : Tx σ} {tables : Tables σ},
      tx.Sees (("member",outer.content) :: outer.savepoints) index tables →
      Yields (fun p => ∃ tables', body.serial tables = some (p.1,tables') ∧
        p.2.Sees (("member",outer.content) :: outer.savepoints) index tables')
        (Tx.Undoable outer) (body.run tx) := by
  have hundo : ∀ stopped : Stopped σ, Tx.Left (("member",outer.content) :: outer.savepoints) stopped →
      Tx.Undoable outer stopped := fun _ h => h.undoable
  induction body with
  | done => exact fun h => ⟨_,rfl,h⟩
  | fail | panic => exact fun h => (h.holds.left _).undoable
  | get id next ih =>
    intro tx tables h
    unfold Body.run Body.serial
    rw [h.get id]
    exact ih _ h
  | query next ih => exact fun {tx tables} h => h.query hundo fun tx' _ => ih tables
  | write record insert next ih =>
    intro tx tables h
    refine ((h.write record insert).weaken hundo).bind fun tx' ⟨tables',hw,h'⟩ => ?_
    unfold Body.serial
    rw [hw]
    exact ih h'
  | delete id next ih =>
    intro tx tables h
    refine ((h.delete id).weaken hundo).bind fun tx' ⟨tables',hd,h'⟩ => ?_
    unfold Body.serial
    rw [hd]
    exact ih h'
  | bumpActivity next ih => exact fun h => (h.bumpActivity.weaken hundo).bind fun tx' => ih
  | execute effect next ih =>
    exact fun h => ((h.execute effect).weaken hundo).bind fun tx' ⟨_,h'⟩ => ih h'
  | attempt step next ih =>
    intro tx tables h
    refine ((h.savepoint "growth").weaken hundo).bind fun tx₁ h₁ => ?_
    have hgw : ∀ stopped : Stopped σ,
        Tx.Left (("growth",tables) :: ("member",outer.content) :: outer.savepoints) stopped →
        Tx.Undoable outer stopped := fun _ h t ht => ⟨[("growth",tables)],h t ht,by simp⟩
    refine ((step.run_serial h₁).weaken hgw).bind ?_
    rintro ⟨failure,tx₂⟩ ⟨hst,tables₂,h₂,hser⟩
    unfold Body.serial
    rw [hser]
    cases failure with
    | none => exact (h₂.release.weaken hgw).bind fun tx₃ => ih none
    | some e =>
      -- the step staged nothing, so the tables at its savepoint are what the staging reflects
      have hback := h₂.rollbackTo (hst ▸ h₁.reflects)
      refine (hback.weaken hgw).bind fun tx₃ h₃ => ?_
      exact (h₃.release.weaken hgw).bind fun tx₄ h₄ => ih (some e) h₄

end UCloudSandboxes.Registry
