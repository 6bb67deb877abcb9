import UCloudSandboxes.Machine.Transaction
import UCloudSandboxes.Registry.NodeRegistry

/-! Growth steps as one commit, against the same steps in transactions of their own. -/
namespace UCloudSandboxes.Registry
open Machine
open Admission (GrowthIntent)

abbrev GrowthAnswer := Result (Option GrowthIntent)

/-- A write transaction. The owner reads registrations from its index and staged rows, any
other instance from the connection. -/
structure GrowthTx where
  connection : Transaction NodeRegistry
  index : Option (String → Option Registration)

def NodeRegistry.registration (r : NodeRegistry) (sandboxId : String) : Option Registration :=
  (r.entry sandboxId).rows.registration

namespace GrowthTx

variable (tx : GrowthTx) (sandboxId : String)

def get : Option Registration :=
  tx.index.getD tx.connection.content.registration sandboxId

def growthIntentStep (step : GrowthStep) : GrowthTx × GrowthAnswer :=
  let e := tx.connection.content.entry sandboxId
  match Registry.growthIntentStep sandboxId (tx.get sandboxId) e.growth step with
  | .error error => (tx, .error error)
  | .ok growth =>
    ({ tx with connection.content := tx.connection.content.set sandboxId { e with growth } },
      .ok growth.row)

def statement (result : Option (Transaction NodeRegistry)) : Result GrowthTx :=
  match result with
  | some connection => .ok { tx with connection }
  | none => .error .unreadable

def release : Result GrowthTx :=
  tx.statement (tx.connection.release "growth")

/-- A failed item is undone alone; a failed statement ends the batch. -/
def closeItem (tx : GrowthTx) : GrowthAnswer → Result GrowthTx
  | .ok _ => tx.release
  | .error .unreadable => .error .unreadable
  | .error _ => tx.statement (tx.connection.rollbackTo "growth") >>= release

def growthIntentSteps (tx : GrowthTx) : List (String × GrowthStep) →
    Result (GrowthTx × List GrowthAnswer)
  | [] => .ok (tx, [])
  | (sandboxId, step) :: steps => do
    let saved := { tx with connection := tx.connection.savepoint "growth" }
    let item := saved.growthIntentStep sandboxId step
    let tx ← item.1.closeItem item.2
    let rest ← tx.growthIntentSteps steps
    .ok (rest.1, item.2 :: rest.2)

end GrowthTx

/-- The failure of a statement. -/
def unreadable : GrowthAnswer → Bool
  | .error .unreadable => true
  | _ => false

namespace NodeRegistry

section
variable (r : NodeRegistry) (owner : Bool) (outer : List (String × NodeRegistry))

/-- A transaction opened on these rows, on the owner inside the savepoints of its group. -/
def began : GrowthTx :=
  ⟨⟨r,outer⟩,if owner then some r.registration else none⟩

/-- `write`: what the body leaves is kept, and an error undoes all of it. -/
def write {α : Type} (body : GrowthTx → Result (GrowthTx × α)) :
    NodeRegistry × Result α :=
  match body (r.began owner outer) with
  | .ok (tx, value) => (tx.connection.content, .ok value)
  | .error error => (r, .error error)

def growthBatch (steps : List (String × GrowthStep)) :
    NodeRegistry × Result (List GrowthAnswer) :=
  r.write owner outer (·.growthIntentSteps steps)

def growthAlone (sandboxId : String) (step : GrowthStep) : NodeRegistry × GrowthAnswer :=
  r.write owner outer fun tx =>
    let item := tx.growthIntentStep sandboxId step
    item.2.map fun intent => (item.1, intent)

end

def growthSeparately (owner : Bool) (outer : List (String × NodeRegistry)) (r : NodeRegistry) :
    List (String × GrowthStep) → NodeRegistry × List GrowthAnswer
  | [] => (r, [])
  | (sandboxId, step) :: steps =>
    let item := r.growthAlone owner outer sandboxId step
    let rest := item.1.growthSeparately owner outer steps
    (rest.1, item.2 :: rest.2)

end NodeRegistry

namespace NodeRegistry

variable {r : NodeRegistry} {owner : Bool} {outer : List (String × NodeRegistry)} {sandboxId : String}
  {step : GrowthStep}

section
variable (r sandboxId step)

def grown : Result GrowthRows :=
  growthIntentStep sandboxId (r.registration sandboxId) (r.entry sandboxId).growth step

end

theorem get_began : (r.began owner outer).get sandboxId = r.registration sandboxId := by
  cases owner <;> rfl

theorem growthIntentStep_error {error} (h : r.grown sandboxId step = .error error) :
    (r.began owner outer).growthIntentStep sandboxId step = (r.began owner outer, .error error) := by
  unfold GrowthTx.growthIntentStep
  rw [get_began]
  unfold grown at h
  simp only [began,h]

theorem growthIntentStep_ok {growth} (h : r.grown sandboxId step = .ok growth) :
    (r.began owner outer).growthIntentStep sandboxId step =
      ((r.set sandboxId { r.entry sandboxId with growth }).began owner outer, .ok growth.row) := by
  -- a growth step moves no registration, so the index still shows what is registered
  have hsame : (r.set sandboxId { r.entry sandboxId with growth }).registration = r.registration := by
    funext other
    unfold registration
    by_cases ho : other = sandboxId
    · rw [ho,entry_set_self]
    · rw [entry_set_ne ho]
  unfold GrowthTx.growthIntentStep
  rw [get_began]
  unfold grown at h
  simp only [began,h,hsame]

theorem release_began {saved} :
    (r.began owner (("growth",saved) :: outer)).release = .ok (r.began owner outer) :=
  rfl

theorem closeItem_error {error} (h : error ≠ .unreadable) :
    (r.began owner (("growth",r) :: outer)).closeItem (.error error) = .ok (r.began owner outer) := by
  cases error with
  | unreadable => exact absurd rfl h
  | _ => rfl

theorem growthAlone_error {error} (h : r.grown sandboxId step = .error error) :
    r.growthAlone owner outer sandboxId step = (r, .error error) := by
  unfold growthAlone write
  dsimp only
  rw [growthIntentStep_error h]
  rfl

theorem growthAlone_ok {growth} (h : r.grown sandboxId step = .ok growth) :
    r.growthAlone owner outer sandboxId step =
      (r.set sandboxId { r.entry sandboxId with growth }, .ok growth.row) := by
  unfold growthAlone write
  dsimp only
  rw [growthIntentStep_ok h]
  rfl

theorem growthIntentSteps_began (steps) :
    (r.began owner outer).growthIntentSteps steps =
      if (r.growthSeparately owner outer steps).2.any unreadable then .error .unreadable
      else .ok ((r.growthSeparately owner outer steps).1.began owner outer,
        (r.growthSeparately owner outer steps).2) := by
  induction steps generalizing r with
  | nil => rfl
  | cons head steps ih =>
    obtain ⟨sandboxId,step⟩ := head
    -- the savepoint keeps what is stored, so the item starts as it would alone
    have hsaved : ({ r.began owner outer with
        connection := (r.began owner outer).connection.savepoint "growth" } : GrowthTx) =
        r.began owner (("growth",r) :: outer) := rfl
    unfold GrowthTx.growthIntentSteps growthSeparately
    dsimp only
    cases h : r.grown sandboxId step with
    | error error =>
      rw [hsaved,growthIntentStep_error h,growthAlone_error h]
      by_cases hread : error = .unreadable
      · subst hread
        rfl
      · have hgo : unreadable (.error error) = false := by
          cases error <;> first | rfl | exact absurd rfl hread
        rw [closeItem_error hread,List.any_cons,hgo,Bool.false_or]
        dsimp only [Bind.bind,Except.bind]
        rw [ih]
        split_ifs <;> rfl
    | ok growth =>
      have hgo : unreadable (.ok growth.row) = false := rfl
      rw [hsaved,growthIntentStep_ok h,growthAlone_ok h,GrowthTx.closeItem,release_began,
        List.any_cons,hgo,Bool.false_or]
      dsimp only [Bind.bind,Except.bind]
      rw [ih]
      split_ifs <;> rfl

/-- A batch of growth steps leaves the rows and gives the answers of the steps one by one, unless
SQLite fails one of them: then the batch fails and leaves the rows as they were. -/
theorem growthBatch_eq_separately (r : NodeRegistry) (owner outer steps) :
    r.growthBatch owner outer steps =
      if (r.growthSeparately owner outer steps).2.any unreadable then (r, .error .unreadable)
      else ((r.growthSeparately owner outer steps).1, .ok (r.growthSeparately owner outer steps).2) := by
  unfold growthBatch write
  dsimp only
  rw [growthIntentSteps_began]
  split_ifs <;> rfl

end NodeRegistry

namespace Example
open Entry.Example

def owned (memoryMb : Nat) : Entry := { empty with
  rows.registration := some { candidate 1 with phase := .owned, memoryMb := some memoryMb } }

/-- Two owned sandboxes; the second one's memory in bytes is no `i64`. -/
def overflowing : NodeRegistry :=
  (NodeRegistry.set {} "sandbox" (owned 512)).set "huge" (owned (2 ^ 43))

def activations : List (String × GrowthStep) := [("sandbox",activate),("huge",activate)]

end Example

/-- The item that SQLite fails takes the other one's row with it. -/
theorem growthBatch_aborts_whole : ∃ r steps,
    ((NodeRegistry.growthBatch r true [] steps).1.entry "sandbox").growth.row = none ∧
    ((r.growthSeparately true [] steps).1.entry "sandbox").growth.row ≠ none :=
  ⟨Example.overflowing,Example.activations,by decide +kernel,by decide +kernel⟩

end UCloudSandboxes.Registry
