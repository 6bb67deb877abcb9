import Mathlib.Logic.Function.Basic
import UCloudSandboxes.Machine.Basic

/-! Block devices of the storage daemon. A journal row names its device by number and its owner by
an identity drawn for each mount; the backend reuses what is released. -/
namespace UCloudSandboxes.Storage
open Machine Function Bool Option

inductive DeviceState where
  | resting | creating | acquiring | holding | releasing | deleting | error
  deriving DecidableEq

/-- The states whose journaled number a restart or a release takes at its word. -/
def DeviceState.trusting : DeviceState → Bool
  | .creating | .holding | .releasing => true
  | _ => false

/-- Where the daemon is in an operation; a checked release looks up the owner identity first. -/
inductive DeviceStage where
  | idle
  | opening
  | acquired (device : Nat)
  | releasing (checked : Bool)
  | released
  deriving DecidableEq

inductive DeviceMove where
  | journalDevice
  | finish
  | abandon
  | fault
  | release
  | delete
  | recover
  | skip
  | settle (failed : Bool)
  | wait
  | reconcile

structure DeviceRow where
  state : DeviceState := .resting
  owner : Option Nat := none
  device : Option Nat := none
  stage : DeviceStage := .idle
  deriving DecidableEq

namespace DeviceRow
variable (r : DeviceRow)

def move : DeviceMove → Option DeviceRow
  | .journalDevice => match r.stage with
    | .acquired device => some { r with device := some device }
    | _ => none
  | .finish => match r.stage with
    | .acquired device =>
      if r.device = some device then some { r with state := .holding, stage := .idle } else none
    | _ => none
  | .abandon => match r.stage with
    | .opening | .acquired _ => some { r with stage := .releasing false }
    | _ => none
  | .fault => match r.stage, r.state with
    | .idle, .holding => some { r with state := .error }
    | _, _ => none
  | .release => match r.stage, r.state with
    | .idle, .holding => some { r with state := .releasing, stage := .releasing false }
    | _, _ => none
  | .delete => match r.stage, r.state with
    | .idle, .holding | .idle, .resting | .idle, .error =>
      some { r with state := .deleting, stage := .releasing true }
    | _, _ => none
  | .recover => match r.stage, r.state with
    | .idle, .error => some { r with state := .releasing, stage := .releasing true }
    | _, _ => none
  | .skip => match r.stage with
    | .releasing _ => some { r with stage := .released }
    | _ => none
  | .settle failed => match r.stage with
    | .released => some (if failed || [.creating, .acquiring].contains r.state then
        { r with state := .error, stage := .idle } else {})
    | _ => none
  | .wait => match r.stage, r.state with
    | .releasing true, .deleting => some { r with stage := .idle }
    | _, _ => none
  | .reconcile => match r.stage, r.state with
    | .idle, .creating | .idle, .releasing => some { r with stage := .releasing false }
    | .idle, .acquiring | .idle, .deleting => some { r with stage := .releasing true }
    | _, _ => none

/-- A device found by its owner alone may be met again, when the handler follows a failed acquire. -/
def touched (checked : Bool) : DeviceRow :=
  { r with stage := if r.device = none then .releasing checked else .released }

/-- No checked lookup stands between the row and a release of its device. -/
def reliable : Bool := match r.stage with
  | .idle => r.state.trusting
  | .releasing checked => !checked
  | .released => false
  | .opening | .acquired _ => true

/-- The row counts on the device, or (`none`) waits for one. -/
def Uses : Option Nat → Prop
  | none => r.stage = .opening
  | some d => r.device = some d ∨ r.stage = .acquired d

variable {r} {r' : DeviceRow} {m : DeviceMove} {checked : Bool} {x : Option Nat}

theorem unused_of_touched (h : (r.touched checked).reliable = true) : ¬(r.touched checked).Uses x := by
  by_cases hd : r.device = none <;> cases x <;> simp_all [reliable,touched,Uses]

theorem owner_of_move (h : r.move m = some r') : r'.owner = r.owner ∨ r' = {} := by
  cases m <;> simp only [move] at h <;> split at h <;> grind

theorem uses_of_move (h : r.move m = some r') (hr : r'.reliable = true) (hx : r'.Uses x) :
    r.reliable = true ∧ r.Uses x ∧ r'.owner = r.owner := by
  cases m <;> simp only [move] at h <;> split at h <;> cases x <;>
    grind [reliable,Uses,DeviceState.trusting]

end DeviceRow

/-- The rows of all volumes and of retired devices, and the backend's owner of each device. -/
structure Devices where
  rows : String → DeviceRow := fun _ => {}
  volumes : List String := []
  backend : Nat → Option Nat := fun _ => none
  retired : List (Nat × Nat) := []

inductive DeviceEvent where
  | begin (v : String) (owner : Nat) (create : Bool)
  | acquire (v : String) (device : Nat)
  | move (v : String) (m : DeviceMove)
  | adopt (v : String) (device : Nat)
  | touch (v : String) (device : Nat) (inUse : Bool)
  | reap (owner device : Nat)
  | crash
  | discardOrphan (device : Nat) (inUse : Bool)

namespace Devices
variable (s : Devices)

def put (v : String) (r : DeviceRow) : Devices := { s with rows := update s.rows v r }

def orphan (o : Nat) : Bool :=
  s.volumes.all (fun v => (s.rows v).owner ≠ some o) && s.retired.all (·.1 ≠ o)

def lists (r : DeviceRow) (device : Nat) : Bool := r.owner.isSome && s.backend device = r.owner

/-- Releases or deletes the device, or retires its owner when the kernel still uses it. -/
def dispose (device : Nat) (inUse : Bool) : Option Devices :=
  if inUse then (s.backend device).map fun o => { s with retired := (o,device) :: s.retired }
  else some { s with backend := update s.backend device none }

def step : DeviceEvent → Option Devices
  | .begin v owner create =>
    if (s.rows v).stage = .idle && (s.rows v).state = .resting && s.orphan owner then
      some { s.put v { state := if create then .creating else .acquiring, owner := some owner,
                       stage := .opening } with volumes := v :: s.volumes }
    else none
  | .acquire v device =>
    if (s.rows v).stage = .opening && s.backend device = none then
      some { s.put v { s.rows v with stage := .acquired device } with
        backend := update s.backend device (s.rows v).owner }
    else none
  | .move v m => ((s.rows v).move m).map (s.put v)
  -- A restart journals the number it finds under the owner; nothing else runs until it has released it.
  | .adopt v device =>
    if (s.rows v).device = none && s.lists (s.rows v) device then match (s.rows v).stage, (s.rows v).state with
      | .releasing _, _ => some (s.put v { s.rows v with device := some device, stage := .releasing true })
      | .idle, .error => some (s.put v { s.rows v with device := some device })
      | _, _ => none
    else none
  | .touch v device inUse => match (s.rows v).stage with
    | .releasing checked =>
      if ((s.rows v).device.getD device = device) &&
          (!((s.rows v).device = none || checked) || s.lists (s.rows v) device) then
        (s.put v ((s.rows v).touched checked)).dispose device inUse
      else none
    | _ => none
  | .reap owner device =>
    if (owner,device) ∈ s.retired then some { s with
      backend := if s.backend device = some owner then update s.backend device none else s.backend
      retired := s.retired.erase (owner,device) }
    else none
  | .crash => some { s with rows := fun v => { s.rows v with stage := .idle } }
  | .discardOrphan device inUse =>
    if (s.backend device).any s.orphan then s.dispose device inUse else none

/-- The row's owner has the device and is not retired; before it has one, only the latter. -/
def Bound (r : DeviceRow) (x : Option Nat) : Prop :=
  ∃ o, r.owner = some o ∧ (∀ d, x = some d → s.backend d = some o) ∧ ∀ row ∈ s.retired, row.1 ≠ o

/-- A crash finds the rows under an operation right about their devices, where a restart trusts them. -/
def Careful : DeviceEvent → Prop
  | .crash => ∀ v, (s.rows v).stage ≠ .idle → (s.rows v).state.trusting = true →
      ∀ d, (s.rows v).device = some d → s.Bound (s.rows v) (some d)
  | _ => True

structure Inv : Prop where
  held : ∀ {v x}, (s.rows v).reliable = true → (s.rows v).Uses x → s.Bound (s.rows v) x
  distinct : ∀ {u v o}, (s.rows u).owner = some o → (s.rows v).owner = some o → u = v
  known : ∀ {v o}, (s.rows v).owner = some o → v ∈ s.volumes

variable {s} {t : Devices} {v : String} {r : DeviceRow} {d o : Nat} {inUse : Bool}

theorem orphan_iff : s.orphan o = true ↔
    (∀ v ∈ s.volumes, (s.rows v).owner ≠ some o) ∧ ∀ row ∈ s.retired, row.1 ≠ o := by
  simp [orphan]

theorem Bound.congr {r' x} (h : s.Bound r x) (he : r'.owner = r.owner) : s.Bound r' x := by
  obtain ⟨o,ho,hrest⟩ := h
  exact ⟨o,he.trans ho,hrest⟩

namespace Inv
variable (h : s.Inv)
include h

theorem put (howner : ∀ o, r.owner = some o → v ∈ s.volumes ∧ ∀ u, (s.rows u).owner = some o → u = v)
    (hheld : r.reliable = true → ∀ x, r.Uses x → s.Bound r x) : (s.put v r).Inv := by
  refine ⟨fun {u x} hr hx => ?_,fun {u w o} hu hw => ?_,fun {u o} hu => ?_⟩ <;>
    simp only [Devices.put,update_apply] at *
  · split at hx
    · simp only [*] at hr ⊢
      exact hheld hr x hx
    · simp only [*] at hr ⊢
      exact h.held hr hx
  · split at hu <;> split at hw
    · simp [*]
    · exact absurd ((howner o hu).2 w hw) ‹_›
    · exact absurd ((howner o hw).2 u hu) ‹_›
    · exact h.distinct hu hw
  · split at hu
    · simp [*]
    · exact h.known hu

theorem put_same (howner : r.owner = (s.rows v).owner)
    (hheld : r.reliable = true → ∀ x, r.Uses x → s.Bound r x) : (s.put v r).Inv :=
  h.put (fun _ ho => ⟨h.known (howner.symm.trans ho),fun _ hu => h.distinct hu (howner.symm.trans ho)⟩)
    hheld

theorem dispose (hs : s.dispose d inUse = some t)
    (hfree : ∀ {u x o}, (s.rows u).reliable = true → (s.rows u).Uses x → s.backend d = some o →
      (s.rows u).owner ≠ some o) : t.Inv := by
  cases inUse with
  | true =>
    obtain ⟨o,ho,rfl⟩ := map_eq_some_iff.mp hs
    refine ⟨fun hr hx => ?_,h.distinct,h.known⟩
    obtain ⟨o',ho',hd,hret⟩ := h.held hr hx
    refine ⟨o',ho',hd,List.forall_mem_cons.mpr ⟨?_,hret⟩⟩
    rintro rfl
    exact hfree hr hx ho ho'
  | false =>
    cases hs
    refine ⟨fun hr hx => ?_,h.distinct,h.known⟩
    obtain ⟨o,ho,hd,hret⟩ := h.held hr hx
    refine ⟨o,ho,fun d' hd' => ?_,hret⟩
    have hne : d' ≠ d := by
      rintro rfl
      exact hfree hr hx (hd _ hd') ho
    exact (update_of_ne hne ..).trans (hd d' hd')

open DeviceRow

theorem owner_of_touch (hs : s.step (.touch v d inUse) = some t) : s.backend d = (s.rows v).owner := by
  simp only [step] at hs
  split at hs
  case h_2 => cases hs
  case h_1 checked hstage =>
    obtain ⟨hg,-⟩ := of_check hs nofun
    simp only [lists,and_eq_true,or_eq_true,not_eq_true',or_eq_false_iff,
      decide_eq_true_eq,decide_eq_false_iff_not] at hg
    obtain ⟨hd,hg | hg⟩ := hg
    · obtain ⟨d',hd'⟩ := ne_none_iff_exists'.mp hg.1
      obtain rfl : d' = d := by simpa [hd'] using hd
      obtain ⟨o,ho,hb,-⟩ := h.held (v := v) (x := some d')
        (by simp [reliable,hstage,hg.2]) (.inl hd')
      exact (hb _ rfl).trans ho.symm
    · exact hg.2

theorem acquire (hs : s.step (.acquire v d) = some t) : t.Inv := by
  obtain ⟨hg,rfl⟩ := some_of_check hs
  simp only [and_eq_true,decide_eq_true_eq] at hg
  have hr : (s.rows v).reliable = true := by simp [reliable,hg.1]
  -- A device that a row counts on has an owner, so the free one is not among them.
  have hgiven : Inv { s with backend := update s.backend d (s.rows v).owner } := by
    refine ⟨fun hr hx => ?_,h.distinct,h.known⟩
    obtain ⟨o,ho,hb,hret⟩ := h.held hr hx
    refine ⟨o,ho,fun d' hd' => (update_of_ne ?_ ..).trans (hb d' hd'),hret⟩
    rintro rfl
    cases hg.2.symm.trans (hb _ hd')
  refine hgiven.put_same rfl fun _ x hx => ?_
  cases x with
  | none => cases hx
  | some d' =>
    rcases hx with hx | hx
    · exact (hgiven.held (x := some d') hr (.inl hx)).congr rfl
    obtain ⟨o,ho,-,hret⟩ := h.held (x := none) hr hg.1
    exact ⟨o,ho,fun d' hd' => by simp_all,hret⟩

theorem step {e} (hok : s.Careful e) (hs : s.step e = some t) : t.Inv := by
  cases e with
  | begin v owner create =>
    obtain ⟨hg,rfl⟩ := some_of_check hs
    simp only [and_eq_true,orphan_iff] at hg
    have hvol : Inv { s with volumes := v :: s.volumes } :=
      ⟨h.held,h.distinct,fun hu => List.mem_cons_of_mem _ (h.known hu)⟩
    refine hvol.put (fun o ho => ⟨List.mem_cons_self,fun u hu => ?_⟩) fun _ x hx => ?_
    · cases ho
      exact (hg.2.1 u (h.known hu) hu).elim
    · cases x with
      | none => exact ⟨owner,rfl,nofun,hg.2.2⟩
      | some d => simp [DeviceRow.Uses] at hx
  | acquire => exact h.acquire hs
  | move v m =>
    obtain ⟨r,hr,rfl⟩ := map_eq_some_iff.mp hs
    have hheld (hrel : r.reliable = true) x (hx : r.Uses x) : s.Bound r x := by
      obtain ⟨hold,hold',howner⟩ := uses_of_move hr hrel hx
      exact (h.held hold hold').congr howner
    rcases owner_of_move hr with ho | rfl
    · exact h.put_same ho hheld
    · exact h.put nofun hheld
  | adopt v d =>
    obtain ⟨-,hs⟩ := of_check hs nofun
    split at hs <;> cases hs
    · exact h.put_same rfl nofun
    · exact h.put_same rfl (by simp [reliable,DeviceState.trusting, *])
  | touch v d inUse =>
    have hown := h.owner_of_touch hs
    simp only [Devices.step] at hs
    split at hs
    case h_2 => cases hs
    case h_1 checked _ =>
    obtain ⟨-,hs⟩ := of_check hs nofun
    have hput : (s.put v ((s.rows v).touched checked)).Inv :=
      h.put_same rfl fun hr _ hx => (unused_of_touched hr hx).elim
    refine hput.dispose hs fun {u x o} hr hx hb ho => ?_
    by_cases huv : u = v
    · subst huv
      simp only [Devices.put,update_self] at hr hx
      exact unused_of_touched hr hx
    · simp only [Devices.put,update_of_ne huv] at ho
      exact huv (h.distinct ho (hown.symm.trans hb))
  | reap o d =>
    obtain ⟨hret,rfl⟩ := some_of_check hs
    refine ⟨fun hr hx => ?_,h.distinct,h.known⟩
    obtain ⟨o',ho',hb,hun⟩ := h.held hr hx
    refine ⟨o',ho',fun d' hd' => ?_,fun row hrow => hun row (List.mem_of_mem_erase hrow)⟩
    split
    case isTrue ho =>
      refine (update_of_ne ?_ ..).trans (hb d' hd')
      rintro rfl
      exact hun _ hret (some.inj (ho.symm.trans (hb _ hd')))
    case isFalse => exact hb d' hd'
  | crash =>
    cases hs
    refine ⟨fun {v x} hr hx => ?_,h.distinct,h.known⟩
    cases x with
    | none => cases hx
    | some d =>
      have hd : (s.rows v).device = some d := hx.resolve_right nofun
      by_cases hidle : (s.rows v).stage = .idle
      · exact h.held (x := some d) (by simpa [reliable,hidle] using hr) (.inl hd)
      · exact hok v hidle hr d hd
  | discardOrphan d inUse =>
    obtain ⟨hg,hs⟩ := of_check hs nofun
    refine h.dispose hs fun {u _ o} _ _ hb ho => ?_
    have horp : s.orphan o = true := by simpa [hb] using hg
    exact (orphan_iff.mp horp).1 u (h.known ho) ho

end Inv

end Devices

namespace Example

end Example

end UCloudSandboxes.Storage
