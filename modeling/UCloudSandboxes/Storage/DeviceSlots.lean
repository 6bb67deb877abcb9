import UCloudSandboxes.Machine.Basic
import UCloudSandboxes.Machine.Table

/-! A ceiling on runtime devices: allocation slots, the counter of those without a backend owner,
and the owners the backend lists and drops at any time. -/
namespace UCloudSandboxes.Storage
open Accounting Machine

/-- `_DeviceAllocationSlot`, whether it is over, and how often it was taken off the counter. -/
structure AllocationSlot where
  pending : Bool := true
  closed : Bool := false
  returned : Nat := 0

structure DeviceSlots where
  owners : List String := []
  pending : Nat := 0
  slots : AList fun _ : Nat => AllocationSlot := ∅

inductive SlotEvent
  | take (op : Nat)
  /-- The backend may have registered the owner of a call that fails. -/
  | acquire (op : Nat) (owner : String) (registers fails : Bool)
  | close (op : Nat)
  /-- The backend registers the owner of a call that has given up. -/
  | registered (owner : String)
  | released (owner : String)

namespace DeviceSlots

variable (maximum : Nat) (s : DeviceSlots) (op : Nat) (owner : String)

def register : DeviceSlots :=
  { s with owners := if owner ∈ s.owners then s.owners else owner :: s.owners }

def holds : Bool := (s.slots.lookup op).any (·.pending)

def settle (closed : Bool) : DeviceSlots :=
  match s.slots.lookup op with
  | none => s
  | some slot => { s with
      pending := s.pending - slot.pending.toNat
      slots := s.slots.insert op ⟨false,closed,slot.returned + slot.pending.toNat⟩ }

/-- An operation without a slot acquires as one that has none pending. -/
def step : SlotEvent → Option DeviceSlots
  | .take op =>
    if op ∉ s.slots ∧ s.owners.length + s.pending < maximum then
      some { s with pending := s.pending + 1, slots := s.slots.insert op {} }
    else none
  | .acquire op owner registers fails =>
    if owner ∉ s.owners ∧ s.owners.length + s.pending - (s.holds op).toNat ≥ maximum then none
    else if !fails then some ((s.register owner).settle op false)
    else some (if registers then s.register owner else s)
  | .close op => some (s.settle op true)
  | .registered owner => some (s.register owner)
  | .released owner => some { s with owners := s.owners.erase owner }

/-- An owner that no successful call put in the place of a slot still fits. -/
def fits : SlotEvent → Prop
  | .acquire _ owner true true | .registered owner =>
    owner ∈ s.owners ∨ s.owners.length + s.pending < maximum
  | _ => True

/-- The daemon starts over the owners of an earlier one. -/
def Start (s : DeviceSlots) : Prop := s.owners.length ≤ maximum ∧ s = { owners := s.owners }

/-- The counter counts the pending slots, and each slot is pending or was taken off it once. -/
structure Counted : Prop where
  counted : s.pending = tableSum (·.pending.toNat) s.slots
  once : ∀ op slot, s.slots.lookup op = some slot →
    slot.returned + slot.pending.toNat = 1 ∧ (slot.closed = true → slot.pending = false)

def Fits : Prop := s.owners.length + s.pending ≤ maximum

variable {maximum s op owner} {s' : DeviceSlots}

theorem length_register (s : DeviceSlots) (owner) : (s.register owner).owners.length =
    if owner ∈ s.owners then s.owners.length else s.owners.length + 1 := by
  unfold register
  split <;> rfl

theorem Fits.register (h : s.Fits maximum)
    (hroom : owner ∈ s.owners ∨ s.owners.length + s.pending < maximum) :
    (s.register owner).Fits maximum := by
  rw [Fits,length_register]
  show _ + s.pending ≤ maximum
  split
  · exact h
  · have := hroom.resolve_left ‹_›
    omega

namespace Counted

variable (h : s.Counted)
include h

theorem settle (closed owners) : (DeviceSlots.settle { s with owners } op closed).Counted := by
  unfold DeviceSlots.settle
  cases hslot : s.slots.lookup op with
  | none => exact ⟨h.counted,h.once⟩
  | some slot =>
    have hsum := tableSum_erase (·.pending.toNat) s.slots op
    simp only [tableAt,hslot,Option.map_some,Option.getD_some] at hsum
    have hcou := h.counted
    refine ⟨?_,fun op' slot' hslot' => ?_⟩
    · dsimp only
      rw [tableSum_insert,Bool.toNat_false]
      omega
    · obtain ⟨-,rfl⟩ | ⟨-,hold⟩ := lookup_of_insert hslot'
      · exact ⟨(h.once op slot hslot).1,fun _ => rfl⟩
      · exact h.once op' slot' hold

theorem fits_settle (closed) {owners}
    (hroom : owners.length + s.pending ≤ maximum + (s.holds op).toNat) :
    (DeviceSlots.settle { s with owners } op closed).Fits maximum := by
  unfold DeviceSlots.settle Fits
  cases hslot : s.slots.lookup op with
  | none => simpa [holds,hslot] using hroom
  | some slot =>
    have hsum := tableSum_erase (·.pending.toNat) s.slots op
    simp only [tableAt,holds,hslot,Option.map_some,Option.getD_some,Option.any_some] at hsum hroom
    have hcou := h.counted
    dsimp only
    omega

theorem step {e} (hs : s.step maximum e = some s') : s'.Counted := by
  cases e with
  | take op =>
    obtain ⟨⟨hnew,-⟩,rfl⟩ := some_of_check hs
    refine ⟨?_,fun op' slot' hslot' => ?_⟩
    · rw [tableSum_insert_new _ _ hnew,← h.counted]
      rfl
    · obtain ⟨-,rfl⟩ | ⟨-,hold⟩ := lookup_of_insert hslot'
      · simp
      · exact h.once op' slot' hold
  | acquire op owner registers fails =>
    obtain ⟨-,hs⟩ := of_guard hs nofun
    cases fails with
    | false =>
      cases hs
      exact h.settle false _
    | true =>
      cases hs
      cases registers <;> exact ⟨h.counted,h.once⟩
  | close op =>
    cases hs
    exact h.settle true _
  | registered | released =>
    cases hs
    exact ⟨h.counted,h.once⟩

theorem fits_step (hcei : s.Fits maximum) {e} (hok : s.fits maximum e)
    (hs : s.step maximum e = some s') : s'.Fits maximum := by
  cases e with
  | take op =>
    obtain ⟨⟨-,hroom⟩,rfl⟩ := some_of_check hs
    dsimp only [Fits]
    omega
  | acquire op owner registers fails =>
    obtain ⟨hdem,hs⟩ := of_guard hs nofun
    cases fails with
    | false =>
      cases hs
      refine h.fits_settle false ?_
      have hlen := length_register s owner
      unfold Fits at hcei
      split at hlen <;> simp_all <;> omega
    | true =>
      cases hs
      cases registers with
      | false => exact hcei
      | true => exact hcei.register hok
  | close op =>
    cases hs
    exact h.fits_settle true (Nat.le_add_right_of_le hcei)
  | registered =>
    cases hs
    exact hcei.register hok
  | released owner =>
    cases hs
    exact (Nat.add_le_add_right List.length_erase_le _).trans hcei

end Counted

/-- Each slot is pending or was taken off the counter once; while the owners of failed calls fit,
owners and reservations stay within the ceiling. -/
theorem device_ceiling (maximum : Nat) (s : DeviceSlots) :
    (Reaches (step maximum) anyEvent (Start maximum) s →
      s.pending = tableSum (·.pending.toNat) s.slots ∧ ∀ op slot, s.slots.lookup op = some slot →
        slot.returned + slot.pending.toNat = 1 ∧ (slot.closed = true → slot.pending = false)) ∧
    (Reaches (step maximum) (fits maximum) (Start maximum) s →
      s.owners.length + s.pending ≤ maximum) := by
  have hstart : ∀ s, Start maximum s → s.Counted ∧ s.Fits maximum := by
    intro s hs
    rw [hs.2]
    exact ⟨⟨rfl,nofun⟩,hs.1⟩
  constructor
  · intro h
    have hcou := h.invariant (fun s hs => (hstart s hs).1) fun _ _ _ hc _ => hc.step
    exact ⟨hcou.counted,hcou.once⟩
  · intro h
    refine (h.invariant hstart ?_).2
    exact fun _ _ _ hi hok hs => ⟨hi.1.step hs,hi.1.fits_step hi.2 hok hs⟩

theorem device_ceiling_one : ∃ s, Reaches (step 1) (fits 1) (Start 1) s ∧ s.owners = ["a"] ∧
    s.owners.length + s.pending ≤ 1 := by
  have h : Reaches (step 1) (fits 1) (Start 1) _ := .step (.step (.step (.start (s := {}) ⟨by decide,rfl⟩)
    (e := .take 1) trivial rfl) (e := .acquire 1 "a" true false) trivial rfl) (e := .close 1) trivial rfl
  exact ⟨_,h,rfl,(device_ceiling 1 _).2 h⟩

/-- A call that fails after the backend has registered its owner is counted twice. -/
theorem failed_call_over_ceiling : ∃ s, Reaches (step 1) anyEvent (Start 1) s ∧
    s.owners.length + s.pending = 2 :=
  ⟨_,.of_run (.start (s := {}) ⟨by decide,rfl⟩)
    (show run (step 1) {} [.take 1,.acquire 1 "a" true true] = some _ from rfl),rfl⟩

end DeviceSlots
end UCloudSandboxes.Storage
