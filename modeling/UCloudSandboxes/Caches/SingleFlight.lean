import Mathlib.Data.List.Nodup
import Mathlib.Order.Lattice
import UCloudSandboxes.Machine.Basic

/-! The generation-fenced single-flight cache: calls share one load of a generation, and an
invalidation fences earlier loads without waiting. -/
namespace UCloudSandboxes.Caches
open Machine List Nat

/-- A load in a call begun after `since` invalidations, itself begun after `generation`. -/
structure Load where
  since : Nat
  event : Nat
  generation : Nat
  deriving DecidableEq

structure Published (τ α : Type) where
  value : α
  loadedAt : τ
  ttlSeconds : τ
  generation : Nat

/-- The calls of `get_or_load` by where they are: in the loop, waiting, in their loader or returned.
`fencing` are the events an invalidation, out of its lock, is about to set. -/
structure Cache (τ α : Type) where
  published : Option (Published τ α) := none
  generation : Nat := 0
  loading : Option Nat := none
  made : Nat := 0
  signalled : List Nat := []
  fencing : List Nat := []
  looking : List Nat := []
  waiting : List (Nat × Nat) := []
  loads : List Load := []
  returned : List (Nat × α × Nat) := []

/-- A critical section or a wakeup; the clock readings are arguments. -/
inductive Move (τ α : Type) where
  | call
  | look (since : Nat) (now : τ)
  | wake (since event : Nat)
  | loaded (load : Load) (value : α) (loadedAt ttlSeconds : τ)
  | failed (load : Load)
  | invalidate
  | signal (event : Nat)

namespace Cache
variable {τ α : Type} [LinearOrder τ] [Sub τ] [Zero τ]

section
variable (s : Cache τ α)

def isFresh (now : τ) (p : Published τ α) : Bool :=
  0 ≤ now - p.loadedAt && now - p.loadedAt ≤ p.ttlSeconds

def completeLoading (load : Load) : Cache τ α :=
  { s with
    loading := if s.loading = some load.event then none else s.loading
    signalled := load.event :: s.signalled
    loads := s.loads.erase load }

def look (since : Nat) (now : τ) : Cache τ α :=
  match s.published.filter (isFresh now), s.loading with
  | some p, _ => { s with returned := (since,p.value,p.generation) :: s.returned }
  | none, some event => { s with waiting := (since,event) :: s.waiting }
  | none, none =>
    { s with
      loading := some s.made, made := s.made + 1
      loads := ⟨since,s.made,s.generation⟩ :: s.loads }

def step : Move τ α → Option (Cache τ α)
  | .call => some { s with looking := s.generation :: s.looking }
  | .look since now =>
    if since ∈ s.looking then some ({ s with looking := s.looking.erase since }.look since now) else none
  | .wake since event =>
    if s.waiting.contains (since,event) ∧ event ∈ s.signalled then
      some { s with waiting := s.waiting.erase (since,event), looking := since :: s.looking }
    else none
  | .loaded load value loadedAt ttlSeconds =>
    if load ∈ s.loads then
      some { s.completeLoading load with
        published := if s.generation = load.generation then
          some ⟨value,loadedAt,ttlSeconds,load.generation⟩ else s.published
        returned := (load.since,value,load.generation) :: s.returned }
    else none
  | .failed load => if load ∈ s.loads then some (s.completeLoading load) else none
  | .invalidate =>
    some { s with
      generation := s.generation + 1, published := none, loading := none
      fencing := s.loading.toList ++ s.fencing }
  | .signal event =>
    if event ∈ s.fencing then
      some { s with signalled := event :: s.signalled, fencing := s.fencing.erase event }
    else none

/-- The event is set, or somebody is bound to set it. -/
def Attended (event : Nat) : Prop :=
  event ∈ s.signalled ∨ event ∈ s.fencing ∨ ∃ load ∈ s.loads, load.event = event

end

structure Inv (s : Cache τ α) : Prop where
  looking : ∀ since ∈ s.looking, since ≤ s.generation
  waiting : ∀ w ∈ s.waiting, w.1 ≤ s.generation ∧ s.Attended w.2
  loads : ∀ load ∈ s.loads, load.since ≤ load.generation ∧ load.generation ≤ s.generation ∧
    load.event < s.made ∧ (load.generation = s.generation → s.loading = some load.event)
  alone : (s.loads.map (·.event)).Nodup
  current : ∀ event ∈ s.loading, s.Attended event
  published : ∀ p ∈ s.published, p.generation = s.generation
  returned : ∀ r ∈ s.returned, r.1 ≤ r.2.2

variable {s s' : Cache τ α}

theorem Inv.look (h : s.Inv) {since} (hs : since ≤ s.generation) (now) : (s.look since now).Inv := by
  unfold Cache.look
  split
  · rename_i p hp
    have hp := h.published p (Option.mem_filter_iff.mp hp).1
    exact { h with returned := forall_mem_cons.mpr ⟨hp ▸ hs,h.returned⟩ }
  · rename_i event _ hloa
    exact { h with waiting := forall_mem_cons.mpr ⟨⟨hs,h.current event hloa⟩,h.waiting⟩ }
  · rename_i _ hnone
    have hatt {event} (ha : s.Attended event) : Attended
        { s with loads := (⟨since,s.made,s.generation⟩ : Load) :: s.loads } event :=
      ha.imp_right (.imp_right fun ⟨load,hl,he⟩ => ⟨load,.tail _ hl,he⟩)
    refine { h with
      waiting := fun w hw => (h.waiting w hw).imp_right hatt
      loads := forall_mem_cons.mpr ⟨⟨hs,Nat.le_refl _,lt_succ_self _,fun _ => rfl⟩,fun load hl => ?_⟩
      alone := nodup_cons.mpr ⟨fun hmem => ?_,h.alone⟩
      current := ?_ }
    · obtain ⟨hsince,hle,hlt,hcur⟩ := h.loads load hl
      exact ⟨hsince,hle,lt_succ_of_lt hlt,fun he => absurd (hcur he) (by simp [hnone])⟩
    · obtain ⟨load,hl,he⟩ := mem_map.mp hmem
      exact absurd (h.loads load hl).2.2.1 (he ▸ Nat.lt_irrefl _)
    · rintro _ ⟨⟩
      exact .inr (.inr ⟨_,.head _,rfl⟩)

omit [LinearOrder τ] [Sub τ] [Zero τ] in
theorem Inv.complete (h : s.Inv) {load} (hl : load ∈ s.loads) : (s.completeLoading load).Inv := by
  have hatt {event} (ha : s.Attended event) : (s.completeLoading load).Attended event := by
    rcases ha with ha | ha | ⟨other,ho,rfl⟩
    · exact .inl (.tail _ ha)
    · exact .inr (.inl ha)
    · by_cases hsame : other = load
      · exact .inl (hsame ▸ .head _)
      · exact .inr (.inr ⟨other,(mem_erase_of_ne hsame).mpr ho,rfl⟩)
  refine { h with
    waiting := fun w hw => (h.waiting w hw).imp_right hatt
    loads := fun other ho => ?_
    alone := h.alone.sublist (erase_sublist.map _)
    current := fun event he => hatt (h.current event ?_) }
  · obtain ⟨hsince,hle,hlt,hcur⟩ := h.loads other (mem_of_mem_erase ho)
    refine ⟨hsince,hle,hlt,fun he => ?_⟩
    have hne : other.event ≠ load.event := fun hevent =>
      ((h.alone.of_map _).mem_erase_iff.mp ho).1
        (inj_on_of_nodup_map h.alone (mem_of_mem_erase ho) hl hevent)
    simp [completeLoading,hcur he,hne]
  · simp only [completeLoading] at he
    split at he
    · cases he
    · exact he

theorem inv_step {e} (h : s.Inv) (hs : s.step e = some s') : s'.Inv := by
  cases e with
  | call =>
    cases hs
    exact { h with looking := forall_mem_cons.mpr ⟨Nat.le_refl _,h.looking⟩ }
  | look since now =>
    obtain ⟨hmem,rfl⟩ := some_of_check hs
    have hrest : Inv { s with looking := s.looking.erase since } :=
      { h with looking := fun x hx => h.looking x (mem_of_mem_erase hx) }
    exact hrest.look (h.looking since hmem) now
  | wake since event =>
    obtain ⟨⟨hmem,-⟩,rfl⟩ := some_of_check hs
    exact { h with
      looking := forall_mem_cons.mpr ⟨(h.waiting _ (by simpa using hmem)).1,h.looking⟩
      waiting := fun w hw => h.waiting w (mem_of_mem_erase hw) }
  | loaded load value loadedAt ttlSeconds =>
    obtain ⟨hmem,rfl⟩ := some_of_check hs
    refine { h.complete hmem with
      published := fun p hp => ?_
      returned := forall_mem_cons.mpr ⟨(h.loads load hmem).1,h.returned⟩ }
    split at hp
    · rename_i hgen
      cases hp
      exact hgen.symm
    · exact h.published p hp
  | failed load =>
    obtain ⟨hmem,rfl⟩ := some_of_check hs
    exact h.complete hmem
  | invalidate =>
    cases hs
    refine { h with
      looking := fun since hl => le_succ_of_le (h.looking since hl)
      waiting := fun w hw => ⟨le_succ_of_le (h.waiting w hw).1,?_⟩
      loads := fun load hl => ?_
      current := by rintro _ ⟨⟩
      published := by rintro _ ⟨⟩ }
    · exact (h.waiting w hw).2.imp_right (.imp_left (mem_append_right _))
    · obtain ⟨hsince,hle,hlt,-⟩ := h.loads load hl
      exact ⟨hsince,le_succ_of_le hle,hlt,fun he => absurd hle (he ▸ not_succ_le_self _)⟩
  | signal event =>
    obtain ⟨-,rfl⟩ := some_of_check hs
    have hatt {e} (ha : s.Attended e) : Attended { s with
        signalled := event :: s.signalled, fencing := s.fencing.erase event } e := by
      rcases ha with ha | ha | ha
      · exact .inl (.tail _ ha)
      · by_cases he : e = event
        · exact .inl (he ▸ .head _)
        · exact .inr (.inl ((mem_erase_of_ne he).mpr ha))
      · exact .inr (.inr ha)
    exact { h with
      waiting := fun w hw => (h.waiting w hw).imp_right hatt
      current := fun e he => hatt (h.current e he) }

/-- No call returns a value loaded before an earlier invalidation, one load of a generation runs at
a time, only loaded values are published, and every waiter is woken by somebody. -/
theorem generation_fences_loads (h : Reaches step anyEvent (· = ({} : Cache τ α)) s) :
    (∀ since value generation, (since,value,generation) ∈ s.returned → since ≤ generation) ∧
      (s.loads.filter (·.generation = s.generation)).length ≤ 1 ∧
      (∀ e s', s.step e = some s' → ∀ p ∈ s'.published, p ∈ s.published ∨
        ∃ load, e = .loaded load p.value p.loadedAt p.ttlSeconds) ∧
      ∀ since event, (since,event) ∈ s.waiting → s.Attended event := by
  have hinv : s.Inv := by
    refine h.keeps ?_ fun _ _ _ hi _ => inv_step hi
    constructor <;> simp
  refine ⟨fun _ _ _ hr => hinv.returned _ hr,?_,fun e s' hs p hp => ?_,fun _ _ hw => (hinv.waiting _ hw).2⟩
  · let current := s.loads.filter (·.generation = s.generation)
    have hnodup : (current.map (·.event)).Nodup := hinv.alone.sublist (filter_sublist.map _)
    have hsame : current.map (·.event) = replicate _ (s.loading.getD 0) := eq_replicate_of_mem <| by
      simp only [current,mem_map,mem_filter]
      rintro _ ⟨load,⟨hl,hgen⟩,rfl⟩
      simp [(hinv.loads load hl).2.2.2 (by simpa using hgen)]
    rw [hsame,nodup_replicate,length_map] at hnodup
    exact hnodup
  · cases e with
    | call =>
      cases hs
      exact .inl hp
    | look =>
      obtain ⟨-,rfl⟩ := some_of_check hs
      unfold look at hp
      split at hp <;> exact .inl hp
    | wake | failed | signal =>
      obtain ⟨-,rfl⟩ := some_of_check hs
      exact .inl hp
    | loaded load =>
      obtain ⟨-,rfl⟩ := some_of_check hs
      split at hp
      · cases hp
        exact .inr ⟨load,rfl⟩
      · exact .inl hp
    | invalidate =>
      cases hs
      cases hp

/-- A fenced load returns to its own call alone; its waiter joins the next load. -/
theorem generation_fences_loads_rejoined : ∃ s : Cache Nat String,
    (s.returned = [(0,"old",0)] ∧ s.published.isNone ∧ s.loads = [⟨1,1,1⟩] ∧ s.waiting = [(0,1)]) ∧
      s.Attended 1 := by
  have hrun : Reaches step anyEvent (· = ({} : Cache Nat String)) _ := .of_run (.start rfl)
    (show run step {} [.call,.look 0 0,.call,.look 0 1,.invalidate,.signal 0,.wake 0 0,
      .loaded ⟨0,0,0⟩ "old" 2 5,.call,.look 1 3,.look 0 3] = some _ from rfl)
  exact ⟨_,⟨rfl,rfl,rfl,rfl⟩,(generation_fences_loads hrun).2.2.2 0 1 (.head _)⟩

end Cache
end UCloudSandboxes.Caches
