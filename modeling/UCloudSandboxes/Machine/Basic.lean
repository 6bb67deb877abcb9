import Mathlib.Logic.Relation

/-! Labelled machines given by a partial step function, the states they reach when every step meets
a condition, and the invariant rule. -/
namespace UCloudSandboxes.Machine
open Option

variable {σ ε : Type*} {step : σ → ε → Option σ} {ok ok' : σ → ε → Prop} {start : σ → Prop}

/-- States reached from a start state by enabled events that meet `ok` in the state before them. -/
inductive Reaches (step : σ → ε → Option σ) (ok : σ → ε → Prop) (start : σ → Prop) : σ → Prop
  | start {s : σ} : start s → Reaches step ok start s
  | step {s s' : σ} {e : ε} : Reaches step ok start s → ok s e → step s e = some s' →
      Reaches step ok start s'

def anyEvent : σ → ε → Prop := fun _ _ => True

/-- A property of the start states that every admitted step keeps holds in every state reached. -/
theorem Reaches.invariant {I : σ → Prop} (hstart : ∀ s, start s → I s)
    (hstep : ∀ s e s', I s → ok s e → step s e = some s' → I s') {s : σ}
    (h : Reaches step ok start s) : I s := by
  induction h with
  | start hs => exact hstart _ hs
  | step _ hok hs ih => exact hstep _ _ _ ih hok hs

theorem Reaches.keeps {I : σ → Prop} {s s' : σ} (h : Reaches step ok (· = s) s') (hs : I s)
    (hstep : ∀ s e s', I s → ok s e → step s e = some s' → I s') : I s' :=
  h.invariant (fun _ he => he ▸ hs) hstep

theorem Reaches.mono (hok : ∀ s e, ok s e → ok' s e) {s : σ} (h : Reaches step ok start s) :
    Reaches step ok' start s := by
  induction h with
  | start hs => exact .start hs
  | step _ he hs ih => exact .step ih (hok _ _ he) hs

/-- Execute the events in order; `none` as soon as one of them is not enabled. -/
def run (step : σ → ε → Option σ) : σ → List ε → Option σ
  | s, [] => some s
  | s, e :: es => (step s e).bind fun s' => run step s' es

def runMeeting (step : σ → ε → Option σ) (ok : σ → ε → Prop) [∀ s e, Decidable (ok s e)] :
    σ → List ε → Option σ
  | s, [] => some s
  | s, e :: es => if ok s e then (step s e).bind fun s' => runMeeting step ok s' es else none

theorem Reaches.of_runMeeting [∀ s e, Decidable (ok s e)] {s s' : σ} {es}
    (h : Reaches step ok start s) (hr : runMeeting step ok s es = some s') :
    Reaches step ok start s' := by
  induction es generalizing s with
  | nil =>
    obtain rfl : s = s' := by simpa [runMeeting] using hr
    exact h
  | cons e es ih =>
    rw [runMeeting] at hr
    split at hr
    · obtain ⟨t,ht,hr⟩ := bind_eq_some_iff.mp hr
      exact ih (.step h ‹_› ht) hr
    · cases hr

theorem Reaches.of_run {s s' : σ} {es} (h : Reaches step anyEvent start s)
    (hr : run step s es = some s') : Reaches step anyEvent start s' := by
  induction es generalizing s with
  | nil =>
    obtain rfl : s = s' := by simpa [run] using hr
    exact h
  | cons e es ih =>
    obtain ⟨t,ht,hr⟩ := bind_eq_some_iff.mp hr
    exact ih (.step h trivial ht) hr

section Witnesses

variable (step : σ → ε → Option σ) (ok : σ → ε → Prop) [∀ s e, Decidable (ok s e)]

theorem Reaches.exists_of_runMeeting {s} (h : start s) (es) (P : σ → Prop)
    (hr : ∃ s' ∈ runMeeting step ok s es, P s') : ∃ s', Reaches step ok start s' ∧ P s' := by
  obtain ⟨s',he,hp⟩ := hr
  exact ⟨s',.of_runMeeting (.start h) he,hp⟩

theorem Reaches.exists_of_run {s} (h : start s) (es) (P : σ → Prop)
    (hr : ∃ s' ∈ run step s es, P s') : ∃ s', Reaches step anyEvent start s' ∧ P s' := by
  obtain ⟨s',he,hp⟩ := hr
  exact ⟨s',.of_run (.start h) he,hp⟩

theorem Reaches.exists_from_runMeeting (s es) (P : σ → Prop)
    (hr : ∃ s' ∈ runMeeting step ok s es, P s') : ∃ s', Reaches step ok (· = s) s' ∧ P s' :=
  exists_of_runMeeting step ok (by rfl) es P hr

theorem Reaches.exists_from_run (s es) (P : σ → Prop) (hr : ∃ s' ∈ run step s es, P s') :
    ∃ s', Reaches step anyEvent (· = s) s' ∧ P s' :=
  exists_of_run step (by rfl) es P hr

end Witnesses

section Guards

variable {p : Prop} [Decidable p] {x y z : σ}

theorem of_guard (h : (if p then x else y) = z) (hx : x ≠ z) : ¬p ∧ y = z := by
  split at h
  · exact absurd h hx
  · exact ⟨‹_›,h⟩

theorem of_check (h : (if p then x else y) = z) (hy : y ≠ z) : p ∧ x = z := by
  split at h
  · exact ⟨‹_›,h⟩
  · exact absurd h hy

theorem some_of_guard {y z : σ} (h : (if p then none else some y) = some z) : ¬p ∧ y = z := by
  obtain ⟨hp,h⟩ := of_guard h nofun
  exact ⟨hp,some.inj h⟩

theorem some_of_check {x z : σ} (h : (if p then some x else none) = some z) : p ∧ x = z := by
  obtain ⟨hp,h⟩ := of_check h nofun
  exact ⟨hp,some.inj h⟩

end Guards

/-- Without the last characters that `p` holds of. Unification never looks into its text. -/
@[irreducible]
def rstrip (p : Char → Bool) (text : String) : String :=
  String.ofList (text.toList.reverse.dropWhile p).reverse

def strip (p : Char → Bool) (text : String) : String :=
  rstrip p (String.ofList (text.toList.dropWhile p))

end UCloudSandboxes.Machine
