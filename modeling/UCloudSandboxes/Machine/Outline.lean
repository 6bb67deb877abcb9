import Mathlib.Data.List.Basic
import UCloudSandboxes.Machine.Basic

/-! Proof outlines for procedures that may stop between any two actions while their surroundings
move: every action keeps the invariant, every assertion survives the surroundings, and a caught
exception leaves the handler what it needs. -/
namespace UCloudSandboxes.Machine

variable {σ α β : Type*}

section Safety

variable (exec : σ → α → β → Option σ) (moves changes : σ → σ → Prop) (inv : σ → Prop)
  (caught : α → Prop) (fault : σ → Prop)

/-- From the assertion each action keeps the invariant and leads to one from which the rest do so
too. `β` is the answer from outside; `fault` is what the handler of a caught exception starts from,
whether or not the action took effect. -/
inductive Outline : (σ → Prop) → List α → Prop
  | nil {P : σ → Prop} : Outline P []
  | cons {P Q : σ → Prop} {a : α} {rest}
      (stable : ∀ s s', P s → moves s s' → P s')
      (act : ∀ s b s', inv s → P s → exec s a b = some s' → inv s' ∧ Q s')
      (changed : ∀ s b s', inv s → P s → exec s a b = some s' → changes s s')
      (raised : caught a → ∀ s, inv s → P s ∨ Q s → fault s)
      (next : Outline Q rest) : Outline P (a :: rest)

def Ready (acts : List α) (s : σ) : Prop :=
  ∃ P : σ → Prop, P s ∧ Outline exec moves changes inv caught fault P acts

variable {exec moves changes inv caught fault} {P : σ → Prop} {s s' : σ} {a : α} {b : β} {acts : List α}

theorem Outline.ready (h : Outline exec moves changes inv caught fault P acts) (hs : P s) :
    Ready exec moves changes inv caught fault acts s :=
  ⟨P,hs,h⟩

theorem Ready.moved (h : Ready exec moves changes inv caught fault acts s) (hr : moves s s') :
    Ready exec moves changes inv caught fault acts s' := by
  obtain ⟨P,hP,ho⟩ := h
  cases ho with
  | nil => exact ⟨fun _ => True,trivial,.nil⟩
  | cons stable act changed raised next =>
    exact ⟨P,stable _ _ hP hr,.cons stable act changed raised next⟩

theorem Ready.act (h : Ready exec moves changes inv caught fault (a :: acts) s) (hi : inv s)
    (he : exec s a b = some s') :
    inv s' ∧ changes s s' ∧ Ready exec moves changes inv caught fault acts s' := by
  obtain ⟨P,hP,ho⟩ := h
  cases ho with
  | cons stable act changed raised next =>
    obtain ⟨hi',hQ⟩ := act _ _ _ hi hP he
    exact ⟨hi',changed _ _ _ hi hP he,_,hQ,next⟩

theorem Ready.raised (h : Ready exec moves changes inv caught fault (a :: acts) s) (hi : inv s)
    (hc : caught a) : fault s ∧ ∀ b s', exec s a b = some s' → fault s' := by
  obtain ⟨P,hP,ho⟩ := h
  cases ho with
  | cons stable act changed raised =>
    refine ⟨raised hc _ hi (.inl hP),fun b s' he => ?_⟩
    obtain ⟨hi',hQ⟩ := act _ _ _ hi hP he
    exact raised hc _ hi' (.inr hQ)

/-- An assertion that every single action keeps carries any list of them. -/
theorem Outline.of_forall (stable : ∀ s s', P s → moves s s' → P s')
    (act : ∀ a ∈ acts, ∀ s b s', inv s → P s → exec s a b = some s' → inv s' ∧ P s')
    (changed : ∀ a ∈ acts, ∀ s b s', inv s → P s → exec s a b = some s' → changes s s')
    (hc : ∀ a ∈ acts, ¬caught a) : Outline exec moves changes inv caught fault P acts := by
  induction acts with
  | nil => exact .nil
  | cons a acts ih =>
    refine .cons stable (act a (by simp)) (changed a (by simp))
      (fun h => absurd h (hc a (by simp))) (ih ?_ ?_ ?_)
    · exact fun c h => act c (by simp [h])
    · exact fun c h => changed c (by simp [h])
    · exact fun c h => hc c (by simp [h])

end Safety

section Progress

variable (exec : σ → α → β → Option σ) (b : β)

/-- Left alone, and answered `b`, the procedure ends in `Q`, or by an exception. -/
def Ends (Q : σ → Prop) : σ → List α → Prop
  | s, [] => Q s
  | s, a :: rest =>
    match exec s a b with
    | some s' => Ends Q s' rest
    | none => Q s

variable {exec b} {Q : σ → Prop} {s s' : σ} {a : α} {acts : List α}

theorem Ends.cons (he : exec s a b = some s') (h : Ends exec b Q s' acts) :
    Ends exec b Q s (a :: acts) := by
  simpa only [Ends,he] using h

theorem Ends.of_forall (act : ∀ a ∈ acts, ∀ s s', Q s → exec s a b = some s' → Q s') (hs : Q s) :
    Ends exec b Q s acts := by
  induction acts generalizing s with
  | nil => exact hs
  | cons a acts ih =>
    unfold Ends
    split
    · next s' he => exact ih (fun c hc => act c (by simp [hc])) (act a (by simp) _ _ hs he)
    · exact hs

end Progress

end UCloudSandboxes.Machine
