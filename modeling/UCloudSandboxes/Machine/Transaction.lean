import UCloudSandboxes.Machine.Keyed

/-! An open transaction with named savepoints, and the rule for computations that may stop on the
way. -/
namespace UCloudSandboxes.Machine

/-- What the transaction sees, and the content at each savepoint still set, innermost first. -/
structure Transaction (δ : Type) where
  content : δ
  savepoints : List (String × δ) := []

namespace Transaction

variable {δ : Type} {t t₀ : Transaction δ} {name other : String}

section
variable (t : Transaction δ) (name : String)

def savepoint : Transaction δ :=
  { t with savepoints := (name,t.content) :: t.savepoints }

/-- The innermost savepoint of the name and the ones around it. -/
def from? : List (String × δ) :=
  t.savepoints.dropWhile (·.1 ≠ name)

/-- Back to the content at the savepoint, which stays set; the ones inside it are gone. -/
def rollbackTo : Option (Transaction δ) :=
  match t.from? name with
  | [] => none
  | saved :: outer => some ⟨saved.2,saved :: outer⟩

/-- The content stays; the savepoint and the ones inside it are gone. -/
def release : Option (Transaction δ) :=
  match t.from? name with
  | [] => none
  | _ :: outer => some { t with savepoints := outer }

/-- `t` continues `t₀` inside the savepoint `name` set there. -/
def Inside (name : String) (t₀ t : Transaction δ) : Prop :=
  ∃ inner, t.savepoints = inner ++ (name,t₀.content) :: t₀.savepoints ∧ ∀ p ∈ inner, p.1 ≠ name

end

namespace Inside

theorem from_eq (h : Inside name t₀ t) : t.from? name = (name,t₀.content) :: t₀.savepoints := by
  obtain ⟨inner,ht,hinner⟩ := h
  rw [from?,ht,List.dropWhile_append_of_pos fun p hp => by simpa using hinner p hp]
  simp

theorem rollbackTo_eq (h : Inside name t₀ t) : t.rollbackTo name = some (t₀.savepoint name) := by
  rw [rollbackTo,h.from_eq]
  rfl

theorem release_eq (h : Inside name t₀ t) :
    t.release name = some { t₀ with content := t.content } := by
  rw [release,h.from_eq]

end Inside

end Transaction

section Yields

variable {ε α β : Type} {P : α → Prop} {R : β → Prop} {Q : ε → Prop}

/-- Every result meets the first predicate, every stop the second. -/
def Yields (P : α → Prop) (Q : ε → Prop) : Except ε α → Prop
  | .ok a => P a
  | .error e => Q e

variable {x : Except ε α}

theorem Yields.bind {f : α → Except ε β} (h : Yields P Q x) (hf : ∀ a, P a → Yields R Q (f a)) :
    Yields R Q (x >>= f) := by
  cases x with
  | error => exact h
  | ok a => exact hf a h

theorem Yields.weaken {Q' : ε → Prop} (h : Yields P Q x) (hQ : ∀ e, Q e → Q' e) : Yields P Q' x := by
  cases x with
  | error e => exact hQ e h
  | ok => exact h

theorem Yields.of_ok {a : α} (h : Yields P Q x) (hx : x = .ok a) : P a := by
  subst hx
  exact h

theorem Yields.of_error {e : ε} (h : Yields P Q x) (hx : x = .error e) : Q e := by
  subst hx
  exact h

end Yields

end UCloudSandboxes.Machine
