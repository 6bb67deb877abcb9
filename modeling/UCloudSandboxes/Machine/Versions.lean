import Mathlib.Algebra.Order.Group.Nat

/-! Transactions ordered by version counters. An attempt commits only where the counters of the keys
it advances are those it read; its rows are applied to the state it commits on. -/
namespace UCloudSandboxes.Machine
open List

variable {K R : Type} {seen : R → Nat} {advanced : R → List K} {log : List R} {version : K → Nat}

/-- An attempt that has seen the first `n` commits: a key advanced since then shows it. -/
structure ReadsFrom (advanced : R → List K) (log : List R) (version : K → Nat) (n : Nat)
    (read : K → Nat) : Prop where
  bounded : n ≤ log.length
  behind : ∀ k, read k ≤ version k
  advanced : ∀ i r k, n ≤ i → log[i]? = some r → k ∈ advanced r → read k < version k

theorem ReadsFrom.start : ReadsFrom advanced log version log.length version where
  bounded := le_rfl
  behind _ := le_rfl
  advanced i r k hi hr _ := by
    rw [List.getElem?_eq_none hi] at hr
    cases hr

theorem ReadsFrom.commit {n} {read version' : K → Nat} {r}
    (h : ReadsFrom advanced log version n read) (hbeh : ∀ k, version k ≤ version' k)
    (hadv : ∀ k ∈ advanced r, version k < version' k) :
    ReadsFrom advanced (log ++ [r]) version' n read where
  bounded := by
    have := h.bounded
    simp only [length_append]
    omega
  behind k := (h.behind k).trans (hbeh k)
  advanced i r' k hi hr hk := by
    by_cases hold : i < log.length
    · rw [List.getElem?_append_left hold] at hr
      exact (h.advanced i r' k hi hr hk).trans_le (hbeh k)
    · rw [List.getElem?_append_right (by omega)] at hr
      obtain rfl : r = r' := by
        have hmem := mem_of_getElem? hr
        exact (mem_singleton.mp hmem).symm
      exact (h.behind k).trans_lt (hadv k hk)

/-- Of two commits that advanced one key, the later one had seen the earlier one. -/
def Ordered (seen : R → Nat) (advanced : R → List K) (log : List R) : Prop :=
  ∀ i j r r' k, i < j → log[i]? = some r → log[j]? = some r' → k ∈ advanced r → k ∈ advanced r' →
    i < seen r'

theorem Ordered.nil : Ordered seen advanced [] := by
  intro i j r r' k _ hr
  simp at hr

theorem Ordered.commit {read : K → Nat} {r} (h : Ordered seen advanced log)
    (hread : ReadsFrom advanced log version (seen r) read)
    (hcur : ∀ k ∈ advanced r, version k = read k) : Ordered seen advanced (log ++ [r]) := by
  intro i j r₁ r₂ k hij hi hj hk₁ hk₂
  have hlen : j < (log ++ [r]).length := (List.getElem?_eq_some_iff.mp hj).1
  simp only [length_append,length_singleton] at hlen
  have hear : i < log.length := by omega
  rw [List.getElem?_append_left hear] at hi
  by_cases hold : j < log.length
  · rw [List.getElem?_append_left hold] at hj
    exact h i j r₁ r₂ k hij hi hj hk₁ hk₂
  · rw [List.getElem?_append_right (by omega)] at hj
    obtain rfl : r = r₂ := (mem_singleton.mp (mem_of_getElem? hj)).symm
    by_contra hlate
    have hadv := hread.advanced i r₁ k (by omega) hi hk₁
    have hstill := hcur k hk₂
    omega

namespace WritesRows
variable {σ ω κ ν : Type} [DecidableEq κ] {apply : σ → ω → σ} {look : σ → κ → ν}
  {row : ω → Option (κ × ν)} {k : κ} {writes : List ω}

end WritesRows

end UCloudSandboxes.Machine
