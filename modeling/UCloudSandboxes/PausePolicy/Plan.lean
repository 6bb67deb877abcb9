import Mathlib.Algebra.Order.Field.Rat
import Mathlib.Data.List.AList

/-! Relief of paused waits: which of them are swapped out or hibernated to cover a memory deficit. -/
namespace UCloudSandboxes.PausePolicy
open List

def stallBytes : Nat := 16 * 2 ^ 20

def maxStalls : Nat := 2

abbrev Key := String × Nat

/-- Scheduling metadata of one pause marker; `residentBytes` is `none` without a live sample. -/
structure PausedWait where
  pausedAt : Rat
  expectedUntil : Option Rat := none
  residentBytes : Option Nat := none
  swappedBytes : Nat := 0
  reclaiming : Nat := 0
  escalating : Bool := false
  stalls : Nat := 0
  retryAt : Rat := 0

structure Decision where
  memoryReclaim : Bool
  psiReclaim : Bool
  targetBytes : Nat

abbrev Entry := (_ : Key) × PausedWait

/-- A reclaim with its target, or a hibernate with all the wait holds. -/
inductive Relief where
  | reclaim (bytes : Nat)
  | escalate (resident : Nat)
  deriving DecidableEq

def Relief.freed : Relief → Nat
  | .reclaim bytes | .escalate bytes => bytes

def Relief.swapped : Relief → Nat
  | .reclaim bytes => bytes
  | .escalate _ => 0

namespace PausedWait

variable (now : Rat) (room : Option Int) (wait : PausedWait)

def resident : Nat := wait.residentBytes.getD 0

/-- Hinted waits first, by expected idle times resident bytes; then by resident bytes, the latest
pause first. -/
def score : Bool × Rat :=
  match wait.expectedUntil with
  | some hint => (true, max 0 (hint - now) * wait.resident)
  | none => (false, wait.resident / (1 + max 0 (now - wait.pausedAt)))

def free : Bool := 0 < wait.resident && wait.reclaiming = 0 && !wait.escalating

def swaps : Bool := wait.stalls < maxStalls && room.all ((stallBytes : Int) ≤ ·)

def worthHibernate : Bool := max stallBytes wait.swappedBytes ≤ wait.resident

def relief (deficit : Int) : Option Relief :=
  if !wait.free then none
  else if wait.swaps room then
    if now < wait.retryAt then none
    else some (.reclaim (room.elim id min (min (wait.resident : Int) deficit)).toNat)
  else if wait.worthHibernate then some (.escalate wait.resident)
  else none

/-- A wait past its backoff, or given up as a reclaim, that swap or a hibernate can take. -/
def eligible : Bool :=
  wait.free && (maxStalls ≤ wait.stalls || wait.retryAt ≤ now) &&
    (wait.swaps room || wait.worthHibernate)

end PausedWait

def fill (now : Rat) : List Entry → Option Int → Int → List (Key × Relief)
  | [], _, _ => []
  | e :: rest, room, deficit =>
    if deficit ≤ 0 then []
    else match e.2.relief now room deficit with
      | none => fill now rest room deficit
      | some r => (e.1, r) :: fill now rest (room.map (· - r.swapped)) (deficit - r.freed)

section
variable (decision : Decision) (waits : AList fun _ : Key => PausedWait)

def inFlight : Nat := (waits.entries.map (·.2.reclaiming)).sum

def deficit : Int :=
  decision.targetBytes - inFlight waits -
    ((waits.entries.filter (·.2.escalating)).map (·.2.resident)).sum

def outranks (now : Rat) (a b : Entry) : Bool :=
  let x := a.2.score now
  let y := b.2.score now
  y.1 < x.1 || x.1 = y.1 && y.2 ≤ x.2

/-- `relief_plan` under a ranking. Reclaims and escalations stand in one list, in the loop's order. -/
def reliefPlan (ranks : Entry → Entry → Bool) (now : Rat) (swapRoom : Option Nat) :
    List (Key × Relief) :=
  if decision.memoryReclaim || decision.psiReclaim then
    fill now (waits.entries.mergeSort ranks) (swapRoom.map (· - inFlight waits))
      (deficit decision waits)
  else []

end

def freed (plan : List (Key × Relief)) : Nat := (plan.map (·.2.freed)).sum

def swapped (plan : List (Key × Relief)) : Nat := (plan.map (·.2.swapped)).sum

variable {now : Rat} {room : Option Int} {d : Int} {wait : PausedWait} {ranked : List Entry}

theorem PausedWait.relief_some {r} (h : wait.relief now room d = some r) :
    wait.free = true ∧ (∀ b, r = .reclaim b → wait.retryAt ≤ now) ∧ ∀ left ∈ room, r.swapped ≤ max 0 left := by
  unfold relief at h
  split at h
  · cases h
  rename_i hfree
  refine ⟨by simpa using hfree,?_⟩
  split at h
  · split at h
    · cases h
    · rename_i hretry
      cases h
      refine ⟨fun _ _ => not_lt.mp hretry,?_⟩
      rintro left rfl
      simp only [Relief.swapped,Option.elim_some]
      omega
  · split at h <;> cases h
    exact ⟨nofun,fun left _ => le_max_left ..⟩

theorem PausedWait.relief_none (h : wait.relief now room d = none) {used : Nat} :
    wait.eligible now (room.map (· - used)) = false := by
  have hroom : (room.map (· - (used : Int))).all ((stallBytes : Int) ≤ ·) = true →
      room.all ((stallBytes : Int) ≤ ·) = true := by
    cases room with
    | none => exact id
    | some =>
      simp only [Option.map_some,Option.all_some,decide_eq_true_eq]
      omega
  grind [relief,eligible,swaps]

theorem fill_keys : ((fill now ranked room d).map Prod.fst).Sublist (ranked.map (·.1)) := by
  fun_induction fill now ranked room d with
  | case1 | case2 => simp
  | case3 _ _ _ _ _ _ ih => exact ih.cons _
  | case4 _ _ _ _ _ _ _ ih => exact ih.cons_cons _

theorem fill_mem {p} (h : p ∈ fill now ranked room d) : ∃ e ∈ ranked, e.1 = p.1 ∧ e.2.free = true ∧
    (∀ b, p.2 = .reclaim b → e.2.retryAt ≤ now) := by
  fun_induction fill now ranked room d with
  | case1 | case2 => cases h
  | case3 _ _ _ _ _ _ ih =>
    obtain ⟨e,he,hm⟩ := ih h
    exact ⟨e,.tail _ he,hm⟩
  | case4 e _ _ _ _ _ hr ih =>
    cases h with
    | head => exact ⟨e,.head _,rfl,(e.2.relief_some hr).1,(e.2.relief_some hr).2.1⟩
    | tail _ h =>
      obtain ⟨e,he,hm⟩ := ih h
      exact ⟨e,.tail _ he,hm⟩

theorem fill_room (left) (h : room = some left) : swapped (fill now ranked room d) ≤ max 0 left := by
  fun_induction fill now ranked room d generalizing left with
  | case1 | case2 => exact le_max_left ..
  | case3 _ _ _ _ _ _ ih => exact ih left h
  | case4 e _ _ _ _ _ hr ih =>
    have hone := (e.2.relief_some hr).2.2 left h
    have hrest := ih (left - _) (by rw [h]; rfl)
    simp only [swapped,map_cons,sum_cons] at hrest ⊢
    omega

theorem fill_last (h : fill now ranked room d ≠ []) : freed (fill now ranked room d).dropLast < d := by
  fun_induction fill now ranked room d with
  | case1 | case2 => exact absurd rfl h
  | case3 _ _ _ _ _ _ ih => exact ih h
  | case4 _ rest _ _ hd r _ ih =>
    generalize fill now rest _ _ = plan at ih
    cases plan with
    | nil => exact not_le.mp hd
    | cons p plan =>
      have hlast := ih (by simp)
      simp only [dropLast_cons_cons,freed,map_cons,sum_cons] at hlast ⊢
      omega

/-- The room only shrinks, so a wait that could be used at the end could be used at its turn. -/
theorem fill_maximal (h : freed (fill now ranked room d) < d) {e} (he : e ∈ ranked)
    (hel : e.2.eligible now (room.map (· - swapped (fill now ranked room d))) = true) :
    e.1 ∈ (fill now ranked room d).map Prod.fst := by
  fun_induction fill now ranked room d with
  | case1 => cases he
  | case2 _ _ _ _ hd => exact absurd h (not_lt.mpr hd)
  | case3 _ _ _ _ _ hr ih =>
    cases he with
    | head => simp [PausedWait.relief_none hr] at hel
    | tail _ he => exact ih h he hel
  | case4 _ _ _ _ _ r _ ih =>
    cases he with
    | head => exact .head _
    | tail _ he =>
      refine .tail _ (ih ?_ he ?_)
      · simp only [freed,map_cons,sum_cons] at h ⊢
        omega
      · rw [Option.map_map]
        simpa [swapped,Function.comp_def,sub_sub] using hel

/-- A backoff only keeps a wait out of swap: without swap room it is hibernated at once. -/
theorem relief_hibernates_backing_off :
    let wait : PausedWait := ⟨0,none,some stallBytes,0,0,false,1,10⟩
    5 < wait.retryAt ∧ reliefPlan ⟨true,false,1⟩ (AList.singleton ("a", 1) wait) (outranks 5) 5 (some 0) =
      [(("a", 1),.escalate stallBytes)] := by
  decide +kernel

/-- Under every ranking keys are planned once, only eligible waits, within the swap room, no further
than needed, and short only when all are used. -/
theorem relief_plan_maximal (decision : Decision) (waits : AList fun _ : Key => PausedWait)
    (ranks : Entry → Entry → Bool) (now : Rat) (swapRoom : Option Nat) :
    let plan := reliefPlan decision waits ranks now swapRoom
    let room := swapRoom.map fun room => (room : Int) - inFlight waits
    (plan.map Prod.fst).Nodup ∧
    (∀ p ∈ plan, ∃ wait, waits.lookup p.1 = some wait ∧ wait.free = true ∧
      (∀ b, p.2 = .reclaim b → wait.retryAt ≤ now)) ∧
    (∀ left ∈ room, swapped plan ≤ max 0 left) ∧
    (plan ≠ [] → freed plan.dropLast < deficit decision waits) ∧
    ((decision.memoryReclaim || decision.psiReclaim) = true → freed plan < deficit decision waits →
      ∀ key wait, waits.lookup key = some wait →
        wait.eligible now (room.map (· - swapped plan)) = true → key ∈ plan.map Prod.fst) := by
  intro plan room
  have hperm := mergeSort_perm waits.entries ranks
  have hmem {e : Entry} : e ∈ waits.entries.mergeSort ranks ↔ waits.lookup e.1 = some e.2 :=
    hperm.mem_iff.trans (AList.mem_lookup_iff (s := waits) (a := e.1) (b := e.2)).symm
  by_cases hd : (decision.memoryReclaim || decision.psiReclaim) = true
  · have hplan : plan = fill now (waits.entries.mergeSort ranks) room (deficit decision waits) :=
      if_pos hd
    rw [hplan]
    refine ⟨?_,fun p hp => ?_,fun left hleft => fill_room left hleft,fill_last,
      fun _ hshort key wait hw => fill_maximal hshort (e := ⟨key,wait⟩) (hmem.mpr hw)⟩
    · exact fill_keys.nodup ((hperm.map _).nodup_iff.mpr waits.nodupKeys)
    · obtain ⟨e,he,hkey,hfree⟩ := fill_mem hp
      exact ⟨e.2,hkey ▸ hmem.mp he,hfree⟩
  · have hplan : plan = [] := if_neg hd
    rw [hplan]
    exact ⟨nodup_nil,nofun,fun _ _ => le_max_left ..,fun h => absurd rfl h,fun h => absurd h hd⟩

end UCloudSandboxes.PausePolicy
