import Mathlib.Data.List.Basic
import UCloudSandboxes.Machine.Basic

/-! The memory journal's group commit: writers in turn share an open transaction, and whoever leaves
the turn with nobody behind it commits. -/
namespace UCloudSandboxes.Memory
open Machine Function

/-- One call of `write`; a group is numbered by the outcomes before it. -/
inductive Call where
  | new
  | awaiting
  | waiting (group : Nat)
  | succeeded (group : Nat)
  | failed (error : String)
  | lost (group : Nat) (error : String)
  deriving DecidableEq

/-- The journal by the writes it holds, committed and open. `waiters` are the calls counted. -/
structure JournalWriter where
  committed : List Nat := []
  group : Option (List Nat) := none
  outcomes : List (Option String) := []
  holder : Option Nat := none
  waiters : List Nat := []
  calls : Nat → Call := fun _ => .new

structure Answers where
  check : Option String := none
  begins : Option String := none
  savepoint : Option String := none
  panics : Bool := false
  body : Option String := none
  release : Option String := none

inductive Move where
  | arrive (w : Nat)
  | enter (w : Nat) (a : Answers)
  /-- A COMMIT that reports an error may have written all or nothing: unlike the registry's, this
  journal's guarantee holds either way. -/
  | settle (error : Option String) (durable : Bool)
  | wake (w : Nat)

namespace JournalWriter

section
variable (s : JournalWriter)

def setCall (w : Nat) (call : Call) : JournalWriter :=
  { s with calls := update s.calls w call }

def finish (outcome : Option String) : JournalWriter :=
  { s with group := none, outcomes := s.outcomes ++ [outcome] }

/-- A failed body undoes its savepoint; a savepoint statement that fails loses the group. -/
def member (members : List Nat) (w : Nat) (a : Answers) : JournalWriter :=
  if a.savepoint.isNone && a.panics then
    let panicked := "memory journal writer panicked"
    { (s.finish (some panicked)).setCall w (.failed panicked) with holder := none }
  else match a.savepoint, a.body, a.release with
    | some e, _, _ | none, none, some e => (s.finish (some e)).setCall w (.failed e)
    | none, none, none => { s with group := some (members ++ [w]) }.setCall w (.waiting s.outcomes.length)
    | none, some e, none => s.setCall w (.failed e)
    | none, some e, some cause => (s.finish (some cause)).setCall w (.failed e)

def turn (w : Nat) (a : Answers) : JournalWriter :=
  match a.check <|> if s.group.isNone then a.begins else none with
  | some e => s.setCall w (.failed e)
  | none => { s with group := some (s.group.getD []) }.member (s.group.getD []) w a

def commit (members : List Nat) (error : Option String) (durable : Bool) : JournalWriter :=
  { s with committed := if error.isNone || durable then s.committed ++ members else s.committed }.finish
    error

def step : Move → Option JournalWriter
  | .arrive w =>
    if s.calls w = .new then some { s.setCall w .awaiting with waiters := w :: s.waiters } else none
  | .enter w a =>
    if s.holder = none ∧ s.calls w = .awaiting then
      some ({ s with holder := some w, waiters := s.waiters.filter (· ≠ w) }.turn w a)
    else none
  | .settle error durable =>
    match s.holder, s.group with
    | none, _ => none
    | some _, none => some { s with holder := none }
    | some _, some members =>
      if s.waiters = [] ∨ 64 ≤ members.length then
        some ({ s with holder := none }.commit members error durable)
      else some { s with holder := none }
  | .wake w =>
    match s.calls w with
    | .waiting g => s.outcomes[g]?.map fun
      | none => s.setCall w (.succeeded g)
      | some e => s.setCall w (.lost g e)
    | _ => none

def Start : Prop := s = {}

def Absent (w : Nat) : Prop := w ∉ s.committed ∧ ∀ g ∈ s.group, w ∉ g

def Placed (w : Nat) : Call → Prop
  | .new | .awaiting | .failed _ => s.Absent w
  | .waiting g => (g = s.outcomes.length ∧ ∃ members ∈ s.group, w ∈ members) ∨
      (s.outcomes[g]? = some none ∧ w ∈ s.committed) ∨ ∃ e, s.outcomes[g]? = some (some e)
  | .succeeded g => s.outcomes[g]? = some none ∧ w ∈ s.committed
  | .lost g e => s.outcomes[g]? = some (some e)

end

/-- An open group is held, or the next writer is on its way to the turn. -/
structure Inv (s : JournalWriter) : Prop where
  placed : ∀ w, s.Placed w (s.calls w)
  counted : ∀ w ∈ s.waiters, s.calls w = .awaiting
  attended : s.group.isSome → s.holder.isSome ∨ s.waiters ≠ []

variable {s s' : JournalWriter} {w : Nat} {call : Call} {outcome : Option String}

theorem Placed.mono (h : s.Placed w call) (habsent : s.Absent w → s'.Absent w)
    (hout : ∀ {g : Nat} {o}, s.outcomes[g]? = some o → s'.outcomes[g]? = some o)
    (hin : w ∈ s.committed → w ∈ s'.committed)
    (hopen : ∀ members ∈ s.group, w ∈ members → s'.Placed w (.waiting s.outcomes.length)) :
    s'.Placed w call := by
  cases call with
  | new | awaiting | failed => exact habsent h
  | waiting g =>
    rcases h with ⟨rfl,members,hg,hm⟩ | ⟨ho,hc⟩ | ⟨e,he⟩
    · exact hopen members hg hm
    · exact .inr (.inl ⟨hout ho,hin hc⟩)
    · exact .inr (.inr ⟨e,hout he⟩)
  | succeeded => exact ⟨hout h.1,hin h.2⟩
  | lost => exact hout h

theorem Placed.finish (h : s.Placed w call)
    (ho : outcome = none → ∀ members ∈ s.group, w ∈ members → w ∈ s.committed) :
    (s.finish outcome).Placed w call := by
  have hlast : (s.finish outcome).outcomes[s.outcomes.length]? = some outcome := by
    simp [JournalWriter.finish]
  refine h.mono (fun ha => ⟨ha.1,nofun⟩)
    (fun h => (List.getElem?_append_left (List.getElem?_eq_some_iff.mp h).1).trans h) id ?_
  intro members hg hm
  cases outcome with
  | none => exact .inr (.inl ⟨hlast,ho rfl members hg hm⟩)
  | some e => exact .inr (.inr ⟨e,hlast⟩)

theorem placed_setCall (h : ∀ v, v ≠ w → s.Placed v (s.calls v)) (hw : s.Placed w call) (v) :
    (s.setCall w call).Placed v ((s.setCall w call).calls v) := by
  by_cases hv : v = w
  · subst hv
    show s.Placed v (update s.calls v call v)
    rwa [update_self]
  · show s.Placed v (update s.calls w call v)
    rw [update_of_ne hv]
    exact h v hv

theorem placed_member {members} (h : ∀ v, s.Placed v (s.calls v)) (ha : s.Absent w)
    (hg : s.group = some members) (a v) : (s.member members w a).Placed v ((s.member members w a).calls v) := by
  have hlost : ∀ cause e, ∀ v, ((s.finish (some cause)).setCall w (.failed e)).Placed v
      (((s.finish (some cause)).setCall w (.failed e)).calls v) :=
    fun cause e => placed_setCall (fun v _ => (h v).finish nofun) ⟨ha.1,nofun⟩
  unfold member
  split
  · exact hlost _ _ v
  split
  · exact hlost _ _ v
  · exact hlost _ _ v
  · refine placed_setCall (fun v hv => ?_) ?_ v
    · refine (h v).mono (fun hav => ⟨hav.1,?_⟩) id id fun _ hg' hm => ?_
      · rintro _ ⟨⟩
        simpa [hv] using hav.2 members hg
      · cases hg.symm.trans hg'
        exact .inl ⟨rfl,_,rfl,List.mem_append_left _ hm⟩
    · exact .inl ⟨rfl,_,rfl,by simp⟩
  · refine placed_setCall (fun v _ => h v) ?_ v
    exact ha
  · exact hlost _ _ v

theorem placed_turn (h : ∀ v, s.Placed v (s.calls v)) (ha : s.Absent w) (a v) :
    (s.turn w a).Placed v ((s.turn w a).calls v) := by
  unfold turn
  split
  · refine placed_setCall (fun v _ => h v) ?_ v
    exact ha
  · have habsent : ∀ {v}, s.Absent v → Absent { s with group := some (s.group.getD []) } v := by
      refine fun hav => ⟨hav.1,?_⟩
      rintro _ ⟨⟩
      cases hg : s.group with
      | none => simp
      | some members => exact hav.2 members hg
    refine placed_member (fun v => ?_) (habsent ha) rfl a v
    refine (h v).mono habsent id id fun members hg hm => ?_
    exact .inl ⟨rfl,members,by rw [hg]; rfl,hm⟩

theorem turn_frame (s : JournalWriter) (w a) :
    (s.turn w a).waiters = s.waiters ∧ (∀ v, v ≠ w → (s.turn w a).calls v = s.calls v) ∧
      ((s.turn w a).group.isSome → (s.turn w a).holder = s.holder) := by
  unfold turn member
  repeat' split
  all_goals simp +contextual [finish,setCall]

theorem Inv.step (h : s.Inv) {move} (hs : s.step move = some s') : s'.Inv := by
  have hcall : ∀ {w call}, s.calls w = call → s.Placed w call := fun hw => hw ▸ h.placed _
  cases move with
  | arrive w =>
    obtain ⟨hw,rfl⟩ := some_of_check hs
    have ha : s.Absent w := hcall hw
    refine ⟨placed_setCall (fun v _ => h.placed v) ?_,fun v hv => ?_,by simp⟩
    · exact ha
    · by_cases hvw : v = w
      · exact hvw ▸ update_self ..
      · exact (update_of_ne hvw ..).trans (h.counted v (by simpa [hvw] using hv))
  | enter w a =>
    obtain ⟨⟨_,hw⟩,rfl⟩ := some_of_check hs
    have ha : s.Absent w := hcall hw
    obtain ⟨hwai,hcalls,hhol⟩ := turn_frame
      { s with holder := some w, waiters := s.waiters.filter (· ≠ w) } w a
    refine ⟨placed_turn ?_ ?_ a,fun v hv => ?_,fun hg => .inl (hhol hg ▸ rfl)⟩
    · exact h.placed
    · exact ha
    · rw [hwai] at hv
      obtain ⟨hv,hne⟩ := List.mem_filter.mp hv
      exact (hcalls v (of_decide_eq_true hne)).trans (h.counted v hv)
  | settle error durable =>
    simp only [JournalWriter.step] at hs
    split at hs
    · cases hs
    · rename_i hg
      cases hs
      exact ⟨h.placed,h.counted,by simp [hg]⟩
    · rename_i members _ hg
      split at hs
      · cases hs
        have hsub : members ⊆ s.committed ++ members := List.subset_append_right ..
        refine ⟨fun v => Placed.finish ((h.placed v).mono (fun hav => ⟨?_,hav.2⟩) id (fun hm => ?_)
          fun members hg hm => .inl ⟨rfl,members,hg,hm⟩) ?_,h.counted,nofun⟩
        · have := hav.1
          have := hav.2 members hg
          split <;> simp_all
        · split <;> simp [hm]
        · rintro rfl _ hg' hm
          cases hg.symm.trans hg'
          exact hsub hm
      · rename_i hc
        cases hs
        exact ⟨h.placed,h.counted,fun _ => .inr fun hw => hc (.inl hw)⟩
  | wake w =>
    simp only [JournalWriter.step] at hs
    split at hs
    · rename_i g hw
      obtain ⟨o,ho,hs⟩ := Option.map_eq_some_iff.mp hs
      have hcou : ∀ call, ∀ v ∈ s.waiters, (s.setCall w call).calls v = .awaiting := by
        intro call v hv
        have hne : v ≠ w := by
          rintro rfl
          cases hw.symm.trans (h.counted v hv)
        exact (update_of_ne hne ..).trans (h.counted v hv)
      cases o with
      | none =>
        cases hs
        refine ⟨placed_setCall (fun v _ => h.placed v) ?_,hcou _,h.attended⟩
        rcases hcall hw with ⟨rfl,-⟩ | hdone | ⟨e,he⟩
        · simp at ho
        · exact hdone
        · cases ho.symm.trans he
      | some e =>
        cases hs
        refine ⟨placed_setCall (fun v _ => h.placed v) ?_,hcou _,h.attended⟩
        exact ho
    · cases hs

end JournalWriter

open JournalWriter in
/-- A write reports success only when its group's COMMIT holds it, a failed one is in no commit, and
with the turn free every outcome is there. -/
theorem group_commit_strands_nobody {s : JournalWriter} (h : Reaches step anyEvent Start s) :
    (∀ w g, s.calls w = .succeeded g → s.outcomes[g]? = some none ∧ w ∈ s.committed) ∧
    (∀ w e, s.calls w = .failed e → w ∉ s.committed ∧ ∀ members ∈ s.group, w ∉ members) ∧
    (∀ w g, s.calls w = .waiting g → ∀ e, s.outcomes[g]? = some (some e) →
      ∃ s', s.step (.wake w) = some s' ∧ s'.calls w = .lost g e) ∧
    (s.holder = none → (∀ w, s.calls w ≠ .awaiting) → s.group = none ∧
      ∀ w g, s.calls w = .waiting g → ∃ s', s.step (.wake w) = some s') := by
  have hinv : s.Inv := h.invariant (fun s hs => by subst hs; exact ⟨fun _ => ⟨nofun,nofun⟩,nofun,nofun⟩)
    fun _ _ _ hi _ => hi.step
  have hcall : ∀ {w call}, s.calls w = call → s.Placed w call := fun hw => hw ▸ hinv.placed _
  refine ⟨fun w g => hcall,fun w e => hcall,fun w g hw e he => ?_,fun hh hn => ?_⟩
  · exact ⟨_,by simp only [step,hw,he]; rfl,update_self ..⟩
  · have hnone : s.group = none := by
      refine Option.not_isSome_iff_eq_none.mp fun hg => ?_
      rcases hinv.attended hg with hheld | hw
      · simp [hh] at hheld
      · obtain ⟨w,hw⟩ := List.exists_mem_of_ne_nil _ hw
        exact hn w (hinv.counted w hw)
    refine ⟨hnone,fun w g hw => ?_⟩
    rcases hcall hw with ⟨-,_,hg,-⟩ | ⟨ho,-⟩ | ⟨e,ho⟩
    · simp [hnone] at hg
    · exact ⟨_,by simp only [step,hw,ho]; rfl⟩
    · exact ⟨_,by simp only [step,hw,ho]; rfl⟩

theorem group_commit_strands_nobody_shared : ∃ s : JournalWriter,
    Reaches JournalWriter.step anyEvent JournalWriter.Start s ∧ s.calls 0 = .succeeded 0 ∧
      s.calls 1 = .failed "fenced" ∧ s.outcomes[0]? = some none ∧ 0 ∈ s.committed ∧ 1 ∉ s.committed := by
  obtain ⟨s,hs,hsucc,hfail⟩ := Reaches.exists_of_run JournalWriter.step
    (show JournalWriter.Start {} from rfl) [.arrive 0, .enter 0 {}, .arrive 1, .settle none true,
      .enter 1 { check := some "fenced" }, .settle none true, .wake 0]
    (fun s => s.calls 0 = .succeeded 0 ∧ s.calls 1 = .failed "fenced") (by decide +kernel)
  obtain ⟨hok,hfai,-⟩ := group_commit_strands_nobody hs
  obtain ⟨ho,hc⟩ := hok 0 0 hsucc
  exact ⟨s,hs,hsucc,hfail,ho,hc,(hfai 1 _ hfail).1⟩

end UCloudSandboxes.Memory
