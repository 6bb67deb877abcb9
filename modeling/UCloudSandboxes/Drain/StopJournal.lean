import UCloudSandboxes.Machine.Table

/-! The provider operations that stop a drained worker: a stop's key is made from its drain intent's
token, so that a later cycle finds the row of an earlier one. -/
namespace UCloudSandboxes.Drain
open Machine

inductive OperationState where
  | prepared
  | uncertain
  | accepted
  | settled
  | failed
  deriving DecidableEq

inductive ProviderOutcome where
  | accepted
  | rejected
  | uncertain

def ProviderOutcome.mark : ProviderOutcome → OperationState
  | .accepted => .accepted
  | .rejected => .failed
  | .uncertain => .uncertain

/-- What an executed cycle sees of the job, the provider's answer, and the rows past the bound on
history. -/
structure StopCycle where
  observed : Bool := true
  isFinal : Bool := false
  drainReady : Bool := true
  outcome : ProviderOutcome := .accepted
  compacted : List Nat := []

def StopCycle.reconcile (c : StopCycle) : OperationState → OperationState
  | .accepted => if c.observed && !c.isFinal then .accepted else .settled
  | .uncertain => if c.isFinal then .settled else .prepared
  | state => state

/-- The token of the job's active drain intent, and its stops by the token in their key. -/
structure StopJournal where
  intent : Option Nat := none
  operations : AList fun _ : Nat => OperationState := ∅

namespace StopJournal

variable {j : StopJournal} {c : StopCycle} {token : Nat}

section
variable (j : StopJournal) (c : StopCycle)

def reconcileProviderInventory : StopJournal :=
  { j with operations := mapRows j.operations fun _ => c.reconcile }

def prepareOperation (token : Nat) : StopJournal :=
  if token ∈ j.operations then j
  else { j with operations := j.operations.insert token .prepared }

/-- `apply_prepared_provider_operations`, and whether the provider was called. -/
def applyPrepared (token : Nat) (outcome : ProviderOutcome) : StopJournal × Bool :=
  if j.operations.lookup token = some .prepared then
    ({ j with operations := j.operations.insert token outcome.mark },true)
  else (j,false)

def compactTerminalHistory (compacted : List Nat) : StopJournal :=
  { j with operations := keepRows j.operations fun token state =>
      !((state = .settled || state = .failed) && token ∈ compacted) }

def cycle : StopJournal × Bool :=
  let j := j.reconcileProviderInventory c
  let (j,submitted) := match j.intent.filter fun _ => c.drainReady with
    | some token => (j.prepareOperation token).applyPrepared token c.outcome
    | none => (j,false)
  (j.compactTerminalHistory c.compacted,submitted)

def after (cycles : List StopCycle) : StopJournal := cycles.foldl (fun j c => (j.cycle c).1) j

def Pursued (token : Nat) : Prop :=
  j.operations.lookup token = some .uncertain ∨ j.operations.lookup token = some .accepted ∨
    (j.cycle c).2 = true

/-- A stop under this key was rejected, or accepted and the job is gone. -/
def Ended (token : Nat) : Prop :=
  j.operations.lookup token = some .settled ∨ j.operations.lookup token = some .failed

end

theorem lookup_prepareOperation : (j.prepareOperation token).operations.lookup token =
    some ((j.operations.lookup token).getD .prepared) := by
  unfold prepareOperation
  split
  · rename_i hrow
    obtain ⟨state,hstate⟩ := Option.isSome_iff_exists.mp (AList.lookup_isSome.mpr hrow)
    simp [hstate]
  · rename_i hrow
    simp [AList.lookup_eq_none.mpr hrow]

/-- With an active intent on a ready worker, a stop is submitted unless a row under its key is on
its way or over. -/
theorem cycle_submits_iff (hintent : j.intent = some token) (hready : c.drainReady = true) :
    (j.cycle c).2 = true ↔ ((j.operations.lookup token).map c.reconcile).getD .prepared = .prepared := by
  have hfil : (j.reconcileProviderInventory c).intent.filter (fun _ => c.drainReady) = some token := by
    simp [reconcileProviderInventory,hintent,hready]
  have hrow : (j.reconcileProviderInventory c).operations.lookup token =
      (j.operations.lookup token).map c.reconcile := lookup_mapRows ..
  simp only [cycle,hfil,applyPrepared,lookup_prepareOperation,hrow,Option.some.injEq]
  split
  · simpa
  · simpa

/-- A cycle pursues the stop of a ready worker exactly if no earlier one ended under its key. -/
theorem pursued_iff (hintent : j.intent = some token) (hready : c.drainReady = true) :
    j.Pursued c token ↔ ¬ j.Ended token := by
  rw [Pursued,Ended,cycle_submits_iff hintent hready]
  cases hrow : j.operations.lookup token with
  | none => simp
  | some state => cases state <;> simp [StopCycle.reconcile]

theorem intent_cycle (j : StopJournal) (c) : (j.cycle c).1.intent = j.intent := by
  unfold cycle compactTerminalHistory applyPrepared prepareOperation reconcileProviderInventory
  dsimp only
  split
  · split <;> split <;> rfl
  · rfl

theorem lookup_applyPrepared {t outcome state}
    (h : ((j.prepareOperation t).applyPrepared t outcome).1.operations.lookup token = some state) :
    j.operations.lookup token = some state ∨ state = .prepared ∨ state = outcome.mark := by
  have hprep (h : (j.prepareOperation t).operations.lookup token = some state) :
      j.operations.lookup token = some state ∨ state = .prepared := by
    unfold prepareOperation at h
    split at h
    · exact .inl h
    · exact (lookup_of_insert h).symm.imp And.right And.right
  unfold applyPrepared at h
  split at h
  · rcases lookup_of_insert h with ⟨-,hs⟩ | ⟨-,h⟩
    · exact .inr (.inr hs)
    · exact (hprep h).imp_right .inl
  · exact (hprep h).imp_right .inl

/-- While the job runs and no stop is rejected, none ends. -/
theorem not_ended_cycle (h : ¬ j.Ended token) (hobs : c.observed = true) (hfinal : c.isFinal = false)
    (hout : c.outcome ≠ .rejected) : ¬ (j.cycle c).1.Ended token := by
  have hrow : ∀ state, (j.reconcileProviderInventory c).operations.lookup token = some state →
      state ≠ .settled ∧ state ≠ .failed := by
    intro state hs
    obtain ⟨old,hold,rfl⟩ := Option.map_eq_some_iff.mp ((lookup_mapRows ..).symm.trans hs)
    cases old <;> simp_all [Ended,StopCycle.reconcile]
  suffices hend : ∀ state, (j.cycle c).1.operations.lookup token = some state →
      state ≠ .settled ∧ state ≠ .failed from
    fun hend' => hend'.elim (fun hs => (hend _ hs).1 rfl) fun hs => (hend _ hs).2 rfl
  intro state hs
  have hs := (Option.filter_eq_some_iff.mp ((lookup_keepRows ..).symm.trans hs)).1
  split at hs
  · obtain hs | rfl | rfl := lookup_applyPrepared hs
    · exact hrow state hs
    · simp
    · cases ho : c.outcome <;> simp_all [ProviderOutcome.mark]
  · exact hrow state hs

/-- After any executed cycles the stop of a ready worker is pursued exactly if no earlier one ended
under its key; while the job runs and no stop is rejected, none ends. -/
theorem stop_pursued_iff (hintent : j.intent = some token) (cycles : List StopCycle) :
    (∀ c, c.drainReady = true → ((j.after cycles).Pursued c token ↔ ¬ (j.after cycles).Ended token)) ∧
      (¬ j.Ended token → (∀ c ∈ cycles, c.observed = true ∧ c.isFinal = false ∧ c.outcome ≠ .rejected) →
        ¬ (j.after cycles).Ended token) := by
  induction cycles generalizing j with
  | nil => exact ⟨fun c => pursued_iff hintent,fun h _ => h⟩
  | cons c cycles ih =>
    obtain ⟨hiff,hkept⟩ := ih ((intent_cycle j c).trans hintent)
    refine ⟨hiff,fun h hall => hkept ?_ fun c' hc' => hall c' (.tail _ hc')⟩
    obtain ⟨hobs,hfinal,hout⟩ := hall c (.head _)
    exact not_ended_cycle h hobs hfinal hout

/-- An unanswered stop is submitted again in the next cycle. -/
theorem stop_pursued_again : let j : StopJournal := { intent := some 1 }
    (j.after [{ outcome := .uncertain }]).Pursued { outcome := .rejected } 1 := by
  have h := stop_pursued_iff (j := { intent := some 1 }) rfl [{ outcome := .uncertain }]
  exact (h.1 _ rfl).mpr (h.2 (by unfold Ended; decide) (by simp))

def refused : StopJournal := (({ intent := some 1 } : StopJournal).cycle { outcome := .rejected }).1

/-- However many cycles follow, while the row is kept none submits the rejected stop again. -/
theorem refused_stop_forgotten :
    ¬ ∃ n, ((fun j : StopJournal => (j.cycle {}).1)^[n] refused).Pursued {} 1 := by
  rintro ⟨n,hn⟩
  have hsame : (refused.cycle {}).1 = refused := rfl
  rw [Function.iterate_fixed hsame,Pursued] at hn
  revert hn
  decide

end StopJournal
end UCloudSandboxes.Drain
