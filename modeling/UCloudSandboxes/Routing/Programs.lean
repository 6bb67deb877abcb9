import UCloudSandboxes.Machine.Basic
import UCloudSandboxes.Machine.Keyed
import UCloudSandboxes.Routing.Migration

/-! The projection of one relay request: late, repeated and reordered transitions merged into one
row. -/
namespace UCloudSandboxes.Routing
open Machine List

inductive ProgramState where
  | modelWait
  | readyToWake
  | waking
  | acting
  | terminal
  deriving DecidableEq

/-- The position in `PROGRAM_REQUEST_STATES`. -/
def ProgramState.rank : ProgramState → Nat
  | .modelWait => 0
  | .readyToWake => 1
  | .waking => 2
  | .acting => 3
  | .terminal => 4

theorem ProgramState.rank_injective : Function.Injective rank := by
  intro a b h
  cases a <;> cases b <;> first | rfl | cases h

inductive Timestamp where
  | acceptedAt
  | parkedAt
  | responseReadyAt
  | wakeStartedAt
  | wakeCompletedAt
  deriving DecidableEq

def Timestamp.all : List Timestamp :=
  [.acceptedAt, .parkedAt, .responseReadyAt, .wakeStartedAt, .wakeCompletedAt]

structure ProgramRequestState where
  requestId : String
  rolloutId : String
  sandboxId : String
  sandboxGeneration : Nat
  state : ProgramState
  resources : ResourceQuantity
  timestamps : Timestamp → String
  updatedAt : String
  lastError : String

abbrev ProgramRow := Option ProgramRequestState

inductive ProgramError where
  | valueError (message : String)
  | conflict (message : String)

/-- The row after a call, what it returns of it, and whether the row changed. -/
abbrev Upserted := Except ProgramError (ProgramRow × ProgramRequestState × Bool)

structure ProgramTransition where
  route : SandboxRoute
  rolloutId : String
  state : ProgramState
  transitionAt : String := ""
  acceptedAt : String := ""
  parkedAt : String := ""
  responseReadyAt : String := ""
  wakeStartedAt : String := ""
  lastError : String := ""
  clearError : Bool := false

/-- A call, with the generation stored for the route's sandbox and the time. -/
structure ProgramCall extends ProgramTransition where
  currentGeneration : Option Nat
  now : String
  now_ne : now ≠ ""

/-- `str.isspace` of one character. -/
def isSpace (c : Char) : Bool :=
  [9,10,11,12,13,28,29,30,31,32,0x85,0xa0,0x1680,0x2028,0x2029,0x202f,0x205f,0x3000].contains c.toNat ||
    (0x2000 ≤ c.toNat && c.toNat ≤ 0x200a)

def orElse (first second : String) : String :=
  if first = "" then second else first

namespace ProgramCall

variable (c : ProgramCall) (requestId : String) (existing : ProgramRow)

def time : String := orElse c.transitionAt c.now

def entered (state : ProgramState) : String :=
  if c.state = state then c.time else ""

def offers : Timestamp → String
  | .acceptedAt => orElse c.acceptedAt c.time
  | .parkedAt => c.parkedAt
  | .responseReadyAt => orElse c.responseReadyAt (c.entered .readyToWake)
  | .wakeStartedAt => orElse c.wakeStartedAt (c.entered .waking)
  | .wakeCompletedAt => c.entered .acting

def effectiveState : ProgramState :=
  match existing with
  | some e => if c.state.rank < e.state.rank then e.state else c.state
  | none => c.state

def timestamps (t : Timestamp) : String :=
  orElse (existing.elim "" (·.timestamps t)) (c.offers t)

def error : String :=
  if c.lastError ≠ "" then c.lastError
  else if c.clearError || existing.any (·.state.rank < (c.effectiveState existing).rank) then ""
  else existing.elim "" (·.lastError)

def record : ProgramRequestState where
  requestId
  rolloutId := c.rolloutId
  sandboxId := c.route.sandboxId
  sandboxGeneration := c.route.incarnation.generation
  state := c.effectiveState existing
  resources := c.route.resources
  timestamps := c.timestamps existing
  updatedAt := c.time
  lastError := c.error existing

def owns (e : ProgramRequestState) : Bool :=
  e.rolloutId = c.rolloutId && e.sandboxId = c.route.sandboxId &&
    e.sandboxGeneration = c.route.incarnation.generation

def agrees (e : ProgramRequestState) : Bool :=
  e.state = c.effectiveState existing && e.resources = c.route.resources &&
    (Timestamp.all.all fun t => e.timestamps t = c.timestamps existing t) &&
    e.lastError = c.error existing

def project : Except ProgramError ProgramRow :=
  if existing.any (!c.owns ·) then
    .error (.conflict "program request id belongs to another rollout or sandbox")
  else .ok (existing.filter (c.agrees existing))

def readCurrent (row : ProgramRow) : Except ProgramError ProgramRow :=
  if c.currentGeneration = some c.route.incarnation.generation then .ok row
  else .error (.conflict "program transition does not own the current sandbox generation")

def write (row : ProgramRow) : Upserted := do
  let existing ← c.readCurrent row
  match ← c.project existing with
  | some unchanged => .ok (row, unchanged, false)
  | none => .ok (some (c.record requestId existing), c.record requestId existing, true)

/-- Retries are answered from a first read. -/
def upsertStripped (row : ProgramRow) : Upserted :=
  if requestId = "" || c.rolloutId = "" then
    .error (.valueError "program request and rollout ids are required")
  else do
    let previous ← c.readCurrent row
    match ← c.project previous with
    | some unchanged => .ok (row, unchanged, false)
    | none => c.write requestId row

def stripped : ProgramCall := { c with rolloutId := strip isSpace c.rolloutId }

/-- `upsert_program_request_transition_with_change`. -/
def upsert (row : ProgramRow) : Upserted :=
  c.stripped.upsertStripped (strip isSpace requestId) row

/-- The call names a request and a rollout, owns the sandbox's generation and the row. -/
def admitted (row : ProgramRow) : Bool :=
  strip isSpace requestId ≠ "" && c.stripped.rolloutId ≠ "" &&
    c.currentGeneration = some c.route.incarnation.generation && row.all c.stripped.owns

end ProgramCall

structure Projection where
  row : ProgramRow := none
  applied : List ProgramCall := []

def Projection.call (requestId : String) (s : Projection) (c : ProgramCall) : Projection :=
  match c.upsert requestId s.row with
  | .ok (row, _) => ⟨row,s.applied ++ [c]⟩
  | .error _ => s

def firstNonempty (l : List String) : String := (l.find? (· ≠ "")).getD ""

@[simp]
theorem orElse_eq_empty {a b} : orElse a b = "" ↔ a = "" ∧ b = "" := by
  unfold orElse
  split <;> simp_all

theorem firstNonempty_append (l a) : firstNonempty (l ++ [a]) = orElse (firstNonempty l) a := by
  unfold firstNonempty orElse
  rw [find?_append]
  cases h : l.find? (· ≠ "") with
  | none => by_cases ha : a = "" <;> simp [ha]
  | some b =>
    have hb : b ≠ "" := by simpa using find?_some h
    simp [hb]

namespace ProgramCall

variable {c c' : ProgramCall} {requestId : String} {row row' : ProgramRow}
  {r : ProgramRequestState} {changed : Bool}

theorem agrees_iff : c.agrees row r = true ↔ r.state = c.effectiveState row ∧
    r.resources = c.route.resources ∧ (∀ t, r.timestamps t = c.timestamps row t) ∧
    r.lastError = c.error row := by
  have hall : ∀ t, t ∈ Timestamp.all := by
    intro t
    cases t <;> decide
  simp [agrees,hall,and_assoc]

theorem upsertStripped_eq_write (hids : (requestId = "" || c.rolloutId = "") = false) :
    c.upsertStripped requestId row = c.write requestId row := by
  unfold upsertStripped
  rw [hids,if_neg Bool.false_ne_true]
  cases hread : c.readCurrent row with
  | error => rw [write,hread]; rfl
  | ok existing =>
    cases hp : c.project existing with
    | error => simp only [write,hread,bind,Except.bind,hp]
    | ok unchanged =>
      cases unchanged with
      | none => simp only [bind,Except.bind,hp]
      | some => simp only [write,hread,bind,Except.bind,hp]

theorem upsertStripped_ok (h : c.upsertStripped requestId row = .ok (row', r, changed)) :
    ((requestId = "" || c.rolloutId = "") = false ∧
      c.currentGeneration = some c.route.incarnation.generation ∧ row.all c.owns = true) ∧
    row' = some r ∧ c.owns r = true ∧ c.agrees row r = true := by
  have hids := Bool.eq_false_iff.mpr (of_guard h nofun).1
  rw [upsertStripped_eq_write hids] at h
  obtain ⟨existing,hread,h⟩ := ok_of_bind_ok h
  obtain ⟨hcur,hread⟩ := of_check hread nofun
  cases hread
  obtain ⟨unchanged,hp,h⟩ := ok_of_bind_ok h
  obtain ⟨howns,hp⟩ := of_guard hp nofun
  cases hp
  refine ⟨⟨hids,hcur,by cases row <;> simp_all⟩,?_⟩
  split at h
  · rename_i e he
    cases h
    obtain ⟨hrow,hagrees⟩ := Option.filter_eq_some_iff.mp he
    subst hrow
    exact ⟨rfl,by simpa using howns,hagrees⟩
  · cases h
    exact ⟨rfl,by simp [owns,record],agrees_iff.mpr ⟨rfl,rfl,fun _ => rfl,rfl⟩⟩

theorem rank_effectiveState (c : ProgramCall) (row) :
    (c.effectiveState row).rank = max (row.elim 0 (·.state.rank)) c.state.rank := by
  unfold effectiveState
  split
  · split <;> simp <;> omega
  · simp

theorem entered_eq_empty {state} : c.entered state = "" ↔ c.state ≠ state := by
  have htime : c.time ≠ "" := by simp [time,c.now_ne]
  unfold entered
  split <;> simp_all

theorem offers_empty (h : c'.toProgramTransition = c.toProgramTransition) {t}
    (hc : c.offers t = "") : c'.offers t = "" := by
  cases t with
  | acceptedAt => simp [offers,time,c.now_ne] at hc
  | _ => simpa [offers,entered_eq_empty,h] using hc

theorem upsertStripped_twice (h : c.upsertStripped requestId row = .ok (row', r, changed))
    (hsame : c'.toProgramTransition = c.toProgramTransition)
    (hcur : c'.currentGeneration = c.currentGeneration) :
    c'.upsertStripped requestId row' = .ok (row', r, false) := by
  obtain ⟨⟨hids,hgen,-⟩,rfl,howns,hagrees⟩ := upsertStripped_ok h
  obtain ⟨hstate,hres,htimes,herror⟩ := agrees_iff.mp hagrees
  have hstate' : c'.effectiveState (some r) = r.state := by
    rw [effectiveState,hsame]
    split
    · rfl
    · have hrank := rank_effectiveState c row
      rw [← hstate] at hrank
      exact ProgramState.rank_injective (by omega)
  have hagrees' : c'.agrees (some r) r = true := by
    refine agrees_iff.mpr ⟨hstate'.symm,by rw [hres,hsame],fun t => ?_,?_⟩
    · unfold timestamps orElse
      split
      · rename_i hempty
        have hmerged := (htimes t).symm.trans hempty
        rw [offers_empty hsame (orElse_eq_empty.mp hmerged).2]
        exact hempty
      · rfl
    · simp only [error,hstate',hsame] at herror ⊢
      split_ifs at herror ⊢ <;> simp_all
  have howns' : c'.owns r = true := by simpa [owns,hsame] using howns
  have hread : c'.readCurrent (some r) = .ok (some r) := if_pos (by rw [hcur,hgen,hsame])
  have hp : c'.project (some r) = .ok (some r) := by simp [project,howns',hagrees']
  rw [upsertStripped_eq_write (hsame ▸ hids),write,hread]
  simp only [bind,Except.bind,hp]

theorem upsert_ok (h : c.upsert requestId row = .ok (row', r, changed)) :
    c.admitted requestId row = true ∧ row' = some r ∧ c.agrees row r = true := by
  obtain ⟨⟨hids,hcur,hrow⟩,rfl,-,hagrees⟩ := upsertStripped_ok h
  rw [Bool.or_eq_false_iff,decide_eq_false_iff_not,decide_eq_false_iff_not] at hids
  refine ⟨?_,rfl,hagrees⟩
  simp only [admitted,Bool.and_eq_true,decide_eq_true_eq]
  exact ⟨⟨hids,hcur⟩,hrow⟩

theorem upsert_of_admitted (h : c.admitted requestId row = true) :
    ∃ p, c.upsert requestId row = .ok p := by
  simp only [admitted,Bool.and_eq_true,decide_eq_true_eq] at h
  obtain ⟨⟨⟨hid,hrollout⟩,hcur⟩,hrow⟩ := h
  have howns : row.any (!c.stripped.owns ·) = false := by cases row <;> simp_all
  have hread : c.stripped.readCurrent row = .ok row := if_pos hcur
  rw [upsert,upsertStripped_eq_write (by simp [hid,hrollout]),write,hread]
  simp only [bind,Except.bind,project,howns,Bool.false_eq_true,if_false]
  split <;> exact ⟨_,rfl⟩

end ProgramCall

structure Projection.Sound (s : Projection) : Prop where
  empty : s.row = none → s.applied = []
  rank : s.row.elim 0 (·.state.rank) = (s.applied.map (·.state.rank)).foldl max 0
  timestamps : ∀ t, s.row.elim "" (·.timestamps t) = firstNonempty (s.applied.map (·.offers t))

open ProgramCall

theorem Projection.Sound.call {s : Projection} {requestId c} (h : s.Sound) :
    (s.call requestId c).Sound := by
  unfold Projection.call
  split
  · rename_i row p hok
    obtain ⟨r,changed⟩ := p
    obtain ⟨-,rfl,hagrees⟩ := upsert_ok hok
    obtain ⟨hstate,-,htimes,-⟩ := agrees_iff.mp hagrees
    refine ⟨nofun,?_,fun t => ?_⟩
    · rw [map_append,foldl_append,← h.rank,Option.elim_some,hstate]
      exact rank_effectiveState c s.row
    · rw [map_append,map_singleton,firstNonempty_append,← h.timestamps]
      exact htimes t
  · exact h

/-- The row has the highest rank applied, the first nonempty value of every timestamp, and stays
terminal; a call is applied iff it is admitted; a repeated call changes nothing; and the first read
saves only the transaction. -/
theorem program_projection_monotone (requestId : String) (calls : List ProgramCall) :
    let s := calls.foldl (Projection.call requestId) {}
    (s.row = none → s.applied = []) ∧
    (∀ r, s.row = some r → r.state.rank = (s.applied.map (·.state.rank)).foldl max 0 ∧
      (∀ t, r.timestamps t = firstNonempty (s.applied.map (·.offers t))) ∧
      ∀ c, ∃ r', (s.call requestId c).row = some r' ∧ (r.state = .terminal → r'.state = .terminal)) ∧
    (∀ c : ProgramCall, (s.call requestId c).applied =
      if c.admitted requestId s.row then s.applied ++ [c] else s.applied) ∧
    (∀ (c : ProgramCall) row r changed, c.upsert requestId s.row = .ok (row, r, changed) →
      ∀ c' : ProgramCall, c'.toProgramTransition = c.toProgramTransition →
        c'.currentGeneration = c.currentGeneration → c'.upsert requestId row = .ok (row, r, false)) ∧
    ∀ c : ProgramCall, (strip isSpace requestId = "" || c.stripped.rolloutId = "") = false →
      c.upsert requestId s.row = c.stripped.write (strip isSpace requestId) s.row := by
  intro s
  have hs : s.Sound := foldlRecOn calls _ ⟨fun _ => rfl,rfl,fun _ => rfl⟩ fun s hs c _ => hs.call
  refine ⟨hs.empty,fun r hr => ?_,fun c => ?_,fun c row r changed h c' hsame hcur => ?_,
    fun c => upsertStripped_eq_write⟩
  rotate_left
  · unfold Projection.call
    split
    · rename_i row p hok
      rw [if_pos (upsert_ok hok).1]
    · rename_i e herr
      refine (if_neg fun hadm => ?_).symm
      obtain ⟨p,hok⟩ := upsert_of_admitted hadm
      cases herr.symm.trans hok
  · exact upsertStripped_twice h (by simp only [stripped,hsame]) hcur
  have hrank := hs.rank
  have htimes := hs.timestamps
  rw [hr] at hrank htimes
  refine ⟨hrank,htimes,fun c => ?_⟩
  unfold Projection.call
  split
  · rename_i row p hok
    obtain ⟨r',changed⟩ := p
    obtain ⟨-,rfl,hagrees⟩ := upsert_ok hok
    refine ⟨r',rfl,fun hterm => ?_⟩
    have hmax := rank_effectiveState c s.row
    rw [← (agrees_iff.mp hagrees).1,hr,Option.elim_some,hterm] at hmax
    have hle : c.state.rank ≤ 4 := by cases c.state <;> decide
    exact ProgramState.rank_injective (hmax.trans (max_eq_left hle))
  · exact ⟨r,hr,fun h => h⟩

def Example.transition (state : ProgramState) : ProgramCall where
  route :=
    { sandboxId := "sandbox", node := ⟨"node","job",""⟩, resources := {}, state := .running
      incarnation }
  rolloutId := "rollout"
  state
  currentGeneration := some 1
  now := "12:00"
  now_ne := by decide

def Example.late : Projection :=
  [transition .waking,transition .modelWait].foldl (Projection.call " request ") {}

/-- A transition that comes late is applied and leaves the row waking. -/
theorem program_projection_late : Example.late.applied.length = 2 ∧
    ∃ r, Example.late.row = some r ∧ r.state.rank = ProgramState.waking.rank := by
  obtain ⟨r,hr⟩ := Option.isSome_iff_exists.mp (show Example.late.row.isSome = true by decide +kernel)
  obtain ⟨hrank,-⟩ := (program_projection_monotone ..).2.1 r hr
  exact ⟨by decide +kernel,r,hr,hrank.trans (by decide +kernel)⟩

end UCloudSandboxes.Routing
