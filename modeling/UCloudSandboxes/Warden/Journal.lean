import UCloudSandboxes.Machine.Keyed

/-! The hibernation journal of one incarnation: its record, the operations that move it, the
manifest and the recovery a reconcile picks. -/
namespace UCloudSandboxes.Warden
open Machine

inductive HibernationState where
  | running
  | hibernating
  | parked
  | restoring
  | recoveryRequired
  deriving DecidableEq

inductive HibernationAuthority where
  | none
  | live
  | pending
  | parked
  | candidate
  deriving DecidableEq

inductive OperationKind where
  | initialise
  | hibernate
  | restore
  | reconcile
  deriving DecidableEq

def OperationKind.value : OperationKind → String
  | .initialise => "initialize"
  | .hibernate => "hibernate"
  | .restore => "restore"
  | .reconcile => "reconcile"

/-- A process by pid and start time, so that a reused pid is another process. -/
structure Identity where
  pid : Nat
  startTimeTicks : Nat
  deriving DecidableEq

def legalPair : HibernationState → HibernationAuthority → Bool
  | .running, .live => true
  | .hibernating, .live | .hibernating, .pending => true
  | .parked, .parked => true
  | .restoring, .parked | .restoring, .candidate => true
  | .recoveryRequired, .live => false
  | .recoveryRequired, _ => true
  | _, _ => false

theorem legal_running : legalPair .running .live = true := rfl

/-- `HibernationRecord`, with the checks its constructor makes as fields. -/
structure Record where
  hibernationGeneration : Nat
  state : HibernationState
  authority : HibernationAuthority
  operationKind : OperationKind
  operationId : String
  revision : Nat
  sentry : Option Identity := .none
  candidate : Option Identity := .none
  manifestSha256 : String := ""
  recoveryReason : String := ""
  legal : legalPair state authority = true
  digested : state = .parked → manifestSha256 ≠ ""
  identified : authority = .candidate → candidate.isSome
  deriving DecidableEq

/-- `HibernationManifest`: the capture a COMPLETE generation holds. `workspace` names a split-memory
volume capture; `captured`, history, the process. -/
structure Manifest where
  hibernationGeneration : Nat
  operationId : String
  runtime : String
  workspace : Option String
  metadataSha256 : String
  captured : Identity
  digest_ne : metadataSha256 ≠ ""
  deriving DecidableEq

namespace Record

variable (r : Record) (operationId : String) (expectedRevision : Nat)

def requireRevision : Except String Unit :=
  if r.revision ≠ expectedRevision then
    .error ("stale hibernation revision " ++ toString expectedRevision ++
      "; current revision is " ++ toString r.revision)
  else .ok ()

def requireOperation (kind : OperationKind) (operationId : String) (expectedRevision : Nat)
    : Except String Unit :=
  if r.operationKind ≠ kind ∨ r.operationId ≠ operationId then
    .error ("hibernation journal is owned by another " ++ kind.value ++ " operation")
  else r.requireRevision expectedRevision

/-- `begin_hibernate`; a replay of the operation the journal is in returns the record as it is. -/
def beginHibernate : Except String Record :=
  if r.operationKind = .hibernate ∧ r.operationId = operationId ∧
      (r.state = .hibernating ∨ r.state = .parked ∨ r.state = .recoveryRequired) then .ok r
  else do
    r.requireRevision expectedRevision
    if r.state ≠ .running ∨ r.authority ≠ .live then .error "sandbox is not running"
    else .ok { r with
      hibernationGeneration := r.hibernationGeneration + 1
      state := .hibernating
      authority := .live
      operationKind := .hibernate
      operationId
      revision := r.revision + 1
      candidate := none
      manifestSha256 := ""
      recoveryReason := ""
      legal := rfl
      digested := nofun
      identified := nofun }

def markSentryReaped : Except String Record := do
  r.requireOperation .hibernate operationId expectedRevision
  if r.state = .hibernating ∧ r.authority = .pending then .ok r
  else if h : r.state = .hibernating ∧ r.authority = .live then .ok { r with
    authority := .pending
    revision := r.revision + 1
    sentry := none
    legal := by rw [h.1]; rfl
    identified := nofun }
  else .error "sentry can only be reaped from live hibernating state"

def abortHibernate (sentry : Option Identity) : Except String Record := do
  r.requireOperation .hibernate operationId expectedRevision
  if r.state ≠ .hibernating ∨ r.authority ≠ .live then
    .error "hibernate cannot be aborted after the sentry is reaped"
  else .ok { r with
    state := .running
    authority := .live
    revision := r.revision + 1
    sentry
    legal := legal_running
    digested := nofun
    identified := nofun }

def commitParked (manifest : Manifest) (operationId : String) (expectedRevision : Nat)
    : Except String Record := do
  r.requireOperation .hibernate operationId expectedRevision
  if r.state = .parked ∧ r.manifestSha256 = manifest.metadataSha256 then .ok r
  else if r.state ≠ .hibernating ∨ r.authority ≠ .pending then
    .error "park can only commit after the sentry is reaped"
  else if manifest.hibernationGeneration ≠ r.hibernationGeneration ∨
      manifest.operationId ≠ r.operationId then
    .error "hibernation manifest does not match the pending generation"
  else .ok { r with
    state := .parked
    authority := .parked
    revision := r.revision + 1
    manifestSha256 := manifest.metadataSha256
    legal := rfl
    digested := fun _ => manifest.digest_ne
    identified := nofun }

theorem legal_recovery {authority} (h : authority ≠ .live) :
    legalPair .recoveryRequired authority = true := by
  cases authority <;> first | rfl | exact absurd rfl h

/-- `quarantine`: a live authority is given up only once its process is known dead. -/
def quarantine (r : Record) (reason : String) (expectedRevision : Nat)
    (liveProcessConfirmedDead : Bool) : Except String Record := do
  r.requireRevision expectedRevision
  if h : r.authority = .live then
    if liveProcessConfirmedDead then .ok { r with
      state := .recoveryRequired
      authority := .none
      operationKind := .reconcile
      revision := r.revision + 1
      sentry := none
      recoveryReason := reason
      legal := rfl
      digested := nofun
      identified := nofun }
    else .error "a live sandbox must be fenced before quarantine"
  else .ok { r with
    state := .recoveryRequired
    operationKind := .reconcile
    revision := r.revision + 1
    recoveryReason := reason
    legal := legal_recovery h
    digested := nofun }

section Specs

variable {r r' : Record} {operationId reason : String} {revision : Nat} {sentry : Option Identity}
  {manifest : Manifest} {dead : Bool}

theorem live_of_running (h : r.state = .running) : r.authority = .live := by
  have hl := r.legal
  rw [h] at hl
  cases ha : r.authority <;> simp [legalPair,ha] at hl ⊢

theorem authority_of_hibernating (h : r.state = .hibernating) :
    r.authority = .live ∨ r.authority = .pending := by
  have hl := r.legal
  rw [h] at hl
  cases ha : r.authority <;> simp [legalPair,ha] at hl ⊢

theorem not_live (hr : r.state ≠ .running) (hh : r.state ≠ .hibernating) : r.authority ≠ .live := by
  intro ha
  have hl := r.legal
  rw [ha] at hl
  cases hs : r.state <;> simp [legalPair,hs] at hl hr hh

theorem requireOperation_self (h : r.operationKind = .hibernate) :
    r.requireOperation .hibernate r.operationId r.revision = .ok () := by
  simp [requireOperation,requireRevision,h]

theorem beginHibernate_ok (hs : r.state = .running)
    (h : r.beginHibernate operationId revision = .ok r') :
    r'.state = .hibernating ∧ r'.authority = .live ∧ r'.operationKind = .hibernate ∧
      r'.hibernationGeneration = r.hibernationGeneration + 1 ∧ r'.sentry = r.sentry ∧
      r'.candidate = none := by
  simp only [beginHibernate,hs] at h
  split at h
  · simp at *
  obtain ⟨-,-,h⟩ := ok_of_bind_ok h
  split at h
  · cases h
  · cases h
    exact ⟨rfl,rfl,rfl,rfl,rfl,rfl⟩

theorem markSentryReaped_ok (h : r.markSentryReaped operationId revision = .ok r') :
    r.state = .hibernating ∧ r'.state = .hibernating ∧ r'.authority = .pending ∧
      r'.operationKind = .hibernate ∧ r'.operationId = r.operationId ∧
      r'.hibernationGeneration = r.hibernationGeneration ∧ r'.candidate = r.candidate := by
  obtain ⟨_,hreq,h⟩ := ok_of_bind_ok h
  have hkind : r.operationKind = .hibernate := by
    rw [requireOperation] at hreq
    split at hreq
    · cases hreq
    · simp_all
  split at h
  · next hp =>
    cases h
    exact ⟨hp.1,hp.1,hp.2,hkind,rfl,rfl,rfl⟩
  · split at h
    · next hl =>
      cases h
      exact ⟨hl.1,hl.1,rfl,hkind,rfl,rfl,rfl⟩
    · cases h

theorem abortHibernate_ok (h : r.abortHibernate operationId revision sentry = .ok r') :
    r'.state = .running ∧ r'.authority = .live ∧ r'.sentry = sentry ∧
      r'.hibernationGeneration = r.hibernationGeneration ∧ r'.candidate = r.candidate := by
  obtain ⟨-,-,h⟩ := ok_of_bind_ok h
  split at h
  · cases h
  · cases h
    exact ⟨rfl,rfl,rfl,rfl,rfl⟩

theorem commitParked_ok (hs : r.state = .hibernating)
    (h : r.commitParked manifest operationId revision = .ok r') :
    r'.state = .parked ∧ r'.manifestSha256 = manifest.metadataSha256 ∧
      r'.operationId = r.operationId ∧
      r'.hibernationGeneration = r.hibernationGeneration ∧ r'.candidate = r.candidate ∧
      r'.authority = .parked := by
  obtain ⟨-,-,h⟩ := ok_of_bind_ok h
  split at h
  · simp_all
  split at h
  · cases h
  split at h
  · cases h
  · cases h
    exact ⟨rfl,rfl,rfl,rfl,rfl,rfl⟩

theorem quarantine_ok (h : r.quarantine reason revision dead = .ok r') :
    r'.state = .recoveryRequired ∧ r'.authority ≠ .live ∧ r'.operationId = r.operationId ∧
      r'.hibernationGeneration = r.hibernationGeneration ∧ r'.candidate = r.candidate := by
  obtain ⟨-,-,h⟩ := ok_of_bind_ok h
  split at h
  · split at h
    · cases h
      exact ⟨rfl,nofun,rfl,rfl,rfl⟩
    · cases h
  · next hl =>
    cases h
    exact ⟨rfl,hl,rfl,rfl,rfl⟩

end Specs

end Record

inductive HibernationRecoveryAction where
  | adoptRunning
  | resumeOrRetryHibernate
  | finishPublishedGeneration
  | finishPendingGeneration
  | keepParked
  | retryRestore
  | verifyCandidate
  | rollbackToParked
  | quarantine
  | operatorRequired
  deriving DecidableEq

def classifyHibernationRecovery (record : Record)
    (sentryAlive candidateAlive completeManifest : Bool) : HibernationRecoveryAction :=
  match record.state with
  | .recoveryRequired => .operatorRequired
  | .running => if sentryAlive then .adoptRunning else .quarantine
  | .hibernating =>
    if record.authority = .live && sentryAlive then
      if completeManifest then .finishPublishedGeneration else .resumeOrRetryHibernate
    else .finishPendingGeneration
  | .parked => if completeManifest then .keepParked else .quarantine
  | .restoring =>
    if candidateAlive then .verifyCandidate
    else if completeManifest then
      if record.authority = .candidate then .rollbackToParked else .retryRestore
    else .quarantine

end UCloudSandboxes.Warden
