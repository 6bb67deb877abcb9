import UCloudSandboxes.Gateway.Heartbeats

namespace UCloudSandboxes.Gateway
open Machine

structure StoredHeartbeat where
  record : HeartbeatRecord
  labels : List (String × String)
  deriving DecidableEq

/-- The transactions on the record. `labels` is what the label merge of the caller comes to. -/
inductive HeartbeatWrite where
  | receiveHeartbeat (h : NodeHeartbeat) (labels : List (String × String)) (receivedAt : Nat)
  | setLabels (labels : List (String × String))
  | recoverQuarantinedNode (h : NodeHeartbeat) (labels : List (String × String)) (receivedAt : Nat)
  | removeHeartbeats

/-- `recover_quarantined_node`: a verified sample of the stored boot, unless a newer one intervened. -/
def StoredHeartbeat.recover (current : StoredHeartbeat) (h : NodeHeartbeat)
    (labels : List (String × String)) (receivedAt : Nat) : StoredHeartbeat :=
  if current.record.nodeEpoch ≠ h.nodeEpoch ∨ h.activityEpoch < current.record.activityEpoch ∨
      receivedAt < current.record.receivedAt then current
  else ⟨⟨receivedAt,h.nodeEpoch,h.activityEpoch,current.record.retiredNodeEpochs⟩,labels⟩

namespace HeartbeatWrite

variable (stored : Option StoredHeartbeat)

def step : HeartbeatWrite → Option (Option StoredHeartbeat)
  | .receiveHeartbeat h labels receivedAt =>
    some (match Gateway.receiveHeartbeat (stored.map (·.record)) h receivedAt with
      | none => stored
      | some r => some ⟨r,labels⟩)
  | .setLabels labels => some (stored.map ({ · with labels }))
  | .recoverQuarantinedNode h labels receivedAt =>
    some (stored.map (·.recover h labels receivedAt))
  | .removeHeartbeats => some none

def keeps : HeartbeatWrite → Prop
  | .removeHeartbeats => stored = none
  | _ => True

variable {boot : String} {activity : Nat} {a b : StoredHeartbeat} {stored : Option StoredHeartbeat}

theorem past_recover (hp : Past boot activity a.record) (h : NodeHeartbeat) (labels receivedAt) :
    Past boot activity (a.recover h labels receivedAt).record := by
  unfold StoredHeartbeat.recover
  split
  · exact hp
  rename_i hcur
  simp only [not_or,not_not,Nat.not_lt] at hcur
  rcases hp with ⟨hboot,hle⟩ | ⟨hboot,hleft⟩
  · exact .inl ⟨hcur.1.symm.trans hboot,Nat.le_trans hle hcur.2.1⟩
  · exact .inr ⟨fun he => hboot (hcur.1.trans he),hleft⟩

theorem past_of_reaches (hp : Past boot activity a.record)
    (h : Reaches step keeps (· = some a) stored) :
    ∃ b, stored = some b ∧ Past boot activity b.record := by
  refine h.invariant (I := fun stored => ∃ b, stored = some b ∧ Past boot activity b.record) ?_ ?_
  · rintro - rfl
    exact ⟨a,rfl,hp⟩
  rintro - e stored' ⟨b,rfl,hb⟩ hok hs
  cases e with
  | receiveHeartbeat h labels receivedAt =>
    cases hr : Gateway.receiveHeartbeat (some b.record) h receivedAt with
    | none => exact ⟨b,by simpa [step,hr] using hs.symm,hb⟩
    | some r => exact ⟨⟨r,labels⟩,by simpa [step,hr] using hs.symm,hb.receive hr⟩
  | setLabels => exact ⟨_,(Option.some.inj hs).symm,hb⟩
  | recoverQuarantinedNode h labels receivedAt =>
    exact ⟨_,(Option.some.inj hs).symm,past_recover hb h labels receivedAt⟩
  | removeHeartbeats => cases hok

/-- While no stored heartbeat is removed, a boot's activity does not drop, and a boot that was left
is never accepted again. -/
theorem replaced_boot_never_returns (h : Reaches step keeps (· = some a) (some b)) :
    (b.record.nodeEpoch = a.record.nodeEpoch → a.record.activityEpoch ≤ b.record.activityEpoch) ∧
    (b.record.nodeEpoch ≠ a.record.nodeEpoch → ∀ later, Reaches step keeps (· = some b) later →
      ∀ sample receivedAt, sample.nodeEpoch = a.record.nodeEpoch →
        Gateway.receiveHeartbeat (later.map (·.record)) sample receivedAt = none) := by
  obtain ⟨_,⟨⟩,hb⟩ := past_of_reaches (.inl ⟨rfl,Nat.le_refl a.record.activityEpoch⟩) h
  refine ⟨fun he => ?_,fun hne later hl sample receivedAt hs => ?_⟩
  · exact hb.elim (·.2) fun hleft => absurd he hleft.1
  · -- the boot was left, so whatever its activity
    have hleft : Past a.record.nodeEpoch (sample.activityEpoch + 1) b.record :=
      .inr (hb.resolve_left fun hsame => hne hsame.1)
    obtain ⟨c,rfl,hc⟩ := past_of_reaches hleft hl
    exact hc.refuses hs (fun _ => Nat.lt_succ_self _) receivedAt

def sample (nodeEpoch : String) : NodeHeartbeat := ⟨nodeEpoch,7,[],true,false,false⟩

def first : StoredHeartbeat := ⟨⟨1,"first",7,[]⟩,[]⟩

def second : StoredHeartbeat := ⟨⟨2,"second",7,["first"]⟩,[]⟩

theorem replaced_boot_never_returns_second :
    Gateway.receiveHeartbeat (some second.record) (sample "first") 3 = none :=
  (replaced_boot_never_returns (a := first) (b := second)
    (.step (.start rfl) (e := .receiveHeartbeat (sample "second") [] 2) trivial (by decide +kernel))).2
    (by decide) _ (.start rfl) (sample "first") 3 rfl

/-- Removing the stored heartbeat forgets which boots were left. -/
theorem removed_boot_returns : Reaches step anyEvent (· = none) (some first) ∧
    Reaches step anyEvent (· = some first) (some second) ∧
    Reaches step anyEvent (· = some second) none ∧
    Gateway.receiveHeartbeat none (sample "first") 3 = some ⟨3,"first",7,[]⟩ :=
  ⟨.step (.start rfl) (e := .receiveHeartbeat (sample "first") [] 1) trivial (by decide +kernel),
    .step (.start rfl) (e := .receiveHeartbeat (sample "second") [] 2) trivial (by decide +kernel),
    .step (.start rfl) (e := .removeHeartbeats) trivial rfl,rfl⟩

end HeartbeatWrite
end UCloudSandboxes.Gateway
