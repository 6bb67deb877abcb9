import UCloudSandboxes.Gateway.Delete
import UCloudSandboxes.Routing.Updates

/-! Heartbeats of one worker boot, delivered late, repeatedly and in any order, against the commit
that routes a migrated sandbox to that worker. -/
namespace UCloudSandboxes.Gateway
open Machine Routing Example Option
open Routing.Example (snapshot)

/-- What a worker reports. `beforeImport` is history: sampled before the worker held the imported
incarnation. -/
structure NodeHeartbeat where
  nodeEpoch : String
  activityEpoch : Nat
  inventory : List SandboxInventoryEntry
  inventoryComplete : Bool
  quarantined : Bool := false
  beforeImport : Bool := false

/-- The gateway's stored heartbeat of a job: the columns its receipt checks read. -/
structure HeartbeatRecord where
  receivedAt : Nat
  nodeEpoch : String
  activityEpoch : Nat
  retiredNodeEpochs : List String
  deriving DecidableEq

/-- `receive_heartbeat`: `none` if not accepted. Activity compares within one boot; a boot that was
left never returns. -/
def receiveHeartbeat (previous : Option HeartbeatRecord) (h : NodeHeartbeat) (receivedAt : Nat) :
    Option HeartbeatRecord :=
  match previous with
  | none => some ⟨receivedAt,h.nodeEpoch,h.activityEpoch,[]⟩
  | some p =>
    if receivedAt < p.receivedAt then none
    else if h.nodeEpoch ≠ p.nodeEpoch then
      if h.nodeEpoch = "" || p.retiredNodeEpochs.contains h.nodeEpoch then none
      else
        let retired := if p.nodeEpoch ≠ "" then p.nodeEpoch :: p.retiredNodeEpochs
          else p.retiredNodeEpochs
        some ⟨receivedAt,h.nodeEpoch,h.activityEpoch,retired⟩
    else if h.activityEpoch < p.activityEpoch then none
    else some ⟨receivedAt,h.nodeEpoch,h.activityEpoch,p.retiredNodeEpochs⟩

def SandboxInventoryEntry.withoutSnapshot (item : SandboxInventoryEntry) : SandboxInventoryEntry :=
  { item with
    storageSchema := "", snapshotManifestDigest := "", snapshotRepository := "", snapshotTag := ""
    storageSnapshot := .empty, complete := complete_empty }

/-- An entry keeps a descriptor that validates and whose reference the registry can hold. -/
def reconciledEntry (store : Store) (referenced : String → Bool) (item : SandboxInventoryEntry) :
    Except Raised SandboxInventoryEntry :=
  if item.storageSnapshot.isEmpty then .ok item
  else match store.getSandbox item.sandboxId with
    | none => .ok (SandboxInventoryEntry.withoutSnapshot item)
    | some route =>
      match routeWithInventorySnapshot route item with
      | .ok _ =>
        .ok (if referenced item.sandboxId then item else SandboxInventoryEntry.withoutSnapshot item)
      | .error (.valueError _) => .ok (SandboxInventoryEntry.withoutSnapshot item)
      | .error e => .error e

section
variable (node : NodeIdentity) (store : Store) (r : HeartbeatRecord) (h : NodeHeartbeat)

/-- `_apply` settles the boots the worker left. -/
def retireHeartbeat : Store :=
  if r.retiredNodeEpochs.isEmpty then store
  else store.exec (.retireNodeEpochs
    { jobId := node.jobId, retiredNodeEpochs := r.retiredNodeEpochs, nodeEpoch := h.nodeEpoch
      activityEpoch := h.activityEpoch
      inventory := if h.inventoryComplete then some h.inventory else none
      observedAt := some r.receivedAt })

/-- Then it reconciles a complete inventory. -/
def reconcileHeartbeat (referenced : String → Bool) : Store :=
  if !h.inventoryComplete || h.quarantined then store
  else match h.inventory.mapM (reconciledEntry store referenced) with
    | .error _ => store
    | .ok inventory => store.exec (.reconcile
        { node, observedAt := some r.receivedAt, nodeEpoch := h.nodeEpoch
          activityEpoch := h.activityEpoch, observations := inventory })

end

structure Destination where
  node : NodeIdentity
  nodeEpoch : String
  versioned : nodeEpoch ≠ ""

/-- The gateway, the destination worker and the heartbeats it has sent. `pending` are those the
gateway accepted and still applies; `imported` is the activity epoch of the import; `routed` says
that the commit has happened. -/
structure Handover where
  store : Store
  record : Option HeartbeatRecord := none
  activityEpoch : Nat := 0
  inventory : List SandboxInventoryEntry := []
  imported : Option Nat := none
  sent : List NodeHeartbeat := []
  pending : List (HeartbeatRecord × NodeHeartbeat) := []
  routed : Bool := false

inductive HandoverEvent where
  | transact (e : StoreEvent)
  | mutate (inventory : List SandboxInventoryEntry)
  | importSandbox (entry : SandboxInventoryEntry)
  | sample (inventoryComplete quarantined : Bool)
  | deliver (index receivedAt : Nat)
  | deliverOther (h : NodeHeartbeat) (receivedAt : Nat)
  | retire (index : Nat)
  | reconcile (index : Nat) (referenced : Option (String → Bool))  -- `none`: it raised before

def isRouteCommit (id : String) : StoreEvent → Bool
  | .transact key (.routeSandboxMigration _ _) => key = id
  | _ => false

def attachedTo (node : NodeIdentity) (route : Option SandboxRoute) : Bool :=
  route.any fun r => r.node = node && r.workerState = .attached

namespace Handover

variable (d : Destination) (s : Handover)

def receive (h : NodeHeartbeat) (receivedAt : Nat) : Handover :=
  match receiveHeartbeat s.record h receivedAt with
  | none => s
  | some r => { s with record := some r, pending := (r,h) :: s.pending }

def step (id : String) (s : Handover) : HandoverEvent → Option Handover
  | .transact e =>
    let store := s.store.exec e
    some { s with
      store
      routed := s.routed || (isRouteCommit id e && attachedTo d.node (store.getSandbox id)) }
  | .mutate inventory => some { s with activityEpoch := s.activityEpoch + 1, inventory }
  | .importSandbox entry =>
    if entry.sandboxId = id && s.imported = none then
      some { s with
        activityEpoch := s.activityEpoch + 1
        inventory := entry :: s.inventory
        imported := some (s.activityEpoch + 1) }
    else none
  | .sample inventoryComplete quarantined =>
    some { s with
      sent := ⟨d.nodeEpoch,s.activityEpoch,s.inventory,inventoryComplete,quarantined,
        s.imported.isNone⟩ :: s.sent }
  | .deliver index receivedAt => s.sent[index]?.map (s.receive · receivedAt)
  | .deliverOther h receivedAt =>
    if h.nodeEpoch ≠ d.nodeEpoch then some (s.receive h receivedAt) else none
  | .retire index => s.pending[index]?.map fun (r,h) =>
    { s with store := retireHeartbeat d.node s.store r h }
  | .reconcile index referenced => s.pending[index]?.map fun (r,h) =>
    { s with
      store := referenced.elim s.store (reconcileHeartbeat d.node s.store r h)
      pending := s.pending.eraseIdx index }

def Start : Prop := s.imported = none ∧ s.sent = [] ∧ s.routed = false ∧ s.pending = []

def confirmed : Bool :=
  match s.imported, s.record with
  | some a, some r => r.nodeEpoch = d.nodeEpoch && a ≤ r.activityEpoch
  | _, _ => false

/-- No sample of this boot from before the import is still to be applied. -/
def applied : Bool := s.pending.all fun p => p.2.nodeEpoch ≠ d.nodeEpoch || !p.2.beforeImport

def fits (id : String) (s : Handover) (e : HandoverEvent) : Prop :=
  (match e with
    | .transact t => !isRouteCommit id t || s.confirmed d && s.applied d
    | _ => true) = true

instance (d : Destination) (id : String) (s : Handover) (e : HandoverEvent) :
    Decidable (fits d id s e) := inferInstanceAs (Decidable (_ = true))

end Handover
open Handover

/-- The record fences this boot's samples from before the import, or the boot was left. -/
def Fences (boot : String) (imported : Nat) (r : HeartbeatRecord) : Prop :=
  r.nodeEpoch = boot ∧ imported ≤ r.activityEpoch ∨ r.nodeEpoch ≠ boot ∧ boot ∈ r.retiredNodeEpochs

theorem receiveHeartbeat_some {p r h receivedAt}
    (hr : receiveHeartbeat (some p) h receivedAt = some r) :
    r.nodeEpoch = h.nodeEpoch ∧ r.activityEpoch = h.activityEpoch ∧
    (h.nodeEpoch = p.nodeEpoch ∧ p.activityEpoch ≤ h.activityEpoch ∧
        r.retiredNodeEpochs = p.retiredNodeEpochs ∨
      h.nodeEpoch ≠ p.nodeEpoch ∧ h.nodeEpoch ≠ "" ∧ h.nodeEpoch ∉ p.retiredNodeEpochs ∧
        (∀ e ∈ p.retiredNodeEpochs, e ∈ r.retiredNodeEpochs) ∧
        (p.nodeEpoch ≠ "" → p.nodeEpoch ∈ r.retiredNodeEpochs)) := by
  obtain ⟨-,hr⟩ := of_guard hr nofun
  split at hr
  · rename_i hne
    obtain ⟨hfresh,rfl⟩ := some_of_guard hr
    simp only [Bool.or_eq_true,decide_eq_true_eq,List.contains_iff_mem,not_or] at hfresh
    refine ⟨rfl,rfl,.inr ⟨hne,hfresh.1,hfresh.2,fun e he => ?_,fun hp => ?_⟩⟩
    · dsimp only
      split
      · exact .tail _ he
      · exact he
    · rw [if_pos hp]
      exact (.head _)
  · rename_i heq
    obtain ⟨hle,rfl⟩ := some_of_guard hr
    exact ⟨rfl,rfl,.inl ⟨not_not.mp heq,Nat.le_of_not_lt hle,rfl⟩⟩

section Past

variable {boot : String} {activity : Nat} {p r : HeartbeatRecord} {h : NodeHeartbeat} {receivedAt : Nat}

/-- The record is past a boot's samples from before this activity, or the unversioned boot was left. -/
def Past (boot : String) (activity : Nat) (r : HeartbeatRecord) : Prop :=
  r.nodeEpoch = boot ∧ activity ≤ r.activityEpoch ∨
    r.nodeEpoch ≠ boot ∧ (boot = "" ∨ boot ∈ r.retiredNodeEpochs)

theorem Fences.past (hf : Fences boot activity r) : Past boot activity r :=
  hf.imp_right fun hr => ⟨hr.1,.inr hr.2⟩

theorem Past.receive (hf : Past boot activity p)
    (hr : receiveHeartbeat (some p) h receivedAt = some r) : Past boot activity r := by
  obtain ⟨hepoch,hact,⟨hsame,hle,hret⟩ | ⟨hother,hne,hfresh,hkeep,hleft⟩⟩ :=
    receiveHeartbeat_some hr
  · rcases hf with ⟨hp,himp⟩ | ⟨hp,hmem⟩
    · exact .inl ⟨hepoch.trans (hsame.trans hp),hact ▸ Nat.le_trans himp hle⟩
    · exact .inr ⟨fun he => hp (hsame.symm.trans (hepoch.symm.trans he)),hret ▸ hmem⟩
  · refine .inr ?_
    rcases hf with ⟨rfl,-⟩ | ⟨-,rfl | hmem⟩
    · exact ⟨fun he => hother (hepoch.symm.trans he),or_iff_not_imp_left.mpr hleft⟩
    · exact ⟨fun he => hne (hepoch.symm.trans he),.inl rfl⟩
    · exact ⟨fun he => hfresh (hepoch.symm.trans he ▸ hmem),.inr (hkeep boot hmem)⟩

theorem Past.refuses (hf : Past boot activity p) (hepoch : h.nodeEpoch = boot)
    (hold : p.nodeEpoch = boot → h.activityEpoch < activity) (receivedAt) :
    receiveHeartbeat (some p) h receivedAt = none := by
  cases hr : receiveHeartbeat (some p) h receivedAt with
  | none => rfl
  | some =>
    obtain ⟨-,-,⟨hsame,hle,-⟩ | ⟨hother,hne,hfresh,-,-⟩⟩ := receiveHeartbeat_some hr
    · rcases hf with ⟨hp,himp⟩ | ⟨hp,-⟩
      · exact absurd (hold hp) (by omega)
      · exact absurd (hsame.symm.trans hepoch) hp
    · rcases hf with ⟨hp,-⟩ | ⟨-,hleft | hmem⟩
      · exact absurd (hepoch.trans hp.symm) hother
      · exact absurd (hepoch.trans hleft) hne
      · exact absurd (hepoch ▸ hmem) hfresh

theorem Fences.receive (hboot : boot ≠ "") (hf : Fences boot activity p)
    (hr : receiveHeartbeat (some p) h receivedAt = some r) : Fences boot activity r :=
  (hf.past.receive hr).imp_right fun hr => ⟨hr.1,hr.2.resolve_left hboot⟩

theorem Fences.refuses (hf : Fences boot activity p) (hepoch : h.nodeEpoch = boot)
    (hold : h.activityEpoch < activity) (receivedAt) : receiveHeartbeat (some p) h receivedAt = none :=
  hf.past.refuses hepoch (fun _ => hold) receivedAt

end Past

namespace Handover

variable {d : Destination} {id : String} {s s' : Handover}

structure Inv (d : Destination) (s : Handover) : Prop where
  boot : ∀ h ∈ s.sent, h.nodeEpoch = d.nodeEpoch
  current : ∀ h ∈ s.sent, h.activityEpoch ≤ s.activityEpoch
  before : ∀ h ∈ s.sent, h.beforeImport = true → ∀ a, s.imported = some a → h.activityEpoch < a
  fenced : s.routed = true → s.applied d = true ∧
    ∃ a r, s.imported = some a ∧ s.record = some r ∧ Fences d.nodeEpoch a r

theorem Inv.start (h : s.Start) : Inv d s where
  boot := by simp [h.2.1]
  current := by simp [h.2.1]
  before := by simp [h.2.1]
  fenced := by simp [h.2.2.1]

theorem Inv.refuses (hi : Inv d s) (hrouted : s.routed = true) {h} (hsent : h ∈ s.sent)
    (hbefore : h.beforeImport = true) (receivedAt) :
    receiveHeartbeat s.record h receivedAt = none := by
  obtain ⟨-,a,p,ha,hp,hf⟩ := hi.fenced hrouted
  rw [hp]
  exact hf.refuses (hi.boot h hsent) (hi.before h hsent hbefore a ha) receivedAt

theorem Inv.receive (hi : Inv d s) {h} (hh : h.nodeEpoch = d.nodeEpoch → h ∈ s.sent) (receivedAt) :
    Inv d (s.receive h receivedAt) := by
  unfold Handover.receive
  split
  · exact hi
  rename_i r hr
  refine ⟨hi.boot,hi.current,hi.before,fun hrouted => ?_⟩
  obtain ⟨happlied,a,p,ha,hp,hf⟩ := hi.fenced hrouted
  refine ⟨List.all_cons.trans (Bool.and_eq_true_iff.mpr ⟨?_,happlied⟩),a,r,ha,rfl,?_⟩
  · by_cases hb : h.nodeEpoch = d.nodeEpoch ∧ h.beforeImport = true
    · rw [hi.refuses hrouted (hh hb.1) hb.2] at hr
      cases hr
    · simpa [imp_iff_not_or] using hb
  · rw [hp] at hr
    exact hf.receive d.versioned hr

theorem Inv.step (hi : Inv d s) {e} (hok : fits d id s e) (hs : Handover.step d id s e = some s') :
    Inv d s' := by
  cases e with
  | transact t =>
    cases hs
    refine ⟨hi.boot,hi.current,hi.before,fun hrouted => ?_⟩
    by_cases hr : s.routed = true
    · exact hi.fenced hr
    have hcm : isRouteCommit id t = true := by
      simp only [hr,Bool.false_or,Bool.and_eq_true] at hrouted
      exact hrouted.1
    obtain ⟨hcon,happlied⟩ : s.confirmed d = true ∧ s.applied d = true := by
      simpa [fits,hcm] using hok
    unfold confirmed at hcon
    split at hcon
    · rename_i a r ha hr
      simp only [Bool.and_eq_true,decide_eq_true_eq] at hcon
      exact ⟨happlied,a,r,ha,hr,.inl hcon⟩
    · cases hcon
  | mutate =>
    cases hs
    exact ⟨hi.boot,fun h hh => Nat.le_succ_of_le (hi.current h hh),hi.before,hi.fenced⟩
  | importSandbox =>
    simp only [Handover.step,ite_none_right_eq_some,some.injEq,Bool.and_eq_true,
      decide_eq_true_eq] at hs
    obtain ⟨⟨-,hnone⟩,rfl⟩ := hs
    refine ⟨hi.boot,fun h hh => Nat.le_succ_of_le (hi.current h hh),?_,fun hrouted => ?_⟩
    · intro h hh _ a ha
      cases ha
      exact Nat.lt_succ_of_le (hi.current h hh)
    · obtain ⟨-,a,_,ha,_⟩ := hi.fenced hrouted
      rw [hnone] at ha
      cases ha
  | sample =>
    cases hs
    refine ⟨?_,?_,?_,hi.fenced⟩
    · exact List.forall_mem_cons.mpr ⟨rfl,hi.boot⟩
    · exact List.forall_mem_cons.mpr ⟨Nat.le_refl _,hi.current⟩
    · refine List.forall_mem_cons.mpr ⟨fun hbefore a ha => ?_,hi.before⟩
      rw [show s.imported = some a from ha] at hbefore
      cases hbefore
  | deliver _ receivedAt =>
    obtain ⟨h,hsent,rfl⟩ := map_eq_some_iff.mp hs
    exact hi.receive (fun _ => List.mem_of_getElem? hsent) receivedAt
  | deliverOther _ receivedAt =>
    obtain ⟨hne,rfl⟩ := some_of_check hs
    exact hi.receive (absurd · hne) receivedAt
  | retire =>
    obtain ⟨_,-,rfl⟩ := map_eq_some_iff.mp hs
    exact ⟨hi.boot,hi.current,hi.before,hi.fenced⟩
  | reconcile =>
    obtain ⟨_,-,rfl⟩ := map_eq_some_iff.mp hs
    refine ⟨hi.boot,hi.current,hi.before,fun hrouted => (hi.fenced hrouted).imp_left fun h => ?_⟩
    exact List.all_eq_true.mpr fun p hp => List.all_eq_true.mp h p (List.mem_of_mem_eraseIdx hp)

end Handover

/-- In every run that commits a route only after the gateway accepted a heartbeat sampled in this
boot while it held the import, and applied those from before it, no earlier sample, however late,
is accepted or applied after a committed move. -/
theorem old_inventory_keeps_route {d : Destination} {id : String} {s : Handover}
    (hs : Reaches (step d id) (fits d id) Start s)
    (hrouted : s.routed = true) : s.applied d = true ∧ ∀ index receivedAt h,
      s.sent[index]? = some h → h.beforeImport = true →
      step d id s (.deliver index receivedAt) = some s := by
  have hi : Inv d s :=
    hs.invariant (fun _ => Inv.start) fun _ _ _ hi => hi.step
  refine ⟨(hi.fenced hrouted).1,fun index receivedAt h hsent hbefore => ?_⟩
  simp only [step,hsent,map_some,receive,
    hi.refuses hrouted (List.mem_of_getElem? hsent) hbefore]

namespace Example

def destination : Destination := ⟨⟨"node-b","job-b","http://b"⟩,"boot-b",by decide⟩

def imported : SandboxInventoryEntry :=
  { sandboxId := "sandbox", incarnation := route.incarnation, state := .parked }

def prepare : List HandoverEvent :=
  [.transact (.upsertSandbox route true (some 1)),
    .transact (.transact "sandbox" (.beginSandboxMigration route "move" destination.node)),
    .transact (.transact "sandbox" (.advanceSandboxMigration "move" [.planned] .prepared
      { storageSchema := some snapshot.schema, snapshotSha256 := some snapshot.sha256,
        storageSnapshot := some (.descriptor snapshot), sourceFenced := some true })),
    .sample true false, .importSandbox imported]

def routeCommit : List HandoverEvent :=
  [.transact (.transact "sandbox" (.advanceSandboxMigration "move" [.prepared] .staged {})),
    .transact (.transact "sandbox" (.routeSandboxMigration "move" (some 5)))]

def reserveWake : List HandoverEvent :=
  [.transact (.transact "sandbox" (.advanceSandboxMigration "move" [.routed] .activated {})),
    .transact (.transact "sandbox" (.completeSandboxMigration "move" true (some 6)))]

def delivered (receivedAt : Nat) : List HandoverEvent :=
  [.deliver 0 receivedAt,.reconcile 0 (some fun _ => true)]

def confirm : List HandoverEvent := .sample true false :: delivered 4

def untouched : Handover := { store := Store.fresh }

theorem untouched_start : untouched.Start := ⟨rfl,rfl,rfl,rfl⟩

end Example

open Example

theorem old_inventory_keeps_route_confirmed :
    ∃ s, Reaches (step destination "sandbox")
        (fits destination "sandbox") Start s ∧ s.routed = true ∧
      step destination "sandbox" s (.deliver 1 9) = some s ∧
      attachedTo destination.node (s.store.getSandbox "sandbox") = true := by
  obtain ⟨s,hs,hrouted,⟨h,hsent,hbefore⟩,hatt⟩ := Reaches.exists_of_runMeeting
    (step destination "sandbox") (fits destination "sandbox") untouched_start
    (prepare ++ confirm ++ routeCommit) (fun s => s.routed = true ∧
      (∃ h ∈ s.sent[1]?, h.beforeImport = true) ∧
      attachedTo destination.node (s.store.getSandbox "sandbox") = true) (by decide +kernel)
  exact ⟨s,hs,hrouted,(old_inventory_keeps_route hs hrouted).2 1 9 h hsent hbefore,hatt⟩

/-- The first heartbeat after the commit was sampled before the import: it detaches the parked
route, and deletes one whose wake is reserved. -/
theorem old_inventory_takes_route :
    ((run (step destination "sandbox") untouched
        (prepare ++ routeCommit)).any (fun s => s.routed &&
          s.sent.all (·.beforeImport) &&
          attachedTo destination.node (s.store.getSandbox "sandbox"))) = true ∧
    ((run (step destination "sandbox") untouched
        (prepare ++ routeCommit ++ delivered 9)).any fun s =>
          (s.store.getSandbox "sandbox").any (·.workerState = .detached)) = true ∧
    ((run (step destination "sandbox") untouched
        (prepare ++ routeCommit ++ reserveWake ++ delivered 9)).any fun s =>
          s.store.getSandbox "sandbox" = none) = true := by
  refine ⟨?_,?_,?_⟩ <;> decide +kernel

end UCloudSandboxes.Gateway
