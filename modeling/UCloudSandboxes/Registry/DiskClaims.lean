import UCloudSandboxes.Registry.Entry

/-! The disk charges of the node registry: a fixed or a dynamic claim, lowered while its workspace
is published, and the reflink overlaps. Admissions are against their sum. -/
namespace UCloudSandboxes.Registry
open Machine Accounting

structure DiskSpec where
  parkable : Bool := false
  memoryMb : Option Nat := none
  diskMb : Option Nat := none
  memory_pos : memoryMb ≠ some 0 := by decide
  disk_pos : diskMb ≠ some 0 := by decide
  parkable_limits : parkable = true → memoryMb.isSome = true ∧ diskMb.isSome = true := by decide
  deriving DecidableEq

def allocatorChunkMb : Nat := 1024

def fixedOverheadMb : Nat := 64

/-- Parkable incarnations also reserve their memory backing in allocator chunks, a private
checkpoint and a fixed overhead. -/
def DiskSpec.requestedDiskMb (spec : DiskSpec) : Result Nat :=
  if !spec.parkable then .ok (spec.diskMb.getD 0)
  else match spec.memoryMb, spec.diskMb with
    | some memory, some disk =>
      if 0 < memory && 0 < disk then
        .ok (disk + (memory / allocatorChunkMb + 1) * allocatorChunkMb + memory + fixedOverheadMb)
      else if memory = 0 then .error (.invalid "memory_mb must be positive")
      else .error (.invalid "writable_disk_mb must be positive")
    | _, _ => .error (.invalid "parkable sandbox resources require memory_mb and disk_mb")

structure DiskClaim where
  workspaceMb : Nat
  memoryMb : Nat
  deriving DecidableEq

def DiskClaim.totalMb (claim : DiskClaim) : Nat := claim.workspaceMb + claim.memoryMb

def DiskClaim.updated (old : DiskClaim) (workspaceMb memoryMb : Option Nat) : DiskClaim :=
  ⟨workspaceMb.getD old.workspaceMb,memoryMb.getD old.memoryMb⟩

/-- What a new claim adds to the charge; a published workspace is not charged. -/
def DiskClaim.deltaMb (new old : DiskClaim) (published : Bool) : Int :=
  ((new.memoryMb : Int) - old.memoryMb) +
    if published then 0 else (new.workspaceMb : Int) - old.workspaceMb

structure RegistrationDisk where
  sandboxGeneration : Nat
  reservedMb : Nat
  workspaceMb : Nat := 0
  memoryMb : Nat := 0
  dynamic : Bool := false
  deriving DecidableEq

namespace RegistrationDisk

variable (row : RegistrationDisk)

def claim : DiskClaim := ⟨row.workspaceMb,row.memoryMb⟩

def setDynamicClaim (claim : DiskClaim) : RegistrationDisk :=
  { row with
    reservedMb := 0
    workspaceMb := claim.workspaceMb
    memoryMb := claim.memoryMb
    dynamic := true }

/-- `ROW_CLAIM_MB`: a fixed row less its published workspace; a dynamic row without it while
published. -/
def claimMb (releasedMb : Nat) : Int :=
  row.reservedMb + row.memoryMb +
    if 0 < releasedMb then (if row.dynamic then 0 else -(releasedMb : Int)) else row.workspaceMb

end RegistrationDisk

/-- `write_disk_claim`: refresh a fixed claim; dynamic rows keep theirs. -/
def writeDiskClaim (disk : Option RegistrationDisk) (sandboxGeneration reservedMb : Nat) :
    RegistrationDisk :=
  match disk with
  | none => { sandboxGeneration, reservedMb }
  | some row => if row.dynamic then row else { row with sandboxGeneration, reservedMb }

/-- One sandbox id with its disk claim. Spec, backing and quota are the registration's. -/
structure DiskEntry where
  entry : Entry
  spec : DiskSpec := {}
  splitMemoryBacking : Bool := false
  quotaTotalMb : Option Nat := none
  disk : Option RegistrationDisk := none
  deriving DecidableEq

namespace DiskEntry

variable (e : DiskEntry) (row : RegistrationDisk)

def releasedMb : Nat :=
  (e.entry.mountEpoch row.sandboxGeneration).2

def claimMb : Int := e.disk.elim 0 fun row => row.claimMb (e.releasedMb row)

def quotaValid (quotaTotalMb : Option Nat) (phase : Phase) : Result Unit :=
  if quotaTotalMb.any (· < 1) then .error (.invalid "direct registration quota bounds are invalid")
  else match phase with
    | .planned | .importPlanned =>
      if quotaTotalMb.isSome then .error (.invalid "planned direct registration owns external state")
      else .ok ()
    | .quotaReady | .importing =>
      if quotaTotalMb.isNone then .error (.invalid "quota-ready direct registration is inconsistent")
      else .ok ()
    | .rootfsReady | .importReady | .owned | .movingOut =>
      if quotaTotalMb.isNone then .error (.invalid "direct registration is missing owned resources")
      else .ok ()
    | .deleting => .ok ()

def reservedMb (spec : DiskSpec) (quotaTotalMb : Option Nat) : Result Nat :=
  quotaTotalMb.elim spec.requestedDiskMb .ok

/-- `adopt_dynamic_claim`: a fixed claim becomes the workspace ceiling plus the rest as memory. -/
def adoptDynamicClaim : Option RegistrationDisk :=
  match e.entry.rows.registration, e.splitMemoryBacking, e.spec.diskMb with
  | some _, true, some diskMb =>
    some (row.setDynamicClaim ⟨diskMb,row.reservedMb - diskMb⟩)
  | _, _, _ => none

/-- The row an update starts from: a dynamic one as it is, a fixed one once adopted. -/
def dynamicRow (adopt : Bool) : Option RegistrationDisk :=
  if row.dynamic then some row else if adopt then e.adoptDynamicClaim row else none

/-- The workspace row beside a new claim: a published workspace stays released at the new grant. -/
def rereleased (published : Bool) (workspaceMb : Nat) : Option WorkspaceCapacity :=
  if published then e.entry.workspaceCapacity.map ({ · with releasedMb := max workspaceMb 1 })
  else e.entry.workspaceCapacity

end DiskEntry

def Transition.setsQuota : Transition → Bool
  | .commitQuota _ | .commitImportQuota _ => true
  | .commitRootfs _ quota => quota
  | _ => false

structure OverlapId where
  sandboxId : String
  sandboxGeneration : Nat
  hibernationGeneration : Nat
  deriving DecidableEq

def OverlapId.valid (id : OverlapId) (manifestSha256 : String) : Bool :=
  id.sandboxId ≠ "" && id.sandboxGeneration ≠ 0 && id.hibernationGeneration ≠ 0 &&
    isDigest manifestSha256

structure ReflinkOverlap where
  allocatedBytes : Nat
  manifestSha256 : String
  deriving DecidableEq

def mib (mb : Int) : Int := mb * 1048576

structure DiskRegistry where
  entries : AList fun _ : String => DiskEntry := ∅
  overlaps : AList fun _ : OverlapId => ReflinkOverlap := ∅

namespace DiskRegistry

def entry (r : DiskRegistry) (sandboxId : String) : DiskEntry :=
  (r.entries.lookup sandboxId).getD { entry := { sandboxId } }

variable (r : DiskRegistry) (capacityMb : Nat) (sandboxId : String) (candidate : Registration)
  (sandboxGeneration : Nat)

def set (e : DiskEntry) : DiskRegistry :=
  { r with entries := r.entries.insert sandboxId e }

def claimsMb : Int := (r.entries.entries.map fun e => e.2.claimMb).sum

/-- `reserved_disk_bytes`: every claim plus reflink overlaps. Negative fixed rows are summed
unclamped. -/
def reservedDiskBytes : Int :=
  mib r.claimsMb + (tableSum ReflinkOverlap.allocatedBytes r.overlaps : Nat)

def exhausted (bytes : Int) : Bool :=
  mib capacityMb < r.reservedDiskBytes + bytes

section
variable (spec : DiskSpec) (splitMemoryBacking : Bool) (initialClaim : Option DiskClaim)

/-- Register a candidate with its claim; an exact replay writes nothing. -/
def planCandidate : Result DiskRegistry :=
  match spec.requestedDiskMb with
  | .error error => .error error
  | .ok requestedMb =>
    let e := r.entry sandboxId
    let claimMb := (initialClaim.map DiskClaim.totalMb).getD requestedMb
    let full := capacityMb ≠ 0 && r.exhausted capacityMb (mib claimMb)
    match e.entry.planCandidate { candidate with memoryMb := spec.memoryMb } full with
    | .error error => .error error
    | .ok entry =>
      if e.entry.rows.registration.isSome then .ok r
      else
        let fixed := writeDiskClaim e.disk candidate.sandboxGeneration requestedMb
        .ok (r.set sandboxId {
          entry
          spec
          splitMemoryBacking
          disk := some (initialClaim.elim fixed fixed.setDynamicClaim) })

def plan : Result DiskRegistry :=
  if initialClaim.isSome && !splitMemoryBacking then
    .error (.invalid "dynamic disk claims require split memory backing")
  else r.planCandidate capacityMb sandboxId candidate.asPlanned spec splitMemoryBacking initialClaim

end

def planImport (migration : Migration) (spec : DiskSpec) (splitMemoryBacking : Bool) :
    Result DiskRegistry :=
  r.planCandidate capacityMb sandboxId (candidate.asImport migration) spec splitMemoryBacking none

/-- A transition writes the record back with its fixed claim. Some transitions set a quota. -/
def move (transition : Transition) (quotaTotalMb : Nat) : Result DiskRegistry :=
  let e := r.entry sandboxId
  let quota := if transition.setsQuota then some quotaTotalMb else e.quotaTotalMb
  match e.entry.moved (transition.apply e.entry.rows) with
  | .error error => .error error
  | .ok entry =>
    match entry.rows.registration with
    | none => .error SandboxRows.absentRegistration
    | some record =>
      match DiskEntry.quotaValid quota record.phase, DiskEntry.reservedMb e.spec quota with
      | .error error, _ | _, .error error => .error error
      | .ok (), .ok reservedMb => .ok (r.set sandboxId { e with
          entry
          quotaTotalMb := quota
          disk := some (writeDiskClaim e.disk record.sandboxGeneration reservedMb) })

def abortImportPlanned (revision : Nat) (migration : Migration) (retire : Bool)
    : Result DiskRegistry :=
  let e := r.entry sandboxId
  (e.entry.moved (e.entry.rows.abortImportPlanned revision migration retire)).map fun entry =>
    r.set sandboxId { e with entry, disk := none }

def commitDeleted (sandboxGeneration revision : Nat) : Result DiskRegistry :=
  let e := r.entry sandboxId
  let overlap := r.overlaps.keys.any fun id =>
    id.sandboxId = sandboxId && id.sandboxGeneration = sandboxGeneration
  (e.entry.commitDeleted sandboxGeneration revision overlap).map fun entry =>
    r.set sandboxId { e with entry, disk := none }

/-- Move a dynamic claim; a fixed one only once `adopt` converts it. `requireCapacity` admits an
increase; without it the update records bytes that exist and always succeeds. -/
def updateDiskClaim (workspaceMb memoryMb : Option Nat) (requireCapacity adopt : Bool) :
    Result (DiskRegistry × Option DiskClaim) :=
  let e := r.entry sandboxId
  match e.disk.filter (·.sandboxGeneration = sandboxGeneration) with
  | none => .error (.conflict "disk claim lost incarnation ownership")
  | some row =>
    match e.dynamicRow row adopt with
    | none => .ok (r, none)
    | some adopted =>
      let old := adopted.claim
      let new := old.updated workspaceMb memoryMb
      let r := r.set sandboxId { e with disk := some adopted }
      if new = old then .ok (r, some new)
      else
        let published : Bool := 0 < e.releasedMb row
        let deltaMb := new.deltaMb old published
        if requireCapacity && 0 < deltaMb &&
            (capacityMb = 0 || r.exhausted capacityMb (mib deltaMb)) then
          .error (.capacityUnavailable "physical disk capacity exhausted")
        else
          .ok (r.set sandboxId { e with
            entry := { e.entry with workspaceCapacity := e.rereleased published new.workspaceMb }
            disk := some { adopted with
              workspaceMb := new.workspaceMb
              memoryMb := new.memoryMb } }, some new)

/-- A dynamic claim releases the grant it holds, a fixed one the size it is told. -/
def releasePublishedWorkspace (sandboxGeneration workspaceMb expectedMountEpoch : Nat) :
    Result (DiskRegistry × Bool) :=
  let e := r.entry sandboxId
  let granted := (e.disk.filter (·.dynamic)).map (·.workspaceMb)
  (e.entry.releasePublishedWorkspace sandboxGeneration workspaceMb expectedMountEpoch granted).map
    fun (entry, released) => (r.set sandboxId { e with entry }, released)

def reserveWorkspaceForMount : Result DiskRegistry :=
  let e := r.entry sandboxId
  let released := (e.entry.mountEpoch sandboxGeneration).2
  let full := capacityMb ≠ 0 && r.exhausted capacityMb (mib released)
  (e.entry.reserveWorkspaceForMount sandboxGeneration full).map fun entry =>
    r.set sandboxId { e with entry }

def reserveReflinkOverlap (id : OverlapId) (allocatedBytes : Nat) (manifestSha256 : String)
    : Result DiskRegistry :=
  if !id.valid manifestSha256 then .error (.invalid "invalid reflink overlap identity")
  else match (r.entry id.sandboxId).entry.rows.registration with
    | none => .error SandboxRows.absentRegistration
    | some record =>
      if record.sandboxGeneration ≠ id.sandboxGeneration || record.phase ≠ .owned then
        .error (.conflict "reflink overlap lost incarnation ownership")
      else match r.overlaps.lookup id with
        | some existing =>
          if existing = ⟨allocatedBytes,manifestSha256⟩ then .ok r
          else .error (.conflict "reflink overlap source changed")
        | none =>
          if capacityMb = 0 || r.exhausted capacityMb allocatedBytes then
            .error (.capacityUnavailable "reflink overlap physical disk capacity exhausted")
          else .ok { r with overlaps := r.overlaps.insert id ⟨allocatedBytes,manifestSha256⟩ }

def releaseReflinkOverlap (id : OverlapId) (manifestSha256 : String) :
    Result DiskRegistry :=
  if !id.valid manifestSha256 then .error (.invalid "invalid reflink overlap identity")
  else match r.overlaps.lookup id with
    | none => .ok r
    | some existing =>
      if existing.manifestSha256 ≠ manifestSha256 then
        .error (.conflict "reflink overlap release lost source ownership")
      else .ok { r with overlaps := r.overlaps.erase id }

end DiskRegistry

inductive DiskOperation where
  | plan (candidate : Registration) (spec : DiskSpec) (splitMemoryBacking : Bool)
      (initialClaim : Option DiskClaim)
  | planImport (candidate : Registration) (migration : Migration) (spec : DiskSpec)
      (splitMemoryBacking : Bool)
  | move (transition : Transition) (quotaTotalMb : Nat)
  | abortImportPlanned (revision : Nat) (migration : Migration) (retire : Bool)
  | commitDeleted (sandboxGeneration revision : Nat)
  | updateDiskClaim (sandboxGeneration : Nat) (workspaceMb memoryMb : Option Nat)
      (requireCapacity adopt : Bool)
  | releasePublishedWorkspace (sandboxGeneration workspaceMb expectedMountEpoch : Nat)
  | reserveWorkspaceForMount (sandboxGeneration : Nat)
  | reserveReflinkOverlap (sandboxGeneration hibernationGeneration allocatedBytes : Nat)
      (manifestSha256 : String)
  | releaseReflinkOverlap (sandboxGeneration hibernationGeneration : Nat) (manifestSha256 : String)
  | bindRuntimeCompatibility (expectedSha256 : String) (othersAgree : Bool)
  | growthIntent (step : GrowthStep)
  | relayWakeFence (generation : Nat) (requestId : String) (record : Bool)
  deriving DecidableEq

namespace DiskRegistry

variable (r : DiskRegistry)

def keepBooks (sandboxId : String) (operation : Operation) : Result DiskRegistry :=
  let e := r.entry sandboxId
  (e.entry.apply operation).map fun entry => r.set sandboxId { e with entry }

def apply (capacityMb : Nat) (sandboxId : String) :
    DiskOperation → Result DiskRegistry
  | .plan candidate spec splitMemoryBacking initialClaim =>
    r.plan capacityMb sandboxId candidate spec splitMemoryBacking initialClaim
  | .planImport candidate migration spec splitMemoryBacking =>
    r.planImport capacityMb sandboxId candidate migration spec splitMemoryBacking
  | .move transition quotaTotalMb => r.move sandboxId transition quotaTotalMb
  | .abortImportPlanned revision migration retire =>
    r.abortImportPlanned sandboxId revision migration retire
  | .commitDeleted sandboxGeneration revision => r.commitDeleted sandboxId sandboxGeneration revision
  | .updateDiskClaim sandboxGeneration workspaceMb memoryMb requireCapacity adopt =>
    (r.updateDiskClaim capacityMb sandboxId sandboxGeneration workspaceMb memoryMb requireCapacity
      adopt).map (·.1)
  | .releasePublishedWorkspace sandboxGeneration workspaceMb expectedMountEpoch =>
    (r.releasePublishedWorkspace sandboxId sandboxGeneration workspaceMb expectedMountEpoch).map (·.1)
  | .reserveWorkspaceForMount sandboxGeneration =>
    r.reserveWorkspaceForMount capacityMb sandboxId sandboxGeneration
  | .reserveReflinkOverlap sandboxGeneration hibernationGeneration allocatedBytes manifestSha256 =>
    r.reserveReflinkOverlap capacityMb ⟨sandboxId,sandboxGeneration,hibernationGeneration⟩
      allocatedBytes manifestSha256
  | .releaseReflinkOverlap sandboxGeneration hibernationGeneration manifestSha256 =>
    r.releaseReflinkOverlap ⟨sandboxId,sandboxGeneration,hibernationGeneration⟩ manifestSha256
  | .bindRuntimeCompatibility expectedSha256 othersAgree =>
    r.keepBooks sandboxId (.bindRuntimeCompatibility expectedSha256 othersAgree)
  | .growthIntent step => r.keepBooks sandboxId (.growthIntent step)
  | .relayWakeFence generation requestId record =>
    r.keepBooks sandboxId (.relayWakeFence generation requestId record)

def step (capacityMb : Nat) (r : DiskRegistry) (call : String × DiskOperation) :
    Option DiskRegistry :=
  (r.apply capacityMb call.1 call.2).toOption

def Start : Prop := r = {}

end DiskRegistry
end UCloudSandboxes.Registry
