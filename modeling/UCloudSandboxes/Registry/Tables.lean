import Mathlib.Data.List.AList
import UCloudSandboxes.Machine.Keyed
import UCloudSandboxes.Registry.Registration

/-! The registry file and the owner's index of it. A stored row is the record's exact encoding,
which determines the index row. -/
namespace UCloudSandboxes.Registry
open Machine List

/-- What the store needs to know of registrations, and the tables it writes for a body without
reading them. -/
structure Schema where
  Registration : Type
  Others : Type
  registrationEq : DecidableEq Registration
  sandboxId : Registration → String
  imageId : Registration → String
  revision : Registration → Nat
  encode : Registration → String
  fromDict : String → Result Registration
  /-- The fixed claim of a record in MiB, if it has a valid one. -/
  reservedMb : Registration → Result Int
  writeDiskClaim : Registration → Int → Others → Others
  deleteDiskClaim : String → Others → Others

attribute [instance] Schema.registrationEq

variable {σ : Schema}

/-- `Registration::decode`: the columns and the canonical text must agree with the record. -/
def Schema.decode (σ : Schema) (sandboxId imageId encoded : String) :
    Result σ.Registration := do
  let record ← σ.fromDict encoded
  if σ.sandboxId record = sandboxId ∧ σ.imageId record = imageId ∧ σ.encode record = encoded then
    .ok record
  else .error (.registry "direct registration encoding is invalid")

structure Stored where
  imageId : String
  recordJson : String
  deriving DecidableEq

structure Tables (σ : Schema) where
  registrations : AList fun _ : String => Stored
  activityRevision : Nat
  others : σ.Others

/-- A row of the index under its sandbox id: a record and the columns it decodes from. -/
structure Row (σ : Schema) (id : String) where
  imageId : String
  encoded : String
  record : σ.Registration
  decodes : σ.decode id imageId encoded = .ok record

def Row.stored {id : String} (row : Row σ id) : Stored := ⟨row.imageId,row.encoded⟩

abbrev Rows (σ : Schema) := AList (Row σ)

/-- The registrations committed at `revision`; equal data versions prove no foreign commit since. -/
structure Index (σ : Schema) where
  revision : Nat
  dataVersion : Nat
  rows : Rows σ

/-- The index holds exactly the stored rows, at the activity revision of the tables. -/
structure Index.Matches (index : Index σ) (tables : Tables σ) : Prop where
  revision : index.revision = tables.activityRevision
  rows : ∀ id, (index.rows.lookup id).map Row.stored = tables.registrations.lookup id

def Tables.get (tables : Tables σ) (sandboxId : String) : Option σ.Registration :=
  (tables.registrations.lookup sandboxId).bind fun stored =>
    (σ.decode sandboxId stored.imageId stored.recordJson).toOption

abbrev Staged (σ : Schema) := AList fun id => Option (Row σ id)

variable (previous : Option (Index σ)) (rows : Rows σ)

/-- A row as an owner transaction sees it: staged, or else from the index. -/
def overlay (staged : Staged σ) (id : String) : Option (Row σ id) :=
  (staged.lookup id).getD (rows.lookup id)

def applyStaged : (Sigma fun id => Option (Row σ id)) → Rows σ
  | ⟨id,some row⟩ => rows.insert id row
  | ⟨id,none⟩ => rows.erase id

section
variable (index : Index σ) (staged : Staged σ) (revision : Nat)

def Index.applied : Index σ :=
  ⟨revision,index.dataVersion,staged.entries.foldl applyStaged index.rows⟩

theorem lookup_foldl_applyStaged (rows) (entries : List (Sigma fun id => Option (Row σ id)))
    (hn : entries.NodupKeys) (id) :
    (entries.foldl applyStaged rows).lookup id = (entries.dlookup id).getD (rows.lookup id) := by
  induction entries generalizing rows with
  | nil => rfl
  | cons e entries ih =>
    obtain ⟨k,row?⟩ := e
    obtain ⟨hk,hn⟩ := nodupKeys_cons.mp hn
    rw [foldl_cons,ih _ hn]
    by_cases hid : id = k
    · subst hid
      have hnone : entries.dlookup id = none := dlookup_eq_none.mpr hk
      rw [hnone]
      cases row? <;> simp [applyStaged]
    · rw [dlookup_cons_ne _ _ (by simpa using hid)]
      cases row? <;> simp [applyStaged,hid]

end

/-- One stored row, reused from the previous index when its text has not changed. -/
def readRow (id : String) (stored : Stored) : Result (Row σ id) :=
  match (previous.bind (·.rows.lookup id)).filter (·.stored = stored) with
  | some row => .ok row
  | none =>
    match h : σ.decode id stored.imageId stored.recordJson with
    | .ok record => .ok ⟨stored.imageId,stored.recordJson,record,h⟩
    | .error e => .error e

def readRows (entry : Sigma fun _ : String => Stored) : Result (Rows σ) :=
  (readRow previous entry.1 entry.2).map (rows.insert entry.1)

/-- `read_index`: every row of the snapshot; the clock may never be behind a record. -/
def readIndex (tables : Tables σ) (dataVersion : Nat) (previous : Option (Index σ)) :
    Result (Index σ) := do
  let rows ← tables.registrations.entries.foldlM (readRows previous) ∅
  if rows.entries.any (fun e => tables.activityRevision < σ.revision e.2.record) then
    .error (.registry "direct registry activity revision is invalid")
  else .ok ⟨tables.activityRevision,dataVersion,rows⟩

variable {previous : Option (Index σ)}

theorem readRow_stored {id stored row} (h : readRow previous id stored = .ok row) :
    row.stored = stored := by
  unfold readRow at h
  split at h
  · rename_i cached hc
    cases h
    simpa using (Option.filter_eq_some_iff.mp hc).2
  · split at h
    · cases h
      rfl
    · cases h

private theorem lookup_foldlM_readRows {entries : List (Sigma fun _ : String => Stored)}
    (hn : entries.NodupKeys) {rows rows'} (h : entries.foldlM (readRows previous) rows = .ok rows')
    (id) :
    (rows'.lookup id).map Row.stored = (entries.dlookup id <|> (rows.lookup id).map Row.stored) := by
  induction entries generalizing rows with
  | nil =>
    obtain rfl : rows = rows' := by simpa [pure,Except.pure] using h
    simp
  | cons e entries ih =>
    obtain ⟨k,stored⟩ := e
    obtain ⟨hk,hn⟩ := nodupKeys_cons.mp hn
    rw [foldlM_cons] at h
    cases hr : readRow previous k stored with
    | error => simp only [readRows,hr] at h; cases h
    | ok =>
      simp only [readRows,hr] at h
      rw [ih hn h]
      by_cases hid : id = k
      · subst hid
        have hnone : entries.dlookup id = none := dlookup_eq_none.mpr hk
        simp [hnone,readRow_stored hr]
      · rw [dlookup_cons_ne _ _ (by simpa using hid),AList.lookup_insert_ne hid]

theorem readIndex_matches {tables dataVersion index}
    (h : readIndex tables dataVersion previous = .ok index) :
    index.Matches tables ∧ index.dataVersion = dataVersion := by
  obtain ⟨registrations,hr,h⟩ := ok_of_bind_ok h
  split at h
  · cases h
  cases h
  refine ⟨⟨rfl,fun id => ?_⟩,rfl⟩
  have hl := lookup_foldlM_readRows tables.registrations.nodupKeys hr id
  simpa [AList.lookup] using hl

end UCloudSandboxes.Registry
