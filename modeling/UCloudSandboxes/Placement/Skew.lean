import UCloudSandboxes.Machine.Versions
import UCloudSandboxes.Placement.Covers

namespace UCloudSandboxes.Placement
open Machine Routing PlacementSystem Tables List Option

variable {snapshot db : Tables} {tx : Tx snapshot} {op : PlacementOp} {id : String}

section Commit

def RowWrite.entry (w : RowWrite) : Option (String × Option SandboxMigration) :=
  w.migration.map fun m => (m.migrationId,some m)

theorem revisions_foldl (writes : List RowWrite) (db key) :
    db.revisions key ≤ (writes.foldl apply db).revisions key ∧
      (.advance key ∈ writes → db.revisions key < (writes.foldl apply db).revisions key) := by
  induction writes generalizing db with
  | nil => exact ⟨le_rfl,fun h => absurd h not_mem_nil⟩
  | cons w writes ih =>
    obtain ⟨hle,hlt⟩ := ih (db.apply w)
    have hfirst : db.revisions key ≤ (db.apply w).revisions key ∧
        (w = .advance key → db.revisions key < (db.apply w).revisions key) := by
      cases w with
      | advance k =>
        by_cases hk : key = k
        · subst hk
          simp [apply]
        · have hne : k ≠ key := fun h => hk h.symm
          simp [apply,Function.update_of_ne hk,hne]
      | _ => exact ⟨le_rfl,nofun⟩
    refine ⟨hfirst.1.trans hle,fun hmem => ?_⟩
    rcases mem_cons.mp hmem with heq | hmem
    · exact (hfirst.2 heq.symm).trans_le hle
    · exact hfirst.1.trans_lt (hlt hmem)

def merged (db : Tables) (tx : Tx snapshot) : Tables := tx.writes.foldl apply db

variable (hmay : mayCommit snapshot db op tx.writes = true)
include hmay

variable (hf : tx.Fenced []) (hc : op.snapshotOnly = true → tx.Covers [])
include hf hc

end Commit

def version (log : List Committed) : Nat → Tables
  | 0 => .empty
  | n + 1 => ((log[n]?).map (·.after)).getD .empty

theorem version_append {log} (c) {n} (h : n ≤ log.length) : version (log ++ [c]) n = version log n := by
  cases n with
  | zero => rfl
  | succ =>
    rw [version,version,getElem?_append_left (by omega)]

namespace PlacementSystem
variable {s s' : PlacementSystem} {t hwm : Nat}

def receipt (s : PlacementSystem) (op : PlacementOp) (a : Attempt) (tx : Tx a.snapshot) : Committed :=
  ⟨a.seen,op,a.snapshot,s.db,merged s.db tx,tx.touched⟩

theorem commit_cases (h : s.step (.commit t op hwm) = some s') :
    s' = { s with attempts := s.attempts.erase t } ∨
    ∃ (a : Attempt) (tx : Tx a.snapshot), s.attempts.lookup t = some a ∧
      op.run (Tx.start a.snapshot) hwm = .ok tx ∧ mayCommit a.snapshot s.db op tx.writes = true ∧
      s' = ⟨merged s.db tx,s.attempts.erase t,s.log ++ [s.receipt op a tx]⟩ := by
  obtain ⟨a,ha,h⟩ := map_eq_some_iff.mp h
  split at h
  · exact .inl h.symm
  rename_i tx hrun
  split at h
  · rename_i hmay
    exact .inr ⟨a,tx,ha,hrun,hmay,h.symm⟩
  · exact .inl h.symm

structure Inv (s : PlacementSystem) : Prop where
  attempts : ∀ t a, s.attempts.lookup t = some a →
    ReadsFrom Committed.touched s.log s.db.revisions a.seen a.snapshot.revisions ∧
      a.snapshot = version s.log a.seen
  ordered : Ordered Committed.seen Committed.touched s.log
  current : s.db = version s.log s.log.length
  commits : ∀ c ∈ s.log, c.seen ≤ s.log.length ∧ c.snapshot = version s.log c.seen ∧
    ∀ node ∈ c.op.admits c.snapshot, ∀ k ∈ identityKeys node, k ∈ c.touched

theorem inv_erase (hi : s.Inv) (t) : Inv { s with attempts := s.attempts.erase t } :=
  ⟨fun t' a ha => hi.attempts t' a (lookup_of_erase ha).2,hi.ordered,hi.current,hi.commits⟩

theorem inv_commit (hi : s.Inv) {a tx} (ha : s.attempts.lookup t = some a)
    (hrun : op.run (Tx.start a.snapshot) hwm = .ok tx)
    (hmay : mayCommit a.snapshot s.db op tx.writes = true) :
    Inv ⟨merged s.db tx,s.attempts.erase t,s.log ++ [s.receipt op a tx]⟩ := by
  obtain ⟨hreads,hver⟩ := hi.attempts t a ha
  have hlen : s.log.length ≤ (s.log ++ [s.receipt op a tx]).length := by simp
  refine ⟨fun t' a' ha' => ?_,?_,(by simp [version,receipt]),fun c hc => ?_⟩
  · obtain ⟨hreads',hver'⟩ := hi.attempts t' a' (lookup_of_erase ha').2
    refine ⟨hreads'.commit (fun key => (revisions_foldl tx.writes s.db key).1) fun key hkey => ?_,?_⟩
    · exact (revisions_foldl tx.writes s.db key).2 (tx.recorded key hkey)
    · exact hver'.trans (version_append _ hreads'.bounded).symm
  · refine hi.ordered.commit hreads fun key hkey => ?_
    have hrule := all_eq_true.mp hmay _ (tx.recorded key hkey)
    simpa [unchanged,inserts] using hrule
  · rcases mem_append.mp hc with hold | hnew
    · obtain ⟨hseen,hsnap,hadm⟩ := hi.commits c hold
      exact ⟨hseen.trans hlen,hsnap.trans (version_append _ hseen).symm,hadm⟩
    · obtain rfl := mem_singleton.mp hnew
      exact ⟨hreads.bounded.trans hlen,hver.trans (version_append _ hreads.bounded).symm,
        fun node => admits_touched hrun⟩

theorem inv_step {e} (hi : s.Inv) (h : s.step e = some s') : s'.Inv := by
  cases e with
  | begin =>
    obtain ⟨-,rfl⟩ := some_of_guard h
    refine ⟨fun t' a ha => ?_,hi.ordered,hi.current,hi.commits⟩
    rcases lookup_of_insert ha with ⟨-,rfl⟩ | ⟨-,hold⟩
    · exact ⟨.start,hi.current⟩
    · exact hi.attempts t' a hold
  | commit t =>
    rcases commit_cases h with rfl | ⟨a,tx,ha,hrun,hmay,rfl⟩
    · exact inv_erase hi t
    · exact inv_commit hi ha hrun hmay
  | abort t =>
    cases h
    exact inv_erase hi t

theorem inv_of_reaches (hs : Reaches step anyEvent (· = start) s) : s.Inv := by
  refine hs.keeps ?_ fun s e s' hi _ => inv_step hi
  refine ⟨fun t a ha => ?_,.nil,rfl,fun c hc => absurd hc not_mem_nil⟩
  cases ha

end PlacementSystem

namespace Example

def owner : NodeIdentity := ⟨"node-1","job-1","http://node-1"⟩

def destination : NodeIdentity := ⟨"node-2","job-2","http://node-2"⟩

def created : SandboxRoute :=
  { sandboxId := "sandbox", node := owner, resources := {}, state := .creating
    incarnation := ⟨1,"create","spec"⟩ }

end Example

open Example

end UCloudSandboxes.Placement
