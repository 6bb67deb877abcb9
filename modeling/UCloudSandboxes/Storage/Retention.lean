import Mathlib.Data.List.Basic
import UCloudSandboxes.Machine.Basic

/-! Registry retention of one snapshot manifest. A run reads leases, references, tags, the
manifest's time and the references again, each at its own moment, and deletes inside the lease
fence. A gateway request acquires the reference, commits the route, reads it back and releases, each
in a transaction of its own. -/
namespace UCloudSandboxes.Storage
open Machine List

/-- How far a run is with a manifest it has not kept; `now` is the run's reading of the clock. -/
inductive RetentionStage where
  | idle
  | unleased (now : Nat)
  | unreferenced (now : Nat)
  | listed (now : Nat)
  | selected
  | revalidated
  deriving DecidableEq

/-- A manifest, the owners that lease it and the owners whose committed routes name it; `acquired`
are the owners of requests that may still commit, `releasing` those a request goes on to release. -/
structure Manifest where
  present : Bool := false
  tagTime : Option Nat := none
  leases : List String := []
  routes : List String := []
  acquired : List String := []
  releasing : List String := []
  stage : RetentionStage := .idle
  clock : Nat := 0
  deriving DecidableEq

open Manifest

inductive RetentionEvent where
  | tick (seconds : Nat)
  | push
  | acquireReference (owner : String)
  | commitRoute (owner : String)
  | readBack (owner : String)
  | abandon (owner : String)
  | dropRoute (owner : String)
  | releaseReference (owner : String)
  | beginRun
  | readLive
  | listTags
  | select (known : Bool)
  | readFresh
  | deleteBatch
  deriving DecidableEq

namespace Manifest
variable (grace : Nat) (m : Manifest)

def proceed (keep : Bool) (stage : RetentionStage) : Manifest :=
  { m with stage := if keep then .idle else stage }

def step : RetentionEvent → Option Manifest
  | .tick seconds => some { m with clock := m.clock + seconds }
  | .push => some { m with present := true, tagTime := some m.clock }
  -- acquiring does not look at the registry
  | .acquireReference owner =>
    some { m with leases := owner :: m.leases, acquired := owner :: m.acquired }
  | .commitRoute owner =>
    if owner ∈ m.acquired then some { m with routes := owner :: m.routes } else none
  -- the release that follows keeps what the row names now
  | .readBack owner =>
    if owner ∈ m.acquired then some { m with
      acquired := m.acquired.erase owner
      releasing := if owner ∈ m.routes then m.releasing else owner :: m.releasing } else none
  | .abandon owner => some { m with acquired := m.acquired.erase owner }
  | .dropRoute owner => some { m with
      routes := m.routes.filter (· ≠ owner), releasing := owner :: m.releasing }
  | .releaseReference owner =>
    if owner ∈ m.releasing then some { m with
      leases := m.leases.filter (· ≠ owner), releasing := m.releasing.erase owner } else none
  | .beginRun =>
    if m.stage = .idle then some (m.proceed (m.leases ≠ []) (.unleased m.clock)) else none
  | .readLive => match m.stage with
    | .unleased now => some (m.proceed (m.routes ≠ []) (.unreferenced now))
    | _ => none
  | .listTags => match m.stage with
    | .unreferenced now => some (m.proceed (!m.present) (.listed now))
    | _ => none
  | .select known => match m.stage with
    | .listed now => some (m.proceed (!(known && m.tagTime.any (· + grace < now))) .selected)
    | _ => none
  | .readFresh => match m.stage with
    | .selected => some (m.proceed (m.routes ≠ []) .revalidated)
    | _ => none
  | .deleteBatch => match m.stage with
    | .revalidated => some { m with present := m.present && m.leases ≠ [], stage := .idle }
    | _ => none

/-- The owners that need the manifest: a route names it, or a request may still commit one. -/
def needed : List String := m.acquired ++ m.routes

/-- No reference is released that a route or a request in flight needs. -/
def unraced : RetentionEvent → Bool
  | .releaseReference owner => owner ∉ m.needed
  | _ => true

/-- A reference is acquired within the grace period of the last push or of a leased manifest, and
nothing selected is pushed. -/
def timely : RetentionEvent → Bool
  | .acquireReference _ => m.leases ≠ [] || m.tagTime.any (m.clock < · + grace)
  | .push => m.stage ≠ .selected && m.stage ≠ .revalidated
  | _ => true

def Aged : Prop :=
  match m.stage with
  | .idle => True
  | .unleased now | .unreferenced now | .listed now => now ≤ m.clock
  | .selected | .revalidated => ∀ t, m.tagTime = some t → t + grace ≤ m.clock

structure Safe : Prop where
  leased : m.leases ≠ [] → m.present = true
  young : ∀ t, m.tagTime = some t → m.clock < t + grace → m.present = true
  aged : m.Aged grace

variable {grace m} {m' : Manifest} {e : RetentionEvent}

theorem leased_step (hi : m.needed ⊆ m.leases) (hok : m.unraced e = true)
    (hs : m.step grace e = some m') : m'.needed ⊆ m'.leases := by
  obtain ⟨hacq,hroutes⟩ := append_subset.mp hi
  cases e with
  | tick | push =>
    cases hs
    exact hi
  | acquireReference =>
    cases hs
    exact cons_subset_cons _ hi
  | commitRoute owner =>
    obtain ⟨hmem,rfl⟩ := some_of_check hs
    exact append_subset.mpr ⟨hacq,cons_subset.mpr ⟨hacq hmem,hroutes⟩⟩
  | readBack =>
    obtain ⟨-,rfl⟩ := some_of_check hs
    exact append_subset.mpr ⟨fun _ h => hacq (mem_of_mem_erase h),hroutes⟩
  | abandon =>
    cases hs
    exact append_subset.mpr ⟨fun _ h => hacq (mem_of_mem_erase h),hroutes⟩
  | dropRoute =>
    cases hs
    exact append_subset.mpr ⟨hacq,fun _ h => hroutes (mem_of_mem_filter h)⟩
  | releaseReference owner =>
    obtain ⟨-,rfl⟩ := some_of_check hs
    have hnot : owner ∉ m.needed := of_decide_eq_true hok
    exact fun o ho => mem_filter.mpr ⟨hi ho,decide_eq_true fun heq => hnot (heq ▸ ho)⟩
  | beginRun =>
    cases (of_check hs nofun).2
    exact hi
  | readLive | listTags | select | readFresh | deleteBatch =>
    simp only [step] at hs
    split at hs <;> cases hs
    exact hi

theorem Safe.proceed {keep stage} (h : m.Safe grace)
    (hs : keep = false → ({ m with stage } : Manifest).Aged grace) :
    (m.proceed keep stage).Safe grace := by
  cases keep with
  | true => exact ⟨h.leased,h.young,trivial⟩
  | false => exact ⟨h.leased,h.young,hs rfl⟩

theorem Safe.step (h : m.Safe grace) (ht : m.timely grace e = true) (hs : m.step grace e = some m') :
    m'.Safe grace := by
  have haged := h.aged
  cases e with
  | tick seconds =>
    cases hs
    refine ⟨h.leased,fun t hp hlt => h.young t hp (Nat.lt_of_le_of_lt (Nat.le_add_right ..) hlt),?_⟩
    unfold Aged at haged ⊢
    cases hst : m.stage <;> simp only [hst] at haged ⊢
    all_goals first | omega | exact fun t hp => Nat.le_add_right_of_le (haged t hp)
  | push =>
    cases hs
    refine ⟨fun _ => rfl,fun _ _ _ => rfl,?_⟩
    unfold Aged at haged ⊢
    cases hst : m.stage <;> simp_all [timely]
  | acquireReference =>
    cases hs
    refine ⟨fun _ => ?_,h.young,haged⟩
    simp only [timely,Bool.or_eq_true,decide_eq_true_eq] at ht
    rcases ht with hl | hy
    · exact h.leased hl
    · obtain ⟨t,hp,hlt⟩ := (Option.any_eq_true _ _).mp hy
      exact h.young t hp (of_decide_eq_true hlt)
  | commitRoute | readBack =>
    cases (of_check hs nofun).2
    exact ⟨h.leased,h.young,haged⟩
  | abandon | dropRoute =>
    cases hs
    exact ⟨h.leased,h.young,haged⟩
  | releaseReference owner =>
    cases (of_check hs nofun).2
    refine ⟨fun hne => h.leased fun hnil => hne ?_,h.young,haged⟩
    simp [hnil]
  | beginRun =>
    cases (of_check hs nofun).2
    exact h.proceed fun _ => Nat.le_refl _
  | readLive | listTags | readFresh =>
    simp only [step] at hs
    split at hs <;> cases hs
    rename_i hst
    rw [Aged,hst] at haged
    exact h.proceed fun _ => haged
  | select known =>
    simp only [step] at hs
    split at hs <;> cases hs
    rename_i now hst
    rw [Aged,hst] at haged
    refine h.proceed fun hkeep t hp => ?_
    have hold : t + grace < now := by simp_all
    exact Nat.le_trans (Nat.le_of_lt hold) haged
  | deleteBatch =>
    simp only [step] at hs
    split at hs <;> cases hs
    rename_i hst
    rw [Aged,hst] at haged
    refine ⟨fun hl => ?_,fun t hp hlt => ?_,trivial⟩
    · simp [h.leased hl,hl]
    · exact absurd (haged t hp) (Nat.not_le.mpr hlt)

theorem unleased_of_deleted (hs : m.step grace e = some m') (hp : m.present = true)
    (hd : m'.present = false) : m.leases = [] ∧ m'.routes = m.routes := by
  have hkept : m'.present = m.present → False := fun heq => by simp [heq,hp] at hd
  cases e with
  | tick | acquireReference | abandon | dropRoute =>
    cases hs
    exact (hkept rfl).elim
  | push =>
    cases hs
    cases hd
  | commitRoute | readBack | releaseReference | beginRun =>
    cases (of_check hs nofun).2
    exact (hkept rfl).elim
  | readLive | listTags | select | readFresh =>
    simp only [step] at hs
    split at hs <;> cases hs
    exact (hkept rfl).elim
  | deleteBatch =>
    simp only [step] at hs
    split at hs <;> cases hs
    exact ⟨by simpa [hp] using hd,rfl⟩

theorem needed_of_reaches (h : Reaches (step grace) (fun m e => m.unraced e = true) (· = {}) m) :
    m.needed ⊆ m.leases := by
  exact h.keeps nofun fun _ _ _ => leased_step

/-- While no needed reference is released, no manifest is deleted that a route names; it exists when
its reference was acquired in time and no run had selected what was pushed. -/
theorem retention_spares_routes (grace : Nat) (m : Manifest) :
    (Reaches (step grace) (fun m e => m.unraced e = true) (· = {}) m → ∀ e m',
      m.step grace e = some m' → m.present = true → m'.present = false → m'.routes = []) ∧
    (Reaches (step grace) (fun m e => (m.unraced e && m.timely grace e) = true) (· = {}) m →
      m.routes ≠ [] → m.present = true) := by
  have hroutes (h : Reaches (step grace) (fun m e => m.unraced e = true) (· = {}) m) :
      m.routes ⊆ m.leases := (append_subset.mp (needed_of_reaches h)).2
  refine ⟨fun h e m' hs hp hd => ?_,fun h hne => ?_⟩
  · obtain ⟨hnil,hsame⟩ := unleased_of_deleted hs hp hd
    rw [hsame]
    exact subset_nil.mp (hnil ▸ hroutes h)
  · have hsafe : m.Safe grace := by
      refine h.keeps ⟨nofun,nofun,trivial⟩ fun _ _ _ hi hok => ?_
      exact hi.step (Bool.and_eq_true_iff.mp hok).2
    obtain ⟨o,ho⟩ := exists_mem_of_ne_nil _ hne
    have hleased := hroutes (h.mono fun _ _ hok => (Bool.and_eq_true_iff.mp hok).1)
    exact hsafe.leased (ne_nil_of_mem (hleased ho))

end Manifest

namespace Example

/-- An old snapshot is deleted, pushed again, leased and routed in time, and a run comes upon it after
the grace period. -/
def leasedSnapshot : List RetentionEvent :=
  [.push, .tick 3, .beginRun, .readLive, .listTags, .select true, .readFresh, .deleteBatch, .push,
   .acquireReference "route", .commitRoute "route", .readBack "route", .tick 3, .beginRun]

/-- An old manifest is pushed again between a run's look at its time and its delete. -/
def pushedAgain : List RetentionEvent :=
  [.push, .tick 3, .beginRun, .readLive, .listTags, .select true, .readFresh, .push, .deleteBatch,
   .acquireReference "route", .commitRoute "route"]

end Example

theorem retention_spares_leased : ∃ m, m.routes = ["route"] ∧ m.present = true ∧
    Reaches (step 1) (fun m e => (m.unraced e && m.timely 1 e) = true) (· = {}) m := by
  obtain ⟨m,hm,hroutes⟩ := Reaches.exists_from_runMeeting (step 1)
    (fun m e => (m.unraced e && m.timely 1 e) = true) {} Example.leasedSnapshot (·.routes = ["route"])
    (by decide +kernel)
  exact ⟨m,hroutes,(retention_spares_routes 1 m).2 hm (by simp [hroutes]),hm⟩

/-- The route commits, within the grace period of the last push, on a manifest that is gone: the run
does not look at the tag's time again. -/
theorem retention_deletes_pushed_again : ∃ m,
    Reaches (step 1) (fun m e => m.unraced e = true) (· = {}) m ∧
    m.routes = ["route"] ∧ m.present = false ∧ m.tagTime = some m.clock :=
  Reaches.exists_from_runMeeting (step 1) _ {} Example.pushedAgain _ (by decide +kernel)

end UCloudSandboxes.Storage
