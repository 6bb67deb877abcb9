import Mathlib.Data.List.Nodup
import UCloudSandboxes.Storage.Volume

namespace UCloudSandboxes.Storage
open Machine Record Kind List Option

variable (v : Volume)

/-- A discard begins on a row with one kind of layers and no aborted capture; a release is not
reconciled without a local layer. -/
def discardsParent : Event → Bool
  | .begin .discardMountedCow => !v.aborted && v.record.all fun r =>
      r.publishedLayers = [] || r.sealedLayerPaths = []
  | .reconcile _ _ => v.record.all fun r => r.state ≠ .releasing || r.sealedLayerPaths ≠ []
  | _ => true

def DiscardsParent (e : Event) : Prop := discardsParent v e = true

instance (v : Volume) (e : Event) : Decidable (DiscardsParent v e) :=
  inferInstanceAs (Decidable (_ = true))

def Committed (r : Record) : Prop := v.committed = some (captures r.chain)

def Parent (r : Record) : Prop := r.chain = [] ∨ Committed v r

def Holds (r : Record) : Prop :=
  match r.state with
  | .creating => r.chain = []
  | .importing => r.sealedLayerPaths = []
  | .mounted => v.aborted = true ∨ Parent v r
  | .acquiring => Parent v r
  | .capturePrepared => r.sealedLayerPaths ≠ []
  | .sealed | .released | .publishing => r.sealedLayerPaths ≠ [] ∧ Committed v r
  | .releasing => Parent v r ∧
      (r.operation = some (.releaseRuntime, .pending) → r.sealedLayerPaths ≠ []) ∧
      (r.operation = some (.discardMountedCow, .pending) →
        r.publishedLayers = [] ∨ r.sealedLayerPaths = [])
  | .published => r.sealedLayerPaths = [] ∧ Committed v r
  | .error => r.operation = some (.mountSnapshotCow, .failed) → Parent v r
  | .preparingCapture | .sealing | .deleting | .deleted => True

/-- No capture is in the chain twice and every local layer holds one. -/
structure WellFormed (r : Record) : Prop where
  nodup : (captures r.chain).Nodup
  nonempty : ∀ layer ∈ r.sealedLayerPaths, layer.captures ≠ []

/-- The operations in flight: fenced by distinct revisions, the current one in its own state. -/
structure Fenced (running : List Pending) (r : Record) : Prop where
  distinct : (running.map (·.revision)).Nodup
  bounded : ∀ p ∈ running, p.revision ≤ r.revision
  current : ∀ p ∈ running, p.revision = r.revision →
    r.state = p.kind.nextState ∧ r.operation = some (p.kind, .pending)

structure RowInv (v : Volume) (r : Record) : Prop where
  wellFormed : WellFormed r
  holds : Holds v r
  fenced : Fenced v.running r

def Inv : Prop :=
  match v.record with
  | none => v.running = []
  | some r => RowInv v r

variable {v v' : Volume} {r r' : Record} {running : List Pending} {publication : List Layer}

theorem Inv.row (h : Inv v) (hr : v.record = some r) : RowInv v r := by
  unfold Inv at h
  rwa [hr] at h

theorem RowInv.inv (h : RowInv v r) (hr : v.record = some r) : Inv v := by
  unfold Inv
  rwa [hr]

theorem captures_append (l l') : captures (l ++ l') = captures l ++ captures l' :=
  flatMap_append

theorem captures_chain (r : Record) :
    captures r.chain = captures r.publishedLayers ++ captures r.sealedLayerPaths :=
  captures_append _ _

theorem WellFormed.unpublished (h : WellFormed r) (hs : r.sealedLayerPaths ≠ []) :
    ∃ layer ∈ r.sealedLayerPaths, layer.captures ≠ [] ∧
      ∀ c ∈ layer.captures, c ∉ captures r.publishedLayers := by
  obtain ⟨layer,rest,hl⟩ := exists_cons_of_ne_nil hs
  have hmem : layer ∈ r.sealedLayerPaths := by simp [hl]
  refine ⟨layer,hmem,h.nonempty layer hmem,fun c hc hp => ?_⟩
  have hdisj := (nodup_append.mp (captures_chain r ▸ h.nodup)).2.2
  exact hdisj c hp c (mem_flatMap.mpr ⟨layer,hmem,hc⟩) rfl

theorem Inv.complete (h : Inv v) : Complete v := by
  intro r hr
  obtain ⟨hwf,hholds,_⟩ := h.row hr
  constructor
  · intro hs
    simp only [Holds,hs] at hholds
    have hc : v.committed = some (captures r.chain) := hholds.2
    rw [hc,captures_chain,hholds.1]
    simp [captures]
  · intro hs
    simp only [Holds,hs] at hholds
    exact hwf.unpublished hholds.1

theorem Fenced.begin (h : Fenced running r) {kind n} (hn : n = r.revision + 1)
    (hrev : r'.revision = n) (hstate : r'.state = kind.nextState)
    (hop : r'.operation = some (kind, .pending)) : Fenced (running ++ [⟨n, kind⟩]) r' := by
  have hlt : ∀ p ∈ running, p.revision < n := fun p hp => by
    have := h.bounded p hp
    omega
  refine ⟨?_,?_,?_⟩
  · rw [map_append]
    refine nodup_append.mpr ⟨h.distinct,nodup_singleton _,?_⟩
    intro a ha b hb
    obtain ⟨p,hp,rfl⟩ := mem_map.mp ha
    have := hlt p hp
    simp only [map_cons,map_nil,mem_singleton] at hb
    omega
  · intro p hp
    rw [hrev]
    rcases mem_append.mp hp with hp | hp
    · exact Nat.le_of_lt (hlt p hp)
    · exact Nat.le_of_eq (by rw [mem_singleton.mp hp])
  · intro p hp hcur
    rw [hrev] at hcur
    rcases mem_append.mp hp with hp | hp
    · exact absurd hcur (Nat.ne_of_lt (hlt p hp))
    · rw [mem_singleton.mp hp]
      exact ⟨hstate,hop⟩

theorem Fenced.bump (h : Fenced running r) (hrev : r.revision < r'.revision) : Fenced running r' where
  distinct := h.distinct
  bounded := fun p hp => Nat.le_trans (h.bounded p hp) (Nat.le_of_lt hrev)
  current := fun p hp hcur => by
    have := h.bounded p hp
    omega

theorem Fenced.erase (h : Fenced running r) (p) : Fenced (running.erase p) r where
  distinct := h.distinct.sublist (erase_sublist.map _)
  bounded := fun q hq => h.bounded q (mem_of_mem_erase hq)
  current := fun q hq => h.current q (mem_of_mem_erase hq)

theorem Fenced.finish (h : Fenced running r) {p} (hp : p ∈ running) (hcur : r.revision = p.revision)
    (hrev : r'.revision = r.revision) : Fenced (running.erase p) r' where
  distinct := h.distinct.sublist (erase_sublist.map _)
  bounded := fun q hq => hrev ▸ h.bounded q (mem_of_mem_erase hq)
  current := fun q hq hqr => by
    have hsame : q = p := inj_on_of_nodup_map h.distinct (mem_of_mem_erase hq) hp
      (hqr.trans (hrev.trans hcur))
    subst hsame
    have hnodup : running.Nodup := Nodup.of_map _ h.distinct
    exact absurd hq hnodup.not_mem_erase

namespace WellFormed

theorem congr {r r'} (h : WellFormed r) (hp : r'.publishedLayers = r.publishedLayers)
    (hs : r'.sealedLayerPaths = r.sealedLayerPaths) : WellFormed r' := by
  refine ⟨?_,fun layer hl => h.nonempty layer (hs ▸ hl)⟩
  rw [captures_chain,hp,hs,← captures_chain]
  exact h.nodup

theorem snoc {r r'} (h : WellFormed r) {c} (hc : c ∉ captures r.chain)
    (hp : r'.publishedLayers = r.publishedLayers)
    (hs : r'.sealedLayerPaths = r.sealedLayerPaths ++ [⟨[c]⟩]) : WellFormed r' := by
  have hchain : captures r'.chain = captures r.chain ++ [c] := by
    rw [captures_chain,captures_chain,hp,hs]
    simp [captures]
  refine ⟨?_,fun layer hl => ?_⟩
  · rw [hchain]
    refine nodup_append.mpr ⟨h.nodup,nodup_singleton c,?_⟩
    rintro x hx y hy rfl
    exact hc (mem_singleton.mp hy ▸ hx)
  · rw [hs] at hl
    rcases mem_append.mp hl with hl | hl
    · exact h.nonempty layer hl
    · rw [mem_singleton.mp hl]
      simp

theorem remote {r' held} (h : held.Nodup) (hp : captures r'.publishedLayers = held)
    (hs : r'.sealedLayerPaths = []) : WellFormed r' := by
  refine ⟨?_,by simp [hs]⟩
  rw [captures_chain,hp,hs]
  simpa [captures] using h

end WellFormed

theorem captures_adopt {start stop} (h : start < stop) :
    captures (r.adopt start stop).sealedLayerPaths = captures r.sealedLayerPaths := by
  have hsplit : r.sealedLayerPaths = r.sealedLayerPaths.take start ++
      ((r.sealedLayerPaths.take stop).drop start ++ r.sealedLayerPaths.drop stop) := by
    rw [← append_assoc]
    have htake : r.sealedLayerPaths.take start ++ (r.sealedLayerPaths.take stop).drop start =
        r.sealedLayerPaths.take stop := by
      have := take_append_drop start (r.sealedLayerPaths.take stop)
      rwa [take_take,Nat.min_eq_left (Nat.le_of_lt h)] at this
    rw [htake,take_append_drop]
  calc captures (r.adopt start stop).sealedLayerPaths
      = captures (r.sealedLayerPaths.take start) ++
          (captures ((r.sealedLayerPaths.take stop).drop start) ++
            captures (r.sealedLayerPaths.drop stop)) := by
        simp [adopt,captures]
    _ = captures r.sealedLayerPaths := by
        conv_rhs => rw [hsplit,captures_append,captures_append]

theorem adopt_spec (h : WellFormed r) {start stop} (hlt : start < stop)
    (hlen : stop ≤ r.sealedLayerPaths.length) :
    WellFormed (r.adopt start stop) ∧ captures (r.adopt start stop).chain = captures r.chain ∧
      (r.adopt start stop).sealedLayerPaths ≠ [] := by
  have hcap : captures (r.adopt start stop).chain = captures r.chain := by
    rw [captures_chain,captures_adopt hlt,captures_chain]
    rfl
  refine ⟨⟨hcap ▸ h.nodup,fun layer hl => ?_⟩,hcap,by simp [adopt]⟩
  simp only [adopt,mem_append,mem_singleton] at hl
  rcases hl with (hl | rfl) | hl
  · exact h.nonempty layer (mem_of_mem_take hl)
  · -- the merged run is not empty, and its first layer holds a capture
    have hget : start < ((r.sealedLayerPaths.take stop)).length := by
      rw [length_take]
      omega
    obtain ⟨first,rest,hrun⟩ : ∃ first rest, (r.sealedLayerPaths.take stop).drop start = first :: rest :=
      exists_cons_of_ne_nil (by simpa using hget)
    have hfirst : first ∈ r.sealedLayerPaths :=
      mem_of_mem_take (mem_of_mem_drop (hrun ▸ mem_cons_self ..))
    intro hnil
    rw [hrun] at hnil
    simp only [captures,flatMap_cons,append_eq_nil_iff] at hnil
    exact h.nonempty first hfirst hnil.1
  · exact h.nonempty layer (mem_of_mem_drop hl)

theorem begin_some {kind} (h : r.begin kind = some r') :
    (r.state ∈ kind.allowedStates ∨ kind = .discardMountedCow ∧ r.recoverMount = true) ∧ r' = { r with
        revision := r.revision + 1, state := kind.nextState, error := "",
        operation := some (kind, if kind.completesAtOnce then .completed else .pending) } := by
  unfold begin at h
  simp only [ite_none_right_eq_some,some.injEq,Bool.or_eq_true,Bool.and_eq_true,
    decide_eq_true_eq,contains_iff_mem] at h
  exact ⟨h.1,h.2.symm⟩

theorem holds_begin {kind} (running) (h : Holds v r) (hb : r.begin kind = some r')
    (hdis : kind = .discardMountedCow → v.aborted = false ∧ (r.publishedLayers = [] ∨
      r.sealedLayerPaths = [])) :
    Holds ({ v with record := some r', running }.recordBegin kind r') r' := by
  obtain ⟨hfrom,rfl⟩ := begin_some hb
  cases kind with
  | createVolume | acquireSnapshot => simp [allowedStates] at hfrom
  | prepareCapture | freezeAndSeal | deleteVolume => trivial
  | commitCapture =>
    simp only [allowedStates,mem_singleton,reduceCtorEq,false_and,or_false] at hfrom
    simp only [Holds,hfrom] at h
    exact ⟨h,rfl⟩
  | abortCapture => exact .inl rfl
  | mountSnapshotCow =>
    simp only [allowedStates,mem_cons,not_mem_nil,or_false,reduceCtorEq, false_and] at hfrom
    rcases hfrom with hfrom | hfrom <;> simp only [Holds,hfrom] at h <;> exact .inr h.2
  | discardMountedCow =>
    obtain ⟨habo,hlay⟩ := hdis rfl
    refine ⟨?_,by simp,fun _ => hlay⟩
    simp only [allowedStates,mem_singleton,true_and] at hfrom
    rcases hfrom with hfrom | hfrom
    · simp only [Holds,hfrom,habo,Bool.false_eq_true,false_or] at h
      exact h
    · simp only [recoverMount,Bool.and_eq_true,decide_eq_true_eq] at hfrom
      simp only [Holds,hfrom.1.1] at h
      exact h hfrom.1.2
  | releaseRuntime =>
    simp only [allowedStates,mem_singleton,reduceCtorEq,false_and,or_false] at hfrom
    simp only [Holds,hfrom] at h
    exact ⟨.inr h.2,fun _ => h.1,by simp⟩
  | publishSnapshot =>
    simp only [allowedStates,mem_singleton,reduceCtorEq,false_and,or_false] at hfrom
    simp only [Holds,hfrom] at h
    exact h

theorem succeed_spec {kind} (running) {c} (hwf : WellFormed r) (h : Holds v r)
    (hstate : r.state = kind.nextState) (hop : r.operation = some (kind, .pending))
    (hs : r.succeed kind c publication = some r') :
    WellFormed r' ∧ Holds ({ v with record := some r', running }.recordSucceed kind r') r' ∧
      r'.revision = r.revision := by
  cases kind with
  | createVolume =>
    cases hs
    simp only [Holds,hstate] at h
    exact ⟨hwf.congr rfl rfl,.inr (.inl h),rfl⟩
  | acquireSnapshot =>
    cases hs
    simp only [Holds,hstate] at h
    exact ⟨hwf.congr rfl rfl,⟨h,rfl⟩,rfl⟩
  | prepareCapture =>
    obtain ⟨hc,rfl⟩ := some_of_guard hs
    exact ⟨hwf.snoc hc rfl rfl,by simp [Holds],rfl⟩
  | freezeAndSeal =>
    obtain ⟨hc,rfl⟩ := some_of_guard hs
    exact ⟨hwf.snoc hc rfl rfl,⟨by simp,rfl⟩,rfl⟩
  | commitCapture | abortCapture => cases hs
  | mountSnapshotCow =>
    obtain ⟨_,rfl⟩ := some_of_check hs
    simp only [Holds,hstate,nextState] at h
    exact ⟨hwf.congr rfl rfl,.inr h,rfl⟩
  | discardMountedCow =>
    obtain ⟨hlay,rfl⟩ := some_of_check hs
    simp only [Holds,hstate,nextState,hop,true_implies] at h
    have hne : r.chain ≠ [] := of_decide_eq_true hlay
    have hcmt : Committed v r := h.1.resolve_left hne
    refine ⟨hwf.congr rfl rfl,?_,rfl⟩
    by_cases hp : r.publishedLayers = []
    · have hsea : r.sealedLayerPaths ≠ [] := fun he => hne (by simp [chain,hp,he])
      rw [if_neg (not_not.mpr hp)]
      exact ⟨hsea,hcmt⟩
    · unfold Holds
      rw [if_pos hp]
      exact ⟨h.2.2.resolve_left hp,hcmt⟩
  | releaseRuntime =>
    cases hs
    simp only [Holds,hstate,nextState,hop,true_implies] at h
    have hne : r.chain ≠ [] := fun he => h.2.1 (append_eq_nil_iff.mp he).2
    exact ⟨hwf.congr rfl rfl,⟨h.2.1,h.1.resolve_left hne⟩,rfl⟩
  | publishSnapshot =>
    simp only [succeed,ite_none_right_eq_some,some.injEq,Bool.and_eq_true, decide_eq_true_eq] at hs
    obtain ⟨⟨_,hpub⟩,rfl⟩ := hs
    simp only [Holds,hstate] at h
    refine ⟨WellFormed.remote hwf.nodup hpub rfl,⟨rfl,?_⟩,rfl⟩
    have hc : v.committed = some (captures r.chain) := h.2
    have hchain : captures (publication ++ []) = captures r.chain := by
      rw [append_nil]
      exact hpub
    exact hc.trans (congrArg some hchain.symm)
  | deleteVolume =>
    cases hs
    exact ⟨WellFormed.remote nodup_nil rfl rfl,trivial,rfl⟩

theorem holds_fail (kind) (h : Holds v r) (hstate : r.state = kind.nextState) (error) :
    Holds v (r.fail kind error) := by
  by_cases hk : kind = .publishSnapshot
  · subst hk
    simp only [Holds,hstate] at h
    exact h
  · simp only [Holds,fail,if_neg hk,some.injEq,Prod.mk.injEq,and_true]
    rintro rfl
    simp only [Holds,hstate] at h
    exact h

theorem reconcile_spec (hwf : WellFormed r) (h : Holds v r)
    (hlayer : r.state = .releasing → r.sealedLayerPaths ≠ []) (ownerMatches deletion) :
    WellFormed (r.reconcile ownerMatches deletion) ∧ Holds v (r.reconcile ownerMatches deletion) := by
  have herror : ∀ text, WellFormed (r.markReconcileError text) ∧ Holds v (r.markReconcileError text) :=
    fun text => ⟨hwf.congr rfl rfl,by simp [Holds,markReconcileError]⟩
  unfold reconcile
  split
  · exact herror _
  split
  · exact herror _
  · exact herror _
  · exact herror _
  · exact herror _
  · exact herror _
  · rename_i hs
    have hsea := hlayer hs
    simp only [Holds,hs] at h
    have hne : r.chain ≠ [] := fun he => hsea (append_eq_nil_iff.mp he).2
    exact ⟨hwf.congr rfl rfl,hsea,h.1.resolve_left hne⟩
  · rename_i hs
    exact ⟨hwf.congr rfl rfl,holds_fail .publishSnapshot h hs _⟩
  · rename_i hs
    cases deletion with
    | done => exact ⟨WellFormed.remote nodup_nil rfl rfl,trivial⟩
    | waiting => exact ⟨hwf.congr rfl rfl,by simp [Holds,hs]⟩
    | failed => exact herror _
  · exact ⟨hwf,h⟩

theorem inv_fenced {p write} (h : Inv v) (hs : v.fenced p write = some v')
    (hwrite : ∀ r, v.record = some r → RowInv v r → p ∈ v.running → r.revision = p.revision →
      write r = some v' → Inv v') : Inv v' := by
  obtain ⟨hp,hs⟩ := of_check hs nofun
  split at hs
  · rename_i r hr
    split at hs
    · rename_i hrev
      exact hwrite r hr (h.row hr) hp hrev hs
    · cases hs
      have hrow := h.row hr
      exact RowInv.inv ⟨hrow.wellFormed,hrow.holds,hrow.fenced.erase p⟩ hr
  · cases hs

theorem inv_create (h : Inv v) (hs : step v .createVolume = some v') : Inv v' := by
  simp only [step] at hs
  split at hs
  · rename_i hr
    cases hs
    have hrunn : v.running = [] := by
      unfold Inv at h
      rwa [hr] at h
    refine ⟨⟨nodup_nil,by simp⟩,rfl,?_⟩
    simp only [hrunn]
    exact ⟨by simp,by simp,by simp [nextState]⟩
  · cases hs

theorem inv_import (h : Inv v) (hs : step v (.acquireSnapshot publication) = some v') : Inv v' := by
  simp only [step,ite_none_right_eq_some,some.injEq,Bool.and_eq_true, decide_eq_true_eq] at hs
  obtain ⟨⟨_,hnodup⟩,rfl⟩ := hs
  refine ⟨WellFormed.remote hnodup rfl rfl,rfl,?_⟩
  cases hr : v.record with
  | none =>
    have hrunn : v.running = [] := by
      unfold Inv at h
      rwa [hr] at h
    simp only [hrunn]
    exact ⟨by simp,by simp,by simp [nextState]⟩
  | some r =>
    have hbegin : Fenced (v.running ++ [⟨r.revision + 1, .acquireSnapshot⟩])
        ⟨r.revision + 1, .importing, some (.acquireSnapshot, .pending), [], publication, ""⟩ :=
      (h.row hr).fenced.begin rfl rfl rfl rfl
    simpa using hbegin

theorem inv_begin {kind} (h : Inv v) (hok : DiscardsParent v (.begin kind))
    (hs : step v (.begin kind) = some v') : Inv v' := by
  simp only [step] at hs
  split at hs
  · rename_i r' hb
    obtain ⟨r,hr,hb⟩ := bind_eq_some_iff.mp hb
    have hrow := h.row hr
    have hholds := holds_begin
      (if kind.completesAtOnce then v.running else v.running ++ [⟨r'.revision, kind⟩])
      hrow.holds hb (by
        rintro rfl
        simpa [DiscardsParent,discardsParent,hr] using hok)
    obtain ⟨_,hr'⟩ := begin_some hb
    have hfen : Fenced (if kind.completesAtOnce then v.running
        else v.running ++ [⟨r'.revision, kind⟩]) r' := by
      subst hr'
      cases hk : kind.completesAtOnce with
      | true => exact hrow.fenced.bump (Nat.lt_succ_self _)
      | false => exact hrow.fenced.begin rfl rfl rfl (by simp)
    have hwf : WellFormed r' := by
      subst hr'
      exact hrow.wellFormed.congr rfl rfl
    cases hs
    cases kind <;> exact ⟨hwf,hholds,hfen⟩
  · cases hs

theorem inv_succeed {p c} (h : Inv v) (hs : step v (.succeed p c publication) = some v') : Inv v' := by
  refine inv_fenced h hs fun r _ hrow hp hrev hwrite => ?_
  obtain ⟨r',hsuc,rfl⟩ := map_eq_some_iff.mp hwrite
  obtain ⟨hstate,hop⟩ := hrow.fenced.current p hp hrev.symm
  obtain ⟨hwf,hholds,hrev'⟩ := succeed_spec (v.running.erase p) hrow.wellFormed hrow.holds
    hstate hop hsuc
  have hfen := hrow.fenced.finish hp hrev hrev'
  obtain ⟨revision,kind⟩ := p
  cases kind <;> exact ⟨hwf,hholds,hfen⟩

theorem inv_adopt {p start stop} (h : Inv v) (hs : step v (.adopt p start stop) = some v') :
    Inv v' := by
  simp only [step,ite_none_right_eq_some] at hs
  obtain ⟨hkind,hs⟩ := hs
  refine inv_fenced h hs fun r _ hrow hp hrev hwrite => ?_
  simp only [ite_none_right_eq_some,some.injEq,Bool.and_eq_true, decide_eq_true_eq] at hwrite
  obtain ⟨⟨hlt,hlen⟩,rfl⟩ := hwrite
  obtain ⟨hstate,_⟩ := hrow.fenced.current p hp hrev.symm
  obtain ⟨hwf,hchain,hsea⟩ := adopt_spec hrow.wellFormed hlt hlen
  have hne : r.chain ≠ [] := fun he => by
    rw [(append_eq_nil_iff.mp he).2] at hlen
    simp only [length_nil] at hlen
    omega
  have hholds := hrow.holds
  refine ⟨hwf,?_,⟨hrow.fenced.distinct,hrow.fenced.bounded,hrow.fenced.current⟩⟩
  simp only [Bool.or_eq_true,decide_eq_true_eq] at hkind
  rcases hkind with hkind | hkind
  · rw [hkind] at hstate
    simp only [Holds,hstate,adopt] at hholds ⊢
    have hc : v.committed = some (captures r.chain) := hholds.resolve_left hne
    exact .inr (hc.trans (congrArg some hchain.symm))
  · rw [hkind] at hstate
    simp only [Holds,hstate] at hholds
    simp only [hstate,adopt]
    have hc : v.committed = some (captures r.chain) := hholds.2
    exact ⟨hsea,hc.trans (congrArg some hchain.symm)⟩

theorem inv_step {e} (h : Inv v) (hok : DiscardsParent v e) (hs : step v e = some v') : Inv v' := by
  cases e with
  | createVolume => exact inv_create h hs
  | acquireSnapshot => exact inv_import h hs
  | begin => exact inv_begin h hok hs
  | succeed => exact inv_succeed h hs
  | fail p error =>
    refine inv_fenced h hs fun r _ hrow hp hrev hwrite => ?_
    cases hwrite
    obtain ⟨hstate,_⟩ := hrow.fenced.current p hp hrev.symm
    exact ⟨hrow.wellFormed.congr rfl rfl,holds_fail p.kind hrow.holds hstate error,
      hrow.fenced.finish hp hrev rfl⟩
  | stall p =>
    simp only [step,ite_none_right_eq_some] at hs
    refine inv_fenced h hs.2 fun r _ hrow hp hrev hwrite => ?_
    cases hwrite
    obtain ⟨hstate,_⟩ := hrow.fenced.current p hp hrev.symm
    rw [hs.1] at hstate
    exact ⟨hrow.wellFormed.congr rfl rfl,by simp [Holds,hstate,nextState],
      hrow.fenced.finish hp hrev rfl⟩
  | adopt => exact inv_adopt h hs
  | supersede =>
    simp only [step] at hs
    split at hs
    · rename_i r hr
      obtain ⟨hstate,rfl⟩ := some_of_check hs
      have hrow := h.row hr
      have hholds := hrow.holds
      simp only [Holds,hstate] at hholds
      exact ⟨hrow.wellFormed.congr rfl rfl,hholds,hrow.fenced.bump (Nat.lt_succ_self _)⟩
    · cases hs
  | crash =>
    cases hs
    cases hr : v.record with
    | none => exact rfl
    | some =>
      have hrow := h.row hr
      exact RowInv.inv ⟨hrow.wellFormed,hrow.holds,⟨nodup_nil,by simp,by simp⟩⟩ rfl
  | reconcile ownerMatches deletion =>
    obtain ⟨hrunn,rfl⟩ := some_of_check hs
    cases hr : v.record with
    | none => simpa [Inv] using hrunn
    | some =>
      have hrow := h.row hr
      obtain ⟨hwf,hholds⟩ := reconcile_spec hrow.wellFormed hrow.holds (fun hrel => by
        simpa [DiscardsParent,discardsParent,hr,hrel] using hok) ownerMatches deletion
      exact ⟨hwf,hholds,by simp only [hrunn]; exact ⟨nodup_nil,by simp,by simp⟩⟩

/-- If discards only return what was mounted, a published volume's remote layers alone hold its
latest committed data, and a released volume has a local layer to publish. -/
theorem volume_complete (v : Volume) (hv : Reaches step DiscardsParent Start v) : Complete v := by
  have hinv : Inv v := by
    refine hv.invariant (fun v hstart => ?_) fun _ _ _ => inv_step
    rw [hstart]
    rfl
  exact hinv.complete

namespace Example

theorem new_starts : Start {} := rfl

def captured : List Event :=
  [.acquireSnapshot [⟨[0]⟩], .succeed ⟨1,.acquireSnapshot⟩ 0 [], .begin .mountSnapshotCow,
   .succeed ⟨2,.mountSnapshotCow⟩ 0 [], .begin .prepareCapture, .succeed ⟨3,.prepareCapture⟩ 1 [],
   .begin .commitCapture, .begin .releaseRuntime, .succeed ⟨5,.releaseRuntime⟩ 0 []]

def uploaded : List Event :=
  captured ++ [.begin .publishSnapshot, .succeed ⟨6,.publishSnapshot⟩ 0 [⟨[0,1]⟩]]

def wakeRolledBack : List Event :=
  captured ++ [.begin .mountSnapshotCow, .succeed ⟨6,.mountSnapshotCow⟩ 0 [],
    .begin .discardMountedCow, .succeed ⟨7,.discardMountedCow⟩ 0 []]

def discardInterrupted : List Event :=
  [.acquireSnapshot [⟨[0]⟩], .succeed ⟨1,.acquireSnapshot⟩ 0 [], .begin .mountSnapshotCow,
   .succeed ⟨2,.mountSnapshotCow⟩ 0 [], .begin .discardMountedCow, .crash, .reconcile true .done]

def abortedPublished : List Event :=
  [.createVolume, .succeed ⟨1,.createVolume⟩ 0 [], .begin .prepareCapture,
   .succeed ⟨2,.prepareCapture⟩ 1 [], .begin .abortCapture, .begin .discardMountedCow,
   .succeed ⟨4,.discardMountedCow⟩ 0 [], .begin .publishSnapshot,
   .succeed ⟨5,.publishSnapshot⟩ 0 [⟨[1]⟩]]

end Example

open Example

theorem volume_complete_uploaded : ∃ v, Reaches step DiscardsParent Start v ∧
      (∃ r, v.record = some r ∧ r.state = .published ∧ r.publishedLayers = [⟨[0,1]⟩]) ∧ Complete v := by
  obtain ⟨v,hv,hp⟩ := Reaches.exists_of_runMeeting step DiscardsParent new_starts uploaded (fun v =>
    ∃ r ∈ v.record, r.state = .published ∧ r.publishedLayers = [⟨[0,1]⟩]) (by decide +kernel)
  exact ⟨v,hv,hp,volume_complete v hv⟩

/-- Discarding a mount leaves a published row with its latest capture local; an interrupted discard
a released one without any; an aborted capture gets published. -/
theorem volume_incomplete :
    (∃ v r, Reaches step anyEvent Start v ∧ v.record = some r ∧ r.state = .published ∧
      r.sealedLayerPaths = [⟨[1]⟩] ∧ ¬ Complete v) ∧
    (∃ v r, Reaches step anyEvent Start v ∧ v.record = some r ∧ r.state = .released ∧
      r.sealedLayerPaths = [] ∧ ¬ Complete v) ∧
    ∃ v r, Reaches step anyEvent Start v ∧ v.record = some r ∧ r.state = .published ∧
      v.committed = none ∧ ¬ Complete v := by
  refine ⟨?_,?_,?_⟩
  · obtain ⟨v,hv,r,hr,hstate,hpaths⟩ := Reaches.exists_of_run step new_starts wakeRolledBack (fun v =>
      ∃ r ∈ v.record, r.state = .published ∧ r.sealedLayerPaths = [⟨[1]⟩]) (by decide +kernel)
    refine ⟨v,r,hv,hr,hstate,hpaths,fun hcpl => ?_⟩
    have := ((hcpl r hr).1 hstate).1
    simp [hpaths] at this
  · obtain ⟨v,hv,r,hr,hstate,hpaths⟩ := Reaches.exists_of_run step new_starts discardInterrupted (fun v =>
      ∃ r ∈ v.record, r.state = .released ∧ r.sealedLayerPaths = []) (by decide +kernel)
    refine ⟨v,r,hv,hr,hstate,hpaths,fun hcpl => ?_⟩
    obtain ⟨layer,hl,_⟩ := (hcpl r hr).2 hstate
    simp [hpaths] at hl
  · obtain ⟨v,hv,r,hr,hstate,hnone⟩ := Reaches.exists_of_run step new_starts abortedPublished (fun v =>
      ∃ r ∈ v.record, r.state = .published ∧ v.committed = none) (by decide +kernel)
    refine ⟨v,r,hv,hr,hstate,hnone,fun hcpl => ?_⟩
    have := ((hcpl r hr).1 hstate).2
    simp [hnone] at this

end UCloudSandboxes.Storage
