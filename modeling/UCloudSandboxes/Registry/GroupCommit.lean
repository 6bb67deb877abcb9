import UCloudSandboxes.Registry.GroupPhases

namespace UCloudSandboxes.Registry
open Machine Inv Store Option Function

variable {σ : Schema} {α : Type} {initial : Tables σ}

namespace System

def Standing (s : System σ α) : Option (Holder σ) → Prop
  | some (.entered w) | some (.begun w) | some (.proved w) | some (.joined w) =>
    ∃ body, s.calls w = some ⟨body,.arrived⟩
  | some (.ran w (some _)) => ∃ body, s.calls w = some ⟨body,.arrived⟩
  | some (.committed w (some _) _ _ _) => ∃ body, s.calls w = some ⟨body,.arrived⟩
  | some (.ran w none) => ∃ body g value, s.calls w = some ⟨body,.waiting g value⟩ ∧
      s.store.group.map (·.id) = some g
  | _ => True

structure Inv (initial : Tables σ) (s : System σ α) : Prop where
  sound : s.store.Sound initial
  phase : s.store.Phase initial s.holder
  placed : ∀ w, s.store.Placed initial w (s.calls w)
  standing : s.Standing s.holder

def NotReading : Option (Holder σ) → Prop
  | some (.reader _) | some (.reading ..) | some (.refreshed _) => False
  | _ => True

/-- A writer's move keeps the reads, only adds to the history and hands no reader the turn. -/
structure Onward (s s' : System σ α) : Prop where
  reads : s'.reads = s.reads
  history : ∃ later, s'.store.history = s.store.history ++ later
  holder : NotReading s'.holder

variable {s s' : System σ α}

theorem start_inv (h : Start initial s) : s.Inv initial := by
  subst h
  refine ⟨⟨rfl,fun _ => rfl,fun _ _ => rfl⟩,⟨nofun,.inl ⟨rfl,rfl,?_⟩⟩,?_,trivial⟩
  · intro c hc
    cases hc
  · exact fun w => ⟨nofun,nofun⟩

theorem Inv.release (hsound : s.store.Sound initial) (hcurr : s.store.Current)
    (hsett : s.store.Settled) (hpl : ∀ w, s.store.Placed initial w (s.calls w))
    (hh : s.holder = none) : s.Inv initial :=
  ⟨hsound,by rw [hh]; exact ⟨hcurr,hsett⟩,hpl,by rw [hh]; trivial⟩

variable {w : Nat} {store : Store σ α} {failure : Option RegistryError}

theorem placed_update {calls call} (h : ∀ v, v ≠ w → store.Placed initial v (calls v))
    (hw : store.Placed initial w call) (v) :
    store.Placed initial v (Function.update calls w call v) := by
  by_cases hv : v = w
  · subst hv
    rw [update_self]
    exact hw
  · rw [update_of_ne hv]
    exact h v hv

theorem leave_store (s : System σ α) (store w failure) : (s.leave store w failure).store = store := by
  cases failure <;> rfl

@[simp]
theorem abandonGroup_history (s : Store σ α) (e) : (s.abandonGroup e).history = s.history := by
  unfold abandonGroup
  split <;> rfl

theorem Onward.leave (h : store.history = s.store.history) : s.Onward (s.leave store w failure) := by
  cases failure <;> exact ⟨rfl,⟨[],by simpa [System.leave,setCall] using h⟩,trivial⟩

theorem Inv.leave (hsound : store.Sound initial) (hcurr : store.Current)
    (hsett : store.Settled) (hpl : ∀ v, store.Placed initial v (s.calls v))
    (hw : failure.isSome → store.Absent w) : (s.leave store w failure).Inv initial := by
  cases failure with
  | none => exact release hsound hcurr hsett hpl rfl
  | some =>
    refine release hsound hcurr hsett (placed_update (fun v _ => hpl v) ?_) rfl
    cases hc : s.calls w with
    | none | some => exact hw rfl

theorem Inv.setRead (h : s.Inv initial) (r state) : (s.setRead r state).Inv initial := by
  refine ⟨h.sound,h.phase,h.placed,?_⟩
  have hs := h.standing
  exact hs

theorem absent_of_arrived {body} (hpl : ∀ w, store.Placed initial w (s.calls w))
    (hc : s.calls w = some ⟨body,.arrived⟩) : store.Absent w := by
  have h := hpl w
  rw [hc] at h
  exact h

section
variable (h : s.Inv initial)
include h

theorem Inv.leaveDropped {body} (hg : s.store.group = none) (hm : s.store.members = [])
    (hw : s.calls w = some ⟨body,.arrived⟩) (e) :
    (s.leave s.store.dropOwnerConnection w (some e)).Inv initial ∧
      s.Onward (s.leave s.store.dropOwnerConnection w (some e)) :=
  ⟨leave h.sound.dropOwnerConnection (current_dropOwnerConnection _)
    (.inl ⟨hg,hm,nofun⟩)
    (fun v => (h.placed v).congr rfl rfl rfl rfl rfl rfl) fun _ => absent_of_arrived h.placed hw,
    .leave rfl⟩

theorem Inv.holding {x} (hh : s.holder = x) : s.store.Phase initial x ∧ s.Standing x :=
  hh ▸ ⟨h.phase,h.standing⟩

theorem Inv.beginGroup (hh : s.holder = some (.entered w)) {connect begun}
    (hs : s.stepHolder (.entered w) (.beginGroup connect begun) = some s') : s'.Inv initial ∧ s.Onward s' := by
  obtain ⟨⟨hcur,hset⟩,body,hw⟩ := h.holding hh
  unfold stepHolder at hs
  dsimp only at hs
  split at hs
  · rename_i hg
    cases hs
    exact ⟨⟨h.sound,⟨hcur,hset.isOpen hg⟩,h.placed,body,hw⟩,rfl,⟨[],by simp⟩,trivial⟩
  · rename_i hg
    have hq := hset.quiet (by simpa using hg)
    split at hs
    · rename_i store hb
      cases hs
      obtain ⟨c,hc,rfl⟩ := beginImmediate_ok hb
      exact ⟨⟨h.sound.withOwner _,⟨hcur.withOwner h.sound hc rfl,_,hq.group_eq,hq.members_eq,rfl,rfl⟩,
        fun v => (h.placed v).congr rfl rfl rfl rfl rfl rfl,body,hw⟩,rfl,⟨[],by simp⟩,trivial⟩
    · rename_i e store hb
      cases hs
      rcases beginImmediate_error hb with rfl | rfl
      · exact ⟨leave h.sound hcur hset h.placed fun _ => absent_of_arrived h.placed hw,.leave rfl⟩
      · exact h.leaveDropped hq.group_eq hq.members_eq hw e

theorem Inv.proveIndex (hh : s.holder = some (.begun w)) {readable}
    (hs : s.stepHolder (.begun w) (.proveIndex readable) = some s') : s'.Inv initial ∧ s.Onward s' := by
  obtain ⟨⟨hcur,c,hb⟩,body,hw⟩ := h.holding hh
  unfold stepHolder at hs
  dsimp only at hs
  split at hs
  · rename_i store hp
    cases hs
    rw [hb.owner_eq] at hp
    obtain ⟨hcur',hsound',index,rfl,hv⟩ := hcur.proveIndex h.sound (by simp [hb.owner_eq])
      (fun c' hc' => by
        cases hb.owner_eq.symm.trans hc'
        exact ⟨le_rfl,fun _ => rfl⟩) hp
    exact ⟨⟨hsound',⟨hcur',c,index,⟨hb.group_eq,hb.members_eq,hb.owner_eq,hb.transaction_eq⟩,rfl,hv⟩,
      fun v => (h.placed v).congr rfl rfl rfl rfl rfl rfl,body,hw⟩,rfl,⟨[],by simp⟩,trivial⟩
  · rename_i e hp
    cases hs
    exact h.leaveDropped hb.group_eq hb.members_eq hw e

theorem Inv.openGroup (hh : s.holder = some (.proved w)) {now}
    (hs : s.stepHolder (.proved w) (.openGroup now) = some s') : s'.Inv initial ∧ s.Onward s' := by
  obtain ⟨⟨hcur,c,index,hb,hi,hv⟩,body,hw⟩ := h.holding hh
  cases hs
  exact ⟨⟨h.sound.openGroup now,⟨hcur,_,c,index,_,hb.openGroup h.sound hcur hi hv now⟩,
    fun v => (h.placed v).openGroup hb.group_eq now,body,hw⟩,rfl,⟨[],by simp [Store.openGroup]⟩,trivial⟩

theorem Inv.member (hh : s.holder = some (.joined w)) {answers}
    (hs : s.stepHolder (.joined w) (.member answers) = some s') : s'.Inv initial ∧ s.Onward s' := by
  obtain ⟨⟨hcur,group,c,index,tables,hopen⟩,body,hw⟩ := h.holding hh
  have habsent : s.store.Absent w := absent_of_arrived h.placed hw
  unfold stepHolder at hs
  simp only [hw,hopen.group_eq] at hs
  obtain ⟨value,tables',staging,hm,hser,hidx,hrefl⟩ | ⟨ran,hm,hran⟩ :=
    member_spec hopen w body answers
  · rw [hm] at hs
    cases hs
    subst hidx
    refine ⟨⟨⟨h.sound.replay,nofun,h.sound.unfinished⟩,⟨?_,?_⟩,?_,?_⟩,rfl,⟨[],by simp [setCall]⟩,trivial⟩
    · intro c' index' hc' hi
      obtain rfl := some.inj hc'
      exact hcur c index' hopen.owner_eq hi
    · refine ⟨group,_,staging.index,tables',hopen.group_eq,rfl,rfl,hopen.index_eq,hopen.version,hopen.revision,
        hrefl,?_,hopen.issued,hopen.unfinished⟩
      show (s.store.members ++ [(⟨w,body⟩ : Member σ α)]).foldlM Member.apply s.store.committed =
        some tables'
      rw [List.foldlM_append,hopen.members_run]
      simp [Member.apply,hser]
    · refine placed_update (fun v hv => (h.placed v).join (Ne.symm hv) rfl rfl rfl rfl rfl rfl) ?_
      rw [hw]
      refine ⟨hopen.issued,.inl ⟨by rw [hopen.group_eq]; rfl,hopen.unfinished,habsent.1,
        s.store.members,[],tables,tables',rfl,hopen.members_run,hser⟩⟩
    · refine ⟨body,group.id,value,?_,by rw [hopen.group_eq]; rfl⟩
      show Function.update s.calls w _ w = _
      rw [update_self,hw]
      rfl
  · rw [hm] at hs
    have haba := fun e => Store.Settled.abandonGroup
      (.inr ⟨group,c,index,tables,hopen⟩) hcur h.sound e
    have hgone : ∀ e, (s.store.abandonGroup e).Absent w := fun e =>
      (show s.store.Placed initial w (some ⟨body,.arrived⟩) from habsent).abandonGroup e
    cases ran with
    | joined value => exact absurd rfl (hran value)
    | failed =>
      cases hs
      exact ⟨⟨h.sound,⟨hcur,.inr ⟨group,c,index,tables,hopen⟩⟩,h.placed,body,hw⟩,rfl,⟨[],by simp⟩,trivial⟩
    | lost e cause =>
      cases hs
      obtain ⟨hq,hcur',hsound'⟩ := haba cause
      exact ⟨⟨hsound',⟨hcur',.inl hq⟩,fun v => (h.placed v).abandonGroup cause,body,hw⟩,rfl,
        ⟨[],by simp⟩,trivial⟩
    | panicked =>
      cases hs
      obtain ⟨hq,hcur',hsound'⟩ := haba (.registry "direct registry writer panicked")
      refine ⟨release hsound' hcur' (.inl hq) ?_ rfl,rfl,⟨[],by simp [setCall]⟩,trivial⟩
      refine placed_update (fun v _ => (h.placed v).abandonGroup _) ?_
      rw [hw]
      exact hgone _

theorem Inv.settle (hh : s.holder = some (.ran w failure)) {committed}
    (hs : s.stepHolder (.ran w failure) (.settle committed) = some s') : s'.Inv initial ∧ s.Onward s' := by
  obtain ⟨hphase,hst⟩ := h.holding hh
  have hcur : s.store.Current := by
    cases failure <;> exact hphase.1
  have hset : s.store.Settled := by
    cases failure with
    | none => exact .inr hphase.2
    | some => exact hphase.2
  have habsent : failure.isSome → s.store.Absent w := by
    cases failure with
    | none => exact nofun
    | some =>
      obtain ⟨body,hw⟩ := hst
      exact fun _ => absent_of_arrived h.placed hw
  unfold stepHolder at hs
  dsimp only at hs
  split at hs
  · cases hs
    exact ⟨leave h.sound hcur hset h.placed habsent,.leave rfl⟩
  · rename_i group hg
    split at hs
    · obtain ⟨group',c,index,tables,hopen⟩ := hset.isOpen (by rw [hg]; rfl)
      cases hopen.group_eq.symm.trans hg
      cases committed with
      | true =>
        obtain ⟨store,hcm⟩ : ∃ store, s.store.commitSql true = .ok store := by
          unfold commitSql
          rw [hg,hopen.pending]
          exact ⟨_,rfl⟩
        rw [hcm] at hs
        cases hs
        obtain ⟨hbeh,hsound',hout,hnext⟩ := hopen.commitSql h.sound hcm
        refine ⟨⟨hsound',⟨index,_,_,_,tables,hbeh⟩,fun v => ?_,?_⟩,rfl,⟨_,hbeh.history_eq⟩,trivial⟩
        · exact (h.placed v).commit h.sound hbeh.history_eq hbeh.quiet.members_eq
            hbeh.quiet.group_eq hout hnext
        · cases failure with
          | none => trivial
          | some => exact hst
      | false =>
        have hcm : s.store.commitSql false = .error (.unreadable,s.store.abandonGroup .unreadable) := by
          unfold commitSql
          rw [hg,hopen.pending]
          rfl
        rw [hcm] at hs
        cases hs
        obtain ⟨hq,hcur',hsound'⟩ := hset.abandonGroup hcur h.sound .unreadable
        refine ⟨leave hsound' hcur' (.inl hq) (fun v => (h.placed v).abandonGroup _) fun _ => ?_,
          .leave (by simp)⟩
        have hpl := h.placed w
        cases failure with
        | none =>
          obtain ⟨body,g,value,hw,hgid⟩ := hst
          rw [hw] at hpl
          exact hpl.absent_of_abandoned hgid _
        | some =>
          obtain ⟨body,hw⟩ := hst
          rw [hw] at hpl
          exact hpl.abandonGroup _
    · cases hs
      exact ⟨leave h.sound hcur hset h.placed habsent,.leave rfl⟩

theorem Inv.publish {group staged bumps}
    (hh : s.holder = some (.committed w failure group staged bumps))
    (hs : s.stepHolder (.committed w failure group staged bumps) .publish = some s') :
    s'.Inv initial ∧ s.Onward s' := by
  obtain ⟨⟨index,earlier,later,members,tables,hbeh⟩,hst⟩ := h.holding hh
  cases hs
  obtain ⟨hq,hcur,hsound⟩ := hbeh.publish h.sound
  have hpl := fun v => (h.placed v).publish hbeh.quiet.group_eq hbeh.unfinished staged bumps
  refine ⟨leave hsound hcur (.inl hq) hpl ?_,.leave (by simp [Store.publish,finish])⟩
  cases failure with
  | none => simp
  | some =>
    obtain ⟨body,hw⟩ := hst
    exact fun _ => absent_of_arrived hpl hw

theorem Inv.writer {holder move} (hh : s.holder = some holder)
    (hs : s.stepHolder holder move = some s') (hw : NotReading (some holder)) :
    s'.Inv initial ∧ s.Onward s' := by
  cases holder with
  | reading | refreshed | reader => exact hw.elim
  | entered => cases move <;> first | exact h.beginGroup hh hs | cases hs
  | begun => cases move <;> first | exact h.proveIndex hh hs | cases hs
  | proved => cases move <;> first | exact h.openGroup hh hs | cases hs
  | joined => cases move <;> first | exact h.member hh hs | cases hs
  | ran => cases move <;> first | exact h.settle hh hs | cases hs
  | committed => cases move <;> first | exact h.publish hh hs | cases hs

end

theorem Inv.leaveReader {r} (hsound : store.Sound initial) (hcur : store.Current)
    (hset : store.Settled) (hpl : ∀ v, store.Placed initial v (s.calls v)) :
    (s.leaveReader store r).Inv initial :=
  release hsound hcur hset hpl rfl

theorem Inv.failReader {r e} (hsound : store.Sound initial) (hcur : store.Current) (hq : store.Quiet)
    (hpl : ∀ v, store.Placed initial v (s.calls v)) (stuck) :
    (s.failReader store r e stuck).Inv initial := by
  cases stuck with
  | false => exact release hsound hcur (.inl hq) hpl rfl
  | true =>
    exact release hsound.dropOwnerConnection (current_dropOwnerConnection _)
      (.inl ⟨hq.group_eq,hq.members_eq,nofun⟩)
      (fun v => (hpl v).congr rfl rfl rfl rfl rfl rfl) rfl

theorem Inv.examine (h : s.Inv initial) {r} (hh : s.holder = some (.reader r)) {connect opened}
    (hs : s.stepHolder (.reader r) (.examine connect opened) = some s') : s'.Inv initial := by
  obtain ⟨⟨hcur,hset⟩,-⟩ := h.holding hh
  unfold stepHolder at hs
  dsimp only at hs
  split at hs
  · cases hs
    exact release h.sound hcur hset h.placed rfl
  · split at hs
    · cases hs
      exact leaveReader h.sound hcur hset h.placed
    · rename_i hg
      have hq := hset.quiet (by simpa using hg)
      have howned : ∀ {c : Connection σ}, s.store.connection connect = some c →
          Store.Quiet { s.store with owner := some c } := by
        intro c hc
        refine ⟨hq.group_eq,hq.members_eq,fun c' hc' => ?_⟩
        obtain rfl := some.inj hc'
        rcases connection_some hc with ho | ⟨_,ht⟩
        · exact hq.idle c ho
        · exact ht
      split at hs
      · cases hs
        exact failReader h.sound hcur hq h.placed false
      · rename_i c hc
        cases hs
        have hcur' : Store.Current { s.store with owner := some c } := hcur.withOwner h.sound hc rfl
        refine ⟨h.sound.withOwner c,⟨hcur',howned hc,fun c' hc' => ?_,fun index hi hv => ?_,by simp⟩,
          fun v => (h.placed v).congr rfl rfl rfl rfl rfl rfl,trivial⟩
        · obtain rfl := some.inj hc'
          exact ⟨le_rfl,fun _ => rfl⟩
        · exact (hcur' c index rfl hi).2 hv
      · rename_i c hc _
        cases hs
        exact failReader (h.sound.withOwner c) (hcur.withOwner h.sound hc rfl) (howned hc)
          (fun v => (h.placed v).congr rfl rfl rfl rfl rfl rfl) _

theorem Inv.proveSnapshot (h : s.Inv initial) {r snapshot dataVersion}
    (hh : s.holder = some (.reading r snapshot dataVersion)) {readable stuck}
    (hs : s.stepHolder (.reading r snapshot dataVersion) (.proveSnapshot readable stuck) = some s') :
    s'.Inv initial := by
  obtain ⟨⟨hcur,hsnap⟩,-⟩ := h.holding hh
  unfold stepHolder at hs
  dsimp only at hs
  split at hs
  · rename_i store hp
    cases hs
    obtain ⟨hcur',hsound',index,rfl,hv⟩ := hcur.proveIndex h.sound hsnap.owned hsnap.current hp
    exact ⟨hsound',⟨hcur',hsnap.quiet.group_eq,hsnap.quiet.members_eq,hsnap.quiet.idle⟩,
      fun v => (h.placed v).congr rfl rfl rfl rfl rfl rfl,trivial⟩
  · rename_i e hp
    cases hs
    exact failReader h.sound hcur hsnap.quiet h.placed stuck

theorem Inv.stamp (h : s.Inv initial) {r now} (hh : s.holder = some (.refreshed r)) {ended}
    (hs : s.stepHolder (.refreshed r) (.stamp now ended) = some s') : s'.Inv initial := by
  obtain ⟨⟨hcur,hq⟩,-⟩ := h.holding hh
  have hpl : ∀ v, Store.Placed initial { s.store with checkedAt := some now } v (s.calls v) :=
    fun v => (h.placed v).congr rfl rfl rfl rfl rfl rfl
  have hsound : Store.Sound initial { s.store with checkedAt := some now } := h.sound.flagged
  have hquiet : Store.Quiet { s.store with checkedAt := some now } := hq.flagged
  unfold stepHolder at hs
  dsimp only at hs
  split at hs
  · cases hs
    exact leaveReader hsound hcur (.inl hquiet) hpl
  · cases hs
    exact failReader hsound hcur hquiet hpl _

theorem Standing.update {holder} (h : s.Standing holder) (call)
    (hw : ∀ body, s.calls w ≠ some ⟨body,.arrived⟩)
    (hg : ∀ body g value, s.calls w = some ⟨body,.waiting g value⟩ → s.store.group.map (·.id) ≠ some g)
    : Standing { s with calls := Function.update s.calls w call } holder := by
  have harr : ∀ {v : Nat}, (∃ body, s.calls v = some ⟨body,.arrived⟩) →
      ∃ body, Function.update s.calls w call v = some ⟨body,.arrived⟩ := by
    rintro v ⟨body,hv⟩
    have hne : v ≠ w := by
      rintro rfl
      exact hw body hv
    exact ⟨body,by rw [update_of_ne hne,hv]⟩
  match holder, h with
  | none, _ | some (.committed _ none _ _ _), _ | some (.reader _), _ | some (.reading ..), _
  | some (.refreshed _), _ => trivial
  | some (.entered v), h | some (.begun v), h | some (.proved v), h | some (.joined v), h
  | some (.ran v (some _)), h | some (.committed v (some _) _ _ _), h => exact harr h
  | some (.ran v none), ⟨body,g,value,hv,hgid⟩ =>
    have hne : v ≠ w := by
      rintro rfl
      exact hg body g value hv hgid
    exact ⟨body,g,value,(update_of_ne hne _ _).trans hv,hgid⟩

section
variable (h : s.Inv initial)
include h

theorem Inv.arrive {body} (hs : s.step (.arrive w body) = some s') : s'.Inv initial := by
  obtain ⟨hfree,rfl⟩ := some_of_guard hs
  have hnone : s.calls w = none := by
    simp only [Bool.or_eq_true,not_or] at hfree
    simpa using hfree.1
  refine ⟨h.sound,h.phase,placed_update (fun v _ => h.placed v) ?_,?_⟩
  · have hw := h.placed w
    rw [hnone] at hw
    exact hw
  · exact Standing.update h.standing _ (by simp [hnone]) (by simp [hnone])

theorem Inv.wake (hs : s.step (.wake w) = some s') : s'.Inv initial := by
  simp only [step] at hs
  split at hs
  case h_2 => cases hs
  case h_1 body g value hw =>
    have hpl := h.placed w
    rw [hw] at hpl
    have hnot : ∀ outcome, s.store.outcomes g = some outcome → s.store.group.map (·.id) ≠ some g := by
      intro outcome ho hg
      rcases hpl.2 with ⟨_,hnone,_⟩ | ⟨hne,_⟩
      · rw [hnone] at ho
        cases ho
      · exact hne hg
    have hsta : ∀ outcome call, s.store.outcomes g = some outcome →
        Standing { s with calls := Function.update s.calls w call } s.holder := by
      intro outcome call ho
      refine Standing.update h.standing call (by simp [hw]) ?_
      intro body' g' value' hw'
      obtain ⟨rfl,rfl,rfl⟩ : body = body' ∧ g = g' ∧ value = value' := by simpa using hw.symm.trans hw'
      exact hnot outcome ho
    cases ho : s.store.outcomes g with
    | none => rw [ho] at hs; cases hs
    | some outcome =>
      rw [ho] at hs
      have hne := hnot outcome ho
      cases outcome with
      | ok =>
        cases hs
        refine ⟨h.sound,h.phase,placed_update (fun v _ => h.placed v) ?_,hsta _ _ ho⟩
        rw [hw]
        rcases hpl.2 with ⟨heq,_⟩ | ⟨_,⟨_,hcon⟩ | ⟨⟨e,herr⟩,_⟩⟩
        · exact absurd heq hne
        · exact hcon
        · rw [ho] at herr
          cases herr
      | error e =>
        cases hs
        refine ⟨h.sound,h.phase,placed_update (fun v _ => h.placed v) ?_,hsta _ _ ho⟩
        rw [hw]
        rcases hpl.2 with ⟨heq,_⟩ | ⟨_,⟨hok,_⟩ | ⟨_,ha⟩⟩
        · exact absurd heq hne
        · exact absurd ho (hok e)
        · exact ha

theorem Inv.close (hs : s.step .close = some s') : s'.Inv initial := by
  obtain ⟨hh,hs⟩ := of_guard hs nofun
  have hnone : s.holder = none := by simpa using hh
  cases hs
  have hphase := (h.holding hnone).1
  obtain ⟨hq,_,hsound⟩ := hphase.2.abandonGroup hphase.1 h.sound (.registry "direct registry was closed")
  refine release ⟨hsound.replay,fun _ => rfl,hsound.unfinished⟩ nofun
    (.inl ⟨hq.group_eq,hq.members_eq,nofun⟩) (fun v => ?_) hnone
  exact ((h.placed v).abandonGroup _).congr rfl rfl rfl rfl rfl rfl

theorem Inv.foreign {after} (hs : s.step (.foreign after) = some s') : s'.Inv initial := by
  obtain ⟨store,hf,rfl⟩ := map_eq_some_iff.mp hs
  obtain ⟨hphase,hsound⟩ := h.phase.foreign h.sound hf
  obtain ⟨hp,rfl⟩ := foreignCommit_some hf
  exact ⟨hsound,hphase,fun v => (h.placed v).foreign (h.phase.quiet hp) after rfl rfl rfl rfl rfl,
    h.standing⟩

theorem Inv.flagged {ownerLock owning checkedAt} :
    Inv initial { s with store := s.store.flagged ownerLock owning checkedAt } :=
  ⟨h.sound.flagged,h.phase.flagged,fun v => (h.placed v).congr rfl rfl rfl rfl rfl rfl,h.standing⟩

theorem Inv.step {move} (hs : s.step move = some s') : s'.Inv initial := by
  cases move with
  | arrive => exact h.arrive hs
  | enter =>
    simp only [System.step] at hs
    split at hs
    case h_2 => cases hs
    case h_1 body hh hw =>
      cases hs
      have hphase := h.phase
      rw [hh] at hphase
      exact ⟨h.sound,hphase,h.placed,body,hw⟩
  | wake => exact h.wake hs
  | foreign => exact h.foreign hs
  | own =>
    simp only [System.step] at hs
    split at hs
    · cases hs
    · cases hs
      exact h.flagged
  | close => exact h.close hs
  | call =>
    simp only [System.step] at hs
    split at hs
    · cases hs
    · cases hs
      exact ⟨h.sound,h.phase,h.placed,h.standing⟩
  | expire r =>
    simp only [System.step] at hs
    split at hs
    case h_2 => cases hs
    case h_1 =>
      cases hs
      obtain ⟨checkedAt,he⟩ := s.store.expire_flagged
      rw [he]
      exact setRead h.flagged r .expired
  | sample r | read r =>
    simp only [System.step] at hs
    split at hs
    case h_2 => cases hs
    case h_1 =>
      cases hs
      exact h.setRead r _
  | tryTurn r =>
    simp only [System.step] at hs
    split at hs
    case h_1 hh =>
      cases hs
      have hphase := h.phase
      rw [hh] at hphase
      exact ⟨h.sound,hphase,h.placed,trivial⟩
    case h_2 =>
      cases hs
      exact h.setRead r _
    case h_3 => cases hs
  | beginGroup | proveIndex | openGroup | member | settle | publish | examine | proveSnapshot | stamp =>
    obtain ⟨holder,hh,hs⟩ := bind_eq_some_iff.mp hs
    cases holder with
    | reader => first | exact h.examine hh hs | cases hs
    | reading => first | exact h.proveSnapshot hh hs | cases hs
    | refreshed => first | exact h.stamp hh hs | cases hs
    | _ => exact (h.writer hh hs trivial).1

end

theorem reaches_inv (h : Reaches System.step anyEvent (Start initial) s) : s.Inv initial :=
  h.invariant (fun _ hs => start_inv hs) fun _ _ _ hi _ => hi.step

end System

open Registry.System in
/-- Success is reported only of a body that a finished COMMIT contains, a failed body is in none,
and the index is the committed rows until another connection commits. -/
theorem group_commit_exact {s : System σ α} (h : Reaches System.step anyEvent (Start initial) s) :
    (∀ w body value, s.calls w = some ⟨body,.returned (.ok value)⟩ →
      Contained initial s.store.history w body value) ∧
    (∀ w body, (∃ e, s.calls w = some ⟨body,.returned (.error e)⟩) ∨ s.calls w = some ⟨body,.panicked⟩ →
      Uncommitted s.store.history w) ∧
    s.store.history.foldlM Commit.apply initial = some s.store.committed ∧
    (∀ s', s.step .publish = some s' → ∃ earlier members later tables index,
      s'.store.history = earlier ++ .group members :: later ∧
      (∀ commit ∈ later, ∃ after, commit = .foreign after) ∧
      (earlier ++ [.group members]).foldlM Commit.apply initial = some tables ∧
      s'.store.index = some index ∧ index.Matches tables) ∧
    ((∀ w failure group staged bumps, s.holder ≠ some (.committed w failure group staged bumps)) →
      s.store.Current) := by
  have hinv := reaches_inv h
  refine ⟨fun w body value hw => ?_,fun w body hw => ?_,hinv.sound.replay,fun s' hs => ?_,fun hh => ?_⟩
  · have hp := hinv.placed w
    rw [hw] at hp
    exact hp
  · have hp := hinv.placed w
    rcases hw with ⟨e,hw⟩ | hw
    · rw [hw] at hp
      exact hp.1
    · rw [hw] at hp
      exact hp.1
  · obtain ⟨holder,hh,hs⟩ := bind_eq_some_iff.mp hs
    cases holder with
    | committed =>
      have hphase := hinv.phase
      rw [hh] at hphase
      obtain ⟨index,earlier,later,members,tables,hbeh⟩ := hphase
      obtain ⟨published,hpub,hm,-⟩ := hbeh.publishedIndex
      cases hs
      refine ⟨earlier,members,later,tables,published,?_,hbeh.later_foreign,hbeh.committed_eq,?_,hm⟩
      · exact (leave_store ..).symm ▸ hbeh.history_eq
      · exact (leave_store ..).symm ▸ hpub
    | _ => cases hs
  · exact hinv.phase.current hh

namespace Example

def schema : Schema where
  Registration := String
  Others := Unit
  registrationEq := inferInstance
  sandboxId := id
  imageId := fun _ => ""
  revision := fun _ => 0
  encode := id
  fromDict := .ok
  reservedMb := fun _ => .ok 0
  writeDiskClaim := fun _ _ => id
  deleteDiskClaim := fun _ => id

def noRows : Tables schema := ⟨∅,0,()⟩

def register (id : String) (last : Body schema Unit) : Body schema Unit :=
  .write id true (.bumpActivity last)

/-- A writer and one that fails after writing share a group, which commits and publishes. -/
def sharedGroup : List (Move schema Unit) :=
  [.own, .arrive 0 (register "a" (.done ())), .arrive 1 (register "b" (.fail (.conflict "fenced"))),
    .enter 0, .beginGroup (some 7) true, .proveIndex true, .openGroup 0, .member [], .settle true,
    .enter 1, .beginGroup none true, .member [], .settle true, .publish, .wake 0]

def opened : System schema Unit := { store := { committed := noRows } }

def settled (s : System schema Unit) : Bool :=
  match s.calls 0, s.calls 1 with
  | some ⟨_,.returned (.ok ())⟩, some ⟨_,.returned (.error _)⟩ => true
  | _, _ => false

end Example

open Example

theorem group_commit_exact_shared : ∃ s : System schema Unit,
    Reaches System.step anyEvent (System.Start noRows) s ∧
    (∃ body, Contained noRows s.store.history 0 body ()) ∧ Uncommitted s.store.history 1 ∧
    s.store.committed.registrations.keys = ["a"] ∧ s.store.committed.activityRevision = 1 := by
  obtain ⟨s,hs,hcalls,hkeys,hrev⟩ := Reaches.exists_of_run System.step
    (show System.Start noRows opened from rfl) sharedGroup (fun s => settled s = true ∧
      s.store.committed.registrations.keys = ["a"] ∧ s.store.committed.activityRevision = 1)
    (by decide +kernel)
  obtain ⟨hok,hfai,-⟩ := group_commit_exact hs
  unfold settled at hcalls
  split at hcalls
  · rename_i body _ _ h₀ h₁
    exact ⟨s,hs,⟨body,hok 0 body () h₀⟩,hfai 1 _ (.inl ⟨_,h₁⟩),hkeys,hrev⟩
  · cases hcalls

end UCloudSandboxes.Registry
