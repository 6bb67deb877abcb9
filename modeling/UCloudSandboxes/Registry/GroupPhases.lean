import UCloudSandboxes.Registry.GroupInvariant

namespace UCloudSandboxes.Registry
open Machine Option Except

variable {σ : Schema} {α : Type} {initial : Tables σ}

namespace Store

variable {s s' : Store σ α} {group : Group} {c : Connection σ} {index : Index σ} {tables : Tables σ}

theorem proveIndex_ok {snapshot dataVersion readable}
    (h : s.proveIndex snapshot dataVersion readable = .ok s') :
    (s' = s ∧ ∃ index, s.index = some index ∧ index.dataVersion = dataVersion) ∨
      ∃ index, s' = { s with index := some index } ∧ index.Matches snapshot ∧
        index.dataVersion = dataVersion := by
  unfold proveIndex at h
  split at h
  · rename_i hany
    obtain ⟨index,hi,hp⟩ := (any_eq_true _ _).mp hany
    simp only [Bool.and_eq_true,decide_eq_true_eq] at hp
    exact .inl ⟨(ok.inj h).symm,index,hi,hp.2⟩
  · split at h
    · cases h
    · obtain ⟨index,hr,rfl⟩ := ok_of_map_ok h
      obtain ⟨hm,hv⟩ := readIndex_matches hr
      exact .inr ⟨index,rfl,hm,hv⟩

theorem withTransaction_eq (h : s.owner = some c) (transaction) :
    s.withTransaction transaction = { s with owner := some { c with transaction } } := by
  unfold withTransaction
  rw [h]
  rfl

theorem member_spec (h : s.Open group c index tables) (w body answers) :
    (∃ value tables' staging, s.member w body answers = (.joined value,{ s with
        owner := some { c with transaction := some ⟨tables',[]⟩ }
        staged := staging.staged
        bumps := staging.bumps
        members := s.members ++ [⟨w,body⟩] }) ∧ body.serial tables = some (value,tables') ∧
        staging.index = index ∧ Staging.Reflects staging tables') ∨
      ∃ ran, s.member w body answers = (ran,s) ∧ ∀ value, ran ≠ .joined value := by
  have hsees : Tx.Sees [] index tables ⟨c.transaction,answers,⟨index,s.staged,s.bumps⟩⟩ :=
    ⟨h.transaction_eq,rfl,h.reflects⟩
  unfold member
  rw [h.index_eq,h.owner_eq]
  dsimp only
  cases hsave : Tx.savepoint ⟨c.transaction,answers,⟨index,s.staged,s.bumps⟩⟩ "member" with
  | error => exact .inr ⟨_,rfl,nofun⟩
  | ok tx =>
    have hsaved : tx.Sees (("member",tables) :: []) index tables :=
      (hsees.savepoint "member").of_ok hsave
    have hbody := body.run_serial (show tx.Sees (("member",(⟨tables,[]⟩ : Transaction _).content) ::
      (⟨tables,[]⟩ : Transaction _).savepoints) index tables from hsaved)
    dsimp only
    cases hrun : body.run tx with
    | ok p =>
      obtain ⟨value,tx'⟩ := p
      obtain ⟨tables',hser,hsees'⟩ := hbody.of_ok hrun
      dsimp only
      cases hrel : tx'.release "member" with
      | error => exact .inr ⟨_,rfl,nofun⟩
      | ok tx'' =>
        have hfinal := hsees'.release.of_ok hrel
        refine .inl ⟨value,tables',tx''.staging,?_,hser,hfinal.index,hfinal.reflects⟩
        dsimp only
        rw [withTransaction_eq h.owner_eq,hfinal.holds,h.index_eq]
    | error stopped =>
      obtain ⟨cause,tx'⟩ := stopped
      cases cause with
      | panicked => exact .inr ⟨_,rfl,nofun⟩
      | failed error =>
        dsimp only
        cases hundo : tx'.undo with
        | error => exact .inr ⟨_,rfl,nofun⟩
        | ok =>
          refine .inr ⟨.failed error,?_,nofun⟩
          have hback := Tx.undo_ok (hbody.of_error hrun) hundo
          dsimp only
          rw [withTransaction_eq h.owner_eq,hback,← h.transaction_eq,← h.owner_eq]

theorem Settled.quiet (h : s.Settled) (hg : s.group = none) : s.Quiet := by
  rcases h with h | ⟨group,c,index,tables,h⟩
  · exact h
  · rw [h.group_eq] at hg
    cases hg

theorem Settled.isOpen (h : s.Settled) (hg : s.group.isSome) :
    ∃ group c index tables, s.Open group c index tables := by
  rcases h with h | h
  · rw [h.group_eq] at hg
    cases hg
  · exact h

theorem Open.matches (h : s.Open group c index tables) (hc : s.Current) : index.Matches s.committed :=
  (hc c index h.owner_eq h.index_eq).2 h.version

theorem Open.pending (h : s.Open group c index tables) : s.pending? = some tables := by
  unfold pending?
  rw [h.owner_eq,bind_some,h.transaction_eq]
  rfl

theorem Begun.pending (h : s.Begun c) : s.pending? = some s.committed := by
  unfold pending?
  rw [h.owner_eq,bind_some,h.transaction_eq]
  rfl

variable {connect : Option Nat} {holder : Option (Holder σ)}

theorem connection_some (h : s.connection connect = some c) :
    s.owner = some c ∨ s.owner = none ∧ c.transaction = none := by
  unfold connection at h
  split at h
  · rename_i c' hc
    exact .inl (hc.trans h)
  · rename_i hc
    obtain ⟨v,-,rfl⟩ := map_eq_some_iff.mp h
    exact .inr ⟨hc,rfl⟩

theorem Current.withOwner (h : s.Current) (hs : s.Sound initial) (hc : s.connection connect = some c)
    {c'} (hv : c'.dataVersion = c.dataVersion) : Current { s with owner := some c' } := by
  intro c₁ index hc₁ hi
  cases hc₁
  rcases connection_some hc with ho | ⟨ho,-⟩
  · rw [hv]
    exact h c index ho hi
  · have hnone : s.index = none := hs.unowned ho
    rw [show s.index = some index from hi] at hnone
    cases hnone

theorem Sound.withOwner (hs : s.Sound initial) (c) : Sound initial { s with owner := some c } :=
  ⟨hs.replay,nofun,hs.unfinished⟩

theorem Sound.dropOwnerConnection (hs : s.Sound initial) : s.dropOwnerConnection.Sound initial :=
  ⟨hs.replay,fun _ => rfl,hs.unfinished⟩

theorem current_dropOwnerConnection (s : Store σ α) : s.dropOwnerConnection.Current := by
  intro c index hc
  cases hc

theorem beginImmediate_ok {begun} (h : s.beginImmediate connect begun = .ok s') :
    ∃ c, s.connection connect = some c ∧
      s' = { s with owner := some { c with transaction := some ⟨s.committed,[]⟩ } } := by
  obtain ⟨-,h⟩ := of_guard h nofun
  split at h
  · cases h
  rename_i c hc
  split at h
  · exact ⟨c,hc,(ok.inj h).symm⟩
  · cases h

theorem beginImmediate_error {begun e} (h : s.beginImmediate connect begun = .error (e,s')) :
    s' = s ∨ s' = s.dropOwnerConnection := by
  unfold beginImmediate at h
  split at h
  · exact .inl (Prod.ext_iff.mp (error.inj h)).2.symm
  split at h
  · exact .inl (Prod.ext_iff.mp (error.inj h)).2.symm
  split at h
  · cases h
  · exact .inr (Prod.ext_iff.mp (error.inj h)).2.symm

/-- A snapshot's data version stands for the committed tables, unless another connection has
committed since. -/
theorem Current.proveIndex (h : s.Current) (hs : s.Sound initial) {snapshot v readable}
    (howned : s.owner ≠ none)
    (hsnap : ∀ c, s.owner = some c → v ≤ c.dataVersion ∧ (v = c.dataVersion → snapshot = s.committed))
    (hp : s.proveIndex snapshot v readable = .ok s') :
    s'.Current ∧ s'.Sound initial ∧ ∃ index, s' = { s with index := some index } ∧
      index.dataVersion = v := by
  rcases proveIndex_ok hp with ⟨rfl,index,hi,hv⟩ | ⟨index,rfl,hm,hv⟩
  · exact ⟨h,hs,index,by rw [← hi],hv⟩
  refine ⟨?_,⟨hs.replay,fun ho => absurd ho howned,hs.unfinished⟩,index,rfl,hv⟩
  intro c index' hc hi
  cases hi
  obtain ⟨hle,heq⟩ := hsnap c hc
  rw [hv]
  refine ⟨hle,fun hveq => ?_⟩
  rw [← show snapshot = s.committed from heq hveq]
  exact hm

theorem Begun.openGroup (h : s.Begun c) (hs : s.Sound initial) (hc : s.Current)
    (hi : s.index = some index) (hv : index.dataVersion = c.dataVersion) (now) :
    (s.openGroup now).Open ⟨s.nextGroup,s.committed.activityRevision⟩ c index s.committed := by
  have hm : index.Matches s.committed := (hc c index h.owner_eq hi).2 hv
  refine ⟨rfl,h.owner_eq,h.transaction_eq,hi,hv,hm.revision.symm,hm.reflects,rfl,Nat.lt_succ_self _,?_⟩
  exact hs.unfinished _ le_rfl

theorem Sound.openGroup (hs : s.Sound initial) (now) : (s.openGroup now).Sound initial :=
  ⟨hs.replay,hs.unowned,fun g hg => hs.unfinished g (Nat.le_of_succ_le hg)⟩

theorem Settled.abandonGroup (h : s.Settled) (hc : s.Current) (hs : s.Sound initial) (error) :
    (s.abandonGroup error).Quiet ∧ (s.abandonGroup error).Current ∧
      (s.abandonGroup error).Sound initial := by
  unfold Store.abandonGroup
  split
  · rename_i hg
    exact ⟨h.quiet hg,hc,hs⟩
  · rename_i group hg
    obtain ⟨group',c,index,tables,hopen⟩ := h.isOpen (by rw [hg]; rfl)
    obtain rfl := some.inj (hopen.group_eq.symm.trans hg)
    refine ⟨⟨rfl,rfl,nofun⟩,nofun,hs.replay, fun _ => rfl,?_⟩
    intro g hge
    have hne : g ≠ group'.id := by
      rintro rfl
      exact absurd hge (Nat.not_le.mpr hopen.issued)
    exact (Function.update_of_ne hne _ _).trans (hs.unfinished g hge)

theorem Open.commitSql (h : s.Open group c index tables) (hs : s.Sound initial)
    (hok : s.commitSql true = .ok s') :
    s'.Behind initial group s.staged s.bumps index s.history [] s.members tables ∧
      s'.Sound initial ∧ s'.outcomes = s.outcomes ∧ s'.nextGroup = s.nextGroup := by
  unfold Store.commitSql at hok
  rw [h.group_eq,h.pending,withTransaction_eq h.owner_eq] at hok
  cases hok
  have hrep : (s.history ++ [Commit.group s.members]).foldlM Commit.apply initial = some tables := by
    rw [List.foldlM_append,hs.replay]
    show ((s.members.foldlM Member.apply s.committed).bind some) = some tables
    rw [h.members_run]
    rfl
  refine ⟨⟨⟨rfl,rfl,fun c' hc' => ?_⟩,rfl,by simp,hrep,h.index_eq,h.revision,h.reflects,?_,
    h.unfinished,h.issued⟩,⟨hrep,nofun,hs.unfinished⟩,rfl,rfl⟩
  · obtain rfl := some.inj hc'
    rfl
  · intro c' hc'
    obtain rfl := some.inj hc'
    exact ⟨Nat.le_of_eq h.version,fun _ => rfl⟩

theorem Behind.publishedIndex {staged bumps earlier later members}
    (h : s.Behind initial group staged bumps index earlier later members tables) :
    ∃ published, s.publishedIndex group staged bumps = some published ∧ published.Matches tables ∧
      published.dataVersion = index.dataVersion := by
  unfold Store.publishedIndex
  rw [h.index_eq,h.revision]
  split
  · exact ⟨_,rfl,h.reflects.applied,rfl⟩
  rename_i hnone
  simp only [Bool.or_eq_true,Bool.not_eq_true',decide_eq_true_eq,not_or,Bool.not_eq_false,
    List.isEmpty_iff,Nat.not_lt,Nat.le_zero] at hnone
  obtain ⟨hempty,rfl⟩ := hnone
  obtain rfl : staged = ∅ := AList.ext hempty
  exact ⟨index,rfl,⟨h.reflects.revision,fun id => by simpa [overlay] using h.reflects.rows id⟩,rfl⟩

theorem Behind.publish {staged bumps earlier later members}
    (h : s.Behind initial group staged bumps index earlier later members tables)
    (hs : s.Sound initial) : (s.publish group staged bumps).Quiet ∧
      (s.publish group staged bumps).Current ∧ (s.publish group staged bumps).Sound initial := by
  obtain ⟨published,hp,hm,hv⟩ := h.publishedIndex
  refine ⟨⟨h.quiet.group_eq,h.quiet.members_eq,h.quiet.idle⟩,?_,hs.replay,fun ho => ?_,fun g hg => ?_⟩
  · intro c index' hc hi
    cases hp.symm.trans hi
    obtain ⟨hle,heq⟩ := h.current c hc
    rw [hv]
    refine ⟨hle,fun hveq => ?_⟩
    rw [show (s.publish group staged bumps).committed = s.committed from rfl,← heq hveq]
    exact hm
  · have hnone := hs.unowned ho
    rw [h.index_eq] at hnone
    cases hnone
  · have hne : g ≠ group.id := by
      rintro rfl
      exact absurd hg (Nat.not_le.mpr h.issued)
    exact (Function.update_of_ne hne _ _).trans (hs.unfinished g hg)

theorem Phase.quiet (h : s.Phase initial holder) (hp : s.pending? = none) : s.Quiet := by
  have hopen : ∀ group c index tables, ¬ s.Open group c index tables := by
    intro group c index tables hopen
    rw [hopen.pending] at hp
    cases hp
  have hbegun : ∀ c, ¬ s.Begun c := by
    intro c hb
    rw [hb.pending] at hp
    cases hp
  have hset : s.Settled → s.Quiet := by
    rintro (hq | ⟨group,c,index,tables,ho⟩)
    · exact hq
    · exact (hopen _ _ _ _ ho).elim
  match holder, h with
  | none, h | some (.entered _), h | some (.reader _), h | some (.ran _ (some _)), h =>
    exact hset h.2
  | some (.begun _), ⟨_,c,hb⟩ => exact (hbegun c hb).elim
  | some (.proved _), ⟨_,c,_,hb,_⟩ => exact (hbegun c hb).elim
  | some (.joined _), ⟨_,_,_,_,_,ho⟩ => exact (hopen _ _ _ _ ho).elim
  | some (.ran _ none), ⟨_,_,_,_,_,ho⟩ => exact (hopen _ _ _ _ ho).elim
  | some (.committed ..), ⟨_,_,_,_,_,hb⟩ => exact hb.quiet
  | some (.reading ..), h => exact h.2.quiet
  | some (.refreshed _), h => exact h.2

theorem Phase.current (h : s.Phase initial holder)
    (hh : ∀ w failure group staged bumps, holder ≠ some (.committed w failure group staged bumps)) :
    s.Current := by
  match holder, h with
  | none, h | some (.entered _), h | some (.reader _), h | some (.ran _ (some _)), h => exact h.1
  | some (.begun _), h | some (.proved _), h | some (.joined _), h | some (.ran _ none), h => exact h.1
  | some (.committed w failure group staged bumps), _ => exact absurd rfl (hh w failure group staged bumps)
  | some (.reading ..), h => exact h.1
  | some (.refreshed _), h => exact h.1

theorem foreignCommit_some {after} (h : s.foreignCommit after = some s') :
    s.pending? = none ∧ s' = s.overtaken after := by
  obtain ⟨hp,h⟩ := of_guard h nofun
  exact ⟨by simpa using hp,(some.inj h).symm⟩

theorem Phase.foreign {after} (h : s.Phase initial holder) (hs : s.Sound initial)
    (hf : s.foreignCommit after = some s') : s'.Phase initial holder ∧ s'.Sound initial := by
  obtain ⟨hp,rfl⟩ := foreignCommit_some hf
  have hq := h.quiet hp
  have howner : ∀ {c'}, (s.overtaken after).owner = some c' →
      ∃ c, s.owner = some c ∧ c'.dataVersion = c.dataVersion + 1 ∧ c'.transaction = c.transaction := by
    intro c' hc'
    obtain ⟨c,hc,rfl⟩ := map_eq_some_iff.mp hc'
    exact ⟨c,hc,rfl,rfl⟩
  set s' : Store σ α := s.overtaken after with hs'
  have hquiet : s'.Quiet := by
    refine ⟨hq.group_eq,hq.members_eq,fun c' hc' => ?_⟩
    obtain ⟨c,hc,-,ht⟩ := howner hc'
    exact ht.trans (hq.idle c hc)
  have hcur : s.Current → s'.Current := by
    intro hc c' index hc' hi
    obtain ⟨c,hown,hv,-⟩ := howner hc'
    have hle := (hc c index hown hi).1
    exact ⟨by omega,fun heq => by omega⟩
  have hsound : s'.Sound initial := by
    refine ⟨?_,fun ho => hs.unowned (map_eq_none_iff.mp ho),hs.unfinished⟩
    rw [hs',overtaken,List.foldlM_append,hs.replay]
    rfl
  refine ⟨?_,hsound⟩
  match holder, h with
  | none, h | some (.entered _), h | some (.reader _), h | some (.ran _ (some _)), h =>
    exact ⟨hcur h.1,.inl hquiet⟩
  | some (.begun _), ⟨_,c,hb⟩ => rw [hb.pending] at hp; cases hp
  | some (.proved _), ⟨_,c,_,hb,_⟩ => rw [hb.pending] at hp; cases hp
  | some (.joined _), ⟨_,_,_,_,_,ho⟩ => rw [ho.pending] at hp; cases hp
  | some (.ran _ none), ⟨_,_,_,_,_,ho⟩ => rw [ho.pending] at hp; cases hp
  | some (.committed ..), ⟨index,earlier,later,members,tables,hb⟩ =>
    refine ⟨index,earlier,later ++ [.foreign after],members,tables,hquiet,?_,?_,hb.committed_eq,
      hb.index_eq,hb.revision,hb.reflects,?_,hb.unfinished,hb.issued⟩
    · show s.history ++ [Commit.foreign after] = _
      rw [hb.history_eq]
      simp
    · intro commit hc
      rcases List.mem_append.mp hc with hc | hc
      · exact hb.later_foreign commit hc
      · exact ⟨after,List.mem_singleton.mp hc⟩
    · intro c' hc'
      obtain ⟨c,hown,hv,-⟩ := howner hc'
      have hle := (hb.current c hown).1
      exact ⟨by omega,fun heq => by omega⟩
  | some (.reading _ snapshot v), ⟨hc,hsnap⟩ =>
    refine ⟨hcur hc,hquiet,?_,hsnap.proved,fun ho => hsnap.owned (map_eq_none_iff.mp ho)⟩
    intro c' hc'
    obtain ⟨c,hown,hv,-⟩ := howner hc'
    have hle := (hsnap.current c hown).1
    exact ⟨by omega,fun heq => by omega⟩
  | some (.refreshed _), h => exact ⟨hcur h.1,hquiet⟩

def flagged (s : Store σ α) (ownerLock owning : Bool) (checkedAt : Option Nat) : Store σ α :=
  { s with ownerLock, owning, checkedAt }

section Flagged

variable {ownerLock owning : Bool} {checkedAt : Option Nat}

theorem Quiet.flagged (h : s.Quiet) : (s.flagged ownerLock owning checkedAt).Quiet :=
  ⟨h.group_eq,h.members_eq,h.idle⟩

theorem Open.flagged (h : s.Open group c index tables) :
    (s.flagged ownerLock owning checkedAt).Open group c index tables :=
  ⟨h.group_eq,h.owner_eq,h.transaction_eq,h.index_eq,h.version,h.revision,h.reflects,h.members_run,
    h.issued,h.unfinished⟩

theorem Begun.flagged (h : s.Begun c) : (s.flagged ownerLock owning checkedAt).Begun c :=
  ⟨h.group_eq,h.members_eq,h.owner_eq,h.transaction_eq⟩

theorem Settled.flagged (h : s.Settled) : (s.flagged ownerLock owning checkedAt).Settled := by
  rcases h with h | ⟨group,c,index,tables,h⟩
  · exact .inl h.flagged
  · exact .inr ⟨group,c,index,tables,h.flagged⟩

theorem Sound.flagged (h : s.Sound initial) : (s.flagged ownerLock owning checkedAt).Sound initial :=
  ⟨h.replay,h.unowned,h.unfinished⟩

theorem Phase.flagged {holder} (h : s.Phase initial holder) :
    (s.flagged ownerLock owning checkedAt).Phase initial holder := by
  match holder, h with
  | none, h | some (.entered _), h | some (.reader _), h | some (.ran _ (some _)), h =>
    exact ⟨h.1,h.2.flagged⟩
  | some (.begun _), ⟨hc,c,hb⟩ => exact ⟨hc,c,hb.flagged⟩
  | some (.proved _), ⟨hc,c,index,hb,hi⟩ => exact ⟨hc,c,index,hb.flagged,hi⟩
  | some (.joined _), ⟨hc,_,_,_,_,ho⟩ => exact ⟨hc,_,_,_,_,ho.flagged⟩
  | some (.ran _ none), ⟨hc,_,_,_,_,ho⟩ => exact ⟨hc,_,_,_,_,ho.flagged⟩
  | some (.committed ..), ⟨index,earlier,later,members,tables,hb⟩ =>
    exact ⟨index,earlier,later,members,tables,hb.quiet.flagged,hb.history_eq,hb.later_foreign,
      hb.committed_eq,hb.index_eq,hb.revision,hb.reflects,hb.current,hb.unfinished,hb.issued⟩
  | some (.reading ..), ⟨hc,hs⟩ => exact ⟨hc,hs.quiet.flagged,hs.current,hs.proved,hs.owned⟩
  | some (.refreshed _), h => exact ⟨h.1,h.2.flagged⟩

end Flagged

theorem expire_flagged (s : Store σ α) :
    ∃ checkedAt, s.expire = s.flagged s.ownerLock s.owning checkedAt := by
  unfold expire
  split
  · exact ⟨none,rfl⟩
  · exact ⟨s.checkedAt,rfl⟩

end Store

end UCloudSandboxes.Registry
