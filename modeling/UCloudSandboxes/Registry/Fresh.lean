import UCloudSandboxes.Registry.GroupCommit

/-! What a fresh read returns. With the turn, the index of an open group or one proved against a
snapshot; otherwise, or when the view is stamped by another thread, the index it sampled, which only
an open group vouches for. -/
namespace UCloudSandboxes.Registry
open Machine Example Registry.System Store Option Function

variable {σ : Schema} {α : Type} {initial : Tables σ}

/-- The read's index, if it returns one, is the registrations at or after its call. -/
def Index.Since (initial : Tables σ) (history : List (Commit σ α)) (since : Nat) (index : Index σ) :
    Prop := ∃ n, since ≤ n ∧ index.AsOf initial history n

theorem Index.Since.append {history since} {index : Index σ} (h : index.Since initial history since)
    (later : List (Commit σ α)) : index.Since initial (history ++ later) since := by
  obtain ⟨n,hn,ha⟩ := h
  exact ⟨n,hn,ha.append later⟩

theorem Store.Sound.since {s : Store σ α} (hs : s.Sound initial) {index : Index σ}
    (hm : index.Matches s.committed) {since} (hle : since ≤ s.history.length) :
    index.Since initial s.history since := by
  refine ⟨s.history.length,hle,le_rfl,s.committed,?_,hm⟩
  rw [stateAt,List.take_length]
  exact hs.replay

def Read.Good (initial : Tables σ) (history : List (Commit σ α)) (read : Read σ) : Prop :=
  read.since ≤ history.length ∧ (read.fresh = true → match read.state with
    | .sampled (some index) true => index.Since initial history read.since
    | .returned (.ok index) => index.Since initial history read.since
    | _ => True)

theorem Read.Good.append {history : List (Commit σ α)} {read : Read σ} (h : read.Good initial history)
    (later) : read.Good initial (history ++ later) := by
  refine ⟨Nat.le_trans h.1 (by simp),fun hf => ?_⟩
  have hstate := h.2 hf
  split at hstate
  · exact hstate.append later
  · exact hstate.append later
  · trivial

namespace System

variable {s s' : System σ α}

def ReaderHolds (initial : Tables σ) (s : System σ α) : Option (Holder σ) → Prop
  | some (.reader r) => ∃ read, s.reads r = some read
  | some (.reading r snapshot _) => ∃ read, s.reads r = some read ∧ ∃ n, read.since ≤ n ∧
      n ≤ s.store.history.length ∧ stateAt initial s.store.history n = some snapshot
  | some (.refreshed r) => ∃ read, s.reads r = some read ∧ ∃ index, s.store.index = some index ∧
      index.Since initial s.store.history read.since
  | _ => True

structure FreshInv (initial : Tables σ) (s : System σ α) : Prop where
  inv : s.Inv initial
  reads : ∀ r read, s.reads r = some read → read.Good initial s.store.history
  holds : s.ReaderHolds initial s.holder

theorem NotReading.holds {holder} (h : NotReading holder) : s.ReaderHolds initial holder := by
  match holder with
  | none | some (.entered _) | some (.begun _) | some (.proved _) | some (.joined _) | some (.ran ..)
  | some (.committed ..) => trivial
  | some (.reader _) | some (.reading ..) | some (.refreshed _) => exact h.elim

theorem ReaderHolds.mono {holder} (h : s.ReaderHolds initial holder)
    (hreads : ∀ {r read}, s.reads r = some read →
      ∃ read', s'.reads r = some read' ∧ read'.since = read.since)
    (hhist : ∃ later, s'.store.history = s.store.history ++ later)
    (hidx : s'.store.index = s.store.index) : s'.ReaderHolds initial holder := by
  obtain ⟨later,hlater⟩ := hhist
  match holder, h with
  | none, _ | some (.entered _), _ | some (.begun _), _ | some (.proved _), _ | some (.joined _), _
  | some (.ran ..), _ | some (.committed ..), _ => trivial
  | some (.reader _), ⟨read,hr⟩ =>
    obtain ⟨read',hr',-⟩ := hreads hr
    exact ⟨read',hr'⟩
  | some (.reading ..), ⟨read,hr,n,hn,hle,hst⟩ =>
    obtain ⟨read',hr',hsince⟩ := hreads hr
    refine ⟨read',hr',n,hsince ▸ hn,?_⟩
    rw [hlater]
    exact ⟨Nat.le_trans hle (by simp),(stateAt_append hle).trans hst⟩
  | some (.refreshed _), ⟨read,hr,index,hi,hread⟩ =>
    obtain ⟨read',hr',hsince⟩ := hreads hr
    refine ⟨read',hr',index,hidx.trans hi,?_⟩
    rw [hlater,hsince]
    exact hread.append later

theorem FreshInv.grow (h : s.FreshInv initial) (hs : s'.Inv initial ∧ s.Onward s') :
    s'.FreshInv initial := by
  obtain ⟨hinv,hreads,⟨later,hlater⟩,hh⟩ := hs
  refine ⟨hinv,fun r read hr => ?_,hh.holds⟩
  rw [hlater]
  exact (h.reads r read (hreads ▸ hr)).append later

variable {r : Nat}

theorem reads_setRead {r' state read'} (h : (s.setRead r state).reads r' = some read') :
    (r' ≠ r ∧ s.reads r' = some read') ∨
      r' = r ∧ ∃ read, s.reads r = some read ∧ read' = { read with state } := by
  by_cases hr : r' = r
  · subst hr
    have h' : (s.reads r').map ({ · with state }) = some read' := by
      simpa [setRead] using h
    obtain ⟨read,hread,rfl⟩ := map_eq_some_iff.mp h'
    exact .inr ⟨rfl,read,hread,rfl⟩
  · exact .inl ⟨hr,by simpa [setRead,update_of_ne hr] using h⟩

theorem setRead_reads {r' read} (r) (state) (h : s.reads r' = some read) :
    ∃ read', (s.setRead r state).reads r' = some read' ∧ read'.since = read.since := by
  by_cases hr : r' = r
  · subst hr
    exact ⟨{ read with state },by simp [setRead,h],rfl⟩
  · exact ⟨read,by simp [setRead,hr,h],rfl⟩

theorem FreshInv.setRead (h : s.FreshInv initial) {read} (hr : s.reads r = some read) {state}
    (hgood : Read.Good initial s.store.history { read with state }) :
    (s.setRead r state).FreshInv initial := by
  refine ⟨h.inv.setRead r state,fun r' read' hr' => ?_,?_⟩
  · rcases reads_setRead hr' with ⟨_,hr'⟩ | ⟨_,read₀,hr₀,rfl⟩
    · exact h.reads r' read' hr'
    · cases hr.symm.trans hr₀
      exact hgood
  · exact h.holds.mono (setRead_reads r state) ⟨[],by simp [System.setRead]⟩ rfl

def trusted (s : System σ α) (now : Nat) : Bool :=
  s.store.owning && s.store.index.isSome && s.store.checkedAt.any (now - · < recheck)

/-- A fresh read without the turn returns an index only sampled with a group open. -/
def fits (s : System σ α) : Move σ α → Bool
  | .sample r now =>
    match s.reads r with
    | some ⟨true,_,_⟩ => !s.trusted now || s.store.group.isSome
    | _ => true
  | .tryTurn r =>
    match s.reads r with
    | some ⟨true,_,.sampled (some _) grouped⟩ => s.holder.isNone || grouped
    | _ => true
  | _ => true

def Fits (s : System σ α) (move : Move σ α) : Prop := s.fits move = true

instance (s : System σ α) (move : Move σ α) : Decidable (s.Fits move) :=
  inferInstanceAs (Decidable (_ = true))

theorem Inv.since_of_group (h : s.Inv initial) (hg : s.store.group.isSome) {index}
    (hi : s.store.index = some index) {since} (hle : since ≤ s.store.history.length) :
    index.Since initial s.store.history since := by
  have hopen : ∀ {group c index' tables}, s.store.Open group c index' tables → s.store.Current →
      index.Since initial s.store.history since := by
    intro group c index' tables ho hc
    cases ho.index_eq.symm.trans hi
    exact h.sound.since (ho.matches hc) hle
  have hnone : s.store.group = none → index.Since initial s.store.history since := by
    intro hg'
    rw [hg'] at hg
    cases hg
  have hphase := h.phase
  match hh : s.holder with
  | none | some (.entered _) | some (.reader _) | some (.ran _ (some _)) =>
    rw [hh] at hphase
    obtain ⟨group,c,index',tables,ho⟩ := hphase.2.isOpen hg
    exact hopen ho hphase.1
  | some (.begun _) =>
    rw [hh] at hphase
    obtain ⟨_,c,hb⟩ := hphase
    exact hnone hb.group_eq
  | some (.proved _) =>
    rw [hh] at hphase
    obtain ⟨_,c,_,hb,_⟩ := hphase
    exact hnone hb.group_eq
  | some (.joined _) | some (.ran _ none) =>
    rw [hh] at hphase
    obtain ⟨hc,_,_,_,_,ho⟩ := hphase
    exact hopen ho hc
  | some (.committed ..) =>
    rw [hh] at hphase
    obtain ⟨_,_,_,_,_,hb⟩ := hphase
    exact hnone hb.quiet.group_eq
  | some (.reading ..) =>
    rw [hh] at hphase
    exact hnone hphase.2.quiet.group_eq
  | some (.refreshed _) =>
    rw [hh] at hphase
    exact hnone hphase.2.group_eq

section
variable (h : s.FreshInv initial)
include h

theorem FreshInv.sample {now} (hfits : s.Fits (.sample r now)) (hs : s.step (.sample r now) = some s')
    : s'.FreshInv initial := by
  simp only [step] at hs
  split at hs
  case h_2 => cases hs
  case h_1 fresh since hr =>
    cases hs
    have hgood := h.reads r _ hr
    refine h.setRead hr ⟨hgood.1,fun hf => ?_⟩
    obtain rfl : fresh = true := hf
    have hgroup : s.store.group.isSome → ∀ index, s.store.index = some index →
        index.Since initial s.store.history since := fun hg index hi =>
      h.inv.since_of_group hg hi hgood.1
    simp only [Fits,fits,hr] at hfits
    unfold sampleView
    cases how : s.store.owning with
    | false => trivial
    | true =>
      cases hi : s.store.index with
      | none => cases s.store.checkedAt <;> trivial
      | some index =>
        cases hck : s.store.checkedAt with
        | none =>
          cases hg : s.store.group.isSome with
          | false => trivial
          | true => exact hgroup hg index hi
        | some checked =>
          dsimp only
          by_cases hrec : now - checked < recheck
          · rw [if_pos hrec]
            have htru : s.trusted now = true := by
              simp [trusted,how,hi,hck,hrec]
            rw [htru] at hfits
            exact hgroup (by simpa using hfits) index hi
          · rw [if_neg hrec]
            cases hg : s.store.group.isSome with
            | false => trivial
            | true => exact hgroup hg index hi

theorem FreshInv.tryTurn (hfits : s.Fits (.tryTurn r)) (hs : s.step (.tryTurn r) = some s')
    : s'.FreshInv initial := by
  have hinv := h.inv.step hs
  simp only [step] at hs
  split at hs
  case h_1 fresh since index? grouped hr hh =>
    cases hs
    have hgood := h.reads r _ hr
    obtain ⟨read',hr',-⟩ := setRead_reads r .locked hr
    refine ⟨hinv,fun r' read' hr' => ?_,read',hr'⟩
    rcases reads_setRead hr' with ⟨_,hr'⟩ | ⟨_,read,hread,rfl⟩
    · exact h.reads r' read' hr'
    · cases hr.symm.trans hread
      exact ⟨hgood.1,fun _ => trivial⟩
  case h_2 fresh since index grouped holder hr hh =>
    cases hs
    have hgood := h.reads r _ hr
    refine h.setRead hr ⟨hgood.1,fun hf => ?_⟩
    obtain rfl : fresh = true := hf
    simp only [Fits,fits,hr,hh] at hfits
    subst hfits
    exact hgood.2 rfl
  case h_3 => cases hs

theorem FreshInv.leaveReader {store} (hinv : (s.leaveReader store r).Inv initial)
    (hhist : store.history = s.store.history)
    (hidx : ∀ read index, s.reads r = some read → store.index = some index →
      index.Since initial s.store.history read.since)
    : (s.leaveReader store r).FreshInv initial := by
  refine ⟨hinv,fun r' read' hr' => ?_,trivial⟩
  show read'.Good initial store.history
  rw [hhist]
  rcases reads_setRead hr' with ⟨_,hr'⟩ | ⟨_,read,hread,rfl⟩
  · exact h.reads r' read' hr'
  refine ⟨(h.reads r read hread).1,fun _ => ?_⟩
  cases hi : store.index with
  | none => trivial
  | some index => exact hidx read index hread hi

theorem FreshInv.noIndex {state} {t : System σ α} (hinv : (t.setRead r state).Inv initial)
    (hreads : t.reads = s.reads) (hhist : t.store.history = s.store.history)
    (hh : NotReading t.holder) (hstate : ∀ index, state ≠ .returned (.ok index))
    (hsam : ∀ i g, state ≠ .sampled i g) : (t.setRead r state).FreshInv initial := by
  refine ⟨hinv,fun r' read' hr' => ?_,NotReading.holds hh⟩
  show read'.Good initial t.store.history
  rw [hhist]
  rcases reads_setRead hr' with ⟨_,hr'⟩ | ⟨_,read,hread,rfl⟩
  · exact h.reads r' read' (hreads ▸ hr')
  refine ⟨(h.reads r read (hreads ▸ hread)).1,fun _ => ?_⟩
  match state with
  | .sampled i g => exact absurd rfl (hsam i g)
  | .returned (.ok index) => exact absurd rfl (hstate index)
  | .called | .expired | .locked | .fallback | .returned (.error _) => trivial

theorem FreshInv.failReader {store e stuck}
    (hinv : (s.failReader store r e stuck).Inv initial) (hhist : store.history = s.store.history) :
    (s.failReader store r e stuck).FreshInv initial := by
  refine h.noIndex hinv rfl ?_ trivial nofun nofun
  cases stuck <;> exact hhist

theorem FreshInv.examine (hh : s.holder = some (.reader r)) {connect opened}
    (hs : s.stepHolder (.reader r) (.examine connect opened) = some s') : s'.FreshInv initial := by
  have hinv := h.inv.examine hh hs
  have hholds := h.holds
  rw [hh] at hholds
  obtain ⟨read,hr⟩ := hholds
  unfold stepHolder at hs
  dsimp only at hs
  split at hs
  · cases hs
    exact h.noIndex hinv rfl rfl trivial nofun nofun
  · split at hs
    · rename_i hg
      cases hs
      exact h.leaveReader hinv rfl fun read index hr hi =>
        h.inv.since_of_group hg hi (h.reads r read hr).1
    · split at hs
      · cases hs
        exact h.failReader hinv rfl
      · cases hs
        refine ⟨hinv,h.reads,read,hr,s.store.history.length,(h.reads r read hr).1,le_rfl,?_⟩
        rw [stateAt,List.take_length]
        exact h.inv.sound.replay
      · cases hs
        exact h.failReader hinv rfl

theorem FreshInv.proveSnapshot {snapshot dataVersion}
    (hh : s.holder = some (.reading r snapshot dataVersion)) {readable stuck}
    (hs : s.stepHolder (.reading r snapshot dataVersion) (.proveSnapshot readable stuck) = some s') :
    s'.FreshInv initial := by
  have hinv := h.inv.proveSnapshot hh hs
  have hholds := h.holds
  have hphase := h.inv.phase
  rw [hh] at hholds hphase
  unfold stepHolder at hs
  dsimp only at hs
  split at hs
  · rename_i store hp
    cases hs
    obtain ⟨index,hmatch,hstore⟩ : ∃ index, index.Matches snapshot ∧
        store = { s.store with index := some index } := by
      rcases proveIndex_ok hp with ⟨rfl,index,hi,hv⟩ | ⟨index,rfl,hm,hv⟩
      · exact ⟨index,hphase.2.proved index hi hv,by rw [← hi]⟩
      · exact ⟨index,hm,rfl⟩
    subst hstore
    obtain ⟨read,hr,n,hn,hle,hst⟩ := hholds
    exact ⟨hinv,h.reads,read,hr,index,rfl,n,hn,hle,snapshot,hst,hmatch⟩
  · cases hs
    exact h.failReader hinv rfl

theorem FreshInv.stamp {now} (hh : s.holder = some (.refreshed r)) {ended}
    (hs : s.stepHolder (.refreshed r) (.stamp now ended) = some s') : s'.FreshInv initial := by
  have hinv := h.inv.stamp hh hs
  have hholds := h.holds
  rw [hh] at hholds
  unfold stepHolder at hs
  dsimp only at hs
  split at hs
  · cases hs
    refine h.leaveReader hinv rfl fun read index hr hi => ?_
    obtain ⟨read',hr',index',hi',hsince⟩ := hholds
    cases hr'.symm.trans hr
    cases hi'.symm.trans hi
    exact hsince
  · cases hs
    exact h.failReader hinv rfl

theorem FreshInv.foreign {after} (hs : s.step (.foreign after) = some s')
    : s'.FreshInv initial := by
  have hinv := h.inv.foreign hs
  obtain ⟨store,hf,rfl⟩ := map_eq_some_iff.mp hs
  obtain ⟨-,rfl⟩ := foreignCommit_some hf
  exact ⟨hinv,fun r read hr => (h.reads r read hr).append _,
    h.holds.mono (fun hr => ⟨_,hr,rfl⟩) ⟨_,rfl⟩ rfl⟩

theorem FreshInv.call {fresh} (hs : s.step (.call r fresh) = some s') : s'.FreshInv initial := by
  have hinv := h.inv.step hs
  obtain ⟨hfree,rfl⟩ := some_of_guard hs
  have hnone : s.reads r = none := by simpa using hfree
  have hother : ∀ {r' read}, s.reads r' = some read → r' ≠ r := by
    rintro r' read hr rfl
    rw [hnone] at hr
    cases hr
  refine ⟨hinv,fun r' read hr => ?_,?_⟩
  · by_cases hr' : r' = r
    · subst hr'
      dsimp only at hr
      rw [update_self] at hr
      cases hr
      refine ⟨le_rfl,fun _ => ?_⟩
      cases fresh <;> trivial
    · exact h.reads r' read (by simpa [update_of_ne hr'] using hr)
  · exact h.holds.mono (fun hr => ⟨_,(update_of_ne (hother hr) ..).trans hr,rfl⟩) ⟨[],by simp⟩ rfl

theorem FreshInv.step {move} (hfits : s.Fits move) (hs : s.step move = some s')
    : s'.FreshInv initial := by
  have hinv := h.inv.step hs
  cases move with
  | sample => exact h.sample hfits hs
  | tryTurn => exact h.tryTurn hfits hs
  | foreign => exact h.foreign hs
  | call => exact h.call hs
  | arrive | own =>
    simp only [System.step] at hs
    split at hs
    · cases hs
    · cases hs
      exact ⟨hinv,h.reads,h.holds⟩
  | enter =>
    simp only [System.step] at hs
    split at hs
    case h_2 => cases hs
    case h_1 =>
      cases hs
      exact ⟨hinv,h.reads,trivial⟩
  | wake =>
    simp only [System.step] at hs
    split at hs
    case h_2 => cases hs
    case h_1 =>
      obtain ⟨outcome,_,rfl⟩ := map_eq_some_iff.mp hs
      cases outcome <;> exact ⟨hinv,h.reads,h.holds⟩
  | close =>
    obtain ⟨hh,rfl⟩ := some_of_guard hs
    refine h.grow ⟨hinv,rfl,⟨[],by simp [close]⟩,?_⟩
    rw [show s.holder = none by simpa using hh]
    trivial
  | expire r =>
    simp only [System.step] at hs
    split at hs
    case h_2 => cases hs
    case h_1 fresh since hr =>
      cases hs
      obtain ⟨checkedAt,he⟩ := s.store.expire_flagged
      rw [he]
      have hflag : FreshInv initial
          { s with store := s.store.flagged s.store.ownerLock s.store.owning checkedAt } :=
        ⟨h.inv.flagged,h.reads,h.holds⟩
      exact hflag.setRead hr ⟨(h.reads r _ hr).1,fun _ => trivial⟩
  | read r succeeds =>
    simp only [System.step] at hs
    split at hs
    case h_2 => cases hs
    case h_1 fresh since hr =>
      cases hs
      refine h.setRead hr ⟨(h.reads r _ hr).1,fun _ => ?_⟩
      cases succeeds with
      | false => trivial
      | true =>
        cases hread : readIndex s.store.committed 0 none with
        | error => trivial
        | ok => exact h.inv.sound.since (readIndex_matches hread).1 (h.reads r _ hr).1
  | examine | proveSnapshot | stamp | beginGroup | proveIndex | openGroup | member | settle | publish =>
    obtain ⟨holder,hh,hs⟩ := bind_eq_some_iff.mp hs
    cases holder with
    | reader => first | exact h.examine hh hs | cases hs
    | reading => first | exact h.proveSnapshot hh hs | cases hs
    | refreshed => first | exact h.stamp hh hs | cases hs
    | _ => exact h.grow (h.inv.writer hh hs trivial)

end

end System

open Registry.System in
/-- As long as a fresh read returns an index without the turn only when a group was open as it
sampled it, every commit finished before the call is in what it returns. -/
theorem fresh_read_has_every_commit {s : System σ α}
    (h : Reaches System.step System.Fits (Start initial) s) {r since : Nat} {index : Index σ}
    (hr : s.reads r = some ⟨true,since,.returned (.ok index)⟩) :
    ∃ n, since ≤ n ∧ index.AsOf initial s.store.history n := by
  have hinv : s.FreshInv initial := by
    refine h.invariant (fun s hs => ⟨start_inv hs,?_,?_⟩) fun _ _ _ hi => hi.step
    · subst hs
      exact nofun
    · subst hs
      trivial
  exact (hinv.reads r _ hr).2 rfl

namespace Example

def oneRow : Tables schema := ⟨AList.singleton "a" ⟨"","a"⟩,1,()⟩

def foreignRow : List (Move schema Unit) :=
  [.own, .call 9 false, .sample 9 0, .tryTurn 9, .examine (some 0) .done, .proveSnapshot true false,
    .stamp 0 .done]

def staleRead : List (Move schema Unit) :=
  foreignRow ++ [.arrive 0 (.done ()), .enter 0, .foreign oneRow, .call 1 true, .expire 1, .sample 1 5,
    .tryTurn 1]

def refreshedRead : List (Move schema Unit) :=
  foreignRow ++ [.foreign oneRow, .call 1 true, .expire 1, .sample 1 5, .tryTurn 1, .examine none .done,
    .proveSnapshot true false, .stamp 5 .done]

def answer (s : System schema Unit) : Option (Nat × Index schema) :=
  match s.reads 1 with
  | some ⟨true,since,.returned (.ok index)⟩ => some (since,index)
  | _ => none

theorem reads_of_answer {s since index} (h : answer s = some (since,index)) :
    s.reads 1 = some ⟨true,since,.returned (.ok index)⟩ := by
  unfold answer at h
  split at h
  · cases h
    assumption
  · cases h

end Example

open Example

theorem fresh_read_has_every_commit_refreshed : ∃ s : System schema Unit,
    Reaches System.step System.Fits (System.Start noRows) s ∧
    ∃ since index, s.reads 1 = some ⟨true,since,.returned (.ok index)⟩ ∧ since = 1 ∧
      index.rows.keys = ["a"] ∧ ∃ n, since ≤ n ∧ index.AsOf noRows s.store.history n := by
  obtain ⟨s,hs,⟨since,index⟩,ha,hsince,hkeys⟩ := Reaches.exists_of_runMeeting step System.Fits
    (show System.Start noRows opened from rfl) refreshedRead
    (fun s => ∃ a ∈ answer s, a.1 = 1 ∧ a.2.rows.keys = ["a"]) (by decide +kernel)
  have hr := reads_of_answer ha
  exact ⟨s,hs,since,index,hr,hsince,hkeys,fresh_read_has_every_commit hs hr⟩

/-- Another connection commits while a writer has the turn; a read called after that does not get the
turn, and returns the index without the commit. -/
theorem fresh_read_misses_commit : ∃ s : System schema Unit,
    Reaches System.step anyEvent (System.Start noRows) s ∧
    ∃ since index, s.reads 1 = some ⟨true,since,.returned (.ok index)⟩ ∧
      ¬ ∃ n, since ≤ n ∧ index.AsOf noRows s.store.history n := by
  obtain ⟨s,hs,hlen,hrow,⟨since,index⟩,ha,hsince,hnone⟩ := Reaches.exists_of_run step
    (show System.Start noRows opened from rfl) staleRead (fun s => s.store.history.length = 1 ∧
      (∀ t ∈ stateAt noRows s.store.history 1, (t.registrations.lookup "a").isSome) ∧
      ∃ a ∈ answer s, a.1 = 1 ∧ a.2.rows.lookup "a" = none) (by decide +kernel)
  refine ⟨s,hs,since,index,reads_of_answer ha,?_⟩
  rintro ⟨n,hn,hle,tables,hst,hm⟩
  obtain rfl : n = 1 := by omega
  have hlook := hm.rows "a"
  have hsome := hrow tables hst
  rw [← hlook,hnone] at hsome
  cases hsome

end UCloudSandboxes.Registry
