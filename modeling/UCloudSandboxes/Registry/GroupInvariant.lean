import UCloudSandboxes.Registry.Group

namespace UCloudSandboxes.Registry
open Machine List Commit

variable {σ : Schema} {α : Type} {initial : Tables σ}

def stateAt (initial : Tables σ) (history : List (Commit σ α)) (n : Nat) : Option (Tables σ) :=
  (history.take n).foldlM apply initial

variable {history : List (Commit σ α)}

theorem stateAt_append {later n} (h : n ≤ history.length) :
    stateAt initial (history ++ later) n = stateAt initial history n := by
  rw [stateAt,take_append_of_le_length h]
  rfl

def Index.AsOf (initial : Tables σ) (history : List (Commit σ α)) (n : Nat) (index : Index σ) : Prop :=
  n ≤ history.length ∧ ∃ tables, stateAt initial history n = some tables ∧ index.Matches tables

theorem Index.AsOf.append {n} {index : Index σ} (h : index.AsOf initial history n) (later) :
    index.AsOf initial (history ++ later) n := by
  obtain ⟨hn,tables,ht,hm⟩ := h
  exact ⟨by rw [length_append]; omega,tables,(stateAt_append hn).trans ht,hm⟩

def Uncommitted (history : List (Commit σ α)) (w : Nat) : Prop :=
  ∀ members, Commit.group members ∈ history → ∀ m ∈ members, m.writer ≠ w

/-- A commit contains the body: run alone on what stood before it, it returns the value. -/
def Contained (initial : Tables σ) (history : List (Commit σ α)) (w : Nat) (body : Body σ α)
    (value : α) : Prop :=
  ∃ earlier before after later start tables tables',
    history = earlier ++ .group (before ++ ⟨w,body⟩ :: after) :: later ∧
    earlier.foldlM apply initial = some start ∧
    before.foldlM Member.apply start = some tables ∧ body.serial tables = some (value,tables')

theorem Contained.append {w body value} (h : Contained initial history w body value) (later) :
    Contained initial (history ++ later) w body value := by
  obtain ⟨earlier,before,after,rest,start,tables,tables',rfl,h⟩ := h
  exact ⟨earlier,before,after,rest ++ later,start,tables,tables',by simp,h⟩

theorem Uncommitted.append {w} (h : Uncommitted history w) {commit}
    (hc : ∀ members, commit = .group members → ∀ m ∈ members, m.writer ≠ w) :
    Uncommitted (history ++ [commit]) w := by
  intro members hm
  rcases mem_append.mp hm with hm | hm
  · exact h members hm
  · exact hc members (mem_singleton.mp hm).symm

namespace Store

variable {s s' : Store σ α} {group : Group} {c : Connection σ} {index : Index σ} {tables : Tables σ}

structure Sound (initial : Tables σ) (s : Store σ α) : Prop where
  replay : s.history.foldlM apply initial = some s.committed
  unowned : s.owner = none → s.index = none
  unfinished : ∀ g, s.nextGroup ≤ g → s.outcomes g = none

/-- Equal data versions prove the index equal to the committed rows. -/
def Current (s : Store σ α) : Prop :=
  ∀ c index, s.owner = some c → s.index = some index → index.dataVersion ≤ c.dataVersion ∧
    (index.dataVersion = c.dataVersion → index.Matches s.committed)

structure Quiet (s : Store σ α) : Prop where
  group_eq : s.group = none
  members_eq : s.members = []
  idle : ∀ c, s.owner = some c → c.transaction = none

/-- A group is open: its transaction is its members' on the committed tables, as staged. -/
structure Open (s : Store σ α) (group : Group) (c : Connection σ) (index : Index σ)
    (tables : Tables σ) : Prop where
  group_eq : s.group = some group
  owner_eq : s.owner = some c
  transaction_eq : c.transaction = some ⟨tables,[]⟩
  index_eq : s.index = some index
  version : index.dataVersion = c.dataVersion
  revision : group.revision = index.revision
  reflects : Staging.Reflects ⟨index,s.staged,s.bumps⟩ tables
  members_run : s.members.foldlM Member.apply s.committed = some tables
  issued : group.id < s.nextGroup
  unfinished : s.outcomes group.id = none

def Settled (s : Store σ α) : Prop := s.Quiet ∨ ∃ group c index tables, s.Open group c index tables

structure Begun (s : Store σ α) (c : Connection σ) : Prop where
  group_eq : s.group = none
  members_eq : s.members = []
  owner_eq : s.owner = some c
  transaction_eq : c.transaction = some ⟨s.committed,[]⟩

/-- Between a group's COMMIT and its publication the index is behind by exactly the staging. -/
structure Behind (initial : Tables σ) (s : Store σ α) (group : Group) (staged : Staged σ)
    (bumps : Nat) (index : Index σ) (earlier later : List (Commit σ α))
    (members : List (Member σ α)) (tables : Tables σ) : Prop where
  quiet : s.Quiet
  history_eq : s.history = earlier ++ Commit.group members :: later
  later_foreign : ∀ commit ∈ later, ∃ after, commit = .foreign after
  committed_eq : (earlier ++ [Commit.group members]).foldlM apply initial = some tables
  index_eq : s.index = some index
  revision : group.revision = index.revision
  reflects : Staging.Reflects ⟨index,staged,bumps⟩ tables
  current : ∀ c, s.owner = some c → index.dataVersion ≤ c.dataVersion ∧
    (index.dataVersion = c.dataVersion → tables = s.committed)
  unfinished : s.outcomes group.id = none
  issued : group.id < s.nextGroup

structure Snapshot (s : Store σ α) (snapshot : Tables σ) (dataVersion : Nat) : Prop where
  quiet : s.Quiet
  current : ∀ c, s.owner = some c → dataVersion ≤ c.dataVersion ∧
    (dataVersion = c.dataVersion → snapshot = s.committed)
  proved : ∀ index, s.index = some index → index.dataVersion = dataVersion → index.Matches snapshot
  owned : s.owner ≠ none

section
variable (initial : Tables σ) (s : Store σ α)

def Phase : Option (Holder σ) → Prop
  | none => s.Current ∧ s.Settled
  | some (.entered _) => s.Current ∧ s.Settled
  | some (.reader _) => s.Current ∧ s.Settled
  | some (.ran _ (some _)) => s.Current ∧ s.Settled
  | some (.begun _) => s.Current ∧ ∃ c, s.Begun c
  | some (.proved _) => s.Current ∧ ∃ c index, s.Begun c ∧ s.index = some index ∧
      index.dataVersion = c.dataVersion
  | some (.joined _) => s.Current ∧ ∃ group c index tables, s.Open group c index tables
  | some (.ran _ none) => s.Current ∧ ∃ group c index tables, s.Open group c index tables
  | some (.committed _ _ group staged bumps) => ∃ index earlier later members tables,
      s.Behind initial group staged bumps index earlier later members tables
  | some (.reading _ snapshot dataVersion) => s.Current ∧ s.Snapshot snapshot dataVersion
  | some (.refreshed _) => s.Current ∧ s.Quiet

def Absent (s : Store σ α) (w : Nat) : Prop :=
  Uncommitted s.history w ∧ ∀ m ∈ s.members, m.writer ≠ w

def Joined (s : Store σ α) (w : Nat) (body : Body σ α) (value : α) : Prop :=
  Uncommitted s.history w ∧ ∃ before after tables tables', s.members = before ++ ⟨w,body⟩ :: after ∧
    before.foldlM Member.apply s.committed = some tables ∧ body.serial tables = some (value,tables')

/-- A member of a group: of the open one, of one that committed, or of one that failed. -/
def Waits (w : Nat) (body : Body σ α) (g : Nat) (value : α) : Prop :=
  s.group.map (·.id) = some g ∧ s.outcomes g = none ∧ s.Joined w body value ∨
    s.group.map (·.id) ≠ some g ∧ ((∀ e, s.outcomes g ≠ some (.error e)) ∧
      Contained initial s.history w body value ∨ (∃ e, s.outcomes g = some (.error e)) ∧ s.Absent w)

def Placed (w : Nat) : Option (Call σ α) → Prop
  | none => s.Absent w
  | some ⟨_,.arrived⟩ => s.Absent w
  | some ⟨body,.waiting g value⟩ => g < s.nextGroup ∧ s.Waits initial w body g value
  | some ⟨body,.returned (.ok value)⟩ => Contained initial s.history w body value
  | some ⟨_,.returned (.error _)⟩ => s.Absent w
  | some ⟨_,.panicked⟩ => s.Absent w

end

namespace Placed

variable {w : Nat} {call : Option (Call σ α)}

section
variable (h : s.Placed initial w call)
include h

theorem congr (hh : s'.history = s.history) (hm : s'.members = s.members) (hg : s'.group = s.group)
    (ho : s'.outcomes = s.outcomes) (hn : s'.nextGroup = s.nextGroup)
    (hc : s'.committed = s.committed) : s'.Placed initial w call := by
  cases s
  subst hh hm hg ho hn hc
  exact h

/-- How the calls fare when commits and group membership can only grow: absent and contained calls
stay so, a waiting one is looked at by the caller. -/
theorem step (habsent : s.Absent w → s'.Absent w)
    (hcon : ∀ body value, Contained initial s.history w body value → Contained initial s'.history w body value)
    (hn : s.nextGroup ≤ s'.nextGroup)
    (hcls : ∀ g < s.nextGroup, s.group.map (·.id) ≠ some g →
      s'.group.map (·.id) ≠ some g ∧ ∀ e, s'.outcomes g = some (.error e) ↔ s.outcomes g = some (.error e))
    (hopen : ∀ body g value, s.group.map (·.id) = some g → s.Joined w body value →
      s.outcomes g = none → s'.Waits initial w body g value) : s'.Placed initial w call := by
  rcases call with _ | ⟨body,_ | ⟨g,value⟩ | (e | value) | _⟩
  · exact habsent h
  · exact habsent h
  · obtain ⟨hlt,⟨hg,hnone,hj⟩ | ⟨hne,hw⟩⟩ := h
    · exact ⟨Nat.lt_of_lt_of_le hlt hn,hopen body g value hg hj hnone⟩
    · obtain ⟨hne',ho⟩ := hcls g hlt hne
      refine ⟨Nat.lt_of_lt_of_le hlt hn,.inr ⟨hne',?_⟩⟩
      simp only [ne_eq,ho]
      exact hw.imp (fun hw => ⟨hw.1,hcon body value hw.2⟩) fun hw => ⟨hw.1,habsent hw.2⟩
  · exact habsent h
  · exact hcon body value h
  · exact habsent h

theorem foreign (hq : s.Quiet) (after) (hh : s'.history = s.history ++ [.foreign after])
    (hm : s'.members = s.members) (hg : s'.group = s.group) (ho : s'.outcomes = s.outcomes)
    (hn : s'.nextGroup = s.nextGroup) : s'.Placed initial w call := by
  have habsent : s.Absent w → s'.Absent w := by
    rintro ⟨hu,hmem⟩
    refine ⟨?_,hm ▸ hmem⟩
    rw [hh]
    exact hu.append nofun
  refine h.step habsent (fun _ _ hc => hh ▸ hc.append _) (Nat.le_of_eq hn.symm)
    (fun g _ hne => ⟨hg ▸ hne,fun e => by rw [ho]⟩) fun body g value hopen => ?_
  rw [hq.group_eq] at hopen
  cases hopen

theorem openGroup (hg : s.group = none) (now) : (s.openGroup now).Placed initial w call := by
  have habsent : s.Absent w → (s.openGroup now).Absent w := fun ha => ⟨ha.1,by simp [Store.openGroup]⟩
  refine h.step habsent (fun _ _ => id) (Nat.le_succ _) (fun g hlt _ => ⟨?_,fun _ => .rfl⟩)
    fun body g value hopen => ?_
  · simp only [Store.openGroup,Option.map_some,ne_eq,Option.some.injEq]
    omega
  · rw [hg] at hopen
    cases hopen

theorem join {m} (hne : m.writer ≠ w) (hm : s'.members = s.members ++ [m])
    (hh : s'.history = s.history) (hg : s'.group = s.group) (ho : s'.outcomes = s.outcomes)
    (hn : s'.nextGroup = s.nextGroup) (hc : s'.committed = s.committed) : s'.Placed initial w call := by
  have habsent : s.Absent w → s'.Absent w := by
    rintro ⟨hu,hmem⟩
    refine ⟨hh ▸ hu,fun m' hm' => ?_⟩
    rw [hm] at hm'
    rcases mem_append.mp hm' with hm' | hm'
    · exact hmem m' hm'
    · obtain rfl := mem_singleton.mp hm'
      exact hne
  refine h.step habsent (fun _ _ => hh ▸ id) (Nat.le_of_eq hn.symm)
    (fun g _ hne => ⟨hg ▸ hne,fun e => by rw [ho]⟩) ?_
  rintro body g value hopen ⟨hu,before,after,tables,tables',hmem,hrun⟩ hnone
  refine .inl ⟨hg ▸ hopen,ho ▸ hnone,hh ▸ hu,before,after ++ [m],tables,tables',?_,hc ▸ hrun⟩
  rw [hm,hmem]
  simp

theorem abandonGroup (error) : (s.abandonGroup error).Placed initial w call := by
  unfold Store.abandonGroup
  split
  · exact h
  rename_i group hgroup
  have habsent : s.Absent w →
      (s.takeGroup.dropOwnerConnection.finish group.id (.error error)).Absent w :=
    fun ha => ⟨ha.1,by simp [finish,dropOwnerConnection,takeGroup]⟩
  refine h.step habsent (fun _ _ => id) le_rfl (fun g _ hne => ⟨?_,?_⟩)
    fun body g value hopen hj _ => ?_
  · simp [finish,dropOwnerConnection,takeGroup]
  · have hgid : g ≠ group.id := fun heq => hne (by rw [hgroup,heq]; rfl)
    simp [finish,Function.update_of_ne hgid,dropOwnerConnection,takeGroup]
  · rw [hgroup] at hopen
    obtain rfl := Option.some.inj hopen
    exact .inr ⟨by simp [finish,dropOwnerConnection,takeGroup],
      .inr ⟨⟨error,by simp [finish]⟩,hj.1,by simp [finish,dropOwnerConnection,takeGroup]⟩⟩

end

theorem absent_of_abandoned {body g value} (h : s.Placed initial w (some ⟨body,.waiting g value⟩))
    (hg : s.group.map (·.id) = some g) (error) : (s.abandonGroup error).Absent w := by
  rcases h.2 with ⟨_,_,hj⟩ | ⟨hne,_⟩
  · unfold Store.abandonGroup
    split
    · rename_i hnone
      rw [hnone] at hg
      cases hg
    · exact ⟨hj.1,by simp [finish,dropOwnerConnection,takeGroup]⟩
  · exact absurd hg hne

theorem commit (h : s.Placed initial w call) (hsound : s.Sound initial)
    (hh : s'.history = s.history ++ [.group s.members])
    (hm : s'.members = []) (hg : s'.group = none) (ho : s'.outcomes = s.outcomes)
    (hn : s'.nextGroup = s.nextGroup) : s'.Placed initial w call := by
  have habsent : s.Absent w → s'.Absent w := by
    rintro ⟨hu,hmem⟩
    refine ⟨?_,by simp [hm]⟩
    rw [hh]
    refine hu.append fun members hc => ?_
    obtain rfl := group.inj hc
    exact hmem
  refine h.step habsent (fun _ _ hc => hh ▸ hc.append _) (Nat.le_of_eq hn.symm)
    (fun g _ _ => ⟨by simp [hg],fun e => by rw [ho]⟩) ?_
  rintro body g value heq ⟨_,before,after,t,t',hmem,hrun⟩ hnone
  refine .inr ⟨by simp [hg],.inl ⟨by rw [ho,hnone]; simp,?_⟩⟩
  exact ⟨s.history,before,after,[],s.committed,t,t',by rw [hh,hmem],hsound.replay,hrun⟩

theorem publish (h : s.Placed initial w call) (hg : s.group = none) (hu : s.outcomes group.id = none)
    (staged bumps) : (s.publish group staged bumps).Placed initial w call := by
  have hout : (s.publish group staged bumps).outcomes =
      Function.update s.outcomes group.id (some (.ok ())) := rfl
  refine h.step id (fun _ _ => id) le_rfl (fun g _ hne => ⟨hne,fun e => ?_⟩) fun _ _ _ hopen => ?_
  · rw [hout]
    by_cases hgid : g = group.id
    · subst hgid
      simp [hu]
    · rw [Function.update_of_ne hgid]
  · rw [hg] at hopen
    cases hopen

end Placed

end Store

end UCloudSandboxes.Registry
