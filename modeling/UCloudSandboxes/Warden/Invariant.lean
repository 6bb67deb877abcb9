import UCloudSandboxes.Warden.Park

namespace UCloudSandboxes.Warden
open Storage (VolumeState)

/-- What holds of a COMPLETE generation that captured the sandbox's sentry. -/
structure Owned (n : Node) (k : Nat) (m : Manifest) : Prop where
  current : k = n.journal.hibernationGeneration
  generation : m.hibernationGeneration = k
  operation : m.operationId = n.journal.operationId
  workspace : m.workspace = n.workspaceRef
  notRunning : n.status ≠ .running
  notAdopted : n.journal.state ≠ .running
  volume : n.splitMemory = true →
    n.workspace.state ∈ [VolumeState.capturePrepared, .sealed, .released, .error]

def Uncaptured (n : Node) : Prop := ∀ k m, n.complete k = some m → m.captured ≠ n.sentry

/-- Kept by every action, whether or not the procedure gets any further. -/
structure Inv (n : Node) : Prop where
  keys : ∀ k, n.generations.lookup k ≠ none → k ≤ n.journal.hibernationGeneration
  owned : ∀ k m, n.complete k = some m → m.captured = n.sentry → Owned n k m
  current : ∀ m, n.complete n.journal.hibernationGeneration = some m →
    n.journal.state = .hibernating ∨ n.journal.state = .parked → m.captured = n.sentry
  live : n.journal.authority = .live → n.journal.sentry = some n.sentry ∧ n.container = true
  reaped : n.journal.authority ≠ .live → n.status = .dead
  hibernating : n.journal.state = .hibernating → n.journal.operationKind = .hibernate
  parked : n.journal.state = .parked →
    ∃ m, n.complete n.journal.hibernationGeneration = some m ∧
      n.journal.manifestSha256 = m.metadataSha256 ∧ (n.splitMemory = true → n.container = false)
  positive : n.journal.state = .hibernating ∨ n.journal.state = .parked →
    0 < n.journal.hibernationGeneration
  restoring : n.journal.state ≠ .restoring
  candidate : n.journal.candidate = none
  committed : ∀ c present, n.committed = some (c, present) → present = false
  volume : n.splitMemory = true → Uncaptured n →
    n.workspace.state ∈ [VolumeState.mounted, .capturePrepared, .error]
  legacy : n.splitMemory = false → n.workspace.state ∈ [VolumeState.mounted, .released, .error]

namespace Inv

variable {n : Node}

theorem withStatus (h : Inv n) {status} (hlive : status ≠ .dead → n.journal.authority = .live)
    (howned : status = .running → Uncaptured n) : Inv { n with status } where
  keys := h.keys
  owned k m hk hm :=
    { h.owned k m hk hm with notRunning := fun hs => howned hs k m hk hm }
  current := h.current
  live := h.live
  reaped ha := by
    by_contra hs
    exact ha (hlive hs)
  hibernating := h.hibernating
  parked := h.parked
  positive := h.positive
  restoring := h.restoring
  candidate := h.candidate
  committed := h.committed
  volume := h.volume
  legacy := h.legacy

theorem exit (h : Inv n) : Inv { n with status := .dead } :=
  h.withStatus (fun hs => absurd rfl hs) nofun

theorem withWorkspace (h : Inv n) {workspace}
    (howned : ∀ k m, n.complete k = some m → m.captured = n.sentry → n.splitMemory = true →
      workspace.captureId = n.workspace.captureId ∧
        workspace.state ∈ [VolumeState.capturePrepared, .sealed, .released, .error])
    (hfree : n.splitMemory = true → Uncaptured n →
      workspace.state ∈ [VolumeState.mounted, .capturePrepared, .error])
    (hleg : n.splitMemory = false → workspace.state ∈ [VolumeState.mounted, .released, .error]) :
    Inv { n with workspace } where
  keys := h.keys
  owned k m hk hm :=
    { h.owned k m hk hm with
      workspace := by
        rw [(h.owned k m hk hm).workspace]
        cases hsplit : n.splitMemory with
        | false => simp [Node.workspaceRef,hsplit]
        | true => simp [Node.workspaceRef,hsplit,(howned k m hk hm hsplit).1]
      volume := fun hsplit => (howned k m hk hm hsplit).2 }
  current := h.current
  live := h.live
  reaped := h.reaped
  hibernating := h.hibernating
  parked := h.parked
  positive := h.positive
  restoring := h.restoring
  candidate := h.candidate
  committed := h.committed
  volume := hfree
  legacy := hleg

theorem storageError (h : Inv n) : Inv { n with workspace := { n.workspace with state := .error } } :=
  h.withWorkspace (fun _ _ _ _ _ => ⟨rfl,by simp⟩) (fun _ _ => by simp) (fun _ => by simp)

theorem deleteRuntime (h : Inv n) (ha : n.journal.authority ≠ .live) :
    Inv { n with container := false } :=
  { h with
    owned := fun k m hk hm => { h.owned k m hk hm with }
    live := fun hl => absurd hl ha
    parked := fun hp => by
      obtain ⟨m,hm,hd,-⟩ := h.parked hp
      exact ⟨m,hm,hd,fun _ => rfl⟩ }

theorem uncaptured_of_running (h : Inv n) (hs : n.journal.state = .running) : Uncaptured n :=
  fun k m hk hm => (h.owned k m hk hm).notAdopted hs

theorem uncaptured (h : Inv n) (hn : n.complete n.journal.hibernationGeneration = none) :
    Uncaptured n := by
  intro k m hk hm
  rw [← (h.owned k m hk hm).current,hk] at hn
  cases hn

section Journal

variable {r : Record}

variable {revision : Nat} {operationId : String}

theorem beginHibernate (h : Inv n) (hs : n.journal.state = .running)
    (hr : n.journal.beginHibernate operationId revision = .ok r) : Inv { n with journal := r } := by
  obtain ⟨hstate,hauth,hkind,hgen,hsen,hcand⟩ := Record.beginHibernate_ok hs hr
  have hlive := h.live (Record.live_of_running hs)
  exact {
    keys := fun k hk => by
      have := h.keys k hk
      simp only [hgen]
      omega
    owned := fun k m hk hm => absurd hm (h.uncaptured_of_running hs k m hk)
    current := fun m hm _ => by
      -- the new generation has no directory yet
      have hk : n.generations.lookup r.hibernationGeneration ≠ none := by
        intro hn
        simp [Node.complete,hn] at hm
      have := h.keys _ hk
      omega
    live := fun _ => ⟨by rw [hsen]; exact hlive.1,hlive.2⟩
    reaped := absurd hauth
    hibernating := fun _ => hkind
    parked := fun hp => by simp [hstate] at hp
    positive := fun _ => by simp [hgen]
    restoring := by simp [hstate]
    candidate := hcand
    committed := h.committed
    volume := h.volume
    legacy := h.legacy }

theorem withReaped (h : Inv n) (hd : n.status = .dead)
    (hgen : r.hibernationGeneration = n.journal.hibernationGeneration)
    (hop : r.operationId = n.journal.operationId) (hcand : r.candidate = n.journal.candidate)
    (hauth : r.authority ≠ .live) (hrun : r.state ≠ .running) (hrest : r.state ≠ .restoring)
    (hcur : r.state = .hibernating ∨ r.state = .parked → n.journal.state = .hibernating)
    (hkind : r.state = .hibernating → r.operationKind = .hibernate)
    (hpark : r.state = .parked → ∃ m, n.complete n.journal.hibernationGeneration = some m ∧
      r.manifestSha256 = m.metadataSha256 ∧ (n.splitMemory = true → n.container = false)) :
    Inv { n with journal := r } :=
  { h with
    keys := fun k hk => by simpa only [hgen] using h.keys k hk
    owned := fun k m hk hm => { h.owned k m hk hm with
      current := by simpa only [hgen] using (h.owned k m hk hm).current
      operation := by simpa only [hop] using (h.owned k m hk hm).operation
      notAdopted := hrun }
    current := fun m hm hs => h.current m (hgen ▸ hm) (.inl (hcur hs))
    live := fun ha => absurd ha hauth
    reaped := fun _ => hd
    hibernating := hkind
    parked := fun hp => by
      rw [hgen]
      exact hpark hp
    positive := fun hs => by
      rw [hgen]
      exact h.positive (.inl (hcur hs))
    restoring := hrest
    candidate := hcand.trans h.candidate }

theorem markSentryReaped (h : Inv n) (hd : n.status = .dead)
    (hr : n.journal.markSentryReaped operationId revision = .ok r) : Inv { n with journal := r } := by
  obtain ⟨hs,hstate,hauth,hkind,hop,hgen,hcand⟩ := Record.markSentryReaped_ok hr
  exact h.withReaped hd hgen hop hcand (by simp [hauth]) (by simp [hstate]) (by simp [hstate])
    (fun _ => hs) (fun _ => hkind) (by simp [hstate])

theorem abortHibernate (h : Inv n) (hn : n.complete n.journal.hibernationGeneration = none)
    (ha : n.journal.authority = .live)
    (hr : n.journal.abortHibernate operationId revision n.journal.sentry = .ok r) :
    Inv { n with journal := r } := by
  obtain ⟨hstate,hauth,hsen,hgen,hcand⟩ := Record.abortHibernate_ok hr
  exact { h with
    keys := fun k hk => by simpa only [hgen] using h.keys k hk
    owned := fun k m hk hm => absurd hm (h.uncaptured hn k m hk)
    current := fun m _ hor => by simp [hstate] at hor
    live := fun _ => ⟨by rw [hsen]; exact (h.live ha).1,(h.live ha).2⟩
    reaped := absurd hauth
    hibernating := fun hh => by simp [hstate] at hh
    parked := fun hp => by simp [hstate] at hp
    positive := fun hor => by simp [hstate] at hor
    restoring := by simp [hstate]
    candidate := by simpa only [hcand] using h.candidate }

theorem commitParked (h : Inv n) {m} (hm : n.complete n.journal.hibernationGeneration = some m)
    (hs : n.journal.state = .hibernating) (ha : n.journal.authority = .pending)
    (hc : n.splitMemory = true → n.container = false)
    (hr : n.journal.commitParked m operationId revision = .ok r) : Inv { n with journal := r } := by
  obtain ⟨hstate,hsha,hop,hgen,hcand,hauth⟩ := Record.commitParked_ok hs hr
  exact h.withReaped (h.reaped (by simp [ha])) hgen hop hcand (by simp [hauth]) (by simp [hstate])
    (by simp [hstate]) (fun _ => hs) (by simp [hstate]) (fun _ => ⟨m,hm,hsha,hc⟩)

theorem quarantine (h : Inv n) {reason dead} (hd : n.status = .dead)
    (hr : n.journal.quarantine reason revision dead = .ok r) : Inv { n with journal := r } := by
  obtain ⟨hstate,hauth,hop,hgen,hcand⟩ := Record.quarantine_ok hr
  exact h.withReaped hd hgen hop hcand hauth (by simp [hstate]) (by simp [hstate])
    (by simp [hstate]) (by simp [hstate]) (by simp [hstate])

end Journal

section Generations

variable {k : Nat}

theorem withPending (h : Inv n) {generations}
    (hsame : ∀ k, Node.complete { n with generations } k = n.complete k)
    (hkeys : ∀ k, generations.lookup k ≠ none → k ≤ n.journal.hibernationGeneration) :
    Inv { n with generations } where
  keys := hkeys
  owned k m hk hm := { h.owned k m (hsame k ▸ hk) hm with }
  current m hm := h.current m (hsame _ ▸ hm)
  live := h.live
  reaped := h.reaped
  hibernating := h.hibernating
  parked hp := by
    rw [hsame]
    exact h.parked hp
  positive := h.positive
  restoring := h.restoring
  candidate := h.candidate
  committed := h.committed
  volume hsplit hfree := h.volume hsplit fun k m hk => hfree k m ((hsame k).trans hk)
  legacy := h.legacy

theorem keys_insert (h : Inv n) (hk : k ≤ n.journal.hibernationGeneration) {j g}
    (hj : (n.generations.insert k g).lookup j ≠ none) : j ≤ n.journal.hibernationGeneration := by
  by_cases hjk : j = k
  · exact hjk ▸ hk
  · exact h.keys j (by rwa [AList.lookup_insert_ne hjk] at hj)

theorem insertPending (h : Inv n) (hk : k ≤ n.journal.hibernationGeneration)
    (hn : n.generations.lookup k = none) :
    Inv { n with generations := n.generations.insert k .pending } :=
  h.withPending (fun _ => n.complete_insert_pending hn) fun _ => h.keys_insert hk

theorem erasePending (h : Inv n) (hn : n.generations.lookup k = some .pending) :
    Inv { n with generations := n.generations.erase k } := by
  refine h.withPending (fun j => ?_) (fun j hj => ?_) <;> by_cases hjk : j = k
  · subst hjk
    simp [Node.complete,hn]
  · exact n.complete_erase_ne hjk
  · subst hjk
    simp at hj
  · exact h.keys j (by rwa [AList.lookup_erase_ne hjk] at hj)

theorem unlinkComplete (h : Inv n) (hs : n.journal.state = .running)
    (hk : n.generations.lookup k ≠ none) :
    Inv { n with generations := n.generations.insert k .pending } := by
  have hold : ∀ j m, Node.complete { n with generations := n.generations.insert k .pending } j =
      some m → n.complete j = some m := by
    intro j m hj
    by_cases hjk : j = k
    · subst hjk
      simp [Node.complete] at hj
    · rwa [n.complete_insert_ne hjk] at hj
  exact { h with
    keys := fun j => h.keys_insert (h.keys k hk)
    owned := fun j m hj hm => absurd hm (h.uncaptured_of_running hs j m (hold j m hj))
    current := fun m hm hor => h.current m (hold _ m hm) hor
    parked := fun hp => by simp [hs] at hp
    volume := fun hsplit _ => h.volume hsplit (h.uncaptured_of_running hs) }

theorem publish (h : Inv n) {m} (hs : n.journal.state = .hibernating) (hrun : n.status ≠ .running)
    (hg : m.hibernationGeneration = n.journal.hibernationGeneration)
    (ho : m.operationId = n.journal.operationId) (hw : m.workspace = n.workspaceRef)
    (hc : m.captured = n.sentry) (hv : n.splitMemory = true → n.workspace.state = .capturePrepared)
    (hn : n.complete n.journal.hibernationGeneration = none) : Inv { n with
      generations := n.generations.insert n.journal.hibernationGeneration (.complete m) } := by
  have hself := n.complete_insert_self (k := n.journal.hibernationGeneration) m
  exact { h with
    keys := fun k => h.keys_insert (Nat.le_refl _)
    owned := fun k m' hk hm' => by
      by_cases hkg : k = n.journal.hibernationGeneration
      · subst hkg
        obtain rfl : m = m' := Option.some.inj (hself.symm.trans hk)
        exact ⟨rfl,hg,ho,hw,hrun,by simp [hs],fun hsplit => by simp [hv hsplit]⟩
      · exact absurd hm' (h.uncaptured hn k m' (n.complete_insert_ne hkg _ ▸ hk))
    current := fun m' hm' _ => by
      obtain rfl : m = m' := Option.some.inj (hself.symm.trans hm')
      exact hc
    parked := fun hp => by simp [hs] at hp
    volume := fun _ hfree => absurd hc (hfree _ m hself) }

end Generations

end Inv

end UCloudSandboxes.Warden
