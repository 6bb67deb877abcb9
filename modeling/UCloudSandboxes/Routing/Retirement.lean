import UCloudSandboxes.Routing.Freshness

/-! `retire_node_epochs` as one transaction over the route store and the exec tables. -/
namespace UCloudSandboxes.Routing
open Machine SandboxRoute SandboxRows Store EpochRetirement

structure ExecSession where
  sandboxId : String
  jobId : String
  deriving DecidableEq

structure ExecLoss where
  sandboxId : String
  generation : Nat
  jobId : String
  deriving DecidableEq

/-- The exec tables are keyed by the session id; `lost` and `pendingDeletes` are the answer. -/
structure Retiring where
  store : Store
  execSessions : String → Option ExecSession
  execLosses : String → Option ExecLoss
  lost : List SandboxRoute := []
  pendingDeletes : List SandboxRoute := []

inductive Settlement where
  | pendingDelete
  | readopted
  | detached
  | lost
  deriving DecidableEq

def EpochRetirement.settlement (r : EpochRetirement) (route : SandboxRoute) : Settlement :=
  if sandboxOwnerLossDisposition route = .terminalDelete then .pendingDelete
  else if route.workerState = .attached ∧ r.reportsParked route = true then .readopted
  else if sandboxOwnerLossDisposition route = .recoverDetached then .detached
  else .lost

namespace Retiring
section
variable (r : EpochRetirement) (tx : Retiring) (route : SandboxRoute)

/-- `_record_exec_losses_unlocked`; a loss that is recorded already stays. -/
def recordExecLosses : Retiring :=
  { tx with
    execLosses := fun id => (tx.execLosses id).or ((tx.execSessions id).bind fun session =>
      if session.sandboxId = route.sandboxId ∧ session.jobId = route.node.jobId then
        some ⟨session.sandboxId,route.incarnation.generation,session.jobId⟩
      else none) }

def endExecSessions : Retiring :=
  { tx.recordExecLosses route with
    execSessions := fun id => (tx.execSessions id).filter (·.sandboxId ≠ route.sandboxId) }

/-- One route of the loop. A delete that finds another incarnation leaves the exec tables alone. -/
def retireRoute : Retiring :=
  let settled := { tx with store := tx.store.retireRoute r route }
  match r.settlement route with
  | .pendingDelete =>
    { settled.endExecSessions route with pendingDeletes := tx.pendingDeletes ++ [route] }
  | .readopted | .detached => settled.endExecSessions route
  | .lost =>
    if (tx.store.getSandbox route.sandboxId).any (·.incarnation = route.incarnation) then
      { settled.endExecSessions route with lost := tx.lost ++ [route] }
    else settled

def retireNodeEpochs : Retiring :=
  (tx.store.sandboxes.filter r.owns).foldl (retireRoute r)
    { tx with lost := [], pendingDeletes := [] }

def answers (id : String) : List SandboxRoute × List SandboxRoute :=
  (itemsOf sandboxId id tx.lost,itemsOf sandboxId id tx.pendingDeletes)

def Settled : Settlement → Prop
  | .pendingDelete => route.deleteOperationId ≠ "" ∧
      tx.store.getSandbox route.sandboxId = some route ∧ tx.answers route.sandboxId = ([],[route])
  | .readopted => route.workerState = .attached ∧ r.reportsParked route = true ∧
      tx.store.getSandbox route.sandboxId = some (r.adopt route) ∧
      tx.answers route.sandboxId = ([],[])
  | .detached => isPortableParkedRoute route = true ∧
      tx.store.getSandbox route.sandboxId = some (detachOwnerLostRoute route r.observedAt) ∧
      tx.answers route.sandboxId = ([],[])
  | .lost => tx.store.getSandbox route.sandboxId = none ∧ tx.answers route.sandboxId = ([route],[])

def settle (seen : SandboxRows × List SandboxRoute × List SandboxRoute) (route : SandboxRoute) :
    SandboxRows × List SandboxRoute × List SandboxRoute :=
  (retiredRow r seen.1 route,
    match r.settlement route with
    | .pendingDelete => (seen.2.1,seen.2.2 ++ [route])
    | .readopted | .detached => seen.2
    | .lost =>
      if seen.1.route.any (·.incarnation = route.incarnation) then (seen.2.1 ++ [route],seen.2.2)
      else seen.2)

theorem store_retireRoute : (tx.retireRoute r route).store = tx.store.retireRoute r route := by
  unfold retireRoute
  split <;> try split
  all_goals rfl

theorem settle_retireRoute :
    ((tx.retireRoute r route).store.rows route.sandboxId,(tx.retireRoute r route).answers route.sandboxId) =
      settle r (tx.store.rows route.sandboxId,tx.answers route.sandboxId) route := by
  rw [store_retireRoute,rows_retireRoute_self]
  unfold retireRoute settle
  cases r.settlement route with
  | pendingDelete => simp [answers,itemsOf,endExecSessions,recordExecLosses]
  | readopted | detached => rfl
  | lost =>
    simp only [rows_route]
    split <;> rename_i hfound <;> simp [answers,itemsOf,endExecSessions,recordExecLosses,hfound]

theorem answers_retireRoute_ne {k} (hk : k ≠ route.sandboxId) :
    (tx.retireRoute r route).answers k = tx.answers k := by
  unfold retireRoute
  split <;> try split
  all_goals simp [answers,itemsOf,endExecSessions,recordExecLosses,hk.symm]

theorem view_retireNodeEpochs (id) :
    ((tx.retireNodeEpochs r).store.rows id,(tx.retireNodeEpochs r).answers id) =
      match tx.store.getSandbox id with
      | none => (tx.store.rows id,[],[])
      | some route =>
        if r.owns route then settle r (tx.store.rows id,[],[]) route
        else (tx.store.rows id,[],[]) :=
  view_forRoutes (fun tx : Retiring => fun id => (tx.store.rows id,tx.answers id)) r.owns (retireRoute r)
    (settle r) (fun tx => settle_retireRoute r tx)
    (fun tx route k hk => by
      rw [store_retireRoute,rows_retireRoute_ne _ _ _ _ hk,answers_retireRoute_ne _ _ _ hk])
    tx.store { tx with lost := [], pendingDeletes := [] } id

end

variable {r : EpochRetirement} {tx : Retiring} {id : String} {route : SandboxRoute}

theorem settled_of_owns (hroute : tx.store.getSandbox id = some route) (howns : r.owns route = true) :
    Settled r (tx.retireNodeEpochs r) route (r.settlement route) := by
  cases tx.store.getSandbox_id hroute
  have hview := tx.view_retireNodeEpochs r route.sandboxId
  rw [hroute] at hview
  dsimp only at hview
  rw [if_pos howns] at hview
  obtain ⟨hrows,hansw⟩ := Prod.mk.inj hview
  have hget := congrArg (·.route) hrows
  have hcur : (tx.store.rows route.sandboxId).route = some route := hroute
  unfold retiredRow at hget
  unfold settlement at hansw ⊢
  by_cases hdel : sandboxOwnerLossDisposition route = .terminalDelete
  · rw [if_pos hdel] at hget hansw ⊢
    refine ⟨?_,hget.trans hcur,hansw⟩
    unfold sandboxOwnerLossDisposition at hdel
    split_ifs at hdel
    assumption
  rw [if_neg hdel] at hget hansw ⊢
  by_cases hpk : route.workerState = .attached ∧ r.reportsParked route = true
  · rw [if_pos hpk] at hget hansw ⊢
    exact ⟨hpk.1,hpk.2,hget,hansw⟩
  rw [if_neg hpk] at hget hansw ⊢
  by_cases hpor : sandboxOwnerLossDisposition route = .recoverDetached
  · rw [if_pos hpor] at hansw ⊢
    rw [ownerLostIfCurrent,if_pos hpor,ownerLost,if_pos hpor] at hget
    refine ⟨?_,hget,hansw⟩
    unfold sandboxOwnerLossDisposition at hpor
    split_ifs at hpor
    assumption
  · rw [if_neg hpor] at hansw ⊢
    simp only [ownerLostIfCurrent,ownerLost,if_neg hpor,hcur] at hget
    simp only [hcur,Option.any_some] at hansw
    exact ⟨hget,hansw⟩

theorem rows_of_not_owns (h : ¬∃ route, tx.store.getSandbox id = some route ∧ r.owns route = true) :
    (tx.retireNodeEpochs r).store.rows id = tx.store.rows id := by
  have hrows := congrArg Prod.fst (tx.view_retireNodeEpochs r id)
  cases hroute : tx.store.getSandbox id with
  | none => simpa [hroute] using hrows
  | some route =>
    have howns : ¬r.owns route = true := fun howns => h ⟨route,hroute,howns⟩
    simpa [hroute,howns] using hrows

theorem settlement_of_owns_again (h : (tx.retireNodeEpochs r).store.getSandbox id = some route)
    (howns : r.owns route = true) : r.settlement route = .pendingDelete := by
  by_cases hbef : ∃ before, tx.store.getSandbox id = some before ∧ r.owns before = true
  · obtain ⟨before,hroute,hbef⟩ := hbef
    have hset := settled_of_owns hroute hbef
    cases tx.store.getSandbox_id hroute
    simp only [owns,Bool.and_eq_true,decide_eq_true_eq] at howns
    cases hs : r.settlement before with
    | pendingDelete =>
      rw [hs] at hset
      cases hset.2.1.symm.trans h
      exact hs
    | readopted =>
      rw [hs] at hset
      cases hset.2.2.1.symm.trans h
      exact absurd rfl howns.1.2
    | detached =>
      rw [hs] at hset
      cases hset.2.1.symm.trans h
      exact absurd rfl howns.1.1.2
    | lost =>
      rw [hs] at hset
      cases hset.1.symm.trans h
  · rw [← rows_route,rows_of_not_owns hbef] at h
    exact absurd ⟨route,h,howns⟩ hbef

theorem execLosses_of_removed {sid session} (h : tx.execSessions sid = some session) :
    (tx.retireNodeEpochs r).execSessions sid = some session ∨
      (tx.retireNodeEpochs r).execSessions sid = none ∧
        (session.jobId = r.jobId → ((tx.retireNodeEpochs r).execLosses sid).isSome) := by
  refine List.foldlRecOn (motive := fun t : Retiring => t.execSessions sid = some session ∨
    t.execSessions sid = none ∧ (session.jobId = r.jobId → (t.execLosses sid).isSome)) _ _ (.inl h) ?_
  intro t ht route hmem
  have hjob : route.node.jobId = r.jobId := by
    have howns := (List.mem_filter.mp hmem).2
    simp only [owns,Bool.and_eq_true,decide_eq_true_eq] at howns
    exact howns.1.1.1.2
  have hended : (t.endExecSessions route).execSessions sid = some session ∨
      (t.endExecSessions route).execSessions sid = none ∧
        (session.jobId = r.jobId → ((t.endExecSessions route).execLosses sid).isSome) := by
    rcases ht with ht | ⟨hnone,hloss⟩
    · by_cases hid : session.sandboxId = route.sandboxId
      · refine .inr ⟨by simp [endExecSessions,ht,hid],fun hj => ?_⟩
        simp [endExecSessions,recordExecLosses,ht,hid,hj,hjob]
      · exact .inl (by simp [endExecSessions,ht,hid])
    · refine .inr ⟨by simp [endExecSessions,hnone],fun hj => ?_⟩
      simp [endExecSessions,recordExecLosses,hloss hj]
  unfold retireRoute
  cases r.settlement route with
  | pendingDelete | readopted | detached => exact hended
  | lost =>
    dsimp only
    split
    · exact hended
    · exact ht

/-- Every route of a retired boot gets one outcome, nothing else changes, and a second call finds
nothing. -/
theorem retireNodeEpochs_settles_once (r) (tx : Retiring) :
    (∀ id route, tx.store.getSandbox id = some route → r.owns route = true →
      (∃! outcome, Settled r (tx.retireNodeEpochs r) route outcome) ∧
        (route.deleteOperationId ≠ "" ∨ isPortableParkedRoute route = true →
          (tx.retireNodeEpochs r).store.getSandbox id ≠ none)) ∧
      (∀ id, (¬∃ route, tx.store.getSandbox id = some route ∧ r.owns route = true) →
        (tx.retireNodeEpochs r).store.rows id = tx.store.rows id) ∧
      (∀ sid session, tx.execSessions sid = some session →
        (tx.retireNodeEpochs r).execSessions sid ≠ some session → session.jobId = r.jobId →
          ((tx.retireNodeEpochs r).execLosses sid).isSome) ∧
      ∀ id, ((tx.retireNodeEpochs r).retireNodeEpochs r).store.getSandbox id =
        (tx.retireNodeEpochs r).store.getSandbox id := by
  refine ⟨fun id route hroute howns => ⟨⟨_,settled_of_owns hroute howns,fun outcome h => ?_⟩,?_⟩,
    fun id => rows_of_not_owns,fun sid session hses hgone hjob => ?_,fun id => ?_⟩
  · have hset := settled_of_owns hroute howns
    have hnew : r.nodeEpoch ≠ "" := by
      simp only [owns,Bool.and_eq_true,decide_eq_true_eq] at howns
      exact howns.1.1.1.1.2
    -- The answer tells a recorded delete and a loss; the epoch tells the other two outcomes apart.
    cases hs : r.settlement route <;> rw [hs] at hset <;> cases outcome <;>
      first | rfl | simp_all [Settled,adopt,detachOwnerLostRoute]
  · intro hkeep hnone
    have hset := settled_of_owns hroute howns
    cases tx.store.getSandbox_id hroute
    cases hs : r.settlement route <;> rw [hs] at hset
    case lost =>
      unfold settlement sandboxOwnerLossDisposition at hs
      split_ifs at hs <;> simp_all
    all_goals simp_all [Settled]
  · obtain hkept | ⟨-,hloss⟩ := execLosses_of_removed (r := r) hses
    · exact absurd hkept hgone
    · exact hloss hjob
  · by_cases hagain : ∃ route, (tx.retireNodeEpochs r).store.getSandbox id = some route ∧
        r.owns route = true
    · obtain ⟨route,hroute,howns⟩ := hagain
      have hset := settled_of_owns hroute howns
      rw [settlement_of_owns_again hroute howns] at hset
      rw [hroute,← (tx.retireNodeEpochs r).store.getSandbox_id hroute]
      exact hset.2.1
    · exact congrArg (·.route) (rows_of_not_owns hagain)

end Retiring
end UCloudSandboxes.Routing
