import UCloudSandboxes.Gateway.CommandActs

namespace UCloudSandboxes.Gateway
open Machine Routing CommandSystem Option List

variable {db : CommandStore} {x : Executor} {c : Command} {act : CommandAct} {id : String}

namespace CommandSystem
variable {s s' : CommandSystem} {e : CommandEvent} {g : Nat}

theorem step_cases (h : s.step e = some s') :
    (Queued s.db s'.db ∧ (∀ id ∈ s.drawn, id ∈ s'.drawn) ∧ s'.bound = s.bound ∧
      s'.released = s.released) ∨ (∃ id c, id ∉ s.drawn ∧ c.generation = none ∧
      s' = { s with db := { s.db with commands := s.db.commands.insert id c }, drawn := id :: s.drawn }) ∨
    (∃ routes, Onward s.db.routes routes ∧ s' = { s with db := { s.db with routes } }) ∨
    ∃ id token utcNow act db, e = .execute id token utcNow act ∧
      act.apply s.db ⟨id,token,s.clock,utcNow⟩ = .ok db ∧ s' = s.record id db := by
  cases e with
  | tick =>
    cases h
    exact .inl ⟨.refl _,fun _ h => h,rfl,rfl⟩
  | submit id =>
    obtain ⟨hnew,rfl⟩ := some_of_guard h
    rw [CommandStore.submit]
    split
    · exact .inl ⟨.refl _,fun _ => .tail _,rfl,rfl⟩
    · exact .inr (.inl ⟨id,_,hnew,rfl,rfl⟩)
  | claim =>
    simp only [step] at h
    split at h
    · cases h
    · cases h
      exact .inl ⟨.claim ..,fun _ => .tail _,rfl,rfl⟩
  | renew =>
    cases h
    exact .inl ⟨.renew ..,fun _ h => h,rfl,rfl⟩
  | defer =>
    cases h
    exact .inl ⟨.defer ..,fun _ h => h,rfl,rfl⟩
  | complete =>
    cases h
    exact .inl ⟨.complete ..,fun _ h => h,rfl,rfl⟩
  | prune =>
    cases h
    exact .inl ⟨.prune ..,fun _ h => h,rfl,rfl⟩
  | cancel =>
    cases h
    exact .inl ⟨.cancel ..,fun _ h => h,rfl,rfl⟩
  | execute id token utcNow act =>
    simp only [step] at h
    split at h
    · rename_i db happly
      cases h
      exact .inr (.inr (.inr ⟨id,token,utcNow,act,db,rfl,happly,rfl⟩))
    · cases h
      exact .inl ⟨.refl _,fun _ h => h,rfl,rfl⟩
  | route =>
    obtain ⟨hroutes,rfl⟩ := some_of_check h
    exact .inr (.inr (.inl ⟨_,onward_exec _ hroutes,rfl⟩))

/-- A command's generation was given out, and each one before was ended by its own transactions. -/
structure Inv (s : CommandSystem) : Prop where
  bounded : ∀ id, (s.db.routes.rows id).Bounded
  known : ∀ id c, s.db.commands.lookup id = some c → id ∈ s.drawn
  within : ∀ id c g, s.db.commands.lookup id = some c → c.generation = some g →
    g ≤ s.db.routes.generationHwm c.sandboxId
  bound : ∀ id g, g ∈ s.bound id → id ∈ s.drawn
  released : ∀ id c g, s.db.commands.lookup id = some c → g ∈ s.bound id →
    c.generation = some g ∨ g ∈ s.released id

theorem inv_start : start.Inv := by
  refine ⟨fun id route hroute => ?_,fun id c hc => ?_,fun id c g hc => ?_,fun id g hg => ?_,
    fun id c g hc => ?_⟩
  · simp [start,Store.fresh,Store.rows] at hroute
  · simp [start] at hc
  · simp [start] at hc
  · simp [start] at hg
  · simp [start] at hc

theorem Inv.queued (hi : s.Inv) (hq : Queued s.db s'.db) (hdrawn : ∀ id ∈ s.drawn, id ∈ s'.drawn)
    (hbound : s'.bound = s.bound) (hrel : s'.released = s.released) : s'.Inv := by
  refine ⟨hq.routes ▸ hi.bounded,fun id c' hc' => ?_,fun id c' g hc' hg => ?_,fun id g hg => ?_,
    fun id c' g hc' hg => ?_⟩
  · obtain ⟨c,hc,-⟩ := hq.row id c' hc'
    exact hdrawn id (hi.known id c hc)
  · obtain ⟨c,hc,-,hsb,hgen,-⟩ := hq.row id c' hc'
    rw [hq.routes,hsb]
    exact hi.within id c g hc (hgen ▸ hg)
  · exact hdrawn id (hi.bound id g (hbound ▸ hg))
  · obtain ⟨c,hc,-,-,hgen,-⟩ := hq.row id c' hc'
    rw [hgen,hrel]
    exact hi.released id c g hc (hbound ▸ hg)

theorem Inv.submitted (hi : s.Inv) (hnew : id ∉ s.drawn) (hgen : c.generation = none) :
    Inv { s with db := { s.db with commands := s.db.commands.insert id c }, drawn := id :: s.drawn } := by
  have hlook : ∀ k c', (s.db.commands.insert id c).lookup k = some c' →
      k = id ∧ c' = c ∨ s.db.commands.lookup k = some c' :=
    fun k c' hc' => (lookup_of_insert hc').imp_right And.right
  refine ⟨hi.bounded,fun k c' hc' => ?_,fun k c' g hc' hg => ?_,fun k g hg => ?_,fun k c' g hc' hg => ?_⟩
  · rcases hlook k c' hc' with ⟨rfl,-⟩ | hold
    · exact (.head _)
    · exact .tail _ (hi.known k c' hold)
  · rcases hlook k c' hc' with ⟨-,rfl⟩ | hold
    · rw [hgen] at hg
      cases hg
    · exact hi.within k c' g hold hg
  · exact .tail _ (hi.bound k g hg)
  · rcases hlook k c' hc' with ⟨rfl,-⟩ | hold
    · exact absurd (hi.bound k g hg) hnew
    · exact hi.released k c' g hold hg

theorem Inv.routed {routes} (hi : s.Inv) (h : Onward s.db.routes routes) :
    Inv { s with db := { s.db with routes } } :=
  ⟨h.bounded hi.bounded,hi.known,fun id c g hc hg => (hi.within id c g hc hg).trans (h.hwm _),hi.bound,
    hi.released⟩

theorem Inv.executed (hi : s.Inv) (hx : x.commandId = id) (h : Acted s.db x db) : (s.record id db).Inv := by
  subst hx
  have hown {c' : Command} (hc' : db.commands.lookup x.commandId = some c') := h.own hi.bounded hc'
  refine ⟨h.onward.bounded hi.bounded,fun k c' hc' => ?_,fun k c' g hc' hg => ?_,fun k g hg => ?_,
    fun k c' g hc' hg => ?_⟩
  · by_cases hk : k = x.commandId
    · subst hk
      obtain ⟨c,hc,-⟩ := hown hc'
      exact hi.known _ c hc
    · exact hi.known k c' ((h.lookup_ne hk).symm.trans hc')
  · by_cases hk : k = x.commandId
    · subst hk
      obtain ⟨c,hc,hsb,hnow,-⟩ := hown hc'
      rw [hsb]
      rcases hnow g hg with hold | ⟨route,hroute,rfl⟩
      · exact (hi.within _ c g hc hold).trans (h.onward.hwm _)
      · exact h.onward.bounded hi.bounded _ route hroute
    · exact (hi.within k c' g ((h.lookup_ne hk).symm.trans hc') hg).trans (h.onward.hwm _)
  · simp only [record,Function.update_apply] at hg
    split at hg
    · rename_i hk
      subst hk
      rcases mem_append.mp hg with hold | hnew
      · exact hi.bound _ g hold
      obtain ⟨c',hc',-⟩ := bind_eq_some_iff.mp (mem_toList.mp hnew)
      obtain ⟨c,hc,-⟩ := hown hc'
      exact hi.known _ c hc
    · exact hi.bound k g hg
  · simp only [record,Function.update_apply] at hg ⊢
    split at hg
    · rename_i hk
      subst hk
      rw [if_pos rfl]
      obtain ⟨c,hc,hsb,-,hleft⟩ := hown hc'
      rcases mem_append.mp hg with hold | hnew
      · rcases hi.released _ c g hc hold with hbound | hrel
        · refine (hleft g hbound).imp id fun hended => mem_append_right _ ?_
          simpa [sandboxOf,hc] using hended
        · exact .inr (mem_append_left _ hrel)
      · obtain ⟨c'',hc'',hgen⟩ := bind_eq_some_iff.mp (mem_toList.mp hnew)
        cases hc'.symm.trans hc''
        exact .inl hgen
    · rename_i hk
      rw [if_neg hk]
      exact hi.released k c' g ((h.lookup_ne hk).symm.trans hc') hg

theorem Inv.step (hi : s.Inv) (h : s.step e = some s') : s'.Inv := by
  rcases step_cases h with ⟨hq,hdrawn,hbound,hrel⟩ | ⟨id,c,hnew,hgen,rfl⟩ | ⟨routes,honw,rfl⟩ |
    ⟨id,token,utcNow,act,db,-,happly,rfl⟩
  · exact hi.queued hq hdrawn hbound hrel
  · exact hi.submitted hnew hgen
  · exact hi.routed honw
  · exact hi.executed rfl (acted_of_apply happly)

theorem inv_of_reaches (h : Reaches step anyEvent (· = start) s) : s.Inv :=
  h.keeps inv_start fun _ _ _ hi _ => hi.step

/-- A command nobody can run any more: done, or bound to an incarnation that is gone. -/
def Closed (s : CommandSystem) (id : String) : Prop :=
  id ∈ s.drawn ∧ ((∀ c, s.db.commands.lookup id = some c → c.state = .done) ∨
    ∃ sandboxId g, g ≤ s.db.routes.generationHwm sandboxId ∧
      (∀ route, s.db.routes.getSandbox sandboxId = some route → route.incarnation.generation ≠ g) ∧
      ∀ c, s.db.commands.lookup id = some c → c.sandboxId = sandboxId ∧ c.generation = some g)

namespace Closed

theorem refused (h : s.Closed id) (hx : x.commandId = id) : ∀ c, s.db.commandRow x ≠ .ok c := by
  subst hx
  intro c hrow
  obtain ⟨hlook,hheld,hstd⟩ := commandRow_ok hrow
  rcases h.2 with hdone | ⟨sandboxId,g,-,hgone,hbound⟩
  · simp [Command.heldBy,hdone c hlook] at hheld
  obtain ⟨rfl,hg⟩ := hbound c hlook
  obtain ⟨route,hroute,hgen⟩ := hstd g hg
  exact hgone route hroute hgen

theorem gone {routes routes' sandboxId} (h : Onward routes routes')
    (hle : g ≤ routes.generationHwm sandboxId)
    (hgone : ∀ route, routes.getSandbox sandboxId = some route → route.incarnation.generation ≠ g)
    {route'} (hroute' : routes'.getSandbox sandboxId = some route') :
    route'.incarnation.generation ≠ g := by
  rcases h.origin sandboxId route' hroute' with ⟨route,hroute,hsame⟩ | hlt
  · exact hsame ▸ hgone route hroute
  · exact (hle.trans_lt hlt).ne'

theorem mono (h : s.Closed id) (honw : Onward s.db.routes s'.db.routes) (hdrawn : id ∈ s'.drawn)
    (hrow : ∀ c', s'.db.commands.lookup id = some c' → ∃ c, s.db.commands.lookup id = some c ∧
      c'.sandboxId = c.sandboxId ∧ c'.generation = c.generation ∧ (c.state = .done → c'.state = .done)) :
    s'.Closed id := by
  refine ⟨hdrawn,h.2.imp (fun hdone c' hc' => ?_) ?_⟩
  · obtain ⟨c,hc,-,-,hstays⟩ := hrow c' hc'
    exact hstays (hdone c hc)
  · rintro ⟨sandboxId,g,hle,hgone,hbound⟩
    refine ⟨sandboxId,g,hle.trans (honw.hwm _),fun _ => gone honw hle hgone, fun c' hc' => ?_⟩
    obtain ⟨c,hc,hsb,hgen,-⟩ := hrow c' hc'
    obtain ⟨hs,hg⟩ := hbound c hc
    exact ⟨hsb.trans hs,hgen.trans hg⟩

theorem step (h : s.Closed id) (hs : s.step e = some s') : s'.Closed id := by
  rcases step_cases hs with ⟨hq,hdrawn,-,-⟩ | ⟨new,c,hnew,-,rfl⟩ | ⟨routes,honw,rfl⟩ |
    ⟨other,token,utcNow,act,db,-,happly,rfl⟩
  · refine h.mono (hq.routes ▸ .refl _) (hdrawn id h.1) fun c' hc' => ?_
    obtain ⟨c,hc,-,hrest⟩ := hq.row id c' hc'
    exact ⟨c,hc,hrest⟩
  · have hne : id ≠ new := by
      rintro rfl
      exact hnew h.1
    refine h.mono (.refl _) (.tail _ h.1) fun c' hc' => ?_
    exact ⟨c',(AList.lookup_insert_ne hne).symm.trans hc',rfl,rfl,fun hd => hd⟩
  · exact h.mono honw h.1 fun c' hc' => ⟨c',hc',rfl,rfl,fun hd => hd⟩
  · have hacted := acted_of_apply happly
    refine h.mono hacted.onward h.1 fun c' hc' => ⟨c',?_,rfl,rfl,fun hd => hd⟩
    by_cases hid : id = other
    · cases hacted with
      | confirmed | kept | grouped => exact hc'
      | bound hrow | placed hrow | released hrow => exact absurd hrow (h.refused hid.symm _)
    · exact (hacted.lookup_ne hid).symm.trans hc'

theorem of_reaches (h : s.Closed id) (hs : Reaches CommandSystem.step anyEvent (· = s) s') : s'.Closed id :=
  hs.keeps (I := fun s => s.Closed id) h fun _ _ _ hc _ => hc.step

end Closed

theorem allocation_execute {token utcNow}
    (hrefd : ∀ c, s.db.commandRow ⟨id,token,s.clock,utcNow⟩ ≠ .ok c)
    (h : s.step (.execute id token utcNow act) = some s') (key) :
    allocation s'.db.routes key = allocation s.db.routes key := by
  simp only [step] at h
  split at h
  · rename_i db happly
    cases h
    cases acted_of_apply happly with
    | confirmed _ hsame => exact hsame key
    | kept | bound => rfl
    | placed hrow | released hrow | grouped hrow => exact absurd hrow (hrefd _)
  · cases h
    rfl

end CommandSystem

/-- A replayed create never brings a deleted sandbox back: only the current claim places, a
cancelled command or one whose incarnation is gone places nothing, and an executor without the claim
changes no sandbox. -/
theorem create_never_recreates {s : CommandSystem}
    (hs : Reaches CommandSystem.step anyEvent (· = .start) s) :
    (∀ id c token utcNow act s' key, s.db.commands.lookup id = some c → c.kind = .create →
      s.step (.execute id token utcNow act) = some s' → Allocates s.db.routes s'.db.routes key →
      c.heldBy token s.clock = true ∧ key = c.sandboxId ∧ ∀ g ∈ s.bound id, g ∈ s'.released id) ∧
    (∀ id c g, s.db.commands.lookup id = some c → c.generation = some g →
      (∀ route, s.db.routes.getSandbox c.sandboxId = some route → route.incarnation.generation ≠ g) →
      ∀ s', Reaches CommandSystem.step anyEvent (· = s) s' → ∀ token utcNow act s'',
        s'.step (.execute id token utcNow act) = some s'' →
        ∀ key, ¬ Allocates s'.db.routes s''.db.routes key) ∧
    (∀ id c s₁, s.db.commands.lookup id = some c → c.kind = .create →
      s.step (.cancel c.sandboxId) = some s₁ →
      ∀ s', Reaches CommandSystem.step anyEvent (· = s₁) s' → ∀ token utcNow act s'',
        s'.step (.execute id token utcNow act) = some s'' →
        ∀ key, ¬ Allocates s'.db.routes s''.db.routes key) ∧
    ∀ id token utcNow act s', (s.db.commands.lookup id).any (·.heldBy token s.clock) = false →
      s.step (.execute id token utcNow act) = some s' →
      ∀ key, allocation s'.db.routes key = allocation s.db.routes key := by
  have hi := inv_of_reaches hs
  have hcls {s : CommandSystem} {id : String} (hcls : s.Closed id) :
      ∀ s', Reaches CommandSystem.step anyEvent (· = s) s' → ∀ token utcNow act s'',
        s'.step (.execute id token utcNow act) = some s'' →
        ∀ key, ¬ Allocates s'.db.routes s''.db.routes key := by
    intro s' hs' token utcNow act s'' hstep key
    refine not_allocates (allocation_execute ?_ hstep key)
    exact (hcls.of_reaches hs').refused rfl
  refine ⟨?_,fun id c g hc hg hgone => hcls ?_,fun id c s₁ hc hcr hcan => hcls ?_,?_⟩
  · intro id c token utcNow act s' key hc hcr hstep hnew
    simp only [CommandSystem.step] at hstep
    split at hstep
    · rename_i db happly
      cases hstep
      obtain ⟨hheld,rfl,hstd⟩ := (acted_of_apply happly).placed_of_allocates hc hcr hnew
      refine ⟨hheld,rfl,fun g hg => ?_⟩
      simp only [record,Function.update_self,sandboxOf,hc]
      rcases hi.released id c g hc hg with hbound | hrel
      · obtain ⟨old,hold,rfl⟩ := hstd g hbound
        obtain ⟨route',hroute',hdif⟩ := hnew
        have hended : old.incarnation.generation ∈ ended s.db.routes db.routes c.sandboxId := by
          refine mem_ended hold fun r hr heq => hdif old hold ?_
          rw [← some.inj (hr.symm.trans hroute'),heq]
        exact mem_append_right _ (by simpa using hended)
      · exact mem_append_left _ hrel
    · cases hstep
      exact absurd hnew (not_allocates rfl)
  · refine ⟨hi.known id c hc,.inr ⟨c.sandboxId,g,hi.within id c g hc hg,hgone,fun c' hc' => ?_⟩⟩
    cases hc.symm.trans hc'
    exact ⟨rfl,hg⟩
  · cases hcan
    refine ⟨hi.known id c hc,.inl fun c' hc' => ?_⟩
    rw [CommandStore.cancelCreateCommands,lookup_mapRows,hc] at hc'
    obtain rfl := some.inj hc'
    dsimp only
    split
    · rfl
    · rename_i hkept
      simpa [hcr] using hkept
  · intro id token utcNow act s' hheld hstep key
    refine allocation_execute (fun c hrow => ?_) hstep key
    obtain ⟨hlook,hheld',-⟩ := commandRow_ok hrow
    simp [hlook,hheld'] at hheld

namespace Example

def worker : NodeIdentity := ⟨"node","job","http://node"⟩

def placement : Store.SandboxRouteAllocation := { sandboxId := "sandbox", node := worker, resources := {} }

def deletedEvents : List CommandEvent :=
  [.submit "command" .create "sandbox" "request" "key" 600,
    .claim "command" "claim" 30,
    .execute "command" "claim" 0 (.check "request"),
    .execute "command" "claim" 0 (.allocate placement "spec" "create-1"),
    .route (.transact "sandbox" .deleteSandbox)]

end Example

theorem create_never_recreates_deleted : ∃ s s' : CommandSystem,
    Reaches CommandSystem.step anyEvent (· = .start) s ∧ s.bound "command" = [1] ∧
    s.step (.execute "command" "claim" 1 (.allocate Example.placement "spec" "create-2")) = some s' ∧
    ¬ Allocates s.db.routes s'.db.routes "sandbox" := by
  obtain ⟨s,hs,⟨c,hc,hg,hsb⟩,hnone,hbound,s',hs',-⟩ := Reaches.exists_from_run step .start
    Example.deletedEvents (fun s =>
      (∃ c ∈ s.db.commands.lookup "command", c.generation = some 1 ∧ c.sandboxId = "sandbox") ∧
      s.db.routes.getSandbox "sandbox" = none ∧ s.bound "command" = [1] ∧ ∃ s' ∈ s.step
        (.execute "command" "claim" 1 (.allocate Example.placement "spec" "create-2")), True)
    (by decide +kernel)
  have hgone : ∀ route, s.db.routes.getSandbox c.sandboxId = some route →
      route.incarnation.generation ≠ 1 := by
    intro route hroute
    rw [hsb,hnone] at hroute
    cases hroute
  exact ⟨s,s',hs,hbound,hs',(create_never_recreates hs).2.1 "command" c 1 hc hg hgone s (.start rfl)
    "claim" 1 _ s' hs' "sandbox"⟩

end UCloudSandboxes.Gateway
