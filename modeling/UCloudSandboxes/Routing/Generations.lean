import UCloudSandboxes.Routing.Freshness

namespace UCloudSandboxes.Routing
open Machine Relation Example Option List Store

def SandboxRows.Bounded (rows : SandboxRows) : Prop :=
  ∀ route, rows.route = some route → route.incarnation.generation ≤ rows.generationHwm

def StoreEvent.upserts (id : String) : StoreEvent → Incarnation → Prop
  | .upsertSandbox route _ _, i => route.sandboxId = id ∧ route.incarnation = i
  | _, _ => False

/-- What the rows of an id may become: an incarnation that did not stand before is above the
high-water mark, unless a bare upsert brought it. -/
structure Follows (e : StoreEvent) (id : String) (rows rows' : SandboxRows) : Prop where
  hwm : rows.generationHwm ≤ rows'.generationHwm
  bounded : rows.Bounded → rows'.Bounded
  origin : ∀ route', rows'.route = some route' →
    (∃ route, rows.route = some route ∧ route.incarnation = route'.incarnation) ∨
    rows.generationHwm < route'.incarnation.generation ∨ e.upserts id route'.incarnation

namespace Follows

variable {e : StoreEvent} {id : String} {rows rows' rows'' : SandboxRows}

theorem refl (rows) : Follows e id rows rows :=
  ⟨Nat.le_refl _,fun h => h,fun route h => .inl ⟨route,h,rfl⟩⟩

theorem trans (h : Follows e id rows rows') (h' : Follows e id rows' rows'') :
    Follows e id rows rows'' := by
  refine ⟨h.hwm.trans h'.hwm,fun hb => h'.bounded (h.bounded hb),fun route hroute => ?_⟩
  rcases h'.origin route hroute with ⟨route',hroute',hinc⟩ | hlt | hup
  · rw [← hinc]
    exact h.origin route' hroute'
  · exact .inr (.inl (h.hwm.trans_lt hlt))
  · exact .inr (.inr hup)

theorem writeSandbox {route}
    (h : (∃ current, rows.route = some current ∧ current.incarnation = route.incarnation) ∨
      rows.generationHwm < route.incarnation.generation ∨ e.upserts id route.incarnation) :
    Follows e id rows (rows.writeSandbox route) := by
  refine ⟨Nat.le_max_left ..,fun _ stored hs => ?_,fun stored hs => ?_⟩
  · cases hs
    exact Nat.le_max_right ..
  · cases hs
    exact h

theorem of_same (hhwm : rows'.generationHwm = rows.generationHwm)
    (hinc : ∀ route', rows'.route = some route' →
      ∃ route, rows.route = some route ∧ route.incarnation = route'.incarnation) :
    Follows e id rows rows' := by
  refine ⟨hhwm.ge,fun hb route' hroute' => ?_,fun route' hroute' => .inl (hinc route' hroute')⟩
  obtain ⟨route,hroute,hsame⟩ := hinc route' hroute'
  rw [hhwm,← hsame]
  exact hb route hroute

end Follows

theorem journalStep_incarnation {op rows after route'} (h : JournalStep rows op after)
    (hroute' : after.route = some route') :
    ∃ route, rows.route = some route ∧ route.incarnation = route'.incarnation := by
  cases h with
  | kept | began | advanced | closed => exact ⟨route',hroute',rfl⟩
  | routed _ _ hroute | waking _ _ hroute =>
    obtain rfl := some.inj hroute'
    exact ⟨_,hroute,rfl⟩
  | completed _ _ hroute =>
    obtain rfl := some.inj hroute'
    refine ⟨_,hroute,?_⟩
    split <;> rfl

theorem follows_of_write {e id rows rows'} (h : RowWrite e id rows rows') :
    Follows e id rows rows' := by
  cases h with
  | observed hroute hinc => exact .writeSandbox (.inl ⟨_,hroute,hinc.symm⟩)
  | lifecycle hroute hinc | touched hroute hinc =>
    refine .of_same rfl fun route' h => ?_
    cases h
    exact ⟨_,hroute,hinc.symm⟩
  | reported => exact .of_same rfl fun route' h => ⟨route',h,rfl⟩
  | created hhwm => exact .writeSandbox (.inr (.inl hhwm))
  | restored he hid _ hinc =>
    subst he
    exact .writeSandbox (.inr (.inr ⟨hid,hinc.symm⟩))
  | deleted => exact .of_same rfl fun route' h => (by cases h)
  | journaled _ hstep =>
    rename_i op after _
    have hjnl : Follows e id rows { rows with migrations := after.migrations } :=
      .of_same rfl fun route' h => ⟨route',h,rfl⟩
    unfold SandboxRows.commit
    split
    · exact hjnl
    cases hafter : after.route with
    | none => exact .of_same rfl fun route' h => (by cases h)
    | some =>
      have hstd := journalStep_incarnation hstep hafter
      exact hjnl.trans (.writeSandbox (.inl hstd))

theorem exec_follows (store : Store) (e id) :
    Follows e id (store.rows id) ((store.exec e).rows id) := by
  generalize (store.exec e).rows id = rows', exec_writes store e id = h
  induction h with
  | refl => exact .refl _
  | tail _ hw ih => exact ih.trans (follows_of_write hw)

def Store.incarnations (store : Store) : List (String × Incarnation) :=
  store.sandboxes.map fun route => (route.sandboxId,route.incarnation)

theorem Store.mem_incarnations {store : Store} {id i} : (id,i) ∈ store.incarnations ↔
      ∃ route, store.getSandbox id = some route ∧ route.incarnation = i := by
  have hmem : ∀ route, route ∈ store.sandboxes ↔ store.getSandbox route.sandboxId = some route := by
    intro route
    have h := store.itemsOf_sandboxes route.sandboxId
    have hown : route ∈ store.sandboxes ↔
        route ∈ itemsOf SandboxRoute.sandboxId route.sandboxId store.sandboxes := by
      simp [itemsOf]
    rw [hown,h,mem_toList]
  simp only [incarnations,List.mem_map,Prod.mk.injEq]
  constructor
  · rintro ⟨route,hroute,rfl,rfl⟩
    exact ⟨route,(hmem route).mp hroute,rfl⟩
  · rintro ⟨route,hroute,rfl⟩
    obtain rfl := store.getSandbox_id hroute
    exact ⟨route,(hmem route).mpr hroute,rfl,rfl⟩

structure History where
  store : Store
  stored : List (String × Incarnation)

namespace History

def fresh : History := ⟨.fresh,[]⟩

variable (h : History) (e : StoreEvent)

def next : History :=
  let store := h.store.exec e
  ⟨store,h.stored ++ store.incarnations⟩

def step : Option History := some (h.next e)

/-- The routes given to a bare upsert were read from the store before the publication. -/
def known : StoreEvent → Bool
  | .upsertSandbox route _ _ => h.stored.contains (route.sandboxId,route.incarnation)
  | _ => true

def Known : Prop := h.known e = true

instance (h : History) (e : StoreEvent) : Decidable (h.Known e) :=
  inferInstanceAs (Decidable (_ = true))

theorem Known.mem {h : History} {e} (hk : h.Known e) {id i} (hup : e.upserts id i) :
    (id,i) ∈ h.stored := by
  cases e with
  | upsertSandbox =>
    obtain ⟨rfl,rfl⟩ := hup
    exact contains_iff_mem.mp hk
  | _ => exact hup.elim

structure Inv (h : History) : Prop where
  current : ∀ id route, h.store.getSandbox id = some route → (id,route.incarnation) ∈ h.stored
  bounded : ∀ id i, (id,i) ∈ h.stored → i.generation ≤ h.store.generationHwm id
  unique : ∀ id i j, (id,i) ∈ h.stored → (id,j) ∈ h.stored → i.generation = j.generation → i = j

variable {h h' : History} {e : StoreEvent}

theorem Inv.stands (hi : h.Inv) (hk : h.Known e) {id route}
    (hroute : (h.store.exec e).getSandbox id = some route) : (id,route.incarnation) ∈ h.stored ∨
      h.store.generationHwm id < route.incarnation.generation := by
  rcases (exec_follows h.store e id).origin route hroute with ⟨current,hc,hinc⟩ | hlt | hup
  · exact .inl (hinc ▸ hi.current id current hc)
  · exact .inr hlt
  · exact .inl (hk.mem hup)

theorem Inv.step (hi : h.Inv) (hk : h.Known e) (hs : h.step e = some h') : h'.Inv := by
  cases hs
  have hfol := exec_follows h.store e
  have hstd : ∀ {id i}, (id,i) ∈ (h.store.exec e).incarnations →
      (id,i) ∈ h.stored ∨ h.store.generationHwm id < i.generation := by
    intro id i hmem
    obtain ⟨route,hroute,rfl⟩ := mem_incarnations.mp hmem
    exact hi.stands hk hroute
  refine ⟨fun id route hroute => ?_,fun id i hmem => ?_,fun id i j hmi hmj heq => ?_⟩
  · exact mem_append_right _ (mem_incarnations.mpr ⟨route,hroute,rfl⟩)
  · rcases mem_append.mp hmem with hold | hnew
    · exact (hi.bounded id i hold).trans (hfol id).hwm
    · obtain ⟨route,hroute,rfl⟩ := mem_incarnations.mp hnew
      refine (hfol id).bounded (fun current hc => ?_) route hroute
      exact hi.bounded id _ (hi.current id current hc)
  · rcases mem_append.mp hmi with hi' | hi' <;> rcases mem_append.mp hmj with hj' | hj'
    · exact hi.unique id i j hi' hj' heq
    · rcases hstd hj' with hj' | hlt
      · exact hi.unique id i j hi' hj' heq
      · exact absurd (hi.bounded id i hi') (by omega)
    · rcases hstd hi' with hi' | hlt
      · exact hi.unique id i j hi' hj' heq
      · exact absurd (hi.bounded id j hj') (by omega)
    · obtain ⟨route,hroute,rfl⟩ := mem_incarnations.mp hi'
      obtain ⟨route',hroute',rfl⟩ := mem_incarnations.mp hj'
      rw [some.inj (hroute.symm.trans hroute')]

theorem inv_fresh : fresh.Inv := by
  refine ⟨fun id route hroute => ?_,fun id i hmem => ?_,fun id i j hmem => ?_⟩
  · simp [fresh,Store.fresh,Store.getSandbox] at hroute
  · simp [fresh] at hmem
  · simp [fresh] at hmem

theorem inv_of_reaches (hr : Reaches step Known (· = fresh) h) : h.Inv :=
  hr.keeps inv_fresh fun _ _ _ hi => hi.step

end History

/-- No generation of an id is used twice: the high-water mark only rises, covers every one that
stood, and a new incarnation is above them. -/
theorem generations_never_reused {h h' : History} {e : StoreEvent}
    (hr : Reaches History.step History.Known (· = .fresh) h) (hk : h.Known e)
    (hs : h.step e = some h') (id : String) : h.store.generationHwm id ≤ h'.store.generationHwm id ∧
    (∀ i, (id,i) ∈ h'.stored → i.generation ≤ h'.store.generationHwm id) ∧
    (∀ route, h'.store.getSandbox id = some route →
      (h.store.getSandbox id).map (·.incarnation) ≠ some route.incarnation →
      e.upserts id route.incarnation ∨
        ∀ i, (id,i) ∈ h.stored → i.generation < route.incarnation.generation) ∧
    ∀ i j, (id,i) ∈ h'.stored → (id,j) ∈ h'.stored → i.generation = j.generation →
      i.createOperationId = j.createOperationId := by
  have hi := History.inv_of_reaches hr
  have hi' := hi.step hk hs
  cases hs
  refine ⟨(exec_follows h.store e id).hwm,hi'.bounded id,fun route hroute hnew => ?_,?_⟩
  · rcases (exec_follows h.store e id).origin route hroute with ⟨current,hc,hinc⟩ | hlt | hup
    · rw [rows_route] at hc
      rw [hc,map_some,hinc] at hnew
      exact absurd rfl hnew
    · exact .inr fun i hmem => (hi.bounded id i hmem).trans_lt hlt
    · exact .inl hup
  · intro i j hmi hmj heq
    rw [hi'.unique id i j hmi hmj heq]

namespace Example

def create (operationId : String) : StoreEvent :=
  .allocateCreate { sandboxId := "sandbox", node, resources := {} } "spec-1" operationId none

def deleted : History :=
  (History.fresh.next (create "create-1")).next (.transact "sandbox" .deleteSandbox)

end Example

open Example

theorem generations_never_reused_recreated :
    ("sandbox",incarnation) ∈ deleted.stored ∧
    ∃ route, (deleted.next (create "create-2")).store.getSandbox "sandbox" = some route ∧
      incarnation.generation < route.incarnation.generation := by
  have hr : Reaches History.step History.Known (· = .fresh) deleted :=
    .step (.step (.start rfl) (e := create "create-1") (by decide) rfl)
      (e := .transact "sandbox" .deleteSandbox) (by decide) rfl
  have hmem : ("sandbox",incarnation) ∈ deleted.stored := by decide +kernel
  have hnone : deleted.store.getSandbox "sandbox" = none := by decide +kernel
  have hsome : ((deleted.next (create "create-2")).store.getSandbox "sandbox").isSome =
      true := by decide +kernel
  obtain ⟨route,hroute⟩ := isSome_iff_exists.mp hsome
  have h := (generations_never_reused hr (e := create "create-2") (by decide) rfl
    "sandbox").2.2.1 route hroute (by simp [hnone])
  exact ⟨hmem,route,hroute,h.resolve_left (fun hup => hup) _ hmem⟩

end UCloudSandboxes.Routing
