import UCloudSandboxes.Registry.GrowthOwner

namespace UCloudSandboxes.Registry
open Machine Entry Option List AList
open Admission (GrowthIntent Owner)

structure NodeRegistry where
  entries : AList fun _ : String => Entry := ∅

namespace NodeRegistry

section
variable (r : NodeRegistry) (sandboxId : String)

def entry : Entry :=
  (r.entries.lookup sandboxId).getD { sandboxId }

def set (e : Entry) : NodeRegistry :=
  ⟨r.entries.insert sandboxId e⟩

def keys : List Owner :=
  r.entries.entries.filterMap fun entry =>
    entry.2.rows.registration.map fun registration => (entry.1, registration.sandboxGeneration)

def growthIntents : List GrowthIntent :=
  r.entries.entries.filterMap (·.2.growth.row)

def row (owner : Owner) : Option GrowthIntent :=
  (r.entry owner.1).growth.row.filter (·.generation = (owner.2 : Int))

def registers (owner : Owner) : Bool := (r.entry owner.1).registers owner.2

def Retired (owner : Owner) : Prop :=
  (r.entry owner.1).rows.RetiredGeneration owner.2

def call (operation : Operation) : Option NodeRegistry :=
  ((r.entry sandboxId).step operation).map (r.set sandboxId)

def growthIntent (step : GrowthStep) : Result (NodeRegistry × Option GrowthIntent) :=
  ((r.entry sandboxId).growthIntent step).map fun e => (r.set sandboxId e, e.growth.row)

end

/-- Steps as one commit: an item's refusal is undone alone, an SQLite failure aborts the batch. -/
def growthIntentSteps (r : NodeRegistry) : List (String × GrowthStep) →
    Result (NodeRegistry × List (Result (Option GrowthIntent)))
  | [] => .ok (r, [])
  | (sandboxId, step) :: steps =>
    match r.growthIntent sandboxId step with
    | .ok (next, intent) =>
      (next.growthIntentSteps steps).map fun rest => (rest.1, .ok intent :: rest.2)
    | .error .unreadable => .error .unreadable
    | .error error => (r.growthIntentSteps steps).map fun rest => (rest.1, .error error :: rest.2)

@[simp]
theorem entry_set_self (r : NodeRegistry) (sandboxId e) : (r.set sandboxId e).entry sandboxId = e := by
  simp [entry,set]

variable {r r' : NodeRegistry} {sandboxId : String} {operation : Operation}

theorem entry_set_ne {other} (h : other ≠ sandboxId) (e) :
    (r.set sandboxId e).entry other = r.entry other := by
  simp [entry,set,lookup_insert_ne h]

theorem mem_keys {owner} : owner ∈ r.keys ↔ r.registers owner = true := by
  rw [registers,registers_iff,keys,mem_filterMap]
  constructor
  · rintro ⟨⟨sandboxId,e⟩,he,hr⟩
    obtain ⟨registration,hreg,rfl⟩ := map_eq_some_iff.mp hr
    have hlook : r.entries.lookup sandboxId = some e := mem_lookup_iff.mpr he
    refine ⟨registration,?_,rfl⟩
    rw [entry,hlook]
    exact hreg
  · rintro ⟨registration,hreg,hg⟩
    cases hlook : r.entries.lookup owner.1 with
    | none => simp [entry,hlook] at hreg
    | some e =>
      rw [entry,hlook] at hreg
      refine ⟨⟨owner.1,e⟩,mem_lookup_iff.mp hlook,?_⟩
      rw [getD_some] at hreg
      simp [hreg,hg]

structure Sound (r : NodeRegistry) : Prop where
  sandboxId : ∀ sandboxId, (r.entry sandboxId).sandboxId = sandboxId
  rowOwned : ∀ sandboxId, (r.entry sandboxId).RowOwned

theorem Sound.set (h : r.Sound) {e} (he : (r.entry sandboxId).Effect operation e) :
    (r.set sandboxId e).Sound := by
  refine ⟨fun other => ?_,fun other => ?_⟩
  · by_cases ho : other = sandboxId
    · subst ho
      rw [entry_set_self]
      exact he.sandboxId.trans (h.sandboxId other)
    · rw [entry_set_ne ho]
      exact h.sandboxId other
  · by_cases ho : other = sandboxId
    · subst ho
      rw [entry_set_self]
      exact he.rowOwned (h.rowOwned other)
    · rw [entry_set_ne ho]
      exact h.rowOwned other

theorem sound_of_reaches
    (h : ∀ sandboxId, Reaches step anyEvent (· = { sandboxId }) (r.entry sandboxId)) :
    r.Sound := by
  refine ⟨fun sandboxId => ?_,fun sandboxId => ?_⟩
  · exact (h sandboxId).keeps (I := fun e => e.sandboxId = sandboxId) rfl
      fun s operation s' hs _ hstep => (effect_of_step hstep).sandboxId.trans hs
  · exact (h sandboxId).keeps nofun fun s operation s' hs _ hstep =>
      (effect_of_step hstep).rowOwned hs

theorem mem_growthIntents {i} :
    i ∈ r.growthIntents ↔ ∃ sandboxId, (r.entry sandboxId).growth.row = some i := by
  rw [growthIntents,mem_filterMap]
  constructor
  · rintro ⟨⟨sandboxId,e⟩,he,hrow⟩
    have hlook : r.entries.lookup sandboxId = some e := mem_lookup_iff.mpr he
    exact ⟨sandboxId,by rw [entry,hlook]; exact hrow⟩
  · rintro ⟨sandboxId,hrow⟩
    cases hlook : r.entries.lookup sandboxId with
    | none => simp [entry,hlook] at hrow
    | some e =>
      rw [entry,hlook] at hrow
      exact ⟨⟨sandboxId,e⟩,mem_lookup_iff.mp hlook,hrow⟩

theorem Sound.row_of_registers (h : r.Sound) {owner} (hreg : r.registers owner = true) :
    r.row owner = (r.entry owner.1).growth.row := by
  obtain ⟨registration,hr,hg⟩ := registers_iff.mp hreg
  unfold row
  cases hrow : (r.entry owner.1).growth.row with
  | none => rfl
  | some i =>
    have hkey := ((h.rowOwned owner.1).keyedBy hr i hrow).2
    rw [hg] at hkey
    simp [hkey]

inductive Change (r : NodeRegistry) (sandboxId : String) (operation : Operation) (r' : NodeRegistry)
    (owner : Owner) : Prop
  | kept : r'.registers owner = r.registers owner →
      (r.registers owner = true → r'.row owner = r.row owner) → Change ..
  | left : r.registers owner = true → r'.registers owner = false →
      (r'.Retired owner ∨ r.row owner = none) → Change ..
  | joined : r.registers owner = false → r'.registers owner = true → r'.row owner = none →
      (r.Retired owner → ∃ candidate migration full,
        operation = .planImport candidate migration full ∧
        owner = (sandboxId, candidate.sandboxGeneration)) → Change ..

theorem Sound.change (h : r.Sound) (hcall : r.call sandboxId operation = some r')
    (hgw : ∀ step, operation ≠ .growthIntent step) (owner) :
    Change r sandboxId operation r' owner := by
  obtain ⟨e,he,rfl⟩ := map_eq_some_iff.mp hcall
  by_cases ho : owner.1 = sandboxId
  · subst ho
    have hentry : (r.set owner.1 e).entry owner.1 = e := entry_set_self ..
    cases (effect_of_step he).ownerChange (h.rowOwned _) hgw owner.2 with
    | kept hreg hrow =>
      refine .kept (by rw [registers,hentry,hreg,registers]) fun howner => ?_
      rw [row,row,hentry,hrow howner]
    | left hreg hreg' hgone =>
      refine .left hreg (by rw [registers,hentry,hreg']) ?_
      refine hgone.imp (fun hret => ?_) fun hrow => ?_
      · rwa [Retired,hentry]
      · rw [row,hrow,filter_none]
    | joined hreg hreg' hrow hret =>
      refine .joined hreg (by rw [registers,hentry,hreg']) ?_ fun hr => ?_
      · rw [row,hentry,hrow,filter_none]
      · obtain ⟨candidate,migration,full,rfl,hg⟩ := hret hr
        exact ⟨candidate,migration,full,rfl,Prod.ext rfl hg.symm⟩
  · have hentry : (r.set sandboxId e).entry owner.1 = r.entry owner.1 := entry_set_ne ho e
    refine .kept ?_ fun _ => ?_
    · rw [registers,hentry,registers]
    · rw [row,hentry,row]

theorem Sound.call (h : r.Sound) (hcall : r.call sandboxId operation = some r') : r'.Sound := by
  obtain ⟨e,he,rfl⟩ := map_eq_some_iff.mp hcall
  exact h.set (effect_of_step he)

theorem Retired.call {owner} (h : r.Retired owner) (hcall : r.call sandboxId operation = some r') :
    r'.Retired owner := by
  obtain ⟨e,he,rfl⟩ := map_eq_some_iff.mp hcall
  unfold Retired at h ⊢
  by_cases ho : owner.1 = sandboxId
  · subst ho
    rw [entry_set_self]
    exact (effect_of_step he).keepsTombstones.generation h
  · rwa [entry_set_ne ho]

/-- A commit of growth steps moves no registration and no tombstone, and leaves each owner's row as
its answers, published in order, do. -/
structure Written (r r' : NodeRegistry) (items : List (Owner × Option GrowthIntent)) : Prop where
  sound : r'.Sound
  registers : ∀ owner, r'.registers owner = r.registers owner
  retired : ∀ owner, r'.Retired owner ↔ r.Retired owner
  row : ∀ owner, r.registers owner = true → r'.row owner = lastWritten items owner (r.row owner)
  owned : ∀ owner i, (owner, some i) ∈ items → r.registers owner = true

theorem Written.nil (h : r.Sound) : r.Written r [] :=
  ⟨h,fun _ => rfl,fun _ => .rfl,fun _ _ => rfl,nofun⟩

theorem Written.failed {items} (owner) (h : r.Written r' items) :
    r.Written r' ((owner, none) :: items) := by
  refine ⟨h.sound,h.registers,h.retired,fun other hreg => ?_,fun other i hi => ?_⟩
  · rw [h.row other hreg]
    by_cases ho : other = owner
    · rw [ho,lastWritten_cons_self,none_or]
    · rw [lastWritten_cons_ne ho]
  · obtain hhead | htail := mem_cons.mp hi
    · cases hhead
    · exact h.owned other i htail

theorem Written.refused (h : r.Sound) (owners : List Owner) :
    r.Written r (owners.map fun owner => (owner, none)) := by
  induction owners with
  | nil => exact .nil h
  | cons owner owners ih => exact ih.failed owner

theorem growthIntent_spec {next step intent} (hs : r.Sound)
    (hok : r.growthIntent sandboxId step = .ok (next, intent)) :
    r.Written next [((sandboxId, step.generation), intent)] := by
  obtain ⟨e,he,heq⟩ := ok_of_map_ok hok
  obtain ⟨rfl,rfl⟩ := Prod.mk.inj heq
  obtain ⟨hregi,hrows,hkept⟩ := Entry.growthIntent_ok he
  have heff : (r.entry sandboxId).Effect (.growthIntent step) e := Entry.effect_of_apply he
  have hsound := hs.set heff
  have hsame : ∀ owner : Owner, owner.1 = sandboxId →
      ((r.set sandboxId e).entry owner.1).rows = (r.entry owner.1).rows := by
    rintro owner rfl
    rw [entry_set_self,hrows]
  have hreg : ∀ owner, (r.set sandboxId e).registers owner = r.registers owner := by
    intro owner
    unfold NodeRegistry.registers
    by_cases ho : owner.1 = sandboxId
    · rw [Entry.registers,Entry.registers,hsame owner ho]
    · rw [entry_set_ne ho]
  refine ⟨hsound,hreg,fun owner => ?_,fun owner howner => ?_,fun owner i hi => ?_⟩
  · unfold Retired
    by_cases ho : owner.1 = sandboxId
    · rw [hsame owner ho]
    · rw [entry_set_ne ho]
  · by_cases hkey : owner = (sandboxId, step.generation)
    · subst hkey
      rw [lastWritten_cons_self,hsound.row_of_registers (hreg _ ▸ howner),
        hs.row_of_registers howner,entry_set_self]
      cases hrow : e.growth.row with
      | none => exact (hkept hrow).symm
      | some => rfl
    · have hid : owner.1 ≠ sandboxId := by
        rintro rfl
        obtain ⟨registration,hr,hg⟩ := registers_iff.mp howner
        obtain ⟨registration',hr',hg'⟩ := registers_iff.mp hregi
        obtain rfl : registration = registration' := some.inj (hr.symm.trans hr')
        exact hkey (Prod.ext rfl (hg.symm.trans hg'))
      rw [lastWritten_cons_ne hkey,lastWritten_nil,row,row,entry_set_ne hid]
  · obtain ⟨rfl,-⟩ := Prod.mk.inj (mem_singleton.mp hi)
    exact hregi

theorem Written.trans {next item items} (h : r.Written next [item]) (h' : next.Written r' items) :
    r.Written r' (item :: items) := by
  obtain ⟨key,intent⟩ := item
  refine ⟨h'.sound,fun owner => (h'.registers owner).trans (h.registers owner),
    fun owner => (h'.retired owner).trans (h.retired owner),fun owner howner => ?_,fun owner i hi => ?_⟩
  · rw [h'.row owner ((h.registers owner).trans howner),h.row owner howner]
    by_cases hkey : owner = key
    · subst hkey
      rw [lastWritten_cons_self,lastWritten_cons_self,lastWritten_nil]
    · rw [lastWritten_cons_ne hkey,lastWritten_cons_ne hkey,lastWritten_nil]
  · obtain hhead | htail := mem_cons.mp hi
    · exact h.owned owner i (hhead ▸ mem_singleton_self _)
    · exact (h.registers owner).symm.trans (h'.owned owner i htail)

def stepOwner (step : String × GrowthStep) : Owner := (step.1, step.2.generation)

def published (answer : Result (Option GrowthIntent)) : Option GrowthIntent :=
  answer.toOption.join

def publications (steps : List (String × GrowthStep))
    (answers : List (Result (Option GrowthIntent))) :
    List (Owner × Option GrowthIntent) :=
  (steps.map stepOwner).zip (answers.map published)

theorem growthIntentSteps_spec (hs : r.Sound) {steps answers}
    (h : r.growthIntentSteps steps = .ok (r',answers)) : r.Written r' (publications steps answers) := by
  induction steps generalizing r answers with
  | nil =>
    cases h
    exact .nil hs
  | cons head steps ih =>
    obtain ⟨sandboxId,step⟩ := head
    rw [growthIntentSteps] at h
    split at h
    · obtain ⟨rest,hrest,heq⟩ := ok_of_map_ok h
      cases heq
      have hwr := growthIntent_spec hs ‹_›
      exact hwr.trans (ih hwr.sound hrest)
    · cases h
    · obtain ⟨rest,hrest,heq⟩ := ok_of_map_ok h
      cases heq
      exact (ih hs hrest).failed _

end NodeRegistry
end UCloudSandboxes.Registry
