import UCloudSandboxes.Relay.System

namespace UCloudSandboxes.Relay
open Machine Relation List Bool Option

variable {δ : Type} {d : Deployment δ} {settings : Settings} {now : Nat} {op : Op} {id : Token}
variable {db db' : RelayStore δ} {r r' : Request δ}

inductive Fate (d : Deployment δ) (settings : Settings) (now : Nat) (op : Op) (id : Token) :
    Option (Request δ) → Option (Request δ) → Prop
  | absent : Fate d settings now op id none none
  | entered {q reg} : op = .enqueue q → id = q.requestId →
      Fate d settings now op id none (some (q.row d settings reg now))
  | changed {before after} : Changed d now op id before after →
      Fate d settings now op id (some before) (some after)
  | compacted {before after} : Changed d now op id before after → after.compactable = true →
      Fate d settings now op id (some before) (some after.compact)
  | removed {before} : before.retired now settings.retention = true →
      Fate d settings now op id (some before) none

theorem maintain_fate (batch id) : Fate d settings now op id (db.requests.lookup id)
      ((db.maintain d settings now batch).1.requests.lookup id) := by
  unfold RelayStore.maintain
  rw [lookup_keepRows,lookup_mapRows]
  unfold RelayStore.expire
  rw [lookup_mapRows]
  cases hrow : db.requests.lookup id with
  | none => exact .absent
  | some r =>
    simp only [map_some,filter_some]
    -- the row after the pass over expired requests
    generalize hexp : (if (batch.expired.take 128).contains id ∧ r.state ≠ .completed ∧
      r.expiresAt ≤ now then r.complete d expiredResponse now true else r) = expired
    have hchd : Changed d now op id r expired := by
      subst hexp
      split
      · rename_i hsel
        exact .single (.answered hsel.2.1)
      · exact .refl
    have hret : expired.retired now settings.retention = true → expired = r := by
      subst hexp
      split
      · intro h
        have hnow : ¬now < now - settings.retention := by omega
        simp [Request.retired,Request.complete,hnow] at h
      · exact fun _ => rfl
    split_ifs with hcom hkept hkept
    · exact .compacted hchd (and_eq_true_iff.mp hcom).2
    · rw [not_eq_true,not_eq_false'] at hkept
      have h : expired.retired now settings.retention = true := (and_eq_true_iff.mp hkept).2
      exact .removed (hret h ▸ h)
    · exact .changed hchd
    · rw [not_eq_true,not_eq_false'] at hkept
      have h : expired.retired now settings.retention = true := (and_eq_true_iff.mp hkept).2
      exact .removed (hret h ▸ h)

theorem Transacted.fate (h : Transacted d settings now db op db')
    (hnew : ∀ q, op = .enqueue q → db.requests.lookup q.requestId = none) (id) :
    Fate d settings now op id (db.requests.lookup id) (db'.requests.lookup id) := by
  have kept : ∀ {row : Option (Request δ)}, Fate d settings now op id row row := by
    intro row
    cases row with
    | none => exact .absent
    | some => exact .changed .refl
  cases h with
  | rewrote h =>
    obtain ⟨f,hf,hreqs,-⟩ := h
    rw [hreqs,lookup_mapRows]
    cases hrow : db.requests.lookup id with
    | none => exact .absent
    | some r => exact .changed (hf id r hrow)
  | @entered q reg hop _ =>
    rw [lookup_insert_ite]
    split
    · subst id
      rw [hnew q hop]
      exact .entered hop rfl
    · exact kept
  | maintained => exact maintain_fate _ id

theorem Poll.claimable_of_pick {p : Poll} {leaseId} (h : p.pick now id r = some leaseId) :
    r.claimable now = true := by
  unfold pick at h
  split_ifs at h with hsel
  exact hsel.2.2

theorem Poll.mem_of_pick {p : Poll} {leaseId} (h : p.pick now id r = some leaseId) :
    (id,leaseId) ∈ p.picks := by
  unfold pick at h
  split_ifs at h
  exact mem_of_mem_take (mem_of_lookup h)

theorem Claim.mem_of_pick {c : Claim} {token} (h : c.pick d now id r = some token) :
    (id,token) ∈ c.picks := by
  unfold pick at h
  split_ifs at h
  exact mem_of_mem_take (mem_of_lookup h)

theorem drawn_granted (db : RelayStore δ) {p} (hn : (p.picks.map (·.2)).Nodup) :
    Drawn Grant.leaseId (p.picks.map (·.2)) (db.granted now p) := by
  refine ⟨?_,fun g hg => ?_⟩
  · unfold RelayStore.granted
    rw [map_filterMap]
    simp only [Option.map_map,Function.comp_def,Option.map_id']
    exact nodup_picked (p.pick now) (fun _ _ _ h => Poll.mem_of_pick h) hn
  · obtain ⟨e,-,hg⟩ := mem_filterMap.mp hg
    obtain ⟨leaseId,hpick,rfl⟩ := map_eq_some_iff.mp hg
    exact mem_map.mpr ⟨_,Poll.mem_of_pick hpick,rfl⟩

theorem Claim.mem_of_work {c : Claim} {w} (h : c.work d now id r = some w) :
    (id,w.claimToken) ∈ c.picks := by
  obtain ⟨token,hpick,h⟩ := bind_eq_some_iff.mp h
  obtain ⟨l,-,rfl⟩ := map_eq_some_iff.mp h
  exact Claim.mem_of_pick hpick

theorem drawn_claimedWorks (db : RelayStore δ) {c} (hn : (c.picks.map (·.2)).Nodup) :
    Drawn Work.claimToken (c.picks.map (·.2)) (db.claimedWorks d now c) := by
  refine ⟨?_,fun w hw => ?_⟩
  · unfold RelayStore.claimedWorks
    rw [map_filterMap]
    refine nodup_picked (fun id r => (c.work d now id r).map Work.claimToken) (fun id r token h => ?_) hn
    obtain ⟨w,hw,rfl⟩ := map_eq_some_iff.mp h
    exact Claim.mem_of_work hw
  · obtain ⟨e,-,hw⟩ := mem_filterMap.mp hw
    exact mem_map.mpr ⟨_,Claim.mem_of_work hw,rfl⟩

namespace System
variable [DecidableEq δ] {s s' : System δ} {e : Event}

/-- Every id in use was drawn, and no two leases and no two claims have the same. -/
structure Inv (s : System δ) : Prop where
  requests : ∀ id r, s.db.requests.lookup id = some r → id ∈ s.drawn
  grants : Drawn Grant.leaseId s.drawn s.grants
  works : Drawn Work.claimToken s.drawn s.works

omit [DecidableEq δ] in
theorem inv_start : (start : System δ).Inv :=
  ⟨fun id r h => by simp [start,RelayStore.empty] at h,.nil _ _,.nil _ _⟩

omit [DecidableEq δ] in
theorem Inv.enters (hi : s.Inv) (hen : s.enabled now op = true) (q) (hop : op = .enqueue q) :
    s.db.requests.lookup q.requestId = none := by
  subst hop
  have hfresh := (enabled.spec hen).2.2 q.requestId (by simp [Op.drawn])
  cases hrow : s.db.requests.lookup q.requestId with
  | none => rfl
  | some r => exact absurd (hi.requests _ r hrow) hfresh

theorem Inv.fate (hi : s.Inv) (h : step d s e = some s') (id) :
    s'.db.requests.lookup id = s.db.requests.lookup id ∨
    ∃ settings now op, e = .transact settings now op ∧ s.enabled now op = true ∧
      Fate d settings now op id (s.db.requests.lookup id) (s'.db.requests.lookup id) := by
  rcases step_cases h with ⟨hdb,-⟩ | ⟨settings,now,op,db,reply,rfl,hen,happly,rfl⟩
  · exact .inl (by rw [hdb])
  · have hfate := (transacted_of_apply happly).fate (hi.enters hen) id
    exact .inr ⟨settings,now,op,rfl,hen,hfate⟩

omit [DecidableEq δ] in
theorem Inv.record (hi : s.Inv) (hen : s.enabled now op = true)
    (hrows : ∀ id r, db.requests.lookup id = some r → id ∈ s.drawn ++ op.drawn) :
    (s.record d now op db).Inv := by
  obtain ⟨-,hn,hnew⟩ := enabled.spec hen
  refine ⟨hrows,?_,?_⟩
  · cases op with
    | poll => exact hi.grants.extend (drawn_granted _ hn) hnew
    | _ => exact hi.grants.extend (.nil _ _) hnew
  · cases op with
    | claim => exact hi.works.extend (drawn_claimedWorks _ hn) hnew
    | dispatch => exact (hi.works.sublist erase_sublist).extend (.nil _ _) hnew
    | _ => exact hi.works.extend (.nil _ _) hnew

theorem Inv.step (hi : s.Inv) (h : step d s e = some s') : s'.Inv := by
  have hfate := hi.fate h
  rcases step_cases h with ⟨hdb,hdrawn,hgra,hworks⟩ | ⟨settings,now,op,db,reply,rfl,hen,-,rfl⟩
  · refine ⟨?_,?_,?_⟩
    · rw [hdb,hdrawn]
      exact hi.requests
    · rw [hgra,hdrawn]
      exact hi.grants
    · rw [hdrawn]
      exact hi.works.sublist hworks
  · refine hi.record hen fun id r hr => ?_
    rcases hfate id with hsame | ⟨_,_,_,heq,-,hf⟩
    · exact mem_append_left _ (hi.requests id r (hsame ▸ hr))
    cases heq
    change Fate d settings now op id _ (db.requests.lookup id) at hf
    generalize s.db.requests.lookup id = before, hi.requests id = hknown at hf
    rw [hr] at hf
    cases hf with
    | entered hop hid =>
      subst hop hid
      exact mem_append_right _ (by simp [Op.drawn])
    | changed | compacted => exact mem_append_left _ (hknown _ rfl)

theorem inv_of_reaches (h : Reaches (step d) anyEvent (· = start) s) : s.Inv :=
  h.keeps inv_start fun _ _ _ hi _ => hi.step

end System

end UCloudSandboxes.Relay
