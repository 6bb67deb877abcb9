import UCloudSandboxes.Admission.Claims

namespace UCloudSandboxes.Admission
open Machine State Option List

def Event.gates (s : State) : Event → Option String × Bool × Bool
  | .hello session _ => (some session, s.admissionOpen, false)
  | .endRecovery => (s.agentSession, s.admissionOpen, false)
  | .setOpen isOpen => (s.agentSession, isOpen, s.recovering)
  | _ => (s.agentSession, s.admissionOpen, s.recovering)

/-- Who a step may hand a token to, and under which gates. -/
inductive Handed (s : State) : Event → Holder → Prop
  | pass {a metrics obs refreshNow now}
      (current : s.current a.holder true = true) (isOpen : s.admissionOpen = true) :
      Handed s (.pass a metrics obs refreshNow now) a.holder
  | observe {token} {holder : Holder} {owner cost}
      (current : s.current holder false = true) : Handed s (.observe token holder owner cost) holder
  | publication {token} {holder : Holder} {owner}
      (current : s.current holder true = true) : Handed s (.publication token holder owner) holder
  | hello {session reassert} :
      Handed s (.hello session reassert) (.agent session)

namespace State

def gates (s : State) : Option String × Bool × Bool := (s.agentSession, s.admissionOpen, s.recovering)

theorem Same.gates {s s'} (h : Same s s') : s'.gates = s.gates := by
  unfold State.gates
  rw [h.agentSession,h.admissionOpen,h.recovering]

theorem gates_foldl {α f} (hf : ∀ s a, (f s a).gates = s.gates) (items : List α) (s : State) :
    (items.foldl f s).gates = s.gates := by
  induction items generalizing s with
  | nil => rfl
  | cons a items ih => exact (ih (f s a)).trans (hf s a)

theorem gates_hello (s : State) (session) (reassert) :
    (s.hello session reassert).gates = (some session, s.admissionOpen, false) := by
  let dropped := (s.stale session).foldl State.dropHeld s
  have hdro : dropped.gates = s.gates := gates_foldl (f := State.dropHeld) (fun _ _ => rfl) ..
  have hacc := gates_foldl (f := fun s item => s.accept session item.1 item.2)
    (fun _ _ => by unfold accept; split <;> rfl) reassert
    { dropped with agentSession := some session }
  simp only [State.gates,Prod.mk.injEq] at hdro hacc ⊢
  exact ⟨hacc.1,hacc.2.1.trans hdro.2.1,rfl⟩

variable {token : String}

theorem lookup_hold {s : State} {token' holder owner cost requested demand slot held}
    (h : (s.hold token holder owner cost requested demand slot).held.lookup token' = some held) :
    s.held.lookup token' = some held ∨ held.holder = holder := by
  obtain ⟨-,rfl⟩ | ⟨-,h⟩ := lookup_of_insert h
  · exact .inr rfl
  · exact .inl h

theorem lookup_foldl_dropHeld {dropped : List (Sigma fun _ : String => Held)} {s held}
    (h : (dropped.foldl State.dropHeld s).held.lookup token = some held) :
    s.held.lookup token = some held ∧ ∀ entry ∈ dropped, entry.1 ≠ token := by
  induction dropped generalizing s with
  | nil => exact ⟨h,by simp⟩
  | cons entry dropped ih =>
    obtain ⟨hrest,hother⟩ := ih h
    obtain ⟨htoken,hrest⟩ := lookup_of_erase hrest
    refine ⟨hrest,fun other hmem => ?_⟩
    obtain rfl | hmem := mem_cons.mp hmem
    · exact Ne.symm htoken
    · exact hother other hmem

theorem lookup_foldl_accept {session} {items : List (Reassert × Option Pool)} {s : State}
    {held}
    (h : (items.foldl (fun s item => s.accept session item.1 item.2) s).held.lookup token = some held) :
    s.held.lookup token = some held ∨ held.holder = .agent session := by
  induction items generalizing s with
  | nil => exact .inl h
  | cons item items ih =>
    obtain h | h := ih h
    · dsimp only [accept] at h
      split at h
      · exact .inl h
      · exact lookup_hold h
    · exact .inr h

theorem lookup_hello {s : State} {session reassert held}
    (h : (s.hello session reassert).held.lookup token = some held) :
    held.holder = .agent session ∨ s.held.lookup token = some held ∧
      ∀ other, held.holder = .agent other → other = session ∨ s.agentSession = some session := by
  obtain h | h := lookup_foldl_accept h
  · obtain ⟨hheld,hkept⟩ := lookup_foldl_dropHeld h
    refine .inr ⟨hheld,fun other hother => ?_⟩
    by_contra hnei
    obtain ⟨hne,hses⟩ := not_or.mp hnei
    refine hkept ⟨token,held⟩ ?_ rfl
    unfold stale
    rw [if_neg hses]
    exact mem_filter.mpr ⟨AList.mem_lookup_iff.mp hheld,by simpa [hother] using hne⟩
  · exact .inl h

end State

/-- What a step does to the gates, the tokens and the growth commits: a token held after it was held
before or is handed out; a commit starts only with a granting pass, for a holder that may act, on
an open node. -/
structure Stepped (s : State) (e : Event) (s' : State) : Prop where
  gates : s'.gates = e.gates s
  lookup : ∀ {token held}, s'.held.lookup token = some held →
    s.held.lookup token = some held ∨ Handed s e held.holder
  growing : ∀ {demand}, demand ∉ s.growing.map (·.demand) → demand ∈ s'.growing.map (·.demand) →
    ∃ a metrics obs refreshNow now, e = .pass a metrics obs refreshNow now ∧
      s.current a.holder true = true ∧ s.admissionOpen = true

namespace Stepped

variable {s s' r : State} {e : Event}

theorem quiet (hgates : s'.gates = e.gates s)
    (hlook : ∀ {token held}, s'.held.lookup token = some held →
      s.held.lookup token = some held ∨ Handed s e held.holder)
    (hgrow : s'.growing.map (·.demand) ⊆ s.growing.map (·.demand)) : Stepped s e s' :=
  ⟨hgates,hlook,fun hnew h => absurd (hgrow h) hnew⟩

theorem same (h : Same s s') (hgates : e.gates s = s.gates) : Stepped s e s' :=
  quiet (h.gates.trans hgates.symm) (fun hheld => .inl (h.held ▸ hheld)) (by rw [h.growing]; simp)

theorem hold (h : Same s r) (hgates : e.gates s = s.gates)
    {token holder owner cost requested demand slot} (hhnd : Handed s e holder) :
    Stepped s e (r.hold token holder owner cost requested demand slot) := by
  refine quiet (h.gates.trans hgates.symm) (fun hheld => ?_) (h.growing ▸ List.Subset.refl _)
  rw [← h.held]
  obtain hheld | hhol := lookup_hold hheld
  · exact .inl hheld
  · exact .inr (hhol ▸ hhnd)

end Stepped

theorem stepped_of_step {config s s' e} (hs : step config s e = some s') : Stepped s e s' := by
  cases e with
  | pass a metrics obs refreshNow now =>
    cases hs
    have href := same_refreshed config s a metrics obs refreshNow
    obtain ⟨-,hsame⟩ | ⟨-,hcur,hopen,hgr⟩ := pass_spec config s a metrics obs refreshNow now
    · exact .same hsame rfl
    rw [hgr]
    cases hg : a.grant with
    | hold =>
      rw [granted_hold hg]
      exact .hold href rfl (.pass hcur hopen)
    | growth =>
      obtain ⟨charged,hchg,hs⟩ :=
        granted_growth (s.refreshed config a metrics obs refreshNow) obs hg
      have hsame := href.trans hchg
      rw [hs]
      refine ⟨hsame.gates,fun h => .inl (hsame.held ▸ h),fun _ _ => ?_⟩
      exact ⟨a,metrics,obs,refreshNow,now,rfl,hcur,hopen⟩
  | observe =>
    obtain ⟨hcur,rfl⟩ := some_of_check hs
    exact .hold (.refl s) rfl (.observe hcur)
  | publication =>
    simp only [step,ite_none_right_eq_some,some.injEq,Bool.and_eq_true] at hs
    obtain ⟨⟨hcur,-⟩,rfl⟩ := hs
    exact .hold (.refl s) rfl (.publication hcur)
  | release token' =>
    dsimp only [step] at hs
    split at hs
    · rename_i released _
      obtain ⟨-,rfl⟩ := some_of_check hs
      refine .quiet rfl (fun {token held} h => ?_) (List.Subset.refl _)
      exact .inl (lookup_foldl_dropHeld
        (show ([⟨token',released⟩].foldl State.dropHeld s).held.lookup token = some held from h)).1
    · cases hs
  | hello session reassert =>
    cases hs
    refine ⟨gates_hello ..,fun h => ?_,fun hnew h => absurd ?_ hnew⟩
    · obtain hhol | ⟨hheld,-⟩ := lookup_hello h
      · exact .inr (hhol ▸ .hello)
      · exact .inl hheld
    · rwa [← congrArg (map (·.demand)) (frame_hello s session reassert).growing]
  | settle =>
    obtain ⟨-,s₁,hsame,rfl⟩ := settle_spec hs
    refine .quiet hsame.gates (fun h => .inl (hsame.held ▸ h)) ?_
    rw [← hsame.growing]
    exact map_subset _ (filter_subset_self ..)
  | demand | withdraw | endRecovery | setOpen =>
    cases hs
    exact .quiet rfl .inl (List.Subset.refl _)
  | _ => exact .same (same_step rfl hs) rfl

def State.Fenced (s : State) : Prop :=
  ∀ {token held session}, s.held.lookup token = some held → held.holder = .agent session →
    s.agentSession = some session

theorem agentSession_of_current {s : State} {session grant}
    (h : s.current (.agent session) grant = true) : s.agentSession = some session := by
  simp only [State.current,Bool.and_eq_true,decide_eq_true_eq] at h
  exact h.1

theorem not_recovering_of_current {s : State} {holder} (h : s.current holder true = true) :
    s.recovering = false := by
  simp only [State.current,Bool.and_eq_true,Bool.not_eq_true'] at h
  exact h.2

theorem fenced_step {s s' e} (h : s.Fenced) (hs : step config s e = some s') : s'.Fenced := by
  intro token held session hheld hhol
  have hses : s'.agentSession = (e.gates s).1 := congrArg Prod.fst (stepped_of_step hs).gates
  rw [hses]
  obtain hbef | hhnd := (stepped_of_step hs).lookup hheld
  · cases e with
    | hello current reassert =>
      cases hs
      obtain hself | ⟨-,hother⟩ := lookup_hello hheld
      · cases hself.symm.trans hhol
        rfl
      obtain rfl | hcur := hother session hhol
      · rfl
      · exact hcur.symm.trans (h hbef hhol)
    | _ => exact h hbef hhol
  · rw [hhol] at hhnd
    generalize hagent : Holder.agent session = holder at hhnd
    cases hhnd with
    | pass hcur =>
      rw [← hagent] at hcur
      exact agentSession_of_current hcur
    | observe hcur | publication hcur => exact agentSession_of_current (hagent ▸ hcur)
    | hello =>
      cases hagent
      rfl

end UCloudSandboxes.Admission
