import LiveQuery.Proofs.Listener

namespace LiveQuery

/-- Whether the step is one of the listener's task. -/
def Action.isListening : Action → Bool
  | .take | .check | .hand => true
  | _ => false

namespace Session

variable {draw : Binary64 → Binary64 → Binary64} {s s' : Session} {a : Action} {actions more : List Action}
  {w : Worker} {e : WatchError}

/-- Where steps lead if the listener's task deals with each event in one step: it takes the event, looks
whether the watch was removed, and drops the event or hands it over. -/
inductive Rounds (s : Session) : List Action → Session → Prop
  | nil : Rounds s [] s
  | snoc {actions : List Action} {s' s'' : Session} {a : Action}
      {draw : Binary64 → Binary64 → Binary64} :
      Rounds s actions s' → a.isListening = false → s'.step? draw a = some s'' →
      Rounds s (actions ++ [a]) s''
  | drop {actions : List Action} {s₀ s₁ s₂ : Session} {draw : Binary64 → Binary64 → Binary64} :
      Rounds s actions s₀ → s₀.step? draw .take = some s₁ → s₁.step? draw .check = some s₂ →
      s₂.listening = .idle → Rounds s (actions ++ [.take, .check]) s₂
  | hand {actions : List Action} {s₀ s₁ s₂ s₃ : Session} {draw : Binary64 → Binary64 → Binary64} :
      Rounds s actions s₀ → s₀.step? draw .take = some s₁ → s₁.step? draw .check = some s₂ →
      s₂.step? draw .hand = some s₃ → Rounds s (actions ++ [.take, .check, .hand]) s₃

theorem Rounds.run (h : s.Rounds actions s') : s.Run actions s' := by
  induction h with
  | nil => exact .nil
  | snoc _ _ hstep ih => exact ih.snoc hstep
  | drop _ htake hcheck _ ih =>
    have hrun := (ih.snoc htake).snoc hcheck
    rwa [List.append_assoc] at hrun
  | hand _ htake hcheck hhand ih =>
    have hrun := ((ih.snoc htake).snoc hcheck).snoc hhand
    rwa [List.append_assoc, List.append_assoc] at hrun

theorem listening_step? (h : s.step? draw a = some s') (ha : a.isListening = false) :
    s'.listening = s.listening := by
  cases Step.of_step? h with
  | absorb =>
    obtain ⟨worker, phase, -, heq⟩ := absorb_eq s (s.worker.receive a)
    rw [heq]
  | take | drop | pass | hand => cases ha
  | start | refuse | deactivate | cancel | launch | leave | forgo | breakDown | stream | reconnect | close
  | concede | report | finish | resume | elapse | connected => rfl

theorem Rounds.listening (h : s.Rounds actions s') (hidle : s.listening = .idle) :
    s'.listening = .idle := by
  induction h with
  | nil => exact hidle
  | snoc _ ha hstep ih => rwa [listening_step? hstep ha]
  | drop _ _ _ hend _ => exact hend
  | hand _ _ _ hhand _ =>
    cases Step.of_step? hhand with
    | absorb haccepts => cases haccepts
    | hand => rfl

/-- The watch was removed and the listener is not about to be handed a snapshot. -/
structure Muted (s : Session) : Prop where
  removed : s.shared.removed = true
  handing : ∀ event, s.listening = .handing event → event.isSnapshot = false

/-- A removed watch stays silent, but for errors. -/
theorem muted_step? (h : s.Muted) (hstep : s.step? draw a = some s') :
    s'.Muted ∧ ∃ es : List WatchError, s'.delivered = s.delivered ++ es.map Event.error := by
  have hremoved := removed_step? hstep h.removed
  -- most steps leave the listener alone
  have hquiet (hlistening : s'.listening = s.listening) (hdelivered : s'.delivered = s.delivered) :
      s'.Muted ∧ ∃ es : List WatchError, s'.delivered = s.delivered ++ es.map Event.error := by
    refine ⟨⟨hremoved, ?_⟩, [], ?_⟩
    · rw [hlistening]
      exact h.handing
    · rw [hdelivered]
      exact (List.append_nil _).symm
  cases Step.of_step? hstep with
  | take | drop => exact ⟨⟨hremoved, nofun⟩, [], (List.append_nil _).symm⟩
  | @pass event _ hkept =>
    refine ⟨⟨hremoved, ?_⟩, [], (List.append_nil _).symm⟩
    rintro _ ⟨rfl⟩
    cases hsnapshot : event.isSnapshot with
    | true =>
      -- only while the watch is not removed does a snapshot pass
      have hnot := hkept hsnapshot
      rw [h.removed] at hnot
      cases hnot
    | false => rfl
  | @hand event hhanding =>
    refine ⟨⟨hremoved, nofun⟩, ?_⟩
    cases event with
    | snapshot S => cases h.handing _ hhanding
    | error e => exact ⟨[e], rfl⟩
  | absorb =>
    obtain ⟨worker, phase, -, heq⟩ := absorb_eq s (s.worker.receive a)
    rw [heq] at hquiet ⊢
    exact hquiet rfl rfl
  | start | refuse | deactivate | cancel | launch | leave | forgo | breakDown | stream | reconnect | close
  | concede | report | finish | resume | elapse | connected => exact hquiet rfl rfl

theorem Run.muted (h : s.Run more s') (hmuted : s.Muted) :
    s'.Muted ∧ ∃ es : List WatchError, s'.delivered = s.delivered ++ es.map Event.error := by
  induction h with
  | nil => exact ⟨hmuted, [], (List.append_nil _).symm⟩
  | snoc _ hstep ih =>
    obtain ⟨hmuted', es, hes⟩ := ih
    obtain ⟨hmuted'', es', hes'⟩ := muted_step? hmuted' hstep
    refine ⟨hmuted'', es ++ es', ?_⟩
    rw [hes', hes, List.map_append, List.append_assoc]

/-- What came before a removal came before anything after it. -/
theorem ClosedFirst.of_append (h : ClosedFirst w e (actions ++ more)) (hmem : .deactivate ∈ actions) :
    ClosedFirst w e actions := by
  obtain ⟨before, after, s, hactions, hbefore, hrest⟩ := h
  -- the worker's step cannot lie beyond the removal, since none came before it
  rcases List.append_eq_append_iff.1 hactions with ⟨rest, hrest', -⟩ | ⟨rest, hactions', hafter⟩
  · rw [hrest'] at hbefore
    exact absurd (List.mem_append_left rest hmem) hbefore
  · cases rest with
    | nil =>
      rw [hactions', List.append_nil] at hmem
      exact absurd hmem hbefore
    | cons a rest =>
      cases hafter
      exact ⟨before, rest, s, hactions', hbefore, hrest⟩

theorem Run.delivered_of_removals (h : (initial w).Run actions s) (hremovals : s.removals ≠ 0)
    (hidle : s.listening = .idle) (hmore : s.Run more s') :
    s'.delivered = s.delivered ∨
      ∃ e, s'.delivered = s.delivered ++ [.error e] ∧ ClosedFirst w e actions := by
  have hremoved := h.removing.removals hremovals
  have hmuted : s.Muted := ⟨hremoved, by rw [hidle]; nofun⟩
  obtain ⟨-, es, hes⟩ := hmore.muted hmuted
  have hrun := h.append hmore
  obtain ⟨-, -, herrors⟩ := hrun.delivered_eq
  have hlength := Nat.le_trans herrors.length_le hrun.reported.length_errors
  cases es with
  | nil => exact Or.inl (hes.trans (List.append_nil _))
  | cons e es =>
    -- all that was handed over are errors, and there is only one to hand over
    have hfilter : (es.map Event.error).filterMap Event.error? = es := by
      rw [List.filterMap_map]
      exact List.filterMap_some
    have hcons : ((e :: es).map Event.error).filterMap Event.error? = e :: es :=
      congrArg (e :: ·) hfilter
    have hmem : e ∈ s'.delivered.filterMap Event.error? := by
      rw [hes, List.filterMap_append, hcons]
      exact List.mem_append_right _ List.mem_cons_self
    have hclosed := hrun.closedFirst.2 e (herrors.subset hmem)
    rw [hes, List.filterMap_append, hcons, List.length_append, List.length_cons] at hlength
    have hnone : es = [] := by
      apply List.eq_nil_of_length_eq_zero
      omega
    rw [hnone] at hes
    exact Or.inr ⟨e, hes, hclosed.of_append (h.removing.removed hremoved)⟩

/-- After a removal the listener is handed no snapshot, whatever waits for it, and at most one error: one
for which the worker had closed the watch before any removal did. -/
theorem Rounds.delivered_after_removal (h : (initial w).Rounds actions s) (hremovals : s.removals ≠ 0)
    (hmore : s.Rounds more s') :
    s'.delivered = s.delivered ∨
      ∃ e, s'.delivered = s.delivered ++ [.error e] ∧ ClosedFirst w e actions :=
  h.run.delivered_of_removals hremovals (h.listening rfl) hmore.run

theorem Rounds.append_run? {before : List Action} {s₀ : Session} (h : s₀.Rounds before s)
    (hrun : s.run? draw actions = some s') (ha : ∀ a ∈ actions, a.isListening = false) :
    s₀.Rounds (before ++ actions) s' := by
  induction actions generalizing before s with
  | nil =>
    cases hrun
    rwa [List.append_nil]
  | cons a actions ih =>
    rw [run?, List.foldlM_cons] at hrun
    obtain ⟨t, hstep, hrest⟩ := Option.bind_eq_some_iff.1 hrun
    have hnext := h.snoc (ha a List.mem_cons_self) hstep
    have hall := ih hnext hrest fun a' ha' => ha a' (List.mem_cons_of_mem a ha')
    rwa [List.append_assoc] at hall

/-- A watch sends a snapshot, closes for a rejection, and is then removed. -/
def removedLate : List Action :=
  firstSnapshot "c/a" ++
    [.work, .response (.targetChange ⟨2, [1], none, [], none⟩), .work, .work, .work, .deactivate, .cancel]

theorem rounds_removedLate : ∃ s s', (watchOf "c/a").Rounds removedLate s ∧ s.removals = 1 ∧
    s.delivered.length = 0 ∧ s.Rounds [.take, .check, .take, .check, .hand] s' ∧
    s'.delivered.length = 1 := by
  have hrun : (do
      let s ← (watchOf "c/a").run? (fun low _ => low) removedLate
      let s₁ ← s.step? (fun low _ => low) .take
      let s₂ ← s₁.step? (fun low _ => low) .check
      let s₃ ← s₂.step? (fun low _ => low) .take
      let s₄ ← s₃.step? (fun low _ => low) .check
      let s₅ ← s₄.step? (fun low _ => low) .hand
      some (s.removals, s.delivered.length, s₂.listening.held.isEmpty, s₅.delivered.length)) =
        some (1, 0, true, 1) := by
    decide +kernel
  simp only [Option.bind_eq_bind, Option.bind_eq_some_iff, Option.some.injEq, Prod.mk.injEq] at hrun
  obtain ⟨s, hs, s₁, h₁, s₂, h₂, s₃, h₃, s₄, h₄, s₅, h₅, hremovals, hlength, hheld, hlength'⟩ := hrun
  have hidle : s₂.listening = .idle := by
    cases hlistening : s₂.listening with
    | idle => rfl
    | holding | handing => rw [hlistening] at hheld; cases hheld
  refine ⟨s, s₅, Rounds.nil.append_run? hs ?_, hremovals, hlength, ?_, hlength'⟩
  · decide
  · exact (Rounds.nil.drop h₁ h₂ hidle).hand h₃ h₄ h₅

theorem delivered_after_removal_removedLate : ∃ s s', (watchOf "c/a").Rounds removedLate s ∧
    s.removals ≠ 0 ∧ s.Rounds [.take, .check, .take, .check, .hand] s' ∧
    ∃ e, s'.delivered = s.delivered ++ [.error e] := by
  obtain ⟨s, s', hrounds, hremovals, hlength, hmore, hlength'⟩ := rounds_removedLate
  have hne : s.removals ≠ 0 := by omega
  refine ⟨s, s', hrounds, hne, hmore, ?_⟩
  rcases hrounds.delivered_after_removal hne hmore with hsame | ⟨e, he, -⟩
  · rw [hsame] at hlength'
    omega
  · exact ⟨e, he⟩

/-- An error that waits when a removal returns still reaches the listener. -/
theorem error_after_removal : ∃ s s', (watchOf "c/a").Rounds removedLate s ∧ s.removals ≠ 0 ∧
    s.Rounds [.take, .check, .take, .check, .hand] s' ∧ s'.delivered ≠ s.delivered := by
  obtain ⟨s, s', hrounds, hremovals, hlength, hmore, hlength'⟩ := rounds_removedLate
  refine ⟨s, s', hrounds, by omega, hmore, ?_⟩
  intro hsame
  rw [hsame] at hlength'
  omega

end Session

end LiveQuery
