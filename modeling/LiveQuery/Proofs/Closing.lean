import Mathlib.Tactic.ByContra
import LiveQuery.Proofs.Run

namespace LiveQuery

def Event.error? : Event → Option WatchError
  | .snapshot _ => none
  | .error e => some e

/-- Whether the worker of a closed watch has stopped in this phase, or stops next. -/
def Phase.isEnding : Phase → Bool
  | .settling | .stopped => true
  | _ => false

namespace Session

variable {draw : Binary64 → Binary64 → Binary64} {s s' : Session} {a : Action} {actions more : List Action}
  {w : Worker} {e : WatchError}

/-- The errors that the worker sent. -/
def errors (s : Session) : List WatchError := s.sent.filterMap Event.error?

/-- A watch once closed stays closed, and the first half of a removal closes it. -/
theorem closed_step? (h : s.step? draw a = some s')
    (hclosed : s.shared.state = .closed ∨ a = .deactivate) : s'.shared.state = .closed := by
  cases Step.of_step? h with
  | deactivate | close | concede => rfl
  | start hidle =>
    rcases hclosed with hstate | hdeactivate
    · rw [hidle] at hstate
      cases hstate
    · cases hdeactivate
  | stream | reconnect =>
    rcases hclosed with hstate | hdeactivate
    · exact Shared.state_transition_of_closed hstate _
    · cases hdeactivate
  | absorb haccepts =>
    obtain ⟨worker, phase, -, heq⟩ := absorb_eq s (s.worker.receive a)
    rcases hclosed with hstate | rfl
    · rw [heq]
      exact hstate
    · cases haccepts
  | refuse | cancel | launch | leave | forgo | breakDown | report | finish | resume | elapse | connected
  | take | drop | pass | hand =>
    rcases hclosed with hstate | hdeactivate
    · exact hstate
    · cases hdeactivate

/-- A watch once removed stays removed. -/
theorem removed_step? (h : s.step? draw a = some s') (hremoved : s.shared.removed = true) :
    s'.shared.removed = true := by
  cases Step.of_step? h with
  | cancel => rfl
  | stream | reconnect =>
    rw [Shared.removed_transition]
    exact hremoved
  | absorb =>
    obtain ⟨worker, phase, -, heq⟩ := absorb_eq s (s.worker.receive a)
    rw [heq]
    exact hremoved
  | start | refuse | deactivate | launch | leave | forgo | breakDown | close | concede | report | finish
  | resume | elapse | connected | take | drop | pass | hand => exact hremoved

/-- How far the removals have come. -/
structure Removing (s : Session) (actions : List Action) : Prop where
  closed : .deactivate ∈ actions → s.shared.state = .closed
  cancelling : s.cancelling ≠ 0 → .deactivate ∈ actions
  removed : s.shared.removed = true → .deactivate ∈ actions
  removals : s.removals ≠ 0 → s.shared.removed = true

theorem removing_initial (w : Worker) : (initial w).Removing [] where
  closed := nofun
  cancelling h := absurd rfl h
  removed := nofun
  removals h := absurd rfl h

theorem Removing.aside (h : s.Removing actions) (hclosed : .deactivate ∈ actions ++ [a] →
    s'.shared.state = .closed) (hremoved : s'.shared.removed = s.shared.removed)
    (hcancelling : s'.cancelling = s.cancelling) (hremovals : s'.removals = s.removals) :
    s'.Removing (actions ++ [a]) where
  closed := hclosed
  cancelling := by
    rw [hcancelling]
    exact fun hne => List.mem_append_left [a] (h.cancelling hne)
  removed := by
    rw [hremoved]
    exact fun htrue => List.mem_append_left [a] (h.removed htrue)
  removals := by
    rw [hremovals, hremoved]
    exact h.removals

theorem removing_step? (h : s.Removing actions) (hstep : s.step? draw a = some s') :
    s'.Removing (actions ++ [a]) := by
  have hclosed : .deactivate ∈ actions ++ [a] → s'.shared.state = .closed := by
    intro hmem
    apply closed_step? hstep
    rcases List.mem_append.1 hmem with hbefore | hnow
    · exact Or.inl (h.closed hbefore)
    · exact Or.inr (List.mem_singleton.1 hnow).symm
  cases Step.of_step? hstep with
  | deactivate =>
    refine ⟨hclosed, fun _ => by simp, fun _ => by simp, h.removals⟩
  | cancel hcancelling =>
    have hmem := List.mem_append_left [Action.cancel] (h.cancelling hcancelling)
    exact ⟨hclosed, fun _ => hmem, fun _ => hmem, fun _ => rfl⟩
  | stream | reconnect => exact h.aside hclosed (Shared.removed_transition _ _) rfl rfl
  | absorb =>
    obtain ⟨worker, phase, -, heq⟩ := absorb_eq s (s.worker.receive a)
    rw [heq] at hclosed ⊢
    exact h.aside hclosed rfl rfl rfl
  | start | refuse | launch | leave | forgo | breakDown | close | concede | report | finish | resume
  | elapse | connected | take | drop | pass | hand => exact h.aside hclosed rfl rfl rfl

theorem Run.removing (h : (initial w).Run actions s) : s.Removing actions := by
  induction h with
  | nil => exact removing_initial w
  | snoc _ hstep ih => exact removing_step? ih hstep

/-- What was sent is snapshots and then at most one error, which is the worker's last word. -/
structure Reported (s : Session) : Prop where
  sent : s.sent = s.snapshots.map Event.snapshot ++ s.errors.map Event.error
  length_errors : s.errors.length ≤ 1
  reporting : s.phase.isReporting = true → s.shared.state = .closed
  ended : s.errors ≠ [] → s.shared.state = .closed ∧ s.phase.isEnding = true

theorem reported_initial (w : Worker) : (initial w).Reported where
  sent := rfl
  length_errors := Nat.zero_le 1
  reporting := nofun
  ended h := absurd rfl h

theorem Reported.aside (h : s.Reported) (hsent : s'.sent = s.sent) (hphase : s'.phase = s.phase)
    (hclosed : s.shared.state = .closed → s'.shared.state = .closed) : s'.Reported where
  sent := by
    rw [snapshots, errors, hsent]
    exact h.sent
  length_errors := by
    rw [errors, hsent]
    exact h.length_errors
  reporting := by
    rw [hphase]
    exact fun htrue => hclosed (h.reporting htrue)
  ended := by
    rw [errors, hsent, hphase]
    exact fun hne => ⟨hclosed (h.ended hne).1, (h.ended hne).2⟩

theorem Reported.errors_eq_nil (h : s.Reported) (hphase : s.phase.isEnding = false) :
    s.errors = [] := by
  by_contra hne
  rw [(h.ended hne).2] at hphase
  cases hphase

/-- The worker of an open watch has sent no error, and is not about to. -/
theorem Reported.of_open (h : s.Reported) (hopen : s.shared.state ≠ .closed) :
    s.errors = [] ∧ s.phase.isReporting = false := by
  refine ⟨?_, Bool.eq_false_iff.2 fun htrue => hopen (h.reporting htrue)⟩
  by_contra hne
  exact hopen (h.ended hne).1

/-- A step of a worker that has not sent an error, and sends none. -/
theorem Reported.onward (h : s.Reported) (snapshot : Option Snapshot) (hnil : s.errors = [])
    (hsent : s'.sent = s.sent ++ (snapshot.map Event.snapshot).toList)
    (hreporting : s'.phase.isReporting = false ∨ s'.shared.state = .closed) : s'.Reported := by
  have herrors : s'.errors = [] := by
    rw [errors, hsent, List.filterMap_append, ← errors, hnil]
    cases snapshot <;> rfl
  have hsnapshots : s'.snapshots = s.snapshots ++ snapshot.toList := by
    rw [snapshots, hsent, List.filterMap_append, ← snapshots]
    cases snapshot <;> rfl
  refine ⟨?_, ?_, ?_, ?_⟩
  · rw [herrors, hsnapshots, hsent, h.sent, hnil]
    cases snapshot <;> simp
  · rw [herrors]
    exact Nat.zero_le 1
  · intro htrue
    rcases hreporting with hfalse | hclosed
    · rw [hfalse] at htrue
      cases htrue
    · exact hclosed
  · exact fun hne => absurd herrors hne

theorem reported_step? (h : s.Reported) (hstep : s.step? draw a = some s') : s'.Reported := by
  have hclosed (hstate : s.shared.state = .closed) : s'.shared.state = .closed :=
    closed_step? hstep (Or.inl hstate)
  have hquiet {phase : Phase} (hphase : s.phase = phase) (hending : phase.isEnding = false) :
      s.errors = [] := by
    rw [← hphase] at hending
    exact h.errors_eq_nil hending
  have honward (hnil : s.errors = []) (hsent : s'.sent = s.sent)
      (hreporting : s'.phase.isReporting = false ∨ s'.shared.state = .closed) : s'.Reported :=
    h.onward none hnil (by rw [hsent]; exact (List.append_nil _).symm) hreporting
  cases Step.of_step? hstep with
  | start hidle =>
    refine honward ?_ rfl (Or.inl rfl)
    by_contra hne
    rw [(h.ended hne).1] at hidle
    cases hidle
  | refuse | deactivate | cancel | take | drop | pass | hand => exact h.aside rfl rfl hclosed
  | launch hphase => exact honward (hquiet hphase rfl) rfl (Or.inl rfl)
  | leave hphase => exact honward (hquiet hphase rfl) rfl (Or.inl rfl)
  | forgo hphase => exact honward (hquiet hphase rfl) rfl (Or.inl rfl)
  | breakDown hphase => exact honward (hquiet hphase rfl) rfl (Or.inl rfl)
  | stream hphase => exact honward (hquiet hphase rfl) rfl (Or.inl rfl)
  | reconnect hphase => exact honward (hquiet hphase rfl) rfl (Or.inl rfl)
  | close hphase => exact honward (hquiet hphase rfl) rfl (Or.inr rfl)
  | concede hphase => exact honward (hquiet hphase rfl) rfl (Or.inl rfl)
  | @report e hphase =>
    -- the worker closed the watch before it came to report, so this error is its first and last
    have hnil := hquiet hphase rfl
    have hreporting : s.shared.state = .closed := h.reporting (by rw [hphase]; rfl)
    have herrors : errors { s with phase := .settling, sent := s.sent ++ [.error e] } = [e] := by
      simp only [errors, List.filterMap_append]
      rw [← errors, hnil]
      rfl
    refine ⟨?_, ?_, fun htrue => absurd htrue Bool.false_ne_true, fun _ => ⟨hclosed hreporting, rfl⟩⟩
    · have hsent := h.sent
      rw [hnil, List.map_nil, List.append_nil] at hsent
      have hsnapshots : snapshots { s with phase := .settling, sent := s.sent ++ [.error e] } =
          s.snapshots := by
        simp only [snapshots, List.filterMap_append]
        exact List.append_nil _
      rw [herrors, hsnapshots]
      exact congrArg (· ++ [Event.error e]) hsent
    · rw [herrors]
      exact Nat.le_refl 1
  | finish _ hstate =>
    exact ⟨h.sent, h.length_errors, fun _ => hstate, fun _ => ⟨hstate, rfl⟩⟩
  | resume _ hopen =>
    refine honward ?_ rfl (Or.inl rfl)
    by_contra hne
    exact hopen (h.ended hne).1
  | elapse hphase => exact honward (hquiet hphase rfl) rfl (Or.inl rfl)
  | connected hawaiting =>
    obtain ⟨⟨request, hphase⟩, -⟩ := isAwaiting_iff.1 hawaiting
    exact honward (hquiet hphase rfl) rfl (Or.inl rfl)
  | absorb haccepts =>
    obtain ⟨worker, phase, hphase, heq⟩ := absorb_eq s (s.worker.receive a)
    rw [heq]
    refine h.onward (s.worker.receive a).snapshot ?_ rfl (Or.inl hphase)
    rcases phase_of_accepts haccepts with hready | ⟨request, hconnecting⟩
    · exact hquiet hready rfl
    · exact hquiet hconnecting rfl

theorem Run.reported (h : (initial w).Run actions s) : s.Reported := by
  induction h with
  | nil => exact reported_initial w
  | snoc _ hstep ih => exact reported_step? ih hstep

/-- A worker that waits neither for its stream nor for an answer goes on by itself, and nothing but a
removal interferes. -/
theorem phase_step? (h : s.step? draw a = some s') (hwork : a ≠ .work) (hready : s.phase ≠ .ready)
    (hconnecting : ∀ request, s.phase ≠ .connecting request) (hidle : s.shared.state ≠ .idle) :
    s'.phase = s.phase ∧ s'.errors = s.errors ∧
      (a ≠ .deactivate → s'.shared.state = s.shared.state) := by
  cases Step.of_step? h with
  | refuse | cancel | take | drop | pass | hand => exact ⟨rfl, rfl, fun _ => rfl⟩
  | deactivate => exact ⟨rfl, rfl, fun hother => absurd rfl hother⟩
  | start hstate => exact absurd hstate hidle
  | elapse hphase => exact absurd hphase hready
  | connected hawaiting =>
    obtain ⟨⟨request, hphase⟩, -⟩ := isAwaiting_iff.1 hawaiting
    exact absurd hphase (hconnecting request)
  | absorb haccepts =>
    rcases phase_of_accepts haccepts with hphase | ⟨request, hphase⟩
    · exact absurd hphase hready
    · exact absurd hphase (hconnecting request)
  | launch | leave | forgo | breakDown | stream | reconnect | close | concede | report | finish | resume =>
    exact absurd rfl hwork

/-- The worker only reports what it closed an active watch for. -/
theorem reporting_step? (h : s.step? draw a = some s') (he : s'.phase = .reporting e) :
    s.phase = .reporting e ∨
      a = .work ∧ s.phase = .closing e ∧ s.shared.state.isActive = true := by
  cases Step.of_step? h with
  | refuse | deactivate | cancel | take | drop | pass | hand => exact Or.inl he
  | close hphase hactive =>
    cases he
    exact Or.inr ⟨rfl, hphase, hactive⟩
  | absorb =>
    obtain ⟨worker, phase, hphase, heq⟩ := absorb_eq s (s.worker.receive a)
    rw [heq] at he
    cases he
    cases hphase
  | start | launch | leave | forgo | breakDown | stream | reconnect | concede | report | finish | resume
  | elapse | connected => cases he

/-- A step sends no error but one that the worker was about to report. -/
theorem errors_step?_cases (h : s.step? draw a = some s') :
    s'.errors = s.errors ∨ ∃ e, s.phase = .reporting e ∧ s'.errors = s.errors ++ [e] := by
  cases Step.of_step? h with
  | @report e hphase =>
    refine Or.inr ⟨e, hphase, ?_⟩
    simp only [errors, List.filterMap_append]
    rfl
  | absorb =>
    obtain ⟨worker, phase, -, heq⟩ := absorb_eq s (s.worker.receive a)
    rw [heq]
    simp only [errors, List.filterMap_append]
    left
    cases (s.worker.receive a).snapshot <;> exact List.append_nil _
  | start | refuse | deactivate | cancel | launch | leave | forgo | breakDown | stream | reconnect | close
  | concede | finish | resume | elapse | connected | take | drop | pass | hand => exact Or.inl rfl

theorem errors_step? (h : s.step? draw a = some s') (he : e ∈ s'.errors) :
    e ∈ s.errors ∨ s.phase = .reporting e := by
  rcases errors_step?_cases h with hsame | ⟨e', hphase, hnew⟩
  · rw [hsame] at he
    exact Or.inl he
  · rw [hnew, List.mem_append, List.mem_singleton] at he
    rcases he with hbefore | rfl
    · exact Or.inl hbefore
    · exact Or.inr hphase

theorem errors_eq_step? (hreporting : s.phase.isReporting = false) (h : s.step? draw a = some s') :
    s'.errors = s.errors := by
  rcases errors_step?_cases h with hsame | ⟨e, hphase, -⟩
  · exact hsame
  · rw [hphase] at hreporting
    cases hreporting

/-- The worker itself closed the watch for an error, while it was active and before any removal. -/
def ClosedFirst (w : Worker) (e : WatchError) (actions : List Action) : Prop :=
  ∃ before after s, actions = before ++ .work :: after ∧ .deactivate ∉ before ∧
    (initial w).Run before s ∧ s.phase = .closing e ∧ s.shared.state.isActive = true

theorem ClosedFirst.snoc (h : ClosedFirst w e actions) (a : Action) :
    ClosedFirst w e (actions ++ [a]) := by
  obtain ⟨before, after, s, hactions, hrest⟩ := h
  refine ⟨before, after ++ [a], s, ?_, hrest⟩
  rw [hactions, List.append_assoc, List.cons_append]

theorem Run.closedFirst (h : (initial w).Run actions s) :
    (∀ e, s.phase = .reporting e → ClosedFirst w e actions) ∧
      ∀ e ∈ s.errors, ClosedFirst w e actions := by
  induction h with
  | nil => exact ⟨nofun, nofun⟩
  | @snoc actions s a s' draw hrun hstep ih =>
    refine ⟨?_, ?_⟩
    · intro e he
      rcases reporting_step? hstep he with hbefore | ⟨rfl, hclosing, hactive⟩
      · exact (ih.1 e hbefore).snoc a
      · refine ⟨actions, [], s, rfl, ?_, hrun, hclosing, hactive⟩
        -- a removal would have left the watch closed
        intro hmem
        rw [hrun.removing.closed hmem] at hactive
        cases hactive
    · intro e he
      rcases errors_step? hstep he with hbefore | hreporting
      · exact (ih.2 e hbefore).snoc a
      · exact (ih.1 e hreporting).snoc a

/-- A worker about to close an active watch does so, says why and stops. -/
theorem exists_run_closed (h : s.phase = .closing e) (hactive : s.shared.state.isActive = true) :
    ∃ s', s.Run [.work, .work, .work] s' ∧ s'.phase = .stopped ∧ s'.shared.state = .closed ∧
      s'.errors = s.errors ++ [e] := by
  let draw : Binary64 → Binary64 → Binary64 := fun low _ => low
  have hclose : Step draw s .work _ := .close h hactive
  have hreport : Step draw { s with shared := { s.shared with state := .closed }, phase := .reporting e }
      .work _ := .report rfl
  have hfinish : Step draw { s with
      shared := { s.shared with state := .closed }
      phase := .settling
      sent := s.sent ++ [.error e] } .work _ := .finish rfl rfl
  have hrun : s.Run (([] ++ [.work]) ++ [.work] ++ [.work]) _ :=
    ((Run.nil.snoc hclose.step?).snoc hreport.step?).snoc hfinish.step?
  refine ⟨_, hrun, rfl, rfl, ?_⟩
  simp only [errors, stop, List.filterMap_append]
  rfl

end Session

end LiveQuery
