import LiveQuery.Proofs.Closing

namespace LiveQuery

/-- Whether two events may come in this order: no snapshot comes after an error. -/
def Event.Before (d e : Event) : Prop := e.isSnapshot = true → d.isSnapshot = true

theorem Event.pairwise_before_append (snaps : List Snapshot) (es : List WatchError) :
    (snaps.map Event.snapshot ++ es.map Event.error).Pairwise Event.Before := by
  rw [List.pairwise_append]
  refine ⟨?_, ?_, ?_⟩
  · rw [List.pairwise_map]
    exact List.pairwise_of_forall fun _ _ _ => rfl
  · rw [List.pairwise_map]
    exact List.pairwise_of_forall fun _ _ => nofun
  · intro d hd _ _ _
    obtain ⟨S, -, rfl⟩ := List.mem_map.1 hd
    rfl

theorem Event.eq_append_of_pairwise {l : List Event} (h : l.Pairwise Event.Before) :
    l = (l.filterMap Event.snapshot?).map Event.snapshot ++
      (l.filterMap Event.error?).map Event.error := by
  induction l with
  | nil => rfl
  | cons d l ih =>
    obtain ⟨hd, hl⟩ := List.pairwise_cons.1 h
    have hrest := ih hl
    cases d with
    | snapshot S =>
      have hcons := congrArg (Event.snapshot S :: ·) hrest
      exact hcons
    | error e =>
      have hnone : l.filterMap Event.snapshot? = [] := by
        rw [List.filterMap_eq_nil_iff]
        intro d' hd'
        cases d' with
        | snapshot S => cases hd (Event.snapshot S) hd' rfl
        | error e' => rfl
      rw [hnone] at hrest
      have hcons := congrArg (Event.error e :: ·) hrest
      simp only [List.filterMap_cons, snapshot?, error?, hnone]
      exact hcons

/-- The event that the listener's task is busy with. -/
def Listening.held : Listening → List Event
  | .idle => []
  | .holding event | .handing event => [event]

namespace Session

variable {draw : Binary64 → Binary64 → Binary64} {s s' : Session} {a : Action} {actions more : List Action}
  {w : Worker} {passed dropped : List Event}

/-- What has become of the events that the listener's task took: it handed on those up to the first it
dropped, and of the others the errors. It only drops events of a removed watch. -/
structure Heard (s : Session) (passed dropped : List Event) : Prop where
  taken_le : s.taken ≤ s.sent.length
  taken : s.sent.take s.taken = passed ++ dropped ++ s.listening.held
  delivered : s.delivered = passed ++ dropped.filter (!·.isSnapshot)
  removed : dropped ≠ [] → s.shared.removed = true
  handing : ∀ event, s.listening = .handing event → event.isSnapshot = true → dropped = []

theorem heard_initial (w : Worker) : (initial w).Heard [] [] where
  taken_le := Nat.le_refl 0
  taken := rfl
  delivered := rfl
  removed h := absurd rfl h
  handing := nofun

/-- A step that is not the listener's. -/
theorem Heard.aside {new : List Event} (h : s.Heard passed dropped)
    (hsent : s'.sent = s.sent ++ new) (htaken : s'.taken = s.taken)
    (hlistening : s'.listening = s.listening) (hdelivered : s'.delivered = s.delivered)
    (hremoved : s.shared.removed = true → s'.shared.removed = true) : s'.Heard passed dropped where
  taken_le := by
    rw [htaken, hsent, List.length_append]
    exact Nat.le_add_right_of_le h.taken_le
  taken := by
    rw [htaken, hsent, hlistening, List.take_append_of_le_length h.taken_le]
    exact h.taken
  delivered := by
    rw [hdelivered]
    exact h.delivered
  removed hne := hremoved (h.removed hne)
  handing := by
    rw [hlistening]
    exact h.handing

theorem Heard.take {event : Event} {rest : List Event} (h : s.Heard passed dropped)
    (hidle : s.listening = .idle) (hqueue : s.queue = event :: rest) :
    Heard { s with taken := s.taken + 1, listening := .holding event } passed dropped where
  taken_le := by
    have hlength := congrArg List.length hqueue
    rw [queue, List.length_drop, List.length_cons] at hlength
    change s.taken + 1 ≤ s.sent.length
    omega
  taken := by
    have hevent : s.sent[s.taken]? = some event := by
      rw [← List.head?_drop]
      change s.queue.head? = _
      rw [hqueue]
      rfl
    have htaken := h.taken
    rw [hidle] at htaken
    rw [List.take_add_one, hevent, htaken]
    simp [Listening.held]
  delivered := h.delivered
  removed := h.removed
  handing := nofun

theorem Heard.drop {event : Event} (h : s.Heard passed dropped) (hholding : s.listening = .holding event)
    (hsnapshot : event.isSnapshot = true) (hremoved : s.shared.removed = true) :
    Heard { s with listening := .idle } passed (dropped ++ [event]) where
  taken_le := h.taken_le
  taken := by
    have htaken := h.taken
    rw [hholding] at htaken
    rw [htaken]
    simp [Listening.held]
  delivered := by
    rw [List.filter_append, List.filter_cons_of_neg (by simp [hsnapshot])]
    simpa using h.delivered
  removed _ := hremoved
  handing := nofun

theorem Heard.pass {event : Event} (h : s.Heard passed dropped) (hholding : s.listening = .holding event)
    (hkept : event.isSnapshot = true → s.shared.removed = false) :
    Heard { s with listening := .handing event } passed dropped where
  taken_le := h.taken_le
  taken := by
    have htaken := h.taken
    rw [hholding] at htaken
    exact htaken
  delivered := h.delivered
  removed := h.removed
  handing := by
    -- once a snapshot was dropped the watch is removed for good, and no other passes
    rintro _ ⟨rfl⟩ hsnapshot
    by_contra hne
    rw [h.removed hne] at hkept
    cases hkept hsnapshot

theorem Heard.hand {event : Event} (h : s.Heard passed dropped)
    (hhanding : s.listening = .handing event) : ∃ passed' dropped',
    Heard { s with listening := .idle, delivered := s.delivered ++ [event] } passed' dropped' := by
  have htaken := h.taken
  rw [hhanding] at htaken
  by_cases hnone : dropped = []
  · subst hnone
    refine ⟨passed ++ [event], [], h.taken_le, ?_, ?_, nofun, nofun⟩
    · rw [htaken]
      simp [Listening.held]
    · rw [h.delivered]
      simp
  · have herror : event.isSnapshot = false := by
      cases hsnapshot : event.isSnapshot with
      | true => exact absurd (h.handing event hhanding hsnapshot) hnone
      | false => rfl
    refine ⟨passed, dropped ++ [event], h.taken_le, ?_, ?_, fun _ => h.removed hnone, nofun⟩
    · rw [htaken]
      simp [Listening.held]
    · rw [h.delivered, List.filter_append, List.filter_cons_of_pos (by simp [herror])]
      simp

theorem heard_step? (h : s.Heard passed dropped) (hstep : s.step? draw a = some s') :
    ∃ passed' dropped', s'.Heard passed' dropped' := by
  have hremoved := removed_step? hstep
  cases Step.of_step? hstep with
  | take hidle hqueue => exact ⟨passed, dropped, h.take hidle hqueue⟩
  | drop hholding hsnapshot htrue => exact ⟨passed, _, h.drop hholding hsnapshot htrue⟩
  | pass hholding hkept => exact ⟨passed, dropped, h.pass hholding hkept⟩
  | hand hhanding => exact h.hand hhanding
  | report => exact ⟨passed, dropped, h.aside rfl rfl rfl rfl hremoved⟩
  | absorb =>
    obtain ⟨worker, phase, -, heq⟩ := absorb_eq s (s.worker.receive a)
    rw [heq]
    exact ⟨passed, dropped, h.aside rfl rfl rfl rfl id⟩
  | start | refuse | deactivate | cancel | launch | leave | forgo | breakDown | stream | reconnect | close
  | concede | finish | resume | elapse | connected =>
    exact ⟨passed, dropped, h.aside (List.append_nil _).symm rfl rfl rfl hremoved⟩

theorem Run.heard (h : (initial w).Run actions s) : ∃ passed dropped, s.Heard passed dropped := by
  induction h with
  | nil => exact ⟨[], [], heard_initial w⟩
  | snoc _ hstep ih =>
    obtain ⟨passed, dropped, hheard⟩ := ih
    exact heard_step? hheard hstep

theorem Heard.isPrefix (h : s.Heard passed dropped) : passed ++ dropped <+: s.sent := by
  have htake := List.take_prefix s.taken s.sent
  rw [h.taken] at htake
  exact (List.prefix_append _ _).trans htake

theorem Heard.filterMap_snapshot? (h : s.Heard passed dropped) :
    s.delivered.filterMap Event.snapshot? = passed.filterMap Event.snapshot? := by
  have hdropped : (dropped.filter (!·.isSnapshot)).filterMap Event.snapshot? = [] := by
    rw [List.filterMap_eq_nil_iff]
    intro event hevent
    have herror := (List.mem_filter.1 hevent).2
    cases event with
    | snapshot S => cases herror
    | error e => rfl
  rw [h.delivered, List.filterMap_append, hdropped, List.append_nil]

theorem Heard.filterMap_error? (h : s.Heard passed dropped) :
    s.delivered.filterMap Event.error? = (passed ++ dropped).filterMap Event.error? := by
  have hdropped : (dropped.filter (!·.isSnapshot)).filterMap Event.error? =
      dropped.filterMap Event.error? := by
    rw [List.filterMap_filter]
    congr 1
    funext event
    cases event <;> rfl
  rw [h.delivered, List.filterMap_append, hdropped, List.filterMap_append]

theorem Heard.sublist (h : s.Heard passed dropped) : s.delivered.Sublist s.sent := by
  rw [h.delivered]
  exact (List.filter_sublist.append_left passed).trans h.isPrefix.sublist

theorem Reported.pairwise (h : s.Reported) : s.sent.Pairwise Event.Before := by
  rw [h.sent]
  exact Event.pairwise_before_append s.snapshots s.errors

/-- The listener was handed the first snapshots that were sent, then at most the error. -/
theorem Run.delivered_eq (h : (initial w).Run actions s) :
    s.delivered = (s.delivered.filterMap Event.snapshot?).map Event.snapshot ++
        (s.delivered.filterMap Event.error?).map Event.error ∧
      s.delivered.filterMap Event.snapshot? <+: s.snapshots ∧
      s.delivered.filterMap Event.error? <+: s.errors := by
  obtain ⟨passed, dropped, hheard⟩ := h.heard
  refine ⟨Event.eq_append_of_pairwise (h.reported.pairwise.sublist hheard.sublist), ?_, ?_⟩
  · rw [hheard.filterMap_snapshot?]
    exact ((List.prefix_append passed dropped).trans hheard.isPrefix).filterMap Event.snapshot?
  · rw [hheard.filterMap_error?]
    exact hheard.isPrefix.filterMap Event.error?

theorem delivered_step? (h : s.step? draw a = some s') : s.delivered <+: s'.delivered := by
  cases Step.of_step? h with
  | hand => exact List.prefix_append _ _
  | absorb =>
    obtain ⟨worker, phase, -, heq⟩ := absorb_eq s (s.worker.receive a)
    have hsame : (s.absorb (s.worker.receive a)).delivered = s.delivered := by rw [heq]
    exact hsame ▸ List.prefix_refl s.delivered
  | start | refuse | deactivate | cancel | launch | leave | forgo | breakDown | stream | reconnect | close
  | concede | report | finish | resume | elapse | connected | take | drop | pass =>
    exact List.prefix_refl _

theorem Run.delivered_isPrefix (h : s.Run more s') : s.delivered <+: s'.delivered := by
  induction h with
  | nil => exact List.prefix_refl _
  | snoc _ hstep ih => exact ih.trans (delivered_step? hstep)

/-- After an error the listener is handed nothing. -/
theorem Run.delivered_eq_of_error {e : WatchError} (h : (initial w).Run actions s)
    (he : Event.error e ∈ s.delivered) (hmore : s.Run more s') : s'.delivered = s.delivered := by
  obtain ⟨rest, hrest⟩ := hmore.delivered_isPrefix
  have hrun := h.append hmore
  obtain ⟨passed, dropped, hheard⟩ := hrun.heard
  have hpairwise := hrun.reported.pairwise.sublist hheard.sublist
  have herrors := Nat.le_trans hrun.delivered_eq.2.2.length_le hrun.reported.length_errors
  rw [← hrest] at hpairwise herrors ⊢
  cases rest with
  | nil => exact List.append_nil _
  | cons event rest =>
    cases event with
    -- a snapshot would come after the error, and a second error was never sent
    | snapshot S =>
      have hbefore := (List.pairwise_append.1 hpairwise).2.2 _ he (.snapshot S) List.mem_cons_self
      cases hbefore rfl
    | error e' =>
      have hpos : 0 < (s.delivered.filterMap Event.error?).length :=
        List.length_pos_of_mem (List.mem_filterMap.2 ⟨.error e, he, rfl⟩)
      have hcons : (Event.error e' :: rest).filterMap Event.error? =
          e' :: rest.filterMap Event.error? := rfl
      rw [List.filterMap_append, hcons, List.length_append, List.length_cons] at herrors
      omega

/-- If nobody removes the watch, a listener's task that has nothing left has handed over everything. -/
theorem Run.delivered_eq_sent (h : (initial w).Run actions s) (hactions : .deactivate ∉ actions)
    (hidle : s.listening = .idle) (hqueue : s.queue = []) : s.delivered = s.sent := by
  obtain ⟨passed, dropped, hheard⟩ := h.heard
  have hnone : dropped = [] := by
    by_contra hne
    exact hactions (h.removing.removed (hheard.removed hne))
  have htaken := hheard.taken
  rw [hnone, hidle, List.take_of_length_le (List.drop_eq_nil_iff.1 hqueue)] at htaken
  rw [hheard.delivered, hnone, htaken]
  simp [Listening.held]

/-- What a listener can count on, however the steps of the worker, of its own task and of removals fall.
It is handed the first snapshots that were sent, in order and each once, then at most one error, and then
nothing. At most one error is ever sent, and only one for which the worker closed the watch before any
removal did. Without removals a listener's task that has nothing left has handed over everything. -/
theorem Run.snapshots_then_error (h : (initial w).Run actions s) :
    (∃ snaps es, s.delivered = snaps.map Event.snapshot ++ es.map Event.error ∧
        snaps <+: s.snapshots ∧ es <+: s.errors ∧ es.length ≤ 1) ∧
      (∀ e, Event.error e ∈ s.delivered →
        ∀ more s', s.Run more s' → s'.delivered = s.delivered) ∧
      s.errors.length ≤ 1 ∧ (∀ e ∈ s.errors, ClosedFirst w e actions) ∧
      (.deactivate ∉ actions → s.listening = .idle → s.queue = [] → s.delivered = s.sent) := by
  obtain ⟨heq, hsnapshots, herrors⟩ := h.delivered_eq
  have hlength := h.reported.length_errors
  refine ⟨⟨_, _, heq, hsnapshots, herrors, Nat.le_trans herrors.length_le hlength⟩, ?_, hlength,
    h.closedFirst.2, h.delivered_eq_sent⟩
  intro e he more s' hmore
  exact h.delivered_eq_of_error he hmore

/-- A watch sends a snapshot, closes for a rejection, and its listener is handed both. -/
def rejected : List Action :=
  firstSnapshot "c/a" ++
    [.work, .response (.targetChange ⟨2, [1], none, [], none⟩), .work, .work, .work, .take, .check, .hand,
      .take, .check, .hand]

theorem snapshots_then_error_rejected :
    ∃ s, ∃ snaps : List Snapshot, ∃ es : List WatchError, (watchOf "c/a").Run rejected s ∧
    s.delivered = snaps.map Event.snapshot ++ es.map Event.error ∧ s.delivered.length = 2 ∧
    es.length ≤ 1 ∧ s.delivered = s.sent := by
  have hrun : ((watchOf "c/a").run? (fun low _ => low) rejected).map
      (fun s => (s.delivered.length, s.queue.isEmpty, s.listening.held.isEmpty)) =
        some (2, true, true) := by
    decide +kernel
  obtain ⟨s, hs, hchecked⟩ := Option.map_eq_some_iff.1 hrun
  simp only [Prod.mk.injEq, List.isEmpty_iff] at hchecked
  obtain ⟨hlength, hqueue, hheld⟩ := hchecked
  have hidle : s.listening = .idle := by
    cases hlistening : s.listening with
    | idle => rfl
    | holding | handing => rw [hlistening] at hheld; cases hheld
  obtain ⟨⟨snaps, es, hdelivered, -, -, hes⟩, -, -, -, hall⟩ := (Run.of_run? hs).snapshots_then_error
  have hnotRemoved : Action.deactivate ∉ rejected := by simp [rejected, firstSnapshot]
  exact ⟨s, snaps, es, .of_run? hs, hdelivered, hlength, hes, hall hnotRemoved hidle hqueue⟩

end Session

end LiveQuery
