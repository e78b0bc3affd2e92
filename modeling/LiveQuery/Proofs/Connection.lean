import LiveQuery.Proofs.Run

namespace LiveQuery

namespace Action

/-- Whether the action is what comes of a stream or of the attempt to open one. -/
def isReply : Action → Bool
  | .connected _ | .refused _ | .response _ | .failure _ | .completion => true
  | _ => false

def isFilter : Action → Bool
  | .response (.filter _) => true
  | _ => false

end Action

namespace Worker

variable {w : Worker} {a : Action}

theorem timer_confirmProgress (w : Worker) (change : TargetChange) :
    (w.confirmProgress change).timer = w.timer := by
  unfold confirmProgress
  split <;> rfl

theorem timer_onStreamError (h : w.timer = none) (e : StreamError) :
    (w.onStreamError e).worker.timer = none := by
  rcases onStreamError_cases w e with heq | ⟨backoff, heq⟩
  · rw [heq]
    rfl
  · rw [heq]
    exact h

theorem timer_onTargetChange (h : w.timer = none) (change : TargetChange) :
    (w.onTargetChange change).worker.timer = none := by
  rcases onTargetChange_cases w change with ⟨error, heq⟩ | ⟨w', snapshot, heq, hcases⟩
  · rw [heq]
    rfl
  · rw [heq]
    simp only [timer_confirmProgress]
    rcases hcases with ⟨-, rfl | rfl | rfl⟩ | ⟨readTime, -, hm⟩
    · exact h
    · exact h
    · exact h
    · have hw' : w' = (w.materialize readTime change.resumeToken).1 := congrArg Prod.fst hm
      rw [hw']
      exact h

/-- Only the session sets the timer. -/
theorem timer_receive (h : w.timer = none) (a : Action) : (w.receive a).worker.timer = none := by
  cases a with
  | elapse => rfl
  | refused e | failure e => exact timer_onStreamError h e
  | completion => exact timer_onStreamError h _
  | response response =>
    cases response with
    | unset => rfl
    | documentDelete | documentRemove => exact h
    | targetChange change => exact timer_onTargetChange h change
    | documentChange change =>
      change (w.onDocumentChange change).worker.timer = none
      rcases onDocumentChange_cases w change with heq | ⟨error, heq⟩ | ⟨d, -, heq | heq⟩ <;> rw [heq]
      · exact h
      · rfl
      · exact h
      · exact h
    | filter filter =>
      change (w.onFilter filter).worker.timer = none
      rcases onFilter_cases w filter with heq | heq | ⟨count, mismatch, ⟨error, heq⟩ | heq⟩ <;> rw [heq]
      · exact h
      · exact h
      · rfl
      · exact h
  | connected | start | deactivate | cancel | work | take | check | hand => exact h

/-- What is pending between two streams: nothing, or the deletion of every document held, if it was a
filter that ended the stream before. -/
structure Cleared (w : Worker) (filtered : Bool) : Prop where
  pending : w.pending =
    if filtered then w.documents.paths.foldl PendingChanges.tombstone .empty else .empty
  resumeToken : filtered = true → w.resumeToken = none

theorem cleared_onStreamError {e : StreamError} (h : (w.onStreamError e).verdict = .reconnect) :
    (w.onStreamError e).worker.stream = none ∧ (w.onStreamError e).worker.Cleared false := by
  rcases onStreamError_cases w e with heq | ⟨backoff, heq⟩
  · rw [heq] at h
    cases h
  · rw [heq]
    exact ⟨rfl, rfl, nofun⟩

theorem cleared_onFilter {filter : ExistenceFilter} (h : (w.onFilter filter).verdict = .reconnect) :
    (w.onFilter filter).worker.stream = none ∧ (w.onFilter filter).worker.Cleared true := by
  rcases onFilter_cases w filter with heq | heq | ⟨count, mismatch, ⟨error, heq⟩ | heq⟩
  · rw [heq] at h
    cases h
  · rw [heq] at h
    cases h
  · rw [heq] at h
    cases h
  · rw [heq]
    exact ⟨rfl, rfl, fun _ => rfl⟩

/-- A stream is given up for a failure, or for a filter that disagrees. -/
theorem cleared_receive (h : (w.receive a).verdict = .reconnect) :
    (w.receive a).worker.stream = none ∧ (w.receive a).worker.Cleared a.isFilter := by
  cases a with
  | refused e | failure e => exact cleared_onStreamError h
  | completion => exact cleared_onStreamError h
  | response response =>
    cases response with
    | unset | documentDelete | documentRemove => cases h
    | targetChange change =>
      change (w.onTargetChange change).verdict = .reconnect at h
      rcases onTargetChange_cases w change with ⟨error, heq⟩ | ⟨w', snapshot, heq, -⟩ <;>
        rw [heq] at h <;> cases h
    | documentChange change =>
      change (w.onDocumentChange change).verdict = .reconnect at h
      rcases onDocumentChange_cases w change with heq | ⟨error, heq⟩ | ⟨d, -, heq | heq⟩ <;>
        rw [heq] at h <;> cases h
    | filter filter => exact cleared_onFilter h
  | elapse | connected | start | deactivate | cancel | work | take | check | hand => cases h

theorem Cleared.congr {w' : Worker} {filtered : Bool} (h : w.Cleared filtered)
    (heq : w'.detached = w.detached) : w'.Cleared filtered := by
  obtain ⟨hdocs, hpending, htoken, -⟩ := known_of_detached_eq heq
  refine ⟨?_, ?_⟩
  · rw [hdocs, hpending]
    exact h.pending
  · rw [htoken]
    exact h.resumeToken

theorem Cleared.receive {filtered : Bool} (h : w.Cleared filtered) (ha : a.isReply = false) :
    (w.receive a).worker.Cleared filtered := by
  cases a with
  | elapse => exact ⟨h.pending, h.resumeToken⟩
  | connected | refused | response | failure | completion => cases ha
  | start | deactivate | cancel | work | take | check | hand => exact h

end Worker

/-- Whether the phase is one between two streams. -/
def Phase.isOffline : Phase → Bool
  | .unborn | .launching | .connecting _ | .restarting => true
  | .ready | .opened | .closing _ | .reporting _ | .settling | .stopped => false

namespace Session

variable {draw : Binary64 → Binary64 → Binary64} {s s' : Session} {a : Action} {actions : List Action}
  {w : Worker} {request : ListenRequest}

/-- Whether the worker is between two streams. -/
def IsOffline (s : Session) : Prop := s.phase.isOffline = true ∨ s.worker.timer.isSome = true

/-- How the worker's connection goes with its phase. -/
structure Linked (s : Session) : Prop where
  unborn : s.shared.state = .idle → s.phase = .unborn
  connecting : ∀ request, s.phase = .connecting request →
    s.worker.timer = none ∧ request = s.worker.request
  offline : s.IsOffline → s.worker.stream = none

theorem linked_initial (hstream : w.stream = none) : (initial w).Linked where
  unborn _ := rfl
  connecting _ h := nomatch h
  offline _ := hstream

theorem state_ne_idle_of_phase (h : s.Linked) (hphase : s.phase ≠ .unborn) :
    s.shared.state ≠ .idle := fun hstate => hphase (h.unborn hstate)

theorem linked_absorb {r : Reaction} (hstate : s.shared.state ≠ .idle) (htimer : r.worker.timer = none)
    (hstream : r.verdict = .reconnect → r.worker.stream = none) :
    (s.absorb r).Linked ∧ ((s.absorb r).IsOffline → r.verdict = .reconnect) := by
  have hoff : (s.absorb r).IsOffline → r.verdict = .reconnect := by
    unfold absorb IsOffline
    cases r.verdict <;> simp [Phase.isOffline, stop, htimer]
  refine ⟨⟨?_, ?_, ?_⟩, hoff⟩
  · intro hidle
    apply absurd _ hstate
    unfold absorb at hidle
    cases hv : r.verdict <;> rw [hv] at hidle <;> exact hidle
  · intro request hphase
    unfold absorb at hphase
    cases hv : r.verdict <;> rw [hv] at hphase <;> cases hphase
  · intro h
    have hv := hoff h
    unfold absorb
    rw [hv]
    exact hstream hv

/-- A step to a phase with a stream, or without hope of one. -/
theorem Linked.onward (h : s.Linked) (hphase : s'.phase.isOffline = false)
    (hstate : s'.shared.state ≠ .idle)
    (hstream : s'.worker.stream = s.worker.stream ∨ s'.worker.stream = none)
    (htimer : s'.worker.timer.isSome = true → s.IsOffline) :
    s'.Linked ∧ (s'.IsOffline → s.IsOffline) := by
  have hoff : s'.IsOffline → s.IsOffline := by
    rintro (hoffline | hsome)
    · rw [hphase] at hoffline
      cases hoffline
    · exact htimer hsome
  refine ⟨⟨fun hidle => absurd hidle hstate, ?_, ?_⟩, hoff⟩
  · intro request hconnecting
    rw [hconnecting] at hphase
    cases hphase
  · intro hoffline
    rcases hstream with hsame | hnone
    · rw [hsame]
      exact h.offline (hoff hoffline)
    · exact hnone

/-- A step that leaves the worker and its phase alone. -/
theorem Linked.aside (h : s.Linked) (hworker : s'.worker = s.worker) (hphase : s'.phase = s.phase)
    (hstate : s'.shared.state = .idle → s.shared.state = .idle) :
    s'.Linked ∧ (s'.IsOffline → s.IsOffline) := by
  have hoff : s'.IsOffline → s.IsOffline := by
    unfold IsOffline
    rw [hworker, hphase]
    exact id
  refine ⟨⟨?_, ?_, ?_⟩, hoff⟩
  · rw [hphase]
    exact fun hidle => h.unborn (hstate hidle)
  · rw [hphase, hworker]
    exact h.connecting
  · rw [hworker]
    exact fun hoffline => h.offline (hoff hoffline)

theorem Linked.awaiting (h : s.Linked) (hawaiting : s.isAwaiting = true) :
    s.worker.timer = none ∧ s.shared.state ≠ .idle := by
  obtain ⟨⟨request, hphase⟩, -⟩ := isAwaiting_iff.1 hawaiting
  exact ⟨(h.connecting request hphase).1, state_ne_idle_of_phase h (by simp [hphase])⟩

theorem isReply_of_accepts (haccepts : s.accepts a = true) : a.isReply = true := by
  cases a with
  | refused | response | failure | completion => rfl
  | start | deactivate | cancel | work | elapse | connected | take | check | hand => cases haccepts

/-- A worker that can react to a reply is connected, or waits for nothing but the connection. -/
theorem Linked.accepts (h : s.Linked) (haccepts : s.accepts a = true) :
    s.worker.timer = none ∧ s.shared.state ≠ .idle := by
  have hreading (hreading : s.isReading = true) : s.worker.timer = none ∧ s.shared.state ≠ .idle := by
    obtain ⟨hready, -, hstream⟩ := isReading_iff.1 hreading
    refine ⟨?_, state_ne_idle_of_phase h (by simp [hready])⟩
    cases htimer : s.worker.timer with
    | none => rfl
    | some delay =>
      have hnone : s.worker.stream = none := h.offline (Or.inr (by rw [htimer]; rfl))
      rw [hnone] at hstream
      cases hstream
  cases a with
  | refused error => exact h.awaiting haccepts
  | response | failure | completion => exact hreading haccepts
  | start | deactivate | cancel | work | elapse | connected | take | check | hand => cases haccepts

/-- A step keeps the connection in order. It takes the worker between two streams only by a reply that
gives up the stream. -/
theorem linked_step? (h : s.Linked) (hstep : s.step? draw a = some s') :
    s'.Linked ∧ (s'.IsOffline →
      if a.isReply then (s.worker.receive a).verdict = .reconnect else s.IsOffline) := by
  have hstate (hphase : s.phase ≠ .unborn) : s.shared.state ≠ .idle := state_ne_idle_of_phase h hphase
  have hstop (hphase : s.phase ≠ .unborn) : s.stop.Linked ∧ (s.stop.IsOffline → s.IsOffline) :=
    h.onward rfl (hstate hphase) (Or.inr rfl) nofun
  cases Step.of_step? hstep with
  | start hidle =>
    -- only a watch that was never started is idle
    have hoff : s.IsOffline := Or.inl (by rw [h.unborn hidle]; rfl)
    exact ⟨⟨nofun, nofun, fun _ => h.offline hoff⟩, fun _ => hoff⟩
  | refuse => exact ⟨h, id⟩
  | deactivate => exact h.aside rfl rfl nofun
  | cancel => exact h.aside rfl rfl id
  | launch hphase =>
    exact h.onward rfl (hstate (by simp [hphase])) (Or.inl rfl) fun _ => Or.inl (by rw [hphase]; rfl)
  | leave hphase => exact hstop (by simp [hphase])
  | forgo hphase => exact h.onward rfl (hstate (by simp [hphase])) (Or.inl rfl) Or.inr
  | breakDown hphase => exact hstop (by simp [hphase])
  | stream hphase =>
    exact h.onward rfl (Shared.state_transition_ne_idle (hstate (by simp [hphase])) nofun) (Or.inl rfl) Or.inr
  | reconnect hphase =>
    refine h.onward rfl (Shared.state_transition_ne_idle (hstate (by simp [hphase])) nofun) (Or.inl ?_)
      fun _ => Or.inl (by rw [hphase]; rfl)
    cases (s.shared.transition .reconnecting).1 <;> rfl
  | close | concede => exact h.onward rfl nofun (Or.inl rfl) Or.inr
  | report hphase => exact h.onward rfl (hstate (by simp [hphase])) (Or.inl rfl) Or.inr
  | finish hphase => exact hstop (by simp [hphase])
  | resume hphase => exact h.onward rfl (hstate (by simp [hphase])) (Or.inl rfl) Or.inr
  | elapse hready _ htimer =>
    -- the timer is only set between two streams
    have hoff : s.IsOffline := Or.inr htimer
    have hidle := hstate (by simp [hready])
    refine ⟨⟨fun hnot => absurd hnot hidle, ?_, fun _ => h.offline hoff⟩, fun _ => hoff⟩
    rintro request ⟨rfl⟩
    exact ⟨rfl, rfl⟩
  | @connected stream hawaiting =>
    obtain ⟨htimer, hidle⟩ := h.awaiting hawaiting
    have hnot : ¬ IsOffline { s with
        phase := .opened, worker := { s.worker with stream := some stream } } := by
      simp [IsOffline, Phase.isOffline, htimer]
    exact ⟨⟨fun hnot => absurd hnot hidle, nofun, fun hoff => absurd hoff hnot⟩,
      fun hoff => absurd hoff hnot⟩
  | absorb haccepts =>
    obtain ⟨htimer, hidle⟩ := h.accepts haccepts
    obtain ⟨hlinked, hoff⟩ := linked_absorb hidle (Worker.timer_receive htimer a)
      fun hverdict => (Worker.cleared_receive hverdict).1
    rw [if_pos (isReply_of_accepts haccepts)]
    exact ⟨hlinked, hoff⟩
  | take | drop | pass | hand => exact h.aside rfl rfl id

theorem Run.linked (hstream : w.stream = none) (h : (initial w).Run actions s) : s.Linked := by
  induction h with
  | nil => exact linked_initial hstream
  | snoc _ hstep ih => exact (linked_step? ih hstep).1

/-- Whether the last reply before the current attempt to connect was an existence filter. -/
def afterFilter (actions : List Action) : Bool :=
  ((actions.filter Action.isReply).getLast?.map Action.isFilter).getD false

theorem afterFilter_snoc (actions : List Action) (a : Action) :
    afterFilter (actions ++ [a]) = if a.isReply then a.isFilter else afterFilter actions := by
  unfold afterFilter
  rw [List.filter_append]
  cases hreply : a.isReply <;> simp [hreply]

/-- Between two streams nothing is pending, or only what a disagreeing filter left. -/
theorem Run.cleared (hstream : w.stream = none) (hpending : w.pending = .empty)
    (h : (initial w).Run actions s) (hoff : s.IsOffline) : s.worker.Cleared (afterFilter actions) := by
  induction h with
  | nil => exact ⟨hpending, nofun⟩
  | @snoc actions s a s' draw hrun hstep ih =>
    -- the reply that gave up the stream is the last, or there was none since the step before
    have hcome := (linked_step? (hrun.linked hstream) hstep).2 hoff
    have hworker := (step?_worker hstep).1
    rw [afterFilter_snoc]
    cases hreply : a.isReply with
    | true =>
      rw [hreply] at hcome
      exact (Worker.cleared_receive hcome).2.congr hworker
    | false =>
      rw [hreply] at hcome
      exact ((ih hcome).receive hreply).congr hworker

end Session

end LiveQuery
