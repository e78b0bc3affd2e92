import LiveQuery.Proofs.Worker

namespace LiveQuery

/-- Whether the worker has closed the watch and is about to say why. -/
def Phase.isReporting : Phase → Bool
  | .reporting _ => true
  | _ => false

/-- The phase in which the worker goes on after an input. -/
def Verdict.phase : Verdict → Phase
  | .stay => .settling
  | .reconnect => .restarting
  | .close error => .closing error
  | .overflow => .stopped

theorem Verdict.phase_eq_closing_iff {verdict : Verdict} {error : WatchError} :
    verdict.phase = .closing error ↔ verdict = .close error := by
  cases verdict <;> simp [phase]

namespace Shared

variable {shared : Shared} {next : Lifecycle}

theorem removed_transition (shared : Shared) (next : Lifecycle) :
    (shared.transition next).2.removed = shared.removed := by
  unfold transition
  split <;> rfl

theorem state_transition_of_closed (h : shared.state = .closed) (next : Lifecycle) :
    (shared.transition next).2.state = .closed := by
  unfold transition
  rw [if_pos h]
  exact h

theorem state_transition_ne_idle (h : shared.state ≠ .idle) (hnext : next ≠ .idle) :
    (shared.transition next).2.state ≠ .idle := by
  unfold transition
  split
  · exact h
  · exact hnext

end Shared

namespace Session

variable {draw : Binary64 → Binary64 → Binary64} {s s' : Session} {a : Action}

theorem isReading_iff : s.isReading = true ↔
    s.phase = .ready ∧ s.shared.removed = false ∧ s.worker.stream.isSome = true := by
  simp [isReading, isWaiting, and_assoc]

theorem isAwaiting_iff : s.isAwaiting = true ↔
    (∃ request, s.phase = .connecting request) ∧ s.shared.removed = false ∧ s.worker.hasQueue = true := by
  unfold isAwaiting
  split
  · next request hphase => simp [hphase]
  · next hphase =>
    simp only [Bool.false_eq_true, false_iff]
    rintro ⟨⟨request, hrequest⟩, -⟩
    exact hphase request hrequest

/-- The answer to an input changes neither the watch's shared state nor the listener's side, and is no
report. -/
theorem absorb_eq (s : Session) (r : Reaction) : ∃ worker phase, phase.isReporting = false ∧
    s.absorb r =
      { s with worker, phase, sent := s.sent ++ (r.snapshot.map Event.snapshot).toList } := by
  unfold absorb
  cases r.verdict with
  | stay | reconnect | close | overflow => exact ⟨_, _, rfl, rfl⟩

theorem phase_absorb (s : Session) (r : Reaction) : (s.absorb r).phase = r.verdict.phase := by
  unfold absorb
  cases r.verdict <;> rfl

/-- Whether the worker can take the action in as a reply that it has to react to. -/
def accepts (s : Session) : Action → Bool
  | .refused _ => s.isAwaiting
  | .response _ | .failure _ | .completion => s.isReading
  | _ => false

theorem phase_of_accepts (h : s.accepts a = true) :
    s.phase = .ready ∨ ∃ request, s.phase = .connecting request := by
  cases a with
  | refused => exact Or.inr (isAwaiting_iff.1 h).1
  | response | failure | completion => exact Or.inl (isReading_iff.1 h).1
  | start | deactivate | cancel | work | elapse | connected | take | check | hand => cases h

/-- What a step can do, case by case. -/
inductive Step (draw : Binary64 → Binary64 → Binary64) (s : Session) : Action → Session → Prop
  | start : s.shared.state = .idle → Step draw s .start
      { s with shared := { s.shared with state := .connecting }, phase := .launching }
  /-- A watch starts only once. -/
  | refuse : s.shared.state ≠ .idle → Step draw s .start s
  | deactivate : s.phase ≠ .unborn → Step draw s .deactivate
      { s with shared := { s.shared with state := .closed }, cancelling := s.cancelling + 1 }
  | cancel : s.cancelling ≠ 0 → Step draw s .cancel
      { s with
        shared := s.shared.cancel
        cancelling := s.cancelling - 1
        removals := s.removals + 1 }
  | launch : s.phase = .launching → Step draw s .work
      { s with phase := .ready, worker := s.worker.schedule draw }
  | leave : s.phase = .ready → s.shared.removed = true → Step draw s .work s.stop
  /-- A removal ends the attempt to connect. -/
  | forgo {request : ListenRequest} : s.phase = .connecting request → s.shared.removed = true →
      Step draw s .work { s with phase := .settling }
  | breakDown {request : ListenRequest} : s.phase = .connecting request → s.shared.removed = false →
      s.worker.hasQueue = false → Step draw s .work s.stop
  | stream : s.phase = .opened → Step draw s .work
      { s with phase := .settling, shared := (s.shared.transition .streaming).2 }
  | reconnect : s.phase = .restarting → Step draw s .work
      { s with
        phase := .settling
        shared := (s.shared.transition .reconnecting).2
        worker :=
          if (s.shared.transition .reconnecting).1 then s.worker.schedule draw else s.worker }
  /-- The worker closes an active watch. -/
  | close {error : WatchError} : s.phase = .closing error → s.shared.state.isActive = true →
      Step draw s .work
        { s with shared := { s.shared with state := .closed }, phase := .reporting error }
  /-- The watch was closed before the worker could. -/
  | concede {error : WatchError} : s.phase = .closing error → s.shared.state.isActive = false →
      Step draw s .work { s with shared := { s.shared with state := .closed }, phase := .settling }
  | report {error : WatchError} : s.phase = .reporting error →
      Step draw s .work { s with phase := .settling, sent := s.sent ++ [.error error] }
  | finish : s.phase = .settling → s.shared.state = .closed → Step draw s .work s.stop
  | resume : s.phase = .settling → s.shared.state ≠ .closed →
      Step draw s .work { s with phase := .ready }
  | elapse : s.phase = .ready → s.shared.removed = false → s.worker.timer.isSome = true →
      Step draw s .elapse
        { s with worker := s.worker.beginConnect, phase := .connecting s.worker.beginConnect.request }
  | connected {stream : Nat} : s.isAwaiting = true → Step draw s (.connected stream)
      { s with phase := .opened, worker := { s.worker with stream := some stream } }
  | absorb {a : Action} : s.accepts a = true → Step draw s a (s.absorb (s.worker.receive a))
  | take {event : Event} {rest : List Event} : s.listening = .idle → s.queue = event :: rest →
      Step draw s .take { s with taken := s.taken + 1, listening := .holding event }
  | drop {event : Event} : s.listening = .holding event → event.isSnapshot = true →
      s.shared.removed = true → Step draw s .check { s with listening := .idle }
  | pass {event : Event} : s.listening = .holding event →
      (event.isSnapshot = true → s.shared.removed = false) →
      Step draw s .check { s with listening := .handing event }
  | hand {event : Event} : s.listening = .handing event → Step draw s .hand
      { s with listening := .idle, delivered := s.delivered ++ [event] }

theorem Step.of_work? (h : s.work? draw = some s') : Step draw s .work s' := by
  unfold work? at h
  cases hphase : s.phase with
  | unborn | stopped => simp [hphase] at h
  | launching =>
    simp only [hphase, Option.some.injEq] at h
    subst h
    exact .launch hphase
  | ready =>
    simp only [hphase] at h
    split at h <;> cases h
    next hremoved => exact .leave hphase hremoved
  | connecting request =>
    simp only [hphase] at h
    split at h
    · next hremoved =>
      cases h
      exact .forgo hphase hremoved
    · next hremoved =>
      split at h <;> cases h
      next hqueue => exact .breakDown hphase (by simpa using hremoved) (by simpa using hqueue)
  | opened =>
    simp only [hphase, Option.some.injEq] at h
    subst h
    exact .stream hphase
  | restarting =>
    simp only [hphase, Option.some.injEq] at h
    subst h
    exact .reconnect hphase
  | closing error =>
    simp only [hphase, Option.some.injEq] at h
    subst h
    cases hactive : s.shared.state.isActive with
    | true =>
      simp only [Shared.deactivate, hactive, if_true]
      exact .close hphase hactive
    | false =>
      simp only [Shared.deactivate, hactive]
      exact .concede hphase hactive
  | reporting error =>
    simp only [hphase, Option.some.injEq] at h
    subst h
    exact .report hphase
  | settling =>
    simp only [hphase, Option.some.injEq] at h
    subst h
    split
    · next hclosed => exact .finish hphase hclosed
    · next hopen => exact .resume hphase hopen

theorem Step.of_start (h : s.step? draw .start = some s') : Step draw s .start s' := by
  cases h
  unfold Session.start Shared.activate
  by_cases hidle : s.shared.state = .idle
  · rw [if_pos hidle]
    exact .start hidle
  · rw [if_neg hidle]
    exact .refuse hidle

theorem Step.of_step? (h : s.step? draw a = some s') : Step draw s a s' := by
  cases a with
  | start => exact .of_start h
  | work => exact .of_work? h
  | deactivate =>
    simp only [step?] at h
    split at h <;> cases h
    next hphase => exact .deactivate hphase
  | cancel =>
    simp only [step?] at h
    split at h <;> cases h
    next hcancelling => exact .cancel hcancelling
  | elapse =>
    simp only [step?] at h
    split at h <;> cases h
    next hcond =>
    unfold isWaiting at hcond
    simp only [Bool.and_eq_true, decide_eq_true_eq, Bool.not_eq_true'] at hcond
    exact .elapse hcond.1.1 hcond.1.2 hcond.2
  | connected stream =>
    simp only [step?] at h
    split at h <;> cases h
    next hawaiting => exact .connected hawaiting
  | refused error | response response | failure error =>
    simp only [step?] at h
    split at h <;> cases h
    next haccepts => exact .absorb haccepts
  | completion =>
    simp only [step?] at h
    split at h <;> cases h
    next haccepts => exact .absorb haccepts
  | take =>
    simp only [step?] at h
    split at h <;> cases h
    next hidle hqueue => exact .take hidle hqueue
  | check =>
    simp only [step?] at h
    split at h
    · next event hholding =>
      split at h <;> cases h
      · next hcond =>
        rw [Bool.and_eq_true] at hcond
        exact .drop hholding hcond.1 hcond.2
      · next hcond =>
        refine .pass hholding fun hsnapshot => ?_
        simpa [hsnapshot] using hcond
    · cases h
  | hand =>
    simp only [step?] at h
    split at h <;> cases h
    next hhanding => exact .hand hhanding

theorem Step.step? (h : Step draw s a s') : s.step? draw a = some s' := by
  cases h with
  | start hidle => simp [Session.step?, Session.start, Shared.activate, hidle, Except.toOption]
  | refuse hidle => simp [Session.step?, Session.start, Shared.activate, hidle, Except.toOption]
  | deactivate hphase => exact if_neg hphase
  | cancel hcancelling => exact if_neg hcancelling
  | launch hphase => simp only [Session.step?, work?, hphase]
  | leave hphase hremoved => simp only [Session.step?, work?, hphase, hremoved, if_true]
  | forgo hphase hremoved => simp only [Session.step?, work?, hphase, hremoved, if_true]
  | breakDown hphase hremoved hqueue => simp [Session.step?, work?, hphase, hremoved, hqueue]
  | stream hphase => simp only [Session.step?, work?, hphase]
  | reconnect hphase => simp only [Session.step?, work?, hphase]
  | close hphase hactive => simp only [Session.step?, work?, hphase, Shared.deactivate, hactive, if_true]
  | concede hphase hactive => simp [Session.step?, work?, hphase, Shared.deactivate, hactive]
  | report hphase => simp only [Session.step?, work?, hphase]
  | finish hphase hclosed => simp only [Session.step?, work?, hphase, hclosed, if_true]
  | resume hphase hopen => simp only [Session.step?, work?, hphase, if_neg hopen]
  | elapse hphase hremoved htimer => simp [Session.step?, isWaiting, hphase, hremoved, htimer]
  | connected hawaiting => exact if_pos hawaiting
  | absorb haccepts =>
    cases a with
    | refused | response | failure | completion => exact if_pos haccepts
    | start | deactivate | cancel | work | elapse | connected | take | check | hand => cases haccepts
  | take hidle hqueue => simp only [Session.step?, hidle, hqueue]
  | drop hholding hsnapshot hremoved =>
    simp only [Session.step?, hholding, hsnapshot, hremoved, Bool.and_self, if_true]
  | @pass event hholding hnot =>
    have hcond : (event.isSnapshot && s.shared.removed) = false := by
      cases hsnapshot : event.isSnapshot with
      | true => rw [hnot hsnapshot, Bool.and_false]
      | false => rfl
    simp [Session.step?, hholding, hcond]
  | hand hhanding => simp only [Session.step?, hhanding]

/-- The cases are all there is to a step. -/
theorem step?_eq_some_iff : s.step? draw a = some s' ↔ Step draw s a s' := ⟨.of_step?, Step.step?⟩

end Session

end LiveQuery
