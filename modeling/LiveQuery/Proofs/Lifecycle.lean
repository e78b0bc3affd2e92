import LiveQuery.Proofs.Closing
import LiveQuery.Proofs.Resumption

namespace LiveQuery

namespace Phase

/-- How many steps the worker of a closed watch still takes from a phase, at most. -/
def rank : Phase → Nat
  | .unborn | .stopped => 0
  | .settling => 1
  | .reporting _ => 2
  | .opened | .restarting | .closing _ => 3
  | .connecting _ => 4
  | .ready => 5
  | .launching => 6

/-- How many inputs the worker of a closed watch still takes in from a phase, at most. In the middle of one
it takes no other. -/
def turns : Phase → Nat
  | .launching | .ready => 1
  | .unborn | .connecting _ | .opened | .restarting | .closing _ | .reporting _ | .settling | .stopped => 0

end Phase

namespace Action

/-- Whether the action is a step of the worker. -/
def isWork : Action → Bool
  | .work | .elapse | .connected _ | .refused _ | .response _ | .failure _ | .completion => true
  | .start | .deactivate | .cancel | .take | .check | .hand => false

/-- Whether the action is an input that the worker waited for: of its timer or its stream. -/
def isTurn : Action → Bool
  | .elapse | .response _ | .failure _ | .completion => true
  | .start | .deactivate | .cancel | .work | .connected _ | .refused _ | .take | .check | .hand => false

end Action

theorem Verdict.rank_phase_le (verdict : Verdict) : verdict.phase.rank ≤ 3 ∧ verdict.phase.turns = 0 := by
  cases verdict <;> simp [phase, Phase.rank, Phase.turns]

theorem Shared.transition_eq {shared : Shared} {next : Lifecycle}
    (h : (shared.transition next).2.state ≠ .closed) :
    shared.transition next = (true, { shared with state := next }) := by
  unfold transition at h ⊢
  split at h
  · next hclosed => exact absurd hclosed h
  · next hopen => rw [if_neg hopen]

namespace Worker

theorem verdict_onStreamError_ne_stay (w : Worker) (e : StreamError) :
    (w.onStreamError e).verdict ≠ .stay := by
  rcases onStreamError_cases w e with heq | ⟨backoff, heq⟩ <;> rw [heq] <;> nofun

end Worker

namespace Session

variable {draw : Binary64 → Binary64 → Binary64} {s s' : Session} {a : Action}
  {actions more : List Action} {w : Worker} {target : ListenTarget} {order : DocumentOrder}
  {settings : ListenSettings} {policy : BackoffPolicy}

/-- The watch waits for its timer. -/
structure IsScheduled (s : Session) : Prop where
  state : s.shared.state = .connecting ∨ s.shared.state = .reconnecting
  timer : s.worker.timer.isSome = true
  stream : s.worker.stream = none

/-- The watch reads its stream. -/
structure IsStreaming (s : Session) : Prop where
  state : s.shared.state = .streaming
  stream : s.worker.stream.isSome = true
  timer : s.worker.timer = none

/-- How the worker's phase goes with the state that the watch shows. -/
def Coherent (s : Session) : Prop :=
  match s.phase with
  | .unborn => s.shared.state = .idle
  | .launching => s.shared.state ≠ .closed → s.shared.state = .connecting
  | .ready | .settling => s.shared.state ≠ .closed → s.IsScheduled ∨ s.IsStreaming
  | .opened => s.worker.stream.isSome = true ∧ s.worker.timer = none
  | .connecting _ | .restarting | .closing _ | .reporting _ | .stopped => True

theorem Coherent.congr (h : s.Coherent) (hphase : s'.phase = s.phase) (hworker : s'.worker = s.worker)
    (hstate : s'.shared.state = s.shared.state) : s'.Coherent := by
  have hscheduled (h : s.IsScheduled) : s'.IsScheduled :=
    ⟨hstate ▸ h.state, hworker ▸ h.timer, hworker ▸ h.stream⟩
  have hstreaming (h : s.IsStreaming) : s'.IsStreaming :=
    ⟨hstate ▸ h.state, hworker ▸ h.stream, hworker ▸ h.timer⟩
  unfold Coherent at h ⊢
  rw [hphase, hstate, hworker]
  split at h
  case h_3 | h_4 => exact fun hopen => (h hopen).imp hscheduled hstreaming
  all_goals exact h

theorem Coherent.isStreaming (h : s.Coherent) (hreading : s.isReading = true)
    (hopen : s.shared.state ≠ .closed) : s.IsStreaming := by
  obtain ⟨hphase, -, hstream⟩ := isReading_iff.1 hreading
  simp only [Coherent, hphase] at h
  rcases h hopen with hscheduled | hstreaming
  · rw [hscheduled.stream] at hstream
    cases hstream
  · exact hstreaming

/-- A worker that takes in a response and stays goes on reading. -/
theorem Coherent.absorb (h : s.Coherent) (haccepts : s.accepts a = true) :
    (s.absorb (s.worker.receive a)).Coherent := by
  unfold Session.absorb
  cases hverdict : (s.worker.receive a).verdict with
  | reconnect | close | overflow => trivial
  | stay =>
    intro hopen
    cases a with
    | response response =>
      have hstreaming := h.isStreaming haccepts hopen
      have hsame := Worker.stream_onResponse hverdict
      have htimer := Worker.timer_receive hstreaming.timer (.response response)
      exact Or.inr ⟨hstreaming.state, hsame ▸ hstreaming.stream, htimer⟩
    | refused error | failure error => exact absurd hverdict (Worker.verdict_onStreamError_ne_stay _ error)
    | completion => exact absurd hverdict (Worker.verdict_onStreamError_ne_stay _ _)
    | start | deactivate | cancel | work | elapse | connected | take | check | hand => cases haccepts

/-- A step of the worker leaves it with something to wait for, unless it finds the watch closed. -/
theorem coherent_step? (h : s.Coherent) (hlinked : s.Linked)
    (hremoved : s.shared.removed = true → s.shared.state = .closed)
    (hreporting : s.phase.isReporting = true → s.shared.state = .closed)
    (hstep : s.step? draw a = some s') : s'.Coherent := by
  have hoffline {phase : Phase} (hphase : s.phase = phase) (hoff : phase.isOffline = true) :
      s.worker.stream = none := hlinked.offline (Or.inl (hphase ▸ hoff))
  cases Step.of_step? hstep with
  | start => exact fun _ => rfl
  | refuse | cancel | take | drop | pass | hand => exact h.congr rfl rfl rfl
  | deactivate hphase =>
    unfold Coherent at h ⊢
    simp only
    split at h
    case h_1 => exact absurd ‹_› hphase
    case h_5 => exact h
    -- of the other phases nothing is said once the watch is closed
    all_goals simp
  | launch hphase =>
    simp only [Coherent, hphase] at h
    exact fun hopen => Or.inl ⟨Or.inl (h hopen), rfl, hoffline hphase rfl⟩
  | leave | breakDown | finish | close | elapse => trivial
  | forgo _ htrue => exact fun hopen => absurd (hremoved htrue) hopen
  | concede => exact fun hopen => absurd rfl hopen
  | report hphase => exact fun hopen => absurd (hreporting (by rw [hphase]; rfl)) hopen
  | stream hphase =>
    simp only [Coherent, hphase] at h
    intro hopen
    have hmoved := congrArg Prod.snd (Shared.transition_eq hopen)
    exact Or.inr ⟨congrArg Shared.state hmoved, h.1, h.2⟩
  | reconnect hphase =>
    intro hopen
    -- the watch was open before, so the worker has scheduled a connection
    have hmoved := Shared.transition_eq hopen
    rw [hmoved]
    exact Or.inl ⟨Or.inr rfl, rfl, hoffline hphase rfl⟩
  | resume hphase =>
    simp only [Coherent, hphase] at h
    exact fun hopen => (h hopen).imp (fun h => ⟨h.state, h.timer, h.stream⟩)
      fun h => ⟨h.state, h.stream, h.timer⟩
  | connected hawaiting => exact ⟨rfl, (hlinked.awaiting hawaiting).1⟩
  | absorb haccepts => exact h.absorb haccepts

theorem Run.coherent (hw : w.stream = none) (h : (initial w).Run actions s) : s.Coherent := by
  induction h with
  | nil => exact rfl
  | snoc hrun hstep ih =>
    have hremoving := hrun.removing
    exact coherent_step? ih (hrun.linked hw) (fun htrue => hremoving.closed (hremoving.removed htrue))
      hrun.reported.reporting hstep

theorem start_of_idle (h : s.shared.state = .idle) :
    ∃ s', s.start = .ok s' ∧ s'.phase = .launching ∧ s'.shared.state = .connecting := by
  unfold Session.start Shared.activate
  rw [if_pos h]
  exact ⟨_, rfl, rfl, rfl⟩

theorem start_of_ne_idle (h : s.shared.state ≠ .idle) : s.start = .error .alreadyStarted := by
  unfold Session.start Shared.activate
  rw [if_neg h]

/-- Only a start takes a watch out of its idle state, and nothing takes it back there. -/
theorem idle_step?_iff (h : s.Linked) (hstep : s.step? draw a = some s') :
    s'.shared.state = .idle ↔ s.shared.state = .idle ∧ a ≠ .start := by
  have hkept (hstate : s'.shared.state = s.shared.state) (ha : a ≠ .start) :
      s'.shared.state = .idle ↔ s.shared.state = .idle ∧ a ≠ .start := by
    rw [hstate]
    exact ⟨fun hidle => ⟨hidle, ha⟩, And.left⟩
  have hnever {phase : Phase} (hphase : s.phase = phase) (hborn : phase ≠ .unborn)
      (hstate : s.shared.state ≠ .idle → s'.shared.state ≠ .idle) :
      s'.shared.state = .idle ↔ s.shared.state = .idle ∧ a ≠ .start := by
    have hidle : s.shared.state ≠ .idle := state_ne_idle_of_phase h (hphase ▸ hborn)
    exact iff_of_false (hstate hidle) fun hboth => hidle hboth.1
  cases Step.of_step? hstep with
  | start => exact iff_of_false nofun fun hboth => hboth.2 rfl
  | refuse hidle => exact iff_of_false hidle fun hboth => hboth.2 rfl
  | deactivate hphase => exact hnever rfl hphase fun _ => nofun
  | stream hphase => exact hnever hphase nofun fun hidle => Shared.state_transition_ne_idle hidle nofun
  | reconnect hphase => exact hnever hphase nofun fun hidle => Shared.state_transition_ne_idle hidle nofun
  | close hphase | concede hphase => exact hnever hphase nofun fun _ => nofun
  | absorb haccepts =>
    obtain ⟨worker, phase, -, heq⟩ := absorb_eq s (s.worker.receive a)
    refine hkept (by rw [heq]) ?_
    rintro rfl
    cases haccepts
  | cancel | launch | leave | forgo | breakDown | report | finish | resume | elapse | connected | take
  | drop | pass | hand => exact hkept rfl nofun

theorem Run.idle_iff (hw : w.stream = none) (h : (initial w).Run actions s) :
    s.shared.state = .idle ↔ .start ∉ actions := by
  induction h with
  | nil => simp [initial, Shared.initial]
  | @snoc actions s a s' draw hrun hstep ih =>
    rw [idle_step?_iff (hrun.linked hw) hstep, ih, List.mem_append, List.mem_singleton, not_or]
    exact and_congr_right fun _ => not_congr eq_comm

theorem Run.state_eq_closed (h : s.Run more s') (hclosed : s.shared.state = .closed) :
    s'.shared.state = .closed := by
  induction h with
  | nil => exact hclosed
  | snoc _ hstep ih => exact closed_step? hstep (Or.inl ih)

/-- The watch is closed, and the worker is not about to say why. -/
structure IsOver (s : Session) : Prop where
  state : s.shared.state = .closed
  reporting : s.phase.isReporting = false

/-- Each step of the worker of a closed watch takes it nearer to its end, and each input that it takes in
is the last. -/
theorem rank_step? (hclosed : s.shared.state = .closed) (hstep : s.step? draw a = some s') :
    s'.phase.rank + (if a.isWork then 1 else 0) ≤ s.phase.rank ∧
      s'.phase.turns + (if a.isTurn then 1 else 0) ≤ s.phase.turns := by
  cases Step.of_step? hstep with
  | start hidle =>
    rw [hclosed] at hidle
    cases hidle
  | refuse | deactivate | cancel | take | drop | pass | hand => exact ⟨Nat.le_refl _, Nat.le_refl _⟩
  | close _ hactive =>
    rw [hclosed] at hactive
    cases hactive
  | resume _ hopen => exact absurd hclosed hopen
  | launch hphase | leave hphase | forgo hphase | breakDown hphase | stream hphase | reconnect hphase
  | concede hphase | report hphase | finish hphase | elapse hphase =>
    simp [hphase, Phase.rank, Phase.turns, Action.isWork, Action.isTurn, stop]
  | connected hawaiting =>
    obtain ⟨⟨request, hphase⟩, -⟩ := isAwaiting_iff.1 hawaiting
    simp [hphase, Phase.rank, Phase.turns, Action.isWork, Action.isTurn]
  | absorb haccepts =>
    obtain ⟨hrank, hturns⟩ := (s.worker.receive a).verdict.rank_phase_le
    rw [phase_absorb, hturns]
    -- a refusal belongs to the turn of the timer; the others are turns of their own
    cases a with
    | refused error =>
      obtain ⟨⟨request, hphase⟩, -⟩ := isAwaiting_iff.1 haccepts
      rw [hphase]
      exact ⟨Nat.add_le_add_right hrank 1, Nat.le_refl _⟩
    | response | failure | completion =>
      rw [(isReading_iff.1 haccepts).1]
      exact ⟨Nat.le_trans (Nat.add_le_add_right hrank 1) (by decide), Nat.le_refl _⟩
    | start | deactivate | cancel | work | elapse | connected | take | check | hand => cases haccepts

theorem Run.rank_le (h : s.Run more s') (hclosed : s.shared.state = .closed) :
    s'.phase.rank + more.countP Action.isWork ≤ s.phase.rank ∧
      s'.phase.turns + more.countP Action.isTurn ≤ s.phase.turns := by
  induction h with
  | nil => exact ⟨Nat.le_refl _, Nat.le_refl _⟩
  | @snoc more s' a s'' draw hrun hstep ih =>
    obtain ⟨hrank, hturns⟩ := rank_step? (hrun.state_eq_closed hclosed) hstep
    simp only [List.countP_append, List.countP_singleton]
    omega

theorem over_step? (h : s.IsOver) (hstep : s.step? draw a = some s') : s'.IsOver := by
  refine ⟨closed_step? hstep (Or.inl h.state), ?_⟩
  cases hphase : s'.phase with
  | reporting error =>
    -- only an active watch can be closed by its worker
    rcases reporting_step? hstep hphase with hbefore | ⟨-, -, hactive⟩
    · have hreporting := h.reporting
      rw [hbefore] at hreporting
      cases hreporting
    · rw [h.state] at hactive
      cases hactive
  | unborn | launching | ready | connecting | opened | restarting | closing | settling | stopped => rfl

theorem Run.isOver (h : s.Run more s') (hover : s.IsOver) : s'.IsOver ∧ s'.errors = s.errors := by
  induction h with
  | nil => exact ⟨hover, rfl⟩
  | snoc _ hstep ih =>
    exact ⟨over_step? ih.1 hstep, (errors_eq_step? ih.1.reporting hstep).trans ih.2⟩

/-- A watch is closed by a removal that is not finished yet or that the worker will notice, or by the worker
on its way to the end. -/
theorem winding_step? (h : s.shared.state = .closed →
      s.cancelling ≠ 0 ∨ s.shared.removed = true ∨ s.IsEnding) (hlinked : s.Linked)
    (hstep : s.step? draw a = some s') (hclosed : s'.shared.state = .closed) :
    s'.cancelling ≠ 0 ∨ s'.shared.removed = true ∨ s'.IsEnding := by
  have hkept (hstate : s.shared.state = .closed) (hcancelling : s'.cancelling = s.cancelling) :
      s'.cancelling ≠ 0 ∨ s'.shared.removed = true ∨ s'.IsEnding := by
    rcases h hstate with hnot | hremoved | hending
    · exact Or.inl (hcancelling ▸ hnot)
    · exact Or.inr (Or.inl (removed_step? hstep hremoved))
    · exact Or.inr (Or.inr (ending_step? hending hlinked hstep))
  cases Step.of_step? hstep with
  | start => cases hclosed
  | deactivate => exact Or.inl (Nat.succ_ne_zero _)
  | cancel => exact Or.inr (Or.inl rfl)
  | close | concede => exact Or.inr (Or.inr rfl)
  | stream | reconnect =>
    -- a transition closes no watch
    refine hkept ?_ rfl
    by_contra hopen
    unfold Shared.transition at hclosed
    rw [if_neg hopen] at hclosed
    cases hclosed
  | absorb =>
    obtain ⟨worker, phase, -, heq⟩ := absorb_eq s (s.worker.receive a)
    rw [heq] at hclosed
    exact hkept hclosed (by rw [heq])
  | refuse | launch | leave | forgo | breakDown | report | finish | resume | elapse | connected | take
  | drop | pass | hand => exact hkept hclosed rfl

theorem Run.winding (hw : w.stream = none) (h : (initial w).Run actions s)
    (hclosed : s.shared.state = .closed) : s.cancelling ≠ 0 ∨ s.shared.removed = true ∨ s.IsEnding := by
  induction h with
  | nil => cases hclosed
  | snoc hrun hstep ih => exact winding_step? ih (hrun.linked hw) hstep hclosed

/-- A worker that is to notice a removal, or is on its way to the end, waits for nobody. -/
theorem exists_work (h : s.shared.removed = true ∨ s.IsEnding) (hunborn : s.phase ≠ .unborn)
    (hstopped : s.phase ≠ .stopped) (draw : Binary64 → Binary64 → Binary64) :
    ∃ s', s.step? draw .work = some s' := by
  change ∃ s', s.work? draw = some s'
  unfold work?
  cases hphase : s.phase with
  | unborn => exact absurd hphase hunborn
  | stopped => exact absurd hphase hstopped
  | ready | connecting =>
    rcases h with hremoved | hending
    · simp [hremoved]
    · simp [IsEnding, hphase] at hending
  | launching | opened | restarting | closing | reporting | settling => simp

theorem unborn_step? (hstep : s.step? draw a = some s') (hunborn : s'.phase = .unborn) :
    s.phase = .unborn := by
  cases Step.of_step? hstep with
  | refuse | deactivate | cancel | take | drop | pass | hand => exact hunborn
  | absorb =>
    rw [phase_absorb] at hunborn
    cases hverdict : (s.worker.receive a).verdict <;> rw [hverdict] at hunborn <;> cases hunborn
  | start | launch | leave | forgo | breakDown | stream | reconnect | close | concede | report | finish
  | resume | elapse | connected => cases hunborn

/-- Such a worker comes to its end by itself. -/
theorem exists_run_stopped (h : s.shared.removed = true ∨ s.IsEnding) (hclosed : s.shared.state = .closed)
    (hlinked : s.Linked) (hunborn : s.phase ≠ .unborn) :
    ∃ n s', s.Run (List.replicate n .work) s' ∧ s'.phase = .stopped := by
  -- each step takes the worker nearer to its end
  induction hrank : s.phase.rank using Nat.strongRecOn generalizing s with
  | ind rank ih =>
    by_cases hstopped : s.phase = .stopped
    · exact ⟨0, s, .nil, hstopped⟩
    · obtain ⟨t, hstep⟩ := exists_work h hunborn hstopped fun low _ => low
      have hlt : t.phase.rank < rank := hrank ▸ (rank_step? hclosed hstep).1
      obtain ⟨n, s', hrun, hend⟩ := ih _ hlt
        (h.imp (removed_step? hstep) fun hending => ending_step? hending hlinked hstep)
        (closed_step? hstep (Or.inl hclosed)) (linked_step? hlinked hstep).1
        (fun hnew => hunborn (unborn_step? hstep hnew)) rfl
      have hfirst : s.Run ([] ++ [.work]) t := Run.nil.snoc hstep
      exact ⟨n + 1, s', hfirst.append hrun, hend⟩

/-- Whether the worker lost its way: its settings ask for too long a queue of requests, or it has counted
as many mismatches as it can. -/
def IsBroken (s : Session) : Prop :=
  s.worker.hasQueue = false ∨ s.worker.filterMismatches.toNat + 1 = UInt32.size

theorem stopped_step? (h : s.phase = .stopped → s.shared.state = .closed ∨ s.IsBroken)
    (hremoved : s.shared.removed = true → s.shared.state = .closed) (hstep : s.step? draw a = some s')
    (hstopped : s'.phase = .stopped) : s'.shared.state = .closed ∨ s'.IsBroken := by
  cases Step.of_step? hstep with
  | refuse | cancel | take | drop | pass | hand => exact h hstopped
  | deactivate => exact Or.inl rfl
  | leave _ htrue => exact Or.inl (hremoved htrue)
  | breakDown _ _ hqueue => exact Or.inr (Or.inl hqueue)
  | finish _ hclosed => exact Or.inl hclosed
  | absorb =>
    unfold absorb at hstopped ⊢
    cases hverdict : (s.worker.receive a).verdict <;> rw [hverdict] at hstopped <;> try cases hstopped
    obtain ⟨hworker, hfull⟩ := Worker.receive_of_overflow hverdict
    refine Or.inr (Or.inr ?_)
    simpa only [stop, hworker] using hfull
  | start | launch | forgo | stream | reconnect | close | concede | report | resume | elapse | connected =>
    cases hstopped

theorem Run.stopped (h : (initial w).Run actions s) (hstopped : s.phase = .stopped) :
    s.shared.state = .closed ∨ s.IsBroken := by
  induction h with
  | nil => cases hstopped
  | snoc hrun hstep ih =>
    have hremoving := hrun.removing
    exact stopped_step? ih (fun htrue => hremoving.closed (hremoving.removed htrue)) hstep hstopped

/-- What is left of a watch that is over, up to some later point: the worker goes through the input at hand
and at most one further input, says nothing more, and stops without help but that of the removal under
way. -/
structure Expires (s : Session) (more : List Action) (s' : Session) : Prop where
  state : s'.shared.state = .closed
  errors : s'.errors = s.errors
  turns : more.countP Action.isTurn ≤ s.phase.turns
  work : more.countP Action.isWork ≤ s.phase.rank
  ready : s'.phase = .stopped ∨ s'.cancelling ≠ 0 ∨ ∀ draw, ∃ s'', s'.step? draw .work = some s''
  stops : ∃ rest s'', s'.Run rest s'' ∧ (∀ a ∈ rest, a = .cancel ∨ a = .work) ∧
    s''.phase = .stopped

theorem Run.expires (h : (initial w).Run actions s) (hw : w.stream = none) (hover : s.IsOver)
    (hmore : s.Run more s') : s.Expires more s' := by
  obtain ⟨hover', herrors⟩ := hmore.isOver hover
  obtain ⟨hrank, hturns⟩ := hmore.rank_le hover.state
  have h' := h.append hmore
  have hlinked := h'.linked hw
  have hborn : s'.phase ≠ .unborn := by
    intro hunborn
    have hcoherent := h'.coherent hw
    simp only [Coherent, hunborn] at hcoherent
    exact nomatch hcoherent.symm.trans hover'.state
  have hwinding := h'.winding hw hover'.state
  refine ⟨hover'.state, herrors, by omega, by omega, ?_, ?_⟩
  · by_cases hstopped : s'.phase = .stopped
    · exact Or.inl hstopped
    · exact Or.inr (hwinding.imp_right fun hwinding => exists_work hwinding hborn hstopped)
  · rcases hwinding with hcancelling | hwinding
    · -- the removal under way is finished first
      have hcancel : Step (fun low _ => low) s' .cancel _ := .cancel hcancelling
      have hfirst : s'.Run ([] ++ [.cancel]) _ := Run.nil.snoc hcancel.step?
      have hclosed := closed_step? hcancel.step? (Or.inl hover'.state)
      obtain ⟨n, t, hrun, hstopped⟩ := exists_run_stopped (Or.inl rfl) hclosed
        (linked_step? hlinked hcancel.step?).1 hborn
      refine ⟨_, t, hfirst.append hrun, ?_, hstopped⟩
      intro a ha
      rcases List.mem_append.1 ha with ha | ha
      · exact Or.inl (List.mem_singleton.1 ha)
      · exact Or.inr (List.eq_of_mem_replicate ha)
    · obtain ⟨n, t, hrun, hstopped⟩ := exists_run_stopped hwinding hover'.state hlinked hborn
      exact ⟨_, t, hrun, fun a ha => Or.inr (List.eq_of_mem_replicate ha), hstopped⟩

/-- A removal that closes an active watch leaves it over, and so does the worker when it is done with
closing it. -/
theorem isOver_step? (h : s.Reported) (hstep : s.step? draw a = some s')
    (hend : a = .deactivate ∧ s.shared.state.isActive = true ∨
      (∃ e, s.phase = .closing e ∨ s.phase = .reporting e) ∧ s'.phase = .settling) : s'.IsOver := by
  rcases hend with ⟨rfl, hactive⟩ | ⟨⟨e, hphase⟩, hsettling⟩
  · cases Step.of_step? hstep with
    | deactivate =>
      refine ⟨rfl, ?_⟩
      apply Bool.eq_false_iff.2
      intro hreporting
      rw [h.reporting hreporting] at hactive
      cases hactive
    | absorb haccepts => cases haccepts
  · refine ⟨?_, by rw [hsettling]; rfl⟩
    cases Step.of_step? hstep with
    | concede => rfl
    | report hreporting => exact h.reporting (by rw [hreporting]; rfl)
    | refuse | deactivate | cancel | take | drop | pass | hand => simp_all
    | absorb haccepts =>
      rcases phase_of_accepts haccepts with hother | ⟨request, hother⟩ <;> simp [hother] at hphase
    | connected hawaiting =>
      obtain ⟨⟨request, hother⟩, -⟩ := isAwaiting_iff.1 hawaiting
      simp [hother] at hphase
    | start | launch | leave | forgo | breakDown | stream | reconnect | close | finish | resume | elapse =>
      simp_all

/-- A watch starts once, also if it was removed since, and once closed it stays closed. Whenever its worker
comes back to wait while the watch is open, the state tells what for: the timer, without a stream, or the
stream, without the timer. A stream is only opened when there is none. A watch that a removal closed, or
that its worker is done with closing, is over. -/
theorem Run.lifecycle_coherent (h : (initial (.initial target order settings policy)).Run actions s) :
    ((.start ∉ actions → ∃ s', s.start = .ok s' ∧ s'.phase = .launching) ∧
        (.start ∈ actions → s.start = .error .alreadyStarted)) ∧
      (s.shared.state = .closed → ∀ more s', s.Run more s' → s'.shared.state = .closed) ∧
      (s.phase = .ready → s.shared.state ≠ .closed → Xor s.IsScheduled s.IsStreaming ∧
        (s.IsScheduled → ∀ draw, ∃ s', s.step? draw .elapse = some s') ∧
        (s.IsStreaming → ∀ draw a, a.isTurn = true → a ≠ .elapse →
          ∃ s', s.step? draw a = some s')) ∧
      (s.phase = .stopped → s.shared.state = .closed ∨ s.IsBroken) ∧
      (∀ draw stream s', s.step? draw (.connected stream) = some s' → s.worker.stream = none) ∧
      ∀ draw a s', s.step? draw a = some s' →
        (a = .deactivate ∧ s.shared.state.isActive = true ∨
          (∃ e, s.phase = .closing e ∨ s.phase = .reporting e) ∧ s'.phase = .settling) →
        ∀ more s'', s'.Run more s'' → s'.Expires more s'' := by
  have hidle := h.idle_iff rfl
  have hcoherent := h.coherent rfl
  refine ⟨⟨?_, ?_⟩, ?_, ?_, h.stopped, ?_, ?_⟩
  · intro hnew
    obtain ⟨s', hstart, hphase, -⟩ := start_of_idle (hidle.2 hnew)
    exact ⟨s', hstart, hphase⟩
  · intro hstarted
    exact start_of_ne_idle fun hstate => hidle.1 hstate hstarted
  · intro hclosed more s' hmore
    exact hmore.state_eq_closed hclosed
  · intro hready hopen
    simp only [Coherent, hready] at hcoherent
    have hremoved : s.shared.removed = false :=
      Bool.eq_false_iff.2 fun htrue => hopen (h.removing.closed (h.removing.removed htrue))
    refine ⟨?_, ?_, ?_⟩
    · rcases hcoherent hopen with hscheduled | hstreaming
      · refine Or.inl ⟨hscheduled, fun hstreaming => ?_⟩
        have htimer := hscheduled.timer
        rw [hstreaming.timer] at htimer
        cases htimer
      · refine Or.inr ⟨hstreaming, fun hscheduled => ?_⟩
        have htimer := hscheduled.timer
        rw [hstreaming.timer] at htimer
        cases htimer
    · intro hscheduled draw
      have hstep : Step draw s .elapse _ := .elapse hready hremoved hscheduled.timer
      exact ⟨_, hstep.step?⟩
    · intro hstreaming draw a ha hne
      have hreading : s.isReading = true := isReading_iff.2 ⟨hready, hremoved, hstreaming.stream⟩
      have haccepts : s.accepts a = true := by
        cases a with
        | response | failure | completion => exact hreading
        | elapse => exact absurd rfl hne
        | start | deactivate | cancel | work | connected | refused | take | check | hand => cases ha
      have hstep : Step draw s a _ := .absorb haccepts
      exact ⟨_, hstep.step?⟩
  · intro draw stream s' hstep
    cases Step.of_step? hstep with
    | connected hawaiting =>
      obtain ⟨⟨request, hphase⟩, -⟩ := isAwaiting_iff.1 hawaiting
      exact (h.linked rfl).offline (Or.inl (by rw [hphase]; rfl))
    | absorb haccepts => cases haccepts
  · intro draw a s' hstep hend more s'' hmore
    exact (h.snoc hstep).expires rfl (isOver_step? h.reported hstep hend) hmore

/-- A removal meets a worker that reads its stream. -/
theorem lifecycle_coherent_removedStreaming : ∃ s s' s'',
    (watchOf "c/a").Run (firstSnapshot "c/a" ++ [.work]) s ∧ s.start = .error .alreadyStarted ∧
      Xor s.IsScheduled s.IsStreaming ∧ s.step? (fun low _ => low) .deactivate = some s' ∧
      s'.Run [.completion, .work, .work] s'' ∧ s'.Expires [.completion, .work, .work] s'' := by
  have hrun : ((watchOf "c/a").run? (fun low _ => low) (firstSnapshot "c/a" ++ [.work])).bind
      (fun s => (s.step? (fun low _ => low) .deactivate).bind fun s' =>
        (s'.run? (fun low _ => low) [.completion, .work, .work]).map fun _ =>
          decide (s.phase = .ready ∧ s.shared.state.isActive = true)) = some true := by
    decide +kernel
  obtain ⟨s, hs, hrest⟩ := Option.bind_eq_some_iff.1 hrun
  obtain ⟨s', hs', hrest⟩ := Option.bind_eq_some_iff.1 hrest
  obtain ⟨s'', hs'', hchecked⟩ := Option.map_eq_some_iff.1 hrest
  obtain ⟨hready, hactive⟩ := of_decide_eq_true hchecked
  obtain ⟨⟨-, hstart⟩, -, hwaits, -, -, hexpires⟩ := (Run.of_run? hs).lifecycle_coherent
  have hopen : s.shared.state ≠ .closed := by
    intro hclosed
    rw [hclosed] at hactive
    cases hactive
  exact ⟨s, s', s'', .of_run? hs, hstart (by simp [firstSnapshot]), (hwaits hready hopen).1, hs',
    .of_run? hs'', hexpires _ _ s' hs' (Or.inl ⟨rfl, hactive⟩) _ s'' (.of_run? hs'')⟩

end Session

end LiveQuery
