import Mathlib.Logic.Function.Iterate
import LiveQuery.Proofs.Resumption

namespace LiveQuery

/-- What bears on the delay of the next connection. -/
inductive Pace where
  /-- A connection is scheduled. -/
  | schedule
  /-- A stream, or the attempt to open one, fails because the backend is out of resources. -/
  | exhaustion
  /-- The backend confirms progress. -/
  | progress
  deriving DecidableEq

/-- How many connections were scheduled, and how often the backend was out of resources, since the last
progress. -/
def sinceProgress (paces : List Pace) : Nat := (paces.reverse.takeWhile (· ≠ .progress)).length

theorem sinceProgress_snoc (paces : List Pace) (pace : Pace) :
    sinceProgress (paces ++ [pace]) = if pace = .progress then 0 else sinceProgress paces + 1 := by
  unfold sinceProgress
  rw [List.reverse_append]
  cases pace <;> rfl

namespace Backoff

/-- What an event makes of the backoff. -/
def follow (b : Backoff) : Pace → Backoff
  | .schedule | .exhaustion => b.advance
  | .progress => b.reset

variable {policy : BackoffPolicy}

theorem delay_iterate_advance (policy : BackoffPolicy) (n : Nat) :
    (advance^[n] (initial policy)).policy = policy ∧
      (advance^[n] (initial policy)).delay = policy.step n := by
  induction n with
  | zero => exact ⟨rfl, rfl⟩
  | succ n ih =>
    rw [Function.iterate_succ_apply']
    refine ⟨ih.1, ?_⟩
    rw [advance, BackoffPolicy.step, ih.1, ih.2]

theorem follow_iterate_advance (policy : BackoffPolicy) (paces : List Pace) (pace : Pace) :
    (advance^[sinceProgress paces] (initial policy)).follow pace =
      advance^[sinceProgress (paces ++ [pace])] (initial policy) := by
  rw [sinceProgress_snoc]
  cases pace with
  | schedule | exhaustion => exact (Function.iterate_succ_apply' advance _ _).symm
  | progress =>
    change reset _ = initial policy
    rw [reset, (delay_iterate_advance policy _).1]
    rfl

end Backoff

/-- Whether a target change confirms progress: it has a token, concerns the watch, and is of a kind that
leaves the watch open. -/
def TargetChange.Confirms (change : TargetChange) : Prop :=
  (change.kind ∈ [TargetChangeKind.noChange, .current, .reset].map TargetChangeKind.number ∨
      change.kind = TargetChangeKind.add.number ∧ change.targetIds ≠ [] ∧
        ∀ id ∈ change.targetIds, id = 1) ∧
    change.resumeToken ≠ [] ∧ (change.targetIds = [] ∨ 1 ∈ change.targetIds)

instance (change : TargetChange) : Decidable change.Confirms :=
  have : Decidable (∀ id ∈ change.targetIds, id = 1) := List.decidableBAll (· = 1) change.targetIds
  inferInstanceAs (Decidable (_ ∧ _))

/-- What the first status behind a failure says about the delay. -/
def StreamError.pace? (e : StreamError) : Option Pace :=
  if e.status?.map Prod.fst = some .resourceExhausted then some .exhaustion else none

/-- What an input says about the delay. -/
def Action.pace? : Action → Option Pace
  | .response (.targetChange change) => if change.Confirms then some .progress else none
  | .refused e | .failure e => e.pace?
  | _ => none

theorem StreamError.pace?_eq (e : StreamError) :
    e.pace? = if e.isResourceExhausted then some .exhaustion else none := by
  unfold pace? isResourceExhausted
  cases e.status? <;> simp

/-- The backend is never out of resources for good. -/
theorem StreamError.isPermanent_of_isResourceExhausted {e : StreamError}
    (h : e.isResourceExhausted = true) : e.isPermanent = false := by
  unfold isResourceExhausted at h
  unfold isPermanent
  cases hstatus : e.status? with
  | none => simp [hstatus] at h
  | some status =>
    simp only [hstatus, beq_iff_eq] at h ⊢
    rw [h]
    rfl

namespace Worker

variable {w : Worker} {response : ListenResponse} {r : Reaction} {change : TargetChange}

theorem isAcknowledged_iff : isAcknowledged change = true ↔
    change.targetIds ≠ [] ∧ ∀ id ∈ change.targetIds, id = 1 := by
  simp [isAcknowledged, ListenTarget.watchId]

theorem backoff_confirmProgress (w : Worker) (change : TargetChange) :
    (w.confirmProgress change).backoff =
      if change.resumeToken ≠ [] ∧ (change.targetIds = [] ∨ 1 ∈ change.targetIds) then
        w.backoff.reset
      else w.backoff := by
  have hcond : (!change.resumeToken.isEmpty && change.affects ListenTarget.watchId) = true ↔
      change.resumeToken ≠ [] ∧ (change.targetIds = [] ∨ 1 ∈ change.targetIds) := by
    simp [TargetChange.affects, ListenTarget.watchId]
  unfold confirmProgress
  simp only [hcond]
  split <;> rfl

/-- A target change of a kind that may confirm progress. -/
theorem backoff_confirmProgress_of_kind
    (hkind : change.kind ∈ [TargetChangeKind.noChange, .current, .reset].map TargetChangeKind.number ∨
      change.kind = TargetChangeKind.add.number ∧ isAcknowledged change = true) (w : Worker) :
    (w.confirmProgress change).backoff =
      ((Action.response (.targetChange change)).pace?.elim w.backoff w.backoff.follow) := by
  have hconfirms : change.Confirms ↔
      change.resumeToken ≠ [] ∧ (change.targetIds = [] ∨ 1 ∈ change.targetIds) := by
    rw [isAcknowledged_iff] at hkind
    exact and_iff_right hkind
  rw [backoff_confirmProgress, Action.pace?]
  simp only [← hconfirms]
  split <;> rfl

/-- A target change of another kind closes the watch, and confirms nothing. -/
theorem not_confirms_of_kind {kind : Option TargetChangeKind}
    (hkind : TargetChangeKind.ofNumber? change.kind = kind)
    (hother : kind = none ∨ kind = some .remove ∨ kind = some .add ∧ isAcknowledged change = false) :
    ¬ change.Confirms := by
  rintro ⟨hnumber, -⟩
  have hkind' : kind ≠ none ∧ kind ≠ some .remove ∧ (kind = some .add → isAcknowledged change = true) := by
    rw [← hkind]
    rcases hnumber with hnumber | ⟨hnumber, hack⟩
    · simp only [List.map_cons, List.map_nil, List.mem_cons, List.not_mem_nil, or_false] at hnumber
      rcases hnumber with hnumber | hnumber | hnumber <;>
        rw [TargetChangeKind.ofNumber?_eq_some_iff.2 hnumber] <;> simp
    · rw [TargetChangeKind.ofNumber?_eq_some_iff.2 hnumber]
      exact ⟨nofun, nofun, fun _ => isAcknowledged_iff.2 hack⟩
  rcases hother with hnone | hremove | ⟨hadd, hack⟩
  · exact hkind'.1 hnone
  · exact hkind'.2.1 hremove
  · rw [hkind'.2.2 hadd] at hack
    cases hack

/-- Of all responses only a confirmation of progress bears on the backoff. -/
theorem Reacts.backoff (h : w.Reacts response r) :
    r.worker.backoff = (Action.response response).pace?.elim w.backoff w.backoff.follow := by
  have hclosed {change : TargetChange} (hnot : ¬ change.Confirms) :
      w.backoff = (Action.response (.targetChange change)).pace?.elim w.backoff w.backoff.follow := by
    rw [Action.pace?, if_neg hnot]
    rfl
  cases h with
  | unknown hkind => exact hclosed (not_confirms_of_kind hkind (Or.inl rfl))
  | misaddress hkind hack => exact hclosed (not_confirms_of_kind hkind (Or.inr (Or.inr ⟨rfl, hack⟩)))
  | reject hkind => exact hclosed (not_confirms_of_kind hkind (Or.inr (Or.inl rfl)))
  | idle hkind | materialize hkind | current hkind | reset hkind =>
    rw [TargetChangeKind.ofNumber?_eq_some_iff] at hkind
    refine backoff_confirmProgress_of_kind (Or.inl ?_) _
    rw [hkind]
    decide
  | acknowledge hkind hack =>
    rw [TargetChangeKind.ofNumber?_eq_some_iff] at hkind
    exact backoff_confirmProgress_of_kind (Or.inr ⟨hkind, hack⟩) w
  | unset | ignore | lack | upsert | leave | delete | remove | agree | overflow | giveUp | disagree => rfl

theorem backoff_onStreamError (w : Worker) (e : StreamError) :
    (w.onStreamError e).worker.backoff = e.pace?.elim w.backoff w.backoff.follow := by
  rw [StreamError.pace?_eq]
  unfold onStreamError
  cases hexhausted : e.isResourceExhausted with
  | true =>
    rw [StreamError.isPermanent_of_isResourceExhausted hexhausted]
    rfl
  | false => cases e.isPermanent <;> rfl

/-- What an input says about the delay is all that the worker makes of it. -/
theorem backoff_receive (w : Worker) (a : Action) :
    (w.receive a).worker.backoff = a.pace?.elim w.backoff w.backoff.follow := by
  cases a with
  | response response => exact (reacts_onResponse w response).backoff
  | refused e | failure e => exact backoff_onStreamError w e
  | completion => exact backoff_onStreamError w _
  | elapse | connected | start | deactivate | cancel | work | take | check | hand => rfl

end Worker

namespace Session

variable {draw : Binary64 → Binary64 → Binary64} {s s' s'' : Session} {a : Action}
  {actions actions' : List Action} {paces paces' : List Pace} {w : Worker} {target : ListenTarget} {order : DocumentOrder}
  {settings : ListenSettings} {policy : BackoffPolicy}

/-- Whether the worker is about to schedule a connection. -/
def isScheduling (s : Session) : Bool :=
  match s.phase with
  | .launching => true
  | .restarting => s.shared.state ≠ .closed
  | _ => false

/-- What a step has to say about the delay. -/
def pace? (s : Session) : Action → Option Pace
  | .work => if s.isScheduling then some .schedule else none
  | a => a.pace?

/-- A run, with what it has to say about the delay. -/
inductive Paced (s : Session) : List Action → List Pace → Session → Prop
  | nil : Paced s [] [] s
  | snoc {actions : List Action} {paces : List Pace} {s' : Session} {a : Action} {s'' : Session}
      {draw : Binary64 → Binary64 → Binary64} :
      Paced s actions paces s' → s'.step? draw a = some s'' →
      Paced s (actions ++ [a]) (paces ++ (s'.pace? a).toList) s''

theorem Paced.run (h : s.Paced actions paces s') : s.Run actions s' := by
  induction h with
  | nil => exact .nil
  | snoc _ hstep ih => exact ih.snoc hstep

theorem Paced.append (h : s.Paced actions paces s') (h' : s'.Paced actions' paces' s'') :
    s.Paced (actions ++ actions') (paces ++ paces') s'' := by
  induction h' with
  | nil => rwa [List.append_nil, List.append_nil]
  | snoc _ hstep ih =>
    rw [← List.append_assoc, ← List.append_assoc]
    exact ih.snoc hstep

/-- What a run with a jitter that is always drawn in one way has to say about the delay. -/
def pacesOf (draw : Binary64 → Binary64 → Binary64) : Session → List Action → List Pace
  | _, [] => []
  | s, a :: actions => (s.pace? a).toList ++ ((s.step? draw a).getD s).pacesOf draw actions

theorem Paced.of_run? (h : s.run? draw actions = some s') : s.Paced actions (s.pacesOf draw actions) s' := by
  induction actions generalizing s with
  | nil =>
    cases h
    exact .nil
  | cons a actions ih =>
    rw [run?, List.foldlM_cons] at h
    obtain ⟨t, hstep, hrest⟩ := Option.bind_eq_some_iff.1 h
    have hfirst : s.Paced ([] ++ [a]) ([] ++ (s.pace? a).toList) t := Paced.nil.snoc hstep
    rw [pacesOf, hstep]
    exact hfirst.append (ih hrest)

theorem Run.exists_paced (h : s.Run actions s') : ∃ paces, s.Paced actions paces s' := by
  induction h with
  | nil => exact ⟨[], .nil⟩
  | snoc _ hstep ih =>
    obtain ⟨paces, hpaced⟩ := ih
    exact ⟨_, hpaced.snoc hstep⟩

theorem backoff_absorb (s : Session) (r : Reaction) : (s.absorb r).worker.backoff = r.worker.backoff := by
  unfold absorb
  cases r.verdict <;> rfl

/-- What a step has to say about the delay is all that it does to the backoff. -/
theorem backoff_step? (hstep : s.step? draw a = some s') :
    s'.worker.backoff = (s.pace? a).elim s.worker.backoff s.worker.backoff.follow := by
  have hsame (hidle : s.isScheduling = false) (hwork : s'.worker.backoff = s.worker.backoff) :
      s'.worker.backoff = (s.pace? .work).elim s.worker.backoff s.worker.backoff.follow := by
    rw [pace?, hidle]
    exact hwork
  cases Step.of_step? hstep with
  | start | refuse | deactivate | cancel | elapse | connected | take | drop | pass | hand => rfl
  | launch hphase =>
    have hscheduling : s.isScheduling = true := by rw [isScheduling, hphase]
    rw [pace?, if_pos hscheduling]
    rfl
  | reconnect hphase =>
    have hscheduling : s.isScheduling = (s.shared.transition .reconnecting).1 := by
      rw [isScheduling, hphase, Shared.transition]
      by_cases hclosed : s.shared.state = .closed <;> simp [hclosed]
    rw [pace?, ← hscheduling]
    cases s.isScheduling <;> rfl
  | leave hphase | forgo hphase | breakDown hphase | stream hphase | close hphase | concede hphase
  | report hphase | finish hphase | resume hphase => exact hsame (by rw [isScheduling, hphase]) rfl
  | absorb haccepts =>
    have hpace : s.pace? a = a.pace? := by
      cases a with
      | work => cases haccepts
      | start | deactivate | cancel | elapse | connected | refused | response | failure | completion
      | take | check | hand => rfl
    rw [backoff_absorb, Worker.backoff_receive, hpace]

theorem pace?_eq_schedule_iff : s.pace? a = some .schedule ↔ a = .work ∧ s.isScheduling = true := by
  have hfailure (e : StreamError) : e.pace? ≠ some .schedule := by
    rw [StreamError.pace?_eq]
    split <;> nofun
  cases a with
  | work => simp [pace?]
  | refused e | failure e => simpa [pace?, Action.pace?] using hfailure e
  | response response => cases response <;> simp [pace?, Action.pace?]
  | start | deactivate | cancel | elapse | connected | completion | take | check | hand =>
    simp [pace?, Action.pace?]

theorem worker_of_isScheduling (hscheduling : s.isScheduling = true)
    (hstep : s.step? draw .work = some s') : s'.worker = s.worker.schedule draw := by
  cases Step.of_step? hstep with
  | launch => rfl
  | reconnect hphase =>
    have hopen : s.shared.state ≠ .closed := by simpa [isScheduling, hphase] using hscheduling
    simp [Shared.transition, hopen]
  | leave hphase | forgo hphase | breakDown hphase | stream hphase | close hphase | concede hphase
  | report hphase | finish hphase | resume hphase => simp [isScheduling, hphase] at hscheduling
  | absorb haccepts => cases haccepts

/-- Nothing but scheduling a connection sets the timer. -/
theorem timer_step? (hlinked : s.Linked) (hstep : s.step? draw a = some s')
    (hpace : s.pace? a ≠ some .schedule) :
    s'.worker.timer = s.worker.timer ∨ s'.worker.timer = none := by
  cases Step.of_step? hstep with
  | start | refuse | deactivate | cancel | forgo | stream | close | concede | report | resume | connected
  | take | drop | pass | hand => exact Or.inl rfl
  | leave | breakDown | finish | elapse => exact Or.inr rfl
  | launch hphase => exact absurd (pace?_eq_schedule_iff.2 ⟨rfl, by rw [isScheduling, hphase]⟩) hpace
  | reconnect hphase =>
    by_cases hclosed : s.shared.state = .closed
    · simp [Shared.transition, hclosed]
    · exact absurd (pace?_eq_schedule_iff.2 ⟨rfl, by simp [isScheduling, hphase, hclosed]⟩) hpace
  | absorb haccepts =>
    have htimer := Worker.timer_receive (hlinked.accepts haccepts).1 a
    refine Or.inr ?_
    unfold absorb
    cases (s.worker.receive a).verdict
    case overflow => rfl
    all_goals exact htimer

theorem Paced.backoff (h : s.Paced actions paces s') (hs : s.worker.backoff = .initial policy) :
    s'.worker.backoff = Backoff.advance^[sinceProgress paces] (.initial policy) := by
  induction h with
  | nil => exact hs
  | @snoc actions paces s' a s'' draw _ hstep ih =>
    rw [backoff_step? hstep, ih]
    cases s'.pace? a with
    | none => rw [Option.toList_none, List.append_nil]; rfl
    | some pace => exact Backoff.follow_iterate_advance policy paces pace

/-- Each connection is scheduled after the nominal delay of as many advances of the backoff as connections
were scheduled before, and failures for lack of resources seen, since the backend last confirmed progress.
Nothing else sets the timer, and nothing else moves the backoff. -/
theorem Run.delays_follow_paces (h : (initial (.initial target order settings policy)).Run actions s) :
    (∃ paces, (initial (.initial target order settings policy)).Paced actions paces s) ∧
      ∀ paces, (initial (.initial target order settings policy)).Paced actions paces s →
        s.worker.backoff = Backoff.advance^[sinceProgress paces] (.initial policy) ∧
          s.worker.backoff.delay = policy.step (sinceProgress paces) ∧
          ∀ draw a s', s.step? draw a = some s' →
            (s.pace? a = some .schedule →
              s'.worker.timer = some (s.worker.backoff.randomizedDelay draw)) ∧
            (s.pace? a ≠ some .schedule →
              s'.worker.timer = s.worker.timer ∨ s'.worker.timer = none) ∧
            (s.pace? a = none → s'.worker.backoff = s.worker.backoff) := by
  refine ⟨h.exists_paced, ?_⟩
  intro paces hpaced
  have hbackoff := hpaced.backoff rfl
  refine ⟨hbackoff, ?_, ?_⟩
  · rw [hbackoff]
    exact (Backoff.delay_iterate_advance policy _).2
  · intro draw a s' hstep
    refine ⟨?_, timer_step? (h.linked rfl) hstep, ?_⟩
    · intro hpace
      obtain ⟨rfl, hscheduling⟩ := pace?_eq_schedule_iff.1 hpace
      rw [worker_of_isScheduling hscheduling hstep]
      rfl
    · intro hpace
      rw [backoff_step? hstep, hpace]
      rfl

/-- From the first snapshot by a failure for lack of resources to an attempt to connect that fails. -/
def afterExhaustion : List Action :=
  firstSnapshot "c/a" ++ [.work, .failure (.status .resourceExhausted ""), .work, .work, .elapse,
    .refused (.status .unavailable "")]

/-- The default policy with half of each delay left to chance. -/
def halfJitter : BackoffPolicy := { BackoffPolicy.default with jitter := .nearest false 1 2 }

def jitteryWatch : Session := initial (.initial (.document (.ofString "c/a")) .byPath .default halfJitter)

/-- The token of the first snapshot confirms progress. Two steps of the backoff later the nominal delay is
half as long again as the first one, and half of that is the least that is waited. -/
theorem delays_follow_paces_exhausted : ∃ s s' s'',
    jitteryWatch.Paced afterExhaustion [.schedule, .progress, .exhaustion, .schedule] s ∧
      s.step? (fun low _ => low) .work = some s' ∧ s.step? (fun _ high => high) .work = some s'' ∧
      s.worker.backoff = Backoff.advance^[2] (.initial halfJitter) ∧
      s'.worker.timer = some 750000000 ∧ s''.worker.timer = some 1500000000 := by
  have hrun : (jitteryWatch.run? (fun low _ => low) afterExhaustion).bind (fun s =>
      (s.step? (fun low _ => low) .work).bind fun _ => (s.step? (fun _ high => high) .work).map fun _ =>
        decide (jitteryWatch.pacesOf (fun low _ => low) afterExhaustion =
          [.schedule, .progress, .exhaustion, .schedule] ∧ s.pace? .work = some .schedule)) =
      some true := by
    decide +kernel
  obtain ⟨s, hs, hrest⟩ := Option.bind_eq_some_iff.1 hrun
  obtain ⟨s', hs', hrest⟩ := Option.bind_eq_some_iff.1 hrest
  obtain ⟨s'', hs'', hchecked⟩ := Option.map_eq_some_iff.1 hrest
  obtain ⟨hpaces, hpace⟩ := of_decide_eq_true hchecked
  have hpaced := Paced.of_run? hs
  rw [hpaces] at hpaced
  obtain ⟨-, hfollows⟩ := (Run.of_run? hs).delays_follow_paces
  obtain ⟨hbackoff, -, hsteps⟩ := hfollows _ hpaced
  refine ⟨s, s', s'', hpaced, hs', hs'', hbackoff, ?_, ?_⟩
  · rw [(hsteps _ _ s' hs').1 hpace, hbackoff]
    decide +kernel
  · rw [(hsteps _ _ s'' hs'').1 hpace, hbackoff]
    decide +kernel

end Session

end LiveQuery
