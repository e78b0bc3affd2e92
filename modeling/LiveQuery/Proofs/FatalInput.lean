import LiveQuery.Proofs.FilterStreak
import LiveQuery.Proofs.Lifecycle

namespace LiveQuery

namespace StreamError

variable {e : StreamError} {code : Code} {message : String}

/-- The errors of a failure, the outermost first. -/
def chain : StreamError → List StreamError
  | status code message => [status code message]
  | plain text => [plain text]
  | wrapper text source => wrapper text source :: source.chain

/-- The status that an error is, apart from its source. -/
def own? : StreamError → Option (Code × String)
  | status code message => some (code, message)
  | plain _ | wrapper _ _ => none

theorem status?_eq_findSome? (e : StreamError) : e.status? = e.chain.findSome? own? := by
  induction e with
  | status code message => rfl
  | plain text => rfl
  | wrapper text source ih => exact ih

theorem own?_eq_some_iff : e.own? = some (code, message) ↔ e = .status code message := by
  cases e <;> simp [own?]

theorem status?_eq_some_iff : e.status? = some (code, message) ↔ ∃ before after,
    e.chain = before ++ .status code message :: after ∧ ∀ d ∈ before, d.own? = none := by
  rw [status?_eq_findSome?, List.findSome?_eq_some_iff]
  constructor
  · rintro ⟨before, d, after, hchain, hd, hbefore⟩
    rw [own?_eq_some_iff] at hd
    exact ⟨before, after, hd ▸ hchain, hbefore⟩
  · rintro ⟨before, after, hchain, hbefore⟩
    exact ⟨before, _, after, hchain, rfl, hbefore⟩

theorem status?_eq_none_iff : e.status? = none ↔ ∀ d ∈ e.chain, d.own? = none := by
  rw [status?_eq_findSome?, List.findSome?_eq_none_iff]

/-- The failures that end a watch, each with what the listener is told: those that no status explains, and
those whose first status is not one of seven. -/
inductive Permanent (e : StreamError) : WatchError → Prop
  | unexplained : (∀ d ∈ e.chain, d.own? = none) → Permanent e (.stream .unknown e.text)
  | lasting {before after : List StreamError} {code : Code} {message : String} :
      e.chain = before ++ .status code message :: after → (∀ d ∈ before, d.own? = none) →
      code ∉ [Code.cancelled, .unknown, .deadlineExceeded, .resourceExhausted, .internal, .unavailable,
        .unauthenticated] →
      Permanent e (.stream code message)

theorem isTransient_iff : code.isTransient = true ↔ code ∈ [Code.cancelled, .unknown, .deadlineExceeded,
    .resourceExhausted, .internal, .unavailable, .unauthenticated] := by
  cases code <;> decide

theorem permanent_iff {error : WatchError} :
    e.Permanent error ↔ e.isPermanent = true ∧ .ofStreamError e = error := by
  unfold isPermanent WatchError.ofStreamError
  cases hstatus : e.status? with
  | none =>
    have hnone := status?_eq_none_iff.1 hstatus
    constructor
    · intro h
      cases h with
      | unexplained => exact ⟨rfl, rfl⟩
      | lasting hchain hbefore =>
        rw [status?_eq_some_iff.2 ⟨_, _, hchain, hbefore⟩] at hstatus
        cases hstatus
    · rintro ⟨-, rfl⟩
      exact .unexplained hnone
  | some status =>
    obtain ⟨code, message⟩ := status
    obtain ⟨before, after, hchain, hbefore⟩ := status?_eq_some_iff.1 hstatus
    have hlasting : (!code.isTransient) = true ↔ code ∉ [Code.cancelled, .unknown, .deadlineExceeded,
        .resourceExhausted, .internal, .unavailable, .unauthenticated] := by
      rw [← isTransient_iff, Bool.not_eq_true', Bool.not_eq_true]
    constructor
    · intro h
      cases h with
      | unexplained hnone =>
        rw [status?_eq_none_iff.2 hnone] at hstatus
        cases hstatus
      | lasting hchain' hbefore' hcode =>
        rw [status?_eq_some_iff.2 ⟨_, _, hchain', hbefore'⟩] at hstatus
        cases hstatus
        exact ⟨hlasting.2 hcode, rfl⟩
    · rintro ⟨hcode, rfl⟩
      exact .lasting hchain hbefore (hlasting.1 hcode)

end StreamError

namespace Worker

variable {w : Worker} {a : Action} {response : ListenResponse} {r : Reaction} {e : WatchError}
  {change : TargetChange}

theorem verdict_onStreamError_iff {failure : StreamError} :
    (w.onStreamError failure).verdict = .close e ↔ failure.Permanent e := by
  rw [StreamError.permanent_iff]
  unfold onStreamError
  cases failure.isPermanent <;> simp [close, reconnect]

/-- The code that a number stands for in a message of the backend. -/
def Means (number : Int) (code : Code) : Prop :=
  code.number = number ∨ (∀ c : Code, c.number ≠ number) ∧ code = .unknown

/-- The inputs that end a watch, each with what the listener is told. -/
inductive Fatal (w : Worker) : Action → WatchError → Prop
  | unset : Fatal w (.response .unset) (.invalidArgument "Encountered invalid listen response type")
  | unknown {change : TargetChange} : change.kind.toInt < 0 ∨ 4 < change.kind.toInt →
      Fatal w (.response (.targetChange change))
        (.invalidArgument ("Encountered invalid target change type: " ++ toString change.kind.toInt))
  /-- An acknowledgement of no target, or of another than the watch's. -/
  | misaddressed {change : TargetChange} : change.kind = 1 →
      change.targetIds = [] ∨ (∃ id ∈ change.targetIds, id ≠ 1) →
      Fatal w (.response (.targetChange change)) (.invalidArgument "Target ID must be 0x01")
  | rejected {change : TargetChange} {cause : Status} {code : Code} : change.kind = 2 →
      change.cause = some cause → Means cause.code.toInt code →
      Fatal w (.response (.targetChange change))
        (.serverRejection code ("Backend ended Listen stream: " ++ cause.message))
  | cancelled {change : TargetChange} : change.kind = 2 → change.cause = none →
      Fatal w (.response (.targetChange change))
        (.serverRejection .cancelled "Backend ended Listen stream: ")
  | lacking {change : DocumentChange} : 1 ∈ change.targetIds ∨ 1 ∈ change.removedTargetIds →
      change.document = none →
      Fatal w (.response (.documentChange change)) (.invalidArgument "Document change without a document")
  /-- The mismatch with which the count comes to its limit. -/
  | mismatched {filter : ExistenceFilter} : 0 < w.settings.maxFilterMismatches →
      filter.count.toInt ≠ w.pending.projectedSize w.documents →
      w.filterMismatches.toNat + 1 = w.settings.maxFilterMismatches.toNat →
      Fatal w (.response (.filter filter)) (.filterMismatch w.settings.maxFilterMismatches)
  | refused {failure : StreamError} {e : WatchError} : failure.Permanent e → Fatal w (.refused failure) e
  | failed {failure : StreamError} {e : WatchError} : failure.Permanent e → Fatal w (.failure failure) e

theorem misaddressed_iff : isAcknowledged change = false ↔
    change.targetIds = [] ∨ ∃ id ∈ change.targetIds, id ≠ 1 := by
  cases hids : change.targetIds with
  | nil => simp [isAcknowledged, hids]
  | cons id ids => simp [isAcknowledged, hids, ListenTarget.watchId, imp_iff_not_or]

theorem means_iff {number : Int} {code : Code} : Means number code ↔ Code.ofNumber number = code := by
  constructor
  · rintro (rfl | ⟨hnone, rfl⟩)
    · exact Code.ofNumber_number code
    · exact (Code.number_ofNumber number).resolve_left (hnone _)
  · rintro rfl
    by_cases hnone : ∀ c : Code, c.number ≠ number
    · exact Or.inr ⟨hnone, (Code.number_ofNumber number).resolve_left (hnone _)⟩
    · obtain ⟨c, hc⟩ := not_forall_not.1 hnone
      rw [← hc, Code.ofNumber_number]
      exact Or.inl rfl

/-- Whether the count of mismatches is below its limit, if it has one. -/
def IsBelowLimit (w : Worker) : Prop :=
  0 < w.settings.maxFilterMismatches → w.filterMismatches < w.settings.maxFilterMismatches

theorem Reacts.fatal (h : w.Reacts response r) (hcount : w.IsBelowLimit)
    (hverdict : r.verdict = .close e) : w.Fatal (.response response) e := by
  cases h with
  | unset =>
    cases hverdict
    exact .unset
  | unknown hkind =>
    cases hverdict
    exact .unknown (TargetChangeKind.ofNumber?_eq_none_iff.1 hkind)
  | misaddress hkind hack =>
    cases hverdict
    exact .misaddressed (TargetChangeKind.ofNumber?_eq_some_iff.1 hkind) (misaddressed_iff.1 hack)
  | @reject change hkind =>
    rw [TargetChangeKind.ofNumber?_eq_some_iff] at hkind
    cases hcause : change.cause with
    | none =>
      rw [hcause] at hverdict
      cases hverdict
      exact .cancelled hkind hcause
    | some cause =>
      rw [hcause] at hverdict
      cases hverdict
      exact .rejected hkind hcause (means_iff.2 rfl)
  | lack hconcerned hnone =>
    cases hverdict
    exact .lacking hconcerned hnone
  | giveUp hne hroom hlimit =>
    have hsucc := toNat_succ_of_lt (hcount hlimit.1)
    have heq := succ_eq_limit (hcount hlimit.1) hlimit.2
    cases hverdict
    rw [heq] at hsucc ⊢
    exact .mismatched hlimit.1 hne hsucc.symm
  | idle | materialize | acknowledge | current | reset | ignore | upsert | leave | delete | remove | agree
  | overflow | disagree => cases hverdict

theorem Fatal.verdict (h : w.Fatal a e) (hcount : w.IsBelowLimit) :
    (w.receive a).verdict = .close e := by
  cases h with
  | unset => rfl
  | unknown hkind =>
    rw [← TargetChangeKind.ofNumber?_eq_none_iff] at hkind
    simp [receive, onResponse, onTargetChange, hkind, close]
  | misaddressed hkind hids =>
    have hkind : TargetChangeKind.ofNumber? _ = some .add :=
      TargetChangeKind.ofNumber?_eq_some_iff.2 hkind
    have hack := misaddressed_iff.2 hids
    simp only [receive, onResponse, onTargetChange, hkind, hack, close]
    rfl
  | rejected hkind hcause hcode =>
    have hkind : TargetChangeKind.ofNumber? _ = some .remove :=
      TargetChangeKind.ofNumber?_eq_some_iff.2 hkind
    simp only [receive, onResponse, onTargetChange, hkind, hcause, rejection, means_iff.1 hcode, close]
  | cancelled hkind hcause =>
    have hkind : TargetChangeKind.ofNumber? _ = some .remove :=
      TargetChangeKind.ofNumber?_eq_some_iff.2 hkind
    simp only [receive, onResponse, onTargetChange, hkind, hcause, rejection, close]
  | @lacking change hconcerned hnone =>
    have hconcerned : (change.targetIds.contains ListenTarget.watchId ||
        change.removedTargetIds.contains ListenTarget.watchId) = true := by
      simpa [ListenTarget.watchId] using hconcerned
    simp only [receive, onResponse, onDocumentChange, hconcerned, hnone, if_true, close]
  | mismatched hpos hne hlast =>
    rcases onFilter_of_lt (hcount hpos) _ hne with ⟨hroom, -⟩ | ⟨-, mismatch, heq⟩
    · omega
    · simp only [receive, onResponse, heq]
      rfl
  | refused hpermanent => exact verdict_onStreamError_iff.2 hpermanent
  | failed hpermanent => exact verdict_onStreamError_iff.2 hpermanent

/-- A worker closes the watch at the fatal inputs and at no others. -/
theorem verdict_eq_close_iff (hcount : w.IsBelowLimit) :
    (w.receive a).verdict = .close e ↔ w.Fatal a e := by
  refine ⟨?_, fun h => h.verdict hcount⟩
  intro hverdict
  cases a with
  | response response => exact (reacts_onResponse w response).fatal hcount hverdict
  | refused failure => exact .refused (verdict_onStreamError_iff.1 hverdict)
  | failure failure => exact .failed (verdict_onStreamError_iff.1 hverdict)
  | completion =>
    -- a stream that ends counts as one that failed for an unknown reason
    cases hverdict
  | elapse | connected | start | deactivate | cancel | work | take | check | hand => cases hverdict

end Worker

namespace Session

variable {draw : Binary64 → Binary64 → Binary64} {s s' : Session} {a : Action}
  {actions more : List Action} {w : Worker} {e : WatchError} {target : ListenTarget}
  {order : DocumentOrder} {settings : ListenSettings} {policy : BackoffPolicy}

/-- The worker of an open watch that is not about to close it. -/
structure IsSafe (s : Session) : Prop where
  state : s.shared.state ≠ .closed
  closing : ∀ e, s.phase ≠ .closing e
  errors : s.errors = []

theorem isInput_of_accepts (haccepts : s.accepts a = true) : a.isInput = true := by
  have hreply := isReply_of_accepts haccepts
  cases a <;> first | rfl | exact hreply

/-- Without an input or a removal an open watch stays open. -/
theorem safe_step? (h : s.IsSafe) (hreported : s.Reported) (hstep : s.step? draw a = some s')
    (ha : a.isInput = false) (hdeactivate : a ≠ .deactivate) : s'.IsSafe := by
  have hreporting := (hreported.of_open h.state).2
  have herrors := (errors_eq_step? hreporting hstep).trans h.errors
  cases Step.of_step? hstep with
  | start => exact ⟨by simp, by simp, herrors⟩
  | refuse | cancel | take | drop | pass | hand => exact ⟨h.state, h.closing, herrors⟩
  | deactivate => exact absurd rfl hdeactivate
  | launch | forgo | resume => exact ⟨h.state, by simp, herrors⟩
  | leave | breakDown => exact ⟨h.state, by simp [stop], herrors⟩
  | stream | reconnect =>
    refine ⟨?_, by simp, herrors⟩
    simp [Shared.transition, h.state]
  | close hphase | concede hphase => exact absurd hphase (h.closing _)
  | report hphase =>
    rw [hphase] at hreporting
    cases hreporting
  | finish _ hclosed => exact absurd hclosed h.state
  | elapse | connected => cases ha
  | absorb haccepts =>
    rw [isInput_of_accepts haccepts] at ha
    cases ha

/-- The worker closes the watch for an error and for nothing else: it is about to, or to say so, or it has
said so. -/
inductive ClosingFor (s : Session) (e : WatchError) : Prop
  | closing : s.phase = .closing e → s.shared.state.isActive = true → s.errors = [] → ClosingFor s e
  | reporting : s.phase = .reporting e → s.shared.state = .closed → s.errors = [] → ClosingFor s e
  | settled : s.IsOver → s.errors = [e] → ClosingFor s e

theorem closingFor_step? (h : s.ClosingFor e) (hstep : s.step? draw a = some s')
    (hdeactivate : a ≠ .deactivate) : s'.ClosingFor e := by
  cases h with
  | closing hphase hactive hnil =>
    by_cases hwork : a = .work
    · rw [hwork] at hstep
      simp only [step?, work?, hphase, Shared.deactivate, hactive, if_true, Option.some.injEq] at hstep
      rw [← hstep]
      exact .reporting rfl rfl hnil
    · have hidle := (Lifecycle.isActive_iff.1 hactive).1
      obtain ⟨hsame, herrors, hstate⟩ :=
        phase_step? hstep hwork (by simp [hphase]) (by simp [hphase]) hidle
      exact .closing (hsame.trans hphase) (hstate hdeactivate ▸ hactive) (herrors.trans hnil)
  | reporting hphase hclosed hnil =>
    by_cases hwork : a = .work
    · rw [hwork] at hstep
      simp only [step?, work?, hphase, Option.some.injEq] at hstep
      rw [← hstep]
      refine .settled ⟨hclosed, rfl⟩ ?_
      simp only [errors, List.filterMap_append]
      rw [← errors, hnil]
      rfl
    · have hidle : s.shared.state ≠ .idle := by simp [hclosed]
      obtain ⟨hsame, herrors, -⟩ := phase_step? hstep hwork (by simp [hphase]) (by simp [hphase]) hidle
      exact .reporting (hsame.trans hphase) (closed_step? hstep (Or.inl hclosed)) (herrors.trans hnil)
  | settled hover herrors =>
    exact .settled (over_step? hover hstep) ((errors_eq_step? hover.reporting hstep).trans herrors)

theorem Run.closingFor (hmore : s.Run more s') (h : s.ClosingFor e) (hdeactivate : .deactivate ∉ more) :
    s'.ClosingFor e := by
  induction hmore with
  | nil => exact h
  | snoc _ hstep ih =>
    rw [List.mem_append, not_or, List.mem_singleton] at hdeactivate
    exact closingFor_step? (ih hdeactivate.1) hstep (Ne.symm hdeactivate.2)

/-- The worker closes the watch for an error: by its next steps, and with this error alone whatever happens
in between, unless it is a removal. -/
structure Closes (s : Session) (e : WatchError) : Prop where
  soon : ∃ t, s.Run [.work, .work, .work] t ∧ t.phase = .stopped ∧ t.shared.state = .closed ∧
    t.errors = [e]
  always : ∀ more t, s.Run more t → .deactivate ∉ more → (t.errors = [] ∨ t.errors = [e]) ∧
    (t.phase = .stopped → t.shared.state = .closed ∧ t.errors = [e])

/-- Until there is another input or a removal, the watch is open and no error is sent. The worker does not
stop, unless it breaks. -/
def StaysOpen (s : Session) : Prop :=
  ∀ more t, s.Run more t → (∀ b ∈ more, b.isInput = false ∧ b ≠ .deactivate) →
    t.shared.state ≠ .closed ∧ t.errors = [] ∧ (t.phase = .stopped → t.IsBroken)

theorem ClosingFor.closes (hphase : s.phase = .closing e) (hactive : s.shared.state.isActive = true)
    (hnil : s.errors = []) : s.Closes e := by
  refine ⟨?_, ?_⟩
  · obtain ⟨t, hrun, hstopped, hclosed, herrors⟩ := exists_run_closed hphase hactive
    exact ⟨t, hrun, hstopped, hclosed, by rw [herrors, hnil, List.nil_append]⟩
  · intro more t hrun hdeactivate
    cases hrun.closingFor (.closing hphase hactive hnil) hdeactivate with
    | closing hclosing _ hnil | reporting hclosing _ hnil =>
      refine ⟨Or.inl hnil, fun hstopped => ?_⟩
      cases hclosing.symm.trans hstopped
    | settled hover herrors => exact ⟨Or.inr herrors, fun _ => ⟨hover.state, herrors⟩⟩

theorem Run.safe (h : (initial w).Run actions s) (hsafe : s.IsSafe) (hmore : s.Run more s')
    (hquiet : ∀ b ∈ more, b.isInput = false ∧ b ≠ .deactivate) : s'.IsSafe := by
  induction hmore with
  | nil => exact hsafe
  | @snoc more s' a s'' draw hrun hstep ih =>
    obtain ⟨ha, hdeactivate⟩ := hquiet a (by simp)
    exact safe_step? (ih fun b hb => hquiet b (List.mem_append_left _ hb)) (h.append hrun).reported hstep ha
      hdeactivate

theorem Run.staysOpen (h : (initial w).Run actions s) (hsafe : s.IsSafe) : s.StaysOpen := by
  intro more t hmore hquiet
  have hsafe' := h.safe hsafe hmore hquiet
  refine ⟨hsafe'.state, hsafe'.errors, fun hstopped => ?_⟩
  exact ((h.append hmore).stopped hstopped).resolve_left hsafe'.state

/-- What the worker makes of an input decides whether it is about to close the watch. -/
theorem isInput_step? (hstep : s.step? draw a = some s') (ha : a.isInput = true) :
    ¬ s.IsEnding ∧ s.phase ≠ .unborn ∧ s'.shared = s.shared ∧
      ∀ e, s'.phase = .closing e ↔ (s.worker.receive a).verdict = .close e := by
  cases Step.of_step? hstep with
  | elapse hphase => simp [IsEnding, hphase, Worker.receive, Worker.stay]
  | connected hawaiting =>
    obtain ⟨⟨request, hphase⟩, -⟩ := isAwaiting_iff.1 hawaiting
    simp [IsEnding, hphase, Worker.receive, Worker.stay]
  | absorb haccepts =>
    obtain ⟨worker, phase, -, heq⟩ := absorb_eq s (s.worker.receive a)
    have hshared : (s.absorb (s.worker.receive a)).shared = s.shared := by rw [heq]
    simp only [phase_absorb, Verdict.phase_eq_closing_iff, implies_true, hshared, and_true]
    rcases phase_of_accepts haccepts with hphase | ⟨request, hphase⟩ <;> simp [IsEnding, hphase]
  | start | refuse | deactivate | cancel | launch | leave | forgo | breakDown | stream | reconnect | close
  | concede | report | finish | resume | take | drop | pass | hand => cases ha

/-- While no removal interferes, an input closes an open watch if and only if it is fatal, and the listener
is told just the error that goes with it. Every other input leaves the watch open. -/
theorem Run.closes_iff_fatal (h : (initial (.initial target order settings policy)).Run actions s)
    (hopen : s.shared.state ≠ .closed) (hstep : s.step? draw a = some s') (ha : a.isInput = true) :
    (∀ e, s'.Closes e ↔ s.worker.Fatal a e) ∧ ((∀ e, ¬ s.worker.Fatal a e) → s'.StaysOpen) := by
  obtain ⟨hending, hborn, hshared, hclosing⟩ := isInput_step? hstep ha
  have hcount : s.worker.IsBelowLimit := by
    have hsettings : s.worker.settings = settings := h.configuration.2
    unfold Worker.IsBelowLimit
    rw [hsettings]
    intro hlimit
    exact (h.bounded rfl rfl hlimit).below.resolve_right fun hlast => hending hlast.2.1
  simp only [Worker.verdict_eq_close_iff hcount] at hclosing
  have h' := h.snoc hstep
  obtain ⟨hsilent, hreporting⟩ := h.reported.of_open hopen
  have hnil : s'.errors = [] := (errors_eq_step? hreporting hstep).trans hsilent
  have hcloses (e : WatchError) (hfatal : s.worker.Fatal a e) : s'.Closes e := by
    refine ClosingFor.closes ((hclosing e).2 hfatal) ?_ hnil
    rw [hshared]
    exact Lifecycle.isActive_iff.2 ⟨state_ne_idle_of_phase (h.linked rfl) hborn, hopen⟩
  have hstays (hnone : ∀ e, ¬ s.worker.Fatal a e) : s'.StaysOpen :=
    h'.staysOpen ⟨hshared ▸ hopen, fun e => mt (hclosing e).1 (hnone e), hnil⟩
  refine ⟨fun e => ⟨?_, hcloses e⟩, hstays⟩
  rintro ⟨⟨t, hrun, hstopped, hclosed, herrors⟩, -⟩
  by_cases hfatal : ∃ e', s.worker.Fatal a e'
  · obtain ⟨e', hfatal⟩ := hfatal
    -- the same run ends with the one error and with the other
    have hsame := ((hcloses e' hfatal).always _ t hrun (by simp)).2 hstopped
    cases herrors.symm.trans hsame.2
    exact hfatal
  · have hopen' := (hstays (not_exists.1 hfatal) _ t hrun (by simp [Action.isInput, Action.isReply])).1
    exact absurd hclosed hopen'

/-- A failure that a proxy passes on. -/
def denied : StreamError := .wrapper "transport" (.status .permissionDenied "no access")

theorem permanent_denied : denied.Permanent (.stream .permissionDenied "no access") := by
  have hchain : denied.chain = [denied] ++ .status .permissionDenied "no access" :: [] := rfl
  have hnone : ∀ d ∈ [denied], d.own? = none := by simp [denied, StreamError.own?]
  exact .lasting hchain hnone (by decide)

/-- The same stream may fail for good, or just end. -/
theorem closes_iff_fatal_denied : ∃ s s' s'', (watchOf "c/a").Run (firstSnapshot "c/a" ++ [.work]) s ∧
    s.step? (fun low _ => low) (.failure denied) = some s' ∧
    s'.Closes (.stream .permissionDenied "no access") ∧
    s.step? (fun low _ => low) .completion = some s'' ∧ s''.StaysOpen := by
  have hrun : ((watchOf "c/a").run? (fun low _ => low) (firstSnapshot "c/a" ++ [.work])).bind (fun s =>
      (s.step? (fun low _ => low) (.failure denied)).bind fun _ =>
        (s.step? (fun low _ => low) .completion).map fun _ => decide (s.shared.state ≠ .closed)) =
      some true := by
    decide +kernel
  obtain ⟨s, hs, hrest⟩ := Option.bind_eq_some_iff.1 hrun
  obtain ⟨s', hs', hrest⟩ := Option.bind_eq_some_iff.1 hrest
  obtain ⟨s'', hs'', hchecked⟩ := Option.map_eq_some_iff.1 hrest
  have hopen := of_decide_eq_true hchecked
  obtain ⟨hcloses, -⟩ := (Run.of_run? hs).closes_iff_fatal hopen hs' rfl
  obtain ⟨-, hstays⟩ := (Run.of_run? hs).closes_iff_fatal hopen hs'' rfl
  exact ⟨s, s', s'', .of_run? hs, hs', (hcloses _).2 (.failed permanent_denied), hs'', hstays nofun⟩

end Session

end LiveQuery
