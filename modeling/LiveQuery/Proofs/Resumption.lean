import LiveQuery.Proofs.FreshStart
import LiveQuery.Proofs.Reaction

namespace LiveQuery

/-- The token with which a request continues. -/
def ListenRequest.token? (request : ListenRequest) : Option Bytes :=
  request.addedTarget?.bind Target.resumeToken?

namespace Worker

variable {w w' : Worker} {a : Action} {response : ListenResponse} {r : Reaction} {token : Bytes}
  {readTime : Timestamp}

/-- A worker continues from its token unless that is empty. -/
theorem token?_request (w : Worker) : w.request.token? = w.resumeToken.filter (!·.isEmpty) := by
  have hresume (target : Target) : (target.withResumeToken w.resumeToken).resumeToken? =
      w.resumeToken.filter (!·.isEmpty) := by
    unfold Target.withResumeToken Target.resumeToken?
    cases w.resumeToken.filter (!·.isEmpty) <;> rfl
  unfold request
  cases w.target <;> exact hresume _

/-- Whether an action makes the worker forget its token: a reset, or a filter that disagrees. -/
def forgets (w : Worker) : Action → Bool
  | .response (.targetChange change) => TargetChangeKind.ofNumber? change.kind = some .reset
  | .response (.filter filter) => filter.count.toInt ≠ w.pending.projectedSize w.documents
  | _ => false

theorem exists_response_of_forgets (h : w.forgets a = true) : ∃ response, a = .response response := by
  cases a with
  | response response => exact ⟨response, rfl⟩
  | start | deactivate | cancel | work | elapse | connected | refused | failure | completion | take | check
  | hand => cases h

theorem resumeToken_receive_of_materialization? (h : w.materialization? a = some (readTime, token)) :
    (w.receive a).worker.resumeToken = if token.isEmpty then none else some token := by
  have hworker := (receive_of_materialization?_eq_some h).1
  exact (known_of_detached_eq hworker).2.2.1

theorem Reacts.resumeToken_of_forgets (h : w.Reacts response r)
    (hforgets : w.forgets (.response response) = true) :
    r.worker.resumeToken = none ∨ (∃ error, r.verdict = .close error) ∨ r.verdict = .overflow := by
  cases h with
  | reset => exact Or.inl (resumeToken_confirmProgress _ _)
  | disagree => exact Or.inl rfl
  | unknown | misaddress | reject | giveUp => exact Or.inr (Or.inl ⟨_, rfl⟩)
  | overflow => exact Or.inr (Or.inr rfl)
  | idle hkind | materialize hkind | acknowledge hkind | current hkind => simp [forgets, hkind] at hforgets
  | agree hagree => simp [forgets, hagree] at hforgets
  | unset | ignore | lack | upsert | leave | delete | remove => cases hforgets

theorem Reacts.resumeToken (h : w.Reacts response r)
    (hm : w.materialization? (.response response) = none)
    (hforgets : w.forgets (.response response) = false) : r.worker.resumeToken = w.resumeToken := by
  cases h with
  | reset hkind => simp [forgets, hkind] at hforgets
  | disagree hne => simp [forgets, hne] at hforgets
  | materialize _ hsome =>
    rw [hm] at hsome
    cases hsome
  | idle | acknowledge | current => exact resumeToken_confirmProgress _ _
  | unset | unknown | misaddress | reject | ignore | lack | upsert | leave | delete | remove | agree
  | overflow | giveUp => rfl

theorem resumeToken_receive (hm : w.materialization? a = none) (hforgets : w.forgets a = false) :
    (w.receive a).worker.resumeToken = w.resumeToken := by
  cases a with
  | response response => exact (reacts_onResponse w response).resumeToken hm hforgets
  | refused e | failure e => exact (kept_onStreamError w e).2.1
  | completion => exact (kept_onStreamError w _).2.1
  | elapse | connected | start | deactivate | cancel | work | take | check | hand => rfl

theorem Reacts.filterMismatches (h : w.Reacts response r)
    (ha : (Action.response response).isFilter = false) :
    r.worker.filterMismatches = w.filterMismatches := by
  cases h with
  | idle | acknowledge | current | reset => exact filterMismatches_confirmProgress _ _
  | materialize => exact filterMismatches_confirmProgress _ _
  | agree | overflow | giveUp | disagree => cases ha
  | unset | unknown | misaddress | reject | ignore | lack | upsert | leave | delete | remove => rfl

/-- Only filters are counted. -/
theorem filterMismatches_receive (w : Worker) (ha : a.isFilter = false) :
    (w.receive a).worker.filterMismatches = w.filterMismatches := by
  cases a with
  | response response => exact (reacts_onResponse w response).filterMismatches ha
  | refused e | failure e => exact (kept_onStreamError w e).2.2
  | completion => exact (kept_onStreamError w _).2.2
  | elapse | connected | start | deactivate | cancel | work | take | check | hand => rfl

/-- A stream that is given up, but not for a filter, neither publishes anything nor costs the token. -/
theorem calm_of_reconnect (hverdict : (w.receive a).verdict = .reconnect) (ha : a.isFilter = false) :
    w.materialization? a = none ∧ w.forgets a = false := by
  cases a with
  | response response =>
    change (w.onResponse response).verdict = .reconnect at hverdict
    have hreacts := reacts_onResponse w response
    generalize w.onResponse response = r at hverdict hreacts
    cases hreacts with
    | disagree => cases ha
    | unset | unknown | idle | materialize | acknowledge | misaddress | reject | current | reset | ignore
    | lack | upsert | leave | delete | remove | agree | overflow | giveUp => cases hverdict
  | start | deactivate | cancel | work | elapse | connected | refused | failure | completion | take | check
  | hand => exact ⟨rfl, rfl⟩

/-- What a worker has when it asks to continue from a token, and again after a stream that broke. -/
structure Restored (w w' : Worker) : Prop where
  documents : w'.documents = w.documents
  pending : w.pending = .empty ∧ w'.pending = .empty
  resumeToken : w'.resumeToken = w.resumeToken
  current : w.current = false ∧ w'.current = false
  hasPushed : w'.hasPushed = w.hasPushed
  filterMismatches : w'.filterMismatches = w.filterMismatches

end Worker

namespace Session

variable {draw : Binary64 → Binary64 → Binary64} {s s' s'' : Session} {a : Action}
  {actions more : List Action} {w : Worker} {request request' : ListenRequest} {token : Bytes}

/-- Where steps lead in which the worker neither applies its pending changes nor forgets its token. -/
inductive Calm (s : Session) : List Action → Session → Prop
  | nil : Calm s [] s
  | snoc {actions : List Action} {s' : Session} {a : Action} {s'' : Session}
      {draw : Binary64 → Binary64 → Binary64} :
      Calm s actions s' → s'.worker.materialization? a = none → s'.worker.forgets a = false →
      s'.step? draw a = some s'' → Calm s (actions ++ [a]) s''

theorem Calm.run (h : s.Calm actions s') : s.Run actions s' := by
  induction h with
  | nil => exact .nil
  | snoc _ _ _ hstep ih => exact ih.snoc hstep

theorem Run.calm (h : s.Run actions s') (hactions : ∀ a ∈ actions, ∀ w : Worker,
    w.materialization? a = none ∧ w.forgets a = false) : s.Calm actions s' := by
  induction h with
  | nil => exact .nil
  | @snoc actions s' a s'' draw _ hstep ih =>
    obtain ⟨hm, hforgets⟩ := hactions a (by simp) s'.worker
    exact (ih fun b hb => hactions b (List.mem_append_left _ hb)).snoc hm hforgets hstep

theorem Calm.append {actions' : List Action} (h : s.Calm actions s') (h' : s'.Calm actions' s'') :
    s.Calm (actions ++ actions') s'' := by
  induction h' with
  | nil => rwa [List.append_nil]
  | snoc _ hm hforgets hstep ih =>
    rw [← List.append_assoc]
    exact ih.snoc hm hforgets hstep

theorem Calm.kept (h : s.Calm actions s') :
    s'.worker.documents = s.worker.documents ∧ s'.worker.resumeToken = s.worker.resumeToken ∧
      s'.worker.hasPushed = s.worker.hasPushed := by
  induction h with
  | nil => exact ⟨rfl, rfl, rfl⟩
  | snoc _ hm hforgets hstep ih =>
    obtain ⟨hdocs, -, htoken, hpushed⟩ := Worker.known_of_detached_eq (step?_worker hstep).1
    have hquiet := Worker.quiet_receive hm
    rw [hdocs, htoken, hpushed, hquiet.documents, hquiet.hasPushed,
      Worker.resumeToken_receive hm hforgets]
    exact ih

theorem filterMismatches_step? (hstep : s.step? draw a = some s') (ha : a.isFilter = false) :
    s'.worker.filterMismatches = s.worker.filterMismatches := by
  obtain ⟨-, -, -, hcount⟩ := Worker.configured_of_detached_eq (step?_worker hstep).1
  rw [hcount, Worker.filterMismatches_receive _ ha]

theorem Run.filterMismatches (h : s.Run actions s') (hactions : ∀ a ∈ actions, a.isFilter = false) :
    s'.worker.filterMismatches = s.worker.filterMismatches := by
  induction h with
  | nil => rfl
  | @snoc actions s' a s'' draw _ hstep ih =>
    rw [filterMismatches_step? hstep (hactions a (by simp))]
    exact ih fun b hb => hactions b (List.mem_append_left _ hb)

theorem Run.configuration (h : s.Run actions s') :
    s'.worker.target = s.worker.target ∧ s'.worker.settings = s.worker.settings := by
  induction h with
  | nil => exact ⟨rfl, rfl⟩
  | @snoc actions s' a s'' draw _ hstep ih =>
    obtain ⟨htarget, hsettings, -⟩ := Worker.configured_of_detached_eq (step?_worker hstep).1
    obtain ⟨htarget', hsettings'⟩ := Worker.configuration_receive s'.worker a
    rw [htarget, hsettings, htarget', hsettings']
    exact ih

/-- Whether the worker will stop without another attempt to connect. -/
def IsEnding (s : Session) : Prop :=
  match s.phase with
  | .closing _ | .stopped => True
  | .reporting _ | .settling => s.shared.state = .closed
  | _ => False

theorem IsEnding.phase_ne (h : s.IsEnding) : s.phase ≠ .connecting request := by
  intro hphase
  simp [IsEnding, hphase] at h

/-- There is no way back from the end. -/
theorem ending_step? (h : s.IsEnding) (hlinked : s.Linked) (hstep : s.step? draw a = some s') :
    s'.IsEnding := by
  cases Step.of_step? hstep with
  | start hidle => simp [IsEnding, hlinked.unborn hidle] at h
  | refuse | cancel | take | drop | pass | hand => exact h
  | deactivate =>
    unfold IsEnding at h ⊢
    cases hphase : s.phase <;> simp_all
  | launch hphase | leave hphase | forgo hphase | breakDown hphase | stream hphase | reconnect hphase
  | elapse hphase => simp [IsEnding, hphase] at h
  | close | concede => exact rfl
  | report hphase =>
    simp only [IsEnding, hphase] at h
    exact h
  | finish => trivial
  | resume hphase hopen =>
    simp only [IsEnding, hphase] at h
    exact absurd h hopen
  | connected hawaiting =>
    obtain ⟨⟨request, hphase⟩, -⟩ := isAwaiting_iff.1 hawaiting
    exact absurd hphase h.phase_ne
  | absorb haccepts =>
    rcases phase_of_accepts haccepts with hphase | ⟨request, hphase⟩
    · simp [IsEnding, hphase] at h
    · exact absurd hphase h.phase_ne

theorem ending_absorb {r : Reaction} (h : (∃ error, r.verdict = .close error) ∨ r.verdict = .overflow) :
    (s.absorb r).IsEnding := by
  unfold absorb
  rcases h with ⟨error, hverdict⟩ | hverdict
  · rw [hverdict]
    trivial
  · rw [hverdict]
    trivial

/-- A token and the documents that go with it come from the last time that the pending changes were
applied, since which the worker did not forget the token. -/
def LeftOff (w : Worker) (actions : List Action) (s : Session) (token : Bytes) : Prop :=
  ∃ before a after s₁ s₂ draw readTime, actions = before ++ a :: after ∧
    (initial w).Run before s₁ ∧ s₁.worker.materialization? a = some (readTime, token) ∧
    s₁.step? draw a = some s₂ ∧ s₂.Calm after s ∧ s.worker.documents = s₂.worker.documents

theorem LeftOff.snoc (h : LeftOff w actions s token) (hm : s.worker.materialization? a = none)
    (hforgets : s.worker.forgets a = false) (hstep : s.step? draw a = some s') :
    LeftOff w (actions ++ [a]) s' token := by
  obtain ⟨before, b, after, s₁, s₂, draw', readTime, rfl, hbefore, hb, hstep', hcalm, -⟩ := h
  have hcalm' := hcalm.snoc hm hforgets hstep
  refine ⟨before, b, after ++ [a], s₁, s₂, draw', readTime, ?_, hbefore, hb, hstep', hcalm',
    hcalm'.kept.1⟩
  rw [List.append_assoc, List.cons_append]

theorem Run.leftOff (hstream : w.stream = none) (hnone : w.resumeToken = none)
    (h : (initial w).Run actions s) (htoken : s.worker.resumeToken = some token) :
    s.IsEnding ∨ LeftOff w actions s token := by
  induction h with
  | nil =>
    change w.resumeToken = some token at htoken
    rw [hnone] at htoken
    cases htoken
  | @snoc actions s a s' draw hrun hstep ih =>
    obtain ⟨-, -, hafter, -⟩ := Worker.known_of_detached_eq (step?_worker hstep).1
    rw [hafter] at htoken
    cases hm : s.worker.materialization? a with
    | some news =>
      obtain ⟨readTime, token'⟩ := news
      rw [Worker.resumeToken_receive_of_materialization? hm] at htoken
      split at htoken <;> cases htoken
      exact Or.inr ⟨actions, a, [], s, s', draw, readTime, rfl, hrun, hm, hstep, .nil, rfl⟩
    | none =>
      cases hforgets : s.worker.forgets a with
      | false =>
        rw [Worker.resumeToken_receive hm hforgets] at htoken
        rcases ih htoken with hending | hleft
        · exact Or.inl (ending_step? hending (hrun.linked hstream) hstep)
        · exact Or.inr (hleft.snoc hm hforgets hstep)
      | true =>
        obtain ⟨response, rfl⟩ := Worker.exists_response_of_forgets hforgets
        cases Step.of_step? hstep with
        | absorb =>
          have hreacts := Worker.reacts_onResponse s.worker response
          rcases hreacts.resumeToken_of_forgets hforgets with hforgot | hend
          · exact absurd (hforgot.symm.trans htoken) nofun
          -- only a watch at its end keeps a token that it should forget
          · exact Or.inl (ending_absorb hend)

/-- An attempt to connect starts with nothing known of the stream. -/
theorem Run.current_eq_false (h : (initial w).Run actions s) (hphase : s.phase = .connecting request) :
    s.worker.current = false := by
  induction h generalizing request with
  | nil => cases hphase
  | @snoc actions s a s' draw _ hstep ih =>
    cases Step.of_step? hstep with
    | refuse | deactivate | cancel | take | drop | pass | hand => exact ih hphase
    | elapse => rfl
    | absorb =>
      unfold absorb at hphase
      cases hverdict : (s.worker.receive a).verdict <;> rw [hverdict] at hphase <;> cases hphase
    | start | launch | leave | forgo | breakDown | stream | reconnect | close | concede | report | finish
    | resume | connected => cases hphase

/-- A worker whose stream failed comes to its next attempt to connect, unless a removal closed the
watch. -/
theorem exists_calm_reconnect (haccepts : s.accepts a = true) (ha : a.isFilter = false)
    (hverdict : (s.worker.receive a).verdict = .reconnect) (hopen : s.shared.state ≠ .closed) :
    ∃ s' request, s.Calm [a, .work, .work, .elapse] s' ∧ s'.phase = .connecting request := by
  obtain ⟨hm, hforgets⟩ := Worker.calm_of_reconnect hverdict ha
  have hremoved : s.shared.removed = false := by
    cases a with
    | refused error => exact (isAwaiting_iff.1 haccepts).2.1
    | response | failure | completion => exact (isReading_iff.1 haccepts).2.1
    | start | deactivate | cancel | work | elapse | connected | take | check | hand => cases haccepts
  let draw : Binary64 → Binary64 → Binary64 := fun low _ => low
  have habsorb : Step draw s a (s.absorb (s.worker.receive a)) := .absorb haccepts
  generalize hs₁ : s.absorb (s.worker.receive a) = s₁ at habsorb
  have hphase : s₁.phase = .restarting := by rw [← hs₁, absorb, hverdict]
  have hmoved : s₁.shared.transition .reconnecting = (true, { s.shared with state := .reconnecting }) := by
    have hshared : s₁.shared = s.shared := by rw [← hs₁, absorb, hverdict]
    rw [hshared, Shared.transition, if_neg hopen]
  let s₂ : Session := { s₁ with
    phase := .settling
    shared := { s.shared with state := .reconnecting }
    worker := s₁.worker.schedule draw }
  have hreconnect : Step draw s₁ .work s₂ := by
    have hstep : Step draw s₁ .work _ := .reconnect hphase
    rwa [hmoved] at hstep
  have hresume : Step draw s₂ .work { s₂ with phase := .ready } := .resume rfl nofun
  have helapse : Step draw { s₂ with phase := .ready } .elapse _ := .elapse rfl hremoved rfl
  have hcalm : s.Calm ([] ++ [a]) s₁ := Calm.nil.snoc hm hforgets habsorb.step?
  have hcalm' := (hcalm.snoc rfl rfl hreconnect.step?).snoc rfl rfl hresume.step?
  exact ⟨_, _, hcalm'.snoc rfl rfl helapse.step?, rfl⟩

variable {target : ListenTarget} {order : DocumentOrder} {settings : ListenSettings}
  {policy : BackoffPolicy}

/-- A worker that connects with a token has nothing pending. -/
theorem Run.pending_eq_empty (h : (initial (.initial target order settings policy)).Run actions s)
    (hphase : s.phase = .connecting request) (htoken : s.worker.resumeToken = some token) :
    s.worker.pending = .empty := by
  have hcleared := h.cleared rfl rfl (Or.inl (by rw [hphase]; rfl))
  have hfilter : afterFilter actions = false := by
    apply Bool.eq_false_iff.2
    intro hfilter
    rw [hcleared.resumeToken hfilter] at htoken
    cases htoken
  rw [hcleared.pending, hfilter]
  rfl

/-- Whatever comes of a stream that continues from a token, unless it is published or costs the token, the
next stream is asked for as this one was, by a worker that has kept nothing of it. -/
theorem Run.restored (h : (initial (.initial target order settings policy)).Run actions s)
    (hphase : s.phase = .connecting request) (htoken : s.worker.resumeToken = some token)
    (hcalm : s.Calm more s') (hmore : ∀ a ∈ more, a.isFilter = false)
    (hphase' : s'.phase = .connecting request') :
    request' = request ∧ s.worker.Restored s'.worker := by
  have h' := h.append hcalm.run
  obtain ⟨hdocs, htoken', hpushed⟩ := hcalm.kept
  obtain ⟨htarget, hsettings⟩ := hcalm.run.configuration
  have hpending' := h'.pending_eq_empty hphase' (htoken'.trans htoken)
  refine ⟨?_, hdocs, ⟨h.pending_eq_empty hphase htoken, hpending'⟩, htoken',
    ⟨h.current_eq_false hphase, h'.current_eq_false hphase'⟩, hpushed, hcalm.run.filterMismatches hmore⟩
  rw [((h.linked rfl).connecting request hphase).2, ((h'.linked rfl).connecting request' hphase').2,
    Worker.request, Worker.request, htarget, hsettings, htoken']

/-- What a worker has in hand when the first response of a stream comes is what it had when it asked for the
stream. -/
theorem Run.known_of_connected {stream : Nat} (h : s.Run more s')
    (hinputs : more.filter Action.isInput = [.connected stream]) :
    s'.worker.current = s.worker.current ∧ s'.worker.pending = s.worker.pending ∧
      s'.worker.documents = s.worker.documents := by
  have hworker := h.worker
  rw [← Worker.receiveAll_filter, hinputs] at hworker
  obtain ⟨hdocs, hpending, -⟩ := Worker.known_of_detached_eq hworker
  obtain ⟨-, -, hcurrent, -⟩ := Worker.configured_of_detached_eq hworker
  exact ⟨hcurrent, hpending, hdocs⟩

/-- Every stream is asked for under the watch's own target, and its first response finds the worker without
a pending version and not caught up. A request with a token continues from the last time that the pending
changes were applied: the worker has the documents of then, and nothing else. Whatever comes of such a
stream before it fails, unless it is published, costs the token or is a filter, the next stream is asked for
in the same way by a worker that has kept nothing of it. -/
theorem Run.resumes_consistently (h : (initial (.initial target order settings policy)).Run actions s)
    (hphase : s.phase = .connecting request) :
    (request.database = settings.database ∧
        ∃ added, request.addedTarget? = some added ∧ added.id = 1) ∧
      (∀ stream more s', s.Run more s' → more.filter Action.isInput = [.connected stream] →
        s'.worker.current = false ∧ (∀ p d, s'.worker.pending.latest? p ≠ some (.upsert d)) ∧
          s'.worker.pending = s.worker.pending ∧ s'.worker.documents = s.worker.documents) ∧
      ∀ token, request.token? = some token →
        token ≠ [] ∧ s.worker.pending = .empty ∧
          LeftOff (.initial target order settings policy) actions s token ∧
          ∀ more s', s.Calm more s' → (∀ a ∈ more, a.isFilter = false) →
            (∀ request', s'.phase = .connecting request' →
              request' = request ∧ s.worker.Restored s'.worker) ∧
            ∀ a, s'.accepts a = true → a.isFilter = false → (s'.worker.receive a).verdict = .reconnect →
              s'.shared.state ≠ .closed → ∃ s'', s'.Calm [a, .work, .work, .elapse] s'' ∧
                s''.phase = .connecting request ∧ s.worker.Restored s''.worker := by
  have hrequest := ((h.linked rfl).connecting request hphase).2
  refine ⟨⟨?_, ?_⟩, ?_, ?_⟩
  · rw [hrequest]
    exact congrArg ListenSettings.database h.configuration.2
  · rw [hrequest, Worker.request]
    refine ⟨_, rfl, ?_⟩
    cases s.worker.target <;> rfl
  · intro stream more s' hmore hinputs
    obtain ⟨hcurrent, hpending, hdocs⟩ := hmore.known_of_connected hinputs
    refine ⟨hcurrent.trans (h.current_eq_false hphase), ?_, hpending, hdocs⟩
    intro p d
    have hcleared := h.cleared rfl rfl (Or.inl (by rw [hphase]; rfl))
    rw [hpending, hcleared.pending]
    cases afterFilter actions with
    | true =>
      simp only [if_true, PendingChanges.latest?_foldl_tombstone, PendingChanges.latest?_empty]
      split <;> nofun
    | false => exact fun hsome => nomatch (PendingChanges.latest?_empty p).symm.trans hsome
  · intro token htoken
    rw [hrequest, Worker.token?_request, Option.filter_eq_some_iff] at htoken
    obtain ⟨htoken, hnonempty⟩ := htoken
    refine ⟨by simpa using hnonempty, h.pending_eq_empty hphase htoken, ?_, ?_⟩
    · rcases h.leftOff rfl rfl htoken with hending | hleft
      · exact absurd hphase hending.phase_ne
      · exact hleft
    · intro more s' hcalm hmore
      refine ⟨fun request' => h.restored hphase htoken hcalm hmore, ?_⟩
      intro a haccepts ha hverdict hopen
      obtain ⟨s'', request', hcalm', hphase'⟩ := exists_calm_reconnect haccepts ha hverdict hopen
      have hmore' : ∀ b ∈ more ++ [a, .work, .work, .elapse], b.isFilter = false := by
        intro b hb
        rcases List.mem_append.1 hb with hb | hb
        · exact hmore b hb
        · simp only [List.mem_cons, List.not_mem_nil, or_false] at hb
          rcases hb with rfl | rfl | rfl | rfl
          · exact ha
          all_goals rfl
      obtain ⟨rfl, hrestored⟩ := h.restored hphase htoken (hcalm.append hcalm') hmore' hphase'
      exact ⟨s'', hcalm', hphase', hrestored⟩

/-- From the first snapshot by a failure to the next attempt to connect. -/
def afterFailure : List Action :=
  firstSnapshot "c/a" ++ [.work, .failure (.status .unavailable ""), .work, .work, .elapse]

/-- A stream that brings a further document and breaks before a read time. -/
def brokenStream : List Action :=
  [.connected 2, .work, .work,
    .response (.documentChange ⟨some ⟨"c/b", [], none, none⟩, [1], []⟩), .work]

theorem resumes_consistently_brokenStream : ∃ s s' s'' request, (watchOf "c/a").Run afterFailure s ∧
    s.phase = .connecting request ∧ request.token? = some [1] ∧ s.Calm brokenStream s' ∧
    s'.worker.pending.entries.length = 1 ∧
    s'.Calm [.completion, .work, .work, .elapse] s'' ∧ s''.phase = .connecting request ∧
    s.worker.Restored s''.worker := by
  have hrun : ((watchOf "c/a").run? (fun low _ => low) afterFailure).bind
      (fun s => (s.run? (fun low _ => low) brokenStream).map fun s' =>
        decide (s.phase = .connecting s.worker.request ∧ s.worker.request.token? = some [1] ∧
          s'.worker.pending.entries.length = 1 ∧ s'.accepts .completion = true ∧
          (s'.worker.receive .completion).verdict = .reconnect ∧ s'.shared.state ≠ .closed)) =
      some true := by
    decide +kernel
  obtain ⟨s, hs, hrest⟩ := Option.bind_eq_some_iff.1 hrun
  obtain ⟨s', hs', hchecked⟩ := Option.map_eq_some_iff.1 hrest
  obtain ⟨hphase, htoken, hlength, haccepts, hverdict, hopen⟩ := of_decide_eq_true hchecked
  have hcalm : s.Calm brokenStream s' := by
    apply (Run.of_run? hs').calm
    intro a ha w
    simp only [brokenStream, List.mem_cons, List.not_mem_nil, or_false] at ha
    rcases ha with rfl | rfl | rfl | rfl | rfl <;> exact ⟨rfl, rfl⟩
  obtain ⟨-, -, hresumed⟩ := (Run.of_run? hs).resumes_consistently hphase
  obtain ⟨-, -, -, hbroken⟩ := hresumed [1] htoken
  obtain ⟨s'', hcalm', hphase', hrestored⟩ :=
    (hbroken brokenStream s' hcalm (by decide)).2 .completion haccepts rfl hverdict hopen
  exact ⟨s, s', s'', _, .of_run? hs, hphase, htoken, hcalm, hlength, hcalm', hphase', hrestored⟩

end Session

end LiveQuery
