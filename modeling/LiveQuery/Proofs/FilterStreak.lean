import LiveQuery.Proofs.Closing
import LiveQuery.Proofs.Resumption
import LiveQuery.Proofs.Schedule

namespace LiveQuery

/-- How many of a history of filters disagreed since the last one that agreed. -/
def streak (history : List Bool) : Nat := (history.reverse.takeWhile (!·)).length

theorem streak_snoc (history : List Bool) (agrees : Bool) :
    streak (history ++ [agrees]) = if agrees then 0 else streak history + 1 := by
  unfold streak
  rw [List.reverse_append]
  cases agrees <;> rfl

namespace Worker

variable {w w' : Worker} {a : Action} {response : ListenResponse} {r : Reaction} {m : UInt32}

/-- The size that the documents have once the pending changes are applied. -/
def appliedSize (w : Worker) : Nat := (w.documents.apply (w.pending.against w.documents none)).1.size

theorem Sound.projectedSize_eq (h : w.Sound) : w.pending.projectedSize w.documents = w.appliedSize := by
  have hfits := PendingChanges.fits_against h.wellFormed h.keyed none
  obtain ⟨-, diff, happly, -⟩ := hfits.apply_replays h.wellFormed
  rw [PendingChanges.projectedSize_eq h.wellFormed h.keyed none, appliedSize, happly]

/-- The read time at which the changes are applied makes no difference to the size. -/
theorem Sound.size_materialize (h : w.Sound) (readTime : Timestamp) (token : Bytes) :
    (w.materialize readTime token).1.documents.size = w.appliedSize := by
  rw [(h.materialize readTime token).1, ← h.projectedSize_eq,
    PendingChanges.projectedSize_eq h.wellFormed h.keyed (some readTime)]

/-- Whether an existence filter agrees with what the worker is about to hold. -/
def agreement? (w : Worker) : Action → Option Bool
  | .response (.filter filter) => some (decide (filter.count.toInt = w.appliedSize))
  | _ => none

/-- Which of the existence filters among actions agreed. -/
def agreements : Worker → List Action → List Bool
  | _, [] => []
  | w, a :: actions => (w.agreement? a).toList ++ (w.receive a).worker.agreements actions

theorem agreements_snoc (w : Worker) (actions : List Action) (a : Action) :
    w.agreements (actions ++ [a]) =
      w.agreements actions ++ ((w.receiveAll actions).agreement? a).toList := by
  induction actions generalizing w with
  | nil => simp [agreements, receiveAll]
  | cons b actions ih =>
    simp only [List.cons_append, agreements, ih, List.append_assoc]
    rfl

theorem agreement?_of_not_isFilter (w : Worker) (ha : a.isFilter = false) : w.agreement? a = none := by
  unfold agreement?
  split
  · cases ha
  · rfl

theorem agreement?_congr (heq : w'.detached = w.detached) (a : Action) :
    w'.agreement? a = w.agreement? a := by
  obtain ⟨hdocs, hpending, -⟩ := known_of_detached_eq heq
  unfold agreement? appliedSize
  rw [hdocs, hpending]

theorem toNat_succ_of_lt (hlt : w.filterMismatches < w.settings.maxFilterMismatches) :
    (w.filterMismatches + 1).toNat = w.filterMismatches.toNat + 1 := by
  have hlimit := w.settings.maxFilterMismatches.toNat_lt
  rw [UInt32.lt_iff_toNat_lt] at hlt
  rw [UInt32.toNat_add]
  exact Nat.mod_eq_of_lt (by change w.filterMismatches.toNat + 1 < 2 ^ 32; omega)

/-- The mismatch that is one too many comes just at the limit. -/
theorem succ_eq_limit (hlt : w.filterMismatches < w.settings.maxFilterMismatches)
    (hle : w.settings.maxFilterMismatches ≤ w.filterMismatches + 1) :
    w.filterMismatches + 1 = w.settings.maxFilterMismatches := by
  have hsucc := toNat_succ_of_lt hlt
  rw [UInt32.lt_iff_toNat_lt] at hlt
  rw [UInt32.le_iff_toNat_le] at hle
  exact UInt32.toNat_inj.1 (by omega)

theorem onFilter_of_agree {filter : ExistenceFilter}
    (hagree : filter.count.toInt = w.pending.projectedSize w.documents) :
    w.onFilter filter = stay { w with filterMismatches := 0 } := if_pos hagree

/-- Below its limit the worker counts a filter that disagrees, and starts over or gives up. -/
theorem onFilter_of_lt (hlt : w.filterMismatches < w.settings.maxFilterMismatches)
    (filter : ExistenceFilter) (hne : filter.count.toInt ≠ w.pending.projectedSize w.documents) :
    (w.filterMismatches.toNat + 1 < w.settings.maxFilterMismatches.toNat ∧
        ∃ mismatch, w.onFilter filter =
          { reconnect (resetDocuments { w with filterMismatches := w.filterMismatches + 1 }) with
            mismatch := some mismatch }) ∨
      (w.filterMismatches + 1 = w.settings.maxFilterMismatches ∧
        ∃ mismatch, w.onFilter filter =
          { close { w with filterMismatches := w.settings.maxFilterMismatches }
              (.filterMismatch w.settings.maxFilterMismatches) with mismatch := some mismatch }) := by
  have hsucc := toNat_succ_of_lt hlt
  have hreacts := reacts_onFilter w filter
  generalize w.onFilter filter = r at hreacts
  cases hreacts with
  | agree hagree => exact absurd hagree hne
  | overflow _ hfull =>
    have hmax := (w.filterMismatches + 1).toNat_lt
    change _ = 2 ^ 32 at hfull
    omega
  | giveUp _ _ hlimit =>
    have heq := succ_eq_limit hlt hlimit.2
    refine Or.inr ⟨heq,
      ⟨filter.count, w.pending.projectedSize w.documents, w.filterMismatches + 1⟩, ?_⟩
    rw [← heq]
  | disagree _ _ hlimit =>
    refine Or.inl ⟨?_, _, rfl⟩
    rw [UInt32.lt_iff_toNat_lt] at hlt
    rw [UInt32.lt_iff_toNat_lt, UInt32.le_iff_toNat_le, hsucc] at hlimit
    change ¬ (0 < _ ∧ _) at hlimit
    omega

theorem Reacts.of_filterMismatch (h : w.Reacts response r)
    (hverdict : r.verdict = .close (.filterMismatch m)) :
    r.worker.filterMismatches = m ∧ (Action.response response).isFilter = true := by
  cases h with
  | giveUp =>
    cases hverdict
    exact ⟨rfl, rfl⟩
  | @reject change =>
    cases hcause : change.cause <;> simp [Worker.close, rejection, hcause] at hverdict
  | unset | unknown | idle | materialize | acknowledge | misaddress | current | reset | ignore | lack | upsert
  | leave | delete | remove | agree | overflow | disagree => cases hverdict

/-- Only a filter can be blamed for mismatches. -/
theorem receive_of_filterMismatch (hverdict : (w.receive a).verdict = .close (.filterMismatch m)) :
    (w.receive a).worker.filterMismatches = m ∧ a.isFilter = true := by
  have hfailure (e : StreamError) (hverdict : (w.onStreamError e).verdict = .close (.filterMismatch m)) :
      False := by
    rcases onStreamError_cases w e with heq | ⟨backoff, heq⟩ <;> rw [heq] at hverdict
    · cases hstatus : e.status? <;> simp [Worker.close, WatchError.ofStreamError, hstatus] at hverdict
    · cases hverdict
  cases a with
  | response response => exact (reacts_onResponse w response).of_filterMismatch hverdict
  | refused e | failure e => exact (hfailure e hverdict).elim
  | completion => exact (hfailure _ hverdict).elim
  | elapse | connected | start | deactivate | cancel | work | take | check | hand => cases hverdict

end Worker

namespace Session

variable {draw : Binary64 → Binary64 → Binary64} {s s' : Session} {a : Action} {actions : List Action}
  {w : Worker} {e : WatchError} {limit : UInt32} {target : ListenTarget}
  {order : DocumentOrder} {settings : ListenSettings} {policy : BackoffPolicy}

/-- The watch is closed for an error, or is about to be. -/
def Blames (s : Session) (e : WatchError) : Prop :=
  s.phase = .closing e ∨ s.phase = .reporting e ∨ e ∈ s.errors

/-- The worker is only about to close a watch for what it took in. -/
theorem closing_of_step? (hstep : s.step? draw a = some s') (hclosing : s'.phase = .closing e) :
    s.phase = .closing e ∨ s.accepts a = true ∧ (s.worker.receive a).verdict = .close e := by
  cases Step.of_step? hstep with
  | refuse | deactivate | cancel | take | drop | pass | hand => exact Or.inl hclosing
  | absorb haccepts =>
    rw [phase_absorb, Verdict.phase_eq_closing_iff] at hclosing
    exact Or.inr ⟨haccepts, hclosing⟩
  | start | launch | leave | forgo | breakDown | stream | reconnect | close | concede | report | finish
  | resume | elapse | connected => cases hclosing

theorem blames_step? (hstep : s.step? draw a = some s') (h : s'.Blames e) :
    s.Blames e ∨ s.accepts a = true ∧ (s.worker.receive a).verdict = .close e := by
  rcases h with hclosing | hreporting | hmem
  · exact (closing_of_step? hstep hclosing).imp_left Or.inl
  · rcases reporting_step? hstep hreporting with hbefore | ⟨-, hclosing, -⟩
    · exact Or.inl (Or.inr (Or.inl hbefore))
    · exact Or.inl (Or.inl hclosing)
  · rcases errors_step? hstep hmem with hbefore | hreporting
    · exact Or.inl (Or.inr (Or.inr hbefore))
    · exact Or.inl (Or.inr (Or.inl hreporting))

/-- A worker about to close a watch closes it, or finds that a removal did. -/
theorem closing_step? (h : s.phase = .closing e) (hlinked : s.Linked)
    (hstep : s.step? draw a = some s') : s'.phase = .closing e ∨ s'.shared.state = .closed := by
  by_cases hwork : a = .work
  · rw [hwork] at hstep
    simp only [step?, work?, h, Option.some.injEq] at hstep
    rw [← hstep]
    exact Or.inr rfl
  · have hidle : s.shared.state ≠ .idle := state_ne_idle_of_phase hlinked (by simp [h])
    exact Or.inl ((phase_step? hstep hwork (by simp [h]) (by simp [h]) hidle).1.trans h)

/-- Only a worker that reads its stream takes in a filter, and it carries out what follows. -/
theorem isFilter_step? (hstep : s.step? draw a = some s') (ha : a.isFilter = true) :
    ∃ filter, a = .response (.filter filter) ∧ s.isReading = true ∧
      s' = s.absorb (s.worker.onFilter filter) := by
  cases Step.of_step? hstep with
  | absorb haccepts =>
    cases a with
    | response response =>
      cases response with
      | filter filter => exact ⟨filter, rfl, haccepts, rfl⟩
      | unset | targetChange | documentChange | documentDelete | documentRemove => cases ha
    | start | deactivate | cancel | work | elapse | connected | refused | failure | completion | take
    | check | hand => cases ha
  | start | refuse | deactivate | cancel | launch | leave | forgo | breakDown | stream | reconnect | close
  | concede | report | finish | resume | elapse | connected | take | drop | pass | hand => cases ha

/-- The count of mismatches stays below its limit until the watch is closed for it. -/
structure Bounded (s : Session) (limit : UInt32) : Prop where
  below : s.worker.filterMismatches < limit ∨ s.worker.filterMismatches = limit ∧ s.IsEnding ∧
    (s.phase = .closing (.filterMismatch limit) ∨ s.shared.state = .closed)
  blames : ∀ m, s.Blames (.filterMismatch m) → m = limit ∧ s.worker.filterMismatches = limit

/-- A step that takes in no filter. -/
theorem Bounded.aside (h : s.Bounded limit) (hlinked : s.Linked)
    (hstep : s.step? draw a = some s') (ha : a.isFilter = false) : s'.Bounded limit := by
  have hcount := filterMismatches_step? hstep ha
  refine ⟨?_, ?_⟩
  · rw [hcount]
    refine h.below.imp_right ?_
    rintro ⟨heq, hending, hend⟩
    refine ⟨heq, ending_step? hending hlinked hstep, ?_⟩
    rcases hend with hclosing | hclosed
    · exact closing_step? hclosing hlinked hstep
    · exact Or.inr (closed_step? hstep (Or.inl hclosed))
  · intro m hblames
    rw [hcount]
    rcases blames_step? hstep hblames with hbefore | ⟨-, hverdict⟩
    · exact h.blames m hbefore
    · rw [(Worker.receive_of_filterMismatch hverdict).2] at ha
      cases ha

theorem Bounded.lt_of_isReading (h : s.Bounded limit) (hreading : s.isReading = true) :
    s.worker.filterMismatches < limit := by
  rcases h.below with hlt | ⟨-, hending, -⟩
  · exact hlt
  · simp [IsEnding, (isReading_iff.1 hreading).1] at hending

theorem Bounded.filter (h : s.Bounded limit) (hlimit : s.worker.settings.maxFilterMismatches = limit)
    (hstep : s.step? draw a = some s') (ha : a.isFilter = true) : s'.Bounded limit := by
  obtain ⟨filter, rfl, hreading, heq⟩ := isFilter_step? hstep ha
  have hlt := h.lt_of_isReading hreading
  have hblames (hverdict : ∀ m, (s.worker.onFilter filter).verdict = .close (.filterMismatch m) →
      m = limit ∧ s'.worker.filterMismatches = limit) :
      ∀ m, s'.Blames (.filterMismatch m) → m = limit ∧ s'.worker.filterMismatches = limit := by
    intro m hm
    rcases blames_step? hstep hm with hbefore | ⟨-, hnow⟩
    -- a watch already blamed would have come to its limit before
    · rw [(h.blames m hbefore).2] at hlt
      exact absurd hlt (UInt32.lt_irrefl limit)
    · exact hverdict m hnow
  by_cases hagree : filter.count.toInt = s.worker.pending.projectedSize s.worker.documents
  · rw [Worker.onFilter_of_agree hagree] at heq hblames
    refine ⟨Or.inl ?_, hblames nofun⟩
    rw [heq]
    exact UInt32.lt_of_le_of_lt (UInt32.zero_le) hlt
  · rw [← hlimit] at hlt
    have hsucc := Worker.toNat_succ_of_lt hlt
    rcases Worker.onFilter_of_lt hlt filter hagree with
      ⟨hroom, mismatch, hfilter⟩ | ⟨hlast, mismatch, hfilter⟩
    · rw [hfilter] at heq hblames
      refine ⟨Or.inl ?_, hblames nofun⟩
      rw [heq, ← hlimit, UInt32.lt_iff_toNat_lt]
      change (s.worker.filterMismatches + 1).toNat < _
      omega
    · rw [hfilter, hlimit] at heq hblames
      have hcount : s'.worker.filterMismatches = limit := by
        rw [heq]
        rfl
      have hclosing : s'.phase = .closing (.filterMismatch limit) := by
        rw [heq]
        rfl
      refine ⟨Or.inr ⟨hcount, ?_, Or.inl hclosing⟩, hblames ?_⟩
      · simp [IsEnding, hclosing]
      · rintro m ⟨⟩
        exact ⟨rfl, hcount⟩

theorem Run.bounded (h : (initial w).Run actions s) (hw : w.stream = none) (hzero : w.filterMismatches = 0)
    (hlimit : 0 < w.settings.maxFilterMismatches) : s.Bounded w.settings.maxFilterMismatches := by
  induction h with
  | nil => exact ⟨Or.inl (hzero ▸ hlimit), by simp [Blames, initial, errors]⟩
  | @snoc actions s a s' draw hrun hstep ih =>
    cases ha : a.isFilter with
    | true => exact ih.filter (congrArg _ hrun.configuration.2) hstep ha
    | false => exact ih.aside (hrun.linked hw) hstep ha

theorem Run.sound (h : s.Run actions s') (hs : s.worker.Sound) : s'.worker.Sound := by
  induction h with
  | nil => exact hs
  | snoc _ hstep ih => exact (ih.receive _).congr (step?_worker hstep).1

/-- The count of mismatches is that of the filters which disagreed since the last one that agreed. -/
theorem Run.filterMismatches_eq_streak (h : (initial w).Run actions s) (hw : w.Sound)
    (hstream : w.stream = none) (hzero : w.filterMismatches = 0)
    (hlimit : 0 < w.settings.maxFilterMismatches) :
    s.worker.filterMismatches.toNat = streak (w.agreements actions) := by
  induction h with
  | nil =>
    change w.filterMismatches.toNat = 0
    rw [hzero]
    rfl
  | @snoc actions s a s' draw hrun hstep ih =>
    have hworker : s.worker.detached = (w.receiveAll actions).detached := hrun.worker
    -- the history is that of the detached worker, whose filters are those of the session
    rw [Worker.agreements_snoc, ← Worker.agreement?_congr hworker]
    cases ha : a.isFilter with
    | false =>
      rw [Worker.agreement?_of_not_isFilter _ ha, Option.toList_none, List.append_nil,
        filterMismatches_step? hstep ha]
      exact ih
    | true =>
      obtain ⟨filter, rfl, hreading, heq⟩ := isFilter_step? hstep ha
      have hsize := (hrun.sound hw).projectedSize_eq
      have hlt := (hrun.bounded hstream hzero hlimit).lt_of_isReading hreading
      have hsettings : s.worker.settings = w.settings := hrun.configuration.2
      rw [← hsettings] at hlt
      simp only [Worker.agreement?, Option.toList_some, streak_snoc, ← ih, ← hsize]
      by_cases hagree : filter.count.toInt = s.worker.pending.projectedSize s.worker.documents
      · rw [heq, Worker.onFilter_of_agree hagree]
        simp only [hagree, decide_true, if_true]
        rfl
      · rw [heq, if_neg (by simpa using hagree), ← Worker.toNat_succ_of_lt hlt]
        rcases Worker.onFilter_of_lt hlt filter hagree with
          ⟨-, mismatch, hfilter⟩ | ⟨hlast, mismatch, hfilter⟩
        · rw [hfilter]
          rfl
        · rw [hfilter, hlast]
          rfl

/-- The worker has given up its stream and its token without a word to the listener. Unless a removal
closes the watch, it goes on to schedule a connection. -/
structure StartsOver (s s' : Session) : Prop where
  phase : s'.phase = .restarting
  stream : s'.worker.stream = none
  resumeToken : s'.worker.resumeToken = none
  sent : s'.sent = s.sent
  scheduled : s'.shared.state ≠ .closed → ∀ draw, ∃ t, s'.step? draw .work = some t ∧
    t.shared.state = .reconnecting ∧ t.worker.timer.isSome = true ∧ t.worker.stream = none ∧
      t.sent = s.sent

/-- The worker is about to close the watch for an error. Unless a removal closes it first, it does so,
tells the listener and stops. -/
structure GivesUp (s : Session) (e : WatchError) (s' : Session) : Prop where
  phase : s'.phase = .closing e
  sent : s'.sent = s.sent
  closes : s'.shared.state ≠ .closed → ∃ t, s'.Run [.work, .work, .work] t ∧ t.phase = .stopped ∧
    t.shared.state = .closed ∧ t.errors = s.errors ++ [e]

theorem startsOver_of_restarting (hphase : s'.phase = .restarting) (hstream : s'.worker.stream = none)
    (htoken : s'.worker.resumeToken = none) (hsent : s'.sent = s.sent) : s.StartsOver s' := by
  refine ⟨hphase, hstream, htoken, hsent, ?_⟩
  intro hopen draw
  have hmoved : s'.shared.transition .reconnecting = (true, { s'.shared with state := .reconnecting }) :=
    if_neg hopen
  have hstep : Step draw s' .work _ := .reconnect hphase
  rw [hmoved] at hstep
  exact ⟨_, hstep.step?, rfl, rfl, hstream, hsent⟩

theorem givesUp_of_closing (hphase : s'.phase = .closing e) (hsent : s'.sent = s.sent)
    (hidle : s'.shared.state ≠ .idle) : s.GivesUp e s' := by
  refine ⟨hphase, hsent, ?_⟩
  intro hopen
  have hactive := Lifecycle.isActive_iff.2 ⟨hidle, hopen⟩
  have herrors : s'.errors = s.errors := congrArg (List.filterMap Event.error?) hsent
  rw [← herrors]
  exact exists_run_closed hphase hactive

/-- The filters that disagreed since the last one that agreed are counted, over every restart. The count
stays below its limit as long as the watch is open, and the watch is closed for mismatches when it comes
to the limit. A filter agrees if it counts what the set will hold once the pending changes are applied.
One that agrees has no further effect; one that disagrees before the limit has the worker start over. -/
theorem Run.mismatches_bounded [order.Lawful]
    (h : (initial (.initial target order settings policy)).Run actions s)
    (hlimit : 0 < settings.maxFilterMismatches) :
    s.worker.filterMismatches.toNat =
        streak ((Worker.initial target order settings policy).agreements actions) ∧
      (s.shared.state ≠ .closed → s.worker.filterMismatches < settings.maxFilterMismatches ∨
        s.phase = .closing (.filterMismatch settings.maxFilterMismatches)) ∧
      (∀ m, s.Blames (.filterMismatch m) → m = settings.maxFilterMismatches ∧
        streak ((Worker.initial target order settings policy).agreements actions) = m.toNat) ∧
      (∀ readTime token, (s.worker.materialize readTime token).1.documents.size = s.worker.appliedSize) ∧
      ∀ draw filter s', s.step? draw (.response (.filter filter)) = some s' →
        (filter.count.toInt = s.worker.appliedSize →
          s' = { s with worker := { s.worker with filterMismatches := 0 }, phase := .settling }) ∧
        (filter.count.toInt ≠ s.worker.appliedSize →
          s.worker.filterMismatches.toNat + 1 < settings.maxFilterMismatches.toNat ∧ s.StartsOver s' ∨
            s.worker.filterMismatches.toNat + 1 = settings.maxFilterMismatches.toNat ∧
              s.GivesUp (.filterMismatch settings.maxFilterMismatches) s') := by
  have hinitial : (Worker.initial target order settings policy).Sound :=
    (Worker.told_initial target order settings policy).sound
  have hsound := h.sound hinitial
  have hbounded : s.Bounded settings.maxFilterMismatches := h.bounded rfl rfl hlimit
  have hstreak := h.filterMismatches_eq_streak hinitial rfl rfl hlimit
  refine ⟨hstreak, ?_, ?_, hsound.size_materialize, ?_⟩
  · intro hopen
    rcases hbounded.below with hlt | ⟨-, -, hclosing | hclosed⟩
    · exact Or.inl hlt
    · exact Or.inr hclosing
    · exact absurd hclosed hopen
  · intro m hblames
    obtain ⟨rfl, hcount⟩ := hbounded.blames m hblames
    exact ⟨rfl, by rw [← hstreak, hcount]⟩
  · intro draw filter s' hstep
    obtain ⟨_, hfilter, hreading, heq⟩ := isFilter_step? hstep rfl
    cases hfilter
    rw [← hsound.projectedSize_eq]
    refine ⟨?_, ?_⟩
    · intro hagree
      rw [heq, Worker.onFilter_of_agree hagree]
      simp [absorb, Worker.stay]
    · intro hne
      have hlt := hbounded.lt_of_isReading hreading
      have hsettings : s.worker.settings = settings := h.configuration.2
      rw [← hsettings] at hlt ⊢
      have hsucc := Worker.toNat_succ_of_lt hlt
      rcases Worker.onFilter_of_lt hlt filter hne with
        ⟨hroom, mismatch, hresult⟩ | ⟨hlast, mismatch, hresult⟩
      · refine Or.inl ⟨hroom, ?_⟩
        rw [heq, hresult]
        exact startsOver_of_restarting rfl rfl rfl (List.append_nil _)
      · refine Or.inr ⟨by rw [← hlast, hsucc], ?_⟩
        rw [heq, hresult]
        have hidle : s.shared.state ≠ .idle :=
          state_ne_idle_of_phase (h.linked rfl) (by simp [(isReading_iff.1 hreading).1])
        exact givesUp_of_closing rfl (List.append_nil _) hidle

/-- A watch that ends with the second mismatch in a row. -/
def wary : Session :=
  initial (.initial (.document (.ofString "c/a")) .byPath
    { ListenSettings.default with maxFilterMismatches := 2 } .default)

/-- A filter that counts five documents. -/
def countFive : Action := .response (.filter ⟨1, 5⟩)

/-- A first stream that ends with a mismatch, and the next one. -/
def afterOneMismatch : List Action :=
  [.start, .work, .elapse, .connected 1, .work, .work, countFive, .work, .work, .elapse, .connected 2, .work,
    .work]

theorem mismatches_bounded_twice : ∃ s s', wary.Run afterOneMismatch s ∧
    s.step? (fun low _ => low) countFive = some s' ∧ s.GivesUp (.filterMismatch 2) s' := by
  have hrun : (wary.run? (fun low _ => low) afterOneMismatch).bind (fun s =>
      (s.step? (fun low _ => low) countFive).map fun _ =>
        decide (s.worker.filterMismatches = 1 ∧ s.worker.appliedSize = 0)) = some true := by
    decide +kernel
  obtain ⟨s, hs, hrest⟩ := Option.bind_eq_some_iff.1 hrun
  obtain ⟨s', hs', hchecked⟩ := Option.map_eq_some_iff.1 hrest
  obtain ⟨hcount, hsize⟩ := of_decide_eq_true hchecked
  obtain ⟨-, -, -, -, hfilter⟩ := (Run.of_run? hs).mismatches_bounded (by decide)
  have hne : (5 : Int32).toInt ≠ s.worker.appliedSize := by
    rw [hsize]
    decide
  refine ⟨s, s', .of_run? hs, hs', ?_⟩
  rcases (hfilter _ _ s' hs').2 hne with ⟨hroom, -⟩ | ⟨-, hgivesUp⟩
  · rw [hcount] at hroom
    exact absurd hroom (by decide)
  · exact hgivesUp

end Session

end LiveQuery
