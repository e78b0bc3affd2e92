import LiveQuery.Proofs.FreshStart
import LiveQuery.Proofs.Outlook
import LiveQuery.Proofs.Reaction

namespace LiveQuery

/-- Whether a response is a target change without targets that only marks a point of time. -/
def ListenResponse.isCheckpoint : ListenResponse → Bool
  | .targetChange change =>
    TargetChangeKind.ofNumber? change.kind = some .noChange ∧ change.targetIds = []
  | _ => false

/-- What a response makes of the update times in prospect, if the worker stays with the stream. -/
def ListenResponse.update (times : Path → Option (Option Timestamp)) :
    ListenResponse → Path → Option (Option Timestamp)
  | .targetChange change =>
    if TargetChangeKind.ofNumber? change.kind = some .reset then fun _ => none else times
  | .documentChange change =>
    match change.document with
    | some d =>
      if ListenTarget.watchId ∈ change.targetIds then
        Function.update times (Path.ofString d.name) (some d.updateTime)
      else if ListenTarget.watchId ∈ change.removedTargetIds then
        Function.update times (Path.ofString d.name) none
      else times
    | none => times
  | .documentDelete delete => Function.update times (Path.ofString delete.document) none
  | .documentRemove remove => Function.update times (Path.ofString remove.document) none
  | .unset | .filter _ => times

/-- Responses among which further checkpoints may come. -/
inductive Padded : List ListenResponse → List ListenResponse → Prop
  | nil : Padded [] []
  | keep {responses padded : List ListenResponse} (response : ListenResponse) :
      Padded responses padded → Padded (response :: responses) (response :: padded)
  | extra {responses padded : List ListenResponse} {checkpoint : ListenResponse} :
      checkpoint.isCheckpoint = true → Padded responses padded → Padded responses (checkpoint :: padded)

/-- A checkpoint can follow each response. -/
theorem padded_flatMap {checkpoint : ListenResponse} (h : checkpoint.isCheckpoint = true)
    (responses : List ListenResponse) :
    Padded responses (responses.flatMap fun response => [response, checkpoint]) := by
  induction responses with
  | nil => exact .nil
  | cons response responses ih => exact .keep response (.extra h ih)

namespace Worker

variable {w w' w'' : Worker} {a : Action} {response : ListenResponse}
  {responses padded : List ListenResponse} {snaps : List Snapshot} {readTime : Timestamp} {token : Bytes}

/-- What the worker makes of responses, one after the other. -/
def takeIn (w : Worker) (responses : List ListenResponse) : Worker :=
  w.receiveAll (responses.map Action.response)

/-- Whether the worker neither closes nor gives up the stream over responses. -/
def Stays : Worker → List ListenResponse → Prop
  | _, [] => True
  | w, response :: responses =>
    (w.onResponse response).verdict = .stay ∧ (w.onResponse response).worker.Stays responses

instance decidableStays : (w : Worker) → (responses : List ListenResponse) → Decidable (w.Stays responses)
  | _, [] => isTrue trivial
  | w, response :: responses =>
    have := decidableStays (w.onResponse response).worker responses
    inferInstanceAs (Decidable (_ ∧ _))

theorem Stays.snoc (h : w.Stays responses)
    (hlast : ((w.takeIn responses).onResponse response).verdict = .stay) :
    w.Stays (responses ++ [response]) := by
  induction responses generalizing w with
  | nil => exact ⟨hlast, trivial⟩
  | cons first responses ih => exact ⟨h.1, ih h.2 hlast⟩

/-- What follows from a filter, and what is said of it if it disagrees. -/
def judgment? (w : Worker) : ListenResponse → Option (Verdict × Option Mismatch)
  | .filter filter => some ((w.onFilter filter).verdict, (w.onFilter filter).mismatch)
  | _ => none

/-- The judgments of the filters among responses. -/
def judgments : Worker → List ListenResponse → List (Verdict × Option Mismatch)
  | _, [] => []
  | w, response :: responses =>
    (w.judgment? response).toList ++ (w.onResponse response).worker.judgments responses

/-- The documents are in order, and each change waits under its own path. -/
structure Sound (w : Worker) : Prop where
  wellFormed : w.documents.WellFormed
  keyed : w.pending.Keyed

theorem Told.sound (h : w.Told snaps) : w.Sound := ⟨h.wellFormed, h.keyed⟩

theorem Sound.congr (h : w.Sound) (heq : w'.detached = w.detached) : w'.Sound := by
  obtain ⟨hdocs, hpending, -⟩ := known_of_detached_eq heq
  exact ⟨hdocs ▸ h.wellFormed, hpending ▸ h.keyed⟩

/-- Applying the pending changes, as far as the schedule is concerned. -/
theorem Sound.materialize (h : w.Sound) (readTime : Timestamp) (token : Bytes) :
    (w.materialize readTime token).1.documents =
        w.documents.applied (w.pending.against w.documents (some readTime)) ∧
      (w.materialize readTime token).1.pending = .empty ∧ (w.materialize readTime token).1.Sound := by
  obtain ⟨diff, -, -, heq⟩ := materialize_eq h.wellFormed h.keyed readTime token
  have hfits := PendingChanges.fits_against h.wellFormed h.keyed (some readTime)
  rw [heq]
  exact ⟨rfl, rfl, (hfits.apply_replays h.wellFormed).1, PendingChanges.keyed_empty⟩

theorem Sound.receive (h : w.Sound) (a : Action) : (w.receive a).worker.Sound := by
  cases hm : w.materialization? a with
  | none =>
    have hq := quiet_receive hm
    exact ⟨hq.documents ▸ h.wellFormed, hq.keyed h.keyed⟩
  | some news => exact (h.materialize news.1 news.2).2.2.congr (receive_of_materialization?_eq_some hm).1

theorem Sound.takeIn (h : w.Sound) (responses : List ListenResponse) : (w.takeIn responses).Sound := by
  induction responses generalizing w with
  | nil => exact h
  | cons response responses ih => exact ih (h.receive (.response response))

/-- The update time that the worker will hold for a path. -/
def outlook (w : Worker) (p : Path) : Option (Option Timestamp) := w.pending.outlook w.documents p

theorem Sound.outlook_materialize (h : w.Sound) (readTime : Timestamp) (token : Bytes) :
    (w.materialize readTime token).1.outlook = w.outlook := by
  obtain ⟨hdocs, hpending, -⟩ := h.materialize readTime token
  funext p
  rw [outlook, hdocs, hpending, PendingChanges.outlook_empty,
    PendingChanges.map_updateTime_applied h.wellFormed h.keyed]
  rfl

/-- Workers that differ at most in how much of their changes they have applied. -/
structure Agrees (w w' : Worker) : Prop where
  outlook : w'.outlook = w.outlook
  current : w'.current = w.current
  filterMismatches : w'.filterMismatches = w.filterMismatches
  settings : w'.settings = w.settings

theorem Agrees.refl (w : Worker) : w.Agrees w := ⟨rfl, rfl, rfl, rfl⟩

theorem Agrees.symm (h : w.Agrees w') : w'.Agrees w :=
  ⟨h.outlook.symm, h.current.symm, h.filterMismatches.symm, h.settings.symm⟩

theorem Agrees.trans (h : w.Agrees w') (h' : w'.Agrees w'') : w.Agrees w'' :=
  ⟨h'.outlook.trans h.outlook, h'.current.trans h.current,
    h'.filterMismatches.trans h.filterMismatches, h'.settings.trans h.settings⟩

theorem agrees_confirmProgress (w : Worker) (change : TargetChange) :
    w.Agrees (w.confirmProgress change) where
  outlook := by
    funext p
    rw [outlook, pending_confirmProgress, documents_confirmProgress, outlook]
  current := current_confirmProgress w change
  filterMismatches := filterMismatches_confirmProgress w change
  settings := settings_confirmProgress w change

theorem Sound.agrees_materialize (h : w.Sound) (readTime : Timestamp) (token : Bytes) :
    w.Agrees (w.materialize readTime token).1 where
  outlook := h.outlook_materialize readTime token
  current := rfl
  filterMismatches := rfl
  settings := rfl

theorem outlook_upsert (w : Worker) (d : Document) :
    { w with pending := w.pending.upsert d }.outlook =
      Function.update w.outlook (Path.ofString d.name) (some d.updateTime) := by
  funext p
  rw [Function.update_apply]
  simp only [eq_comm (a := p)]
  exact PendingChanges.outlook_upsert w.pending w.documents d p

theorem outlook_tombstone (w : Worker) (q : Path) :
    { w with pending := w.pending.tombstone q }.outlook = Function.update w.outlook q none := by
  funext p
  rw [Function.update_apply]
  simp only [eq_comm (a := p)]
  exact PendingChanges.outlook_tombstone w.pending w.documents q p

theorem Sound.outlook_resetDocuments (h : w.Sound) : w.resetDocuments.outlook = fun _ => none :=
  funext (PendingChanges.outlook_foldl_tombstone_paths h.wellFormed)

/-- What is in prospect follows from the responses alone. When the pending changes are applied does not
come into it. -/
theorem Reacts.outlook {r : Reaction} (h : w.Reacts response r) (hw : w.Sound)
    (hstay : r.verdict = .stay) : r.worker.outlook = response.update w.outlook := by
  have hconfirm (w : Worker) (change : TargetChange) : (w.confirmProgress change).outlook = w.outlook :=
    (agrees_confirmProgress w change).outlook
  cases h with
  | unset | unknown | misaddress | reject | lack | overflow | giveUp | disagree => cases hstay
  | idle hkind | acknowledge hkind => simp [stay, hconfirm, ListenResponse.update, hkind]
  | current hkind =>
    simp only [stay, hconfirm, ListenResponse.update, hkind]
    rfl
  | materialize hkind =>
    simp only [hconfirm, ListenResponse.update, hkind]
    exact hw.outlook_materialize _ _
  | reset hkind => simp [stay, hconfirm, hw.outlook_resetDocuments, ListenResponse.update, hkind]
  | @ignore change hforeign hforeign' =>
    cases hd : change.document <;> simp [stay, ListenResponse.update, hd, hforeign, hforeign']
  | upsert hwatched hd => simp [stay, outlook_upsert, ListenResponse.update, hd, hwatched]
  | leave hleft hremoved hd => simp [stay, outlook_tombstone, ListenResponse.update, hd, hleft, hremoved]
  | delete => exact outlook_tombstone w _
  | remove => exact outlook_tombstone w _
  | agree => rfl

theorem Sound.outlook_takeIn (h : w.Sound) (hstays : w.Stays responses) :
    (w.takeIn responses).outlook = responses.foldl ListenResponse.update w.outlook := by
  induction responses generalizing w with
  | nil => rfl
  | cons response responses ih =>
    have hnext := (reacts_onResponse w response).outlook h hstays.1
    rw [List.foldl_cons, ← hnext]
    exact ih (h.receive (.response response)) hstays.2

namespace Agrees

theorem confirmProgress (h : w.Agrees w') (change : TargetChange) :
    (w.confirmProgress change).Agrees (w'.confirmProgress change) :=
  ((agrees_confirmProgress w change).symm.trans h).trans (agrees_confirmProgress w' change)

theorem materialize (h : w.Agrees w') (hw : w.Sound) (hw' : w'.Sound) (readTime : Timestamp)
    (token : Bytes) : (w.materialize readTime token).1.Agrees (w'.materialize readTime token).1 :=
  ((hw.agrees_materialize readTime token).symm.trans h).trans (hw'.agrees_materialize readTime token)

theorem upsert (h : w.Agrees w') (d : Document) :
    { w with pending := w.pending.upsert d }.Agrees { w' with pending := w'.pending.upsert d } where
  outlook := by rw [outlook_upsert, outlook_upsert, h.outlook]
  current := h.current
  filterMismatches := h.filterMismatches
  settings := h.settings

theorem tombstone (h : w.Agrees w') (q : Path) :
    { w with pending := w.pending.tombstone q }.Agrees
      { w' with pending := w'.pending.tombstone q } where
  outlook := by rw [outlook_tombstone, outlook_tombstone, h.outlook]
  current := h.current
  filterMismatches := h.filterMismatches
  settings := h.settings

/-- The deletions of a reset are those of what is applied, but what is not applied is dropped. -/
theorem resetDocuments (h : w.Agrees w') (hw : w.Sound) (hw' : w'.Sound) :
    w.resetDocuments.Agrees w'.resetDocuments where
  outlook := by rw [hw.outlook_resetDocuments, hw'.outlook_resetDocuments]
  current := rfl
  filterMismatches := h.filterMismatches
  settings := h.settings

theorem projectedSize (h : w.Agrees w') (hw : w.Sound) (hw' : w'.Sound) :
    w'.pending.projectedSize w'.documents = w.pending.projectedSize w.documents :=
  PendingChanges.projectedSize_eq_of_outlook_eq hw.wellFormed hw.keyed hw'.wellFormed hw'.keyed
    (congrFun h.outlook)

end Agrees

/-- What workers make of a response that they take in the same way. -/
structure Alike (r r' : Reaction) : Prop where
  agrees : r.worker.Agrees r'.worker
  verdict : r'.verdict = r.verdict
  mismatch : r'.mismatch = r.mismatch

theorem Agrees.stay (h : w.Agrees w') : Alike w.stay w'.stay := ⟨h, rfl, rfl⟩

theorem Agrees.close (h : w.Agrees w') (error : WatchError) : Alike (w.close error) (w'.close error) :=
  ⟨⟨h.outlook, h.current, h.filterMismatches, h.settings⟩, rfl, rfl⟩

theorem Agrees.onTargetChange (h : w.Agrees w') (hw : w.Sound) (hw' : w'.Sound) (change : TargetChange) :
    Alike (w.onTargetChange change) (w'.onTargetChange change) := by
  have hidle : Alike (w.confirmProgress change).stay (w'.confirmProgress change).stay :=
    (h.confirmProgress change).stay
  unfold Worker.onTargetChange
  cases TargetChangeKind.ofNumber? change.kind with
  | none => exact h.close _
  | some kind =>
    cases kind with
    | noChange =>
      cases change.readTime with
      | none => exact hidle
      | some readTime =>
        simp only [h.current]
        split
        · exact ⟨(h.materialize hw hw' readTime change.resumeToken).confirmProgress change, rfl, rfl⟩
        · exact hidle
    | add =>
      simp only
      split
      · exact hidle
      · exact h.close _
    | remove => exact h.close _
    | current =>
      have hcurrent : { w with current := true }.Agrees { w' with current := true } :=
        ⟨h.outlook, rfl, h.filterMismatches, h.settings⟩
      exact (hcurrent.confirmProgress change).stay
    | reset => exact ((h.resetDocuments hw hw').confirmProgress change).stay

theorem Agrees.onDocumentChange (h : w.Agrees w') (change : DocumentChange) :
    Alike (w.onDocumentChange change) (w'.onDocumentChange change) := by
  unfold Worker.onDocumentChange
  simp only
  split
  · cases change.document with
    | none => exact h.close _
    | some d =>
      simp only
      split
      · exact (h.upsert d).stay
      · exact (h.tombstone (Path.ofString d.name)).stay
  · exact h.stay

/-- A filter counts what is in prospect, so it is judged alike however much of this is applied. -/
theorem Agrees.onFilter (h : w.Agrees w') (hw : w.Sound) (hw' : w'.Sound) (filter : ExistenceFilter) :
    Alike (w.onFilter filter) (w'.onFilter filter) := by
  have hcounted (count : UInt32) : { w with filterMismatches := count }.Agrees
      { w' with settings := w.settings, filterMismatches := count } := ⟨h.outlook, h.current, rfl, rfl⟩
  unfold Worker.onFilter
  simp only [h.projectedSize hw hw', h.filterMismatches, h.settings]
  split
  · exact (hcounted 0).stay
  · split
    · exact ⟨h, rfl, rfl⟩
    · have hcount := hcounted (w.filterMismatches + 1)
      split
      · have hclosed := hcount.close (.filterMismatch (w.filterMismatches + 1))
        exact ⟨hclosed.agrees, rfl, rfl⟩
      · have hreset := hcount.resetDocuments ⟨hw.wellFormed, hw.keyed⟩ ⟨hw'.wellFormed, hw'.keyed⟩
        exact ⟨⟨hreset.outlook, rfl, hreset.filterMismatches, hreset.settings⟩, rfl, rfl⟩

/-- Workers that agree take in a response alike, and agree afterwards. -/
theorem Agrees.onResponse (h : w.Agrees w') (hw : w.Sound) (hw' : w'.Sound) (response : ListenResponse) :
    Alike (w.onResponse response) (w'.onResponse response) := by
  cases response with
  | unset => exact h.close _
  | targetChange change => exact h.onTargetChange hw hw' change
  | documentChange change => exact h.onDocumentChange change
  | documentDelete delete => exact (h.tombstone (Path.ofString delete.document)).stay
  | documentRemove remove => exact (h.tombstone (Path.ofString remove.document)).stay
  | filter filter => exact h.onFilter hw hw' filter

/-- Whether or not a checkpoint applies the pending changes, nothing else comes of it. -/
theorem Sound.agrees_checkpoint (h : w.Sound) (hresponse : response.isCheckpoint = true) :
    w.Agrees (w.onResponse response).worker ∧ (w.onResponse response).verdict = .stay ∧
      w.judgment? response = none := by
  cases response with
  | unset | documentChange | documentDelete | documentRemove | filter => cases hresponse
  | targetChange change =>
    obtain ⟨hkind, -⟩ := of_decide_eq_true hresponse
    have hidle := agrees_confirmProgress w change
    unfold Worker.onResponse Worker.onTargetChange
    simp only [hkind]
    cases change.readTime with
    | none => exact ⟨hidle, rfl, rfl⟩
    | some readTime =>
      simp only
      split
      · have happlied := h.agrees_materialize readTime change.resumeToken
        exact ⟨happlied.trans (agrees_confirmProgress _ change), rfl, rfl⟩
      · exact ⟨hidle, rfl, rfl⟩

theorem Agrees.judgment? (h : w.Agrees w') (hw : w.Sound) (hw' : w'.Sound) (response : ListenResponse) :
    w'.judgment? response = w.judgment? response := by
  cases response with
  | unset | targetChange | documentChange | documentDelete | documentRemove => rfl
  | filter filter =>
    have halike := h.onFilter hw hw' filter
    rw [Worker.judgment?, Worker.judgment?, halike.verdict, halike.mismatch]

/-- Workers that agree still do so after responses that differ in checkpoints. They judge each filter alike,
and the one stays with its stream if the other does. -/
theorem Agrees.takeIn (h : w.Agrees w') (hw : w.Sound) (hw' : w'.Sound)
    (hpadded : Padded responses padded) :
    (w.takeIn responses).Agrees (w'.takeIn padded) ∧ w'.judgments padded = w.judgments responses ∧
      (w.Stays responses → w'.Stays padded) := by
  induction hpadded generalizing w w' with
  | nil => exact ⟨h, rfl, id⟩
  | @keep responses padded response _ ih =>
    have halike := h.onResponse hw hw' response
    obtain ⟨hagrees, hjudgments, hstays⟩ :=
      ih halike.agrees (hw.receive (.response response)) (hw'.receive (.response response))
    refine ⟨hagrees, ?_, ?_⟩
    · rw [judgments, judgments, h.judgment? hw hw' response, hjudgments]
    · intro hstay
      exact ⟨halike.verdict.trans hstay.1, hstays hstay.2⟩
  | @extra responses padded checkpoint hcheckpoint _ ih =>
    -- the worker that takes in more takes a step alone
    obtain ⟨hstep, hverdict, hjudgment⟩ := hw'.agrees_checkpoint hcheckpoint
    obtain ⟨hagrees, hjudgments, hstays⟩ :=
      ih (h.trans hstep) hw (hw'.receive (.response checkpoint))
    refine ⟨hagrees, ?_, ?_⟩
    · rw [judgments, hjudgment, hjudgments]
      rfl
    · intro hstay
      exact ⟨hverdict, hstays hstay⟩

theorem Agrees.materialization? (h : w.Agrees w') (a : Action) :
    w'.materialization? a = w.materialization? a := by
  cases a with
  | response response =>
    cases response with
    | targetChange change => simp only [Worker.materialization?, h.current]
    | unset | documentChange | documentDelete | documentRemove | filter => rfl
  | start | deactivate | cancel | work | elapse | connected | refused | failure | completion | take | check
  | hand => rfl

/-- Once everything is applied, the update times held are those that were in prospect. -/
theorem Sound.map_updateTime_receive (h : w.Sound) (hm : w.materialization? a = some (readTime, token))
    (p : Path) :
    ((w.receive a).worker.documents.get? p).map QueryDocument.updateTime = w.outlook p := by
  obtain ⟨hdocs, -, -⟩ := h.materialize readTime token
  have hworker := (receive_of_materialization?_eq_some hm).1
  rw [(known_of_detached_eq hworker).1, hdocs, PendingChanges.map_updateTime_applied h.wellFormed h.keyed]
  rfl

theorem verdict_of_materialization? (hm : w.materialization? (.response response) = some (readTime, token)) :
    (w.onResponse response).verdict = .stay := by
  have hreacts := reacts_onResponse w response
  generalize w.onResponse response = r at hreacts
  cases hreacts with
  | materialize => rfl
  | idle _ hnone =>
    rw [hnone] at hm
    cases hm
  | acknowledge | current | reset | ignore | upsert | leave | delete | remove | agree => rfl
  | unset | lack | overflow | giveUp | disagree => cases hm
  | unknown hkind | misaddress hkind | reject hkind => simp [Worker.materialization?, hkind] at hm

end Worker

namespace Session

variable {s t : Session} {actions : List Action} {responses padded : List ListenResponse}
  {last : ListenResponse} {news : Timestamp × Bytes} {target : ListenTarget} {order : DocumentOrder}
  {settings : ListenSettings} {policy : BackoffPolicy}

/-- Where a session can be when it has taken in responses, and no other input. -/
def TakesIn (s : Session) (responses : List ListenResponse) (t : Session) : Prop :=
  ∃ more, s.Run more t ∧ more.filter Action.isInput = responses.map Action.response

/-- Responses over which the worker stays can all be taken in. -/
theorem exists_takesIn_of_stays (hreading : s.isReading = true) (hopen : s.shared.state ≠ .closed)
    (hstays : s.worker.Stays responses) : ∃ t, s.TakesIn responses t ∧ t.isReading = true := by
  induction responses generalizing s with
  | nil => exact ⟨s, ⟨[], .nil, rfl⟩, hreading⟩
  | cons response responses ih =>
    obtain ⟨hstay, hrest⟩ := hstays
    obtain ⟨-, hremoved, hstream⟩ := isReading_iff.1 hreading
    let draw : Binary64 → Binary64 → Binary64 := fun low _ => low
    have habsorb : Step draw s (.response response) (s.absorb (s.worker.onResponse response)) :=
      .absorb hreading
    generalize hs₁ : s.absorb (s.worker.onResponse response) = s₁ at habsorb
    have hphase : s₁.phase = .settling := by rw [← hs₁, absorb, hstay]
    have hshared : s₁.shared = s.shared := by rw [← hs₁, absorb, hstay]
    have hworker : s₁.worker = (s.worker.onResponse response).worker := by rw [← hs₁, absorb, hstay]
    rw [← hworker] at hrest
    rw [← hshared] at hopen hremoved
    rw [← Worker.stream_onResponse hstay, ← hworker] at hstream
    have hresume : Step draw s₁ .work { s₁ with phase := .ready } := .resume hphase hopen
    have htaken : s.Run ([] ++ [.response response] ++ [.work]) { s₁ with phase := .ready } :=
      (Run.nil.snoc habsorb.step?).snoc hresume.step?
    have hnext : Session.isReading { s₁ with phase := .ready } = true :=
      isReading_iff.2 ⟨rfl, hremoved, hstream⟩
    obtain ⟨t, ⟨more, hmore, hinputs⟩, ht⟩ := ih hnext hopen hrest
    exact ⟨t, ⟨_, htaken.append hmore, congrArg (List.cons (Action.response response)) hinputs⟩, ht⟩

/-- The update times held once a last response applied everything. -/
theorem TakesIn.map_updateTime (h : s.TakesIn (responses ++ [last]) t) (hs : s.worker.Sound)
    (hlast : (s.worker.takeIn responses).materialization? (.response last) = some news) (p : Path) :
    (t.worker.documents.get? p).map QueryDocument.updateTime =
      (s.worker.takeIn responses).outlook p := by
  obtain ⟨more, hmore, hinputs⟩ := h
  have hworker := hmore.worker
  rw [← Worker.receiveAll_filter, hinputs, List.map_append, Worker.receiveAll_append] at hworker
  have hdocs := (Worker.known_of_detached_eq hworker).1
  rw [hdocs]
  exact (hs.takeIn responses).map_updateTime_receive hlast p

/-- When the pending changes are applied makes no difference. Among responses that end in one at which they
are applied there may come further checkpoints: the watch stays with its stream as it would have, each
filter is judged as it would have been, and in the end the set holds the same paths with the same update
times, those which the responses alone give. -/
theorem Run.schedule_independent [order.Lawful]
    (h : (initial (.initial target order settings policy)).Run actions s)
    (hpadded : Padded responses padded) :
    s.worker.judgments padded = s.worker.judgments responses ∧
      ∀ last news, (s.worker.takeIn responses).materialization? (.response last) = some news →
        (s.worker.takeIn padded).materialization? (.response last) = some news ∧
          (s.worker.Stays responses → s.worker.Stays (padded ++ [last]) ∧
            (s.isReading = true → s.shared.state ≠ .closed →
              ∃ t, s.TakesIn (padded ++ [last]) t ∧ t.isReading = true) ∧
            ∀ t, s.TakesIn (padded ++ [last]) t → ∀ p,
              (t.worker.documents.get? p).map QueryDocument.updateTime =
                responses.foldl ListenResponse.update s.worker.outlook p) ∧
          ∀ t t', s.TakesIn (responses ++ [last]) t → s.TakesIn (padded ++ [last]) t' → ∀ p,
            t'.worker.documents.contains p = t.worker.documents.contains p ∧
              (t'.worker.documents.get? p).map QueryDocument.updateTime =
                (t.worker.documents.get? p).map QueryDocument.updateTime := by
  have hsound := h.told.sound
  obtain ⟨hagrees, hjudgments, hstays⟩ := (Worker.Agrees.refl s.worker).takeIn hsound hsound hpadded
  refine ⟨hjudgments, ?_⟩
  intro last news hlast
  have hlast' := (hagrees.materialization? (.response last)).trans hlast
  refine ⟨hlast', ?_, ?_⟩
  · intro hstay
    have hall := (hstays hstay).snoc (Worker.verdict_of_materialization? hlast')
    refine ⟨hall, fun hreading hopen => exists_takesIn_of_stays hreading hopen hall, ?_⟩
    intro t ht p
    rw [ht.map_updateTime hsound hlast' p, hagrees.outlook, hsound.outlook_takeIn hstay]
  · intro t t' ht ht' p
    have htimes := ht.map_updateTime hsound hlast p
    have htimes' := ht'.map_updateTime hsound hlast' p
    rw [hagrees.outlook, ← htimes] at htimes'
    refine ⟨?_, htimes'⟩
    have hheld := congrArg Option.isSome htimes'
    rw [Option.isSome_map, Option.isSome_map] at hheld
    rw [DocumentSet.contains_eq_isSome_get?, DocumentSet.contains_eq_isSome_get?, hheld]

/-- Responses that take a document out and another in, then take everything back but a new version of the
first. -/
def turnover : List ListenResponse :=
  [.documentDelete ⟨"c/a", [1], none⟩, .documentChange ⟨some ⟨"c/b", [], none, none⟩, [1], []⟩,
    .targetChange ⟨4, [], none, [], none⟩,
    .documentChange ⟨some ⟨"c/a", [], none, some ⟨3, 0⟩⟩, [1], []⟩,
    .targetChange ⟨3, [], none, [], none⟩, .filter ⟨1, 1⟩]

/-- A checkpoint with a read time. -/
def checkpoint : ListenResponse := .targetChange ⟨0, [], none, [2], some ⟨4, 0⟩⟩

/-- The same responses, with everything applied after each. -/
def gradualTurnover : List ListenResponse := turnover.flatMap fun response => [response, checkpoint]

theorem schedule_independent_turnover : ∃ s t t', (watchOf "c/a").Run (firstSnapshot "c/a" ++ [.work]) s ∧
    s.TakesIn (turnover ++ [checkpoint]) t ∧ s.TakesIn (gradualTurnover ++ [checkpoint]) t' ∧
    t.snapshots.length = 2 ∧ t'.snapshots.length = 4 ∧
    s.worker.judgments gradualTurnover = [(.stay, none)] ∧
    (∀ p, t'.worker.documents.contains p = t.worker.documents.contains p) ∧
    ∀ p, (t'.worker.documents.get? p).map QueryDocument.updateTime =
      turnover.foldl ListenResponse.update s.worker.outlook p := by
  have hrun : ((watchOf "c/a").run? (fun low _ => low) (firstSnapshot "c/a" ++ [.work])).bind
      (fun s => (s.run? (fun low _ => low)
          (takingIn ((turnover ++ [checkpoint]).map Action.response))).bind fun t =>
        (s.run? (fun low _ => low)
          (takingIn ((gradualTurnover ++ [checkpoint]).map Action.response))).map fun t' =>
        decide (t.snapshots.length = 2 ∧ t'.snapshots.length = 4 ∧
          s.worker.judgments turnover = [(.stay, none)] ∧ s.worker.Stays turnover ∧
          (s.worker.takeIn turnover).materialization? (.response checkpoint) =
            some (⟨4, 0⟩, [2]))) = some true := by
    decide +kernel
  obtain ⟨s, hs, hrest⟩ := Option.bind_eq_some_iff.1 hrun
  obtain ⟨t, ht, hrest⟩ := Option.bind_eq_some_iff.1 hrest
  obtain ⟨t', ht', hchecked⟩ := Option.map_eq_some_iff.1 hrest
  obtain ⟨hcount, hcount', hjudged, hstay, hlast⟩ := of_decide_eq_true hchecked
  have htaken : s.TakesIn (turnover ++ [checkpoint]) t := ⟨_, .of_run? ht, rfl⟩
  have htaken' : s.TakesIn (gradualTurnover ++ [checkpoint]) t' := ⟨_, .of_run? ht', rfl⟩
  have hpadded : Padded turnover gradualTurnover := padded_flatMap rfl turnover
  obtain ⟨hjudgments, hschedule⟩ := (Run.of_run? hs).schedule_independent hpadded
  obtain ⟨-, hstays, hsame⟩ := hschedule checkpoint _ hlast
  obtain ⟨-, -, htimes⟩ := hstays hstay
  exact ⟨s, t, t', .of_run? hs, htaken, htaken', hcount, hcount', hjudgments.trans hjudged,
    fun p => (hsame t t' htaken htaken' p).1, htimes t' htaken'⟩

end Session

end LiveQuery
