import LiveQuery.Session
import LiveQuery.Proofs.PendingChanges

namespace LiveQuery.Worker

variable {w : Worker} {a : Action} {readTime : Timestamp} {token : Bytes}

/-- What the worker makes of an action. The actions of other parties, and its own, are no input. -/
def receive (w : Worker) : Action → Reaction
  | .elapse => w.beginConnect.stay
  | .connected stream => stay { w with stream := some stream }
  | .refused error => w.onStreamError error
  | .response response => w.onResponse response
  | .failure error => w.onStreamError error
  | .completion => w.onCompletion
  | .start | .deactivate | .cancel | .work | .take | .check | .hand => w.stay

/-- What the worker makes of actions, one after the other. -/
def receiveAll (w : Worker) (actions : List Action) : Worker :=
  actions.foldl (fun w a => (w.receive a).worker) w

theorem receiveAll_append (w : Worker) (actions actions' : List Action) :
    w.receiveAll (actions ++ actions') = (w.receiveAll actions).receiveAll actions' :=
  List.foldl_append

/-- The worker without its connection. -/
def detached (w : Worker) : Worker :=
  { w with backoff := .initial w.backoff.policy, stream := none, timer := none }

theorem known_of_detached_eq {w' : Worker} (h : w'.detached = w.detached) :
    w'.documents = w.documents ∧ w'.pending = w.pending ∧ w'.resumeToken = w.resumeToken ∧
      w'.hasPushed = w.hasPushed := by
  unfold detached at h
  injection h with _ _ _ _ _ hdocs hpending htoken _ hpushed _
  exact ⟨hdocs, hpending, htoken, hpushed⟩

theorem configured_of_detached_eq {w' : Worker} (h : w'.detached = w.detached) :
    w'.target = w.target ∧ w'.settings = w.settings ∧ w'.current = w.current ∧
      w'.filterMismatches = w.filterMismatches := by
  unfold detached at h
  injection h with htarget hsettings _ _ _ _ _ _ hcurrent _ hcount
  exact ⟨htarget, hsettings, hcurrent, hcount⟩

theorem confirmProgress_eq (w : Worker) (change : TargetChange) : ∃ backoff : Backoff,
    backoff.policy = w.backoff.policy ∧ w.confirmProgress change = { w with backoff } := by
  unfold confirmProgress
  split
  · exact ⟨w.backoff.reset, rfl, rfl⟩
  · exact ⟨w.backoff, rfl, rfl⟩

theorem detached_confirmProgress (w : Worker) (change : TargetChange) :
    (w.confirmProgress change).detached = w.detached := by
  obtain ⟨backoff, hpolicy, heq⟩ := confirmProgress_eq w change
  rw [heq]
  simp only [detached, hpolicy]

theorem detached_onStreamError (w : Worker) (e : StreamError) :
    (w.onStreamError e).worker.detached = (w.detached.onStreamError e).worker.detached := by
  unfold onStreamError
  cases e.isPermanent <;> cases e.isResourceExhausted <;> rfl

theorem detached_materialize (w : Worker) (readTime : Timestamp) (token : Bytes) :
    (w.materialize readTime token).1.detached =
      (w.detached.materialize readTime token).1.detached := by
  have hsame : w.detached.documents.apply
      (w.detached.pending.against w.detached.documents (some readTime)) =
      w.documents.apply (w.pending.against w.documents (some readTime)) := rfl
  unfold materialize
  rw [hsame]
  cases w.documents.apply (w.pending.against w.documents (some readTime))
  rfl

theorem detached_onTargetChange (w : Worker) (change : TargetChange) :
    (w.onTargetChange change).worker.detached =
      (w.detached.onTargetChange change).worker.detached := by
  unfold onTargetChange
  cases TargetChangeKind.ofNumber? change.kind with
  | none => rfl
  | some kind =>
    cases kind with
    | noChange =>
      have hcurrent : w.detached.current = w.current := rfl
      cases change.readTime with
      | none =>
        simp only [stay, detached_confirmProgress]
        rfl
      | some readTime =>
        simp only [hcurrent]
        split
        · simp only [detached_confirmProgress]
          exact detached_materialize w readTime change.resumeToken
        · simp only [stay, detached_confirmProgress]
          rfl
    | add =>
      simp only
      split
      · simp only [stay, detached_confirmProgress]
        rfl
      · rfl
    | remove => rfl
    | current =>
      simp only [stay, detached_confirmProgress]
      rfl
    | reset =>
      simp only [stay, detached_confirmProgress]
      rfl

theorem detached_onDocumentChange (w : Worker) (change : DocumentChange) :
    (w.onDocumentChange change).worker.detached =
      (w.detached.onDocumentChange change).worker.detached := by
  unfold onDocumentChange
  simp only
  split
  · cases change.document with
    | none => rfl
    | some d =>
      simp only
      split <;> rfl
  · rfl

theorem detached_onFilter (w : Worker) (filter : ExistenceFilter) :
    (w.onFilter filter).worker.detached = (w.detached.onFilter filter).worker.detached := by
  have hsize : w.detached.pending.projectedSize w.detached.documents =
      w.pending.projectedSize w.documents := rfl
  have hcount : w.detached.filterMismatches = w.filterMismatches := rfl
  have hlimit : w.detached.settings = w.settings := rfl
  unfold onFilter
  simp only [hsize, hcount, hlimit]
  split
  · rfl
  · split
    · rfl
    · split <;> rfl

/-- What an input does to what the worker knows does not depend on the connection. -/
theorem detached_receive (w : Worker) (a : Action) :
    (w.receive a).worker.detached = (w.detached.receive a).worker.detached := by
  cases a with
  | response response =>
    cases response with
    | unset | documentDelete | documentRemove => rfl
    | targetChange change => exact detached_onTargetChange w change
    | documentChange change => exact detached_onDocumentChange w change
    | filter filter => exact detached_onFilter w filter
  | refused error | failure error => exact detached_onStreamError w error
  | completion => exact detached_onStreamError w (.status .unknown "listen stream completed")
  | elapse | connected | start | deactivate | cancel | work | take | check | hand => rfl

/-- The read time and the token of the message at which the pending changes are applied. -/
def materialization? (w : Worker) : Action → Option (Timestamp × Bytes)
  | .response (.targetChange change) =>
    if TargetChangeKind.ofNumber? change.kind = some .noChange ∧ change.targetIds.isEmpty ∧ w.current
    then change.readTime.map fun readTime => (readTime, change.resumeToken)
    else none
  | _ => none

theorem receive_of_materialization?_eq_some (h : w.materialization? a = some (readTime, token)) :
    (w.receive a).worker.detached = (w.materialize readTime token).1.detached ∧
      (w.receive a).snapshot = (w.materialize readTime token).2 := by
  unfold materialization? at h
  split at h
  · next change =>
    split at h
    · next hcond =>
      obtain ⟨hkind, hids, hcurrent⟩ := hcond
      obtain ⟨t, ht, heq⟩ := Option.map_eq_some_iff.1 h
      cases heq
      simp only [receive, onResponse, onTargetChange, hkind, ht, hids, hcurrent, Bool.and_self,
        if_true, detached_confirmProgress, and_self]
    · cases h
  · cases h

/-- A target change closes the watch, or counts as progress after at most one effect. -/
theorem onTargetChange_cases (w : Worker) (change : TargetChange) :
    (∃ error, w.onTargetChange change = w.close error) ∨
      ∃ w' snapshot,
        w.onTargetChange change = ⟨w'.confirmProgress change, snapshot, none, .stay⟩ ∧
          (snapshot = none ∧ (w' = w ∨ w' = { w with current := true } ∨ w' = w.resetDocuments) ∨
            ∃ readTime, w.materialization? (.response (.targetChange change)) =
                some (readTime, change.resumeToken) ∧
              (w', snapshot) = w.materialize readTime change.resumeToken) := by
  unfold onTargetChange
  cases hkind : TargetChangeKind.ofNumber? change.kind with
  | none => exact Or.inl ⟨_, rfl⟩
  | some kind =>
    cases kind with
    | noChange =>
      cases ht : change.readTime with
      | none => exact Or.inr ⟨w, none, rfl, Or.inl ⟨rfl, Or.inl rfl⟩⟩
      | some readTime =>
        by_cases hcond : (change.targetIds.isEmpty && w.current) = true
        · refine Or.inr ⟨_, _, if_pos hcond, Or.inr ⟨readTime, ?_, rfl⟩⟩
          rw [Bool.and_eq_true] at hcond
          simp [materialization?, hkind, ht, hcond]
        · exact Or.inr ⟨w, none, if_neg hcond, Or.inl ⟨rfl, Or.inl rfl⟩⟩
    | add =>
      by_cases hack : isAcknowledged change = true
      · exact Or.inr ⟨w, none, if_pos hack, Or.inl ⟨rfl, Or.inl rfl⟩⟩
      · exact Or.inl ⟨_, if_neg hack⟩
    | remove => exact Or.inl ⟨_, rfl⟩
    | current => exact Or.inr ⟨_, none, rfl, Or.inl ⟨rfl, Or.inr (Or.inl rfl)⟩⟩
    | reset => exact Or.inr ⟨_, none, rfl, Or.inl ⟨rfl, Or.inr (Or.inr rfl)⟩⟩

theorem onDocumentChange_cases (w : Worker) (change : DocumentChange) :
    w.onDocumentChange change = w.stay ∨ (∃ error, w.onDocumentChange change = w.close error) ∨
      ∃ d, change.document = some d ∧
        (w.onDocumentChange change = stay { w with pending := w.pending.upsert d } ∨
          w.onDocumentChange change =
            stay { w with pending := w.pending.tombstone (Path.ofString d.name) }) := by
  unfold onDocumentChange
  simp only
  split
  · cases change.document with
    | none => exact Or.inr (Or.inl ⟨_, rfl⟩)
    | some d =>
      refine Or.inr (Or.inr ⟨d, rfl, ?_⟩)
      simp only
      split
      · exact Or.inl rfl
      · exact Or.inr rfl
  · exact Or.inl rfl

theorem onFilter_cases (w : Worker) (filter : ExistenceFilter) :
    w.onFilter filter = stay { w with filterMismatches := 0 } ∨
      w.onFilter filter = ⟨w, none, none, .overflow⟩ ∨
      ∃ count mismatch,
        (∃ error, w.onFilter filter =
            { close { w with filterMismatches := count } error with mismatch := some mismatch }) ∨
          w.onFilter filter =
            { reconnect (resetDocuments { w with filterMismatches := count }) with
              mismatch := some mismatch } := by
  unfold onFilter
  simp only
  split
  · exact Or.inl rfl
  · split
    · exact Or.inr (Or.inl rfl)
    · refine Or.inr (Or.inr ⟨w.filterMismatches + 1,
        ⟨filter.count, w.pending.projectedSize w.documents, w.filterMismatches + 1⟩, ?_⟩)
      split
      · exact Or.inl ⟨_, rfl⟩
      · exact Or.inr rfl

theorem onStreamError_cases (w : Worker) (e : StreamError) :
    w.onStreamError e = w.close (.ofStreamError e) ∨
      ∃ backoff, w.onStreamError e = reconnect { w with backoff, pending := .empty } := by
  unfold onStreamError
  split
  · exact Or.inl rfl
  · exact Or.inr ⟨_, rfl⟩

/-- What an input leaves alone unless the pending changes are applied. -/
structure Quiet (w : Worker) (r : Reaction) : Prop where
  snapshot : r.snapshot = none
  documents : r.worker.documents = w.documents
  hasPushed : r.worker.hasPushed = w.hasPushed
  keyed : w.pending.Keyed → r.worker.pending.Keyed

theorem quiet_stay (w : Worker) : w.Quiet w.stay := ⟨rfl, rfl, rfl, id⟩

theorem quiet_close (w : Worker) (error : WatchError) : w.Quiet (w.close error) := ⟨rfl, rfl, rfl, id⟩

theorem quiet_confirmProgress {w' : Worker} (h : w.Quiet w'.stay) (change : TargetChange) :
    w.Quiet (w'.confirmProgress change).stay := by
  obtain ⟨backoff, -, heq⟩ := confirmProgress_eq w' change
  rw [heq]
  exact ⟨rfl, h.documents, h.hasPushed, h.keyed⟩

theorem quiet_onStreamError (w : Worker) (e : StreamError) : w.Quiet (w.onStreamError e) := by
  rcases onStreamError_cases w e with heq | ⟨backoff, heq⟩
  · rw [heq]
    exact quiet_close w _
  · rw [heq]
    exact ⟨rfl, rfl, rfl, fun _ => PendingChanges.keyed_empty⟩

theorem quiet_onDocumentChange (w : Worker) (change : DocumentChange) :
    w.Quiet (w.onDocumentChange change) := by
  rcases onDocumentChange_cases w change with heq | ⟨error, heq⟩ | ⟨d, -, heq | heq⟩
  · rw [heq]
    exact quiet_stay w
  · rw [heq]
    exact quiet_close w error
  · rw [heq]
    exact ⟨rfl, rfl, rfl, fun h => h.upsert d⟩
  · rw [heq]
    exact ⟨rfl, rfl, rfl, fun h => h.tombstone _⟩

theorem quiet_onFilter (w : Worker) (filter : ExistenceFilter) : w.Quiet (w.onFilter filter) := by
  rcases onFilter_cases w filter with heq | heq | ⟨count, mismatch, ⟨error, heq⟩ | heq⟩
  · rw [heq]
    exact ⟨rfl, rfl, rfl, id⟩
  · rw [heq]
    exact ⟨rfl, rfl, rfl, id⟩
  · rw [heq]
    exact ⟨rfl, rfl, rfl, id⟩
  · rw [heq]
    exact ⟨rfl, rfl, rfl, fun _ => PendingChanges.keyed_foldl_tombstone _⟩

theorem quiet_onTargetChange {change : TargetChange}
    (h : w.materialization? (.response (.targetChange change)) = none) :
    w.Quiet (w.onTargetChange change) := by
  rcases onTargetChange_cases w change with ⟨error, heq⟩ | ⟨w', snapshot, heq, hcases⟩
  · rw [heq]
    exact quiet_close w error
  · rcases hcases with ⟨rfl, hw'⟩ | ⟨readTime, hsome, -⟩
    · have hquiet : w.Quiet w'.stay := by
        rcases hw' with rfl | rfl | rfl
        · exact quiet_stay w'
        · exact ⟨rfl, rfl, rfl, id⟩
        · exact ⟨rfl, rfl, rfl, fun _ => PendingChanges.keyed_foldl_tombstone _⟩
      rw [heq]
      exact quiet_confirmProgress hquiet change
    · rw [h] at hsome
      cases hsome

theorem quiet_onResponse {response : ListenResponse}
    (h : w.materialization? (.response response) = none) : w.Quiet (w.onResponse response) := by
  cases response with
  | unset => exact quiet_close w _
  | targetChange change => exact quiet_onTargetChange h
  | documentChange change => exact quiet_onDocumentChange w change
  | documentDelete delete => exact ⟨rfl, rfl, rfl, fun h => h.tombstone _⟩
  | documentRemove remove => exact ⟨rfl, rfl, rfl, fun h => h.tombstone _⟩
  | filter filter => exact quiet_onFilter w filter

theorem quiet_receive (h : w.materialization? a = none) : w.Quiet (w.receive a) := by
  cases a with
  | response response => exact quiet_onResponse h
  | refused error => exact quiet_onStreamError w error
  | failure error => exact quiet_onStreamError w error
  | completion => exact quiet_onStreamError w (.status .unknown "listen stream completed")
  | elapse | connected => exact ⟨rfl, rfl, rfl, id⟩
  | start | deactivate | cancel | work | take | check | hand => exact quiet_stay w

/-- What applying the pending changes does: the next version of the set, a snapshot if it is the first
or its diff has entries, and nothing left pending. -/
theorem materialize_eq (hdocs : w.documents.WellFormed) (hkeyed : w.pending.Keyed)
    (readTime : Timestamp) (token : Bytes) : ∃ diff : List Change,
      Change.replayAll? diff w.documents.sorted =
        some (w.documents.applied (w.pending.against w.documents (some readTime))).sorted ∧
      (diff = [] → w.documents.applied (w.pending.against w.documents (some readTime)) = w.documents) ∧
      w.materialize readTime token =
        ({ w with
            documents := w.documents.applied (w.pending.against w.documents (some readTime))
            pending := .empty
            hasPushed := true
            resumeToken := if token.isEmpty then none else some token },
          if w.hasPushed && diff.isEmpty then none
          else some ⟨readTime, w.documents.applied (w.pending.against w.documents (some readTime)),
            diff⟩) := by
  have hfits := PendingChanges.fits_against hdocs hkeyed (some readTime)
  obtain ⟨-, diff, happly, hempty, hreplay⟩ := hfits.apply_replays hdocs
  refine ⟨diff, hreplay, hempty, ?_⟩
  unfold materialize
  rw [happly]
  cases hpushed : w.hasPushed <;> cases diff <;> simp

end LiveQuery.Worker
