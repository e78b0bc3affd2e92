import LiveQuery.Proofs.Worker

namespace LiveQuery.Worker

variable {w : Worker} {response : ListenResponse} {r : Reaction}

/-- What a response can come to, case by case. -/
inductive Reacts (w : Worker) : ListenResponse → Reaction → Prop
  | unset : Reacts w .unset (w.close (.invalidArgument "Encountered invalid listen response type"))
  /-- A kind of target change that the protocol does not know. -/
  | unknown {change : TargetChange} : TargetChangeKind.ofNumber? change.kind = none →
      Reacts w (.targetChange change) (w.close (.invalidArgument
        ("Encountered invalid target change type: " ++ toString change.kind.toInt)))
  /-- A target change without effect but perhaps on the backoff. -/
  | idle {change : TargetChange} : TargetChangeKind.ofNumber? change.kind = some .noChange →
      w.materialization? (.response (.targetChange change)) = none →
      Reacts w (.targetChange change) (w.confirmProgress change).stay
  | materialize {change : TargetChange} {readTime : Timestamp} :
      TargetChangeKind.ofNumber? change.kind = some .noChange →
      w.materialization? (.response (.targetChange change)) = some (readTime, change.resumeToken) →
      Reacts w (.targetChange change)
        ⟨(w.materialize readTime change.resumeToken).1.confirmProgress change,
          (w.materialize readTime change.resumeToken).2, none, .stay⟩
  | acknowledge {change : TargetChange} : TargetChangeKind.ofNumber? change.kind = some .add →
      isAcknowledged change = true → Reacts w (.targetChange change) (w.confirmProgress change).stay
  | misaddress {change : TargetChange} :
      TargetChangeKind.ofNumber? change.kind = some .add → isAcknowledged change = false →
      Reacts w (.targetChange change) (w.close (.invalidArgument
        ("Target ID must be 0x" ++ Text.hex 2 ListenTarget.watchId.toInt.toNat)))
  | reject {change : TargetChange} : TargetChangeKind.ofNumber? change.kind = some .remove →
      Reacts w (.targetChange change) (w.close (rejection change.cause))
  | current {change : TargetChange} : TargetChangeKind.ofNumber? change.kind = some .current →
      Reacts w (.targetChange change) (confirmProgress { w with current := true } change).stay
  | reset {change : TargetChange} : TargetChangeKind.ofNumber? change.kind = some .reset →
      Reacts w (.targetChange change) (w.resetDocuments.confirmProgress change).stay
  /-- A document change for other targets. -/
  | ignore {change : DocumentChange} : ListenTarget.watchId ∉ change.targetIds →
      ListenTarget.watchId ∉ change.removedTargetIds → Reacts w (.documentChange change) w.stay
  | lack {change : DocumentChange} :
      ListenTarget.watchId ∈ change.targetIds ∨ ListenTarget.watchId ∈ change.removedTargetIds →
      change.document = none → Reacts w (.documentChange change)
        (w.close (.invalidArgument "Document change without a document"))
  | upsert {change : DocumentChange} {d : Document} : ListenTarget.watchId ∈ change.targetIds →
      change.document = some d →
      Reacts w (.documentChange change) (stay { w with pending := w.pending.upsert d })
  | leave {change : DocumentChange} {d : Document} : ListenTarget.watchId ∉ change.targetIds →
      ListenTarget.watchId ∈ change.removedTargetIds → change.document = some d →
      Reacts w (.documentChange change)
        (stay { w with pending := w.pending.tombstone (Path.ofString d.name) })
  | delete {delete : DocumentDelete} : Reacts w (.documentDelete delete)
      (stay { w with pending := w.pending.tombstone (Path.ofString delete.document) })
  | remove {remove : DocumentRemove} : Reacts w (.documentRemove remove)
      (stay { w with pending := w.pending.tombstone (Path.ofString remove.document) })
  | agree {filter : ExistenceFilter} : filter.count.toInt = w.pending.projectedSize w.documents →
      Reacts w (.filter filter) (stay { w with filterMismatches := 0 })
  | overflow {filter : ExistenceFilter} : filter.count.toInt ≠ w.pending.projectedSize w.documents →
      w.filterMismatches.toNat + 1 = UInt32.size → Reacts w (.filter filter) ⟨w, none, none, .overflow⟩
  /-- One disagreement too many. -/
  | giveUp {filter : ExistenceFilter} :
      filter.count.toInt ≠ w.pending.projectedSize w.documents →
      w.filterMismatches.toNat + 1 ≠ UInt32.size →
      0 < w.settings.maxFilterMismatches ∧ w.settings.maxFilterMismatches ≤ w.filterMismatches + 1 →
      Reacts w (.filter filter)
        { close { w with filterMismatches := w.filterMismatches + 1 }
            (.filterMismatch (w.filterMismatches + 1)) with
          mismatch := some
            ⟨filter.count, w.pending.projectedSize w.documents, w.filterMismatches + 1⟩ }
  | disagree {filter : ExistenceFilter} :
      filter.count.toInt ≠ w.pending.projectedSize w.documents →
      w.filterMismatches.toNat + 1 ≠ UInt32.size →
      ¬ (0 < w.settings.maxFilterMismatches ∧ w.settings.maxFilterMismatches ≤ w.filterMismatches + 1) →
      Reacts w (.filter filter)
        { reconnect (resetDocuments { w with filterMismatches := w.filterMismatches + 1 }) with
          mismatch := some
            ⟨filter.count, w.pending.projectedSize w.documents, w.filterMismatches + 1⟩ }

theorem reacts_onTargetChange (w : Worker) (change : TargetChange) :
    w.Reacts (.targetChange change) (w.onTargetChange change) := by
  unfold onTargetChange
  cases hkind : TargetChangeKind.ofNumber? change.kind with
  | none => exact .unknown hkind
  | some kind =>
    cases kind with
    | noChange =>
      cases ht : change.readTime with
      | none => exact .idle hkind (by simp [materialization?, ht])
      | some readTime =>
        simp only
        split
        · next hcond =>
          rw [Bool.and_eq_true] at hcond
          exact .materialize hkind (by simp [materialization?, hkind, ht, hcond])
        · next hcond =>
          rw [Bool.and_eq_true] at hcond
          exact .idle hkind (if_neg fun h => hcond h.2)
    | add =>
      simp only
      split
      · next hack => exact .acknowledge hkind hack
      · next hack => exact .misaddress hkind (Bool.eq_false_iff.2 hack)
    | remove => exact .reject hkind
    | current => exact .current hkind
    | reset => exact .reset hkind

theorem reacts_onDocumentChange (w : Worker) (change : DocumentChange) :
    w.Reacts (.documentChange change) (w.onDocumentChange change) := by
  unfold onDocumentChange
  simp only [List.contains_eq_mem, Bool.or_eq_true, decide_eq_true_eq]
  split
  · next hconcerned =>
    cases hd : change.document with
    | none => exact .lack hconcerned hd
    | some d =>
      simp only
      split
      · next hwatched => exact .upsert hwatched hd
      · next hleft => exact .leave hleft (hconcerned.resolve_left hleft) hd
  · next hforeign =>
    rw [not_or] at hforeign
    exact .ignore hforeign.1 hforeign.2

theorem reacts_onFilter (w : Worker) (filter : ExistenceFilter) :
    w.Reacts (.filter filter) (w.onFilter filter) := by
  unfold onFilter
  simp only
  split
  · next hagree => exact .agree hagree
  · next hne =>
    split
    · next hfull => exact .overflow hne hfull
    · next hroom =>
      split
      · next hlimit => exact .giveUp hne hroom hlimit
      · next hlimit => exact .disagree hne hroom hlimit

/-- The cases are all there is to a response. -/
theorem reacts_onResponse (w : Worker) (response : ListenResponse) :
    w.Reacts response (w.onResponse response) := by
  cases response with
  | unset => exact .unset
  | targetChange change => exact reacts_onTargetChange w change
  | documentChange change => exact reacts_onDocumentChange w change
  | documentDelete delete => exact .delete
  | documentRemove remove => exact .remove
  | filter filter => exact reacts_onFilter w filter

section confirmProgress

variable (w : Worker) (change : TargetChange)

@[simp]
theorem target_confirmProgress : (w.confirmProgress change).target = w.target := by
  unfold confirmProgress
  split <;> rfl

@[simp]
theorem settings_confirmProgress : (w.confirmProgress change).settings = w.settings := by
  unfold confirmProgress
  split <;> rfl

@[simp]
theorem stream_confirmProgress : (w.confirmProgress change).stream = w.stream := by
  unfold confirmProgress
  split <;> rfl

@[simp]
theorem documents_confirmProgress : (w.confirmProgress change).documents = w.documents := by
  unfold confirmProgress
  split <;> rfl

@[simp]
theorem pending_confirmProgress : (w.confirmProgress change).pending = w.pending := by
  unfold confirmProgress
  split <;> rfl

@[simp]
theorem resumeToken_confirmProgress : (w.confirmProgress change).resumeToken = w.resumeToken := by
  unfold confirmProgress
  split <;> rfl

@[simp]
theorem current_confirmProgress : (w.confirmProgress change).current = w.current := by
  unfold confirmProgress
  split <;> rfl

@[simp]
theorem filterMismatches_confirmProgress :
    (w.confirmProgress change).filterMismatches = w.filterMismatches := by
  unfold confirmProgress
  split <;> rfl

end confirmProgress

theorem Reacts.configuration (h : w.Reacts response r) :
    r.worker.target = w.target ∧ r.worker.settings = w.settings := by
  cases h with
  | idle | materialize | acknowledge | current | reset =>
    exact ⟨target_confirmProgress _ _, settings_confirmProgress _ _⟩
  | unset | unknown | misaddress | reject | ignore | lack | upsert | leave | delete | remove | agree
  | overflow | giveUp | disagree => exact ⟨rfl, rfl⟩

/-- A worker that stays keeps its stream. -/
theorem stream_onResponse (hstay : (w.onResponse response).verdict = .stay) :
    (w.onResponse response).worker.stream = w.stream := by
  have hreacts := reacts_onResponse w response
  generalize w.onResponse response = r at hreacts hstay
  cases hreacts with
  | idle | acknowledge | current | reset | materialize => exact stream_confirmProgress _ _
  | ignore | upsert | leave | delete | remove | agree => rfl
  | unset | unknown | misaddress | reject | lack | overflow | giveUp | disagree => cases hstay

/-- Only a filter can be one too many to count, and it leaves the worker alone. -/
theorem Reacts.of_overflow (h : w.Reacts response r) (hverdict : r.verdict = .overflow) :
    r.worker = w ∧ w.filterMismatches.toNat + 1 = UInt32.size := by
  cases h with
  | overflow _ hfull => exact ⟨rfl, hfull⟩
  | unset | unknown | idle | materialize | acknowledge | misaddress | reject | current | reset | ignore
  | lack | upsert | leave | delete | remove | agree | giveUp | disagree => cases hverdict

theorem receive_of_overflow (hverdict : (w.receive a).verdict = .overflow) :
    (w.receive a).worker = w ∧ w.filterMismatches.toNat + 1 = UInt32.size := by
  have hfailure (e : StreamError) (hverdict : (w.onStreamError e).verdict = .overflow) : False := by
    rcases onStreamError_cases w e with heq | ⟨backoff, heq⟩ <;> rw [heq] at hverdict <;> cases hverdict
  cases a with
  | response response => exact (reacts_onResponse w response).of_overflow hverdict
  | refused e | failure e => exact (hfailure e hverdict).elim
  | completion => exact (hfailure _ hverdict).elim
  | elapse | connected | start | deactivate | cancel | work | take | check | hand => cases hverdict

/-- What a failure leaves alone. -/
theorem kept_onStreamError (w : Worker) (e : StreamError) :
    ((w.onStreamError e).worker.target = w.target ∧ (w.onStreamError e).worker.settings = w.settings) ∧
      (w.onStreamError e).worker.resumeToken = w.resumeToken ∧
      (w.onStreamError e).worker.filterMismatches = w.filterMismatches := by
  rcases onStreamError_cases w e with heq | ⟨backoff, heq⟩
  · rw [heq]
    exact ⟨⟨rfl, rfl⟩, rfl, rfl⟩
  · rw [heq]
    exact ⟨⟨rfl, rfl⟩, rfl, rfl⟩

/-- No input changes what the worker listens to, or its settings. -/
theorem configuration_receive (w : Worker) (a : Action) :
    (w.receive a).worker.target = w.target ∧ (w.receive a).worker.settings = w.settings := by
  cases a with
  | response response => exact (reacts_onResponse w response).configuration
  | refused e | failure e => exact (kept_onStreamError w e).1
  | completion => exact (kept_onStreamError w _).1
  | elapse | connected | start | deactivate | cancel | work | take | check | hand => exact ⟨rfl, rfl⟩

end LiveQuery.Worker
