import LiveQuery.Proofs.Run

namespace LiveQuery

namespace Snapshot

variable {snaps : List Snapshot} {held : List QueryDocument} {S : Snapshot}

/-- Every diff leads from the documents of the snapshot before, at first from those held, to the
documents of its own snapshot. -/
def Chained : List QueryDocument → List Snapshot → Prop
  | _, [] => True
  | held, S :: rest =>
    Change.replayAll? S.changes held = some S.documents.sorted ∧ Chained S.documents.sorted rest

/-- The documents of the last snapshot, at first those held. -/
def latest : List QueryDocument → List Snapshot → List QueryDocument
  | held, [] => held
  | _, S :: rest => latest S.documents.sorted rest

theorem latest_snoc (held : List QueryDocument) (snaps : List Snapshot) (S : Snapshot) :
    latest held (snaps ++ [S]) = S.documents.sorted := by
  induction snaps generalizing held with
  | nil => rfl
  | cons T rest ih => exact ih T.documents.sorted

theorem Chained.snoc (h : Chained held snaps)
    (hreplay : Change.replayAll? S.changes (latest held snaps) = some S.documents.sorted) :
    Chained held (snaps ++ [S]) := by
  induction snaps generalizing held with
  | nil => exact ⟨hreplay, trivial⟩
  | cons T rest ih => exact ⟨h.1, ih h.2 hreplay⟩

end Snapshot

namespace Worker

variable {w w' : Worker} {a : Action} {snaps : List Snapshot} {readTime : Timestamp} {token : Bytes}

/-- What the snapshots sent so far say of the worker. -/
structure Told (w : Worker) (snaps : List Snapshot) : Prop where
  wellFormed : w.documents.WellFormed
  keyed : w.pending.Keyed
  chained : Snapshot.Chained [] snaps
  latest : w.documents.sorted = Snapshot.latest [] snaps
  hasPushed_iff : w.hasPushed ↔ snaps ≠ []
  changed : ∀ S ∈ snaps.tail, S.changes ≠ []

theorem told_initial (target : ListenTarget) (order : DocumentOrder) [order.Lawful]
    (settings : ListenSettings) (policy : BackoffPolicy) :
    (initial target order settings policy).Told [] where
  wellFormed := DocumentSet.wellFormed_empty order
  keyed := PendingChanges.keyed_empty
  chained := trivial
  latest := rfl
  hasPushed_iff := by simp [initial]
  changed := by simp

theorem Told.congr (h : w.Told snaps) (heq : w'.detached = w.detached) : w'.Told snaps := by
  obtain ⟨hdocs, hpending, -, hpushed⟩ := known_of_detached_eq heq
  refine ⟨?_, ?_, h.chained, ?_, ?_, h.changed⟩
  · rw [hdocs]
    exact h.wellFormed
  · rw [hpending]
    exact h.keyed
  · rw [hdocs]
    exact h.latest
  · rw [hpushed]
    exact h.hasPushed_iff

theorem Told.quiet {r : Reaction} (h : w.Told snaps) (hq : w.Quiet r) : r.worker.Told snaps where
  wellFormed := by
    rw [hq.documents]
    exact h.wellFormed
  keyed := hq.keyed h.keyed
  chained := h.chained
  latest := by
    rw [hq.documents]
    exact h.latest
  hasPushed_iff := by
    rw [hq.hasPushed]
    exact h.hasPushed_iff
  changed := h.changed

/-- A further snapshot of the worker's documents. -/
theorem Told.snoc {S : Snapshot} (h : w.Told snaps) (hwell : w'.documents.WellFormed)
    (hkeyed : w'.pending.Keyed) (hpushed : w'.hasPushed = true) (hdocs : S.documents = w'.documents)
    (hreplay : Change.replayAll? S.changes w.documents.sorted = some S.documents.sorted)
    (hchanged : w.hasPushed = true → S.changes ≠ []) : w'.Told (snaps ++ [S]) where
  wellFormed := hwell
  keyed := hkeyed
  chained := by
    rw [h.latest] at hreplay
    exact h.chained.snoc hreplay
  latest := by rw [Snapshot.latest_snoc, hdocs]
  hasPushed_iff := by simp [hpushed]
  changed := by
    intro T hT
    cases snaps with
    -- the first snapshot may well have an empty diff
    | nil => cases hT
    | cons S₀ rest =>
      rcases List.mem_append.1 hT with hrest | hlast
      · exact h.changed T hrest
      · rw [List.mem_singleton.1 hlast]
        exact hchanged (h.hasPushed_iff.2 (List.cons_ne_nil S₀ rest))

/-- What can come of applying the pending changes: a snapshot that takes the listener to the new set, or
nothing, if there was a snapshot before and the set stays as it was. -/
theorem Told.materialize (h : w.Told snaps) (readTime : Timestamp) (token : Bytes) :
    ((w.materialize readTime token).1.Told
        (snaps ++ (w.materialize readTime token).2.toList)) ∧
      ((∃ S, (w.materialize readTime token).2 = some S ∧
          S.documents = (w.materialize readTime token).1.documents) ∨
        ((w.materialize readTime token).2 = none ∧ snaps ≠ [] ∧
          (w.materialize readTime token).1.documents = w.documents)) := by
  have hfits := PendingChanges.fits_against h.wellFormed h.keyed (some readTime)
  have hwell := (hfits.apply_replays h.wellFormed).1
  obtain ⟨diff, hreplay, hsame, heq⟩ := materialize_eq h.wellFormed h.keyed readTime token
  rw [heq]
  by_cases hquiet : (w.hasPushed && diff.isEmpty) = true
  · -- there is nothing to tell, so the set is the one that was told last
    rw [if_pos hquiet]
    rw [Bool.and_eq_true, List.isEmpty_iff] at hquiet
    obtain ⟨hpushed, hdiff⟩ := hquiet
    have hdocs := hsame hdiff
    have hq : w.Quiet (stay { w with
        documents := w.documents.applied (w.pending.against w.documents (some readTime))
        pending := .empty
        hasPushed := true
        resumeToken := if token.isEmpty then none else some token }) :=
      ⟨rfl, hdocs, hpushed.symm, fun _ => PendingChanges.keyed_empty⟩
    refine ⟨?_, Or.inr ⟨rfl, h.hasPushed_iff.1 hpushed, hdocs⟩⟩
    rw [Option.toList_none, List.append_nil]
    exact h.quiet hq
  · rw [if_neg hquiet]
    refine ⟨h.snoc hwell PendingChanges.keyed_empty rfl rfl hreplay ?_, Or.inl ⟨_, rfl, rfl⟩⟩
    intro hpushed hdiff
    apply hquiet
    rw [hpushed, List.isEmpty_iff.2 hdiff]
    rfl

/-- What can come of an action: a snapshot that takes the listener to the new set, or nothing, and then
the set stays as it was and there was a snapshot before if the pending changes were applied. -/
theorem Told.receive (h : w.Told snaps) (a : Action) :
    ((w.receive a).worker.Told (snaps ++ (w.receive a).snapshot.toList)) ∧
      ((∃ S, (w.receive a).snapshot = some S ∧ S.documents = (w.receive a).worker.documents) ∨
        ((w.receive a).snapshot = none ∧ (w.receive a).worker.documents = w.documents ∧
          (w.materialization? a ≠ none → snaps ≠ []))) := by
  cases hm : w.materialization? a with
  | none =>
    have hq := quiet_receive hm
    rw [hq.snapshot, Option.toList_none, List.append_nil]
    exact ⟨h.quiet hq, Or.inr ⟨rfl, hq.documents, fun hne => absurd rfl hne⟩⟩
  | some at_ =>
    obtain ⟨readTime, token⟩ := at_
    obtain ⟨hworker, hsnapshot⟩ := receive_of_materialization?_eq_some hm
    obtain ⟨htold, hcases⟩ := h.materialize readTime token
    have hdocs := (known_of_detached_eq hworker).1
    rw [hsnapshot, hdocs]
    refine ⟨htold.congr hworker, ?_⟩
    rcases hcases with hemits | ⟨hnone, hne, hsame⟩
    · exact Or.inl hemits
    · exact Or.inr ⟨hnone, hsame, fun _ => hne⟩

end Worker

namespace Session

variable {draw : Binary64 → Binary64 → Binary64} {s s' : Session} {a : Action} {actions : List Action}
  {target : ListenTarget} {order : DocumentOrder} {settings : ListenSettings} {policy : BackoffPolicy}

theorem told_step? (h : s.worker.Told s.snapshots) (hstep : s.step? draw a = some s') :
    s'.worker.Told s'.snapshots := by
  obtain ⟨hworker, hsnapshots⟩ := step?_worker hstep
  rw [hsnapshots]
  exact (h.receive a).1.congr hworker

theorem Run.told [order.Lawful] (h : (initial (.initial target order settings policy)).Run actions s) :
    s.worker.Told s.snapshots := by
  induction h with
  | nil => exact Worker.told_initial target order settings policy
  | snoc _ hstep ih => exact told_step? ih hstep

/-- A listener that replays the diffs of the snapshots, in order and from nothing, holds the documents of
each of them in turn, and those of the worker in the end. Only the first diff may be empty, and a step that
sends nothing leaves the worker's documents alone; the pending changes are never applied for the first
time without a snapshot. -/
theorem Run.snapshots_chained [order.Lawful]
    (h : (initial (.initial target order settings policy)).Run actions s) :
    Snapshot.Chained [] s.snapshots ∧
      s.worker.documents.sorted = Snapshot.latest [] s.snapshots ∧
      (∀ S ∈ s.snapshots.tail, S.changes ≠ []) ∧
      ∀ draw a s', s.step? draw a = some s' →
        (∃ S, s'.snapshots = s.snapshots ++ [S] ∧ S.documents = s'.worker.documents) ∨
          (s'.snapshots = s.snapshots ∧ s'.worker.documents = s.worker.documents ∧
            (s.worker.materialization? a ≠ none → s.snapshots ≠ [])) := by
  have htold := h.told
  refine ⟨htold.chained, htold.latest, htold.changed, ?_⟩
  intro draw a s' hstep
  obtain ⟨hworker, hsnapshots⟩ := step?_worker hstep
  have hdocs := (Worker.known_of_detached_eq hworker).1
  rw [hsnapshots, hdocs]
  rcases (htold.receive a).2 with ⟨S, hsome, hS⟩ | ⟨hnone, hrest⟩
  · refine Or.inl ⟨S, ?_, hS⟩
    rw [hsome]
    rfl
  · refine Or.inr ⟨?_, hrest⟩
    rw [hnone]
    exact List.append_nil s.snapshots

/-- From the first snapshot to the next, for which one document comes and the other goes. -/
def afterTurnover : List Action :=
  firstSnapshot "c/b" ++ [.work, .response (.documentChange ⟨some ⟨"c/a", [], none, none⟩, [1], []⟩), .work,
    .response (.documentDelete ⟨"c/b", [], none⟩), .work,
    .response (.targetChange ⟨0, [], none, [2], some ⟨2, 0⟩⟩)]

/-- Two snapshots, of which the second is told as a removal and an addition to the first. -/
theorem snapshots_chained_turnover : ∃ s S T, (watchOf "c/a").Run afterTurnover s ∧ s.snapshots = [S, T] ∧
    Change.replayAll? S.changes [] = some S.documents.sorted ∧
    Change.replayAll? T.changes S.documents.sorted = some T.documents.sorted ∧
    T.changes ≠ [] ∧ s.worker.documents.sorted = T.documents.sorted := by
  have hrun : ((watchOf "c/a").run? (fun low _ => low) afterTurnover).map (fun s => s.snapshots.length) =
      some 2 := by
    decide +kernel
  obtain ⟨s, hs, hlength⟩ := Option.map_eq_some_iff.1 hrun
  obtain ⟨S, rest, hsnapshots⟩ := List.exists_cons_of_length_eq_add_one hlength
  rw [hsnapshots, List.length_cons, Nat.succ_inj] at hlength
  obtain ⟨T, rfl⟩ := List.length_eq_one_iff.1 hlength
  obtain ⟨hchained, hlatest, hchanged, -⟩ := (Run.of_run? hs).snapshots_chained
  rw [hsnapshots] at hchained hlatest hchanged
  exact ⟨s, S, T, .of_run? hs, hsnapshots, hchained.1, hchained.2.1, hchanged T List.mem_cons_self, hlatest⟩

end Session

end LiveQuery
