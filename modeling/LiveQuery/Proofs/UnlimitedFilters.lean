import LiveQuery.Proofs.FilterStreak

namespace LiveQuery

namespace Worker

variable {w : Worker} {a : Action} {m : UInt32}

/-- Without a limit the worker counts every filter that disagrees and starts over, as long as it can
count. -/
theorem onFilter_of_unlimited (hlimit : w.settings.maxFilterMismatches = 0) (filter : ExistenceFilter)
    (hne : filter.count.toInt ≠ w.pending.projectedSize w.documents) :
    (w.filterMismatches.toNat + 1 < UInt32.size ∧
        (w.filterMismatches + 1).toNat = w.filterMismatches.toNat + 1 ∧
        ∃ mismatch, w.onFilter filter =
          { reconnect (resetDocuments { w with filterMismatches := w.filterMismatches + 1 }) with
            mismatch := some mismatch }) ∨
      w.filterMismatches.toNat + 1 = UInt32.size ∧ w.onFilter filter = ⟨w, none, none, .overflow⟩ := by
  have hreacts := reacts_onFilter w filter
  generalize w.onFilter filter = r at hreacts
  cases hreacts with
  | agree hagree => exact absurd hagree hne
  | overflow _ hfull => exact .inr ⟨hfull, rfl⟩
  | giveUp _ _ hgiveUp =>
    rw [hlimit] at hgiveUp
    exact absurd hgiveUp.1 (UInt32.lt_irrefl 0)
  | disagree _ hroom =>
    have hlt : w.filterMismatches.toNat + 1 < UInt32.size :=
      Nat.lt_of_le_of_ne w.filterMismatches.toNat_lt hroom
    exact .inl ⟨hlt, (UInt32.toNat_add _ _).trans (Nat.mod_eq_of_lt hlt), _, rfl⟩

/-- Only a worker with a limit closes a watch for mismatches. -/
theorem limit_ne_zero_of_filterMismatch (hverdict : (w.receive a).verdict = .close (.filterMismatch m)) :
    w.settings.maxFilterMismatches ≠ 0 := by
  intro hlimit
  obtain ⟨-, hfilter⟩ := receive_of_filterMismatch hverdict
  cases a with
  | response response =>
    cases response with
    | filter filter =>
      change (w.onFilter filter).verdict = _ at hverdict
      by_cases hagree : filter.count.toInt = w.pending.projectedSize w.documents
      · rw [onFilter_of_agree hagree] at hverdict
        cases hverdict
      · rcases onFilter_of_unlimited hlimit filter hagree with ⟨-, -, _, heq⟩ | ⟨-, heq⟩ <;>
          rw [heq] at hverdict <;> cases hverdict
    | unset | targetChange | documentChange | documentDelete | documentRemove => cases hfilter
  | start | deactivate | cancel | work | elapse | connected | refused | failure | completion | take
  | check | hand => cases hfilter

end Worker

namespace Session

variable {draw : Binary64 → Binary64 → Binary64} {s s' : Session} {a : Action} {actions : List Action}
  {w : Worker} {filter : ExistenceFilter} {target : ListenTarget} {order : DocumentOrder}
  {settings : ListenSettings} {policy : BackoffPolicy}

/-- Without a limit no filter closes the watch. -/
theorem Run.not_blames (h : (initial w).Run actions s) (hlimit : w.settings.maxFilterMismatches = 0)
    (m : UInt32) : ¬ s.Blames (.filterMismatch m) := by
  induction h with
  | nil => simp [Blames, initial, errors]
  | @snoc actions s a s' draw hrun hstep ih =>
    intro hblames
    rcases blames_step? hstep hblames with hbefore | ⟨-, hverdict⟩
    · exact ih hbefore
    · refine Worker.limit_ne_zero_of_filterMismatch hverdict ?_
      rw [hrun.configuration.2]
      exact hlimit

/-- A worker that stopped takes no further step. -/
theorem stopped_of_step? (hstopped : s.phase = .stopped) (hlinked : s.Linked)
    (hstep : s.step? draw a = some s') : s'.phase = .stopped := by
  by_cases hwork : a = .work
  · rw [hwork] at hstep
    simp [step?, work?, hstopped] at hstep
  · have hidle : s.shared.state ≠ .idle := state_ne_idle_of_phase hlinked (by simp [hstopped])
    exact (phase_step? hstep hwork (by simp [hstopped]) (by simp [hstopped]) hidle).1.trans hstopped

/-- The mismatches of a worker without a limit: the count is that of the filters that disagreed since the
last one that agreed, up to the one that it cannot count, for which the worker stops. -/
structure Tallies (s : Session) (mismatches : Nat) : Prop where
  le_size : mismatches ≤ UInt32.size
  count : s.worker.filterMismatches.toNat = min mismatches (UInt32.size - 1)
  stopped : mismatches = UInt32.size → s.phase = .stopped

theorem tallies_zero (h : s.worker.filterMismatches = 0) : s.Tallies 0 :=
  ⟨Nat.zero_le _, congrArg UInt32.toNat h, fun hfull => absurd hfull (by decide)⟩

/-- A filter that disagrees, where there is no limit. -/
theorem Tallies.disagree {n : Nat} (h : s.Tallies n) (hlimit : s.worker.settings.maxFilterMismatches = 0)
    (hstep : s.step? draw (.response (.filter filter)) = some s')
    (hne : filter.count.toInt ≠ s.worker.pending.projectedSize s.worker.documents) :
    s'.Tallies (n + 1) ∧
      (n + 1 < UInt32.size → s.StartsOver s' ∧ s'.worker.documents = s.worker.documents ∧
        s'.worker.pending = s.worker.documents.paths.foldl PendingChanges.tombstone .empty) ∧
      (n + 1 = UInt32.size → s'.phase = .stopped ∧ s'.shared = s.shared ∧ s'.sent = s.sent) := by
  obtain ⟨_, hfilter, hreading, heq⟩ := isFilter_step? hstep rfl
  cases hfilter
  -- the one that overflowed the count stopped the worker
  have hlt : n < UInt32.size := by
    refine Nat.lt_of_le_of_ne h.le_size fun hfull => ?_
    have hready := (isReading_iff.1 hreading).1
    rw [h.stopped hfull] at hready
    cases hready
  have hcount : s.worker.filterMismatches.toNat = n := h.count.trans (Nat.min_eq_left (by omega))
  rcases Worker.onFilter_of_unlimited hlimit filter hne with ⟨hroom, hsucc, mismatch, hresult⟩ | ⟨hfull, hresult⟩
  · rw [hcount] at hroom hsucc
    have hworker : s'.worker.filterMismatches = s.worker.filterMismatches + 1 := by
      rw [heq, hresult]
      rfl
    refine ⟨⟨Nat.le_of_lt hroom, ?_, fun hfull => absurd hfull (Nat.ne_of_lt hroom)⟩, ?_,
      fun hfull => absurd hfull (Nat.ne_of_lt hroom)⟩
    · rw [hworker, hsucc]
      omega
    · intro _
      rw [heq, hresult]
      exact ⟨startsOver_of_restarting rfl rfl rfl (List.append_nil _), rfl, rfl⟩
  · rw [hcount] at hfull
    have hstopped : s'.phase = .stopped ∧ s'.shared = s.shared ∧ s'.sent = s.sent := by
      rw [heq, hresult]
      exact ⟨rfl, rfl, List.append_nil _⟩
    refine ⟨⟨Nat.le_of_eq hfull, ?_, fun _ => hstopped.1⟩, fun hroom => absurd hfull (Nat.ne_of_lt hroom),
      fun _ => hstopped⟩
    have hworker : s'.worker.filterMismatches = s.worker.filterMismatches := by
      rw [heq, hresult]
      rfl
    rw [hworker, hcount]
    omega

theorem Run.tallies (h : (initial w).Run actions s) (hw : w.Sound) (hstream : w.stream = none)
    (hzero : w.filterMismatches = 0) (hlimit : w.settings.maxFilterMismatches = 0) :
    s.Tallies (streak (w.agreements actions)) := by
  induction h with
  | nil => exact tallies_zero hzero
  | @snoc actions s a s' draw hrun hstep ih =>
    have hworker : s.worker.detached = (w.receiveAll actions).detached := hrun.worker
    rw [Worker.agreements_snoc, ← Worker.agreement?_congr hworker]
    cases ha : a.isFilter with
    | false =>
      rw [Worker.agreement?_of_not_isFilter _ ha, Option.toList_none, List.append_nil]
      refine ⟨ih.le_size, ?_, fun hfull => stopped_of_step? (ih.stopped hfull) (hrun.linked hstream) hstep⟩
      rw [filterMismatches_step? hstep ha]
      exact ih.count
    | true =>
      obtain ⟨filter, rfl, hreading, heq⟩ := isFilter_step? hstep ha
      simp only [Worker.agreement?, Option.toList_some, streak_snoc, ← (hrun.sound hw).projectedSize_eq]
      by_cases hagree : filter.count.toInt = s.worker.pending.projectedSize s.worker.documents
      · rw [if_pos (decide_eq_true hagree), heq, Worker.onFilter_of_agree hagree]
        exact tallies_zero rfl
      · rw [if_neg (by simpa using hagree)]
        exact (ih.disagree ((congrArg _ hrun.configuration.2).trans hlimit) hstep hagree).1

/-- Without a limit no filter closes the watch, whatever came before. Each one that disagrees has the
worker start over with the deletion of every document pending, up to the one that makes the count of
mismatches in a row `2 ^ 32`: there the worker stops without a word, and the watch stays as it was. -/
theorem Run.mismatches_unlimited [order.Lawful]
    (h : (initial (.initial target order settings policy)).Run actions s)
    (hlimit : settings.maxFilterMismatches = 0) :
    (∀ m, ¬ s.Blames (.filterMismatch m)) ∧
      s.Tallies (streak ((Worker.initial target order settings policy).agreements actions)) ∧
      ∀ draw filter s', s.step? draw (.response (.filter filter)) = some s' →
        filter.count.toInt ≠ s.worker.appliedSize →
        (streak ((Worker.initial target order settings policy).agreements actions) + 1 < UInt32.size →
          s.StartsOver s' ∧ s'.worker.documents = s.worker.documents ∧
            s'.worker.pending = s.worker.documents.paths.foldl PendingChanges.tombstone .empty) ∧
        (streak ((Worker.initial target order settings policy).agreements actions) + 1 = UInt32.size →
          s'.phase = .stopped ∧ s'.shared = s.shared ∧ s'.sent = s.sent) := by
  have hinitial : (Worker.initial target order settings policy).Sound :=
    (Worker.told_initial target order settings policy).sound
  have htallies := h.tallies hinitial rfl rfl hlimit
  refine ⟨h.not_blames hlimit, htallies, ?_⟩
  intro draw filter s' hstep hne
  rw [← (h.sound hinitial).projectedSize_eq] at hne
  exact (htallies.disagree ((congrArg _ h.configuration.2).trans hlimit) hstep hne).2

/-- A watch without a limit on mismatches. -/
def patient : Session :=
  initial (.initial (.document (.ofString "c/a")) .byPath
    { ListenSettings.default with maxFilterMismatches := 0 } .default)

/-- The watch reads a stream, has not been sent a document, and has counted so many mismatches. -/
def patientAfter (backoff : Backoff) (mismatches : UInt32) : Session :=
  { patient with
    shared := ⟨.streaming, false⟩
    phase := .ready
    worker := { patient.worker with stream := some 1, backoff, filterMismatches := mismatches } }

/-- From the start to the first stream. -/
def opening : List Action := [.start, .work, .elapse, .connected 1, .work, .work]

/-- From a filter that counts five documents to the next stream. -/
def anotherMismatch : List Action := [countFive, .work, .work, .elapse, .connected 1, .work, .work]

theorem disagrees_patientAfter (backoff : Backoff) (n : UInt32) : (5 : Int32).toInt ≠
    (patientAfter backoff n).worker.pending.projectedSize (patientAfter backoff n).worker.documents := by
  change (5 : Int32).toInt ≠ PendingChanges.empty.projectedSize (DocumentSet.empty .byPath)
  decide

theorem exists_run_anotherMismatch {backoff : Backoff} {n : UInt32} (h : n.toNat + 1 < UInt32.size) :
    ∃ backoff', (patientAfter backoff n).Run anotherMismatch (patientAfter backoff' (n + 1)) := by
  let draw : Binary64 → Binary64 → Binary64 := fun low _ => low
  rcases Worker.onFilter_of_unlimited (w := (patientAfter backoff n).worker) rfl ⟨1, 5⟩
    (disagrees_patientAfter backoff n) with ⟨-, -, mismatch, hresult⟩ | ⟨hfull, -⟩
  · have hstep : (patientAfter backoff n).step? draw countFive =
        some ((patientAfter backoff n).absorb ((patientAfter backoff n).worker.onFilter ⟨1, 5⟩)) := rfl
    rw [hresult] at hstep
    have hfirst : (patientAfter backoff n).Run ([] ++ [countFive]) _ := Run.nil.snoc hstep
    exact ⟨backoff.advance, hfirst.append (@Run.of_run? draw _ _ _ rfl)⟩
  · exact absurd hfull (Nat.ne_of_lt h)

/-- So many mismatches in a row, and the stream after the last of them. -/
def mismatchesInARow (n : Nat) : List Action := opening ++ (List.replicate n anotherMismatch).flatten

theorem exists_run_mismatches {n : Nat} (h : n < UInt32.size) :
    ∃ backoff, patient.Run (mismatchesInARow n) (patientAfter backoff (UInt32.ofNat n)) := by
  induction n with
  | zero =>
    have hopening : patient.run? (fun low _ => low) opening =
        some (patientAfter patient.worker.backoff.advance 0) := rfl
    exact ⟨_, (List.append_nil opening).symm ▸ Run.of_run? hopening⟩
  | succ n ih =>
    obtain ⟨backoff, hrun⟩ := ih (Nat.lt_of_succ_lt h)
    have hcount : (UInt32.ofNat n).toNat = n := UInt32.toNat_ofNat_of_lt' (Nat.lt_of_succ_lt h)
    obtain ⟨backoff', hnext⟩ := @exists_run_anotherMismatch backoff (UInt32.ofNat n) (by rwa [hcount])
    refine ⟨backoff', ?_⟩
    have hrows : mismatchesInARow (n + 1) = mismatchesInARow n ++ anotherMismatch := by
      rw [mismatchesInARow, mismatchesInARow, List.replicate_succ', List.flatten_concat, List.append_assoc]
    rw [hrows, UInt32.ofNat_add]
    exact hrun.append hnext

/-- The mismatch that makes `2 ^ 32` in a row ends the worker: it schedules no connection, and the listener
is not told. -/
theorem mismatches_unlimited_overflow : ∃ s s', patient.Run (mismatchesInARow (UInt32.size - 1)) s ∧
    s.step? (fun low _ => low) countFive = some s' ∧ s.shared.state = .streaming ∧
    (5 : Int32).toInt ≠ s.worker.pending.projectedSize s.worker.documents ∧
    s'.phase = .stopped ∧ s'.worker.timer = none ∧ s'.shared.state = .streaming ∧ s'.sent = [] := by
  obtain ⟨backoff, hrun⟩ := exists_run_mismatches (n := UInt32.size - 1) (by decide)
  have hstep : (patientAfter backoff (UInt32.ofNat (UInt32.size - 1))).step? (fun low _ => low) countFive =
      some (stop (patientAfter backoff (UInt32.ofNat (UInt32.size - 1)))) := rfl
  exact ⟨_, _, hrun, hstep, rfl, disagrees_patientAfter _ _, rfl, rfl, rfl, rfl⟩

/-- The first mismatch of a watch without a limit. -/
theorem mismatches_unlimited_once : ∃ s s', patient.Run opening s ∧
    s.step? (fun low _ => low) countFive = some s' ∧ s.StartsOver s' := by
  have hrun : (patient.run? (fun low _ => low) opening).bind (fun s =>
      (s.step? (fun low _ => low) countFive).map fun _ =>
        decide (s.worker.filterMismatches = 0 ∧ s.worker.appliedSize = 0)) = some true := by
    decide +kernel
  obtain ⟨s, hs, hrest⟩ := Option.bind_eq_some_iff.1 hrun
  obtain ⟨s', hs', hchecked⟩ := Option.map_eq_some_iff.1 hrest
  obtain ⟨hcount, hsize⟩ := of_decide_eq_true hchecked
  obtain ⟨-, htallies, hfilter⟩ := (Run.of_run? hs).mismatches_unlimited rfl
  have hne : (5 : Int32).toInt ≠ s.worker.appliedSize := by
    rw [hsize]
    decide
  have hzero := htallies.count
  rw [hcount, UInt32.toNat_zero, UInt32.size] at hzero
  exact ⟨s, s', .of_run? hs, hs', ((hfilter _ _ s' hs' hne).1 (by rw [UInt32.size]; omega)).1⟩

end Session

end LiveQuery
