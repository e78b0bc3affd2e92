import LiveQuery.Proofs.Materialization
import LiveQuery.Proofs.Resumption

namespace LiveQuery

namespace Action

/-- Whether the action opens a stream. -/
def isOpening : Action → Bool
  | .connected _ => true
  | _ => false

/-- The kind of target change that a stream brings. -/
def targetChange? : Action → Option TargetChangeKind
  | .response (.targetChange change) => TargetChangeKind.ofNumber? change.kind
  | _ => none

/-- The read time and the token of a target change without targets that only marks a point of time. -/
def checkpoint? : Action → Option (Timestamp × Bytes)
  | .response (.targetChange change) =>
    if change.kind = TargetChangeKind.noChange.number ∧ change.targetIds = [] then
      change.readTime.map fun readTime => (readTime, change.resumeToken)
    else none
  | _ => none

end Action

namespace DocumentSet

variable {docs : DocumentSet} {d e : QueryDocument} {p : Path} {set : ChangeSet} {c : Change}

theorem mem_sorted_erase (hd : d ∈ (docs.erase p).sorted) : d ∈ docs.sorted := by
  unfold erase at hd
  split at hd
  · exact hd
  · simp only at hd
    split at hd
    · exact List.mem_of_mem_eraseIdx hd
    · exact hd

theorem mem_sorted_insert (hd : d ∈ (docs.insert e).sorted) : d ∈ docs.sorted ∨ d = e := by
  rcases List.eq_or_mem_of_mem_insertIdx hd with heq | hmem
  · exact Or.inr heq
  · exact Or.inl (mem_sorted_erase hmem)

theorem mem_sorted_foldl {step : Progress → QueryDocument → Progress}
    (hstep : ∀ progress e, d ∈ (step progress e).1.sorted → d ∈ progress.1.sorted ∨ d = e)
    (ds : List QueryDocument) (progress : Progress) (hd : d ∈ (ds.foldl step progress).1.sorted) :
    d ∈ progress.1.sorted ∨ d ∈ ds := by
  induction ds generalizing progress with
  | nil => exact Or.inl hd
  | cons e ds ih =>
    rcases ih (step progress e) hd with hmem | hmem
    · rcases hstep progress e hmem with hbefore | rfl
      · exact Or.inl hbefore
      · exact Or.inr List.mem_cons_self
    · exact Or.inr (List.mem_cons_of_mem e hmem)

theorem mem_sorted_foldl_applyDelete (ds : List QueryDocument) (progress : Progress)
    (hd : d ∈ (ds.foldl applyDelete progress).1.sorted) : d ∈ progress.1.sorted := by
  induction ds generalizing progress with
  | nil => exact hd
  | cons e ds ih =>
    have hrest : d ∈ (applyDelete progress e).1.sorted := ih _ hd
    exact mem_sorted_erase hrest

/-- Whatever the order, a set holds nothing but what it held or was given. -/
theorem mem_sorted_apply (hd : d ∈ (docs.apply set).1.sorted) :
    d ∈ docs.sorted ∨ d ∈ set.adds ∨ d ∈ set.updates := by
  rcases mem_sorted_foldl (fun _ _ => mem_sorted_insert) _ _ hd with hrest | hupdated
  · rcases mem_sorted_foldl (fun _ _ => mem_sorted_insert) _ _ hrest with hrest | hadded
    · exact Or.inl (mem_sorted_foldl_applyDelete _ _ hrest)
    · exact Or.inr (Or.inl (mem_sortDocuments.1 hadded))
  · exact Or.inr (Or.inr (mem_sortDocuments.1 hupdated))

theorem mem_of_mem_diff (hc : c ∈ (docs.apply set).2) (hkind : c.kind ≠ .removed) :
    c.document ∈ set.adds ∨ c.document ∈ set.updates := by
  have hentry := List.mem_map_of_mem (f := Change.entry) hc
  simp only [entries_apply, List.mem_append, List.mem_map] at hentry
  rcases hentry with (⟨d, -, hd⟩ | ⟨d, hmem, hd⟩) | ⟨d, hmem, hd⟩
  · exact absurd (congrArg Prod.fst hd).symm hkind
  · have heq : d = c.document := congrArg Prod.snd hd
    exact Or.inl (heq ▸ mem_sortDocuments.1 hmem)
  · have heq : d = c.document := congrArg Prod.snd hd
    exact Or.inr (heq ▸ mem_sortDocuments.1 hmem)

end DocumentSet

/-- What pending changes bring into a set has the read time at which they are applied. -/
theorem PendingChanges.readTime_against {changes : PendingChanges} {docs : DocumentSet}
    {readTime : Option Timestamp} {d : QueryDocument}
    (hd : d ∈ (changes.against docs readTime).adds ∨ d ∈ (changes.against docs readTime).updates) :
    d.readTime = readTime := by
  rcases hd with hadded | hupdated
  · obtain ⟨p, e, -, -, rfl⟩ := mem_adds_iff.1 hadded
    rfl
  · obtain ⟨p, e, held, -, -, -, rfl⟩ := mem_updates_iff.1 hupdated
    rfl

namespace Worker

variable {w : Worker} {a : Action} {response : ListenResponse} {r : Reaction} {readTime : Timestamp}
  {token : Bytes} {stream : Nat}

theorem materialization?_eq (w : Worker) (a : Action) :
    w.materialization? a = if w.current = true then a.checkpoint? else none := by
  cases a with
  | response response =>
    cases response with
    | targetChange change =>
      simp only [materialization?, Action.checkpoint?, TargetChangeKind.ofNumber?_eq_some_iff,
        List.isEmpty_iff]
      cases w.current <;> simp
    | unset | documentChange | documentDelete | documentRemove | filter =>
      simp [materialization?, Action.checkpoint?]
  | start | deactivate | cancel | work | elapse | connected | refused | failure | completion | take | check
  | hand => simp [materialization?, Action.checkpoint?]

/-- Over a response that leaves the worker with a stream, only two kinds of target change bear on whether
the result set is caught up. -/
theorem Reacts.current_iff (h : w.Reacts response r) (hstream : r.worker.stream = some stream) :
    w.stream = some stream ∧
      (r.worker.current = true ↔ (Action.response response).targetChange? = some .current ∨
        w.current = true ∧ (Action.response response).targetChange? ≠ some .reset) := by
  cases h with
  | unset | unknown | misaddress | reject | lack | giveUp | disagree => cases hstream
  | idle hkind | acknowledge hkind =>
    simp only [stay, stream_confirmProgress] at hstream
    simp [stay, hstream, Action.targetChange?, hkind]
  | materialize hkind =>
    simp only [stream_confirmProgress] at hstream
    have hcurrent (readTime : Timestamp) (token : Bytes) :
        (w.materialize readTime token).1.current = w.current := rfl
    refine ⟨hstream, ?_⟩
    simp [hcurrent, Action.targetChange?, hkind]
  | current hkind =>
    simp only [stay, stream_confirmProgress] at hstream
    simp [stay, hstream, Action.targetChange?, hkind]
  | reset hkind =>
    simp only [stay, stream_confirmProgress] at hstream
    refine ⟨hstream, ?_⟩
    simp [stay, resetDocuments, Action.targetChange?, hkind]
  | ignore | upsert | leave | delete | remove | agree | overflow =>
    exact ⟨hstream, by simp [stay, Action.targetChange?]⟩

theorem stream_onStreamError (w : Worker) (e : StreamError) : (w.onStreamError e).worker.stream = none := by
  rcases onStreamError_cases w e with heq | ⟨backoff, heq⟩ <;> rw [heq] <;> rfl

theorem current_receive_iff (ha : a ≠ .elapse) (hopening : a.isOpening = false)
    (hstream : (w.receive a).worker.stream = some stream) :
    w.stream = some stream ∧ ((w.receive a).worker.current = true ↔
      a.targetChange? = some .current ∨ w.current = true ∧ a.targetChange? ≠ some .reset) := by
  cases a with
  | response response => exact (reacts_onResponse w response).current_iff hstream
  | refused e | failure e => exact absurd ((stream_onStreamError w e).symm.trans hstream) nofun
  | completion => exact absurd ((stream_onStreamError w _).symm.trans hstream) nofun
  | elapse => exact absurd rfl ha
  | connected => cases hopening
  | start | deactivate | cancel | work | take | check | hand =>
    exact ⟨hstream, by simp [receive, stay, Action.targetChange?]⟩

theorem Reacts.resumeToken_of_quiet (h : w.Reacts response r)
    (hm : w.materialization? (.response response) = none) :
    r.worker.resumeToken = w.resumeToken ∨ r.worker.resumeToken = none := by
  cases h with
  | materialize _ hsome =>
    rw [hm] at hsome
    cases hsome
  | idle | acknowledge | current => exact Or.inl (resumeToken_confirmProgress _ _)
  | reset => exact Or.inr (resumeToken_confirmProgress _ _)
  | disagree => exact Or.inr rfl
  | unset | unknown | misaddress | reject | ignore | lack | upsert | leave | delete | remove | agree
  | overflow | giveUp => exact Or.inl rfl

/-- A token is never replaced without applying the pending changes. -/
theorem resumeToken_receive_of_quiet (hm : w.materialization? a = none) :
    (w.receive a).worker.resumeToken = w.resumeToken ∨ (w.receive a).worker.resumeToken = none := by
  cases a with
  | response response => exact (reacts_onResponse w response).resumeToken_of_quiet hm
  | refused e | failure e => exact Or.inl (kept_onStreamError w e).2.1
  | completion => exact Or.inl (kept_onStreamError w _).2.1
  | elapse | connected | start | deactivate | cancel | work | take | check | hand => exact Or.inl rfl

end Worker

namespace Session

variable {draw : Binary64 → Binary64 → Binary64} {s s' : Session} {a b : Action}
  {actions since : List Action} {stream : Nat} {readTime : Timestamp} {token : Bytes} {w : Worker}
  {target : ListenTarget} {order : DocumentOrder} {settings : ListenSettings} {policy : BackoffPolicy}

/-- What came since a stream opened, if none was opened after it. -/
def Since (stream : Nat) (since actions : List Action) : Prop :=
  (∃ before, actions = before ++ .connected stream :: since) ∧ ∀ a ∈ since, a.isOpening = false

/-- Whether the backend said that the result set is caught up, and has not reset it since. -/
def CaughtUp (since : List Action) : Prop :=
  ∃ before a after, since = before ++ a :: after ∧ a.targetChange? = some .current ∧
    ∀ b ∈ after, b.targetChange? ≠ some .reset

theorem Since.snoc (h : Since stream since actions) (ha : a.isOpening = false) :
    Since stream (since ++ [a]) (actions ++ [a]) := by
  obtain ⟨⟨before, rfl⟩, hsince⟩ := h
  refine ⟨⟨before, by simp⟩, ?_⟩
  intro b hb
  rcases List.mem_append.1 hb with hmem | hlast
  · exact hsince b hmem
  · exact List.mem_singleton.1 hlast ▸ ha

/-- It is clear what came since the last opening. -/
theorem Since.eq_takeWhile (h : Since stream since actions) :
    since = (actions.reverse.takeWhile (!·.isOpening)).reverse := by
  obtain ⟨⟨before, rfl⟩, hsince⟩ := h
  have hall : ∀ a ∈ since.reverse, (!a.isOpening) = true := by
    intro a ha
    rw [hsince a (List.mem_reverse.1 ha)]
    rfl
  rw [List.reverse_append, List.reverse_cons, List.append_assoc, List.takeWhile_append_of_pos hall]
  simp [Action.isOpening]

theorem caughtUp_snoc_iff (since : List Action) (a : Action) : CaughtUp (since ++ [a]) ↔
    a.targetChange? = some .current ∨ CaughtUp since ∧ a.targetChange? ≠ some .reset := by
  constructor
  · rintro ⟨before, b, after, heq, hb, hafter⟩
    rcases List.eq_nil_or_concat after with rfl | ⟨after, last, rfl⟩
    · obtain ⟨-, hlast⟩ := List.append_inj' heq rfl
      cases hlast
      exact Or.inl hb
    · rw [List.concat_eq_append, ← List.cons_append, ← List.append_assoc] at heq
      obtain ⟨rfl, hlast⟩ := List.append_inj' heq rfl
      cases hlast
      rw [List.concat_eq_append] at hafter
      exact Or.inr ⟨⟨before, b, after, rfl, hb, fun c hc => hafter c (List.mem_append_left _ hc)⟩,
        hafter a (by simp)⟩
  · rintro (ha | ⟨⟨before, b, after, rfl, hb, hafter⟩, ha⟩)
    · exact ⟨since, a, [], rfl, ha, nofun⟩
    · refine ⟨before, b, after ++ [a], by simp, hb, ?_⟩
      intro c hc
      rcases List.mem_append.1 hc with hmem | hlast
      · exact hafter c hmem
      · exact List.mem_singleton.1 hlast ▸ ha

/-- A worker that has a stream was just given it, or kept it. -/
theorem stream_step? (hstep : s.step? draw a = some s') (hstream : s'.worker.stream = some stream) :
    a = .connected stream ∨ a.isOpening = false ∧ (s.worker.receive a).worker.stream = some stream := by
  cases Step.of_step? hstep with
  | start | refuse | deactivate | cancel | launch | forgo | stream | close | concede | report | resume
  | elapse | take | drop | pass | hand => exact Or.inr ⟨rfl, hstream⟩
  | leave | breakDown | finish => cases hstream
  | reconnect =>
    refine Or.inr ⟨rfl, ?_⟩
    cases hmoved : (s.shared.transition .reconnecting).1 <;> rw [hmoved] at hstream <;> exact hstream
  | connected =>
    cases hstream
    exact Or.inl rfl
  | absorb haccepts =>
    refine Or.inr ⟨?_, ?_⟩
    · cases a with
      | connected => cases haccepts
      | start | deactivate | cancel | work | elapse | refused | response | failure | completion | take
      | check | hand => rfl
    · unfold absorb at hstream
      cases hverdict : (s.worker.receive a).verdict <;> rw [hverdict] at hstream
      case overflow => cases hstream
      all_goals exact hstream

/-- A worker that reads a stream reads the one that opened last, and counts the result set as caught up if
and only if that stream said so. -/
theorem Run.current_iff (hw : w.stream = none) (h : (initial w).Run actions s)
    (hstream : s.worker.stream = some stream) :
    ∃ since, Since stream since actions ∧ (s.worker.current = true ↔ CaughtUp since) := by
  induction h with
  | nil =>
    change w.stream = some stream at hstream
    rw [hw] at hstream
    cases hstream
  | @snoc actions s a s' draw hrun hstep ih =>
    obtain ⟨-, -, hcurrent, -⟩ := Worker.configured_of_detached_eq (step?_worker hstep).1
    rw [hcurrent]
    rcases stream_step? hstep hstream with rfl | ⟨hopening, hreceive⟩
    · refine ⟨[], ⟨⟨actions, rfl⟩, nofun⟩, ?_⟩
      have hfalse : s.worker.current = false := by
        cases Step.of_step? hstep with
        | connected hawaiting =>
          obtain ⟨⟨request, hphase⟩, -⟩ := isAwaiting_iff.1 hawaiting
          exact hrun.current_eq_false hphase
        | absorb haccepts => cases haccepts
      have hnot : ¬ CaughtUp [] := by simp [CaughtUp]
      change s.worker.current = true ↔ CaughtUp []
      simp [hfalse, hnot]
    · have ha : a ≠ .elapse := by
        rintro rfl
        cases Step.of_step? hstep with
        -- the timer is never set while there is a stream
        | elapse _ _ htimer =>
          exact absurd (((hrun.linked hw).offline (Or.inr htimer)).symm.trans hreceive) nofun
        | absorb haccepts => cases haccepts
      obtain ⟨hbefore, hiff⟩ := Worker.current_receive_iff ha hopening hreceive
      obtain ⟨since, hsince, hcaughtUp⟩ := ih hbefore
      refine ⟨since ++ [a], hsince.snoc hopening, ?_⟩
      rw [hiff, hcaughtUp, caughtUp_snoc_iff]

/-- The worker applies its pending changes at a read time and keeps the token for the next stream. -/
structure Publishes (s : Session) (readTime : Timestamp) (token : Bytes) (s' : Session) : Prop where
  worker : s'.worker.detached = (s.worker.materialize readTime token).1.detached
  snapshots : s'.snapshots = s.snapshots ++ (s.worker.materialize readTime token).2.toList
  resumeToken : s'.worker.resumeToken = if token = [] then none else some token
  /-- What a snapshot says, and what it brings, is of the read time. -/
  told : ∀ S, (s.worker.materialize readTime token).2 = some S →
    S.readTime = readTime ∧
      ∀ c ∈ S.changes, c.kind ≠ .removed → c.document.readTime = some readTime
  documents : ∀ d ∈ s'.worker.documents.sorted,
    d ∈ s.worker.documents.sorted ∨ d.readTime = some readTime

/-- The worker leaves its documents alone and sends nothing. -/
structure Rests (s s' : Session) : Prop where
  documents : s'.worker.documents = s.worker.documents
  snapshots : s'.snapshots = s.snapshots
  hasPushed : s'.worker.hasPushed = s.worker.hasPushed
  resumeToken : s'.worker.resumeToken = s.worker.resumeToken ∨ s'.worker.resumeToken = none

theorem publishes_step? (hstep : s.step? draw a = some s')
    (hm : s.worker.materialization? a = some (readTime, token)) : s.Publishes readTime token s' := by
  obtain ⟨hworker, hsnapshots⟩ := step?_worker hstep
  obtain ⟨hreceive, hsnapshot⟩ := Worker.receive_of_materialization?_eq_some hm
  obtain ⟨hdocs, -, htoken, -⟩ := Worker.known_of_detached_eq (hworker.trans hreceive)
  refine ⟨hworker.trans hreceive, hsnapshot ▸ hsnapshots, ?_, ?_, ?_⟩
  · rw [htoken]
    simp [Worker.materialize]
  · intro S hS
    unfold Worker.materialize at hS
    simp only [Option.ite_none_right_eq_some, Option.some.injEq] at hS
    obtain ⟨-, rfl⟩ := hS
    refine ⟨rfl, ?_⟩
    intro c hc hkind
    exact PendingChanges.readTime_against (DocumentSet.mem_of_mem_diff hc hkind)
  · intro d hd
    rw [hdocs] at hd
    rcases DocumentSet.mem_sorted_apply hd with hbefore | hnew
    · exact Or.inl hbefore
    · exact Or.inr (PendingChanges.readTime_against hnew)

theorem rests_step? (hstep : s.step? draw a = some s') (hm : s.worker.materialization? a = none) :
    s.Rests s' := by
  obtain ⟨hworker, hsnapshots⟩ := step?_worker hstep
  obtain ⟨hdocs, -, htoken, hpushed⟩ := Worker.known_of_detached_eq hworker
  have hquiet := Worker.quiet_receive hm
  refine ⟨hdocs.trans hquiet.documents, ?_, hpushed.trans hquiet.hasPushed, ?_⟩
  · rw [hsnapshots, hquiet.snapshot]
    exact List.append_nil _
  · rw [htoken]
    exact Worker.resumeToken_receive_of_quiet hm

/-- The pending changes are applied, and a snapshot is sent, at target changes without targets that mark a
read time, if the stream that is read, which is the one that opened last, has said since its last reset
that the result set is caught up. Nothing else changes the documents: no other response, no failure and
no connection. -/
theorem Run.publishes_iff_caughtUp (h : (initial (.initial target order settings policy)).Run actions s)
    (hstep : s.step? draw a = some s') :
    (a.checkpoint? = none → s.Rests s') ∧
      ∀ readTime token, a.checkpoint? = some (readTime, token) → ∃ stream since,
        s.worker.stream = some stream ∧ Since stream since actions ∧
          (CaughtUp since → s.Publishes readTime token s') ∧ (¬ CaughtUp since → s.Rests s') := by
  have hm := Worker.materialization?_eq s.worker a
  refine ⟨?_, ?_⟩
  · intro hnone
    rw [hnone, ite_self] at hm
    exact rests_step? hstep hm
  · intro readTime token hcheckpoint
    have hread : s.isReading = true := by
      cases Step.of_step? hstep with
      | absorb haccepts =>
        cases a with
        | response => exact haccepts
        | start | deactivate | cancel | work | elapse | connected | refused | failure | completion | take
        | check | hand => cases hcheckpoint
      | start | refuse | deactivate | cancel | launch | leave | forgo | breakDown | stream | reconnect
      | close | concede | report | finish | resume | elapse | connected | take | drop | pass | hand =>
        cases hcheckpoint
    obtain ⟨stream, hstream⟩ := Option.isSome_iff_exists.1 (isReading_iff.1 hread).2.2
    obtain ⟨since, hsince, hcurrent⟩ := h.current_iff rfl hstream
    rw [hcheckpoint] at hm
    refine ⟨stream, since, hstream, hsince, ?_, ?_⟩
    · intro hcaughtUp
      rw [if_pos (hcurrent.2 hcaughtUp)] at hm
      exact publishes_step? hstep hm
    · intro hnot
      rw [if_neg (mt hcurrent.1 hnot)] at hm
      exact rests_step? hstep hm

/-- A further document, as a second stream brings it. -/
def furtherDocument : List Action :=
  [.work, .work, .response (.documentChange ⟨some ⟨"c/b", [], none, none⟩, [1], []⟩), .work]

/-- A target change that marks a read time. -/
def readAt (seconds : Int64) : Action :=
  .response (.targetChange ⟨0, [], none, [2], some ⟨seconds, 0⟩⟩)

/-- A read time that comes too early, and then the word that the result set is caught up. -/
def lateCatchUp : List Action :=
  [readAt 3, .work, .response (.targetChange ⟨3, [], none, [], none⟩), .work]

/-- The first stream was caught up, but this does not count for the second. -/
theorem publishes_iff_caughtUp_secondStream : ∃ s s' t t',
    (watchOf "c/a").Run (afterFailure ++ .connected 2 :: furtherDocument) s ∧
    s.step? (fun low _ => low) (readAt 3) = some s' ∧ s.Rests s' ∧
    (watchOf "c/a").Run (afterFailure ++ .connected 2 :: furtherDocument ++ lateCatchUp) t ∧
    t.step? (fun low _ => low) (readAt 4) = some t' ∧ t.Publishes ⟨4, 0⟩ [2] t' := by
  have hrun : ((watchOf "c/a").run? (fun low _ => low)
      (afterFailure ++ .connected 2 :: furtherDocument)).bind
      (fun s => (s.step? (fun low _ => low) (readAt 3)).bind fun _ =>
        ((watchOf "c/a").run? (fun low _ => low)
          (afterFailure ++ .connected 2 :: furtherDocument ++ lateCatchUp)).bind fun t =>
            (t.step? (fun low _ => low) (readAt 4)).map fun _ => true) = some true := by
    decide +kernel
  obtain ⟨s, hs, hrest⟩ := Option.bind_eq_some_iff.1 hrun
  obtain ⟨s', hs', hrest⟩ := Option.bind_eq_some_iff.1 hrest
  obtain ⟨t, ht, hrest⟩ := Option.bind_eq_some_iff.1 hrest
  obtain ⟨t', ht', -⟩ := Option.map_eq_some_iff.1 hrest
  refine ⟨s, s', t, t', .of_run? hs, hs', ?_, .of_run? ht, ht', ?_⟩
  · obtain ⟨-, hcheckpoint⟩ := (Run.of_run? hs).publishes_iff_caughtUp hs'
    obtain ⟨stream, since, -, hsince, -, hrests⟩ := hcheckpoint ⟨3, 0⟩ [2] rfl
    apply hrests
    have heq : since = furtherDocument := hsince.eq_takeWhile
    rw [heq]
    rintro ⟨before, a, after, hsplit, ha, -⟩
    have hmem : a ∈ furtherDocument := hsplit ▸ List.mem_append_right before List.mem_cons_self
    simp only [furtherDocument, List.mem_cons, List.not_mem_nil, or_false] at hmem
    rcases hmem with rfl | rfl | rfl | rfl <;> cases ha
  · obtain ⟨-, hcheckpoint⟩ := (Run.of_run? ht).publishes_iff_caughtUp ht'
    obtain ⟨stream, since, -, hsince, hpublishes, -⟩ := hcheckpoint ⟨4, 0⟩ [2] rfl
    apply hpublishes
    have heq : since = furtherDocument ++ lateCatchUp := hsince.eq_takeWhile
    rw [heq]
    refine ⟨furtherDocument ++ [readAt 3, .work], .response (.targetChange ⟨3, [], none, [], none⟩),
      [.work], rfl, rfl, ?_⟩
    simp [Action.targetChange?]

end Session

end LiveQuery
