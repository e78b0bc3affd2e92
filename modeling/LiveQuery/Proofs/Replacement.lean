import LiveQuery.Proofs.ConsistentPoint
import LiveQuery.Proofs.Schedule

namespace LiveQuery

namespace News

variable {news : List News} {p : Path}

theorem last?_append (news news' : List News) (p : Path) :
    last? (news ++ news') p = (last? news' p).or (last? news p) := by
  unfold last?
  rw [List.filter_append, List.getLast?_append]

theorem last?_map_tombstone (ps : List Path) (p : Path) :
    last? (ps.map tombstone) p = if p ∈ ps then some (.tombstone p) else none := by
  induction ps using List.reverseRecOn with
  | nil => rfl
  | append_singleton ps q ih =>
    rw [List.map_append, List.map_singleton, last?_snoc, ih]
    by_cases hq : q = p
    · simp [News.path, hq]
    · simp [News.path, hq, Ne.symm hq]

theorem path_ne_of_last?_eq_none (h : last? news p = none) {n : News} (hn : n ∈ news) : n.path ≠ p := by
  rw [last?, List.getLast?_eq_none_iff, List.filter_eq_nil_iff] at h
  simpa using h n hn

end News

/-- What a response has to say about a document, if it concerns the watch. -/
def ListenResponse.news? : ListenResponse → Option News
  | .documentChange change => change.document.bind fun d =>
    if 1 ∈ change.targetIds then some (.upsert d)
    else if 1 ∈ change.removedTargetIds then some (.tombstone (Path.ofString d.name))
    else none
  | .documentDelete delete => some (.tombstone (Path.ofString delete.document))
  | .documentRemove remove => some (.tombstone (Path.ofString remove.document))
  | .unset | .targetChange _ | .filter _ => none

/-- A document set in the place of another one: it holds what the last news about a path bring, and
nothing else. The diff has one entry for each path whose version is not the one held before. -/
structure Replaced (docs : DocumentSet) (news : List News) (readTime : Timestamp) (next : DocumentSet)
    (diff : List Change) : Prop where
  contains : ∀ p, next.contains p = true ↔ ∃ d, News.last? news p = some (.upsert d)
  brought : ∀ p d, News.last? news p = some (.upsert d) →
    (∀ held, docs.get? p = some held → held.updateTime ≠ d.updateTime) →
    next.get? p = some ⟨d, some readTime⟩
  kept : ∀ p d held, News.last? news p = some (.upsert d) → docs.get? p = some held →
    held.updateTime = d.updateTime → next.get? p = some held ∧ DocumentSet.entriesOf p diff = []
  removed : ∀ p held, docs.get? p = some held → (∀ d, News.last? news p ≠ some (.upsert d)) →
    DocumentSet.entriesOf p diff = [(.removed, held)]
  added : ∀ p d, docs.get? p = none → News.last? news p = some (.upsert d) →
    DocumentSet.entriesOf p diff = [(.added, ⟨d, some readTime⟩)]
  modified : ∀ p d held, docs.get? p = some held → News.last? news p = some (.upsert d) →
    held.updateTime ≠ d.updateTime → DocumentSet.entriesOf p diff = [(.modified, ⟨d, some readTime⟩)]
  absent : ∀ p, docs.get? p = none → (∀ d, News.last? news p ≠ some (.upsert d)) →
    DocumentSet.entriesOf p diff = []

theorem News.last?_paths_append (docs : DocumentSet) (news : List News) (p : Path) :
    last? (docs.paths.map tombstone ++ news) p =
      (last? news p).or (if p ∈ docs.paths then some (.tombstone p) else none) := by
  rw [last?_append, last?_map_tombstone]

/-- After the end of everything held, nothing is at a path but what the news bring there. -/
theorem Materialized.get?_eq_none {docs next : DocumentSet} {news : List News}
    {readTime : Option Timestamp} {diff : List Change} {p : Path} (hdocs : docs.WellFormed)
    (h : Materialized docs (docs.paths.map News.tombstone ++ news) readTime next diff)
    (hnone : ∀ d, News.last? news p ≠ some (.upsert d)) : next.get? p = none := by
  have hlast := News.last?_paths_append docs news p
  cases hnews : News.last? news p with
  | some n =>
    rw [hnews, Option.some_or] at hlast
    cases n with
    | upsert d => exact absurd hnews (hnone d)
    | tombstone q => exact h.ended p q hlast
  | none =>
    rw [hnews, Option.none_or] at hlast
    by_cases hp : p ∈ docs.paths
    · rw [if_pos hp] at hlast
      exact h.ended p p hlast
    · -- no news at all, and nothing was held
      rw [if_neg hp] at hlast
      rw [h.untouched p fun n hn => News.path_ne_of_last?_eq_none hlast hn]
      rwa [hdocs.mem_paths_iff, DocumentSet.contains_eq_isSome_get?, Bool.not_eq_true,
        Option.isSome_eq_false_iff, Option.isNone_iff_eq_none] at hp

/-- News on top of the end of everything held leave nothing else. -/
theorem Materialized.replaced {docs next : DocumentSet} {news : List News} {readTime : Timestamp}
    {diff : List Change} (hdocs : docs.WellFormed)
    (h : Materialized docs (docs.paths.map News.tombstone ++ news) (some readTime) next diff) :
    Replaced docs news readTime next diff := by
  have hupsert {p : Path} {d : Document} (hd : News.last? news p = some (.upsert d)) :
      News.last? (docs.paths.map News.tombstone ++ news) p = some (.upsert d) := by
    rw [News.last?_paths_append, hd, Option.some_or]
  have hnew {p : Path} {d : Document} (hd : News.last? news p = some (.upsert d))
      (hold : ∀ held, docs.get? p = some held → held.updateTime ≠ d.updateTime) :
      next.get? p = some ⟨d, some readTime⟩ := h.brought p d (hupsert hd) hold
  have hsame {p : Path} {d : Document} {held : QueryDocument}
      (hd : News.last? news p = some (.upsert d)) (hheld : docs.get? p = some held)
      (htime : held.updateTime = d.updateTime) : next.get? p = some held :=
    h.kept p d held (hupsert hd) hheld htime
  refine ⟨?_, fun p d => hnew, ?_, ?_, ?_, ?_, ?_⟩
  · intro p
    rw [DocumentSet.contains_eq_isSome_get?]
    constructor
    · intro hp
      by_contra hnone
      rw [h.get?_eq_none hdocs (not_exists.1 hnone)] at hp
      cases hp
    · rintro ⟨d, hd⟩
      by_cases hold : ∀ held, docs.get? p = some held → held.updateTime ≠ d.updateTime
      · rw [hnew hd hold]
        rfl
      · push Not at hold
        obtain ⟨held, hheld, htime⟩ := hold
        rw [hsame hd hheld htime]
        rfl
  · intro p d held hd hheld htime
    refine ⟨hsame hd hheld htime, ?_⟩
    rw [h.entries, hheld, hsame hd hheld htime]
    simp [Change.between?]
  · intro p held hheld hnone
    rw [h.entries, hheld, h.get?_eq_none hdocs hnone]
    rfl
  · intro p d hheld hd
    rw [h.entries, hheld, hnew hd (by simp [hheld])]
    rfl
  · intro p d held hheld hd htime
    have hold : ∀ e, docs.get? p = some e → e.updateTime ≠ d.updateTime := by
      intro e he
      rw [hheld] at he
      cases he
      exact htime
    have hne : held.updateTime ≠ QueryDocument.updateTime ⟨d, some readTime⟩ := htime
    rw [h.entries, hheld, hnew hd hold, Change.between?, if_neg hne]
    rfl
  · intro p hheld hnone
    rw [h.entries, hheld, h.get?_eq_none hdocs hnone]
    rfl

namespace Worker

variable {w w' : Worker} {a : Action} {response : ListenResponse} {responses : List ListenResponse}
  {r : Reaction} {docs : DocumentSet} {change : TargetChange} {stream : Nat}

/-- A worker that has taken in responses since a reset: it holds what it held, and what is pending is the
end of all that, with the news on top. -/
structure Regathers (w : Worker) (docs : DocumentSet) (responses : List ListenResponse) : Prop where
  documents : w.documents = docs
  pending : w.pending =
    .ofNews (docs.paths.map News.tombstone ++ responses.filterMap ListenResponse.news?)
  current : w.current = true ↔ ∃ r ∈ responses, (Action.response r).targetChange? = some .current

theorem Regathers.congr (h : w.Regathers docs responses) (heq : w'.detached = w.detached) :
    w'.Regathers docs responses := by
  obtain ⟨hdocs, hpending, -⟩ := known_of_detached_eq heq
  obtain ⟨-, -, hcurrent, -⟩ := configured_of_detached_eq heq
  exact ⟨hdocs ▸ h.documents, hpending ▸ h.pending, hcurrent ▸ h.current⟩

theorem receive_reset (hkind : change.kind = TargetChangeKind.reset.number) (w : Worker) :
    w.receive (.response (.targetChange change)) = (w.resetDocuments.confirmProgress change).stay := by
  have hnumber : TargetChangeKind.ofNumber? change.kind = some .reset := by rw [hkind]; rfl
  simp only [receive, onResponse, onTargetChange, hnumber]

theorem regathers_reset (hkind : change.kind = TargetChangeKind.reset.number) (w : Worker) :
    (w.receive (.response (.targetChange change))).worker.Regathers w.documents [] := by
  have hpending : w.resetDocuments.pending =
      .ofNews (w.documents.paths.map News.tombstone ++ [].filterMap ListenResponse.news?) := by
    rw [List.filterMap_nil, List.append_nil, PendingChanges.ofNews, List.foldl_map]
    rfl
  rw [receive_reset hkind]
  refine ⟨documents_confirmProgress _ _, (pending_confirmProgress _ _).trans hpending, ?_⟩
  simp [stay, resetDocuments]

/-- What a response on an open stream makes of the pending changes, unless they are applied or a reset
ends them. -/
theorem Reacts.pending (h : w.Reacts response r) (hstream : r.worker.stream = some stream)
    (hm : w.materialization? (.response response) = none)
    (hreset : (Action.response response).targetChange? ≠ some .reset) :
    r.worker.pending = response.news?.elim w.pending w.pending.note := by
  cases h with
  | unset | unknown | misaddress | reject | lack | giveUp | disagree => cases hstream
  | materialize _ hsome =>
    rw [hm] at hsome
    cases hsome
  | reset hkind => exact absurd hkind hreset
  | idle | acknowledge | current => exact pending_confirmProgress _ _
  | @ignore change hforeign hforeign' =>
    cases hd : change.document with
    | none => simp [stay, ListenResponse.news?, hd]
    | some d =>
      have hforeign : 1 ∉ change.targetIds := hforeign
      have hforeign' : 1 ∉ change.removedTargetIds := hforeign'
      simp [stay, ListenResponse.news?, hd, hforeign, hforeign']
  | @upsert change d hwatched hd =>
    have hwatched : 1 ∈ change.targetIds := hwatched
    simp [stay, ListenResponse.news?, hd, hwatched, PendingChanges.note]
  | @leave change d hleft hremoved hd =>
    have hleft : 1 ∉ change.targetIds := hleft
    have hremoved : 1 ∈ change.removedTargetIds := hremoved
    simp [stay, ListenResponse.news?, hd, hleft, hremoved, PendingChanges.note]
  | delete | remove | agree | overflow => rfl

theorem Regathers.receive (h : w.Regathers docs responses)
    (hstream : (w.receive (.response response)).worker.stream = some stream)
    (hm : w.materialization? (.response response) = none)
    (hreset : (Action.response response).targetChange? ≠ some .reset) :
    (w.receive (.response response)).worker.Regathers docs (responses ++ [response]) := by
  have hreacts := reacts_onResponse w response
  refine ⟨?_, ?_, ?_⟩
  · rw [(quiet_receive hm).documents, h.documents]
  · change (w.onResponse response).worker.pending = _
    rw [hreacts.pending hstream hm hreset, h.pending, List.filterMap_append, ← List.append_assoc]
    cases hnews : response.news? with
    | none => simp [hnews]
    | some n =>
      rw [List.filterMap_cons_some hnews, List.filterMap_nil, PendingChanges.ofNews_snoc]
      rfl
  · change (w.onResponse response).worker.current = true ↔ _
    rw [(hreacts.current_iff hstream).2, h.current]
    simp [hreset, or_comm]

/-- Only the word that the result set is caught up makes it so. -/
theorem Reacts.current_eq_false (h : w.Reacts response r) (hcurrent : w.current = false)
    (hnot : (Action.response response).targetChange? ≠ some .current) : r.worker.current = false := by
  cases h with
  | current hkind => exact absurd hkind hnot
  | idle | acknowledge => exact (current_confirmProgress _ _).trans hcurrent
  | materialize => exact (current_confirmProgress _ _).trans hcurrent
  | reset => exact current_confirmProgress _ _
  | disagree => rfl
  | unset | unknown | misaddress | reject | ignore | lack | upsert | leave | delete | remove | agree
  | overflow | giveUp => exact hcurrent

theorem materialization?_of_current_eq_false (h : w.current = false) (a : Action) :
    w.materialization? a = none := by
  rw [materialization?_eq, h]
  rfl

end Worker

namespace Session

variable {draw : Binary64 → Binary64 → Binary64} {s s₁ t u u' : Session} {a : Action}
  {actions : List Action} {response last : ListenResponse} {responses responses' : List ListenResponse}
  {change : TargetChange} {docs : DocumentSet} {snaps : List Snapshot} {pushed : Bool}
  {readTime : Timestamp} {token : Bytes} {target : ListenTarget} {order : DocumentOrder}
  {settings : ListenSettings} {policy : BackoffPolicy}

theorem takesIn_nil (s : Session) : s.TakesIn [] s := ⟨[], .nil, rfl⟩

theorem TakesIn.aside (h : s.TakesIn responses u) (hstep : u.step? draw a = some u')
    (ha : a.isInput = false) : s.TakesIn responses u' := by
  obtain ⟨more, hmore, hinputs⟩ := h
  refine ⟨more ++ [a], hmore.snoc hstep, ?_⟩
  rw [List.filter_append, List.filter_cons_of_neg (by simp [ha]), List.filter_nil, List.append_nil, hinputs]

theorem TakesIn.take (h : s.TakesIn responses u) (hstep : u.step? draw (.response response) = some u') :
    s.TakesIn (responses ++ [response]) u' := by
  obtain ⟨more, hmore, hinputs⟩ := h
  refine ⟨more ++ [.response response], hmore.snoc hstep, ?_⟩
  rw [List.filter_append, List.map_append, hinputs]
  rfl

/-- What holds at first, and over every response taken in and every step without an input, holds wherever
responses alone lead. -/
theorem TakesIn.induct
    {motive : (responses : List ListenResponse) → (u : Session) → s.TakesIn responses u → Prop}
    (nil : motive [] s (takesIn_nil s))
    (aside : ∀ responses u draw a u' (h : s.TakesIn responses u) (hstep : u.step? draw a = some u')
      (ha : a.isInput = false), motive responses u h → motive responses u' (h.aside hstep ha))
    (take : ∀ responses u draw response u' (h : s.TakesIn responses u)
      (hstep : u.step? draw (.response response) = some u'), motive responses u h →
        motive (responses ++ [response]) u' (h.take hstep))
    {responses : List ListenResponse} {u : Session} (h : s.TakesIn responses u) :
    motive responses u h := by
  obtain ⟨more, hmore, hinputs⟩ := h
  induction hmore generalizing responses with
  | nil =>
    obtain rfl : responses = [] := by simpa [eq_comm] using hinputs
    exact nil
  | @snoc more u a u' draw hmore hstep ih =>
    rw [List.filter_append] at hinputs
    cases ha : a.isInput with
    | false =>
      rw [List.filter_cons_of_neg (by simp [ha]), List.filter_nil, List.append_nil] at hinputs
      exact aside _ u draw a u' _ hstep ha (ih hinputs)
    | true =>
      rw [List.filter_cons_of_pos ha, List.filter_nil] at hinputs
      obtain ⟨before, last, rfl, hbefore, hlast⟩ := List.append_eq_map_iff.1 hinputs
      obtain ⟨response, rfl, rfl⟩ := List.map_eq_singleton_iff.1 hlast
      exact take before u draw response u' _ hstep (ih hbefore.symm)

theorem absorb_of_step? (hstep : s.step? draw (.response response) = some t) :
    s.isReading = true ∧ s.absorb (s.worker.onResponse response) = t := by
  simp only [step?] at hstep
  split at hstep
  · next hreading => exact ⟨hreading, Option.some.inj hstep⟩
  · cases hstep

theorem aside_step? (hstep : u.step? draw a = some u') (ha : a.isInput = false) :
    u'.worker.detached = u.worker.detached ∧ u'.snapshots = u.snapshots := by
  have hm : u.worker.materialization? a = none := by
    cases a with
    | response => cases ha
    | start | deactivate | cancel | work | elapse | connected | refused | failure | completion | take
    | check | hand => rfl
  refine ⟨?_, (rests_step? hstep hm).snapshots⟩
  rw [(step?_worker hstep).1, Worker.receive_of_not_isInput ha]

/-- A session whose worker is not caught up applies nothing until the backend says that it is. -/
theorem TakesIn.rests (h : s.TakesIn responses u) (hcurrent : s.worker.current = false)
    (hnot : ∀ r ∈ responses, (Action.response r).targetChange? ≠ some .current) :
    u.worker.current = false ∧ u.worker.documents = s.worker.documents ∧ u.snapshots = s.snapshots := by
  induction h using TakesIn.induct with
  | nil => exact ⟨hcurrent, rfl, rfl⟩
  | aside responses u draw a u' _ hstep ha ih =>
    obtain ⟨hfalse, hdocs, hsnaps⟩ := ih hnot
    obtain ⟨hworker, hsnaps'⟩ := aside_step? hstep ha
    obtain ⟨-, -, hcurrent', -⟩ := Worker.configured_of_detached_eq hworker
    have hdocs' := (Worker.known_of_detached_eq hworker).1
    exact ⟨hcurrent'.trans hfalse, hdocs'.trans hdocs, hsnaps'.trans hsnaps⟩
  | take responses u draw response u' _ hstep ih =>
    obtain ⟨hfalse, hdocs, hsnaps⟩ := ih fun r hr => hnot r (List.mem_append_left _ hr)
    have hrests := rests_step? hstep (Worker.materialization?_of_current_eq_false hfalse _)
    obtain ⟨-, -, hcurrent', -⟩ := Worker.configured_of_detached_eq (step?_worker hstep).1
    refine ⟨?_, hrests.documents.trans hdocs, hrests.snapshots.trans hsnaps⟩
    rw [hcurrent']
    exact (Worker.reacts_onResponse u.worker response).current_eq_false hfalse (hnot response (by simp))

/-- A session that has taken in responses since a reset, and applied nothing. -/
structure Regathers (s : Session) (docs : DocumentSet) (responses : List ListenResponse)
    (snaps : List Snapshot) (pushed : Bool) : Prop where
  worker : s.worker.Regathers docs responses
  snapshots : s.snapshots = snaps
  hasPushed : s.worker.hasPushed = pushed

/-- As long as no checkpoint comes after the word that the result set is caught up, the documents wait. -/
theorem TakesIn.regathers (h : s.TakesIn responses u) (hs : s.Regathers docs [] snaps pushed)
    {stream : Nat} (hstream : u.worker.stream = some stream)
    (hreset : ∀ r ∈ responses, (Action.response r).targetChange? ≠ some .reset)
    (hfirst : responses.Pairwise fun r r' =>
      (Action.response r).targetChange? = some .current → (Action.response r').checkpoint? = none) :
    u.Regathers docs responses snaps pushed := by
  induction h using TakesIn.induct with
  | nil => exact hs
  | aside responses u draw a u' _ hstep ha ih =>
    have hbefore : u.worker.stream = some stream := by
      rcases stream_step? hstep hstream with rfl | ⟨-, hreceive⟩
      · cases ha
      · rwa [Worker.receive_of_not_isInput ha] at hreceive
    have hu := ih hbefore hreset hfirst
    obtain ⟨hworker, hsnaps⟩ := aside_step? hstep ha
    obtain ⟨-, -, -, hpushed⟩ := Worker.known_of_detached_eq hworker
    exact ⟨hu.worker.congr hworker, hsnaps.trans hu.snapshots, hpushed.trans hu.hasPushed⟩
  | take responses u draw response u' _ hstep ih =>
    have hreceive := ((stream_step? hstep hstream).resolve_left nofun).2
    have hbefore := ((Worker.reacts_onResponse u.worker response).current_iff hreceive).1
    rw [List.pairwise_append] at hfirst
    have hu := ih hbefore (fun r hr => hreset r (List.mem_append_left _ hr)) hfirst.1
    -- once the result set is caught up, a response that would publish is no checkpoint
    have hm : u.worker.materialization? (.response response) = none := by
      rw [Worker.materialization?_eq, ite_eq_right_iff]
      intro hcurrent
      obtain ⟨r, hr, hsaid⟩ := hu.worker.current.1 hcurrent
      exact hfirst.2.2 r hr response (List.mem_singleton_self response) hsaid
    have hrests := rests_step? hstep hm
    have hworker := hu.worker.receive hreceive hm (hreset response (by simp))
    exact ⟨hworker.congr (step?_worker hstep).1, hrests.snapshots.trans hu.snapshots,
      hrests.hasPushed.trans hu.hasPushed⟩

/-- Applying what was gathered since a reset puts it in the place of everything held. -/
theorem Regathers.replaced (h : u.Regathers docs responses snaps pushed) (hdocs : docs.WellFormed)
    (hm : u.worker.materialization? (.response last) = some (readTime, token))
    (hstep : u.step? draw (.response last) = some t) : ∃ diff,
      Replaced docs (responses.filterMap ListenResponse.news?) readTime t.worker.documents diff ∧
        t.snapshots = snaps ++
          if pushed = true ∧ diff = [] then [] else [⟨readTime, t.worker.documents, diff⟩] := by
  have hpublishes := publishes_step? hstep hm
  have hnext := (Worker.known_of_detached_eq hpublishes.worker).1
  have happlied := hdocs.materialized
    (docs.paths.map News.tombstone ++ responses.filterMap ListenResponse.news?) (some readTime)
  rw [← h.worker.pending] at happlied
  refine ⟨(docs.apply (u.worker.pending.against docs (some readTime))).2, ?_, ?_⟩
  · rw [hnext, Worker.materialize, h.worker.documents]
    exact happlied.replaced hdocs
  · rw [hpublishes.snapshots, h.snapshots, hnext, Worker.materialize, h.worker.documents, h.hasPushed]
    generalize docs.apply (u.worker.pending.against docs (some readTime)) = result
    obtain ⟨next, diff⟩ := result
    cases pushed <;> cases diff <;> simp

/-- A response over which the worker stays leaves it reading, once it has settled. -/
theorem exists_reading (hopen : s.shared.state ≠ .closed) (hstay : (s.worker.onResponse response).verdict = .stay)
    (hstep : s.step? draw (.response response) = some s₁) :
    ∃ u, s₁.TakesIn [] u ∧ u.isReading = true ∧ u.worker = s₁.worker ∧ u.shared.state ≠ .closed := by
  obtain ⟨hreading, rfl⟩ := absorb_of_step? hstep
  obtain ⟨-, hremoved, hstream⟩ := isReading_iff.1 hreading
  rw [← Worker.stream_onResponse hstay] at hstream
  have hworker : (s.absorb (s.worker.onResponse response)).worker = (s.worker.onResponse response).worker := by
    rw [absorb, hstay]
  have hshared : (s.absorb (s.worker.onResponse response)).shared = s.shared := by rw [absorb, hstay]
  have hphase : (s.absorb (s.worker.onResponse response)).phase = .settling := by rw [absorb, hstay]
  rw [← hworker] at hstream
  rw [← hshared] at hopen hremoved
  have hresume : Step draw _ .work { s.absorb (s.worker.onResponse response) with phase := .ready } :=
    .resume hphase hopen
  exact ⟨_, (takesIn_nil _).aside hresume.step? rfl, isReading_iff.2 ⟨rfl, hremoved, hstream⟩, rfl, hopen⟩

theorem TakesIn.trans (h : s.TakesIn responses t) (h' : t.TakesIn responses' u) :
    s.TakesIn (responses ++ responses') u := by
  obtain ⟨more, hmore, hinputs⟩ := h
  obtain ⟨more', hmore', hinputs'⟩ := h'
  refine ⟨more ++ more', hmore.append hmore', ?_⟩
  rw [List.filter_append, List.map_append, hinputs, hinputs']

/-- A reset puts a new result set in the place of the one held, whatever was pending. Nothing is applied
until the backend says that the new one is caught up. At the first read time after that the set holds what
the last news since the reset bring about each path, and nothing else, and the diff says what this changes. -/
theorem Run.reset_replaces [order.Lawful]
    (h : (initial (.initial target order settings policy)).Run actions s)
    (hkind : change.kind = TargetChangeKind.reset.number)
    (hreset : s.step? draw (.response (.targetChange change)) = some s₁) :
    (∀ responses u, s₁.TakesIn responses u →
        (∀ r ∈ responses, (Action.response r).targetChange? ≠ some .current) →
        u.worker.documents = s.worker.documents ∧ u.snapshots = s.snapshots) ∧
      (s.shared.state ≠ .closed → ∀ responses, s₁.worker.Stays responses →
        ∃ u, s₁.TakesIn responses u ∧ u.isReading = true) ∧
      ∀ responses u, s₁.TakesIn responses u →
        (∀ r ∈ responses, (Action.response r).targetChange? ≠ some .reset) →
        (∃ r ∈ responses, (Action.response r).targetChange? = some .current) →
        responses.Pairwise (fun r r' => (Action.response r).targetChange? = some .current →
          (Action.response r').checkpoint? = none) →
        ∀ draw last readTime token t, (Action.response last).checkpoint? = some (readTime, token) →
          u.step? draw (.response last) = some t → ∃ diff,
            Replaced s.worker.documents (responses.filterMap ListenResponse.news?) readTime
              t.worker.documents diff ∧
            t.snapshots = s.snapshots ++
              if s.worker.hasPushed = true ∧ diff = [] then []
              else [⟨readTime, t.worker.documents, diff⟩] := by
  have hworker := (step?_worker hreset).1
  have hm : s.worker.materialization? (.response (.targetChange change)) = none := by
    have hnumber : TargetChangeKind.ofNumber? change.kind = some .reset := by rw [hkind]; rfl
    simp [Worker.materialization?, hnumber]
  have hrests := rests_step? hreset hm
  have hgathers : s₁.Regathers s.worker.documents [] s.snapshots s.worker.hasPushed :=
    ⟨(Worker.regathers_reset hkind s.worker).congr hworker, hrests.snapshots, hrests.hasPushed⟩
  refine ⟨?_, ?_, ?_⟩
  · intro responses u hu hnot
    have hcurrent : s₁.worker.current = false := by
      simpa using mt hgathers.worker.current.1 (by simp)
    obtain ⟨-, hdocs, hsnaps⟩ := hu.rests hcurrent hnot
    exact ⟨hdocs.trans hrests.documents, hsnaps.trans hrests.snapshots⟩
  · intro hopen responses hstays
    have hstay : (s.worker.onResponse (.targetChange change)).verdict = .stay := by
      change (s.worker.receive (.response (.targetChange change))).verdict = .stay
      rw [Worker.receive_reset hkind]
      rfl
    obtain ⟨u, hu, hreading, hsame, hopen'⟩ := exists_reading hopen hstay hreset
    rw [← hsame] at hstays
    obtain ⟨t, ht, hreading'⟩ := exists_takesIn_of_stays hreading hopen' hstays
    exact ⟨t, hu.trans ht, hreading'⟩
  · intro responses u hu hnone hsaid hfirst draw last readTime token t hlast hstep
    have hreading := (absorb_of_step? hstep).1
    obtain ⟨stream, hstream⟩ := Option.isSome_iff_exists.1 (isReading_iff.1 hreading).2.2
    have hgathered := hu.regathers hgathers hstream hnone hfirst
    have hm : u.worker.materialization? (.response last) = some (readTime, token) := by
      rw [Worker.materialization?_eq, if_pos (hgathered.worker.current.2 hsaid)]
      exact hlast
    exact hgathered.replaced h.told.wellFormed hm hstep

/-- What the backend sends after a reset: a document in two versions with its end between them, and the
word that this is all. -/
def resending : List ListenResponse :=
  [.documentChange ⟨some ⟨"c/b", [], none, some ⟨1, 0⟩⟩, [1], []⟩, .documentDelete ⟨"c/b", [1], none⟩,
    .documentChange ⟨some ⟨"c/b", [], none, some ⟨2, 0⟩⟩, [1], []⟩, .targetChange ⟨3, [], none, [], none⟩]

/-- A document that came before the reset, and was not yet in a snapshot, is gone as well. -/
theorem reset_replaces_resent : ∃ s s₁ u t diff,
    (watchOf "c/a").Run (firstSnapshot "c/a" ++
      [.work, .response (.documentChange ⟨some ⟨"c/c", [], none, none⟩, [1], []⟩), .work]) s ∧
    s.step? (fun low _ => low) (.response (.targetChange ⟨4, [], none, [], none⟩)) = some s₁ ∧
    s₁.TakesIn resending u ∧ u.step? (fun low _ => low) (.response checkpoint) = some t ∧
    Replaced s.worker.documents (resending.filterMap ListenResponse.news?) ⟨4, 0⟩ t.worker.documents diff ∧
    t.worker.documents.contains (.ofString "c/c") = false ∧
    t.worker.documents.get? (.ofString "c/b") =
      some ⟨⟨"c/b", [], none, some ⟨2, 0⟩⟩, some ⟨4, 0⟩⟩ := by
  have hrun : ((watchOf "c/a").run? (fun low _ => low) (firstSnapshot "c/a" ++
        [.work, .response (.documentChange ⟨some ⟨"c/c", [], none, none⟩, [1], []⟩), .work])).bind
      (fun s => (s.step? (fun low _ => low)
          (.response (.targetChange ⟨4, [], none, [], none⟩))).bind fun s₁ =>
        (s₁.run? (fun low _ => low) (.work :: takingIn (resending.map Action.response))).bind fun u =>
        (u.step? (fun low _ => low) (.response checkpoint)).map fun _ =>
        decide (s.worker.documents.get? (.ofString "c/b") = none)) = some true := by
    decide +kernel
  obtain ⟨s, hs, hrest⟩ := Option.bind_eq_some_iff.1 hrun
  obtain ⟨s₁, hs₁, hrest⟩ := Option.bind_eq_some_iff.1 hrest
  obtain ⟨u, hu, hrest⟩ := Option.bind_eq_some_iff.1 hrest
  obtain ⟨t, ht, hchecked⟩ := Option.map_eq_some_iff.1 hrest
  have htaken : s₁.TakesIn resending u := ⟨_, .of_run? hu, rfl⟩
  obtain ⟨-, -, hreplaces⟩ := (Run.of_run? hs).reset_replaces rfl hs₁
  obtain ⟨diff, hreplaced, -⟩ := hreplaces resending u htaken (by decide) (by decide) (by decide)
    (fun low _ => low) checkpoint ⟨4, 0⟩ [2] t rfl ht
  refine ⟨s, s₁, u, t, diff, .of_run? hs, hs₁, htaken, ht, hreplaced, ?_, ?_⟩
  · have hlast : News.last? (resending.filterMap ListenResponse.news?) (.ofString "c/c") = none := by cbv
    rw [← Bool.not_eq_true, hreplaced.contains, hlast]
    simp
  · refine hreplaced.brought _ _ (by cbv) ?_
    simp [of_decide_eq_true hchecked]

end Session

end LiveQuery
