import LiveQuery.Proofs.Connection
import LiveQuery.Proofs.SnapshotChain

namespace LiveQuery

/-- Whether the action is an input of the worker: what its timer or its stream brings. -/
def Action.isInput : Action → Bool
  | .elapse => true
  | a => a.isReply

/-- What a stream brings that sends a whole result set: after its opening an acknowledgement of the
target, a change for each document in any order, the word that the set is caught up, and a read time. -/
structure Delivery (results : List Document) where
  stream : Nat
  add : TargetChange
  add_kind : add.kind = TargetChangeKind.add.number
  acknowledged : Worker.isAcknowledged add = true
  changes : List DocumentChange
  documents : (changes.map DocumentChange.document).Perm (results.map some)
  watched : ∀ change ∈ changes, ListenTarget.watchId ∈ change.targetIds
  current : TargetChange
  current_kind : current.kind = TargetChangeKind.current.number
  noChange : TargetChange
  noChange_kind : noChange.kind = TargetChangeKind.noChange.number
  noChange_targetIds : noChange.targetIds = []
  readTime : Timestamp
  noChange_readTime : noChange.readTime = some readTime

namespace Delivery

variable {results : List Document}

/-- What comes before the read time. -/
def gathering (delivery : Delivery results) : List Action :=
  [.connected delivery.stream, .response (.targetChange delivery.add)] ++
    delivery.changes.map (fun change => .response (.documentChange change)) ++
    [.response (.targetChange delivery.current)]

def inputs (delivery : Delivery results) : List Action :=
  delivery.gathering ++ [.response (.targetChange delivery.noChange)]

/-- The documents in the order in which they come. -/
def news (delivery : Delivery results) : List Document :=
  delivery.changes.filterMap DocumentChange.document

theorem mem_news_iff (delivery : Delivery results) {d : Document} :
    d ∈ delivery.news ↔ d ∈ results := by
  have hperm := delivery.documents.filterMap id
  have hnews : (delivery.changes.map DocumentChange.document).filterMap id = delivery.news := by
    rw [List.filterMap_map]
    rfl
  have hresults : (results.map some).filterMap id = results := by
    rw [List.filterMap_map]
    exact List.filterMap_some
  rw [hnews, hresults] at hperm
  exact hperm.mem_iff

theorem exists_document (delivery : Delivery results) {change : DocumentChange}
    (hchange : change ∈ delivery.changes) : ∃ d, change.document = some d := by
  have hmem := delivery.documents.mem_iff.1 (List.mem_map_of_mem hchange)
  obtain ⟨d, -, hd⟩ := List.mem_map.1 hmem
  exact ⟨d, hd.symm⟩

end Delivery

namespace Worker

variable {w : Worker} {a : Action} {results : List Document} {p : Path}

theorem receive_of_not_isInput (ha : a.isInput = false) : (w.receive a).worker = w := by
  cases a with
  | elapse | connected | refused | response | failure | completion => cases ha
  | start | deactivate | cancel | work | take | check | hand => rfl

theorem receiveAll_filter (w : Worker) (actions : List Action) :
    w.receiveAll (actions.filter Action.isInput) = w.receiveAll actions := by
  induction actions generalizing w with
  | nil => rfl
  | cons a actions ih =>
    cases ha : a.isInput with
    | true =>
      rw [List.filter_cons_of_pos ha]
      exact ih (w.receive a).worker
    | false =>
      rw [List.filter_cons_of_neg (by simp [ha]), ih]
      change w.receiveAll actions = (w.receive a).worker.receiveAll actions
      rw [receive_of_not_isInput ha]

theorem receive_documentChange {change : DocumentChange} {d : Document}
    (hd : change.document = some d) (hwatched : ListenTarget.watchId ∈ change.targetIds) :
    (w.receive (.response (.documentChange change))).worker =
      { w with pending := w.pending.upsert d } := by
  have hcontains : change.targetIds.contains ListenTarget.watchId = true :=
    List.contains_iff_mem.2 hwatched
  simp only [receive, onResponse, onDocumentChange, hcontains, hd, Bool.true_or, if_true, stay]

theorem receiveAll_documentChanges {changes : List DocumentChange}
    (hsome : ∀ change ∈ changes, ∃ d, change.document = some d)
    (hwatched : ∀ change ∈ changes, ListenTarget.watchId ∈ change.targetIds) (w : Worker) :
    w.receiveAll (changes.map fun change => .response (.documentChange change)) =
      { w with
        pending := (changes.filterMap DocumentChange.document).foldl PendingChanges.upsert w.pending } := by
  induction changes generalizing w with
  | nil => rfl
  | cons change changes ih =>
    obtain ⟨d, hd⟩ := hsome change List.mem_cons_self
    rw [List.map_cons, receiveAll, List.foldl_cons,
      receive_documentChange hd (hwatched change List.mem_cons_self), List.filterMap_cons_some hd]
    rw [← receiveAll, ih (fun c hc => hsome c (List.mem_cons_of_mem _ hc))
      fun c hc => hwatched c (List.mem_cons_of_mem _ hc)]
    rfl

theorem receive_add {change : TargetChange} (hkind : change.kind = TargetChangeKind.add.number)
    (hack : isAcknowledged change = true) :
    ∃ backoff, (w.receive (.response (.targetChange change))).worker = { w with backoff } := by
  have hnumber : TargetChangeKind.ofNumber? change.kind = some .add := by rw [hkind]; rfl
  obtain ⟨backoff, -, heq⟩ := confirmProgress_eq w change
  refine ⟨backoff, ?_⟩
  simp only [receive, onResponse, onTargetChange, hnumber, hack, if_true, stay, heq]

theorem receive_current {change : TargetChange}
    (hkind : change.kind = TargetChangeKind.current.number) :
    ∃ backoff, (w.receive (.response (.targetChange change))).worker =
      { w with current := true, backoff } := by
  have hnumber : TargetChangeKind.ofNumber? change.kind = some .current := by rw [hkind]; rfl
  obtain ⟨backoff, -, heq⟩ := confirmProgress_eq { w with current := true } change
  refine ⟨backoff, ?_⟩
  simp only [receive, onResponse, onTargetChange, hnumber, stay, heq]

theorem receive_noChange {change : TargetChange} {readTime : Timestamp}
    (hkind : change.kind = TargetChangeKind.noChange.number) (hids : change.targetIds = [])
    (ht : change.readTime = some readTime) (hcurrent : w.current = true)
    (hdocs : w.documents.WellFormed) (hkeyed : w.pending.Keyed) :
    (w.receive (.response (.targetChange change))).worker.documents =
      w.documents.applied (w.pending.against w.documents (some readTime)) := by
  have hnumber : TargetChangeKind.ofNumber? change.kind = some .noChange := by rw [hkind]; rfl
  have hm : w.materialization? (.response (.targetChange change)) =
      some (readTime, change.resumeToken) := by
    simp [materialization?, hnumber, hids, hcurrent, ht]
  obtain ⟨diff, -, -, heq⟩ := materialize_eq hdocs hkeyed readTime change.resumeToken
  have hreceive := (receive_of_materialization?_eq_some hm).1
  rw [heq] at hreceive
  exact (known_of_detached_eq hreceive).1

/-- Before the read time the documents only wait. -/
theorem receiveAll_gathering (w : Worker) (delivery : Delivery results) : ∃ backoff,
    w.receiveAll delivery.gathering =
      { w with
        stream := some delivery.stream
        current := true
        backoff
        pending := delivery.news.foldl PendingChanges.upsert w.pending } := by
  obtain ⟨backoff, hadd⟩ := receive_add (w := { w with stream := some delivery.stream })
    delivery.add_kind delivery.acknowledged
  have hopened : w.receiveAll [.connected delivery.stream, .response (.targetChange delivery.add)] =
      { w with stream := some delivery.stream, backoff } := hadd
  have hnews := receiveAll_documentChanges (fun _ => delivery.exists_document) delivery.watched
    { w with stream := some delivery.stream, backoff }
  obtain ⟨backoff', hcurrent⟩ := receive_current delivery.current_kind (w := { w with
    stream := some delivery.stream
    backoff
    pending := delivery.news.foldl PendingChanges.upsert w.pending })
  refine ⟨backoff', ?_⟩
  rw [Delivery.gathering, receiveAll_append, receiveAll_append, hopened, hnews]
  exact hcurrent

/-- What becomes of a worker's documents by a whole result set: they take in the new ones, and lose those
whose deletion is pending. -/
theorem documents_receiveAll_inputs (hdocs : w.documents.WellFormed) (hkeyed : w.pending.Keyed)
    (delivery : Delivery results) : (w.receiveAll delivery.inputs).documents =
      w.documents.applied
        ((delivery.news.foldl PendingChanges.upsert w.pending).against w.documents
          (some delivery.readTime)) := by
  obtain ⟨backoff, hgathering⟩ := receiveAll_gathering w delivery
  rw [Delivery.inputs, receiveAll_append, hgathering]
  exact receive_noChange delivery.noChange_kind delivery.noChange_targetIds delivery.noChange_readTime
    rfl hdocs (hkeyed.foldl_upsert delivery.news)

/-- A whole result set leaves the paths it names, and of the others those held whose deletion is not
pending. -/
theorem contains_receiveAll_inputs (hdocs : w.documents.WellFormed)
    (hpending : ∀ p d, w.pending.latest? p ≠ some (.upsert d)) (delivery : Delivery results) (p : Path) :
    (w.receiveAll delivery.inputs).documents.contains p = true ↔
      (∃ d ∈ results, Path.ofString d.name = p) ∨
        w.pending.latest? p = none ∧ w.documents.contains p = true := by
  have hkeyed : w.pending.Keyed := fun p d h => absurd h (hpending p d)
  have hget := PendingChanges.get?_applied_against hdocs (hkeyed.foldl_upsert delivery.news)
    (some delivery.readTime) p
  have hmem : (p ∈ delivery.news.map fun d => Path.ofString d.name) ↔
      ∃ d ∈ results, Path.ofString d.name = p := by
    simp only [List.mem_map, delivery.mem_news_iff]
  rw [documents_receiveAll_inputs hdocs hkeyed, DocumentSet.contains_eq_isSome_get?, hget, ← hmem,
    DocumentSet.contains_eq_isSome_get?]
  by_cases hnews : p ∈ delivery.news.map fun d => Path.ofString d.name
  · obtain ⟨d, hd⟩ := PendingChanges.latest?_foldl_upsert_of_mem hnews w.pending
    rw [hd]
    -- the news of a path replaces what was pending for it
    refine ⟨fun _ => Or.inl hnews, fun _ => ?_⟩
    cases w.documents.get? p with
    | none => rfl
    | some held =>
      simp only
      split <;> rfl
  · rw [PendingChanges.latest?_foldl_upsert_of_not_mem hnews]
    cases hlatest : w.pending.latest? p with
    | none => simp [hnews]
    | some c =>
      cases c with
      | tombstone => simp [hnews]
      | upsert d => exact absurd hlatest (hpending p d)

end Worker

/-- Whether a request adds a target from its beginning. -/
def ListenRequest.isFresh (request : ListenRequest) : Bool :=
  request.addedTarget?.any (·.resumeToken?.isNone)

theorem Worker.isFresh_request {w : Worker} (h : w.resumeToken = none) : w.request.isFresh = true := by
  unfold Worker.request
  rw [h]
  cases w.target <;> rfl

namespace Session

variable {s s' : Session} {actions more : List Action} {target : ListenTarget} {order : DocumentOrder}
  {settings : ListenSettings} {policy : BackoffPolicy} {request : ListenRequest}
  {results : List Document}

theorem Run.contains_iff [order.Lawful]
    (h : (initial (.initial target order settings policy)).Run actions s)
    (hphase : s.phase = .connecting request) (hmore : s.Run more s') (delivery : Delivery results)
    (hinputs : more.filter Action.isInput = delivery.inputs) (p : Path) :
    s'.worker.documents.contains p = true ↔
      (∃ d ∈ results, Path.ofString d.name = p) ∨
        afterFilter actions = false ∧ s.worker.documents.contains p = true := by
  have hwell := h.told.wellFormed
  have hcleared := h.cleared rfl rfl (Or.inl (by rw [hphase]; rfl))
  -- between two streams nothing but deletions is pending, and these only after a filter
  have hlatest : ∀ p, s.worker.pending.latest? p =
      if afterFilter actions = true ∧ p ∈ s.worker.documents.paths then some .tombstone else none := by
    intro p
    rw [hcleared.pending]
    cases afterFilter actions with
    | true => simp [PendingChanges.latest?_foldl_tombstone, PendingChanges.latest?_empty]
    | false => simp [PendingChanges.latest?_empty]
  have hupsert : ∀ p d, s.worker.pending.latest? p ≠ some (.upsert d) := by
    intro p d
    rw [hlatest p]
    split <;> nofun
  have hdocs := (Worker.known_of_detached_eq hmore.worker).1
  rw [hdocs, ← Worker.receiveAll_filter, hinputs,
    Worker.contains_receiveAll_inputs hwell hupsert delivery p, hlatest p]
  have hheld : p ∈ s.worker.documents.paths ↔ s.worker.documents.contains p = true := by
    rw [hwell.mem_paths_iff, DocumentSet.contains_eq_isSome_get?]
  cases afterFilter actions with
  | true => simp [hheld]
  | false => simp

/-- A stream that opens and brings a whole result set leaves exactly that in the worker's set if and only
if the stream before ended for a filter that disagreed, and then the request carries no token, or the
result set names every document that the worker held. Otherwise documents that the backend no longer
sends stay in the set, even if the request carries no token: a failure drops the deletions that were
pending. -/
theorem Run.contains_exactly_iff [order.Lawful]
    (h : (initial (.initial target order settings policy)).Run actions s)
    (hphase : s.phase = .connecting request) (hmore : s.Run more s') (delivery : Delivery results)
    (hinputs : more.filter Action.isInput = delivery.inputs) :
    (afterFilter actions = true → request.isFresh = true) ∧
      ((∀ p, s'.worker.documents.contains p = true ↔ ∃ d ∈ results, Path.ofString d.name = p) ↔
        afterFilter actions = true ∨
          ∀ p, s.worker.documents.contains p = true → ∃ d ∈ results, Path.ofString d.name = p) := by
  have hcontains := h.contains_iff hphase hmore delivery hinputs
  refine ⟨?_, ?_, ?_⟩
  · intro hfilter
    have hcleared := h.cleared rfl rfl (Or.inl (by rw [hphase]; rfl))
    rw [((h.linked rfl).connecting request hphase).2]
    exact Worker.isFresh_request (hcleared.resumeToken hfilter)
  · intro hexact
    cases hfilter : afterFilter actions with
    | true => exact Or.inl rfl
    | false =>
      refine Or.inr fun p hp => ?_
      rw [← hexact p, hcontains p]
      exact Or.inr ⟨hfilter, hp⟩
  · intro hcond p
    rw [hcontains p]
    constructor
    · rintro (hresult | ⟨hfilter, hp⟩)
      · exact hresult
      · rcases hcond with hafter | hall
        · rw [hfilter] at hafter
          cases hafter
        · exact hall p hp
    · exact Or.inl

/-- A result set of one document without fields. -/
def soleDelivery (name : String) (stream : Nat) : Delivery [⟨name, [], none, none⟩] where
  stream := stream
  add := ⟨1, [1], none, [], none⟩
  add_kind := rfl
  acknowledged := rfl
  changes := [⟨some ⟨name, [], none, none⟩, [1], []⟩]
  documents := .refl _
  watched := by simp [ListenTarget.watchId]
  current := ⟨3, [], none, [], none⟩
  current_kind := rfl
  noChange := ⟨0, [], none, [1], some ⟨2, 0⟩⟩
  noChange_kind := rfl
  noChange_targetIds := rfl
  readTime := ⟨2, 0⟩
  noChange_readTime := rfl

/-- The steps in which a worker takes in what a stream brings. -/
def takingIn (inputs : List Action) : List Action :=
  inputs.flatMap fun
    | .connected stream => [.connected stream, .work, .work]
    | a => [a, .work]

/-- From the first snapshot by a filter that disagrees to the next attempt to connect. -/
def afterMismatch : List Action :=
  firstSnapshot "c/a" ++ [.work, .response (.filter ⟨1, 2⟩), .work, .work, .elapse]

theorem contains_exactly_afterMismatch : ∃ s s', (watchOf "c/a").Run afterMismatch s ∧
    s.Run (takingIn (soleDelivery "c/b" 2).inputs) s' ∧
    ∀ p, s'.worker.documents.contains p = true ↔
      ∃ d ∈ [(⟨"c/b", [], none, none⟩ : Document)], Path.ofString d.name = p := by
  have hrun : ((watchOf "c/a").run? (fun low _ => low) afterMismatch).bind
      (fun s => (s.run? (fun low _ => low) (takingIn (soleDelivery "c/b" 2).inputs)).map
        fun _ => decide (s.phase = .connecting s.worker.request)) = some true := by
    decide +kernel
  obtain ⟨s, hs, hrest⟩ := Option.bind_eq_some_iff.1 hrun
  obtain ⟨s', hs', hphase⟩ := Option.map_eq_some_iff.1 hrest
  have hexact := (Run.of_run? hs).contains_exactly_iff (of_decide_eq_true hphase) (Run.of_run? hs')
    (soleDelivery "c/b" 2) rfl
  exact ⟨s, s', .of_run? hs, .of_run? hs', hexact.2.2 (Or.inl rfl)⟩

/-- From the first snapshot by a reset and a failure to the next attempt to connect. -/
def afterReset : List Action :=
  firstSnapshot "c/a" ++
    [.work, .response (.targetChange ⟨4, [], none, [], none⟩), .work,
      .failure (.status .unavailable ""), .work, .work, .elapse]

/-- A document that the backend no longer sends outlives a start without a token, if the stream failed
after the backend had asked to forget everything. -/
theorem stale_document_afterReset : ∃ s s' request, (watchOf "c/a").Run afterReset s ∧
    s.phase = .connecting request ∧ request.isFresh = true ∧
    s.Run (takingIn (soleDelivery "c/b" 2).inputs) s' ∧
    s'.worker.documents.contains (.ofString "c/a") = true ∧
    Path.ofString "c/a" ≠ Path.ofString "c/b" := by
  have hrun : ((watchOf "c/a").run? (fun low _ => low) afterReset).bind
      (fun s => (s.run? (fun low _ => low) (takingIn (soleDelivery "c/b" 2).inputs)).map
        fun s' => decide (s.phase = .connecting s.worker.request ∧
          s.worker.request.isFresh = true ∧
          s'.worker.documents.contains (.ofString "c/a") = true)) = some true := by
    decide +kernel
  obtain ⟨s, hs, hrest⟩ := Option.bind_eq_some_iff.1 hrun
  obtain ⟨s', hs', hchecked⟩ := Option.map_eq_some_iff.1 hrest
  obtain ⟨hphase, hfresh, hheld⟩ := of_decide_eq_true hchecked
  exact ⟨s, s', _, .of_run? hs, hphase, hfresh, .of_run? hs', hheld, by decide +kernel⟩

end Session

end LiveQuery
