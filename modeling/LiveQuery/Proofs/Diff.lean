import LiveQuery.Snapshot
import LiveQuery.Proofs.DocumentSet

namespace LiveQuery

/-- Carries changes over to a copy of the ordered documents, one after the other. -/
def Change.replayAll? (cs : List Change) (ds : List QueryDocument) : Option (List QueryDocument) :=
  cs.foldlM (fun ds c => c.replay? ds) ds

theorem Change.replayAll?_append {cs cs' : List Change} {ds es : List QueryDocument}
    (h : replayAll? cs ds = some es) : replayAll? (cs ++ cs') ds = replayAll? cs' es := by
  unfold replayAll? at h ⊢
  rw [List.foldlM_append, h]
  rfl

/-- A change set that says of each path at most one thing, and of each the right one. -/
structure ChangeSet.Fits (set : ChangeSet) (docs : DocumentSet) : Prop where
  get?_of_mem_deletes : ∀ d ∈ set.deletes, docs.get? d.path = some d
  get?_of_mem_adds : ∀ d ∈ set.adds, docs.get? d.path = none
  get?_of_mem_updates : ∀ d ∈ set.updates, ∃ e, docs.get? d.path = some e
  nodup_deletes : (set.deletes.map QueryDocument.path).Nodup
  nodup_adds : (set.adds.map QueryDocument.path).Nodup
  nodup_updates : (set.updates.map QueryDocument.path).Nodup
  deletes_ne_updates : ∀ d ∈ set.deletes, ∀ e ∈ set.updates, d.path ≠ e.path

namespace DocumentSet

variable {docs : DocumentSet} {d : QueryDocument} {p : Path}

/-- What `applyDelete` does to the set alone. -/
def eraseAll (docs : DocumentSet) (ds : List QueryDocument) : DocumentSet :=
  ds.foldl (fun docs d => docs.erase d.path) docs

/-- What `applyAdd` and `applyUpdate` do to the set alone. -/
def insertAll (docs : DocumentSet) (ds : List QueryDocument) : DocumentSet := ds.foldl insert docs

theorem get?_eraseAll (docs : DocumentSet) (ds : List QueryDocument) (p : Path) :
    (docs.eraseAll ds).get? p = if p ∈ ds.map QueryDocument.path then none else docs.get? p := by
  induction ds generalizing docs with
  | nil => simp [eraseAll]
  | cons d ds ih =>
    have hstep := ih (docs.erase d.path)
    rw [get?_erase] at hstep
    change ((docs.erase d.path).eraseAll ds).get? p = _
    rw [hstep, List.map_cons]
    by_cases hp : p ∈ ds.map QueryDocument.path
    · rw [if_pos hp, if_pos (List.mem_cons_of_mem _ hp)]
    · by_cases hd : d.path = p
      · rw [if_neg hp, if_pos hd, if_pos (hd ▸ List.mem_cons_self)]
      · have hnot : p ∉ d.path :: ds.map QueryDocument.path := by
          simp only [List.mem_cons, not_or]
          exact ⟨Ne.symm hd, hp⟩
        rw [if_neg hp, if_neg hd, if_neg hnot]

theorem get?_insertAll_of_not_mem {ds : List QueryDocument} (hp : p ∉ ds.map QueryDocument.path) :
    (docs.insertAll ds).get? p = docs.get? p := by
  induction ds generalizing docs with
  | nil => rfl
  | cons d ds ih =>
    simp only [List.map_cons, List.mem_cons, not_or] at hp
    change ((docs.insert d).insertAll ds).get? p = _
    rw [ih hp.2, get?_insert, if_neg (Ne.symm hp.1)]

theorem get?_insertAll_of_mem {ds : List QueryDocument} (hnodup : (ds.map QueryDocument.path).Nodup)
    (hd : d ∈ ds) : (docs.insertAll ds).get? d.path = some d := by
  induction ds generalizing docs with
  | nil => cases hd
  | cons e ds ih =>
    rw [List.map_cons, List.nodup_cons] at hnodup
    change ((docs.insert e).insertAll ds).get? d.path = _
    cases List.mem_cons.1 hd with
    | inl heq =>
      subst heq
      rw [get?_insertAll_of_not_mem hnodup.1, get?_insert, if_pos rfl]
    | inr hmem => exact ih hnodup.2 hmem

theorem applyDelete_replays (h : docs.WellFormed) (hd : docs.get? d.path = some d) :
    ∃ c : Change, (∀ diff, applyDelete (docs, diff) d = (docs.erase d.path, diff ++ [c])) ∧
      c.replay? docs.sorted = some (docs.erase d.path).sorted := by
  obtain ⟨i, hindex, hi, hsorted⟩ := h.indexOf?_of_get? hd
  have hlt : i < docs.sorted.length := (List.getElem?_eq_some_iff.1 hi).1
  refine ⟨⟨.removed, d, some i, none⟩, ?_, ?_⟩
  · intro diff
    rw [applyDelete, hindex]
  · simp only [Change.replay?, if_pos hlt, hsorted]

theorem applyAdd_replays (h : docs.WellFormed) (hd : docs.get? d.path = none) :
    ∃ c : Change, (∀ diff, applyAdd (docs, diff) d = (docs.insert d, diff ++ [c])) ∧
      c.replay? docs.sorted = some (docs.insert d).sorted := by
  obtain ⟨i, hindex, hle, hsorted⟩ := h.indexOf?_insert d
  rw [erase_of_get?_eq_none hd] at hle hsorted
  refine ⟨⟨.added, d, none, some i⟩, ?_, ?_⟩
  · intro diff
    simp only [applyAdd, hindex]
  · simp only [Change.replay?, if_pos hle, hsorted]

theorem applyUpdate_replays {e : QueryDocument} (h : docs.WellFormed)
    (hd : docs.get? d.path = some e) :
    ∃ c : Change, (∀ diff, applyUpdate (docs, diff) d = (docs.insert d, diff ++ [c])) ∧
      c.replay? docs.sorted = some (docs.insert d).sorted := by
  obtain ⟨i, hold, hi, herase⟩ := h.indexOf?_of_get? hd
  obtain ⟨j, hnew, hle, hsorted⟩ := h.indexOf?_insert d
  have hlt : i < docs.sorted.length := (List.getElem?_eq_some_iff.1 hi).1
  rw [herase] at hle hsorted
  have hj : j < docs.sorted.length := by
    rw [List.length_eraseIdx_of_lt hlt] at hle
    omega
  refine ⟨⟨.modified, d, some i, some j⟩, ?_, ?_⟩
  · intro diff
    simp only [applyUpdate, hold, hnew]
  · simp only [Change.replay?, if_pos (And.intro hlt hj), hsorted]

/-- A phase of a change set: if each step goes from a set to the next one and adds a change to the diff
that carries a copy along, then so does the whole phase. -/
theorem phase_replays (step : Progress → QueryDocument → Progress)
    (next : DocumentSet → QueryDocument → DocumentSet)
    (P : DocumentSet → List QueryDocument → Prop)
    (hstep : ∀ docs d ds, P docs (d :: ds) → P (next docs d) ds ∧
      ∃ c : Change, (∀ diff, step (docs, diff) d = (next docs d, diff ++ [c])) ∧
        c.replay? docs.sorted = some (next docs d).sorted)
    {ds : List QueryDocument} {docs : DocumentSet} (diff : List Change) (h : P docs ds) :
    P (ds.foldl next docs) [] ∧
      ∃ cs : List Change, ds.foldl step (docs, diff) = (ds.foldl next docs, diff ++ cs) ∧
        cs.length = ds.length ∧ Change.replayAll? cs docs.sorted = some (ds.foldl next docs).sorted := by
  induction ds generalizing docs diff with
  | nil => exact ⟨h, [], by simp, rfl, rfl⟩
  | cons d ds ih =>
    obtain ⟨hnext, c, hc, hreplay⟩ := hstep docs d ds h
    obtain ⟨hend, cs, hfold, hlength, hrest⟩ := ih (diff ++ [c]) hnext
    refine ⟨hend, c :: cs, ?_, by simp [hlength], ?_⟩
    · rw [List.foldl_cons, hc, hfold, List.append_assoc]
      rfl
    · have hfirst : Change.replayAll? [c] docs.sorted = some (next docs d).sorted := by
        simp [Change.replayAll?, hreplay]
      exact (Change.replayAll?_append hfirst).trans hrest

/-- What the documents still to be deleted have to be. -/
def Deletable (docs : DocumentSet) (ds : List QueryDocument) : Prop :=
  docs.WellFormed ∧ (∀ d ∈ ds, docs.get? d.path = some d) ∧ (ds.map QueryDocument.path).Nodup

def Addable (docs : DocumentSet) (ds : List QueryDocument) : Prop :=
  docs.WellFormed ∧ (∀ d ∈ ds, docs.get? d.path = none) ∧ (ds.map QueryDocument.path).Nodup

def Updatable (docs : DocumentSet) (ds : List QueryDocument) : Prop :=
  docs.WellFormed ∧ ∀ d ∈ ds, ∃ e, docs.get? d.path = some e

theorem path_ne_of_nodup {d e : QueryDocument} {ds : List QueryDocument}
    (h : ((d :: ds).map QueryDocument.path).Nodup) (he : e ∈ ds) : d.path ≠ e.path := by
  intro heq
  rw [List.map_cons, List.nodup_cons] at h
  exact h.1 (heq ▸ List.mem_map_of_mem he)

theorem Deletable.step {ds : List QueryDocument} (h : docs.Deletable (d :: ds)) :
    (docs.erase d.path).Deletable ds := by
  obtain ⟨hdocs, hheld, hnodup⟩ := h
  refine ⟨hdocs.erase _, ?_, (List.nodup_cons.1 hnodup).2⟩
  intro e he
  rw [get?_erase, if_neg (path_ne_of_nodup hnodup he)]
  exact hheld e (List.mem_cons_of_mem _ he)

theorem Addable.step {ds : List QueryDocument} (h : docs.Addable (d :: ds)) :
    (docs.insert d).Addable ds := by
  obtain ⟨hdocs, hlacking, hnodup⟩ := h
  refine ⟨hdocs.insert _, ?_, (List.nodup_cons.1 hnodup).2⟩
  intro e he
  rw [get?_insert, if_neg (path_ne_of_nodup hnodup he)]
  exact hlacking e (List.mem_cons_of_mem _ he)

theorem Updatable.step {ds : List QueryDocument} (h : docs.Updatable (d :: ds)) :
    (docs.insert d).Updatable ds := by
  obtain ⟨hdocs, hheld⟩ := h
  refine ⟨hdocs.insert _, ?_⟩
  intro e he
  rw [get?_insert]
  by_cases heq : d.path = e.path
  · exact ⟨d, if_pos heq⟩
  · rw [if_neg heq]
    exact hheld e (List.mem_cons_of_mem _ he)

theorem Deletable.phase_replays {ds : List QueryDocument} (h : docs.Deletable ds)
    (diff : List Change) : (docs.eraseAll ds).WellFormed ∧
      ∃ cs : List Change, ds.foldl applyDelete (docs, diff) = (docs.eraseAll ds, diff ++ cs) ∧
        cs.length = ds.length ∧ Change.replayAll? cs docs.sorted = some (docs.eraseAll ds).sorted := by
  have hphase := DocumentSet.phase_replays applyDelete (fun docs d => docs.erase d.path) Deletable
    (fun docs d ds hd => ⟨hd.step, applyDelete_replays hd.1 (hd.2.1 d List.mem_cons_self)⟩) diff h
  exact ⟨hphase.1.1, hphase.2⟩

theorem Addable.phase_replays {ds : List QueryDocument} (h : docs.Addable ds)
    (diff : List Change) : (docs.insertAll ds).WellFormed ∧
      ∃ cs : List Change, ds.foldl applyAdd (docs, diff) = (docs.insertAll ds, diff ++ cs) ∧
        cs.length = ds.length ∧ Change.replayAll? cs docs.sorted = some (docs.insertAll ds).sorted := by
  have hphase := DocumentSet.phase_replays applyAdd insert Addable
    (fun docs d ds hd => ⟨hd.step, applyAdd_replays hd.1 (hd.2.1 d List.mem_cons_self)⟩) diff h
  exact ⟨hphase.1.1, hphase.2⟩

theorem Updatable.phase_replays {ds : List QueryDocument} (h : docs.Updatable ds)
    (diff : List Change) : (docs.insertAll ds).WellFormed ∧
      ∃ cs : List Change, ds.foldl applyUpdate (docs, diff) = (docs.insertAll ds, diff ++ cs) ∧
        cs.length = ds.length ∧ Change.replayAll? cs docs.sorted = some (docs.insertAll ds).sorted := by
  have hstep (docs : DocumentSet) (d : QueryDocument) (ds : List QueryDocument)
      (hd : docs.Updatable (d :: ds)) : (docs.insert d).Updatable ds ∧ ∃ c : Change,
        (∀ diff, applyUpdate (docs, diff) d = (docs.insert d, diff ++ [c])) ∧
          c.replay? docs.sorted = some (docs.insert d).sorted := by
    obtain ⟨e, he⟩ := hd.2 d List.mem_cons_self
    exact ⟨hd.step, applyUpdate_replays hd.1 he⟩
  have hphase := DocumentSet.phase_replays applyUpdate insert Updatable hstep diff h
  exact ⟨hphase.1.1, hphase.2⟩

theorem sortDocuments_perm (order : DocumentOrder) (ds : List QueryDocument) :
    (sortDocuments order ds).Perm ds := List.mergeSort_perm _ _

theorem mem_sortDocuments {order : DocumentOrder} {ds : List QueryDocument} :
    d ∈ sortDocuments order ds ↔ d ∈ ds := (sortDocuments_perm order ds).mem_iff

theorem mem_paths_sortDocuments {order : DocumentOrder} {ds : List QueryDocument} :
    p ∈ (sortDocuments order ds).map QueryDocument.path ↔ p ∈ ds.map QueryDocument.path :=
  ((sortDocuments_perm order ds).map _).mem_iff

theorem nodup_paths_sortDocuments {order : DocumentOrder} {ds : List QueryDocument} :
    ((sortDocuments order ds).map QueryDocument.path).Nodup ↔ (ds.map QueryDocument.path).Nodup :=
  ((sortDocuments_perm order ds).map _).nodup_iff

/-- The next version of the set without the diff to it. -/
def applied (docs : DocumentSet) (set : ChangeSet) : DocumentSet :=
  ((docs.eraseAll (sortDocuments docs.order set.deletes)).insertAll
    (sortDocuments docs.order set.adds)).insertAll (sortDocuments docs.order set.updates)

theorem applied_of_empty (docs : DocumentSet) : docs.applied {} = docs := by
  simp [applied, sortDocuments, eraseAll, insertAll]

end DocumentSet

namespace ChangeSet.Fits
open DocumentSet

variable {docs : DocumentSet} {set : ChangeSet} {d : QueryDocument} {p : Path}

theorem path_not_mem_adds (h : set.Fits docs) (hd : d ∈ set.updates) :
    d.path ∉ set.adds.map QueryDocument.path := by
  intro hmem
  obtain ⟨e, he, hpath⟩ := List.mem_map.1 hmem
  obtain ⟨held, hheld⟩ := h.get?_of_mem_updates d hd
  have hnone := h.get?_of_mem_adds e he
  rw [hpath, hheld] at hnone
  cases hnone

theorem path_not_mem_deletes (h : set.Fits docs) (hd : d ∈ set.updates) :
    d.path ∉ set.deletes.map QueryDocument.path := by
  intro hmem
  obtain ⟨e, he, hpath⟩ := List.mem_map.1 hmem
  exact h.deletes_ne_updates e he d hd hpath

theorem get?_applied_of_mem_updates (h : set.Fits docs) (hd : d ∈ set.updates) :
    (docs.applied set).get? d.path = some d :=
  get?_insertAll_of_mem (nodup_paths_sortDocuments.2 h.nodup_updates) (mem_sortDocuments.2 hd)

theorem get?_applied_of_mem_adds (h : set.Fits docs) (hd : d ∈ set.adds) :
    (docs.applied set).get? d.path = some d := by
  have hnot : d.path ∉ set.updates.map QueryDocument.path := by
    intro hmem
    obtain ⟨e, he, hpath⟩ := List.mem_map.1 hmem
    exact h.path_not_mem_adds he (hpath ▸ List.mem_map_of_mem hd)
  rw [applied, get?_insertAll_of_not_mem (mt mem_paths_sortDocuments.1 hnot)]
  exact get?_insertAll_of_mem (nodup_paths_sortDocuments.2 h.nodup_adds) (mem_sortDocuments.2 hd)

theorem get?_applied_of_not_mem (hadds : p ∉ set.adds.map QueryDocument.path)
    (hupdates : p ∉ set.updates.map QueryDocument.path) :
    (docs.applied set).get? p =
      if p ∈ set.deletes.map QueryDocument.path then none else docs.get? p := by
  rw [applied, get?_insertAll_of_not_mem (mt mem_paths_sortDocuments.1 hupdates),
    get?_insertAll_of_not_mem (mt mem_paths_sortDocuments.1 hadds), get?_eraseAll]
  simp only [mem_paths_sortDocuments]

theorem deletable (hdocs : docs.WellFormed) (h : set.Fits docs) :
    docs.Deletable (sortDocuments docs.order set.deletes) :=
  ⟨hdocs, fun d hd => h.get?_of_mem_deletes d (mem_sortDocuments.1 hd),
    nodup_paths_sortDocuments.2 h.nodup_deletes⟩

theorem addable (h : set.Fits docs)
    (hrest : (docs.eraseAll (sortDocuments docs.order set.deletes)).WellFormed) :
    (docs.eraseAll (sortDocuments docs.order set.deletes)).Addable
      (sortDocuments docs.order set.adds) := by
  refine ⟨hrest, ?_, nodup_paths_sortDocuments.2 h.nodup_adds⟩
  intro d hd
  rw [get?_eraseAll, h.get?_of_mem_adds d (mem_sortDocuments.1 hd), ite_self]

theorem updatable (h : set.Fits docs)
    (hrest : ((docs.eraseAll (sortDocuments docs.order set.deletes)).insertAll
      (sortDocuments docs.order set.adds)).WellFormed) :
    ((docs.eraseAll (sortDocuments docs.order set.deletes)).insertAll
      (sortDocuments docs.order set.adds)).Updatable (sortDocuments docs.order set.updates) := by
  refine ⟨hrest, ?_⟩
  intro d hd
  rw [mem_sortDocuments] at hd
  rw [get?_insertAll_of_not_mem (mt mem_paths_sortDocuments.1 (h.path_not_mem_adds hd)),
    get?_eraseAll, if_neg (mt mem_paths_sortDocuments.1 (h.path_not_mem_deletes hd))]
  exact h.get?_of_mem_updates d hd

/-- The diff carries a copy of the ordered documents from a set to its next version, and is empty only
if the two are the same. -/
theorem apply_replays (hdocs : docs.WellFormed) (h : set.Fits docs) :
    (docs.applied set).WellFormed ∧ ∃ diff : List Change,
      docs.apply set = (docs.applied set, diff) ∧ (diff = [] → docs.applied set = docs) ∧
      Change.replayAll? diff docs.sorted = some (docs.applied set).sorted := by
  obtain ⟨hwell, cs, hdeletes, hlength, hreplay⟩ := (h.deletable hdocs).phase_replays []
  obtain ⟨hwell', cs', hadds, hlength', hreplay'⟩ := (h.addable hwell).phase_replays ([] ++ cs)
  obtain ⟨hwell'', cs'', hupdates, hlength'', hreplay''⟩ :=
    (h.updatable hwell').phase_replays ([] ++ cs ++ cs')
  refine ⟨hwell'', [] ++ cs ++ cs' ++ cs'', ?_, ?_, ?_⟩
  · simp only [DocumentSet.apply, hdeletes, hadds, hupdates, applied]
  · intro hdiff
    -- each member of the change set has an entry, so there is none
    have htotal := congrArg List.length hdiff
    simp only [List.length_append, List.length_nil, hlength, hlength', hlength'',
      (sortDocuments_perm _ _).length_eq] at htotal
    have hempty : set = {} := by
      obtain ⟨deletes, adds, updates⟩ := set
      simp only at htotal
      rw [List.length_eq_zero_iff.1 (by omega : deletes.length = 0),
        List.length_eq_zero_iff.1 (by omega : adds.length = 0),
        List.length_eq_zero_iff.1 (by omega : updates.length = 0)]
    rw [hempty, applied_of_empty]
  · rw [List.nil_append, Change.replayAll?_append ((Change.replayAll?_append hreplay).trans hreplay')]
    exact hreplay''

end ChangeSet.Fits

end LiveQuery
