import Mathlib
import LiveQuery.Proofs.Accumulation

namespace LiveQuery

namespace DocumentSet
open Std DocumentOrder

variable {docs : DocumentSet} {order : DocumentOrder} {ds es : List QueryDocument} {d e : QueryDocument}
  {p : Path}

/-- How many documents come before a document in sort order. -/
def rank (order : DocumentOrder) (ds : List QueryDocument) (d : QueryDocument) : Nat :=
  ds.countP fun e => order.compare e d = .lt

theorem rank_cons (order : DocumentOrder) (e : QueryDocument) (ds : List QueryDocument)
    (d : QueryDocument) : rank order (e :: ds) d =
      rank order ds d + if order.compare e d = .lt then 1 else 0 := by
  simp [rank, List.countP_cons]

theorem rank_perm (h : ds.Perm es) (d : QueryDocument) : rank order ds d = rank order es d := h.countP_eq _

theorem compare_self_ne_lt (order : DocumentOrder) [order.Lawful] (d : QueryDocument) :
    order.compare d d ≠ .lt := by
  have hself : order.compare d d = .eq := ReflCmp.compare_self
  rw [hself]
  decide

theorem not_lt_of_lt [order.Lawful] (h : order.compare d e = .lt) : order.compare e d ≠ .lt := by
  rw [OrientedCmp.gt_of_lt h]
  decide

theorem rank_le [order.Lawful] (h : order.compare d e = .lt) : rank order ds d ≤ rank order ds e := by
  apply List.countP_mono_left
  intro x _ hx
  exact decide_eq_true (TransCmp.lt_trans (of_decide_eq_true hx) h)

theorem rank_lt_of_mem [order.Lawful] (hmem : d ∈ ds) (h : order.compare d e = .lt) :
    rank order ds d < rank order ds e := by
  obtain ⟨before, after, rfl⟩ := List.append_of_mem hmem
  have hrest : rank order (before ++ after) d ≤ rank order (before ++ after) e := rank_le h
  rw [rank_perm List.perm_middle, rank_perm List.perm_middle, rank_cons, rank_cons,
    if_neg (compare_self_ne_lt order d), if_pos h]
  omega

/-- In an increasing sequence, the place of a document is the number of those before it. -/
theorem rank_eq_of_getElem? [order.Lawful] (hinc : ds.Pairwise fun d e => order.compare d e = .lt)
    {i : Nat} (hi : ds[i]? = some d) : rank order ds d = i := by
  obtain ⟨hlt, rfl⟩ := List.getElem?_eq_some_iff.1 hi
  have hpair := List.pairwise_iff_getElem.1 hinc
  have hbefore : (ds.take i).countP (fun e => order.compare e ds[i] = .lt) = (ds.take i).length := by
    rw [List.countP_eq_length]
    intro e he
    obtain ⟨j, hj, rfl⟩ := List.mem_take_iff_getElem.1 he
    exact decide_eq_true (hpair j i (by omega) hlt (by omega))
  have hafter : (ds.drop i).countP (fun e => order.compare e ds[i] = .lt) = 0 := by
    rw [List.countP_eq_zero]
    intro e he
    obtain ⟨j, hj, rfl⟩ := List.mem_drop_iff_getElem.1 he
    rw [decide_eq_true_eq]
    by_cases hself : j = 0
    · subst hself
      exact compare_self_ne_lt order _
    · exact not_lt_of_lt (hpair i (i + j) hlt (by omega) (by omega))
  have hsplit : rank order ds ds[i] = _ :=
    (congrArg (List.countP _) (List.take_append_drop i ds).symm).trans List.countP_append
  rw [hsplit, hbefore, hafter, List.length_take]
  omega

namespace WellFormed

theorem indexOf?_eq_rank (h : docs.WellFormed) (horder : docs.order = order)
    (hd : docs.get? p = some d) : docs.indexOf? p = some (rank order docs.sorted d) := by
  have hlawful := h.lawful
  obtain ⟨i, hindex, hi, -⟩ := h.indexOf?_of_get? hd
  rw [hindex, ← horder, rank_eq_of_getElem? h.increasing hi]

theorem perm_erase (h : docs.WellFormed) (hd : docs.get? p = some d) :
    docs.sorted.Perm (d :: (docs.erase p).sorted) := by
  obtain ⟨i, -, hi, hsorted⟩ := h.indexOf?_of_get? hd
  obtain ⟨hlt, rfl⟩ := List.getElem?_eq_some_iff.1 hi
  rw [hsorted]
  exact (List.getElem_cons_eraseIdx_perm hlt).symm

theorem perm_insert (h : docs.WellFormed) (d : QueryDocument) :
    (docs.insert d).sorted.Perm (d :: (docs.erase d.path).sorted) := by
  obtain ⟨i, -, hle, hsorted⟩ := h.indexOf?_insert d
  rw [hsorted]
  exact List.perm_insertIdx _ _ hle

theorem rank_erase (h : docs.WellFormed) (order : DocumentOrder) (hd : docs.get? p = some d)
    (e : QueryDocument) :
    rank order docs.sorted e =
      rank order (docs.erase p).sorted e + if order.compare d e = .lt then 1 else 0 :=
  (rank_perm (h.perm_erase hd) e).trans (rank_cons order d _ e)

theorem rank_insert (h : docs.WellFormed) (order : DocumentOrder) (d e : QueryDocument) :
    rank order (docs.insert d).sorted e =
      rank order (docs.erase d.path).sorted e + if order.compare d e = .lt then 1 else 0 :=
  (rank_perm (h.perm_insert d) e).trans (rank_cons order d _ e)

end WellFormed

/-- A phase of a change set as the list of its changes: `change` says what is told of a document, `next`
what it makes of the set. -/
def trail (next : DocumentSet → QueryDocument → DocumentSet)
    (change : DocumentSet → QueryDocument → Change) : DocumentSet → List QueryDocument → List Change
  | _, [] => []
  | docs, d :: ds => change docs d :: trail next change (next docs d) ds

def removal (docs : DocumentSet) (d : QueryDocument) : Change :=
  ⟨.removed, d, docs.indexOf? d.path, none⟩

def addition (docs : DocumentSet) (d : QueryDocument) : Change :=
  ⟨.added, d, none, (docs.insert d).indexOf? d.path⟩

def modification (docs : DocumentSet) (d : QueryDocument) : Change :=
  ⟨.modified, d, docs.indexOf? d.path, (docs.insert d).indexOf? d.path⟩

def removals : DocumentSet → List QueryDocument → List Change :=
  trail (fun docs d => docs.erase d.path) removal

def additions : DocumentSet → List QueryDocument → List Change := trail insert addition

def modifications : DocumentSet → List QueryDocument → List Change := trail insert modification

section Trail

variable (next : DocumentSet → QueryDocument → DocumentSet)
  (change : DocumentSet → QueryDocument → Change)

theorem foldl_eq_trail (step : Progress → QueryDocument → Progress)
    (hstep : ∀ docs diff d, step (docs, diff) d = (next docs d, diff ++ [change docs d]))
    (docs : DocumentSet) (diff : List Change) (ds : List QueryDocument) :
    ds.foldl step (docs, diff) = (ds.foldl next docs, diff ++ trail next change docs ds) := by
  induction ds generalizing docs diff with
  | nil => simp [trail]
  | cons d ds ih => rw [List.foldl_cons, hstep, ih, List.append_assoc]; rfl

theorem map_document_trail (hchange : ∀ docs d, (change docs d).document = d) (docs : DocumentSet)
    (ds : List QueryDocument) : (trail next change docs ds).map Change.document = ds := by
  induction ds generalizing docs with
  | nil => rfl
  | cons d ds ih => rw [trail, List.map_cons, hchange, ih]

theorem kind_of_mem_trail {kind : ChangeKind} (hchange : ∀ docs d, (change docs d).kind = kind)
    (docs : DocumentSet) (ds : List QueryDocument) : ∀ c ∈ trail next change docs ds, c.kind = kind := by
  induction ds generalizing docs with
  | nil => intro c hc; cases hc
  | cons d ds ih => exact List.forall_mem_cons.2 ⟨hchange docs d, ih (next docs d)⟩

end Trail

/-- The diff is the changes of the three phases. -/
theorem apply_eq (docs : DocumentSet) (set : ChangeSet) :
    docs.apply set = (docs.applied set,
      docs.removals (sortDocuments docs.order set.deletes) ++
        (docs.eraseAll (sortDocuments docs.order set.deletes)).additions (sortDocuments docs.order set.adds) ++
        ((docs.eraseAll (sortDocuments docs.order set.deletes)).insertAll
          (sortDocuments docs.order set.adds)).modifications (sortDocuments docs.order set.updates)) := by
  have hdelete := foldl_eq_trail _ removal applyDelete fun _ _ _ => rfl
  have hadd := foldl_eq_trail _ addition applyAdd fun _ _ _ => rfl
  have hupdate := foldl_eq_trail _ modification applyUpdate fun _ _ _ => rfl
  simp only [apply, hdelete, hadd, hupdate, List.nil_append]
  rfl

/-- Documents in strictly increasing order. -/
abbrev Increasing (order : DocumentOrder) (ds : List QueryDocument) : Prop :=
  ds.Pairwise fun d e => order.compare d e = .lt

theorem increasing_sortDocuments (order : DocumentOrder) [order.Lawful]
    (hnodup : (ds.map QueryDocument.path).Nodup) : Increasing order (sortDocuments order ds) := by
  have hpaths : ((sortDocuments order ds).map QueryDocument.path).Nodup :=
    nodup_paths_sortDocuments.2 hnodup
  refine ((pairwise_isLE_sortDocuments ds).and (List.pairwise_map.1 hpaths)).imp ?_
  rintro a b ⟨hle, hne⟩
  cases hab : order.compare a b with
  | lt => rfl
  | eq => exact absurd (path_eq_of_compare_eq hab) hne
  | gt =>
    rw [hab] at hle
    cases hle

/-! What comes before all that is still to be removed keeps its place, so no later removal is at an earlier
place than the one before it. -/

section Removals

variable [order.Lawful]

theorem Deletable.rank_le_oldIndex (h : docs.Deletable ds) (horder : docs.order = order)
    (hbelow : ∀ d ∈ ds, order.compare e d = .lt) :
    ∀ c ∈ docs.removals ds, ∀ i ∈ c.oldIndex, rank order docs.sorted e ≤ i := by
  induction ds generalizing docs with
  | nil => intro c hc; cases hc
  | cons d ds ih =>
    have hd := h.2.1 d List.mem_cons_self
    obtain ⟨hed, hlater⟩ := List.forall_mem_cons.1 hbelow
    intro c hc i hi
    rcases List.mem_cons.1 hc with rfl | hrest
    · rw [removal, h.1.indexOf?_eq_rank horder hd] at hi
      cases hi
      exact rank_le hed
    · rw [h.1.rank_erase order hd, if_neg (not_lt_of_lt hed)]
      exact ih h.step ((order_erase docs d.path).trans horder) hlater c hrest i hi

theorem Deletable.pairwise_oldIndex (h : docs.Deletable ds) (horder : docs.order = order)
    (hinc : Increasing order ds) :
    (docs.removals ds).Pairwise fun c c' => ∀ i ∈ c.oldIndex, ∀ j ∈ c'.oldIndex, i ≤ j := by
  induction ds generalizing docs with
  | nil => exact List.Pairwise.nil
  | cons d ds ih =>
    have hd := h.2.1 d List.mem_cons_self
    have hnext := (order_erase docs d.path).trans horder
    obtain ⟨hbelow, hincreasing⟩ := List.pairwise_cons.1 hinc
    refine List.pairwise_cons.2 ⟨?_, ih h.step hnext hincreasing⟩
    intro c hc i hi j hj
    rw [removal, h.1.indexOf?_eq_rank horder hd] at hi
    cases hi
    rw [h.1.rank_erase order hd, if_neg (compare_self_ne_lt order d)]
    exact h.step.rank_le_oldIndex hnext hbelow c hc j hj

end Removals

/-! What an addition has put in its place stays there, for the later ones come after it. -/

theorem mem_sorted_insert_self (h : docs.WellFormed) (d : QueryDocument) : d ∈ (docs.insert d).sorted :=
  (h.perm_insert d).mem_iff.2 List.mem_cons_self

theorem mem_sorted_insert_of_mem (h : docs.WellFormed) (he : e ∈ docs.sorted) (hpath : d.path ≠ e.path) :
    e ∈ (docs.insert d).sorted := by
  rw [(h.insert d).mem_sorted_iff, get?_insert, if_neg hpath]
  exact h.mem_sorted_iff.1 he

theorem indexOf?_insert_self (h : docs.WellFormed) (horder : docs.order = order) (d : QueryDocument) :
    (docs.insert d).indexOf? d.path = some (rank order (docs.insert d).sorted d) := by
  have hget : (docs.insert d).get? d.path = some d := by rw [get?_insert, if_pos rfl]
  exact (h.insert d).indexOf?_eq_rank ((order_insert docs d).trans horder) hget

theorem Addable.path_ne (h : docs.Addable (d :: ds)) (he : e ∈ docs.sorted) : d.path ≠ e.path := by
  intro hpath
  have hnone := h.2.1 d List.mem_cons_self
  rw [hpath, h.1.mem_sorted_iff.1 he] at hnone
  cases hnone

section Additions

variable [order.Lawful]

theorem Addable.rank_insert (h : docs.Addable (d :: ds)) (hed : order.compare e d = .lt) :
    rank order (docs.insert d).sorted e = rank order docs.sorted e := by
  rw [h.1.rank_insert, erase_of_get?_eq_none (h.2.1 d List.mem_cons_self), if_neg (not_lt_of_lt hed),
    Nat.add_zero]

theorem Addable.rank_insertAll (h : docs.Addable ds) (hbelow : ∀ d ∈ ds, order.compare e d = .lt) :
    rank order (docs.insertAll ds).sorted e = rank order docs.sorted e := by
  induction ds generalizing docs with
  | nil => rfl
  | cons d ds ih =>
    obtain ⟨hed, hlater⟩ := List.forall_mem_cons.1 hbelow
    exact (ih h.step hlater).trans (h.rank_insert hed)

theorem Addable.rank_lt_newIndex (h : docs.Addable ds) (horder : docs.order = order)
    (he : e ∈ docs.sorted) (hbelow : ∀ d ∈ ds, order.compare e d = .lt) :
    ∀ c ∈ docs.additions ds, ∀ j ∈ c.newIndex, rank order docs.sorted e < j := by
  induction ds generalizing docs with
  | nil => intro c hc; cases hc
  | cons d ds ih =>
    obtain ⟨hed, hlater⟩ := List.forall_mem_cons.1 hbelow
    have hmem := mem_sorted_insert_of_mem h.1 he (h.path_ne he)
    intro c hc j hj
    rw [← h.rank_insert hed]
    rcases List.mem_cons.1 hc with rfl | hrest
    · rw [addition, indexOf?_insert_self h.1 horder] at hj
      cases hj
      exact rank_lt_of_mem hmem hed
    · exact ih h.step ((order_insert docs d).trans horder) hmem hlater c hrest j hj

theorem Addable.pairwise_newIndex (h : docs.Addable ds) (horder : docs.order = order)
    (hinc : Increasing order ds) :
    (docs.additions ds).Pairwise fun c c' => ∀ i ∈ c.newIndex, ∀ j ∈ c'.newIndex, i < j := by
  induction ds generalizing docs with
  | nil => exact List.Pairwise.nil
  | cons d ds ih =>
    have hnext := (order_insert docs d).trans horder
    obtain ⟨hbelow, hincreasing⟩ := List.pairwise_cons.1 hinc
    refine List.pairwise_cons.2 ⟨?_, ih h.step hnext hincreasing⟩
    intro c hc i hi j hj
    rw [addition, indexOf?_insert_self h.1 horder] at hi
    cases hi
    exact h.step.rank_lt_newIndex hnext (mem_sorted_insert_self h.1 d) hbelow c hc j hj

theorem order_insertAll (docs : DocumentSet) (ds : List QueryDocument) :
    (docs.insertAll ds).order = docs.order := by
  induction ds generalizing docs with
  | nil => rfl
  | cons d ds ih => exact (ih (docs.insert d)).trans (order_insert docs d)

/-- The place that an addition names is still the document's once all are done. -/
theorem Addable.newIndex_eq (h : docs.Addable ds) (horder : docs.order = order)
    (hinc : Increasing order ds) :
    ∀ c ∈ docs.additions ds, c.newIndex = (docs.insertAll ds).indexOf? c.document.path := by
  induction ds generalizing docs with
  | nil => intro c hc; cases hc
  | cons d ds ih =>
    have hnext := (order_insert docs d).trans horder
    obtain ⟨hbelow, hincreasing⟩ := List.pairwise_cons.1 hinc
    intro c hc
    rcases List.mem_cons.1 hc with rfl | hrest
    · have hget : (docs.insertAll (d :: ds)).get? d.path = some d :=
        get?_insertAll_of_mem h.2.2 List.mem_cons_self
      have hplace := (h.phase_replays []).1.indexOf?_eq_rank ((order_insertAll docs _).trans horder) hget
      have hkept : rank order (docs.insertAll (d :: ds)).sorted d = rank order (docs.insert d).sorted d :=
        h.step.rank_insertAll hbelow
      rw [hkept, ← indexOf?_insert_self h.1 horder] at hplace
      exact hplace.symm
    · exact ih h.step hnext hincreasing c hrest

end Additions

/-! A modification moves what comes before its newer version by one place at most, namely when the older
version stood there. So a later one, which goes behind it, goes to no earlier place. -/

section Modifications

variable [order.Lawful]

theorem Updatable.rank_le_newIndex (h : docs.Updatable ds) (horder : docs.order = order)
    (hnodup : (ds.map QueryDocument.path).Nodup) (hinc : Increasing order ds) (he : e ∈ docs.sorted)
    (hpath : ∀ d ∈ ds, d.path ≠ e.path) (hbelow : ∀ d ∈ ds, order.compare e d = .lt) :
    ∀ c ∈ docs.modifications ds, ∀ j ∈ c.newIndex, rank order docs.sorted e ≤ j := by
  induction ds generalizing docs e with
  | nil => intro c hc; cases hc
  | cons d ds ih =>
    obtain ⟨old, hold⟩ := h.2 d List.mem_cons_self
    have hed := hbelow d List.mem_cons_self
    have hfirst : rank order docs.sorted e ≤ rank order (docs.insert d).sorted d := by
      have hout := h.1.rank_erase order hold e
      have hin := h.1.rank_insert order d e
      have hlt : rank order (docs.insert d).sorted e < rank order (docs.insert d).sorted d :=
        rank_lt_of_mem (mem_sorted_insert_of_mem h.1 he (hpath d List.mem_cons_self)) hed
      rw [if_neg (not_lt_of_lt hed)] at hin
      split at hout <;> omega
    intro c hc j hj
    rcases List.mem_cons.1 hc with rfl | hrest
    · rw [modification, indexOf?_insert_self h.1 horder] at hj
      cases hj
      exact hfirst
    · -- the later ones are compared with this one, which stays where it is put
      obtain ⟨hafter, hincreasing⟩ := List.pairwise_cons.1 hinc
      have hlater := ih h.step ((order_insert docs d).trans horder) (List.nodup_cons.1 hnodup).2 hincreasing
        (mem_sorted_insert_self h.1 d) (fun d' hd' => (path_ne_of_nodup hnodup hd').symm) hafter c hrest j hj
      exact hfirst.trans hlater

theorem Updatable.pairwise_newIndex (h : docs.Updatable ds) (horder : docs.order = order)
    (hnodup : (ds.map QueryDocument.path).Nodup) (hinc : Increasing order ds) :
    (docs.modifications ds).Pairwise fun c c' => ∀ i ∈ c.newIndex, ∀ j ∈ c'.newIndex, i ≤ j := by
  induction ds generalizing docs with
  | nil => exact List.Pairwise.nil
  | cons d ds ih =>
    have hnext := (order_insert docs d).trans horder
    have hrest := (List.nodup_cons.1 hnodup).2
    obtain ⟨hbelow, hincreasing⟩ := List.pairwise_cons.1 hinc
    refine List.pairwise_cons.2 ⟨?_, ih h.step hnext hrest hincreasing⟩
    intro c hc i hi j hj
    rw [modification, indexOf?_insert_self h.1 horder] at hi
    cases hi
    exact h.step.rank_le_newIndex hnext hrest hincreasing (mem_sorted_insert_self h.1 d)
      (fun d' hd' => (path_ne_of_nodup hnodup hd').symm) hbelow c hc j hj

end Modifications

end DocumentSet

/-- What a change makes of a document set, whatever places it names. -/
def Change.applyTo (docs : DocumentSet) (c : Change) : DocumentSet :=
  match c.kind with
  | .removed => docs.erase c.document.path
  | .added | .modified => docs.insert c.document

/-- A change names the place of what it takes away in the set before it, and the place of what it brings in
the set after it, and no other place. -/
def Change.Placed (docs next : DocumentSet) (c : Change) : Prop :=
  match c.kind with
  | .removed => c.newIndex = none ∧
      ∃ i < docs.size, c.oldIndex = some i ∧ docs.at? i = some c.document
  | .added => c.oldIndex = none ∧
      ∃ j < next.size, c.newIndex = some j ∧ next.at? j = some c.document
  | .modified =>
    (∃ i < docs.size, c.oldIndex = some i ∧ ∃ old, docs.at? i = some old ∧ old.path = c.document.path) ∧
      ∃ j < next.size, c.newIndex = some j ∧ next.at? j = some c.document

namespace DocumentSet
open Std DocumentOrder

variable {docs : DocumentSet} {order : DocumentOrder} {ds : List QueryDocument} {d : QueryDocument}
  {p : Path}

/-- What the changes of a diff, one after the other, make of a document set. -/
def follow (docs : DocumentSet) (diff : List Change) : DocumentSet := diff.foldl Change.applyTo docs

/-- Each change of a diff names the right places, in the set that those before it lead to. -/
def Course : DocumentSet → List Change → Prop
  | _, [] => True
  | docs, c :: diff => c.Placed docs (c.applyTo docs) ∧ Course (c.applyTo docs) diff

theorem follow_append (docs : DocumentSet) (diff diff' : List Change) :
    docs.follow (diff ++ diff') = (docs.follow diff).follow diff' := List.foldl_append

theorem course_append {diff diff' : List Change} (h : docs.Course diff)
    (h' : (docs.follow diff).Course diff') : docs.Course (diff ++ diff') := by
  induction diff generalizing docs with
  | nil => exact h'
  | cons c diff ih => exact ⟨h.1, ih h.2 h'⟩

theorem follow_trail (next : DocumentSet → QueryDocument → DocumentSet)
    (change : DocumentSet → QueryDocument → Change)
    (hchange : ∀ docs d, (change docs d).applyTo docs = next docs d) (docs : DocumentSet)
    (ds : List QueryDocument) : docs.follow (trail next change docs ds) = ds.foldl next docs := by
  induction ds generalizing docs with
  | nil => rfl
  | cons d ds ih =>
    change ((change docs d).applyTo docs).follow _ = ds.foldl next (next docs d)
    rw [hchange, ih]

/-- A phase keeps a course if each of its steps does. -/
theorem course_trail {next : DocumentSet → QueryDocument → DocumentSet}
    {change : DocumentSet → QueryDocument → Change} {P : DocumentSet → List QueryDocument → Prop}
    (hchange : ∀ docs d, (change docs d).applyTo docs = next docs d)
    (hstep : ∀ {docs d ds}, P docs (d :: ds) → (change docs d).Placed docs (next docs d) ∧ P (next docs d) ds)
    (h : P docs ds) : docs.Course (trail next change docs ds) := by
  induction ds generalizing docs with
  | nil => exact trivial
  | cons d ds ih =>
    obtain ⟨hplaced, hrest⟩ := hstep h
    rw [trail, Course, hchange]
    exact ⟨hplaced, ih hrest⟩

theorem WellFormed.exists_indexOf?_lt (h : docs.WellFormed) (hd : docs.get? p = some d) :
    ∃ i < docs.size, docs.indexOf? p = some i ∧ docs.at? i = some d := by
  obtain ⟨i, hindex, hi, -⟩ := h.indexOf?_of_get? hd
  exact ⟨i, (List.getElem?_eq_some_iff.1 hi).1, hindex, hi⟩

theorem WellFormed.exists_indexOf?_insert_lt (h : docs.WellFormed) (d : QueryDocument) :
    ∃ j < (docs.insert d).size, (docs.insert d).indexOf? d.path = some j ∧
      (docs.insert d).at? j = some d :=
  (h.insert d).exists_indexOf?_lt (by rw [get?_insert, if_pos rfl])

theorem Deletable.course (h : docs.Deletable ds) : docs.Course (docs.removals ds) :=
  course_trail (fun _ _ => rfl)
    (fun h => ⟨⟨rfl, h.1.exists_indexOf?_lt (h.2.1 _ List.mem_cons_self)⟩, h.step⟩) h

theorem Addable.course (h : docs.Addable ds) : docs.Course (docs.additions ds) :=
  course_trail (fun _ _ => rfl) (fun h => ⟨⟨rfl, h.1.exists_indexOf?_insert_lt _⟩, h.step⟩) h

theorem Updatable.course (h : docs.Updatable ds) : docs.Course (docs.modifications ds) := by
  refine course_trail (fun _ _ => rfl) (fun {docs d ds} h => ⟨⟨?_, h.1.exists_indexOf?_insert_lt _⟩, h.step⟩) h
  obtain ⟨old, hold⟩ := h.2 d List.mem_cons_self
  obtain ⟨i, hlt, hindex, hi⟩ := h.1.exists_indexOf?_lt hold
  exact ⟨i, hlt, hindex, old, hi, h.1.path_of_get? hold⟩

/-- The form of a diff: what was removed, then what was added, then what was modified, each in sort order,
and what can be said of the places. -/
structure Blocks (docs : DocumentSet) (removed added modified : List Change) : Prop where
  kind_removed : ∀ c ∈ removed, c.kind = .removed
  kind_added : ∀ c ∈ added, c.kind = .added
  kind_modified : ∀ c ∈ modified, c.kind = .modified
  increasing_removed : Increasing docs.order (removed.map Change.document)
  increasing_added : Increasing docs.order (added.map Change.document)
  increasing_modified : Increasing docs.order (modified.map Change.document)
  oldIndex_removed : removed.Pairwise fun c c' => ∀ i ∈ c.oldIndex, ∀ j ∈ c'.oldIndex, i ≤ j
  newIndex_added : added.Pairwise fun c c' => ∀ i ∈ c.newIndex, ∀ j ∈ c'.newIndex, i < j
  newIndex_modified : modified.Pairwise fun c c' => ∀ i ∈ c.newIndex, ∀ j ∈ c'.newIndex, i ≤ j
  settled : ∀ c ∈ added, c.newIndex = (docs.follow (removed ++ added)).indexOf? c.document.path
  course : docs.Course (removed ++ added ++ modified)

theorem order_eraseAll (docs : DocumentSet) (ds : List QueryDocument) :
    (docs.eraseAll ds).order = docs.order := by
  induction ds generalizing docs with
  | nil => rfl
  | cons d ds ih => exact (ih (docs.erase d.path)).trans (order_erase docs d.path)

theorem follow_removals (docs : DocumentSet) (ds : List QueryDocument) :
    docs.follow (docs.removals ds) = docs.eraseAll ds :=
  follow_trail _ removal (fun _ _ => rfl) docs ds

theorem follow_additions (docs : DocumentSet) (ds : List QueryDocument) :
    docs.follow (docs.additions ds) = docs.insertAll ds :=
  follow_trail _ addition (fun _ _ => rfl) docs ds

theorem follow_modifications (docs : DocumentSet) (ds : List QueryDocument) :
    docs.follow (docs.modifications ds) = docs.insertAll ds :=
  follow_trail _ modification (fun _ _ => rfl) docs ds

theorem blocks_of_phases {deletes adds updates : List QueryDocument} (hdeletable : docs.Deletable deletes)
    (haddable : (docs.eraseAll deletes).Addable adds)
    (hupdatable : ((docs.eraseAll deletes).insertAll adds).Updatable updates)
    (hnodup : (updates.map QueryDocument.path).Nodup) (hdeletes : Increasing docs.order deletes)
    (hadds : Increasing docs.order adds) (hupdates : Increasing docs.order updates) :
    docs.Blocks (docs.removals deletes) ((docs.eraseAll deletes).additions adds)
      (((docs.eraseAll deletes).insertAll adds).modifications updates) := by
  have hlawful := hdeletable.1.lawful
  have hleft := order_eraseAll docs deletes
  have hgrown := (order_insertAll (docs.eraseAll deletes) adds).trans hleft
  refine
    { kind_removed := kind_of_mem_trail _ removal (fun _ _ => rfl) _ _
      kind_added := kind_of_mem_trail _ addition (fun _ _ => rfl) _ _
      kind_modified := kind_of_mem_trail _ modification (fun _ _ => rfl) _ _
      increasing_removed := ?_
      increasing_added := ?_
      increasing_modified := ?_
      oldIndex_removed := hdeletable.pairwise_oldIndex rfl hdeletes
      newIndex_added := haddable.pairwise_newIndex hleft hadds
      newIndex_modified := hupdatable.pairwise_newIndex hgrown hnodup hupdates
      settled := ?_
      course := course_append (course_append hdeletable.course ?_) ?_ }
  · rw [removals, map_document_trail _ removal fun _ _ => rfl]
    exact hdeletes
  · rw [additions, map_document_trail _ addition fun _ _ => rfl]
    exact hadds
  · rw [modifications, map_document_trail _ modification fun _ _ => rfl]
    exact hupdates
  · rw [follow_append, follow_removals, follow_additions]
    exact haddable.newIndex_eq hleft hadds
  · rw [follow_removals]
    exact haddable.course
  · rw [follow_append, follow_removals, follow_additions]
    exact hupdatable.course

/-- The diff to a change set that fits has the form of `Blocks`, and followed it leads to the next version
of the set. -/
theorem exists_blocks {set : ChangeSet} (h : docs.WellFormed) (hfits : set.Fits docs) :
    ∃ removed added modified,
      docs.apply set = (docs.follow (removed ++ added ++ modified), removed ++ added ++ modified) ∧
        docs.Blocks removed added modified := by
  have hlawful := h.lawful
  have hdeletable := hfits.deletable h
  have haddable := hfits.addable (hdeletable.phase_replays []).1
  have hupdatable := hfits.updatable (haddable.phase_replays []).1
  have hblocks := blocks_of_phases hdeletable haddable hupdatable
    (nodup_paths_sortDocuments.2 hfits.nodup_updates)
    (increasing_sortDocuments docs.order hfits.nodup_deletes)
    (increasing_sortDocuments docs.order hfits.nodup_adds)
    (increasing_sortDocuments docs.order hfits.nodup_updates)
  refine ⟨_, _, _, ?_, hblocks⟩
  rw [apply_eq, follow_append, follow_append, follow_removals, follow_additions, follow_modifications]
  rfl

/-- Whatever set and whatever changes are pending, and in whatever order these are taken: the diff has the
form of `Blocks`. The set that its entries lead to, followed one by one, is the next version of the set. -/
theorem diff_in_blocks (order : DocumentOrder) [order.Lawful] (edits : List Edit) (turns : List Turn)
    (readTime : Option Timestamp) {entries : List (Path × PendingChange)}
    (hperm : entries.Perm (PendingChanges.ofTurns turns).entries) :
    let docs := ofEdits order edits
    ∃ removed added modified,
      docs.apply (.ofEntries docs readTime entries) =
          (docs.follow (removed ++ added ++ modified), removed ++ added ++ modified) ∧
        docs.Blocks removed added modified := by
  intro docs
  have hwell : docs.WellFormed := wellFormed_ofEdits order edits
  have hkeyed := PendingChanges.keyed_ofTurns turns
  rw [PendingChanges.apply_ofEntries_of_perm hwell hkeyed readTime hperm]
  exact exists_blocks hwell (PendingChanges.fits_against hwell hkeyed readTime)

/-- A document goes, one comes, and two change places: the second to be modified leaves a place before the
first and goes behind it, so both come to stand at one place. -/
def reshuffle : List Turn :=
  [.note (.tombstone (.ofString "c/z")), .note (.upsert (versionAt "c/w" 7).document),
    .note (.upsert (versionAt "c/x" 4).document), .note (.upsert (versionAt "c/y" 6).document)]

def trio : List Edit :=
  [.insert (versionAt "c/x" 9), .insert (versionAt "c/y" 5), .insert (versionAt "c/z" 1)]

theorem diff_in_blocks_reshuffle :
    let docs := ofEdits newestFirst trio
    let changes := PendingChanges.ofTurns reshuffle
    (docs.apply (.ofEntries docs none changes.entries)).2.map (fun c => (c.kind, c.oldIndex, c.newIndex)) =
        [(.removed, some 2, none), (.added, none, some 1), (.modified, some 2, some 2),
          (.modified, some 0, some 2)] ∧
      ∃ removed added modified,
        (docs.apply (.ofEntries docs none changes.entries)).2 = removed ++ added ++ modified ∧
          docs.Blocks removed added modified := by
  intro docs changes
  obtain ⟨removed, added, modified, happly, hblocks⟩ :=
    diff_in_blocks newestFirst trio reshuffle none (List.Perm.refl changes.entries)
  refine ⟨?_, removed, added, modified, congrArg Prod.snd happly, hblocks⟩
  subst docs changes
  cbv

end DocumentSet

end LiveQuery
