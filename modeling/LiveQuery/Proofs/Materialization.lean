import LiveQuery.Proofs.EditHistory
import LiveQuery.Proofs.Worker

namespace LiveQuery

/-- What is recorded between two snapshots: a version of a document, or the end of one. -/
inductive News where
  | upsert (document : Document)
  | tombstone (path : Path)

namespace News

def path : News → Path
  | upsert d => Path.ofString d.name
  | tombstone p => p

def change : News → PendingChange
  | upsert d => .upsert d
  | tombstone _ => .tombstone

/-- The last news about a path. -/
def last? (news : List News) (p : Path) : Option News := (news.filter (·.path = p)).getLast?

theorem last?_snoc (news : List News) (n : News) (p : Path) :
    last? (news ++ [n]) p = if n.path = p then some n else last? news p := by
  unfold last?
  rw [List.filter_append]
  by_cases hp : n.path = p <;> simp [hp]

theorem last?_eq_none {news : List News} {p : Path} (h : ∀ n ∈ news, n.path ≠ p) :
    last? news p = none := by
  have hnil : news.filter (·.path = p) = [] := by
    rw [List.filter_eq_nil_iff]
    intro n hn
    simpa using h n hn
  rw [last?, hnil]
  rfl

end News

namespace PendingChanges

def note (changes : PendingChanges) : News → PendingChanges
  | .upsert d => changes.upsert d
  | .tombstone p => changes.tombstone p

/-- The changes that wait after news came in, from none. -/
def ofNews (news : List News) : PendingChanges := news.foldl note empty

theorem ofNews_snoc (news : List News) (n : News) : ofNews (news ++ [n]) = (ofNews news).note n :=
  List.foldl_concat ..

theorem latest?_note (changes : PendingChanges) (n : News) (p : Path) :
    (changes.note n).latest? p = if n.path = p then some n.change else changes.latest? p := by
  cases n with
  | upsert d => exact latest?_upsert changes d p
  | tombstone q => exact latest?_tombstone changes q p

/-- Of the news about a path only the last counts. -/
theorem latest?_ofNews (news : List News) (p : Path) :
    (ofNews news).latest? p = (News.last? news p).map News.change := by
  induction news using List.reverseRecOn with
  | nil => exact latest?_empty p
  | append_singleton news n ih =>
    rw [ofNews_snoc, latest?_note, ih, News.last?_snoc]
    split <;> rfl

theorem keyed_ofNews (news : List News) : (ofNews news).Keyed := by
  induction news using List.reverseRecOn with
  | nil => exact keyed_empty
  | append_singleton news n ih =>
    rw [ofNews_snoc]
    cases n with
    | upsert d => exact ih.upsert d
    | tombstone p => exact ih.tombstone p

end PendingChanges

/-- What an entry of a diff says, apart from the places. -/
def Change.entry (c : Change) : ChangeKind × QueryDocument := (c.kind, c.document)

/-- What a diff has to say about a path whose version was `old` and is `new`. -/
def Change.between? (old new : Option QueryDocument) : Option (ChangeKind × QueryDocument) :=
  match old, new with
  | none, none => none
  | some old, none => some (.removed, old)
  | none, some new => some (.added, new)
  | some old, some new => if old.updateTime = new.updateTime then none else some (.modified, new)

namespace DocumentSet
open Std DocumentOrder

variable {docs : DocumentSet} {d : QueryDocument} {p : Path}

theorem pairwise_isLE_sortDocuments {order : DocumentOrder} [order.Lawful] (ds : List QueryDocument) :
    (sortDocuments order ds).Pairwise fun a b => (order.compare a b).isLE = true := by
  apply List.pairwise_mergeSort
  · intro a b c hab hbc
    exact TransCmp.isLE_trans hab hbc
  · intro a b
    cases hab : order.compare a b with
    | lt | eq => rfl
    | gt =>
      rw [OrientedCmp.gt_iff_lt.1 hab]
      rfl

/-- Sorting leaves nothing of the order in which documents with distinct paths came. -/
theorem sortDocuments_eq_of_perm {order : DocumentOrder} [order.Lawful] {ds es : List QueryDocument}
    (hperm : ds.Perm es) (hnodup : (ds.map QueryDocument.path).Nodup) :
    sortDocuments order ds = sortDocuments order es := by
  have hboth := ((sortDocuments_perm order ds).trans hperm).trans (sortDocuments_perm order es).symm
  refine List.Perm.eq_of_pairwise ?_ (pairwise_isLE_sortDocuments ds) (pairwise_isLE_sortDocuments es) hboth
  intro a b ha hb hab hba
  have heq : order.compare a b = .eq := OrientedCmp.isLE_antisymm hab hba
  have ha' := mem_sortDocuments.1 ha
  have hb' := hperm.mem_iff.2 (mem_sortDocuments.1 hb)
  exact List.inj_on_of_nodup_map hnodup ha' hb' (path_eq_of_compare_eq heq)

theorem entries_foldl {step : Progress → QueryDocument → Progress} {kind : ChangeKind}
    (hstep : ∀ progress d, (step progress d).2.map Change.entry =
      progress.2.map Change.entry ++ [(kind, d)]) (ds : List QueryDocument) (progress : Progress) :
    (ds.foldl step progress).2.map Change.entry =
      progress.2.map Change.entry ++ ds.map fun d => (kind, d) := by
  induction ds generalizing progress with
  | nil => simp
  | cons d ds ih => rw [List.foldl_cons, ih, hstep, List.append_assoc]; rfl

/-- The diff has an entry for each member of the change set. -/
theorem entries_apply (docs : DocumentSet) (set : ChangeSet) :
    (docs.apply set).2.map Change.entry =
      (sortDocuments docs.order set.deletes).map (fun d => (ChangeKind.removed, d)) ++
        (sortDocuments docs.order set.adds).map (fun d => (ChangeKind.added, d)) ++
        (sortDocuments docs.order set.updates).map fun d => (ChangeKind.modified, d) := by
  have hdelete (progress : Progress) (d : QueryDocument) : (applyDelete progress d).2.map Change.entry =
      progress.2.map Change.entry ++ [(ChangeKind.removed, d)] := List.map_append
  have hadd (progress : Progress) (d : QueryDocument) : (applyAdd progress d).2.map Change.entry =
      progress.2.map Change.entry ++ [(ChangeKind.added, d)] := List.map_append
  have hupdate (progress : Progress) (d : QueryDocument) : (applyUpdate progress d).2.map Change.entry =
      progress.2.map Change.entry ++ [(ChangeKind.modified, d)] := List.map_append
  simp only [apply, entries_foldl hupdate, entries_foldl hadd, entries_foldl hdelete, List.map_nil,
    List.nil_append]

theorem filter_path_of_mem {ds : List QueryDocument} (hnodup : (ds.map QueryDocument.path).Nodup)
    (hd : d ∈ ds) : ds.filter (fun e => e.path = d.path) = [d] := by
  induction ds with
  | nil => cases hd
  | cons e ds ih =>
    obtain ⟨he, hrest⟩ := List.nodup_cons.1 hnodup
    rcases List.mem_cons.1 hd with rfl | hmem
    · have hnone : ds.filter (fun e => e.path = d.path) = [] := by
        rw [List.filter_eq_nil_iff]
        intro e' he' hpath
        exact he (List.mem_map.2 ⟨e', he', of_decide_eq_true hpath⟩)
      rw [List.filter_cons_of_pos (by simp), hnone]
    · have hne : e.path ≠ d.path := fun hpath => he (hpath ▸ List.mem_map_of_mem hmem)
      rw [List.filter_cons_of_neg (by simpa using hne), ih hrest hmem]

theorem filter_path_of_not_mem {ds : List QueryDocument} (hp : p ∉ ds.map QueryDocument.path) :
    ds.filter (fun e => e.path = p) = [] := by
  rw [List.filter_eq_nil_iff]
  intro e he hpath
  exact hp (List.mem_map.2 ⟨e, he, of_decide_eq_true hpath⟩)

/-- The entries of a diff that concern a path. -/
def entriesOf (p : Path) (diff : List Change) : List (ChangeKind × QueryDocument) :=
  (diff.filter fun c => c.document.path = p).map Change.entry

theorem entriesOf_apply (docs : DocumentSet) (set : ChangeSet) (p : Path) :
    entriesOf p (docs.apply set).2 =
      ((sortDocuments docs.order set.deletes).filter fun d => d.path = p).map
          (fun d => (ChangeKind.removed, d)) ++
        ((sortDocuments docs.order set.adds).filter fun d => d.path = p).map
          (fun d => (ChangeKind.added, d)) ++
        ((sortDocuments docs.order set.updates).filter fun d => d.path = p).map
          fun d => (ChangeKind.modified, d) := by
  have hmap (diff : List Change) : entriesOf p diff =
      (diff.map Change.entry).filter fun e => e.2.path = p := by
    rw [List.filter_map]
    rfl
  rw [hmap, entries_apply]
  simp only [List.filter_append, List.filter_map]
  rfl

end DocumentSet

namespace PendingChanges
open DocumentSet ChangeSet

variable {changes : PendingChanges} {docs : DocumentSet}

/-- It makes no difference in which order the pending changes are taken. -/
theorem apply_ofEntries_of_perm (hdocs : docs.WellFormed) (hchanges : changes.Keyed)
    (readTime : Option Timestamp) {entries : List (Path × PendingChange)}
    (hperm : entries.Perm changes.entries) :
    docs.apply (ofEntries docs readTime entries) = docs.apply (changes.against docs readTime) := by
  have hlawful := hdocs.lawful
  have hfits := fits_against hdocs hchanges readTime
  rw [against_eq] at hfits ⊢
  rw [ofEntries_eq, DocumentSet.apply, DocumentSet.apply]
  simp only [sortDocuments_eq_of_perm (hperm.symm.filterMap _) hfits.nodup_deletes,
    sortDocuments_eq_of_perm (hperm.symm.filterMap _) hfits.nodup_adds,
    sortDocuments_eq_of_perm (hperm.symm.filterMap _) hfits.nodup_updates]

/-- Each path whose version changes has one entry in the diff, and no other path has any. -/
theorem entriesOf_against (hdocs : docs.WellFormed) (hchanges : changes.Keyed)
    (readTime : Option Timestamp) (p : Path) :
    entriesOf p (docs.apply (changes.against docs readTime)).2 =
      (Change.between? (docs.get? p)
        ((docs.applied (changes.against docs readTime)).get? p)).toList := by
  have hfits := fits_against hdocs hchanges readTime
  have hnone {ds : List QueryDocument} (hp : p ∉ ds.map QueryDocument.path) :
      (sortDocuments docs.order ds).filter (fun d => d.path = p) = [] :=
    filter_path_of_not_mem (mt mem_paths_sortDocuments.1 hp)
  have hone {ds : List QueryDocument} {d : QueryDocument} (hd : d ∈ ds) (hpath : d.path = p)
      (hnodup : (ds.map QueryDocument.path).Nodup) :
      (sortDocuments docs.order ds).filter (fun d => d.path = p) = [d] := by
    rw [← hpath]
    exact filter_path_of_mem (nodup_paths_sortDocuments.2 hnodup) (mem_sortDocuments.2 hd)
  rw [entriesOf_apply, get?_applied_against hdocs hchanges]
  cases hlatest : changes.latest? p with
  | none =>
    rw [hnone (not_mem_paths_deletes hdocs (by simp [hlatest])),
      hnone (not_mem_paths_adds hchanges (by simp [hlatest])),
      hnone (not_mem_paths_updates hchanges (by simp [hlatest]))]
    cases docs.get? p <;> simp [Change.between?]
  | some c =>
    cases c with
    | tombstone =>
      rw [hnone (not_mem_paths_adds hchanges (by simp [hlatest])),
        hnone (not_mem_paths_updates hchanges (by simp [hlatest]))]
      cases hheld : docs.get? p with
      | none =>
        rw [hnone (not_mem_paths_deletes_of_get?_eq_none hdocs hheld)]
        rfl
      | some held =>
        rw [hone (mem_deletes_iff.2 ⟨p, hlatest, hheld⟩) (hdocs.path_of_get? hheld) hfits.nodup_deletes]
        rfl
    | upsert d =>
      rw [hnone (not_mem_paths_deletes hdocs (by simp [hlatest]))]
      have hpath : QueryDocument.path ⟨d, readTime⟩ = p := hchanges p d hlatest
      cases hheld : docs.get? p with
      | none =>
        rw [hone (mem_adds_iff.2 ⟨p, d, hlatest, hheld, rfl⟩) hpath hfits.nodup_adds,
          hnone (not_mem_paths_updates hchanges (by simp [hheld]))]
        rfl
      | some held =>
        rw [hnone (not_mem_paths_adds hchanges (by simp [hheld]))]
        cases hv : held.sameVersion d with
        | true =>
          -- in none of the three parts
          rw [hnone (not_mem_paths_updates_of_sameVersion hchanges hlatest hheld hv)]
          simp [Change.between?, hv]
        | false =>
          have hne : held.updateTime ≠ QueryDocument.updateTime ⟨d, readTime⟩ := ne_of_beq_false hv
          rw [hone (mem_updates_iff.2 ⟨p, d, held, hlatest, hheld, hv, rfl⟩) hpath hfits.nodup_updates]
          simp only [hv, Bool.false_eq_true, if_false, Change.between?, if_neg hne]
          rfl

end PendingChanges

/-- What becomes of a document set when news are applied at a read time, with the diff that tells it. -/
structure Materialized (docs : DocumentSet) (news : List News) (readTime : Option Timestamp)
    (next : DocumentSet) (diff : List Change) : Prop where
  represents : next.Represents next.get?
  untouched : ∀ p, (∀ n ∈ news, n.path ≠ p) → next.get? p = docs.get? p
  ended : ∀ p q, News.last? news p = some (.tombstone q) → next.get? p = none
  brought : ∀ p d, News.last? news p = some (.upsert d) →
    (∀ held, docs.get? p = some held → held.updateTime ≠ d.updateTime) →
    next.get? p = some ⟨d, readTime⟩
  kept : ∀ p d held, News.last? news p = some (.upsert d) → docs.get? p = some held →
    held.updateTime = d.updateTime → next.get? p = some held
  entries : ∀ p, DocumentSet.entriesOf p diff = (Change.between? (docs.get? p) (next.get? p)).toList

namespace DocumentSet
open PendingChanges

variable {docs : DocumentSet}

theorem WellFormed.materialized (h : docs.WellFormed) (news : List News)
    (readTime : Option Timestamp) :
    Materialized docs news readTime (docs.apply ((ofNews news).against docs readTime)).1
      (docs.apply ((ofNews news).against docs readTime)).2 := by
  have hkeyed := keyed_ofNews news
  obtain ⟨hwell, diff, happly, -, -⟩ := (fits_against h hkeyed readTime).apply_replays h
  have hnext : (docs.apply ((ofNews news).against docs readTime)).1 =
      docs.applied ((ofNews news).against docs readTime) := congrArg Prod.fst happly
  have hget (p : Path) := get?_applied_against h hkeyed readTime p
  simp only [latest?_ofNews] at hget
  rw [hnext]
  refine ⟨hwell.represents, ?_, ?_, ?_, ?_, entriesOf_against h hkeyed readTime⟩
  · intro p hp
    rw [hget, News.last?_eq_none hp]
    rfl
  · intro p q hlast
    rw [hget, hlast]
    rfl
  · intro p d hlast hold
    rw [hget, hlast]
    cases hheld : docs.get? p with
    | none => rfl
    | some held =>
      have hv : held.sameVersion d = false := beq_eq_false_iff_ne.2 (hold held hheld)
      simp [News.change, hv]
  · intro p d held hlast hheld hsame
    have hv : held.sameVersion d = true := beq_iff_eq.2 hsame
    rw [hget, hlast, hheld]
    simp [News.change, hv]

/-- Whatever news came in since the last snapshot, and of whatever document set: when they are applied,
nothing is left pending, and each path has what the last news about it says. A version with the update
time of the one held is no news. The diff has one entry for each path whose version changed. In which order
the paths are gone through makes no difference to all this. -/
theorem ofEdits_materialized (order : DocumentOrder) [order.Lawful] (edits : List Edit)
    (news : List News) (readTime : Option Timestamp) :
    Materialized (ofEdits order edits) news readTime
        ((ofEdits order edits).apply ((ofNews news).against (ofEdits order edits) readTime)).1
        ((ofEdits order edits).apply ((ofNews news).against (ofEdits order edits) readTime)).2 ∧
      (∀ entries : List (Path × PendingChange), entries.Perm (ofNews news).entries →
        (ofEdits order edits).apply (.ofEntries (ofEdits order edits) readTime entries) =
          (ofEdits order edits).apply ((ofNews news).against (ofEdits order edits) readTime)) ∧
      ∀ (w : Worker) (t : Timestamp) (token : Bytes),
        w.documents = ofEdits order edits → w.pending = ofNews news →
          (w.materialize t token).1.pending = .empty ∧
            (readTime = some t → (w.materialize t token).1.documents =
              ((ofEdits order edits).apply
                ((ofNews news).against (ofEdits order edits) readTime)).1) := by
  have hwell := wellFormed_ofEdits order edits
  refine ⟨hwell.materialized news readTime, ?_, ?_⟩
  · intro entries hperm
    exact apply_ofEntries_of_perm hwell (keyed_ofNews news) readTime hperm
  · intro w t token hdocs hpending
    refine ⟨rfl, ?_⟩
    rintro rfl
    rw [← hdocs, ← hpending]
    rfl

/-- At `c/a` comes the version held, under another name, after its end; at `c/b` a later one; the end of
`c/x` is no news. -/
def mixedNews : List News :=
  [.tombstone (.ofString "c/a"), .upsert (versionAt "c/b" 2).document, .upsert (versionAt "c//a/" 3).document,
    .tombstone (.ofString "c/x"), .upsert (versionAt "c/b" 4).document]

theorem ofEdits_materialized_mixedNews :
    let docs := ofEdits newestFirst renewal
    let result := docs.apply ((ofNews mixedNews).against docs none)
    result.1.get? (.ofString "c/a") = docs.get? (.ofString "c/a") ∧
      result.1.get? (.ofString "c/b") = some (versionAt "c/b" 4) ∧
      entriesOf (.ofString "c/b") result.2 = [(.modified, versionAt "c/b" 4)] := by
  intro docs result
  have h := (ofEdits_materialized newestFirst renewal mixedNews none).1
  have hheld : docs.get? (.ofString "c/a") = some (versionAt "/c/a" 3) := rfl
  have hheld' : docs.get? (.ofString "c/b") = some (versionAt "c/b" 2) := rfl
  have hkept : result.1.get? (.ofString "c/a") = some (versionAt "/c/a" 3) :=
    h.kept _ (versionAt "c//a/" 3).document _ rfl hheld rfl
  have hbrought : result.1.get? (.ofString "c/b") = some (versionAt "c/b" 4) := by
    apply h.brought _ (versionAt "c/b" 4).document rfl
    rw [hheld']
    rintro _ ⟨rfl⟩
    decide
  refine ⟨hkept.trans hheld.symm, hbrought, ?_⟩
  rw [h.entries, hheld', hbrought]
  rfl

end DocumentSet

end LiveQuery
