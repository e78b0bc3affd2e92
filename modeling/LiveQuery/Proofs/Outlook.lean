import LiveQuery.Proofs.EditHistory
import LiveQuery.Proofs.PendingChanges

namespace LiveQuery

namespace DocumentSet

variable {docs docs' : DocumentSet} {d : QueryDocument} {p : Path} {ds : List QueryDocument}

theorem WellFormed.size_erase (h : docs.WellFormed) (hd : docs.get? p = some d) :
    (docs.erase p).size + 1 = docs.size := by
  obtain ⟨i, -, hi, hsorted⟩ := h.indexOf?_of_get? hd
  have hlt : i < docs.sorted.length := (List.getElem?_eq_some_iff.1 hi).1
  rw [size, size, hsorted, List.length_eraseIdx_of_lt hlt]
  omega

theorem WellFormed.size_insert (h : docs.WellFormed) (d : QueryDocument) :
    (docs.insert d).size = (docs.erase d.path).size + 1 := by
  obtain ⟨i, -, hle, hsorted⟩ := h.indexOf?_insert d
  rw [size, size, hsorted, List.length_insertIdx_of_le_length hle]

theorem Deletable.size_eraseAll (h : docs.Deletable ds) :
    (docs.eraseAll ds).size + ds.length = docs.size := by
  induction ds generalizing docs with
  | nil => rfl
  | cons d ds ih =>
    have hone := h.1.size_erase (h.2.1 d List.mem_cons_self)
    have hrest : ((docs.erase d.path).eraseAll ds).size + ds.length = (docs.erase d.path).size := ih h.step
    change ((docs.erase d.path).eraseAll ds).size + (ds.length + 1) = docs.size
    omega

theorem Addable.size_insertAll (h : docs.Addable ds) :
    (docs.insertAll ds).size = docs.size + ds.length := by
  induction ds generalizing docs with
  | nil => rfl
  | cons d ds ih =>
    have hone := h.1.size_insert d
    rw [erase_of_get?_eq_none (h.2.1 d List.mem_cons_self)] at hone
    have hrest : ((docs.insert d).insertAll ds).size = (docs.insert d).size + ds.length := ih h.step
    change ((docs.insert d).insertAll ds).size = docs.size + (ds.length + 1)
    omega

theorem Updatable.size_insertAll (h : docs.Updatable ds) : (docs.insertAll ds).size = docs.size := by
  induction ds generalizing docs with
  | nil => rfl
  | cons d ds ih =>
    obtain ⟨e, he⟩ := h.2 d List.mem_cons_self
    have hout := h.1.size_erase he
    have hin := h.1.size_insert d
    have hrest : ((docs.insert d).insertAll ds).size = (docs.insert d).size := ih h.step
    change ((docs.insert d).insertAll ds).size = docs.size
    omega

/-- Sets that hold the same paths are of one size. -/
theorem WellFormed.size_eq (h : docs.WellFormed) (h' : docs'.WellFormed)
    (hpaths : ∀ p, docs'.get? p = none ↔ docs.get? p = none) : docs'.size = docs.size := by
  have hset : {p | docs'.get? p ≠ none} = {p | docs.get? p ≠ none} := by
    ext p
    exact not_congr (hpaths p)
  have hcard := h'.encard_eq_size
  rw [hset, h.encard_eq_size] at hcard
  exact_mod_cast hcard.symm

end DocumentSet

theorem ChangeSet.Fits.size_applied {docs : DocumentSet} {set : ChangeSet} (hdocs : docs.WellFormed)
    (h : set.Fits docs) :
    (docs.applied set).size + set.deletes.length = docs.size + set.adds.length := by
  have hdeletable := h.deletable hdocs
  have haddable := h.addable (hdeletable.phase_replays []).1
  have hupdatable := h.updatable (haddable.phase_replays []).1
  have hdeleted := hdeletable.size_eraseAll
  have hadded := haddable.size_insertAll
  have hupdated := hupdatable.size_insertAll
  simp only [(DocumentSet.sortDocuments_perm _ _).length_eq] at hdeleted hadded
  rw [DocumentSet.applied]
  omega

namespace PendingChanges

variable {changes changes' : PendingChanges} {docs docs' : DocumentSet}

theorem length_deletes_against (changes : PendingChanges) (docs : DocumentSet)
    (readTime : Option Timestamp) :
    (changes.against docs readTime).deletes.length = changes.entries.countP (isDeletion docs) := by
  rw [against_eq, List.length_filterMap_eq_countP]
  apply List.countP_congr
  rintro ⟨p, c⟩ -
  cases c with
  | tombstone => simp [ChangeSet.deleted?, isDeletion, DocumentSet.contains_eq_isSome_get?]
  | upsert d => simp [ChangeSet.deleted?, isDeletion]

theorem length_adds_against (changes : PendingChanges) (docs : DocumentSet)
    (readTime : Option Timestamp) :
    (changes.against docs readTime).adds.length = changes.entries.countP (isAddition docs) := by
  rw [against_eq, List.length_filterMap_eq_countP]
  apply List.countP_congr
  rintro ⟨p, c⟩ -
  cases c with
  | tombstone => simp [ChangeSet.added?, isAddition]
  | upsert d =>
    cases h : docs.get? p <;>
      simp [ChangeSet.added?, isAddition, DocumentSet.contains_eq_isSome_get?, h]

/-- The projected size is the size that the set has once the changes are applied. -/
theorem projectedSize_eq (hdocs : docs.WellFormed) (hchanges : changes.Keyed)
    (readTime : Option Timestamp) :
    changes.projectedSize docs = (docs.applied (changes.against docs readTime)).size := by
  have hsize := (fits_against hdocs hchanges readTime).size_applied hdocs
  rw [length_deletes_against, length_adds_against] at hsize
  rw [projectedSize]
  omega

/-- The update time that a path has once the changes are applied, if the set holds it then. -/
def outlook (changes : PendingChanges) (docs : DocumentSet) (p : Path) : Option (Option Timestamp) :=
  match changes.latest? p with
  | none => (docs.get? p).map QueryDocument.updateTime
  | some .tombstone => none
  | some (.upsert d) => some d.updateTime

theorem outlook_empty (docs : DocumentSet) (p : Path) :
    empty.outlook docs p = (docs.get? p).map QueryDocument.updateTime := by
  rw [outlook, latest?_empty]

theorem outlook_upsert (changes : PendingChanges) (docs : DocumentSet) (d : Document) (p : Path) :
    (changes.upsert d).outlook docs p =
      if Path.ofString d.name = p then some d.updateTime else changes.outlook docs p := by
  rw [outlook, latest?_upsert]
  by_cases hp : Path.ofString d.name = p
  · rw [if_pos hp, if_pos hp]
  · rw [if_neg hp, if_neg hp]
    rfl

theorem outlook_tombstone (changes : PendingChanges) (docs : DocumentSet) (q p : Path) :
    (changes.tombstone q).outlook docs p = if q = p then none else changes.outlook docs p := by
  rw [outlook, latest?_tombstone]
  by_cases hp : q = p
  · rw [if_pos hp, if_pos hp]
  · rw [if_neg hp, if_neg hp]
    rfl

/-- Once everything held is to be deleted, there is nothing in prospect. -/
theorem outlook_foldl_tombstone_paths (hdocs : docs.WellFormed) (p : Path) :
    (docs.paths.foldl tombstone empty).outlook docs p = none := by
  rw [outlook, latest?_foldl_tombstone]
  by_cases hp : p ∈ docs.paths
  · rw [if_pos hp]
  · rw [if_neg hp, latest?_empty]
    rw [hdocs.mem_paths_iff, DocumentSet.contains_eq_isSome_get?, Bool.not_eq_true,
      Option.isSome_eq_false_iff, Option.isNone_iff_eq_none] at hp
    rw [hp]
    rfl

/-- What is in prospect is what applying the changes brings about. A version that is dropped because its
update time is held already makes no difference to this. -/
theorem map_updateTime_applied (hdocs : docs.WellFormed) (hchanges : changes.Keyed)
    (readTime : Option Timestamp) (p : Path) :
    ((docs.applied (changes.against docs readTime)).get? p).map QueryDocument.updateTime =
      changes.outlook docs p := by
  rw [get?_applied_against hdocs hchanges, outlook]
  cases changes.latest? p with
  | none => rfl
  | some c =>
    cases c with
    | tombstone => rfl
    | upsert d =>
      cases docs.get? p with
      | none => rfl
      | some held =>
        simp only
        split
        · next hsame =>
          have htime : held.updateTime = d.updateTime := by
            simpa [QueryDocument.sameVersion] using hsame
          exact congrArg some htime
        · rfl

/-- The projected size depends on nothing but what is in prospect. -/
theorem projectedSize_eq_of_outlook_eq (hdocs : docs.WellFormed) (hchanges : changes.Keyed)
    (hdocs' : docs'.WellFormed) (hchanges' : changes'.Keyed)
    (houtlook : ∀ p, changes'.outlook docs' p = changes.outlook docs p) :
    changes'.projectedSize docs' = changes.projectedSize docs := by
  have happlied := ((fits_against hdocs hchanges none).apply_replays hdocs).1
  have happlied' := ((fits_against hdocs' hchanges' none).apply_replays hdocs').1
  rw [projectedSize_eq hdocs hchanges none, projectedSize_eq hdocs' hchanges' none]
  apply happlied.size_eq happlied'
  intro p
  have heq := houtlook p
  rw [← map_updateTime_applied hdocs hchanges none, ← map_updateTime_applied hdocs' hchanges' none] at heq
  rw [← Option.map_eq_none_iff, heq, Option.map_eq_none_iff]

end PendingChanges

end LiveQuery
