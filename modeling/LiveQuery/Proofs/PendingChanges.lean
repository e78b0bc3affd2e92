import LiveQuery.PendingChanges
import LiveQuery.Proofs.Diff

namespace LiveQuery
open Std

namespace PendingChanges

variable {changes : PendingChanges} {docs : DocumentSet} {p : Path}

/-- The latest news about a path. -/
def latest? (changes : PendingChanges) (p : Path) : Option PendingChange := changes.byPath[p]?

theorem latest?_empty (p : Path) : empty.latest? p = none := TreeMap.getElem?_emptyc

theorem latest?_upsert (changes : PendingChanges) (d : Document) (p : Path) :
    (changes.upsert d).latest? p =
      if Path.ofString d.name = p then some (.upsert d) else changes.latest? p := by
  change (changes.byPath.insert _ _)[p]? = _
  rw [TreeMap.getElem?_insert]
  simp only [LawfulEqCmp.compare_eq_iff_eq]
  rfl

theorem latest?_tombstone (changes : PendingChanges) (q p : Path) :
    (changes.tombstone q).latest? p = if q = p then some .tombstone else changes.latest? p := by
  change (changes.byPath.insert _ _)[p]? = _
  rw [TreeMap.getElem?_insert]
  simp only [LawfulEqCmp.compare_eq_iff_eq]
  rfl

theorem latest?_foldl_tombstone (ps : List Path) (changes : PendingChanges) (p : Path) :
    (ps.foldl tombstone changes).latest? p =
      if p ∈ ps then some .tombstone else changes.latest? p := by
  induction ps generalizing changes with
  | nil => simp
  | cons q ps ih =>
    rw [List.foldl_cons, ih, latest?_tombstone]
    by_cases hp : p ∈ ps
    · rw [if_pos hp, if_pos (List.mem_cons_of_mem _ hp)]
    · by_cases hq : q = p
      · rw [if_neg hp, if_pos hq, if_pos (hq ▸ List.mem_cons_self)]
      · have hnot : p ∉ q :: ps := by
          simp only [List.mem_cons, not_or]
          exact ⟨Ne.symm hq, hp⟩
        rw [if_neg hp, if_neg hq, if_neg hnot]

theorem latest?_foldl_upsert_of_not_mem {ds : List Document}
    (h : p ∉ ds.map fun d => Path.ofString d.name) (changes : PendingChanges) :
    (ds.foldl upsert changes).latest? p = changes.latest? p := by
  induction ds generalizing changes with
  | nil => rfl
  | cons d ds ih =>
    rw [List.map_cons, List.mem_cons, not_or] at h
    rw [List.foldl_cons, ih h.2, latest?_upsert, if_neg (Ne.symm h.1)]

theorem latest?_foldl_upsert_of_mem {ds : List Document}
    (h : p ∈ ds.map fun d => Path.ofString d.name) (changes : PendingChanges) :
    ∃ d, (ds.foldl upsert changes).latest? p = some (.upsert d) := by
  induction ds generalizing changes with
  | nil => cases h
  | cons d ds ih =>
    rw [List.foldl_cons]
    by_cases hds : p ∈ ds.map fun d => Path.ofString d.name
    · exact ih hds (changes.upsert d)
    · have hp : p = Path.ofString d.name := (List.mem_cons.1 h).resolve_right hds
      refine ⟨d, ?_⟩
      rw [latest?_foldl_upsert_of_not_mem hds, latest?_upsert, if_pos hp.symm]

/-- Each document waits under its own path. -/
def Keyed (changes : PendingChanges) : Prop :=
  ∀ p d, changes.latest? p = some (.upsert d) → Path.ofString d.name = p

theorem keyed_empty : empty.Keyed := by
  intro p d h
  rw [latest?_empty] at h
  cases h

theorem Keyed.upsert (h : changes.Keyed) (d : Document) : (changes.upsert d).Keyed := by
  intro p e he
  rw [latest?_upsert] at he
  split at he
  · next hp =>
    cases he
    exact hp
  · exact h p e he

theorem Keyed.foldl_upsert (h : changes.Keyed) (ds : List Document) :
    (ds.foldl PendingChanges.upsert changes).Keyed := by
  induction ds generalizing changes with
  | nil => exact h
  | cons d ds ih => exact ih (h.upsert d)

theorem Keyed.tombstone (h : changes.Keyed) (q : Path) : (changes.tombstone q).Keyed := by
  intro p e he
  rw [latest?_tombstone] at he
  split at he
  · cases he
  · exact h p e he

theorem keyed_foldl_tombstone (ps : List Path) : (ps.foldl PendingChanges.tombstone empty).Keyed := by
  intro p d h
  rw [latest?_foldl_tombstone, latest?_empty] at h
  split at h <;> cases h

theorem mem_entries_iff {c : PendingChange} : (p, c) ∈ changes.entries ↔ changes.latest? p = some c :=
  TreeMap.mem_toList_iff_getElem?_eq_some

end PendingChanges

namespace ChangeSet

variable {docs : DocumentSet} {readTime : Option Timestamp} {d : QueryDocument} {p : Path}

/-- The version that a change takes out of a set. -/
def deleted? (docs : DocumentSet) : Path × PendingChange → Option QueryDocument
  | (p, .tombstone) => docs.get? p
  | (_, .upsert _) => none

/-- The version that a change brings under a path that the set lacks. -/
def added? (docs : DocumentSet) (readTime : Option Timestamp) :
    Path × PendingChange → Option QueryDocument
  | (_, .tombstone) => none
  | (p, .upsert d) => if (docs.get? p).isNone then some ⟨d, readTime⟩ else none

/-- The version that a change brings in the place of an older one. -/
def updated? (docs : DocumentSet) (readTime : Option Timestamp) :
    Path × PendingChange → Option QueryDocument
  | (_, .tombstone) => none
  | (p, .upsert d) =>
    if (docs.get? p).any (!·.sameVersion d) then some ⟨d, readTime⟩ else none

theorem deleted?_eq_some_iff {c : PendingChange} :
    deleted? docs (p, c) = some d ↔ c = .tombstone ∧ docs.get? p = some d := by
  cases c with
  | tombstone => simp [deleted?]
  | upsert e => simp [deleted?]

theorem added?_eq_some_iff {c : PendingChange} : added? docs readTime (p, c) = some d ↔
    ∃ e, c = .upsert e ∧ docs.get? p = none ∧ d = ⟨e, readTime⟩ := by
  cases c with
  | tombstone => simp [added?]
  | upsert e => simp [added?, @eq_comm _ d]

theorem updated?_eq_some_iff {c : PendingChange} : updated? docs readTime (p, c) = some d ↔
    ∃ e held, c = .upsert e ∧ docs.get? p = some held ∧ held.sameVersion e = false ∧
      d = ⟨e, readTime⟩ := by
  cases c with
  | tombstone => simp [updated?]
  | upsert e => cases h : docs.get? p <;> simp [updated?, h, @eq_comm _ d]

theorem record_eq (docs : DocumentSet) (readTime : Option Timestamp) (set : ChangeSet)
    (entry : Path × PendingChange) : record docs readTime set entry =
      ⟨set.deletes ++ (deleted? docs entry).toList, set.adds ++ (added? docs readTime entry).toList,
        set.updates ++ (updated? docs readTime entry).toList⟩ := by
  obtain ⟨p, c⟩ := entry
  cases c with
  | tombstone => cases h : docs.get? p <;> simp [record, deleted?, added?, updated?, h]
  | upsert d =>
    cases h : docs.get? p with
    | none => simp [record, deleted?, added?, updated?, h]
    | some held =>
      cases hv : held.sameVersion d <;> simp [record, deleted?, added?, updated?, h, hv]

theorem foldl_record_eq (docs : DocumentSet) (readTime : Option Timestamp)
    (entries : List (Path × PendingChange)) (set : ChangeSet) :
    entries.foldl (record docs readTime) set =
      ⟨set.deletes ++ entries.filterMap (deleted? docs),
        set.adds ++ entries.filterMap (added? docs readTime),
        set.updates ++ entries.filterMap (updated? docs readTime)⟩ := by
  induction entries generalizing set with
  | nil => simp
  | cons entry entries ih =>
    rw [List.foldl_cons, ih, record_eq]
    cases hd : deleted? docs entry <;> cases ha : added? docs readTime entry <;>
      cases hu : updated? docs readTime entry <;> simp [hd, ha, hu]

theorem ofEntries_eq (docs : DocumentSet) (readTime : Option Timestamp)
    (entries : List (Path × PendingChange)) : ofEntries docs readTime entries =
      ⟨entries.filterMap (deleted? docs), entries.filterMap (added? docs readTime),
        entries.filterMap (updated? docs readTime)⟩ := foldl_record_eq docs readTime entries {}

end ChangeSet

namespace PendingChanges
open ChangeSet

variable {changes : PendingChanges} {docs : DocumentSet} {readTime : Option Timestamp}
  {d : QueryDocument} {p : Path}

theorem against_eq (changes : PendingChanges) (docs : DocumentSet) (readTime : Option Timestamp) :
    changes.against docs readTime =
      ⟨changes.entries.filterMap (deleted? docs), changes.entries.filterMap (added? docs readTime),
        changes.entries.filterMap (updated? docs readTime)⟩ := ofEntries_eq docs readTime _

theorem mem_deletes_iff : d ∈ (changes.against docs readTime).deletes ↔
    ∃ p, changes.latest? p = some .tombstone ∧ docs.get? p = some d := by
  rw [against_eq]
  simp only [List.mem_filterMap, Prod.exists, mem_entries_iff, deleted?_eq_some_iff]
  constructor
  · rintro ⟨p, _, hlatest, rfl, hd⟩
    exact ⟨p, hlatest, hd⟩
  · rintro ⟨p, hlatest, hd⟩
    exact ⟨p, _, hlatest, rfl, hd⟩

theorem mem_adds_iff : d ∈ (changes.against docs readTime).adds ↔
    ∃ p e, changes.latest? p = some (.upsert e) ∧ docs.get? p = none ∧ d = ⟨e, readTime⟩ := by
  rw [against_eq]
  simp only [List.mem_filterMap, Prod.exists, mem_entries_iff, added?_eq_some_iff]
  constructor
  · rintro ⟨p, _, hlatest, e, rfl, hd⟩
    exact ⟨p, e, hlatest, hd⟩
  · rintro ⟨p, e, hlatest, hd⟩
    exact ⟨p, _, hlatest, e, rfl, hd⟩

theorem mem_updates_iff : d ∈ (changes.against docs readTime).updates ↔
    ∃ p e held, changes.latest? p = some (.upsert e) ∧ docs.get? p = some held ∧
      held.sameVersion e = false ∧ d = ⟨e, readTime⟩ := by
  rw [against_eq]
  simp only [List.mem_filterMap, Prod.exists, mem_entries_iff, updated?_eq_some_iff]
  constructor
  · rintro ⟨p, _, hlatest, e, held, rfl, hd⟩
    exact ⟨p, e, held, hlatest, hd⟩
  · rintro ⟨p, e, held, hlatest, hd⟩
    exact ⟨p, _, hlatest, e, held, rfl, hd⟩

theorem nodup_paths_filterMap {f : Path × PendingChange → Option QueryDocument}
    (hf : ∀ p c d, changes.latest? p = some c → f (p, c) = some d → d.path = p) :
    ((changes.entries.filterMap f).map QueryDocument.path).Nodup := by
  have hkeys : changes.entries.Pairwise fun a b => ¬compare a.1 b.1 = .eq := TreeMap.distinct_keys_toList
  rw [List.Nodup, List.pairwise_map, List.pairwise_filterMap]
  refine hkeys.imp_of_mem ?_
  rintro ⟨p, c⟩ ⟨q, c'⟩ hp hq hne d hd e he heq
  rw [mem_entries_iff] at hp hq
  rw [hf p c d hp hd, hf q c' e hq he] at heq
  exact hne (LawfulEqCmp.compare_eq_iff_eq.2 heq)

theorem path_of_mem_adds (hchanges : changes.Keyed)
    (hd : d ∈ (changes.against docs readTime).adds) :
    changes.latest? d.path = some (.upsert d.document) ∧ docs.get? d.path = none := by
  obtain ⟨p, e, hlatest, hnone, rfl⟩ := mem_adds_iff.1 hd
  have hp : QueryDocument.path ⟨e, readTime⟩ = p := hchanges p e hlatest
  rw [hp]
  exact ⟨hlatest, hnone⟩

theorem path_of_mem_updates (hchanges : changes.Keyed)
    (hd : d ∈ (changes.against docs readTime).updates) :
    changes.latest? d.path = some (.upsert d.document) ∧
      ∃ held, docs.get? d.path = some held ∧ held.sameVersion d.document = false := by
  obtain ⟨p, e, held, hlatest, hheld, hv, rfl⟩ := mem_updates_iff.1 hd
  have hp : QueryDocument.path ⟨e, readTime⟩ = p := hchanges p e hlatest
  rw [hp]
  exact ⟨hlatest, held, hheld, hv⟩

theorem path_of_mem_deletes (hdocs : docs.WellFormed)
    (hd : d ∈ (changes.against docs readTime).deletes) :
    changes.latest? d.path = some .tombstone ∧ docs.get? d.path = some d := by
  obtain ⟨p, hlatest, hheld⟩ := mem_deletes_iff.1 hd
  have hp : d.path = p := hdocs.path_of_get? hheld
  rw [hp]
  exact ⟨hlatest, hheld⟩

/-- Pending changes make a change set that can be applied. -/
theorem fits_against (hdocs : docs.WellFormed) (hchanges : changes.Keyed)
    (readTime : Option Timestamp) : (changes.against docs readTime).Fits docs where
  get?_of_mem_deletes d hd := (path_of_mem_deletes hdocs hd).2
  get?_of_mem_adds d hd := (path_of_mem_adds hchanges hd).2
  get?_of_mem_updates d hd := by
    obtain ⟨-, held, hheld, -⟩ := path_of_mem_updates hchanges hd
    exact ⟨held, hheld⟩
  nodup_deletes := by
    rw [against_eq]
    refine nodup_paths_filterMap ?_
    intro p c d _ hd
    exact hdocs.path_of_get? (deleted?_eq_some_iff.1 hd).2
  nodup_adds := by
    rw [against_eq]
    refine nodup_paths_filterMap ?_
    intro p c d hc hd
    obtain ⟨e, rfl, -, rfl⟩ := added?_eq_some_iff.1 hd
    exact hchanges p e hc
  nodup_updates := by
    rw [against_eq]
    refine nodup_paths_filterMap ?_
    intro p c d hc hd
    obtain ⟨e, -, rfl, -, -, rfl⟩ := updated?_eq_some_iff.1 hd
    exact hchanges p e hc
  deletes_ne_updates d hd e he heq := by
    have hdeleted := (path_of_mem_deletes hdocs hd).1
    have hupdated := (path_of_mem_updates hchanges he).1
    rw [heq, hupdated] at hdeleted
    cases hdeleted

theorem not_mem_paths_adds (hchanges : changes.Keyed)
    (h : ∀ e, changes.latest? p = some (.upsert e) → docs.get? p ≠ none) :
    p ∉ (changes.against docs readTime).adds.map QueryDocument.path := by
  intro hp
  obtain ⟨d, hd, rfl⟩ := List.mem_map.1 hp
  obtain ⟨hlatest, hnone⟩ := path_of_mem_adds hchanges hd
  exact h _ hlatest hnone

theorem not_mem_paths_updates (hchanges : changes.Keyed)
    (h : ∀ e held, changes.latest? p = some (.upsert e) → docs.get? p = some held →
      held.sameVersion e) :
    p ∉ (changes.against docs readTime).updates.map QueryDocument.path := by
  intro hp
  obtain ⟨d, hd, rfl⟩ := List.mem_map.1 hp
  obtain ⟨hlatest, held, hheld, hv⟩ := path_of_mem_updates hchanges hd
  exact absurd (h _ held hlatest hheld) (by rw [hv]; decide)

/-- The version held is no update. -/
theorem not_mem_paths_updates_of_sameVersion {e : Document} {held : QueryDocument}
    (hchanges : changes.Keyed) (hlatest : changes.latest? p = some (.upsert e))
    (hheld : docs.get? p = some held) (hv : held.sameVersion e = true) :
    p ∉ (changes.against docs readTime).updates.map QueryDocument.path := by
  refine not_mem_paths_updates hchanges ?_
  intro e' held' he hheld'
  rw [hlatest] at he
  rw [hheld] at hheld'
  cases he
  cases hheld'
  exact hv

theorem not_mem_paths_deletes (hdocs : docs.WellFormed) (h : changes.latest? p ≠ some .tombstone) :
    p ∉ (changes.against docs readTime).deletes.map QueryDocument.path := by
  intro hp
  obtain ⟨d, hd, rfl⟩ := List.mem_map.1 hp
  exact h (path_of_mem_deletes hdocs hd).1

theorem not_mem_paths_deletes_of_get?_eq_none (hdocs : docs.WellFormed) (h : docs.get? p = none) :
    p ∉ (changes.against docs readTime).deletes.map QueryDocument.path := by
  intro hp
  obtain ⟨d, hd, rfl⟩ := List.mem_map.1 hp
  rw [(path_of_mem_deletes hdocs hd).2] at h
  cases h

theorem mem_paths_deletes (hdocs : docs.WellFormed) (hlatest : changes.latest? p = some .tombstone)
    (hd : docs.get? p = some d) : p ∈ (changes.against docs readTime).deletes.map QueryDocument.path :=
  List.mem_map.2 ⟨d, mem_deletes_iff.2 ⟨p, hlatest, hd⟩, hdocs.path_of_get? hd⟩

/-- What applying the pending changes makes of each path. -/
theorem get?_applied_against (hdocs : docs.WellFormed) (hchanges : changes.Keyed)
    (readTime : Option Timestamp) (p : Path) :
    (docs.applied (changes.against docs readTime)).get? p =
      match changes.latest? p, docs.get? p with
      | none, held => held
      | some .tombstone, _ => none
      | some (.upsert d), none => some ⟨d, readTime⟩
      | some (.upsert d), some held => if held.sameVersion d then some held else some ⟨d, readTime⟩ := by
  have hfits := fits_against hdocs hchanges readTime
  cases hlatest : changes.latest? p with
  | none =>
    rw [ChangeSet.Fits.get?_applied_of_not_mem
      (not_mem_paths_adds hchanges (by simp [hlatest]))
      (not_mem_paths_updates hchanges (by simp [hlatest])),
      if_neg (not_mem_paths_deletes hdocs (by simp [hlatest]))]
  | some c =>
    cases c with
    | tombstone =>
      rw [ChangeSet.Fits.get?_applied_of_not_mem
        (not_mem_paths_adds hchanges (by simp [hlatest]))
        (not_mem_paths_updates hchanges (by simp [hlatest]))]
      cases hheld : docs.get? p with
      | none => rw [ite_self]
      | some held => rw [if_pos (mem_paths_deletes hdocs hlatest hheld)]
    | upsert d =>
      have hp : QueryDocument.path ⟨d, readTime⟩ = p := hchanges p d hlatest
      cases hheld : docs.get? p with
      | none =>
        have hadded := hfits.get?_applied_of_mem_adds
          (mem_adds_iff.2 ⟨p, d, hlatest, hheld, rfl⟩)
        rw [hp] at hadded
        exact hadded
      | some held =>
        cases hv : held.sameVersion d with
        | false =>
          have hupdated := hfits.get?_applied_of_mem_updates
            (mem_updates_iff.2 ⟨p, d, held, hlatest, hheld, hv, rfl⟩)
          rw [hp] at hupdated
          simpa [hv] using hupdated
        | true =>
          rw [ChangeSet.Fits.get?_applied_of_not_mem
            (not_mem_paths_adds hchanges (by simp [hheld]))
            (not_mem_paths_updates_of_sameVersion hchanges hlatest hheld hv),
            if_neg (not_mem_paths_deletes hdocs (by simp [hlatest])), hheld]
          simp [hv]

end PendingChanges

end LiveQuery
