import LiveQuery.Proofs.Placement

namespace LiveQuery.DocumentSet
open Std DocumentOrder

variable {docs : DocumentSet} {d : QueryDocument} {p q : Path}

theorem get?_empty (order : DocumentOrder) (p : Path) : (empty order).get? p = none :=
  TreeMap.getElem?_emptyc

theorem contains_eq_isSome_get? (docs : DocumentSet) (p : Path) :
    docs.contains p = (docs.get? p).isSome := TreeMap.contains_eq_isSome_getElem?

theorem erase_of_get?_eq_none (h : docs.get? p = none) : docs.erase p = docs := by
  unfold erase
  rw [h]

theorem get?_erase (docs : DocumentSet) (p q : Path) :
    (docs.erase p).get? q = if p = q then none else docs.get? q := by
  unfold erase
  split
  · next h =>
    by_cases hpq : p = q
    · rw [if_pos hpq, ← hpq, h]
    · rw [if_neg hpq]
  · change (docs.byPath.erase p)[q]? = _
    rw [TreeMap.getElem?_erase]
    simp only [LawfulEqCmp.compare_eq_iff_eq]
    rfl

theorem get?_insert (docs : DocumentSet) (d : QueryDocument) (q : Path) :
    (docs.insert d).get? q = if d.path = q then some d else docs.get? q := by
  change ((docs.erase d.path).byPath.insert d.path d)[q]? = _
  rw [TreeMap.getElem?_insert]
  simp only [LawfulEqCmp.compare_eq_iff_eq]
  by_cases hq : d.path = q
  · rw [if_pos hq, if_pos hq]
  · rw [if_neg hq, if_neg hq]
    have herase := get?_erase docs d.path q
    rw [if_neg hq] at herase
    exact herase

theorem order_erase (docs : DocumentSet) (p : Path) : (docs.erase p).order = docs.order := by
  unfold erase
  split <;> rfl

theorem order_insert (docs : DocumentSet) (d : QueryDocument) :
    (docs.insert d).order = docs.order := order_erase docs d.path

/-- The sequence is increasing and holds the same documents as the map. -/
structure WellFormed (docs : DocumentSet) : Prop where
  lawful : docs.order.Lawful
  increasing : docs.sorted.Pairwise fun d e => docs.order.compare d e = .lt
  get?_eq_some_iff : ∀ p d, docs.get? p = some d ↔ d ∈ docs.sorted ∧ d.path = p

theorem wellFormed_empty (order : DocumentOrder) [h : order.Lawful] : (empty order).WellFormed where
  lawful := h
  increasing := List.Pairwise.nil
  get?_eq_some_iff p d := by
    rw [get?_empty]
    simp [empty]

namespace WellFormed

theorem nodup (h : docs.WellFormed) : docs.sorted.Nodup := by
  have hlawful := h.lawful
  refine h.increasing.imp ?_
  intro d e hlt heq
  have hself : docs.order.compare e e = .eq := ReflCmp.compare_self
  rw [heq, hself] at hlt
  cases hlt

theorem path_of_get? (h : docs.WellFormed) (hd : docs.get? p = some d) : d.path = p :=
  ((h.get?_eq_some_iff p d).1 hd).2

theorem mem_sorted_iff (h : docs.WellFormed) : d ∈ docs.sorted ↔ docs.get? d.path = some d := by
  rw [h.get?_eq_some_iff]
  simp

theorem mem_paths_iff (h : docs.WellFormed) : p ∈ docs.paths ↔ docs.contains p := by
  rw [contains_eq_isSome_get?, Option.isSome_iff_exists, paths, List.mem_map]
  constructor
  · rintro ⟨d, hd, rfl⟩
    exact ⟨d, h.mem_sorted_iff.1 hd⟩
  · rintro ⟨d, hd⟩
    exact ⟨d, (h.get?_eq_some_iff p d).1 hd⟩

/-- A held document is where `indexOf?` says, and erasing its path takes out that place. -/
theorem indexOf?_of_get? (h : docs.WellFormed) (hd : docs.get? p = some d) :
    ∃ i, docs.indexOf? p = some i ∧ docs.sorted[i]? = some d ∧
      (docs.erase p).sorted = docs.sorted.eraseIdx i := by
  have hlawful := h.lawful
  obtain ⟨hmem, -⟩ := (h.get?_eq_some_iff p d).1 hd
  obtain ⟨i, hi⟩ := List.mem_iff_getElem?.1 hmem
  have hpos : position? docs.order docs.sorted d = some i :=
    (position?_eq_some_iff h.increasing d i).2 ⟨d, hi, ReflCmp.compare_self⟩
  refine ⟨i, ?_, hi, ?_⟩
  · rw [indexOf?, hd, Option.bind_some, hpos]
  · unfold erase
    rw [hd]
    simp only [hpos]

theorem erase (h : docs.WellFormed) (p : Path) : (docs.erase p).WellFormed := by
  cases hd : docs.get? p with
  | none =>
    rw [erase_of_get?_eq_none hd]
    exact h
  | some d =>
    have hlawful := h.lawful
    obtain ⟨i, -, hi, hsorted⟩ := h.indexOf?_of_get? hd
    obtain ⟨hlt, hget⟩ := List.getElem?_eq_some_iff.1 hi
    have hpair := List.pairwise_iff_getElem.1 h.increasing
    refine ⟨by rw [order_erase]; exact hlawful, ?_, ?_⟩
    · rw [order_erase, hsorted]
      exact h.increasing.sublist (List.eraseIdx_sublist _ _)
    · intro q e
      rw [get?_erase, hsorted, List.mem_eraseIdx_iff_getElem?]
      by_cases hpq : p = q
      · subst hpq
        rw [if_pos rfl]
        constructor
        · intro he
          cases he
        · rintro ⟨⟨j, hji, hj⟩, hpath⟩
          -- the documents at `i` and `j` have one path, so they are one document
          have he := (h.get?_eq_some_iff p e).2 ⟨List.mem_of_getElem? hj, hpath⟩
          rw [hd] at he
          cases he
          exact absurd ((List.getElem?_inj hlt h.nodup).1 (hi.trans hj.symm)).symm hji
      · rw [if_neg hpq, h.get?_eq_some_iff, List.mem_iff_getElem?]
        constructor
        · rintro ⟨⟨j, hj⟩, hpath⟩
          refine ⟨⟨j, ?_, hj⟩, hpath⟩
          intro hji
          rw [hji, hi] at hj
          cases hj
          exact hpq ((h.path_of_get? hd).symm.trans hpath)
        · rintro ⟨⟨j, -, hj⟩, hpath⟩
          exact ⟨⟨j, hj⟩, hpath⟩

theorem path_ne_of_mem_erase (h : docs.WellFormed) (hd : d ∈ (docs.erase p).sorted) : d.path ≠ p := by
  intro hpath
  have hget := ((h.erase p).get?_eq_some_iff p d).2 ⟨hd, hpath⟩
  rw [get?_erase, if_pos rfl] at hget
  cases hget

theorem insert (h : docs.WellFormed) (d : QueryDocument) : (docs.insert d).WellFormed := by
  have hrest := h.erase d.path
  have hlawful := hrest.lawful
  obtain ⟨hle, -, -⟩ := insertionPoint_spec hrest.increasing d
  have hnew (e : QueryDocument) (he : e ∈ (docs.erase d.path).sorted) :
      (docs.erase d.path).order.compare e d ≠ .eq := fun heq =>
    h.path_ne_of_mem_erase he (path_eq_of_compare_eq heq)
  have hincreasing := increasing_insertIdx hrest.increasing hnew
  refine ⟨hlawful, hincreasing, ?_⟩
  intro q e
  rw [get?_insert]
  change _ ↔ e ∈ (docs.erase d.path).sorted.insertIdx _ d ∧ e.path = q
  rw [List.mem_insertIdx hle]
  by_cases hq : d.path = q
  · rw [if_pos hq]
    constructor
    · intro he
      cases he
      exact ⟨Or.inl rfl, hq⟩
    · rintro ⟨he | he, hpath⟩
      · rw [he]
      · exact absurd (hpath.trans hq.symm) (h.path_ne_of_mem_erase he)
  · rw [if_neg hq]
    have hget := hrest.get?_eq_some_iff q e
    rw [get?_erase, if_neg hq] at hget
    rw [hget]
    constructor
    · rintro ⟨he, hpath⟩
      exact ⟨Or.inr he, hpath⟩
    · rintro ⟨he | he, hpath⟩
      · exact absurd (he ▸ hpath) hq
      · exact ⟨he, hpath⟩

/-- An added document is where `indexOf?` says, among the documents with other paths. -/
theorem indexOf?_insert (h : docs.WellFormed) (d : QueryDocument) :
    ∃ i, (docs.insert d).indexOf? d.path = some i ∧ i ≤ (docs.erase d.path).sorted.length ∧
      (docs.insert d).sorted = (docs.erase d.path).sorted.insertIdx i d := by
  have hrest := h.erase d.path
  have hnext := h.insert d
  have hlawful := hrest.lawful
  have hlawful' := hnext.lawful
  obtain ⟨hle, -, -⟩ := insertionPoint_spec hrest.increasing d
  refine ⟨_, ?_, hle, rfl⟩
  have hget : (docs.insert d).get? d.path = some d := by rw [get?_insert, if_pos rfl]
  rw [indexOf?, hget, Option.bind_some]
  refine (position?_eq_some_iff hnext.increasing d _).2 ⟨d, ?_, ReflCmp.compare_self⟩
  change ((docs.erase d.path).sorted.insertIdx _ d)[_]? = some d
  rw [List.getElem?_insertIdx_self, if_pos hle]

end WellFormed

end LiveQuery.DocumentSet
