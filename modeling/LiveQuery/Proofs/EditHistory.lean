import Mathlib.Data.Set.Card
import LiveQuery.Proofs.DocumentSet

namespace LiveQuery
open Std

/-- A document put into a set, or a path taken out of it. -/
inductive Edit where
  | insert (document : QueryDocument)
  | erase (path : Path)

/-- What an edit makes of a map from paths to documents. -/
def Edit.update (held : Path → Option QueryDocument) : Edit → Path → Option QueryDocument
  | .insert d => Function.update held d.path (some d)
  | .erase p => Function.update held p none

/-- The map that edits leave, from none held: the last edit of a path counts. -/
def Edit.contents (edits : List Edit) : Path → Option QueryDocument :=
  edits.foldl update fun _ => none

namespace DocumentSet

variable {docs docs' : DocumentSet} {d : QueryDocument} {p : Path} {order : DocumentOrder}

def edit (docs : DocumentSet) : Edit → DocumentSet
  | .insert d => docs.insert d
  | .erase p => docs.erase p

def ofEdits (order : DocumentOrder) (edits : List Edit) : DocumentSet := edits.foldl edit (empty order)

theorem get?_edit (docs : DocumentSet) (e : Edit) : (docs.edit e).get? = e.update docs.get? := by
  funext q
  cases e with
  | insert d =>
    change (docs.insert d).get? q = Function.update docs.get? d.path (some d) q
    rw [get?_insert, Function.update_apply]
    simp only [eq_comm]
  | erase p =>
    change (docs.erase p).get? q = Function.update docs.get? p none q
    rw [get?_erase, Function.update_apply]
    simp only [eq_comm]

theorem order_edit (docs : DocumentSet) (e : Edit) : (docs.edit e).order = docs.order := by
  cases e with
  | insert d => exact order_insert docs d
  | erase p => exact order_erase docs p

theorem WellFormed.edit (h : docs.WellFormed) (e : Edit) : (docs.edit e).WellFormed := by
  cases e with
  | insert d => exact h.insert d
  | erase p => exact h.erase p

theorem get?_ofEdits (order : DocumentOrder) (edits : List Edit) :
    (ofEdits order edits).get? = Edit.contents edits := by
  have hfold (docs : DocumentSet) : (edits.foldl DocumentSet.edit docs).get? =
      edits.foldl Edit.update docs.get? := by
    induction edits generalizing docs with
    | nil => rfl
    | cons e edits ih => rw [List.foldl_cons, List.foldl_cons, ih, get?_edit]
  have hempty : (empty order).get? = fun _ => none := funext (get?_empty order)
  rw [ofEdits, hfold, hempty]
  rfl

theorem order_ofEdits (order : DocumentOrder) (edits : List Edit) :
    (ofEdits order edits).order = order := by
  have hfold (docs : DocumentSet) : (edits.foldl DocumentSet.edit docs).order = docs.order := by
    induction edits generalizing docs with
    | nil => rfl
    | cons e edits ih => rw [List.foldl_cons, ih, order_edit]
  exact hfold (empty order)

theorem wellFormed_ofEdits (order : DocumentOrder) [order.Lawful] (edits : List Edit) :
    (ofEdits order edits).WellFormed := by
  have hfold (docs : DocumentSet) (h : docs.WellFormed) :
      (edits.foldl DocumentSet.edit docs).WellFormed := by
    induction edits generalizing docs with
    | nil => exact h
    | cons e edits ih => exact ih (docs.edit e) (h.edit e)
  exact hfold (empty order) (wellFormed_empty order)

/-- A document set that is a map and shows it in sort order. -/
structure Represents (docs : DocumentSet) (held : Path → Option QueryDocument) : Prop where
  byPath : ∀ p, docs.byPath[p]? = held p
  path_eq : ∀ p d, held p = some d → d.path = p
  increasing : docs.sorted.Pairwise fun d e => docs.order.compare d e = .lt
  nodup : docs.sorted.Nodup
  perm : docs.sorted.Perm (docs.byPath.toList.map Prod.snd)
  get? : ∀ p, docs.get? p = held p
  contains : ∀ p, docs.contains p = (held p).isSome
  size : {p | held p ≠ none}.encard = docs.size
  isEmpty : docs.isEmpty = true ↔ ∀ p, held p = none
  indexOf?_eq_some_iff : ∀ p i, docs.indexOf? p = some i ↔ ∃ d, docs.at? i = some d ∧ d.path = p
  indexOf?_eq_none_iff : ∀ p, docs.indexOf? p = none ↔ held p = none
  erase_of_eq_none : ∀ p, held p = none → docs.erase p = docs

namespace WellFormed

theorem path_injOn (h : docs.WellFormed) {e : QueryDocument} (hd : d ∈ docs.sorted)
    (he : e ∈ docs.sorted) (hpath : d.path = e.path) : d = e := by
  have hget := h.mem_sorted_iff.1 hd
  rw [hpath, h.mem_sorted_iff.1 he] at hget
  exact (Option.some.inj hget).symm

theorem nodup_paths (h : docs.WellFormed) : docs.paths.Nodup := by
  have hpaths := List.Nodup.map_on (fun d hd e he => h.path_injOn hd he) h.nodup
  exact hpaths

theorem perm_toList (h : docs.WellFormed) :
    docs.sorted.Perm (docs.byPath.toList.map Prod.snd) := by
  have hmem (q : Path) (d : QueryDocument) : (q, d) ∈ docs.byPath.toList ↔ docs.get? q = some d :=
    TreeMap.mem_toList_iff_getElem?_eq_some
  have hnodup : (docs.byPath.toList.map Prod.snd).Nodup := by
    have hkeys : docs.byPath.toList.Pairwise fun a b => ¬compare a.1 b.1 = .eq :=
      TreeMap.distinct_keys_toList
    rw [List.Nodup, List.pairwise_map]
    refine hkeys.imp_of_mem ?_
    rintro ⟨p, d⟩ ⟨q, e⟩ hd he hne heq
    -- one document under two keys would have two paths
    have hp := h.path_of_get? ((hmem p d).1 hd)
    have hq := h.path_of_get? ((hmem q e).1 he)
    have hpq : p = q := by rw [← hp, ← hq, show d = e from heq]
    exact hne (LawfulEqCmp.compare_eq_iff_eq.2 hpq)
  rw [List.perm_ext_iff_of_nodup h.nodup hnodup]
  intro d
  rw [List.mem_map]
  constructor
  · intro hd
    exact ⟨(d.path, d), (hmem d.path d).2 (h.mem_sorted_iff.1 hd), rfl⟩
  · rintro ⟨⟨q, e⟩, he, rfl⟩
    exact ((h.get?_eq_some_iff q e).1 ((hmem q e).1 he)).1

theorem encard_eq_size (h : docs.WellFormed) : {p | docs.get? p ≠ none}.encard = docs.size := by
  have hset : {p | docs.get? p ≠ none} = (docs.paths.toFinset : Set Path) := by
    ext p
    rw [List.coe_toFinset, Set.mem_ofPred_eq, Set.mem_ofPred_eq, h.mem_paths_iff,
      contains_eq_isSome_get?, Option.isSome_iff_ne_none]
  rw [hset, Set.encard_coe_eq_coe_finsetCard, List.toFinset_card_of_nodup h.nodup_paths, paths,
    List.length_map]
  rfl

theorem isEmpty_iff (h : docs.WellFormed) : docs.isEmpty = true ↔ ∀ p, docs.get? p = none := by
  rw [isEmpty, List.isEmpty_iff]
  constructor
  · intro hnil p
    cases hd : docs.get? p with
    | none => rfl
    | some d =>
      have hmem := ((h.get?_eq_some_iff p d).1 hd).1
      rw [hnil] at hmem
      cases hmem
  · intro hnone
    rw [List.eq_nil_iff_forall_not_mem]
    intro d hd
    have hget := h.mem_sorted_iff.1 hd
    rw [hnone d.path] at hget
    cases hget

theorem indexOf?_eq_none_iff (h : docs.WellFormed) : docs.indexOf? p = none ↔ docs.get? p = none := by
  constructor
  · intro hindex
    cases hd : docs.get? p with
    | none => rfl
    | some d =>
      obtain ⟨i, hi, -⟩ := h.indexOf?_of_get? hd
      rw [hindex] at hi
      cases hi
  · intro hd
    rw [indexOf?, hd]
    rfl

theorem indexOf?_eq_some_iff (h : docs.WellFormed) (i : Nat) :
    docs.indexOf? p = some i ↔ ∃ d, docs.at? i = some d ∧ d.path = p := by
  constructor
  · intro hindex
    cases hd : docs.get? p with
    | none =>
      rw [h.indexOf?_eq_none_iff.2 hd] at hindex
      cases hindex
    | some d =>
      obtain ⟨j, hj, hat, -⟩ := h.indexOf?_of_get? hd
      rw [hindex] at hj
      cases hj
      exact ⟨d, hat, h.path_of_get? hd⟩
  · rintro ⟨d, hat, rfl⟩
    have hd := h.mem_sorted_iff.1 (List.mem_of_getElem? hat)
    obtain ⟨j, hj, hat', -⟩ := h.indexOf?_of_get? hd
    -- no document stands at two places
    have hlt := (List.getElem?_eq_some_iff.1 hat).1
    have hij : i = j := (List.getElem?_inj hlt h.nodup).1 (hat.trans hat'.symm)
    rw [hij, hj]

theorem represents (h : docs.WellFormed) : docs.Represents docs.get? where
  byPath _ := rfl
  path_eq _ _ hd := h.path_of_get? hd
  increasing := h.increasing
  nodup := h.nodup
  perm := h.perm_toList
  get? _ := rfl
  contains := contains_eq_isSome_get? docs
  size := h.encard_eq_size
  isEmpty := h.isEmpty_iff
  indexOf?_eq_some_iff _ := h.indexOf?_eq_some_iff
  indexOf?_eq_none_iff _ := h.indexOf?_eq_none_iff
  erase_of_eq_none _ := erase_of_get?_eq_none

/-- The documents held determine their sequence. -/
theorem sorted_eq (h : docs.WellFormed) (h' : docs'.WellFormed) (horder : docs.order = docs'.order)
    (hget : docs.get? = docs'.get?) : docs.sorted = docs'.sorted := by
  have hlawful := h.lawful
  have hperm : docs.sorted.Perm docs'.sorted := by
    rw [List.perm_ext_iff_of_nodup h.nodup h'.nodup]
    intro d
    rw [h.mem_sorted_iff, h'.mem_sorted_iff, hget]
  have hincreasing := h'.increasing
  rw [← horder] at hincreasing
  refine List.Perm.eq_of_pairwise ?_ h.increasing hincreasing hperm
  intro d e _ _ hlt hgt
  have hgt' := OrientedCmp.gt_of_lt hgt
  rw [hlt] at hgt'
  cases hgt'

theorem indexOf?_eq (h : docs.WellFormed) (h' : docs'.WellFormed) (horder : docs.order = docs'.order)
    (hget : docs.get? = docs'.get?) (p : Path) : docs.indexOf? p = docs'.indexOf? p := by
  rw [indexOf?, indexOf?, hget, horder, h.sorted_eq h' horder hget]

end WellFormed

/-- However a document set came about, it is the map that its edits leave, and shows it in sort order:
strictly increasing, each document once and where `indexOf?` says. Two histories that leave one map show
it in one sequence. -/
theorem ofEdits_represents (order : DocumentOrder) [order.Lawful] (edits : List Edit) :
    (ofEdits order edits).order = order ∧
      (ofEdits order edits).Represents (Edit.contents edits) ∧
      ∀ edits', Edit.contents edits' = Edit.contents edits →
        (ofEdits order edits').sorted = (ofEdits order edits).sorted ∧
          ∀ p, (ofEdits order edits').indexOf? p = (ofEdits order edits).indexOf? p := by
  have hwell := wellFormed_ofEdits order edits
  refine ⟨order_ofEdits order edits, ?_, ?_⟩
  · rw [← get?_ofEdits order edits]
    exact hwell.represents
  · intro edits' hsame
    have hwell' := wellFormed_ofEdits order edits'
    have horder : (ofEdits order edits').order = (ofEdits order edits).order := by
      rw [order_ofEdits, order_ofEdits]
    have hget : (ofEdits order edits').get? = (ofEdits order edits).get? := by
      rw [get?_ofEdits, get?_ofEdits, hsame]
    exact ⟨hwell'.sorted_eq hwell horder hget, hwell'.indexOf?_eq hwell horder hget⟩

/-- The document at `c/a` comes back in a newer version, under a name with a further slash. -/
def renewal : List Edit :=
  [.insert (versionAt "c/a" 1), .insert (versionAt "c/b" 2), .insert (versionAt "/c/a" 3)]

/-- A document that comes back in a newer version changes its place, and the set is the one that never
held the older version. -/
theorem ofEdits_newestFirst :
    (ofEdits newestFirst renewal).Represents (Edit.contents renewal) ∧
      (ofEdits newestFirst renewal.tail).sorted = (ofEdits newestFirst renewal).sorted := by
  obtain ⟨-, hrepresents, hsame⟩ := ofEdits_represents newestFirst renewal
  refine ⟨hrepresents, (hsame renewal.tail ?_).1⟩
  have hpath : (versionAt "/c/a" 3).path = (versionAt "c/a" 1).path := by decide +kernel
  funext p
  simp only [renewal, List.tail_cons, Edit.contents, List.foldl_cons, List.foldl_nil, Edit.update, hpath,
    Function.update_apply]
  split_ifs <;> rfl

end DocumentSet

end LiveQuery
