import LiveQuery.Proofs.DocumentOrder

namespace LiveQuery
open Std

/-- The parts of a text between slashes, empty ones included. -/
def slashParts (s : String) : List String := (s.split '/').toList.map String.Slice.copy

/-- The non-empty parts of a text between slashes. -/
def slashPieces (s : String) : List String := (slashParts s).filter (· ≠ "")

theorem slashParts_eq (s : String) : slashParts s = (Text.splitAt '/' s.toList).map String.ofList := by
  rw [slashParts, String.toList_split_char, Text.splitAt_eq_splitOn]

theorem slashPieces_eq (s : String) : slashPieces s = (Text.pieces '/' s.toList).map String.ofList := by
  rw [slashPieces, slashParts_eq, List.filter_map, Text.pieces]
  congr 2
  funext part
  cases part <;> simp

theorem map_toList_slashParts (s : String) : (slashParts s).map String.toList = Text.splitAt '/' s.toList := by
  rw [slashParts_eq, List.map_map]
  exact List.map_id'' (fun _ => String.toList_ofList) _

theorem slash_notMem_of_mem_slashParts {s part : String} (h : part ∈ slashParts s) : '/' ∉ part.toList := by
  have hpart : part.toList ∈ Text.splitAt '/' s.toList := by
    rw [← map_toList_slashParts]
    exact List.mem_map_of_mem h
  exact Text.sep_not_mem_of_mem_splitAt hpart

/-- Joined by slashes, the parts of a text are the text. -/
theorem intercalate_slashParts (s : String) : "/".intercalate (slashParts s) = s := by
  rw [← String.toList_inj, String.toList_intercalate, map_toList_slashParts, Text.splitAt_eq_splitOn]
  exact List.intercalate_splitOn '/'

/-- Texts without slash that are joined by slashes come apart again. -/
theorem slashParts_intercalate {parts : List String} (hne : parts ≠ [])
    (h : ∀ part ∈ parts, '/' ∉ part.toList) : slashParts ("/".intercalate parts) = parts := by
  have hsplit := String.toList_split_intercalate h
  rw [if_neg hne] at hsplit
  exact hsplit

/-- A slash parts what stands before it from what stands after. -/
theorem slashParts_append (s t : String) : slashParts (s ++ "/" ++ t) = slashParts s ++ slashParts t := by
  have htext : (s ++ "/" ++ t).toList = s.toList ++ '/' :: t.toList := by
    rw [String.toList_append, String.toList_append, List.append_cons]
    rfl
  simp only [slashParts_eq, Text.splitAt_eq_splitOn]
  rw [htext, List.splitOn_append_cons_self, List.map_append]

theorem slashPieces_append (s t : String) :
    slashPieces (s ++ "/" ++ t) = slashPieces s ++ slashPieces t := by
  simp only [slashPieces, slashParts_append, List.filter_append]

theorem slashPieces_of_isSegment {s : String} (h : IsSegment s) : slashPieces s = [s] := by
  rw [slashPieces, slashParts_eq, Text.splitAt_of_not_mem h.2]
  simp [h.1]

namespace Path

theorem pieces_ofString (s : String) : (ofString s).pieces = slashPieces s := (slashPieces_eq s).symm

theorem text_eq_intercalate (p : Path) : p.text = "/".intercalate p.pieces := by
  rw [text, Text.joinWith_eq_intercalate, ← String.toList_inj, String.toList_ofList,
    String.toList_intercalate]
  rfl

theorem text_inj {p q : Path} : p.text = q.text ↔ p = q := by
  constructor
  · intro h
    rw [← ofString_text p, h, ofString_text]
  · exact congrArg text

theorem segments_of_eq_nil {p : Path} (h : p.pieces = []) : p.segments = [""] := by
  rw [segments, h]
  rfl

theorem segments_of_ne_nil {p : Path} (h : p.pieces ≠ []) : p.segments = p.pieces := by
  rw [segments, if_neg (mt List.isEmpty_iff.1 h)]

/-- The segments of a path are the parts of its text. -/
theorem slashParts_text (p : Path) : slashParts p.text = p.segments := by
  rw [text_eq_intercalate]
  by_cases hnil : p.pieces = []
  · -- the text of the empty path is empty, and that is one part
    rw [segments_of_eq_nil hnil, hnil, String.intercalate_nil, slashParts_eq]
    rfl
  · rw [segments_of_ne_nil hnil]
    exact slashParts_intercalate hnil fun part hpart => (p.isSegment part hpart).2

end Path

/-- A text comes after the empty one. -/
theorem compare_empty_of_ne_empty {s : String} (h : s ≠ "") : compare "" s = .lt := by
  have hlt : "" < s := by
    rw [String.lt_iff]
    cases hs : s.toList with
    | nil => exact absurd (String.toList_inj.1 hs) h
    | cons c cs => exact List.nil_lt_cons c cs
  exact compareOfLessAndEq_eq_lt.2 hlt

/-- A list comes before what it is a proper beginning of. -/
theorem compare_append_cons {α : Type} [Ord α] [ReflOrd α] (xs : List α) (y : α) (ys : List α) :
    compare xs (xs ++ y :: ys) = .lt := by
  induction xs with
  | nil => exact List.compare_nil_cons
  | cons x xs ih =>
    rw [List.cons_append, List.compare_cons_cons, ReflOrd.compare_self, ih]
    rfl

/-- A three-way comparison that is a total order up to `key`: it calls equal only what `key` does not tell
apart. -/
structure OrdersUpTo {α β : Type} (cmp : α → α → Ordering) (key : α → β) : Prop where
  refl : ∀ a, cmp a a = .eq
  swap : ∀ a b, cmp b a = (cmp a b).swap
  trans : ∀ a b c, (cmp a b).isLE → (cmp b c).isLE → (cmp a c).isLE
  total : ∀ a b, (cmp a b).isLE ∨ (cmp b a).isLE
  key_eq : ∀ a b, cmp a b = .eq → key a = key b

theorem OrdersUpTo.of_transCmp {α β : Type} {cmp : α → α → Ordering} [TransCmp cmp] {key : α → β}
    (hkey : ∀ a b, cmp a b = .eq → key a = key b) : OrdersUpTo cmp key where
  refl _ := ReflCmp.compare_self
  swap _ _ := OrientedCmp.eq_swap
  trans _ _ _ := TransCmp.isLE_trans
  total a b := by
    have hswap : cmp b a = (cmp a b).swap := OrientedCmp.eq_swap
    rw [hswap]
    cases cmp a b <;> decide
  key_eq := hkey

namespace Path

/-- Paths order by their segments. -/
theorem compare_eq_compare_segments (p q : Path) : compare p q = compare p.segments q.segments := by
  change compare p.pieces q.pieces = compare p.segments q.segments
  -- the empty path has no piece and an empty segment, and comes first either way
  have hfirst {r : Path} (hr : r.pieces ≠ []) : compare [] r.pieces = compare [""] r.pieces := by
    obtain ⟨part, parts, hparts⟩ := List.exists_cons_of_ne_nil hr
    have hpart := (r.isSegment part (by rw [hparts]; exact List.mem_cons_self)).1
    rw [hparts, List.compare_nil_cons, List.compare_cons_cons, compare_empty_of_ne_empty hpart]
    rfl
  by_cases hp : p.pieces = []
  · rw [segments_of_eq_nil hp, hp]
    by_cases hq : q.pieces = []
    · rw [segments_of_eq_nil hq, hq, ReflOrd.compare_self, ReflOrd.compare_self]
    · rw [segments_of_ne_nil hq, hfirst hq]
  · rw [segments_of_ne_nil hp]
    by_cases hq : q.pieces = []
    · rw [segments_of_eq_nil hq, hq, OrientedOrd.eq_swap, hfirst hp, ← OrientedOrd.eq_swap]
    · rw [segments_of_ne_nil hq]

theorem compare_eq_lt_of_prefix {p q : Path} (h : p.pieces <+: q.pieces) (hne : p ≠ q) :
    compare p q = .lt := by
  change compare p.pieces q.pieces = .lt
  obtain ⟨rest, hrest⟩ := h
  cases rest with
  | nil =>
    rw [List.append_nil] at hrest
    exact absurd (ext hrest) hne
  | cons piece rest =>
    rw [← hrest]
    exact compare_append_cons p.pieces piece rest

/-- A path that has the non-empty pieces of a text as its segments, or one empty segment without any; its
own text splits into them and names it. -/
structure Normalizes (p : Path) (s : String) : Prop where
  segments_eq : p.segments = if slashPieces s = [] then [""] else slashPieces s
  segments_text : slashParts p.text = p.segments
  ofString_text : ofString p.text = p

theorem normalizes_ofString (s : String) : (ofString s).Normalizes s where
  segments_eq := by simp only [segments, pieces_ofString, List.isEmpty_iff]
  segments_text := slashParts_text _
  ofString_text := ofString_text _

theorem ofString_eq_iff (s t : String) : ofString s = ofString t ↔ slashPieces s = slashPieces t := by
  rw [← pieces_ofString, ← pieces_ofString]
  exact ⟨congrArg pieces, ext⟩

/-- Paths are told apart by their non-empty pieces alone, and order by them: totally, consistently with
equality, and each before what extends it. So a total preorder of documents that breaks its ties by path is a
total order up to path. -/
theorem order_consistent (order : DocumentOrder) [order.Lawful] :
    (∀ s, (ofString s).Normalizes s) ∧
      (∀ s t, (ofString s).text = (ofString t).text ↔ slashPieces s = slashPieces t) ∧
      (∀ p q : Path, p.text = q.text ↔ p = q) ∧
      (∀ p q : Path, compare p q = compare (slashParts p.text) (slashParts q.text)) ∧
      OrdersUpTo (compare : Path → Path → Ordering) id ∧
      (∀ p q : Path, p.pieces <+: q.pieces → p ≠ q → compare p q = .lt) ∧
      OrdersUpTo order.compare QueryDocument.path := by
  refine ⟨normalizes_ofString, ?_, fun p q => text_inj, ?_, ?_, ?_, ?_⟩
  · intro s t
    rw [text_inj, ofString_eq_iff]
  · intro p q
    rw [slashParts_text, slashParts_text, compare_eq_compare_segments]
  · exact OrdersUpTo.of_transCmp fun _ _ => LawfulEqOrd.eq_of_compare
  · intro p q
    exact compare_eq_lt_of_prefix
  · exact OrdersUpTo.of_transCmp fun _ _ => DocumentOrder.path_eq_of_compare_eq

/-- A room comes before its messages, whatever slashes its name has. -/
theorem order_consistent_room :
    let room := ofString "/rooms//a-b/"
    let sent := ofString "rooms/a-b/msgs/m1"
    room.text = (ofString "rooms/a-b").text ∧ room.pieces <+: sent.pieces ∧ room ≠ sent ∧
      compare room sent = .lt ∧
      OrdersUpTo (DocumentOrder.ofKeys [⟨.int "rank", true⟩]).compare QueryDocument.path := by
  intro room sent
  obtain ⟨-, htext, -, -, -, hbefore, horders⟩ :=
    order_consistent (.ofKeys [⟨.int "rank", true⟩])
  have hpieces : slashPieces "/rooms//a-b/" = slashPieces "rooms/a-b" := by
    rw [slashPieces_eq, slashPieces_eq]
    decide +kernel
  have hprefix : room.pieces <+: sent.pieces := ⟨["msgs", "m1"], by decide +kernel⟩
  have hne : room ≠ sent := by decide +kernel
  exact ⟨(htext _ _).2 hpieces, hprefix, hne, hbefore room sent hprefix hne, horders⟩

end Path

end LiveQuery
