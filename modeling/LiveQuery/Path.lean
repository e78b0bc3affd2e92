import Std.Data.TreeMap
import LiveQuery.Text.Pieces

namespace LiveQuery

/-- A part of a path: non-empty and without a slash. -/
def IsSegment (s : String) : Prop := s ≠ "" ∧ '/' ∉ s.toList

instance (s : String) : Decidable (IsSegment s) := inferInstanceAs (Decidable (_ ∧ _))

/-- Slash-separated resource name of a document, without leading, trailing or repeated slashes. -/
structure Path where
  pieces : List String
  isSegment : ∀ p ∈ pieces, IsSegment p
  deriving DecidableEq

namespace Path

def ofString (s : String) : Path where
  pieces := (Text.pieces '/' s.toList).map String.ofList
  isSegment := by
    intro p hp
    obtain ⟨q, hq, rfl⟩ := List.mem_map.1 hp
    refine ⟨?_, by simpa using Text.sep_not_mem_of_mem_pieces hq⟩
    simpa [String.ext_iff] using Text.ne_nil_of_mem_pieces hq

def text (p : Path) : String := String.ofList (Text.joinWith '/' (p.pieces.map String.toList))

/-- The empty path has one empty segment. -/
def segments (p : Path) : List String := if p.pieces.isEmpty then [""] else p.pieces

/-- The identifier of the document within its collection. -/
def lastSegment (p : Path) : String := p.pieces.getLast?.getD ""

/-- The path of `relative` among the documents of `database`. -/
def resolve (database relative : String) : Path := ofString (database ++ "/documents/" ++ relative)

theorem ext {p q : Path} (h : p.pieces = q.pieces) : p = q := by
  cases p; cases q; simp_all

/-- The text of a path names it. -/
theorem ofString_text (p : Path) : ofString p.text = p := by
  have hpieces : Text.pieces '/' (Text.joinWith '/' (p.pieces.map String.toList)) =
      p.pieces.map String.toList := by
    refine Text.pieces_joinWith fun part hpart => ?_
    obtain ⟨piece, hpiece, rfl⟩ := List.mem_map.1 hpart
    obtain ⟨hne, hslash⟩ := p.isSegment piece hpiece
    exact ⟨fun hnil => hne (String.toList_inj.1 hnil), hslash⟩
  refine ext ?_
  change (Text.pieces '/' p.text.toList).map String.ofList = p.pieces
  rw [text, String.toList_ofList, hpieces, List.map_map]
  exact List.map_id'' (fun _ => String.ofList_toList) p.pieces

/-- Paths order piece by piece, so `a/b` comes before `a-c`. -/
instance : Ord Path where
  compare p q := compare p.pieces q.pieces

instance : Std.TransOrd Path where
  eq_swap {p q} := Std.OrientedOrd.eq_swap (a := p.pieces) (b := q.pieces)
  isLE_trans {p q r} := Std.TransOrd.isLE_trans (a := p.pieces) (b := q.pieces) (c := r.pieces)

instance : Std.LawfulEqOrd Path where
  eq_of_compare {p q} h := ext (Std.LawfulEqOrd.eq_of_compare (a := p.pieces) (b := q.pieces) h)

/-- The text shown in diagnostics. -/
def debugText (p : Path) : String := "DocumentPath(" ++ p.text ++ ")"

end Path

end LiveQuery
