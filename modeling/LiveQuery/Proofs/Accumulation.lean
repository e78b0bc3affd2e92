import LiveQuery.Proofs.Materialization
import LiveQuery.Proofs.Outlook

namespace LiveQuery

/-- What befalls the pending changes: news comes in, or all of them are dropped. -/
inductive Turn where
  | note (news : News)
  | clear

namespace Turn

def carry (news : List News) : Turn → List News
  | note n => news ++ [n]
  | clear => []

/-- The news that came in after the last clearing. -/
def standing (turns : List Turn) : List News := turns.foldl carry []

end Turn

namespace PendingChanges

def turn (changes : PendingChanges) : Turn → PendingChanges
  | .note n => changes.note n
  | .clear => empty

/-- The changes that wait after some turns, from none. -/
def ofTurns (turns : List Turn) : PendingChanges := turns.foldl turn empty

/-- Nothing that came before a clearing has any effect. -/
theorem ofTurns_eq (turns : List Turn) : ofTurns turns = ofNews (Turn.standing turns) := by
  induction turns using List.reverseRecOn with
  | nil => rfl
  | append_singleton turns turn ih =>
    have hturns : ofTurns (turns ++ [turn]) = (ofTurns turns).turn turn := List.foldl_concat ..
    have hnews : Turn.standing (turns ++ [turn]) = Turn.carry (Turn.standing turns) turn :=
      List.foldl_concat ..
    rw [hturns, hnews, ih]
    cases turn with
    | note n => exact (ofNews_snoc _ n).symm
    | clear => rfl

theorem keyed_ofTurns (turns : List Turn) : (ofTurns turns).Keyed := by
  rw [ofTurns_eq]
  exact keyed_ofNews _

theorem countP_isDeletion_le {changes : PendingChanges} {docs : DocumentSet} (hdocs : docs.WellFormed)
    (hchanges : changes.Keyed) : changes.entries.countP (isDeletion docs) ≤ docs.size := by
  have hsize := ((fits_against hdocs hchanges none).deletable hdocs).size_eraseAll
  rw [(DocumentSet.sortDocuments_perm _ _).length_eq, length_deletes_against] at hsize
  omega

end PendingChanges

namespace DocumentSet
open PendingChanges

/-- Whatever set and whatever changes are pending, the projected size is the size of the set that they
lead to, in whatever order they are taken and at whatever read time. No more paths are counted off than
the set holds, so nothing is lost in the subtraction. -/
theorem projectedSize_ofTurns (order : DocumentOrder) [order.Lawful] (edits : List Edit)
    (turns : List Turn) :
    (ofTurns turns).entries.countP (isDeletion (ofEdits order edits)) ≤ (ofEdits order edits).size ∧
      ∀ (readTime : Option Timestamp) (entries : List (Path × PendingChange)),
        entries.Perm (ofTurns turns).entries →
          ((ofEdits order edits).apply (.ofEntries (ofEdits order edits) readTime entries)).1.size =
            (ofTurns turns).projectedSize (ofEdits order edits) := by
  have hwell := wellFormed_ofEdits order edits
  have hkeyed := keyed_ofTurns turns
  refine ⟨countP_isDeletion_le hwell hkeyed, ?_⟩
  intro readTime entries hperm
  obtain ⟨-, diff, happly, -, -⟩ := (fits_against hwell hkeyed readTime).apply_replays hwell
  rw [apply_ofEntries_of_perm hwell hkeyed readTime hperm, happly, projectedSize_eq hwell hkeyed readTime]

/-- A deletion that was dropped, and then a mix of news: an end that counts and one that does not, a
version that is held, a later one, and a new document. -/
def mixedTurns : List Turn :=
  [.note (.tombstone (.ofString "c/a")), .clear] ++ mixedNews.map .note ++
    [.note (.tombstone (.ofString "c/b")), .note (.upsert (versionAt "c/d" 5).document)]

theorem projectedSize_ofTurns_mixed :
    let docs := ofEdits newestFirst renewal
    let changes := ofTurns mixedTurns
    changes.projectedSize docs = 2 ∧
      (docs.apply (.ofEntries docs none changes.entries.reverse)).1.size = 2 := by
  intro docs changes
  have hprojected : changes.projectedSize docs = 2 := by decide +kernel
  have hsize := (projectedSize_ofTurns newestFirst renewal mixedTurns).2 none changes.entries.reverse
    (List.reverse_perm _)
  exact ⟨hprojected, hsize.trans hprojected⟩

/-- A document set and pending changes determine the next version of the set and the diff to it, entry by
entry and place by place. The order in which the changes are taken does not show, though the sort order may
leave documents tied. -/
theorem apply_ofEntries_eq (order : DocumentOrder) [order.Lawful] (edits : List Edit) (turns : List Turn)
    (readTime : Option Timestamp) {entries entries' : List (Path × PendingChange)}
    (hperm : entries.Perm (ofTurns turns).entries) (hperm' : entries'.Perm (ofTurns turns).entries) :
    (ofEdits order edits).apply (.ofEntries (ofEdits order edits) readTime entries) =
      (ofEdits order edits).apply (.ofEntries (ofEdits order edits) readTime entries') := by
  have hwell := wellFormed_ofEdits order edits
  have hkeyed := keyed_ofTurns turns
  rw [apply_ofEntries_of_perm hwell hkeyed readTime hperm,
    apply_ofEntries_of_perm hwell hkeyed readTime hperm']

/-- Two documents tied in the sort order come in, and go, in either order. -/
theorem apply_ofEntries_eq_reverse :
    let docs := ofEdits newestFirst renewal
    let changes := ofTurns (mixedTurns ++ [.note (.upsert (versionAt "c/e" 5).document)])
    docs.apply (.ofEntries docs none changes.entries.reverse) =
      docs.apply (.ofEntries docs none changes.entries) :=
  apply_ofEntries_eq newestFirst renewal _ none (List.reverse_perm _) (List.Perm.refl _)

end DocumentSet

end LiveQuery
