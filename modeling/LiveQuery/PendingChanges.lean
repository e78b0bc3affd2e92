import LiveQuery.DocumentSet

namespace LiveQuery

/-- The latest news about a path since the last snapshot. -/
inductive PendingChange where
  | upsert (document : Document)
  | tombstone

/-- What a batch of changes does to a document set. The lists have no meaningful order. -/
structure ChangeSet where
  /-- Versions of the set that must go. -/
  deletes : List QueryDocument := []
  /-- Versions of paths that the set lacks. -/
  adds : List QueryDocument := []
  /-- Versions of paths that the set holds with another update time. -/
  updates : List QueryDocument := []

/-- Changes gathered between two snapshots; a later change of a path replaces an earlier one. -/
structure PendingChanges where
  byPath : Std.TreeMap Path PendingChange

namespace PendingChanges

def empty : PendingChanges := ⟨∅⟩

def upsert (changes : PendingChanges) (d : Document) : PendingChanges :=
  ⟨changes.byPath.insert (Path.ofString d.name) (.upsert d)⟩

def tombstone (changes : PendingChanges) (p : Path) : PendingChanges :=
  ⟨changes.byPath.insert p .tombstone⟩

def entries (changes : PendingChanges) : List (Path × PendingChange) := changes.byPath.toList

def isAddition (docs : DocumentSet) : Path × PendingChange → Bool
  | (p, .upsert _) => !docs.contains p
  | (_, .tombstone) => false

def isDeletion (docs : DocumentSet) : Path × PendingChange → Bool
  | (_, .upsert _) => false
  | (p, .tombstone) => docs.contains p

/-- The size of the set once every pending change is applied. -/
def projectedSize (changes : PendingChanges) (docs : DocumentSet) : Nat :=
  docs.size + changes.entries.countP (isAddition docs) - changes.entries.countP (isDeletion docs)

end PendingChanges

namespace ChangeSet

/-- Sorts one change in. Deletions of absent paths and repeated versions have no effect. -/
def record (docs : DocumentSet) (readTime : Option Timestamp) (set : ChangeSet) :
    Path × PendingChange → ChangeSet
  | (p, .tombstone) =>
    match docs.get? p with
    | some held => { set with deletes := set.deletes ++ [held] }
    | none => set
  | (p, .upsert d) =>
    match docs.get? p with
    | some held =>
      if held.sameVersion d then set else { set with updates := set.updates ++ [⟨d, readTime⟩] }
    | none => { set with adds := set.adds ++ [⟨d, readTime⟩] }

/-- The effect of changes, taken in the given order, on a document set. -/
def ofEntries (docs : DocumentSet) (readTime : Option Timestamp)
    (entries : List (Path × PendingChange)) : ChangeSet :=
  entries.foldl (record docs readTime) {}

end ChangeSet

/-- The effect of pending changes on a document set. -/
def PendingChanges.against (changes : PendingChanges) (docs : DocumentSet)
    (readTime : Option Timestamp) : ChangeSet :=
  ChangeSet.ofEntries docs readTime changes.entries

end LiveQuery
