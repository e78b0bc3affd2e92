import LiveQuery.PendingChanges

namespace LiveQuery

inductive ChangeKind where
  | added
  | modified
  | removed
  deriving DecidableEq

/-- One entry of a snapshot's diff. Indices are places right after the change was applied, through
removals, then additions, then modifications. -/
structure Change where
  kind : ChangeKind
  document : QueryDocument
  oldIndex : Option Nat
  newIndex : Option Nat

namespace Change

/-- Carries a change over to a copy of the ordered documents, if its indices allow it. -/
def replay? (c : Change) (ds : List QueryDocument) : Option (List QueryDocument) :=
  match c.kind, c.oldIndex, c.newIndex with
  | .removed, some i, none => if i < ds.length then some (ds.eraseIdx i) else none
  | .added, none, some j => if j ≤ ds.length then some (ds.insertIdx j c.document) else none
  | .modified, some i, some j =>
    if i < ds.length ∧ j < ds.length then some ((ds.eraseIdx i).insertIdx j c.document) else none
  | _, _, _ => none

end Change

namespace DocumentSet

/-- A document set on its way through the phases of a change set, with the diff so far. -/
abbrev Progress := DocumentSet × List Change

def applyDelete : Progress → QueryDocument → Progress
  | (docs, diff), d =>
    (docs.erase d.path, diff ++ [⟨.removed, d, docs.indexOf? d.path, none⟩])

def applyAdd : Progress → QueryDocument → Progress
  | (docs, diff), d =>
    let next := docs.insert d
    (next, diff ++ [⟨.added, d, none, next.indexOf? d.path⟩])

def applyUpdate : Progress → QueryDocument → Progress
  | (docs, diff), d =>
    let next := docs.insert d
    (next, diff ++ [⟨.modified, d, docs.indexOf? d.path, next.indexOf? d.path⟩])

/-- Documents in sort order; tied ones keep theirs. -/
def sortDocuments (order : DocumentOrder) (ds : List QueryDocument) : List QueryDocument :=
  ds.mergeSort fun a b => (order.compare a b).isLE

/-- The next version of the set and the diff to it: removals, then additions, then modifications. -/
def apply (docs : DocumentSet) (set : ChangeSet) : DocumentSet × List Change :=
  let sort := sortDocuments docs.order
  let removed := (sort set.deletes).foldl applyDelete (docs, [])
  let added := (sort set.adds).foldl applyAdd removed
  (sort set.updates).foldl applyUpdate added

end DocumentSet

/-- A consistent result set at a read time, and the diff from the snapshot before. -/
structure Snapshot where
  readTime : Timestamp
  documents : DocumentSet
  changes : List Change

end LiveQuery
