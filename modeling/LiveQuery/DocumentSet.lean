import LiveQuery.DocumentOrder
import LiveQuery.DocumentSet.Search

namespace LiveQuery

/-- A sorted collection of documents with distinct paths. -/
structure DocumentSet where
  order : DocumentOrder
  byPath : Std.TreeMap Path QueryDocument
  sorted : List QueryDocument

namespace DocumentSet

def empty (order : DocumentOrder) : DocumentSet := ⟨order, ∅, []⟩

def size (docs : DocumentSet) : Nat := docs.sorted.length

def isEmpty (docs : DocumentSet) : Bool := docs.sorted.isEmpty

def contains (docs : DocumentSet) (p : Path) : Bool := docs.byPath.contains p

def get? (docs : DocumentSet) (p : Path) : Option QueryDocument := docs.byPath[p]?

/-- The document at a place in sort order. -/
def at? (docs : DocumentSet) (i : Nat) : Option QueryDocument := docs.sorted[i]?

def paths (docs : DocumentSet) : List Path := docs.sorted.map QueryDocument.path

/-- The place of a document that the sequence holds. -/
def position? (order : DocumentOrder) (sorted : List QueryDocument) (d : QueryDocument) : Option Nat :=
  (binarySearch (order.compare · d) sorted).index?

/-- The place where a document goes; after one that compares equal. -/
def insertionPoint (order : DocumentOrder) (sorted : List QueryDocument) (d : QueryDocument) : Nat :=
  let probe (e : QueryDocument) : Ordering := match order.compare e d with
    | .eq => .lt
    | o => o
  (binarySearch probe sorted).index

/-- The place of a path in sort order. -/
def indexOf? (docs : DocumentSet) (p : Path) : Option Nat :=
  (docs.get? p).bind (position? docs.order docs.sorted)

def erase (docs : DocumentSet) (p : Path) : DocumentSet :=
  match docs.get? p with
  | none => docs
  | some d =>
    { docs with
      byPath := docs.byPath.erase p
      sorted := match position? docs.order docs.sorted d with
        | some i => docs.sorted.eraseIdx i
        | none => docs.sorted }

/-- Adds a document in the place of an earlier one with its path. -/
def insert (docs : DocumentSet) (d : QueryDocument) : DocumentSet :=
  let rest := docs.erase d.path
  { rest with
    byPath := rest.byPath.insert d.path d
    sorted := rest.sorted.insertIdx (insertionPoint rest.order rest.sorted d) d }

def ofList (order : DocumentOrder) (ds : List QueryDocument) : DocumentSet :=
  ds.foldl insert (empty order)

/-- Equality of content in sort order. -/
def equal (docs other : DocumentSet) : Bool :=
  docs.sorted.length == other.sorted.length &&
    (docs.sorted.zip other.sorted).all fun (d, e) => d.equal e

def debugText (docs : DocumentSet) : String :=
  "[" ++ ", ".intercalate (docs.paths.map Path.debugText) ++ "]"

end DocumentSet

end LiveQuery
