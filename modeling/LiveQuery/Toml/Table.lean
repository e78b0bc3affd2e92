import LiveQuery.Entries
import LiveQuery.Toml.Value

namespace LiveQuery.Toml

/-- A dotted key: the names of the tables on the way and the last name. -/
structure Key where
  path : List String
  name : String
  deriving DecidableEq

/-- How a table came to be: by a header, by a header below it, or by a dotted key. -/
inductive Origin where
  | header
  | implied
  | dotted
  deriving DecidableEq

/-- A part of a document that is still being read. -/
inductive Node where
  | value (v : Value)
  | table (origin : Origin) (entries : List (String × Node))
  /-- The tables of a repeated header, the first one first. -/
  | tables (items : List (List (String × Node)))

abbrev Node.Entries := List (String × Node)

namespace Node

mutual

/-- The value of a node that is complete. -/
def toValue : Node → Value
  | value v => v
  | table _ entries => .table (valuesOfEntries entries)
  | tables items => .list (valuesOfTables items)

def valuesOfEntries : List (String × Node) → List (String × Value)
  | [] => []
  | (key, node) :: rest => (key, node.toValue) :: valuesOfEntries rest

def valuesOfTables : List (List (String × Node)) → List Value
  | [] => []
  | entries :: rest => .table (valuesOfEntries entries) :: valuesOfTables rest

end

namespace Entries

/-- Edits the table at the end of a path. Missing tables on the way are made, a repeated table stands
for its last item, and a dotted key does not enter a table that has a header. -/
def editAt (dotted : Bool) (edit : Origin → Entries → Option Entries) :
    List String → Origin → Entries → Option Entries
  | [], origin, entries => edit origin entries
  | key :: path, _, entries => do
    match (entries.lookup key).getD (.table (if dotted then .dotted else .implied) []) with
    | .value _ => none
    | .tables items =>
      let last ← editAt dotted edit path .header (← items.getLast?)
      return setEntry key (.tables (items.dropLast ++ [last])) entries
    | .table origin inner =>
      if dotted && origin = .header then none
      return setEntry key (.table origin (← editAt dotted edit path origin inner)) entries

/-- Adds a value under a dotted key. It must be new, and a table of its own holds it: one without
path is for the current table, one with path for a table that dotted keys made. -/
def insert (key : Key) (v : Value) (entries : Entries) : Option Entries :=
  editAt true (fun origin inner =>
    if (origin == .dotted) == key.path.isEmpty || (inner.lookup key.name).isSome then none
    else some (inner ++ [(key.name, .value v)])) key.path .header entries

def insertAll (items : List (Key × Value)) (entries : Entries) : Option Entries :=
  items.foldlM (fun entries (key, v) => entries.insert key v) entries

/-- Adds the table of a header, as the last entry. The table may exist only for the sake of tables
below it. -/
def addTable (key : Key) (items : List (Key × Value)) (entries : Entries) : Option Entries :=
  editAt false (fun _ outer => do
    let inner ← match outer.lookup key.name with
      | none => some []
      | some (.table .implied inner) => some inner
      | some _ => none
    let others := outer.filter (·.1 ≠ key.name)
    return others ++ [(key.name, .table .header (← insertAll items inner))]) key.path .header entries

/-- Adds the next table of a repeated header. -/
def addItem (key : Key) (items : List (Key × Value)) (entries : Entries) : Option Entries :=
  editAt false (fun _ outer => do
    let earlier ← match outer.lookup key.name with
      | none => some []
      | some (.tables earlier) => some earlier
      | some _ => none
    return setEntry key.name (.tables (earlier ++ [← insertAll items []])) outer) key.path .header entries

end Entries

end Node

end LiveQuery.Toml
