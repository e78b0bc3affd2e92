import LiveQuery.Toml.Entry

namespace LiveQuery.Toml

/-- A header in brackets, double ones if it is repeated. -/
structure Header where
  repeated : Bool
  key : Key
  deriving DecidableEq

inductive Line where
  | header (header : Header)
  | entry (key : Key) (value : Value)

namespace Reader

/-- A header, up to its closing brackets. -/
def header : Reader Header := do
  if ← accept "[[" then
    let k ← key
    word "]]"
    return ⟨true, k⟩
  else
    word "["
    let k ← key
    word "]"
    return ⟨false, k⟩

/-- The headers and entries of a text, to its end. -/
def lines : Reader (List Line) := loop rounds
where
  rounds : Nat → Reader (List Line)
    | 0 => failure
    | fuel + 1 => do
      blanks
      match ← peek? with
      | none => return []
      | some '#' =>
        lineEnd
        rounds fuel
      | some '[' =>
        let h ← header
        lineEnd
        return .header h :: (← rounds fuel)
      | some _ =>
        let (k, v) ← entry (value 79)
        lineEnd
        return .entry k v :: (← rounds fuel)

end Reader

/-- The entries before the first header, and each header with the entries below it. -/
def sections : List Line → List (Key × Value) × List (Header × List (Key × Value))
  | [] => ([], [])
  | .entry key value :: rest =>
    let (top, below) := sections rest
    ((key, value) :: top, below)
  | .header h :: rest =>
    let (top, below) := sections rest
    ([], (h, top) :: below)

def addSection (entries : Node.Entries) : Header × List (Key × Value) → Option Node.Entries
  | (h, items) => if h.repeated then entries.addItem h.key items else entries.addTable h.key items

/-- The table that the lines of a document make. -/
def assemble (lines : List Line) : Option (List (String × Value)) := do
  let (top, below) := sections lines
  let entries ← below.foldlM addSection (← Node.Entries.insertAll top [])
  return Node.valuesOfEntries entries

/-- Reads a document. It may start with a byte order mark. -/
def parse? (s : String) : Option (List (String × Value)) := do
  let cs := match s.toList with
    | '\ufeff' :: cs => cs
    | cs => cs
  let (lines, _) ← Reader.lines cs
  assemble lines

end LiveQuery.Toml
