import LiveQuery.Settings.Tree

namespace LiveQuery.Settings

/-- A way down in a tree. A negative index counts from the end. -/
inductive Step where
  | key (name : String)
  | index (n : Int)
  deriving DecidableEq

namespace KeyPath

def isNameChar (c : Char) : Bool :=
  Text.isLetter c || Text.isDigit c || c = ' ' || c = '_' || c = '-'

def isSpace (c : Char) : Bool := c = ' ' || c = '\t'

def readName? (cs : List Char) : Option (Step × List Char) :=
  let name := cs.takeWhile isNameChar
  if name.isEmpty then none else some (.key (String.ofList name), cs.dropWhile isNameChar)

/-- Reads an index and the bracket after it, as in ` -1]`. -/
def readIndex? (cs : List Char) : Option (Step × List Char) := do
  let cs := cs.dropWhile isSpace
  let (negative, cs) := match cs with
    | '-' :: cs => (true, cs)
    | cs => (false, cs)
  let digits := cs.takeWhile Text.isDigit
  let n : Int := Text.ofDigits digits
  let n := if negative then -n else n
  match (cs.dropWhile Text.isDigit).dropWhile isSpace with
  | ']' :: rest =>
    if !digits.isEmpty && Text.fitsInt64 n then some (.index n, rest) else none
  | _ => none

/-- Reads steps as in `.name[1]`. The fuel bounds their number. -/
def readSteps? : Nat → List Char → Option (List Step)
  | _, [] => some []
  | fuel + 1, '.' :: cs => do
    let (step, rest) ← readName? cs
    return step :: (← readSteps? fuel rest)
  | fuel + 1, '[' :: cs => do
    let (step, rest) ← readIndex? cs
    return step :: (← readSteps? fuel rest)
  | _, _ => none

/-- The steps a key stands for. One that is no path stands for itself. -/
def ofKey (key : String) : List Step :=
  let steps? := do
    let (first, rest) ← readName? key.toList
    return first :: (← readSteps? rest.length rest)
  steps?.getD [.key key]

end KeyPath

namespace Tree

/-- Lays a value over what lies at the end of a path. Tables and lists on the way are made as needed,
in the place of other values. An item of a list at the end is replaced as a whole. -/
def setAt (value : Tree) : List Step → Tree → Tree
  | [], below => value.mergeOver below
  | .key name :: steps, below =>
    let name := Text.lower name
    let inner := match below.entries.lookup name with
      | some inner => inner
      | none => table []
    table (setEntry name (setAt value steps inner) below.entries)
  | .index n :: steps, below =>
    let place := if 0 ≤ n then n.toNat else (below.items.length + n).toNat
    let items := below.items ++ List.replicate (place + 1 - below.items.length) nil
    list (items.modify place fun item => if steps.isEmpty then value else setAt value steps item)

/-- Lays a source over a tree. The keys of the source may be paths. -/
def layer (source below : Tree) : Tree :=
  source.entries.foldl (fun below (key, value) => setAt value (KeyPath.ofKey key) below) below

end Tree

end LiveQuery.Settings
