import LiveQuery.Toml.Number
import LiveQuery.Toml.Table

namespace LiveQuery.Toml.Reader

def isBareKeyChar (c : Char) : Bool :=
  Text.isLetter c || Text.isDigit c || c = '_' || c = '-'

/-- A name in a key, bare or in quotes. -/
def keyName : Reader String := do
  let bare ← many isBareKeyChar
  if bare.isEmpty then shortQuoted else return String.ofList bare

/-- Names with dots between them, of which there may be at most `fuel`. -/
def names : (fuel : Nat) → Reader Key
  | 0 => failure
  | fuel + 1 => do
    spaces
    let name ← keyName
    spaces
    if ← accept "." then
      let rest ← names fuel
      return { rest with path := name :: rest.path }
    else return ⟨[], name⟩

/-- A dotted key. -/
def key : Reader Key := names 79

/-- A key and a value, with an equals sign between them. -/
def entry (value : Reader Value) : Reader (Key × Value) := do
  let k ← key
  word "="
  spaces
  return (k, ← value)

/-- The items of a list and its closing bracket. A comma may follow the last one. -/
def listItems (value : Reader Value) : Reader (List Value) := loop rounds
where
  rounds : Nat → Reader (List Value)
    | 0 => failure
    | fuel + 1 => do
      gap
      if ← accept "]" then return []
      let item ← value
      gap
      if ← accept "," then return item :: (← rounds fuel)
      word "]"
      return [item]

/-- The entries of an inline table and its closing brace. -/
def inlineEntries (value : Reader Value) : Reader (List (Key × Value)) := loop rounds
where
  rounds : Nat → Reader (List (Key × Value))
    | 0 => failure
    | fuel + 1 => do
      let item ← entry value
      spaces
      if ← accept "," then return item :: (← rounds fuel)
      word "\x7d"
      return [item]

def inlineTable (value : Reader Value) : Reader Value := do
  spaces
  let items ← if ← accept "\x7d" then pure [] else inlineEntries value
  match Node.Entries.insertAll items [] with
  | some entries => return .table (Node.valuesOfEntries entries)
  | none => failure

/-- A value that holds no others. -/
def scalar : Reader Value := do
  match ← peek? with
  | some '"' | some '\'' => return .text (← quoted)
  | some 't' =>
    word "true"
    return .bool true
  | some 'f' =>
    word "false"
    return .bool false
  | _ => Value.dateTime <$> dateTime <|> Value.float <$> float <|> Value.int <$> integer

/-- A value whose lists and inline tables are nested at most `depth` deep. -/
def value : (depth : Nat) → Reader Value
  | 0 => scalar
  | depth + 1 => do
    if ← accept "[" then return .list (← listItems (value depth))
    else if ← accept "\x7b" then inlineTable (value depth)
    else scalar

end LiveQuery.Toml.Reader
