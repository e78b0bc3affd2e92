import LiveQuery.Toml.Reader

namespace LiveQuery.Toml

namespace Reader

def hexValue? (c : Char) : Option Nat :=
  if '0' ≤ c && c ≤ '9' then some (c.toNat - '0'.toNat)
  else if 'a' ≤ c && c ≤ 'f' then some (c.toNat - 'a'.toNat + 10)
  else if 'A' ≤ c && c ≤ 'F' then some (c.toNat - 'A'.toNat + 10)
  else none

/-- The number that so many hexadecimal digits write. -/
def hexNumber : (count : Nat) → (start : Nat) → Reader Nat
  | 0, n => pure n
  | count + 1, n => do
    match hexValue? (← next) with
    | some d => hexNumber count (16 * n + d)
    | none => failure

/-- A character given by its number. -/
def codePoint (count : Nat) : Reader Char := do
  let n ← hexNumber count 0
  if n.isValidChar then return Char.ofNat n else failure

/-- What follows a backslash. -/
def escape : Reader Char := do
  match ← next with
  | 'b' => return '\x08'
  | 't' => return '\t'
  | 'n' => return '\n'
  | 'f' => return '\x0c'
  | 'r' => return '\r'
  | '"' => return '"'
  | '\\' => return '\\'
  | 'u' => codePoint 4
  | 'U' => codePoint 8
  | _ => failure

/-- Skips a line break and the blanks around it, if these are next, and tells whether they were. -/
def acceptContinuation : Reader Bool := do
  let before ← get
  spaces
  if ← acceptBreak then
    blanks
    return true
  else
    set before
    return false

/-- The rest of a quoted text on one line, its closing quote included. -/
def shortText (quote : Char) (escapes : Bool) : Reader (List Char) := loop rounds
where
  rounds : Nat → Reader (List Char)
    | 0 => failure
    | fuel + 1 => do
      let c ← next
      if c = quote then return []
      else if c = '\\' && escapes then return (← escape) :: (← rounds fuel)
      else if Text.isLineChar c then return c :: (← rounds fuel)
      else failure

/-- The rest of a quoted text over several lines, its three closing quotes included. One or two more
quotes just before these belong to the text. -/
def longText (quote : Char) (escapes : Bool) : Reader (List Char) := loop rounds
where
  rounds : Nat → Reader (List Char)
    | 0 => failure
    | fuel + 1 => do
      if ← accept (String.ofList [quote, quote, quote]) then
        let extra ← many (· = quote)
        if extra.length ≤ 2 then return extra else failure
      else if ← acceptBreak then return '\n' :: (← rounds fuel)
      else
        let c ← next
        if c = '\\' && escapes then
          if ← acceptContinuation then rounds fuel else return (← escape) :: (← rounds fuel)
        else if Text.isLineChar c then return c :: (← rounds fuel)
        else failure

/-- A text between single or double quotes on one line. -/
def shortQuoted : Reader String := do
  let quote ← next
  if quote = '"' then String.ofList <$> shortText '"' true
  else if quote = '\'' then String.ofList <$> shortText '\'' false
  else failure

/-- A text between quotes of any kind. A line break right after three opening quotes does not count. -/
def quoted : Reader String := do
  if ← accept "\"\"\"" then
    let _ ← acceptBreak
    String.ofList <$> longText '"' true
  else if ← accept "'''" then
    let _ ← acceptBreak
    String.ofList <$> longText '\'' false
  else shortQuoted

end Reader

end LiveQuery.Toml
