import LiveQuery.Text.Blank

namespace LiveQuery.Toml

/-- Reads from the front of a text and leaves the rest. -/
abbrev Reader := StateT (List Char) Option

namespace Reader

/-- The next character, which stays. -/
def peek? : Reader (Option Char) := fun cs => some (cs.head?, cs)

def next : Reader Char
  | c :: cs => some (c, cs)
  | [] => none

/-- As many characters of a kind as there are. -/
def many (p : Char → Bool) : Reader (List Char) := fun cs => some (cs.takeWhile p, cs.dropWhile p)

/-- Reads a character of a kind if it is next, and tells whether it was. -/
def acceptChar (p : Char → Bool) : Reader Bool := fun cs =>
  match cs with
  | c :: rest => some (if p c then (true, rest) else (false, cs))
  | [] => some (false, [])

/-- Reads a word if it is next, and tells whether it was. -/
def accept (w : String) : Reader Bool := fun cs =>
  match w.toList.isPrefixOf? cs with
  | some rest => some (true, rest)
  | none => some (false, cs)

def word (w : String) : Reader Unit := fun cs => (w.toList.isPrefixOf? cs).map fun rest => ((), rest)

/-- Runs a loop with a bound on its rounds, each of which reads at least a character. -/
def loop {α : Type} (body : Nat → Reader α) : Reader α := fun cs => body (cs.length + 1) cs

def isSpace (c : Char) : Bool := c = ' ' || c = '\t'

def spaces : Reader Unit := do
  let _ ← many isSpace

/-- Reads a line break if it is next, and tells whether it was. -/
def acceptBreak : Reader Bool := do
  if ← accept "\n" then return true else accept "\r\n"

def lineBreak : Reader Unit := do
  if !(← acceptBreak) then failure

/-- Reads a comment if it is next, and tells whether it was. -/
def acceptComment : Reader Bool := do
  if ← accept "#" then
    let _ ← many Text.isLineChar
    return true
  else return false

/-- The end of a line that is done: spaces, perhaps a comment, and a line break or the end of the text. -/
def lineEnd : Reader Unit := do
  spaces
  let _ ← acceptComment
  if (← peek?).isSome then lineBreak

/-- What follows spaces and line breaks. -/
def afterBlanks : List Char → List Char
  | '\n' :: cs => afterBlanks cs
  | '\r' :: '\n' :: cs => afterBlanks cs
  | c :: cs => if isSpace c then afterBlanks cs else c :: cs
  | [] => []

/-- Spaces and line breaks. -/
def blanks : Reader Unit := fun cs => some ((), afterBlanks cs)

/-- What follows spaces, line breaks and comments. A comment takes the line break after it. -/
def afterGap? : (inComment : Bool) → List Char → Option (List Char)
  | _, '\n' :: cs => afterGap? false cs
  | _, '\r' :: '\n' :: cs => afterGap? false cs
  | false, '#' :: cs => afterGap? true cs
  | false, c :: cs => if isSpace c then afterGap? false cs else some (c :: cs)
  | true, c :: cs => if Text.isLineChar c then afterGap? true cs else none
  | false, [] => some []
  | true, [] => none

/-- Spaces, line breaks and comments. -/
def gap : Reader Unit := fun cs => (afterGap? false cs).map fun rest => ((), rest)

end Reader

end LiveQuery.Toml
