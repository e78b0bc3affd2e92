namespace LiveQuery.Text

def isDigit (c : Char) : Bool := '0' ≤ c && c ≤ '9'

def isLetter (c : Char) : Bool := ('a' ≤ c && c ≤ 'z') || ('A' ≤ c && c ≤ 'Z')

def digitValue (c : Char) : Nat := c.toNat - '0'.toNat

/-- The number written by decimal digits. -/
def ofDigits (cs : List Char) : Nat := cs.foldl (fun n c => 10 * n + digitValue c) 0

/-- The number written by a one and so many zeros. -/
def tenTo (zeros : Nat) : Nat := Nat.pow 10 zeros

/-- Lower case of what has one in ASCII: `A` to `Z`, and the Kelvin sign, which becomes a `k`. -/
def lowerChar (c : Char) : Char := if c = '\u212a' then 'k' else c.toLower

/-- Lower case of the ASCII letters; other characters stay. -/
def lower (s : String) : String := String.ofList (s.toList.map lowerChar)

/-- The digits of a number in a base, at least `width` of them. -/
def padded (base width n : Nat) : String :=
  let ds := Nat.toDigits base n
  String.ofList (List.replicate (width - ds.length) '0' ++ ds)

/-- Decimal digits of a number, at least `width` of them. -/
def decimal (width n : Nat) : String := padded 10 width n

/-- Hexadecimal digits of a number, lower case, at least `width` of them. -/
def hex (width n : Nat) : String := padded 16 width n

/-- A decimal integer with an optional sign, as in `-12` or `+7`. -/
def readInt? (s : String) : Option Int :=
  let unsigned (cs : List Char) : Option Nat :=
    if !cs.isEmpty && cs.all isDigit then some (ofDigits cs) else none
  match s.toList with
  | '-' :: cs => (unsigned cs).map fun n => -n
  | '+' :: cs => (unsigned cs).map Int.ofNat
  | cs => (unsigned cs).map Int.ofNat

/-- A decimal number without minus sign, as in `12` or `+7`. -/
def readNat? (s : String) : Option Nat :=
  let cs := match s.toList with
    | '+' :: cs => cs
    | cs => cs
  if !cs.isEmpty && cs.all isDigit then some (ofDigits cs) else none

/-- Whether an integer has 64 bits with its sign. -/
def fitsInt64 (n : Int) : Bool := -0x8000000000000000 ≤ n && n < 0x8000000000000000

end LiveQuery.Text
