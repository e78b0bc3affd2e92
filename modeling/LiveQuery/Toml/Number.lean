import LiveQuery.Binary64.Decimal
import LiveQuery.Toml.Quoted

namespace LiveQuery.Toml.Reader

/-- Digits, perhaps with single underscores between them, which are left out. -/
def digits (isDigit : Char → Bool) : Reader (List Char)
  | [] => none
  | [c] => if isDigit c then some ([c], []) else none
  | c :: '_' :: cs =>
    if isDigit c then (digits isDigit cs).map fun (ds, rest) => (c :: ds, rest) else none
  | c :: d :: cs =>
    if !isDigit c then none
    else if isDigit d then (digits isDigit (d :: cs)).map fun (ds, rest) => (c :: ds, rest)
    else some ([c], d :: cs)

/-- An optional sign. Tells whether it is a minus. -/
def sign : Reader Bool := do
  if ← accept "-" then return true
  let _ ← accept "+"
  return false

/-- Decimal digits without leading zeros. -/
def wholeDigits : Reader (List Char) := do
  if ← accept "0" then return ['0'] else digits Text.isDigit

def int64 (n : Int) : Reader Int64 := if Text.fitsInt64 n then pure (.ofInt n) else failure

/-- Digits of a base, which tells the value of each. -/
def basedInteger (value? : Char → Option Nat) (base : Nat) : Reader Int64 := do
  let ds ← digits fun c => (value? c).isSome
  int64 (ds.foldl (fun n c => base * n + (value? c).getD 0) 0 : Nat)

def digitBelow (base : Nat) (c : Char) : Option Nat := (hexValue? c).filter (· < base)

def integer : Reader Int64 := do
  if ← accept "0x" then basedInteger (digitBelow 16) 16
  else if ← accept "0o" then basedInteger (digitBelow 8) 8
  else if ← accept "0b" then basedInteger (digitBelow 2) 2
  else
    let negative ← sign
    let n : Int := Text.ofDigits (← wholeDigits)
    int64 (if negative then -n else n)

/-- The power of ten after an `e`, if there is one. -/
def exponent? : Reader (Option Int) := do
  if ← acceptChar fun c => c = 'e' || c = 'E' then
    let negative ← sign
    let n : Int := Text.ofDigits (← digits Text.isDigit)
    return some (if negative then -n else n)
  else return none

/-- A number with a fraction, a power of ten, or both. One beyond all floats must be negative. -/
def decimalFloat : Reader Binary64 := do
  let negative ← sign
  let whole ← wholeDigits
  let hasFraction ← accept "."
  let fraction ← if hasFraction then digits Text.isDigit else pure []
  let power ← exponent?
  let x := Binary64.ofDecimal negative ⟨Text.ofDigits (whole ++ fraction), power.getD 0 - fraction.length⟩
  if !(hasFraction || power.isSome) || x = .infinity false then failure
  return x

/-- Infinity or NaN with an optional sign. -/
def specialFloat : Reader Binary64 := do
  let negative ← sign
  if ← accept "inf" then return .infinity negative
  word "nan"
  return if negative then Binary64.nan.neg else .nan

def float : Reader Binary64 := decimalFloat <|> specialFloat

end LiveQuery.Toml.Reader
