import LiveQuery.Binary64
import LiveQuery.Text.Digits

namespace LiveQuery

/-- A decimal fraction `digits * 10 ^ exponent`. -/
structure Decimal where
  digits : Nat
  exponent : Int
  deriving DecidableEq

namespace Decimal

/-- Drops trailing zeros of the digits. The fuel bounds their number. -/
def dropZeros : Nat → Decimal → Decimal
  | 0, d => d
  | fuel + 1, d =>
    if d.digits % 10 = 0 then dropZeros fuel ⟨d.digits / 10, d.exponent + 1⟩ else d

/-- Plain notation: no exponent, and a point only before digits. -/
def text (d : Decimal) : String :=
  if 0 ≤ d.exponent then
    toString d.digits ++ String.ofList (List.replicate d.exponent.toNat '0')
  else
    let places := (-d.exponent).toNat
    let ds := Nat.toDigits 10 d.digits
    let ds := List.replicate (places + 1 - ds.length) '0' ++ ds
    String.ofList (ds.take (ds.length - places) ++ '.' :: ds.drop (ds.length - places))

end Decimal

/-- The number of decimal digits of `n` less one, for positive `n`. -/
def floorLog10 (n : Nat) : Nat := (Nat.toDigits 10 n).length - 1

namespace Binary64

/-- The interval of reals that round to a finite double, in units of `2 ^ (exponent - 2)`:
the neighbours' midpoints, which belong to it exactly when the significand is even. -/
structure Interval where
  low : Nat
  value : Nat
  high : Nat
  closed : Bool

def interval (x : Binary64) : Interval :=
  let m := x.significand
  let below := if m = binade && 2 * binade ≤ x.magnitude then 1 else 2
  ⟨4 * m - below, 4 * m, 4 * m + 2, m % 2 = 0⟩

/-- The nearest decimal with `count` digits that still reads back as `x`, a tie going up. -/
def decimalOfLength? (x : Binary64) (count : Nat) : Option Decimal :=
  let i := x.interval
  let e := x.exponent - 2
  let num := 1 <<< e.toNat
  let den := 1 <<< (-e).toNat
  -- the decimal exponent of the value, one too small at most
  let guess : Int :=
    if den ≤ i.value * num then floorLog10 (i.value * num / den)
    else -(floorLog10 (den / (i.value * num)) : Int) - 1
  let at10 (j : Int) (n : Nat) : Nat × Nat := (n * num * Text.tenTo (-j).toNat, den * Text.tenTo j.toNat)
  let j := guess + 1 - count
  let (vNum, vDen) := at10 j i.value
  let d := vNum / vDen
  let reads (d : Nat) : Bool :=
    let low := (at10 j i.low).1
    let high := (at10 j i.high).1
    if i.closed then low ≤ d * vDen && d * vDen ≤ high else low < d * vDen && d * vDen < high
  match reads d && d ≠ 0, reads (d + 1) with
  | true, true => some (if 2 * (vNum % vDen) < vDen then ⟨d, j⟩ else ⟨d + 1, j⟩)
  | true, false => some ⟨d, j⟩
  | false, true => some ⟨d + 1, j⟩
  | false, false => none

/-- The nearest of the shortest decimals that read back as a positive finite double. -/
def shortest (x : Binary64) : Decimal :=
  (((List.range 18).findSome? fun n => x.decimalOfLength? (n + 1)).getD ⟨0, 0⟩).dropZeros 400

/-- The fewest digits that read back, never with an exponent. -/
def text (x : Binary64) : String :=
  if x.isNaN then "NaN"
  else
    let body := if x.isInfinite then "inf" else if x.isZero then "0" else x.shortest.text
    if x.isNegative then "-" ++ body else body

/-- The double nearest to a decimal fraction. Far outside the range of doubles only the sign counts. -/
def ofDecimal (negative : Bool) (d : Decimal) : Binary64 :=
  if d.digits = 0 then zero negative
  else
    let place : Int := floorLog10 d.digits + d.exponent
    if 400 < place then infinity negative
    else if place < -400 then zero negative
    else nearest negative (d.digits * Text.tenTo d.exponent.toNat) (Text.tenTo (-d.exponent).toNat)

/-- Reads `12`, `1.5`, `.5`, `5.`, each with an optional exponent as in `1e-3`. -/
def readDecimal? (cs : List Char) : Option Decimal := do
  let whole := cs.takeWhile Text.isDigit
  let rest := cs.dropWhile Text.isDigit
  let (fraction, rest) := match rest with
    | '.' :: rest => (rest.takeWhile Text.isDigit, rest.dropWhile Text.isDigit)
    | _ => ([], rest)
  if whole.isEmpty && fraction.isEmpty then none
  let shift ← match rest with
    | [] => some 0
    | c :: exponent => if c = 'e' || c = 'E' then Text.readInt? (String.ofList exponent) else none
  return ⟨Text.ofDigits (whole ++ fraction), shift - fraction.length⟩

/-- Reads a decimal number with an optional sign, `inf`, `infinity` or `nan` in any case. -/
def ofText? (s : String) : Option Binary64 :=
  let (negative, cs) := match s.toList with
    | '-' :: cs => (true, cs)
    | '+' :: cs => (false, cs)
    | cs => (false, cs)
  let word := Text.lower (String.ofList cs)
  if word = "inf" || word = "infinity" then some (infinity negative)
  else if word = "nan" then some (if negative then nan.neg else nan)
  else (readDecimal? cs).map (ofDecimal negative)

end Binary64

end LiveQuery
