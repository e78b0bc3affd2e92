namespace LiveQuery

/-- An IEEE 754 double, given by its bits. -/
structure Binary64 where
  bits : UInt64
  deriving DecidableEq, Inhabited

/-- The integer nearest to `num / den`, a half going to the even neighbour. -/
def roundHalfEven (num den : Nat) : Nat :=
  let q := num / den
  let r := num % den
  if 2 * r < den then q else if den < 2 * r then q + 1 else q + q % 2

/-- The exponent of the largest power of two that is at most `num / den`. -/
def floorLog2 (num den : Nat) : Int :=
  let e : Int := num.log2 - den.log2
  if num <<< (-e).toNat < den <<< e.toNat then e - 1 else e

namespace Binary64

def infinityBits : Nat := 0x7ff0000000000000

/-- The weight of the sign bit, `2 ^ 63`. -/
def signBit : Nat := 0x8000000000000000

/-- The number of doubles from a power of two to the next, `2 ^ 52`. -/
def binade : Nat := 0x10000000000000

/-- The bits without the sign: finite doubles of one sign order as these do. -/
def magnitude (x : Binary64) : Nat := x.bits.toNat % signBit

def isNegative (x : Binary64) : Bool := signBit ≤ x.bits.toNat

def isNaN (x : Binary64) : Bool := infinityBits < x.magnitude

def isInfinite (x : Binary64) : Bool := x.magnitude = infinityBits

def isFinite (x : Binary64) : Bool := x.magnitude < infinityBits

def isZero (x : Binary64) : Bool := x.magnitude = 0

/-- A finite double is `± significand * 2 ^ exponent`. -/
def significand (x : Binary64) : Nat :=
  if x.magnitude < binade then x.magnitude else x.magnitude % binade + binade

def exponent (x : Binary64) : Int := (max (x.magnitude / binade) 1 : Nat) - 1075

def ofMagnitude (negative : Bool) (magnitude : Nat) : Binary64 :=
  ⟨UInt64.ofNat (magnitude + if negative then signBit else 0)⟩

def nan : Binary64 := ⟨0x7ff8000000000000⟩

def infinity (negative : Bool) : Binary64 := ofMagnitude negative infinityBits

def zero (negative : Bool) : Binary64 := ofMagnitude negative 0

/-- The bits of the double nearest to `num / den`; beyond the largest double these are infinity's. -/
def nearestMagnitude (num den : Nat) : Nat :=
  if num = 0 then 0
  else
    let ulp := max (floorLog2 num den - 52) (-1074)
    let steps := roundHalfEven (num <<< (-ulp).toNat) (den <<< ulp.toNat)
    min ((ulp + 1074).toNat * binade + steps) infinityBits

/-- The double nearest to `± num / den`, a half going to the even neighbour. -/
def nearest (negative : Bool) (num den : Nat) : Binary64 :=
  ofMagnitude negative (nearestMagnitude num den)

/-- The double nearest to `± num * 2 ^ e`. -/
def nearestScaled (negative : Bool) (num : Nat) (e : Int) : Binary64 :=
  nearest negative (num <<< e.toNat) (1 <<< (-e).toNat)

def ofNat (n : Nat) : Binary64 := nearest false n 1

def ofInt (n : Int) : Binary64 := nearest (n < 0) n.natAbs 1

def neg (x : Binary64) : Binary64 := ofMagnitude (!x.isNegative) x.magnitude

def mul (x y : Binary64) : Binary64 :=
  let negative := x.isNegative != y.isNegative
  if x.isNaN || y.isNaN then nan
  else if x.isInfinite || y.isInfinite then
    if x.isZero || y.isZero then nan else infinity negative
  else nearestScaled negative (x.significand * y.significand) (x.exponent + y.exponent)

/-- A finite double as a multiple of `2 ^ e`, for `e` at most its exponent. -/
def multipleOf (e : Int) (x : Binary64) : Int :=
  (if x.isNegative then -1 else 1) * (x.significand <<< (x.exponent - e).toNat : Nat)

def add (x y : Binary64) : Binary64 :=
  if x.isNaN || y.isNaN then nan
  else if x.isInfinite then if y.isInfinite && x != y then nan else x
  else if y.isInfinite then y
  else if x.isZero && y.isZero then zero (x.isNegative && y.isNegative)
  else
    let e := min x.exponent y.exponent
    let sum := x.multipleOf e + y.multipleOf e
    nearestScaled (sum < 0) sum.natAbs e

def sub (x y : Binary64) : Binary64 := x.add y.neg

/-- The place of a double that is no NaN in the numeric order; both zeros have the same. -/
def rank (x : Binary64) : Int := if x.isNegative then -x.magnitude else x.magnitude

/-- Numeric equality: NaN differs from itself and both zeros are equal. -/
def equal (x y : Binary64) : Bool := !x.isNaN && !y.isNaN && x.rank == y.rank

/-- Numeric order; false when either is NaN. -/
def le (x y : Binary64) : Bool := !x.isNaN && !y.isNaN && x.rank ≤ y.rank

def lt (x y : Binary64) : Bool := !x.isNaN && !y.isNaN && x.rank < y.rank

/-- The integer nearest to a finite magnitude, a half going up. -/
def roundedMagnitude (x : Binary64) : Nat :=
  let den := 1 <<< (-x.exponent).toNat
  (2 * (x.significand <<< x.exponent.toNat) + den) / (2 * den)

/-- The nearest integer, a half going away from zero. -/
def round (x : Binary64) : Binary64 :=
  if x.isFinite then nearest x.isNegative x.roundedMagnitude 1 else x

/-- The integer part, kept within the unsigned 64-bit integers. NaN gives zero. -/
def toUInt64Saturating (x : Binary64) : UInt64 :=
  if x.isNaN || x.isNegative then 0
  else if x.isInfinite then UInt64.ofNat (UInt64.size - 1)
  else
    let whole := (x.significand <<< x.exponent.toNat) / (1 <<< (-x.exponent).toNat)
    UInt64.ofNat (min whole (UInt64.size - 1))

/-- The nearest value in `[low, high]`; NaN stays. -/
def clamp (low high x : Binary64) : Binary64 :=
  if x.lt low then low else if high.lt x then high else x

end Binary64

end LiveQuery
