import Mathlib.Algebra.Group.Nat.Defs
import LiveQuery.Binary64.Decimal

namespace LiveQuery

variable {num den a b m n k : Nat} {x : Binary64} {negative : Bool}

theorem le_roundHalfEven (hden : 0 < den) (h : a * den ≤ num) : a ≤ roundHalfEven num den := by
  have hq : a ≤ num / den := (Nat.le_div_iff_mul_le hden).2 h
  unfold roundHalfEven
  dsimp only
  split
  · exact hq
  split
  · omega
  · omega

theorem roundHalfEven_le (hden : 0 < den) (h : num ≤ b * den) : roundHalfEven num den ≤ b := by
  have hq : num / den ≤ b := Nat.div_le_of_le_mul (Nat.mul_comm b den ▸ h)
  rcases Nat.lt_or_eq_of_le hq with hlt | heq
  · unfold roundHalfEven
    dsimp only
    split
    · exact hq
    split
    · exact hlt
    · omega
  · have hsum := Nat.div_add_mod num den
    rw [heq, Nat.mul_comm den b] at hsum
    have hr : num % den = 0 := by omega
    unfold roundHalfEven
    dsimp only
    rw [hr, Nat.mul_zero, if_pos hden]
    exact hq

/-- A multiple needs no rounding. -/
theorem roundHalfEven_mul_right (a : Nat) (hden : 0 < den) : roundHalfEven (a * den) den = a :=
  Nat.le_antisymm (roundHalfEven_le hden (Nat.le_refl _)) (le_roundHalfEven hden (Nat.le_refl _))

theorem floorLog2_one (hnum : num ≠ 0) : floorLog2 num 1 = num.log2 := by
  have hle : 2 ^ num.log2 ≤ num := Nat.log2_self_le hnum
  have hone : (1 : Nat).log2 = 0 := by decide
  unfold floorLog2
  dsimp only
  rw [hone, Int.natCast_zero, Int.sub_zero, Int.toNat_natCast, Nat.one_shiftLeft]
  have hneg : (-(num.log2 : Int)).toNat = 0 := by omega
  rw [hneg, Nat.shiftLeft_zero, if_neg (Nat.not_lt.2 hle)]

namespace Binary64

theorem magnitude_lt (x : Binary64) : x.magnitude < signBit := Nat.mod_lt _ (by decide)

theorem toNat_bits_ofMagnitude (negative : Bool) (h : k < signBit) :
    (ofMagnitude negative k).bits.toNat = k + if negative then signBit else 0 := by
  refine UInt64.toNat_ofNat_of_lt' ?_
  rw [show UInt64.size = signBit + signBit from rfl]
  cases negative with
  | false => rw [if_neg (by decide)]; omega
  | true => rw [if_pos rfl]; omega

theorem magnitude_ofMagnitude (negative : Bool) (h : k < signBit) :
    (ofMagnitude negative k).magnitude = k := by
  rw [magnitude, toNat_bits_ofMagnitude negative h]
  cases negative with
  | false => exact Nat.mod_eq_of_lt h
  | true => rw [if_pos rfl, Nat.add_mod_right, Nat.mod_eq_of_lt h]

theorem isNegative_ofMagnitude (negative : Bool) (h : k < signBit) :
    (ofMagnitude negative k).isNegative = negative := by
  rw [isNegative, toNat_bits_ofMagnitude negative h]
  cases negative with
  | false => rw [if_neg (by decide), decide_eq_false_iff_not]; omega
  | true => rw [if_pos rfl, decide_eq_true_eq]; omega

/-- A double is its sign and its magnitude. -/
theorem ofMagnitude_magnitude (x : Binary64) : ofMagnitude x.isNegative x.magnitude = x := by
  have hlt : x.bits.toNat < signBit + signBit := x.bits.toNat_lt
  have hbits := toNat_bits_ofMagnitude x.isNegative x.magnitude_lt
  refine congrArg Binary64.mk (UInt64.toNat_inj.1 (hbits.trans ?_))
  rw [magnitude, isNegative]
  by_cases hsign : signBit ≤ x.bits.toNat
  · rw [if_pos (decide_eq_true hsign), Nat.mod_eq_sub_mod hsign, Nat.mod_eq_of_lt (by omega)]
    omega
  · rw [if_neg (by simpa using hsign), Nat.mod_eq_of_lt (by omega)]
    rfl

theorem nearestMagnitude_le (num den : Nat) : nearestMagnitude num den ≤ infinityBits := by
  unfold nearestMagnitude
  split
  · exact Nat.zero_le _
  · exact Nat.min_le_right _ _

theorem infinityBits_lt_signBit : infinityBits < signBit := by decide

/-- The integer that is kept of a large one: 53 bits from its first, rounded to the nearest. -/
def rounded (m : Nat) : Nat := roundHalfEven m (2 ^ (m.log2 - 52)) * 2 ^ (m.log2 - 52)

theorem ne_zero_of_binade_le (hm : binade ≤ m) : m ≠ 0 := by
  rintro rfl
  exact absurd hm (by decide)

section Large

-- from here on every double is an integer
variable (hm : binade ≤ m)

include hm

theorem le_log2 : 52 ≤ m.log2 := (Nat.le_log2 (ne_zero_of_binade_le hm)).2 hm

/-- The leading 53 bits, or one more when the rounding carries. -/
theorem steps_bounds : binade ≤ roundHalfEven m (2 ^ (m.log2 - 52)) ∧
    roundHalfEven m (2 ^ (m.log2 - 52)) ≤ 2 * binade := by
  have hne := ne_zero_of_binade_le hm
  have hlog := le_log2 hm
  have hpos : 0 < 2 ^ (m.log2 - 52) := Nat.two_pow_pos _
  constructor
  · refine le_roundHalfEven hpos ?_
    rw [show binade = 2 ^ 52 from rfl, ← Nat.pow_add, Nat.add_sub_cancel' hlog]
    exact Nat.log2_self_le hne
  · refine roundHalfEven_le hpos ?_
    rw [show 2 * binade = 2 ^ 53 from rfl, ← Nat.pow_add, show 53 + (m.log2 - 52) = m.log2 + 1 by omega]
    exact Nat.le_of_lt Nat.lt_log2_self

theorem nearestMagnitude_one : nearestMagnitude m 1 =
    min ((m.log2 - 52 + 1074) * binade + roundHalfEven m (2 ^ (m.log2 - 52))) infinityBits := by
  have hne := ne_zero_of_binade_le hm
  have hlog := le_log2 hm
  have hulp : max ((m.log2 : Int) - 52) (-1074) = (m.log2 - 52 : Nat) := by omega
  unfold nearestMagnitude
  dsimp only
  rw [if_neg hne, floorLog2_one hne, hulp, show (-((m.log2 - 52 : Nat) : Int)).toNat = 0 by omega,
    show (((m.log2 - 52 : Nat) : Int) + 1074).toNat = m.log2 - 52 + 1074 by omega, Int.toNat_natCast,
    Nat.shiftLeft_zero, Nat.one_shiftLeft]

end Large

/-- The integer that a double is when no bit of it weighs less than one. -/
def whole (x : Binary64) : Nat := x.significand * 2 ^ x.exponent.toNat

theorem exponent_of_binade {e s : Nat} (h : x.magnitude = (e + 1) * binade + s) (hs : s < binade) :
    x.exponent = (e : Int) - 1074 ∧ x.significand = s + binade := by
  have hdiv : x.magnitude / binade = e + 1 := by
    rw [h, Nat.mul_comm, Nat.mul_add_div (by decide), Nat.div_eq_of_lt hs, Nat.add_zero]
  have hmod : x.magnitude % binade = s := by
    rw [h, Nat.mul_comm, Nat.mul_add_mod, Nat.mod_eq_of_lt hs]
  have hge : ¬ x.magnitude < binade := by
    rw [h, Nat.add_mul]
    omega
  refine ⟨?_, ?_⟩
  · rw [exponent, hdiv]
    omega
  · rw [significand, if_neg hge, hmod]

theorem exponent_of_magnitude {e s : Nat} (h : x.magnitude = (e + 1075) * binade + s)
    (hs : s < binade) : x.exponent = e ∧ x.significand = s + binade := by
  obtain ⟨hexp, hsig⟩ := exponent_of_binade (e := e + 1074) h hs
  exact ⟨by omega, hsig⟩

theorem whole_of_magnitude {e s : Nat} (h : x.magnitude = (e + 1074) * binade + s) (hlow : binade ≤ s)
    (hhigh : s ≤ 2 * binade) : 0 ≤ x.exponent ∧ x.whole = s * 2 ^ e := by
  rcases Nat.lt_or_eq_of_le hhigh with hlt | heq
  · obtain ⟨hexp, hsig⟩ := exponent_of_magnitude (x := x) (e := e) (s := s - binade)
      (by rw [h, Nat.add_mul, Nat.add_mul]; omega) (by omega)
    rw [whole, hexp, hsig, Nat.sub_add_cancel hlow, Int.toNat_natCast]
    exact ⟨Int.natCast_nonneg e, rfl⟩
  · -- the rounding carried: the next power of two has the same magnitude
    obtain ⟨hexp, hsig⟩ := exponent_of_magnitude (x := x) (e := e + 1) (s := 0)
      (by rw [h, heq]; simp only [Nat.add_mul]; omega) (by decide)
    rw [whole, hexp, hsig, heq, Nat.zero_add, Int.toNat_natCast, Nat.pow_succ]
    exact ⟨Int.natCast_nonneg (e + 1), by rw [Nat.mul_comm 2, Nat.mul_assoc, Nat.mul_comm (2 ^ e)]⟩

theorem log2_mul_two_pow {s : Nat} (e : Nat) (hlow : binade ≤ s) (hhigh : s < 2 * binade) :
    (s * 2 ^ e).log2 = 52 + e := by
  have hpos : 0 < s * 2 ^ e := Nat.mul_pos (Nat.lt_of_lt_of_le (by decide) hlow) (Nat.two_pow_pos e)
  refine (Nat.log2_eq_iff (Nat.ne_of_gt hpos)).2 ⟨?_, ?_⟩
  · rw [Nat.pow_add]
    exact Nat.mul_le_mul_right _ hlow
  · rw [show 52 + e + 1 = 53 + e by omega, Nat.pow_add]
    exact Nat.mul_lt_mul_of_pos_right hhigh (Nat.two_pow_pos e)

/-- Doubles that are integers are their own nearest. -/
theorem nearestMagnitude_whole (hfinite : x.isFinite = true) (he : 0 ≤ x.exponent) :
    nearestMagnitude x.whole 1 = x.magnitude := by
  have hdiv : 1075 ≤ x.magnitude / binade := by
    rw [exponent] at he
    omega
  obtain ⟨e, hquot⟩ := Nat.exists_eq_add_of_le' hdiv
  have hsum : x.magnitude = (e + 1075) * binade + x.magnitude % binade := by
    rw [← hquot, Nat.mul_comm]
    exact (Nat.div_add_mod _ _).symm
  have hs : x.magnitude % binade < binade := Nat.mod_lt _ (by decide)
  obtain ⟨hexp, hsig⟩ := exponent_of_magnitude hsum hs
  have hwhole : x.whole = x.significand * 2 ^ e := by rw [whole, hexp, Int.toNat_natCast]
  have hlog : x.whole.log2 - 52 = e := by
    rw [hwhole, log2_mul_two_pow e (by omega) (by omega), Nat.add_sub_cancel_left]
  have hge : binade ≤ x.whole := by
    rw [hwhole]
    exact Nat.le_trans (by omega) (Nat.le_mul_of_pos_right _ (Nat.two_pow_pos e))
  rw [nearestMagnitude_one hge, hlog, hwhole, roundHalfEven_mul_right _ (Nat.two_pow_pos e), hsig]
  have hmagnitude : (e + 1074) * binade + (x.magnitude % binade + binade) = x.magnitude := by
    rw [Nat.add_mul] at hsum ⊢
    omega
  rw [hmagnitude]
  exact Nat.min_eq_left (Nat.le_of_lt (of_decide_eq_true hfinite))

theorem neg_exponent_toNat (he : 0 ≤ x.exponent) : (-x.exponent).toNat = 0 := by omega

theorem round_eq_self (hfinite : x.isFinite = true) (he : 0 ≤ x.exponent) : x.round = x := by
  have hrounded : x.roundedMagnitude = x.whole := by
    rw [roundedMagnitude, neg_exponent_toNat he, Nat.shiftLeft_eq, ← whole, Nat.shiftLeft_zero]
    omega
  rw [round, if_pos hfinite, nearest, hrounded, nearestMagnitude_whole hfinite he, ofMagnitude_magnitude]

theorem toUInt64Saturating_of_exponent (hfinite : x.isFinite = true) (hsign : x.isNegative = false)
    (he : 0 ≤ x.exponent) : x.toUInt64Saturating.toNat = min x.whole (UInt64.size - 1) := by
  have hlt : x.magnitude < infinityBits := of_decide_eq_true hfinite
  have hnan : x.isNaN = false := decide_eq_false (by omega)
  have hinf : x.isInfinite = false := decide_eq_false (by omega)
  have hwhole : x.significand <<< x.exponent.toNat / 1 <<< (-x.exponent).toNat = x.whole := by
    rw [neg_exponent_toNat he, Nat.shiftLeft_zero, Nat.div_one, Nat.shiftLeft_eq, whole]
  rw [toUInt64Saturating, hnan, hsign, hinf, hwhole]
  exact UInt64.toNat_ofNat_of_lt' (Nat.lt_of_le_of_lt (Nat.min_le_right _ _) (by decide))

theorem toUInt64Saturating_of_isNegative (hsign : x.isNegative = true) : x.toUInt64Saturating = 0 := by
  rw [toUInt64Saturating, hsign, Bool.or_true, if_pos rfl]

theorem isNegative_round (x : Binary64) : x.round.isNegative = x.isNegative := by
  rw [round]
  split
  · exact isNegative_ofMagnitude _ (Nat.lt_of_le_of_lt (nearestMagnitude_le _ _) infinityBits_lt_signBit)
  · rfl

theorem two_pow_le_rounded {e : Nat} (hm : binade ≤ m) (h : 52 + e ≤ m.log2) : 2 ^ (52 + e) ≤ rounded m := by
  rw [Nat.pow_add]
  exact Nat.mul_le_mul (steps_bounds hm).1 (Nat.pow_le_pow_right (by decide) (by omega))

/-- A large integer turned into a double and back is rounded to 53 bits and kept in range. -/
theorem toNat_nearest_one (hm : binade ≤ m) :
    (nearest false m 1).round.toUInt64Saturating.toNat = min (rounded m) (UInt64.size - 1) := by
  obtain ⟨hlow, hhigh⟩ := steps_bounds hm
  have hmagnitude := nearestMagnitude_one hm
  have hle := nearestMagnitude_le m 1
  have hlt : nearestMagnitude m 1 < signBit := Nat.lt_of_le_of_lt hle infinityBits_lt_signBit
  have hx : (nearest false m 1).magnitude = nearestMagnitude m 1 := magnitude_ofMagnitude false hlt
  rcases Nat.lt_or_eq_of_le hle with hfinite | hinfinite
  · have hsteps : nearestMagnitude m 1 =
        (m.log2 - 52 + 1074) * binade + roundHalfEven m (2 ^ (m.log2 - 52)) := by omega
    obtain ⟨hexp, hwhole⟩ := whole_of_magnitude (hx.trans hsteps) hlow hhigh
    have hisFinite : (nearest false m 1).isFinite = true := decide_eq_true (hx ▸ hfinite)
    rw [round_eq_self hisFinite hexp,
      toUInt64Saturating_of_exponent hisFinite (isNegative_ofMagnitude false hlt) hexp, hwhole, rounded]
  · have hlog : 52 + 12 ≤ m.log2 := by
      have hbound : infinityBits ≤ (m.log2 - 52 + 1074) * binade + 2 * binade := by omega
      rw [← Nat.add_mul] at hbound
      have := Nat.le_of_mul_le_mul_right (show 2047 * binade ≤ _ from hbound) (by decide)
      omega
    have hrounded : UInt64.size - 1 ≤ rounded m :=
      Nat.le_trans (by decide) (two_pow_le_rounded hm hlog)
    rw [Nat.min_eq_right hrounded, nearest, hinfinite]
    decide

theorem rounded_of_lt (hlow : 0x8000000000000000 ≤ m) (hhigh : m < UInt64.size) :
    rounded m = roundHalfEven m 2048 * 2048 := by
  have hlog : m.log2 = 63 := (Nat.log2_eq_iff (by omega)).2 ⟨hlow, hhigh⟩
  rw [rounded, hlog, show (2 : Nat) ^ (63 - 52) = 2048 from rfl]

/-- An integer of 64 bits without its sign is rounded to a multiple of 2048. -/
theorem toNat_nearest_of_lt (hlow : 0x8000000000000000 ≤ m) (hhigh : m < UInt64.size) :
    (nearest false m 1).round.toUInt64Saturating.toNat =
      min (roundHalfEven m 2048 * 2048) (UInt64.size - 1) := by
  rw [toNat_nearest_one (Nat.le_trans (by decide) hlow), rounded_of_lt hlow hhigh]

theorem toNat_nearest_of_size_le (h : UInt64.size ≤ m) :
    (nearest false m 1).round.toUInt64Saturating.toNat = UInt64.size - 1 := by
  have hm : binade ≤ m := Nat.le_trans (by decide) h
  have hlog : 52 + 12 ≤ m.log2 := (Nat.le_log2 (ne_zero_of_binade_le hm)).2 h
  rw [toNat_nearest_one hm, Nat.min_eq_right (Nat.le_trans (by decide) (two_pow_le_rounded hm hlog))]

theorem isNegative_ofDecimal (negative : Bool) (d : Decimal) :
    (ofDecimal negative d).isNegative = negative := by
  unfold ofDecimal
  dsimp only
  split
  · exact isNegative_ofMagnitude negative (by decide)
  split
  · exact isNegative_ofMagnitude negative infinityBits_lt_signBit
  split
  · exact isNegative_ofMagnitude negative (by decide)
  · exact isNegative_ofMagnitude negative
      (Nat.lt_of_le_of_lt (nearestMagnitude_le _ _) infinityBits_lt_signBit)

/-- An integer in digits gives the nearest double. Only one far out of range is not computed. -/
theorem ofDecimal_integer (negative : Bool) (hm : m ≠ 0) : ofDecimal negative ⟨m, 0⟩ = nearest negative m 1 ∨
    UInt64.size ≤ m ∧ ofDecimal negative ⟨m, 0⟩ = infinity negative := by
  unfold ofDecimal
  dsimp only
  rw [if_neg hm, Int.add_zero]
  split
  · next hplace =>
    have hlong : ¬ (Nat.toDigits 10 m).length ≤ 20 := by
      rw [floorLog10] at hplace
      omega
    rw [Nat.length_toDigits_le_iff (by decide) (by decide), Nat.not_lt] at hlong
    exact .inr ⟨Nat.le_trans (by decide) hlong, rfl⟩
  · rw [if_neg (by omega)]
    exact .inl (by rw [show Text.tenTo (0 : Int).toNat = 1 from rfl, Nat.mul_one]; rfl)

theorem toNat_ofDecimal_of_lt (hlow : 0x8000000000000000 ≤ m) (hhigh : m < UInt64.size) :
    (ofDecimal false ⟨m, 0⟩).round.toUInt64Saturating.toNat =
      min (roundHalfEven m 2048 * 2048) (UInt64.size - 1) := by
  rcases ofDecimal_integer false (m := m) (by omega) with hnearest | ⟨hlarge, -⟩
  · rw [hnearest, toNat_nearest_of_lt hlow hhigh]
  · omega

theorem toNat_ofDecimal_of_size_le (h : UInt64.size ≤ m) :
    (ofDecimal false ⟨m, 0⟩).round.toUInt64Saturating.toNat = UInt64.size - 1 := by
  have hm : binade ≤ m := Nat.le_trans (by decide) h
  rcases ofDecimal_integer false (ne_zero_of_binade_le hm) with hnearest | ⟨-, hinfinite⟩
  · rw [hnearest, toNat_nearest_of_size_le h]
  · rw [hinfinite]
    decide

theorem toUInt64Saturating_ofDecimal_true (d : Decimal) : (ofDecimal true d).round.toUInt64Saturating = 0 :=
  toUInt64Saturating_of_isNegative ((isNegative_round _).trans (isNegative_ofDecimal true d))

end Binary64

end LiveQuery
