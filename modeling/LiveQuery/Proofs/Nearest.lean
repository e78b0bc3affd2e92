import Mathlib.Algebra.Order.Field.Power
import Mathlib.Algebra.Order.Field.Rat
import Mathlib.Tactic.Linarith
import Mathlib.Tactic.Positivity
import LiveQuery.Proofs.Rounding

namespace LiveQuery

variable {num den a e e' s s' k : Nat} {u : Int} {x y : Binary64}

theorem two_pow_toNat (u : Int) : (2 : ℚ) ^ u.toNat = 2 ^ u * 2 ^ (-u).toNat := by
  rw [← zpow_natCast, ← zpow_natCast, ← zpow_add₀ two_ne_zero]
  congr 1
  omega

theorem cast_shiftLeft_toNat (n : Nat) (u : Int) :
    ((n <<< u.toNat : Nat) : ℚ) = n * 2 ^ u * 2 ^ (-u).toNat := by
  rw [Nat.shiftLeft_eq, Nat.cast_mul, Nat.cast_pow, Nat.cast_ofNat, two_pow_toNat, mul_assoc]

theorem cast_shiftLeft_neg_toNat (n : Nat) (u : Int) :
    ((n <<< (-u).toNat : Nat) : ℚ) = n * 2 ^ (-u).toNat := by
  rw [Nat.shiftLeft_eq, Nat.cast_mul, Nat.cast_pow, Nat.cast_ofNat]

/-- Shifting either side of a comparison is scaling by a power of two. -/
theorem mul_shiftLeft_le_iff :
    a * den <<< u.toNat ≤ num <<< (-u).toNat ↔ (a * (den * 2 ^ u) : ℚ) ≤ num := by
  rw [← Nat.cast_le (α := ℚ), Nat.cast_mul, cast_shiftLeft_toNat den, cast_shiftLeft_neg_toNat num,
    ← mul_assoc]
  exact mul_le_mul_iff_left₀ (pow_pos two_pos _)

theorem le_mul_shiftLeft_iff :
    num <<< (-u).toNat ≤ a * den <<< u.toNat ↔ (num : ℚ) ≤ a * (den * 2 ^ u) := by
  rw [← Nat.cast_le (α := ℚ), Nat.cast_mul, cast_shiftLeft_toNat den, cast_shiftLeft_neg_toNat num,
    ← mul_assoc]
  exact mul_le_mul_iff_left₀ (pow_pos two_pos _)

theorem cast_log2_bounds (hk : k ≠ 0) :
    (2 : ℚ) ^ (k.log2 : Int) ≤ k ∧ (k : ℚ) < 2 ^ ((k.log2 : Int) + 1) := by
  constructor
  · rw [zpow_natCast]
    exact_mod_cast Nat.log2_self_le hk
  · rw [← Nat.cast_succ, zpow_natCast]
    exact_mod_cast Nat.lt_log2_self

/-- The exponent of a quotient: it is between this power of two and the next. -/
theorem floorLog2_bounds (hnum : num ≠ 0) (hden : den ≠ 0) :
    (den * 2 ^ floorLog2 num den : ℚ) ≤ num ∧ (num : ℚ) < den * 2 ^ (floorLog2 num den + 1) := by
  obtain ⟨hnum', hnum⟩ := cast_log2_bounds hnum
  obtain ⟨hden', hden⟩ := cast_log2_bounds hden
  have hscaled (u : Int) : den <<< u.toNat ≤ num <<< (-u).toNat ↔ (den * 2 ^ u : ℚ) ≤ num := by
    have hone := @mul_shiftLeft_le_iff num den 1 u
    rwa [Nat.one_mul, Nat.cast_one, one_mul] at hone
  unfold floorLog2
  dsimp only
  split
  · next hlt =>
    rw [← Nat.not_le, hscaled, not_le] at hlt
    refine ⟨?_, by rwa [sub_add_cancel]⟩
    calc (den * 2 ^ ((num.log2 : Int) - den.log2 - 1) : ℚ)
        ≤ 2 ^ ((den.log2 : Int) + 1) * 2 ^ ((num.log2 : Int) - den.log2 - 1) := by gcongr
      _ = 2 ^ (num.log2 : Int) := by rw [← zpow_add₀ two_ne_zero]; congr 1; omega
      _ ≤ num := hnum'
  · next hle =>
    rw [Nat.not_lt, hscaled] at hle
    refine ⟨hle, hnum.trans_le ?_⟩
    calc (2 : ℚ) ^ ((num.log2 : Int) + 1)
        = 2 ^ (den.log2 : Int) * 2 ^ ((num.log2 : Int) - den.log2 + 1) := by
          rw [← zpow_add₀ two_ne_zero]; congr 1; omega
      _ ≤ den * 2 ^ ((num.log2 : Int) - den.log2 + 1) := by gcongr

namespace Binary64

/-! Doubles as numbers -/

/-- The number that a finite double is without its sign. -/
def value (x : Binary64) : ℚ := x.significand * 2 ^ x.exponent

/-- A magnitude as so many binades and steps: the steps are doubled in each binade. A last step may carry
into the next binade. -/
def IsForm (e s : Nat) : Prop := (e = 0 ∨ binade ≤ s) ∧ s ≤ 2 * binade

theorem exists_form (x : Binary64) : ∃ e s, x.magnitude = e * binade + s ∧ IsForm e s ∧ s < 2 * binade := by
  have hdiv := Nat.div_add_mod' x.magnitude binade
  have hmod := Nat.mod_lt x.magnitude (show 0 < binade by decide)
  by_cases hlt : x.magnitude < binade
  · exact ⟨0, x.magnitude, by omega, ⟨.inl rfl, by omega⟩, by omega⟩
  · have hquot : x.magnitude / binade - 1 + 1 = x.magnitude / binade :=
      Nat.sub_add_cancel ((Nat.one_le_div_iff (by decide)).2 (Nat.not_lt.1 hlt))
    rw [← hquot, Nat.add_mul] at hdiv
    exact ⟨x.magnitude / binade - 1, x.magnitude % binade + binade, by omega, ⟨.inr (by omega), by omega⟩,
      by omega⟩

theorem value_of_magnitude (h : x.magnitude = e * binade + s) (hform : IsForm e s) :
    x.value = s * 2 ^ ((e : Int) - 1074) := by
  obtain ⟨hlow, hhigh⟩ := hform
  rw [value]
  rcases Nat.lt_or_ge s binade with hlt | hge
  · -- only the first binade has so few steps
    obtain rfl : e = 0 := by omega
    rw [Nat.zero_mul, Nat.zero_add] at h
    rw [significand, exponent, h, if_pos hlt, Nat.div_eq_of_lt hlt]
    rfl
  rcases Nat.lt_or_eq_of_le hhigh with hlt | rfl
  · obtain ⟨hexp, hsig⟩ := exponent_of_binade (x := x) (e := e) (s := s - binade)
      (by rw [h, Nat.add_mul]; omega) (by omega)
    rw [hexp, hsig, Nat.sub_add_cancel hge]
  · obtain ⟨hexp, hsig⟩ := exponent_of_binade (x := x) (e := e + 1) (s := 0)
      (by rw [h]; simp only [Nat.add_mul]; omega) (by decide)
    rw [hexp, hsig, Nat.zero_add, Nat.cast_mul, Nat.cast_ofNat, mul_comm 2, mul_assoc,
      ← zpow_one_add₀ two_ne_zero, Nat.cast_add_one]
    congr 2
    omega

theorem scaled_add (s e j : Nat) :
    (s * 2 ^ (((e + j : Nat) : Int) - 1074) : ℚ) = (s * 2 ^ j : Nat) * 2 ^ ((e : Int) - 1074) := by
  rw [Nat.cast_mul, Nat.cast_pow, Nat.cast_ofNat, mul_assoc, ← zpow_natCast 2 j, ← zpow_add₀ two_ne_zero]
  congr 2
  omega

theorem binade_two_mul_le {j : Nat} (hj : 0 < j) (hs : binade ≤ s) : 2 * binade ≤ s * 2 ^ j := by
  rw [Nat.mul_comm 2]
  exact Nat.mul_le_mul hs (Nat.le_pow hj)

/-- Doubles without their signs order as their magnitudes. -/
theorem value_le_value (h : x.magnitude ≤ y.magnitude) : x.value ≤ y.value := by
  obtain ⟨e, s, hx, hform, hlt⟩ := x.exists_form
  obtain ⟨e', s', hy, hform', hlt'⟩ := y.exists_form
  rw [value_of_magnitude hx hform, value_of_magnitude hy hform']
  obtain ⟨hlow, -⟩ := hform
  obtain ⟨hlow', -⟩ := hform'
  rw [hx, hy] at h
  have hle : e ≤ e' := by
    rw [binade] at h hlow hlt hlt'
    omega
  obtain ⟨j, rfl⟩ := Nat.exists_eq_add_of_le hle
  have hsteps : s ≤ s' * 2 ^ j := by
    rcases Nat.eq_zero_or_pos j with rfl | hj
    · rw [Nat.add_zero] at h
      omega
    · exact (Nat.le_of_lt hlt).trans (binade_two_mul_le hj (by omega))
  rw [scaled_add]
  exact mul_le_mul_of_nonneg_right (Nat.cast_le.2 hsteps) (by positivity)

/-! The nearest double -/

/-- A quotient is this many steps of a form: rounding keeps it between the whole numbers of steps that it
is between. -/
structure RoundsTo (num den e s : Nat) : Prop where
  form : IsForm e s
  large : e = 0 ∨ (binade * (den * 2 ^ ((e : Int) - 1074)) : ℚ) ≤ num
  le (a : Nat) : (num : ℚ) ≤ a * (den * 2 ^ ((e : Int) - 1074)) → s ≤ a
  ge (a : Nat) : (a * (den * 2 ^ ((e : Int) - 1074)) : ℚ) ≤ num → a ≤ s

theorem exists_roundsTo (hnum : num ≠ 0) (hden : den ≠ 0) :
    ∃ e s, RoundsTo num den e s ∧ nearestMagnitude num den = min (e * binade + s) infinityBits := by
  obtain ⟨hlower, hupper⟩ := floorLog2_bounds hnum hden
  obtain ⟨ulp, hulp⟩ : ∃ ulp, ulp = max (floorLog2 num den - 52) (-1074) := ⟨_, rfl⟩
  obtain ⟨e, he⟩ := Int.eq_ofNat_of_zero_le (show 0 ≤ ulp + 1074 by omega)
  have hpos : 0 < den <<< ulp.toNat := by
    rw [Nat.shiftLeft_eq]
    exact Nat.mul_pos (Nat.pos_of_ne_zero hden) (Nat.two_pow_pos _)
  have hexp : (e : Int) - 1074 = ulp := by omega
  have hge (a : Nat) (h : (a * (den * 2 ^ ulp) : ℚ) ≤ num) :
      a ≤ roundHalfEven (num <<< (-ulp).toNat) (den <<< ulp.toNat) :=
    le_roundHalfEven hpos (mul_shiftLeft_le_iff.2 h)
  have hle (a : Nat) (h : (num : ℚ) ≤ a * (den * 2 ^ ulp)) :
      roundHalfEven (num <<< (-ulp).toNat) (den <<< ulp.toNat) ≤ a :=
    roundHalfEven_le hpos (le_mul_shiftLeft_iff.2 h)
  -- above the least exponent the significand is normal
  have hlarge : e = 0 ∨ (binade * (den * 2 ^ ulp) : ℚ) ≤ num := by
    refine or_iff_not_imp_left.2 fun hne => ?_
    have hfloor : floorLog2 num den = 52 + ulp := by omega
    rwa [hfloor, zpow_add₀ two_ne_zero, ← mul_assoc, mul_comm (den : ℚ), mul_assoc] at hlower
  refine ⟨e, roundHalfEven (num <<< (-ulp).toNat) (den <<< ulp.toNat),
    ⟨⟨hlarge.imp_right (hge _), hle _ ?_⟩, ?_, ?_, ?_⟩, ?_⟩
  · calc (num : ℚ) ≤ den * 2 ^ (floorLog2 num den + 1) := hupper.le
      _ ≤ den * 2 ^ (53 + ulp) :=
        mul_le_mul_of_nonneg_left (zpow_le_zpow_right₀ one_le_two (by omega)) (Nat.cast_nonneg _)
      _ = (2 * binade : Nat) * (den * 2 ^ ulp) := by
        rw [zpow_add₀ two_ne_zero, ← mul_assoc, mul_comm (den : ℚ), mul_assoc]
        rfl
  · rwa [hexp]
  · rwa [hexp]
  · rwa [hexp]
  · unfold nearestMagnitude
    dsimp only
    rw [if_neg hnum, ← hulp, he]
    rfl

/-- Rounding to the nearest double does not go below a double that is at most the number. -/
theorem magnitude_le_nearestMagnitude (hfinite : x.isFinite = true) (hpos : 0 < x.value)
    (hden : den ≠ 0) (h : x.value * den ≤ num) : x.magnitude ≤ nearestMagnitude num den := by
  have hnum : num ≠ 0 := by
    rintro rfl
    exact absurd h (not_le.2 (mul_pos hpos (Nat.cast_pos.2 (Nat.pos_of_ne_zero hden))))
  have hlt : x.magnitude < infinityBits := of_decide_eq_true hfinite
  obtain ⟨e', s', hx, hform', hlt'⟩ := x.exists_form
  rw [value_of_magnitude hx hform'] at h
  obtain ⟨e, s, ⟨⟨hlow, hhigh⟩, hlarge, -, hge⟩, heq⟩ := exists_roundsTo hnum hden
  rw [heq, Nat.le_min]
  refine ⟨?_, Nat.le_of_lt hlt⟩
  rw [hx]
  rcases Nat.lt_or_ge e' e with hbelow | habove
  · rw [binade] at hlow hlt' ⊢
    omega
  · obtain ⟨j, rfl⟩ := Nat.exists_eq_add_of_le habove
    rw [scaled_add] at h
    have hsteps : s' * 2 ^ j ≤ s := hge _ (by rwa [mul_comm (den : ℚ), ← mul_assoc])
    have hbinades : binade * j ≤ s' * j := by
      rcases Nat.eq_zero_or_pos j with rfl | hj
      · exact Nat.le_refl _
      · exact Nat.mul_le_mul_right j (hform'.1.resolve_left (by omega))
    have hdoubled : s' * (j + 1) ≤ s' * 2 ^ j := Nat.mul_le_mul_left s' Nat.lt_two_pow_self
    rw [Nat.mul_succ] at hdoubled
    rw [Nat.add_mul, Nat.mul_comm j]
    omega

/-- Rounding to the nearest double does not go above a double that is at least the number. -/
theorem nearestMagnitude_le_magnitude (hden : den ≠ 0) (h : (num : ℚ) ≤ x.value * den) :
    nearestMagnitude num den ≤ x.magnitude := by
  obtain ⟨e', s', hx, ⟨hlow', -⟩, hlt'⟩ := x.exists_form
  by_cases hnum : num = 0
  · rw [nearestMagnitude, if_pos hnum]
    exact Nat.zero_le _
  rw [value_of_magnitude hx ⟨hlow', Nat.le_of_lt hlt'⟩] at h
  obtain ⟨e, s, ⟨⟨hlow, hhigh⟩, hlarge, hle, -⟩, heq⟩ := exists_roundsTo hnum hden
  rw [heq, hx]
  refine (Nat.min_le_left _ _).trans ?_
  rcases Nat.lt_or_ge e' e with hbelow | habove
  · -- the number is at least the first double of its binade, and the other double is below that one
    obtain ⟨j, rfl⟩ := Nat.exists_eq_add_of_lt hbelow
    have hnum := (hlarge.resolve_left (by omega)).trans h
    rw [mul_comm (den : ℚ), ← mul_assoc, Nat.add_assoc, scaled_add] at hnum
    have hsteps := le_of_mul_le_mul_right (le_of_mul_le_mul_right hnum (by positivity)) (by positivity)
    have hcarry := binade_two_mul_le j.succ_pos (Nat.le_refl binade)
    exact absurd (hcarry.trans (Nat.cast_le.1 hsteps)) (Nat.not_le.2 hlt')
  · obtain ⟨j, rfl⟩ := Nat.exists_eq_add_of_le habove
    rw [scaled_add] at h
    have hsteps : s ≤ s' * 2 ^ j := hle _ (by rwa [mul_comm (den : ℚ), ← mul_assoc])
    rcases Nat.eq_zero_or_pos j with rfl | hj
    · rw [Nat.pow_zero, Nat.mul_one] at hsteps
      exact Nat.add_le_add_left hsteps _
    · have hbinades : binade ≤ j * binade := Nat.le_mul_of_pos_left binade hj
      rw [Nat.add_mul]
      omega

/-! Integers -/

theorem magnitude_nearest (negative : Bool) (num den : Nat) :
    (nearest negative num den).magnitude = nearestMagnitude num den :=
  magnitude_ofMagnitude negative (Nat.lt_of_le_of_lt (nearestMagnitude_le num den) infinityBits_lt_signBit)

theorem magnitude_ofNat (n : Nat) : (ofNat n).magnitude = nearestMagnitude n 1 := magnitude_nearest false n 1

theorem isNegative_nearest (negative : Bool) (num den : Nat) :
    (nearest negative num den).isNegative = negative :=
  isNegative_ofMagnitude negative (Nat.lt_of_le_of_lt (nearestMagnitude_le num den) infinityBits_lt_signBit)

theorem isNaN_nearest (negative : Bool) (num den : Nat) : (nearest negative num den).isNaN = false := by
  rw [isNaN, magnitude_nearest]
  exact decide_eq_false (Nat.not_lt.2 (nearestMagnitude_le num den))

/-- The bits of an integer of at most 53, moved up to fill a binade. -/
theorem exists_isForm (hk : k ≠ 0) (hle : k ≤ 2 ^ 53) : ∃ e j, e + j = 1074 ∧ IsForm e (k * 2 ^ j) := by
  have hlower : 2 ^ k.log2 ≤ k := Nat.log2_self_le hk
  have hupper : k ≤ 2 ^ (k.log2 + 1) := Nat.le_of_lt Nat.lt_log2_self
  rcases Nat.lt_or_ge k.log2 53 with hlog | hlog
  · obtain ⟨j, hj⟩ := Nat.exists_eq_add_of_le (Nat.le_of_lt_succ hlog)
    have hbinade : binade = 2 ^ k.log2 * 2 ^ j := by rw [← Nat.pow_add, ← hj]; rfl
    refine ⟨1074 - j, j, by omega, .inr ?_, ?_⟩
    · rw [hbinade]
      exact Nat.mul_le_mul_right _ hlower
    · rw [hbinade, ← Nat.mul_assoc, ← Nat.pow_succ']
      exact Nat.mul_le_mul_right _ hupper
  · have hlarge : 2 ^ 53 ≤ k := (Nat.pow_le_pow_right (by decide) hlog).trans hlower
    rw [Nat.le_antisymm hle hlarge]
    exact ⟨1074, 0, rfl, .inr (by decide), by decide⟩

/-- Integers of at most 53 bits are doubles. -/
theorem value_ofNat (hk : k ≠ 0) (hle : k ≤ 2 ^ 53) : (ofNat k).value = k := by
  obtain ⟨e, j, hsum, hform⟩ := exists_isForm hk hle
  have hbound : e * binade + k * 2 ^ j < infinityBits := by
    have hsteps := hform.2
    rw [infinityBits]
    rw [binade] at hsteps ⊢
    omega
  have hmagnitude := magnitude_ofMagnitude false (hbound.trans infinityBits_lt_signBit)
  have hvalue : (ofMagnitude false (e * binade + k * 2 ^ j)).value = k := by
    rw [value_of_magnitude hmagnitude hform, ← scaled_add, hsum]
    exact mul_one _
  have hnearest : nearestMagnitude k 1 = e * binade + k * 2 ^ j := by
    rw [← hmagnitude]
    refine Nat.le_antisymm (nearestMagnitude_le_magnitude one_ne_zero ?_)
      (magnitude_le_nearestMagnitude ?_ ?_ one_ne_zero ?_)
    · rw [hvalue, Nat.cast_one, mul_one]
    · rw [isFinite, hmagnitude]
      exact decide_eq_true hbound
    · rw [hvalue]
      exact Nat.cast_pos.2 (Nat.pos_of_ne_zero hk)
    · rw [hvalue, Nat.cast_one, mul_one]
  rw [ofNat, nearest, hnearest, hvalue]

/-- Integers of at most a hundred bits are not too large for a double. -/
theorem isFinite_ofNat (hle : k ≤ 2 ^ 100) : (ofNat k).isFinite = true := by
  have hform : IsForm 1122 binade := ⟨.inr (Nat.le_refl _), by decide⟩
  have hmagnitude : (ofMagnitude false (1122 * binade + binade)).magnitude = 1122 * binade + binade :=
    magnitude_ofMagnitude false (by decide)
  have hvalue : (ofMagnitude false (1122 * binade + binade)).value = (2 ^ 100 : Nat) := by
    rw [value_of_magnitude hmagnitude hform]
    norm_num [binade]
  have hnearest : nearestMagnitude k 1 ≤ 1122 * binade + binade := by
    rw [← hmagnitude]
    refine nearestMagnitude_le_magnitude one_ne_zero ?_
    rw [hvalue, Nat.cast_one, mul_one]
    exact_mod_cast hle
  rw [isFinite, magnitude_ofNat]
  exact decide_eq_true (Nat.lt_of_le_of_lt hnearest (by decide))

theorem nearestMagnitude_le_of_le {n : Nat} (hk : k ≠ 0) (hle : k ≤ 2 ^ 53) (h : k ≤ n) :
    nearestMagnitude k 1 ≤ nearestMagnitude n 1 := by
  have hvalue := value_ofNat hk hle
  rw [← magnitude_ofNat k]
  refine magnitude_le_nearestMagnitude (isFinite_ofNat (hle.trans (by decide))) ?_ one_ne_zero ?_
  · rw [hvalue]
    exact Nat.cast_pos.2 (Nat.pos_of_ne_zero hk)
  · rw [hvalue, Nat.cast_one, mul_one]
    exact Nat.cast_le.2 h

/-! Arithmetic -/

theorem one_shiftLeft_pos (n : Nat) : 0 < 1 <<< n := by
  rw [Nat.one_shiftLeft]
  exact Nat.two_pow_pos n

theorem isNaN_of_isFinite (h : x.isFinite = true) : x.isNaN = false :=
  decide_eq_false (Nat.not_lt.2 (Nat.le_of_lt (of_decide_eq_true h)))

theorem isInfinite_of_isFinite (h : x.isFinite = true) : x.isInfinite = false :=
  decide_eq_false (Nat.ne_of_lt (of_decide_eq_true h))

theorem mul_of_isFinite (hx : x.isFinite = true) (hy : y.isFinite = true) :
    x.mul y = nearestScaled (x.isNegative != y.isNegative) (x.significand * y.significand)
      (x.exponent + y.exponent) := by
  unfold mul
  dsimp only
  rw [isNaN_of_isFinite hx, isNaN_of_isFinite hy, isInfinite_of_isFinite hx, isInfinite_of_isFinite hy]
  rfl

theorem significand_mul_significand (x y : Binary64) :
    ((x.significand * y.significand : Nat) * 2 ^ (x.exponent + y.exponent) : ℚ) = x.value * y.value := by
  rw [value, value, Nat.cast_mul, zpow_add₀ two_ne_zero]
  exact mul_mul_mul_comm _ _ _ _

/-- A product with a factor of at least one is no smaller. -/
theorem magnitude_le_mul (hx : x.isFinite = true) (hy : y.isFinite = true) (hpos : 0 < x.value)
    (hone : 1 ≤ y.value) : x.magnitude ≤ (x.mul y).magnitude := by
  rw [mul_of_isFinite hx hy, nearestScaled, magnitude_nearest]
  refine magnitude_le_nearestMagnitude hx hpos (Nat.ne_of_gt (one_shiftLeft_pos _)) ?_
  rw [cast_shiftLeft_neg_toNat, cast_shiftLeft_toNat, significand_mul_significand, Nat.cast_one, one_mul]
  gcongr
  exact le_mul_of_one_le_right hpos.le hone

/-- The double nearest to a scaled integer does not go above a double that is at least that. -/
theorem magnitude_nearestScaled_le (negative : Bool) (h : (k * 2 ^ u : ℚ) ≤ x.value) :
    (nearestScaled negative k u).magnitude ≤ x.magnitude := by
  rw [nearestScaled, magnitude_nearest]
  refine nearestMagnitude_le_magnitude (Nat.ne_of_gt (one_shiftLeft_pos _)) ?_
  rw [cast_shiftLeft_neg_toNat, cast_shiftLeft_toNat, Nat.cast_one, one_mul]
  gcongr

/-- A product with a factor of at most one is no larger. -/
theorem magnitude_mul_le (hx : x.isFinite = true) (hy : y.isFinite = true) (hone : y.value ≤ 1) :
    (x.mul y).magnitude ≤ x.magnitude := by
  rw [mul_of_isFinite hx hy]
  refine magnitude_nearestScaled_le _ ?_
  rw [significand_mul_significand]
  exact mul_le_of_le_one_right (by rw [value]; positivity) hone

theorem magnitude_neg (x : Binary64) : x.neg.magnitude = x.magnitude := magnitude_ofMagnitude _ x.magnitude_lt

theorem isNegative_neg (x : Binary64) : x.neg.isNegative = !x.isNegative := isNegative_ofMagnitude _ x.magnitude_lt

theorem value_neg (x : Binary64) : x.neg.value = x.value := by
  simp only [value, significand, exponent, magnitude_neg]

theorem isFinite_neg (x : Binary64) : x.neg.isFinite = x.isFinite := by
  rw [isFinite, isFinite, magnitude_neg]

/-- A multiple of a power of two that is no finer than the double's own is the double. -/
theorem multipleOf_mul_two_pow (h : u ≤ x.exponent) :
    (x.multipleOf u * 2 ^ u : ℚ) = if x.isNegative then -x.value else x.value := by
  have hshift : ((x.significand <<< (x.exponent - u).toNat : Nat) * 2 ^ u : ℚ) = x.value := by
    rw [Nat.shiftLeft_eq, Nat.cast_mul, Nat.cast_pow, Nat.cast_ofNat, ← zpow_natCast, mul_assoc,
      ← zpow_add₀ two_ne_zero, value]
    congr 2
    omega
  rw [multipleOf, ← hshift, Int.cast_mul, Int.cast_natCast]
  split
  · rw [Int.cast_neg, Int.cast_one, neg_one_mul, neg_mul]
  · rw [Int.cast_one, one_mul]

theorem value_of_magnitude_eq_zero (h : x.magnitude = 0) : x.value = 0 := by
  rw [value, significand, h, if_pos (by decide), Nat.cast_zero, zero_mul]

/-- A difference that stays above zero is no larger than what is taken from. -/
theorem sub_le_left (hx : x.isFinite = true) (hy : y.isFinite = true) (hxsign : x.isNegative = false)
    (hysign : y.isNegative = true → y.magnitude = 0) (hpos : 0 < x.value) (hle : y.value ≤ x.value) :
    (x.sub y).isNegative = false ∧ (x.sub y).magnitude ≤ x.magnitude := by
  have hzero : x.isZero = false :=
    decide_eq_false fun hzero => hpos.ne' (value_of_magnitude_eq_zero hzero)
  have hy' : y.neg.isFinite = true := (isFinite_neg y).trans hy
  let e := min x.exponent y.neg.exponent
  let sum := x.multipleOf e + y.neg.multipleOf e
  have hsub : x.sub y = nearestScaled (sum < 0) sum.natAbs e := by
    rw [sub, add, isNaN_of_isFinite hx, isNaN_of_isFinite hy', isInfinite_of_isFinite hx,
      isInfinite_of_isFinite hy', hzero]
    rfl
  have hsum : (sum * 2 ^ e : ℚ) = x.value - y.value := by
    rw [Int.cast_add, add_mul, multipleOf_mul_two_pow (Int.min_le_left _ _),
      multipleOf_mul_two_pow (Int.min_le_right _ _), isNegative_neg, hxsign, value_neg]
    cases hsign : y.isNegative with
    | false => exact (sub_eq_add_neg _ _).symm
    | true =>
      rw [value_of_magnitude_eq_zero (hysign hsign), sub_zero]
      exact add_zero _
  have hnonneg : 0 ≤ sum := by
    have hproduct : (0 : ℚ) ≤ sum * 2 ^ e := hsum ▸ sub_nonneg.2 hle
    exact_mod_cast nonneg_of_mul_nonneg_left hproduct (zpow_pos two_pos e)
  rw [hsub]
  constructor
  · rw [nearestScaled, isNegative_nearest]
    exact decide_eq_false (Int.not_lt.2 hnonneg)
  · refine magnitude_nearestScaled_le _ ?_
    have hcast : ((sum.natAbs : Nat) : ℚ) = sum := by
      rw [← Int.cast_natCast, Int.natAbs_of_nonneg hnonneg]
    have hother : 0 ≤ y.value := by
      rw [value]
      positivity
    rw [hcast, hsum]
    exact sub_le_self _ hother

theorem mul_shiftLeft_le_significand : k * 1 <<< (-x.exponent).toNat ≤ x.significand <<< x.exponent.toNat ↔
    (k : ℚ) ≤ x.value := by
  have hpos : (0 : ℚ) < 2 ^ (-x.exponent).toNat := pow_pos two_pos _
  rw [← Nat.cast_le (α := ℚ), Nat.cast_mul, cast_shiftLeft_neg_toNat, cast_shiftLeft_toNat, Nat.cast_one,
    one_mul, ← value]
  exact mul_le_mul_iff_left₀ hpos

theorem significand_le_mul_shiftLeft : x.significand <<< x.exponent.toNat ≤ k * 1 <<< (-x.exponent).toNat ↔
    x.value ≤ k := by
  have hpos : (0 : ℚ) < 2 ^ (-x.exponent).toNat := pow_pos two_pos _
  rw [← Nat.cast_le (α := ℚ), Nat.cast_mul, cast_shiftLeft_neg_toNat, cast_shiftLeft_toNat, Nat.cast_one,
    one_mul, ← value]
  exact mul_le_mul_iff_left₀ hpos

/-- Rounding to an integer does not go below an integer of at most 53 bits. -/
theorem magnitude_ofNat_le_round (hk : k ≠ 0) (hle : k ≤ 2 ^ 53) (h : (ofNat k).magnitude ≤ x.magnitude) :
    (ofNat k).magnitude ≤ x.round.magnitude := by
  rw [round]
  split
  · next hfinite =>
    have hvalue : (k : ℚ) ≤ x.value := value_ofNat hk hle ▸ value_le_value h
    have hrounded : k ≤ x.roundedMagnitude := by
      rw [← mul_shiftLeft_le_significand] at hvalue
      rw [roundedMagnitude, Nat.le_div_iff_mul_le (Nat.mul_pos two_pos (one_shiftLeft_pos _)),
        Nat.mul_left_comm]
      exact Nat.le_add_right_of_le (Nat.mul_le_mul_left 2 hvalue)
    rw [magnitude_ofNat, magnitude_nearest]
    exact nearestMagnitude_le_of_le hk hle hrounded
  · exact h

/-- Rounding to an integer does not go above an integer of at most 53 bits. -/
theorem magnitude_round_le_ofNat (hk : k ≠ 0) (hle : k ≤ 2 ^ 53) (h : x.magnitude ≤ (ofNat k).magnitude) :
    x.round.magnitude ≤ (ofNat k).magnitude := by
  rw [round]
  split
  · have hvalue : x.value ≤ k := value_ofNat hk hle ▸ value_le_value h
    have hrounded : x.roundedMagnitude ≤ k := by
      rw [← significand_le_mul_shiftLeft] at hvalue
      have hpos := one_shiftLeft_pos (-x.exponent).toNat
      refine Nat.lt_succ_iff.1 (Nat.div_lt_of_lt_mul ?_)
      rw [Nat.mul_succ, Nat.mul_assoc, Nat.mul_comm _ k]
      omega
    rw [magnitude_ofNat, magnitude_nearest]
    by_cases hzero : x.roundedMagnitude = 0
    · rw [hzero]
      exact Nat.zero_le _
    · exact nearestMagnitude_le_of_le hzero (hrounded.trans hle) hrounded
  · exact h

theorem isNaN_round (h : x.isNaN = false) : x.round.isNaN = false := by
  rw [round]
  split
  · exact isNaN_nearest _ _ _
  · exact h

theorem le_toUInt64Saturating_iff (hfinite : x.isFinite = true) (hsign : x.isNegative = false) :
    k ≤ x.toUInt64Saturating.toNat ↔ (k : ℚ) ≤ x.value ∧ k < UInt64.size := by
  rw [toUInt64Saturating, isNaN_of_isFinite hfinite, hsign, isInfinite_of_isFinite hfinite]
  change k ≤ (UInt64.ofNat (min _ _)).toNat ↔ _
  rw [UInt64.toNat_ofNat_of_lt' (Nat.lt_of_le_of_lt (Nat.min_le_right _ _) (by decide)), Nat.le_min,
    Nat.le_div_iff_mul_le (one_shiftLeft_pos _), mul_shiftLeft_le_significand,
    Nat.le_sub_one_iff_lt (by decide)]

theorem le_iff (hx : x.isNegative = false) (hy : y.isNegative = false) (hx' : x.isNaN = false)
    (hy' : y.isNaN = false) : x.le y = true ↔ x.magnitude ≤ y.magnitude := by
  rw [le, rank, rank, hx, hy, hx', hy']
  exact decide_eq_true_iff.trans Int.ofNat_le

end Binary64

end LiveQuery
