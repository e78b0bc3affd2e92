import LiveQuery.Proofs.Growth

namespace LiveQuery

variable {x low high : Binary64} {k : Nat}

namespace Binary64

theorem lt_eq_false_of_le (h : low.le x = true) : x.lt low = false := by
  simp only [le, Bool.and_eq_true, decide_eq_true_eq] at h
  rw [lt, decide_eq_false (Int.not_lt.2 h.2), Bool.and_false]

theorem clamp_eq_self (hlow : low.le x = true) (hhigh : x.le high = true) : clamp low high x = x := by
  rw [clamp, lt_eq_false_of_le hlow, lt_eq_false_of_le hhigh]
  rfl

/-- What is between two doubles without sign has no sign either, or is a zero. -/
theorem between (hlow : low.isNegative = false) (hhigh : high.isNegative = false) (h : low.le x = true)
    (h' : x.le high = true) :
    low.magnitude ≤ x.magnitude ∧ x.magnitude ≤ high.magnitude ∧ (x.isNegative = true → x.magnitude = 0) := by
  simp only [le, rank, hlow, hhigh, Bool.and_eq_true, decide_eq_true_eq, Bool.false_eq_true, if_false] at h h'
  have hbelow := h.2
  have habove := h'.2
  cases hsign : x.isNegative with
  | false =>
    rw [hsign, if_neg Bool.false_ne_true] at hbelow habove
    exact ⟨Int.ofNat_le.1 hbelow, Int.ofNat_le.1 habove, fun hfalse => absurd hfalse Bool.false_ne_true⟩
  | true =>
    rw [hsign, if_pos rfl] at hbelow
    omega

theorem value_ofNat_of_le (hle : k ≤ 2 ^ 53) : (ofNat k).value = k := by
  by_cases hk : k = 0
  · rw [hk, Nat.cast_zero]
    exact value_of_magnitude_eq_zero (by decide +kernel)
  · exact value_ofNat hk hle

theorem toNat_round_le (hk : k ≠ 0) (hle : k ≤ 2 ^ 53) (h : x.magnitude ≤ (ofNat k).magnitude) :
    x.round.toUInt64Saturating.toNat ≤ k := by
  cases hsign : x.isNegative with
  | true =>
    rw [toUInt64Saturating_of_isNegative ((isNegative_round x).trans hsign)]
    exact Nat.zero_le k
  | false =>
    have hrounded := magnitude_round_le_ofNat hk hle h
    have hvalue : x.round.value ≤ k := value_ofNat hk hle ▸ value_le_value hrounded
    have hfinite := isFinite_ofNat (hle.trans (by decide))
    refine Nat.not_lt.1 fun hlt => ?_
    have habove := ((le_toUInt64Saturating_iff (decide_eq_true (hrounded.trans_lt (of_decide_eq_true hfinite)))
      ((isNegative_round x).trans hsign)).1 hlt).1
    exact absurd (Nat.cast_le.1 (habove.trans hvalue)) (Nat.not_succ_le_self k)

theorem le_toNat_round (hle : k ≤ 2 ^ 53) (hfinite : x.round.isFinite = true) (hsign : x.isNegative = false)
    (h : (k : ℚ) ≤ x.value) : k ≤ x.round.toUInt64Saturating.toNat := by
  by_cases hk : k = 0
  · rw [hk]
    exact Nat.zero_le _
  · have hbelow : (ofNat k).magnitude ≤ x.magnitude := by
      rw [magnitude_ofNat]
      exact nearestMagnitude_le_magnitude one_ne_zero (by rwa [Nat.cast_one, mul_one])
    have hvalue := value_le_value (magnitude_ofNat_le_round hk hle hbelow)
    rw [value_ofNat hk hle] at hvalue
    exact (le_toUInt64Saturating_iff hfinite ((isNegative_round x).trans hsign)).2
      ⟨hvalue, hle.trans_lt (by decide)⟩

end Binary64

/-- A way to draw that keeps to the interval it is given. -/
def Draws (draw : Binary64 → Binary64 → Binary64) : Prop :=
  ∀ low high : Binary64, low.le high = true → low.le (draw low high) = true ∧ (draw low high).le high = true

namespace BackoffPolicy

open Binary64

variable {policy : BackoffPolicy}

/-- What validation says of the jitter. -/
theorem jitter_of_complaint? (h : policy.complaint? = none) :
    (ofNat 0).le policy.jitter = true ∧ policy.jitter.le (ofNat 1) = true := by
  unfold complaint? at h
  split at h
  · cases h
  split at h
  · cases h
  split at h
  · cases h
  split at h
  · cases h
  next hjitter =>
  simpa using hjitter

theorem spread_eq_jitter (h : policy.complaint? = none) : policy.spread = policy.jitter := by
  obtain ⟨hlow, hhigh⟩ := jitter_of_complaint? h
  exact clamp_eq_self hlow hhigh

/-- The part of a delay that is not left to chance. -/
theorem remainder_le_one (h : policy.complaint? = none) :
    ((ofNat 1).sub policy.spread).isNegative = false ∧ ((ofNat 1).sub policy.spread).isFinite = true ∧
      ((ofNat 1).sub policy.spread).value ≤ 1 := by
  obtain ⟨hlow, hhigh⟩ := jitter_of_complaint? h
  have hone : (ofNat 1).isNegative = false := isNegative_nearest _ _ _
  have hfinite : (ofNat 1).isFinite = true := isFinite_ofNat (by decide)
  have hvalue : (ofNat 1).value = 1 := (value_ofNat one_ne_zero (by decide)).trans Nat.cast_one
  obtain ⟨-, hle, hsign⟩ := between (isNegative_nearest _ _ _) hone hlow hhigh
  have hjitter : policy.jitter.isFinite = true := decide_eq_true (hle.trans_lt (of_decide_eq_true hfinite))
  rw [spread_eq_jitter h]
  obtain ⟨hpositive, hrest⟩ := sub_le_left hfinite hjitter hone hsign (hvalue ▸ one_pos) (value_le_value hle)
  exact ⟨hpositive, decide_eq_true (hrest.trans_lt (of_decide_eq_true hfinite)), hvalue ▸ value_le_value hrest⟩

end BackoffPolicy

namespace Backoff

open Binary64

variable {b : Backoff} {draw : Binary64 → Binary64 → Binary64}

/-- A valid policy leaves an interval to draw from. -/
theorem shortest_le (hvalid : b.policy.complaint? = none) (hdelay : b.delay ≤ 2 ^ 100) :
    b.shortest.isNegative = false ∧ b.shortest.magnitude ≤ (ofNat b.delay).magnitude ∧
      b.shortest.le (ofNat b.delay) = true := by
  obtain ⟨hpositive, hrest, hle⟩ := BackoffPolicy.remainder_le_one hvalid
  have hnominal : (ofNat b.delay).isFinite = true := isFinite_ofNat hdelay
  have hnominal' : (ofNat b.delay).isNegative = false := isNegative_nearest _ _ _
  have hmagnitude : b.shortest.magnitude ≤ (ofNat b.delay).magnitude := magnitude_mul_le hnominal hrest hle
  have hshortest := mul_of_isFinite hnominal hrest
  rw [← shortest] at hshortest
  have hnonnegative : b.shortest.isNegative = false := by
    rw [hshortest, nearestScaled, isNegative_nearest, hnominal', hpositive]
    rfl
  have hnumber : b.shortest.isNaN = false := by
    rw [hshortest]
    exact isNaN_nearest _ _ _
  exact ⟨hnonnegative, hmagnitude,
    (le_iff hnonnegative hnominal' hnumber (isNaN_of_isFinite hnominal)).2 hmagnitude⟩

theorem randomizedDelay_of_isZero (h : b.delay = 0 ∨ b.policy.spread.isZero = true) :
    b.randomizedDelay draw = b.delay := by
  rw [randomizedDelay, if_pos]
  rwa [Bool.or_eq_true, decide_eq_true_eq]

theorem randomizedDelay_of_ne_zero (hne : b.delay ≠ 0) (hspread : b.policy.spread.isZero = false) :
    b.randomizedDelay draw = (draw b.shortest (.ofNat b.delay)).round.toUInt64Saturating.toNat := by
  rw [randomizedDelay, if_neg]
  rw [Bool.or_eq_true, decide_eq_true_eq, hspread]
  exact not_or.2 ⟨hne, Bool.false_ne_true⟩

/-- The delay to wait under a valid policy, where doubles hold every nanosecond: without jitter it is the
nominal delay, and else it is between that and the part of it that jitter leaves, in whole nanoseconds. -/
theorem randomizedDelay_between (hvalid : b.policy.complaint? = none) (hdelay : b.delay ≤ 2 ^ 53)
    (hdraw : Draws draw) :
    (b.policy.jitter.isZero = true → b.randomizedDelay draw = b.delay) ∧ b.randomizedDelay draw ≤ b.delay ∧
      ∀ k : Nat, (k : ℚ) ≤ ((ofNat b.delay).mul ((ofNat 1).sub b.policy.jitter)).value →
        k ≤ b.randomizedDelay draw := by
  obtain ⟨hsign, hmagnitude, hle⟩ := shortest_le hvalid (hdelay.trans (by decide))
  have hnominal : (ofNat b.delay).isNegative = false := isNegative_nearest _ _ _
  have hreached (k : Nat) (hk : (k : ℚ) ≤ b.shortest.value) : k ≤ b.delay :=
    Nat.cast_le.1 (value_ofNat_of_le hdelay ▸ hk.trans (value_le_value hmagnitude))
  rw [← BackoffPolicy.spread_eq_jitter hvalid]
  refine ⟨fun hzero => randomizedDelay_of_isZero (.inr hzero), ?_⟩
  change _ ∧ ∀ k : Nat, (k : ℚ) ≤ b.shortest.value → _
  by_cases hzero : b.delay = 0 ∨ b.policy.spread.isZero = true
  · rw [randomizedDelay_of_isZero hzero]
    exact ⟨Nat.le_refl _, hreached⟩
  obtain ⟨hne, hspread⟩ := not_or.1 hzero
  obtain ⟨hlow, hhigh⟩ := hdraw _ _ hle
  obtain ⟨hbelow, habove, hnegative⟩ := between hsign hnominal hlow hhigh
  rw [randomizedDelay_of_ne_zero hne (Bool.eq_false_of_not_eq_true hspread)]
  refine ⟨toNat_round_le hne hdelay habove, ?_⟩
  intro k hk
  have hdrawn : (k : ℚ) ≤ (draw b.shortest (ofNat b.delay)).value := hk.trans (value_le_value hbelow)
  cases hdrawnSign : (draw b.shortest (ofNat b.delay)).isNegative with
  | true =>
    rw [value_of_magnitude_eq_zero (hnegative hdrawnSign)] at hdrawn
    exact (Nat.cast_le.1 (hdrawn.trans_eq Nat.cast_zero.symm)).trans (Nat.zero_le _)
  | false =>
    have hrounded := magnitude_round_le_ofNat hne hdelay habove
    have hfinite := of_decide_eq_true (isFinite_ofNat (hdelay.trans (by decide)))
    exact le_toNat_round ((hreached k hk).trans hdelay) (decide_eq_true (hrounded.trans_lt hfinite)) hdrawnSign
      hdrawn

/-- A second, half of which is left to chance. -/
example : let b : Backoff := ⟨{ BackoffPolicy.default with jitter := .nearest false 1 2 }, 1, 1000000000⟩
    b.randomizedDelay (fun low _ => low) = 500000000 ∧ b.randomizedDelay (fun _ high => high) = 1000000000 := by
  decide +kernel

end Backoff

end LiveQuery
