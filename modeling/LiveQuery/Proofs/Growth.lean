import LiveQuery.Proofs.Nearest
import LiveQuery.Proofs.Pacing
import LiveQuery.Settings.Validation

namespace LiveQuery

namespace BackoffPolicy

open Binary64

variable {policy : BackoffPolicy} {delay k n : Nat}

/-- What validation says of the numbers of a policy. -/
structure Bounded (policy : BackoffPolicy) : Prop where
  base_pos : 0 < policy.baseDelay
  base_le : policy.baseDelay ≤ policy.maxDelay
  isFinite_eq : policy.multiplier.isFinite = true
  isNegative_eq : policy.multiplier.isNegative = false
  one_le : 1 ≤ policy.multiplier.value

theorem of_not_lt_one {x : Binary64} (hfinite : x.isFinite = true) (h : x.lt (ofNat 1) = false) :
    x.isNegative = false ∧ 1 ≤ x.value := by
  have hone : (ofNat 1).isNegative = false := isNegative_nearest _ _ _
  have hrank : ((ofNat 1).magnitude : Int) ≤ x.rank := by
    rw [lt, isNaN_of_isFinite hfinite, show (ofNat 1).isNaN = false from isNaN_nearest _ _ _, rank, rank,
      hone] at h
    exact Int.not_lt.1 (of_decide_eq_false h)
  have hpos : 0 < (ofNat 1).magnitude := by decide +kernel
  rw [rank] at hrank
  split at hrank
  · omega
  · next hsign =>
    refine ⟨Bool.eq_false_of_not_eq_true hsign, ?_⟩
    have hvalue := value_le_value (Int.ofNat_le.1 hrank)
    rwa [value_ofNat one_ne_zero (by decide), Nat.cast_one] at hvalue

theorem bounded_of_complaint? (h : policy.complaint? = none) : policy.Bounded := by
  unfold complaint? at h
  split at h
  · cases h
  next hbase =>
  split at h
  · cases h
  next hle =>
  split at h
  · cases h
  next hmultiplier =>
  rw [Bool.or_eq_true, not_or, Bool.not_eq_true', Bool.not_eq_false, Bool.not_eq_true] at hmultiplier
  obtain ⟨hfinite, hlt⟩ := hmultiplier
  obtain ⟨hsign, hone⟩ := of_not_lt_one hfinite hlt
  refine ⟨?_, ?_, hfinite, hsign, hone⟩
  · exact Nat.mul_pos (Nat.pos_of_ne_zero fun h0 => hbase (UInt64.toNat_inj.1 h0)) (by decide)
  · exact Nat.mul_le_mul_right _ (Nat.not_lt.1 fun hlt => hle (UInt64.lt_iff_toNat_lt.2 hlt))

theorem maxDelay_le (policy : BackoffPolicy) : policy.maxDelay ≤ 2 ^ 100 :=
  (Nat.mul_le_mul_right _ (Nat.le_of_lt policy.maxDelayMs.toNat_lt)).trans (by decide)

/-- What a delay grows to, before it is bounded. -/
def grown (policy : BackoffPolicy) (delay : Delay) : Binary64 := ((ofNat delay).mul policy.multiplier).round

theorem next_zero (h : policy.Bounded) : policy.next 0 = policy.baseDelay := by
  rw [next, if_pos rfl, Nat.min_eq_left h.base_le]

theorem next_of_ne_zero (h : delay ≠ 0) : policy.next delay =
    if (ofNat policy.maxDelay).le (policy.grown delay) then policy.maxDelay
    else (policy.grown delay).toUInt64Saturating.toNat := if_neg h

theorem isNegative_grown (h : policy.Bounded) (hdelay : delay ≤ 2 ^ 100) :
    (policy.grown delay).isNegative = false := by
  rw [grown, isNegative_round, mul_of_isFinite (isFinite_ofNat hdelay) h.isFinite_eq, nearestScaled,
    isNegative_nearest, ofNat, isNegative_nearest, h.isNegative_eq]
  rfl

theorem isNaN_grown (h : policy.Bounded) (hdelay : delay ≤ 2 ^ 100) : (policy.grown delay).isNaN = false := by
  refine isNaN_round ?_
  rw [mul_of_isFinite (isFinite_ofNat hdelay) h.isFinite_eq]
  exact isNaN_nearest _ _ _

/-- A delay that grows keeps above the integers of at most 53 bits that it has reached. -/
theorem magnitude_ofNat_le_grown (h : policy.Bounded) (hdelay : delay ≤ 2 ^ 100) (hk : k ≠ 0)
    (hle : k ≤ 2 ^ 53) (hreached : k ≤ delay) : (ofNat k).magnitude ≤ (policy.grown delay).magnitude := by
  have hmono {n : Nat} (hn : n ≠ 0) (hn' : n ≤ 2 ^ 53) (hreached : n ≤ delay) :
      (ofNat n).magnitude ≤ (ofNat delay).magnitude := by
    rw [magnitude_ofNat, magnitude_ofNat]
    exact nearestMagnitude_le_of_le hn hn' hreached
  have hone : 1 ≤ (ofNat delay).value := by
    have hvalue := value_le_value (hmono one_ne_zero (by decide) (by omega))
    rwa [value_ofNat one_ne_zero (by decide), Nat.cast_one] at hvalue
  refine magnitude_ofNat_le_round hk hle ((hmono hk hle hreached).trans ?_)
  exact magnitude_le_mul (isFinite_ofNat hdelay) h.isFinite_eq (one_pos.trans_le hone) h.one_le

/-- The next delay is the maximum, or the whole part of a number below the double nearest to it. -/
theorem next_cases (h : policy.Bounded) (hne : delay ≠ 0) (hdelay : delay ≤ policy.maxDelay) :
    policy.next delay = policy.maxDelay ∨
      (policy.grown delay).magnitude < nearestMagnitude policy.maxDelay 1 ∧
        ∀ n : Nat, n ≤ policy.next delay ↔ (n : ℚ) ≤ (policy.grown delay).value ∧ n < UInt64.size := by
  have hsmall := hdelay.trans policy.maxDelay_le
  have hsign := isNegative_grown h hsmall
  rw [next_of_ne_zero hne]
  split
  · exact .inl rfl
  · next hbelow =>
    rw [le_iff (x := ofNat policy.maxDelay) (isNegative_nearest _ _ _) hsign (isNaN_nearest _ _ _)
      (isNaN_grown h hsmall), magnitude_ofNat, Nat.not_le] at hbelow
    have hfinite := decide_eq_true (hbelow.trans_le (nearestMagnitude_le _ _))
    exact .inr ⟨hbelow, fun n => le_toUInt64Saturating_iff hfinite hsign⟩

theorem next_le (h : policy.Bounded) (hdelay : delay ≤ policy.maxDelay) :
    policy.next delay ≤ policy.maxDelay := by
  by_cases hne : delay = 0
  · rw [hne, next_zero h]
    exact h.base_le
  rcases next_cases h hne hdelay with hmax | ⟨hbelow, hiff⟩
  · exact hmax.le
  · -- an integer above the maximum would be at least the double nearest to the maximum
    have hvalue := ((hiff _).1 (Nat.le_refl _)).1
    refine Nat.not_lt.1 fun habove => Nat.not_le.2 hbelow (nearestMagnitude_le_magnitude one_ne_zero ?_)
    rw [Nat.cast_one, mul_one]
    exact (Nat.cast_le.2 (Nat.le_of_lt habove)).trans hvalue

theorem le_next (h : policy.Bounded) (hdelay : delay ≤ policy.maxDelay) (hk : k ≠ 0) (hle : k ≤ 2 ^ 53)
    (hreached : k ≤ delay) : k ≤ policy.next delay := by
  rcases next_cases h (by omega) hdelay with hmax | ⟨-, hiff⟩
  · rw [hmax]
    exact hreached.trans hdelay
  · have hgrown := magnitude_ofNat_le_grown h (hdelay.trans policy.maxDelay_le) hk hle hreached
    exact (hiff k).2 ⟨value_ofNat hk hle ▸ value_le_value hgrown, hle.trans_lt (by decide)⟩

theorem next_pos (h : policy.Bounded) (hdelay : delay ≤ policy.maxDelay) : 0 < policy.next delay := by
  by_cases hne : delay = 0
  · rw [hne, next_zero h]
    exact h.base_pos
  · exact le_next h hdelay one_ne_zero (by decide) (Nat.pos_of_ne_zero hne)

theorem step_le (h : policy.Bounded) (n : Nat) : policy.step n ≤ policy.maxDelay := by
  induction n with
  | zero => exact Nat.zero_le _
  | succ n ih => exact next_le h ih

theorem step_eq_zero_iff (h : policy.Bounded) (n : Nat) : policy.step n = 0 ↔ n = 0 := by
  cases n with
  | zero => exact iff_of_true rfl rfl
  | succ n => exact iff_of_false (Nat.ne_of_gt (next_pos h (step_le h n))) n.succ_ne_zero

/-- Where doubles hold every nanosecond, delays only grow. -/
theorem step_le_step_succ (h : policy.Bounded) (hmax : policy.maxDelay ≤ 2 ^ 53) (n : Nat) :
    policy.step n ≤ policy.step (n + 1) := by
  have hle := step_le h n
  rcases Nat.eq_zero_or_pos (policy.step n) with hzero | hpos
  · rw [hzero]
    exact Nat.zero_le _
  · exact le_next h hle (Nat.ne_of_gt hpos) (hle.trans hmax) (Nat.le_refl _)

theorem step_add_eq_maxDelay (h : policy.Bounded) (hmax : policy.maxDelay ≤ 2 ^ 53)
    (heq : policy.step n = policy.maxDelay) (k : Nat) : policy.step (n + k) = policy.maxDelay := by
  induction k with
  | zero => exact heq
  | succ k ih => exact Nat.le_antisymm (step_le h _) (ih ▸ step_le_step_succ h hmax _)

end BackoffPolicy

namespace Backoff

variable {policy : BackoffPolicy} {n : Nat} {b : Backoff}

/-- A backoff after advances and resets, with so many advances since the last reset. -/
inductive After (policy : BackoffPolicy) : Nat → Backoff → Prop
  | initial : After policy 0 (initial policy)
  | advance {n : Nat} {b : Backoff} : After policy n b → After policy (n + 1) b.advance
  | reset {n : Nat} {b : Backoff} : After policy n b → After policy 0 b.reset

/-- The state of a backoff after so many advances: what is counted, and what the delay may be. -/
structure Nominal (policy : BackoffPolicy) (n : Nat) (b : Backoff) : Prop where
  attempt_eq : b.attempt.toNat = min n (UInt32.size - 1)
  delay_eq_zero : b.delay = 0 ↔ n = 0
  delay_eq_base : n = 1 → b.delay = policy.baseDelay
  delay_le : b.delay ≤ policy.maxDelay
  grows : policy.maxDelay ≤ 2 ^ 53 → b.delay ≤ b.advance.delay
  stays : policy.maxDelay ≤ 2 ^ 53 → b.delay = policy.maxDelay →
    ∀ k, (advance^[k] b).delay = policy.maxDelay

theorem eq_iterate_of_after (h : After policy n b) : b = advance^[n] (initial policy) := by
  induction h with
  | initial => rfl
  | advance _ ih => rw [ih, Function.iterate_succ_apply']
  | @reset n b _ ih =>
    rw [reset, ih, (delay_iterate_advance policy n).1]
    rfl

theorem attempt_iterate_advance (policy : BackoffPolicy) (n : Nat) :
    (advance^[n] (initial policy)).attempt.toNat = min n (UInt32.size - 1) := by
  induction n with
  | zero => rfl
  | succ n ih =>
    rw [Function.iterate_succ_apply', advance]
    split
    · next hlt =>
      rw [ih] at hlt
      rw [UInt32.toNat_add, ih]
      exact (Nat.mod_eq_of_lt hlt).trans (by omega)
    · next hge =>
      rw [ih] at hge ⊢
      omega

theorem delay_iterate_of_after (h : After policy n b) (k : Nat) :
    (advance^[k] b).delay = policy.step (n + k) := by
  rw [eq_iterate_of_after h, ← Function.iterate_add_apply, Nat.add_comm]
  exact (delay_iterate_advance policy _).2

/-- The delays of a valid policy: none before the first advance, then from the base delay up to the
maximum. Where doubles hold every nanosecond, they only grow. -/
theorem nominal_of_after (hvalid : policy.complaint? = none) (h : After policy n b) : Nominal policy n b := by
  have hbounded := BackoffPolicy.bounded_of_complaint? hvalid
  have hstep := delay_iterate_of_after h
  have hdelay : b.delay = policy.step n := hstep 0
  refine ⟨?_, ?_, ?_, ?_, ?_, ?_⟩
  · rw [eq_iterate_of_after h]
    exact attempt_iterate_advance policy n
  · rw [hdelay]
    exact BackoffPolicy.step_eq_zero_iff hbounded n
  · rintro rfl
    rw [hdelay]
    exact BackoffPolicy.next_zero hbounded
  · rw [hdelay]
    exact BackoffPolicy.step_le hbounded n
  · intro hmax
    rw [hdelay, show b.advance.delay = policy.step (n + 1) from hstep 1]
    exact BackoffPolicy.step_le_step_succ hbounded hmax n
  · intro hmax heq k
    rw [hstep]
    exact BackoffPolicy.step_add_eq_maxDelay hbounded hmax (hdelay ▸ heq) k

theorem complaint?_default : BackoffPolicy.default.complaint? = none := by
  rw [BackoffPolicy.complaint?, if_neg (by decide), if_neg (by decide), if_neg (by decide +kernel),
    if_neg (by decide +kernel)]

/-- The default policy after three advances, a reset and one more advance: a second, which may grow. -/
theorem nominal_of_after_default : ∃ b, After .default 1 b ∧ b.delay = 1000000000 ∧
    1000000000 ≤ b.advance.delay ∧ b.attempt = 1 := by
  have hthree : After .default 3 _ := .advance (.advance (.advance .initial))
  have hone : After .default 1 _ := .advance (.reset hthree)
  have hnominal := nominal_of_after complaint?_default hone
  have hbase : BackoffPolicy.default.baseDelay = 1000000000 := by decide +kernel
  have hdelay := (hnominal.delay_eq_base rfl).trans hbase
  exact ⟨_, hone, hdelay, hdelay ▸ hnominal.grows (by decide +kernel), rfl⟩

end Backoff

end LiveQuery
