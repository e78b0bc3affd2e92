import LiveQuery.Binary64

namespace LiveQuery

structure BackoffPolicy where
  baseDelayMs : UInt64
  maxDelayMs : UInt64
  multiplier : Binary64
  jitter : Binary64
  deriving DecidableEq

/-- Nanoseconds. -/
abbrev Delay := Nat

def Delay.ofMilliseconds (n : UInt64) : Delay := n.toNat * 1000000

namespace BackoffPolicy

/-- From one second by half as much again to a minute, with full jitter. -/
def default : BackoffPolicy := ⟨1000, 60000, .nearest false 3 2, .ofNat 1⟩

def baseDelay (policy : BackoffPolicy) : Delay := .ofMilliseconds policy.baseDelayMs

def maxDelay (policy : BackoffPolicy) : Delay := .ofMilliseconds policy.maxDelayMs

/-- The delay after `delay`: the base delay after none, else a multiple, and never above the maximum. -/
def next (policy : BackoffPolicy) (delay : Delay) : Delay :=
  if delay = 0 then min policy.baseDelay policy.maxDelay
  else
    let grown := ((Binary64.ofNat delay).mul policy.multiplier).round
    if (Binary64.ofNat policy.maxDelay).le grown then policy.maxDelay
    else grown.toUInt64Saturating.toNat

/-- The nominal delay after so many advances. -/
def step (policy : BackoffPolicy) : Nat → Delay
  | 0 => 0
  | n + 1 => policy.next (policy.step n)

/-- The part of a delay that is left to chance. -/
def spread (policy : BackoffPolicy) : Binary64 := Binary64.clamp (.ofNat 0) (.ofNat 1) policy.jitter

end BackoffPolicy

/-- The delays between connections. The first is zero. -/
structure Backoff where
  policy : BackoffPolicy
  attempt : UInt32
  delay : Delay
  deriving DecidableEq

namespace Backoff

def initial (policy : BackoffPolicy) : Backoff := ⟨policy, 0, 0⟩

def reset (b : Backoff) : Backoff := { b with attempt := 0, delay := 0 }

def advance (b : Backoff) : Backoff :=
  { b with
    attempt := if b.attempt.toNat + 1 < UInt32.size then b.attempt + 1 else b.attempt
    delay := b.policy.next b.delay }

/-- The end of the interval that the delay to wait is drawn from; the nominal delay is the other end. -/
def shortest (b : Backoff) : Binary64 :=
  (Binary64.ofNat b.delay).mul ((Binary64.ofNat 1).sub b.policy.spread)

/-- The delay to wait. With jitter it is drawn from the interval from the shortest to the nominal delay. A
jitter that is NaN leaves no interval, and a worker breaks down where it would draw from it; that is left out
here, as no policy without complaint has such a jitter. -/
def randomizedDelay (b : Backoff) (draw : Binary64 → Binary64 → Binary64) : Delay :=
  if b.delay = 0 || b.policy.spread.isZero then b.delay
  else (draw b.shortest (.ofNat b.delay)).round.toUInt64Saturating.toNat

end Backoff

end LiveQuery
