namespace LiveQuery

/-- Where a probe points in a sorted sequence: at an element, or between two. -/
inductive Slot where
  | found (index : Nat)
  | vacant (index : Nat)
  deriving DecidableEq

namespace Slot

def index : Slot → Nat
  | found i => i
  | vacant i => i

def index? : Slot → Option Nat
  | found i => some i
  | vacant _ => none

end Slot

/-- Halves a window that starts at `base` until one element is left, and gives its index. An element
that the probe does not put above the target starts the upper half. -/
def bisect (probe : Nat → Ordering) (base size : Nat) : Nat :=
  if size ≤ 1 then base
  else bisect probe (if probe (base + size / 2) = .gt then base else base + size / 2) (size - size / 2)
termination_by size

/-- Binary search: `probe` says how an element compares with what is sought. -/
def binarySearch {α : Type} (probe : α → Ordering) (xs : List α) : Slot :=
  let at? (i : Nat) : Ordering := (xs[i]?.map probe).getD .gt
  let i := bisect at? 0 xs.length
  match xs[i]?.map probe with
  | none => .vacant i
  | some .eq => .found i
  | some .gt => .vacant i
  | some .lt => .vacant (i + 1)

end LiveQuery
