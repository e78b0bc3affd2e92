namespace LiveQuery

inductive Lifecycle where
  | idle
  | connecting
  | streaming
  | reconnecting
  | closed
  deriving DecidableEq, Inhabited

def Lifecycle.isActive : Lifecycle → Bool
  | connecting | streaming | reconnecting => true
  | idle | closed => false

theorem Lifecycle.isActive_iff {state : Lifecycle} : state.isActive = true ↔ state ≠ .idle ∧ state ≠ .closed := by
  cases state <;> decide

/-- What a watch shares with its registrations. Each operation is one atomic step and says whether it
took effect. -/
structure Shared where
  state : Lifecycle
  removed : Bool
  deriving DecidableEq

namespace Shared

def initial : Shared := ⟨.idle, false⟩

/-- A watch is activated once, from the idle state. -/
def activate (shared : Shared) : Bool × Shared :=
  if shared.state = .idle then (true, { shared with state := .connecting }) else (false, shared)

/-- Moves on unless the watch is closed. -/
def transition (shared : Shared) (next : Lifecycle) : Bool × Shared :=
  if shared.state = .closed then (false, shared) else (true, { shared with state := next })

/-- Closes the watch; takes effect if it was active. -/
def deactivate (shared : Shared) : Bool × Shared :=
  (shared.state.isActive, { shared with state := .closed })

/-- Fires the removal signal. -/
def cancel (shared : Shared) : Shared := { shared with removed := true }

end Shared

end LiveQuery
