import LiveQuery.Proofs.Step

namespace LiveQuery

def Event.snapshot? : Event → Option Snapshot
  | .snapshot s => some s
  | .error _ => none

namespace Session

variable {draw : Binary64 → Binary64 → Binary64} {s s' s'' : Session} {a : Action}
  {actions actions' : List Action}

/-- Where steps lead. Each step may draw its jitter anew. -/
inductive Run (s : Session) : List Action → Session → Prop
  | nil : Run s [] s
  | snoc {actions : List Action} {s' : Session} {a : Action} {s'' : Session}
      {draw : Binary64 → Binary64 → Binary64} :
      Run s actions s' → s'.step? draw a = some s'' → Run s (actions ++ [a]) s''

theorem Run.append (h : s.Run actions s') (h' : s'.Run actions' s'') :
    s.Run (actions ++ actions') s'' := by
  induction h' with
  | nil => rwa [List.append_nil]
  | snoc _ hstep ih =>
    rw [← List.append_assoc]
    exact ih.snoc hstep

theorem Run.of_run? (h : s.run? draw actions = some s') : s.Run actions s' := by
  induction actions generalizing s with
  | nil =>
    cases h
    exact .nil
  | cons a actions ih =>
    rw [run?, List.foldlM_cons] at h
    obtain ⟨t, hstep, hrest⟩ := Option.bind_eq_some_iff.1 h
    have hfirst : s.Run ([] ++ [a]) t := Run.nil.snoc hstep
    exact hfirst.append (ih hrest)

/-- The snapshots that the worker sent. -/
def snapshots (s : Session) : List Snapshot := s.sent.filterMap Event.snapshot?

theorem worker_absorb (s : Session) (r : Reaction) :
    (s.absorb r).worker.detached = r.worker.detached := by
  unfold absorb
  cases r.verdict <;> rfl

theorem snapshots_absorb (s : Session) (r : Reaction) :
    (s.absorb r).snapshots = s.snapshots ++ r.snapshot.toList := by
  have hsent : (s.absorb r).sent = s.sent ++ (r.snapshot.map Event.snapshot).toList := by
    unfold absorb
    cases r.verdict <;> rfl
  rw [snapshots, hsent, List.filterMap_append]
  cases r.snapshot <;> rfl

/-- What a step does to what the worker knows, and which snapshot it sends. -/
theorem step?_worker (h : s.step? draw a = some s') :
    s'.worker.detached = (s.worker.receive a).worker.detached ∧
      s'.snapshots = s.snapshots ++ (s.worker.receive a).snapshot.toList := by
  have hquiet (hworker : s'.worker.detached = s.worker.detached) (hsent : s'.sent = s.sent) :
      s'.worker.detached = s.worker.detached ∧
        s'.snapshots = s.snapshots ++ (none : Option Snapshot).toList := by
    rw [snapshots, hsent]
    exact ⟨hworker, (List.append_nil _).symm⟩
  cases Step.of_step? h with
  | start | refuse | deactivate | cancel | launch | leave | forgo | breakDown | stream | close
  | concede | finish | resume | take | drop | pass | hand => exact hquiet rfl rfl
  | elapse | connected => exact ⟨rfl, (List.append_nil _).symm⟩
  | reconnect =>
    refine hquiet ?_ rfl
    cases (s.shared.transition .reconnecting).1 <;> rfl
  | report => simp [snapshots, Event.snapshot?, Worker.receive, Worker.stay]
  | absorb => exact ⟨worker_absorb s _, snapshots_absorb s _⟩

/-- What the worker knows after a run is what it made of the actions. -/
theorem Run.worker (h : s.Run actions s') :
    s'.worker.detached = (s.worker.receiveAll actions).detached := by
  induction h with
  | nil => rfl
  | snoc _ hstep ih =>
    -- what an input does depends on the detached worker alone, so the connection drops out
    rw [Worker.receiveAll_append, (step?_worker hstep).1, Worker.detached_receive, ih,
      ← Worker.detached_receive]
    rfl

/-- A watch of one document that nobody has started. -/
def watchOf (name : String) : Session :=
  initial (.initial (.document (.ofString name)) .byPath .default .default)

/-- How a watch comes to its first snapshot, of one document. -/
def firstSnapshot (name : String) : List Action :=
  [.start, .work, .elapse, .connected 1, .work, .work,
    .response (.targetChange ⟨1, [1], none, [], none⟩), .work,
    .response (.documentChange ⟨some ⟨name, [], none, none⟩, [1], []⟩), .work,
    .response (.targetChange ⟨3, [], none, [], none⟩), .work,
    .response (.targetChange ⟨0, [], none, [1], some ⟨1, 0⟩⟩)]

end Session

end LiveQuery
