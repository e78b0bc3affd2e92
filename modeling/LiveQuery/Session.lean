import LiveQuery.Lifecycle
import LiveQuery.Worker

namespace LiveQuery

/-- What a listener receives: snapshots, and at most one error that ends them. -/
inductive Event where
  | snapshot (snapshot : Snapshot)
  | error (error : WatchError)

def Event.isSnapshot : Event → Bool
  | snapshot _ => true
  | error _ => false

/-- Where the worker is between two of its atomic steps. -/
inductive Phase where
  /-- No watch has been started. -/
  | unborn
  /-- About to schedule the first connection. -/
  | launching
  /-- Waiting for an input. -/
  | ready
  /-- About to make a queue for requests, then waiting for the answer to the first one. -/
  | connecting (request : ListenRequest)
  /-- About to call itself streaming. -/
  | opened
  /-- About to call itself reconnecting and to schedule a connection. -/
  | restarting
  /-- About to close the watch. -/
  | closing (error : WatchError)
  /-- About to queue the error that ends the watch. -/
  | reporting (error : WatchError)
  /-- About to look whether the watch is closed. -/
  | settling
  | stopped
  deriving DecidableEq

/-- Where the listener's task is between two of its atomic steps. -/
inductive Listening where
  | idle
  /-- Holds an event and is about to look whether the watch was removed. -/
  | holding (event : Event)
  /-- About to hand the event to the listener. -/
  | handing (event : Event)

/-- An atomic step of the parties to a watch. -/
inductive Action where
  | start
  /-- The first half of a removal. -/
  | deactivate
  /-- The second half of a removal. -/
  | cancel
  /-- The worker goes on by itself. -/
  | work
  /-- The worker's timer has run out. -/
  | elapse
  | connected (stream : Nat)
  | refused (error : StreamError)
  | response (response : ListenResponse)
  | failure (error : StreamError)
  | completion
  /-- The listener's task takes an event from the queue. -/
  | take
  /-- The listener's task looks whether the watch was removed. -/
  | check
  | hand

/-- A watch with its worker, its listener and its registrations. The queue between worker and listener
is what was sent and not yet taken. -/
structure Session where
  shared : Shared
  worker : Worker
  phase : Phase
  sent : List Event
  taken : Nat
  listening : Listening
  /-- What the listener was handed, in order. -/
  delivered : List Event
  /-- Removals in their second half. -/
  cancelling : Nat
  /-- Finished removals. -/
  removals : Nat

namespace Session

def initial (worker : Worker) : Session where
  shared := .initial
  worker := worker
  phase := .unborn
  sent := []
  taken := 0
  listening := .idle
  delivered := []
  cancelling := 0
  removals := 0

def queue (s : Session) : List Event := s.sent.drop s.taken

/-- Whether the listener's task has ended. -/
def isDone (s : Session) : Bool :=
  match s.phase, s.listening with
  | .stopped, .idle => s.queue.isEmpty
  | _, _ => false

/-- Starts the watch, which works once. -/
def start (s : Session) : Except Error Session :=
  match s.shared.activate with
  | (true, shared) => .ok { s with shared, phase := .launching }
  | (false, _) => .error .alreadyStarted

/-- Ends the worker, which lets go of its stream. -/
def stop (s : Session) : Session :=
  { s with phase := .stopped, worker := { s.worker with stream := none, timer := none } }

/-- Carries out what the worker made of an input, up to its next atomic step. -/
def absorb (s : Session) (r : Reaction) : Session :=
  let s := { s with worker := r.worker, sent := s.sent ++ (r.snapshot.map Event.snapshot).toList }
  match r.verdict with
  | .stay => { s with phase := .settling }
  | .reconnect => { s with phase := .restarting }
  | .close error => { s with phase := .closing error }
  | .overflow => s.stop

/-- The worker's own next step, if it has one. A worker that cannot make its queue for requests breaks
down and tells nobody. -/
def work? (draw : Binary64 → Binary64 → Binary64) (s : Session) : Option Session :=
  match s.phase with
  | .unborn | .stopped => none
  | .launching => some { s with phase := .ready, worker := s.worker.schedule draw }
  | .ready => if s.shared.removed then some s.stop else none
  | .connecting _ =>
    if s.shared.removed then some { s with phase := .settling }
    else if s.worker.hasQueue then none
    else some s.stop
  | .opened => some { s with phase := .settling, shared := (s.shared.transition .streaming).2 }
  | .restarting =>
    let (moved, shared) := s.shared.transition .reconnecting
    some { s with
      phase := .settling, shared
      worker := if moved then s.worker.schedule draw else s.worker }
  | .closing error =>
    let (closed, shared) := s.shared.deactivate
    some { s with shared, phase := if closed then .reporting error else .settling }
  | .reporting error => some { s with phase := .settling, sent := s.sent ++ [.error error] }
  | .settling => some (if s.shared.state = .closed then s.stop else { s with phase := .ready })

/-- Whether the worker waits for the timer or its stream. It looks for a removal first. -/
def isWaiting (s : Session) : Bool := s.phase = .ready && !s.shared.removed

/-- Whether the worker waits for its stream. -/
def isReading (s : Session) : Bool := s.isWaiting && s.worker.stream.isSome

/-- Whether the worker waits for the answer to a request. -/
def isAwaiting (s : Session) : Bool :=
  match s.phase with
  | .connecting _ => !s.shared.removed && s.worker.hasQueue
  | _ => false

/-- The state after a step, if the step can happen. -/
def step? (draw : Binary64 → Binary64 → Binary64) (s : Session) : Action → Option Session
  | .start => some (s.start.toOption.getD s)
  | .deactivate =>
    if s.phase = .unborn then none
    else some { s with shared := s.shared.deactivate.2, cancelling := s.cancelling + 1 }
  | .cancel =>
    if s.cancelling = 0 then none
    else some { s with
      shared := s.shared.cancel, cancelling := s.cancelling - 1, removals := s.removals + 1 }
  | .work => s.work? draw
  | .elapse =>
    if s.isWaiting && s.worker.timer.isSome then
      let worker := s.worker.beginConnect
      some { s with worker, phase := .connecting worker.request }
    else none
  | .connected stream =>
    if s.isAwaiting then
      some { s with phase := .opened, worker := { s.worker with stream := some stream } }
    else none
  | .refused error => if s.isAwaiting then some (s.absorb (s.worker.onStreamError error)) else none
  | .response response => if s.isReading then some (s.absorb (s.worker.onResponse response)) else none
  | .failure error => if s.isReading then some (s.absorb (s.worker.onStreamError error)) else none
  | .completion => if s.isReading then some (s.absorb s.worker.onCompletion) else none
  | .take =>
    match s.listening, s.queue with
    | .idle, event :: _ => some { s with taken := s.taken + 1, listening := .holding event }
    | _, _ => none
  | .check =>
    match s.listening with
    | .holding event =>
      if event.isSnapshot && s.shared.removed then some { s with listening := .idle }
      else some { s with listening := .handing event }
    | _ => none
  | .hand =>
    match s.listening with
    | .handing event => some { s with listening := .idle, delivered := s.delivered ++ [event] }
    | _ => none

/-- The state after steps, if they can happen in this order. -/
def run? (draw : Binary64 → Binary64 → Binary64) (s : Session) (actions : List Action) : Option Session :=
  actions.foldlM (step? draw) s

end Session

end LiveQuery
