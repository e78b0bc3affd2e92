import LiveQuery.Session

namespace LiveQuery

/-- How a connection attempt ends. -/
inductive Outcome where
  | accepted
  | refused (error : StreamError)
  /-- The attempt never returns. -/
  | hanging

/-- What the backend puts on a stream. -/
inductive Item where
  | response (response : ListenResponse)
  | failure (error : StreamError)

/-- The backend's side of an accepted connection. -/
structure Channel where
  unread : List Item
  ended : Bool

structure Attempt where
  outcome : Outcome
  request : ListenRequest

structure Scheduled where
  attempt : UInt32
  delay : Delay

/-- A watch on virtual time whose backend follows a script. Every party goes on as far as it can before
time passes, the worker before the listener. -/
structure Simulation where
  session : Session
  /-- How the attempts to come end; once used up, all are accepted. -/
  outcomes : List Outcome
  channels : List Channel
  /-- The event at which the listener removes its own registration. -/
  removeOnEvent : Option Nat
  attempts : List Attempt
  scheduled : List Scheduled
  mismatches : List Mismatch

namespace Simulation

inductive Command where
  | start
  /-- Puts an item on a stream, the newest by default. -/
  | deliver (item : Item) (stream : Option Nat)
  | complete (stream : Option Nat)
  | remove

inductive Answer where
  | state (state : Lifecycle)
  | failed (error : Error)
  | sent
  /-- The watch no longer reads the stream. -/
  | closed
  /-- The stream was completed before. -/
  | ended
  | completed
  | noStream
  | notStarted

def initial (worker : Worker) (outcomes : List Outcome) (removeOnEvent : Option Nat) : Simulation where
  session := .initial worker
  outcomes := outcomes
  channels := []
  removeOnEvent := removeOnEvent
  attempts := []
  scheduled := []
  mismatches := []

/-- Jitter plays no part: a delay is the shortest of its interval. -/
def draw (low _ : Binary64) : Binary64 := low

/-- Takes a step of the session, if it can happen, and notes a connection that it schedules. -/
def step? (s : Simulation) (action : Action) : Option Simulation :=
  (s.session.step? draw action).map fun session =>
    let scheduled := match s.session.worker.timer, session.worker.timer with
      | none, some delay => s.scheduled ++ [⟨session.worker.backoff.attempt, delay⟩]
      | _, _ => s.scheduled
    { s with session, scheduled }

/-- Tries a connection, which ends as the script says. Without a queue for its request it never gets to
the backend. -/
def connect? (s : Simulation) : Option Simulation := do
  let outcome := s.outcomes.headD .accepted
  let s ← s.step? .elapse
  if !s.session.worker.hasQueue then return s
  let request := s.session.worker.request
  let s := { s with outcomes := s.outcomes.tail, attempts := s.attempts ++ [⟨outcome, request⟩] }
  match outcome with
  | .accepted => step? { s with channels := s.channels ++ [⟨[], false⟩] } (.connected s.channels.length)
  | .refused error => s.step? (.refused error)
  | .hanging => some s

/-- Lets the worker read the next item of its stream, if there is one. -/
def read? (s : Simulation) : Option Simulation := do
  let stream ← s.session.worker.stream
  let channel ← s.channels[stream]?
  match channel.unread with
  | item :: unread =>
    let s := { s with channels := s.channels.set stream { channel with unread } }
    match item with
    | .response response =>
      let noted := (s.session.worker.onResponse response).mismatch.toList
      step? { s with mismatches := s.mismatches ++ noted } (.response response)
    | .failure error => s.step? (.failure error)
  | [] => if channel.ended then s.step? .completion else none

/-- The worker's next step that needs no time. -/
def work? (s : Simulation) : Option Simulation :=
  match s.step? .work with
  | some s => some s
  | none =>
    if s.session.isWaiting then
      if s.session.worker.timer = some 0 then s.connect? else s.read?
    else none

/-- Lets the listener handle the next event, if there is one. -/
def listen? (s : Simulation) : Option Simulation := do
  let s ← s.step? .take
  let s ← s.step? .check
  match s.step? .hand with
  | none => some s
  | some s =>
    if s.removeOnEvent = some s.session.delivered.length then
      (← s.step? .deactivate).step? .cancel
    else some s

/-- Lets all parties go on, for so many steps at most. -/
def settle : Nat → Simulation → Simulation
  | 0, s => s
  | fuel + 1, s =>
    match s.work? with
    | some s => settle fuel s
    | none =>
      match s.listen? with
      | some s => settle fuel s
      | none => s

/-- More steps than the parties can take: a handful for each item, event and attempt. -/
def enough (s : Simulation) : Nat :=
  16 * (s.outcomes.length + (s.channels.flatMap (·.unread)).length + s.session.queue.length + 4)

/-- Lets all parties go on until nothing can happen without time passing. -/
def rest (s : Simulation) : Simulation := s.settle s.enough

def day : Delay := 86400 * 1000000000

/-- The time after which a timer has run out. Timers run on whole milliseconds. -/
def timerDelay (delay : Delay) : Delay := (delay + 999999) / 1000000 * 1000000

/-- Lets time pass until a connection attempt does not fail, or for so long at most. -/
def pass : (fuel : Nat) → Delay → Simulation → Simulation
  | 0, _, s => s
  | fuel + 1, limit, s =>
    if s.session.isWaiting then
      match s.session.worker.timer with
      | none => s
      | some delay =>
        let waited := { s with session.worker.timer := some (delay - limit) }
        if timerDelay delay ≤ limit then pass fuel (limit - timerDelay delay) waited.rest else waited
    else s

/-- Lets time pass until a connection attempt succeeds or hangs, the watch closes, or a day is over. -/
def passDay (s : Simulation) : Simulation := s.pass (s.outcomes.length + 1) day

def channelOf? (s : Simulation) (stream : Option Nat) : Option (Nat × Channel) :=
  let number := stream.getD (s.channels.length - 1)
  s.channels[number]?.map fun channel => (number, channel)

/-- Carries out a command, before any party goes on. -/
def command (s : Simulation) : Command → Simulation × Answer
  | .start =>
    match s.session.start with
    | .ok session => ({ s with session }, .state session.shared.state)
    | .error e => (s, .failed e)
  | .deliver item stream =>
    match s.channelOf? stream with
    | none => (s, .noStream)
    | some (number, channel) =>
      if channel.ended then (s, .ended)
      else if s.session.worker.stream ≠ some number then (s, .closed)
      else
        let channel := { channel with unread := channel.unread ++ [item] }
        ({ s with channels := s.channels.set number channel }, .sent)
  | .complete stream =>
    match s.channelOf? stream with
    | none => (s, .noStream)
    | some (number, channel) =>
      if channel.ended then (s, .ended)
      else ({ s with channels := s.channels.set number { channel with ended := true } }, .completed)
  | .remove =>
    match s.step? .deactivate >>= (·.step? .cancel) with
    | none => (s, .notStarted)
    | some s => (s, .state s.session.shared.state)

/-- Carries out commands at one instant. -/
def commands (s : Simulation) : List Command → Simulation × List Answer
  | [] => (s, [])
  | c :: cs =>
    let (s, answer) := s.command c
    let (s, answers) := s.commands cs
    (s, answer :: answers)

/-- Forgets what was noted. -/
def fresh (s : Simulation) : Simulation := { s with attempts := [], scheduled := [], mismatches := [] }

end Simulation

end LiveQuery
