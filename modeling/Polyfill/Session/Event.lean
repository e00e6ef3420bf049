import Polyfill.Session.Step
/-!
# The history of a session

Everything that happens in a session is written down as an event, in order: what is queued and what
starts, which timers are scheduled, cancelled and fired, which handlers are called, and what every
step comes to.  The log that a session shows is a selection of these events.

Queues, timers, workers and handlers are given by the number under which the session made them.
-/

namespace Polyfill.Session

/-- A microtask queue of the session, by number. -/
abbrev QueueId := Nat

/-- A timer registry of the session, by number. -/
abbrev TimersId := Nat

/-- A worker of the session, by number. -/
abbrev WorkerId := Nat

/-- A handler of the session, by number. -/
abbrev HandlerId := Nat

/-- What a timer does when it fires. -/
inductive Callback where
  /-- Run steps of the session. -/
  | script (label : String) (args : Option (List Datum)) (body : List Step)
  /-- Hand a message to whatever handler the worker has then. -/
  | delivery (worker : WorkerId) (data : String)

/-- A task in a queue. -/
inductive Microtask where
  /-- Fire a timer, if its registry is still alive and the timer still waits. -/
  | fire (timers : TimersId) (id : Nat)
  /-- Run steps of the session. -/
  | script (label : String) (body : List Step)

/-- Something that happened. -/
inductive Event where
  /-- An op was called or a message logged. -/
  | note (n : Note)
  /-- A task was put at the end of a queue. -/
  | enqueued (queue : QueueId) (task : Microtask)
  /-- A task was taken from the front of a queue and started. -/
  | started (queue : QueueId) (task : Microtask)
  /-- A drain of a queue returned, with the number of tasks it took. -/
  | drained (queue : QueueId) (count : Nat)
  /-- A timer was registered. -/
  | scheduled (timers : TimersId) (id : Nat) (kind : TimerKind) (callback : Callback)
  /-- A timer was cancelled, registered or not. -/
  | cancelled (timers : TimersId) (id : Nat)
  /-- The callback of a timer was invoked. -/
  | fired (timers : TimersId) (id : Nat) (callback : Callback)
  /-- The callback of a timer returned. -/
  | settled (timers : TimersId) (id : Nat)
  /-- A message handler was called for a worker. -/
  | message (worker : WorkerId) (handler : HandlerId) (name data origin : String)
  /-- An error handler was called for a worker. -/
  | failure (worker : WorkerId) (handler : HandlerId) (name text : String)
  /-- A step of a body came to an answer. -/
  | stepped (name : String) (answer : Answer)
  /-- A step of the session itself came to an answer; the state of its objects follows. -/
  | answered (answer : Answer) (state : List (String × Datum))

/-- A line of a log. -/
inductive Line where
  | data (items : List Datum)
  /-- What a step of a body came to. -/
  | step (name : String) (answer : Answer)

/-- The line that shows a note.  Messages are shown on request, calls of ops if they are
recorded. -/
def noteLine? (messages : Bool) : Note → Option Line
  | .op true call => some (.data (.text "op" :: .text call.name :: call.arguments.map .text))
  | .op false _ => none
  | .debug text => if messages then some (.data [.text "debug", .text text]) else none
  | .trace text => if messages then some (.data [.text "trace", .text text]) else none

/-- The line that shows an event, if it is shown at all. -/
def Event.line? (messages : Bool) : Event → Option Line
  | note n => noteLine? messages n
  | started _ (.script label _) => some (.data [.text "task", .text label])
  | fired _ _ (.script label none _) => some (.data [.text "fire", .text label])
  | fired _ _ (.script label (some args) _) =>
    some (.data [.text "fire", .text label, .list args])
  | message _ _ name data origin =>
    some (.data [.text "message", .text name, .text Slot.message.eventType, .text data,
      .text origin])
  | failure _ _ name text =>
    some (.data [.text "error", .text name, .text Slot.error.eventType, .text text])
  | stepped name answer => some (.step name answer)
  | _ => none

/-- What a session reports of one of its own steps. -/
structure Report where
  answer : Answer
  log : List Line
  state : List (String × Datum)

/-- The reports in a history; `lines` holds the lines since the last report, last first. -/
def reportsFrom (messages : Bool) (lines : List Line) : List Event → List Report
  | [] => []
  | .answered answer state :: rest =>
    ⟨answer, lines.reverse, state⟩ :: reportsFrom messages [] rest
  | event :: rest =>
    match event.line? messages with
    | some line => reportsFrom messages (line :: lines) rest
    | none => reportsFrom messages lines rest

/-- The reports in a history: one for each step of the session itself. -/
def reports (messages : Bool) (history : List Event) : List Report :=
  reportsFrom messages [] history

end Polyfill.Session
