import Polyfill.Session.Perform
/-!
# The machine that runs a session

A machine has a world, the steps of the session still to be done, and a stack of work that has
begun.  It goes on in small moves.  Each move does one step, starts one task, or finishes one piece
of work, so that whatever a callback does, and however deep drains are nested, every state in
between is a state of the machine.
-/

namespace Polyfill.Session

/-- A session under way. -/
structure Machine where
  world : World
  /-- The steps of the session itself that are still to be done. -/
  script : List Step
  /-- Work that has begun, innermost first. -/
  stack : List Frame

namespace Machine

/-- A session before its first step. -/
def start (entropy : Entropy) (script : List Step) : Machine :=
  ⟨World.start entropy, script, []⟩

/-- Whether a frame is a running callback of some timers. -/
def runs (t : TimersId) : Frame → Bool
  | .settle t' _ _ => t' == t
  | _ => false

/-- Whether a timer registry is alive: something keeps it, or one of its callbacks is running. -/
def alive (m : Machine) (t : TimersId) : Bool :=
  m.world.keeps t || m.stack.any (runs t)

/-- Writes down what a step came to: with nothing else begun, it was a step of the session itself,
and otherwise a step of a body. -/
def report (m : Machine) (name : String) (answer : Answer) : Machine :=
  match m.stack with
  | [] => { m with world := m.world.log (.answered answer m.world.state) }
  | _ :: _ => { m with world := m.world.log (.stepped name answer) }

/-- Does a step. -/
def execute (m : Machine) (s : Step) : Machine :=
  match m.world.execute s with
  | (w, .done answer) => { m with world := w }.report s.name answer
  | (w, .enter frames) => { m with world := w, stack := frames ++ m.stack }

/-- Invokes the callback of a timer. -/
def invoke (m : Machine) (callback : Callback) : Machine :=
  match callback with
  | .script _ _ body => { m with stack := .body body :: m.stack }
  | .delivery k data =>
    match (m.world.workers[k]?).bind Worker.recipient? with
    | none => m
    | some h =>
      let (body, w) := m.world.deliver k h data ""
      { m with world := w, stack := .body body :: m.stack }

/-- Starts a task that was taken from a queue. -/
def startTask (m : Machine) (task : Microtask) : Machine :=
  match task with
  | .script _ body => { m with stack := .body body :: m.stack }
  | .fire t id =>
    if m.alive t then
      match m.world.fire t id with
      | some (kind, callback, w) =>
        { m with world := w, stack := .settle t id kind :: m.stack }.invoke callback
      | none => m
    else
      m

/-- One move; `none` when everything is done. -/
def next (m : Machine) : Option Machine :=
  match m.stack with
  | [] =>
    match m.script with
    | [] => none
    | s :: rest => some ({ m with script := rest }.execute s)
  | .body [] :: below => some { m with stack := below }
  | .body (s :: rest) :: below => some ({ m with stack := .body rest :: below }.execute s)
  | .drain q count :: below =>
    match m.world.pop q with
    | some (task, w) =>
      some ({ m with world := w, stack := .drain q (count + 1) :: below }.startTask task)
    | none =>
      some ({ m with world := m.world.log (.drained q count), stack := below }.report "run"
        (Answer.data (.nat count)))
  | .settle t id kind :: below =>
    some { m with world := m.world.settle t id kind, stack := below }
  | .reply name answer :: below => some ({ m with stack := below }.report name answer)

end Machine

end Polyfill.Session
