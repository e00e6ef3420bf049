import Polyfill.Text.Quoted
/-!
# Workers

A worker has a number, a script, a place for a message handler and one for an error handler, and
may have been terminated, which is final.  Handlers are told apart by identity: two handlers that
do the same are still two.

Messages travel by the timers of the worker, known here by a number only.
-/

namespace Polyfill

/-- The two kinds of handlers, and the places for them. -/
inductive Slot where
  | message
  | error
  deriving DecidableEq, Repr

/-- The type of the events that a handler takes. -/
def Slot.eventType : Slot → String
  | message => "message"
  | error => "error"

/-- A worker.  Handlers and timers are given by identity. -/
structure Worker where
  id : Nat
  url : String
  timers : Nat
  terminated : Bool
  onmessage : Option Nat
  onerror : Option Nat
  deriving DecidableEq, Repr

namespace Worker

/-- A worker that nobody listens to yet. -/
def new (id : Nat) (url : String) (timers : Nat) : Worker :=
  ⟨id, url, timers, false, none, none⟩

/-- The handler in a place. -/
def slot (w : Worker) : Slot → Option Nat
  | .message => w.onmessage
  | .error => w.onerror

/-- The worker with a handler put into a place, or the place cleared. -/
def setSlot (w : Worker) (slot : Slot) (handler : Option Nat) : Worker :=
  match slot with
  | .message => { w with onmessage := handler }
  | .error => { w with onerror := handler }

/-- The worker without a handler; a place that holds another handler stays as it is. -/
def removeListener (w : Worker) (slot : Slot) (handler : Nat) : Worker :=
  if w.slot slot = some handler then w.setSlot slot none else w

/-- The worker, terminated. -/
def terminate (w : Worker) : Worker :=
  { w with terminated := true }

/-- The handler that takes a message now: none once the worker is terminated. -/
def recipient? (w : Worker) : Option Nat :=
  if w.terminated then none else w.onmessage

/-- A description of the worker. -/
def describe (w : Worker) : String :=
  "Worker \x7b id: " ++ toString w.id ++ ", script_url: " ++ Text.quoted w.url ++
    ", terminated: " ++ toString w.terminated ++ " \x7d"

end Worker

end Polyfill
