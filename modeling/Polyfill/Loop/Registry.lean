/-!
# Timer registries

A registry hands out numbers for timers, counting up from one, and keeps what is known of each
timer that is registered: whether it still waits, and with which callback, or has fired.  A timeout
leaves the registry after its callback; an interval stays, fired, until it is cancelled.

Nothing here says when a timer fires, and delays do not matter: a registry only knows which timers
may fire.
-/

namespace Polyfill

/-- What kind of timer was asked for. -/
inductive TimerKind where
  | timeout
  | interval
  deriving DecidableEq, Repr

/-- The name of a kind in a message. -/
def TimerKind.label : TimerKind → String
  | timeout => "Timeout"
  | interval => "Interval"

/-- How far a registered timer has come.  Only a waiting timer has a callback. -/
inductive TimerStatus (κ : Type) where
  | pending (callback : κ)
  | fired
  deriving DecidableEq, Repr

/-- The name of a status in an answer. -/
def TimerStatus.label {κ : Type} : TimerStatus κ → String
  | pending _ => "Pending"
  | fired => "Fired"

/-- A registered timer. -/
structure Timer (κ : Type) where
  kind : TimerKind
  status : TimerStatus κ
  deriving DecidableEq, Repr

/-- The timer, fired; its callback is gone. -/
def Timer.fire {κ : Type} (t : Timer κ) : Timer κ :=
  { t with status := .fired }

/-- The timers registered, by number, oldest first, and the last number given out. -/
structure Registry (κ : Type) where
  last : Nat
  timers : List (Nat × Timer κ)

namespace Registry

variable {κ : Type}

/-- The registry without timers. -/
def empty : Registry κ :=
  ⟨0, []⟩

/-- The timer with a number, if it is registered. -/
def find? (r : Registry κ) (id : Nat) : Option (Timer κ) :=
  r.timers.lookup id

/-- How many timers are registered. -/
def size (r : Registry κ) : Nat :=
  r.timers.length

/-- Registers a waiting timer under the next number. -/
def schedule (r : Registry κ) (kind : TimerKind) (callback : κ) : Registry κ :=
  ⟨r.last + 1, r.timers ++ [(r.last + 1, ⟨kind, .pending callback⟩)]⟩

/-- The registry without a timer. -/
def remove (r : Registry κ) (id : Nat) : Registry κ :=
  { r with timers := r.timers.filter fun entry => entry.1 != id }

/-- The kind and the callback of a timer that waits. -/
def pending? (r : Registry κ) (id : Nat) : Option (TimerKind × κ) :=
  match r.find? id with
  | some ⟨kind, .pending callback⟩ => some (kind, callback)
  | _ => none

/-- An entry, with its timer fired if it has the given number. -/
def fireEntry (id : Nat) (entry : Nat × Timer κ) : Nat × Timer κ :=
  if entry.1 = id then (entry.1, entry.2.fire) else entry

/-- The registry with a timer fired. -/
def markFired (r : Registry κ) (id : Nat) : Registry κ :=
  { r with timers := r.timers.map (fireEntry id) }

/-- The registry after the callback of a timer has returned: a timeout leaves. -/
def settle (r : Registry κ) (id : Nat) (kind : TimerKind) : Registry κ :=
  match kind with
  | .timeout => r.remove id
  | .interval => r

end Registry

end Polyfill
