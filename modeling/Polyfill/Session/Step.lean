import Polyfill.Call
import Polyfill.Loop.Registry
import Polyfill.Loop.Worker
/-!
# Steps of a session

A session works on objects stored under names.  Its steps make objects, use them and look at them.
Callbacks and handlers have bodies, which are lists of steps again; names in a body are looked up
when the body runs, not when it is made.

Steps that can neither schedule, run nor cancel anything are gathered in three families: looking at
objects, digests and calls, and host sets.
-/

namespace Polyfill.Session

/-- A step that looks at an object and changes nothing. -/
inductive Query where
  /-- How far a timer has come. -/
  | state (timers : String) (id : Nat)
  | size (of : String)
  | workerInfo (of : String)
  | eventType (of : String)
  /-- Whether a worker's place holds a handler. -/
  | isCurrent (of handler : String)
  | describe (of : String) (pretty : Bool)
  | algorithm (of : String)

/-- A step on builders and on the functions of an environment. -/
inductive CryptoStep where
  | call (env : String) (call : Except Complaint Call)
  | createHash (as env algorithm : String)
  | createHmac (as env algorithm : String) (key : Value)
  | update (of : String) (inputs : List Value)
  | digest (of : String) (encoding : Option String)

/-- A step on host sets. -/
inductive HostStep where
  | empty (as : String)
  | full (as : String)
  | parse (as names : String)
  | insert (of : String) (names : List String)
  | extend (of capability as : String)
  | same (a b : String)

/-- Which host an environment completes. -/
inductive HostSource where
  | bare
  | names (list : String)
  | handle (name : String)

/-- The three ways to ask for the end of a timer; all do the same. -/
inductive CancelVerb where
  | clearTimeout
  | clearInterval
  | cancel
  deriving DecidableEq, Repr

/-- A step of a session. -/
inductive Step where
  | install (as : String) (host : HostSource) (ops : OpTable)
  | newQueue (as : String)
  | newTimers (as queue : String)
  | timersOf (as env : String)
  | queueOf (as timers : String)
  | schedule (kind : TimerKind) (timers label : String) (delay : Nat) (args : Option (List Datum))
      (body : List Step)
  | cancel (verb : CancelVerb) (timers : String) (id : Nat)
  | enqueue (queue label : String) (body : List Step)
  | run (of : String)
  | newWorker (as : String) (id : Nat) (url timers : String)
  | spawnWorker (as env url : String)
  | messageHandler (as : String) (body : List Step) (times : Nat)
  | errorHandler (as : String)
  | setSlot (slot : Slot) (of : String) (handler : Option String)
  | addListener (of handler : String)
  | removeListener (of handler : String)
  | callSlot (slot : Slot) (of : String) (data : Value)
  | post (of : String) (data : Value)
  | terminate (of : String)
  | clone (of as : String)
  | drop (of : String)
  | query (q : Query)
  | crypto (c : CryptoStep)
  | host (h : HostStep)
  /-- A step that could not be made sense of. -/
  | malformed (name : String) (complaint : Complaint)

/-- The name of a step in a log. -/
def Query.name : Query → String
  | state _ _ => "state"
  | size _ => "len"
  | workerInfo _ => "worker_info"
  | eventType _ => "event_type"
  | isCurrent _ _ => "is_current"
  | describe _ _ => "debug"
  | algorithm _ => "algorithm"

/-- The name of a step in a log. -/
def CryptoStep.name : CryptoStep → String
  | call _ _ => "call"
  | createHash _ _ _ => "create_hash"
  | createHmac _ _ _ _ => "create_hmac"
  | update _ _ => "update"
  | digest _ _ => "digest"

/-- The name of a step in a log. -/
def HostStep.name : HostStep → String
  | empty _ => "host_none"
  | full _ => "host_all"
  | parse _ _ => "host_parse"
  | insert _ _ => "host_insert"
  | extend _ _ _ => "host_with"
  | same _ _ => "host_eq"

/-- The name of a step in a log. -/
def CancelVerb.name : CancelVerb → String
  | clearTimeout => "clear_timeout"
  | clearInterval => "clear_interval"
  | cancel => "cancel"

/-- The name of a step in a log. -/
def Step.name : Step → String
  | install _ _ _ => "install"
  | newQueue _ => "queue_new"
  | newTimers _ _ => "timers_new"
  | timersOf _ _ => "timers_of"
  | queueOf _ _ => "queue_of"
  | schedule .timeout _ _ _ _ _ => "set_timeout"
  | schedule .interval _ _ _ _ _ => "set_interval"
  | cancel verb _ _ => verb.name
  | enqueue _ _ _ => "enqueue"
  | run _ => "run"
  | newWorker _ _ _ _ => "worker_new"
  | spawnWorker _ _ _ => "spawn_worker"
  | messageHandler _ _ _ => "handler"
  | errorHandler _ => "error_handler"
  | setSlot .message _ _ => "set_onmessage"
  | setSlot .error _ _ => "set_onerror"
  | addListener _ _ => "add_listener"
  | removeListener _ _ => "remove_listener"
  | callSlot .message _ _ => "call_onmessage"
  | callSlot .error _ _ => "call_onerror"
  | post _ _ => "post"
  | terminate _ => "terminate"
  | clone _ _ => "clone"
  | drop _ => "drop"
  | query q => q.name
  | crypto c => c.name
  | host h => h.name
  | malformed name _ => name

end Polyfill.Session
