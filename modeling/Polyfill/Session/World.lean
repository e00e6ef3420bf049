import Polyfill.Session.Event
/-!
# The objects of a session

A world holds the queues, timers, workers and handlers that a session has made, each under its
number, the handles under their names, the randomness left, and the history so far.

The operations here are those of the library itself: they know nothing of steps and bodies, and
what a callback does is left to the machine that runs it.
-/

namespace Polyfill.Session

/-- A timer registry and the queue on which its timers fire. -/
structure Timers where
  registry : Registry Callback
  queue : QueueId
  /-- Whether the registry belongs to an environment, which keeps it alive. -/
  owned : Bool

/-- What a handler does when it is called. -/
inductive Role where
  /-- Take a message and run the body, as long as the allowance lasts. -/
  | message (body : List Step) (allowance : Nat)
  /-- Take an error. -/
  | error

/-- A handler, with the name it shows in the log. -/
structure Handler where
  name : String
  role : Role

/-- The place that a handler belongs in. -/
def Handler.slot (h : Handler) : Slot :=
  match h.role with
  | .message _ _ => .message
  | .error => .error

/-- What a name can stand for.  Shared objects are given by number; hosts and builders are held by
the name itself. -/
inductive Handle where
  | queue (q : QueueId)
  | timers (t : TimersId)
  | worker (w : WorkerId)
  | handler (h : HandlerId)
  | environment (env : Environment) (queue : QueueId) (timers : TimersId)
  | host (h : Host)
  | hash (b : HashBuilder)
  | hmac (b : HmacBuilder)

/-- The objects of a session. -/
structure World where
  queues : List (List Microtask)
  timers : List Timers
  workers : List Worker
  handlers : List Handler
  names : List (String × Handle)
  entropy : Entropy
  history : List Event

namespace World

/-- The world before the first step. -/
def start (entropy : Entropy) : World :=
  ⟨[], [], [], [], [], entropy, []⟩

/-! ## Names -/

/-- The object under a name. -/
def handle? (w : World) (name : String) : Option Handle :=
  w.names.lookup name

/-- The world with a name for nothing. -/
def forget (w : World) (name : String) : World :=
  { w with names := w.names.filter fun entry => entry.1 != name }

/-- The world with a name for an object; what was under that name is dropped. -/
def bind (w : World) (name : String) (h : Handle) : World :=
  { w with names := (name, h) :: w.names.filter fun entry => entry.1 != name }

/-- The queue under a name. -/
def queue? (w : World) (name : String) : Option QueueId :=
  match w.handle? name with
  | some (.queue q) => some q
  | _ => none

/-- The timers under a name. -/
def timers? (w : World) (name : String) : Option TimersId :=
  match w.handle? name with
  | some (.timers t) => some t
  | _ => none

/-- The worker under a name. -/
def worker? (w : World) (name : String) : Option WorkerId :=
  match w.handle? name with
  | some (.worker k) => some k
  | _ => none

/-- The handler under a name. -/
def handler? (w : World) (name : String) : Option HandlerId :=
  match w.handle? name with
  | some (.handler h) => some h
  | _ => none

/-- The environment under a name. -/
def environment? (w : World) (name : String) : Option (Environment × QueueId × TimersId) :=
  match w.handle? name with
  | some (.environment env q t) => some (env, q, t)
  | _ => none

/-- The host under a name. -/
def host? (w : World) (name : String) : Option Host :=
  match w.handle? name with
  | some (.host h) => some h
  | _ => none

/-- Whether a handle keeps a timer registry alive: it is a handle to the registry, or to a worker
that uses it. -/
def holds (w : World) (t : TimersId) : Handle → Bool
  | .timers t' => t' == t
  | .worker k => (w.workers[k]?).any fun worker => worker.timers == t
  | _ => false

/-- Whether a timer registry is kept alive by a name or by an environment. -/
def keeps (w : World) (t : TimersId) : Bool :=
  (w.timers[t]?).any (·.owned) || w.names.any fun entry => w.holds t entry.2

/-! ## History and acts -/

/-- The world with an event written down. -/
def log (w : World) (e : Event) : World :=
  { w with history := w.history ++ [e] }

/-- The world with a note written down. -/
def note (w : World) (n : Note) : World :=
  w.log (.note n)

/-- Performs an act in the world: its randomness is the world's, and its notes are written down. -/
def perform {α : Type} (w : World) (act : Act α) : Except Error α × World :=
  match act.perform ⟨w.entropy, []⟩ with
  | (outcome, scene) =>
    (outcome,
      { w with entropy := scene.entropy, history := w.history ++ scene.notes.map Event.note })

/-! ## Queues -/

/-- The tasks in a queue. -/
def tasks (w : World) (q : QueueId) : List Microtask :=
  w.queues.getD q []

/-- The world with a new queue, and its number. -/
def newQueue (w : World) : QueueId × World :=
  (w.queues.length, { w with queues := w.queues ++ [[]] })

/-- Puts a task at the end of a queue. -/
def enqueue (w : World) (q : QueueId) (task : Microtask) : World :=
  { w with queues := w.queues.modify q (· ++ [task]) }.log (.enqueued q task)

/-- Takes the task at the front of a queue. -/
def pop (w : World) (q : QueueId) : Option (Microtask × World) :=
  match w.tasks q with
  | [] => none
  | task :: rest => some (task, { w with queues := w.queues.set q rest }.log (.started q task))

/-! ## Timers -/

/-- The registry of some timers. -/
def registry (w : World) (t : TimersId) : Registry Callback :=
  ((w.timers[t]?).map Timers.registry).getD Registry.empty

/-- The world with a registry changed. -/
def updateRegistry (w : World) (t : TimersId) (f : Registry Callback → Registry Callback) :
    World :=
  { w with timers := w.timers.modify t fun timers => { timers with registry := f timers.registry } }

/-- The world with new timers on a queue, and their number. -/
def newTimers (w : World) (q : QueueId) (owned : Bool) : TimersId × World :=
  (w.timers.length, { w with timers := w.timers ++ [⟨Registry.empty, q, owned⟩] })

/-- The queue on which timers fire. -/
def queueOf (w : World) (t : TimersId) : QueueId :=
  ((w.timers[t]?).map Timers.queue).getD 0

/-- Registers a timer and queues a task to fire it at once; the delay is noted and otherwise
ignored.  Gives the number of the timer. -/
def schedule (w : World) (t : TimersId) (kind : TimerKind) (delay : Nat) (callback : Callback) :
    Nat × World :=
  let id := (w.registry t).last + 1
  let w := w.updateRegistry t (·.schedule kind callback)
  let w := w.log (.scheduled t id kind callback)
  let w := w.note (.debug ("Timer " ++ timerText id ++ " scheduled (" ++ kind.label ++ ")"))
  let w := w.note (.trace ("Timer " ++ timerText id ++ ": delay of " ++ toString delay ++
    " ms ignored"))
  (id, w.enqueue (w.queueOf t) (.fire t id))

/-- Removes a timer from its registry.  The task that was to fire it stays in its queue. -/
def cancel (w : World) (t : TimersId) (id : Nat) : World :=
  let registered := ((w.registry t).find? id).isSome
  let w := (w.updateRegistry t (·.remove id)).log (.cancelled t id)
  if registered then w.note (.debug ("Timer " ++ timerText id ++ " cancelled")) else w

/-- Takes the callback of a timer that waits, and marks the timer fired. -/
def fire (w : World) (t : TimersId) (id : Nat) : Option (TimerKind × Callback × World) :=
  match (w.registry t).pending? id with
  | some (kind, callback) =>
    some (kind, callback, (w.updateRegistry t (·.markFired id)).log (.fired t id callback))
  | none => none

/-- Lets a timer go after its callback has returned. -/
def settle (w : World) (t : TimersId) (id : Nat) (kind : TimerKind) : World :=
  (w.updateRegistry t (·.settle id kind)).log (.settled t id)

/-! ## Workers and handlers -/

/-- The world with a new worker, and its number. -/
def newWorker (w : World) (worker : Worker) : WorkerId × World :=
  (w.workers.length, { w with workers := w.workers ++ [worker] })

/-- The world with a worker changed. -/
def updateWorker (w : World) (k : WorkerId) (f : Worker → Worker) : World :=
  { w with workers := w.workers.modify k f }

/-- The world with a new handler, and its number. -/
def newHandler (w : World) (handler : Handler) : HandlerId × World :=
  (w.handlers.length, { w with handlers := w.handlers ++ [handler] })

/-- Sends a message to a worker.  A terminated worker refuses it, a worker without a message
handler loses it, and any other gets it by one of its timers. -/
def post (w : World) (k : WorkerId) (data : String) : Except Error Unit × World :=
  match w.workers[k]? with
  | none => (.ok (), w)
  | some worker =>
    if worker.terminated then
      (.error .workerTerminated, w)
    else if worker.onmessage.isNone then
      (.ok (), w.note (.debug ("Worker " ++ toString worker.id ++
        ": no message handler, message dropped")))
    else
      (.ok (), (w.schedule worker.timers .timeout 0 (.delivery k data)).2)

/-- Terminates a worker; only the first time is noted. -/
def terminate (w : World) (k : WorkerId) : World :=
  match w.workers[k]? with
  | none => w
  | some worker =>
    if worker.terminated then
      w
    else
      (w.updateWorker k Worker.terminate).note
        (.debug ("Worker " ++ toString worker.id ++ " terminated"))

/-- Calls a message handler for a worker.  Gives the body that it runs now: its own while the
allowance lasts, which is then one less, and none after that. -/
def deliver (w : World) (k : WorkerId) (h : HandlerId) (data origin : String) :
    List Step × World :=
  match w.handlers[h]? with
  | some ⟨name, .message body (allowance + 1)⟩ =>
    (body, { w with handlers := w.handlers.set h ⟨name, .message body allowance⟩ }.log
      (.message k h name data origin))
  | some ⟨name, _⟩ => ([], w.log (.message k h name data origin))
  | none => ([], w)

/-- Calls an error handler for a worker. -/
def deliverError (w : World) (k : WorkerId) (h : HandlerId) (message : String) : World :=
  match w.handlers[h]? with
  | some handler => w.log (.failure k h handler.name message)
  | none => w

/-! ## Looking at the world -/

/-- What a report shows of an object: how much waits in a queue, how many timers are registered,
how a worker stands. -/
def stateOf? (w : World) : Handle → Option Datum
  | .queue q => some (.nat (w.tasks q).length)
  | .timers t => some (.nat (w.registry t).size)
  | .worker k =>
    (w.workers[k]?).map fun worker =>
      .list [.bool worker.terminated, .bool worker.onmessage.isSome, .bool worker.onerror.isSome]
  | _ => none

/-- What a report shows of the world. -/
def state (w : World) : List (String × Datum) :=
  w.names.filterMap fun entry => (w.stateOf? entry.2).map fun d => (entry.1, d)

/-- A description of a queue. -/
def describeQueue (w : World) (q : QueueId) : String :=
  "MicrotaskQueue \x7b pending: " ++ toString (w.tasks q).length ++ " \x7d"

/-- A description of timers. -/
def describeTimers (w : World) (t : TimersId) : String :=
  "TimerQueue \x7b registered: " ++ toString (w.registry t).size ++ " \x7d"

/-- A description of an environment, on one line. -/
def describeEnvironment (w : World) (env : Environment) (q : QueueId) (t : TimersId) : String :=
  "Environment \x7b installed: [" ++
    String.intercalate ", " (env.installed.map Capability.label) ++ "], microtasks: " ++
    w.describeQueue q ++ ", timers: " ++ w.describeTimers t ++ ", .. \x7d"

/-- A description of an environment, a part to a line. -/
def describeEnvironmentPretty (w : World) (env : Environment) (q : QueueId) (t : TimersId) :
    String :=
  let installed :=
    if env.installed.isEmpty then
      "[]"
    else
      "[\n" ++ String.join (env.installed.map fun c => "        " ++ c.label ++ ",\n") ++ "    ]"
  "Environment \x7b\n    installed: " ++ installed ++ ",\n    microtasks: " ++ w.describeQueue q ++
    ",\n    timers: " ++ w.describeTimers t ++ ",\n    ..\n\x7d"

/-- A description of an object, if its type has one. -/
def describe? (w : World) (pretty : Bool) : Handle → Option String
  | .queue q => some (w.describeQueue q)
  | .timers t => some (w.describeTimers t)
  | .worker k => (w.workers[k]?).map Worker.describe
  | .environment env q t =>
    some (if pretty then w.describeEnvironmentPretty env q t else w.describeEnvironment env q t)
  | .hash b => some b.describe
  | .hmac b => some b.describe
  | .handler _ | .host _ => none

end World

end Polyfill.Session
