import Polyfill.Session.World
/-!
# What a step does

A step does something to the world and comes to an answer.  Two kinds of steps take longer: a drain
runs the tasks of a queue, and a direct call of a message handler runs the handler's body.  These
leave frames of work for the machine instead of an answer.
-/

namespace Polyfill.Session

/-- Work that has begun. -/
inductive Frame where
  /-- The steps of a body that are still to be done. -/
  | body (rest : List Step)
  /-- A drain of a queue that has taken `count` tasks. -/
  | drain (queue : QueueId) (count : Nat)
  /-- The callback of a timer is running; afterwards the timer is let go. -/
  | settle (timers : TimersId) (id : Nat) (kind : TimerKind)
  /-- A step whose answer is known but not yet reported. -/
  | reply (name : String) (answer : Answer)

/-- What a step leaves behind. -/
inductive Effect where
  | done (answer : Answer)
  /-- Work to be done first; the answer is reported by one of the frames. -/
  | enter (frames : List Frame)

namespace World

/-- A world and an answer. -/
abbrev Result := World × Answer

/-- Refuses a step for want of an object. -/
def badHandle (w : World) : Result :=
  (w, Answer.complaint .badHandle)

/-- Goes on with an object, if there is one. -/
def withHandle {α : Type} (w : World) (found : Option α) (go : α → Result) : Result :=
  match found with
  | some a => go a
  | none => w.badHandle

/-- Goes on with the text of a value, if it has one. -/
def withText (w : World) (v : Value) (go : String → Result) : Result :=
  match v.toText with
  | .ok s => go s
  | .error e => (w, Answer.fault e)

/-! ## Looking at objects -/

/-- A size, and whether it is zero. -/
def sizeDatum (n : Nat) : Datum :=
  .list [.nat n, .bool (n == 0)]

/-- The answer to a question about an object. -/
def query (w : World) : Query → Answer
  | .state name id =>
    match w.timers? name with
    | some t =>
      Answer.data <|
        match (w.registry t).find? id with
        | some timer => .text timer.status.label
        | none => .null
    | none => Answer.complaint .badHandle
  | .size name =>
    match w.handle? name with
    | some (.timers t) => Answer.data (sizeDatum (w.registry t).size)
    | some (.queue q) => Answer.data (sizeDatum (w.tasks q).length)
    | _ => Answer.complaint .badHandle
  | .workerInfo name =>
    match (w.worker? name).bind (w.workers[·]?) with
    | some worker =>
      Answer.data (.list [.nat worker.id, .text worker.url, .bool worker.terminated])
    | none => Answer.complaint .badHandle
  | .eventType name =>
    match (w.handler? name).bind (w.handlers[·]?) with
    | some handler => Answer.data (.text handler.slot.eventType)
    | none => Answer.complaint .badHandle
  | .isCurrent name handlerName =>
    match (w.worker? name).bind (w.workers[·]?), w.handler? handlerName with
    | some worker, some h =>
      match w.handlers[h]? with
      | some handler => Answer.data (.bool (worker.slot handler.slot == some h))
      | none => Answer.complaint .badHandle
    | _, _ => Answer.complaint .badHandle
  | .describe name pretty =>
    match (w.handle? name).bind (w.describe? pretty) with
    | some text => Answer.data (.text text)
    | none => Answer.complaint .badHandle
  | .algorithm name =>
    match w.handle? name with
    | some (.hash b) => Answer.data (.text b.algorithm)
    | some (.hmac b) => Answer.data (.text b.algorithm)
    | _ => Answer.complaint .badHandle

/-! ## Builders and calls -/

/-- Appends the texts of values one by one; those before a value without a text stay. -/
def updateWith {β : Type} (update : β → String → β) (b : β) : List Value → β × Answer
  | [] => (b, Answer.done)
  | v :: rest =>
    match v.toText with
    | .ok s => updateWith update (update b s) rest
    | .error e => (b, Answer.fault e)

/-- Performs an act that gives a text. -/
def answerText (w : World) (act : Act String) : Result :=
  match w.perform act with
  | (.ok s, w) => (w, Answer.data (.text s))
  | (.error e, w) => (w, Answer.fault e)

/-- A step on builders and on the functions of an environment. -/
def crypto (w : World) : CryptoStep → Result
  | .call env call =>
    w.withHandle (w.environment? env) fun (env, _, _) =>
      match call with
      | .error complaint => (w, Answer.complaint complaint)
      | .ok call =>
        let (outcome, w) := w.perform (call.perform env)
        (w, Answer.ofOutcome outcome)
  | .createHash as env algorithm =>
    w.withHandle (w.environment? env) fun (env, _, _) =>
      (w.bind as (.hash (env.cryptoUtils.createHash algorithm)), Answer.done)
  | .createHmac as env algorithm key =>
    w.withHandle (w.environment? env) fun (env, _, _) =>
      w.withText key fun key =>
        (w.bind as (.hmac (env.cryptoUtils.createHmac algorithm key)), Answer.done)
  | .update name inputs =>
    match w.handle? name with
    | some (.hash b) =>
      let (b, answer) := updateWith HashBuilder.update b inputs
      (w.bind name (.hash b), answer)
    | some (.hmac b) =>
      let (b, answer) := updateWith HmacBuilder.update b inputs
      (w.bind name (.hmac b), answer)
    | _ => w.badHandle
  | .digest name encoding =>
    let encoding := (encoding.map DigestEncoding.ofName).getD .hex
    match w.handle? name with
    | some (.hash b) => w.answerText (b.digest encoding)
    | some (.hmac b) => w.answerText (b.digest encoding)
    | _ => w.badHandle

/-! ## Hosts -/

/-- Inserts capabilities by name, one by one; those before an unknown name stay. -/
def insertNames (h : Host) : List String → Host × Option Error
  | [] => (h, none)
  | name :: rest =>
    match Host.capability name with
    | .ok c => insertNames (h.insert c) rest
    | .error e => (h, some e)

/-- A step on host sets. -/
def hostStep (w : World) : HostStep → Result
  | .empty as => (w.bind as (.host Host.none), Answer.done)
  | .full as => (w.bind as (.host Host.all), Answer.done)
  | .parse as names =>
    match Host.parse names with
    | .ok h => (w.bind as (.host h), Answer.data h.summary)
    | .error e => (w, Answer.fault e)
  | .insert name names =>
    w.withHandle (w.host? name) fun h =>
      match insertNames h names with
      | (h, none) => (w.bind name (.host h), Answer.data h.summary)
      | (h, some e) => (w.bind name (.host h), Answer.fault e)
  | .extend name capability as =>
    w.withHandle (w.host? name) fun h =>
      match Host.capability capability with
      | .ok c => (w.bind as (.host (h.insert c)), Answer.data (h.insert c).summary)
      | .error e => (w, Answer.fault e)
  | .same a b =>
    w.withHandle (w.host? a) fun h =>
      w.withHandle (w.host? b) fun k => (w, Answer.data (.bool (h.same k)))

/-- The host that a source stands for. -/
def hostOf (w : World) : HostSource → Except Failure Host
  | .bare => .ok Host.none
  | .names list =>
    match Host.parse list with
    | .ok h => .ok h
    | .error e => .error (.error e)
  | .handle name =>
    match w.host? name with
    | some h => .ok h
    | none => .error (.complaint .badHandle)

/-- Installs an environment, with a queue and timers of its own. -/
def install (w : World) (as : String) (source : HostSource) (ops : OpTable) : Result :=
  match w.hostOf source with
  | .error failure => (w, .error failure)
  | .ok host =>
    match w.perform (Environment.install host ops) with
    | (.error e, w) => (w, Answer.fault e)
    | (.ok env, w) =>
      let (q, w) := w.newQueue
      let (t, w) := w.newTimers q true
      (w.bind as (.environment env q t), Answer.done)

/-! ## Workers and handlers -/

/-- The handler under a name and the place it belongs in. -/
def listener? (w : World) (name : String) : Option (HandlerId × Slot) :=
  match w.handler? name with
  | some h => (w.handlers[h]?).map fun handler => (h, handler.slot)
  | none => none

/-- Puts a handler into a worker's place; it has to be one for that place. -/
def setSlot (w : World) (slot : Slot) (name : String) (handler : Option String) : Result :=
  w.withHandle (w.worker? name) fun k =>
    match handler with
    | none => (w.updateWorker k (·.setSlot slot none), Answer.done)
    | some handlerName =>
      match w.listener? handlerName with
      | some (h, own) =>
        if own = slot then (w.updateWorker k (·.setSlot slot (some h)), Answer.done)
        else w.badHandle
      | none => w.badHandle

/-- Makes a worker for an environment, on the environment's own timers. -/
def spawnWorker (w : World) (as env url : String) : Result :=
  w.withHandle (w.environment? env) fun (env, _, t) =>
    match w.perform (env.spawnWorker url) with
    | (.error e, w) => (w, Answer.fault e)
    | (.ok id, w) =>
      let (k, w) := w.newWorker (Worker.new id url t)
      (w.bind as (.worker k), Answer.data (.bool (id < 1000000)))

/-- Another handle to the same object; hosts are copied and builders cannot be. -/
def clone (w : World) (name as : String) : Result :=
  match w.handle? name with
  | none | some (.hash _) | some (.hmac _) => w.badHandle
  | some h => (w.bind as h, Answer.done)

/-! ## All steps -/

/-- The queue that a drain empties: a queue by itself, or the queue of an environment. -/
def drainable? (w : World) (name : String) : Option QueueId :=
  match w.handle? name with
  | some (.queue q) => some q
  | some (.environment _ q _) => some q
  | _ => none

/-- Drains a queue. -/
def drain (w : World) (name : String) : World × Effect :=
  match w.drainable? name with
  | some q => (w, .enter [.drain q 0])
  | none => (w, .done (Answer.complaint .badHandle))

/-- The origin of a message that is handed to a handler directly; one that travels by a timer has
an empty origin. -/
def directOrigin : String :=
  "driver"

/-- Calls the handler in a worker's place, if there is one. -/
def callSlot (w : World) (slot : Slot) (verb : String) (k : WorkerId) (data : String) :
    World × Effect :=
  match (w.workers[k]?).bind (·.slot slot) with
  | none => (w, .done (Answer.data (.bool false)))
  | some h =>
    match slot with
    | .message =>
      let (body, w) := w.deliver k h data directOrigin
      (w, .enter [.body body, .reply verb (Answer.data (.bool true))])
    | .error => (w.deliverError k h data, .done (Answer.data (.bool true)))

/-- The effect of a step that comes to its answer at once. -/
def atOnce (r : Result) : World × Effect :=
  (r.1, .done r.2)

/-- What a step does. -/
def execute (w : World) (s : Step) : World × Effect :=
  match s with
  | .install as source ops => atOnce (w.install as source ops)
  | .newQueue as =>
    let (q, w) := w.newQueue
    atOnce (w.bind as (.queue q), Answer.done)
  | .newTimers as queue =>
    atOnce <| w.withHandle (w.queue? queue) fun q =>
      let (t, w) := w.newTimers q false
      (w.bind as (.timers t), Answer.done)
  | .timersOf as env =>
    atOnce <| w.withHandle (w.environment? env) fun (env, _, t) =>
      match w.perform env.timers with
      | (.ok (), w) => (w.bind as (.timers t), Answer.done)
      | (.error e, w) => (w, Answer.fault e)
  | .queueOf as timers =>
    atOnce <| w.withHandle (w.timers? timers) fun t =>
      (w.bind as (.queue (w.queueOf t)), Answer.done)
  | .schedule kind timers label delay args body =>
    atOnce <| w.withHandle (w.timers? timers) fun t =>
      let (id, w) := w.schedule t kind delay (.script label args body)
      (w, Answer.data (.nat id))
  | .cancel _ timers id =>
    atOnce <| w.withHandle (w.timers? timers) fun t => (w.cancel t id, Answer.done)
  | .enqueue queue label body =>
    atOnce <| w.withHandle (w.queue? queue) fun q =>
      (w.enqueue q (.script label body), Answer.done)
  | .run name => w.drain name
  | .newWorker as id url timers =>
    atOnce <| w.withHandle (w.timers? timers) fun t =>
      let (k, w) := w.newWorker (Worker.new id url t)
      (w.bind as (.worker k), Answer.done)
  | .spawnWorker as env url => atOnce (w.spawnWorker as env url)
  | .messageHandler as body times =>
    let (h, w) := w.newHandler ⟨as, .message body times⟩
    atOnce (w.bind as (.handler h), Answer.done)
  | .errorHandler as =>
    let (h, w) := w.newHandler ⟨as, .error⟩
    atOnce (w.bind as (.handler h), Answer.done)
  | .setSlot slot name handler => atOnce (w.setSlot slot name handler)
  | .addListener name handler =>
    atOnce <| w.withHandle (w.worker? name) fun k =>
      w.withHandle (w.listener? handler) fun (h, slot) =>
        (w.updateWorker k (·.setSlot slot (some h)), Answer.done)
  | .removeListener name handler =>
    atOnce <| w.withHandle (w.worker? name) fun k =>
      w.withHandle (w.listener? handler) fun (h, slot) =>
        (w.updateWorker k (·.removeListener slot h), Answer.done)
  | .callSlot slot name data =>
    match w.worker? name with
    | none => (w, .done (Answer.complaint .badHandle))
    | some k =>
      match data.toText with
      | .ok data => w.callSlot slot s.name k data
      | .error e => (w, .done (Answer.fault e))
  | .post name data =>
    atOnce <| w.withHandle (w.worker? name) fun k =>
      w.withText data fun data =>
        match w.post k data with
        | (.ok (), w) => (w, Answer.done)
        | (.error e, w) => (w, Answer.fault e)
  | .terminate name =>
    atOnce <| w.withHandle (w.worker? name) fun k => (w.terminate k, Answer.done)
  | .clone name as => atOnce (w.clone name as)
  | .drop name => atOnce (w.forget name, Answer.data (.bool (w.handle? name).isSome))
  | .query q => atOnce (w, w.query q)
  | .crypto c => atOnce (w.crypto c)
  | .host h => atOnce (w.hostStep h)
  | .malformed _ complaint => atOnce (w, Answer.complaint complaint)

end World

end Polyfill.Session
