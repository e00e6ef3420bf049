import Mathlib.Tactic.Common
import Polyfill.Session.Machine
/-!
# Relations between worlds that steps keep

To show that two sessions go the same way, one relates their worlds and shows that every step keeps
the relation.  Most steps have no body, run none at once and only look names up, make objects and
tie them to names (`Step.isPlain`).  For these the argument is always the same, so it is given here
once: a relation that a few operations keep (`World.Simulation`) is kept by every plain step, and
the step comes to the same answer (`World.Simulation.execute`).

What remains for each relation are the steps that schedule or queue a body, make a handler with one,
call such a handler, or look at an object.
-/

namespace Polyfill.Session

/-- Whether a step has no body, calls no handler and looks at nothing. -/
def Step.isPlain : Step → Bool
  | .schedule _ _ _ _ _ _ | .enqueue _ _ _ | .messageHandler _ _ _ | .callSlot _ _ _
  | .query _ => false
  | _ => true

namespace World

variable {R : World → World → Prop} {w w' : World}

/-- A plain step comes to an answer at once or begins a drain. -/
lemma effect_of_isPlain (w : World) {s : Step} (hs : s.isPlain = true) :
    (∃ answer, (w.execute s).2 = .done answer) ∨ ∃ q, (w.execute s).2 = .enter [.drain q 0] := by
  cases s with
  | run name =>
    simp only [execute, drain]
    split
    · exact Or.inr ⟨_, rfl⟩
    · exact Or.inl ⟨_, rfl⟩
  | schedule _ _ _ _ _ _ | enqueue _ _ _ | messageHandler _ _ _ | callSlot _ _ _ | query _ =>
    cases hs
  | _ => exact Or.inl ⟨_, rfl⟩

/-- Two operations give the same value and related worlds. -/
structure Joins (R : World → World → Prop) {α : Type} (p p' : α × World) : Prop where
  value : p'.1 = p.1
  world : R p.2 p'.2

/-- Two results are related worlds and the same answer. -/
structure Concurs (R : World → World → Prop) (r r' : Result) : Prop where
  world : R r.1 r'.1
  answer : r'.2 = r.2

/-- A relation between worlds that differ at most in tasks, timers, handlers and history.  It is
kept by the operations that plain steps are made of. -/
structure Simulation (R : World → World → Prop) : Prop where
  objects {w w' : World} (h : R w w') : w' = { w with
    queues := w'.queues, timers := w'.timers, handlers := w'.handlers, history := w'.history }
  slots {w w' : World} (h : R w w') (i : HandlerId) :
    (w'.handlers[i]?).map Handler.slot = (w.handlers[i]?).map Handler.slot
  queueOf {w w' : World} (h : R w w') (t : TimersId) : w'.queueOf t = w.queueOf t
  note {w w' : World} (h : R w w') (n : Note) : R (w.note n) (w'.note n)
  perform {w w' : World} {α : Type} (h : R w w') (act : Act α) :
    Joins R (w.perform act) (w'.perform act)
  bind {w w' : World} (h : R w w') (name : String) (x : Handle) : R (w.bind name x) (w'.bind name x)
  forget {w w' : World} (h : R w w') (name : String) : R (w.forget name) (w'.forget name)
  newQueue {w w' : World} (h : R w w') : Joins R w.newQueue w'.newQueue
  newTimers {w w' : World} (h : R w w') (q : QueueId) (owned : Bool) :
    Joins R (w.newTimers q owned) (w'.newTimers q owned)
  newWorker {w w' : World} (h : R w w') (worker : Worker) :
    Joins R (w.newWorker worker) (w'.newWorker worker)
  updateWorker {w w' : World} (h : R w w') (k : WorkerId) (f : Worker → Worker) :
    R (w.updateWorker k f) (w'.updateWorker k f)
  errorHandler {w w' : World} (h : R w w') (name : String) :
    Joins R (w.newHandler ⟨name, .error⟩) (w'.newHandler ⟨name, .error⟩)
  cancel {w w' : World} (h : R w w') (t : TimersId) (id : Nat) : R (w.cancel t id) (w'.cancel t id)
  delivery {w w' : World} (h : R w w') (t : TimersId) (k : WorkerId) (data : String) :
    R (w.schedule t .timeout 0 (.delivery k data)).2 (w'.schedule t .timeout 0 (.delivery k data)).2

lemma Concurs.atOnce {r r' : Result} (h : Concurs R r r') :
    R (atOnce r).1 (atOnce r').1 ∧ (atOnce r').2 = (atOnce r).2 :=
  ⟨h.world, congrArg Effect.done h.answer⟩

namespace Joins

variable {α : Type} {p p' : α × World}

lemma exists_eq (h : Joins R p p') : ∃ a v v', p = (a, v) ∧ p' = (a, v') ∧ R v v' :=
  ⟨p.1, p.2, p'.2, rfl, Prod.ext h.value rfl, h.world⟩

/-- The same new object gets a name. -/
lemma bind (h : Joins R p p') (hR : Simulation R) (as : String) (f : α → Handle) :
    R (p.2.bind as (f p.1)) (p'.2.bind as (f p'.1)) := by
  rw [h.value]
  exact hR.bind h.world as (f p.1)

end Joins

namespace Simulation

/-- What is seen of a world without its tasks, timers, handlers and history is seen in related
worlds alike. -/
lemma view_eq {α : Type} (hR : Simulation R) (h : R w w') (view : World → α)
    (hview : ∀ queues timers handlers history, view { w with
      queues := queues, timers := timers, handlers := handlers, history := history } = view w) :
    view w' = view w := by
  rw [hR.objects h]
  exact hview _ _ _ _

lemma handle? (hR : Simulation R) (h : R w w') (name : String) :
    w'.handle? name = w.handle? name :=
  hR.view_eq h (·.handle? name) fun _ _ _ _ => rfl

lemma worker? (hR : Simulation R) (h : R w w') (name : String) :
    w'.worker? name = w.worker? name :=
  hR.view_eq h (·.worker? name) fun _ _ _ _ => rfl

lemma handler? (hR : Simulation R) (h : R w w') (name : String) :
    w'.handler? name = w.handler? name :=
  hR.view_eq h (·.handler? name) fun _ _ _ _ => rfl

lemma queue? (hR : Simulation R) (h : R w w') (name : String) : w'.queue? name = w.queue? name :=
  hR.view_eq h (·.queue? name) fun _ _ _ _ => rfl

lemma timers? (hR : Simulation R) (h : R w w') (name : String) :
    w'.timers? name = w.timers? name :=
  hR.view_eq h (·.timers? name) fun _ _ _ _ => rfl

lemma environment? (hR : Simulation R) (h : R w w') (name : String) :
    w'.environment? name = w.environment? name :=
  hR.view_eq h (·.environment? name) fun _ _ _ _ => rfl

lemma host? (hR : Simulation R) (h : R w w') (name : String) : w'.host? name = w.host? name :=
  hR.view_eq h (·.host? name) fun _ _ _ _ => rfl

lemma workers (hR : Simulation R) (h : R w w') : w'.workers = w.workers :=
  hR.view_eq h (·.workers) fun _ _ _ _ => rfl

lemma listener? (hR : Simulation R) (h : R w w') (name : String) :
    w'.listener? name = w.listener? name := by
  simp only [World.listener?, hR.handler? h]
  cases w.handler? name with
  | none => rfl
  | some i =>
    have hpair : ∀ handlers : List Handler,
        (handlers[i]?).map (fun handler => (i, handler.slot)) =
          ((handlers[i]?).map Handler.slot).map fun slot => (i, slot) := by
      intro handlers
      rw [Option.map_map]
      rfl
    simp only [hpair, hR.slots h]

lemma withHandle {α : Type} (h : R w w') (found : Option α) {go go' : α → Result}
    (hgo : ∀ a, Concurs R (go a) (go' a)) :
    Concurs R (w.withHandle found go) (w'.withHandle found go') := by
  cases found with
  | none => exact ⟨h, rfl⟩
  | some a => exact hgo a

lemma withText (h : R w w') (v : Value) {go go' : String → Result}
    (hgo : ∀ s, Concurs R (go s) (go' s)) : Concurs R (w.withText v go) (w'.withText v go') := by
  simp only [World.withText]
  split
  · exact hgo _
  · exact ⟨h, rfl⟩

variable (hR : Simulation R)

include hR

/-! ## Digests, calls and hosts -/

lemma answerText (h : R w w') (act : Act String) :
    Concurs R (w.answerText act) (w'.answerText act) := by
  obtain ⟨outcome, v, v', hv, hv', hvv⟩ := (hR.perform h act).exists_eq
  simp only [World.answerText, hv, hv']
  cases outcome with
  | ok s => exact ⟨hvv, rfl⟩
  | error e => exact ⟨hvv, rfl⟩

lemma crypto (h : R w w') (c : CryptoStep) : Concurs R (w.crypto c) (w'.crypto c) := by
  cases c with
  | call env call =>
    rw [World.crypto, World.crypto, hR.environment? h]
    refine withHandle h (w.environment? env) fun ⟨env, _, _⟩ => ?_
    cases call with
    | error complaint => exact ⟨h, rfl⟩
    | ok call =>
      have hperform := hR.perform h (call.perform env)
      exact ⟨hperform.world, congrArg Answer.ofOutcome hperform.value⟩
  | createHash as env algorithm =>
    rw [World.crypto, World.crypto, hR.environment? h]
    exact withHandle h (w.environment? env) fun _ => ⟨hR.bind h _ _, rfl⟩
  | createHmac as env algorithm key =>
    rw [World.crypto, World.crypto, hR.environment? h]
    refine withHandle h (w.environment? env) fun _ => ?_
    exact withText h key fun _ => ⟨hR.bind h _ _, rfl⟩
  | update name inputs =>
    simp only [World.crypto, hR.handle? h]
    split
    · exact ⟨hR.bind h _ _, rfl⟩
    · exact ⟨hR.bind h _ _, rfl⟩
    · exact ⟨h, rfl⟩
  | digest name encoding =>
    simp only [World.crypto, hR.handle? h]
    split
    · exact hR.answerText h _
    · exact hR.answerText h _
    · exact ⟨h, rfl⟩

lemma hostStep (h : R w w') (s : HostStep) : Concurs R (w.hostStep s) (w'.hostStep s) := by
  cases s with
  | empty as => exact ⟨hR.bind h _ _, rfl⟩
  | full as => exact ⟨hR.bind h _ _, rfl⟩
  | parse as names =>
    simp only [World.hostStep]
    split
    · exact ⟨hR.bind h _ _, rfl⟩
    · exact ⟨h, rfl⟩
  | insert name names =>
    simp only [World.hostStep, hR.host? h]
    refine withHandle h (w.host? name) fun host => ?_
    split
    · exact ⟨hR.bind h _ _, rfl⟩
    · exact ⟨hR.bind h _ _, rfl⟩
  | extend name capability as =>
    simp only [World.hostStep, hR.host? h]
    refine withHandle h (w.host? name) fun host => ?_
    split
    · exact ⟨hR.bind h _ _, rfl⟩
    · exact ⟨h, rfl⟩
  | same a b =>
    simp only [World.hostStep, hR.host? h]
    refine withHandle h (w.host? a) fun _ => ?_
    exact withHandle h (w.host? b) fun _ => ⟨h, rfl⟩

/-! ## Environments and workers -/

lemma install (h : R w w') (as : String) (source : HostSource) (ops : OpTable) :
    Concurs R (w.install as source ops) (w'.install as source ops) := by
  have hsource : w'.hostOf source = w.hostOf source :=
    hR.view_eq h (·.hostOf source) fun _ _ _ _ => by cases source <;> rfl
  simp only [World.install, hsource]
  cases w.hostOf source with
  | error failure => exact ⟨h, rfl⟩
  | ok host =>
    obtain ⟨outcome, v, v', hv, hv', h⟩ :=
      (hR.perform h (Environment.install host ops)).exists_eq
    simp only [hv, hv']
    cases outcome with
    | error e => exact ⟨h, rfl⟩
    | ok env =>
      obtain ⟨q, v, v', hv, hv', h⟩ := (hR.newQueue h).exists_eq
      simp only [hv, hv']
      exact ⟨(hR.newTimers h q true).bind hR as (.environment env q), rfl⟩

lemma setSlot (h : R w w') (slot : Slot) (name : String) (handler : Option String) :
    Concurs R (w.setSlot slot name handler) (w'.setSlot slot name handler) := by
  rw [World.setSlot, World.setSlot, hR.worker? h]
  refine withHandle h (w.worker? name) fun k => ?_
  cases handler with
  | none => exact ⟨hR.updateWorker h _ _, rfl⟩
  | some handlerName =>
    simp only [hR.listener? h]
    split
    · split
      · exact ⟨hR.updateWorker h _ _, rfl⟩
      · exact ⟨h, rfl⟩
    · exact ⟨h, rfl⟩

lemma spawnWorker (h : R w w') (as env url : String) :
    Concurs R (w.spawnWorker as env url) (w'.spawnWorker as env url) := by
  rw [World.spawnWorker, World.spawnWorker, hR.environment? h]
  refine withHandle h _ fun ⟨env, _, t⟩ => ?_
  obtain ⟨outcome, v, v', hv, hv', h⟩ := (hR.perform h (env.spawnWorker url)).exists_eq
  simp only [hv, hv']
  cases outcome with
  | error e => exact ⟨h, rfl⟩
  | ok id => exact ⟨(hR.newWorker h (Worker.new id url t)).bind hR as .worker, rfl⟩

lemma post (h : R w w') (k : WorkerId) (data : String) :
    Joins R (w.post k data) (w'.post k data) := by
  simp only [World.post, hR.workers h]
  split
  · exact ⟨rfl, h⟩
  · split
    · exact ⟨rfl, h⟩
    · split
      · exact ⟨rfl, hR.note h _⟩
      · exact ⟨rfl, hR.delivery h _ k data⟩

lemma terminate (h : R w w') (k : WorkerId) : R (w.terminate k) (w'.terminate k) := by
  simp only [World.terminate, hR.workers h]
  split
  · exact h
  · split
    · exact h
    · exact hR.note (hR.updateWorker h k Worker.terminate) _

lemma clone (h : R w w') (name as : String) : Concurs R (w.clone name as) (w'.clone name as) := by
  simp only [World.clone, hR.handle? h]
  split
  · exact ⟨h, rfl⟩
  · exact ⟨h, rfl⟩
  · exact ⟨h, rfl⟩
  · exact ⟨hR.bind h _ _, rfl⟩

/-! ## Plain steps -/

/-- A plain step does the same in related worlds, and comes to the same answer or drain. -/
theorem execute (h : R w w') {s : Step} (hs : s.isPlain = true) :
    R (w.execute s).1 (w'.execute s).1 ∧ (w'.execute s).2 = (w.execute s).2 := by
  cases s with
  | install as source ops => exact (hR.install h as source ops).atOnce
  | newQueue as => exact ⟨(hR.newQueue h).bind hR as .queue, rfl⟩
  | newTimers as queue =>
    simp only [World.execute, hR.queue? h]
    refine (withHandle h (w.queue? queue) fun q => ?_).atOnce
    exact ⟨(hR.newTimers h q false).bind hR as .timers, rfl⟩
  | timersOf as env =>
    simp only [World.execute, hR.environment? h]
    refine (withHandle h (w.environment? env) fun ⟨env, _, t⟩ => ?_).atOnce
    obtain ⟨outcome, v, v', hv, hv', h⟩ := (hR.perform h env.timers).exists_eq
    simp only [hv, hv']
    cases outcome with
    | ok _ => exact ⟨hR.bind h as (.timers t), rfl⟩
    | error e => exact ⟨h, rfl⟩
  | queueOf as timers =>
    simp only [World.execute, hR.timers? h, hR.queueOf h]
    refine (withHandle h (w.timers? timers) fun t => ?_).atOnce
    exact ⟨hR.bind h as (.queue (w.queueOf t)), rfl⟩
  | cancel verb timers id =>
    simp only [World.execute, hR.timers? h]
    refine (withHandle h (w.timers? timers) fun t => ?_).atOnce
    exact ⟨hR.cancel h t id, rfl⟩
  | run name =>
    have hname : w'.drainable? name = w.drainable? name :=
      hR.view_eq h (·.drainable? name) fun _ _ _ _ => rfl
    simp only [World.execute, World.drain, hname]
    split
    · exact ⟨h, rfl⟩
    · exact ⟨h, rfl⟩
  | newWorker as id url timers =>
    simp only [World.execute, hR.timers? h]
    refine (withHandle h (w.timers? timers) fun t => ?_).atOnce
    exact ⟨(hR.newWorker h (Worker.new id url t)).bind hR as .worker, rfl⟩
  | spawnWorker as env url => exact (hR.spawnWorker h as env url).atOnce
  | errorHandler as => exact ⟨(hR.errorHandler h as).bind hR as .handler, rfl⟩
  | setSlot slot name handler => exact (hR.setSlot h slot name handler).atOnce
  | addListener name handler =>
    simp only [World.execute, hR.worker? h, hR.listener? h]
    refine (withHandle h (w.worker? name) fun k => ?_).atOnce
    exact withHandle h _ fun _ => ⟨hR.updateWorker h k _, rfl⟩
  | removeListener name handler =>
    simp only [World.execute, hR.worker? h, hR.listener? h]
    refine (withHandle h (w.worker? name) fun k => ?_).atOnce
    exact withHandle h _ fun _ => ⟨hR.updateWorker h k _, rfl⟩
  | post name data =>
    simp only [World.execute, hR.worker? h]
    refine (withHandle h (w.worker? name) fun k => ?_).atOnce
    refine withText h data fun text => ?_
    obtain ⟨outcome, v, v', hv, hv', h⟩ := (hR.post h k text).exists_eq
    simp only [hv, hv']
    cases outcome with
    | ok _ => exact ⟨h, rfl⟩
    | error e => exact ⟨h, rfl⟩
  | terminate name =>
    simp only [World.execute, hR.worker? h]
    refine (withHandle h (w.worker? name) fun k => ?_).atOnce
    exact ⟨hR.terminate h k, rfl⟩
  | clone name as => exact (hR.clone h name as).atOnce
  | drop name =>
    simp only [World.execute, hR.handle? h]
    exact ⟨hR.forget h name, rfl⟩
  | crypto c => exact (hR.crypto h c).atOnce
  | host s => exact (hR.hostStep h s).atOnce
  | malformed name complaint => exact ⟨h, rfl⟩
  | schedule _ _ _ _ _ _ | enqueue _ _ _ | messageHandler _ _ _ | callSlot _ _ _ | query _ =>
    cases hs

end Simulation

end World

end Polyfill.Session
