import Mathlib.Data.List.Forall2
import Mathlib.Tactic.Common
import Polyfill.Proofs.Session.Simulation
/-!
# Sessions without delays

Every step has a form in which all delays are zero, in its body and in the bodies therein
(`Step.undelayed`), and so has everything that holds steps: callbacks, tasks, timers, handlers,
frames and events.  A world is matched by one without delays (`World.Undelays`) if the second holds
the undelayed form of what the first holds, and their histories agree but for the delays in the
notes that say they are ignored.

Every operation of a world takes matched worlds to matched worlds with the same outcome, and hence
so does every step (`World.Undelays.execute`): whatever is looked up, counted, described or answered
does not depend on delays.
-/

namespace Polyfill

variable {κ κ' : Type}

/-- The timer with its callback changed. -/
def Timer.map (f : κ → κ') (t : Timer κ) : Timer κ' :=
  match t with
  | ⟨kind, .pending c⟩ => ⟨kind, .pending (f c)⟩
  | ⟨kind, .fired⟩ => ⟨kind, .fired⟩

namespace Registry

/-- The registry with all callbacks changed. -/
def map (f : κ → κ') (r : Registry κ) : Registry κ' :=
  ⟨r.last, r.timers.map fun entry => (entry.1, entry.2.map f)⟩

variable (f : κ → κ') (r : Registry κ) (id : Nat)

@[simp] lemma last_map : (r.map f).last = r.last := rfl

@[simp] lemma size_map : (r.map f).size = r.size :=
  List.length_map _

@[simp] lemma find?_map : (r.map f).find? id = (r.find? id).map (Timer.map f) := by
  unfold find? map
  induction r.timers with
  | nil => rfl
  | cons entry l ih =>
    rw [List.map_cons, List.lookup_cons, List.lookup_cons]
    split
    · rfl
    · exact ih

@[simp] lemma status_label_map (t : Timer κ) : (t.map f).status.label = t.status.label := by
  obtain ⟨kind, status⟩ := t
  cases status <;> rfl

lemma schedule_map (kind : TimerKind) (c : κ) :
    (r.map f).schedule kind (f c) = (r.schedule kind c).map f := by
  simp only [schedule, map, List.map_append]
  rfl

lemma remove_map : (r.map f).remove id = (r.remove id).map f := by
  simp only [remove, map, List.filter_map]
  rfl

lemma markFired_map : (r.map f).markFired id = (r.markFired id).map f := by
  simp only [markFired, map, List.map_map]
  congr 2
  funext entry
  obtain ⟨i, kind, status⟩ := entry
  simp only [Function.comp_apply, fireEntry]
  by_cases hi : i = id
  · simp only [if_pos hi]
    cases status <;> rfl
  · simp only [if_neg hi]

lemma settle_map (kind : TimerKind) : (r.map f).settle id kind = (r.settle id kind).map f := by
  cases kind with
  | timeout => exact remove_map f r id
  | interval => rfl

lemma pending?_map : (r.map f).pending? id = (r.pending? id).map fun p => (p.1, f p.2) := by
  simp only [pending?, find?_map]
  cases r.find? id with
  | none => rfl
  | some t =>
    obtain ⟨kind, status⟩ := t
    cases status <;> rfl

end Registry

namespace Session

/-! ## Forgetting delays -/

mutual

/-- The step with all delays zero. -/
def Step.undelayed : Step → Step
  | .schedule kind timers label _ args body =>
    .schedule kind timers label 0 args (undelayedAll body)
  | .enqueue queue label body => .enqueue queue label (undelayedAll body)
  | .messageHandler as body times => .messageHandler as (undelayedAll body) times
  | s => s

/-- The steps with all delays zero. -/
def undelayedAll : List Step → List Step
  | [] => []
  | s :: rest => s.undelayed :: undelayedAll rest

end

@[simp] lemma undelayedAll_nil : undelayedAll [] = [] := by
  rw [undelayedAll]

@[simp] lemma undelayedAll_cons (s : Step) (rest : List Step) :
    undelayedAll (s :: rest) = s.undelayed :: undelayedAll rest := by
  rw [undelayedAll]

/-- Delays do not show in the name of a step. -/
@[simp] lemma Step.name_undelayed (s : Step) : s.undelayed.name = s.name := by
  cases s with
  | schedule kind timers label delay args body => cases kind <;> simp [undelayed, name]
  | _ => simp [undelayed, name]

/-- The callback with all delays zero. -/
def Callback.undelayed : Callback → Callback
  | .script label args body => .script label args (undelayedAll body)
  | .delivery k data => .delivery k data

/-- The task with all delays zero. -/
def Microtask.undelayed : Microtask → Microtask
  | .fire t id => .fire t id
  | .script label body => .script label (undelayedAll body)

/-- The timers with all delays zero. -/
def Timers.undelayed (t : Timers) : Timers :=
  { t with registry := t.registry.map Callback.undelayed }

/-- The handler with all delays zero. -/
def Handler.undelayed (h : Handler) : Handler :=
  match h with
  | ⟨name, .message body allowance⟩ => ⟨name, .message (undelayedAll body) allowance⟩
  | ⟨name, .error⟩ => ⟨name, .error⟩

/-- The frame with all delays zero. -/
def Frame.undelayed : Frame → Frame
  | .body rest => .body (undelayedAll rest)
  | frame => frame

/-- The effect with all delays zero. -/
def Effect.undelayed : Effect → Effect
  | .done answer => .done answer
  | .enter frames => .enter (frames.map Frame.undelayed)

/-- The text which says that the delay of a timer is ignored. -/
def delayText (id delay : Nat) : String :=
  "Timer " ++ timerText id ++ ": delay of " ++ toString delay ++ " ms ignored"

namespace Event

/-- The note that the delay of a timer is ignored. -/
def delayNote (id delay : Nat) : Event :=
  .note (.trace (delayText id delay))

/-- The event with all delays zero in the steps it tells of. -/
def undelayed : Event → Event
  | .enqueued q task => .enqueued q task.undelayed
  | .started q task => .started q task.undelayed
  | .scheduled t id kind c => .scheduled t id kind c.undelayed
  | .fired t id c => .fired t id c.undelayed
  | e => e

/-- An event is matched by one without delays. -/
inductive Undelays : Event → Event → Prop
  | same (e : Event) : Undelays e e.undelayed
  | delay (id d : Nat) : Undelays (delayNote id d) (delayNote id 0)

end Event

@[simp] lemma Handler.name_undelayed (h : Handler) : h.undelayed.name = h.name := by
  obtain ⟨name, role⟩ := h
  cases role <;> rfl

@[simp] lemma Handler.slot_undelayed (h : Handler) : h.undelayed.slot = h.slot := by
  obtain ⟨name, role⟩ := h
  cases role <;> rfl

namespace World

/-- The world with all delays zero and another history. -/
def undelayed (w : World) (history : List Event) : World :=
  { w with
    queues := w.queues.map (List.map Microtask.undelayed)
    timers := w.timers.map Timers.undelayed
    handlers := w.handlers.map Handler.undelayed
    history := history }

/-- A world is matched by one without delays. -/
structure Undelays (w w₀ : World) : Prop where
  objects : w₀ = w.undelayed w₀.history
  history : List.Forall₂ Event.Undelays w.history w₀.history

/-! ## Looking at worlds -/

section Views

variable (w : World) (h : List Event)

@[simp] lemma handle?_undelayed (name : String) : (w.undelayed h).handle? name = w.handle? name :=
  rfl

@[simp] lemma tasks_undelayed (q : QueueId) :
    (w.undelayed h).tasks q = (w.tasks q).map Microtask.undelayed := by
  simp only [tasks, undelayed, List.getD_eq_getElem?_getD, List.getElem?_map]
  cases w.queues[q]? <;> rfl

@[simp] lemma registry_undelayed (t : TimersId) :
    (w.undelayed h).registry t = (w.registry t).map Callback.undelayed := by
  simp only [registry, undelayed, List.getElem?_map, Option.map_map]
  cases w.timers[t]? <;> rfl

@[simp] lemma queueOf_undelayed (t : TimersId) : (w.undelayed h).queueOf t = w.queueOf t := by
  simp only [queueOf, undelayed, List.getElem?_map, Option.map_map]
  cases w.timers[t]? <;> rfl

@[simp] lemma handlers_undelayed (i : HandlerId) :
    (w.undelayed h).handlers[i]? = (w.handlers[i]?).map Handler.undelayed :=
  List.getElem?_map

@[simp] lemma keeps_undelayed (t : TimersId) : (w.undelayed h).keeps t = w.keeps t := by
  have howned : ((w.undelayed h).timers[t]?).any (·.owned) = (w.timers[t]?).any (·.owned) := by
    simp only [undelayed, List.getElem?_map]
    cases w.timers[t]? <;> rfl
  rw [keeps, howned]
  rfl

@[simp] lemma stateOf?_undelayed (x : Handle) : (w.undelayed h).stateOf? x = w.stateOf? x := by
  cases x with
  | queue q => simp [stateOf?]
  | timers t => simp [stateOf?]
  | _ => rfl

@[simp] lemma state_undelayed : (w.undelayed h).state = w.state := by
  simp only [state, stateOf?_undelayed]
  rfl

lemma describeQueue_undelayed (q : QueueId) :
    (w.undelayed h).describeQueue q = w.describeQueue q := by
  have hlength : ((w.undelayed h).tasks q).length = (w.tasks q).length := by
    rw [tasks_undelayed, List.length_map]
  unfold describeQueue
  rw [hlength]

lemma describeTimers_undelayed (t : TimersId) :
    (w.undelayed h).describeTimers t = w.describeTimers t := by
  have hsize : ((w.undelayed h).registry t).size = (w.registry t).size := by
    rw [registry_undelayed, Registry.size_map]
  unfold describeTimers
  rw [hsize]

lemma describe?_undelayed (pretty : Bool) (x : Handle) :
    (w.undelayed h).describe? pretty x = w.describe? pretty x := by
  cases x with
  | queue q => exact congrArg some (describeQueue_undelayed w h q)
  | timers t => exact congrArg some (describeTimers_undelayed w h t)
  | environment env q t =>
    have hline : (w.undelayed h).describeEnvironment env q t = w.describeEnvironment env q t := by
      unfold describeEnvironment
      rw [describeQueue_undelayed, describeTimers_undelayed]
    have hlines : (w.undelayed h).describeEnvironmentPretty env q t =
        w.describeEnvironmentPretty env q t := by
      unfold describeEnvironmentPretty
      rw [describeQueue_undelayed, describeTimers_undelayed]
    refine congrArg some ?_
    rw [hline, hlines]
  | _ => rfl

@[simp] lemma listener?_undelayed (name : String) :
    (w.undelayed h).listener? name = w.listener? name := by
  have hname : (w.undelayed h).handler? name = w.handler? name := rfl
  simp only [listener?, hname]
  cases w.handler? name with
  | none => rfl
  | some i =>
    simp only [handlers_undelayed, Option.map_map]
    cases w.handlers[i]? <;> simp

/-- Delays do not show when a session looks at objects. -/
@[simp] lemma query_undelayed (q : Query) : (w.undelayed h).query q = w.query q := by
  have hhandler : ∀ name, (w.undelayed h).handler? name = w.handler? name := fun _ => rfl
  cases q with
  | state name id =>
    have hname : (w.undelayed h).timers? name = w.timers? name := rfl
    simp only [query, hname, registry_undelayed, Registry.find?_map]
    cases w.timers? name with
    | none => rfl
    | some t => cases hx : (w.registry t).find? id <;> simp [hx]
  | size name =>
    simp only [query, handle?_undelayed, registry_undelayed, tasks_undelayed, Registry.size_map,
      List.length_map]
  | eventType name =>
    simp only [query, hhandler]
    cases w.handler? name with
    | none => rfl
    | some i => cases hx : w.handlers[i]? <;> simp [hx]
  | isCurrent name handlerName =>
    have hworkers : (w.undelayed h).workers = w.workers := rfl
    have hworker : (w.undelayed h).worker? name = w.worker? name := rfl
    simp only [query, hhandler, hworkers, hworker]
    cases (w.worker? name).bind (w.workers[·]?) with
    | none => rfl
    | some worker =>
      cases w.handler? handlerName with
      | none => rfl
      | some i => cases hx : w.handlers[i]? <;> simp [hx]
  | describe name pretty =>
    have hdescribe : (w.undelayed h).describe? pretty = w.describe? pretty :=
      funext (describe?_undelayed w h pretty)
    simp only [query, handle?_undelayed, hdescribe]
  | _ => rfl

end Views

/-! ## Operations -/

/-- A change of one member goes through a map if the map takes the change to another one. -/
lemma map_modify_of {α β : Type} {f : α → β} {g : α → α} {g' : β → β}
    (h : ∀ a, f (g a) = g' (f a)) (l : List α) (i : Nat) :
    (l.modify i g).map f = (l.map f).modify i g' := by
  refine List.ext_getElem? fun j => ?_
  simp only [List.getElem?_map, List.getElem?_modify]
  cases l[j]? with
  | none => rfl
  | some a =>
    by_cases hij : i = j
    · simp [hij, h]
    · simp [hij]

namespace Undelays

variable {w w₀ : World}

lemma exists_eq (h : Undelays w w₀) :
    ∃ h₀, w₀ = w.undelayed h₀ ∧ List.Forall₂ Event.Undelays w.history h₀ :=
  ⟨_, h.objects, h.history⟩

lemma queueOf (h : Undelays w w₀) (t : TimersId) : w₀.queueOf t = w.queueOf t := by
  rw [h.objects, queueOf_undelayed]

lemma registry (h : Undelays w w₀) (t : TimersId) :
    w₀.registry t = (w.registry t).map Callback.undelayed := by
  rw [h.objects, registry_undelayed]

lemma log (h : Undelays w w₀) {e e₀ : Event} (he : e.Undelays e₀) :
    Undelays (w.log e) (w₀.log e₀) := by
  obtain ⟨h₀, rfl, hh⟩ := h.exists_eq
  exact ⟨rfl, List.rel_append hh (.cons he .nil)⟩

lemma note (h : Undelays w w₀) (n : Note) : Undelays (w.note n) (w₀.note n) :=
  h.log (.same (.note n))

/-- An act does not look at objects, so it comes to the same outcome. -/
lemma perform {α : Type} (h : Undelays w w₀) (act : Act α) :
    Joins Undelays (w.perform act) (w₀.perform act) := by
  obtain ⟨h₀, rfl, hh⟩ := h.exists_eq
  refine ⟨rfl, rfl, List.rel_append hh (List.forall₂_same.mpr fun e he => ?_)⟩
  obtain ⟨n, -, rfl⟩ := List.mem_map.mp he
  exact .same (.note n)

lemma bind (h : Undelays w w₀) (name : String) (x : Handle) :
    Undelays (w.bind name x) (w₀.bind name x) := by
  obtain ⟨h₀, rfl, hh⟩ := h.exists_eq
  exact ⟨rfl, hh⟩

lemma forget (h : Undelays w w₀) (name : String) : Undelays (w.forget name) (w₀.forget name) := by
  obtain ⟨h₀, rfl, hh⟩ := h.exists_eq
  exact ⟨rfl, hh⟩

lemma newQueue (h : Undelays w w₀) : Joins Undelays w.newQueue w₀.newQueue := by
  obtain ⟨h₀, rfl, hh⟩ := h.exists_eq
  refine ⟨List.length_map _, ?_, hh⟩
  simp [World.newQueue, undelayed]

lemma enqueue (h : Undelays w w₀) (q : QueueId) (task : Microtask) :
    Undelays (w.enqueue q task) (w₀.enqueue q task.undelayed) := by
  obtain ⟨h₀, rfl, hh⟩ := h.exists_eq
  have hqueues : Undelays { w with queues := w.queues.modify q (· ++ [task]) }
      { w.undelayed h₀ with
        queues := (w.undelayed h₀).queues.modify q (· ++ [task.undelayed]) } := by
    refine ⟨?_, hh⟩
    have hmap : (w.queues.modify q (· ++ [task])).map (List.map Microtask.undelayed) =
        (w.queues.map (List.map Microtask.undelayed)).modify q (· ++ [task.undelayed]) :=
      map_modify_of (fun _ => List.map_append) w.queues q
    simp only [undelayed, hmap]
  exact hqueues.log (.same (.enqueued q task))

/-- A task goes to the queue of the same timers. -/
lemma enqueue_queueOf (h : Undelays w w₀) (t : TimersId) (task : Microtask) :
    Undelays (w.enqueue (w.queueOf t) task) (w₀.enqueue (w₀.queueOf t) task.undelayed) := by
  rw [h.queueOf]
  exact h.enqueue _ task

/-- The same task is taken, or none. -/
lemma pop (h : Undelays w w₀) (q : QueueId) : (w.pop q = none ∧ w₀.pop q = none) ∨
    ∃ task w' w₀', w.pop q = some (task, w') ∧ w₀.pop q = some (task.undelayed, w₀') ∧
      Undelays w' w₀' := by
  obtain ⟨h₀, rfl, hh⟩ := h.exists_eq
  simp only [World.pop, tasks_undelayed]
  cases ht : w.tasks q with
  | nil => exact Or.inl ⟨rfl, rfl⟩
  | cons task rest =>
    refine Or.inr ⟨task, _, _, rfl, rfl, ?_⟩
    have hqueues : Undelays { w with queues := w.queues.set q rest }
        { w.undelayed h₀ with
          queues := (w.undelayed h₀).queues.set q (rest.map Microtask.undelayed) } := by
      refine ⟨?_, hh⟩
      simp only [undelayed, List.map_set]
    exact hqueues.log (.same (.started q task))

lemma updateRegistry (h : Undelays w w₀) (t : TimersId)
    {f f₀ : Registry Callback → Registry Callback}
    (hf : ∀ r, (f r).map Callback.undelayed = f₀ (r.map Callback.undelayed)) :
    Undelays (w.updateRegistry t f) (w₀.updateRegistry t f₀) := by
  obtain ⟨h₀, rfl, hh⟩ := h.exists_eq
  refine ⟨?_, hh⟩
  have hmap : (w.timers.modify t fun timers =>
        { timers with registry := f timers.registry }).map Timers.undelayed =
      (w.timers.map Timers.undelayed).modify t fun timers =>
        { timers with registry := f₀ timers.registry } :=
    map_modify_of (fun timers => by simp only [Timers.undelayed, hf]) w.timers t
  simp only [World.updateRegistry, undelayed, hmap]

lemma newTimers (h : Undelays w w₀) (q : QueueId) (owned : Bool) :
    Joins Undelays (w.newTimers q owned) (w₀.newTimers q owned) := by
  obtain ⟨h₀, rfl, hh⟩ := h.exists_eq
  refine ⟨List.length_map _, ?_, hh⟩
  simp only [World.newTimers, undelayed, List.map_append]
  rfl

/-- A timer gets the same number, whatever its delay. -/
lemma schedule (h : Undelays w w₀) (t : TimersId) (kind : TimerKind) (delay : Nat) (c : Callback) :
    Joins Undelays (w.schedule t kind delay c) (w₀.schedule t kind 0 c.undelayed) := by
  have hlast : (w₀.registry t).last = (w.registry t).last := by rw [h.registry, Registry.last_map]
  have hregistry : Undelays (w.updateRegistry t (·.schedule kind c))
      (w₀.updateRegistry t (·.schedule kind c.undelayed)) :=
    h.updateRegistry t fun r => (Registry.schedule_map _ r kind c).symm
  have hnotes := ((hregistry.log (.same (.scheduled t ((w.registry t).last + 1) kind c))).note
    (.debug ("Timer " ++ timerText ((w.registry t).last + 1) ++ " scheduled (" ++ kind.label ++
      ")"))).log (.delay ((w.registry t).last + 1) delay)
  refine ⟨congrArg (· + 1) hlast, ?_⟩
  simp only [World.schedule, hlast]
  exact hnotes.enqueue_queueOf t (.fire t ((w.registry t).last + 1))

lemma cancel (h : Undelays w w₀) (t : TimersId) (id : Nat) :
    Undelays (w.cancel t id) (w₀.cancel t id) := by
  have hregistered : ((w₀.registry t).find? id).isSome = ((w.registry t).find? id).isSome := by
    rw [h.registry, Registry.find?_map, Option.isSome_map]
  have hremoved : Undelays ((w.updateRegistry t (·.remove id)).log (.cancelled t id))
      ((w₀.updateRegistry t (·.remove id)).log (.cancelled t id)) :=
    (h.updateRegistry t fun r => (Registry.remove_map _ r id).symm).log (.same (.cancelled t id))
  simp only [World.cancel, hregistered]
  split
  · exact hremoved.note _
  · exact hremoved

/-- The same timers may fire. -/
lemma fire (h : Undelays w w₀) (t : TimersId) (id : Nat) :
    (w.fire t id = none ∧ w₀.fire t id = none) ∨
      ∃ kind c w' w₀', w.fire t id = some (kind, c, w') ∧
        w₀.fire t id = some (kind, c.undelayed, w₀') ∧ Undelays w' w₀' := by
  simp only [World.fire, h.registry, Registry.pending?_map]
  cases (w.registry t).pending? id with
  | none => exact Or.inl ⟨rfl, rfl⟩
  | some p =>
    obtain ⟨kind, c⟩ := p
    refine Or.inr ⟨kind, c, _, _, rfl, rfl, ?_⟩
    exact (h.updateRegistry t fun r => (Registry.markFired_map _ r id).symm).log
      (.same (.fired t id c))

lemma settle (h : Undelays w w₀) (t : TimersId) (id : Nat) (kind : TimerKind) :
    Undelays (w.settle t id kind) (w₀.settle t id kind) :=
  (h.updateRegistry t fun r => (Registry.settle_map _ r id kind).symm).log (.same (.settled t id))

lemma newWorker (h : Undelays w w₀) (worker : Worker) :
    Joins Undelays (w.newWorker worker) (w₀.newWorker worker) := by
  obtain ⟨h₀, rfl, hh⟩ := h.exists_eq
  exact ⟨rfl, rfl, hh⟩

lemma updateWorker (h : Undelays w w₀) (k : WorkerId) (f : Worker → Worker) :
    Undelays (w.updateWorker k f) (w₀.updateWorker k f) := by
  obtain ⟨h₀, rfl, hh⟩ := h.exists_eq
  exact ⟨rfl, hh⟩

lemma newHandler (h : Undelays w w₀) (handler : Handler) :
    Joins Undelays (w.newHandler handler) (w₀.newHandler handler.undelayed) := by
  obtain ⟨h₀, rfl, hh⟩ := h.exists_eq
  refine ⟨List.length_map _, ?_, hh⟩
  simp only [World.newHandler, undelayed, List.map_append]
  rfl

lemma workers (h : Undelays w w₀) : w₀.workers = w.workers := by
  rw [h.objects]
  rfl

lemma handlers (h : Undelays w w₀) (i : HandlerId) :
    w₀.handlers[i]? = (w.handlers[i]?).map Handler.undelayed := by
  rw [h.objects, handlers_undelayed]

/-- The same handler is called, and runs the undelayed form of its body. -/
lemma deliver (h : Undelays w w₀) (k : WorkerId) (i : HandlerId) (data origin : String) :
    (w₀.deliver k i data origin).1 = undelayedAll (w.deliver k i data origin).1 ∧
      Undelays (w.deliver k i data origin).2 (w₀.deliver k i data origin).2 := by
  simp only [World.deliver, h.handlers]
  cases hx : w.handlers[i]? with
  | none => exact ⟨undelayedAll_nil.symm, h⟩
  | some handler =>
    obtain ⟨name, role⟩ := handler
    have hlog := h.log (.same (.message k i name data origin))
    cases role with
    | error => exact ⟨undelayedAll_nil.symm, hlog⟩
    | message body allowance =>
      cases allowance with
      | zero => exact ⟨undelayedAll_nil.symm, hlog⟩
      | succ allowance =>
        obtain ⟨h₀, rfl, hh⟩ := h.exists_eq
        have hset : Undelays
            { w with handlers := w.handlers.set i ⟨name, .message body allowance⟩ }
            { w.undelayed h₀ with
              handlers := (w.undelayed h₀).handlers.set i
                ⟨name, .message (undelayedAll body) allowance⟩ } := by
          refine ⟨?_, hh⟩
          simp only [undelayed, List.map_set]
          rfl
        exact ⟨rfl, hset.log (.same (.message k i name data origin))⟩

lemma deliverError (h : Undelays w w₀) (k : WorkerId) (i : HandlerId) (message : String) :
    Undelays (w.deliverError k i message) (w₀.deliverError k i message) := by
  simp only [World.deliverError, h.handlers]
  cases w.handlers[i]? with
  | none => exact h
  | some handler =>
    simp only [Option.map_some, Handler.name_undelayed]
    exact h.log (.same (.failure k i handler.name message))

end Undelays

/-! ## Steps -/

/-- What a step does is matched by what one without delays does. -/
structure Follows (r r₀ : World × Effect) : Prop where
  world : Undelays r.1 r₀.1
  effect : r₀.2 = r.2.undelayed

lemma Concurs.follows {r r₀ : Result} (h : Concurs Undelays r r₀) :
    Follows (World.atOnce r) (World.atOnce r₀) :=
  ⟨h.world, congrArg Effect.done h.answer⟩

namespace Undelays

variable {w w₀ : World}

lemma callSlot (h : Undelays w w₀) (slot : Slot) (verb : String) (k : WorkerId) (data : String) :
    Follows (w.callSlot slot verb k data) (w₀.callSlot slot verb k data) := by
  simp only [World.callSlot, h.workers]
  split
  · exact ⟨h, rfl⟩
  · rename_i i _
    cases slot with
    | message =>
      obtain ⟨hbody, hworld⟩ := h.deliver k i data directOrigin
      refine ⟨hworld, ?_⟩
      simp only [hbody]
      rfl
    | error => exact ⟨h.deliverError k i data, rfl⟩

/-- A world without delays is related to a world as plain steps need it. -/
lemma simulation : Simulation Undelays where
  objects h := by
    obtain ⟨h₀, rfl, -⟩ := h.exists_eq
    rfl
  slots h i := by
    rw [h.handlers, Option.map_map]
    congr 1
    funext handler
    exact handler.slot_undelayed
  queueOf h t := h.queueOf t
  note h n := h.note n
  perform h act := h.perform act
  bind h name x := h.bind name x
  forget h name := h.forget name
  newQueue h := h.newQueue
  newTimers h q owned := h.newTimers q owned
  newWorker h worker := h.newWorker worker
  updateWorker h k f := h.updateWorker k f
  errorHandler h name := h.newHandler ⟨name, .error⟩
  cancel h t id := h.cancel t id
  delivery h t k data := (h.schedule t .timeout 0 (.delivery k data)).world

/-- A plain step has no delays. -/
lemma follows_plain (h : Undelays w w₀) {s : Step} (hs : s.isPlain = true) :
    Follows (w.execute s) (w₀.execute s) := by
  obtain ⟨hworld, heffect⟩ := simulation.execute h hs
  refine ⟨hworld, heffect.trans ?_⟩
  rcases w.effect_of_isPlain hs with ⟨answer, hdone⟩ | ⟨q, henter⟩
  · rw [hdone]
    rfl
  · rw [henter]
    rfl

/-- A step without delays does the same in a matched world. -/
theorem execute (h : Undelays w w₀) (s : Step) :
    Follows (w.execute s) (w₀.execute s.undelayed) := by
  cases s with
  | schedule kind timers label delay args body =>
    rw [Step.undelayed]
    simp only [World.execute, simulation.timers? h]
    refine (Simulation.withHandle h (w.timers? timers) fun t => ?_).follows
    have hschedule := h.schedule t kind delay (.script label args body)
    exact ⟨hschedule.world, congrArg (fun id => Answer.data (.nat id)) hschedule.value⟩
  | enqueue queue label body =>
    rw [Step.undelayed]
    simp only [World.execute, simulation.queue? h]
    refine (Simulation.withHandle h (w.queue? queue) fun q => ?_).follows
    exact ⟨h.enqueue q (.script label body), rfl⟩
  | messageHandler as body times =>
    rw [Step.undelayed]
    exact Concurs.follows
      ⟨(h.newHandler ⟨as, .message body times⟩).bind simulation as .handler, rfl⟩
  | callSlot slot name data =>
    simp only [Step.undelayed, World.execute, simulation.worker? h]
    split
    · exact ⟨h, rfl⟩
    · split
      · exact h.callSlot slot _ _ _
      · exact ⟨h, rfl⟩
  | query q =>
    obtain ⟨h₀, rfl, -⟩ := h.exists_eq
    exact Concurs.follows ⟨h, query_undelayed w h₀ q⟩
  | _ => exact h.follows_plain rfl

end Undelays

end World

end Session

end Polyfill
