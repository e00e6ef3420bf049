import Mathlib.Logic.Relation
import Mathlib.Tactic.Common
import Polyfill.Session.Machine
/-!
# What a step can do to a world

However many kinds of steps there are, a step changes a world by a few kinds of changes only, one
after the other.  `World.Aside` lists those that leave all timers alone and `World.Change` all of
them, each with what is known of it at the time: a handle that is bound refers to an object that is
there and keeps nothing alive that was not kept before, a timer is scheduled on timers that are
there, and so on.  `World.execute_changes` says that the list is complete.

What a change preserves is then said once for each kind of change.  Here this is done for two facts
that all others rest on: no object is lost or moved to another queue (`World.Grows`), and every
number in a world refers to an object (`World.Sound`).
-/

namespace Polyfill.Session

/-- Whether an event only tells of an answer, a note or an error handler. -/
def Event.isRemark : Event → Bool
  | .note _ | .failure _ _ _ _ | .stepped _ _ | .answered _ _ => true
  | _ => false

namespace World

/-! ## Handles that refer to something -/

/-- A handle refers to an object of the world.  The timers of an environment belong to it and fire
on its own queue. -/
def Knows (w : World) : Handle → Prop
  | .queue q => q < w.queues.length
  | .timers t => t < w.timers.length
  | .worker k => k < w.workers.length
  | .handler h => h < w.handlers.length
  | .environment _ q t => ∃ timers, w.timers[t]? = some timers ∧ timers.queue = q ∧
      timers.owned = true
  | .host _ | .hash _ | .hmac _ => True

/-- A handle can be stored: it refers to an object and keeps no registry alive that is not kept
already. -/
def Admits (w : World) (h : Handle) : Prop :=
  w.Knows h ∧ ∀ t, w.holds t h = true → w.keeps t = true

/-- A handler can stand in a place: it is there and is made for that place. -/
def Suits (w : World) (slot : Slot) (h : HandlerId) : Prop :=
  ∃ handler, w.handlers[h]? = some handler ∧ handler.slot = slot

/-- A callback can be scheduled on timers: a delivery is scheduled as a timeout, on the timers of
its worker. -/
def Fits (w : World) (t : TimersId) (kind : TimerKind) : Callback → Prop
  | .script _ _ _ => True
  | .delivery k _ => kind = .timeout ∧ ∃ worker, w.workers[k]? = some worker ∧ worker.timers = t

/-- Every number in a world refers to an object. -/
structure Sound (w : World) : Prop where
  /-- Every stored handle refers to an object. -/
  names : ∀ entry ∈ w.names, w.Knows entry.2
  /-- All timers fire on a queue that is there. -/
  queues : ∀ (t : TimersId) (timers : Timers), w.timers[t]? = some timers →
    timers.queue < w.queues.length
  /-- All workers use timers that are there. -/
  workers : ∀ (k : WorkerId) (worker : Worker), w.workers[k]? = some worker →
    worker.timers < w.timers.length
  /-- A place of a worker holds a handler made for it. -/
  slots : ∀ (k : WorkerId) (worker : Worker), w.workers[k]? = some worker →
    ∀ slot h, worker.slot slot = some h → w.Suits slot h

/-- No object is lost, and none changes what it is tied to. -/
structure Grows (w w' : World) : Prop where
  queues : w.queues.length ≤ w'.queues.length
  timers : ∀ (t : TimersId) (timers : Timers), w.timers[t]? = some timers →
    ∃ timers' : Timers, w'.timers[t]? = some timers' ∧ timers'.queue = timers.queue ∧
      timers'.owned = timers.owned
  workers : ∀ (k : WorkerId) (worker : Worker), w.workers[k]? = some worker →
    ∃ worker' : Worker, w'.workers[k]? = some worker' ∧ worker'.timers = worker.timers
  handlers : ∀ (h : HandlerId) (handler : Handler), w.handlers[h]? = some handler →
    ∃ handler' : Handler, w'.handlers[h]? = some handler' ∧ handler'.slot = handler.slot
  history : w.history <+: w'.history

/-! ## Changes -/

/-- One change of a world that does nothing to its timers and starts no task. -/
inductive Aside : World → World → Prop
  | remark {w : World} (e : Event) (he : e.isRemark = true) : Aside w (w.log e)
  | perform {w : World} {α : Type} (act : Act α) : Aside w (w.perform act).2
  | bind {w : World} (name : String) (h : Handle) (hh : w.Admits h) : Aside w (w.bind name h)
  | forget {w : World} (name : String) : Aside w (w.forget name)
  | newQueue {w : World} : Aside w w.newQueue.2
  /-- New timers without an owner are stored at once. -/
  | newTimers {w : World} (name : String) (q : QueueId) (hq : q < w.queues.length) :
      Aside w ((w.newTimers q false).2.bind name (.timers w.timers.length))
  | ownTimers {w : World} (q : QueueId) (hq : q < w.queues.length) :
      Aside w (w.newTimers q true).2
  | newWorker {w : World} (id : Nat) (url : String) (t : TimersId) (ht : t < w.timers.length) :
      Aside w (w.newWorker (Worker.new id url t)).2
  | newHandler {w : World} (handler : Handler) : Aside w (w.newHandler handler).2
  | setSlot {w : World} (k : WorkerId) (slot : Slot) (handler : Option HandlerId)
      (hh : ∀ h, handler = some h → w.Suits slot h) :
      Aside w (w.updateWorker k (·.setSlot slot handler))
  | removeListener {w : World} (k : WorkerId) (slot : Slot) (h : HandlerId) :
      Aside w (w.updateWorker k (·.removeListener slot h))
  | terminate {w : World} (k : WorkerId) : Aside w (w.terminate k)
  | enqueue {w : World} (q : QueueId) (label : String) (body : List Step)
      (hq : q < w.queues.length) : Aside w (w.enqueue q (.script label body))
  | call {w : World} (k : WorkerId) (h : HandlerId) (data : String) :
      Aside w (w.deliver k h data directOrigin).2

/-- One change of a world. -/
inductive Change : World → World → Prop
  | aside {w w' : World} (h : Aside w w') : Change w w'
  | schedule {w : World} (t : TimersId) (kind : TimerKind) (delay : Nat) (c : Callback)
      (ht : t < w.timers.length) (hc : w.Fits t kind c) : Change w (w.schedule t kind delay c).2
  | cancel {w : World} (t : TimersId) (id : Nat) (ht : t < w.timers.length) :
      Change w (w.cancel t id)
  | start {w w' : World} (q : QueueId) (label : String) (body : List Step)
      (hp : w.pop q = some (.script label body, w')) : Change w w'
  | drained {w : World} (q : QueueId) (count : Nat) (hq : w.tasks q = []) :
      Change w (w.log (.drained q count))

/-- Changes that leave all timers alone, one after the other. -/
abbrev Asides : World → World → Prop :=
  Relation.ReflTransGen Aside

/-- Changes one after the other. -/
abbrev Changes : World → World → Prop :=
  Relation.ReflTransGen Change

lemma Asides.changes {w w' : World} (h : Asides w w') : Changes w w' := by
  induction h with
  | refl => exact .refl
  | tail _ h ih => exact ih.tail (.aside h)

/-! ## Nothing is lost -/

lemma Grows.refl (w : World) : Grows w w :=
  ⟨Nat.le_refl _, fun _ x hx => ⟨x, hx, rfl, rfl⟩, fun _ x hx => ⟨x, hx, rfl⟩,
    fun _ x hx => ⟨x, hx, rfl⟩, List.prefix_rfl⟩

lemma Grows.trans {w₁ w₂ w₃ : World} (h : Grows w₁ w₂) (h' : Grows w₂ w₃) : Grows w₁ w₃ := by
  refine ⟨Nat.le_trans h.queues h'.queues, ?_, ?_, ?_, h.history.trans h'.history⟩
  · intro t x hx
    obtain ⟨y, hy, hq, ho⟩ := h.timers t x hx
    obtain ⟨z, hz, hq', ho'⟩ := h'.timers t y hy
    exact ⟨z, hz, hq'.trans hq, ho'.trans ho⟩
  · intro k x hx
    obtain ⟨y, hy, ht⟩ := h.workers k x hx
    obtain ⟨z, hz, ht'⟩ := h'.workers k y hy
    exact ⟨z, hz, ht'.trans ht⟩
  · intro i x hx
    obtain ⟨y, hy, hs⟩ := h.handlers i x hx
    obtain ⟨z, hz, hs'⟩ := h'.handlers i y hy
    exact ⟨z, hz, hs'.trans hs⟩

/-- A handle that refers to an object goes on to do so. -/
lemma Knows.mono {w w' : World} {h : Handle} (hk : w.Knows h) (hg : Grows w w') : w'.Knows h := by
  cases h with
  | queue q => exact Nat.lt_of_lt_of_le hk hg.queues
  | timers t =>
    obtain ⟨x, hx, -⟩ := hg.timers t _ (List.getElem?_eq_getElem hk)
    exact (List.getElem?_eq_some_iff.mp hx).1
  | worker k =>
    obtain ⟨x, hx, -⟩ := hg.workers k _ (List.getElem?_eq_getElem hk)
    exact (List.getElem?_eq_some_iff.mp hx).1
  | handler h =>
    obtain ⟨x, hx, -⟩ := hg.handlers h _ (List.getElem?_eq_getElem hk)
    exact (List.getElem?_eq_some_iff.mp hx).1
  | environment env q t =>
    obtain ⟨x, hx, hq, ho⟩ := hk
    obtain ⟨y, hy, hq', ho'⟩ := hg.timers t x hx
    exact ⟨y, hy, hq'.trans hq, ho'.trans ho⟩
  | host _ | hash _ | hmac _ => trivial

lemma Suits.mono {w w' : World} {slot : Slot} {h : HandlerId} (hs : w.Suits slot h)
    (hg : Grows w w') : w'.Suits slot h := by
  obtain ⟨x, hx, hslot⟩ := hs
  obtain ⟨y, hy, hslot'⟩ := hg.handlers h x hx
  exact ⟨y, hy, hslot'.trans hslot⟩

/-- A member of a list with one member changed is a member of the list, changed or not. -/
lemma of_getElem?_modify {α : Type} {l : List α} {f : α → α} {i j : Nat} {b : α}
    (h : (l.modify i f)[j]? = some b) : ∃ a, l[j]? = some a ∧ (b = a ∨ b = f a) := by
  rw [List.getElem?_modify, Option.map_eq_map, Option.map_eq_some_iff] at h
  obtain ⟨a, ha, rfl⟩ := h
  refine ⟨a, ha, ?_⟩
  by_cases hij : i = j
  · exact Or.inr (if_pos hij)
  · exact Or.inl (if_neg hij)

/-- What holds of a member and of the member changed holds of the list with the change. -/
lemma getElem?_modify_of {α : Type} {P : α → Prop} {l : List α} {f : α → α} {i j : Nat} {a : α}
    (h : l[j]? = some a) (ha : P a) (hf : P (f a)) : ∃ b, (l.modify i f)[j]? = some b ∧ P b := by
  refine ⟨if i = j then f a else a, ?_, ?_⟩
  · rw [List.getElem?_modify, h]
    rfl
  · by_cases hij : i = j
    · rwa [if_pos hij]
    · rwa [if_neg hij]

lemma grows_log (w : World) (e : Event) : Grows w (w.log e) :=
  { Grows.refl w with history := List.prefix_append _ _ }

lemma grows_note (w : World) (n : Note) : Grows w (w.note n) :=
  grows_log w _

lemma grows_perform {α : Type} (w : World) (act : Act α) : Grows w (w.perform act).2 :=
  { Grows.refl w with history := List.prefix_append _ _ }

lemma grows_bind (w : World) (name : String) (h : Handle) : Grows w (w.bind name h) :=
  { Grows.refl w with }

lemma grows_newQueue (w : World) : Grows w w.newQueue.2 :=
  { Grows.refl w with queues := by simp [newQueue] }

lemma grows_newTimers (w : World) (q : QueueId) (owned : Bool) :
    Grows w (w.newTimers q owned).2 :=
  { Grows.refl w with
    timers := fun t x hx =>
      ⟨x, by rw [newTimers, List.getElem?_append_left (List.getElem?_eq_some_iff.mp hx).1, hx],
        rfl, rfl⟩ }

lemma grows_newWorker (w : World) (worker : Worker) : Grows w (w.newWorker worker).2 :=
  { Grows.refl w with
    workers := fun k x hx =>
      ⟨x, by rw [newWorker, List.getElem?_append_left (List.getElem?_eq_some_iff.mp hx).1, hx],
        rfl⟩ }

lemma grows_newHandler (w : World) (handler : Handler) : Grows w (w.newHandler handler).2 :=
  { Grows.refl w with
    handlers := fun h x hx =>
      ⟨x, by rw [newHandler, List.getElem?_append_left (List.getElem?_eq_some_iff.mp hx).1, hx],
        rfl⟩ }

lemma grows_updateWorker (w : World) (k : WorkerId) {f : Worker → Worker}
    (hf : ∀ worker, (f worker).timers = worker.timers) : Grows w (w.updateWorker k f) :=
  { Grows.refl w with
    workers := fun _ x hx =>
      getElem?_modify_of (P := fun y : Worker => y.timers = x.timers) hx rfl (hf x) }

lemma grows_updateRegistry (w : World) (t : TimersId)
    (f : Registry Callback → Registry Callback) : Grows w (w.updateRegistry t f) :=
  { Grows.refl w with
    timers := fun _ x hx =>
      getElem?_modify_of (P := fun y : Timers => y.queue = x.queue ∧ y.owned = x.owned) hx
        ⟨rfl, rfl⟩ ⟨rfl, rfl⟩ }

lemma grows_enqueue (w : World) (q : QueueId) (task : Microtask) : Grows w (w.enqueue q task) :=
  { Grows.refl w with
    queues := by simp [enqueue, log]
    history := List.prefix_append _ _ }

lemma grows_deliver (w : World) (k : WorkerId) (h : HandlerId) (data origin : String) :
    Grows w (w.deliver k h data origin).2 := by
  unfold deliver
  split
  · rename_i name body allowance hh
    refine { Grows.refl w with handlers := ?_, history := List.prefix_append _ _ }
    intro i x hx
    by_cases hi : h = i
    · subst hi
      have hlt := (List.getElem?_eq_some_iff.mp hh).1
      obtain rfl : x = ⟨name, .message body (allowance + 1)⟩ := Option.some.inj (hx.symm.trans hh)
      exact ⟨⟨name, .message body allowance⟩, by simp [log, hlt], rfl⟩
    · exact ⟨x, by simp [log, List.getElem?_set_ne hi, hx], rfl⟩
  · exact grows_log w _
  · exact Grows.refl w

lemma grows_schedule (w : World) (t : TimersId) (kind : TimerKind) (delay : Nat) (c : Callback) :
    Grows w (w.schedule t kind delay c).2 :=
  (((((grows_updateRegistry w t _).trans (grows_log _ _)).trans (grows_note _ _)).trans
    (grows_note _ _)).trans (grows_enqueue _ _ _))

lemma grows_cancel (w : World) (t : TimersId) (id : Nat) : Grows w (w.cancel t id) := by
  have h := (grows_updateRegistry w t (·.remove id)).trans (grows_log _ (.cancelled t id))
  simp only [cancel]
  split
  · exact h.trans (grows_note _ _)
  · exact h

lemma grows_settle (w : World) (t : TimersId) (id : Nat) (kind : TimerKind) :
    Grows w (w.settle t id kind) :=
  (grows_updateRegistry w t _).trans (grows_log _ _)

lemma grows_terminate (w : World) (k : WorkerId) : Grows w (w.terminate k) := by
  unfold terminate
  split
  · exact Grows.refl w
  · split
    · exact Grows.refl w
    · exact (grows_updateWorker w k (f := Worker.terminate) fun _ => rfl).trans (grows_note _ _)

/-- Taking a task removes it from the front of its queue and writes down that it starts. -/
lemma pop_eq_some_iff {w w' : World} {q : QueueId} {task : Microtask} :
    w.pop q = some (task, w') ↔ ∃ rest, w.tasks q = task :: rest ∧
      w' = { w with queues := w.queues.set q rest }.log (.started q task) := by
  unfold pop
  split
  · rename_i hq
    simp [hq]
  · rename_i task' rest hq
    simp only [hq, Option.some.injEq, Prod.mk.injEq, List.cons.injEq]
    constructor
    · rintro ⟨rfl, rfl⟩
      exact ⟨rest, ⟨rfl, rfl⟩, rfl⟩
    · rintro ⟨_, ⟨rfl, rfl⟩, rfl⟩
      exact ⟨rfl, rfl⟩

lemma grows_pop {w w' : World} {q : QueueId} {task : Microtask}
    (h : w.pop q = some (task, w')) : Grows w w' := by
  obtain ⟨rest, -, rfl⟩ := pop_eq_some_iff.mp h
  exact { Grows.refl w with
    queues := by simp [log]
    history := List.prefix_append _ _ }

/-- Firing a timer takes the callback that waits and marks the timer fired. -/
lemma fire_eq_some_iff {w w' : World} {t : TimersId} {id : Nat} {kind : TimerKind} {c : Callback} :
    w.fire t id = some (kind, c, w') ↔ (w.registry t).pending? id = some (kind, c) ∧
      w' = (w.updateRegistry t (·.markFired id)).log (.fired t id c) := by
  unfold fire
  split
  · rename_i kind' c' hp
    simp only [hp, Option.some.injEq, Prod.mk.injEq]
    constructor
    · rintro ⟨rfl, rfl, rfl⟩
      exact ⟨⟨rfl, rfl⟩, rfl⟩
    · rintro ⟨⟨rfl, rfl⟩, rfl⟩
      exact ⟨rfl, rfl, rfl⟩
  · rename_i hp
    simp [hp]

lemma grows_fire {w w' : World} {t : TimersId} {id : Nat} {kind : TimerKind} {c : Callback}
    (h : w.fire t id = some (kind, c, w')) : Grows w w' := by
  obtain ⟨-, rfl⟩ := fire_eq_some_iff.mp h
  exact (grows_updateRegistry w t _).trans (grows_log _ _)

lemma Aside.grows {w w' : World} (h : Aside w w') : Grows w w' := by
  cases h with
  | remark e _ => exact grows_log w e
  | perform act => exact grows_perform w act
  | bind name h _ => exact grows_bind w name h
  | forget name => exact { Grows.refl w with }
  | newQueue => exact grows_newQueue w
  | newTimers name q _ => exact (grows_newTimers w q false).trans (grows_bind _ _ _)
  | ownTimers q _ => exact grows_newTimers w q true
  | newWorker id url t _ => exact grows_newWorker w _
  | newHandler handler => exact grows_newHandler w handler
  | setSlot k slot handler _ =>
    exact grows_updateWorker w k fun _ => by cases slot <;> rfl
  | removeListener k slot h =>
    refine grows_updateWorker w k fun worker => ?_
    unfold Worker.removeListener
    split
    · cases slot <;> rfl
    · rfl
  | terminate k => exact grows_terminate w k
  | enqueue q label body _ => exact grows_enqueue w q _
  | call k h data => exact grows_deliver w k h data directOrigin

/-- No change loses an object. -/
lemma Change.grows {w w' : World} (h : Change w w') : Grows w w' := by
  cases h with
  | aside h => exact h.grows
  | schedule t kind delay c _ _ => exact grows_schedule w t kind delay c
  | cancel t id _ => exact grows_cancel w t id
  | start q label body hp => exact grows_pop hp
  | drained q count _ => exact grows_log w _

lemma Changes.grows {w w' : World} (h : Changes w w') : Grows w w' := by
  induction h with
  | refl => exact Grows.refl w
  | tail _ h ih => exact ih.trans h.grows

/-! ## Every number refers to an object -/

/-- What a growing world has to be checked for: new names, new timers, new workers and new handlers
in a place. -/
lemma Sound.of_grows {w w' : World} (hs : w.Sound) (hg : Grows w w')
    (hn : ∀ entry ∈ w'.names, entry ∈ w.names ∨ w'.Knows entry.2)
    (ht : ∀ (t : TimersId) (x : Timers), w'.timers[t]? = some x →
      (∃ y, w.timers[t]? = some y ∧ x.queue = y.queue) ∨ x.queue < w'.queues.length)
    (hw : ∀ (k : WorkerId) (x : Worker), w'.workers[k]? = some x →
      (∃ y, w.workers[k]? = some y ∧ x.timers = y.timers) ∨ x.timers < w'.timers.length)
    (hsl : ∀ (k : WorkerId) (x : Worker), w'.workers[k]? = some x → ∀ slot h,
      x.slot slot = some h → (∃ y, w.workers[k]? = some y ∧ y.slot slot = some h) ∨
        w'.Suits slot h) : w'.Sound := by
  refine ⟨?_, ?_, ?_, ?_⟩
  · intro entry hmem
    rcases hn entry hmem with hold | hnew
    · exact (hs.names entry hold).mono hg
    · exact hnew
  · intro t x hx
    rcases ht t x hx with ⟨y, hy, hq⟩ | hlt
    · exact hq ▸ Nat.lt_of_lt_of_le (hs.queues t y hy) hg.queues
    · exact hlt
  · intro k x hx
    rcases hw k x hx with ⟨y, hy, ht⟩ | hlt
    · have hold : w.Knows (.timers y.timers) := hs.workers k y hy
      exact ht ▸ hold.mono hg
    · exact hlt
  · intro k x hx slot h hslot
    rcases hsl k x hx slot h hslot with ⟨y, hy, hold⟩ | hnew
    · exact (hs.slots k y hy slot h hold).mono hg
    · exact hnew

/-- A world that differs in its tasks, its history and the marks on its timers and handlers only. -/
lemma Sound.of_same {w w' : World} (hs : w.Sound) (hg : Grows w w') (hn : w'.names = w.names)
    (ht : ∀ (t : TimersId) (x : Timers), w'.timers[t]? = some x →
      ∃ y, w.timers[t]? = some y ∧ x.queue = y.queue)
    (hw : w'.workers = w.workers) : w'.Sound :=
  hs.of_grows hg (fun _ hmem => Or.inl (hn ▸ hmem)) (fun t x hx => Or.inl (ht t x hx))
    (fun _ x hx => Or.inl ⟨x, hw ▸ hx, rfl⟩) fun _ x hx _ _ hslot => Or.inl ⟨x, hw ▸ hx, hslot⟩

lemma Sound.log {w : World} (hs : w.Sound) (e : Event) : (w.log e).Sound :=
  hs.of_same (grows_log w e) rfl (fun _ x hx => ⟨x, hx, rfl⟩) rfl

lemma Sound.updateRegistry {w : World} (hs : w.Sound) (t : TimersId)
    (f : Registry Callback → Registry Callback) : (w.updateRegistry t f).Sound := by
  refine hs.of_same (grows_updateRegistry w t f) rfl ?_ rfl
  intro i x hx
  obtain ⟨y, hy, rfl | rfl⟩ := of_getElem?_modify hx
  · exact ⟨x, hy, rfl⟩
  · exact ⟨y, hy, rfl⟩

lemma Sound.enqueue {w : World} (hs : w.Sound) (q : QueueId) (task : Microtask) :
    (w.enqueue q task).Sound :=
  hs.of_same (grows_enqueue w q task) rfl (fun _ x hx => ⟨x, hx, rfl⟩) rfl

lemma Sound.pop {w w' : World} (hs : w.Sound) {q : QueueId} {task : Microtask}
    (h : w.pop q = some (task, w')) : w'.Sound := by
  have hg := grows_pop h
  obtain ⟨rest, -, rfl⟩ := pop_eq_some_iff.mp h
  exact hs.of_same hg rfl (fun _ x hx => ⟨x, hx, rfl⟩) rfl

lemma Sound.schedule {w : World} (hs : w.Sound) (t : TimersId) (kind : TimerKind) (delay : Nat)
    (c : Callback) : (w.schedule t kind delay c).2.Sound :=
  (((hs.updateRegistry t _).log _).log _).log _ |>.enqueue _ _

lemma Sound.cancel {w : World} (hs : w.Sound) (t : TimersId) (id : Nat) :
    (w.cancel t id).Sound := by
  simp only [World.cancel]
  split
  · exact ((hs.updateRegistry t _).log _).log _
  · exact (hs.updateRegistry t _).log _

lemma Sound.fire {w w' : World} (hs : w.Sound) {t : TimersId} {id : Nat} {kind : TimerKind}
    {c : Callback} (h : w.fire t id = some (kind, c, w')) : w'.Sound := by
  obtain ⟨-, rfl⟩ := fire_eq_some_iff.mp h
  exact (hs.updateRegistry t _).log _

lemma Sound.settle {w : World} (hs : w.Sound) (t : TimersId) (id : Nat) (kind : TimerKind) :
    (w.settle t id kind).Sound :=
  (hs.updateRegistry t _).log _

lemma Sound.deliver {w : World} (hs : w.Sound) (k : WorkerId) (h : HandlerId)
    (data origin : String) : (w.deliver k h data origin).2.Sound := by
  have hg := grows_deliver w k h data origin
  unfold World.deliver at hg ⊢
  split
  · rename_i hh
    rw [hh] at hg
    exact hs.of_same hg rfl (fun _ x hx => ⟨x, hx, rfl⟩) rfl
  · exact hs.log _
  · exact hs

lemma Sound.bind {w : World} (hs : w.Sound) (name : String) {h : Handle} (hk : w.Knows h) :
    (w.bind name h).Sound := by
  refine hs.of_grows (grows_bind w name h) ?_ (fun _ x hx => Or.inl ⟨x, hx, rfl⟩)
    (fun _ x hx => Or.inl ⟨x, hx, rfl⟩) fun _ x hx _ _ hslot => Or.inl ⟨x, hx, hslot⟩
  intro entry hmem
  rcases List.mem_cons.mp hmem with rfl | hold
  · exact Or.inr (hk.mono (grows_bind w name h))
  · exact Or.inl (List.mem_filter.mp hold).1

lemma Sound.newTimers {w : World} (hs : w.Sound) {q : QueueId} (hq : q < w.queues.length)
    (owned : Bool) : (w.newTimers q owned).2.Sound := by
  refine hs.of_grows (grows_newTimers w q owned) (fun _ hmem => Or.inl hmem) ?_
    (fun _ x hx => Or.inl ⟨x, hx, rfl⟩) fun _ x hx _ _ hslot => Or.inl ⟨x, hx, hslot⟩
  intro t x hx
  rcases Nat.lt_or_ge t w.timers.length with hlt | hge
  · rw [World.newTimers, List.getElem?_append_left hlt] at hx
    exact Or.inl ⟨x, hx, rfl⟩
  · rw [World.newTimers, List.getElem?_append_right hge] at hx
    obtain rfl := List.mem_singleton.mp (List.mem_of_getElem? hx)
    exact Or.inr hq

/-- A change to one worker is sound if it leaves the timers alone and puts fitting handlers into its
places. -/
lemma Sound.updateWorker {w : World} (hs : w.Sound) (k : WorkerId) {f : Worker → Worker}
    (ht : ∀ worker, (f worker).timers = worker.timers)
    (hf : ∀ worker slot h, (f worker).slot slot = some h →
      worker.slot slot = some h ∨ w.Suits slot h) : (w.updateWorker k f).Sound := by
  have hg := grows_updateWorker w k ht
  refine hs.of_grows hg (fun _ hmem => Or.inl hmem) (fun _ x hx => Or.inl ⟨x, hx, rfl⟩) ?_ ?_
  · intro i x hx
    obtain ⟨y, hy, rfl | rfl⟩ := of_getElem?_modify hx
    · exact Or.inl ⟨x, hy, rfl⟩
    · exact Or.inl ⟨y, hy, ht y⟩
  · intro i x hx slot h hslot
    obtain ⟨y, hy, rfl | rfl⟩ := of_getElem?_modify hx
    · exact Or.inl ⟨x, hy, hslot⟩
    · rcases hf y slot h hslot with hold | hnew
      · exact Or.inl ⟨y, hy, hold⟩
      · exact Or.inr (hnew.mono hg)

/-- After a place has been set, it holds what was put there, and the other place what it held. -/
lemma slot_setSlot (worker : Worker) (slot slot' : Slot) (handler : Option HandlerId) :
    (worker.setSlot slot handler).slot slot' = if slot' = slot then handler
      else worker.slot slot' := by
  cases slot <;> cases slot' <;> rfl

/-- Removing a listener puts no handler into any place. -/
lemma slot_of_removeListener {worker : Worker} {slot slot' : Slot} {h h' : HandlerId}
    (hslot : (worker.removeListener slot h).slot slot' = some h') :
    worker.slot slot' = some h' := by
  unfold Worker.removeListener at hslot
  split at hslot
  · rw [slot_setSlot] at hslot
    split at hslot
    · cases hslot
    · exact hslot
  · exact hslot

lemma Aside.sound {w w' : World} (h : Aside w w') (hs : w.Sound) : w'.Sound := by
  cases h with
  | remark e _ => exact hs.log e
  | perform act =>
    exact hs.of_same (grows_perform w act) rfl (fun _ x hx => ⟨x, hx, rfl⟩) rfl
  | bind name h hh => exact hs.bind name hh.1
  | forget name =>
    exact hs.of_grows { Grows.refl w with } (fun _ hmem => Or.inl (List.mem_filter.mp hmem).1)
      (fun _ x hx => Or.inl ⟨x, hx, rfl⟩) (fun _ x hx => Or.inl ⟨x, hx, rfl⟩)
      fun _ x hx _ _ hslot => Or.inl ⟨x, hx, hslot⟩
  | newQueue => exact hs.of_same (grows_newQueue w) rfl (fun _ x hx => ⟨x, hx, rfl⟩) rfl
  | newTimers name q hq =>
    refine (hs.newTimers hq false).bind name ?_
    simp [Knows, World.newTimers]
  | ownTimers q hq => exact hs.newTimers hq true
  | newWorker id url t ht =>
    refine hs.of_grows (grows_newWorker w _) (fun _ hmem => Or.inl hmem)
      (fun _ x hx => Or.inl ⟨x, hx, rfl⟩) ?_ ?_ <;> intro k x hx
    · rcases Nat.lt_or_ge k w.workers.length with hlt | hge
      · rw [World.newWorker, List.getElem?_append_left hlt] at hx
        exact Or.inl ⟨x, hx, rfl⟩
      · rw [World.newWorker, List.getElem?_append_right hge] at hx
        obtain rfl := List.mem_singleton.mp (List.mem_of_getElem? hx)
        exact Or.inr ht
    · intro slot h hslot
      rcases Nat.lt_or_ge k w.workers.length with hlt | hge
      · rw [World.newWorker, List.getElem?_append_left hlt] at hx
        exact Or.inl ⟨x, hx, hslot⟩
      · rw [World.newWorker, List.getElem?_append_right hge] at hx
        obtain rfl := List.mem_singleton.mp (List.mem_of_getElem? hx)
        cases slot <;> cases hslot
  | newHandler handler =>
    exact hs.of_same (grows_newHandler w handler) rfl (fun _ x hx => ⟨x, hx, rfl⟩) rfl
  | setSlot k slot handler hh =>
    refine hs.updateWorker k (fun _ => by cases slot <;> rfl) fun worker slot' h hslot => ?_
    rw [slot_setSlot] at hslot
    split at hslot
    · rename_i heq
      exact Or.inr (heq ▸ hh h hslot)
    · exact Or.inl hslot
  | removeListener k slot h =>
    refine hs.updateWorker k (fun worker => ?_) fun worker slot' h' hslot =>
      Or.inl (slot_of_removeListener hslot)
    unfold Worker.removeListener
    split
    · cases slot <;> rfl
    · rfl
  | terminate k =>
    unfold World.terminate
    split
    · exact hs
    · split
      · exact hs
      · exact (hs.updateWorker k (f := Worker.terminate) (fun _ => rfl) fun _ slot _ hslot =>
          Or.inl (by cases slot <;> exact hslot)).log _
  | enqueue q label body _ => exact hs.enqueue q _
  | call k h data => exact hs.deliver k h data directOrigin

/-- Every change leaves a sound world sound. -/
lemma Change.sound {w w' : World} (h : Change w w') (hs : w.Sound) : w'.Sound := by
  cases h with
  | aside h => exact h.sound hs
  | schedule t kind delay c _ _ => exact hs.schedule t kind delay c
  | cancel t id _ => exact hs.cancel t id
  | start q label body hp => exact hs.pop hp
  | drained q count _ => exact hs.log _

lemma Changes.sound {w w' : World} (h : Changes w w') (hs : w.Sound) : w'.Sound := by
  induction h with
  | refl => exact hs
  | tail _ h ih => exact h.sound ih

lemma sound_start (entropy : Entropy) : (World.start entropy).Sound := by
  refine ⟨?_, ?_, ?_, ?_⟩ <;> simp [World.start]

/-- Timers fire on a queue that is there. -/
lemma Sound.queueOf_lt {w : World} (hs : w.Sound) {t : TimersId} (ht : t < w.timers.length) :
    w.queueOf t < w.queues.length := by
  simpa [queueOf, ht] using hs.queues t _ (List.getElem?_eq_getElem ht)

/-! ## What is found under a name -/

lemma mem_names {w : World} {name : String} {h : Handle} (hh : w.handle? name = some h) :
    (name, h) ∈ w.names := by
  obtain ⟨l, r, heq, -⟩ := List.lookup_eq_some_iff.mp hh
  simp [heq]

lemma Sound.knows {w : World} (hs : w.Sound) {name : String} {h : Handle}
    (hh : w.handle? name = some h) : w.Knows h :=
  hs.names _ (mem_names hh)

lemma handle_of_queue {w : World} {name : String} {q : QueueId} (h : w.queue? name = some q) :
    w.handle? name = some (.queue q) := by
  unfold queue? at h
  split at h <;> cases h
  assumption

lemma handle_of_timers {w : World} {name : String} {t : TimersId} (h : w.timers? name = some t) :
    w.handle? name = some (.timers t) := by
  unfold timers? at h
  split at h <;> cases h
  assumption

lemma handle_of_worker {w : World} {name : String} {k : WorkerId} (h : w.worker? name = some k) :
    w.handle? name = some (.worker k) := by
  unfold worker? at h
  split at h <;> cases h
  assumption

lemma handle_of_environment {w : World} {name : String} {env : Environment} {q : QueueId}
    {t : TimersId} (h : w.environment? name = some (env, q, t)) :
    w.handle? name = some (.environment env q t) := by
  unfold environment? at h
  split at h <;> cases h
  assumption

/-- A handle that is stored keeps alive what it holds. -/
lemma keeps_of_holds {w : World} {name : String} {h : Handle} {t : TimersId}
    (hh : w.handle? name = some h) (ht : w.holds t h = true) : w.keeps t = true := by
  rw [keeps, Bool.or_eq_true, List.any_eq_true]
  exact Or.inr ⟨(name, h), mem_names hh, ht⟩

lemma keeps_timers {w : World} {name : String} {t : TimersId} (h : w.timers? name = some t) :
    w.keeps t = true :=
  keeps_of_holds (handle_of_timers h) (by simp [holds])

/-- The timers of an environment are kept by it. -/
lemma Sound.keeps_environment {w : World} (hs : w.Sound) {name : String} {env : Environment}
    {q : QueueId} {t : TimersId} (h : w.environment? name = some (env, q, t)) :
    w.keeps t = true := by
  obtain ⟨x, hx, -, ho⟩ := hs.knows (handle_of_environment h)
  simp [keeps, hx, ho]

lemma Sound.environment_timers_lt {w : World} (hs : w.Sound) {name : String} {env : Environment}
    {q : QueueId} {t : TimersId} (h : w.environment? name = some (env, q, t)) :
    t < w.timers.length := by
  obtain ⟨x, hx, -⟩ := hs.knows (handle_of_environment h)
  exact (List.getElem?_eq_some_iff.mp hx).1

end World

end Polyfill.Session
