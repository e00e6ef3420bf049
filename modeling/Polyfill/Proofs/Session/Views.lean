import Polyfill.Proofs.Session.Execute
import Polyfill.Proofs.Session.History
/-!
# Queues and registries after a change

What the operations of a world do to the tasks in its queues and to the entries of its registries.
Most changes do nothing to them (`World.Still`); the others schedule a timer, cancel one, queue a
script, or take a script from a queue (`World.TimerChange`).
-/

namespace Polyfill

namespace Registry

variable {κ : Type}

/-! ## Entries of registries -/

lemma find?_schedule {r : Registry κ} (kind : TimerKind) (c : κ) (id : Nat)
    (hr : r.find? (r.last + 1) = none) :
    (r.schedule kind c).find? id = if id = r.last + 1 then some ⟨kind, .pending c⟩
      else r.find? id := by
  unfold find? at hr
  rw [find?, schedule, List.lookup_append]
  by_cases hid : id = r.last + 1
  · simp [hid, hr]
  · simp [hid, find?, List.lookup_cons, beq_eq_false_iff_ne.mpr hid]

lemma find?_remove (r : Registry κ) (id id' : Nat) :
    (r.remove id).find? id' = if id' = id then none else r.find? id' := by
  unfold find? remove
  induction r.timers with
  | nil => simp
  | cons entry l ih =>
    obtain ⟨i, x⟩ := entry
    rw [List.filter_cons]
    by_cases hi : i = id
    · subst hi
      rw [if_neg (by simp), ih]
      by_cases hid : id' = i
      · simp [hid]
      · simp [hid, List.lookup_cons, beq_eq_false_iff_ne.mpr hid]
    · rw [if_pos (by simpa using hi), List.lookup_cons, List.lookup_cons]
      by_cases hid : id' = i
      · simp [hid, hi]
      · simpa [beq_eq_false_iff_ne.mpr hid] using ih

lemma find?_markFired (r : Registry κ) (id id' : Nat) :
    (r.markFired id).find? id' = if id' = id then (r.find? id').map Timer.fire
      else r.find? id' := by
  unfold find? markFired
  induction r.timers with
  | nil => simp
  | cons entry l ih =>
    obtain ⟨i, x⟩ := entry
    rw [List.map_cons, fireEntry]
    by_cases hid : id' = i
    · subst hid
      by_cases hi : id' = id
      · simp [hi]
      · simp [hi]
    · by_cases hi : i = id
      · simpa [hi, List.lookup_cons, beq_eq_false_iff_ne.mpr (hi ▸ hid)] using ih
      · simpa [hi, List.lookup_cons, beq_eq_false_iff_ne.mpr hid] using ih

lemma pending?_eq_some_iff {r : Registry κ} {id : Nat} {kind : TimerKind} {c : κ} :
    r.pending? id = some (kind, c) ↔ r.find? id = some ⟨kind, .pending c⟩ := by
  unfold pending?
  split
  · rename_i kind' c' hf
    simp [hf]
  · rename_i hne
    constructor
    · intro h
      cases h
    · exact fun h => absurd h (hne kind c)

/-- The numbers under which timers are registered. -/
def keys (r : Registry κ) : List Nat :=
  r.timers.map Prod.fst

lemma mem_keys_iff {r : Registry κ} {id : Nat} : id ∈ r.keys ↔ ∃ x, r.find? id = some x := by
  rw [← Option.isSome_iff_exists, find?, List.lookup_isSome_iff, keys, List.mem_map]
  constructor
  · rintro ⟨p, hp, rfl⟩
    exact ⟨p, hp, by simp⟩
  · rintro ⟨p, hp, hid⟩
    exact ⟨p, hp, (beq_iff_eq.mp hid).symm⟩

lemma keys_schedule (r : Registry κ) (kind : TimerKind) (c : κ) :
    (r.schedule kind c).keys = r.keys ++ [r.last + 1] := by
  simp [keys, schedule]

lemma keys_remove (r : Registry κ) (id : Nat) : (r.remove id).keys.Sublist r.keys :=
  List.filter_sublist.map _

lemma keys_markFired (r : Registry κ) (id : Nat) : (r.markFired id).keys = r.keys := by
  rw [keys, keys, markFired, List.map_map]
  refine List.map_congr_left fun entry _ => ?_
  rw [Function.comp_apply, fireEntry]
  split <;> rfl

end Registry

namespace Session

namespace World

/-! ## Views of a world -/

lemma registry_updateRegistry {w : World} {t : TimersId} (ht : t < w.timers.length)
    (f : Registry Callback → Registry Callback) (t' : TimersId) :
    (w.updateRegistry t f).registry t' = if t' = t then f (w.registry t) else w.registry t' := by
  by_cases h : t' = t
  · subst h
    simp [registry, updateRegistry, ht]
  · have hne : t ≠ t' := fun heq => h heq.symm
    simp [registry, updateRegistry, h, hne]

lemma queueOf_updateRegistry (w : World) (t : TimersId)
    (f : Registry Callback → Registry Callback) (t' : TimersId) :
    (w.updateRegistry t f).queueOf t' = w.queueOf t' := by
  simp only [queueOf, updateRegistry, List.getElem?_modify, Option.map_eq_map, Option.map_map]
  congr 2
  funext x
  simp only [Function.comp_apply]
  split <;> rfl

lemma registry_newTimers (w : World) (q : QueueId) (owned : Bool) (t : TimersId) :
    (w.newTimers q owned).2.registry t = w.registry t := by
  rcases Nat.lt_trichotomy t w.timers.length with hlt | rfl | hgt
  · simp [registry, newTimers, List.getElem?_append_left hlt]
  · simp [registry, newTimers]
  · have h1 : w.timers.length ≤ t := Nat.le_of_lt hgt
    have h2 : (w.timers ++ [(⟨Registry.empty, q, owned⟩ : Timers)]).length ≤ t := by
      rw [List.length_append]
      exact hgt
    simp only [registry, newTimers, List.getElem?_eq_none h1, List.getElem?_eq_none h2]

lemma queueOf_newTimers {w : World} (q : QueueId) (owned : Bool) {t : TimersId}
    (ht : t < w.timers.length) : (w.newTimers q owned).2.queueOf t = w.queueOf t := by
  simp [queueOf, newTimers, List.getElem?_append_left ht]

lemma tasks_newQueue (w : World) (q : QueueId) : w.newQueue.2.tasks q = w.tasks q := by
  simp only [tasks, newQueue, List.getD_eq_getElem?_getD]
  rcases Nat.lt_trichotomy q w.queues.length with hlt | rfl | hgt
  · rw [List.getElem?_append_left hlt]
  · simp
  · have h1 : w.queues.length ≤ q := Nat.le_of_lt hgt
    have h2 : (w.queues ++ [[]]).length ≤ q := by
      rw [List.length_append]
      exact hgt
    rw [List.getElem?_eq_none h1, List.getElem?_eq_none h2]

lemma tasks_enqueue {w : World} {q : QueueId} (hq : q < w.queues.length) (task : Microtask)
    (q' : QueueId) :
    (w.enqueue q task).tasks q' = if q' = q then w.tasks q ++ [task] else w.tasks q' := by
  simp only [tasks, enqueue, log, List.getD_eq_getElem?_getD]
  by_cases h : q' = q
  · subst h
    simp [hq]
  · have hne : q ≠ q' := fun heq => h heq.symm
    simp [h, hne]

lemma tasks_pop {w w' : World} {q : QueueId} {task : Microtask}
    (h : w.pop q = some (task, w')) (q' : QueueId) :
    w.tasks q' = if q' = q then task :: w'.tasks q else w'.tasks q' := by
  obtain ⟨rest, hq, rfl⟩ := pop_eq_some_iff.mp h
  have hlt : q < w.queues.length := by
    by_contra hge
    rw [tasks, List.getD_eq_getElem?_getD, List.getElem?_eq_none (Nat.le_of_not_lt hge)] at hq
    cases hq
  by_cases hqq : q' = q
  · subst hqq
    rw [if_pos rfl, hq]
    simp [tasks, log, List.getD_eq_getElem?_getD, hlt]
  · have hne : q ≠ q' := fun heq => hqq heq.symm
    simp [hqq, tasks, log, List.getD_eq_getElem?_getD, List.getElem?_set_ne hne]

lemma registry_pop {w w' : World} {q : QueueId} {task : Microtask}
    (h : w.pop q = some (task, w')) (t : TimersId) : w'.registry t = w.registry t := by
  obtain ⟨rest, -, rfl⟩ := pop_eq_some_iff.mp h
  rfl

lemma queueOf_pop {w w' : World} {q : QueueId} {task : Microtask}
    (h : w.pop q = some (task, w')) (t : TimersId) : w'.queueOf t = w.queueOf t := by
  obtain ⟨rest, -, rfl⟩ := pop_eq_some_iff.mp h
  rfl

lemma history_pop {w w' : World} {q : QueueId} {task : Microtask}
    (h : w.pop q = some (task, w')) : w'.history = w.history ++ [.started q task] := by
  obtain ⟨rest, -, rfl⟩ := pop_eq_some_iff.mp h
  rfl

/-- Scheduling a timer registers it, writes that down, and queues a task to fire it. -/
lemma history_schedule (w : World) (t : TimersId) (kind : TimerKind) (delay : Nat) (c : Callback) :
    ∃ n₁ n₂, (w.schedule t kind delay c).2.history = w.history ++
      [.scheduled t ((w.registry t).last + 1) kind c, .note n₁, .note n₂,
        .enqueued (w.queueOf t) (.fire t ((w.registry t).last + 1))] := by
  obtain ⟨n₁, n₂, h⟩ : ∃ n₁ n₂, (w.schedule t kind delay c).2.history =
      w.history ++ [.scheduled t ((w.registry t).last + 1) kind c] ++ [.note n₁] ++ [.note n₂] ++
        [.enqueued ((w.updateRegistry t (·.schedule kind c)).queueOf t)
          (.fire t ((w.registry t).last + 1))] := ⟨_, _, rfl⟩
  rw [queueOf_updateRegistry] at h
  exact ⟨n₁, n₂, by simpa using h⟩

lemma registry_schedule {w : World} {t : TimersId} (ht : t < w.timers.length) (kind : TimerKind)
    (delay : Nat) (c : Callback) (t' : TimersId) :
    (w.schedule t kind delay c).2.registry t' =
      if t' = t then (w.registry t).schedule kind c else w.registry t' :=
  registry_updateRegistry ht (·.schedule kind c) t'

lemma queueOf_schedule (w : World) (t : TimersId) (kind : TimerKind) (delay : Nat) (c : Callback)
    (t' : TimersId) : (w.schedule t kind delay c).2.queueOf t' = w.queueOf t' :=
  queueOf_updateRegistry w t (·.schedule kind c) t'

lemma tasks_schedule {w : World} (hs : w.Sound) {t : TimersId} (ht : t < w.timers.length)
    (kind : TimerKind) (delay : Nat) (c : Callback) (q : QueueId) :
    (w.schedule t kind delay c).2.tasks q = if q = w.queueOf t
      then w.tasks (w.queueOf t) ++ [.fire t ((w.registry t).last + 1)] else w.tasks q := by
  have hq := hs.queueOf_lt ht
  rw [← queueOf_updateRegistry w t (·.schedule kind c)] at hq ⊢
  exact tasks_enqueue (w := w.updateRegistry t (·.schedule kind c)) hq _ q

/-- Cancelling a timer is written down, and noted if the timer was registered. -/
lemma history_cancel (w : World) (t : TimersId) (id : Nat) :
    ∃ es, (w.cancel t id).history = w.history ++ .cancelled t id :: es ∧
      (∀ e ∈ es, e.idle = true) ∧ ∀ e ∈ es, e.letter? = none := by
  simp only [cancel]
  split
  · refine ⟨[.note (.debug ("Timer " ++ timerText id ++ " cancelled"))], ?_, by simp [Event.idle],
      by simp [Event.letter?]⟩
    simp [note, log, updateRegistry]
  · exact ⟨[], rfl, by simp, by simp⟩

lemma tasks_cancel (w : World) (t : TimersId) (id : Nat) (q : QueueId) :
    (w.cancel t id).tasks q = w.tasks q := by
  simp only [cancel]
  split <;> rfl

lemma queueOf_cancel (w : World) (t : TimersId) (id : Nat) (t' : TimersId) :
    (w.cancel t id).queueOf t' = w.queueOf t' := by
  simp only [cancel]
  split <;> exact queueOf_updateRegistry w t (·.remove id) t'

lemma registry_cancel {w : World} {t : TimersId} (ht : t < w.timers.length) (id : Nat)
    (t' : TimersId) :
    (w.cancel t id).registry t' = if t' = t then (w.registry t).remove id else w.registry t' := by
  simp only [cancel]
  split <;> exact registry_updateRegistry ht (·.remove id) t'

/-! ## Changes of queues and registries -/

/-- Nothing is done to tasks and timers; some events that do not concern them are written down. -/
structure Still (w w' : World) (es : List Event) : Prop where
  history : w'.history = w.history ++ es
  idle : ∀ e ∈ es, e.idle = true
  tasks : ∀ q, w'.tasks q = w.tasks q
  registry : ∀ t, w'.registry t = w.registry t
  queueOf : ∀ t, t < w.timers.length → w'.queueOf t = w.queueOf t

/-- A change, as far as tasks and timers are concerned. -/
inductive TimerChange (w : World) : World → Prop
  /-- Nothing is done to them, and no message is delivered. -/
  | still {w' : World} {es : List Event} (h : Still w w' es) (hd : ∀ e ∈ es, e.letter? = none) :
      TimerChange w w'
  | schedule (t : TimersId) (kind : TimerKind) (delay : Nat) (c : Callback)
      (ht : t < w.timers.length) (hc : w.Fits t kind c) :
      TimerChange w (w.schedule t kind delay c).2
  | cancel (t : TimersId) (id : Nat) (ht : t < w.timers.length) : TimerChange w (w.cancel t id)
  | enqueue (q : QueueId) (label : String) (body : List Step) (hq : q < w.queues.length) :
      TimerChange w (w.enqueue q (.script label body))
  | start {w' : World} (q : QueueId) (label : String) (body : List Step)
      (hp : w.pop q = some (.script label body, w')) : TimerChange w w'

lemma Still.refl (w : World) : Still w w [] :=
  ⟨(List.append_nil _).symm, fun _ hmem => absurd hmem List.not_mem_nil, fun _ => rfl,
    fun _ => rfl, fun _ _ => rfl⟩

lemma Still.log {w w' : World} {es : List Event} (h : Still w w' es) {e : Event}
    (he : e.idle = true) : Still w (w'.log e) (es ++ [e]) where
  history := by
    rw [World.log, h.history, List.append_assoc]
  idle := by
    intro e' hmem
    rcases List.mem_append.mp hmem with hold | hnew
    · exact h.idle e' hold
    · exact List.mem_singleton.mp hnew ▸ he
  tasks := h.tasks
  registry := h.registry
  queueOf := h.queueOf

/-- Calling a message handler writes down the message and touches no timer. -/
lemma still_deliver {w : World} {k : WorkerId} {h : HandlerId} {handler : Handler}
    (hh : w.handlers[h]? = some handler) (data origin : String) :
    Still w (w.deliver k h data origin).2 [.message k h handler.name data origin] := by
  unfold deliver
  split
  · rename_i name body allowance heq
    obtain rfl := Option.some.inj (hh.symm.trans heq)
    have hset : Still w
        { w with handlers := w.handlers.set h ⟨name, .message body allowance⟩ } [] :=
      { Still.refl w with }
    exact hset.log rfl
  · rename_i name role _ heq
    obtain rfl := Option.some.inj (hh.symm.trans heq)
    exact (Still.refl w).log rfl
  · rename_i heq
    rw [hh] at heq
    cases heq

/-- The handler that takes a message that is delivered to a worker now. -/
def recipient? (w : World) (k : WorkerId) : Option HandlerId :=
  (w.workers[k]?).bind Worker.recipient?

/-- What the invocation of a callback writes down at once: a delivery that finds a handler, the
message it delivers. -/
def letters (w : World) : Callback → List Event
  | .script _ _ _ => []
  | .delivery k data =>
    match w.recipient? k with
    | none => []
    | some h => [.message k h (((w.handlers[h]?).map Handler.name).getD "") data ""]

/-- What the invocation of a callback writes down is not about tasks and timers. -/
lemma idle_of_mem_letters {w : World} {c : Callback} {e : Event} (h : e ∈ w.letters c) :
    e.idle = true := by
  unfold letters at h
  split at h
  · cases h
  · split at h
    · cases h
    · obtain rfl := List.mem_singleton.mp h
      rfl

/-- A handler that takes messages is there and is made for it. -/
lemma Sound.suits_recipient {w : World} (hs : w.Sound) {k : WorkerId} {h : HandlerId}
    (hr : w.recipient? k = some h) : w.Suits .message h := by
  obtain ⟨worker, hw, heq⟩ := Option.bind_eq_some_iff.mp hr
  unfold Worker.recipient? at heq
  split at heq
  · cases heq
  · exact hs.slots k worker hw .message h heq

/-- The invocation of a callback leaves tasks and timers alone. -/
lemma Sound.still_invoke {w : World} (hs : w.Sound) (c : Callback) :
    Still w (w.invoke c) (w.letters c) := by
  cases c with
  | script label args body => exact Still.refl w
  | delivery k data =>
    cases hr : w.recipient? k with
    | none =>
      have hinvoke : w.invoke (.delivery k data) = w := by
        rw [recipient?] at hr
        simp [World.invoke, hr]
      rw [hinvoke, letters, hr]
      exact Still.refl w
    | some h =>
      obtain ⟨handler, hh, -⟩ := hs.suits_recipient hr
      have hinvoke : w.invoke (.delivery k data) = (w.deliver k h data "").2 := by
        rw [recipient?] at hr
        simp [World.invoke, hr]
      have hletters : w.letters (.delivery k data) = [.message k h handler.name data ""] := by
        simp [letters, hr, hh]
      rw [hinvoke, hletters]
      exact still_deliver hh data ""

lemma Aside.timerChange {w w' : World} (h : Aside w w') : TimerChange w w' := by
  have hnil : ∀ e ∈ ([] : List Event), e.letter? = none :=
    fun _ hmem => absurd hmem List.not_mem_nil
  cases h with
  | remark e he =>
    refine .still ((Still.refl w).log (Event.idle_of_isRemark he)) fun e' hmem => ?_
    obtain rfl := List.mem_singleton.mp hmem
    exact Event.letter?_of_isRemark he
  | perform act =>
    refine .still ⟨rfl, fun e he => ?_, fun _ => rfl, fun _ => rfl, fun _ _ => rfl⟩ fun e he => ?_
    · obtain ⟨n, -, rfl⟩ := List.mem_map.mp he
      rfl
    · obtain ⟨n, -, rfl⟩ := List.mem_map.mp he
      rfl
  | bind name h _ => exact .still { Still.refl w with } hnil
  | forget name => exact .still { Still.refl w with } hnil
  | newQueue => exact .still { Still.refl w with tasks := tasks_newQueue w } hnil
  | newTimers name q _ =>
    exact .still { Still.refl w with
      registry := registry_newTimers w q false
      queueOf := fun _ ht => queueOf_newTimers q false ht } hnil
  | ownTimers q _ =>
    exact .still { Still.refl w with
      registry := registry_newTimers w q true
      queueOf := fun _ ht => queueOf_newTimers q true ht } hnil
  | newWorker id url t _ => exact .still { Still.refl w with } hnil
  | newHandler handler => exact .still { Still.refl w with } hnil
  | setSlot k slot handler _ => exact .still { Still.refl w with } hnil
  | removeListener k slot h => exact .still { Still.refl w with } hnil
  | terminate k =>
    unfold World.terminate
    split
    · exact .still (Still.refl w) hnil
    · split
      · exact .still (Still.refl w) hnil
      · have hset : Still w (w.updateWorker k Worker.terminate) [] := { Still.refl w with }
        refine .still (hset.log rfl) fun e hmem => ?_
        obtain rfl := List.mem_singleton.mp hmem
        rfl
  | enqueue q label body hq => exact .enqueue q label body hq
  | call k h data =>
    cases hh : w.handlers[h]? with
    | none =>
      have heq : (w.deliver k h data directOrigin).2 = w := by simp [deliver, hh]
      rw [heq]
      exact .still (Still.refl w) hnil
    | some handler =>
      refine .still (still_deliver hh data directOrigin) fun e hmem => ?_
      obtain rfl := List.mem_singleton.mp hmem
      rfl

lemma registry_deliver (w : World) (k : WorkerId) (h : HandlerId) (data origin : String)
    (t : TimersId) : (w.deliver k h data origin).2.registry t = w.registry t := by
  unfold deliver
  split <;> rfl

/-- A change that leaves timers alone leaves every registry alone. -/
lemma Aside.registry {w w' : World} (h : Aside w w') (t : TimersId) :
    w'.registry t = w.registry t := by
  cases h with
  | newTimers name q _ => exact registry_newTimers w q false t
  | ownTimers q _ => exact registry_newTimers w q true t
  | terminate k =>
    unfold World.terminate
    split
    · rfl
    · split <;> rfl
  | call k h data => exact registry_deliver w k h data directOrigin t
  | _ => rfl

lemma Asides.registry {w w' : World} (h : Asides w w') (t : TimersId) :
    w'.registry t = w.registry t := by
  induction h with
  | refl => rfl
  | tail _ h ih => exact (h.registry t).trans ih

/-- Every change leaves tasks and timers alone or is one of four operations on them. -/
lemma Change.timerChange {w w' : World} (h : Change w w') : TimerChange w w' := by
  cases h with
  | aside h => exact h.timerChange
  | schedule t kind delay c ht hc => exact .schedule t kind delay c ht hc
  | cancel t id ht => exact .cancel t id ht
  | start q label body hp => exact .start q label body hp
  | drained q count _ =>
    refine .still ((Still.refl w).log rfl) fun e hmem => ?_
    obtain rfl := List.mem_singleton.mp hmem
    rfl

end World

end Session

end Polyfill
