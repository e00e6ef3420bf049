import Polyfill.Session.Machine
import Polyfill.Session.Total
/-!
# The work that is left

Every step, task, callback and handler carries the finite work it can still cause.  The weight of a
world counts the work that waits in it, and the weight of a machine all the work that is left to it.
A handler counts its body once for each time it may still run it.

The lemmas say what each operation of a world does to its weight.
-/

namespace Polyfill.Session

mutual

/-- The work a step can cause. -/
def Step.weight : Step → Nat
  | .schedule _ _ _ _ _ body => 4 + weights body
  | .enqueue _ _ body => 3 + weights body
  | .messageHandler _ body times => 1 + times * (1 + weights body)
  | .post _ _ => 4
  | .run _ => 2
  | .callSlot _ _ _ => 3
  | _ => 1

/-- The work some steps can cause. -/
def weights : List Step → Nat
  | [] => 0
  | s :: rest => s.weight + weights rest

end

/-- The work a task can cause. -/
def Microtask.weight : Microtask → Nat
  | .fire _ _ => 1
  | .script _ body => 2 + weights body

/-- The work a callback can cause. -/
def Callback.weight : Callback → Nat
  | .script _ _ body => 2 + weights body
  | .delivery _ _ => 2

/-- The work a timer can cause. -/
def timerWeight (t : Timer Callback) : Nat :=
  match t.status with
  | .pending callback => callback.weight
  | .fired => 0

/-- The work the timers of a registry can cause. -/
def registryWeight (r : Registry Callback) : Nat :=
  total (fun entry => timerWeight entry.2) r.timers

/-- The work a handler can cause. -/
def Handler.weight (h : Handler) : Nat :=
  match h.role with
  | .message body allowance => allowance * (1 + weights body)
  | .error => 0

/-- The work still to be done in a frame. -/
def Frame.weight : Frame → Nat
  | .body rest => 1 + weights rest
  | .drain _ _ => 1
  | .settle _ _ _ => 1
  | .reply _ _ => 1

/-- The work that an effect leaves. -/
def Effect.weight : Effect → Nat
  | .done _ => 0
  | .enter frames => total Frame.weight frames

/-- The work that waits in a world. -/
def World.weight (w : World) : Nat :=
  total (total Microtask.weight) w.queues + total (fun t => registryWeight t.registry) w.timers +
    total Handler.weight w.handlers

/-- The work that is left to a machine. -/
def Machine.weight (m : Machine) : Nat :=
  m.world.weight + weights m.script + total Frame.weight m.stack

/-! ## Registries -/

theorem registryWeight_schedule (r : Registry Callback) (kind : TimerKind) (c : Callback) :
    registryWeight (r.schedule kind c) = registryWeight r + c.weight := by
  simp [registryWeight, Registry.schedule, timerWeight]

theorem registryWeight_remove_le (r : Registry Callback) (id : Nat) :
    registryWeight (r.remove id) ≤ registryWeight r :=
  total_filter_le _ _ _

theorem registryWeight_settle_le (r : Registry Callback) (id : Nat) (kind : TimerKind) :
    registryWeight (r.settle id kind) ≤ registryWeight r := by
  cases kind
  · exact registryWeight_remove_le r id
  · exact Nat.le_refl _

/-- The work an entry of a registry can cause. -/
def entryWeight (entry : Nat × Timer Callback) : Nat :=
  timerWeight entry.2

theorem entryWeight_fireEntry_le (id : Nat) (entry : Nat × Timer Callback) :
    entryWeight (Registry.fireEntry id entry) ≤ entryWeight entry := by
  unfold Registry.fireEntry
  split
  · exact Nat.zero_le _
  · exact Nat.le_refl _

theorem total_fireEntry_le (id : Nat) (l : List (Nat × Timer Callback)) :
    total entryWeight (l.map (Registry.fireEntry id)) ≤ total entryWeight l := by
  induction l with
  | nil => simp
  | cons entry l ih =>
    have := entryWeight_fireEntry_le id entry
    simp only [List.map_cons, total_cons]
    omega

/-- Firing a waiting timer takes at least the weight of its callback out of the entries. -/
theorem total_fireEntry (id : Nat) (l : List (Nat × Timer Callback)) {kind : TimerKind}
    {c : Callback} (h : l.lookup id = some ⟨kind, .pending c⟩) :
    total entryWeight (l.map (Registry.fireEntry id)) + c.weight ≤ total entryWeight l := by
  induction l with
  | nil => simp at h
  | cons entry l ih =>
    obtain ⟨i, t⟩ := entry
    simp only [List.map_cons, total_cons]
    by_cases hi : i = id
    · subst hi
      have ht : t = ⟨kind, .pending c⟩ := by simpa using h
      subst ht
      have h1 : entryWeight (Registry.fireEntry i (i, ⟨kind, .pending c⟩)) = 0 := by
        simp [Registry.fireEntry, entryWeight, Timer.fire, timerWeight]
      have h2 : entryWeight (i, (⟨kind, .pending c⟩ : Timer Callback)) = c.weight := rfl
      have := total_fireEntry_le i l
      omega
    · have hne : (id == i) = false := by simpa using Ne.symm hi
      rw [List.lookup_cons, hne] at h
      have := ih h
      have := entryWeight_fireEntry_le id (i, t)
      omega

/-- Firing a timer takes at least the weight of its callback out of the registry. -/
theorem registryWeight_markFired (r : Registry Callback) (id : Nat) {kind : TimerKind}
    {c : Callback} (h : r.pending? id = some (kind, c)) :
    registryWeight (r.markFired id) + c.weight ≤ registryWeight r := by
  have hfind : r.find? id = some ⟨kind, .pending c⟩ := by
    unfold Registry.pending? at h
    split at h
    · simp_all
    · cases h
  exact total_fireEntry id r.timers hfind

/-! ## Worlds -/

namespace World

@[simp] theorem weight_log (w : World) (e : Event) : (w.log e).weight = w.weight := rfl

@[simp] theorem weight_note (w : World) (n : Note) : (w.note n).weight = w.weight := rfl

@[simp] theorem weight_bind (w : World) (name : String) (h : Handle) :
    (w.bind name h).weight = w.weight := rfl

@[simp] theorem weight_forget (w : World) (name : String) : (w.forget name).weight = w.weight := rfl

@[simp] theorem weight_perform {α : Type} (w : World) (act : Act α) :
    (w.perform act).2.weight = w.weight := rfl

@[simp] theorem weight_updateWorker (w : World) (k : WorkerId) (f : Worker → Worker) :
    (w.updateWorker k f).weight = w.weight := rfl

@[simp] theorem weight_newWorker (w : World) (worker : Worker) :
    (w.newWorker worker).2.weight = w.weight := rfl

@[simp] theorem weight_newQueue (w : World) : w.newQueue.2.weight = w.weight := by
  simp [weight, newQueue]

@[simp] theorem weight_newTimers (w : World) (q : QueueId) (owned : Bool) :
    (w.newTimers q owned).2.weight = w.weight := by
  simp [weight, newTimers, registryWeight, Registry.empty]

@[simp] theorem weight_newHandler (w : World) (h : Handler) :
    (w.newHandler h).2.weight = w.weight + h.weight := by
  simp [weight, newHandler]
  omega

theorem weight_enqueue_le (w : World) (q : QueueId) (task : Microtask) :
    (w.enqueue q task).weight ≤ w.weight + task.weight := by
  have := total_modify_le (total Microtask.weight) (· ++ [task]) w.queues q task.weight
    (fun l => by simp)
  rw [enqueue, weight_log]
  simp only [weight]
  omega

theorem weight_updateRegistry_le (w : World) (t : TimersId)
    (f : Registry Callback → Registry Callback) (c : Nat)
    (h : ∀ r, registryWeight (f r) ≤ registryWeight r + c) :
    (w.updateRegistry t f).weight ≤ w.weight + c := by
  have := total_modify_le (fun t : Timers => registryWeight t.registry)
    (fun timers => { timers with registry := f timers.registry }) w.timers t c
    (fun timers => h timers.registry)
  simp only [updateRegistry, weight]
  omega

theorem weight_schedule_le (w : World) (t : TimersId) (kind : TimerKind) (delay : Nat)
    (c : Callback) : (w.schedule t kind delay c).2.weight ≤ w.weight + c.weight + 1 := by
  have h := weight_updateRegistry_le w t (·.schedule kind c) c.weight
    (fun r => Nat.le_of_eq (registryWeight_schedule r kind c))
  simp only [schedule]
  refine Nat.le_trans (weight_enqueue_le _ _ _) ?_
  simp only [weight_note, weight_log, Microtask.weight]
  omega

theorem weight_cancel_le (w : World) (t : TimersId) (id : Nat) :
    (w.cancel t id).weight ≤ w.weight := by
  have h := weight_updateRegistry_le w t (·.remove id) 0
    (fun r => registryWeight_remove_le r id)
  simp only [cancel]
  split <;> simp only [weight_note, weight_log] <;> omega

theorem weight_settle_le (w : World) (t : TimersId) (id : Nat) (kind : TimerKind) :
    (w.settle t id kind).weight ≤ w.weight := by
  have h := weight_updateRegistry_le w t (·.settle id kind) 0
    (fun r => registryWeight_settle_le r id kind)
  simp only [settle, weight_log]
  omega

/-- Firing a timer takes at least the weight of its callback out of the world. -/
theorem weight_fire_le {w w' : World} {t : TimersId} {id : Nat} {kind : TimerKind} {c : Callback}
    (h : w.fire t id = some (kind, c, w')) : w'.weight + c.weight ≤ w.weight := by
  unfold fire at h
  split at h
  · rename_i kind' c' hp
    simp only [Option.some.injEq, Prod.mk.injEq] at h
    obtain ⟨rfl, rfl, rfl⟩ := h
    cases ht : w.timers[t]? with
    | none =>
      simp [registry, ht, Registry.pending?, Registry.find?, Registry.empty] at hp
    | some timers =>
      have hr : w.registry t = timers.registry := by simp [registry, ht]
      rw [hr] at hp
      have h1 := registryWeight_markFired timers.registry id hp
      have h2 := total_modify (fun t : Timers => registryWeight t.registry)
        (fun timers => { timers with registry := timers.registry.markFired id }) w.timers t ht
      rw [weight_log]
      simp only [updateRegistry, weight]
      simp only at h2
      omega
  · cases h

/-- A task that is taken from a queue takes its weight with it. -/
theorem weight_pop {w w' : World} {q : QueueId} {task : Microtask}
    (h : w.pop q = some (task, w')) : w'.weight + task.weight = w.weight := by
  unfold pop at h
  split at h
  · cases h
  · rename_i task' rest hq
    simp only [Option.some.injEq, Prod.mk.injEq] at h
    obtain ⟨rfl, rfl⟩ := h
    have hget : w.queues[q]? = some (task' :: rest) := by
      unfold tasks at hq
      rw [List.getD_eq_getElem?_getD] at hq
      cases hg : w.queues[q]? with
      | none => simp [hg] at hq
      | some l => simpa [hg] using hq
    have := total_set (total Microtask.weight) w.queues q rest hget
    rw [weight_log]
    simp only [weight]
    simp only [total_cons] at this
    omega

/-- The body that a handler runs was counted in its allowance. -/
theorem weight_deliver_le (w : World) (k : WorkerId) (h : HandlerId) (data origin : String) :
    (w.deliver k h data origin).2.weight + weights (w.deliver k h data origin).1 ≤ w.weight := by
  unfold deliver
  split
  · rename_i name body allowance hh
    have := total_set Handler.weight w.handlers h ⟨name, .message body allowance⟩ hh
    simp only [Handler.weight] at this
    rw [Nat.succ_mul] at this
    simp only
    rw [weight_log]
    simp only [weight]
    omega
  · simp [weights]
  · simp [weights]

theorem weight_deliverError (w : World) (k : WorkerId) (h : HandlerId) (message : String) :
    (w.deliverError k h message).weight = w.weight := by
  unfold deliverError
  split <;> rfl

theorem weight_terminate (w : World) (k : WorkerId) : (w.terminate k).weight = w.weight := by
  unfold terminate
  split
  · rfl
  · split <;> rfl

theorem weight_post_le (w : World) (k : WorkerId) (data : String) :
    (w.post k data).2.weight ≤ w.weight + 3 := by
  unfold post
  split
  · simp
  · split
    · simp
    · split
      · simp
      · have := weight_schedule_le w (by assumption : Worker).timers .timeout 0 (.delivery k data)
        simp only [Callback.weight] at this
        omega

end World

end Polyfill.Session
