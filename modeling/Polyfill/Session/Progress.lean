import Polyfill.Session.Weight
/-!
# Why a session ends

A body may schedule, post and drain without limit in sight, but all of it was written down before.
Each move of a machine uses up some of the work that is left to it (`Machine.weight_next`), so a
machine comes to rest.
-/

namespace Polyfill.Session

namespace World

/-! ## Steps -/

theorem weight_answerText (w : World) (act : Act String) :
    (w.answerText act).1.weight = w.weight := by
  unfold answerText
  split <;> rename_i h <;> exact congrArg (fun r => r.2.weight) h.symm

/-- A step on builders leaves the work of the world as it was. -/
theorem weight_crypto (w : World) (c : CryptoStep) : (w.crypto c).1.weight = w.weight := by
  cases c with
  | call env call =>
    simp only [crypto, withHandle]
    split
    · cases call <;> rfl
    · rfl
  | createHash as env algorithm =>
    simp only [crypto, withHandle]
    split <;> rfl
  | createHmac as env algorithm key =>
    simp only [crypto, withHandle, withText]
    split
    · split <;> rfl
    · rfl
  | update name inputs =>
    simp only [crypto]
    split <;> rfl
  | digest name encoding =>
    simp only [crypto]
    split
    · exact weight_answerText _ _
    · exact weight_answerText _ _
    · rfl

/-- A step on hosts leaves the work of the world as it was. -/
theorem weight_hostStep (w : World) (h : HostStep) : (w.hostStep h).1.weight = w.weight := by
  cases h with
  | empty as => rfl
  | full as => rfl
  | parse as names =>
    simp only [hostStep]
    split <;> rfl
  | insert name names =>
    simp only [hostStep, withHandle]
    split
    · split <;> rfl
    · rfl
  | extend name capability as =>
    simp only [hostStep, withHandle]
    split
    · split <;> rfl
    · rfl
  | same a b =>
    simp only [hostStep, withHandle]
    split
    · split <;> rfl
    · rfl

theorem weight_install (w : World) (as : String) (source : HostSource) (ops : OpTable) :
    (w.install as source ops).1.weight = w.weight := by
  unfold install
  split
  · rfl
  · split <;> rename_i h <;> simp only [weight_bind, weight_newTimers, weight_newQueue] <;>
      exact congrArg (fun r => r.2.weight) h.symm

theorem weight_setSlot (w : World) (slot : Slot) (name : String) (handler : Option String) :
    (w.setSlot slot name handler).1.weight = w.weight := by
  simp only [setSlot, withHandle]
  split
  · split
    · rfl
    · split
      · split <;> rfl
      · rfl
  · rfl

theorem weight_spawnWorker (w : World) (as env url : String) :
    (w.spawnWorker as env url).1.weight = w.weight := by
  simp only [spawnWorker, withHandle]
  split
  · split <;> rename_i h <;> exact congrArg (fun r => r.2.weight) h.symm
  · rfl

theorem weight_clone (w : World) (name as : String) : (w.clone name as).1.weight = w.weight := by
  unfold clone
  split <;> rfl

/-- What waits after a direct call of a handler, and what the call leaves to be done, is no more
than waited before, but for two frames. -/
theorem weight_callSlot_le (w : World) (slot : Slot) (verb : String) (k : WorkerId)
    (data : String) :
    (w.callSlot slot verb k data).1.weight + (w.callSlot slot verb k data).2.weight ≤
      w.weight + 2 := by
  unfold callSlot
  split
  · simp [Effect.weight]
  · rename_i h _
    cases slot with
    | message =>
      have := weight_deliver_le w k h data directOrigin
      simp only [Effect.weight, total_cons, total_nil, Frame.weight]
      omega
    | error => simp [Effect.weight, weight_deliverError]

/-- Doing a step uses up some of the work it stands for. -/
theorem weight_execute_lt (w : World) (s : Step) :
    (w.execute s).1.weight + (w.execute s).2.weight < w.weight + s.weight := by
  cases s with
  | install as source ops =>
    simp [execute, atOnce, Effect.weight, Step.weight, weight_install]
  | newQueue as => simp [execute, atOnce, Effect.weight, Step.weight]
  | newTimers as queue =>
    simp only [execute, atOnce, withHandle, Effect.weight, Step.weight]
    split <;> simp [badHandle]
  | timersOf as env =>
    simp only [execute, atOnce, withHandle, Effect.weight, Step.weight]
    split
    · split <;> rename_i h <;>
        simpa using Nat.lt_succ_of_le (Nat.le_of_eq (congrArg (fun r => r.2.weight) h.symm))
    · simp [badHandle]
  | queueOf as timers =>
    simp only [execute, atOnce, withHandle, Effect.weight, Step.weight]
    split <;> simp [badHandle]
  | schedule kind timers label delay args body =>
    simp only [execute, atOnce, withHandle, Effect.weight, Step.weight]
    split
    · rename_i t _
      have := weight_schedule_le w t kind delay (.script label args body)
      simp only [Callback.weight] at this
      simp only
      omega
    · simp only [badHandle]
      omega
  | cancel verb timers id =>
    simp only [execute, atOnce, withHandle, Effect.weight, Step.weight]
    split
    · rename_i t _
      have := weight_cancel_le w t id
      simp only
      omega
    · simp [badHandle]
  | enqueue queue label body =>
    simp only [execute, atOnce, withHandle, Effect.weight, Step.weight]
    split
    · rename_i q _
      have := weight_enqueue_le w q (.script label body)
      simp only [Microtask.weight] at this
      simp only
      omega
    · simp only [badHandle]
      omega
  | run name =>
    simp only [execute, drain, Step.weight]
    split <;> simp [Effect.weight, Frame.weight]
  | newWorker as id url timers =>
    simp only [execute, atOnce, withHandle, Effect.weight, Step.weight]
    split <;> simp [badHandle]
  | spawnWorker as env url =>
    simp [execute, atOnce, Effect.weight, Step.weight, weight_spawnWorker]
  | messageHandler as body times =>
    simp [execute, atOnce, Effect.weight, Step.weight, Handler.weight]
  | errorHandler as =>
    simp [execute, atOnce, Effect.weight, Step.weight, Handler.weight]
  | setSlot slot name handler =>
    simp [execute, atOnce, Effect.weight, Step.weight, weight_setSlot]
  | addListener name handler =>
    simp only [execute, atOnce, withHandle, Effect.weight, Step.weight]
    split
    · split <;> simp [badHandle]
    · simp [badHandle]
  | removeListener name handler =>
    simp only [execute, atOnce, withHandle, Effect.weight, Step.weight]
    split
    · split <;> simp [badHandle]
    · simp [badHandle]
  | callSlot slot name data =>
    simp only [execute, Step.weight]
    split
    · simp [Effect.weight]
    · rename_i k _
      split
      · rename_i text _
        have := weight_callSlot_le w slot (Step.callSlot slot name data).name k text
        omega
      · simp [Effect.weight]
  | post name data =>
    simp only [execute, atOnce, withHandle, withText, Effect.weight, Step.weight]
    split
    · rename_i k _
      split
      · rename_i text _
        have := weight_post_le w k text
        split <;> rename_i h <;> rw [h] at this <;> simp only at this ⊢ <;> omega
      · simp
    · simp [badHandle]
  | terminate name =>
    simp only [execute, atOnce, withHandle, Effect.weight, Step.weight]
    split <;> simp [badHandle, weight_terminate]
  | clone name as => simp [execute, atOnce, Effect.weight, Step.weight, weight_clone]
  | drop name => simp [execute, atOnce, Effect.weight, Step.weight]
  | query q => simp [execute, atOnce, Effect.weight, Step.weight]
  | crypto c => simp [execute, atOnce, Effect.weight, Step.weight, weight_crypto]
  | host h => simp [execute, atOnce, Effect.weight, Step.weight, weight_hostStep]
  | malformed name complaint => simp [execute, atOnce, Effect.weight, Step.weight]

end World

/-! ## Machines -/

namespace Machine

@[simp] theorem weight_report (m : Machine) (name : String) (answer : Answer) :
    (m.report name answer).weight = m.weight := by
  unfold report
  split <;> rfl

theorem weight_execute_lt (m : Machine) (s : Step) :
    (m.execute s).weight < m.weight + s.weight := by
  have h := m.world.weight_execute_lt s
  unfold execute
  split <;> rename_i he <;> rw [he] at h
  · rw [weight_report]
    simp only [Effect.weight] at h
    simp only [weight]
    omega
  · simp only [Effect.weight] at h
    simp only [weight, total_append]
    omega

/-- A callback leaves no more to be done than it was counted for, but for the frame that lets its
timer go. -/
theorem weight_invoke_le (m : Machine) (c : Callback) :
    (m.invoke c).weight + 1 ≤ m.weight + c.weight := by
  unfold invoke
  split
  · simp only [weight, total_cons, Frame.weight, Callback.weight]
    omega
  · rename_i k data
    split
    · simp only [Callback.weight]
      omega
    · rename_i h _
      have := m.world.weight_deliver_le k h data ""
      simp only [weight, total_cons, Frame.weight, Callback.weight]
      omega

/-- Starting a task uses up some of the work it stands for. -/
theorem weight_startTask_lt (m : Machine) (task : Microtask) :
    (m.startTask task).weight < m.weight + task.weight := by
  unfold startTask
  split
  · simp only [weight, total_cons, Frame.weight, Microtask.weight]
    omega
  · rename_i t id
    split
    · split
      · rename_i kind c w hf
        have h1 := World.weight_fire_le hf
        have h2 := weight_invoke_le { m with world := w, stack := .settle t id kind :: m.stack } c
        simp only [weight, total_cons, Frame.weight, Microtask.weight] at h2 ⊢
        omega
      · simp [Microtask.weight]
    · simp [Microtask.weight]

/-- Every move uses up some of the work that is left. -/
theorem weight_next {m m' : Machine} (h : m.next = some m') : m'.weight < m.weight := by
  unfold next at h
  split at h
  · rename_i hs
    split at h
    · cases h
    · rename_i s rest hr
      cases h
      have := weight_execute_lt { m with script := rest } s
      simp only [weight, hr, weights] at this ⊢
      omega
  · rename_i below hs
    cases h
    simp only [weight, hs, total_cons, Frame.weight, weights]
    omega
  · rename_i s rest below hs
    cases h
    have := weight_execute_lt { m with stack := .body rest :: below } s
    simp only [weight, hs, total_cons, Frame.weight, weights] at this ⊢
    omega
  · rename_i q count below hs
    split at h
    · rename_i task w hp
      cases h
      have h1 := World.weight_pop hp
      have h2 := weight_startTask_lt
        { m with world := w, stack := .drain q (count + 1) :: below } task
      simp only [weight, hs, total_cons, Frame.weight] at h2 ⊢
      omega
    · cases h
      rw [weight_report]
      simp only [weight, hs, total_cons, Frame.weight, World.weight_log]
      omega
  · rename_i t id kind below hs
    cases h
    have := m.world.weight_settle_le t id kind
    simp only [weight, hs, total_cons, Frame.weight]
    omega
  · rename_i name answer below hs
    cases h
    rw [weight_report]
    simp only [weight, hs, total_cons, Frame.weight]
    omega

end Machine

end Polyfill.Session
