import Polyfill.Proofs.Session.Move
import Polyfill.Proofs.Session.Views
/-!
# Worlds are what their histories tell

At all times the queues and registries of a world can be read off its history (`World.Faithful`): a
queue holds what was put into it and has not started, in that order; a registry has given out the
numbers from one up and holds the entries that the life of each timer leaves; callbacks are invoked
by tasks that start.  Every change keeps this up, and so do the moves of a machine that fire a timer
or let one go.
-/

namespace Polyfill.Session

namespace World

/-! ## Faithful worlds -/

/-- Those of some callbacks whose timers fire on a queue. -/
def onQueue (w : World) (q : QueueId) (calls : List TimerCall) : List TimerCall :=
  calls.filter fun call => w.queueOf call.timers == q

/-- The queues and registries of a world are what its history tells. -/
structure Faithful (w : World) : Prop where
  /-- A queue holds what was put into it and has not started. -/
  tasks : ∀ q, enqueuedOn q w.history = startedOn q w.history ++ w.tasks q
  /-- Timers are fired by the tasks queued for them, in the order of scheduling. -/
  order : ∀ q, (w.onQueue q (schedulings w.history)).map TimerCall.timer =
    timersIn (enqueuedOn q w.history)
  /-- A registry gives out the numbers from one up. -/
  ids : ∀ t, scheduledIds t w.history = List.range' 1 (w.registry t).last
  /-- A registry holds what the lives of its timers leave. -/
  entries : ∀ t id, (w.registry t).find? id = life t id w.history
  /-- No number is registered twice. -/
  keys : ∀ t, (w.registry t).keys.Nodup
  /-- Callbacks are invoked by tasks that start, in their order. -/
  fired : ∀ q, ((w.onQueue q (firings w.history)).map TimerCall.timer).Sublist
    (timersIn (startedOn q w.history))
  /-- A callback that is invoked was waiting. -/
  waiting : FiresWaiting w.history
  /-- Only a timer that has fired is let go. -/
  settled : ∀ t id, .settled t id ∈ w.history → ∃ c, .fired t id c ∈ w.history

@[simp] lemma onQueue_append (w : World) (q : QueueId) (l l' : List TimerCall) :
    w.onQueue q (l ++ l') = w.onQueue q l ++ w.onQueue q l' :=
  List.filter_append _ _

lemma onQueue_congr {w w' : World} {q : QueueId} {l : List TimerCall}
    (h : ∀ call ∈ l, w'.queueOf call.timers = w.queueOf call.timers) :
    w'.onQueue q l = w.onQueue q l :=
  List.filter_congr fun call hmem => by rw [h call hmem]

namespace Faithful

variable {w : World}

lemma scheduledIds_nodup (hf : w.Faithful) (t : TimersId) : (scheduledIds t w.history).Nodup := by
  rw [hf.ids]
  exact List.nodup_range'

/-- No timer is scheduled twice. -/
lemma nodup_timers (hf : w.Faithful) : ((schedulings w.history).map TimerCall.timer).Nodup :=
  nodup_of_idsOf hf.scheduledIds_nodup

/-- What is invoked was scheduled as it is. -/
lemma scheduled_of_fired (hf : w.Faithful) {t : TimersId} {id : Nat} {c : Callback}
    (h : .fired t id c ∈ w.history) : ∃ kind, .scheduled t id kind c ∈ w.history := by
  obtain ⟨a, b, heq⟩ := List.append_of_mem h
  obtain ⟨kind, hl⟩ := hf.waiting a t id c b heq
  obtain ⟨a₁, a₂, rfl, -⟩ := of_life_pending hl
  exact ⟨kind, by simp [heq]⟩

/-- Only timers that are there have scheduled anything. -/
lemma timers_lt (hf : w.Faithful) {t : TimersId} {id : Nat} {kind : TimerKind} {c : Callback}
    (h : .scheduled t id kind c ∈ w.history) : t < w.timers.length := by
  have hmem := mem_scheduledIds.mpr ⟨kind, c, h⟩
  rw [hf.ids] at hmem
  by_contra hge
  have hr : w.registry t = Registry.empty := by
    simp [registry, List.getElem?_eq_none (Nat.le_of_not_lt hge)]
  rw [hr] at hmem
  cases hmem

lemma timers_lt_of_find? (hf : w.Faithful) {t : TimersId} {id : Nat} {x : Timer Callback}
    (h : (w.registry t).find? id = some x) : t < w.timers.length := by
  rw [hf.entries] at h
  obtain ⟨c, hc⟩ := scheduled_of_life h
  exact hf.timers_lt hc

lemma firings_lt (hf : w.Faithful) {call : TimerCall} (h : call ∈ firings w.history) :
    call.timers < w.timers.length := by
  obtain ⟨kind, hk⟩ := hf.scheduled_of_fired (mem_firings.mp h)
  exact hf.timers_lt hk

/-- What leaves tasks and timers alone keeps a world faithful. -/
lemma still {w' : World} (hf : w.Faithful) {es : List Event} (h : Still w w' es) :
    w'.Faithful := by
  obtain ⟨hh, he, ht, hr, hq⟩ := h
  have henq := enqueuedOn_of_idle he
  have hst := startedOn_of_idle he
  have hsch := schedulings_of_idle he
  have hfir := firings_of_idle he
  have hlife : ∀ t id, life t id (w.history ++ es) = life t id w.history := fun t id =>
    life_append_of_ne _ fun e hmem => by simp [timer?_of_idle (he e hmem)]
  constructor
  · intro q
    rw [hh, enqueuedOn_append, startedOn_append, henq, hst, List.append_nil, List.append_nil, ht]
    exact hf.tasks q
  · intro q
    rw [hh, schedulings_append, hsch, enqueuedOn_append, henq, List.append_nil, List.append_nil,
      ← hf.order q]
    refine congrArg _ (onQueue_congr fun call hmem => hq _ ?_)
    obtain ⟨kind, hk⟩ := mem_schedulings.mp hmem
    exact hf.timers_lt hk
  · intro t
    rw [hh, scheduledIds, schedulings_append, hsch, List.append_nil, hr]
    exact hf.ids t
  · intro t id
    rw [hh, hlife, hr]
    exact hf.entries t id
  · intro t
    rw [hr]
    exact hf.keys t
  · intro q
    rw [hh, firings_append, hfir, startedOn_append, hst, List.append_nil, List.append_nil]
    rw [onQueue_congr fun call hmem => hq _ (hf.firings_lt hmem)]
    exact hf.fired q
  · rw [hh]
    exact hf.waiting.append hfir
  · intro t id hmem
    rw [hh, List.mem_append] at hmem
    rcases hmem with hold | hnew
    · obtain ⟨c, hc⟩ := hf.settled t id hold
      exact ⟨c, by simp [hh, hc]⟩
    · cases he _ hnew

/-- The next number of a registry is not in use. -/
lemma find?_next (hf : w.Faithful) (t : TimersId) :
    (w.registry t).find? ((w.registry t).last + 1) = none := by
  rw [hf.entries, Option.eq_none_iff_forall_ne_some]
  intro x hl
  obtain ⟨c, hc⟩ := scheduled_of_life hl
  have hmem := mem_scheduledIds.mpr ⟨x.kind, c, hc⟩
  rw [hf.ids, List.mem_range'_1] at hmem
  omega

lemma schedule (hf : w.Faithful) (hs : w.Sound) {t : TimersId} (ht : t < w.timers.length)
    (kind : TimerKind) (delay : Nat) (c : Callback) :
    (w.schedule t kind delay c).2.Faithful := by
  obtain ⟨n₁, n₂, hh⟩ := history_schedule w t kind delay c
  have hr := registry_schedule ht kind delay c
  have hq := queueOf_schedule w t kind delay c
  have htasks := tasks_schedule hs ht kind delay c
  generalize (w.schedule t kind delay c).2 = w' at hh hr hq htasks
  have hqueue : ∀ q l, w'.onQueue q l = w.onQueue q l := fun q l => onQueue_congr fun _ _ => hq _
  constructor
  · intro q
    rw [hh, htasks, enqueuedOn_append, startedOn_append, hf.tasks q]
    by_cases hqq : q = w.queueOf t
    · simp [hqq, Event.enqueued?, Event.started?]
    · have hne : w.queueOf t ≠ q := fun heq => hqq heq.symm
      simp [hqq, hne, Event.enqueued?, Event.started?]
  · intro q
    rw [hqueue, hh, schedulings_append, onQueue_append, List.map_append, enqueuedOn_append,
      timersIn_append, hf.order q]
    congr 1
    by_cases hqq : w.queueOf t = q
    · simp [hqq, onQueue, Event.enqueued?, Event.scheduled?, TimerCall.timer, Microtask.timer?]
    · simp [hqq, onQueue, Event.enqueued?, Event.scheduled?]
  · intro t'
    rw [hh, hr, scheduledIds_append, hf.ids t']
    by_cases htt : t' = t
    · subst htt
      rw [if_pos rfl, Registry.schedule, List.range'_1_concat, Nat.add_comm 1]
      simp [scheduledIds, Event.scheduled?, TimerCall.timer]
    · have hne : t ≠ t' := fun heq => htt heq.symm
      simp [htt, hne, scheduledIds, Event.scheduled?, TimerCall.timer]
  · intro t' id
    rw [hh, hr, life_append]
    by_cases htt : t' = t
    · subst htt
      rw [if_pos rfl, Registry.find?_schedule kind c id (hf.find?_next t'), hf.entries]
      by_cases hid : id = (w.registry t').last + 1
      · simp [hid, lifeStep]
      · have hne : (w.registry t').last + 1 ≠ id := fun heq => hid heq.symm
        simp [hid, hne, lifeStep]
    · have hne : t ≠ t' := fun heq => htt heq.symm
      simp [htt, hne, lifeStep, hf.entries]
  · intro t'
    rw [hr]
    split
    · rw [Registry.keys_schedule, List.nodup_append]
      refine ⟨hf.keys t, List.nodup_singleton _, ?_⟩
      rintro id hid _ hid' rfl
      obtain rfl := List.mem_singleton.mp hid'
      obtain ⟨x, hx⟩ := Registry.mem_keys_iff.mp hid
      rw [hf.find?_next t] at hx
      cases hx
    · exact hf.keys t'
  · intro q
    rw [hqueue, hh, firings_append, startedOn_append]
    simpa [Event.fired?, Event.started?] using hf.fired q
  · rw [hh]
    exact hf.waiting.append rfl
  · intro t' id hmem
    rw [hh] at hmem ⊢
    obtain ⟨c', hc⟩ := hf.settled t' id (by simpa using hmem)
    exact ⟨c', by simp [hc]⟩

/-- A world in which one registry has changed, and one event about its timers is written down. -/
lemma updateRegistry (hf : w.Faithful) {t : TimersId} (ht : t < w.timers.length)
    {f : Registry Callback → Registry Callback} {e : Event}
    (henq : ∀ q, e.enqueued? q = none) (hst : ∀ q, e.started? q = none)
    (hsch : e.scheduled? = none)
    (hset : ∀ t id, e = .settled t id → ∃ c, .fired t id c ∈ w.history)
    (hlast : (f (w.registry t)).last = (w.registry t).last)
    (hkeys : (f (w.registry t)).keys.Nodup)
    (hown : ∀ id, (f (w.registry t)).find? id = lifeStep t id ((w.registry t).find? id) e)
    (hother : ∀ t' id entry, t' ≠ t → lifeStep t' id entry e = entry)
    (hfired : ∀ q, ((w.onQueue q (firings (w.history ++ [e]))).map TimerCall.timer).Sublist
      (timersIn (startedOn q w.history)))
    (hwait : FiresWaiting (w.history ++ [e])) :
    ((w.updateRegistry t f).log e).Faithful := by
  have hh : ((w.updateRegistry t f).log e).history = w.history ++ [e] := rfl
  have hr : ∀ t', ((w.updateRegistry t f).log e).registry t' =
      if t' = t then f (w.registry t) else w.registry t' := registry_updateRegistry ht f
  have htasks : ∀ q, ((w.updateRegistry t f).log e).tasks q = w.tasks q := fun _ => rfl
  have hqueue : ∀ q l, ((w.updateRegistry t f).log e).onQueue q l = w.onQueue q l :=
    fun q l => onQueue_congr fun call _ => queueOf_updateRegistry w t f call.timers
  generalize (w.updateRegistry t f).log e = w' at hh hr htasks hqueue
  constructor
  · intro q
    simpa [hh, htasks, henq q, hst q] using hf.tasks q
  · intro q
    simpa [hqueue, hh, hsch, henq q] using hf.order q
  · intro t'
    have hids : scheduledIds t' w'.history = scheduledIds t' w.history := by
      simp [hh, scheduledIds, hsch]
    rw [hids, hf.ids, hr]
    split
    · rename_i heq
      rw [hlast, heq]
    · rfl
  · intro t' id
    rw [hr, hh, life_concat]
    split
    · rename_i heq
      rw [hown, heq, hf.entries]
    · rename_i hne
      rw [hother t' id _ hne, hf.entries]
  · intro t'
    rw [hr]
    split
    · exact hkeys
    · exact hf.keys t'
  · intro q
    rw [hqueue, hh]
    simpa [hst q] using hfired q
  · rw [hh]
    exact hwait
  · intro t' id hmem
    rw [hh] at hmem ⊢
    rcases List.mem_append.mp hmem with hold | hnew
    · obtain ⟨c, hc⟩ := hf.settled t' id hold
      exact ⟨c, by simp [hc]⟩
    · obtain ⟨c, hc⟩ := hset t' id (List.mem_singleton.mp hnew).symm
      exact ⟨c, by simp [hc]⟩

lemma cancel (hf : w.Faithful) {t : TimersId} (ht : t < w.timers.length) (id : Nat) :
    (w.cancel t id).Faithful := by
  have hbase : ((w.updateRegistry t (·.remove id)).log (.cancelled t id)).Faithful := by
    refine hf.updateRegistry ht (fun _ => rfl) (fun _ => rfl) rfl (fun _ _ h => by cases h) rfl
      ((hf.keys t).sublist (Registry.keys_remove _ _)) ?_ ?_
      (fun q => by simpa [Event.fired?] using hf.fired q) (hf.waiting.append rfl)
    · intro id'
      rw [Registry.find?_remove]
      by_cases hid : id' = id
      · simp [hid, lifeStep]
      · have hne : id ≠ id' := fun heq => hid heq.symm
        simp [hid, hne, lifeStep]
    · intro t' id' entry hne
      exact if_neg fun heq => hne heq.1.symm
  simp only [World.cancel]
  split
  · exact hbase.still ((Still.refl _).log rfl)
  · exact hbase

lemma settle (hf : w.Faithful) {t : TimersId} (ht : t < w.timers.length) {id : Nat}
    {kind : TimerKind} {c : Callback} (hfired : .fired t id c ∈ w.history)
    (hkind : ∀ x, (w.registry t).find? id = some x → x.kind = kind) :
    (w.settle t id kind).Faithful := by
  refine hf.updateRegistry ht (fun _ => rfl) (fun _ => rfl) rfl ?_ ?_ ?_ ?_ ?_
    (fun q => by simpa [Event.fired?] using hf.fired q) (hf.waiting.append rfl)
  · rintro t' id' heq
    cases heq
    exact ⟨c, hfired⟩
  · cases kind <;> rfl
  · cases kind
    · exact (hf.keys t).sublist (Registry.keys_remove _ _)
    · exact hf.keys t
  · intro id'
    by_cases hid : id' = id
    · subst hid
      rw [lifeStep_settled]
      cases hx : (w.registry t).find? id' with
      | none => cases kind <;> simp [Registry.settle, Registry.find?_remove, hx]
      | some x =>
        have hk := hkind x hx
        cases kind <;> simp [Registry.settle, Registry.find?_remove, hx, hk, Option.filter_some]
    · have hne : id ≠ id' := fun heq => hid heq.symm
      cases kind <;> simp [Registry.settle, Registry.find?_remove, hid, hne, lifeStep]
  · intro t' id' entry hne
    exact if_neg fun heq => hne heq.1.symm

lemma enqueue (hf : w.Faithful) {q : QueueId} (hq : q < w.queues.length) (label : String)
    (body : List Step) : (w.enqueue q (.script label body)).Faithful := by
  have hh : (w.enqueue q (.script label body)).history =
      w.history ++ [.enqueued q (.script label body)] := rfl
  have htasks := tasks_enqueue hq (.script label body)
  have hr : ∀ t, (w.enqueue q (.script label body)).registry t = w.registry t := fun _ => rfl
  have hqueue : ∀ q' l, (w.enqueue q (.script label body)).onQueue q' l = w.onQueue q' l :=
    fun _ _ => rfl
  generalize w.enqueue q (.script label body) = w' at hh htasks hr hqueue
  constructor
  · intro q'
    by_cases hqq : q' = q
    · simp [hqq, hh, htasks, hf.tasks, Event.enqueued?, Event.started?]
    · have hne : q ≠ q' := fun heq => hqq heq.symm
      simp [hqq, hne, hh, htasks, hf.tasks, Event.enqueued?, Event.started?]
  · intro q'
    rw [hqueue, hh, enqueuedOn_append, timersIn_append, ← hf.order q']
    by_cases hqq : q = q' <;> simp [hqq, Event.enqueued?, Event.scheduled?, Microtask.timer?]
  · intro t
    rw [hr, ← hf.ids, hh]
    simp [scheduledIds, Event.scheduled?]
  · intro t id
    rw [hr, hf.entries, hh, life_concat]
    rfl
  · intro t
    rw [hr]
    exact hf.keys t
  · intro q'
    simpa [hqueue, hh, Event.fired?, Event.started?] using hf.fired q'
  · rw [hh]
    exact hf.waiting.append rfl
  · intro t id hmem
    rw [hh] at hmem ⊢
    obtain ⟨c, hc⟩ := hf.settled t id (by simpa using hmem)
    exact ⟨c, by simp [hc]⟩

lemma pop (hf : w.Faithful) {w' : World} {q : QueueId} {task : Microtask}
    (hp : w.pop q = some (task, w')) : w'.Faithful := by
  have htasks := tasks_pop hp
  have hh := history_pop hp
  have hr := registry_pop hp
  have hqueue : ∀ q' l, w'.onQueue q' l = w.onQueue q' l := fun _ _ =>
    onQueue_congr fun _ _ => queueOf_pop hp _
  constructor
  · intro q'
    have hold := hf.tasks q'
    rw [htasks] at hold
    by_cases hqq : q' = q
    · subst hqq
      simpa [hh, Event.enqueued?, Event.started?] using hold
    · have hne : q ≠ q' := fun heq => hqq heq.symm
      simpa [hqq, hne, hh, Event.enqueued?, Event.started?] using hold
  · intro q'
    simpa [hqueue, hh, Event.enqueued?, Event.scheduled?] using hf.order q'
  · intro t
    rw [hr, ← hf.ids, hh]
    simp [scheduledIds, Event.scheduled?]
  · intro t id
    rw [hr, hf.entries, hh, life_concat]
    rfl
  · intro t
    rw [hr]
    exact hf.keys t
  · intro q'
    have hfir : firings w'.history = firings w.history := by simp [hh, Event.fired?]
    rw [hqueue, hfir, hh, startedOn_append, timersIn_append]
    exact (hf.fired q').trans (List.sublist_append_left _ _)
  · rw [hh]
    exact hf.waiting.append rfl
  · intro t id hmem
    rw [hh] at hmem ⊢
    obtain ⟨c, hc⟩ := hf.settled t id (by simpa using hmem)
    exact ⟨c, by simp [hc]⟩

/-- The task of a timer is put into the queue on which the timer fires. -/
lemma queueOf_of_enqueued (hf : w.Faithful) {q : QueueId} {t : TimersId} {id : Nat}
    (h : (t, id) ∈ timersIn (enqueuedOn q w.history)) : w.queueOf t = q := by
  rw [← hf.order, List.mem_map] at h
  obtain ⟨call, hcall, heq⟩ := h
  cases heq
  exact beq_iff_eq.mp (List.mem_filter.mp hcall).2

/-- A task that is in a queue was put there. -/
lemma enqueued_of_queued (hf : w.Faithful) {q : QueueId} {t : TimersId} {id : Nat}
    (h : .fire t id ∈ w.tasks q) : (t, id) ∈ timersIn (enqueuedOn q w.history) := by
  rw [hf.tasks, timersIn_append]
  exact List.mem_append_right _ (mem_timersIn.mpr h)

/-- A task is taken that fires its timer. -/
lemma fire (hf : w.Faithful) {w₁ w₂ : World} {q : QueueId} {t : TimersId} {id : Nat}
    {kind : TimerKind} {c : Callback} (hp : w.pop q = some (.fire t id, w₁))
    (hfire : w₁.fire t id = some (kind, c, w₂)) : w₂.Faithful := by
  have hf₁ := hf.pop hp
  obtain ⟨hpending, rfl⟩ := fire_eq_some_iff.mp hfire
  have hfind := Registry.pending?_eq_some_iff.mp hpending
  have hlife : life t id w₁.history = some ⟨kind, .pending c⟩ := hf₁.entries t id ▸ hfind
  have hmem : .fire t id ∈ w.tasks q := by simp [tasks_pop hp]
  have hqt := hf.queueOf_of_enqueued (hf.enqueued_of_queued hmem)
  refine hf₁.updateRegistry (hf₁.timers_lt_of_find? hfind) (fun _ => rfl) (fun _ => rfl) rfl
    (fun _ _ h => by cases h) rfl ?_ ?_ ?_ ?_ ?_
  · rw [Registry.keys_markFired]
    exact hf₁.keys t
  · intro id'
    rw [Registry.find?_markFired]
    by_cases hid : id' = id
    · simp [hid, lifeStep]
    · have hne : id ≠ id' := fun heq => hid heq.symm
      simp [hid, hne, lifeStep]
  · intro t' id' entry hne
    exact if_neg fun heq => hne heq.1.symm
  · intro q'
    have hh := history_pop hp
    have hqueue : ∀ l, w₁.onQueue q' l = w.onQueue q' l := fun _ =>
      onQueue_congr fun _ _ => queueOf_pop hp _
    -- the call that is made now is that of the task that starts now
    rw [hqueue, hh, firings_append, firings_append, onQueue_append, onQueue_append,
      startedOn_append, timersIn_append, List.map_append, List.map_append]
    by_cases hqq : q = q'
    · subst hqq
      simpa [onQueue, hqt, Event.fired?, Event.started?, Microtask.timer?, TimerCall.timer]
        using hf.fired q
    · have hne : w.queueOf t ≠ q' := hqt ▸ hqq
      simpa [onQueue, hne, hqq, Event.fired?, Event.started?] using hf.fired q'
  · refine hf₁.waiting.concat fun t' id' c'' he => ?_
    cases he
    exact ⟨kind, hlife⟩

lemma invoke (hf : w.Faithful) (hs : w.Sound) (c : Callback) : (w.invoke c).Faithful :=
  hf.still (hs.still_invoke c)

end Faithful

/-- Every change leaves a faithful world faithful. -/
lemma Change.faithful {w w' : World} (h : Change w w') (hs : w.Sound) (hf : w.Faithful) :
    w'.Faithful := by
  cases h.timerChange with
  | still h _ => exact hf.still h
  | schedule t kind delay c ht _ => exact hf.schedule hs ht kind delay c
  | cancel t id ht => exact hf.cancel ht id
  | enqueue q label body hq => exact hf.enqueue hq label body
  | start q label body hp => exact hf.pop hp

lemma Changes.faithful {w w' : World} (h : Changes w w') (hs : w.Sound) (hf : w.Faithful) :
    w'.Faithful := by
  induction h with
  | refl => exact hf
  | tail h₁ h₂ ih => exact h₂.faithful (Changes.sound h₁ hs) ih

lemma faithful_start (entropy : Entropy) : (World.start entropy).Faithful := by
  have hr : ∀ t, (World.start entropy).registry t = Registry.empty := fun _ => rfl
  constructor
  · intro q
    rfl
  · intro q
    rfl
  · intro t
    rfl
  · intro t id
    rfl
  · intro t
    rw [hr]
    exact List.nodup_nil
  · intro q
    exact List.Sublist.refl _
  · intro a t id c b heq
    exact absurd heq.symm (List.append_ne_nil_of_right_ne_nil _ (List.cons_ne_nil _ _))
  · intro t id hmem
    cases hmem

end World

end Polyfill.Session
