import Polyfill.Proofs.Session.Order
/-!
# Which callbacks are invoked

The callback of a timer is invoked at most once, as it was scheduled.  It is decided when the task
of the timer is taken from its queue: the callback is invoked exactly if the registry is alive and
the timer has not been cancelled since it was scheduled.  A timer that is cancelled before that, or
whose task has been taken, is never invoked after that, whatever the session goes on to do.
-/

namespace Polyfill.Session

/-- The callbacks invoked for a timer, in order. -/
def invocations (t : TimersId) (id : Nat) (h : List Event) : List Callback :=
  (firings h).filterMap fun call => if call.timer = (t, id) then some call.callback else none

@[simp] lemma invocations_append (t : TimersId) (id : Nat) (h h' : List Event) :
    invocations t id (h ++ h') = invocations t id h ++ invocations t id h' := by
  simp [invocations]

lemma mem_invocations {t : TimersId} {id : Nat} {c : Callback} {h : List Event} :
    c ∈ invocations t id h ↔ .fired t id c ∈ h := by
  rw [invocations, List.mem_filterMap, ← mem_firings]
  constructor
  · rintro ⟨⟨t', id', c'⟩, hmem, heq⟩
    split at heq
    · rename_i htimer
      cases htimer
      cases heq
      exact hmem
    · cases heq
  · exact fun hmem => ⟨_, hmem, if_pos rfl⟩

lemma invocations_eq_nil_iff {t : TimersId} {id : Nat} {h : List Event} :
    invocations t id h = [] ↔ ∀ c, .fired t id c ∉ h := by
  rw [List.eq_nil_iff_forall_not_mem]
  exact forall_congr' fun c => not_congr mem_invocations

/-- Among callbacks of different timers, at most one is that of a given timer. -/
lemma length_invocations_le_one (t : TimersId) (id : Nat) {h : List Event}
    (hd : ((firings h).map TimerCall.timer).Nodup) : (invocations t id h).length ≤ 1 := by
  rw [invocations]
  generalize firings h = calls at hd
  induction calls with
  | nil => exact Nat.zero_le 1
  | cons call calls ih =>
    rw [List.map_cons, List.nodup_cons] at hd
    by_cases htimer : call.timer = (t, id)
    · have hnil : (calls.filterMap fun call =>
          if call.timer = (t, id) then some call.callback else none) = [] := by
        refine List.filterMap_eq_nil_iff.mpr fun call' hmem => if_neg fun heq => hd.1 ?_
        exact List.mem_map.mpr ⟨call', hmem, heq.trans htimer.symm⟩
      simp [htimer, hnil]
    · simpa [htimer] using ih hd.2

/-- A timer that was cancelled since it was scheduled, and was not invoked before that, is not
invoked later. -/
lemma not_fired_of_cancelled {t : TimersId} {id : Nat} {kind : TimerKind} {c : Callback}
    {h h' : List Event} (hw : FiresWaiting h') (hd : (scheduledIds t h').Nodup) (hp : h <+: h')
    (hs : .scheduled t id kind c ∈ h) (hc : ¬ Uncancelled t id h) (hf : ∀ c, .fired t id c ∉ h)
    (c' : Callback) : .fired t id c' ∉ h' := by
  intro hmem
  obtain ⟨a, b, rfl⟩ := List.append_of_mem hmem
  obtain ⟨kind', hl⟩ := hw a t id c' b rfl
  obtain ⟨a₁, a₂, rfl, hcan, -⟩ := of_life_pending hl
  obtain ⟨l, hl'⟩ : ∃ l, h ++ l = a₁ ++ .scheduled t id kind' c' :: a₂ := by
    obtain ⟨tail, htail⟩ := hp
    rcases List.append_eq_append_iff.mp htail with ⟨l, hl', -⟩ | ⟨l, hl', hl''⟩
    · exact ⟨l, hl'.symm⟩
    · cases l with
      | nil => exact ⟨[], by simpa using hl'⟩
      | cons e l =>
        obtain ⟨rfl, -⟩ := List.cons.inj hl''
        exact absurd (by simp [hl']) (hf c')
  -- the timer is scheduled once, and that lies in the history before the cancellation
  have hnew : Event.scheduled t id kind' c' ∉ l := by
    intro hmem'
    rw [← hl', scheduledIds_append, scheduledIds_append] at hd
    have hd' := (List.nodup_append.mp (List.nodup_append.mp hd).1).2.2
    exact hd' id (mem_scheduledIds.mpr ⟨kind, c, hs⟩) id
      (mem_scheduledIds.mpr ⟨kind', c', hmem'⟩) rfl
  obtain ⟨b', rfl, rfl⟩ := split_append hl' hnew
  exact hc ⟨a₁, kind', c', b', rfl, fun hmem' => hcan (List.mem_append_left _ hmem')⟩

namespace World.Faithful

variable {w : World}

/-- No timer is invoked twice. -/
lemma nodup_firings (hf : w.Faithful) : ((firings w.history).map TimerCall.timer).Nodup :=
  nodup_of_idsOf fun t => (hf.scheduledIds_nodup t).sublist (hf.firedIds_sublist t)

/-- The callback of a timer is invoked at most once, as it was scheduled. -/
lemma invocations_cases (hf : w.Faithful) (t : TimersId) (id : Nat) :
    invocations t id w.history = [] ∨
      ∃ kind c, .scheduled t id kind c ∈ w.history ∧ invocations t id w.history = [c] := by
  have hle := length_invocations_le_one t id hf.nodup_firings
  cases hi : invocations t id w.history with
  | nil => exact Or.inl rfl
  | cons c rest =>
    have hmem : c ∈ invocations t id w.history := hi ▸ List.mem_cons_self
    obtain ⟨kind, hk⟩ := hf.scheduled_of_fired (mem_invocations.mp hmem)
    rw [hi, List.length_cons] at hle
    obtain rfl : rest = [] := List.eq_nil_of_length_eq_zero (by omega)
    exact Or.inr ⟨kind, c, hk, rfl⟩

/-- A task that was started is in no queue. -/
lemma not_queued_of_started (hf : w.Faithful) {t : TimersId} {id : Nat} {q : QueueId}
    (h : (t, id) ∈ timersIn (startedOn q w.history)) (q' : QueueId) :
    .fire t id ∉ w.tasks q' := by
  intro hmem
  have henq : (t, id) ∈ timersIn (enqueuedOn q w.history) := by
    rw [hf.tasks, timersIn_append]
    exact List.mem_append_left _ h
  obtain rfl : q = q' :=
    (hf.queueOf_of_enqueued henq).symm.trans (hf.queueOf_of_enqueued (hf.enqueued_of_queued hmem))
  have hd := hf.nodup_onQueue q
  rw [hf.order, hf.tasks, timersIn_append] at hd
  exact (List.nodup_append.mp hd).2.2 _ h _ (mem_timersIn.mpr hmem) rfl

/-- The task of a timer that was invoked has started. -/
lemma started_of_fired (hf : w.Faithful) {t : TimersId} {id : Nat} {c : Callback}
    (h : .fired t id c ∈ w.history) : (t, id) ∈ timersIn (startedOn (w.queueOf t) w.history) := by
  have hcall : ⟨t, id, c⟩ ∈ w.onQueue (w.queueOf t) (firings w.history) :=
    List.mem_filter.mpr ⟨mem_firings.mpr h, by simp⟩
  exact (hf.fired (w.queueOf t)).subset (List.mem_map_of_mem hcall)

/-- A timer whose task is in a queue has not been invoked. -/
lemma not_fired_of_queued (hf : w.Faithful) {t : TimersId} {id : Nat} {q : QueueId}
    (h : .fire t id ∈ w.tasks q) (c : Callback) : .fired t id c ∉ w.history :=
  fun hmem => hf.not_queued_of_started (hf.started_of_fired hmem) q h

/-- A timer whose task is in a queue was scheduled. -/
lemma scheduled_of_queued (hf : w.Faithful) {t : TimersId} {id : Nat} {q : QueueId}
    (h : .fire t id ∈ w.tasks q) : ∃ kind c, .scheduled t id kind c ∈ w.history := by
  have hmem := hf.enqueued_of_queued h
  rw [← hf.order, List.mem_map] at hmem
  obtain ⟨⟨t', id', c⟩, hcall, heq⟩ := hmem
  cases heq
  obtain ⟨kind, hk⟩ := mem_schedulings.mp (List.mem_filter.mp hcall).1
  exact ⟨kind, c, hk⟩

/-- On an empty queue, the tasks of all timers that were scheduled have started. -/
lemma started_of_empty (hf : w.Faithful) {t : TimersId} {id : Nat} {kind : TimerKind} {c : Callback}
    (hs : .scheduled t id kind c ∈ w.history) (hq : w.tasks (w.queueOf t) = []) :
    (t, id) ∈ timersIn (startedOn (w.queueOf t) w.history) := by
  have hcall : ⟨t, id, c⟩ ∈ w.onQueue (w.queueOf t) (schedulings w.history) :=
    List.mem_filter.mpr ⟨mem_schedulings.mpr ⟨kind, hs⟩, by simp⟩
  have hmem := List.mem_map_of_mem (f := TimerCall.timer) hcall
  rwa [hf.order, hf.tasks, hq, List.append_nil] at hmem

/-- As long as its task is in a queue, a timer waits exactly if it has not been cancelled since it
was scheduled. -/
lemma pending_iff (hf : w.Faithful) {t : TimersId} {id : Nat} {q : QueueId}
    (h : .fire t id ∈ w.tasks q) :
    (∃ kind c, (w.registry t).find? id = some ⟨kind, .pending c⟩) ↔ Uncancelled t id w.history := by
  have hnf := hf.not_fired_of_queued h
  have hns : .settled t id ∉ w.history := fun hmem => by
    obtain ⟨c, hc⟩ := hf.settled t id hmem
    exact hnf c hc
  simp only [hf.entries, life_pending_iff (hf.scheduledIds_nodup t) hnf hns]
  constructor
  · rintro ⟨kind, c, a, b, heq, hc⟩
    exact ⟨a, kind, c, b, heq, hc⟩
  · rintro ⟨a, kind, c, b, heq, hc⟩
    exact ⟨kind, c, a, b, heq, hc⟩

/-- A task that is taken finds its callback waiting if the timer has not been cancelled. -/
lemma exists_fire (hf : w.Faithful) {q : QueueId} {t : TimersId} {id : Nat} {rest : List Microtask}
    (ht : w.tasks q = .fire t id :: rest) (hc : Uncancelled t id w.history) :
    ∃ kind c w₁ w₂, .scheduled t id kind c ∈ w.history ∧ w.pop q = some (.fire t id, w₁) ∧
      w₁.fire t id = some (kind, c, w₂) := by
  have hmem : .fire t id ∈ w.tasks q := ht ▸ List.mem_cons_self
  obtain ⟨w₁, hp⟩ : ∃ w₁, w.pop q = some (.fire t id, w₁) :=
    ⟨_, pop_eq_some_iff.mpr ⟨rest, ht, rfl⟩⟩
  obtain ⟨kind, c, hfind⟩ := (hf.pending_iff hmem).mpr hc
  obtain ⟨a, b, heq, -⟩ := of_life_pending (hf.entries t id ▸ hfind)
  rw [← registry_pop hp, ← Registry.pending?_eq_some_iff] at hfind
  exact ⟨kind, c, w₁, _, by simp [heq], hp, fire_eq_some_iff.mpr ⟨hfind, rfl⟩⟩

/-- A task that is taken finds nothing waiting if the timer has been cancelled. -/
lemma exists_skip (hf : w.Faithful) {q : QueueId} {t : TimersId} {id : Nat} {rest : List Microtask}
    (ht : w.tasks q = .fire t id :: rest) :
    ∃ w₁, w.pop q = some (.fire t id, w₁) ∧
      (¬ Uncancelled t id w.history → (w.registry t).pending? id = none) := by
  refine ⟨_, pop_eq_some_iff.mpr ⟨rest, ht, rfl⟩, fun hc => ?_⟩
  refine Option.eq_none_iff_forall_ne_some.mpr fun ⟨kind, c⟩ hpending => hc ?_
  have hmem : .fire t id ∈ w.tasks q := ht ▸ List.mem_cons_self
  exact (hf.pending_iff hmem).mp ⟨kind, c, Registry.pending?_eq_some_iff.mp hpending⟩

end World.Faithful

namespace Machine

variable {m m' : Machine}

/-! ## The task of a timer is taken -/

lemma next_of_pop {q : QueueId} {n : Nat} {below : List Frame} {task : Microtask} {w : World}
    (hs : m.stack = .drain q n :: below) (hp : m.world.pop q = some (task, w)) :
    m.next = some ({ m with world := w, stack := .drain q (n + 1) :: below }.startTask task) := by
  unfold next
  rw [hs]
  simp only [hp]

lemma next_fire {q : QueueId} {n : Nat} {below : List Frame} {t : TimersId} {id : Nat}
    {kind : TimerKind} {c : Callback} {w₁ w₂ : World} (hs : m.stack = .drain q n :: below)
    (hp : m.world.pop q = some (.fire t id, w₁)) (ha : m.alive t = true)
    (hf : w₁.fire t id = some (kind, c, w₂)) :
    m.next = some ({ m with
      world := w₂
      stack := .settle t id kind :: .drain q (n + 1) :: below }.invoke c) := by
  rw [next_of_pop hs hp, startTask, alive_pop hs hp, if_pos ha]
  simp only [hf]

lemma next_skip {q : QueueId} {n : Nat} {below : List Frame} {t : TimersId} {id : Nat}
    {w : World} (hs : m.stack = .drain q n :: below) (hp : m.world.pop q = some (.fire t id, w))
    (h : m.alive t = true → (m.world.registry t).pending? id = none) :
    m.next = some { m with world := w, stack := .drain q (n + 1) :: below } := by
  rw [next_of_pop hs hp, startTask, alive_pop hs hp]
  split
  · rename_i ha
    have hnone := h ha
    rw [← World.registry_pop hp] at hnone
    simp only [World.fire, hnone]
  · rfl

/-! ## What is over stays over -/

/-- A machine whose queues do not hold the task of a timer does not invoke its callback. -/
lemma Move.invocations_eq (h : Move m m') (hs : m.world.Sound) {t : TimersId} {id : Nat}
    (hq : ∀ q, .fire t id ∉ m.world.tasks q) :
    invocations t id m'.world.history = invocations t id m.world.history := by
  cases h with
  | work hw _ =>
    obtain ⟨es, hes, hfir, -⟩ := hw.history
    rw [hes, invocations_append, invocations, invocations, hfir]
    exact List.append_nil _
  | skip _ hp _ _ =>
    rw [World.history_pop hp, invocations_append]
    exact List.append_nil _
  | @fire q t' id' _ _ _ c _ _ _ hp _ hf hm =>
    have hne : t' = t → id' ≠ id := by
      rintro rfl rfl
      exact hq q (by simp [World.tasks_pop hp])
    have hletters : firings (m.world.letters c) = [] :=
      firings_of_idle fun _ hmem => World.idle_of_mem_letters hmem
    rw [history_fire hs hp hf hm, invocations_append]
    simpa [invocations, Event.fired?, hletters, TimerCall.timer] using hne
  | settle _ hw =>
    rw [history_settle hw, invocations_append]
    exact List.append_nil _

lemma Reaches.grows {entropy : Entropy} {script : List Step} (h : Reaches (start entropy script) m)
    (h' : Reaches m m') : World.Grows m.world m'.world := by
  induction h' with
  | refl => exact World.Grows.refl _
  | move h₁ hn ih => exact ih.trans (next_move (h.trans h₁).sound hn).grows

/-- A task that has started is never in a queue again. -/
lemma Reaches.not_queued {entropy : Entropy} {script : List Step}
    (h : Reaches (start entropy script) m) {q : QueueId} {t : TimersId} {id : Nat}
    (hst : (t, id) ∈ timersIn (startedOn q m.world.history)) (h' : Reaches m m') (q' : QueueId) :
    .fire t id ∉ m'.world.tasks q' := by
  refine (h.trans h').consistent.faithful.not_queued_of_started (q := q) ?_ q'
  obtain ⟨es, hes⟩ := (h.grows h').history
  rw [← hes, startedOn_append, timersIn_append]
  exact List.mem_append_left _ hst

/-- Once the task of a timer has started, no more callbacks are invoked for the timer. -/
lemma Reaches.invocations_eq {entropy : Entropy} {script : List Step}
    (h : Reaches (start entropy script) m) {q : QueueId} {t : TimersId} {id : Nat}
    (hst : (t, id) ∈ timersIn (startedOn q m.world.history)) (h' : Reaches m m') :
    invocations t id m'.world.history = invocations t id m.world.history := by
  induction h' with
  | refl => rfl
  | @move m₁ m₂ h₁ hn ih =>
    have hs := (h.trans h₁).sound
    exact ((next_move hs hn).invocations_eq hs (h.not_queued hst h₁)).trans ih

/-- A timer that was cancelled while its task is still in a queue is never invoked. -/
lemma Reaches.never_invoked {entropy : Entropy} {script : List Step}
    (h : Reaches (start entropy script) m) {q : QueueId} {t : TimersId} {id : Nat}
    (hq : .fire t id ∈ m.world.tasks q) (hc : ¬ Uncancelled t id m.world.history)
    (h' : Reaches m m') : invocations t id m'.world.history = [] := by
  have hf := h.consistent.faithful
  have hf' := (h.trans h').consistent.faithful
  obtain ⟨kind, c, hs⟩ := hf.scheduled_of_queued hq
  exact invocations_eq_nil_iff.mpr (not_fired_of_cancelled hf'.waiting (hf'.scheduledIds_nodup t)
    (h.grows h').history hs hc (hf.not_fired_of_queued hq))

/-- When a drain returns, it is settled for all timers on its queue what callbacks are invoked for
them. -/
lemma Reaches.settled_on_return {entropy : Entropy} {script : List Step}
    (h : Reaches (start entropy script) m) {t : TimersId} {id : Nat} {n : Nat} {below : List Frame}
    {m₁ : Machine} {kind : TimerKind} {c : Callback}
    (hs : m.stack = .drain (m.world.queueOf t) n :: below) (hn : m.next = some m₁)
    (hret : m₁.stack = below) (hsched : .scheduled t id kind c ∈ m.world.history)
    (h' : Reaches m₁ m') :
    invocations t id m'.world.history = invocations t id m.world.history := by
  have hempty := tasks_eq_nil_of_return hs hn hret
  have hst := h.consistent.faithful.started_of_empty hsched hempty
  exact h.invocations_eq hst ((Reaches.refl.move hn).trans h')

/-- A drain that comes upon the task of a timer invokes the callback as it was scheduled, if the
registry is alive and the timer has not been cancelled. -/
lemma Reaches.fires {entropy : Entropy} {script : List Step} (h : Reaches (start entropy script) m)
    {q : QueueId} {t : TimersId} {id : Nat} {n : Nat} {below : List Frame} {rest : List Microtask}
    (hs : m.stack = .drain q n :: below) (ht : m.world.tasks q = .fire t id :: rest)
    (ha : m.alive t = true) (hc : Uncancelled t id m.world.history) :
    ∃ kind c w, .scheduled t id kind c ∈ m.world.history ∧
      w.history = m.world.history ++ [.started q (.fire t id), .fired t id c] ∧
      m.next = some ({ m with
        world := w
        stack := .settle t id kind :: .drain q (n + 1) :: below }.invoke c) := by
  obtain ⟨kind, c, w₁, w₂, hsched, hp, hfire⟩ := h.consistent.faithful.exists_fire ht hc
  refine ⟨kind, c, w₂, hsched, ?_, next_fire hs hp ha hfire⟩
  obtain ⟨-, rfl⟩ := World.fire_eq_some_iff.mp hfire
  simp [World.log, World.updateRegistry, World.history_pop hp]

/-- The law of timers, at every point of every session.  The callback of a timer has been invoked at
most once, as it was scheduled.  When the task of the timer is taken from its queue, the callback is
invoked if the registry is alive and the timer has not been cancelled since it was scheduled, and
otherwise nothing happens.  A timer that was cancelled before is never invoked after that, and when
a drain of its queue has returned, the timer has been invoked once or is never invoked. -/
theorem invoked_iff_alive_and_uncancelled {entropy : Entropy} {script : List Step}
    (h : Reaches (start entropy script) m) (t : TimersId) (id : Nat) :
    (invocations t id m.world.history = [] ∨
      ∃ kind c, .scheduled t id kind c ∈ m.world.history ∧
        invocations t id m.world.history = [c]) ∧
    (∀ q n below rest, m.stack = .drain q n :: below → m.world.tasks q = .fire t id :: rest →
      invocations t id m.world.history = [] ∧
      (m.alive t = true ∧ Uncancelled t id m.world.history →
        ∃ kind c w, .scheduled t id kind c ∈ m.world.history ∧
          w.history = m.world.history ++ [.started q (.fire t id), .fired t id c] ∧
          m.next = some ({ m with
            world := w
            stack := .settle t id kind :: .drain q (n + 1) :: below }.invoke c)) ∧
      (¬ (m.alive t = true ∧ Uncancelled t id m.world.history) →
        ∃ w, w.history = m.world.history ++ [.started q (.fire t id)] ∧
          m.next = some { m with world := w, stack := .drain q (n + 1) :: below })) ∧
    (∀ q, .fire t id ∈ m.world.tasks q → ¬ Uncancelled t id m.world.history →
      ∀ m', Reaches m m' → invocations t id m'.world.history = []) ∧
    (∀ n below m₁ kind c, m.stack = .drain (m.world.queueOf t) n :: below → m.next = some m₁ →
      m₁.stack = below → .scheduled t id kind c ∈ m.world.history →
      (∀ m', Reaches m₁ m' → invocations t id m'.world.history = [c]) ∨
      ∀ m', Reaches m₁ m' → invocations t id m'.world.history = []) := by
  have hf := h.consistent.faithful
  refine ⟨hf.invocations_cases t id, ?_, fun q hq hc m' h' => h.never_invoked hq hc h', ?_⟩
  · intro q n below rest hs ht
    have hmem : .fire t id ∈ m.world.tasks q := ht ▸ List.mem_cons_self
    refine ⟨invocations_eq_nil_iff.mpr (hf.not_fired_of_queued hmem),
      fun ⟨ha, hc⟩ => h.fires hs ht ha hc, fun hnot => ?_⟩
    obtain ⟨w, hp, hnone⟩ := hf.exists_skip ht
    refine ⟨w, World.history_pop hp, next_skip hs hp fun ha => hnone fun hc => hnot ⟨ha, hc⟩⟩
  · intro n below m₁ kind c hs hn hret hsched
    rcases hf.invocations_cases t id with hnil | ⟨kind', c', hsched', hone⟩
    · exact Or.inr fun m' h' => (h.settled_on_return hs hn hret hsched h').trans hnil
    · obtain ⟨-, rfl⟩ := scheduled_unique (hf.scheduledIds_nodup t) hsched hsched'
      exact Or.inl fun m' h' => (h.settled_on_return hs hn hret hsched h').trans hone

/-- A session whose first callback cancels the second timer and then drains the queue itself. -/
def cancellingScript : List Step :=
  [.newQueue "q", .newTimers "t" "q",
    .schedule .timeout "t" "first" 5 (some [.nat 7]) [.cancel .clearTimeout "t" 2, .run "q"],
    .schedule .timeout "t" "second" 0 none [],
    .schedule .interval "t" "third" 0 none [],
    .run "q"]

/-- The inner drain of that session comes upon the second timer, which is never invoked, and then
upon the third, which is. -/
theorem invoked_iff_alive_and_uncancelled_in_nested_drain :
    let m (n : Nat) : Machine := (start ⟨fun _ => 0, 0⟩ cancellingScript).after n
    ((m 9).world.tasks 0 = [.fire 0 2, .fire 0 3] ∧ ¬ Uncancelled 0 2 (m 9).world.history ∧
      ∀ m', Reaches (m 9) m' → invocations 0 2 m'.world.history = []) ∧
    ((m 10).world.tasks 0 = [.fire 0 3] ∧ (m 10).alive 0 = true ∧
      Uncancelled 0 3 (m 10).world.history ∧
      ∃ kind c, .scheduled 0 3 kind c ∈ (m 10).world.history ∧
        ∃ m', (m 10).next = some m' ∧ m'.running = [(0, 3, kind), (0, 1, .timeout)]) := by
  intro m
  have hq : (m 9).world.tasks 0 = [.fire 0 2, .fire 0 3] := rfl
  have hc : ¬ Uncancelled 0 2 (m 9).world.history := by decide
  have h₉ := invoked_iff_alive_and_uncancelled (reaches_after _ 9 : Reaches _ (m 9)) 0 2
  have h₁₀ := invoked_iff_alive_and_uncancelled (reaches_after _ 10 : Reaches _ (m 10)) 0 3
  have hq' : (m 10).world.tasks 0 = [.fire 0 3] := rfl
  have ha : (m 10).alive 0 = true := rfl
  have hc' : Uncancelled 0 3 (m 10).world.history := by decide
  obtain ⟨-, hinvoked, -⟩ := h₁₀.2.1 0 1 _ [] rfl hq'
  obtain ⟨kind, c, w, hsched, -, hnext⟩ := hinvoked ⟨ha, hc'⟩
  have hmem : .fire 0 2 ∈ (m 9).world.tasks 0 := hq ▸ List.mem_cons_self
  refine ⟨⟨hq, hc, h₉.2.2.1 0 hmem hc⟩, hq', ha, hc', kind, c, hsched, _, hnext, ?_⟩
  rw [running_invoke]
  rfl

end Machine

end Polyfill.Session
