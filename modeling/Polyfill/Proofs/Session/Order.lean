import Polyfill.Proofs.Session.Running
/-!
# The order in which tasks start

The tasks of a queue start in the order in which they were put there, whoever put them there and
however drains are nested.  Timers are fired by tasks, so the callbacks of all timers on a queue are
invoked in the order in which they were scheduled, and those of one registry in the order of their
numbers.
-/

namespace Polyfill.Session

/-- A sublist by names is a sublist, if no name is given twice and only members are named. -/
lemma sublist_of_map_sublist {α β : Type} {f : α → β} {l l' : List α} (hd : (l'.map f).Nodup)
    (hmem : ∀ a ∈ l, a ∈ l') (h : (l.map f).Sublist (l'.map f)) : l.Sublist l' := by
  obtain ⟨k, hk, heq⟩ := List.sublist_map_iff.mp h
  have hinj := List.inj_on_of_nodup_map hd
  have hlk : l = k := by
    clear h
    induction l generalizing k with
    | nil => exact (List.map_eq_nil_iff.mp heq.symm).symm
    | cons a l ih =>
      cases k with
      | nil => cases heq
      | cons b k =>
        obtain ⟨hab, hrest⟩ := List.cons.inj heq
        have hb : b ∈ l' := hk.subset List.mem_cons_self
        obtain rfl := hinj (hmem a List.mem_cons_self) hb hab
        rw [ih (fun x hx => hmem x (List.mem_cons_of_mem a hx)) k
          ((List.sublist_cons_self a k).trans hk) hrest]
  exact hlk ▸ hk

/-- The callbacks of one registry are among those on its queue. -/
lemma World.idsOf_onQueue (w : World) (t : TimersId) (calls : List TimerCall) :
    idsOf t ((w.onQueue (w.queueOf t) calls).map TimerCall.timer) =
      idsOf t (calls.map TimerCall.timer) := by
  induction calls with
  | nil => rfl
  | cons call calls ih =>
    rw [onQueue] at ih ⊢
    rw [List.filter_cons]
    by_cases ht : call.timers = t
    · simp [ht, ih]
    · have hid : idsOf t [call.timer] = [] := by simp [TimerCall.timer, ht]
      split <;> simp_all

namespace World.Faithful

variable {w : World}

/-- No timer on a queue is scheduled twice. -/
lemma nodup_onQueue (hf : w.Faithful) (q : QueueId) :
    ((w.onQueue q (schedulings w.history)).map TimerCall.timer).Nodup :=
  hf.nodup_timers.sublist (List.filter_sublist.map _)

/-- Callbacks on a queue are invoked in the order in which they were scheduled. -/
lemma firings_sublist (hf : w.Faithful) (q : QueueId) :
    (w.onQueue q (firings w.history)).Sublist (w.onQueue q (schedulings w.history)) := by
  refine sublist_of_map_sublist (hf.nodup_onQueue q) (fun call hmem => ?_) ?_
  · obtain ⟨hcall, hq⟩ := List.mem_filter.mp hmem
    obtain ⟨kind, hk⟩ := hf.scheduled_of_fired (mem_firings.mp hcall)
    exact List.mem_filter.mpr ⟨mem_schedulings.mpr ⟨kind, hk⟩, hq⟩
  · rw [hf.order, hf.tasks, timersIn_append]
    exact (hf.fired q).trans (List.sublist_append_left _ _)

/-- The callbacks of a registry are invoked in the order of their numbers. -/
lemma firedIds_sublist (hf : w.Faithful) (t : TimersId) :
    (idsOf t ((firings w.history).map TimerCall.timer)).Sublist (scheduledIds t w.history) := by
  have h := ((hf.firings_sublist (w.queueOf t)).map TimerCall.timer).filterMap
    fun timer => if timer.1 = t then some timer.2 else none
  have hf' := w.idsOf_onQueue t (firings w.history)
  have hs' := w.idsOf_onQueue t (schedulings w.history)
  rw [idsOf] at hf' hs'
  rwa [hf', hs'] at h

lemma firedIds_sorted (hf : w.Faithful) (t : TimersId) :
    (idsOf t ((firings w.history).map TimerCall.timer)).Pairwise (· < ·) := by
  have h := hf.firedIds_sublist t
  rw [hf.ids] at h
  exact List.Pairwise.sublist h List.pairwise_lt_range'

end World.Faithful

/-- At every point of every session: each queue has started the tasks put into it in the order in
which they were put there, and still holds the others in that order; each registry has invoked its
callbacks in the order of their numbers; and on each queue, callbacks were invoked in the order in
which they were scheduled, no timer being scheduled twice. -/
theorem Machine.tasks_start_in_order {entropy : Entropy} {script : List Step} {m : Machine}
    (h : Reaches (start entropy script) m) :
    (∀ q, enqueuedOn q m.world.history = startedOn q m.world.history ++ m.world.tasks q) ∧
    (∀ t, (idsOf t ((firings m.world.history).map TimerCall.timer)).Pairwise (· < ·)) ∧
    (∀ q, ((m.world.onQueue q (schedulings m.world.history)).map TimerCall.timer).Nodup ∧
      (m.world.onQueue q (schedulings m.world.history)).map TimerCall.timer =
        timersIn (enqueuedOn q m.world.history) ∧
      (m.world.onQueue q (firings m.world.history)).Sublist
        (m.world.onQueue q (schedulings m.world.history))) := by
  have hf := h.consistent.faithful
  exact ⟨hf.tasks, hf.firedIds_sorted,
    fun q => ⟨hf.nodup_onQueue q, hf.order q, hf.firings_sublist q⟩⟩

/-- A session with two registries and a script on one queue, which is drained again from within the
first callback. -/
def sharedQueueScript : List Step :=
  [.newQueue "q", .newTimers "a" "q", .newTimers "b" "q",
    .schedule .timeout "a" "first" 9 none [.schedule .timeout "b" "third" 0 none [], .run "q"],
    .enqueue "q" "between" [],
    .schedule .interval "b" "second" 0 none [],
    .run "q"]

/-- The callbacks of that session, in order. -/
theorem Machine.tasks_start_in_order_on_shared_queue :
    let m : Machine := (start ⟨fun _ => 0, 0⟩ sharedQueueScript).after 22
    (firings m.world.history).map TimerCall.timer = [(0, 1), (1, 1), (1, 2)] ∧
    enqueuedOn 0 m.world.history = startedOn 0 m.world.history ++ m.world.tasks 0 ∧
    (idsOf 1 ((firings m.world.history).map TimerCall.timer)).Pairwise (· < ·) ∧
    (m.world.onQueue 0 (firings m.world.history)).Sublist
      (m.world.onQueue 0 (schedulings m.world.history)) := by
  intro m
  have h := tasks_start_in_order (reaches_after _ 22 : Reaches _ m)
  exact ⟨rfl, h.1 0, h.2.1 1, (h.2.2 0).2.2⟩

end Polyfill.Session
