import Polyfill.Proofs.Session.Coherence
import Polyfill.Proofs.Session.Delivery
/-!
# The life of a timer

A registry gives out the numbers 1, 2, 3, … in the order in which timers are asked for, by any
handle and at any depth, and messages that workers accept take numbers like any other timer.  Each
number goes through its stages in one direction (`Stage.Advance`): it is not given out, then it
waits, then it is cancelled or fires, and a fired timer goes when it is cancelled or, as a timeout,
when its callback has returned.  What is gone does not come back.

`Machine.next_shift` says what a move can do to a registry; the stages are read off it.
-/

namespace Polyfill

/-- How far a number of a registry has come. -/
inductive Stage where
  /-- The number has not been given out. -/
  | unborn
  | pending
  | fired
  /-- The number was given out and nothing is registered under it any more. -/
  | gone
  deriving DecidableEq, Repr

namespace Stage

/-- The stage that comes after another one. -/
inductive Advance : Stage → Stage → Prop
  | schedule : Advance unborn pending
  | fire : Advance pending fired
  | cancel : Advance pending gone
  | leave : Advance fired gone

/-- What a session is told when it asks for the state of a timer. -/
def datum : Stage → Datum
  | unborn | gone => .null
  | pending => .text "Pending"
  | fired => .text "Fired"

/-- Nothing comes after the last stage. -/
lemma Advance.ne_gone {a b : Stage} (h : Advance a b) : a ≠ .gone := by
  cases h <;> simp

/-- A fired timer can only go. -/
lemma Advance.eq_gone {b : Stage} (h : Advance .fired b) : b = .gone := by
  cases h
  rfl

end Stage

namespace Registry

variable {κ : Type} {r : Registry κ} {id : Nat}

/-- The stage of a number. -/
def stage (r : Registry κ) (id : Nat) : Stage :=
  match r.find? id with
  | some ⟨_, .pending _⟩ => .pending
  | some ⟨_, .fired⟩ => .fired
  | none => if 1 ≤ id ∧ id ≤ r.last then .gone else .unborn

/-- Whatever is registered has one of the numbers given out. -/
def Bounded (r : Registry κ) : Prop :=
  ∀ id x, r.find? id = some x → 1 ≤ id ∧ id ≤ r.last

lemma stage_of_pending {kind : TimerKind} {c : κ} (h : r.find? id = some ⟨kind, .pending c⟩) :
    r.stage id = .pending := by
  simp [stage, h]

lemma stage_of_fired {kind : TimerKind} (h : r.find? id = some ⟨kind, .fired⟩) :
    r.stage id = .fired := by
  simp [stage, h]

lemma stage_of_none (h : r.find? id = none) :
    r.stage id = if 1 ≤ id ∧ id ≤ r.last then .gone else .unborn := by
  simp [stage, h]

/-- A number stays in its stage if its entry does and as many numbers are given out. -/
lemma stage_congr {r' : Registry κ} (hf : r'.find? id = r.find? id) (hl : r'.last = r.last) :
    r'.stage id = r.stage id := by
  simp [stage, hf, hl]

lemma Bounded.find?_next (hb : r.Bounded) : r.find? (r.last + 1) = none := by
  rw [Option.eq_none_iff_forall_ne_some]
  intro x hx
  have hle := (hb _ x hx).2
  omega

/-- Scheduling a timer gives out the next number; the others stay as they are. -/
lemma Bounded.stage_schedule (hb : r.Bounded) (kind : TimerKind) (c : κ) (id : Nat) :
    (r.schedule kind c).stage id = if id = r.last + 1 then .pending else r.stage id := by
  have hfind := find?_schedule kind c id hb.find?_next
  split
  · rename_i hid
    rw [if_pos hid] at hfind
    exact stage_of_pending hfind
  · rename_i hid
    rw [if_neg hid] at hfind
    cases hx : r.find? id with
    | some x =>
      obtain ⟨kind', status⟩ := x
      cases status <;> simp [stage, hfind, hx]
    | none =>
      rw [stage_of_none (hfind.trans hx), stage_of_none hx]
      have hrange : (1 ≤ id ∧ id ≤ r.last + 1) ↔ (1 ≤ id ∧ id ≤ r.last) := by omega
      simp only [schedule, hrange]

/-- The next number has not been given out. -/
lemma Bounded.stage_next (hb : r.Bounded) : r.stage (r.last + 1) = .unborn := by
  rw [stage_of_none hb.find?_next, if_neg (by omega)]

lemma Bounded.advance_schedule (hb : r.Bounded) (kind : TimerKind) (c : κ) (id : Nat) :
    (r.schedule kind c).stage id = r.stage id ∨
      (r.stage id).Advance ((r.schedule kind c).stage id) := by
  rw [hb.stage_schedule]
  split
  · rename_i hid
    right
    rw [hid, hb.stage_next]
    exact .schedule
  · exact Or.inl rfl

/-- A timer that is removed goes, if it was registered. -/
lemma Bounded.advance_remove (hb : r.Bounded) (id id' : Nat) :
    (r.remove id).stage id' = r.stage id' ∨ (r.stage id').Advance ((r.remove id).stage id') := by
  have hfind := find?_remove r id id'
  by_cases hid : id' = id
  · rw [if_pos hid] at hfind
    cases hx : r.find? id' with
    | none => exact Or.inl (stage_congr (hfind.trans hx.symm) rfl)
    | some x =>
      have hgone : (r.remove id).stage id' = .gone := by
        rw [stage_of_none hfind]
        exact if_pos (hb id' x hx)
      right
      rw [hgone]
      obtain ⟨kind, status⟩ := x
      cases status with
      | pending c =>
        rw [stage_of_pending hx]
        exact .cancel
      | fired =>
        rw [stage_of_fired hx]
        exact .leave
  · rw [if_neg hid] at hfind
    exact Or.inl (stage_congr hfind rfl)

/-- A timer that waits can be fired. -/
lemma advance_markFired {kind : TimerKind} {c : κ} (hp : r.pending? id = some (kind, c))
    (id' : Nat) : (r.markFired id).stage id' = r.stage id' ∨
      (r.stage id').Advance ((r.markFired id).stage id') := by
  have hfind := find?_markFired r id id'
  by_cases hid : id' = id
  · have hx := pending?_eq_some_iff.mp hp
    rw [if_pos hid, hid, hx] at hfind
    right
    rw [hid, stage_of_pending hx, stage_of_fired hfind]
    exact .fire
  · rw [if_neg hid] at hfind
    exact Or.inl (stage_congr hfind rfl)

end Registry

namespace Session

/-- What a session is told of a timer is its stage. -/
lemma World.query_state {w : World} {name : String} {t : TimersId} (ht : w.timers? name = some t)
    (id : Nat) : w.query (.state name id) = Answer.data ((w.registry t).stage id).datum := by
  simp only [query, ht]
  cases hx : (w.registry t).find? id with
  | none =>
    have hnull : ((w.registry t).stage id).datum = .null := by
      rw [Registry.stage_of_none hx]
      split <;> rfl
    rw [hnull]
  | some x =>
    obtain ⟨kind, status⟩ := x
    cases status with
    | pending c =>
      rw [Registry.stage_of_pending hx]
      rfl
    | fired =>
      rw [Registry.stage_of_fired hx]
      rfl

namespace World.Faithful

variable {w : World}

lemma bounded (hf : w.Faithful) (t : TimersId) : (w.registry t).Bounded :=
  fun _ _ hx => hf.bounds hx

/-- A registry has given out as many numbers as the last one says. -/
lemma length_scheduledIds (hf : w.Faithful) (t : TimersId) :
    (scheduledIds t w.history).length = (w.registry t).last := by
  rw [hf.ids, List.length_range']

/-- A timer that was scheduled and is not registered is gone. -/
lemma stage_gone (hf : w.Faithful) {t : TimersId} {id : Nat} {kind : TimerKind} {c : Callback}
    (hs : .scheduled t id kind c ∈ w.history) (hn : (w.registry t).find? id = none) :
    (w.registry t).stage id = .gone := by
  have hmem := mem_scheduledIds.mpr ⟨kind, c, hs⟩
  rw [hf.ids, List.mem_range'_1] at hmem
  rw [Registry.stage_of_none hn]
  exact if_pos ⟨hmem.1, by omega⟩

end World.Faithful

namespace Machine

variable {m m' : Machine} {t : TimersId}

/-- The stage of a timer. -/
def stage (m : Machine) (t : TimersId) (id : Nat) : Stage :=
  (m.world.registry t).stage id

/-! ## Asking for a timer -/

/-- The next step of a machine asks a registry for a timer; `m₀` is the machine without the step,
and `reply` the answer to it, given the number of the timer.  A handle of the registry is told the
number; a message that a worker of the registry accepts takes a number, too. -/
inductive Requests (m m₀ : Machine) (t : TimersId) (reply : Nat → Answer) : Prop
  | schedule {kind : TimerKind} {name label : String} {delay : Nat} {args : Option (List Datum)}
      {body : List Step}
      (hup : m.upcoming? = some (.schedule kind name label delay args body, m₀))
      (ht : m.world.timers? name = some t) (hr : reply = fun n => Answer.data (.nat n))
  | post {k : WorkerId} {worker : Worker} {data : String} (hp : m.Posts m₀ k worker data)
      (ht : worker.terminated = false) (ho : worker.onmessage.isSome = true)
      (hw : worker.timers = t) (hr : reply = fun _ => Answer.done)

/-- A request schedules a timer, and its answer tells the next number. -/
lemma Requests.execute {m₀ : Machine} {reply : Nat → Answer} (h : m.Requests m₀ t reply)
    (hs : m.world.Sound) :
    ∃ s kind delay c, m.upcoming? = some (s, m₀) ∧ t < m.world.timers.length ∧
      m.world.execute s = ((m.world.schedule t kind delay c).2,
        .done (reply ((m.world.registry t).last + 1))) := by
  cases h with
  | @schedule kind name label delay args body hup ht hr =>
    rw [hr]
    exact ⟨_, kind, delay, .script label args body, hup, hs.knows (World.handle_of_timers ht),
      World.execute_schedule ht kind label delay args body⟩
  | @post k worker data hp ht ho hw hr =>
    obtain ⟨name, v, hup, hk, hworker, hv⟩ := hp
    rw [hr, ← hw]
    exact ⟨_, .timeout, 0, .delivery k data, hup, hs.workers k worker hworker,
      World.execute_post_of_listening hk hworker hv ht ho⟩

/-! ## What a move does to a registry -/

/-- What a move does to one registry. -/
inductive Shift (m m' : Machine) (t : TimersId) : Prop
  | same (h : m'.world.registry t = m.world.registry t)
  /-- A timer was asked for. -/
  | request {m₀ : Machine} {reply : Nat → Answer} {kind : TimerKind} {c : Callback}
      (hr : m.Requests m₀ t reply)
      (h : m'.world.registry t = (m.world.registry t).schedule kind c)
  /-- A timer was cancelled, or its callback has returned. -/
  | remove (id : Nat) (h : m'.world.registry t = (m.world.registry t).remove id)
  /-- A timer that waits is fired. -/
  | fire {id : Nat} {kind : TimerKind} {c : Callback}
      (hp : (m.world.registry t).pending? id = some (kind, c))
      (h : m'.world.registry t = (m.world.registry t).markFired id)

/-- An answer that is written down changes no registry. -/
lemma registry_execute (m : Machine) (s : Step) (t : TimersId) :
    (m.execute s).world.registry t = (m.world.execute s).1.registry t := by
  rcases execute_cases m s with ⟨w, answer, e, he, hm, -⟩ | ⟨w, frames, he, hm⟩
  · rw [hm, he]
    rfl
  · rw [hm, he]

lemma registry_report (m : Machine) (name : String) (answer : Answer) (t : TimersId) :
    (m.report name answer).world.registry t = m.world.registry t := by
  obtain ⟨e, he, -⟩ := report_eq m name answer
  rw [he]
  rfl

lemma shift_step {s : Step} {m₀ : Machine} (hs : m.world.Sound)
    (hup : m.upcoming? = some (s, m₀)) (t : TimersId) : Shift m (m₀.execute s) t := by
  obtain ⟨-, hworld⟩ := next_of_upcoming hup
  have hregistry := registry_execute m₀ s t
  rw [hworld] at hregistry
  cases World.execute_deed hs s with
  | aside h => exact .same (hregistry.trans (h.registry t))
  | @schedule kind name label delay args body t' hstep ht he =>
    have hlt := hs.knows (World.handle_of_timers ht)
    rw [he, World.registry_schedule hlt] at hregistry
    by_cases htt : t = t'
    · subst htt
      exact .request (.schedule (hstep ▸ hup) ht rfl) (by rw [hregistry, if_pos rfl])
    · exact .same (by rw [hregistry, if_neg htt])
  | @post name data v k worker hstep hk hw hv ht ho he =>
    rw [he, World.registry_schedule (hs.workers k worker hw)] at hregistry
    by_cases htt : t = worker.timers
    · subst htt
      exact .request (.post ⟨name, v, hstep ▸ hup, hk, hw, hv⟩ ht ho rfl rfl)
        (by rw [hregistry, if_pos rfl])
    · exact .same (by rw [hregistry, if_neg htt])
  | @cancel verb name id t' _ ht he =>
    rw [he, World.registry_cancel (hs.knows (World.handle_of_timers ht))] at hregistry
    by_cases htt : t = t'
    · subst htt
      exact .remove id (by rw [hregistry, if_pos rfl])
    · exact .same (by rw [hregistry, if_neg htt])

lemma shift_take {q : QueueId} {n : Nat} {below : List Frame} {task : Microtask} {w : World}
    (hs : m.world.Sound) (hf : m.world.Faithful) (hp : m.world.pop q = some (task, w))
    (h : Started { m with world := w, stack := .drain q (n + 1) :: below } task m')
    (t : TimersId) : Shift m m' t := by
  have hpop := World.registry_pop hp
  cases h with
  | script label body => exact .same (hpop t)
  | skip _ => exact .same (hpop t)
  | @fire t' id kind c w₂ ha hfire =>
    obtain ⟨hpending, hw₂⟩ := World.fire_eq_some_iff.mp hfire
    have hlt := (hf.pop hp).timers_lt_of_find? (Registry.pending?_eq_some_iff.mp hpending)
    have hinvoke := (((hs.pop hp).fire hfire).still_invoke c).registry t
    have hregistry : w₂.registry t =
        if t = t' then (w.registry t').markFired id else w.registry t := by
      rw [hw₂]
      exact World.registry_updateRegistry hlt (·.markFired id) t
    rw [hregistry] at hinvoke
    by_cases htt : t = t'
    · subst htt
      rw [if_pos rfl, hpop] at hinvoke
      refine .fire (by rw [← hpop]; exact hpending) ?_
      rw [world_invoke]
      exact hinvoke
    · rw [if_neg htt, hpop] at hinvoke
      refine .same ?_
      rw [world_invoke]
      exact hinvoke

/-- A move asks a registry for a timer, removes one, fires one, or leaves the registry alone. -/
theorem next_shift {entropy : Entropy} {script : List Step} (h : Reaches (start entropy script) m)
    (hn : m.next = some m') (t : TimersId) : Shift m m' t := by
  have hf := h.consistent.faithful
  cases next_turn hn with
  | step hup hm =>
    rw [hm]
    exact shift_step h.sound hup t
  | leave _ hm =>
    rw [hm]
    exact .same rfl
  | take hstack hp hm =>
    rw [hm]
    exact shift_take h.sound hf hp (started_startTask _ _) t
  | finish _ _ hm =>
    rw [hm]
    exact .same (registry_report _ _ _ _)
  | @settle t' id kind below hstack hm =>
    rw [hm]
    have hrun : (t', id, kind) ∈ m.running := by simp [running, hstack, Frame.timer?]
    obtain ⟨c, hsched, -⟩ := h.consistent.running t' id kind hrun
    have hregistry : (m.world.settle t' id kind).registry t =
        if t = t' then (m.world.registry t').settle id kind else m.world.registry t :=
      World.registry_updateRegistry (hf.timers_lt hsched) (·.settle id kind) t
    by_cases htt : t = t'
    · subst htt
      rw [if_pos rfl] at hregistry
      cases kind with
      | timeout => exact .remove id hregistry
      | interval => exact .same hregistry
    · exact .same (hregistry.trans (if_neg htt))
  | reply _ hm =>
    rw [hm]
    exact .same (registry_report _ _ _ _)

/-! ## Numbers -/

/-- A request is told the next number, which is given out, and the timer waits. -/
lemma Requests.answered {entropy : Entropy} {script : List Step}
    (h : Reaches (start entropy script) m) {m₀ : Machine} {reply : Nat → Answer}
    (hr : m.Requests m₀ t reply) : ∃ m₁ e, m.next = some m₁ ∧
      m₁ = { m₀ with world := m₁.world } ∧ m₁.world.history.getLast? = some e ∧
      e.answer? = some (reply ((scheduledIds t m.world.history).length + 1)) ∧
      scheduledIds t m₁.world.history =
        scheduledIds t m.world.history ++ [(scheduledIds t m.world.history).length + 1] ∧
      m₁.stage t ((scheduledIds t m.world.history).length + 1) = .pending := by
  have hf := h.consistent.faithful
  obtain ⟨s, kind, delay, c, hup, hlt, he⟩ := hr.execute h.sound
  obtain ⟨hn, hworld⟩ := next_of_upcoming hup
  rw [← hworld] at he
  obtain ⟨e, hm, hanswer⟩ := execute_of_done he
  rw [hm] at hn
  have hregistry : ((m₀.world.schedule t kind delay c).2.log e).registry t =
      (m.world.registry t).schedule kind c := by
    rw [hworld]
    exact (World.registry_schedule hlt kind delay c t).trans (if_pos rfl)
  have hids := (h.move hn).consistent.faithful.ids t
  simp only [hregistry] at hids
  rw [hf.length_scheduledIds]
  refine ⟨_, e, hn, rfl, List.getLast?_concat, by rw [hanswer, hworld], ?_, ?_⟩
  · rw [hids, hf.ids, Registry.schedule, List.range'_1_concat, Nat.add_comm 1]
  · rw [stage, hregistry, (hf.bounded t).stage_schedule, if_pos rfl]

/-- Numbers are given out to requests only. -/
lemma Shift.last_eq (h : Shift m m' t) : (∃ m₀ reply, m.Requests m₀ t reply) ∨
    (m'.world.registry t).last = (m.world.registry t).last := by
  cases h with
  | same h => exact Or.inr (by rw [h])
  | request hr _ => exact Or.inl ⟨_, _, hr⟩
  | remove id h => exact Or.inr (by rw [h]; rfl)
  | fire _ h => exact Or.inr (by rw [h]; rfl)

/-! ## Stages -/

/-- Before a session starts, no number has been given out. -/
lemma stage_start (entropy : Entropy) (script : List Step) (t : TimersId) (id : Nat) :
    (start entropy script).stage t id = .unborn := by
  have hregistry : (start entropy script).world.registry t = Registry.empty := rfl
  have hrange : ¬ (1 ≤ id ∧ id ≤ (Registry.empty : Registry Callback).last) := fun hid =>
    Nat.not_succ_le_zero 0 (hid.1.trans hid.2)
  rw [stage, hregistry, Registry.stage_of_none rfl, if_neg hrange]

/-- A move leaves a timer in its stage or takes it to the next. -/
lemma Shift.advance (h : Shift m m' t) (hb : (m.world.registry t).Bounded) (id : Nat) :
    m'.stage t id = m.stage t id ∨ (m.stage t id).Advance (m'.stage t id) := by
  simp only [stage]
  cases h with
  | same h =>
    rw [h]
    exact Or.inl rfl
  | request _ h =>
    rw [h]
    exact hb.advance_schedule _ _ id
  | remove id' h =>
    rw [h]
    exact hb.advance_remove id' id
  | fire hp h =>
    rw [h]
    exact Registry.advance_markFired hp id

/-- In a session, what is gone stays gone, and what has fired stays so until it goes. -/
lemma Reaches.stage_forward {entropy : Entropy} {script : List Step}
    (h : Reaches (start entropy script) m) (t : TimersId) (id : Nat) (h' : Reaches m m') :
    (m.stage t id = .gone → m'.stage t id = .gone) ∧
      (m.stage t id = .fired → m'.stage t id = .fired ∨ m'.stage t id = .gone) := by
  induction h' with
  | refl => exact ⟨fun hg => hg, Or.inl⟩
  | @move m₁ m₂ h₁ hn ih =>
    have hr := h.trans h₁
    have hstep := (next_shift hr hn t).advance (hr.consistent.faithful.bounded t) id
    have hgone : m₁.stage t id = .gone → m₂.stage t id = .gone := by
      intro hg
      rcases hstep with hsame | hadv
      · exact hsame.trans hg
      · exact absurd hg hadv.ne_gone
    refine ⟨fun hg => hgone (ih.1 hg), fun hfired => ?_⟩
    rcases ih.2 hfired with hf₁ | hg₁
    · rcases hstep with hsame | hadv
      · exact Or.inl (hsame.trans hf₁)
      · rw [hf₁] at hadv
        exact Or.inr hadv.eq_gone
    · exact Or.inr (hgone hg₁)

end Machine

/-! ## Inside a callback -/

namespace World

/-- No change of a world says that a callback has returned. -/
lemma Change.settled_mem {w w' : World} (h : Change w w') {t : TimersId} {id : Nat}
    (hs : .settled t id ∈ w'.history) : .settled t id ∈ w.history := by
  have hold : ∀ es, w'.history = w.history ++ es → .settled t id ∉ es →
      .settled t id ∈ w.history := by
    intro es hes hne
    rw [hes, List.mem_append] at hs
    exact hs.resolve_right hne
  cases h.timerChange with
  | still h _ =>
    refine hold _ h.history fun hmem => ?_
    cases h.idle _ hmem
  | schedule t' kind delay c _ _ =>
    obtain ⟨n₁, n₂, hh⟩ := history_schedule w t' kind delay c
    exact hold _ hh (by simp)
  | cancel t' id' _ =>
    obtain ⟨es, hh, hidle, -⟩ := history_cancel w t' id'
    refine hold _ hh fun hmem => ?_
    rcases List.mem_cons.mp hmem with heq | hmem'
    · cases heq
    · cases hidle _ hmem'
  | enqueue q label body _ => exact hold _ rfl (by simp)
  | start q label body hp => exact hold _ (history_pop hp) (by simp)

lemma Changes.settled_mem {w w' : World} (h : Changes w w') {t : TimersId} {id : Nat}
    (hs : .settled t id ∈ w'.history) : .settled t id ∈ w.history := by
  induction h with
  | refl => exact hs
  | tail _ h ih => exact ih (h.settled_mem hs)

end World

namespace Machine

variable {m m' : Machine} {t : TimersId}

/-- The timers whose callbacks are running are all different, and none of them has returned. -/
structure Unsettled (m : Machine) : Prop where
  nodup : (m.running.map fun call => (call.1, call.2.1)).Nodup
  settled : ∀ t id kind, (t, id, kind) ∈ m.running → .settled t id ∉ m.world.history

lemma Unsettled.of_same (h : m.Unsettled) (hr : m'.running = m.running)
    (hs : ∀ t id, .settled t id ∈ m'.world.history → .settled t id ∈ m.world.history) :
    m'.Unsettled where
  nodup := hr ▸ h.nodup
  settled := fun t id kind hmem hset => h.settled t id kind (hr ▸ hmem) (hs t id hset)

lemma Move.unsettled (h : Move m m') (hs : m.world.Sound) (hc : m.Consistent)
    (hu : m.Unsettled) : m'.Unsettled := by
  cases h with
  | work hw hr => exact hu.of_same hr fun t id hset => hw.settled_mem hset
  | skip hstack hp _ hm =>
    refine hu.of_same (running_skip hstack hm) fun t id hset => ?_
    simpa [World.history_pop hp] using hset
  | @fire q t id n below kind c w₁ w₂ hstack hp _ hf hm =>
    -- the task of the timer was still queued, so the timer has not fired before
    have hqueued : .fire t id ∈ m.world.tasks q := by simp [World.tasks_pop hp]
    have hnew := hc.faithful.not_fired_of_queued hqueued
    have hrun := running_fire hstack hm
    have hold : ∀ t' id', .settled t' id' ∈ m'.world.history →
        .settled t' id' ∈ m.world.history := by
      intro t' id' hset
      rw [history_fire hs hp hf hm, List.mem_append] at hset
      refine hset.resolve_right fun hmem => ?_
      simp only [List.mem_cons, reduceCtorEq, false_or] at hmem
      cases World.idle_of_mem_letters hmem
    constructor
    · rw [hrun, List.map_cons, List.nodup_cons]
      refine ⟨fun hmem => ?_, hu.nodup⟩
      obtain ⟨⟨t', id', kind'⟩, hmem', heq⟩ := List.mem_map.mp hmem
      cases heq
      obtain ⟨c', -, hfired⟩ := hc.running t id kind' hmem'
      exact hnew c' hfired
    · intro t' id' kind' hmem hset
      have hset' := hold t' id' hset
      rw [hrun] at hmem
      rcases List.mem_cons.mp hmem with heq | hmem'
      · cases heq
        obtain ⟨c', hfired⟩ := hc.faithful.settled t id hset'
        exact hnew c' hfired
      · exact hu.settled t' id' kind' hmem' hset'
  | @settle t id kind hr hw =>
    have hnodup := hu.nodup
    rw [hr, List.map_cons, List.nodup_cons] at hnodup
    refine ⟨hnodup.2, fun t' id' kind' hmem hset => ?_⟩
    rw [history_settle hw, List.mem_append, List.mem_singleton] at hset
    rcases hset with hold | hnew
    · exact hu.settled t' id' kind' (hr ▸ List.mem_cons_of_mem _ hmem) hold
    · cases hnew
      exact hnodup.1 (List.mem_map_of_mem (f := fun call => (call.1, call.2.1)) hmem)

lemma Reaches.unsettled {entropy : Entropy} {script : List Step}
    (h : Reaches (start entropy script) m) : m.Unsettled := by
  refine h.invariant (P := Unsettled) ⟨List.nodup_nil, fun _ _ _ hmem => by cases hmem⟩ ?_
  exact fun _ _ hr hm hu => hm.unsettled hr.sound hr.consistent hu

/-- While the callback of a timer runs, the timer has fired until it is cancelled, and is gone after
that. -/
lemma Reaches.stage_of_running {entropy : Entropy} {script : List Step}
    (h : Reaches (start entropy script) m) {id : Nat} {kind : TimerKind} {c : Callback}
    {a b : List Event} (hr : (t, id, kind) ∈ m.running)
    (heq : m.world.history = a ++ .fired t id c :: b) :
    (.cancelled t id ∉ b → m.stage t id = .fired) ∧
      (.cancelled t id ∈ b → m.stage t id = .gone) := by
  have hf := h.consistent.faithful
  have hset := h.unsettled.settled t id kind hr
  have hd := hf.scheduledIds_nodup t
  have hentry := hf.entries t id
  have hw := hf.waiting
  rw [heq] at hset hd hentry hw
  obtain ⟨kind', hs, hb, hl⟩ := life_after_fired hd hw
  rw [hl] at hentry
  constructor
  · intro hc
    rw [foldl_lifeStep_fired hb hc fun _ hmem => hset (by simp [hmem])] at hentry
    exact Registry.stage_of_fired hentry
  · intro hc
    rw [foldl_lifeStep_cancelled hb hc] at hentry
    exact hf.stage_gone (by rw [heq]; exact List.mem_append_left _ hs) hentry

/-- A timeout is gone when its callback has returned. -/
lemma Reaches.stage_of_return {entropy : Entropy} {script : List Step}
    (h : Reaches (start entropy script) m) {id : Nat} {below : List Frame} {m₁ : Machine}
    (hs : m.stack = .settle t id .timeout :: below) (hn : m.next = some m₁) :
    m₁.stage t id = .gone := by
  have hrun : (t, id, .timeout) ∈ m.running := by simp [running, hs, Frame.timer?]
  obtain ⟨c, hsched, -⟩ := h.consistent.running t id .timeout hrun
  have hf := h.consistent.faithful
  obtain rfl := Option.some.inj ((next_of_settle hs).symm.trans hn)
  refine (h.move hn).consistent.faithful.stage_gone
    ((Reaches.grows h (Reaches.refl.move hn)).history.subset hsched) ?_
  have hregistry : (m.world.settle t id .timeout).registry t = (m.world.registry t).remove id := by
    have hupdate := World.registry_updateRegistry (hf.timers_lt hsched) (·.settle id .timeout) t
    rw [if_pos rfl] at hupdate
    exact hupdate
  simp only [hregistry, Registry.find?_remove, if_pos]

/-- Whoever asks for the state of a timer is told its stage, and nothing else happens. -/
lemma next_of_query_state {m₀ : Machine} {name : String} {id : Nat}
    (hup : m.upcoming? = some (.query (.state name id), m₀)) (ht : m.world.timers? name = some t) :
    ∃ e, m.next = some { m₀ with world := m.world.log e } ∧
      e.answer? = some (Answer.data (m.stage t id).datum) := by
  refine next_of_execute_eq hup ?_
  simp only [World.execute, World.atOnce, World.query_state ht]
  rfl

/-- The law of numbers and stages, at every point of every session.  A registry has given out the
numbers from one up; whoever asks for a timer, by any handle or by a message that is accepted, gets
the next one, and nothing else takes a number.  Each number goes forward through its stages, move by
move: what has fired does not wait again, and what is gone stays gone.  To ask for the state of a
timer tells its stage.  While the callback of a timer runs, the timer has fired, until it is
cancelled; once the callback of a timeout has returned, the timeout is gone for good. -/
theorem timers_numbered_and_live_once {entropy : Entropy} {script : List Step}
    (h : Reaches (start entropy script) m) (t : TimersId) (id : Nat) :
    scheduledIds t m.world.history = List.range' 1 (scheduledIds t m.world.history).length ∧
    (∀ m₀ reply, m.Requests m₀ t reply → ∃ m₁ e, m.next = some m₁ ∧
      m₁ = { m₀ with world := m₁.world } ∧ m₁.world.history.getLast? = some e ∧
      e.answer? = some (reply ((scheduledIds t m.world.history).length + 1)) ∧
      scheduledIds t m₁.world.history =
        scheduledIds t m.world.history ++ [(scheduledIds t m.world.history).length + 1] ∧
      m₁.stage t ((scheduledIds t m.world.history).length + 1) = .pending) ∧
    (∀ m', m.next = some m' → (∃ m₀ reply, m.Requests m₀ t reply) ∨
      scheduledIds t m'.world.history = scheduledIds t m.world.history) ∧
    (start entropy script).stage t id = .unborn ∧
    (∀ m', m.next = some m' →
      m'.stage t id = m.stage t id ∨ (m.stage t id).Advance (m'.stage t id)) ∧
    (∀ m', Reaches m m' → (m.stage t id = .gone → m'.stage t id = .gone) ∧
      (m.stage t id = .fired → m'.stage t id = .fired ∨ m'.stage t id = .gone)) ∧
    (∀ m₀ name, m.upcoming? = some (.query (.state name id), m₀) → m.world.timers? name = some t →
      ∃ e, m.next = some { m₀ with world := m.world.log e } ∧
        e.answer? = some (Answer.data (m.stage t id).datum)) ∧
    (∀ kind, (t, id, kind) ∈ m.running →
      ∃ a c b, m.world.history = a ++ .fired t id c :: b ∧
        (.cancelled t id ∉ b → m.stage t id = .fired) ∧
        (.cancelled t id ∈ b → m.stage t id = .gone)) ∧
    ∀ below m₁, m.stack = .settle t id .timeout :: below → m.next = some m₁ →
      ∀ m', Reaches m₁ m' → m'.stage t id = .gone := by
  have hf := h.consistent.faithful
  refine ⟨?_, fun m₀ reply hr => hr.answered h, fun m' hn => ?_,
    stage_start entropy script t id,
    fun m' hn => (next_shift h hn t).advance (hf.bounded t) id,
    fun m' h' => h.stage_forward t id h', fun m₀ name hup ht => next_of_query_state hup ht,
    fun kind hr => ?_, fun below m₁ hs hn m' h' => ?_⟩
  · rw [hf.length_scheduledIds]
    exact hf.ids t
  · refine (next_shift h hn t).last_eq.imp_right fun hlast => ?_
    rw [(h.move hn).consistent.faithful.ids, hf.ids, hlast]
  · obtain ⟨c, -, hfired⟩ := h.consistent.running t id kind hr
    obtain ⟨a, b, heq⟩ := List.append_of_mem hfired
    exact ⟨a, c, b, heq, h.stage_of_running hr heq⟩
  · exact ((h.move hn).stage_forward t id h').1 (h.stage_of_return hs hn)

/-- A session whose first callback asks for its own state, schedules an interval by another handle
of the registry and drains the queue; the interval cancels itself.  A message takes the number in
between. -/
def livingScript : List Step :=
  [.newQueue "q", .newTimers "t" "q", .clone "t" "u", .newWorker "w" 7 "worker.js" "t",
    .messageHandler "h" [] 1, .setSlot .message "w" (some "h"),
    .schedule .timeout "t" "first" 5 none [
      .query (.state "u" 1),
      .schedule .interval "u" "third" 0 (some [.nat 1]) [
        .cancel .cancel "t" 3, .query (.state "t" 3)],
      .run "q"],
    .post "w" (.text "second"),
    .run "q"]

/-- In that session the message takes the second number and the interval the third; the first timer
has fired inside its callback and is gone after it, and the interval is gone once it has cancelled
itself. -/
theorem timers_numbered_and_live_once_in_callbacks :
    let m (n : Nat) : Machine := (start ⟨fun _ => 0, 0⟩ livingScript).after n
    (∃ m₁ e, (m 7).next = some m₁ ∧ m₁.world.history.getLast? = some e ∧
      e.answer? = some Answer.done ∧ scheduledIds 0 m₁.world.history = [1, 2]) ∧
    (∃ m₁ e, (m 11).next = some m₁ ∧ m₁.world.history.getLast? = some e ∧
      e.answer? = some (Answer.data (.nat 3)) ∧ scheduledIds 0 m₁.world.history = [1, 2, 3] ∧
      m₁.stage 0 3 = .pending) ∧
    (m 10).stage 0 1 = .fired ∧
    (∃ (m₂ : Machine) (e : Event), (m 18).next = some { m₂ with world := (m 18).world.log e } ∧
      e.answer? = some (Answer.data .null)) ∧
    ∀ m', Reaches (m 24) m' → m'.stage 0 1 = .gone := by
  intro m
  have hreach (n : Nat) : Reaches (start ⟨fun _ => 0, 0⟩ livingScript) (m n) := reaches_after _ n
  obtain ⟨-, hpost, -⟩ := timers_numbered_and_live_once (hreach 7) 0 2
  obtain ⟨-, hschedule, -⟩ := timers_numbered_and_live_once (hreach 11) 0 3
  obtain ⟨-, -, -, -, -, -, -, hrunning, -⟩ := timers_numbered_and_live_once (hreach 10) 0 1
  obtain ⟨-, -, -, -, -, -, hquery, -⟩ := timers_numbered_and_live_once (hreach 18) 0 3
  obtain ⟨-, -, -, -, -, -, -, -, hreturn⟩ := timers_numbered_and_live_once (hreach 23) 0 1
  have hposts : (m 7).Posts { m 7 with script := livingScript.drop 8 } 0
      ((Worker.new 7 "worker.js" 0).setSlot .message (some 0)) "second" :=
    ⟨"w", .text "second", rfl, rfl, rfl, rfl⟩
  obtain ⟨m₈, e₈, hn₈, -, hlast₈, hanswer₈, hids₈, -⟩ := hpost _ _ (.post hposts rfl rfl rfl rfl)
  obtain ⟨m₁₂, e₁₂, hn₁₂, -, hlast₁₂, hanswer₁₂, hids₁₂, hpending⟩ :=
    hschedule _ _ (.schedule rfl rfl rfl)
  have hcancel : .cancelled 0 1 ∉ (m 10).world.history := by
    have hall : ((m 10).world.history.all fun e => e.timer? != some (0, 1) ||
        e.scheduled?.isSome || e.fired?.isSome) = true := rfl
    exact fun hmem => absurd (List.all_eq_true.mp hall _ hmem) (by decide)
  obtain ⟨a, c, b, heq, hfired, -⟩ := hrunning .timeout List.mem_cons_self
  refine ⟨⟨m₈, e₈, hn₈, hlast₈, hanswer₈, hids₈⟩,
    ⟨m₁₂, e₁₂, hn₁₂, hlast₁₂, hanswer₁₂, hids₁₂, hpending⟩,
    hfired fun hmem => hcancel (by simp [heq, hmem]), ⟨_, hquery _ "t" rfl rfl⟩,
    hreturn _ (m 24) rfl rfl⟩

end Machine

end Session

end Polyfill
