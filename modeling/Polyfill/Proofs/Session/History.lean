import Mathlib.Data.List.Induction
import Mathlib.Data.List.Nodup
import Polyfill.Proofs.Session.Change
/-!
# What a history tells

A history alone tells which tasks were queued and started, which timers were scheduled and fired,
and what became of each timer.  Nothing here knows of worlds: these are functions and facts about
lists of events.

`life t id h` is the entry that a timer has in its registry after the events of `h`.  Two facts
about it carry the laws of timers: a timer waits if it has not been cancelled since it was
scheduled and nothing has fired it (`life_pending_iff`), and an interval that has fired stays until
it is cancelled (`life_interval_iff`).
-/

namespace Polyfill.Session

/-- A callback together with the timer it belongs to. -/
structure TimerCall where
  timers : TimersId
  id : Nat
  callback : Callback

/-- The timer of a callback. -/
def TimerCall.timer (c : TimerCall) : TimersId × Nat :=
  (c.timers, c.id)

/-- The timer that a task is to fire. -/
def Microtask.timer? : Microtask → Option (TimersId × Nat)
  | .fire t id => some (t, id)
  | .script _ _ => none

namespace Event

/-- The task that an event puts into a queue. -/
def enqueued? (q : QueueId) : Event → Option Microtask
  | .enqueued q' task => if q' = q then some task else none
  | _ => none

/-- The task of a queue that starts with an event. -/
def started? (q : QueueId) : Event → Option Microtask
  | .started q' task => if q' = q then some task else none
  | _ => none

/-- The callback that an event schedules. -/
def scheduled? : Event → Option TimerCall
  | .scheduled t id _ c => some ⟨t, id, c⟩
  | _ => none

/-- The callback that is invoked with an event. -/
def fired? : Event → Option TimerCall
  | .fired t id c => some ⟨t, id, c⟩
  | _ => none

/-- Whether an event moves no task and touches no timer. -/
def idle : Event → Bool
  | .note _ | .drained _ _ | .message _ _ _ _ _ | .failure _ _ _ _ | .stepped _ _
  | .answered _ _ => true
  | _ => false

/-- The timer that an event is about. -/
def timer? : Event → Option (TimersId × Nat)
  | .scheduled t id _ _ | .cancelled t id | .fired t id _ | .settled t id => some (t, id)
  | _ => none

/-- The worker and the message of an event that delivers a message by a timer.  Such messages have
an empty origin. -/
def letter? : Event → Option (WorkerId × String)
  | .message k _ _ data origin => if origin = "" then some (k, data) else none
  | _ => none

end Event

/-- The tasks put into a queue, in order. -/
def enqueuedOn (q : QueueId) (h : List Event) : List Microtask :=
  h.filterMap (Event.enqueued? q)

/-- The tasks of a queue that were started, in order. -/
def startedOn (q : QueueId) (h : List Event) : List Microtask :=
  h.filterMap (Event.started? q)

/-- The callbacks that were scheduled, in order. -/
def schedulings (h : List Event) : List TimerCall :=
  h.filterMap Event.scheduled?

/-- The callbacks that were invoked, in order. -/
def firings (h : List Event) : List TimerCall :=
  h.filterMap Event.fired?

/-- The timers that some tasks are to fire. -/
def timersIn (tasks : List Microtask) : List (TimersId × Nat) :=
  tasks.filterMap Microtask.timer?

/-- The numbers of those timers that belong to one registry. -/
def idsOf (t : TimersId) (timers : List (TimersId × Nat)) : List Nat :=
  timers.filterMap fun timer => if timer.1 = t then some timer.2 else none

/-- What an event does to the entry of a timer. -/
def lifeStep (t : TimersId) (id : Nat) (entry : Option (Timer Callback)) :
    Event → Option (Timer Callback)
  | .scheduled t' id' kind c => if t' = t ∧ id' = id then some ⟨kind, .pending c⟩ else entry
  | .cancelled t' id' => if t' = t ∧ id' = id then none else entry
  | .fired t' id' _ => if t' = t ∧ id' = id then entry.map Timer.fire else entry
  | .settled t' id' => if t' = t ∧ id' = id then entry.filter (·.kind == .interval) else entry
  | _ => entry

/-- The entry of a timer after some events. -/
def life (t : TimersId) (id : Nat) (h : List Event) : Option (Timer Callback) :=
  h.foldl (lifeStep t id) none

/-- A timer was scheduled, and not cancelled since. -/
def Uncancelled (t : TimersId) (id : Nat) (h : List Event) : Prop :=
  ∃ a kind c b, h = a ++ .scheduled t id kind c :: b ∧ .cancelled t id ∉ b

/-- An interval has fired, and was not cancelled since. -/
def FiredInterval (t : TimersId) (id : Nat) (h : List Event) : Prop :=
  ∃ a c b, h = a ++ .fired t id c :: b ∧ .scheduled t id .interval c ∈ a ∧ .cancelled t id ∉ b

/-- Callbacks are only invoked while they wait. -/
def FiresWaiting (h : List Event) : Prop :=
  ∀ a t id c b, h = a ++ .fired t id c :: b → ∃ kind, life t id a = some ⟨kind, .pending c⟩

/-! ## Adding events -/

/-- What a selection takes from a list with one more member in front. -/
lemma filterMap_cons_toList {α β : Type} (f : α → Option β) (a : α) (l : List α) :
    (a :: l).filterMap f = (f a).toList ++ l.filterMap f := by
  cases h : f a <;> simp [h]

section Append

variable (q : QueueId) (t : TimersId) (id : Nat) (e : Event) (h h' : List Event)

@[simp] lemma enqueuedOn_nil : enqueuedOn q [] = [] := rfl

@[simp] lemma enqueuedOn_cons : enqueuedOn q (e :: h) = (e.enqueued? q).toList ++ enqueuedOn q h :=
  filterMap_cons_toList _ _ _

@[simp] lemma enqueuedOn_append : enqueuedOn q (h ++ h') = enqueuedOn q h ++ enqueuedOn q h' :=
  List.filterMap_append

@[simp] lemma startedOn_nil : startedOn q [] = [] := rfl

@[simp] lemma startedOn_cons : startedOn q (e :: h) = (e.started? q).toList ++ startedOn q h :=
  filterMap_cons_toList _ _ _

@[simp] lemma startedOn_append : startedOn q (h ++ h') = startedOn q h ++ startedOn q h' :=
  List.filterMap_append

@[simp] lemma schedulings_nil : schedulings [] = [] := rfl

@[simp] lemma schedulings_cons : schedulings (e :: h) = e.scheduled?.toList ++ schedulings h :=
  filterMap_cons_toList _ _ _

@[simp] lemma schedulings_append : schedulings (h ++ h') = schedulings h ++ schedulings h' :=
  List.filterMap_append

@[simp] lemma firings_nil : firings [] = [] := rfl

@[simp] lemma firings_cons : firings (e :: h) = e.fired?.toList ++ firings h :=
  filterMap_cons_toList _ _ _

@[simp] lemma firings_append : firings (h ++ h') = firings h ++ firings h' :=
  List.filterMap_append

@[simp] lemma timersIn_nil : timersIn [] = [] := rfl

@[simp] lemma timersIn_cons (task : Microtask) (l : List Microtask) :
    timersIn (task :: l) = task.timer?.toList ++ timersIn l :=
  filterMap_cons_toList _ _ _

@[simp] lemma timersIn_append (l l' : List Microtask) :
    timersIn (l ++ l') = timersIn l ++ timersIn l' :=
  List.filterMap_append

@[simp] lemma idsOf_nil : idsOf t [] = [] := rfl

@[simp] lemma idsOf_cons (timer : TimersId × Nat) (l : List (TimersId × Nat)) :
    idsOf t (timer :: l) = (if timer.1 = t then [timer.2] else []) ++ idsOf t l := by
  rw [idsOf, filterMap_cons_toList]
  split <;> rfl

@[simp] lemma idsOf_append (l l' : List (TimersId × Nat)) :
    idsOf t (l ++ l') = idsOf t l ++ idsOf t l' :=
  List.filterMap_append

@[simp] lemma life_append : life t id (h ++ h') = h'.foldl (lifeStep t id) (life t id h) :=
  List.foldl_append

end Append

/-! ## Events that do not matter -/

lemma Event.idle_of_isRemark {e : Event} (he : e.isRemark = true) : e.idle = true := by
  cases e <;> simp_all [isRemark, idle]

lemma Event.letter?_of_isRemark {e : Event} (he : e.isRemark = true) : e.letter? = none := by
  cases e <;> simp_all [isRemark, letter?]

/-- A selection of events about tasks and timers takes nothing from events that are not. -/
lemma filterMap_of_idle {β : Type} {f : Event → Option β} {h : List Event}
    (hf : ∀ e : Event, e.idle = true → f e = none) (hh : ∀ e ∈ h, e.idle = true) :
    h.filterMap f = [] :=
  List.filterMap_eq_nil_iff.mpr fun e he => hf e (hh e he)

lemma enqueuedOn_of_idle {h : List Event} (hh : ∀ e ∈ h, e.idle = true) (q : QueueId) :
    enqueuedOn q h = [] :=
  filterMap_of_idle (fun e he => by cases e <;> simp_all [Event.idle, Event.enqueued?]) hh

lemma startedOn_of_idle {h : List Event} (hh : ∀ e ∈ h, e.idle = true) (q : QueueId) :
    startedOn q h = [] :=
  filterMap_of_idle (fun e he => by cases e <;> simp_all [Event.idle, Event.started?]) hh

lemma schedulings_of_idle {h : List Event} (hh : ∀ e ∈ h, e.idle = true) : schedulings h = [] :=
  filterMap_of_idle (fun e he => by cases e <;> simp_all [Event.idle, Event.scheduled?]) hh

lemma firings_of_idle {h : List Event} (hh : ∀ e ∈ h, e.idle = true) : firings h = [] :=
  filterMap_of_idle (fun e he => by cases e <;> simp_all [Event.idle, Event.fired?]) hh

lemma timer?_of_idle {e : Event} (he : e.idle = true) : e.timer? = none := by
  cases e <;> simp_all [Event.idle, Event.timer?]

/-- An event about a timer schedules it, cancels it, invokes its callback or lets it go. -/
lemma Event.cases_of_timer? {e : Event} {t : TimersId} {id : Nat} (he : e.timer? = some (t, id)) :
    (∃ kind c, e = .scheduled t id kind c) ∨ e = .cancelled t id ∨ (∃ c, e = .fired t id c) ∨
      e = .settled t id := by
  cases e <;> simp_all [timer?]

section Entry

variable (t : TimersId) (id : Nat) (entry : Option (Timer Callback)) (kind : TimerKind)
  (c : Callback)

@[simp] lemma lifeStep_scheduled :
    lifeStep t id entry (.scheduled t id kind c) = some ⟨kind, .pending c⟩ := by
  simp [lifeStep]

@[simp] lemma lifeStep_cancelled : lifeStep t id entry (.cancelled t id) = none := by
  simp [lifeStep]

@[simp] lemma lifeStep_fired : lifeStep t id entry (.fired t id c) = entry.map Timer.fire := by
  simp [lifeStep]

@[simp] lemma lifeStep_settled :
    lifeStep t id entry (.settled t id) = entry.filter (·.kind == .interval) := by
  simp [lifeStep]

end Entry

/-- Events about other timers do not touch an entry. -/
lemma lifeStep_of_ne {e : Event} {t : TimersId} {id : Nat} (he : e.timer? ≠ some (t, id))
    (entry : Option (Timer Callback)) : lifeStep t id entry e = entry := by
  cases e <;> simp_all [lifeStep, Event.timer?]

lemma life_append_of_ne {t : TimersId} {id : Nat} (h : List Event) {h' : List Event}
    (hh : ∀ e ∈ h', e.timer? ≠ some (t, id)) : life t id (h ++ h') = life t id h := by
  rw [life_append]
  induction h' generalizing h with
  | nil => rfl
  | cons e h' ih =>
    rw [List.foldl_cons, lifeStep_of_ne (hh e List.mem_cons_self)]
    exact ih h fun e' he' => hh e' (List.mem_cons_of_mem e he')

lemma life_concat (t : TimersId) (id : Nat) (h : List Event) (e : Event) :
    life t id (h ++ [e]) = lifeStep t id (life t id h) e := by
  rw [life_append]
  rfl

/-- A place in a list that has grown by one member is a place in the list before or its end. -/
lemma split_concat {α : Type} {h a b : List α} {e e' : α} (heq : h ++ [e] = a ++ e' :: b) :
    (a = h ∧ e' = e ∧ b = []) ∨ ∃ b', b = b' ++ [e] ∧ h = a ++ e' :: b' := by
  rcases List.eq_nil_or_concat b with rfl | ⟨b', x, rfl⟩
  · obtain ⟨rfl, hx⟩ := List.append_inj' heq rfl
    exact Or.inl ⟨rfl, (List.cons.inj hx).1.symm, rfl⟩
  · have heq' : h ++ [e] = (a ++ e' :: b') ++ [x] := by simpa using heq
    obtain ⟨rfl, hx⟩ := List.append_inj' heq' rfl
    obtain rfl := (List.cons.inj hx).1
    exact Or.inr ⟨b', by simp, rfl⟩

lemma FiresWaiting.concat {h : List Event} (hf : FiresWaiting h) {e : Event}
    (he : ∀ t id c, e = .fired t id c → ∃ kind, life t id h = some ⟨kind, .pending c⟩) :
    FiresWaiting (h ++ [e]) := by
  intro a t id c b heq
  rcases split_concat heq with ⟨rfl, heq', -⟩ | ⟨b', -, heq'⟩
  · exact he t id c heq'.symm
  · exact hf a t id c b' heq'

lemma FiresWaiting.append {h h' : List Event} (hf : FiresWaiting h) (hh : firings h' = []) :
    FiresWaiting (h ++ h') := by
  induction h' using List.reverseRecOn with
  | nil => simpa using hf
  | append_singleton l e ih =>
    rw [firings_append, List.append_eq_nil_iff] at hh
    rw [← List.append_assoc]
    refine (ih hh.1).concat fun t id c heq => ?_
    rw [heq] at hh
    cases hh.2

/-! ## Computing whether a timer was cancelled -/

/-- What an event does to the standing of a timer: it is scheduled, or cancelled. -/
def standingStep (t : TimersId) (id : Nat) (standing : Bool) : Event → Bool
  | .scheduled t' id' _ _ => if t' = t ∧ id' = id then true else standing
  | .cancelled t' id' => if t' = t ∧ id' = id then false else standing
  | _ => standing

/-- Whether the last that was done to a timer was to schedule it and not to cancel it. -/
def standing (t : TimersId) (id : Nat) (h : List Event) : Bool :=
  h.foldl (standingStep t id) false

lemma standing_iff {t : TimersId} {id : Nat} {h : List Event} :
    standing t id h = true ↔ Uncancelled t id h := by
  induction h using List.reverseRecOn with
  | nil =>
    refine ⟨fun hs => absurd hs Bool.false_ne_true, ?_⟩
    rintro ⟨a, kind, c, b, heq, -⟩
    exact absurd heq.symm (List.append_ne_nil_of_right_ne_nil _ (List.cons_ne_nil _ _))
  | append_singleton h e ih =>
    rw [standing, List.foldl_append, List.foldl_cons, List.foldl_nil, ← standing]
    -- any other event leaves both sides as they were
    have hother : (∀ kind c, e ≠ .scheduled t id kind c) → e ≠ .cancelled t id →
        (Uncancelled t id (h ++ [e]) ↔ Uncancelled t id h) := by
      intro hs hc
      constructor
      · rintro ⟨a, kind, c, b, heq, hcan⟩
        rcases split_concat heq with ⟨-, heq', -⟩ | ⟨b', rfl, rfl⟩
        · exact absurd heq'.symm (hs kind c)
        · exact ⟨a, kind, c, b', rfl, fun hmem => hcan (List.mem_append_left _ hmem)⟩
      · rintro ⟨a, kind, c, b, rfl, hcan⟩
        refine ⟨a, kind, c, b ++ [e], by simp, fun hmem => ?_⟩
        rcases List.mem_append.mp hmem with hold | hnew
        · exact hcan hold
        · exact hc (List.mem_singleton.mp hnew).symm
    cases e with
    | scheduled t' id' kind c =>
      by_cases htimer : t' = t ∧ id' = id
      · obtain ⟨rfl, rfl⟩ := htimer
        rw [standingStep, if_pos ⟨rfl, rfl⟩]
        exact ⟨fun _ => ⟨h, kind, c, [], rfl, List.not_mem_nil⟩, fun _ => rfl⟩
      · rw [standingStep, if_neg htimer, ih, hother _ (by simp)]
        rintro kind' c' heq
        cases heq
        exact htimer ⟨rfl, rfl⟩
    | cancelled t' id' =>
      by_cases htimer : t' = t ∧ id' = id
      · obtain ⟨rfl, rfl⟩ := htimer
        rw [standingStep, if_pos ⟨rfl, rfl⟩]
        refine ⟨fun hs => absurd hs Bool.false_ne_true, ?_⟩
        rintro ⟨a, kind, c, b, heq, hcan⟩
        rcases split_concat heq with ⟨-, heq', -⟩ | ⟨b', rfl, -⟩
        · cases heq'
        · exact absurd (by simp) hcan
      · rw [standingStep, if_neg htimer, ih, hother (by simp)]
        rintro heq
        cases heq
        exact htimer ⟨rfl, rfl⟩
    | _ =>
      rw [standingStep, ih]
      · exact (hother (by simp) (by simp)).symm
      all_goals simp

instance (t : TimersId) (id : Nat) (h : List Event) : Decidable (Uncancelled t id h) :=
  decidable_of_iff _ standing_iff

/-! ## Which timers were scheduled -/

/-- The numbers given out by a registry, in order. -/
def scheduledIds (t : TimersId) (h : List Event) : List Nat :=
  idsOf t ((schedulings h).map TimerCall.timer)

@[simp] lemma scheduledIds_append (t : TimersId) (h h' : List Event) :
    scheduledIds t (h ++ h') = scheduledIds t h ++ scheduledIds t h' := by
  simp [scheduledIds]

lemma mem_idsOf {t : TimersId} {id : Nat} {l : List (TimersId × Nat)} :
    id ∈ idsOf t l ↔ (t, id) ∈ l := by
  simp only [idsOf, List.mem_filterMap]
  constructor
  · rintro ⟨⟨t', id'⟩, hmem, heq⟩
    split at heq
    · rename_i ht
      obtain rfl := Option.some.inj heq
      obtain rfl : t' = t := ht
      exact hmem
    · cases heq
  · exact fun hmem => ⟨(t, id), hmem, if_pos rfl⟩

lemma mem_timersIn {t : TimersId} {id : Nat} {l : List Microtask} :
    (t, id) ∈ timersIn l ↔ .fire t id ∈ l := by
  simp only [timersIn, List.mem_filterMap]
  constructor
  · rintro ⟨task, hmem, heq⟩
    cases task <;> cases heq
    exact hmem
  · exact fun hmem => ⟨_, hmem, rfl⟩

/-- Timers are told apart by their registry and their number in it. -/
lemma nodup_of_idsOf {l : List (TimersId × Nat)} (h : ∀ t, (idsOf t l).Nodup) : l.Nodup := by
  induction l with
  | nil => exact List.nodup_nil
  | cons timer l ih =>
    have hl : ∀ t, (idsOf t l).Nodup := by
      intro t
      have ht := h t
      rw [idsOf_cons] at ht
      exact (List.nodup_append.mp ht).2.1
    refine List.nodup_cons.mpr ⟨fun hmem => ?_, ih hl⟩
    have ht := h timer.1
    rw [idsOf_cons, if_pos rfl] at ht
    exact (List.nodup_cons.mp ht).1 (mem_idsOf.mpr hmem)

lemma mem_schedulings {t : TimersId} {id : Nat} {c : Callback} {h : List Event} :
    ⟨t, id, c⟩ ∈ schedulings h ↔ ∃ kind, .scheduled t id kind c ∈ h := by
  simp only [schedulings, List.mem_filterMap]
  constructor
  · rintro ⟨e, hmem, heq⟩
    cases e <;> cases heq
    exact ⟨_, hmem⟩
  · rintro ⟨kind, hmem⟩
    exact ⟨_, hmem, rfl⟩

lemma mem_firings {t : TimersId} {id : Nat} {c : Callback} {h : List Event} :
    ⟨t, id, c⟩ ∈ firings h ↔ .fired t id c ∈ h := by
  simp only [firings, List.mem_filterMap]
  constructor
  · rintro ⟨e, hmem, heq⟩
    cases e <;> cases heq
    exact hmem
  · exact fun hmem => ⟨_, hmem, rfl⟩

lemma mem_scheduledIds {t : TimersId} {id : Nat} {h : List Event} :
    id ∈ scheduledIds t h ↔ ∃ kind c, .scheduled t id kind c ∈ h := by
  rw [scheduledIds, mem_idsOf, List.mem_map]
  constructor
  · rintro ⟨⟨t', id', c⟩, hmem, heq⟩
    cases heq
    obtain ⟨kind, hk⟩ := mem_schedulings.mp hmem
    exact ⟨kind, c, hk⟩
  · rintro ⟨kind, c, hmem⟩
    exact ⟨⟨t, id, c⟩, mem_schedulings.mpr ⟨kind, hmem⟩, rfl⟩

/-- A number that is given out once is not given out before or after. -/
lemma not_scheduled_again {t : TimersId} {id : Nat} {kind : TimerKind} {c : Callback}
    {a b : List Event} (hd : (scheduledIds t (a ++ .scheduled t id kind c :: b)).Nodup) :
    id ∉ scheduledIds t a ∧ id ∉ scheduledIds t b := by
  have hcons : scheduledIds t (.scheduled t id kind c :: b) = id :: scheduledIds t b := by
    simp [scheduledIds, Event.scheduled?, TimerCall.timer]
  rw [scheduledIds_append, hcons, List.nodup_append] at hd
  exact ⟨fun ha => hd.2.2 id ha id List.mem_cons_self rfl, (List.nodup_cons.mp hd.2.1).1⟩

/-- A timer is scheduled once, so its kind and its callback are determined. -/
lemma scheduled_unique {t : TimersId} {id : Nat} {kind kind' : TimerKind} {c c' : Callback}
    {h : List Event} (hd : (scheduledIds t h).Nodup) (hs : .scheduled t id kind c ∈ h)
    (hs' : .scheduled t id kind' c' ∈ h) : kind = kind' ∧ c = c' := by
  obtain ⟨a, b, rfl⟩ := List.append_of_mem hs
  obtain ⟨ha, hb⟩ := not_scheduled_again hd
  rcases List.mem_append.mp hs' with hmem | hmem
  · exact absurd (mem_scheduledIds.mpr ⟨kind', c', hmem⟩) ha
  · rcases List.mem_cons.mp hmem with heq | hmem
    · cases heq
      exact ⟨rfl, rfl⟩
    · exact absurd (mem_scheduledIds.mpr ⟨kind', c', hmem⟩) hb

/-! ## The entry of a timer -/

/-- A timer that waits was scheduled as it is, and neither cancelled nor fired since. -/
lemma of_life_pending {t : TimersId} {id : Nat} {kind : TimerKind} {c : Callback} {h : List Event}
    (hl : life t id h = some ⟨kind, .pending c⟩) :
    ∃ a b, h = a ++ .scheduled t id kind c :: b ∧ .cancelled t id ∉ b ∧
      ∀ c', .fired t id c' ∉ b := by
  induction h using List.reverseRecOn with
  | nil => cases hl
  | append_singleton h e ih =>
    rw [life_concat] at hl
    -- an entry that was there before is kept by any event that neither cancels nor fires
    have hold : life t id h = some ⟨kind, .pending c⟩ → e ≠ .cancelled t id →
        (∀ c', e ≠ .fired t id c') →
        ∃ a b, h ++ [e] = a ++ .scheduled t id kind c :: b ∧ .cancelled t id ∉ b ∧
          ∀ c', .fired t id c' ∉ b := by
      intro hh hcan hfir
      obtain ⟨a, b, rfl, hc, hf⟩ := ih hh
      refine ⟨a, b ++ [e], by simp, ?_, fun c' => ?_⟩
      · simp only [List.mem_append, List.mem_singleton, not_or]
        exact ⟨hc, hcan.symm⟩
      · simp only [List.mem_append, List.mem_singleton, not_or]
        exact ⟨hf c', (hfir c').symm⟩
    by_cases he : e.timer? = some (t, id)
    · obtain ⟨kind', c', rfl⟩ | rfl | ⟨c', rfl⟩ | rfl := Event.cases_of_timer? he
      · rw [lifeStep_scheduled] at hl
        cases hl
        exact ⟨h, [], rfl, List.not_mem_nil, fun _ => List.not_mem_nil⟩
      · rw [lifeStep_cancelled] at hl
        cases hl
      · rw [lifeStep_fired, Option.map_eq_some_iff] at hl
        obtain ⟨x, -, hx⟩ := hl
        cases hx
      · rw [lifeStep_settled, Option.filter_eq_some_iff] at hl
        exact hold hl.1 (by simp) (by simp)
    · rw [lifeStep_of_ne he] at hl
      exact hold hl (fun heq => he (heq ▸ rfl)) fun c' heq => he (heq ▸ rfl)

/-- Only timers that were scheduled have an entry. -/
lemma scheduled_of_life {t : TimersId} {id : Nat} {x : Timer Callback} {h : List Event}
    (hl : life t id h = some x) : ∃ c, .scheduled t id x.kind c ∈ h := by
  induction h using List.reverseRecOn generalizing x with
  | nil => cases hl
  | append_singleton h e ih =>
    rw [life_concat] at hl
    have hold : ∀ y, life t id h = some y → y.kind = x.kind →
        ∃ c, .scheduled t id x.kind c ∈ h ++ [e] := by
      intro y hy hk
      obtain ⟨c, hc⟩ := ih hy
      exact ⟨c, List.mem_append_left _ (hk ▸ hc)⟩
    by_cases he : e.timer? = some (t, id)
    · obtain ⟨kind, c, rfl⟩ | rfl | ⟨c, rfl⟩ | rfl := Event.cases_of_timer? he
      · rw [lifeStep_scheduled] at hl
        cases hl
        exact ⟨c, by simp⟩
      · rw [lifeStep_cancelled] at hl
        cases hl
      · rw [lifeStep_fired, Option.map_eq_some_iff] at hl
        obtain ⟨y, hy, rfl⟩ := hl
        exact hold y hy rfl
      · rw [lifeStep_settled, Option.filter_eq_some_iff] at hl
        exact hold x hl.1 rfl
    · rw [lifeStep_of_ne he] at hl
      exact hold x hl rfl

/-- As long as nothing has fired or settled a timer, it waits exactly if it has not been cancelled
since it was scheduled. -/
lemma life_pending_iff {t : TimersId} {id : Nat} {kind : TimerKind} {c : Callback} {h : List Event}
    (hd : (scheduledIds t h).Nodup) (hf : ∀ c, .fired t id c ∉ h) (hs : .settled t id ∉ h) :
    life t id h = some ⟨kind, .pending c⟩ ↔
      ∃ a b, h = a ++ .scheduled t id kind c :: b ∧ .cancelled t id ∉ b := by
  constructor
  · intro hl
    obtain ⟨a, b, heq, hc, -⟩ := of_life_pending hl
    exact ⟨a, b, heq, hc⟩
  · rintro ⟨a, b, rfl, hc⟩
    have hb := (not_scheduled_again hd).2
    have hne : ∀ e ∈ b, e.timer? ≠ some (t, id) := by
      intro e hmem he
      obtain ⟨kind', c', rfl⟩ | rfl | ⟨c', rfl⟩ | rfl := Event.cases_of_timer? he
      · exact hb (mem_scheduledIds.mpr ⟨kind', c', hmem⟩)
      · exact hc hmem
      · exact hf c' (by simp [hmem])
      · exact hs (by simp [hmem])
    have hsplit : a ++ Event.scheduled t id kind c :: b =
        (a ++ [Event.scheduled t id kind c]) ++ b := by simp
    rw [hsplit, life_append_of_ne _ hne, life_concat, lifeStep_scheduled]

/-- A timer whose entry says that it has fired was fired, and not cancelled since; a timeout has not
been let go since. -/
lemma of_life_fired {t : TimersId} {id : Nat} {kind : TimerKind} {h : List Event}
    (hw : FiresWaiting h) (hl : life t id h = some ⟨kind, .fired⟩) :
    ∃ a c b, h = a ++ .fired t id c :: b ∧ .scheduled t id kind c ∈ a ∧ .cancelled t id ∉ b ∧
      (kind = .timeout → .settled t id ∉ b) := by
  induction h using List.reverseRecOn with
  | nil => cases hl
  | append_singleton h e ih =>
    have hw' : FiresWaiting h := fun a t' id' c b heq =>
      hw a t' id' c (b ++ [e]) (by simp [heq])
    rw [life_concat] at hl
    by_cases he : e.timer? = some (t, id)
    · obtain ⟨kind', c', rfl⟩ | rfl | ⟨c, rfl⟩ | rfl := Event.cases_of_timer? he
      · rw [lifeStep_scheduled] at hl
        cases hl
      · rw [lifeStep_cancelled] at hl
        cases hl
      · obtain ⟨kind', hpending⟩ := hw h t id c [] rfl
        rw [lifeStep_fired, hpending] at hl
        cases hl
        obtain ⟨a, b, rfl, -⟩ := of_life_pending hpending
        exact ⟨_, c, [], rfl, by simp, List.not_mem_nil, fun _ => List.not_mem_nil⟩
      · rw [lifeStep_settled, Option.filter_eq_some_iff] at hl
        obtain ⟨a, c, b, rfl, hs, hc, -⟩ := ih hw' hl.1
        refine ⟨a, c, b ++ [.settled t id], by simp, hs, by simpa using hc, ?_⟩
        rintro rfl
        cases hl.2
    · rw [lifeStep_of_ne he] at hl
      obtain ⟨a, c, b, rfl, hs, hc, hset⟩ := ih hw' hl
      refine ⟨a, c, b ++ [e], by simp, hs, ?_, ?_⟩
      · simp only [List.mem_append, List.mem_singleton, not_or]
        exact ⟨hc, fun heq => he (heq ▸ rfl)⟩
      · intro hk
        simp only [List.mem_append, List.mem_singleton, not_or]
        exact ⟨hset hk, fun heq => he (heq ▸ rfl)⟩

/-- A number that is given out is not given out later. -/
lemma not_scheduled_later {t : TimersId} {id : Nat} {a b : List Event}
    (hd : (scheduledIds t (a ++ b)).Nodup) (ha : id ∈ scheduledIds t a) :
    id ∉ scheduledIds t b := by
  rw [scheduledIds_append, List.nodup_append] at hd
  exact fun hb => hd.2.2 id ha id hb rfl

/-- Taking in the first of some events, which does not give out a number again. -/
lemma not_scheduled_tail {t : TimersId} {id : Nat} {e : Event} {h : List Event}
    (hs : id ∉ scheduledIds t (e :: h)) :
    (∀ kind c, e ≠ .scheduled t id kind c) ∧ id ∉ scheduledIds t h := by
  constructor
  · rintro kind c rfl
    exact hs (mem_scheduledIds.mpr ⟨kind, c, List.mem_cons_self⟩)
  · intro hmem
    obtain ⟨kind, c, hk⟩ := mem_scheduledIds.mp hmem
    exact hs (mem_scheduledIds.mpr ⟨kind, c, List.mem_cons_of_mem e hk⟩)

/-- A timer that has fired keeps its entry until it is cancelled or, as a timeout, let go. -/
lemma foldl_lifeStep_fired {t : TimersId} {id : Nat} {kind : TimerKind} {h : List Event}
    (hs : id ∉ scheduledIds t h) (hc : .cancelled t id ∉ h)
    (hset : kind = .timeout → .settled t id ∉ h) :
    h.foldl (lifeStep t id) (some ⟨kind, .fired⟩) = some ⟨kind, .fired⟩ := by
  induction h with
  | nil => rfl
  | cons e h ih =>
    obtain ⟨he, hs'⟩ := not_scheduled_tail hs
    have hstep : lifeStep t id (some ⟨kind, .fired⟩) e = some ⟨kind, .fired⟩ := by
      by_cases htimer : e.timer? = some (t, id)
      · obtain ⟨kind', c, rfl⟩ | rfl | ⟨c, rfl⟩ | rfl := Event.cases_of_timer? htimer
        · exact absurd rfl (he kind' c)
        · exact absurd List.mem_cons_self hc
        · exact lifeStep_fired t id _ c
        · cases kind with
          | timeout => exact absurd List.mem_cons_self (hset rfl)
          | interval => exact lifeStep_settled t id _
      · exact lifeStep_of_ne htimer _
    rw [List.foldl_cons, hstep]
    exact ih hs' (fun hmem => hc (List.mem_cons_of_mem e hmem))
      fun hk hmem => hset hk (List.mem_cons_of_mem e hmem)

/-- A timer without an entry gets none unless it is scheduled. -/
lemma foldl_lifeStep_none {t : TimersId} {id : Nat} {h : List Event}
    (hs : id ∉ scheduledIds t h) : h.foldl (lifeStep t id) none = none := by
  induction h with
  | nil => rfl
  | cons e h ih =>
    obtain ⟨he, hs'⟩ := not_scheduled_tail hs
    have hstep : lifeStep t id none e = none := by
      by_cases htimer : e.timer? = some (t, id)
      · obtain ⟨kind, c, rfl⟩ | rfl | ⟨c, rfl⟩ | rfl := Event.cases_of_timer? htimer
        · exact absurd rfl (he kind c)
        · exact lifeStep_cancelled t id none
        · exact lifeStep_fired t id none c
        · exact lifeStep_settled t id none
      · exact lifeStep_of_ne htimer none
    rw [List.foldl_cons, hstep]
    exact ih hs'

/-- A timer that is cancelled has no entry from then on. -/
lemma foldl_lifeStep_cancelled {t : TimersId} {id : Nat} {h : List Event}
    (hs : id ∉ scheduledIds t h) (hc : .cancelled t id ∈ h) (entry : Option (Timer Callback)) :
    h.foldl (lifeStep t id) entry = none := by
  obtain ⟨a, b, rfl⟩ := List.append_of_mem hc
  have hb : id ∉ scheduledIds t b := by
    rw [scheduledIds_append, List.mem_append, not_or] at hs
    exact (not_scheduled_tail hs.2).2
  rw [List.foldl_append, List.foldl_cons, lifeStep_cancelled]
  exact foldl_lifeStep_none hb

/-- What becomes of a timer that fires: it was scheduled before and is not scheduled again, and its
entry is what later events leave of a fired one. -/
lemma life_after_fired {t : TimersId} {id : Nat} {c : Callback} {a b : List Event}
    (hd : (scheduledIds t (a ++ .fired t id c :: b)).Nodup)
    (hw : FiresWaiting (a ++ .fired t id c :: b)) :
    ∃ kind, .scheduled t id kind c ∈ a ∧ id ∉ scheduledIds t b ∧
      life t id (a ++ .fired t id c :: b) = b.foldl (lifeStep t id) (some ⟨kind, .fired⟩) := by
  obtain ⟨kind, hpending⟩ := hw a t id c b rfl
  have hs : .scheduled t id kind c ∈ a := by
    obtain ⟨a₁, a₂, rfl, -⟩ := of_life_pending hpending
    exact List.mem_append_right _ List.mem_cons_self
  have hb := not_scheduled_later hd (mem_scheduledIds.mpr ⟨kind, c, hs⟩)
  refine ⟨kind, hs, (not_scheduled_tail hb).2, ?_⟩
  rw [life_append, hpending, List.foldl_cons, lifeStep_fired]
  rfl

/-- An entry is that of a fired interval exactly if the interval has fired and was not cancelled
since. -/
lemma life_interval_iff {t : TimersId} {id : Nat} {h : List Event} (hd : (scheduledIds t h).Nodup)
    (hw : FiresWaiting h) :
    life t id h = some ⟨.interval, .fired⟩ ↔ FiredInterval t id h := by
  constructor
  · intro hl
    obtain ⟨a, c, b, heq, hs, hc, -⟩ := of_life_fired hw hl
    exact ⟨a, c, b, heq, hs, hc⟩
  · rintro ⟨a, c, b, rfl, hs, hc⟩
    obtain ⟨kind, hs', hb, hl⟩ := life_after_fired hd hw
    have hda : (scheduledIds t a).Nodup := by
      rw [scheduledIds_append] at hd
      exact (List.nodup_append.mp hd).1
    obtain ⟨rfl, -⟩ := scheduled_unique hda hs' hs
    rw [hl]
    exact foldl_lifeStep_fired hb hc fun hk => by cases hk

end Polyfill.Session
