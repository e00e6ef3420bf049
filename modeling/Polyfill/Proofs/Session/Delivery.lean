import Polyfill.Proofs.Session.Firing
/-!
# How messages reach workers

A message that a worker accepts takes one number of its timers and one task.  When the task is
taken, the message goes to the handler that the worker has then, if there is one, the worker is not
terminated and the timer may fire; it is delivered once.  A message to a worker without a handler is
lost.  Messages that travel by the same timers are delivered in the order in which they were posted.
-/

namespace Polyfill.Session

/-- The worker and the message of a delivery. -/
def Callback.letter? : Callback → Option (WorkerId × String)
  | .delivery k data => some (k, data)
  | .script _ _ _ => none

/-- The messages delivered by timers, in order. -/
def delivered (h : List Event) : List (WorkerId × String) :=
  h.filterMap Event.letter?

/-- The callback that an event invokes, if the event after it is the delivery of its message. -/
def Event.delivery? (e : Event) (next : Option Event) : Option TimerCall :=
  e.fired?.filter fun call =>
    call.callback.letter?.isSome && next.bind Event.letter? == call.callback.letter?

/-- The callbacks that delivered their message when they were invoked, in order. -/
def deliveries : List Event → List TimerCall
  | [] => []
  | e :: rest => (e.delivery? rest.head?).toList ++ deliveries rest

/-- The messages that were scheduled for delivery, in order of posting. -/
def posts (h : List Event) : List TimerCall :=
  (schedulings h).filter fun call => call.callback.letter?.isSome

/-- Those of some callbacks that belong to one registry. -/
def ofTimers (t : TimersId) (calls : List TimerCall) : List TimerCall :=
  calls.filter fun call => call.timers == t

/-! ## Deliveries in a history -/

@[simp] lemma delivered_append (h h' : List Event) :
    delivered (h ++ h') = delivered h ++ delivered h' :=
  List.filterMap_append

lemma delivered_eq_nil {h : List Event} (hh : ∀ e ∈ h, e.letter? = none) : delivered h = [] :=
  List.filterMap_eq_nil_iff.mpr hh

lemma Event.delivery?_eq_none (e : Event) {next : Option Event}
    (h : next.bind Event.letter? = none) : e.delivery? next = none := by
  rw [delivery?, h, Option.filter_eq_none_iff]
  intro call _
  cases call.callback <;> simp [Callback.letter?]

lemma deliveries_eq_nil {h : List Event} (hh : ∀ e ∈ h, e.letter? = none) : deliveries h = [] := by
  induction h with
  | nil => rfl
  | cons e h ih =>
    have hrest : ∀ e' ∈ h, e'.letter? = none := fun e' he' => hh e' (List.mem_cons_of_mem e he')
    have hhead : h.head?.bind Event.letter? = none := by
      cases h with
      | nil => rfl
      | cons e' h => exact hrest e' List.mem_cons_self
    rw [deliveries, e.delivery?_eq_none hhead, ih hrest]
    rfl

/-- A history may be cut before any event that is not a delivery. -/
lemma deliveries_append {h h' : List Event} (hh : h'.head?.bind Event.letter? = none) :
    deliveries (h ++ h') = deliveries h ++ deliveries h' := by
  induction h with
  | nil => rfl
  | cons e h ih =>
    have hhead : e.delivery? (h ++ h').head? = e.delivery? h.head? := by
      cases h with
      | nil => exact (e.delivery?_eq_none hh).trans (e.delivery?_eq_none rfl).symm
      | cons e' h => rfl
    rw [List.cons_append, deliveries, deliveries, ih, hhead, List.append_assoc]

/-- What is delivered was invoked. -/
lemma deliveries_sublist (h : List Event) : (deliveries h).Sublist (firings h) := by
  induction h with
  | nil => exact List.Sublist.refl _
  | cons e h ih =>
    rw [deliveries, firings_cons]
    refine List.Sublist.append ?_ ih
    rw [Event.delivery?]
    cases e.fired? with
    | none => exact List.Sublist.refl _
    | some call =>
      rw [Option.filter_some]
      split
      · exact List.Sublist.refl _
      · exact List.nil_sublist _

/-- What is delivered has a message. -/
lemma letter?_of_mem_deliveries {h : List Event} {call : TimerCall} (hc : call ∈ deliveries h) :
    call.callback.letter?.isSome = true := by
  induction h with
  | nil => cases hc
  | cons e h ih =>
    rw [deliveries, List.mem_append, Option.mem_toList, Event.delivery?] at hc
    rcases hc with hnew | hold
    · have hfilter := (Option.filter_eq_some_iff.mp hnew).2
      rw [Bool.and_eq_true] at hfilter
      exact hfilter.1
    · exact ih hold

lemma World.ofTimers_onQueue (w : World) (t : TimersId) (calls : List TimerCall) :
    ofTimers t (w.onQueue (w.queueOf t) calls) = ofTimers t calls := by
  rw [ofTimers, ofTimers, onQueue, List.filter_filter]
  refine List.filter_congr fun call _ => ?_
  by_cases ht : call.timers = t
  · simp [ht]
  · simp [ht]

/-- Messages that travel by the same timers are delivered in the order of posting. -/
lemma World.Faithful.deliveries_in_order {w : World} (hf : w.Faithful) (t : TimersId) :
    (ofTimers t (deliveries w.history)).Sublist (ofTimers t (posts w.history)) := by
  have hfired : (ofTimers t (firings w.history)).Sublist (ofTimers t (schedulings w.history)) := by
    have h := (hf.firings_sublist (w.queueOf t)).filter fun call => call.timers == t
    rwa [← ofTimers, ← ofTimers, w.ofTimers_onQueue, w.ofTimers_onQueue] at h
  have hsub : (ofTimers t (deliveries w.history)).Sublist (ofTimers t (schedulings w.history)) :=
    ((deliveries_sublist w.history).filter _).trans hfired
  have hall : (ofTimers t (deliveries w.history)).filter
      (fun call => call.callback.letter?.isSome) = ofTimers t (deliveries w.history) :=
    List.filter_eq_self.mpr fun call hmem => letter?_of_mem_deliveries (List.mem_filter.mp hmem).1
  have hposts : ofTimers t (posts w.history) = (ofTimers t (schedulings w.history)).filter
      fun call => call.callback.letter?.isSome := List.filter_comm _ _ _
  rw [← hall, hposts]
  exact hsub.filter _

namespace World

/-! ## Posting -/

variable {w w' : World}

/-- The handler that takes a message is the one in the place for messages, unless the worker is
terminated. -/
lemma recipient?_eq_some_iff {k : WorkerId} {h : HandlerId} :
    w.recipient? k = some h ↔ ∃ worker, w.workers[k]? = some worker ∧ worker.terminated = false ∧
      worker.onmessage = some h := by
  rw [recipient?, Option.bind_eq_some_iff]
  refine exists_congr fun worker => and_congr_right fun _ => ?_
  rw [Worker.recipient?]
  cases worker.terminated <;> simp

/-- Taking a task and firing a timer leave workers and handlers alone. -/
lemma workers_of_fire {w₁ w₂ : World} {q : QueueId} {task : Microtask} {t : TimersId} {id : Nat}
    {kind : TimerKind} {c : Callback} (hp : w.pop q = some (task, w₁))
    (hf : w₁.fire t id = some (kind, c, w₂)) :
    w₂.workers = w.workers ∧ w₂.handlers = w.handlers := by
  obtain ⟨-, rfl⟩ := fire_eq_some_iff.mp hf
  obtain ⟨rest, -, rfl⟩ := pop_eq_some_iff.mp hp
  exact ⟨rfl, rfl⟩

/-- A worker that does not listen loses a message; the message itself leaves no trace. -/
lemma execute_post_of_deaf {name : String} {v : Value} {data : String} {k : WorkerId}
    {worker : Worker} (hk : w.worker? name = some k) (hw : w.workers[k]? = some worker)
    (hv : v.toText = .ok data) (ht : worker.terminated = false) (ho : worker.onmessage = none) :
    w.execute (.post name v) =
      (w.note (.debug ("Worker " ++ toString worker.id ++ ": no message handler, message dropped")),
        .done Answer.done) := by
  simp [execute, atOnce, withHandle, withText, post, hk, hw, hv, ht, ho]

/-- Every delivery that was scheduled is a timeout of the timers of its worker. -/
def Posted (w : World) : Prop :=
  ∀ t id kind k data, .scheduled t id kind (.delivery k data) ∈ w.history →
    kind = .timeout ∧ ∃ worker, w.workers[k]? = some worker ∧ worker.timers = t

/-- A growing world keeps its deliveries in order if those that are added fit. -/
lemma Posted.of_grows (hp : w.Posted) (hg : Grows w w')
    (h : ∀ t id kind k data, .scheduled t id kind (.delivery k data) ∈ w'.history →
      .scheduled t id kind (.delivery k data) ∈ w.history ∨ w.Fits t kind (.delivery k data)) :
    w'.Posted := by
  intro t id kind k data hmem
  have hold : kind = .timeout ∧ ∃ worker, w.workers[k]? = some worker ∧ worker.timers = t := by
    rcases h t id kind k data hmem with hold | hfits
    · exact hp t id kind k data hold
    · exact hfits
  obtain ⟨hkind, worker, hw, ht⟩ := hold
  obtain ⟨worker', hw', ht'⟩ := hg.workers k worker hw
  exact ⟨hkind, worker', hw', ht'.trans ht⟩

lemma Posted.append (hp : w.Posted) (hg : Grows w w') {es : List Event}
    (hh : w'.history = w.history ++ es) (hes : schedulings es = []) : w'.Posted := by
  refine hp.of_grows hg fun t id kind k data hmem => ?_
  rw [hh, List.mem_append] at hmem
  rcases hmem with hold | hnew
  · exact Or.inl hold
  · have hcall := mem_schedulings.mpr ⟨kind, hnew⟩
    rw [hes] at hcall
    cases hcall

lemma Change.posted (h : Change w w') (hp : w.Posted) : w'.Posted := by
  have hg := h.grows
  cases h.timerChange with
  | still h _ => exact hp.append hg h.history (schedulings_of_idle h.idle)
  | schedule t kind delay c _ hc =>
    refine hp.of_grows hg fun t' id' kind' k data hmem => ?_
    obtain ⟨n₁, n₂, hh⟩ := history_schedule w t kind delay c
    rw [hh, List.mem_append] at hmem
    rcases hmem with hold | hnew
    · exact Or.inl hold
    · simp only [List.mem_cons, Event.scheduled.injEq, reduceCtorEq, List.not_mem_nil,
        or_false] at hnew
      obtain ⟨rfl, -, rfl, rfl⟩ := hnew
      exact Or.inr hc
  | cancel t id _ =>
    obtain ⟨es, hh, hidle, -⟩ := history_cancel w t id
    exact hp.append hg hh (by simp [Event.scheduled?, schedulings_of_idle hidle])
  | enqueue q label body _ => exact hp.append hg rfl rfl
  | start q label body hpop => exact hp.append hg (history_pop hpop) rfl

lemma Changes.posted (h : Changes w w') (hp : w.Posted) : w'.Posted := by
  induction h with
  | refl => exact hp
  | tail _ h ih => exact h.posted ih

/-- The invocation of a callback writes down nothing, or the message that it delivers. -/
lemma letters_cases (w : World) (c : Callback) :
    w.letters c = [] ∨ ∃ k data h name, c = .delivery k data ∧
      w.letters c = [.message k h name data ""] := by
  cases c with
  | script label args body => exact Or.inl rfl
  | delivery k data =>
    cases hr : w.recipient? k with
    | none => exact Or.inl (by simp [letters, hr])
    | some h => exact Or.inr ⟨k, data, h, _, rfl, by simp [letters, hr]; rfl⟩

end World

namespace Machine

variable {m m' : Machine}

lemma Move.posted (h : Move m m') (hs : m.world.Sound) (hp : m.world.Posted) :
    m'.world.Posted := by
  have hg := h.grows
  cases h with
  | work hw _ => exact hw.posted hp
  | skip _ hpop _ _ => exact hp.append hg (World.history_pop hpop) rfl
  | @fire _ _ _ _ _ _ c _ _ _ hpop _ hf hm =>
    have hletters : schedulings (m.world.letters c) = [] :=
      schedulings_of_idle fun _ hmem => World.idle_of_mem_letters hmem
    exact hp.append hg (history_fire hs hpop hf hm) (by simp [Event.scheduled?, hletters])
  | settle _ hw => exact hp.append hg (history_settle hw) rfl

/-- Each move delivers the messages of the callbacks that it invokes, and no others. -/
lemma Move.delivers (h : Move m m') (hs : m.world.Sound) :
    ∃ calls, deliveries m'.world.history = deliveries m.world.history ++ calls ∧
      delivered m'.world.history = delivered m.world.history ++
        calls.filterMap fun call => call.callback.letter? := by
  -- moves that write down no delivery
  have hnone : ∀ es, m'.world.history = m.world.history ++ es → (∀ e ∈ es, e.letter? = none) →
      ∃ calls, deliveries m'.world.history = deliveries m.world.history ++ calls ∧
        delivered m'.world.history = delivered m.world.history ++
          calls.filterMap fun call => call.callback.letter? := by
    intro es hes hl
    have hhead : es.head?.bind Event.letter? = none := by
      cases es with
      | nil => rfl
      | cons e es => exact hl e List.mem_cons_self
    refine ⟨[], ?_, ?_⟩
    · rw [hes, deliveries_append hhead, deliveries_eq_nil hl]
    · rw [hes, delivered_append, delivered_eq_nil hl]
      rfl
  cases h with
  | work hw _ =>
    obtain ⟨es, hes, -, hl⟩ := hw.history
    exact hnone es hes hl
  | skip _ hp _ _ => exact hnone _ (World.history_pop hp) (by simp [Event.letter?])
  | @fire q t id n below kind c w₁ w₂ _ hp _ hf hm =>
    have hh := history_fire hs hp hf hm
    rcases m.world.letters_cases c with hnil | ⟨k, data, hd, name, rfl, hone⟩
    · exact hnone _ hh (by simp [hnil, Event.letter?])
    · rw [hone] at hh
      refine ⟨[⟨t, id, .delivery k data⟩], ?_, ?_⟩
      · rw [hh, deliveries_append rfl]
        simp [deliveries, Event.delivery?, Event.fired?, Event.letter?, Callback.letter?]
      · rw [hh, delivered_append]
        rfl
  | settle _ hw => exact hnone _ (history_settle hw) (by simp [Event.letter?])

/-- In every session, deliveries are scheduled as timeouts of the timers of their workers. -/
lemma Reaches.posted {entropy : Entropy} {script : List Step}
    (h : Reaches (start entropy script) m) : m.world.Posted :=
  h.invariant (P := fun m => m.world.Posted) (fun _ _ _ _ _ hmem => by cases hmem)
    fun _ _ hr hm hp => hm.posted hr.sound hp

/-- In every session, every message that is delivered by a timer is that of the callback invoked
just before. -/
lemma Reaches.delivered_eq {entropy : Entropy} {script : List Step}
    (h : Reaches (start entropy script) m) : delivered m.world.history =
      (deliveries m.world.history).filterMap fun call => call.callback.letter? := by
  refine h.invariant (P := fun m => delivered m.world.history =
    (deliveries m.world.history).filterMap fun call => call.callback.letter?) rfl ?_
  intro m m' hr hm ih
  obtain ⟨calls, hcalls, hletters⟩ := hm.delivers hr.sound
  rw [hcalls, hletters, ih, List.filterMap_append]

/-! ## Posting a message -/

/-- The next step of a machine posts a message to a worker; without the step it is `m₀`. -/
def Posts (m m₀ : Machine) (k : WorkerId) (worker : Worker) (data : String) : Prop :=
  ∃ name v, m.upcoming? = some (.post name v, m₀) ∧ m.world.worker? name = some k ∧
    m.world.workers[k]? = some worker ∧ v.toText = .ok data

/-- When the task of a delivery is taken now, its message goes to a handler. -/
def Delivers (m : Machine) (t : TimersId) (id : Nat) (k : WorkerId) (h : HandlerId) : Prop :=
  m.alive t = true ∧ Uncancelled t id m.world.history ∧
    ∃ worker, m.world.workers[k]? = some worker ∧ worker.terminated = false ∧
      worker.onmessage = some h

/-- A worker that listens accepts a message.  This takes the next number of its timers and one task,
and nothing else. -/
lemma Posts.accepted {m₀ : Machine} {k : WorkerId} {worker : Worker} {data : String}
    (h : m.Posts m₀ k worker data) (hs : m.world.Sound) (ht : worker.terminated = false)
    (ho : worker.onmessage.isSome = true) :
    ∃ w, m.next = some ({ m₀ with world := w }.report "post" Answer.done) ∧
      (∀ t, w.registry t = if t = worker.timers
        then (m.world.registry worker.timers).schedule .timeout (.delivery k data)
        else m.world.registry t) ∧
      (∀ q, w.tasks q = if q = m.world.queueOf worker.timers
        then m.world.tasks (m.world.queueOf worker.timers) ++
          [.fire worker.timers ((m.world.registry worker.timers).last + 1)]
        else m.world.tasks q) ∧
      posts w.history = posts m.world.history ++
        [⟨worker.timers, (m.world.registry worker.timers).last + 1, .delivery k data⟩] := by
  obtain ⟨name, v, hup, hk, hw, hv⟩ := h
  obtain ⟨hn, hworld⟩ := next_of_upcoming hup
  have hlt := hs.workers k worker hw
  have hexec := World.execute_post_of_listening hk hw hv ht ho
  refine ⟨(m.world.schedule worker.timers .timeout 0 (.delivery k data)).2, ?_,
    World.registry_schedule hlt _ _ _, World.tasks_schedule hs hlt _ _ _, ?_⟩
  · rw [hn, execute, hworld, hexec]
    rfl
  · obtain ⟨n₁, n₂, hh⟩ :=
      World.history_schedule m.world worker.timers .timeout 0 (.delivery k data)
    rw [posts, hh, schedulings_append, List.filter_append]
    rfl

/-- A worker without a handler loses a message: its next state is the same for all messages. -/
lemma Posts.dropped {m₀ : Machine} {k : WorkerId} {worker : Worker} {data : String}
    (h : m.Posts m₀ k worker data) (ht : worker.terminated = false) (ho : worker.onmessage = none) :
    m.next = some ({ m₀ with world := m.world.note (.debug ("Worker " ++ toString worker.id ++
      ": no message handler, message dropped")) }.report "post" Answer.done) := by
  obtain ⟨name, v, hup, hk, hw, hv⟩ := h
  obtain ⟨hn, hworld⟩ := next_of_upcoming hup
  rw [hn, execute, hworld, World.execute_post_of_deaf hk hw hv ht ho]
  rfl

/-- A lost message schedules nothing, so whatever is delivered later is another one. -/
lemma Posts.never_delivered {entropy : Entropy} {script : List Step}
    (hr : Reaches (start entropy script) m) {m₀ : Machine} {k : WorkerId} {worker : Worker}
    {data : String} (h : m.Posts m₀ k worker data) (ht : worker.terminated = false)
    (ho : worker.onmessage = none) {m₁ : Machine} (hn : m.next = some m₁) :
    (∀ t, m₁.world.registry t = m.world.registry t) ∧
    (∀ q, m₁.world.tasks q = m.world.tasks q) ∧
    ∀ m', Reaches m₁ m' → ∃ later, m'.world.history = m₁.world.history ++ later ∧
      ∀ call ∈ deliveries m'.world.history,
        call ∈ posts m.world.history ∨ call ∈ posts later := by
  obtain ⟨es, hstill⟩ : ∃ es, World.Still m.world m₁.world es := by
    rw [h.dropped ht ho, Option.some.injEq] at hn
    obtain ⟨e, hstill⟩ := still_report (m := { m₀ with world := m.world.note _ })
      ((World.Still.refl m.world).log rfl) "post" Answer.done
    exact ⟨_, hn ▸ hstill⟩
  refine ⟨hstill.registry, hstill.tasks, fun m' h' => ?_⟩
  obtain ⟨later, hlater⟩ := ((hr.move hn).grows h').history
  refine ⟨later, hlater.symm, fun call hmem => ?_⟩
  have hf := ((hr.move hn).trans h').consistent.faithful
  have hown : call ∈ ofTimers call.timers (deliveries m'.world.history) :=
    List.mem_filter.mpr ⟨hmem, by simp⟩
  have hpost : call ∈ posts m'.world.history :=
    (List.mem_filter.mp ((hf.deliveries_in_order call.timers).subset hown)).1
  have hsame : posts m₁.world.history = posts m.world.history := by
    rw [posts, hstill.history, schedulings_append, schedulings_of_idle hstill.idle, List.append_nil,
      ← posts]
  rw [← hlater, posts, schedulings_append, List.filter_append, List.mem_append, ← posts,
    hsame] at hpost
  exact hpost

/-! ## Taking the task of a delivery -/

/-- A delivery that finds a handler runs the body of the handler, as long as its allowance lasts. -/
lemma stack_invoke_delivery {k : WorkerId} {h : HandlerId} {name : String} {body : List Step}
    {allowance : Nat} (hrec : m.world.recipient? k = some h)
    (hh : m.world.handlers[h]? = some ⟨name, .message body allowance⟩) (data : String) :
    (m.invoke (.delivery k data)).stack =
      .body (if allowance = 0 then [] else body) :: m.stack := by
  have hbody : (m.world.deliver k h data "").1 = if allowance = 0 then [] else body := by
    cases allowance <;> simp [World.deliver, hh]
  rw [World.recipient?] at hrec
  simp only [invoke, hrec, hbody]

/-- The message of a delivery that may be made goes to the handler that its worker has then. -/
lemma next_of_delivers {entropy : Entropy} {script : List Step}
    (h : Reaches (start entropy script) m) {q : QueueId} {n : Nat} {below : List Frame}
    {rest : List Microtask} {t : TimersId} {id : Nat} {kind : TimerKind} {k : WorkerId}
    {data : String} {hd : HandlerId} (hs : m.stack = .drain q n :: below)
    (ht : m.world.tasks q = .fire t id :: rest)
    (hsched : .scheduled t id kind (.delivery k data) ∈ m.world.history)
    (hdel : m.Delivers t id k hd) :
    ∃ name body allowance m₁, m.world.handlers[hd]? = some ⟨name, .message body allowance⟩ ∧
      m.next = some m₁ ∧ m₁.world.history = m.world.history ++
        [.started q (.fire t id), .fired t id (.delivery k data), .message k hd name data ""] ∧
      m₁.stack = .body (if allowance = 0 then [] else body) :: .settle t id .timeout ::
        .drain q (n + 1) :: below := by
  have hf := h.consistent.faithful
  obtain ⟨ha, hc, hworker⟩ := hdel
  have hrec := World.recipient?_eq_some_iff.mpr hworker
  obtain ⟨⟨name, role⟩, hh, hslot⟩ := h.sound.suits_recipient hrec
  cases role with
  | error => cases hslot
  | message body allowance =>
    obtain ⟨kind', c, w₁, w₂, hsched', hp, hfire⟩ := hf.exists_fire ht hc
    obtain ⟨rfl, rfl⟩ := scheduled_unique (hf.scheduledIds_nodup t) hsched hsched'
    obtain ⟨rfl, -⟩ := h.posted t id kind k data hsched
    have hnext := next_fire hs hp ha hfire
    refine ⟨name, body, allowance, _, hh, hnext, ?_, ?_⟩
    · rw [history_fire h.sound hp hfire rfl]
      simp [World.letters, hrec, hh]
    · obtain ⟨hworkers, hhandlers⟩ := World.workers_of_fire hp hfire
      have hrec₂ : w₂.recipient? k = some hd := by
        rw [World.recipient?, hworkers]
        exact hrec
      exact stack_invoke_delivery hrec₂ (hhandlers ▸ hh) data

/-- No handler is called when the task of a delivery is taken that may not be made: the timer does
not fire, or its callback returns at once. -/
lemma next_of_not_delivers {entropy : Entropy} {script : List Step}
    (h : Reaches (start entropy script) m) {q : QueueId} {n : Nat} {below : List Frame}
    {rest : List Microtask} {t : TimersId} {id : Nat} {kind : TimerKind} {k : WorkerId}
    {data : String} (hs : m.stack = .drain q n :: below)
    (ht : m.world.tasks q = .fire t id :: rest)
    (hsched : .scheduled t id kind (.delivery k data) ∈ m.world.history)
    (hdel : ∀ hd, ¬ m.Delivers t id k hd) :
    ∃ m₁, m.next = some m₁ ∧
      ((m₁.world.history = m.world.history ++ [.started q (.fire t id)] ∧
          m₁.stack = .drain q (n + 1) :: below) ∨
        (m₁.world.history = m.world.history ++
            [.started q (.fire t id), .fired t id (.delivery k data)] ∧
          m₁.stack = .settle t id .timeout :: .drain q (n + 1) :: below)) := by
  have hf := h.consistent.faithful
  by_cases hfires : m.alive t = true ∧ Uncancelled t id m.world.history
  · obtain ⟨ha, hc⟩ := hfires
    obtain ⟨kind', c, w₁, w₂, hsched', hp, hfire⟩ := hf.exists_fire ht hc
    obtain ⟨rfl, rfl⟩ := scheduled_unique (hf.scheduledIds_nodup t) hsched hsched'
    obtain ⟨rfl, -⟩ := h.posted t id kind k data hsched
    have hrec : m.world.recipient? k = none :=
      Option.eq_none_iff_forall_ne_some.mpr fun hd heq =>
        hdel hd ⟨ha, hc, World.recipient?_eq_some_iff.mp heq⟩
    have hrec₂ : (w₂.workers[k]?).bind Worker.recipient? = none := by
      rw [(World.workers_of_fire hp hfire).1]
      exact hrec
    refine ⟨_, next_fire hs hp ha hfire, Or.inr ⟨?_, ?_⟩⟩
    · rw [history_fire h.sound hp hfire rfl]
      simp [World.letters, hrec]
    · simp only [invoke, hrec₂]
  · obtain ⟨w, hp, hnone⟩ := hf.exists_skip ht
    have hnext := next_skip hs hp fun ha => hnone fun hc => hfires ⟨ha, hc⟩
    exact ⟨_, hnext, Or.inl ⟨World.history_pop hp, rfl⟩⟩

/-- The law of messages, at every point of every session.  A worker that is not terminated accepts a
message if it has a handler, and loses it otherwise; an accepted message takes one number and one
task, and a lost one is never delivered.  When the task is taken, the message goes to the handler
that the worker has then, if there is one, the worker is not terminated, the registry is alive and
the delivery was not cancelled; otherwise it goes nowhere.  Nothing else delivers messages: each is
delivered once, and those that travel by the same timers in the order of posting. -/
theorem messages_delivered_once_in_order {entropy : Entropy} {script : List Step}
    (h : Reaches (start entropy script) m) :
    (∀ m₀ k worker data, m.Posts m₀ k worker data → worker.terminated = false →
      (worker.onmessage.isSome = true →
        ∃ w, m.next = some ({ m₀ with world := w }.report "post" Answer.done) ∧
          (∀ t, w.registry t = if t = worker.timers
            then (m.world.registry worker.timers).schedule .timeout (.delivery k data)
            else m.world.registry t) ∧
          (∀ q, w.tasks q = if q = m.world.queueOf worker.timers
            then m.world.tasks (m.world.queueOf worker.timers) ++
              [.fire worker.timers ((m.world.registry worker.timers).last + 1)]
            else m.world.tasks q) ∧
          posts w.history = posts m.world.history ++
            [⟨worker.timers, (m.world.registry worker.timers).last + 1, .delivery k data⟩]) ∧
      (worker.onmessage = none →
        ∃ m₁, m.next = some m₁ ∧
          m₁ = { m₀ with world := m.world.note (.debug ("Worker " ++ toString worker.id ++
            ": no message handler, message dropped")) }.report "post" Answer.done ∧
          (∀ t, m₁.world.registry t = m.world.registry t) ∧
          (∀ q, m₁.world.tasks q = m.world.tasks q) ∧
          ∀ m', Reaches m₁ m' → ∃ later, m'.world.history = m₁.world.history ++ later ∧
            ∀ call ∈ deliveries m'.world.history,
              call ∈ posts m.world.history ∨ call ∈ posts later)) ∧
    (∀ q n below rest t id kind k data, m.stack = .drain q n :: below →
      m.world.tasks q = .fire t id :: rest →
      .scheduled t id kind (.delivery k data) ∈ m.world.history →
      (∀ hd, m.Delivers t id k hd →
        ∃ name body allowance m₁, m.world.handlers[hd]? = some ⟨name, .message body allowance⟩ ∧
          m.next = some m₁ ∧
          m₁.world.history = m.world.history ++
            [.started q (.fire t id), .fired t id (.delivery k data), .message k hd name data ""] ∧
          (∀ b, (Event.message k hd name data "").line? b = some (.data
            [.text "message", .text name, .text "message", .text data, .text ""])) ∧
          m₁.stack = .body (if allowance = 0 then [] else body) :: .settle t id .timeout ::
            .drain q (n + 1) :: below) ∧
      ((∀ hd, ¬ m.Delivers t id k hd) →
        ∃ m₁, m.next = some m₁ ∧
          ((m₁.world.history = m.world.history ++ [.started q (.fire t id)] ∧
              m₁.stack = .drain q (n + 1) :: below) ∨
            (m₁.world.history = m.world.history ++
                [.started q (.fire t id), .fired t id (.delivery k data)] ∧
              m₁.stack = .settle t id .timeout :: .drain q (n + 1) :: below)))) ∧
    delivered m.world.history =
      (deliveries m.world.history).filterMap (fun call => call.callback.letter?) ∧
    ((deliveries m.world.history).map TimerCall.timer).Nodup ∧
    (∀ t, (ofTimers t (deliveries m.world.history)).Sublist (ofTimers t (posts m.world.history))) ∧
    ∀ t id k data, ⟨t, id, .delivery k data⟩ ∈ posts m.world.history →
      ∃ worker, m.world.workers[k]? = some worker ∧ worker.timers = t := by
  have hf := h.consistent.faithful
  refine ⟨fun m₀ k worker data hp ht => ⟨hp.accepted h.sound ht, fun ho => ?_⟩, ?_,
    h.delivered_eq, hf.nodup_firings.sublist ((deliveries_sublist _).map _),
    hf.deliveries_in_order, ?_⟩
  · have hn := hp.dropped ht ho
    exact ⟨_, hn, rfl, Posts.never_delivered h hp ht ho hn⟩
  · intro q n below rest t id kind k data hs ht hsched
    refine ⟨fun hd hdel => ?_, next_of_not_delivers h hs ht hsched⟩
    obtain ⟨name, body, allowance, m₁, hh, hn, hhist, hstack⟩ :=
      next_of_delivers h hs ht hsched hdel
    exact ⟨name, body, allowance, m₁, hh, hn, hhist, fun _ => rfl, hstack⟩
  · intro t id k data hmem
    obtain ⟨kind, hsched⟩ := mem_schedulings.mp (List.mem_filter.mp hmem).1
    exact (h.posted t id kind k data hsched).2

/-- A session that posts to a worker before it has a handler, and later swaps the handler of the
worker while a message is under way. -/
def swappingScript : List Step :=
  [.newQueue "q", .newTimers "t" "q", .newWorker "w" 7 "worker.js" "t",
    .post "w" (.text "lost"),
    .messageHandler "first" [] 1,
    .setSlot .message "w" (some "first"),
    .post "w" (.text "kept"),
    .messageHandler "second" [.run "q"] 1,
    .setSlot .message "w" (some "second"),
    .run "q"]

/-- The first message of that session is lost for good; the second is accepted and goes to the
second handler. -/
theorem messages_delivered_once_in_order_after_swap :
    let m (n : Nat) : Machine := (start ⟨fun _ => 0, 0⟩ swappingScript).after n
    (∀ m', Reaches (m 4) m' → ∃ later, m'.world.history = (m 4).world.history ++ later ∧
      ∀ call ∈ deliveries m'.world.history, call ∈ posts later) ∧
    (∃ (m₀ : Machine) (w : World), (m 6).next = some
        ({ m₀ with world := w }.report "post" Answer.done) ∧
      w.tasks 0 = [.fire 0 1] ∧ posts w.history = [⟨0, 1, .delivery 0 "kept"⟩]) ∧
    (m 10).Delivers 0 1 0 1 ∧
    ∃ m₁, (m 10).next = some m₁ ∧ .message 0 1 "second" "kept" "" ∈ m₁.world.history := by
  intro m
  have h₃ := messages_delivered_once_in_order (reaches_after _ 3 : Reaches _ (m 3))
  have h₆ := messages_delivered_once_in_order (reaches_after _ 6 : Reaches _ (m 6))
  have h₁₀ := messages_delivered_once_in_order (reaches_after _ 10 : Reaches _ (m 10))
  have hlost : (m 3).Posts { m 3 with script := swappingScript.drop 4 } 0
      (Worker.new 7 "worker.js" 0) "lost" := ⟨"w", .text "lost", rfl, rfl, rfl, rfl⟩
  have hkept : (m 6).Posts { m 6 with script := swappingScript.drop 7 } 0
      ((Worker.new 7 "worker.js" 0).setSlot .message (some 0)) "kept" :=
    ⟨"w", .text "kept", rfl, rfl, rfl, rfl⟩
  have hdelivers : (m 10).Delivers 0 1 0 1 := ⟨rfl, by decide, _, rfl, rfl, rfl⟩
  have hnext : (m 3).next = some (m 4) := rfl
  obtain ⟨m₄, hn₄, -, -, -, hnever⟩ := (h₃.1 _ _ _ _ hlost rfl).2 rfl
  obtain rfl := Option.some.inj (hnext.symm.trans hn₄)
  obtain ⟨w, hn₇, -, htasks, hposts⟩ := (h₆.1 _ _ _ _ hkept rfl).1 rfl
  have hcalls : schedulings (m 10).world.history = [⟨0, 1, .delivery 0 "kept"⟩] := rfl
  obtain ⟨kind, hsched⟩ := mem_schedulings.mp (hcalls ▸ List.mem_cons_self)
  obtain ⟨name, body, allowance, m₁, hh, hn, hhist, -⟩ :=
    (h₁₀.2.1 0 0 [] [] 0 1 kind 0 "kept" rfl rfl hsched).1 1 hdelivers
  cases hh
  refine ⟨fun m' h' => ?_, ⟨_, w, hn₇, htasks 0, hposts⟩, hdelivers, m₁, hn, by simp [hhist]⟩
  obtain ⟨later, hlater, hothers⟩ := hnever m' h'
  refine ⟨later, hlater, fun call hmem => ?_⟩
  rcases hothers call hmem with hold | hnew
  · cases hold
  · exact hnew

end Machine

end Polyfill.Session
