import Polyfill.Proofs.Session.Faithful
/-!
# Callbacks that run and timers that wait

Three facts tie the stack of a machine to the history and the queues of its world
(`Machine.Consistent`): what runs was scheduled and invoked; what was invoked has returned or still
runs; and a timer that waits in a registry that is alive has a task in its queue.  Each is kept by
every kind of move, so all three hold at all times (`Machine.Reaches.consistent`).
-/

namespace Polyfill.Session

/-- An event that is not among those added to a history lies before them. -/
lemma split_append {h es a b : List Event} {e : Event} (heq : h ++ es = a ++ e :: b)
    (hes : e ∉ es) : ∃ b', b = b' ++ es ∧ h = a ++ e :: b' := by
  rcases List.append_eq_append_iff.mp heq with ⟨l, -, hl⟩ | ⟨l, hl, hl'⟩
  · exact absurd (by simp [hl]) hes
  · cases l with
    | nil =>
      have heq' : e :: b = es := hl'
      exact absurd (heq' ▸ List.mem_cons_self) hes
    | cons e' b' =>
      obtain ⟨rfl, rfl⟩ := List.cons.inj hl'
      exact ⟨b', rfl, hl⟩

namespace World

/-- Every timer of a registry that waits has a task in its queue. -/
def Queued (w : World) (t : TimersId) : Prop :=
  ∀ id kind c, (w.registry t).find? id = some ⟨kind, .pending c⟩ →
    .fire t id ∈ w.tasks (w.queueOf t)

/-! ## What changes write down -/

/-- No change invokes a callback or delivers a message by a timer. -/
lemma TimerChange.history {w w' : World} (h : TimerChange w w') :
    ∃ es, w'.history = w.history ++ es ∧ firings es = [] ∧ ∀ e ∈ es, e.letter? = none := by
  cases h with
  | still h hd => exact ⟨_, h.history, firings_of_idle h.idle, hd⟩
  | schedule t kind delay c _ _ =>
    obtain ⟨n₁, n₂, hh⟩ := history_schedule w t kind delay c
    exact ⟨_, hh, rfl, by simp [Event.letter?]⟩
  | cancel t id _ =>
    obtain ⟨es, hh, hidle, hletter⟩ := history_cancel w t id
    refine ⟨_, hh, by simp [Event.fired?, firings_of_idle hidle], fun e hmem => ?_⟩
    rcases List.mem_cons.mp hmem with rfl | hold
    · rfl
    · exact hletter e hold
  | enqueue q label body _ => exact ⟨_, rfl, rfl, by simp [Event.letter?]⟩
  | start q label body hp => exact ⟨_, history_pop hp, rfl, by simp [Event.letter?]⟩

lemma Changes.history {w w' : World} (h : Changes w w') :
    ∃ es, w'.history = w.history ++ es ∧ firings es = [] ∧ ∀ e ∈ es, e.letter? = none := by
  induction h with
  | refl => exact ⟨[], by simp⟩
  | tail _ h ih =>
    obtain ⟨es, hh, hf, hl⟩ := ih
    obtain ⟨es', hh', hf', hl'⟩ := h.timerChange.history
    refine ⟨es ++ es', by rw [hh', hh, List.append_assoc], by simp [hf, hf'], fun e hmem => ?_⟩
    rcases List.mem_append.mp hmem with hold | hnew
    · exact hl e hold
    · exact hl' e hnew

/-! ## Timers that wait have a task -/

/-- Timers that wait keep their tasks if none begins to wait and no task is lost. -/
lemma Queued.of_le {w w' : World} {t : TimersId} (h : w.Queued t)
    (hr : ∀ id kind c, (w'.registry t).find? id = some ⟨kind, .pending c⟩ →
      (w.registry t).find? id = some ⟨kind, .pending c⟩)
    (ht : ∀ id kind c, (w'.registry t).find? id = some ⟨kind, .pending c⟩ →
      .fire t id ∈ w.tasks (w.queueOf t) → .fire t id ∈ w'.tasks (w'.queueOf t)) :
    w'.Queued t :=
  fun id kind c hfind => ht id kind c hfind (h id kind c (hr id kind c hfind))

lemma Queued.still {w w' : World} {t : TimersId} {es : List Event} (h : w.Queued t)
    (hs : Still w w' es) (hf : w.Faithful) : w'.Queued t := by
  refine h.of_le (fun id kind c hfind => hs.registry t ▸ hfind) fun id kind c hfind hmem => ?_
  rw [hs.registry] at hfind
  rw [hs.tasks, hs.queueOf t (hf.timers_lt_of_find? hfind)]
  exact hmem

lemma Queued.schedule {w : World} {t : TimersId} (h : w.Queued t) (hs : w.Sound) (hf : w.Faithful)
    {t' : TimersId} (ht : t' < w.timers.length) (kind : TimerKind) (delay : Nat) (c : Callback) :
    (w.schedule t' kind delay c).2.Queued t := by
  intro id kind' c' hfind
  rw [queueOf_schedule, tasks_schedule hs ht]
  rw [registry_schedule ht] at hfind
  by_cases htt : t = t'
  · subst htt
    rw [if_pos rfl, Registry.find?_schedule kind c id (hf.find?_next t)] at hfind
    rw [if_pos rfl]
    by_cases hid : id = (w.registry t).last + 1
    · simp [hid]
    · rw [if_neg hid] at hfind
      exact List.mem_append_left _ (h id kind' c' hfind)
  · rw [if_neg htt] at hfind
    have hmem := h id kind' c' hfind
    split
    · rename_i hq
      exact List.mem_append_left _ (hq ▸ hmem)
    · exact hmem

lemma Queued.cancel {w : World} {t : TimersId} (h : w.Queued t) {t' : TimersId}
    (ht : t' < w.timers.length) (id : Nat) : (w.cancel t' id).Queued t := by
  refine h.of_le (fun id' kind c hfind => ?_) fun id' kind c _ hmem => ?_
  · rw [registry_cancel ht] at hfind
    split at hfind
    · rename_i heq
      rw [Registry.find?_remove] at hfind
      split at hfind
      · cases hfind
      · exact heq ▸ hfind
    · exact hfind
  · rw [tasks_cancel, queueOf_cancel]
    exact hmem

lemma Queued.enqueue {w : World} {t : TimersId} (h : w.Queued t) {q : QueueId}
    (hq : q < w.queues.length) (task : Microtask) : (w.enqueue q task).Queued t := by
  refine h.of_le (fun _ _ _ hfind => hfind) fun id kind c _ hmem => ?_
  rw [tasks_enqueue hq]
  split
  · rename_i heq
    exact List.mem_append_left _ (heq ▸ hmem)
  · exact hmem

/-- A task may be taken if its timer does not wait. -/
lemma Queued.pop {w w' : World} {t : TimersId} (h : w.Queued t) {q : QueueId} {task : Microtask}
    (hp : w.pop q = some (task, w'))
    (htask : ∀ id, task = .fire t id → (w.registry t).pending? id = none) : w'.Queued t := by
  have htasks := tasks_pop hp
  have hr := registry_pop hp t
  have hq := queueOf_pop hp t
  refine h.of_le (fun _ _ _ hfind => hr ▸ hfind) fun id kind c hfind hmem => ?_
  rw [hq]
  rw [htasks] at hmem
  split at hmem
  · rename_i hqq
    rcases List.mem_cons.mp hmem with hnew | hold
    · have hnone := htask id hnew.symm
      rw [hr, ← Registry.pending?_eq_some_iff, hnone] at hfind
      cases hfind
    · exact hqq ▸ hold
  · exact hmem

/-- Firing a timer takes its task, and it waits no longer. -/
lemma Queued.fire {w w₁ w₂ : World} {t : TimersId} (h : w.Queued t) (hf : w.Faithful) {q : QueueId}
    {t' : TimersId} {id : Nat} {kind : TimerKind} {c : Callback}
    (hp : w.pop q = some (.fire t' id, w₁)) (hfire : w₁.fire t' id = some (kind, c, w₂)) :
    w₂.Queued t := by
  obtain ⟨hpending, rfl⟩ := fire_eq_some_iff.mp hfire
  have hlt := (hf.pop hp).timers_lt_of_find? (Registry.pending?_eq_some_iff.mp hpending)
  have hr : ((w₁.updateRegistry t' (·.markFired id)).log (.fired t' id c)).registry t =
      if t = t' then (w.registry t').markFired id else w.registry t := by
    rw [← registry_pop hp, ← registry_pop hp]
    exact registry_updateRegistry hlt (·.markFired id) t
  have hq : ((w₁.updateRegistry t' (·.markFired id)).log (.fired t' id c)).queueOf t =
      w.queueOf t := by
    rw [← queueOf_pop hp]
    exact queueOf_updateRegistry w₁ t' (·.markFired id) t
  intro id' kind' c' hfind
  -- the timer that still waits is not the one that fires
  have hold : (w.registry t).find? id' = some ⟨kind', .pending c'⟩ ∧
      Microtask.fire t id' ≠ .fire t' id := by
    rw [hr] at hfind
    split at hfind
    · rename_i htt
      subst htt
      rw [Registry.find?_markFired] at hfind
      split at hfind
      · obtain ⟨x, -, hx⟩ := Option.map_eq_some_iff.mp hfind
        cases hx
      · rename_i hid
        exact ⟨hfind, fun heq => hid (Microtask.fire.inj heq).2⟩
    · rename_i htt
      exact ⟨hfind, fun heq => htt (Microtask.fire.inj heq).1⟩
  have hmem := h id' kind' c' hold.1
  rw [tasks_pop hp] at hmem
  rw [hq]
  split at hmem
  · rename_i hqq
    rcases List.mem_cons.mp hmem with heq | hmem'
    · exact absurd heq hold.2
    · exact hqq ▸ hmem'
  · exact hmem

/-- Letting a timer go lets no timer begin to wait. -/
lemma Queued.settle {w : World} {t : TimersId} (h : w.Queued t) {t' : TimersId}
    (ht : t' < w.timers.length) (id : Nat) (kind : TimerKind) :
    (w.settle t' id kind).Queued t := by
  have hr : (w.settle t' id kind).registry t =
      if t = t' then (w.registry t').settle id kind else w.registry t :=
    registry_updateRegistry ht (·.settle id kind) t
  have hq : (w.settle t' id kind).queueOf t = w.queueOf t :=
    queueOf_updateRegistry w t' (·.settle id kind) t
  refine h.of_le (fun id' kind' c hfind => ?_) fun _ _ _ _ hmem => hq ▸ hmem
  rw [hr] at hfind
  split at hfind
  · rename_i heq
    subst heq
    cases kind with
    | timeout =>
      rw [Registry.settle, Registry.find?_remove] at hfind
      split at hfind
      · cases hfind
      · exact hfind
    | interval => exact hfind
  · exact hfind

lemma TimerChange.queued {w w' : World} (h : TimerChange w w') (hs : w.Sound) (hf : w.Faithful)
    {t : TimersId} (hq : w.Queued t) : w'.Queued t := by
  cases h with
  | still h _ => exact hq.still h hf
  | schedule t' kind delay c ht _ => exact hq.schedule hs hf ht kind delay c
  | cancel t' id ht => exact hq.cancel ht id
  | enqueue q label body hlt => exact hq.enqueue hlt _
  | start q label body hp => exact hq.pop hp fun _ heq => by cases heq

lemma Changes.queued {w w' : World} (h : Changes w w') (hs : w.Sound) (hf : w.Faithful)
    {t : TimersId} (hq : w.Queued t) : w'.Queued t := by
  induction h with
  | refl => exact hq
  | tail h₁ h₂ ih =>
    exact h₂.timerChange.queued (Changes.sound h₁ hs) (Changes.faithful h₁ hs hf) ih

/-- Timers that are not there yet have nothing waiting. -/
lemma queued_of_ge {w : World} (hf : w.Faithful) {t : TimersId} (ht : w.timers.length ≤ t) :
    w.Queued t :=
  fun _ _ _ hfind => absurd (hf.timers_lt_of_find? hfind) (Nat.not_lt_of_ge ht)

end World

namespace Machine

/-- The stack of a machine agrees with the history and the queues of its world. -/
structure Consistent (m : Machine) : Prop where
  /-- Queues and registries are what the history tells. -/
  faithful : m.world.Faithful
  /-- A callback that runs was scheduled with its timer, and invoked. -/
  running : ∀ t id kind, (t, id, kind) ∈ m.running →
    ∃ c, .scheduled t id kind c ∈ m.world.history ∧ .fired t id c ∈ m.world.history
  /-- A callback that was invoked has returned or still runs. -/
  returned : ∀ a t id c b, m.world.history = a ++ .fired t id c :: b →
    .settled t id ∈ b ∨ ∃ kind, (t, id, kind) ∈ m.running
  /-- In a registry that is alive, every timer that waits has a task in its queue. -/
  queued : ∀ t, m.alive t = true → m.world.Queued t

/-! ## What moves write down -/

/-- A task that fires a timer is written down as started, then its callback as invoked, then what
the callback does at once. -/
lemma history_fire {m m' : Machine} (hs : m.world.Sound) {q : QueueId} {n : Nat}
    {below : List Frame} {t : TimersId} {id : Nat} {kind : TimerKind} {c : Callback} {w₁ w₂ : World}
    (hp : m.world.pop q = some (.fire t id, w₁)) (hf : w₁.fire t id = some (kind, c, w₂))
    (hm : m' = { m with
      world := w₂
      stack := .settle t id kind :: .drain q (n + 1) :: below }.invoke c) :
    m'.world.history = m.world.history ++
      .started q (.fire t id) :: .fired t id c :: m.world.letters c := by
  have hs₂ := (hs.pop hp).fire hf
  obtain ⟨-, hw₂⟩ := World.fire_eq_some_iff.mp hf
  obtain ⟨rest, -, hw₁⟩ := World.pop_eq_some_iff.mp hp
  have hletters : w₂.letters c = m.world.letters c := by
    rw [hw₂, hw₁]
    rfl
  have hh : w₂.history = m.world.history ++ [.started q (.fire t id)] ++ [.fired t id c] := by
    rw [hw₂, hw₁]
    rfl
  rw [hm, world_invoke, (hs₂.still_invoke c).history, hletters, hh]
  simp

lemma history_settle {m m' : Machine} {t : TimersId} {id : Nat} {kind : TimerKind}
    (hw : m'.world = m.world.settle t id kind) :
    m'.world.history = m.world.history ++ [.settled t id] := by
  rw [hw]
  rfl

variable {m m' : Machine}

/-- Reporting an answer leaves tasks and timers alone. -/
lemma still_report {w : World} {es : List Event} (h : World.Still w m.world es) (name : String)
    (answer : Answer) : ∃ e, World.Still w (m.report name answer).world (es ++ [e]) := by
  unfold report
  split <;> exact ⟨_, h.log rfl⟩

/-! ## Moves keep machines consistent -/

/-- The kind of a running callback is that of its entry, if it still has one. -/
lemma Consistent.kind_eq (hc : m.Consistent) {t : TimersId} {id : Nat} {kind : TimerKind}
    (hr : (t, id, kind) ∈ m.running) {x : Timer Callback}
    (hx : (m.world.registry t).find? id = some x) : x.kind = kind := by
  obtain ⟨c, hsched, -⟩ := hc.running t id kind hr
  rw [hc.faithful.entries] at hx
  obtain ⟨c', hsched'⟩ := scheduled_of_life hx
  exact (scheduled_unique (hc.faithful.scheduledIds_nodup t) hsched' hsched).1

lemma Move.faithful (h : Move m m') (hs : m.world.Sound) (hc : m.Consistent) :
    m'.world.Faithful := by
  cases h with
  | work hw _ => exact hw.faithful hs hc.faithful
  | skip _ hp _ _ => exact hc.faithful.pop hp
  | fire _ hp _ hf hm =>
    rw [hm, world_invoke]
    exact (hc.faithful.fire hp hf).invoke ((hs.pop hp).fire hf) _
  | settle hr hw =>
    have hmem := hr ▸ List.mem_cons_self
    obtain ⟨c, hsched, hfired⟩ := hc.running _ _ _ hmem
    rw [hw]
    exact hc.faithful.settle (hc.faithful.timers_lt hsched) hfired fun x hx => hc.kind_eq hmem hx

lemma Move.running (h : Move m m') (hs : m.world.Sound) (hc : m.Consistent) (t : TimersId)
    (id : Nat) (kind : TimerKind) (hr : (t, id, kind) ∈ m'.running) :
    ∃ c, .scheduled t id kind c ∈ m'.world.history ∧ .fired t id c ∈ m'.world.history := by
  have hold : (t, id, kind) ∈ m.running →
      ∃ c, .scheduled t id kind c ∈ m'.world.history ∧ .fired t id c ∈ m'.world.history := by
    intro hmem
    obtain ⟨c, hsched, hfired⟩ := hc.running t id kind hmem
    exact ⟨c, h.grows.history.subset hsched, h.grows.history.subset hfired⟩
  cases h with
  | work _ hrun => exact hold (hrun ▸ hr)
  | skip hstack _ _ hm => exact hold (running_skip hstack hm ▸ hr)
  | @fire _ _ _ _ _ _ c _ _ hstack hp _ hf hm =>
    rw [running_fire hstack hm] at hr
    rcases List.mem_cons.mp hr with heq | hmem
    · cases heq
      have hfind := Registry.pending?_eq_some_iff.mp (World.fire_eq_some_iff.mp hf).1
      rw [World.registry_pop hp, hc.faithful.entries] at hfind
      obtain ⟨a, b, heq, -⟩ := of_life_pending hfind
      have hh := history_fire hs hp hf hm
      exact ⟨c, by simp [hh, heq], by simp [hh]⟩
    · exact hold hmem
  | settle hrun _ => exact hold (hrun ▸ List.mem_cons_of_mem _ hr)

lemma Move.returned (h : Move m m') (hs : m.world.Sound) (hc : m.Consistent) (a : List Event)
    (t : TimersId) (id : Nat) (c : Callback) (b : List Event)
    (heq : m'.world.history = a ++ .fired t id c :: b) :
    .settled t id ∈ b ∨ ∃ kind, (t, id, kind) ∈ m'.running := by
  -- whatever was invoked before is as it was, if its callback is still among those that run
  have hold : ∀ es, m'.world.history = m.world.history ++ es → .fired t id c ∉ es →
      (∀ kind, (t, id, kind) ∈ m.running → (t, id, kind) ∈ m'.running ∨ .settled t id ∈ es) →
      .settled t id ∈ b ∨ ∃ kind, (t, id, kind) ∈ m'.running := by
    intro es hes hne hrun
    obtain ⟨b', rfl, hb⟩ := split_append (hes ▸ heq) hne
    rcases hc.returned a t id c b' hb with hset | ⟨kind, hmem⟩
    · exact Or.inl (List.mem_append_left _ hset)
    · rcases hrun kind hmem with hmem' | hset
      · exact Or.inr ⟨kind, hmem'⟩
      · exact Or.inl (List.mem_append_right _ hset)
  cases h with
  | work hw hrun =>
    obtain ⟨es, hes, hfir, -⟩ := hw.history
    refine hold es hes (fun hmem => ?_) fun kind hmem => Or.inl (hrun ▸ hmem)
    have hcall := mem_firings.mpr hmem
    rw [hfir] at hcall
    cases hcall
  | skip hstack hp _ hm =>
    exact hold _ (World.history_pop hp) (by simp) fun kind hmem =>
      Or.inl (running_skip hstack hm ▸ hmem)
  | @fire q t' id' _ _ kind' c' _ _ hstack hp _ hf hm =>
    have hrun := running_fire hstack hm
    have hh := history_fire hs hp hf hm
    by_cases htimer : t = t' ∧ id = id'
    · obtain ⟨rfl, rfl⟩ := htimer
      exact Or.inr ⟨kind', hrun ▸ List.mem_cons_self⟩
    · refine hold _ hh (fun hmem => ?_) fun kind hmem =>
        Or.inl (hrun ▸ List.mem_cons_of_mem _ hmem)
      simp only [List.mem_cons, reduceCtorEq, false_or, Event.fired.injEq] at hmem
      rcases hmem with ⟨ht, hid, -⟩ | hmem
      · exact htimer ⟨ht, hid⟩
      · cases World.idle_of_mem_letters hmem
  | settle hrun hw =>
    refine hold _ (history_settle hw) (by simp) fun kind hmem => ?_
    rw [hrun] at hmem
    rcases List.mem_cons.mp hmem with heq' | hmem'
    · cases heq'
      exact Or.inr List.mem_cons_self
    · exact Or.inl hmem'

lemma Move.queued (h : Move m m') (hs : m.world.Sound) (hc : m.Consistent) (t : TimersId)
    (ha : m'.alive t = true) : m'.world.Queued t := by
  have hf := hc.faithful
  have hq : m.world.Queued t := by
    rcases h.alive_before hs ha with hold | hnew
    · exact hc.queued t hold
    · exact World.queued_of_ge hf hnew
  cases h with
  | work hw _ => exact hw.queued hs hf hq
  | @skip q t' id n below hstack hp hskip hm =>
    refine hq.pop hp fun id' heq => ?_
    cases heq
    rcases hskip with hdead | hnone
    · have halive : m'.alive t = m.alive t := by
        rw [hm]
        exact alive_pop hstack hp t
      rw [halive, hdead] at ha
      cases ha
    · exact hnone
  | @fire q t' id n below kind c w₁ w₂ hstack hp _ hfire hm =>
    rw [hm, world_invoke]
    exact (hq.fire hf hp hfire).still (((hs.pop hp).fire hfire).still_invoke c) (hf.fire hp hfire)
  | @settle t' id kind hrun hw =>
    obtain ⟨c, hsched, -⟩ := hc.running t' id kind (hrun ▸ List.mem_cons_self)
    rw [hw]
    exact hq.settle (hf.timers_lt hsched) id kind

lemma consistent_start (entropy : Entropy) (script : List Step) :
    (start entropy script).Consistent := by
  refine ⟨World.faithful_start entropy, ?_, ?_, ?_⟩
  · intro t id kind hmem
    cases hmem
  · intro a t id c b heq
    exact absurd heq.symm (List.append_ne_nil_of_right_ne_nil _ (List.cons_ne_nil _ _))
  · intro t _ id kind c hfind
    cases hfind

/-- In every session, stack, history and queues agree at all times. -/
theorem Reaches.consistent {entropy : Entropy} {script : List Step} {m : Machine}
    (h : Reaches (start entropy script) m) : m.Consistent := by
  refine h.invariant (consistent_start entropy script) fun m m' hr hm hc => ?_
  exact ⟨hm.faithful hr.sound hc, hm.running hr.sound hc, hm.returned hr.sound hc,
    hm.queued hr.sound hc⟩

end Machine

end Polyfill.Session
