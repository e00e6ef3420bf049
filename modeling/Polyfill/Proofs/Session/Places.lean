import Polyfill.Proofs.Session.Placings
/-!
# The places of workers

What is in a place of a worker is told by the placings of a session alone (`Machine.slotOf_after`),
be they done at the top of the session or within a running handler.  Each move of a machine is a
placing, or leaves all places alone (`Machine.next_handling`).

Handlers are known by number.  A clone of a name stands for the same number as the name, and a new
handler has a number that nothing has had before.

Handlers are called by steps that say so and by deliveries that were scheduled; nothing else ever
calls one (`Machine.invokes_of_mem_history`).
-/

namespace Polyfill.Session

namespace Machine

variable {m m' : Machine}

/-! ## One move -/

/-- The placing that a machine does next. -/
def placing? (m : Machine) : Option Placing :=
  m.upcoming?.bind fun up => m.world.placing? up.1

/-- The next step of a machine calls the handler in a place of a worker. -/
def CallsSlot (m : Machine) (slot : Slot) (k : WorkerId) (h : HandlerId) (text : String) : Prop :=
  ∃ name v m₀, m.upcoming? = some (.callSlot slot name v, m₀) ∧ m.world.worker? name = some k ∧
    v.toText = .ok text ∧ m.world.slotOf k slot = some h

/-- The next move of a machine takes the task of a delivery that was scheduled, and that may be
made. -/
def HandsOver (m : Machine) (k : WorkerId) (h : HandlerId) (data : String) : Prop :=
  ∃ q n below t id rest, m.stack = .drain q n :: below ∧ m.world.tasks q = .fire t id :: rest ∧
    .scheduled t id .timeout (.delivery k data) ∈ m.world.history ∧ m.Delivers t id k h

/-- The next move of a machine calls a handler, and writes that down as an event. -/
def Invokes (m : Machine) (e : Event) : Prop :=
  (∃ slot k h shown text, m.CallsSlot slot k h text ∧ e = .called k h shown text slot) ∨
    ∃ k h shown data, m.HandsOver k h data ∧ e = .message k h shown data ""

/-- One move of a machine, as far as handlers are concerned. -/
inductive Handling (m m' : Machine) : Prop
  /-- A placing is done. -/
  | place {p : Placing} {e : Event} (hp : m.placing? = some p)
      (hw : m'.world = (m.world.place p).log e) (he : e.answer? = some Answer.done)
  /-- All places are left alone, and no handler is called but by a direct call or a delivery. -/
  | other {es : List Event} (hp : m.placing? = none)
      (hw : ∀ k slot, m'.world.slotOf k slot = m.world.slotOf k slot)
      (hh : m'.world.history = m.world.history ++ es)
      (hes : ∀ e ∈ es, e.isCall = true → m.Invokes e)

lemma handling_of_calm (hp : m.placing? = none) (h : World.Calm m.world m'.world) :
    Handling m m' := by
  obtain ⟨es, hes, hcalls⟩ := h.history
  refine .other hp h.places hes fun e he hcall => ?_
  rw [hcalls e he] at hcall
  cases hcall

lemma isCall_of_answer {e : Event} {answer : Answer} (h : e.answer? = some answer) :
    e.isCall = false := by
  cases e <;> first | rfl | cases h

lemma calm_report (m : Machine) (name : String) (answer : Answer) :
    World.Calm m.world (m.report name answer).world := by
  obtain ⟨e, hm, he⟩ := report_eq m name answer
  rw [hm]
  exact World.calm_log _ (isCall_of_answer he)

/-- What follows on a direct call writes down the call, and is calm apart from it. -/
lemma handling_of_called {slot : Slot} {k : WorkerId} {h : HandlerId} {text : String}
    (hp : m.placing? = none) (hcalls : m.CallsSlot slot k h text)
    (hafter : World.Calm (m.world.called k h text slot) m'.world) : Handling m m' := by
  obtain ⟨es, hes, hevents⟩ := m.world.history_called k h text slot
  obtain ⟨es', hes', hcalm⟩ := hafter.history
  refine .other hp (fun k' slot' => ?_) (hes'.trans (by rw [hes, List.append_assoc]))
    fun e he hcall => ?_
  · rw [hafter.places, World.slotOf, World.workers_called]
    rfl
  · rcases List.mem_append.mp he with hnew | hlater
    · obtain ⟨shown, rfl⟩ := hevents e hnew
      exact Or.inl ⟨slot, k, h, shown, text, hcalls, rfl⟩
    · rw [hcalm e hlater] at hcall
      cases hcall

/-- A step is a placing, a direct call, or neither. -/
lemma handling_execute {s : Step} {m₀ : Machine} (hup : m.upcoming? = some (s, m₀)) :
    Handling m (m₀.execute s) := by
  obtain ⟨-, hworld⟩ := next_of_upcoming hup
  have hplacing : m.placing? = m.world.placing? s := by rw [placing?, hup]; rfl
  -- Whatever a step does at once, writing down its answer or going on later is calm.
  have hafter : World.Calm (m.world.execute s).1 (m₀.execute s).world := by
    rw [← hworld]
    rcases execute_cases m₀ s with ⟨w, answer, e, he, hm, hanswer⟩ | ⟨w, frames, he, hm⟩
    · rw [hm, he]
      exact World.calm_log w (isCall_of_answer hanswer)
    · rw [hm, he]
      exact World.Calm.refl w
  cases hp : m.world.placing? s with
  | some p =>
    obtain ⟨hexec, -⟩ := World.execute_of_placing hp
    rw [← hworld] at hexec
    obtain ⟨e, hm, he⟩ := execute_of_done hexec
    exact .place (hplacing.trans hp) (by rw [hm, hworld]) he
  | none =>
    by_cases hcall : ∃ slot name v, s = .callSlot slot name v
    · obtain ⟨slot, name, v, rfl⟩ := hcall
      rcases m.world.execute_callSlot slot name v with hsame | ⟨k, h, text, hk, hv, hslot, hexec⟩
      · rw [hsame] at hafter
        exact handling_of_calm (hplacing.trans hp) hafter
      · rw [hexec] at hafter
        exact handling_of_called (hplacing.trans hp) ⟨name, v, m₀, hup, hk, hv, hslot⟩ hafter
    · refine handling_of_calm (hplacing.trans hp) ((World.calm_execute hp ?_).trans hafter)
      exact fun slot name v heq => hcall ⟨slot, name, v, heq⟩

section Runs

variable {entropy : Entropy} {script : List Step}

/-- A timer that fires for a delivery hands over a message that was scheduled. -/
lemma handsOver_of_fire (hr : Reaches (start entropy script) m) {q : QueueId} {n : Nat}
    {below : List Frame} {t : TimersId} {id : Nat} {kind : TimerKind} {k : WorkerId}
    {data : String} {h : HandlerId} {w₁ w₂ : World} (hs : m.stack = .drain q n :: below)
    (hp : m.world.pop q = some (.fire t id, w₁)) (ha : m.alive t = true)
    (hf : w₁.fire t id = some (kind, .delivery k data, w₂)) (hrec : m.world.recipient? k = some h) :
    m.HandsOver k h data := by
  have hfaithful := hr.consistent.faithful
  obtain ⟨rest, htasks, -⟩ := World.pop_eq_some_iff.mp hp
  have hfind := Registry.pending?_eq_some_iff.mp (World.fire_eq_some_iff.mp hf).1
  rw [World.registry_pop hp] at hfind
  have huncancelled : Uncancelled t id m.world.history :=
    (hfaithful.pending_iff (htasks ▸ List.mem_cons_self)).mp ⟨kind, _, hfind⟩
  obtain ⟨a, b, hsplit, -⟩ := of_life_pending (hfaithful.entries t id ▸ hfind)
  have hsched : .scheduled t id kind (.delivery k data) ∈ m.world.history := by simp [hsplit]
  obtain ⟨rfl, -⟩ := hr.posted t id kind k data hsched
  exact ⟨q, n, below, t, id, rest, hs, htasks, hsched, ha, huncancelled,
    World.recipient?_eq_some_iff.mp hrec⟩

lemma handling_fire (hr : Reaches (start entropy script) m) {q : QueueId} {n : Nat}
    {below : List Frame} {t : TimersId} {id : Nat} {kind : TimerKind} {c : Callback}
    {w₁ w₂ : World} (hs : m.stack = .drain q n :: below)
    (hp : m.world.pop q = some (.fire t id, w₁)) (ha : m.alive t = true)
    (hf : w₁.fire t id = some (kind, c, w₂))
    (hm : m' = { m with
      world := w₂
      stack := .settle t id kind :: .drain q (n + 1) :: below }.invoke c) : Handling m m' := by
  refine .other (by simp [placing?, upcoming?, hs]) (fun k slot => ?_)
    (history_fire hr.sound hp hf hm) fun e he hcall => ?_
  · have hworkers : m'.world.workers = m.world.workers := by
      rw [hm, world_invoke, World.workers_invoke]
      exact (World.workers_of_fire hp hf).1
    rw [World.slotOf, World.slotOf, hworkers]
  · rcases List.mem_cons.mp he with rfl | he
    · cases hcall
    rcases List.mem_cons.mp he with rfl | he
    · cases hcall
    -- What is left is the message that a delivery hands over.
    cases c with
    | script label args body => cases he
    | delivery k data =>
      simp only [World.letters] at he
      split at he
      · cases he
      · rename_i h hrec
        have hover := handsOver_of_fire hr hs hp ha hf hrec
        exact Or.inr ⟨k, h, _, data, hover, List.mem_singleton.mp he⟩

/-- In a session, every move is a placing, or leaves all places alone and calls no handler but by a
direct call or a delivery. -/
theorem next_handling (hr : Reaches (start entropy script) m) (hn : m.next = some m') :
    Handling m m' := by
  cases next_turn hn with
  | step hup hm =>
    rw [hm]
    exact handling_execute hup
  | leave hs hm =>
    rw [hm]
    exact handling_of_calm (by simp [placing?, upcoming?, hs]) (World.Calm.refl _)
  | @take q n below task w hs hp hm =>
    have hnone : m.placing? = none := by simp [placing?, upcoming?, hs]
    have hpop : World.Calm m.world w := by
      obtain ⟨rest, -, rfl⟩ := World.pop_eq_some_iff.mp hp
      exact .of_workers rfl rfl (by simp [Event.isCall])
    cases hm ▸ started_startTask { m with world := w, stack := .drain q (n + 1) :: below } task with
    | script label body => exact handling_of_calm hnone hpop
    | skip _ => exact handling_of_calm hnone hpop
    | fire ha hf =>
      rw [alive_pop hs hp] at ha
      exact handling_fire hr hs hp ha hf rfl
  | @finish q n below hs _ hm =>
    rw [hm]
    refine handling_of_calm (by simp [placing?, upcoming?, hs]) (World.Calm.trans ?_
      (calm_report { m with world := m.world.log (.drained q n), stack := below } _ _))
    exact World.calm_log m.world rfl
  | settle hs hm =>
    rw [hm]
    exact handling_of_calm (by simp [placing?, upcoming?, hs])
      (.of_workers rfl rfl (by simp [Event.isCall]))
  | @reply name answer below hs hm =>
    rw [hm]
    exact handling_of_calm (by simp [placing?, upcoming?, hs])
      (calm_report { m with stack := below } name answer)

/-! ## Whole runs -/

/-- The placings that a machine does in its first moves, in order. -/
def placings (m : Machine) (n : Nat) : List Placing :=
  (List.range n).filterMap fun i => (m.after i).placing?

lemma placings_succ (m : Machine) (n : Nat) :
    m.placings (n + 1) = m.placings n ++ (m.after n).placing?.toList := by
  rw [placings, List.range_succ, List.filterMap_append, placings]
  cases h : (m.after n).placing? <;> simp [h]

lemma placing?_of_rest (h : m.next = none) : m.placing? = none := by
  rw [placing?, Option.bind_eq_none_iff]
  intro up hup
  rw [(next_of_upcoming hup).1] at h
  cases h

/-- One move leaves in a place what the placing leaves there, if it is one. -/
lemma slotOf_next (hr : Reaches (start entropy script) m) (hn : m.next = some m') (k : WorkerId)
    (slot : Slot) : m'.world.slotOf k slot =
      m.placing?.toList.foldl (fun held p => p.leaves k slot held) (m.world.slotOf k slot) := by
  cases next_handling hr hn with
  | place hp hw _ =>
    obtain ⟨up, -, hup⟩ := Option.bind_eq_some_iff.mp hp
    rw [hw, hp]
    exact World.slotOf_place (hr.sound.worker_lt_of_placing hup) k slot
  | other hp hw _ _ =>
    rw [hw, hp]
    rfl

/-- A placing that comes next is done, and nothing else. -/
lemma placedOnly_next {p : Placing} (hr : Reaches (start entropy script) m)
    (hp : m.placing? = some p) :
    ∃ m', m.next = some m' ∧ World.PlacedOnly p m.world m'.world := by
  obtain ⟨up, hup, hplacing⟩ := Option.bind_eq_some_iff.mp hp
  obtain ⟨hn, -⟩ := next_of_upcoming hup
  refine ⟨_, hn, ?_⟩
  cases next_handling hr hn with
  | place hp' hw he =>
    cases hp.symm.trans hp'
    rw [hw]
    exact World.placedOnly_place (hr.sound.worker_lt_of_placing hplacing) he
  | other hp' _ _ _ => cases hp.symm.trans hp'

/-- What is in a place is what all placings of a session so far leave there. -/
lemma slotOf_after (entropy : Entropy) (script : List Step) (n : Nat) (k : WorkerId) (slot : Slot) :
    ((start entropy script).after n).world.slotOf k slot =
      ((start entropy script).placings n).foldl (fun held p => p.leaves k slot held) none := by
  induction n with
  | zero => rfl
  | succ n ih =>
    rw [placings_succ, List.foldl_append, ← ih, after_succ]
    cases hn : ((start entropy script).after n).next with
    | none =>
      rw [placing?_of_rest hn]
      rfl
    | some m' => exact slotOf_next (reaches_after _ n) hn k slot

/-- In a session, every call of a handler that is written down was made by a direct call or by a
delivery. -/
theorem invokes_of_mem_history (entropy : Entropy) (script : List Step) (n : Nat) {e : Event}
    (he : e ∈ ((start entropy script).after n).world.history) (hcall : e.isCall = true) :
    ∃ i < n, ((start entropy script).after i).Invokes e := by
  induction n with
  | zero => cases he
  | succ n ih =>
    have hold : e ∈ ((start entropy script).after n).world.history →
        ∃ i < n + 1, ((start entropy script).after i).Invokes e := fun hmem => by
      obtain ⟨i, hi, hinv⟩ := ih hmem
      exact ⟨i, Nat.lt_succ_of_lt hi, hinv⟩
    rw [after_succ] at he
    cases hn : ((start entropy script).after n).next with
    | none => exact hold (by rwa [hn] at he)
    | some m' =>
      rw [hn, Option.getD_some] at he
      cases next_handling (reaches_after _ n) hn with
      | place _ hw hanswer =>
        rw [hw] at he
        rcases List.mem_append.mp he with hmem | hnew
        · exact hold hmem
        · rw [List.mem_singleton.mp hnew, isCall_of_answer hanswer] at hcall
          cases hcall
      | other _ _ hh hes =>
        rw [hh] at he
        rcases List.mem_append.mp he with hmem | hnew
        · exact hold hmem
        · exact ⟨n, Nat.lt_succ_self n, hes e hnew hcall⟩

end Runs

end Machine

namespace World

variable {w : World}

/-! ## Identity -/

lemma handle?_bind (w : World) (name : String) (h : Handle) :
    (w.bind name h).handle? name = some h := by
  simp [handle?, bind]

/-- A clone of a worker's name stands for the same worker. -/
lemma worker?_clone {name : String} {k : WorkerId} (hk : w.worker? name = some k) (as : String) :
    (w.execute (.clone name as)).1.worker? as = some k := by
  have hexec : (w.execute (.clone name as)).1 = w.bind as (.worker k) := by
    simp [execute, atOnce, clone, handle_of_worker hk]
  rw [hexec, worker?, handle?_bind]

lemma handle_of_handler {name : String} {h : HandlerId} (hh : w.handler? name = some h) :
    w.handle? name = some (.handler h) := by
  unfold handler? at hh
  split at hh <;> cases hh
  assumption

/-- A clone of a handler's name stands for the same handler. -/
lemma handler?_clone {name : String} {h : HandlerId} (hh : w.handler? name = some h)
    (as : String) : (w.execute (.clone name as)).1.handler? as = some h := by
  have hexec : (w.execute (.clone name as)).1 = w.bind as (.handler h) := by
    simp [execute, atOnce, clone, handle_of_handler hh]
  rw [hexec, handler?, handle?_bind]

/-- No name stands for a handler, and no place holds it. -/
def Unseen (w : World) (h : HandlerId) : Prop :=
  (∀ name, w.handler? name ≠ some h) ∧ ∀ k slot, w.slotOf k slot ≠ some h

/-- A number that no handler has had so far has not been seen anywhere. -/
lemma Sound.unseen (hs : w.Sound) : w.Unseen w.handlers.length := by
  refine ⟨fun name hname => ?_, fun k slot hslot => ?_⟩
  · exact Nat.lt_irrefl _ (hs.knows (handle_of_handler hname))
  · obtain ⟨worker, hk, hheld⟩ := Option.bind_eq_some_iff.mp hslot
    obtain ⟨handler, hh, -⟩ := hs.slots k worker hk slot _ hheld
    exact Nat.lt_irrefl _ (List.getElem?_eq_some_iff.mp hh).1

/-- What is made is a handler of its own, whatever others do the same. -/
lemma Sound.handler?_new (hs : w.Sound) (as : String) (handler : Handler) :
    ∃ h, ((w.newHandler handler).2.bind as (.handler w.handlers.length)).handler? as = some h ∧
      w.Unseen h :=
  ⟨w.handlers.length, by rw [handler?, handle?_bind], hs.unseen⟩

end World

/-! ## The two places of a worker -/

namespace Machine

/-- The places of a worker are two cells, which know handlers by identity.  At every point of a
session, a place of a worker holds the handler that was put there last, whatever names worker and
handler went by and wherever the step stood, unless the place has been cleared since or that very
handler been taken away.  A placing changes its own place and nothing else: not the other place, nor
what else a worker is, other workers, queues or timers.  A clone of a name stands for the same
worker or handler, and a new handler is none that was seen before.  An error handler is called only
by a step that calls it directly; a message handler by such a step, or by a delivery that was
scheduled. -/
theorem places_hold_last_listener (entropy : Entropy) (script : List Step) :
    let m := (start entropy script).after
    (∀ n k slot h, (m n).world.slotOf k slot = some h ↔
      Placing.LastPut k slot h ((start entropy script).placings n)) ∧
    (∀ n p, (m n).placing? = some p → World.PlacedOnly p (m n).world (m (n + 1)).world) ∧
    (∀ n, let w := (m n).world
      (∀ name k as, w.worker? name = some k →
        (w.execute (.clone name as)).1.worker? as = some k) ∧
      (∀ name h as, w.handler? name = some h →
        (w.execute (.clone name as)).1.handler? as = some h) ∧
      (∀ as body times, ∃ h,
        (w.execute (.messageHandler as body times)).1.handler? as = some h ∧ w.Unseen h) ∧
      ∀ as, ∃ h, (w.execute (.errorHandler as)).1.handler? as = some h ∧ w.Unseen h) ∧
    (∀ n k h shown text, .failure k h shown text ∈ (m n).world.history →
      ∃ i < n, (m i).CallsSlot .error k h text) ∧
    ∀ n k h shown data origin, .message k h shown data origin ∈ (m n).world.history →
      ∃ i < n, (origin = World.directOrigin ∧ (m i).CallsSlot .message k h data) ∨
        (origin = "" ∧ (m i).HandsOver k h data) := by
  intro m
  have hr : ∀ n, Reaches (start entropy script) (m n) := reaches_after _
  refine ⟨fun n k slot h => ?_, fun n p hp => ?_, fun n => ⟨fun name k as hk => ?_,
    fun name h as hh => ?_, fun as body times => ?_, fun as => ?_⟩, fun n k h shown text he => ?_,
    fun n k h shown data origin he => ?_⟩
  · rw [slotOf_after, Placing.foldl_leaves_eq_some_iff]
  · obtain ⟨m', hn, hplaced⟩ := placedOnly_next (hr n) hp
    have hm : m (n + 1) = (m n).next.getD (m n) := after_succ _ n
    rwa [hm, hn]
  · exact World.worker?_clone hk as
  · exact World.handler?_clone hh as
  · exact (hr n).sound.handler?_new as _
  · exact (hr n).sound.handler?_new as _
  · obtain ⟨i, hi, ⟨slot, k', h', name, text', hcalls, heq⟩ | ⟨k', h', name, data, -, heq⟩⟩ :=
      invokes_of_mem_history entropy script n he rfl
    · cases slot with
      | message => cases heq
      | error =>
        cases heq
        exact ⟨i, hi, hcalls⟩
    · cases heq
  · obtain ⟨i, hi, ⟨slot, k', h', name, text, hcalls, heq⟩ | ⟨k', h', name, text, hover, heq⟩⟩ :=
      invokes_of_mem_history entropy script n he rfl
    · cases slot with
      | message =>
        cases heq
        exact ⟨i, hi, Or.inl ⟨rfl, hcalls⟩⟩
      | error => cases heq
    · cases heq
      exact ⟨i, hi, Or.inr ⟨rfl, hover⟩⟩

-- A handler that is called puts another one into its own place, by another name of its worker, and
-- is then no longer there to be taken away.
example :
    let m := (start ⟨fun _ => 0, 0⟩ [.newQueue "q", .newTimers "t" "q",
      .newWorker "w" 7 "worker.js" "t", .clone "w" "v", .messageHandler "next" [] 1,
      .messageHandler "first" [.addListener "v" "next", .removeListener "w" "first"] 1,
      .addListener "w" "first", .post "w" (.text "hello"), .run "q"]).after
    (m 8).world.slotOf 0 .message = some 1 ∧ (m 11).world.slotOf 0 .message = some 0 ∧
      (m 12).world.slotOf 0 .message = some 0 :=
  ⟨rfl, rfl, rfl⟩

end Machine

end Polyfill.Session
