import Polyfill.Proofs.Session.Terminated
/-!
# Putting handlers into places

A worker has a place for a message handler and one for an error handler.  Steps of four kinds put
handlers there and take them away.  Whatever names worker and handler go by, such a step is one
placing (`World.placing?`), which changes one place of one worker and nothing else
(`World.execute_of_placing`, `World.PlacedOnly`).  Placings one after the other leave the handler in
a place that was put there last, unless the place has been cleared or that very handler been taken
away since (`Placing.foldl_leaves_eq_some_iff`).

All other steps leave every place alone, and none of them calls a handler unless it is a direct call
(`World.calm_execute`, `World.execute_callSlot`).
-/

namespace Polyfill.Session

/-- Whether an event tells that a handler was called. -/
def Event.isCall : Event → Bool
  | .message _ _ _ _ _ | .failure _ _ _ _ => true
  | _ => false

/-- The event that a direct call of the handler in a place writes down. -/
def Event.called (k : WorkerId) (h : HandlerId) (shown text : String) : Slot → Event
  | .message => .message k h shown text World.directOrigin
  | .error => .failure k h shown text

/-! ## Placings -/

/-- What a step does to a place of a worker. -/
inductive Placing where
  /-- A handler is put there, or the place is cleared. -/
  | set (worker : WorkerId) (slot : Slot) (handler : Option HandlerId)
  /-- A handler is taken away, if it is the one that is there. -/
  | remove (worker : WorkerId) (slot : Slot) (handler : HandlerId)

namespace Placing

/-- The worker that a placing is about. -/
def worker : Placing → WorkerId
  | set k _ _ | remove k _ _ => k

/-- The place that a placing is about. -/
def slot : Placing → Slot
  | set _ slot _ | remove _ slot _ => slot

/-- The worker after a placing. -/
def apply : Placing → Worker → Worker
  | set _ slot handler, worker => worker.setSlot slot handler
  | remove _ slot h, worker => worker.removeListener slot h

/-- What a place holds after a placing, by what it held before. -/
def leaves (k : WorkerId) (slot : Slot) (held : Option HandlerId) : Placing → Option HandlerId
  | set k' slot' handler => if k' = k ∧ slot' = slot then handler else held
  | remove k' slot' h => if k' = k ∧ slot' = slot ∧ held = some h then none else held

/-- Of all that was put into a place, a handler came last, and neither has the place been cleared
nor the handler been taken away since. -/
def LastPut (k : WorkerId) (slot : Slot) (h : HandlerId) (ps : List Placing) : Prop :=
  ∃ before after, ps = before ++ .set k slot (some h) :: after ∧
    (∀ handler, .set k slot handler ∉ after) ∧ .remove k slot h ∉ after

variable {k : WorkerId} {slot : Slot} {h : HandlerId} {ps : List Placing} {p : Placing}

lemma not_lastPut_nil : ¬LastPut k slot h [] := by
  rintro ⟨before, after, heq, -⟩
  cases before <;> cases heq

/-- One more placing puts a handler into a place, or leaves the one there that was put there
before. -/
lemma lastPut_concat : LastPut k slot h (ps ++ [p]) ↔ p = .set k slot (some h) ∨
    (LastPut k slot h ps ∧ (∀ handler, p ≠ .set k slot handler) ∧ p ≠ .remove k slot h) := by
  constructor
  · rintro ⟨before, after, heq, hset, hremove⟩
    rcases split_concat heq with ⟨-, hp, -⟩ | ⟨after', rfl, rfl⟩
    · exact Or.inl hp.symm
    · simp only [List.mem_append, List.mem_singleton, not_or] at hset hremove
      refine Or.inr ⟨⟨before, after', rfl, fun x => (hset x).1, hremove.1⟩, ?_, ?_⟩
      · exact fun x hx => (hset x).2 hx.symm
      · exact fun hx => hremove.2 hx.symm
  · rintro (rfl | ⟨⟨before, after, rfl, hset, hremove⟩, hpset, hpremove⟩)
    · exact ⟨ps, [], rfl, fun _ => List.not_mem_nil, List.not_mem_nil⟩
    · refine ⟨before, after ++ [p], by simp, fun x hx => ?_, fun hx => ?_⟩
      · rcases List.mem_append.mp hx with hold | hnew
        · exact hset x hold
        · exact hpset x (List.mem_singleton.mp hnew).symm
      · rcases List.mem_append.mp hx with hold | hnew
        · exact hremove hold
        · exact hpremove (List.mem_singleton.mp hnew).symm

/-- A place holds a handler after a placing if it is put there, or if it was there and is left. -/
lemma leaves_eq_some_iff {held : Option HandlerId} : p.leaves k slot held = some h ↔
    p = .set k slot (some h) ∨
      (held = some h ∧ (∀ handler, p ≠ .set k slot handler) ∧ p ≠ .remove k slot h) := by
  cases p with
  | set k' slot' handler =>
    simp only [leaves]
    split
    · rename_i hp
      obtain ⟨rfl, rfl⟩ := hp
      simp
    · rename_i hp
      have hother : ∀ x, set k' slot' handler ≠ set k slot x := fun x heq => by
        cases heq
        exact hp ⟨rfl, rfl⟩
      simp [hother]
  | remove k' slot' h' =>
    simp only [leaves]
    split
    · rename_i hp
      obtain ⟨rfl, rfl, rfl⟩ := hp
      simp
    · rename_i hp
      constructor
      · intro hheld
        refine Or.inr ⟨hheld, by simp, fun heq => ?_⟩
        cases heq
        exact hp ⟨rfl, rfl, hheld⟩
      · rintro (heq | ⟨hheld, -⟩)
        · cases heq
        · exact hheld

/-- Placings one after the other leave the handler in a place that was put there last. -/
lemma foldl_leaves_eq_some_iff :
    ps.foldl (fun held p => p.leaves k slot held) none = some h ↔ LastPut k slot h ps := by
  induction ps using List.reverseRecOn with
  | nil => simp [not_lastPut_nil]
  | append_singleton ps p ih =>
    rw [List.foldl_append, List.foldl_cons, List.foldl_nil, leaves_eq_some_iff, ih, lastPut_concat]

/-- A placing leaves other places as they are. -/
lemma leaves_of_ne (p : Placing) {slot : Slot} (h : slot ≠ p.slot) (k : WorkerId)
    (held : Option HandlerId) : p.leaves k slot held = held := by
  cases p with
  | set k' slot' handler => exact if_neg fun hp => h hp.2.symm
  | remove k' slot' h' => exact if_neg fun hp => h hp.2.1.symm

/-- A placing leaves in the places of a worker what it leaves there. -/
lemma slot_apply (p : Placing) (worker : Worker) (slot : Slot) :
    (p.apply worker).slot slot = p.leaves p.worker slot (worker.slot slot) := by
  cases p with
  | set k slot' handler =>
    simp only [apply, leaves, Placing.worker, World.slot_setSlot, true_and, eq_comm]
  | remove k slot' h =>
    simp only [apply, leaves, Placing.worker, Worker.removeListener, true_and]
    by_cases hslot : slot' = slot
    · subst hslot
      split
      · rw [World.slot_setSlot, if_pos rfl]
        simp [*]
      · simp [*]
    · split
      · rw [World.slot_setSlot, if_neg (Ne.symm hslot), if_neg (fun h => hslot h.1)]
      · rw [if_neg (fun h => hslot h.1)]

lemma apply_other (p : Placing) (worker : Worker) : (p.apply worker).id = worker.id ∧
    (p.apply worker).url = worker.url ∧ (p.apply worker).timers = worker.timers ∧
    (p.apply worker).terminated = worker.terminated := by
  have hset : ∀ slot handler, (worker.setSlot slot handler).id = worker.id ∧
      (worker.setSlot slot handler).url = worker.url ∧
      (worker.setSlot slot handler).timers = worker.timers ∧
      (worker.setSlot slot handler).terminated = worker.terminated := by
    intro slot handler
    cases slot <;> exact ⟨rfl, rfl, rfl, rfl⟩
  cases p with
  | set k slot handler => exact hset slot handler
  | remove k slot h =>
    simp only [apply, Worker.removeListener]
    split
    · exact hset slot none
    · exact ⟨rfl, rfl, rfl, rfl⟩

end Placing

namespace World

variable {w w' : World} {s : Step} {p : Placing}

/-! ## Steps that are placings -/

/-- The handler in a place of a worker. -/
def slotOf (w : World) (k : WorkerId) (slot : Slot) : Option HandlerId :=
  (w.workers[k]?).bind (·.slot slot)

/-- The placing that a step is.  Worker and handler are those that go by the names in the step; a
handler can be set only in the place it is made for. -/
def placing? (w : World) : Step → Option Placing
  | .setSlot slot name none => (w.worker? name).map (.set · slot none)
  | .setSlot slot name (some handler) =>
    match w.worker? name, w.listener? handler with
    | some k, some (h, own) => if own = slot then some (.set k slot (some h)) else none
    | _, _ => none
  | .addListener name handler =>
    match w.worker? name, w.listener? handler with
    | some k, some (h, slot) => some (.set k slot (some h))
    | _, _ => none
  | .removeListener name handler =>
    match w.worker? name, w.listener? handler with
    | some k, some (h, slot) => some (.remove k slot h)
    | _, _ => none
  | _ => none

/-- The world after a placing. -/
def place (w : World) (p : Placing) : World :=
  w.updateWorker p.worker p.apply

/-- Whatever step a placing is, it is done to a worker that goes by some name, and nothing else
happens. -/
lemma execute_of_placing (h : w.placing? s = some p) :
    w.execute s = (w.place p, .done Answer.done) ∧ ∃ name, w.worker? name = some p.worker := by
  cases s with
  | setSlot slot name handler =>
    cases handler with
    | none =>
      obtain ⟨k, hk, rfl⟩ := Option.map_eq_some_iff.mp h
      refine ⟨?_, name, hk⟩
      simp only [execute, atOnce, World.setSlot, withHandle, hk]
      rfl
    | some handler =>
      simp only [placing?] at h
      split at h
      · rename_i k h' own hk hl
        split at h
        · rename_i hown
          cases h
          refine ⟨?_, name, hk⟩
          simp only [execute, atOnce, World.setSlot, withHandle, hk, hl, if_pos hown]
          rfl
        · cases h
      · cases h
  | addListener name handler =>
    simp only [placing?] at h
    split at h
    · rename_i hk hl
      cases h
      refine ⟨?_, name, hk⟩
      simp only [execute, atOnce, withHandle, hk, hl]
      rfl
    · cases h
  | removeListener name handler =>
    simp only [placing?] at h
    split at h
    · rename_i hk hl
      cases h
      refine ⟨?_, name, hk⟩
      simp only [execute, atOnce, withHandle, hk, hl]
      rfl
    · cases h
  | _ => cases h

/-- A placing is about a worker that is there. -/
lemma Sound.worker_lt_of_placing (hs : w.Sound) (h : w.placing? s = some p) :
    p.worker < w.workers.length := by
  obtain ⟨-, name, hk⟩ := execute_of_placing h
  exact hs.knows (handle_of_worker hk)

lemma slotOf_place (hp : p.worker < w.workers.length) (k : WorkerId) (slot : Slot) :
    (w.place p).slotOf k slot = p.leaves k slot (w.slotOf k slot) := by
  by_cases hk : p.worker = k
  · subst hk
    simp only [slotOf, place, updateWorker, List.getElem?_modify_eq, List.getElem?_eq_getElem hp,
      Option.map_eq_map, Option.map_some, Option.bind_some]
    exact p.slot_apply _ slot
  · have hsame : (w.place p).slotOf k slot = w.slotOf k slot := by
      simp only [slotOf, place, updateWorker, List.getElem?_modify_ne _ _ hk]
    rw [hsame]
    cases p with
    | set k' slot' handler => exact (if_neg fun h => hk h.1).symm
    | remove k' slot' h' => exact (if_neg fun h => hk h.1).symm

/-- A placing was done, and nothing else: the place it is about may hold something else now, and its
answer was written down. -/
structure PlacedOnly (p : Placing) (w w' : World) : Prop where
  worker : ∃ a b, w.workers[p.worker]? = some a ∧ w'.workers[p.worker]? = some b ∧
    b.id = a.id ∧ b.url = a.url ∧ b.timers = a.timers ∧ b.terminated = a.terminated ∧
    ∀ slot, slot ≠ p.slot → b.slot slot = a.slot slot
  others : ∀ k, k ≠ p.worker → w'.workers[k]? = w.workers[k]?
  queues : w'.queues = w.queues
  timers : w'.timers = w.timers
  handlers : w'.handlers = w.handlers
  names : w'.names = w.names
  entropy : w'.entropy = w.entropy
  history : ∃ e, w'.history = w.history ++ [e] ∧ e.answer? = some Answer.done

lemma placedOnly_place (hp : p.worker < w.workers.length) {e : Event}
    (he : e.answer? = some Answer.done) : PlacedOnly p w ((w.place p).log e) where
  worker := by
    refine ⟨w.workers[p.worker], p.apply w.workers[p.worker], List.getElem?_eq_getElem hp, ?_, ?_⟩
    · simp [log, place, updateWorker, List.getElem?_eq_getElem hp]
    · obtain ⟨hid, hurl, htimers, hterminated⟩ := p.apply_other w.workers[p.worker]
      refine ⟨hid, hurl, htimers, hterminated, fun slot hslot => ?_⟩
      rw [p.slot_apply, p.leaves_of_ne hslot]
  others k hk := by
    simp only [log, place, updateWorker, List.getElem?_modify_ne _ _ hk.symm]
  queues := rfl
  timers := rfl
  handlers := rfl
  names := rfl
  entropy := rfl
  history := ⟨e, rfl, he⟩

/-! ## Steps that are not -/

/-- All places are left as they are, and no handler is called. -/
structure Calm (w w' : World) : Prop where
  places : ∀ k slot, w'.slotOf k slot = w.slotOf k slot
  history : ∃ es, w'.history = w.history ++ es ∧ ∀ e ∈ es, e.isCall = false

lemma Calm.trans {w₁ w₂ w₃ : World} (h : Calm w₁ w₂) (h' : Calm w₂ w₃) : Calm w₁ w₃ := by
  obtain ⟨es, hes, hcalls⟩ := h.history
  obtain ⟨es', hes', hcalls'⟩ := h'.history
  refine ⟨fun k slot => (h'.places k slot).trans (h.places k slot), es ++ es', ?_, fun e he => ?_⟩
  · rw [hes', hes, List.append_assoc]
  · exact (List.mem_append.mp he).elim (hcalls e) (hcalls' e)

lemma Calm.of_workers {es : List Event} (hw : w'.workers = w.workers)
    (hh : w'.history = w.history ++ es) (hes : ∀ e ∈ es, e.isCall = false) : Calm w w' :=
  ⟨fun k slot => by rw [slotOf, slotOf, hw], es, hh, hes⟩

/-- What changes neither workers nor the history is calm. -/
lemma Calm.same (hw : w'.workers = w.workers) (hh : w'.history = w.history) : Calm w w' :=
  .of_workers hw (hh.trans (List.append_nil _).symm) fun _ he => by cases he

lemma Calm.refl (w : World) : Calm w w :=
  .same rfl rfl

lemma calm_log (w : World) {e : Event} (he : e.isCall = false) : Calm w (w.log e) :=
  .of_workers rfl rfl fun _ hmem => List.mem_singleton.mp hmem ▸ he

lemma calm_note (w : World) (n : Note) : Calm w (w.note n) :=
  calm_log w rfl

lemma calm_perform {α : Type} (w : World) (act : Act α) : Calm w (w.perform act).2 := by
  refine .of_workers rfl rfl fun e he => ?_
  obtain ⟨n, -, rfl⟩ := List.mem_map.mp he
  rfl

lemma calm_of_perform {α : Type} {act : Act α} {outcome : Except Error α}
    (h : w.perform act = (outcome, w')) : Calm w w' := by
  obtain rfl : (w.perform act).2 = w' := by rw [h]
  exact calm_perform w act

lemma calm_bind (w : World) (name : String) (h : Handle) : Calm w (w.bind name h) :=
  .same rfl rfl

lemma calm_newWorker (w : World) (id : Nat) (url : String) (t : TimersId) :
    Calm w (w.newWorker (Worker.new id url t)).2 := by
  refine ⟨fun k slot => ?_, [], (List.append_nil _).symm, fun _ he => by cases he⟩
  -- The places of a new worker are empty, as those of a worker that is not there.
  rcases Nat.lt_trichotomy k w.workers.length with hlt | rfl | hgt
  · simp only [slotOf, newWorker, List.getElem?_append_left hlt]
  · simp only [slotOf, newWorker]
    cases slot <;> simp [Worker.new, Worker.slot]
  · simp only [slotOf, newWorker]
    rw [List.getElem?_eq_none (by simp; omega), List.getElem?_eq_none (by omega)]

/-- A change of a worker that leaves its places alone is calm. -/
lemma calm_updateWorker (w : World) (k : WorkerId) {f : Worker → Worker}
    (hf : ∀ worker slot, (f worker).slot slot = worker.slot slot) :
    Calm w (w.updateWorker k f) := by
  refine ⟨fun k' slot => ?_, [], (List.append_nil _).symm, fun _ he => by cases he⟩
  simp only [slotOf, updateWorker, List.getElem?_modify, Option.map_eq_map]
  cases w.workers[k']? with
  | none => rfl
  | some worker =>
    by_cases hk : k = k'
    · simp [hk, hf]
    · simp [hk]

lemma calm_terminate (w : World) (k : WorkerId) : Calm w (w.terminate k) := by
  unfold terminate
  split
  · exact .refl w
  · split
    · exact .refl w
    · refine (calm_updateWorker w k (f := Worker.terminate) fun _ slot => ?_).trans (calm_note _ _)
      cases slot <;> rfl

lemma calm_enqueue (w : World) (q : QueueId) (task : Microtask) : Calm w (w.enqueue q task) :=
  .of_workers rfl rfl fun _ hmem => List.mem_singleton.mp hmem ▸ rfl

lemma calm_schedule (w : World) (t : TimersId) (kind : TimerKind) (delay : Nat) (c : Callback) :
    Calm w (w.schedule t kind delay c).2 := by
  obtain ⟨n₁, n₂, hh⟩ := history_schedule w t kind delay c
  exact .of_workers rfl hh (by simp [Event.isCall])

lemma calm_cancel (w : World) (t : TimersId) (id : Nat) : Calm w (w.cancel t id) := by
  have hcancel : Calm w ((w.updateRegistry t (·.remove id)).log (.cancelled t id)) :=
    .of_workers rfl rfl (by simp [Event.isCall])
  simp only [cancel]
  split
  · exact hcancel.trans (calm_note _ _)
  · exact hcancel

lemma calm_post (w : World) (k : WorkerId) (data : String) : Calm w (w.post k data).2 := by
  unfold post
  split
  · exact .refl w
  · split
    · exact .refl w
    · split
      · exact calm_note w _
      · exact calm_schedule w _ _ _ _

lemma calm_answerText (w : World) (act : Act String) : Calm w (w.answerText act).1 := by
  unfold answerText
  split <;> rename_i h <;> exact calm_of_perform h

lemma calm_crypto (w : World) (c : CryptoStep) : Calm w (w.crypto c).1 := by
  cases c with
  | call env call =>
    simp only [crypto, withHandle]
    split
    · cases call with
      | error complaint => exact .refl w
      | ok call => exact calm_perform w _
    · exact .refl w
  | createHash as env algorithm =>
    simp only [crypto, withHandle]
    split
    · exact calm_bind w _ _
    · exact .refl w
  | createHmac as env algorithm key =>
    simp only [crypto, withHandle, withText]
    split
    · split
      · exact calm_bind w _ _
      · exact .refl w
    · exact .refl w
  | update name inputs =>
    simp only [crypto]
    split
    · exact calm_bind w _ _
    · exact calm_bind w _ _
    · exact .refl w
  | digest name encoding =>
    simp only [crypto]
    split
    · exact calm_answerText w _
    · exact calm_answerText w _
    · exact .refl w

lemma calm_hostStep (w : World) (h : HostStep) : Calm w (w.hostStep h).1 := by
  cases h with
  | empty as => exact calm_bind w _ _
  | full as => exact calm_bind w _ _
  | parse as names =>
    simp only [hostStep]
    split
    · exact calm_bind w _ _
    · exact .refl w
  | insert name names =>
    simp only [hostStep, withHandle]
    split
    · split <;> exact calm_bind w _ _
    · exact .refl w
  | extend name capability as =>
    simp only [hostStep, withHandle]
    split
    · split
      · exact calm_bind w _ _
      · exact .refl w
    · exact .refl w
  | same a b =>
    simp only [hostStep, withHandle]
    split
    · split <;> exact .refl w
    · exact .refl w

lemma calm_install (w : World) (as : String) (source : HostSource) (ops : OpTable) :
    Calm w (w.install as source ops).1 := by
  unfold install
  split
  · exact .refl w
  · split
    · rename_i h
      exact calm_of_perform h
    · rename_i h
      exact (calm_of_perform h).trans (.same rfl rfl)

lemma calm_spawnWorker (w : World) (as env url : String) : Calm w (w.spawnWorker as env url).1 := by
  simp only [spawnWorker, withHandle]
  split
  · split <;> rename_i h
    · exact calm_of_perform h
    · exact ((calm_of_perform h).trans (calm_newWorker _ _ _ _)).trans (calm_bind _ _ _)
  · exact .refl w

lemma calm_clone (w : World) (name as : String) : Calm w (w.clone name as).1 := by
  unfold clone
  split
  · exact .refl w
  · exact .refl w
  · exact .refl w
  · exact calm_bind w _ _

/-- A step that is neither a placing nor a direct call leaves all places alone and calls no
handler. -/
theorem calm_execute (hp : w.placing? s = none) (hs : ∀ slot name v, s ≠ .callSlot slot name v) :
    Calm w (w.execute s).1 := by
  cases s with
  | install as source ops => exact calm_install w as source ops
  | newQueue as => exact .same rfl rfl
  | newTimers as queue =>
    simp only [execute, atOnce, withHandle]
    split
    · exact .same rfl rfl
    · exact .refl w
  | timersOf as env =>
    simp only [execute, atOnce, withHandle]
    split
    · split <;> rename_i h
      · exact (calm_of_perform h).trans (calm_bind _ _ _)
      · exact calm_of_perform h
    · exact .refl w
  | queueOf as timers =>
    simp only [execute, atOnce, withHandle]
    split
    · exact calm_bind w _ _
    · exact .refl w
  | schedule kind timers label delay args body =>
    simp only [execute, atOnce, withHandle]
    split
    · exact calm_schedule w _ _ _ _
    · exact .refl w
  | cancel verb timers id =>
    simp only [execute, atOnce, withHandle]
    split
    · exact calm_cancel w _ _
    · exact .refl w
  | enqueue queue label body =>
    simp only [execute, atOnce, withHandle]
    split
    · exact calm_enqueue w _ _
    · exact .refl w
  | run name =>
    simp only [execute, drain]
    split <;> exact .refl w
  | newWorker as id url timers =>
    simp only [execute, atOnce, withHandle]
    split
    · exact (calm_newWorker w _ _ _).trans (calm_bind _ _ _)
    · exact .refl w
  | spawnWorker as env url => exact calm_spawnWorker w as env url
  | messageHandler as body times => exact .same rfl rfl
  | errorHandler as => exact .same rfl rfl
  | setSlot slot name handler =>
    simp only [execute, atOnce, World.setSlot, withHandle]
    split
    · rename_i hk
      cases handler with
      | none => simp [placing?, hk] at hp
      | some handler =>
        simp only
        split
        · rename_i hl
          split
          · rename_i hown
            simp [placing?, hk, hl, hown] at hp
          · exact .refl w
        · exact .refl w
    · exact .refl w
  | addListener name handler =>
    simp only [execute, atOnce, withHandle]
    split
    · rename_i hk
      split
      · rename_i hl
        simp [placing?, hk, hl] at hp
      · exact .refl w
    · exact .refl w
  | removeListener name handler =>
    simp only [execute, atOnce, withHandle]
    split
    · rename_i hk
      split
      · rename_i hl
        simp [placing?, hk, hl] at hp
      · exact .refl w
    · exact .refl w
  | callSlot slot name data => exact absurd rfl (hs slot name data)
  | post name data =>
    simp only [execute, atOnce, withHandle, withText]
    split
    · rename_i k _
      split
      · rename_i data _
        have hpost := calm_post w k data
        split <;> rename_i heq <;> rwa [heq] at hpost
      · exact .refl w
    · exact .refl w
  | terminate name =>
    simp only [execute, atOnce, withHandle]
    split
    · exact calm_terminate w _
    · exact .refl w
  | clone name as => exact calm_clone w name as
  | drop name => exact .same rfl rfl
  | query q => exact .refl w
  | crypto c => exact calm_crypto w c
  | host h => exact calm_hostStep w h
  | malformed name complaint => exact .refl w

/-! ## Direct calls -/

/-- The world after the handler of a place was called directly. -/
def called (w : World) (k : WorkerId) (h : HandlerId) (text : String) : Slot → World
  | .message => (w.deliver k h text directOrigin).2
  | .error => w.deliverError k h text

/-- A direct call finds no handler and does nothing, or calls the handler in the place. -/
lemma execute_callSlot (w : World) (slot : Slot) (name : String) (v : Value) :
    (w.execute (.callSlot slot name v)).1 = w ∨
      ∃ k h text, w.worker? name = some k ∧ v.toText = .ok text ∧ w.slotOf k slot = some h ∧
        (w.execute (.callSlot slot name v)).1 = w.called k h text slot := by
  simp only [execute]
  split
  · exact Or.inl rfl
  · rename_i k hk
    split
    · rename_i text hv
      unfold callSlot
      split
      · exact Or.inl rfl
      · rename_i h hslot
        refine Or.inr ⟨k, h, text, hk, hv, hslot, ?_⟩
        cases slot <;> rfl
    · exact Or.inl rfl

lemma workers_called (w : World) (k : WorkerId) (h : HandlerId) (text : String) (slot : Slot) :
    (w.called k h text slot).workers = w.workers := by
  cases slot with
  | message => exact workers_deliver w k h text directOrigin
  | error =>
    simp only [called, deliverError]
    split <;> rfl

/-- A call of a message handler writes down at most that. -/
lemma history_deliver (w : World) (k : WorkerId) (h : HandlerId) (data origin : String) :
    ∃ es, (w.deliver k h data origin).2.history = w.history ++ es ∧
      ∀ e ∈ es, ∃ shown, e = .message k h shown data origin := by
  unfold deliver
  split
  · exact ⟨_, rfl, fun e he => ⟨_, List.mem_singleton.mp he⟩⟩
  · exact ⟨_, rfl, fun e he => ⟨_, List.mem_singleton.mp he⟩⟩
  · exact ⟨[], (List.append_nil _).symm, fun e he => by cases he⟩

/-- A direct call writes down at most that the handler was called. -/
lemma history_called (w : World) (k : WorkerId) (h : HandlerId) (text : String) (slot : Slot) :
    ∃ es, (w.called k h text slot).history = w.history ++ es ∧
      ∀ e ∈ es, ∃ shown, e = Event.called k h shown text slot := by
  cases slot with
  | message => exact history_deliver w k h text directOrigin
  | error =>
    simp only [called, deliverError]
    split
    · exact ⟨_, rfl, fun e he => ⟨_, List.mem_singleton.mp he⟩⟩
    · exact ⟨[], (List.append_nil _).symm, fun e he => by cases he⟩

end World

end Polyfill.Session
