import Polyfill.Proofs.Session.Delivery
/-!
# Terminated workers

To terminate a worker is final.  No change of a world takes it back (`World.Change.terminated`), so
a terminated worker stays terminated in every continuation of a session.  Deliveries that were under
way when it was terminated still take up a task each, but find no recipient; new messages are
refused and leave everything as it was, and so does terminating the worker again.
-/

namespace Polyfill.Session

namespace World

variable {w w' : World} {k : WorkerId}

/-- A worker is there and has been terminated. -/
def Terminated (w : World) (k : WorkerId) : Prop :=
  ∃ worker, w.workers[k]? = some worker ∧ worker.terminated = true

/-! ## Nothing takes a termination back -/

lemma Terminated.of_eq (h : w.Terminated k) (hw : w'.workers = w.workers) : w'.Terminated k := by
  obtain ⟨worker, hk, ht⟩ := h
  exact ⟨worker, hw ▸ hk, ht⟩

/-- A change to some worker that keeps terminated workers terminated. -/
lemma Terminated.updateWorker (h : w.Terminated k) (k' : WorkerId) {f : Worker → Worker}
    (hf : ∀ worker, worker.terminated = true → (f worker).terminated = true) :
    (w.updateWorker k' f).Terminated k := by
  obtain ⟨worker, hk, ht⟩ := h
  exact getElem?_modify_of (P := fun worker : Worker => worker.terminated = true) hk ht
    (hf worker ht)

lemma Terminated.newWorker (h : w.Terminated k) (worker : Worker) :
    (w.newWorker worker).2.Terminated k := by
  obtain ⟨old, hk, ht⟩ := h
  have hlt : k < w.workers.length := (List.getElem?_eq_some_iff.mp hk).1
  exact ⟨old, (List.getElem?_append_left hlt).trans hk, ht⟩

lemma terminated_setSlot {worker : Worker} (slot : Slot) (handler : Option HandlerId) :
    (worker.setSlot slot handler).terminated = worker.terminated := by
  cases slot <;> rfl

lemma terminated_removeListener {worker : Worker} (slot : Slot) (h : HandlerId) :
    (worker.removeListener slot h).terminated = worker.terminated := by
  unfold Worker.removeListener
  split
  · exact terminated_setSlot slot none
  · rfl

lemma workers_deliver (w : World) (k : WorkerId) (h : HandlerId) (data origin : String) :
    (w.deliver k h data origin).2.workers = w.workers := by
  unfold deliver
  split <;> rfl

lemma workers_invoke (w : World) (c : Callback) : (w.invoke c).workers = w.workers := by
  cases c with
  | script label args body => rfl
  | delivery k data =>
    simp only [invoke]
    split
    · rfl
    · exact workers_deliver w _ _ _ _

lemma Aside.terminated (h : Aside w w') (ht : w.Terminated k) : w'.Terminated k := by
  cases h with
  | newWorker id url t _ => exact ht.newWorker _
  | setSlot k' slot handler _ =>
    exact ht.updateWorker k' fun worker hw => (terminated_setSlot slot handler).trans hw
  | removeListener k' slot h =>
    exact ht.updateWorker k' fun worker hw => (terminated_removeListener slot h).trans hw
  | terminate k' =>
    unfold World.terminate
    split
    · exact ht
    · split
      · exact ht
      · exact (ht.updateWorker k' (f := Worker.terminate) fun _ _ => rfl).of_eq rfl
  | call k' h data => exact ht.of_eq (workers_deliver w k' h data directOrigin)
  | _ => exact ht.of_eq rfl

/-- Every change leaves a terminated worker terminated. -/
lemma Change.terminated (h : Change w w') (ht : w.Terminated k) : w'.Terminated k := by
  cases h with
  | aside h => exact h.terminated ht
  | cancel t id _ =>
    refine ht.of_eq ?_
    simp only [World.cancel]
    split <;> rfl
  | start q label body hp =>
    obtain ⟨rest, -, rfl⟩ := pop_eq_some_iff.mp hp
    exact ht.of_eq rfl
  | _ => exact ht.of_eq rfl

lemma Changes.terminated (h : Changes w w') (ht : w.Terminated k) : w'.Terminated k := by
  induction h with
  | refl => exact ht
  | tail _ h ih => exact h.terminated ih

/-! ## What is done to a terminated worker -/

/-- A terminated worker takes no message. -/
lemma Terminated.recipient?_eq_none (h : w.Terminated k) : w.recipient? k = none := by
  obtain ⟨worker, hk, ht⟩ := h
  simp [recipient?, hk, Worker.recipient?, ht]

/-- Terminating a worker that is there leaves it terminated. -/
lemma terminated_terminate (hk : k < w.workers.length) : (w.terminate k).Terminated k := by
  have hworker := List.getElem?_eq_getElem hk
  unfold terminate
  rw [hworker]
  by_cases ht : (w.workers[k]).terminated = true
  · simp only [ht, if_true]
    exact ⟨_, hworker, ht⟩
  · simp only [ht, Bool.false_eq_true, if_false]
    exact ⟨(w.workers[k]).terminate, by simp [note, log, updateWorker, hk], rfl⟩

/-- Terminating a terminated worker does nothing at all. -/
lemma Terminated.terminate_eq (h : w.Terminated k) : w.terminate k = w := by
  obtain ⟨worker, hk, ht⟩ := h
  simp [terminate, hk, ht]

/-- A terminated worker refuses a message, and nothing else happens. -/
lemma Terminated.post_eq (h : w.Terminated k) (data : String) :
    w.post k data = (.error .workerTerminated, w) := by
  obtain ⟨worker, hk, ht⟩ := h
  simp [post, hk, ht]

/-- Whichever handle is asked, a terminated worker is said to be terminated. -/
lemma query_workerInfo {name : String} {worker : Worker} (hn : w.worker? name = some k)
    (hk : w.workers[k]? = some worker) (ht : worker.terminated = true) :
    w.query (.workerInfo name) =
      Answer.data (.list [.nat worker.id, .text worker.url, .bool true]) := by
  simp [query, hn, hk, ht]

end World

namespace Machine

variable {m m' : Machine} {k : WorkerId}

/-! ## Terminated for good -/

lemma Move.terminated (h : Move m m') (ht : m.world.Terminated k) : m'.world.Terminated k := by
  cases h with
  | work hw _ => exact hw.terminated ht
  | skip _ hp _ _ =>
    obtain ⟨rest, -, hw⟩ := World.pop_eq_some_iff.mp hp
    exact ht.of_eq (by rw [hw]; rfl)
  | fire _ hp _ hf hm =>
    refine ht.of_eq ?_
    rw [hm, world_invoke, World.workers_invoke]
    exact (World.workers_of_fire hp hf).1
  | settle _ hw => exact ht.of_eq (by rw [hw]; rfl)

/-- In a session, a terminated worker stays terminated. -/
lemma Reaches.terminated {entropy : Entropy} {script : List Step}
    (h : Reaches (start entropy script) m) (ht : m.world.Terminated k) (h' : Reaches m m') :
    m'.world.Terminated k := by
  induction h' with
  | refl => exact ht
  | move h₁ hn ih => exact (next_move (h.trans h₁).sound hn).terminated ih

/-- No move delivers a message to a terminated worker. -/
lemma Move.no_letter (h : Move m m') (hs : m.world.Sound) (ht : m.world.Terminated k) :
    ∃ es, m'.world.history = m.world.history ++ es ∧
      ∀ hd name data, .message k hd name data "" ∉ es := by
  have hnone : ∀ es : List Event, (∀ e ∈ es, e.letter? = none) →
      ∀ hd name data, .message k hd name data "" ∉ es := by
    intro es hes hd name data hmem
    cases hes _ hmem
  cases h with
  | work hw _ =>
    obtain ⟨es, hes, -, hletter⟩ := hw.history
    exact ⟨es, hes, hnone es hletter⟩
  | skip _ hp _ _ => exact ⟨_, World.history_pop hp, by simp⟩
  | @fire _ _ _ _ _ _ c _ _ _ hp _ hf hm =>
    refine ⟨_, history_fire hs hp hf hm, fun hd name data hmem => ?_⟩
    simp only [List.mem_cons, reduceCtorEq, false_or] at hmem
    -- a message is written down for the worker whose recipient was found
    cases c with
    | script label args body => cases hmem
    | delivery k' data' =>
      simp only [World.letters] at hmem
      split at hmem
      · cases hmem
      · rename_i hrec
        obtain ⟨rfl, -⟩ := Event.message.inj (List.mem_singleton.mp hmem)
        rw [ht.recipient?_eq_none] at hrec
        cases hrec
  | settle _ hw => exact ⟨_, history_settle hw, by simp⟩

/-- No message is ever delivered to a terminated worker. -/
lemma Reaches.no_letter {entropy : Entropy} {script : List Step}
    (h : Reaches (start entropy script) m) (ht : m.world.Terminated k) (h' : Reaches m m') :
    ∃ later, m'.world.history = m.world.history ++ later ∧
      ∀ hd name data, .message k hd name data "" ∉ later := by
  induction h' with
  | refl => exact ⟨[], (List.append_nil _).symm, fun _ _ _ => List.not_mem_nil⟩
  | move h₁ hn ih =>
    obtain ⟨later, hlater, hno⟩ := ih
    have hr := h.trans h₁
    obtain ⟨es, hes, hno'⟩ := (next_move hr.sound hn).no_letter hr.sound (h.terminated ht h₁)
    refine ⟨later ++ es, by rw [hes, hlater, List.append_assoc], fun hd name data hmem => ?_⟩
    rcases List.mem_append.mp hmem with hold | hnew
    · exact hno hd name data hold
    · exact hno' hd name data hnew

/-- The task of a delivery to a terminated worker is taken, counted and forgotten. -/
lemma next_of_terminated {entropy : Entropy} {script : List Step}
    (h : Reaches (start entropy script) m) (hterm : m.world.Terminated k) {q : QueueId} {n : Nat}
    {below : List Frame} {rest : List Microtask} {t : TimersId} {id : Nat} {kind : TimerKind}
    {data : String} (hs : m.stack = .drain q n :: below) (ht : m.world.tasks q = .fire t id :: rest)
    (hsched : .scheduled t id kind (.delivery k data) ∈ m.world.history) :
    ∃ m₁, m.next = some m₁ ∧ (m₁.stack = .drain q (n + 1) :: below ∨
      m₁.stack = .settle t id .timeout :: .drain q (n + 1) :: below) := by
  have hdel : ∀ hd, ¬ m.Delivers t id k hd := by
    rintro hd ⟨-, -, hworker⟩
    have hrec := World.recipient?_eq_some_iff.mpr hworker
    rw [hterm.recipient?_eq_none] at hrec
    cases hrec
  obtain ⟨m₁, hn, ⟨-, hstack⟩ | ⟨-, hstack⟩⟩ := next_of_not_delivers h hs ht hsched hdel
  · exact ⟨m₁, hn, Or.inl hstack⟩
  · exact ⟨m₁, hn, Or.inr hstack⟩

/-- A terminated worker refuses a message; only the refusal is written down. -/
lemma Posts.refused {m₀ : Machine} {worker : Worker} {data : String}
    (h : m.Posts m₀ k worker data) (ht : m.world.Terminated k) :
    ∃ e, m.next = some { m₀ with world := m.world.log e } ∧
      e.answer? = some (Answer.fault .workerTerminated) := by
  obtain ⟨name, v, hup, hk, -, hv⟩ := h
  refine next_of_execute_eq hup ?_
  simp [World.execute, World.atOnce, World.withHandle, World.withText, hk, hv, ht.post_eq]

lemma execute_terminate {w : World} {name : String} (hk : w.worker? name = some k) :
    w.execute (.terminate name) = (w.terminate k, .done Answer.done) := by
  simp [World.execute, World.atOnce, World.withHandle, hk]

/-- A worker is terminated by the step that says so. -/
lemma terminated_of_step {entropy : Entropy} {script : List Step}
    (h : Reaches (start entropy script) m) {m₀ m₁ : Machine} {name : String}
    (hup : m.upcoming? = some (.terminate name, m₀)) (hk : m.world.worker? name = some k)
    (hn : m.next = some m₁) : m₁.world.Terminated k := by
  obtain ⟨hn', hworld⟩ := next_of_upcoming hup
  obtain rfl := Option.some.inj (hn'.symm.trans hn)
  have hlt : k < m.world.workers.length := h.sound.knows (World.handle_of_worker hk)
  rw [← hworld] at hk hlt
  obtain ⟨e, hm, -⟩ := execute_of_done (execute_terminate hk)
  rw [hm]
  exact (World.terminated_terminate hlt).of_eq rfl

/-- To terminate a worker is final.  At whatever point of a session this is done, in every
continuation: every handle tells that the worker is terminated; no message reaches a handler of it
by a timer; a task that was to deliver a message to it counts for the drain that takes it; every
message posted to it is refused and changes nothing, and neither does terminating it again. -/
theorem terminated_for_good {entropy : Entropy} {script : List Step}
    (h : Reaches (start entropy script) m) {m₀ : Machine} {name : String}
    (hup : m.upcoming? = some (.terminate name, m₀)) (hk : m.world.worker? name = some k) :
    ∃ m₁, m.next = some m₁ ∧ ∀ m', Reaches m₁ m' →
      (∃ worker, m'.world.workers[k]? = some worker ∧ worker.terminated = true ∧
        ∀ name', m'.world.worker? name' = some k → m'.world.query (.workerInfo name') =
          Answer.data (.list [.nat worker.id, .text worker.url, .bool true])) ∧
      (∃ later, m'.world.history = m₁.world.history ++ later ∧
        ∀ hd name' data, .message k hd name' data "" ∉ later) ∧
      (∀ q n below rest t id kind data, m'.stack = .drain q n :: below →
        m'.world.tasks q = .fire t id :: rest →
        .scheduled t id kind (.delivery k data) ∈ m'.world.history →
        ∃ m₂, m'.next = some m₂ ∧ (m₂.stack = .drain q (n + 1) :: below ∨
          m₂.stack = .settle t id .timeout :: .drain q (n + 1) :: below)) ∧
      (∀ m₂ worker data, m'.Posts m₂ k worker data →
        ∃ e, m'.next = some { m₂ with world := m'.world.log e } ∧
          e.answer? = some (Answer.fault .workerTerminated)) ∧
      (∀ m₂ name', m'.upcoming? = some (.terminate name', m₂) → m'.world.worker? name' = some k →
        ∃ e, m'.next = some { m₂ with world := m'.world.log e } ∧
          e.answer? = some Answer.done) := by
  obtain ⟨hn, -⟩ := next_of_upcoming hup
  have ht₁ := terminated_of_step h hup hk hn
  have h₁ := h.move hn
  refine ⟨_, hn, fun m' h' => ?_⟩
  have ht := h₁.terminated ht₁ h'
  refine ⟨?_, h₁.no_letter ht₁ h', ?_, ?_, ?_⟩
  · obtain ⟨worker, hw, hterm⟩ := ht
    exact ⟨worker, hw, hterm, fun _ hname => World.query_workerInfo hname hw hterm⟩
  · intro q n below rest t id kind data hs htasks hsched
    exact next_of_terminated (h₁.trans h') ht hs htasks hsched
  · intro m₂ worker data hp
    exact hp.refused ht
  · intro m₂ name' hup' hk'
    refine next_of_execute_eq hup' ?_
    rw [execute_terminate hk', ht.terminate_eq]

/-- A session in which a handler terminates its own worker while a second message is under way,
drains the queue, and then posts to the worker by another handle and terminates it again. -/
def terminatingScript : List Step :=
  [.newQueue "q", .newTimers "t" "q", .newWorker "w" 7 "worker.js" "t", .clone "w" "v",
    .messageHandler "h" [.terminate "w", .run "q", .post "v" (.text "late"), .terminate "v"] 2,
    .setSlot .message "w" (some "h"),
    .post "w" (.text "first"),
    .post "w" (.text "second"),
    .run "q"]

/-- The second message of that session takes its task and reaches nobody; the third is refused. -/
theorem terminated_for_good_by_own_handler :
    let m (n : Nat) : Machine := (start ⟨fun _ => 0, 0⟩ terminatingScript).after n
    (∀ m', Reaches (m 11) m' → ∃ later, m'.world.history = (m 11).world.history ++ later ∧
      ∀ hd name data, .message 0 hd name data "" ∉ later) ∧
    ((m 12).world.tasks 0 = [.fire 0 2] ∧ ∃ m₂, (m 12).next = some m₂ ∧
      (m₂.stack = .drain 0 1 :: (m 12).stack.tail ∨
        m₂.stack = .settle 0 2 .timeout :: .drain 0 1 :: (m 12).stack.tail)) ∧
    (∃ (m₂ : Machine) (e : Event), (m 15).next = some { m₂ with world := (m 15).world.log e } ∧
      e.answer? = some (Answer.fault .workerTerminated)) ∧
    ∃ (m₂ : Machine) (e : Event), (m 16).next = some { m₂ with world := (m 16).world.log e } ∧
      e.answer? = some Answer.done := by
  intro m
  have hnext : (m 10).next = some (m 11) := rfl
  have hup : (m 10).upcoming? = some (.terminate "w", { m 10 with
      stack := .body [.run "q", .post "v" (.text "late"), .terminate "v"] ::
        (m 10).stack.tail }) := rfl
  have hk : (m 10).world.worker? "w" = some 0 := rfl
  obtain ⟨m₁, hn, hfinal⟩ := terminated_for_good (reaches_after _ 10 : Reaches _ (m 10)) hup hk
  obtain rfl := Option.some.inj (hnext.symm.trans hn)
  obtain ⟨-, -, htask, -⟩ := hfinal (m 12) (reaches_after_add _ 11 1)
  obtain ⟨-, -, -, hpost, -⟩ := hfinal (m 15) (reaches_after_add _ 11 4)
  obtain ⟨-, -, -, -, hagain⟩ := hfinal (m 16) (reaches_after_add _ 11 5)
  have hcalls : schedulings (m 12).world.history =
      [⟨0, 1, .delivery 0 "first"⟩, ⟨0, 2, .delivery 0 "second"⟩] := rfl
  obtain ⟨kind, hsched⟩ := mem_schedulings.mp
    (hcalls ▸ List.mem_cons_of_mem _ List.mem_cons_self)
  refine ⟨fun m' h' => (hfinal m' h').2.1, ⟨rfl, htask 0 0 _ [] 0 2 kind "second" rfl rfl hsched⟩,
    ⟨_, hpost _ _ "late" ⟨"v", .text "late", rfl, rfl, rfl, rfl⟩⟩, ⟨_, hagain _ "v" rfl rfl⟩⟩

end Machine

end Polyfill.Session
