import Mathlib.Algebra.GroupWithZero.Nat
import Polyfill.Proofs.Session.Running
import Polyfill.Session.Progress
/-!
# Tasks are conserved

Every task that was put into a queue is still there or was taken by one drain.  The accounts of a
queue are kept by three numbers: the tasks that were started, the values that drains have returned,
and the counts of drains that are still under way.  A move takes one task for the drain on top of
the stack, or ends that drain, or leaves the accounts alone (`Machine.Account`), so the tasks
started are always the values returned and the counts under way.

What a drain counts are the tasks it takes itself (`Machine.Draining`): while it waits below other
work, whatever is taken there is counted there.
-/

namespace Polyfill.Session

namespace Event

/-- The value that a drain of a queue returns with an event. -/
def returned? (q : QueueId) : Event → Option Nat
  | .drained q' n => if q' = q then some n else none
  | _ => none

/-- Whether an event is the work of a drain: it takes a task, or it returns. -/
def ofDrain : Event → Bool
  | .started _ _ | .drained _ _ => true
  | _ => false

lemma ofDrain_of_isRemark {e : Event} (he : e.isRemark = true) : e.ofDrain = false := by
  cases e <;> simp_all [isRemark, ofDrain]

lemma ofDrain_of_answer? {e : Event} {answer : Answer} (he : e.answer? = some answer) :
    e.ofDrain = false := by
  cases e <;> simp_all [answer?, ofDrain]

end Event

/-- The values that drains of a queue have returned, in order. -/
def returnsOn (q : QueueId) (h : List Event) : List Nat :=
  h.filterMap (Event.returned? q)

@[simp] lemma returnsOn_nil (q : QueueId) : returnsOn q [] = [] := rfl

@[simp] lemma returnsOn_cons (q : QueueId) (e : Event) (h : List Event) :
    returnsOn q (e :: h) = (e.returned? q).toList ++ returnsOn q h :=
  filterMap_cons_toList _ _ _

@[simp] lemma returnsOn_append (q : QueueId) (h h' : List Event) :
    returnsOn q (h ++ h') = returnsOn q h ++ returnsOn q h' :=
  List.filterMap_append

/-- The tasks of a queue that a frame has taken so far. -/
def Frame.taken (q : QueueId) : Frame → Nat
  | .drain q' n => if q' = q then n else 0
  | _ => 0

namespace World

/-! ## Changes that are not the work of drains -/

/-- No task is taken and no drain returns. -/
def Quiet (w w' : World) : Prop :=
  ∀ q, startedOn q w'.history = startedOn q w.history ∧
    returnsOn q w'.history = returnsOn q w.history

variable {w w' : World}

lemma Quiet.refl (w : World) : Quiet w w :=
  fun _ => ⟨rfl, rfl⟩

lemma Quiet.trans {w₁ w₂ w₃ : World} (h : Quiet w₁ w₂) (h' : Quiet w₂ w₃) : Quiet w₁ w₃ :=
  fun q => ⟨(h' q).1.trans (h q).1, (h' q).2.trans (h q).2⟩

/-- What is written down is not the work of drains. -/
lemma Quiet.append {es : List Event} (hh : w'.history = w.history ++ es)
    (hes : ∀ e ∈ es, e.ofDrain = false) : Quiet w w' := by
  intro q
  have hst : startedOn q es = [] := List.filterMap_eq_nil_iff.mpr fun e he => by
    have := hes e he
    cases e <;> simp_all [Event.started?, Event.ofDrain]
  have hret : returnsOn q es = [] := List.filterMap_eq_nil_iff.mpr fun e he => by
    have := hes e he
    cases e <;> simp_all [Event.returned?, Event.ofDrain]
  simp [hh, hst, hret]

lemma quiet_log (w : World) {e : Event} (he : e.ofDrain = false) : Quiet w (w.log e) :=
  Quiet.append rfl (by simpa using he)

lemma quiet_deliver (w : World) (k : WorkerId) (h : HandlerId) (data origin : String) :
    Quiet w (w.deliver k h data origin).2 := by
  unfold deliver
  split
  · rename_i name body allowance _
    exact quiet_log { w with handlers := w.handlers.set h ⟨name, .message body allowance⟩ } rfl
  · exact quiet_log w rfl
  · exact Quiet.refl w

lemma quiet_invoke (w : World) (c : Callback) : Quiet w (w.invoke c) := by
  unfold invoke
  split
  · exact Quiet.refl w
  · split
    · exact Quiet.refl w
    · exact quiet_deliver w _ _ _ _

lemma Aside.quiet (h : Aside w w') : Quiet w w' := by
  cases h with
  | remark e he => exact quiet_log w (Event.ofDrain_of_isRemark he)
  | perform act =>
    refine Quiet.append rfl fun e he => ?_
    obtain ⟨n, -, rfl⟩ := List.mem_map.mp he
    rfl
  | terminate k =>
    unfold World.terminate
    split
    · exact Quiet.refl w
    · split
      · exact Quiet.refl w
      · exact quiet_log (w.updateWorker k Worker.terminate) rfl
  | enqueue q label body _ => exact Quiet.append rfl (by simp [Event.ofDrain])
  | call k h data => exact quiet_deliver w k h data directOrigin
  | _ => exact fun _ => ⟨rfl, rfl⟩

lemma Asides.quiet (h : Asides w w') : Quiet w w' := by
  induction h with
  | refl => exact Quiet.refl w
  | tail _ h ih => exact ih.trans h.quiet

lemma quiet_schedule (w : World) (t : TimersId) (kind : TimerKind) (delay : Nat) (c : Callback) :
    Quiet w (w.schedule t kind delay c).2 := by
  obtain ⟨n₁, n₂, hh⟩ := history_schedule w t kind delay c
  exact Quiet.append hh (by simp [Event.ofDrain])

lemma quiet_cancel (w : World) (t : TimersId) (id : Nat) : Quiet w (w.cancel t id) := by
  have h : Quiet w ((w.updateRegistry t (·.remove id)).log (.cancelled t id)) :=
    Quiet.append rfl (by simp [Event.ofDrain])
  simp only [cancel]
  split
  · exact h.trans (quiet_log _ rfl)
  · exact h

/-- No step takes a task itself, not even one that begins a drain. -/
lemma Sound.quiet_execute (hs : w.Sound) (s : Step) : Quiet w (w.execute s).1 := by
  cases execute_deed hs s with
  | aside h => exact h.quiet
  | schedule _ _ he =>
    rw [he]
    exact quiet_schedule _ _ _ _ _
  | post _ _ _ _ _ _ he =>
    rw [he]
    exact quiet_schedule _ _ _ _ _
  | cancel _ _ he =>
    rw [he]
    exact quiet_cancel _ _ _

end World

namespace Machine

variable {m m' : Machine} {q : QueueId}

/-! ## The accounts of a queue -/

/-- The tasks of a queue taken by drains that are under way. -/
def taken (m : Machine) (q : QueueId) : Nat :=
  total (Frame.taken q) m.stack

/-- What a move does to the accounts of a queue. -/
inductive Account (m m' : Machine) (q : QueueId) : Prop
  | quiet (hst : startedOn q m'.world.history = startedOn q m.world.history)
      (hret : returnsOn q m'.world.history = returnsOn q m.world.history)
      (ht : m'.taken q = m.taken q)
  /-- The drain on top of the stack takes a task. -/
  | take {n : Nat} {below : List Frame} {task : Microtask} (hs : m.stack = .drain q n :: below)
      (hst : startedOn q m'.world.history = startedOn q m.world.history ++ [task])
      (hret : returnsOn q m'.world.history = returnsOn q m.world.history)
      (ht : m'.taken q = m.taken q + 1)
  /-- The drain on top of the stack returns. -/
  | finish {n : Nat} {below : List Frame} (hs : m.stack = .drain q n :: below)
      (hs' : m'.stack = below)
      (hst : startedOn q m'.world.history = startedOn q m.world.history)
      (hret : returnsOn q m'.world.history = returnsOn q m.world.history ++ [n])
      (ht : m'.taken q + n = m.taken q)

lemma Account.of_quiet (hw : World.Quiet m.world m'.world) (ht : m'.taken q = m.taken q) :
    Account m m' q :=
  .quiet (hw q).1 (hw q).2 ht

lemma quiet_report (m : Machine) (name : String) (answer : Answer) :
    World.Quiet m.world (m.report name answer).world := by
  obtain ⟨e, he, ha⟩ := report_eq m name answer
  rw [he]
  exact World.quiet_log m.world (Event.ofDrain_of_answer? ha)

lemma taken_of_stack {frame : Frame} {below : List Frame} (hs : m.stack = frame :: below) :
    m.taken q = frame.taken q + total (Frame.taken q) below := by
  rw [taken, hs, total_cons]

/-- Frames without a drain have taken nothing. -/
lemma total_taken_eq_zero {frames : List Frame} (h : ∀ n, .drain q n ∉ frames) :
    total (Frame.taken q) frames = 0 := by
  induction frames with
  | nil => rfl
  | cons frame frames ih =>
    have hframe : frame.taken q = 0 := by
      cases frame with
      | drain q' n =>
        refine if_neg fun hq => h n ?_
        rw [hq]
        exact List.mem_cons_self
      | _ => rfl
    rw [total_cons, hframe, ih fun n hmem => h n (List.mem_cons_of_mem _ hmem)]

/-- A step leaves the accounts alone; a drain that it begins has taken nothing. -/
lemma account_step {s : Step} {m₀ : Machine} (hs : m.world.Sound)
    (hup : m.upcoming? = some (s, m₀)) (q : QueueId) : Account m (m₀.execute s) q := by
  obtain ⟨-, hworld⟩ := next_of_upcoming hup
  have hquiet := hs.quiet_execute s
  have htaken : m₀.taken q = m.taken q := by
    rcases stack_of_upcoming hup with ⟨hnil, hnil₀⟩ | ⟨rest, below, hstack, hstack₀⟩
    · rw [taken, taken, hnil, hnil₀]
    · rw [taken_of_stack hstack, taken_of_stack hstack₀]
      rfl
  rw [← hworld] at hquiet
  rcases execute_cases m₀ s with ⟨w, answer, e, he, hm, ha⟩ | ⟨w, frames, he, hm⟩
  · rw [he, hworld] at hquiet
    rw [hm]
    exact .of_quiet (hquiet.trans (World.quiet_log w (Event.ofDrain_of_answer? ha))) htaken
  · rw [he, hworld] at hquiet
    have hzero : total (Frame.taken q) frames = 0 := by
      rcases enter_of_execute he with ⟨-, q', -, -, -, rfl⟩ | ⟨body, name, answer, rfl⟩
      · simp [Frame.taken]
      · rfl
    rw [hm]
    refine .of_quiet hquiet ?_
    rw [taken, total_append, hzero, Nat.zero_add, ← taken, htaken]

/-- Starting a task leaves all accounts alone: it was accounted for when it was taken. -/
lemma Started.quiet {task : Microtask} (h : Started m task m') (q : QueueId) :
    World.Quiet m.world m'.world ∧ m'.taken q = m.taken q := by
  obtain ⟨frames, hframes, hdrain⟩ := h.stack
  constructor
  · cases h with
    | script label body => exact World.Quiet.refl _
    | skip _ => exact World.Quiet.refl _
    | fire _ hf =>
      obtain ⟨-, rfl⟩ := World.fire_eq_some_iff.mp hf
      obtain ⟨bodies, hinvoke⟩ := invoke_eq _ _
      rw [hinvoke]
      refine World.Quiet.trans ?_ (World.quiet_invoke _ _)
      exact World.Quiet.append rfl (by simp [Event.ofDrain])
  · rw [taken, hframes, total_append, total_taken_eq_zero fun n => hdrain q n, Nat.zero_add]
    rfl

/-- A task that is taken is accounted for by the drain that takes it. -/
lemma account_take {q' : QueueId} {n : Nat} {below : List Frame} {task : Microtask} {w : World}
    (hs : m.stack = .drain q' n :: below) (hp : m.world.pop q' = some (task, w))
    (h : Started { m with world := w, stack := .drain q' (n + 1) :: below } task m')
    (q : QueueId) : Account m m' q := by
  obtain ⟨hquiet, htaken⟩ := h.quiet q
  obtain ⟨hst, hret⟩ := hquiet q
  simp only [World.history_pop hp, startedOn_append, returnsOn_append] at hst hret
  have htaken' : m'.taken q =
      Frame.taken q (.drain q' (n + 1)) + total (Frame.taken q) below := htaken
  have hret' : returnsOn q m'.world.history = returnsOn q m.world.history := by
    simpa [Event.returned?] using hret
  by_cases hq : q' = q
  · subst hq
    refine .take hs (by simpa [Event.started?] using hst) hret' ?_
    rw [htaken', taken_of_stack hs]
    simp only [Frame.taken, if_pos]
    omega
  · refine .quiet (by simpa [Event.started?, hq] using hst) hret' ?_
    rw [htaken', taken_of_stack hs]
    simp only [Frame.taken, if_neg hq]

/-- A drain that returns tells the number of tasks it took. -/
lemma account_finish {q' : QueueId} {n : Nat} {below : List Frame}
    (hs : m.stack = .drain q' n :: below)
    (hm : m' = { m with world := m.world.log (.drained q' n), stack := below }.report "run"
      (Answer.data (.nat n))) (q : QueueId) : Account m m' q := by
  have hquiet := quiet_report { m with world := m.world.log (.drained q' n), stack := below } "run"
    (Answer.data (.nat n))
  have hstack : m'.stack = below := by rw [hm, stack_report]
  rw [← hm] at hquiet
  obtain ⟨hst, hret⟩ := hquiet q
  simp only [World.log, startedOn_append, returnsOn_append] at hst hret
  have hst' : startedOn q m'.world.history = startedOn q m.world.history := by
    simpa [Event.started?] using hst
  have htaken : m'.taken q + Frame.taken q (.drain q' n) = m.taken q := by
    rw [taken_of_stack hs, taken, hstack, Nat.add_comm]
  by_cases hq : q' = q
  · subst hq
    rw [Frame.taken, if_pos rfl] at htaken
    exact .finish hs hstack hst' (by simpa [Event.returned?] using hret) htaken
  · rw [Frame.taken, if_neg hq] at htaken
    exact .quiet hst' (by simpa [Event.returned?, hq] using hret) htaken

/-- Every move takes one task for the drain on top of the stack, ends that drain, or leaves the
accounts alone. -/
theorem next_account (hs : m.world.Sound) (hn : m.next = some m') (q : QueueId) :
    Account m m' q := by
  cases next_turn hn with
  | step hup hm =>
    rw [hm]
    exact account_step hs hup q
  | leave hstack hm =>
    rw [hm]
    refine .of_quiet (World.Quiet.refl _) ?_
    rw [taken_of_stack hstack]
    exact (Nat.zero_add _).symm
  | take hstack hp hm =>
    rw [hm]
    exact account_take hstack hp (started_startTask _ _) q
  | finish hstack _ hm => exact account_finish hstack hm q
  | @settle t id kind below hstack hm =>
    rw [hm]
    refine .of_quiet (World.quiet_log (m.world.updateRegistry t (·.settle id kind)) rfl) ?_
    rw [taken_of_stack hstack]
    exact (Nat.zero_add _).symm
  | @reply name answer below hstack hm =>
    rw [hm]
    refine .of_quiet (quiet_report { m with stack := below } name answer) ?_
    rw [taken, stack_report, taken_of_stack hstack]
    exact (Nat.zero_add _).symm

/-- The tasks of a queue that were started are those that drains have told of and those that drains
under way have taken. -/
lemma Reaches.started_eq {entropy : Entropy} {script : List Step}
    (h : Reaches (start entropy script) m) (q : QueueId) :
    (startedOn q m.world.history).length =
      (returnsOn q m.world.history).sum + m.taken q := by
  induction h with
  | refl => rfl
  | move h₁ hn ih =>
    cases next_account h₁.sound hn q with
    | quiet hst hret ht => rw [hst, hret, ht, ih]
    | take _ hst hret ht =>
      rw [hst, hret, ht, List.length_append, ih]
      exact Nat.add_assoc _ _ _
    | finish _ _ hst hret ht =>
      rw [hst, hret, List.sum_append_nat, List.sum_singleton, ih, ← ht]
      omega

/-! ## The tasks of one drain -/

/-- The next step of a machine drains a queue; without the step it is `m₀`. -/
def Calls (m : Machine) (q : QueueId) (m₀ : Machine) : Prop :=
  ∃ name, m.upcoming? = some (.run name, m₀) ∧ m.world.drainable? name = some q

/-- From the call of a drain of a queue, above the frames `below`, a machine has come to another one
while the drain is under way, and the drain itself has taken so many tasks.  It takes one when it is
on top of the stack and its queue is not empty; what happens above it does not count. -/
inductive Draining (q : QueueId) (below : List Frame) (m : Machine) : Nat → Machine → Prop
  | call : Draining q below m 0 m
  | take {n : Nat} {m₁ m₂ : Machine} {task : Microtask} {rest : List Microtask}
      (h : Draining q below m n m₁) (hs : m₁.stack.length = below.length + 1)
      (ht : m₁.world.tasks q = task :: rest) (hn : m₁.next = some m₂) :
      Draining q below m (n + 1) m₂
  | inside {n : Nat} {m₁ m₂ : Machine} (h : Draining q below m n m₁)
      (hs : below.length + 1 < m₁.stack.length) (hn : m₁.next = some m₂) :
      Draining q below m n m₂

lemma Calls.next_eq {m₀ : Machine} (h : m.Calls q m₀) :
    m.next = some { m₀ with stack := .drain q 0 :: m₀.stack } := by
  obtain ⟨name, hup, hq⟩ := h
  obtain ⟨hn, hworld⟩ := next_of_upcoming hup
  have he : m₀.world.execute (.run name) = (m₀.world, .enter [.drain q 0]) := by
    simp [World.execute, World.drain, hworld, hq]
  rw [hn, execute, he]
  rfl

variable {below : List Frame} {m₁ : Machine} {n : Nat}

/-- While a drain is under way, its frame stays in its place and holds the number of tasks that the
drain has taken itself. -/
lemma Draining.stack (h : Draining q below m₁ n m) (hs : m₁.stack = .drain q 0 :: below) :
    ∃ frames, m.stack = frames ++ .drain q n :: below := by
  induction h with
  | call => exact ⟨[], hs⟩
  | @take n m m' task rest _ hlength ht hn ih =>
    obtain ⟨frames, hframes⟩ := ih
    obtain rfl : frames = [] := by
      rw [hframes, List.length_append, List.length_cons] at hlength
      exact List.eq_nil_of_length_eq_zero (by omega)
    rcases next_of_drain hframes hn with ⟨task', w, -, hstarted⟩ | ⟨hempty, -⟩
    · obtain ⟨new, hnew, -⟩ := hstarted.stack
      exact ⟨new, hnew⟩
    · rw [ht] at hempty
      cases hempty
  | @inside n m m' _ hlength hn ih =>
    obtain ⟨frames, hframes⟩ := ih
    cases frames with
    | nil =>
      rw [hframes, List.nil_append, List.length_cons] at hlength
      omega
    | cons frame frames =>
      obtain ⟨new, hnew⟩ := (next_turn hn).stack hframes
      exact ⟨new ++ frames, by rw [hnew, List.append_assoc]; rfl⟩

/-- Every drain returns: it comes to find its queue empty. -/
lemma Draining.returns (hs : m₁.stack = .drain q 0 :: below) :
    ∀ {n : Nat} {m : Machine}, Draining q below m₁ n m →
      ∃ n' m', Draining q below m₁ n' m' ∧ m'.stack = .drain q n' :: below ∧
        m'.world.tasks q = [] := by
  intro n m h
  -- every move uses up work that is left
  induction hw : m.weight using Nat.strongRecOn generalizing n m with
  | ind weight ih =>
    obtain ⟨frames, hframes⟩ := h.stack hs
    cases frames with
    | nil =>
      obtain ⟨m', hn⟩ := exists_next hframes
      cases ht : m.world.tasks q with
      | nil => exact ⟨n, m, h, hframes, ht⟩
      | cons task rest =>
        refine ih _ (hw ▸ weight_next hn) (h.take ?_ ht hn) rfl
        rw [hframes]
        rfl
    | cons frame frames =>
      obtain ⟨m', hn⟩ := exists_next hframes
      refine ih _ (hw ▸ weight_next hn) (h.inside ?_ hn) rfl
      rw [hframes, List.length_append, List.length_cons, List.length_cons]
      omega

/-- A frame that is not among the new ones on top of a stack lies below them. -/
lemma below_of_not_mem {frame : Frame} {new rest frames below : List Frame}
    (h : new ++ rest = frames ++ frame :: below) (hf : frame ∉ new) :
    ∃ frames', rest = frames' ++ frame :: below := by
  rcases List.append_eq_append_iff.mp h with ⟨l, -, hl⟩ | ⟨l, rfl, hl⟩
  · exact ⟨l, hl⟩
  · cases l with
    | nil => exact ⟨[], hl.symm⟩
    | cons frame' l =>
      obtain ⟨rfl, -⟩ := List.cons.inj hl
      exact absurd (List.mem_append_right _ List.mem_cons_self) hf

/-- Where a drain on the stack comes from: the move began it, the move was a task that it took, or
it was there below other work. -/
inductive Origin (m m' : Machine) (q : QueueId) (n : Nat) (below : List Frame) : Prop
  | call {m₀ : Machine} (hc : m.Calls q m₀) (hs : m₀.stack = below) (hz : n = 0)
      (hm : m' = { m₀ with stack := .drain q 0 :: below })
  | take {k : Nat} {task : Microtask} {rest : List Microtask} (hs : m.stack = .drain q k :: below)
      (ht : m.world.tasks q = task :: rest) (hk : n = k + 1)
  | inside {frame : Frame} {frames : List Frame}
      (hs : m.stack = frame :: (frames ++ .drain q n :: below))

lemma origin_step {s : Step} {m₀ : Machine} {frames : List Frame}
    (hup : m.upcoming? = some (s, m₀))
    (hs : (m₀.execute s).stack = frames ++ .drain q n :: below) :
    Origin m (m₀.execute s) q n below := by
  -- a drain that was there is below the body from which the step is taken
  have hold : ∀ l, m₀.stack = l ++ .drain q n :: below → Origin m (m₀.execute s) q n below := by
    intro l hl
    rcases stack_of_upcoming hup with ⟨-, hnil⟩ | ⟨rest, below', hstack, hstack₀⟩
    · rw [hnil] at hl
      cases l <;> cases hl
    · have hbody : [.body rest] ++ below' = l ++ .drain q n :: below := hstack₀.symm.trans hl
      obtain ⟨l', rfl⟩ := below_of_not_mem hbody (by simp)
      exact .inside hstack
  rcases execute_cases m₀ s with ⟨w, answer, e, -, hm, -⟩ | ⟨w, new, he, hm⟩
  · rw [hm] at hs
    exact hold frames hs
  · have hnew : new ++ m₀.stack = frames ++ .drain q n :: below := by
      rw [hm] at hs
      exact hs
    rcases enter_of_execute he with ⟨name, q', rfl, hq, rfl, rfl⟩ | ⟨body, name, answer, rfl⟩
    · cases frames with
      | nil =>
        cases hnew
        have hworld := (next_of_upcoming hup).2
        exact .call ⟨name, hup, hworld ▸ hq⟩ rfl rfl hm
      | cons frame frames => exact hold frames (List.cons.inj hnew).2
    · obtain ⟨l, hl⟩ := below_of_not_mem hnew (by simp)
      exact hold l hl

/-- Every drain on the stack has an origin. -/
lemma Turn.origin (h : Turn m m') {frames : List Frame}
    (hs : m'.stack = frames ++ .drain q n :: below) : Origin m m' q n below := by
  cases h with
  | step hup hm =>
    subst hm
    exact origin_step hup hs
  | leave hstack hm =>
    rw [hm] at hs
    exact .inside (hstack.trans (congrArg _ hs))
  | @take q' k below' task w hstack hp hm =>
    obtain ⟨rest, htasks, -⟩ := World.pop_eq_some_iff.mp hp
    obtain ⟨new, hnew, hdrain⟩ := (started_startTask
      { m with world := w, stack := .drain q' (k + 1) :: below' } task).stack
    rw [← hm, hs] at hnew
    obtain ⟨l, hl⟩ := below_of_not_mem hnew.symm (hdrain q n)
    cases l with
    | nil =>
      cases hl
      exact .take hstack htasks rfl
    | cons frame l => exact .inside (hstack.trans (congrArg _ (List.cons.inj hl).2))
  | finish hstack _ hm =>
    rw [hm, stack_report] at hs
    exact .inside (hstack.trans (congrArg _ hs))
  | settle hstack hm =>
    rw [hm] at hs
    exact .inside (hstack.trans (congrArg _ hs))
  | reply hstack hm =>
    rw [hm, stack_report] at hs
    exact .inside (hstack.trans (congrArg _ hs))

/-- Every drain on the stack was called, and holds the number of tasks that it has taken itself
since then. -/
lemma Reaches.drain_called {entropy : Entropy} {script : List Step}
    (h : Reaches (start entropy script) m) {frames : List Frame}
    (hs : m.stack = frames ++ .drain q n :: below) :
    ∃ mc m₀, Reaches (start entropy script) mc ∧ mc.Calls q m₀ ∧ m₀.stack = below ∧
      Draining q below { m₀ with stack := .drain q 0 :: below } n m := by
  induction h generalizing frames n with
  | refl => cases frames <;> cases hs
  | @move m m' h₁ hn ih =>
    cases (next_turn hn).origin hs with
    | @call m₀ hc hbelow hz hm =>
      subst hz hm
      exact ⟨m, m₀, h₁, hc, hbelow, .call⟩
    | @take k task rest hstack ht hk =>
      have htop : m.stack = [] ++ .drain q k :: below := hstack
      obtain ⟨mc, m₀, hmc, hc, hbelow, hd⟩ := ih htop
      subst hk
      exact ⟨mc, m₀, hmc, hc, hbelow, hd.take (by rw [hstack]; rfl) ht hn⟩
    | @inside frame frames' hstack =>
      have hdeep : m.stack = (frame :: frames') ++ .drain q n :: below := hstack
      obtain ⟨mc, m₀, hmc, hc, hbelow, hd⟩ := ih hdeep
      refine ⟨mc, m₀, hmc, hc, hbelow, hd.inside ?_ hn⟩
      rw [hstack, List.length_cons, List.length_append, List.length_cons]
      omega

/-- Every drain that is called returns. -/
lemma Calls.returns {m₀ : Machine} (h : m.Calls q m₀) :
    ∃ m₁ n m₂ m₃, m.next = some m₁ ∧ Draining q m₀.stack m₁ n m₂ ∧
      m₂.stack = .drain q n :: m₀.stack ∧ m₂.next = some m₃ ∧ m₃.stack = m₀.stack := by
  obtain ⟨n, m₂, hd, hstack, hempty⟩ := (Draining.call : Draining q m₀.stack
    { m₀ with stack := .drain q 0 :: m₀.stack } 0 _).returns rfl
  obtain ⟨m₃, hn⟩ := exists_next hstack
  refine ⟨_, n, m₂, m₃, h.next_eq, hd, hstack, hn, ?_⟩
  rcases next_of_drain hstack hn with ⟨task, w, hp, -⟩ | ⟨-, hm⟩
  · obtain ⟨rest, htasks, -⟩ := World.pop_eq_some_iff.mp hp
    rw [hempty] at htasks
    cases htasks
  · rw [hm, stack_report]

/-- A drain that returns leaves its queue empty and answers with its count. -/
lemma answer_of_return (hs : m.stack = .drain q n :: below) (hn : m.next = some m')
    (hret : m'.stack = below) : m.world.tasks q = [] ∧ m'.world.tasks q = [] ∧
      returnsOn q m'.world.history = returnsOn q m.world.history ++ [n] ∧
      ∃ e, m'.world.history.getLast? = some e ∧ e.answer? = some (Answer.data (.nat n)) := by
  obtain ⟨hempty, hm⟩ := eq_of_return hs hn hret
  obtain ⟨e, hreport, hanswer⟩ := report_eq
    { m with world := m.world.log (.drained q n), stack := below } "run" (Answer.data (.nat n))
  rw [hreport] at hm
  subst hm
  have hquiet := World.quiet_log (m.world.log (.drained q n)) (Event.ofDrain_of_answer? hanswer)
  refine ⟨hempty, hempty, (hquiet q).2.trans ?_, e, List.getLast?_concat, hanswer⟩
  simp [World.log, Event.returned?]

/-- The law of conservation, at every point of every session and for every queue.  The tasks that
were put into the queue are those that have started and those that are still there.  Every drain of
the queue returns.  When one does, the queue is empty, and the value that it returns is the number
of tasks it has taken itself since it was called; nothing else returns a value.  Whenever no drain
of the queue is under way, the values returned so far, by inner and outer drains together, add up to
the tasks that were put into the queue and are not there any more. -/
theorem tasks_conserved {entropy : Entropy} {script : List Step}
    (h : Reaches (start entropy script) m) (q : QueueId) :
    (enqueuedOn q m.world.history).length =
      (startedOn q m.world.history).length + (m.world.tasks q).length ∧
    (∀ m₀, m.Calls q m₀ → ∃ m₁ n m₂ m₃, m.next = some m₁ ∧ Draining q m₀.stack m₁ n m₂ ∧
      m₂.stack = .drain q n :: m₀.stack ∧ m₂.next = some m₃ ∧ m₃.stack = m₀.stack) ∧
    (∀ n below m', m.stack = .drain q n :: below → m.next = some m' → m'.stack = below →
      m.world.tasks q = [] ∧ m'.world.tasks q = [] ∧
      returnsOn q m'.world.history = returnsOn q m.world.history ++ [n] ∧
      (∃ e, m'.world.history.getLast? = some e ∧ e.answer? = some (Answer.data (.nat n))) ∧
      ∃ mc m₀ m₁, Reaches (start entropy script) mc ∧ mc.Calls q m₀ ∧ mc.next = some m₁ ∧
        m₀.stack = below ∧ Draining q below m₁ n m) ∧
    (∀ m', m.next = some m' → returnsOn q m'.world.history = returnsOn q m.world.history ∨
      ∃ n below, m.stack = .drain q n :: below ∧ m'.stack = below) ∧
    ((∀ n, .drain q n ∉ m.stack) → (returnsOn q m.world.history).sum =
      (enqueuedOn q m.world.history).length - (m.world.tasks q).length) := by
  have htasks : (enqueuedOn q m.world.history).length =
      (startedOn q m.world.history).length + (m.world.tasks q).length := by
    rw [h.consistent.faithful.tasks q, List.length_append]
  refine ⟨htasks, fun m₀ hc => hc.returns, fun n below m' hs hn hret => ?_, fun m' hn => ?_,
    fun hidle => ?_⟩
  · obtain ⟨hempty, hempty', hreturns, hanswer⟩ := answer_of_return hs hn hret
    have htop : m.stack = [] ++ .drain q n :: below := hs
    obtain ⟨mc, m₀, hmc, hc, hbelow, hd⟩ := h.drain_called htop
    refine ⟨hempty, hempty', hreturns, hanswer, mc, m₀, _, hmc, hc, hc.next_eq, hbelow, ?_⟩
    rw [hbelow]
    exact hd
  · cases next_account h.sound hn q with
    | quiet _ hret _ => exact Or.inl hret
    | take _ _ hret _ => exact Or.inl hret
    | finish hs hs' _ _ _ => exact Or.inr ⟨_, _, hs, hs'⟩
  · have hstarted := h.started_eq q
    have hzero : m.taken q = 0 := total_taken_eq_zero hidle
    omega

/-- A session whose first callback adds a task and drains the queue itself.  Of the tasks it comes
upon, one belongs to a timer that was cancelled and one to a message for a terminated worker. -/
def nestingScript : List Step :=
  [.newQueue "q", .newTimers "t" "q", .newWorker "w" 7 "worker.js" "t",
    .messageHandler "h" [] 1, .setSlot .message "w" (some "h"),
    .schedule .timeout "t" "first" 5 none [.enqueue "q" "fourth" [], .run "q"],
    .schedule .timeout "t" "second" 0 none [],
    .post "w" (.text "third"),
    .cancel .clearTimeout "t" 2,
    .terminate "w",
    .run "q",
    .enqueue "q" "fifth" []]

/-- In that session the inner drain takes three tasks and the outer one only the first; one of the
five tasks is left. -/
theorem tasks_conserved_in_nested_drains :
    let m (n : Nat) : Machine := (start ⟨fun _ => 0, 0⟩ nestingScript).after n
    ((m 19).next = some (m 20) ∧ (∃ e, (m 20).world.history.getLast? = some e ∧
        e.answer? = some (Answer.data (.nat 3))) ∧
      ∃ m₁, Draining 0 (m 20).stack m₁ 3 (m 19)) ∧
    ((m 22).next = some (m 23) ∧ (∃ e, (m 23).world.history.getLast? = some e ∧
        e.answer? = some (Answer.data (.nat 1))) ∧
      ∃ m₁, Draining 0 [] m₁ 1 (m 22)) ∧
    (returnsOn 0 (m 24).world.history).sum = 5 - 1 := by
  intro m
  have hreach (n : Nat) : Reaches (start ⟨fun _ => 0, 0⟩ nestingScript) (m n) := reaches_after _ n
  obtain ⟨-, -, hinner, -⟩ := tasks_conserved (hreach 19) 0
  obtain ⟨-, -, houter, -⟩ := tasks_conserved (hreach 22) 0
  obtain ⟨-, -, -, -, hsum⟩ := tasks_conserved (hreach 24) 0
  obtain ⟨-, -, -, hanswer, -, -, m₁, -, -, -, -, hd⟩ := hinner 3 _ (m 20) rfl rfl rfl
  obtain ⟨-, -, -, hanswer', -, -, m₁', -, -, -, -, hd'⟩ := houter 1 _ (m 23) rfl rfl rfl
  exact ⟨⟨rfl, hanswer, m₁, hd⟩, ⟨rfl, hanswer', m₁', hd'⟩, hsum fun _ => List.not_mem_nil⟩

end Machine

end Polyfill.Session
