import Polyfill.Proofs.Session.Execute
/-!
# The moves of a machine

What a machine does next is told by the top of its stack: it does a step, leaves a body, takes a
task from a queue, ends a drain, lets a timer go, or reports an answer (`Machine.Turn`).  What
a machine does and what it leaves alone is read off the six cases.

A move works on the top of the stack and leaves the rest alone (`Machine.Turn.frame`), so work that
has begun waits where it is until what it called has returned.
-/

namespace Polyfill.Session

/-- The answer that an event tells of. -/
def Event.answer? : Event → Option Answer
  | .stepped _ answer | .answered answer _ => some answer
  | _ => none

/-- What a frame becomes while it is on the stack: a body loses steps at its front, a drain counts
more tasks, and the others stay as they are. -/
inductive Frame.Continues : Frame → Frame → Prop
  | body (done rest : List Step) : Continues (.body (done ++ rest)) (.body rest)
  | drain (q : QueueId) {n n' : Nat} (h : n ≤ n') : Continues (.drain q n) (.drain q n')
  | settle (t : TimersId) (id : Nat) (kind : TimerKind) :
      Continues (.settle t id kind) (.settle t id kind)
  | reply (name : String) (answer : Answer) : Continues (.reply name answer) (.reply name answer)

namespace Frame.Continues

variable {a b c : Frame}

lemma refl (frame : Frame) : frame.Continues frame := by
  cases frame with
  | body rest => exact .body [] rest
  | drain q n => exact .drain q (Nat.le_refl n)
  | settle t id kind => exact .settle t id kind
  | reply name answer => exact .reply name answer

lemma trans (h : a.Continues b) (h' : b.Continues c) : a.Continues c := by
  cases h' with
  | body done rest =>
    cases h with
    | body done' rest' => exact List.append_assoc done' done rest ▸ .body (done' ++ done) rest
  | drain q hle =>
    cases h with
    | drain q hle' => exact .drain q (Nat.le_trans hle' hle)
  | settle t id kind => exact h
  | reply name answer => exact h

end Frame.Continues

namespace Machine

variable {m m' : Machine}

/-! ## What comes next -/

/-- The step that a machine does next, if doing a step is its next move, and the machine without the
step. -/
def upcoming? (m : Machine) : Option (Step × Machine) :=
  match m.stack with
  | [] =>
    match m.script with
    | [] => none
    | s :: rest => some (s, { m with script := rest })
  | .body (s :: rest) :: below => some (s, { m with stack := .body rest :: below })
  | _ => none

lemma next_of_upcoming {s : Step} {m₀ : Machine} (h : m.upcoming? = some (s, m₀)) :
    m.next = some (m₀.execute s) ∧ m₀.world = m.world := by
  unfold upcoming? at h
  split at h
  · rename_i hstack
    split at h
    · cases h
    · rename_i hscript
      cases h
      exact ⟨by simp [next, hstack, hscript], rfl⟩
  · rename_i hstack
    cases h
    exact ⟨by simp [next, hstack], rfl⟩
  · cases h

/-- A step is taken from the session itself, with nothing else begun, or from the body on top of the
stack. -/
lemma stack_of_upcoming {s : Step} {m₀ : Machine} (h : m.upcoming? = some (s, m₀)) :
    (m.stack = [] ∧ m₀.stack = []) ∨
      ∃ rest below, m.stack = .body (s :: rest) :: below ∧ m₀.stack = .body rest :: below := by
  unfold upcoming? at h
  split at h
  · rename_i hstack
    split at h
    · cases h
    · cases h
      exact Or.inl ⟨hstack, hstack⟩
  · rename_i hstack
    cases h
    exact Or.inr ⟨_, _, hstack, rfl⟩
  · cases h

/-- One move of a machine, by what is on top of its stack. -/
inductive Turn (m m' : Machine) : Prop
  /-- A step is done. -/
  | step {s : Step} {m₀ : Machine} (hup : m.upcoming? = some (s, m₀)) (hm : m' = m₀.execute s)
  /-- A body is over. -/
  | leave {below : List Frame} (hs : m.stack = .body [] :: below)
      (hm : m' = { m with stack := below })
  /-- A drain takes a task and starts it. -/
  | take {q : QueueId} {n : Nat} {below : List Frame} {task : Microtask} {w : World}
      (hs : m.stack = .drain q n :: below) (hp : m.world.pop q = some (task, w))
      (hm : m' = { m with world := w, stack := .drain q (n + 1) :: below }.startTask task)
  /-- A drain finds its queue empty and returns. -/
  | finish {q : QueueId} {n : Nat} {below : List Frame} (hs : m.stack = .drain q n :: below)
      (hq : m.world.tasks q = [])
      (hm : m' = { m with world := m.world.log (.drained q n), stack := below }.report "run"
        (Answer.data (.nat n)))
  /-- The callback of a timer has returned. -/
  | settle {t : TimersId} {id : Nat} {kind : TimerKind} {below : List Frame}
      (hs : m.stack = .settle t id kind :: below)
      (hm : m' = { m with world := m.world.settle t id kind, stack := below })
  /-- A step reports an answer that was known before. -/
  | reply {name : String} {answer : Answer} {below : List Frame}
      (hs : m.stack = .reply name answer :: below)
      (hm : m' = { m with stack := below }.report name answer)

/-- Every move is one of the six. -/
theorem next_turn (h : m.next = some m') : Turn m m' := by
  unfold next at h
  split at h
  · rename_i hstack
    split at h
    · cases h
    · rename_i s rest hscript
      exact .step (by simp [upcoming?, hstack, hscript]) (Option.some.inj h).symm
  · rename_i below hstack
    exact .leave hstack (Option.some.inj h).symm
  · rename_i s rest below hstack
    exact .step (by simp [upcoming?, hstack]) (Option.some.inj h).symm
  · rename_i q n below hstack
    split at h
    · rename_i task w hp
      exact .take hstack hp (Option.some.inj h).symm
    · rename_i hp
      have hempty : m.world.tasks q = [] := by
        unfold World.pop at hp
        split at hp
        · assumption
        · cases hp
      exact .finish hstack hempty (Option.some.inj h).symm
  · rename_i t id kind below hstack
    exact .settle hstack (Option.some.inj h).symm
  · rename_i name answer below hstack
    exact .reply hstack (Option.some.inj h).symm

/-- A machine that has begun something goes on. -/
lemma exists_next {frame : Frame} {below : List Frame} (hs : m.stack = frame :: below) :
    ∃ m', m.next = some m' := by
  unfold next
  rw [hs]
  split
  · rename_i heq
    cases heq
  · exact ⟨_, rfl⟩
  · exact ⟨_, rfl⟩
  · split
    · exact ⟨_, rfl⟩
    · exact ⟨_, rfl⟩
  · exact ⟨_, rfl⟩
  · exact ⟨_, rfl⟩

lemma next_of_settle {t : TimersId} {id : Nat} {kind : TimerKind} {below : List Frame}
    (hs : m.stack = .settle t id kind :: below) :
    m.next = some { m with world := m.world.settle t id kind, stack := below } := by
  unfold next
  rw [hs]

/-! ## The parts of a move -/

/-- Reporting an answer writes down one event, which tells the answer. -/
lemma report_eq (m : Machine) (name : String) (answer : Answer) :
    ∃ e, m.report name answer = { m with world := m.world.log e } ∧ e.answer? = some answer := by
  unfold report
  split
  · exact ⟨_, rfl, rfl⟩
  · exact ⟨_, rfl, rfl⟩

lemma stack_report (m : Machine) (name : String) (answer : Answer) :
    (m.report name answer).stack = m.stack := by
  obtain ⟨e, he, -⟩ := report_eq m name answer
  rw [he]

/-- A step comes to an answer, which is written down, or begins something that takes longer. -/
lemma execute_cases (m : Machine) (s : Step) :
    (∃ w answer e, m.world.execute s = (w, .done answer) ∧
      m.execute s = { m with world := w.log e } ∧ e.answer? = some answer) ∨
    ∃ w frames, m.world.execute s = (w, .enter frames) ∧
      m.execute s = { m with world := w, stack := frames ++ m.stack } := by
  unfold execute
  split
  · rename_i w answer he
    obtain ⟨e, hreport, hanswer⟩ := report_eq { m with world := w } s.name answer
    exact Or.inl ⟨w, answer, e, he, hreport, hanswer⟩
  · rename_i w frames he
    exact Or.inr ⟨w, frames, he, rfl⟩

/-- A step that comes to an answer at once writes it down. -/
lemma execute_of_done {s : Step} {w : World} {answer : Answer}
    (h : m.world.execute s = (w, .done answer)) :
    ∃ e, m.execute s = { m with world := w.log e } ∧ e.answer? = some answer := by
  rcases execute_cases m s with ⟨w', answer', e, he, hm, ha⟩ | ⟨w', frames, he, -⟩
  · cases he.symm.trans h
    exact ⟨e, hm, ha⟩
  · cases he.symm.trans h

/-- A step that leaves the world alone only writes down its answer. -/
lemma next_of_execute_eq {s : Step} {m₀ : Machine} {answer : Answer}
    (hup : m.upcoming? = some (s, m₀)) (he : m.world.execute s = (m.world, .done answer)) :
    ∃ e, m.next = some { m₀ with world := m.world.log e } ∧ e.answer? = some answer := by
  obtain ⟨hn, hworld⟩ := next_of_upcoming hup
  rw [← hworld] at he
  obtain ⟨e, hm, hanswer⟩ := execute_of_done he
  exact ⟨e, by rw [hn, hm, hworld], hanswer⟩

/-- The invocation of a callback puts a body on the stack, or nothing. -/
lemma invoke_eq (m : Machine) (c : Callback) : ∃ bodies : List (List Step),
    m.invoke c =
      { m with world := m.world.invoke c, stack := bodies.map Frame.body ++ m.stack } := by
  cases c with
  | script label args body => exact ⟨[body], rfl⟩
  | delivery k data =>
    simp only [invoke, World.invoke]
    cases (m.world.workers[k]?).bind Worker.recipient? with
    | none => exact ⟨[], rfl⟩
    | some h => exact ⟨[(m.world.deliver k h data "").1], rfl⟩

/-- What becomes of a task that is started. -/
inductive Started (m : Machine) : Microtask → Machine → Prop
  /-- A script runs its body. -/
  | script (label : String) (body : List Step) :
      Started m (.script label body) { m with stack := .body body :: m.stack }
  /-- A timer is not fired: its registry is dead, or it does not wait. -/
  | skip {t : TimersId} {id : Nat}
      (h : m.alive t = false ∨ (m.world.registry t).pending? id = none) : Started m (.fire t id) m
  /-- A timer is fired and its callback invoked. -/
  | fire {t : TimersId} {id : Nat} {kind : TimerKind} {c : Callback} {w : World}
      (ha : m.alive t = true) (hf : m.world.fire t id = some (kind, c, w)) :
      Started m (.fire t id) ({ m with world := w, stack := .settle t id kind :: m.stack }.invoke c)

lemma started_startTask (m : Machine) (task : Microtask) : Started m task (m.startTask task) := by
  cases task with
  | script label body => exact .script label body
  | fire t id =>
    simp only [startTask]
    split
    · rename_i ha
      split
      · rename_i hf
        exact .fire ha hf
      · rename_i hf
        refine .skip (Or.inr ?_)
        unfold World.fire at hf
        split at hf
        · cases hf
        · assumption
    · rename_i ha
      exact .skip (Or.inl (Bool.eq_false_iff.mpr ha))

/-! ## The stack -/

/-- A step that takes longer begins a drain that has taken nothing yet, or runs a body and reports
then. -/
lemma enter_of_execute {w w' : World} {s : Step} {frames : List Frame}
    (h : w.execute s = (w', .enter frames)) :
    (∃ name q, s = .run name ∧ w.drainable? name = some q ∧ w' = w ∧ frames = [.drain q 0]) ∨
      ∃ body name answer, frames = [.body body, .reply name answer] := by
  cases s with
  | run name =>
    simp only [World.execute, World.drain] at h
    split at h
    · rename_i q hq
      cases h
      exact Or.inl ⟨name, q, rfl, hq, rfl, rfl⟩
    · cases h
  | callSlot slot name data =>
    simp only [World.execute] at h
    split at h
    · cases h
    · split at h
      · unfold World.callSlot at h
        split at h
        · cases h
        · split at h
          · cases h
            exact Or.inr ⟨_, _, _, rfl⟩
          · cases h
      · cases h
  | _ => cases h

/-- Doing a step leaves the stack as it is or puts frames on it. -/
lemma stack_execute (m : Machine) (s : Step) : (m.execute s).stack = m.stack ∨
    ∃ w frames, m.world.execute s = (w, .enter frames) ∧
      (m.execute s).stack = frames ++ m.stack := by
  rcases execute_cases m s with ⟨w, answer, e, -, hm, -⟩ | ⟨w, frames, he, hm⟩
  · exact Or.inl (by rw [hm])
  · exact Or.inr ⟨w, frames, he, by rw [hm]⟩

/-- Starting a task puts frames on the stack, but no drain. -/
lemma Started.stack {task : Microtask} (h : Started m task m') :
    ∃ frames, m'.stack = frames ++ m.stack ∧ ∀ q n, .drain q n ∉ frames := by
  cases h with
  | script label body => exact ⟨[.body body], rfl, by simp⟩
  | skip _ => exact ⟨[], rfl, by simp⟩
  | @fire t id kind c w _ _ =>
    obtain ⟨bodies, hinvoke⟩ :=
      invoke_eq { m with world := w, stack := .settle t id kind :: m.stack } c
    refine ⟨bodies.map Frame.body ++ [.settle t id kind], ?_, by simp⟩
    rw [hinvoke, List.append_assoc]
    rfl

/-- A move works on the frame on top of the stack, which goes on below what the move begins, or is
over. -/
lemma Turn.frame (h : Turn m m') {frame : Frame} {below : List Frame}
    (hs : m.stack = frame :: below) : m'.stack = below ∨
      ∃ frames frame', frame.Continues frame' ∧ m'.stack = frames ++ frame' :: below := by
  cases h with
  | @step s m₀ hup hm =>
    obtain ⟨hnil, -⟩ | ⟨rest, below', hstack, hstack₀⟩ := stack_of_upcoming hup
    · rw [hnil] at hs
      cases hs
    · obtain ⟨rfl, rfl⟩ := List.cons.inj (hs.symm.trans hstack)
      have hrest : Frame.Continues (.body (s :: rest)) (.body rest) := .body [s] rest
      rw [hm]
      rcases stack_execute m₀ s with hsame | ⟨w, frames, -, hnew⟩
      · exact Or.inr ⟨[], _, hrest, hsame.trans hstack₀⟩
      · exact Or.inr ⟨frames, _, hrest, by rw [hnew, hstack₀]⟩
  | leave hstack hm =>
    obtain ⟨-, rfl⟩ := List.cons.inj (hs.symm.trans hstack)
    exact Or.inl (by rw [hm])
  | @take q n below' task w hstack hp hm =>
    obtain ⟨rfl, rfl⟩ := List.cons.inj (hs.symm.trans hstack)
    obtain ⟨frames, hframes, -⟩ := (started_startTask
      { m with world := w, stack := .drain q (n + 1) :: below } task).stack
    exact Or.inr ⟨frames, _, .drain q (Nat.le_succ n), by rw [hm, hframes]⟩
  | finish hstack _ hm =>
    obtain ⟨-, rfl⟩ := List.cons.inj (hs.symm.trans hstack)
    exact Or.inl (by rw [hm, stack_report])
  | settle hstack hm =>
    obtain ⟨-, rfl⟩ := List.cons.inj (hs.symm.trans hstack)
    exact Or.inl (by rw [hm])
  | reply hstack hm =>
    obtain ⟨-, rfl⟩ := List.cons.inj (hs.symm.trans hstack)
    exact Or.inl (by rw [hm, stack_report])

/-- A move leaves what is below the top of the stack alone. -/
lemma Turn.stack (h : Turn m m') {frame : Frame} {below : List Frame}
    (hs : m.stack = frame :: below) : ∃ frames, m'.stack = frames ++ below := by
  rcases h.frame hs with hover | ⟨frames, frame', -, hframes⟩
  · exact ⟨[], hover⟩
  · exact ⟨frames ++ [frame'], by rw [hframes, List.append_assoc]; rfl⟩

/-- A drain on top of the stack takes a task, or finds its queue empty and returns. -/
lemma next_of_drain {q : QueueId} {n : Nat} {below : List Frame}
    (hs : m.stack = .drain q n :: below) (hn : m.next = some m') :
    (∃ task w, m.world.pop q = some (task, w) ∧
      Started { m with world := w, stack := .drain q (n + 1) :: below } task m') ∨
    (m.world.tasks q = [] ∧
      m' = { m with world := m.world.log (.drained q n), stack := below }.report "run"
        (Answer.data (.nat n))) := by
  cases next_turn hn with
  | step hup _ =>
    rcases stack_of_upcoming hup with ⟨hnil, -⟩ | ⟨rest, below', hbody, -⟩
    · rw [hnil] at hs
      cases hs
    · rw [hbody] at hs
      cases hs
  | take hstack hp hm =>
    cases hs.symm.trans hstack
    rw [hm]
    exact Or.inl ⟨_, _, hp, started_startTask _ _⟩
  | finish hstack hq hm =>
    cases hs.symm.trans hstack
    exact Or.inr ⟨hq, hm⟩
  | leave hstack _ => cases hs.symm.trans hstack
  | settle hstack _ => cases hs.symm.trans hstack
  | reply hstack _ => cases hs.symm.trans hstack

/-- A drain that returns writes that down and reports how many tasks it took. -/
lemma eq_of_return {q : QueueId} {n : Nat} {below : List Frame}
    (hs : m.stack = .drain q n :: below) (hn : m.next = some m') (hret : m'.stack = below) :
    m.world.tasks q = [] ∧
      m' = { m with world := m.world.log (.drained q n), stack := below }.report "run"
        (Answer.data (.nat n)) := by
  rcases next_of_drain hs hn with ⟨task, w, -, hstarted⟩ | hreturn
  · obtain ⟨frames, hframes, -⟩ := hstarted.stack
    have hlength := congrArg List.length (hret.symm.trans hframes)
    simp only [List.length_append, List.length_cons] at hlength
    omega
  · exact hreturn

/-- A drain returns only when its queue is empty. -/
lemma tasks_eq_nil_of_return {q : QueueId} {n : Nat} {below : List Frame}
    (hs : m.stack = .drain q n :: below) (hn : m.next = some m') (hret : m'.stack = below) :
    m.world.tasks q = [] :=
  (eq_of_return hs hn hret).1

end Machine

end Polyfill.Session
