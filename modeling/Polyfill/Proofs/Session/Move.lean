import Polyfill.Proofs.Session.Turn
/-!
# What a move can do to a machine

A move of a machine is one of four things: work, which changes the world and leaves the running
callbacks alone; a task that was to fire a timer and fires nothing; a task that fires a timer, whose
callback runs from then on; and the end of a running callback.  `Machine.next_move` says that there
is nothing else, so an invariant of all sessions is shown by looking at changes and at these four
(`Machine.Reaches.invariant`).
-/

namespace Polyfill.Session

namespace Machine

/-- The timers whose callbacks are running, innermost first. -/
def running (m : Machine) : List (TimersId × Nat × TimerKind) :=
  m.stack.filterMap Frame.timer?

lemma mem_running {m : Machine} {t : TimersId} {id : Nat} {kind : TimerKind} :
    (t, id, kind) ∈ m.running ↔ .settle t id kind ∈ m.stack := by
  rw [running, List.mem_filterMap]
  constructor
  · rintro ⟨frame, hmem, heq⟩
    cases frame <;> cases heq
    exact hmem
  · exact fun hmem => ⟨_, hmem, rfl⟩

/-- A registry is alive while the world keeps it or one of its callbacks is running. -/
lemma alive_iff {m : Machine} {t : TimersId} : m.alive t = true ↔
    m.world.keeps t = true ∨ ∃ id kind, (t, id, kind) ∈ m.running := by
  have hruns : ∀ frame, runs t frame = true ↔ ∃ id kind, frame = .settle t id kind := by
    intro frame
    cases frame with
    | settle t' id kind => simp [runs]
    | _ => simp [runs]
  simp only [alive, Bool.or_eq_true, List.any_eq_true, hruns, mem_running]
  refine or_congr Iff.rfl ⟨?_, ?_⟩
  · rintro ⟨_, hmem, id, kind, rfl⟩
    exact ⟨id, kind, hmem⟩
  · rintro ⟨id, kind, hmem⟩
    exact ⟨_, hmem, id, kind, rfl⟩

/-- One move of a machine, as far as timers are concerned. -/
inductive Move (m m' : Machine) : Prop
  /-- The world changes; the callbacks that run are the same. -/
  | work (hw : World.Changes m.world m'.world) (hr : m'.running = m.running)
  /-- A task is taken that finds its registry dead or its timer no longer waiting. -/
  | skip {q : QueueId} {t : TimersId} {id : Nat} {n : Nat} {below : List Frame}
      (hs : m.stack = .drain q n :: below) (hp : m.world.pop q = some (.fire t id, m'.world))
      (hf : m.alive t = false ∨ (m.world.registry t).pending? id = none)
      (hm : m' = { m with world := m'.world, stack := .drain q (n + 1) :: below })
  /-- A task is taken that fires its timer; the callback is invoked and runs from now on. -/
  | fire {q : QueueId} {t : TimersId} {id : Nat} {n : Nat} {below : List Frame}
      {kind : TimerKind} {c : Callback} {w₁ w₂ : World}
      (hs : m.stack = .drain q n :: below) (hp : m.world.pop q = some (.fire t id, w₁))
      (ha : m.alive t = true) (hf : w₁.fire t id = some (kind, c, w₂))
      (hm : m' = { m with
        world := w₂
        stack := .settle t id kind :: .drain q (n + 1) :: below }.invoke c)
  /-- The innermost callback that runs has returned. -/
  | settle {t : TimersId} {id : Nat} {kind : TimerKind}
      (hr : m.running = (t, id, kind) :: m'.running) (hw : m'.world = m.world.settle t id kind)

lemma world_invoke (m : Machine) (c : Callback) : (m.invoke c).world = m.world.invoke c := by
  cases c with
  | script label args body => rfl
  | delivery k data =>
    simp only [invoke, World.invoke]
    cases (m.world.workers[k]?).bind Worker.recipient? <;> rfl

lemma running_invoke (m : Machine) (c : Callback) : (m.invoke c).running = m.running := by
  unfold invoke
  split
  · rfl
  · split <;> rfl

lemma changes_report (m : Machine) (name : String) (answer : Answer) :
    World.Changes m.world (m.report name answer).world := by
  unfold report
  split <;> exact .single (.aside (.remark _ rfl))

lemma running_report (m : Machine) (name : String) (answer : Answer) :
    (m.report name answer).running = m.running := by
  rw [running, running, stack_report]

/-- A step that takes longer leaves no callback of a timer running. -/
lemma running_of_execute {w w' : World} {s : Step} {frames : List Frame}
    (h : w.execute s = (w', .enter frames)) : frames.filterMap Frame.timer? = [] := by
  rcases enter_of_execute h with ⟨-, q, -, -, -, rfl⟩ | ⟨body, name, answer, rfl⟩
  · rfl
  · rfl

/-- Doing a step is work: it changes the world and leaves the running callbacks alone. -/
lemma work_execute {m : Machine} (hs : m.world.Sound) (s : Step) :
    World.Changes m.world (m.execute s).world ∧ (m.execute s).running = m.running := by
  have hc := World.execute_changes hs s
  unfold execute
  split <;> rename_i w _ he <;> rw [he] at hc
  · refine ⟨hc.trans (changes_report { m with world := w } _ _), ?_⟩
    rw [running_report]
    rfl
  · refine ⟨hc, ?_⟩
    simp only [running, List.filterMap_append, running_of_execute he, List.nil_append]

lemma alive_pop {m : Machine} {q : QueueId} {n : Nat} {below : List Frame} {task : Microtask}
    {w : World} (hs : m.stack = .drain q n :: below) (hp : m.world.pop q = some (task, w))
    (t : TimersId) :
    ({ m with world := w, stack := .drain q (n + 1) :: below } : Machine).alive t = m.alive t := by
  obtain ⟨rest, -, rfl⟩ := World.pop_eq_some_iff.mp hp
  simp only [alive, hs, List.any_cons]
  rfl

lemma move_startTask {m m' : Machine} {q : QueueId} {n : Nat} {below : List Frame}
    {task : Microtask} {w : World} (hs : m.stack = .drain q n :: below)
    (hp : m.world.pop q = some (task, w))
    (h : Started { m with world := w, stack := .drain q (n + 1) :: below } task m') :
    Move m m' := by
  cases h with
  | script label body =>
    refine .work (.single (.start q label body hp)) ?_
    rw [running, running, hs]
    rfl
  | skip hf =>
    refine .skip hs hp ?_ rfl
    rw [alive_pop hs hp] at hf
    refine hf.imp_right fun hnone => ?_
    obtain ⟨rest, -, rfl⟩ := World.pop_eq_some_iff.mp hp
    exact hnone
  | fire ha hf =>
    rw [alive_pop hs hp] at ha
    exact .fire hs hp ha hf rfl

/-- Every move is work, a task that fires nothing, a task that fires a timer, or the end of a
callback. -/
theorem next_move {m m' : Machine} (hs : m.world.Sound) (h : m.next = some m') : Move m m' := by
  cases next_turn h with
  | @step s m₀ hup hm =>
    obtain ⟨-, hworld⟩ := next_of_upcoming hup
    obtain ⟨hw, hr⟩ := work_execute (m := m₀) (hworld ▸ hs) s
    have hrun : m₀.running = m.running := by
      rcases stack_of_upcoming hup with ⟨hnil, hnil₀⟩ | ⟨rest, below, hstack, hstack₀⟩
      · rw [running, running, hnil, hnil₀]
      · rw [running, running, hstack, hstack₀]
        rfl
    rw [hm]
    exact .work (hworld ▸ hw) (hr.trans hrun)
  | leave hstack hm =>
    rw [hm]
    refine .work .refl ?_
    rw [running, running, hstack]
    rfl
  | take hstack hp hm =>
    rw [hm]
    exact move_startTask hstack hp (started_startTask _ _)
  | @finish q n below hstack hq hm =>
    rw [hm]
    refine .work (.trans (.single (.drained q n hq))
      (changes_report { m with world := m.world.log (.drained q n), stack := below } _ _)) ?_
    rw [running_report, running, running, hstack]
    rfl
  | settle hstack hm =>
    rw [hm]
    refine .settle ?_ rfl
    rw [running, running, hstack]
    rfl
  | @reply name answer below hstack hm =>
    rw [hm]
    refine .work (changes_report { m with stack := below } _ _) ?_
    rw [running_report, running, running, hstack]
    rfl

/-! ## Reaching a state -/

/-- A machine comes to another one by moves. -/
inductive Reaches (m : Machine) : Machine → Prop
  | refl : Reaches m m
  | move {m₁ m₂ : Machine} (h : Reaches m m₁) (hn : m₁.next = some m₂) : Reaches m m₂

lemma Reaches.trans {m₁ m₂ m₃ : Machine} (h : Reaches m₁ m₂) (h' : Reaches m₂ m₃) :
    Reaches m₁ m₃ := by
  induction h' with
  | refl => exact h
  | move _ hn ih => exact ih.move hn

/-- The machine after some moves; a machine at rest stays as it is. -/
def after (m : Machine) : Nat → Machine
  | 0 => m
  | n + 1 => (m.next.getD m).after n

lemma reaches_after (m : Machine) (n : Nat) : Reaches m (m.after n) := by
  induction n generalizing m with
  | zero => exact .refl
  | succ n ih =>
    rw [after]
    cases hn : m.next with
    | none => exact ih m
    | some m' => exact (Reaches.refl.move hn).trans (ih m')

lemma after_add (m : Machine) (i j : Nat) : m.after (i + j) = (m.after i).after j := by
  induction i generalizing m with
  | zero => rw [Nat.zero_add, after]
  | succ i ih => rw [Nat.add_right_comm, after, after, ih]

lemma after_succ (m : Machine) (n : Nat) : m.after (n + 1) = (m.after n).next.getD (m.after n) := by
  rw [after_add]
  rfl

/-- A machine at rest stays at rest. -/
lemma after_of_rest {m : Machine} (h : m.next = none) (n : Nat) : m.after n = m := by
  induction n with
  | zero => rfl
  | succ n ih => rw [after, h, Option.getD_none, ih]

/-- Later states of a run are reached from earlier ones. -/
lemma reaches_after_add (m : Machine) (i j : Nat) : Reaches (m.after i) (m.after (i + j)) := by
  rw [after_add]
  exact reaches_after _ j

lemma Move.sound {m m' : Machine} (h : Move m m') (hs : m.world.Sound) : m'.world.Sound := by
  cases h with
  | work hw _ => exact hw.sound hs
  | skip _ hp _ _ => exact hs.pop hp
  | fire _ hp _ hf hm =>
    rw [hm, world_invoke]
    exact ((hs.pop hp).fire hf).invoke _
  | settle _ hw =>
    rw [hw]
    exact hs.settle _ _ _

lemma Move.grows {m m' : Machine} (h : Move m m') : World.Grows m.world m'.world := by
  cases h with
  | work hw _ => exact hw.grows
  | skip _ hp _ _ => exact World.grows_pop hp
  | fire _ hp _ hf hm =>
    rw [hm, world_invoke]
    exact ((World.grows_pop hp).trans (World.grows_fire hf)).trans (World.grows_invoke _ _)
  | settle _ hw =>
    rw [hw]
    exact World.grows_settle _ _ _ _

/-- In every session, every number refers to an object at all times. -/
lemma Reaches.sound {entropy : Entropy} {script : List Step} {m : Machine}
    (h : Reaches (start entropy script) m) : m.world.Sound := by
  induction h with
  | refl => exact World.sound_start entropy
  | move _ hn ih => exact (next_move ih hn).sound ih

/-- An invariant that holds at the start and is kept by every kind of move holds at all times. -/
theorem Reaches.invariant {entropy : Entropy} {script : List Step} {P : Machine → Prop}
    (hstart : P (start entropy script))
    (hmove : ∀ m m', Reaches (start entropy script) m → Move m m' → P m → P m') {m : Machine}
    (h : Reaches (start entropy script) m) : P m := by
  induction h with
  | refl => exact hstart
  | move h hn ih => exact hmove _ _ h (next_move h.sound hn) ih

lemma running_skip {m m' : Machine} {q : QueueId} {n : Nat} {below : List Frame}
    (hs : m.stack = .drain q n :: below)
    (hm : m' = { m with world := m'.world, stack := .drain q (n + 1) :: below }) :
    m'.running = m.running := by
  rw [hm, running, running, hs]
  rfl

lemma running_fire {m m' : Machine} {q : QueueId} {n : Nat} {below : List Frame} {t : TimersId}
    {id : Nat} {kind : TimerKind} {c : Callback} {w : World} (hs : m.stack = .drain q n :: below)
    (hm : m' = { m with world := w, stack := .settle t id kind :: .drain q (n + 1) :: below }.invoke
      c) : m'.running = (t, id, kind) :: m.running := by
  rw [hm, running_invoke, running, running, hs]
  rfl

/-- What is kept after a move was kept before it, but for new timers. -/
lemma Move.keeps_before {m m' : Machine} (h : Move m m') (hs : m.world.Sound) {t : TimersId}
    (hk : m'.world.keeps t = true) : m.world.keeps t = true ∨ m.world.timers.length ≤ t := by
  have hg := h.grows
  -- a move that is not work leaves all names alone
  have hsame : m'.world.names = m.world.names →
      m.world.keeps t = true ∨ m.world.timers.length ≤ t := fun hn =>
    World.keeps_before hs hg (fun _ hmem => Or.inl (hn ▸ hmem)) hk
  cases h with
  | work hw _ => exact hw.keeps_before hs hk
  | skip _ hp _ _ => exact hsame (World.names_pop hp)
  | fire _ hp _ hf hm =>
    refine hsame ?_
    rw [hm, world_invoke, World.names_invoke, World.names_fire hf, World.names_pop hp]
  | settle _ hw =>
    refine hsame ?_
    rw [hw]
    rfl

/-- What is alive after a move was alive before it, but for new timers. -/
lemma Move.alive_before {m m' : Machine} (h : Move m m') (hs : m.world.Sound) {t : TimersId}
    (ha : m'.alive t = true) : m.alive t = true ∨ m.world.timers.length ≤ t := by
  rcases alive_iff.mp ha with hk | ⟨id, kind, hrun⟩
  · exact (h.keeps_before hs hk).imp_left fun hold => alive_iff.mpr (Or.inl hold)
  · left
    cases h with
    | work _ hr => exact alive_iff.mpr (Or.inr ⟨id, kind, hr ▸ hrun⟩)
    | skip hstack _ _ hm => exact alive_iff.mpr (Or.inr ⟨id, kind, running_skip hstack hm ▸ hrun⟩)
    | fire hstack _ halive _ hm =>
      rw [running_fire hstack hm] at hrun
      rcases List.mem_cons.mp hrun with heq | hold
      · cases heq
        exact halive
      · exact alive_iff.mpr (Or.inr ⟨id, kind, hold⟩)
    | settle hr _ => exact alive_iff.mpr (Or.inr ⟨id, kind, hr ▸ List.mem_cons_of_mem _ hrun⟩)

end Machine

end Polyfill.Session
