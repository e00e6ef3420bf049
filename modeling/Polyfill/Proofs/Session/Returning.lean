import Polyfill.Proofs.Session.Conservation
/-!
# Everything that has begun ends

A body may schedule timers, make handlers, post to the worker whose handler is running and drain the
queue it runs on.  While a drain is under way its queue may grow, and the stack with it, so neither
of them tells that the drain ends.  What goes down with every move is the weight of the machine: the
work in bodies, in queues, in timers that wait, in the stack, and in the calls that handlers are
still allowed.

From this it follows that no run goes on for ever, and that the weight of a script bounds the moves
of its session.  It follows as well for each piece of work by itself: a frame stays on the stack
(`Machine.Within`), however deep it lies, until its own turn comes to be over
(`Machine.exists_return`).
-/

namespace Polyfill.Session

namespace Machine

variable {m m' m₁ m₂ : Machine} {frame : Frame} {below : List Frame}

/-! ## Work on the stack -/

/-- A frame is on the stack, above the frames `below`, as it was or as it has gone on. -/
def Pursues (m : Machine) (frame : Frame) (below : List Frame) : Prop :=
  ∃ frames frame', frame.Continues frame' ∧ m.stack = frames ++ frame' :: below

/-- A machine comes to another one by moves that keep a frame on the stack. -/
inductive Within (frame : Frame) (below : List Frame) (m : Machine) : Machine → Prop
  | refl : Within frame below m m
  | move {m₁ m₂ : Machine} (h : Within frame below m m₁) (hn : m₁.next = some m₂)
      (hp : m₂.Pursues frame below) : Within frame below m m₂

/-- A frame stays on the stack, or it was on top and is over. -/
lemma Pursues.next (h : m.Pursues frame below) (hn : m.next = some m') :
    m'.Pursues frame below ∨
      m'.stack = below ∧ ∃ frame', frame.Continues frame' ∧ m.stack = frame' :: below := by
  obtain ⟨frames, frame', hcont, hstack⟩ := h
  cases frames with
  | nil =>
    rcases (next_turn hn).frame hstack with hover | ⟨new, frame'', hcont', hnew⟩
    · exact Or.inr ⟨hover, frame', hcont, hstack⟩
    · exact Or.inl ⟨new, frame'', hcont.trans hcont', hnew⟩
  | cons top frames =>
    obtain ⟨new, hnew⟩ := (next_turn hn).stack hstack
    exact Or.inl ⟨new ++ frames, frame', hcont, hnew.trans (List.append_assoc _ _ _).symm⟩

/-- Whatever is on the stack comes to be over, and what is below it goes on then. -/
lemma exists_return (h : m.Pursues frame below) : ∃ frame' m₁ m₂, Within frame below m m₁ ∧
    frame.Continues frame' ∧ m₁.stack = frame' :: below ∧ m₁.next = some m₂ ∧
    m₂.stack = below := by
  suffices hgo : ∀ m₀, Within frame below m m₀ → m₀.Pursues frame below → ∃ frame' m₁ m₂,
      Within frame below m m₁ ∧ frame.Continues frame' ∧ m₁.stack = frame' :: below ∧
      m₁.next = some m₂ ∧ m₂.stack = below from hgo m .refl h
  intro m₀ hm hp
  -- every move uses up work that is left
  induction hw : m₀.weight using Nat.strongRecOn generalizing m₀ with
  | ind weight ih =>
    obtain ⟨m', hn⟩ : ∃ m', m₀.next = some m' := by
      obtain ⟨frames, frame', -, hstack⟩ := hp
      cases frames with
      | nil => exact exists_next hstack
      | cons top frames => exact exists_next hstack
    rcases hp.next hn with hp' | ⟨hover, frame', hcont, hstack⟩
    · exact ih _ (hw ▸ weight_next hn) m' (hm.move hn hp') hp' rfl
    · exact ⟨frame', m₀, m', hm, hcont, hstack, hn, hover⟩

/-! ## Whole runs -/

lemma weight_start (entropy : Entropy) (script : List Step) :
    (start entropy script).weight = weights script := by
  simp [weight, start, World.weight, World.start]

lemma Reaches.weight_le (h : Reaches m m') : m'.weight ≤ m.weight := by
  induction h with
  | refl => exact Nat.le_refl _
  | move _ hn ih => exact Nat.le_of_lt (Nat.lt_of_lt_of_le (weight_next hn) ih)

/-- A run makes no more moves than there is work. -/
lemma weight_run {run : Nat → Machine} (hrun : ∀ i, (run i).next = some (run (i + 1))) (i : Nat) :
    (run i).weight + i ≤ (run 0).weight := by
  induction i with
  | zero => exact Nat.le_refl _
  | succ i ih =>
    have := weight_next (hrun i)
    omega

/-- After as many moves as there is work, a machine is at rest. -/
lemma next_after_weight {n : Nat} (h : m.weight ≤ n) : (m.after n).next = none := by
  induction n generalizing m with
  | zero =>
    cases hn : m.next with
    | none => exact hn
    | some m' => exact absurd (weight_next hn) (by omega)
  | succ n ih =>
    cases hn : m.next with
    | none => rw [after_of_rest hn, hn]
    | some m' =>
      have := weight_next hn
      rw [after, hn]
      exact ih (m := m') (by omega)

/-- A machine at rest has nothing begun and nothing to begin. -/
lemma idle_of_rest (h : m.next = none) : m.stack = [] ∧ m.script = [] := by
  cases hs : m.stack with
  | nil =>
    cases hscript : m.script with
    | nil => exact ⟨rfl, rfl⟩
    | cons s rest => simp [next, hs, hscript] at h
  | cons frame below =>
    obtain ⟨m', hn⟩ := exists_next hs
    rw [h] at hn
    cases hn

/-- Drains end, at every point of every session.  A drain that is called, by the session itself or
in any body, comes to find its queue empty and returns with the number of tasks it has taken.
Whatever is on the stack, at any depth, goes on until it is over: a drain, a body of a task, a timer
or a handler, a callback, or a direct call.  No run goes on for ever: the weight of the script
bounds the moves that are left, and then nothing is begun and nothing is to do. -/
theorem drains_return {entropy : Entropy} {script : List Step}
    (h : Reaches (start entropy script) m) :
    (∀ q m₀, m.Calls q m₀ → ∃ n m₁ m₂ m₃, m.next = some m₁ ∧ Draining q m₀.stack m₁ n m₂ ∧
      m₂.stack = .drain q n :: m₀.stack ∧ m₂.world.tasks q = [] ∧ m₂.next = some m₃ ∧
      m₃.stack = m₀.stack ∧
      ∃ e, m₃.world.history.getLast? = some e ∧ e.answer? = some (Answer.data (.nat n))) ∧
    (∀ frames frame below, m.stack = frames ++ frame :: below → ∃ frame' m₁ m₂,
      Within frame below m m₁ ∧ frame.Continues frame' ∧ m₁.stack = frame' :: below ∧
      m₁.next = some m₂ ∧ m₂.stack = below) ∧
    (¬ ∃ run : Nat → Machine, run 0 = m ∧ ∀ i, (run i).next = some (run (i + 1))) ∧
    ∀ n, weights script ≤ n → (m.after n).next = none ∧ (m.after n).stack = [] ∧
      (m.after n).script = [] := by
  refine ⟨fun q m₀ hc => ?_, fun frames frame below hstack => ?_, ?_, fun n hn => ?_⟩
  · obtain ⟨m₁, n, m₂, m₃, hn₁, hd, hstack, hn₃, hret⟩ := hc.returns
    obtain ⟨hempty, -, -, hanswer⟩ := answer_of_return hstack hn₃ hret
    exact ⟨n, m₁, m₂, m₃, hn₁, hd, hstack, hempty, hn₃, hret, hanswer⟩
  · exact exists_return ⟨frames, frame, .refl frame, hstack⟩
  · rintro ⟨run, rfl, hrun⟩
    have := weight_run hrun ((run 0).weight + 1)
    omega
  · have hweight : m.weight ≤ weights script := weight_start entropy script ▸ h.weight_le
    have hrest := next_after_weight (Nat.le_trans hweight hn)
    exact ⟨hrest, idle_of_rest hrest⟩

/-- A session with a handler that posts to its own worker and drains the queue it runs on, the first
two times it is called. -/
def echoingScript : List Step :=
  [.newQueue "q", .newTimers "t" "q", .newWorker "w" 7 "worker.js" "t",
    .messageHandler "h" [.post "w" (.text "again"), .run "q"] 2,
    .setSlot .message "w" (some "h"), .post "w" (.text "first"), .run "q"]

/-- In that session the drain that the handler calls returns to the handler; the drain of the
session returns although two others are under way above it; and twenty-five moves are enough. -/
theorem drains_return_in_own_handler :
    let m (n : Nat) : Machine := (start ⟨fun _ => 0, 0⟩ echoingScript).after n
    let handler : List Frame := [.body [], .settle 0 1 .timeout, .drain 0 1]
    (∃ n m₂ m₃, Draining 0 handler (m 10) n m₂ ∧ m₂.world.tasks 0 = [] ∧ m₂.next = some m₃ ∧
      m₃.stack = handler) ∧
    (∃ m₁ m₂, Within (.drain 0 1) [] (m 14) m₁ ∧ m₁.next = some m₂ ∧ m₂.stack = []) ∧
    (m 25).next = none := by
  intro m handler
  have hreach (n : Nat) : Reaches (start ⟨fun _ => 0, 0⟩ echoingScript) (m n) := reaches_after _ n
  obtain ⟨hcall, -⟩ := drains_return (hreach 9)
  obtain ⟨-, hframe, -⟩ := drains_return (hreach 14)
  obtain ⟨-, -, -, hrest⟩ := drains_return (hreach 0)
  have hcalls : (m 9).Calls 0 { m 9 with stack := handler } := ⟨"q", rfl, rfl⟩
  obtain ⟨n, m₁, m₂, m₃, hn₁, hd, -, hempty, hn₃, hret, -⟩ := hcall 0 _ hcalls
  obtain rfl : m 10 = m₁ := Option.some.inj hn₁
  obtain ⟨-, m₄, m₅, hwithin, -, -, hn₅, hover⟩ := hframe ((m 14).stack.take 8) (.drain 0 1) [] rfl
  exact ⟨⟨n, m₂, m₃, hd, hempty, hn₃, hret⟩, ⟨m₄, m₅, hwithin, hn₅, hover⟩,
    (hrest 25 (by decide)).1⟩

end Machine

end Polyfill.Session
