import Polyfill.Proofs.Session.Move
import Polyfill.Proofs.Session.Undelayed
import Polyfill.Session.Run
/-!
# Delays are irrelevant

A session and the session without its delays go through the same moves: after any number of moves,
the second machine is the first one without delays (`Machine.Undelays.together`).  So two sessions
that differ only in delays, at any depth, are both matched by one and the same session, and
therefore agree in everything but the delays themselves (`Machine.Alike`).

In the log of a session a delay shows in one place only, the message that says it is ignored.  Hence
the reports of both sessions are the same but for the number in that message, and equal if messages
are not shown.
-/

namespace Polyfill.Session

/-! ## The machine without delays -/

namespace Machine

/-- A machine is matched by one without delays. -/
structure Undelays (m m₀ : Machine) : Prop where
  world : m.world.Undelays m₀.world
  script : m₀.script = undelayedAll m.script
  stack : m₀.stack = m.stack.map Frame.undelayed

lemma runs_undelayed (t : TimersId) (frame : Frame) : runs t frame.undelayed = runs t frame := by
  cases frame <;> rfl

lemma undelays_start (entropy : Entropy) (script : List Step) :
    Undelays (start entropy script) (start entropy (undelayedAll script)) :=
  ⟨⟨rfl, .nil⟩, rfl, rfl⟩

variable {m m₀ : Machine}

lemma finish_of_rest (h : m.next = none) : m.finish = m := by
  rw [finish]
  split
  · rfl
  · simp_all

lemma finish_of_next {m' : Machine} (h : m.next = some m') : m.finish = m'.finish := by
  rw [finish]
  split
  · simp_all
  · simp_all

/-- Related machines move together: both rest, or both move and are related again. -/
def Together (R : Machine → Machine → Prop) : Prop :=
  ∀ m₁ m₂, R m₁ m₂ → (m₁.next = none ∧ m₂.next = none) ∨
    ∃ m₁' m₂', m₁.next = some m₁' ∧ m₂.next = some m₂' ∧ R m₁' m₂'

namespace Together

variable {R : Machine → Machine → Prop} {m₁ m₂ : Machine}

lemma after (hR : Together R) (h : R m₁ m₂) (n : Nat) : R (m₁.after n) (m₂.after n) := by
  induction n generalizing m₁ m₂ with
  | zero => exact h
  | succ n ih =>
    rw [Machine.after, Machine.after]
    rcases hR m₁ m₂ h with ⟨hn₁, hn₂⟩ | ⟨m₁', m₂', hn₁, hn₂, h'⟩
    · rw [hn₁, hn₂]
      exact ih h
    · rw [hn₁, hn₂]
      exact ih h'

lemma finish (hR : Together R) (h : R m₁ m₂) : R m₁.finish m₂.finish := by
  induction m₁ using Machine.finish.induct generalizing m₂ with
  | case1 m₁ hn =>
    rcases hR m₁ m₂ h with ⟨-, hn₂⟩ | ⟨m₁', m₂', hn₁, -⟩
    · rw [finish_of_rest hn, finish_of_rest hn₂]
      exact h
    · rw [hn] at hn₁
      cases hn₁
  | case2 m₁ m₁' hn ih =>
    rcases hR m₁ m₂ h with ⟨hn₁, -⟩ | ⟨m₁'', m₂', hn₁, hn₂, h'⟩
    · rw [hn] at hn₁
      cases hn₁
    · obtain rfl := Option.some.inj (hn.symm.trans hn₁)
      rw [finish_of_next hn, finish_of_next hn₂]
      exact ih h'

end Together

namespace Undelays

lemma alive (h : Undelays m m₀) (t : TimersId) : m₀.alive t = m.alive t := by
  have hkeeps : m₀.world.keeps t = m.world.keeps t := by
    rw [h.world.objects, World.keeps_undelayed]
  have hruns : (runs t ∘ Frame.undelayed) = runs t := funext (runs_undelayed t)
  rw [Machine.alive, Machine.alive, hkeeps, h.stack, List.any_map, hruns]

lemma report (h : Undelays m m₀) (name : String) (answer : Answer) :
    Undelays (m.report name answer) (m₀.report name answer) := by
  have hstate : m₀.world.state = m.world.state := by
    rw [h.world.objects, World.state_undelayed]
  have hstack := h.stack
  cases hs : m.stack with
  | nil =>
    rw [hs] at hstack
    simp only [Machine.report, hs, hstack, List.map_nil, hstate]
    exact ⟨h.world.log (.same (.answered answer m.world.state)), h.script, rfl⟩
  | cons frame below =>
    rw [hs] at hstack
    simp only [Machine.report, hs, hstack, List.map_cons]
    exact ⟨h.world.log (.same (.stepped name answer)), h.script, rfl⟩

lemma execute (h : Undelays m m₀) (s : Step) :
    Undelays (m.execute s) (m₀.execute s.undelayed) := by
  obtain ⟨hworld, heffect⟩ := h.world.execute s
  simp only [Machine.execute, Step.name_undelayed]
  generalize m.world.execute s = r at hworld heffect ⊢
  generalize m₀.world.execute s.undelayed = r₀ at hworld heffect ⊢
  obtain ⟨w, effect⟩ := r
  obtain ⟨w₀, effect₀⟩ := r₀
  obtain rfl : effect₀ = effect.undelayed := heffect
  have hm : Undelays { m with world := w } { m₀ with world := w₀ } := ⟨hworld, h.script, h.stack⟩
  cases effect with
  | done answer => exact hm.report s.name answer
  | enter frames =>
    refine ⟨hworld, h.script, ?_⟩
    rw [List.map_append, ← h.stack]
    rfl

/-- More work in matched worlds. -/
lemma push (h : Undelays m m₀) {w w₀ : World} (hw : w.Undelays w₀) (frame : Frame) :
    Undelays { m with world := w, stack := frame :: m.stack }
      { m₀ with world := w₀, stack := frame.undelayed :: m₀.stack } := by
  refine ⟨hw, h.script, ?_⟩
  rw [h.stack, List.map_cons]

lemma invoke (h : Undelays m m₀) (c : Callback) :
    Undelays (m.invoke c) (m₀.invoke c.undelayed) := by
  cases c with
  | script label args body => exact h.push h.world (.body body)
  | delivery k data =>
    simp only [Callback.undelayed, Machine.invoke, h.world.workers]
    cases (m.world.workers[k]?).bind Worker.recipient? with
    | none => exact h
    | some i =>
      obtain ⟨hbody, hworld⟩ := h.world.deliver k i data ""
      simp only [hbody]
      exact h.push hworld (.body _)

lemma startTask (h : Undelays m m₀) (task : Microtask) :
    Undelays (m.startTask task) (m₀.startTask task.undelayed) := by
  cases task with
  | script label body => exact h.push h.world (.body body)
  | fire t id =>
    simp only [Microtask.undelayed, Machine.startTask, h.alive]
    split
    · rcases h.world.fire t id with ⟨hf, hf₀⟩ | ⟨kind, c, w, w₀, hf, hf₀, hw⟩
      · simp only [hf, hf₀]
        exact h
      · simp only [hf, hf₀]
        exact (h.push hw (.settle t id kind)).invoke c
    · exact h

/-- Matched machines move together, and come to rest together. -/
theorem together : Together Undelays := by
  rintro ⟨w, script, stack⟩ ⟨w₀, script₀, stack₀⟩ ⟨hw, rfl, rfl⟩
  dsimp only at hw
  cases stack with
  | nil =>
    cases script with
    | nil => exact Or.inl ⟨rfl, by simp [Machine.next]⟩
    | cons s rest =>
      simp only [undelayedAll_cons]
      exact Or.inr ⟨_, _, rfl, rfl, Undelays.execute ⟨hw, rfl, rfl⟩ s⟩
  | cons frame below =>
    refine Or.inr ?_
    cases frame with
    | body rest =>
      cases rest with
      | nil =>
        simp only [List.map_cons, Frame.undelayed, undelayedAll_nil]
        exact ⟨_, _, rfl, rfl, hw, rfl, rfl⟩
      | cons s rest =>
        simp only [List.map_cons, Frame.undelayed, undelayedAll_cons]
        exact ⟨_, _, rfl, rfl, Undelays.execute ⟨hw, rfl, rfl⟩ s⟩
    | drain q count =>
      simp only [List.map_cons, Frame.undelayed, Machine.next]
      rcases hw.pop q with ⟨hp, hp₀⟩ | ⟨task, w', w₀', hp, hp₀, hw'⟩
      · simp only [hp, hp₀]
        exact ⟨_, _, rfl, rfl,
          Undelays.report ⟨hw.log (.same (.drained q count)), rfl, rfl⟩ "run" _⟩
      · simp only [hp, hp₀]
        exact ⟨_, _, rfl, rfl, Undelays.startTask ⟨hw', rfl, rfl⟩ task⟩
    | settle t id kind => exact ⟨_, _, rfl, rfl, hw.settle t id kind, rfl, rfl⟩
    | reply name answer =>
      exact ⟨_, _, rfl, rfl, Undelays.report ⟨hw, rfl, rfl⟩ name answer⟩

end Undelays

end Machine

/-! ## Sessions that differ in delays -/

/-- Two events are the same but for delays: in the steps they tell of, or in the note that says a
delay is ignored. -/
inductive Event.Alike : Event → Event → Prop
  | same {e₁ e₂ : Event} (h : e₁.undelayed = e₂.undelayed) : Alike e₁ e₂
  | delay (id d₁ d₂ : Nat) : Alike (delayNote id d₁) (delayNote id d₂)

/-- Two worlds are the same but for delays. -/
structure World.Alike (w₁ w₂ : World) : Prop where
  queues : w₁.queues.map (List.map Microtask.undelayed) =
    w₂.queues.map (List.map Microtask.undelayed)
  timers : w₁.timers.map Timers.undelayed = w₂.timers.map Timers.undelayed
  workers : w₁.workers = w₂.workers
  handlers : w₁.handlers.map Handler.undelayed = w₂.handlers.map Handler.undelayed
  names : w₁.names = w₂.names
  entropy : w₁.entropy = w₂.entropy
  history : List.Forall₂ Event.Alike w₁.history w₂.history

/-- Two machines are the same but for delays. -/
structure Machine.Alike (m₁ m₂ : Machine) : Prop where
  world : m₁.world.Alike m₂.world
  script : undelayedAll m₁.script = undelayedAll m₂.script
  stack : m₁.stack.map Frame.undelayed = m₂.stack.map Frame.undelayed

/-- The text tells which timer it is about. -/
lemma delayText_inj {id₁ id₂ d : Nat} (h : delayText id₁ d = delayText id₂ d) : id₁ = id₂ := by
  simp only [delayText, timerText, Nat.toString_eq_ofList_toDigits, String.append_left_inj,
    String.append_right_inj, String.ofList_inj] at h
  rw [← Nat.ofDigitChars_ten_toDigits (n := id₁), h, Nat.ofDigitChars_ten_toDigits]

namespace Event

lemma eq_delayNote_of_undelayed {e : Event} {id d : Nat} (h : e.undelayed = delayNote id d) :
    e = delayNote id d := by
  cases e with
  | note n => exact h
  | _ => cases h

lemma Undelays.eq_or_delay {e e₀ : Event} (h : e.Undelays e₀) :
    e₀ = e.undelayed ∨ ∃ id d, e = delayNote id d ∧ e₀ = delayNote id 0 := by
  cases h with
  | same => exact Or.inl rfl
  | delay id d => exact Or.inr ⟨id, d, rfl, rfl⟩

/-- Events that are matched by the same event are alike. -/
lemma Undelays.alike {e₁ e₂ e₀ : Event} (h₁ : e₁.Undelays e₀) (h₂ : e₂.Undelays e₀) :
    e₁.Alike e₂ := by
  -- If one event is matched as a note of a delay, the other one is such a note too.
  rcases h₁.eq_or_delay with heq₁ | ⟨id₁, d₁, rfl, heq₁⟩ <;>
    rcases h₂.eq_or_delay with heq₂ | ⟨id₂, d₂, rfl, heq₂⟩
  · exact .same (heq₁.symm.trans heq₂)
  · rw [eq_delayNote_of_undelayed (heq₁.symm.trans heq₂)]
    exact .delay id₂ 0 d₂
  · rw [eq_delayNote_of_undelayed (heq₂.symm.trans heq₁)]
    exact .delay id₁ d₁ 0
  · have htext : delayText id₁ 0 = delayText id₂ 0 := by
      simpa only [delayNote, note.injEq, Note.trace.injEq] using heq₁.symm.trans heq₂
    rw [delayText_inj htext]
    exact .delay id₂ d₁ d₂

lemma forall₂_alike {l₁ l₂ l₀ : List Event} (h₁ : List.Forall₂ Undelays l₁ l₀)
    (h₂ : List.Forall₂ Undelays l₂ l₀) : List.Forall₂ Alike l₁ l₂ := by
  induction h₁ generalizing l₂ with
  | nil =>
    cases h₂
    exact .nil
  | cons h _ ih =>
    cases h₂ with
    | cons h' hrest => exact .cons (h.alike h') (ih hrest)

end Event

/-- Worlds that are matched by the same world are alike. -/
lemma World.Undelays.alike {w₁ w₂ w₀ : World} (h₁ : w₁.Undelays w₀) (h₂ : w₂.Undelays w₀) :
    w₁.Alike w₂ := by
  have hobjects : w₁.undelayed w₀.history = w₂.undelayed w₀.history :=
    h₁.objects.symm.trans h₂.objects
  simp only [undelayed, World.mk.injEq] at hobjects
  obtain ⟨hqueues, htimers, hworkers, hhandlers, hnames, hentropy, -⟩ := hobjects
  exact ⟨hqueues, htimers, hworkers, hhandlers, hnames, hentropy,
    Event.forall₂_alike h₁.history h₂.history⟩

/-- Machines that are matched by the same machine are alike. -/
lemma Machine.Undelays.alike {m₁ m₂ m₀ : Machine} (h₁ : m₁.Undelays m₀) (h₂ : m₂.Undelays m₀) :
    m₁.Alike m₂ :=
  ⟨h₁.world.alike h₂.world, h₁.script.symm.trans h₂.script, h₁.stack.symm.trans h₂.stack⟩

/-! ## Logs and reports -/

/-- Two lines of a log are the same but for the number in the message that says a delay is ignored.
-/
inductive Line.Alike : Line → Line → Prop
  | same (line : Line) : Alike line line
  | delay (id d₁ d₂ : Nat) :
    Alike (.data [.text "trace", .text (delayText id d₁)])
      (.data [.text "trace", .text (delayText id d₂)])

/-- Two reports have the same answer and the same state, and related lines in their logs. -/
structure Report.Rel (R : Line → Line → Prop) (r₁ r₂ : Report) : Prop where
  answer : r₁.answer = r₂.answer
  log : List.Forall₂ R r₁.log r₂.log
  state : r₁.state = r₂.state

lemma Report.Rel.eq {r₁ r₂ : Report} (h : Report.Rel Eq r₁ r₂) : r₁ = r₂ := by
  obtain ⟨hanswer, hlog, hstate⟩ := h
  rw [List.forall₂_eq_eq_eq] at hlog
  cases r₁
  cases r₂
  simp_all

namespace Event

/-- What an event says about a step of the session itself. -/
def outcome? : Event → Option (Answer × List (String × Datum))
  | .answered answer state => some (answer, state)
  | _ => none

lemma outcome?_undelayed (e : Event) : e.undelayed.outcome? = e.outcome? := by
  cases e <;> rfl

lemma line?_undelayed (messages : Bool) (e : Event) :
    e.undelayed.line? messages = e.line? messages := by
  cases e with
  | started q task => cases task <;> rfl
  | fired t id c =>
    cases c with
    | script label args body => cases args <;> rfl
    | delivery k data => rfl
  | _ => rfl

namespace Alike

variable {e₁ e₂ : Event}

lemma outcome? (h : e₁.Alike e₂) : e₁.outcome? = e₂.outcome? := by
  cases h with
  | same h => rw [← outcome?_undelayed, h, outcome?_undelayed]
  | delay id d₁ d₂ => rfl

lemma line? (h : e₁.Alike e₂) (messages : Bool) :
    List.Forall₂ Line.Alike (e₁.line? messages).toList (e₂.line? messages).toList := by
  cases h with
  | same h =>
    rw [← line?_undelayed, h, line?_undelayed]
    exact List.forall₂_same.mpr fun line _ => .same line
  | delay id d₁ d₂ =>
    cases messages with
    | false => exact .nil
    | true => exact .cons (.delay id d₁ d₂) .nil

/-- Without messages no line shows a delay. -/
lemma line?_eq (h : e₁.Alike e₂) : e₁.line? false = e₂.line? false := by
  cases h with
  | same h => rw [← line?_undelayed, h, line?_undelayed]
  | delay id d₁ d₂ => rfl

end Alike

end Event

lemma reportsFrom_cons (messages : Bool) (lines : List Line) (e : Event) (rest : List Event) :
    reportsFrom messages lines (e :: rest) =
      match e.outcome? with
      | some (answer, state) => ⟨answer, lines.reverse, state⟩ :: reportsFrom messages [] rest
      | none => reportsFrom messages ((e.line? messages).toList ++ lines) rest := by
  cases e with
  | answered answer state => rfl
  | _ =>
    simp only [reportsFrom, Event.outcome?]
    split <;> rename_i h <;> rw [h] <;> rfl

/-- Reports are related if events are told by related lines and have outcomes from which, with
related lines, related reports are made. -/
lemma forall₂_reportsFrom {E : Event → Event → Prop} {R : Line → Line → Prop}
    {S : Report → Report → Prop} {messages : Bool}
    (hline : ∀ e₁ e₂, E e₁ e₂ →
      List.Forall₂ R (e₁.line? messages).toList (e₂.line? messages).toList)
    (houtcome : ∀ e₁ e₂, E e₁ e₂ → Option.Rel (fun o₁ o₂ => ∀ lines₁ lines₂,
      List.Forall₂ R lines₁ lines₂ → S ⟨o₁.1, lines₁, o₁.2⟩ ⟨o₂.1, lines₂, o₂.2⟩)
      e₁.outcome? e₂.outcome?)
    {lines₁ lines₂ : List Line} (hlines : List.Forall₂ R lines₁ lines₂) {l₁ l₂ : List Event}
    (h : List.Forall₂ E l₁ l₂) :
    List.Forall₂ S (reportsFrom messages lines₁ l₁) (reportsFrom messages lines₂ l₂) := by
  -- The lines since the last report stay related: a report takes them, other events add to them.
  induction h generalizing lines₁ lines₂ with
  | nil => exact .nil
  | @cons e₁ e₂ _ _ he _ ih =>
    have hout := houtcome e₁ e₂ he
    rw [reportsFrom_cons, reportsFrom_cons]
    generalize e₁.outcome? = o₁ at hout ⊢
    generalize e₂.outcome? = o₂ at hout ⊢
    cases hout with
    | none => exact ih (List.rel_append (hline e₁ e₂ he) hlines)
    | some hreport => exact .cons (hreport _ _ (List.rel_reverse hlines)) (ih .nil)

/-- Reports are related if the lines of their events are. -/
lemma reports_rel {R : Line → Line → Prop} {messages : Bool}
    (hR : ∀ e₁ e₂ : Event, e₁.Alike e₂ →
      List.Forall₂ R (e₁.line? messages).toList (e₂.line? messages).toList)
    {l₁ l₂ : List Event} (h : List.Forall₂ Event.Alike l₁ l₂) :
    List.Forall₂ (Report.Rel R) (reports messages l₁) (reports messages l₂) := by
  refine forall₂_reportsFrom hR (fun e₁ e₂ he => ?_) .nil h
  rw [he.outcome?]
  cases e₂.outcome? with
  | none => exact .none
  | some o => exact .some fun _ _ hlines => ⟨rfl, hlines, rfl⟩

/-- The history of a session is the same but for delays if the session is. -/
lemma history_alike (entropy : Entropy) {script₁ script₂ : List Step}
    (h : undelayedAll script₁ = undelayedAll script₂) :
    List.Forall₂ Event.Alike (history entropy script₁) (history entropy script₂) := by
  -- Both sessions are matched by the one without delays.
  have h₁ := Machine.Undelays.together.finish (Machine.undelays_start entropy script₁)
  have h₂ := Machine.Undelays.together.finish (Machine.undelays_start entropy script₂)
  rw [← h] at h₂
  exact (h₁.alike h₂).world.history

/-- Delays are irrelevant.  Two sessions that differ only in delays, at any depth, are the same but
for delays after every move, and report the same answers and the same states; their logs are the
same but for the number in the message that says a delay is ignored, and equal if messages are not
shown. -/
theorem delays_ignored (entropy : Entropy) {script₁ script₂ : List Step}
    (h : undelayedAll script₁ = undelayedAll script₂) :
    (∀ n, ((Machine.start entropy script₁).after n).Alike
      ((Machine.start entropy script₂).after n)) ∧
    (∀ messages, List.Forall₂ (Report.Rel Line.Alike) (run entropy messages script₁)
      (run entropy messages script₂)) ∧
    run entropy false script₁ = run entropy false script₂ := by
  have hhistory := history_alike entropy h
  refine ⟨fun n => ?_, fun messages => ?_, ?_⟩
  · have h₁ := Machine.Undelays.together.after (Machine.undelays_start entropy script₁) n
    have h₂ := Machine.Undelays.together.after (Machine.undelays_start entropy script₂) n
    rw [← h] at h₂
    exact h₁.alike h₂
  · exact reports_rel (fun _ _ he => he.line? messages) hhistory
  · have hR : ∀ e₁ e₂ : Event, e₁.Alike e₂ →
        List.Forall₂ Eq (e₁.line? false).toList (e₂.line? false).toList := by
      intro e₁ e₂ he
      rw [he.line?_eq]
      exact List.forall₂_refl _
    have hreports := (reports_rel hR hhistory).imp fun _ _ => Report.Rel.eq
    rw [List.forall₂_eq_eq_eq] at hreports
    exact hreports

/-- A session with delays of its own, in the callback of a timer and in the body of a message
handler, which the drain inside that callback runs. -/
def delayedScript (d : Nat) : List Step :=
  [.newQueue "q", .newTimers "t" "q", .newWorker "w" 7 "worker.js" "t",
    .messageHandler "h" [.schedule .interval "t" "fourth" (4 * d) none [.cancel .cancel "t" 4]] 1,
    .setSlot .message "w" (some "h"),
    .schedule .timeout "t" "first" (2 * d) none [
      .schedule .timeout "t" "third" d (some [.nat 3]) [.query (.state "t" 1)],
      .run "q"],
    .post "w" (.text "second"),
    .run "q"]

/-- Without delays and with delays up to two seconds, that session is the same but for delays when
it has come to rest, and reports the same; what the handler asks for shows only in a message. -/
theorem delays_ignored_at_every_depth :
    let m (d : Nat) : Machine := (Machine.start ⟨fun _ => 0, 0⟩ (delayedScript d)).after 27
    (m 0).world.history[27]? = some (.delayNote 4 0) ∧
    (m 500).world.history[27]? = some (.delayNote 4 2000) ∧
    (m 0).next.isNone ∧ (m 500).next.isNone ∧ (m 0).Alike (m 500) ∧
    List.Forall₂ (Report.Rel Line.Alike) (run ⟨fun _ => 0, 0⟩ true (delayedScript 0))
      (run ⟨fun _ => 0, 0⟩ true (delayedScript 500)) ∧
    run ⟨fun _ => 0, 0⟩ false (delayedScript 0) =
      run ⟨fun _ => 0, 0⟩ false (delayedScript 500) := by
  intro m
  have hscripts : undelayedAll (delayedScript 0) = undelayedAll (delayedScript 500) := by
    simp only [delayedScript, undelayedAll_cons, undelayedAll_nil, Step.undelayed]
  obtain ⟨hmoves, hlogs, hreports⟩ := delays_ignored ⟨fun _ => 0, 0⟩ hscripts
  exact ⟨rfl, rfl, rfl, rfl, hmoves 27, hlogs true, hreports⟩

end Polyfill.Session
