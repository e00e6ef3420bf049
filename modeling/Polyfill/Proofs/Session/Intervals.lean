import Polyfill.Proofs.Session.Akin
/-!
# Intervals behave as timeouts

Two sessions that are the same but for the kinds of their timers move together
(`Machine.Akin.next`).  The one move in which they come to differ is the end of a callback, after
which a timeout is registered no longer and an interval still is; by then the timer does not wait,
so no later move depends on it.

Hence the same callbacks and messages follow each other, under the same numbers; drains take the
same number of tasks; and every step comes to the same answer, unless it looks at registered timers.
As no timer is put into a queue twice, an interval is not invoked again either.
-/

namespace Polyfill.Session

/-! ## Machines that move together -/

/-- Steps that are akin have the same name, or both ask for a timer. -/
lemma Step.Akin.name {s s' : Step} (h : s.Akin s') :
    s.name = s'.name ∨ s.name ∈ timerVerbs ∧ s'.name ∈ timerVerbs := by
  cases h with
  | schedule kind kind' =>
    right
    cases kind <;> cases kind' <;> simp [Step.name, timerVerbs]
  | malformed h h' _ => exact Or.inr ⟨h, h'⟩
  | _ => exact Or.inl rfl

namespace Machine

/-- Two machines are the same but for kinds of timers and registered timers that do not wait; what
was reported of the sessions themselves is related by `V`. -/
structure Akin (V : Reported → Reported → Prop) (m m' : Machine) : Prop where
  world : m.world.Akin V m'.world
  script : AkinBodies m.script m'.script
  stack : List.Forall₂ Frame.Akin m.stack m'.stack

/-- A timer whose callback is about to return does not wait. -/
def Spent (m : Machine) : Prop :=
  ∀ t id kind below, m.stack = .settle t id kind :: below → (m.world.registry t).pending? id = none

/-- Two machines are about to do steps that are akin, which come to the same answer unless they look
at registered timers; or neither is about to do a step. -/
def StepsAkin (m m' : Machine) : Prop :=
  Option.Rel (fun x x' => x.1.Akin x'.1 ∧
    Effect.Akin (x.1.LooksAtTimers m.world) (m.world.execute x.1).2 (m'.world.execute x'.1).2)
    m.upcoming? m'.upcoming?

/-- What two machines may report of their next move: the states in which it leaves them, and the
same answer, unless the step that they do looks at registered timers. -/
structure Reporting (m m' : Machine) (o o' : Reported) : Prop where
  state : ∃ m₁, m.next = some m₁ ∧ o.2 = m₁.world.state
  state' : ∃ m₁, m'.next = some m₁ ∧ o'.2 = m₁.world.state
  answer : o.1 = o'.1 ∨
    (∃ x, m.upcoming? = some x ∧ x.1.LooksAtTimers m.world) ∧ Answer.Akin o.1 o'.1

/-- What two machines may report of some move that both make after equally many. -/
def Reports (m m' : Machine) (o o' : Reported) : Prop :=
  ∃ n, Reporting (m.after n) (m'.after n) o o'

variable {V : Reported → Reported → Prop} {m m' : Machine} {entropy entropy' : Entropy}
  {script script' : List Step}

lemma akin_start (entropy : Entropy) (h : AkinBodies script script') :
    Akin V (start entropy script) (start entropy script') :=
  ⟨⟨rfl, rfl, rfl, .nil, .nil, .nil, .nil⟩, h, .nil⟩

/-- In every session, a timer whose callback runs has fired, or is gone. -/
lemma Reaches.spent (h : Reaches (start entropy script) m) : m.Spent := by
  intro t id kind below hs
  have hrun : (t, id, kind) ∈ m.running := mem_running.mpr (hs ▸ List.mem_cons_self)
  obtain ⟨c, -, hfired⟩ := h.consistent.running t id kind hrun
  obtain ⟨a, b, heq⟩ := List.append_of_mem hfired
  obtain ⟨hstays, hgone⟩ := h.stage_of_running hrun heq
  have hstage : m.stage t id ≠ .pending := by
    by_cases hc : .cancelled t id ∈ b
    · rw [hgone hc]
      exact Stage.noConfusion
    · rw [hstays hc]
      exact Stage.noConfusion
  refine Option.eq_none_iff_forall_ne_some.mpr fun ⟨kind', c'⟩ hp => hstage ?_
  exact Registry.stage_of_pending (Registry.pending?_eq_some_iff.mp hp)

/-- To write an answer down changes nothing of the state. -/
lemma state_report (m : Machine) (name : String) (answer : Answer) :
    (m.report name answer).world.state = m.world.state := by
  obtain ⟨e, he, -⟩ := report_eq m name answer
  rw [he]
  rfl

lemma state_execute (m : Machine) (s : Step) :
    (m.execute s).world.state = (m.world.execute s).1.state := by
  rcases execute_cases m s with ⟨w, answer, e, he, hm, -⟩ | ⟨w, frames, he, hm⟩
  · rw [hm, he]
    rfl
  · rw [hm, he]

namespace Akin

lemma alive (h : Akin V m m') (t : TimersId) : m'.alive t = m.alive t := by
  have hruns : m'.stack.any (runs t) = m.stack.any (runs t) := by
    have hstack := h.stack
    generalize m.stack = stack, m'.stack = stack' at hstack
    induction hstack with
    | nil => rfl
    | cons hframe _ ih =>
      rw [List.any_cons, List.any_cons, ih]
      cases hframe <;> rfl
  rw [Machine.alive, Machine.alive, h.world.keeps, hruns]

lemma report (h : Akin V m m') {name name' : String} {answer answer' : Answer}
    (hn : name = name' ∨ name ∈ timerVerbs ∧ name' ∈ timerVerbs)
    (ha : answer = answer' ∨ name ∈ lookVerbs ∧ Answer.Akin answer answer')
    (hV : V (answer, m.world.state) (answer', m'.world.state)) :
    Akin V (m.report name answer) (m'.report name' answer') := by
  have hstack := h.stack
  cases hs : m.stack with
  | nil =>
    rw [hs, List.forall₂_nil_left_iff] at hstack
    simp only [Machine.report, hs, hstack]
    exact ⟨h.world.log (.answered hV), h.script, .nil⟩
  | cons frame below =>
    rw [hs] at hstack
    obtain ⟨frame', below', -, -, hs'⟩ := List.forall₂_cons_left_iff.mp hstack
    simp only [Machine.report, hs, hs']
    rw [← hs, ← hs']
    exact ⟨h.world.log (.stepped hn ha), h.script, h.stack⟩

lemma execute (h : Akin V m m') {s s' : Step} (hs : s.Akin s')
    (hV : ∀ answer answer',
      (answer = answer' ∨ s.LooksAtTimers m.world ∧ Answer.Akin answer answer') →
      V (answer, (m.execute s).world.state) (answer', (m'.execute s').world.state)) :
    Akin V (m.execute s) (m'.execute s') := by
  obtain ⟨hworld, heffect⟩ := h.world.execute hs
  simp only [state_execute] at hV
  simp only [Machine.execute]
  generalize m.world.execute s = r at hworld heffect hV ⊢
  generalize m'.world.execute s' = r' at hworld heffect hV ⊢
  obtain ⟨w, effect⟩ := r
  obtain ⟨w', effect'⟩ := r'
  have hm : Akin V { m with world := w } { m' with world := w' } := ⟨hworld, h.script, h.stack⟩
  cases heffect with
  | done answer => exact hm.report hs.name (Or.inl rfl) (hV answer answer (Or.inl rfl))
  | look hlooks ha =>
    exact hm.report hs.name (Or.inr ⟨hlooks.name, ha⟩) (hV _ _ (Or.inr ⟨hlooks, ha⟩))
  | enter hframes => exact ⟨hworld, h.script, List.rel_append hframes h.stack⟩

/-- More work in worlds that are akin. -/
lemma push (h : Akin V m m') {w w' : World} (hw : w.Akin V w') {frame frame' : Frame}
    (hf : frame.Akin frame') : Akin V { m with world := w, stack := frame :: m.stack }
      { m' with world := w', stack := frame' :: m'.stack } :=
  ⟨hw, h.script, .cons hf h.stack⟩

lemma invoke (h : Akin V m m') {c c' : Callback} (hc : c.Akin c') :
    Akin V (m.invoke c) (m'.invoke c') := by
  cases hc with
  | script label args hb => exact h.push h.world (.body hb)
  | delivery k data =>
    simp only [Machine.invoke, h.world.workers]
    cases (m.world.workers[k]?).bind Worker.recipient? with
    | none => exact h
    | some i =>
      obtain ⟨hbody, hworld⟩ := h.world.deliver k i data ""
      exact h.push hworld (.body hbody)

lemma startTask (h : Akin V m m') {task task' : Microtask} (ht : task.Akin task') :
    Akin V (m.startTask task) (m'.startTask task') := by
  cases ht with
  | script label hb => exact h.push h.world (.body hb)
  | fire t id =>
    simp only [Machine.startTask, h.alive]
    split
    · rcases h.world.fire t id with ⟨hf, hf'⟩ | ⟨kind, kind', c, c', w, w', hf, hf', hc, hw⟩
      · simp only [hf, hf']
        exact h
      · simp only [hf, hf']
        exact (h.push hw (.settle t id kind kind')).invoke hc
    · exact h

section Moves

variable (hV : ∀ o o', Reporting m m' o o' → V o o') {m₀ m₀' : Machine} (h₀ : Akin V m₀ m₀')

include hV h₀

/-- A step of both machines, taken from their scripts or from bodies on their stacks. -/
lemma next_step {s s' : Step} (hs : s.Akin s') (hup : m.upcoming? = some (s, m₀))
    (hup' : m'.upcoming? = some (s', m₀')) :
    ∃ n n', m.next = some n ∧ m'.next = some n' ∧ Akin V n n' := by
  obtain ⟨hn, hworld⟩ := next_of_upcoming hup
  obtain ⟨hn', -⟩ := next_of_upcoming hup'
  refine ⟨_, _, hn, hn', h₀.execute hs fun answer answer' ha => ?_⟩
  rw [hworld] at ha
  exact hV _ _ ⟨⟨_, hn, rfl⟩, ⟨_, hn', rfl⟩, ha.imp_right fun ⟨hl, ha⟩ => ⟨⟨_, hup, hl⟩, ha⟩⟩

/-- An answer that was known before the move is reported as it is. -/
lemma next_report (name : String) (answer : Answer) (hn : m.next = some (m₀.report name answer))
    (hn' : m'.next = some (m₀'.report name answer)) :
    ∃ n n', m.next = some n ∧ m'.next = some n' ∧ Akin V n n' := by
  refine ⟨_, _, hn, hn', h₀.report (Or.inl rfl) (Or.inl rfl) (hV _ _ ⟨?_, ?_, Or.inl rfl⟩)⟩
  · exact ⟨_, hn, (state_report m₀ name answer).symm⟩
  · exact ⟨_, hn', (state_report m₀' name answer).symm⟩

end Moves

/-- Machines that are akin move together, and come to rest together. -/
theorem next (h : Akin V m m') (hspent : m.Spent) (hspent' : m'.Spent)
    (hV : ∀ o o', Reporting m m' o o' → V o o') : (m.next = none ∧ m'.next = none) ∨
      ∃ n n', m.next = some n ∧ m'.next = some n' ∧ Akin V n n' := by
  obtain ⟨w, script, stack⟩ := m
  obtain ⟨w', script', stack'⟩ := m'
  obtain ⟨hw, hscript, hstack⟩ := h
  dsimp only at hw hscript hstack
  cases hstack with
  | nil =>
    cases hscript with
    | nil => exact Or.inl ⟨rfl, rfl⟩
    | cons hs hrest => exact Or.inr (next_step hV ⟨hw, hrest, .nil⟩ hs rfl rfl)
  | @cons _ _ below below' hframe hbelow =>
    refine Or.inr ?_
    cases hframe with
    | body hb =>
      cases hb with
      | nil => exact ⟨_, _, rfl, rfl, hw, hscript, hbelow⟩
      | cons hs hrest => exact next_step hV ⟨hw, hscript, .cons (.body hrest) hbelow⟩ hs rfl rfl
    | drain q count =>
      rcases hw.pop q with ⟨hp, hp'⟩ | ⟨task, task', v, v', hp, hp', ht, hv⟩
      · have hdrained : Akin V ⟨w.log (.drained q count), script, below⟩
            ⟨w'.log (.drained q count), script', below'⟩ :=
          ⟨hw.log (.same (.drained q count) rfl), hscript, hbelow⟩
        refine next_report hV hdrained "run" (Answer.data (.nat count)) ?_ ?_
        · simp only [Machine.next, hp]
        · simp only [Machine.next, hp']
      · simp only [Machine.next, hp, hp']
        exact ⟨_, _, rfl, rfl, Akin.startTask ⟨hv, hscript, .cons (.drain q _) hbelow⟩ ht⟩
    | settle t id kind kind' =>
      -- the registries may drift apart, for the timer does not wait in either
      have hsettle := hw.settle (hspent t id kind _ rfl) (hspent' t id kind' _ rfl) kind kind'
      exact ⟨_, _, rfl, rfl, hsettle, hscript, hbelow⟩
    | reply name answer => exact next_report hV ⟨hw, hscript, hbelow⟩ name answer rfl rfl

lemma stepsAkin (h : Akin V m m') : m.StepsAkin m' := by
  obtain ⟨w, script, stack⟩ := m
  obtain ⟨w', script', stack'⟩ := m'
  obtain ⟨hw, hscript, hstack⟩ := h
  dsimp only at hw hscript hstack
  cases hstack with
  | nil =>
    cases hscript with
    | nil => exact .none
    | cons hs _ => exact .some ⟨hs, (hw.execute hs).2⟩
  | cons hframe _ =>
    cases hframe with
    | body hb =>
      cases hb with
      | nil => exact .none
      | cons hs _ => exact .some ⟨hs, (hw.execute hs).2⟩
    | _ => exact .none

end Akin

/-- Two sessions go on together, with machines that are akin after equally many moves. -/
lemma together_akin (m m' : Machine) (hspent : ∀ n, (m.after n).Spent)
    (hspent' : ∀ n, (m'.after n).Spent) : Together fun m₁ m₁' =>
      Akin (Reports m m') m₁ m₁' ∧ ∃ n, m₁ = m.after n ∧ m₁' = m'.after n := by
  rintro _ _ ⟨h, n, rfl, rfl⟩
  have hsucc : ∀ {m m₁ : Machine}, (m.after n).next = some m₁ → m₁ = m.after (n + 1) := by
    intro m m₁ hn
    rw [after_add, after, hn]
    rfl
  rcases h.next (hspent n) (hspent' n) fun o o' ho => ⟨n, ho⟩ with
    ⟨hn, hn'⟩ | ⟨m₁, m₁', hn, hn', h'⟩
  · exact Or.inl ⟨hn, hn'⟩
  · exact Or.inr ⟨m₁, m₁', hn, hn', h', n + 1, hsucc hn, hsucc hn'⟩

/-! ## Intervals are not repeated -/

/-- A timer is not repeated: its task has been put into a queue once, and when its callback has been
invoked, the task is in no queue ever again, and the callback is not invoked again. -/
def NotRepeated (m : Machine) (t : TimersId) (id : Nat) (c : Callback) : Prop :=
  (∀ q, (timersIn (enqueuedOn q m.world.history)).count (t, id) ≤ 1) ∧
    ∀ c', .fired t id c' ∈ m.world.history → ∀ m', Reaches m m' →
      invocations t id m'.world.history = [c] ∧ ∀ q, .fire t id ∉ m'.world.tasks q

lemma Reaches.notRepeated (h : Reaches (start entropy script) m) {t : TimersId} {id : Nat}
    {kind : TimerKind} {c : Callback} (hs : .scheduled t id kind c ∈ m.world.history) :
    m.NotRepeated t id c := by
  have hf := h.consistent.faithful
  refine ⟨fun q => ?_, fun c' hc' m' h' => ⟨?_, h.not_queued (hf.started_of_fired hc') h'⟩⟩
  · rw [← hf.order]
    exact List.nodup_iff_count_le_one.mp (hf.nodup_onQueue q) (t, id)
  · rw [h.invocations_eq (hf.started_of_fired hc') h']
    rcases hf.invocations_cases t id with hnil | ⟨kind', c₁, hs', hone⟩
    · have hmem := mem_invocations.mpr hc'
      rw [hnil] at hmem
      cases hmem
    · obtain ⟨-, rfl⟩ := scheduled_unique (hf.scheduledIds_nodup t) hs hs'
      exact hone

end Machine

/-! ## Reports -/

/-- Whether a line of a log is a message about a timer. -/
def Line.aboutTimer : Line → Bool
  | .data [.text level, .text text] =>
    (level == "debug" || level == "trace") && "Timer ".toList.isPrefixOf text.toList
  | _ => false

/-- A log without messages about timers. -/
def otherLines (lines : List Line) : List Line :=
  lines.filter fun line => !line.aboutTimer

/-- A report without messages about timers. -/
def Report.withoutTimerNotes (r : Report) : Report :=
  { r with log := otherLines r.log }

/-- Two lines of a log are the same, or tell of steps in bodies that are akin: of steps that ask for
timers, or that look at registered timers. -/
inductive Line.Akin : Line → Line → Prop
  | same (line : Line) : Akin line line
  | step {name name' : String} {answer answer' : Answer}
      (hn : name = name' ∨ name ∈ timerVerbs ∧ name' ∈ timerVerbs)
      (ha : answer = answer' ∨ name ∈ lookVerbs ∧ Answer.Akin answer answer') :
      Akin (.step name answer) (.step name' answer')

/-- Two reports have answers and states that are related by `V`, and the same logs but for steps in
bodies that ask for timers or look at them. -/
structure Report.Akin (V : Reported → Reported → Prop) (r r' : Report) : Prop where
  reported : V (r.answer, r.state) (r'.answer, r'.state)
  log : List.Forall₂ Line.Akin r.log r'.log

lemma otherLines_append (lines lines' : List Line) :
    otherLines (lines ++ lines') = otherLines lines ++ otherLines lines' :=
  List.filter_append _ _

namespace Event

/-- A line is a message about a timer if the event that it shows is. -/
lemma aboutTimer_of_line? {messages : Bool} {e : Event} {line : Line}
    (h : e.line? messages = some line) : line.aboutTimer = e.aboutTimer := by
  cases e with
  | note n =>
    cases n with
    | op shown call =>
      cases shown with
      | false => cases h
      | true =>
        cases h
        generalize call.arguments.map Datum.text = rest
        cases rest <;> rfl
    | debug text | trace text =>
      cases messages with
      | false => cases h
      | true =>
        cases h
        rfl
  | started q task =>
    cases task with
    | fire => cases h
    | script =>
      cases h
      rfl
  | fired t id c =>
    cases c with
    | script label args body =>
      cases args <;> cases h <;> rfl
    | delivery k data => cases h
  | message | failure | stepped =>
    cases h
    rfl
  | _ => cases h

lemma otherLines_line? (messages : Bool) (e : Event) : otherLines (e.line? messages).toList =
    if e.aboutTimer then [] else (e.line? messages).toList := by
  cases h : e.line? messages with
  | none => exact (ite_self _).symm
  | some line =>
    rw [← aboutTimer_of_line? h]
    cases hline : line.aboutTimer <;> simp [otherLines, hline]

lemma outcome?_of_aboutTimer {e : Event} (h : e.aboutTimer = true) : e.outcome? = none := by
  cases e with
  | note n => rfl
  | _ => cases h

variable {V : Reported → Reported → Prop} {e e' : Event}

lemma Akin.line? (h : e.Akin V e') (messages : Bool) :
    List.Forall₂ Line.Akin (e.line? messages).toList (e'.line? messages).toList := by
  have hsame : ∀ lines : List Line, List.Forall₂ Line.Akin lines lines := fun lines =>
    List.forall₂_same.mpr fun line _ => .same line
  cases h with
  | same e _ => exact hsame _
  | enqueued q h => exact .nil
  | started q h => cases h <;> exact hsame _
  | scheduled t id kind kind' h => exact .nil
  | fired t id h =>
    cases h with
    | script label args h => cases args <;> exact hsame _
    | delivery k data => exact hsame _
  | stepped hn ha => exact .cons (.step hn ha) .nil
  | answered h => exact .nil

end Event

/-- A report on a session without messages about timers is one on its history without them. -/
lemma map_reportsFrom_withoutTimerNotes (messages : Bool) (lines : List Line) (h : List Event) :
    (reportsFrom messages lines h).map Report.withoutTimerNotes =
      reportsFrom messages (otherLines lines) (withoutTimerNotes h) := by
  induction h generalizing lines with
  | nil => rfl
  | cons e rest ih =>
    have hlines := e.otherLines_line? messages
    cases he : e.aboutTimer with
    | true =>
      have hout : e.outcome? = none := Event.outcome?_of_aboutTimer he
      rw [if_pos he] at hlines
      rw [reportsFrom_cons, hout, withoutTimerNotes, List.filter_cons_of_neg (by simp [he])]
      simp only [ih, otherLines_append, hlines, List.nil_append, withoutTimerNotes]
    | false =>
      rw [he, if_neg Bool.false_ne_true] at hlines
      rw [reportsFrom_cons, withoutTimerNotes, List.filter_cons_of_pos (by simp [he]),
        reportsFrom_cons]
      cases e.outcome? with
      | none => simp only [ih, otherLines_append, hlines, withoutTimerNotes]
      | some o =>
        simp only [List.map_cons, ih, Report.withoutTimerNotes, otherLines, List.filter_reverse,
          List.filter_nil, withoutTimerNotes]

/-- Histories that are akin are reported alike. -/
lemma forall₂_reports {V : Reported → Reported → Prop} (messages : Bool) {h h' : List Event}
    (he : List.Forall₂ (Event.Akin V) (withoutTimerNotes h) (withoutTimerNotes h')) :
    List.Forall₂ (Report.Akin V) ((reports messages h).map Report.withoutTimerNotes)
      ((reports messages h').map Report.withoutTimerNotes) := by
  simp only [reports, map_reportsFrom_withoutTimerNotes]
  refine forall₂_reportsFrom (fun e e' h => h.line? messages) (fun e e' h => ?_) .nil he
  cases h with
  | same e hquiet =>
    rw [hquiet]
    exact .none
  | answered hV => exact .some fun _ _ hlines => ⟨hV, hlines⟩
  | _ => exact .none

/-! ## Intervals and timeouts -/

namespace Machine

/-- Intervals behave as timeouts.  Let two sessions be the same but for the kinds of timers, at any
depth.  After every number of moves they have the same names, workers and handlers, the same timers
wait, and their queues hold the same tasks; the same has happened in both: the same tasks were
queued and started, the same callbacks and messages followed each other, and drains returned the
same numbers.  Their next steps come to the same answer, such as the number of a new timer, unless
they look at registered timers.  Both come to rest together.  Leaving out messages about timers,
they report the same on each step, but for what tells of registered timers and for the names of
steps that ask for timers.  No interval is repeated. -/
theorem intervals_behave_as_timeouts (entropy : Entropy) {script₁ script₂ : List Step}
    (h : AkinBodies script₁ script₂) :
    (∀ n, Akin (Reports (start entropy script₁) (start entropy script₂))
        ((start entropy script₁).after n) ((start entropy script₂).after n) ∧
      World.Matches ((start entropy script₁).after n).world
        ((start entropy script₂).after n).world ∧
      StepsAkin ((start entropy script₁).after n) ((start entropy script₂).after n) ∧
      (((start entropy script₁).after n).next = none ↔
        ((start entropy script₂).after n).next = none)) ∧
    (∀ messages, List.Forall₂
      (Report.Akin (Reports (start entropy script₁) (start entropy script₂)))
      ((run entropy messages script₁).map Report.withoutTimerNotes)
      ((run entropy messages script₂).map Report.withoutTimerNotes)) ∧
    ∀ m, Reaches (start entropy script₁) m → ∀ t id c,
      .scheduled t id .interval c ∈ m.world.history → m.NotRepeated t id c := by
  have htogether := together_akin (start entropy script₁) (start entropy script₂)
    (fun n => (reaches_after _ n).spent) fun n => (reaches_after _ n).spent
  have hstart := akin_start (V := Reports (start entropy script₁) (start entropy script₂)) entropy h
  refine ⟨fun n => ?_, fun messages => ?_, fun m hm t id c hs => hm.notRepeated hs⟩
  · have hafter := htogether.after ⟨hstart, 0, rfl, rfl⟩ n
    refine ⟨hafter.1, hafter.1.world.shown, hafter.1.stepsAkin, ?_⟩
    rcases htogether _ _ hafter with ⟨hn, hn'⟩ | ⟨m₁, m₂, hn, hn', -⟩
    · simp only [hn, hn']
    · simp only [hn, hn', reduceCtorEq]
  · obtain ⟨hfinish, -⟩ := htogether.finish ⟨hstart, 0, rfl, rfl⟩
    exact forall₂_reports messages hfinish.world.history

/-- A session that asks for two timers of one kind, the second in the callback of the first, which
then drains the queue itself.  When all is done, it looks at the second timer and cancels it. -/
def repeatingScript (kind : TimerKind) : List Step :=
  [.newQueue "q", .newTimers "t" "q",
    .schedule kind "t" "first" 10 (some [.nat 7]) [
      .schedule kind "t" "second" 0 none [.query (.size "t")],
      .run "q"],
    .run "q",
    .query (.state "t" 2),
    .cancel .clearInterval "t" 2]

/-- With intervals, that session finds the second timer fired, and a message tells that it is
cancelled; with timeouts, the timer is gone.  In all else the sessions are the same. -/
theorem intervals_behave_as_timeouts_when_nested :
    let m (kind : TimerKind) (n : Nat) : Machine :=
      (start ⟨fun _ => 0, 0⟩ (repeatingScript kind)).after n
    (m .interval 15).stage 0 2 = .fired ∧ (m .timeout 15).stage 0 2 = .gone ∧
    (m .interval 17).world.history.length = 27 ∧ (m .timeout 17).world.history.length = 26 ∧
    (m .interval 17).next.isNone ∧ (m .timeout 17).next.isNone ∧
    Akin (Reports (m .interval 0) (m .timeout 0)) (m .interval 17) (m .timeout 17) ∧
    List.Forall₂ (Report.Akin (Reports (m .interval 0) (m .timeout 0)))
      ((run ⟨fun _ => 0, 0⟩ true (repeatingScript .interval)).map Report.withoutTimerNotes)
      ((run ⟨fun _ => 0, 0⟩ true (repeatingScript .timeout)).map Report.withoutTimerNotes) ∧
    ∃ c, .scheduled 0 2 .interval c ∈ (m .interval 17).world.history ∧
      (m .interval 17).NotRepeated 0 2 c := by
  intro m
  have hcallback : AkinBodies
      [.schedule .interval "t" "second" 0 none [.query (.size "t")], .run "q"]
      [.schedule .timeout "t" "second" 0 none [.query (.size "t")], .run "q"] :=
    .cons (.schedule _ _ _ _ _ _ (AkinBodies.refl _)) (AkinBodies.refl _)
  have hscripts : AkinBodies (repeatingScript .interval) (repeatingScript .timeout) :=
    .cons (.same _) (.cons (.same _) (.cons (.schedule _ _ _ _ _ _ hcallback) (AkinBodies.refl _)))
  have hscheduled : .scheduled 0 2 .interval (.script "second" none [.query (.size "t")]) ∈
      (m .interval 17).world.history := List.mem_of_getElem? (i := 9) rfl
  obtain ⟨hmoves, hreports, honce⟩ := intervals_behave_as_timeouts ⟨fun _ => 0, 0⟩ hscripts
  exact ⟨rfl, rfl, rfl, rfl, rfl, rfl, (hmoves 17).1, hreports true, _, hscheduled,
    honce (m .interval 17) (reaches_after _ 17) 0 2 _ hscheduled⟩

end Machine

end Polyfill.Session
