import Polyfill.Proofs.Session.Lockstep
/-!
# Two parts of a session

While a session works for one of its parts, the session that has nothing but this part makes the
same moves (`Machine.Mirrors.next`).  What the other part holds stays as it is, so the two parts can
be followed side by side (`Machine.Abreast`): every move of the session is a move of one of them,
and the other one does not notice.
-/

namespace Polyfill.Session

/-- Whether a piece of work ends with the report of an answer. -/
def Frame.closes : Frame → Bool
  | .drain _ _ | .reply _ _ => true
  | .body _ | .settle _ _ _ => false

/-- The work that a step of the session itself has begun ends with a report. -/
def Grounded (stack : List Frame) : Prop :=
  ∀ frame, stack.getLast? = some frame → frame.closes = true

lemma grounded_nil : Grounded [] := by
  intro frame h
  cases h

lemma grounded_cons {frame : Frame} {stack : List Frame} (h : Grounded stack)
    (hne : stack ≠ []) : Grounded (frame :: stack) := by
  intro last hlast
  rw [List.getLast?_cons_of_ne_nil hne] at hlast
  exact h last hlast

lemma Grounded.tail {frame : Frame} {stack : List Frame} (h : Grounded (frame :: stack)) :
    Grounded stack := by
  intro last hlast
  have hne : stack ≠ [] := by
    rintro rfl
    cases hlast
  refine h last ?_
  rwa [List.getLast?_cons_of_ne_nil hne]

/-- Work that does not end with a report has other work below it. -/
lemma Grounded.ne_nil {frame : Frame} {stack : List Frame} (h : Grounded (frame :: stack))
    (hframe : frame.closes = false) : stack ≠ [] := by
  rintro rfl
  have := h frame rfl
  rw [hframe] at this
  cases this

namespace Machine

/-- A machine works for a part: its world mirrors the world of the part's own machine, and what it
has begun is what that machine has begun. -/
structure Mirrors (p : Part) (m v : Machine) : Prop where
  world : m.world.Mirrors p v.world
  stack : List.Forall₂ (Frame.Mirrors p) m.stack v.stack
  grounded : Grounded m.stack

/-- How a move leaves two worlds: work goes on in both machines, or a step of the session itself is
answered in both. -/
inductive Ends (w v : World) (m' v' : Machine) : Prop
  | goesOn (hw : m'.world = w) (hv : v'.world = v) (hs : m'.stack ≠ [])
  | answers (answer : Answer) (hw : m'.world = w.log (.answered answer w.state))
      (hv : v'.world = v.log (.answered answer v.state)) (hs : m'.stack = [])

/-- Two machines have made the same move, and the first one still works for the part or is done. -/
structure Moves (p : Part) (m v : Machine) (p' : Part) (m' v' : Machine) : Prop where
  stack : List.Forall₂ (Frame.Mirrors p') m'.stack v'.stack
  grounded : Grounded m'.stack
  world : ∃ w₁ v₁, World.Couples p m.world v.world p' w₁ v₁ ∧ Ends w₁ v₁ m' v'

variable {p p' : Part} {m v m' v' : Machine} {w₁ v₁ : World} {script script' : List Step}
  {below below' : List Frame}

lemma Moves.grows (h : Moves p m v p' m' v') : p.Grows p' := by
  obtain ⟨w₁, v₁, hc, -⟩ := h.world
  exact hc.grows

/-- A move that leaves work to be done. -/
lemma Moves.goesOn (hc : World.Couples p m.world v.world p' w₁ v₁)
    (hstack : List.Forall₂ (Frame.Mirrors p') below below') (hg : Grounded below)
    (hne : below ≠ []) : Moves p m v p' ⟨w₁, script, below⟩ ⟨v₁, script', below'⟩ :=
  ⟨hstack, hg, w₁, v₁, hc, .goesOn rfl rfl hne⟩

/-- A report is a report of the session itself in both machines, or of a body in both. -/
lemma Moves.report (hc : World.Couples p m.world v.world p' w₁ v₁)
    (hstack : List.Forall₂ (Frame.Mirrors p') below below') (hg : Grounded below) (name : String)
    (answer : Answer) :
    Moves p m v p' (Machine.report ⟨w₁, script, below⟩ name answer)
      (Machine.report ⟨v₁, script', below'⟩ name answer) := by
  cases hstack with
  | nil => exact ⟨.nil, grounded_nil, w₁, v₁, hc, .answers answer rfl rfl rfl⟩
  | cons hframe hrest =>
    have hlog := hc.trans (hc.mirrors.log (.stepped name answer) rfl)
    exact ⟨.cons hframe hrest, hg, _, _, hlog, .goesOn rfl rfl (List.cons_ne_nil _ _)⟩

/-- A step is done in both machines. -/
lemma Moves.execute (m v : Machine) {s : Step}
    (hs : World.SameWork p m.world v.world (m.world.execute s) (v.world.execute s))
    (hstack : List.Forall₂ (Frame.Mirrors p) below below') (hg : Grounded below) :
    ∃ p', Moves p m v p' (Machine.execute ⟨m.world, script, below⟩ s)
      (Machine.execute ⟨v.world, script', below'⟩ s) := by
  obtain ⟨p', hc, heffect⟩ := hs
  have hstack' := hstack.imp fun _ _ hf => Frame.Mirrors.mono hc.grows hf
  refine ⟨p', ?_⟩
  unfold Machine.execute
  rcases hw : m.world.execute s with ⟨w₁, effect⟩
  rcases hv : v.world.execute s with ⟨v₁, effect'⟩
  rw [hw, hv] at hc heffect
  dsimp only at hc heffect ⊢
  cases heffect with
  | done answer => exact Moves.report hc hstack' hg s.name answer
  | @enter frames frames' hframes =>
    -- The new work ends with a report, or stands on work that does.
    have hne : frames ≠ [] := by
      rcases enter_of_execute hw with ⟨-, q, -, -, -, rfl⟩ | ⟨body, name, answer, rfl⟩ <;> simp
    have hlast : Grounded frames := by
      rcases enter_of_execute hw with ⟨-, q, -, -, -, rfl⟩ | ⟨body, name, answer, rfl⟩
      · rintro frame ⟨⟩
        rfl
      · rintro frame ⟨⟩
        rfl
    refine Moves.goesOn hc (List.rel_append hframes hstack') ?_ (by simp [hne])
    intro frame hframe
    rw [List.getLast?_append] at hframe
    cases hbelow : below.getLast? with
    | none =>
      rw [hbelow, Option.none_or] at hframe
      exact hlast frame hframe
    | some last =>
      rw [hbelow, Option.some_or] at hframe
      obtain rfl := Option.some.inj hframe
      exact hg last hbelow

lemma Mirrors.alive (h : Mirrors p m v)
    (hkeeps : ∀ t t', p.timers[t']? = some t → m.world.keeps t = v.world.keeps t')
    {t t' : TimersId} (ht : p.timers[t']? = some t) : m.alive t = v.alive t' := by
  have hruns : ∀ f f', Frame.Mirrors p f f' → runs t f = runs t' f' := by
    intro f f' hf
    cases hf with
    | @settle j i id kind hi =>
      simp only [runs]
      rw [Bool.eq_iff_iff, beq_iff_eq, beq_iff_eq]
      constructor
      · rintro rfl
        exact h.world.timers.inj hi ht
      · rintro rfl
        exact Option.some.inj (hi.symm.trans ht)
    | _ => rfl
  have hstack := h.stack
  rw [Machine.alive, Machine.alive, hkeeps t t' ht]
  congr 1
  generalize m.stack = l at hstack
  generalize v.stack = l' at hstack
  induction hstack with
  | nil => rfl
  | cons hf _ ih => rw [List.any_cons, List.any_cons, hruns _ _ hf, ih]

/-- The callback of a timer is invoked in both machines. -/
lemma Moves.invoke (hc : World.Couples p m.world v.world p w₁ v₁)
    (hstack : List.Forall₂ (Frame.Mirrors p) below below') (hg : Grounded below)
    (hne : below ≠ []) {c c' : Callback} (hcc : c.Mirrors p c') :
    Moves p m v p (Machine.invoke ⟨w₁, script, below⟩ c)
      (Machine.invoke ⟨v₁, script', below'⟩ c') := by
  cases hcc with
  | script label args hbody =>
    exact Moves.goesOn hc (.cons (.body hbody) hstack) (grounded_cons hg hne)
      (List.cons_ne_nil _ _)
  | @delivery k k' data hk =>
    obtain ⟨a, b, ha, hb, hab⟩ := hc.mirrors.workers.get hk
    have hrecipient : Option.Rel (fun j i => p.handlers[i]? = some j) a.recipient?
        b.recipient? := by
      unfold Worker.recipient?
      rw [hab.terminated]
      split
      · exact .none
      · exact hab.slot .message
    simp only [Machine.invoke, ha, hb, Option.bind_some]
    rcases rel_cases hrecipient with ⟨hx, hy⟩ | ⟨i, i', hx, hy, hi⟩
    · rw [hx, hy]
      exact Moves.goesOn hc hstack hg hne
    · rw [hx, hy]
      obtain ⟨hbody, hcovers, hdeliver⟩ := hc.mirrors.deliver hk hi data ""
      simp only [hbody]
      exact Moves.goesOn (hc.trans hdeliver) (.cons (.body hcovers) hstack) (grounded_cons hg hne)
        (List.cons_ne_nil _ _)

/-- A task is taken and started in both machines: a script runs, and a timer fires if it waits and
its registry is alive. -/
lemma Mirrors.startTask (h : Mirrors p m v)
    (hkeeps : ∀ t t', p.timers[t']? = some t → m.world.keeps t = v.world.keeps t')
    {q q' : QueueId} {n : Nat} (hstack : m.stack = .drain q n :: below)
    (hstack' : v.stack = .drain q' n :: below') (hq : p.queues[q']? = some q)
    {task task' : Microtask} (hw : m.world.pop q = some (task, w₁))
    (hv : v.world.pop q' = some (task', v₁)) (ht : task.Mirrors p task')
    (hc : World.Couples p m.world v.world p w₁ v₁) :
    Moves p m v p
      (Machine.startTask { m with world := w₁, stack := .drain q (n + 1) :: below } task)
      (Machine.startTask { v with world := v₁, stack := .drain q' (n + 1) :: below' } task') := by
  have hframes := h.stack
  have hg := h.grounded
  rw [hstack, hstack'] at hframes
  rw [hstack] at hg
  have hrest : List.Forall₂ (Frame.Mirrors p) (.drain q (n + 1) :: below)
      (.drain q' (n + 1) :: below') := .cons (.drain _ hq) (List.forall₂_cons.mp hframes).2
  have hgrounded : Grounded (.drain q (n + 1) :: below) := by
    cases below with
    | nil =>
      rintro frame ⟨⟩
      rfl
    | cons frame rest => exact grounded_cons hg.tail (List.cons_ne_nil _ _)
  cases ht with
  | script label hbody =>
    exact Moves.goesOn hc (.cons (.body hbody) hrest)
      (grounded_cons hgrounded (List.cons_ne_nil _ _)) (List.cons_ne_nil _ _)
  | @fire t t' id ht =>
    have halive := h.alive hkeeps ht
    simp only [Machine.startTask, alive_pop hstack hw, alive_pop hstack' hv, halive]
    split
    · rcases hc.mirrors.fire ht id with ⟨hf, hf'⟩ | ⟨kind, c, c', w₂, v₂, hf, hf', hcc, hc₂⟩
      · simp only [hf, hf']
        exact Moves.goesOn hc hrest hgrounded (List.cons_ne_nil _ _)
      · simp only [hf, hf']
        exact Moves.invoke (hc.trans hc₂) (.cons (.settle id kind ht) hrest)
          (grounded_cons hgrounded (List.cons_ne_nil _ _)) (List.cons_ne_nil _ _) hcc
    · exact Moves.goesOn hc hrest hgrounded (List.cons_ne_nil _ _)

/-- Whether the step that the machine of a part does next, if it does one, finds in the whole what
it asks for: the host of an environment, and the answers of ops. -/
structure Finds (p : Part) (m v : Machine) : Prop where
  host : ∀ s v₀, v.upcoming? = some (s, v₀) → s.within p.own p.lent = true →
    ∀ name, s.source? = some name → m.world.host? name = v.world.host? name
  answers : ∀ s v₀, v.upcoming? = some (s, v₀) → m.world.Answers v.world s

/-- Whatever a machine does next for a part, the machine of the part does too. -/
theorem Mirrors.next (h : Mirrors p m v) (hfinds : Finds p m v)
    (hkeeps : ∀ t t', p.timers[t']? = some t → m.world.keeps t = v.world.keeps t')
    (hscript : m.stack = [] → ∃ s rest rest', m.script = s :: rest ∧ v.script = s :: rest' ∧
      s.within p.own p.lent = true)
    (hn : m.next = some m') : ∃ p' v', v.next = some v' ∧ Moves p m v p' m' v' := by
  have hframes := h.stack
  have hg := h.grounded
  have hstep : ∀ s v₀, v.upcoming? = some (s, v₀) → s.within p.own p.lent = true →
      World.SameWork p m.world v.world (m.world.execute s) (v.world.execute s) :=
    fun s v₀ hup hs => h.world.execute hs (hfinds.host s v₀ hup hs) (hfinds.answers s v₀ hup)
  obtain ⟨w, script, stack⟩ := m
  obtain ⟨u, script', stack'⟩ := v
  dsimp only at hframes hg hscript hstep
  cases hframes with
  | nil =>
    obtain ⟨s, rest, rest', rfl, rfl, hs⟩ := hscript rfl
    cases hn
    obtain ⟨p', hmoves⟩ := Moves.execute ⟨w, s :: rest, []⟩ ⟨u, s :: rest', []⟩
      (hstep s _ rfl hs) .nil grounded_nil
    exact ⟨p', _, rfl, hmoves⟩
  | @cons frame frame' below below' hframe hbelow =>
    cases hframe with
    | @body body hbody =>
      cases body with
      | nil =>
        cases hn
        exact ⟨p, _, rfl, Moves.goesOn h.world.couples hbelow hg.tail (hg.ne_nil rfl)⟩
      | cons s rest =>
        cases hn
        rw [Part.covers, allWithin, Bool.and_eq_true] at hbody
        obtain ⟨p', hmoves⟩ := Moves.execute ⟨w, script, .body (s :: rest) :: below⟩
          ⟨u, script', .body (s :: rest) :: below'⟩ (hstep s _ rfl hbody.1)
          (.cons (.body hbody.2) hbelow) (grounded_cons hg.tail (hg.ne_nil rfl))
        exact ⟨p', _, rfl, hmoves⟩
    | @drain q q' n hq =>
      simp only [Machine.next] at hn ⊢
      rcases h.world.pop hq with ⟨hw, hv⟩ | ⟨task, task', w₁, v₁, hw, hv, ht, hc⟩
      · rw [hw] at hn
        rw [hv]
        cases hn
        have hlog := h.world.log (.drained n hq) rfl
        exact ⟨p, _, rfl, Moves.report hlog hbelow hg.tail "run" _⟩
      · rw [hw] at hn
        rw [hv]
        cases hn
        exact ⟨p, _, rfl, h.startTask hkeeps rfl rfl hq hw hv ht hc⟩
    | @settle t t' id kind ht =>
      cases hn
      exact ⟨p, _, rfl,
        Moves.goesOn (h.world.settle ht id kind) hbelow hg.tail (hg.ne_nil rfl)⟩
    | reply name answer =>
      cases hn
      exact ⟨p, _, rfl, Moves.report h.world.couples hbelow hg.tail name answer⟩

end Machine

/-! ## Side by side -/

namespace World.Mirrors

variable {p q : Part} {w v u : World}

/-- A handle of the part keeps the same registries alive. -/
lemma holds (h : Mirrors p w v) {t t' : TimersId} (ht : p.timers[t']? = some t) {x y : Handle}
    (hxy : x.Mirrors p y) : w.holds t x = v.holds t' y := by
  have hsame : ∀ {j i : TimersId}, p.timers[i]? = some j → (j == t) = (i == t') := by
    intro j i hi
    rw [Bool.eq_iff_iff, beq_iff_eq, beq_iff_eq]
    constructor
    · rintro rfl
      exact h.timers.inj hi ht
    · rintro rfl
      exact Option.some.inj (hi.symm.trans ht)
  cases hxy with
  | timers hi => exact hsame hi
  | worker hi =>
    obtain ⟨a, b, ha, hb, hab⟩ := h.workers.get hi
    simp only [World.holds, ha, hb, Option.any_some]
    exact hsame hab.timers
  | _ => rfl

/-- A handle of another part keeps no registry of this part alive. -/
lemma not_holds (h : Mirrors q w u) {t : TimersId} (ht : t ∉ q.timers) {x y : Handle}
    (hxy : x.Mirrors q y) : w.holds t x = false := by
  have hother : ∀ {j i : TimersId}, q.timers[i]? = some j → (j == t) = false := by
    intro j i hi
    rw [beq_eq_false_iff_ne]
    rintro rfl
    exact ht (List.mem_of_getElem? hi)
  cases hxy with
  | timers hi => exact hother hi
  | worker hi =>
    obtain ⟨a, b, ha, -, hab⟩ := h.workers.get hi
    simp only [World.holds, ha, Option.any_some]
    exact hother hab.timers
  | _ => rfl

/-- Beside another part, the same registries of a part are kept alive as without it. -/
lemma keeps (h : Mirrors p w v) (hq : Mirrors q w u) (hown : ∀ n, q.own n = !p.own n)
    (hapart : p.Apart q) {t t' : TimersId} (ht : p.timers[t']? = some t) :
    w.keeps t = v.keeps t' := by
  obtain ⟨a, b, ha, hb, hab⟩ := h.timers.get ht
  have hnot : t ∉ q.timers := fun hmem => hapart.timers (List.mem_of_getElem? ht) hmem
  simp only [World.keeps, ha, hb, Option.any_some, hab.owned]
  congr 1
  rw [Bool.eq_iff_iff, List.any_eq_true, List.any_eq_true]
  constructor
  · rintro ⟨x, hx, hholds⟩
    cases hn : p.own x.1 with
    | true =>
      obtain ⟨y, hy, hxy⟩ := (exists_of_forall₂ h.names).1 x (List.mem_filter.mpr ⟨hx, hn⟩)
      exact ⟨y, (List.mem_filter.mp hy).1, by rwa [← h.holds ht hxy.2]⟩
    | false =>
      have hmem : x ∈ w.names.filter fun x => q.own x.1 :=
        List.mem_filter.mpr ⟨hx, by rw [hown, hn]; rfl⟩
      obtain ⟨y, -, hxy⟩ := (exists_of_forall₂ hq.names).1 x hmem
      rw [hq.not_holds hnot hxy.2] at hholds
      cases hholds
  · rintro ⟨y, hy, hholds⟩
    rcases h.guests y hy with hn | ⟨host, hhost⟩
    · obtain ⟨x, hx, hxy⟩ := (exists_of_forall₂ h.names).2 y (List.mem_filter.mpr ⟨hy, hn⟩)
      exact ⟨x, (List.mem_filter.mp hx).1, by rwa [h.holds ht hxy.2]⟩
    · rw [hhost] at hholds
      cases hholds

end World.Mirrors

namespace Machine

/-- A machine works for a part, or rests, and another part is there as well.  The machine of the one
part has begun what the whole has begun; that of the other one has begun nothing. -/
structure Abreast (p q : Part) (m v u : Machine) : Prop where
  active : Mirrors p m v
  passive : m.world.Mirrors q u.world
  idle : u.stack = []
  own : ∀ n, q.own n = !p.own n
  apart : p.Apart q

namespace Abreast

variable {p q : Part} {m v u m' : Machine}

/-- When nothing is begun, the parts may change roles. -/
lemma swap (h : Abreast p q m v u) (hidle : m.stack = []) : Abreast q p m u v := by
  have hstack := h.active.stack
  rw [hidle] at hstack
  refine ⟨⟨h.passive, ?_, h.active.grounded⟩, h.active.world, List.forall₂_nil_left_iff.mp hstack,
    fun n => ?_, h.apart.symm⟩
  · rw [hidle, h.idle]
    exact .nil
  · rw [h.own, Bool.not_not]

/-- A move of the whole is a move of the part it works for, and the other part stays as it is. -/
theorem next (h : Abreast p q m v u) (hfinds : Finds p m v)
    (hscript : m.stack = [] → ∃ s rest rest', m.script = s :: rest ∧ v.script = s :: rest' ∧
      s.within p.own p.lent = true)
    (hn : m.next = some m') :
    ∃ p' v', v.next = some v' ∧ Moves p m v p' m' v' ∧ Abreast p' q m' v' u := by
  have hkeeps : ∀ t t', p.timers[t']? = some t → m.world.keeps t = v.world.keeps t' :=
    fun t t' ht => h.active.world.keeps h.passive h.own h.apart ht
  obtain ⟨p', v', hv, hmoves⟩ := h.active.next hfinds hkeeps hscript hn
  refine ⟨p', v', hv, hmoves, ?_⟩
  obtain ⟨w₁, v₁, hc, hends⟩ := hmoves.world
  obtain ⟨hpassive, hapart⟩ := hc.spares_other h.passive h.own h.apart
  -- A report only writes down an event, which no mirror shows.
  have hworld : m'.world.Mirrors p' v'.world ∧ m'.world.Mirrors q u.world := by
    cases hends with
    | goesOn hw hv _ =>
      rw [hw, hv]
      exact ⟨hc.mirrors, hpassive⟩
    | answers answer hw hv _ =>
      rw [hw, hv]
      have hmirrors := hc.mirrors
      exact ⟨{ hmirrors with }, { hpassive with }⟩
  refine ⟨⟨hworld.1, hmoves.stack, hmoves.grounded⟩, hworld.2, h.idle, fun n => ?_, hapart⟩
  rw [h.own, hc.own]

end Abreast

end Machine

end Polyfill.Session
