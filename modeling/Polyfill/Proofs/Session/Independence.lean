import Polyfill.Proofs.Session.Abreast
/-!
# Parts of a session are independent

The steps of a session that has two parts come in any order, each marked with whether it is one of
ours.  Leaving the others out leaves what our part does: the same answers, the same log, the same
state, after as many moves as were ours (`sides_independent`).  A part may be an environment with
its queue, timers, workers and builders, or timers on a queue of their own.

The proof follows both parts at once (`Joint`).  The moves of ours are made by a session of ours as
well; for the others, some session that can do what they do is enough.
-/

namespace Polyfill.Session

/-! ## Sessions of two parts -/

/-- All steps of a session. -/
def whole (l : List (Bool × Step)) : List Step :=
  l.map Prod.snd

/-- The steps that are ours. -/
def ours (l : List (Bool × Step)) : List Step :=
  (l.filter Prod.fst).map Prod.snd

/-- Every step keeps to the names of its part, and so do the bodies of callbacks and handlers that
it makes.  Environments of the other part may complete hosts of ours. -/
structure Separate (own : String → Bool) (l : List (Bool × Step)) : Prop where
  ours : ∀ s, (true, s) ∈ l → s.within own own = true
  theirs : ∀ s, (false, s) ∈ l → s.within (fun n => !own n) (fun _ => true) = true

instance (own : String → Bool) (l : List (Bool × Step)) : Decidable (Separate own l) :=
  decidable_of_iff
    (∀ x ∈ l, (if x.1 then x.2.within own own
      else x.2.within (fun n => !own n) (fun _ => true)) = true)
    ⟨fun h => ⟨fun s hs => h (true, s) hs, fun s hs => h (false, s) hs⟩, fun h x hx =>
      match x, hx with
      | (true, s), hs => h.ours s hs
      | (false, s), hs => h.theirs s hs⟩

/-- What a report shows of the objects with some names. -/
def Report.restrict (own : String → Bool) (r : Report) : Report :=
  { r with state := r.state.filter fun x => own x.1 }

/-- The reports on our steps, as far as they show our objects. -/
def ownReports (own : String → Bool) (l : List (Bool × Step)) (reports : List Report) :
    List Report :=
  ((l.zip reports).filter fun x => x.1.1).map fun x => x.2.restrict own

namespace Machine

/-- The steps of a session that are not answered yet: those still to be done, and the one that is
being done. -/
def unanswered (l : List (Bool × Step)) (m : Machine) : List (Bool × Step) :=
  l.drop (l.length - m.script.length - if m.stack.isEmpty then 0 else 1)

/-- Whether the next move is ours. -/
def mine (l : List (Bool × Step)) (m : Machine) : Bool :=
  ((m.unanswered l).head?).any Prod.fst

/-- How many of the next moves are ours. -/
def turns (l : List (Bool × Step)) (m : Machine) : Nat → Nat
  | 0 => 0
  | n + 1 => (if m.mine l then 1 else 0) + turns l (m.next.getD m) n

/-- What is written down in those of the next moves that are ours. -/
def share (l : List (Bool × Step)) (m : Machine) : Nat → List Event
  | 0 => []
  | n + 1 =>
    (if m.mine l then (m.next.getD m).world.history.drop m.world.history.length else []) ++
      share l (m.next.getD m) n

/-- The calls of ops that the second machine is about to make are answered alike in the first. -/
def Answers (m v : Machine) : Prop :=
  ∀ s v₀, v.upcoming? = some (s, v₀) → m.world.Answers v.world s

/-- In all moves that are ours, ops answer as they do in the session of ours. -/
def AllAnswers (l : List (Bool × Step)) (m v : Machine) : Prop :=
  ∀ n, (m.after n).mine l = true → (m.after n).Answers (v.after (m.turns l n))

/-! ## Scripts and events of moves -/

section Script

variable (m : Machine)

lemma script_report (name : String) (answer : Answer) :
    (m.report name answer).script = m.script := by
  obtain ⟨e, he, -⟩ := report_eq m name answer
  rw [he]

lemma script_execute (s : Step) : (m.execute s).script = m.script := by
  rcases execute_cases m s with ⟨w, answer, e, -, hm, -⟩ | ⟨w, frames, -, hm⟩
  · rw [hm]
  · rw [hm]

lemma script_startTask (task : Microtask) : (m.startTask task).script = m.script := by
  have hstarted := started_startTask m task
  generalize m.startTask task = m' at hstarted ⊢
  cases hstarted with
  | script => rfl
  | skip => rfl
  | @fire t id kind c w _ _ =>
    obtain ⟨bodies, hinvoke⟩ :=
      invoke_eq { m with world := w, stack := .settle t id kind :: m.stack } c
    rw [hinvoke]

end Script

variable {m m' v v' : Machine}

/-- A step of the session itself is taken from its script when nothing else is begun. -/
lemma script_next (hn : m.next = some m') :
    m'.script = if m.stack.isEmpty then m.script.tail else m.script := by
  unfold next at hn
  split at hn
  · rename_i hstack
    split at hn
    · cases hn
    · rename_i hscript
      rw [← Option.some.inj hn, script_execute, hstack, hscript]
      rfl
  all_goals rename_i hstack
  · rw [← Option.some.inj hn, hstack]
    rfl
  · rw [← Option.some.inj hn, script_execute, hstack]
    rfl
  · split at hn
    · rw [← Option.some.inj hn, script_startTask, hstack]
      rfl
    · rw [← Option.some.inj hn, script_report, hstack]
      rfl
  · rw [← Option.some.inj hn, hstack]
    rfl
  · rw [← Option.some.inj hn, script_report, hstack]
    rfl

/-- What a move writes down: events that are no report, and the report of an answer when a step of
the session itself is done. -/
lemma Moves.told {p p' : Part} (h : Moves p m v p' m' v') : ∃ es es' tail tail',
    m'.world.history = m.world.history ++ (es ++ tail) ∧
    v'.world.history = v.world.history ++ (es' ++ tail') ∧
    List.Forall₂ (Event.Mirrors p') es es' ∧ (∀ e ∈ es, e.outcome? = none) ∧
    ((tail = [] ∧ tail' = [] ∧ m'.stack ≠ []) ∨ ∃ answer state, tail = [.answered answer state] ∧
      tail' = [.answered answer (state.filter fun x => p'.own x.1)] ∧ m'.stack = []) := by
  obtain ⟨w₁, v₁, hc, hends⟩ := h.world
  obtain ⟨es, es', hw, hv, hes, hquiet⟩ := hc.history
  cases hends with
  | goesOn hm hm' hs =>
    refine ⟨es, es', [], [], ?_, ?_, hes, hquiet, Or.inl ⟨rfl, rfl, hs⟩⟩
    · rw [hm, hw, List.append_nil]
    · rw [hm', hv, List.append_nil]
  | answers answer hm hm' hs =>
    refine ⟨es, es', _, _, ?_, ?_, hes, hquiet, Or.inr ⟨answer, w₁.state, rfl, rfl, hs⟩⟩
    · rw [hm, ← List.append_assoc, ← hw]
      rfl
    · rw [hm', ← List.append_assoc, ← hv, ← hc.mirrors.state]
      rfl

/-- What a move writes down in the whole it writes down in the part. -/
lemma Moves.wrote {p p' : Part} (h : Moves p m v p' m' v') : ∃ es es',
    m'.world.history = m.world.history ++ es ∧ v'.world.history = v.world.history ++ es' ∧
    List.Forall₂ (Event.Mirrors p') es es' := by
  obtain ⟨es, es', tail, tail', hm, hv, hes, -, htail⟩ := h.told
  refine ⟨es ++ tail, es' ++ tail', hm, hv, List.rel_append hes ?_⟩
  rcases htail with ⟨rfl, rfl, -⟩ | ⟨answer, state, rfl, rfl, -⟩
  · exact .nil
  · exact .cons (.answered answer state) .nil

end Machine

/-! ## Lending a host -/

namespace World

/-- The world of a part with the randomness of the whole, which knows one more host if it is asked
for one. -/
def lend (p : Part) (w u : World) (source : Option String) : World :=
  { u with
    entropy := w.entropy
    names := (u.names.filter fun x => p.own x.1) ++
      match source with
      | none => []
      | some name =>
        if p.own name then []
        else
          match w.host? name with
          | some host => [(name, .host host)]
          | none => [] }

lemma guests_lend (p : Part) (w u : World) (source : Option String) :
    ∃ guests, (lend p w u source).names = (u.names.filter fun x => p.own x.1) ++ guests ∧
      ∀ x ∈ guests, p.own x.1 = false ∧ ∃ h, x.2 = .host h := by
  refine ⟨_, rfl, ?_⟩
  intro x hx
  split at hx
  · cases hx
  · split at hx
    · cases hx
    · rename_i hown
      split at hx
      · rename_i host _
        obtain rfl := List.mem_singleton.mp hx
        exact ⟨Bool.not_eq_true _ ▸ hown, host, rfl⟩
      · cases hx

lemma mirrors_lend {p : Part} {w u : World} (h : w.Mirrors p u) (source : Option String) :
    w.Mirrors p (lend p w u source) := by
  obtain ⟨guests, hnames, hguests⟩ := guests_lend p w u source
  have hfilter : (lend p w u source).names.filter (fun x => p.own x.1) =
      u.names.filter fun x => p.own x.1 := by
    have hnil : guests.filter (fun x => p.own x.1) = [] :=
      List.filter_eq_nil_iff.mpr fun x hx => by simp [(hguests x hx).1]
    rw [hnames, List.filter_append, hnil, List.append_nil, List.filter_filter]
    simp only [Bool.and_self]
  refine { h with names := ?_, guests := ?_ }
  · rw [hfilter]
    exact h.names
  · intro x hx
    rw [hnames] at hx
    rcases List.mem_append.mp hx with hx | hx
    · exact Or.inl (List.mem_filter.mp hx).2
    · exact Or.inr (hguests x hx).2

lemma host?_lend {p : Part} {w u : World} (h : w.Mirrors p u) (name : String) :
    w.host? name = (lend p w u (some name)).host? name := by
  cases hown : p.own name with
  | true => exact (mirrors_lend h (some name)).host? hown
  | false =>
    have hnone : (u.names.filter fun x => p.own x.1).lookup name = none := by
      rw [List.lookup_eq_none_iff]
      intro x hx
      have hx' := (List.mem_filter.mp hx).2
      rw [bne_iff_ne]
      rintro rfl
      rw [hown] at hx'
      cases hx'
    have hhandle : (lend p w u (some name)).handle? name =
        (match w.host? name with
          | some host => [(name, Handle.host host)]
          | none => []).lookup name := by
      unfold handle? lend
      simp only [List.lookup_append, hnone, Option.none_or, hown, Bool.false_eq_true, if_false]
    conv_rhs => rw [host?, hhandle]
    cases w.host? name with
    | none => rfl
    | some host => simp

end World

/-! ## Following both parts -/

namespace Machine

variable {m m' v v' : Machine}

lemma upcoming_eq {script : List Step} {stack : List Frame} {w u : World} {s : Step} {v₀ : Machine}
    (h : upcoming? ⟨w, script, stack⟩ = some (s, v₀)) :
    upcoming? ⟨u, script, stack⟩ = some (s, { v₀ with world := u }) := by
  unfold upcoming? at h ⊢
  split at h
  · split at h
    · cases h
    · rename_i hstack _ _ _ hscript
      cases h
      dsimp only at hstack hscript
      simp [hstack, hscript]
  · rename_i hstack
    cases h
    dsimp only at hstack
    simp [hstack]
  · cases h

namespace Abreast

variable {p q : Part} {u : Machine}

/-- The machine of a part can be given what its next step asks for. -/
lemma lend (h : Abreast p q m v u) :
    ∃ v', v'.script = m.script ∧ Abreast p q m v' u ∧ Finds p m v' := by
  let source := (upcoming? ⟨v.world, m.script, v.stack⟩).bind fun x => x.1.source?
  have hworld := World.mirrors_lend h.active.world source
  refine ⟨⟨World.lend p m.world v.world source, m.script, v.stack⟩, rfl,
    { h with active := ⟨hworld, h.active.stack, h.active.grounded⟩ }, ?_, ?_⟩
  · intro s v₀ hup _ name hname
    have hsource : source = some name := by
      have hup' := upcoming_eq (u := v.world) hup
      simp only [source, hup', Option.bind_some, hname]
    simp only [hsource]
    exact World.host?_lend h.active.world name
  · intro s v₀ _
    exact World.answers_of_eq rfl s

end Abreast

/-- A machine is at a step: about to take it from its script, or doing it. -/
def At (m : Machine) (s : Step) (steps : List Step) : Prop :=
  (m.stack = [] ∧ m.script = s :: steps) ∨ (m.stack ≠ [] ∧ m.script = steps)

/-- A machine that is at a step moves, and has taken the step from its script then. -/
lemma At.exists_next {s : Step} {steps : List Step} (h : m.At s steps) :
    ∃ m', m.next = some m' ∧ m'.script = steps := by
  rcases h with ⟨hstack, hscript⟩ | ⟨hne, hscript⟩
  · have hn : m.next = some ({ m with script := steps }.execute s) := by
      simp [next, hstack, hscript]
    exact ⟨_, hn, script_execute _ s⟩
  · obtain ⟨frame, below, hstack⟩ := List.exists_cons_of_ne_nil hne
    obtain ⟨m', hn⟩ := Machine.exists_next hstack
    refine ⟨m', hn, ?_⟩
    rw [script_next hn, hstack, hscript]
    rfl

/-- The names that the two parts use, and the hosts they may borrow: ours none, the others any. -/
structure Sided (own : String → Bool) (p q : Part) : Prop where
  ours : p.own = own
  lent : p.lent = own
  free : q.lent = fun _ => true

/-- A session of two parts and the session of our part, with the steps not answered yet. -/
inductive Joint (own : String → Bool) (p : Part) : List (Bool × Step) → Machine → Machine → Prop
  /-- Nothing is begun. -/
  | idle {todo : List (Bool × Step)} {m v u : Machine} {q : Part} (hs : Sided own p q)
      (h : Abreast p q m v u) (hm : m.stack = []) (hw : m.script = whole todo)
      (hv : v.script = ours todo) : Joint own p todo m v
  /-- One of our steps is being done. -/
  | ours {s : Step} {rest : List (Bool × Step)} {m v u : Machine} {q : Part} (hs : Sided own p q)
      (h : Abreast p q m v u) (hm : m.stack ≠ []) (hw : m.script = whole rest)
      (hv : v.script = ours rest) : Joint own p ((true, s) :: rest) m v
  /-- One of the other steps is being done. -/
  | theirs {s : Step} {rest : List (Bool × Step)} {m v u : Machine} {q : Part} (hs : Sided own p q)
      (h : Abreast q p m u v) (hm : m.stack ≠ []) (hw : m.script = whole rest)
      (hv : v.script = ours rest) : Joint own p ((false, s) :: rest) m v

lemma after_one_add (hn : m.next = some m') (k : Nat) : m.after (1 + k) = m'.after k := by
  rw [after_add, after, hn, Option.getD_some, after]

/-- A step that asks no table of ops is answered alike in any case. -/
lemma answers_of_silent (h : (v.upcoming?.bind fun x => v.world.table? x.1) = none) :
    m.Answers v := by
  intro s v₀ hup t ht
  rw [hup, Option.bind_some, ht] at h
  cases h

namespace AllAnswers

variable {l : List (Bool × Step)}

/-- Only the moves until the machine rests matter. -/
lemma of_rest {k : Nat} (hrest : (m.after k).next = none) (hmine : (m.after k).mine l = false)
    (h : ∀ n < k, (m.after n).mine l = true → (m.after n).Answers (v.after (m.turns l n))) :
    AllAnswers l m v := by
  intro n hn
  by_cases hlt : n < k
  · exact h n hlt hn
  · obtain ⟨j, rfl⟩ := Nat.exists_eq_add_of_le (Nat.le_of_not_lt hlt)
    rw [after_add, after_of_rest hrest, hmine] at hn
    cases hn

lemma next_ours (h : AllAnswers l m v) (hmine : m.mine l = true) (hn : m.next = some m')
    (hn' : v.next = some v') : AllAnswers l m' v' := by
  intro n hn''
  have hanswers := h (n + 1)
  simp only [after, turns, hn, Option.getD_some, hmine, if_true, after_one_add hn'] at hanswers
  exact hanswers hn''

lemma next_theirs (h : AllAnswers l m v) (hmine : m.mine l = false) (hn : m.next = some m') :
    AllAnswers l m' v := by
  intro n hn'
  have hanswers := h (n + 1)
  simp only [after, turns, hn, Option.getD_some, hmine, Bool.false_eq_true, if_false,
    Nat.zero_add] at hanswers
  exact hanswers hn'

end AllAnswers

namespace Joint

variable {own : String → Bool} {p : Part} {s : Step} {rest todo l : List (Bool × Step)}

lemma of_ours {q : Part} {u : Machine} (hs : Sided own p q) (h : Abreast p q m v u)
    (hw : m.script = whole rest) (hv : v.script = Session.ours rest) :
    (m.stack ≠ [] → Joint own p ((true, s) :: rest) m v) ∧ (m.stack = [] → Joint own p rest m v) :=
  ⟨fun hm => .ours hs h hm hw hv, fun hm => .idle hs h hm hw hv⟩

lemma of_theirs {q : Part} {u : Machine} (hs : Sided own p q) (h : Abreast q p m u v)
    (hw : m.script = whole rest) (hv : v.script = Session.ours rest) :
    (m.stack ≠ [] → Joint own p ((false, s) :: rest) m v) ∧
      (m.stack = [] → Joint own p rest m v) :=
  ⟨fun hm => .theirs hs h hm hw hv, fun hm => .idle hs (h.swap hm) hm hw hv⟩

lemma own_eq (h : Joint own p todo m v) : p.own = own := by
  cases h with
  | idle hs => exact hs.ours
  | ours hs => exact hs.ours
  | theirs hs => exact hs.ours

lemma mirrors (h : Joint own p todo m v) : m.world.Mirrors p v.world := by
  cases h with
  | idle _ h => exact h.active.world
  | ours _ h => exact h.active.world
  | theirs _ h => exact h.passive

/-- When all steps are answered, both sessions are at rest. -/
lemma at_rest (h : Joint own p [] m v) : m.next = none ∧ v.next = none := by
  cases h with
  | idle _ h hm hw hv =>
    have hstack := h.active.stack
    rw [hm] at hstack
    have hm' := List.forall₂_nil_left_iff.mp hstack
    constructor
    · simp [Machine.next, hm, hw, whole]
    · simp [Machine.next, hm', hv, Session.ours]

/-- At one of our steps the whole works for our part, or is about to. -/
lemma active_ours (h : Joint own p ((true, s) :: rest) m v) :
    ∃ q u, Sided own p q ∧ Abreast p q m v u ∧ m.At s (whole rest) ∧
      v.At s (Session.ours rest) := by
  cases h with
  | idle hs h hm hw hv =>
    have hstack := h.active.stack
    rw [hm] at hstack
    exact ⟨_, _, hs, h, Or.inl ⟨hm, hw⟩, Or.inl ⟨List.forall₂_nil_left_iff.mp hstack, hv⟩⟩
  | ours hs h hm hw hv =>
    have hne := h.active.stack.length_eq
    refine ⟨_, _, hs, h, Or.inr ⟨hm, hw⟩, Or.inr ⟨fun hnil => hm ?_, hv⟩⟩
    rw [hnil] at hne
    exact List.length_eq_zero_iff.mp hne

/-- At one of the other steps the whole works for the other part, or is about to. -/
lemma active_theirs (h : Joint own p ((false, s) :: rest) m v) :
    ∃ q u, Sided own p q ∧ Abreast q p m u v ∧ m.At s (whole rest) ∧
      v.script = Session.ours rest := by
  cases h with
  | idle hs h hm hw hv => exact ⟨_, _, hs, h.swap hm, Or.inl ⟨hm, hw⟩, hv⟩
  | theirs hs h hm hw hv => exact ⟨_, _, hs, h, Or.inr ⟨hm, hw⟩, hv⟩

/-- The whole moves as long as there are steps to be answered. -/
lemma exists_next {x : Bool × Step} (h : Joint own p (x :: rest) m v) : ∃ m', m.next = some m' := by
  obtain ⟨side, s⟩ := x
  cases side with
  | true =>
    obtain ⟨-, -, -, -, hm, -⟩ := h.active_ours
    obtain ⟨m', hn, -⟩ := hm.exists_next
    exact ⟨m', hn⟩
  | false =>
    obtain ⟨-, -, -, -, hm, -⟩ := h.active_theirs
    obtain ⟨m', hn, -⟩ := hm.exists_next
    exact ⟨m', hn⟩

/-- A move for one of our steps is a move of our session as well. -/
lemma next_ours (h : Joint own p ((true, s) :: rest) m v) (hwithin : s.within own own = true)
    (hanswers : m.Answers v) :
    ∃ p' m' v', m.next = some m' ∧ v.next = some v' ∧ Moves p m v p' m' v' ∧
      (m'.stack ≠ [] → Joint own p' ((true, s) :: rest) m' v') ∧
      (m'.stack = [] → Joint own p' rest m' v') := by
  obtain ⟨q, u, hs, habreast, hm, hv⟩ := h.active_ours
  have hsame : p.lent = p.own := hs.lent.trans hs.ours.symm
  have hfinds : Finds p m v := by
    refine ⟨fun s' v₀ _ hs' name hname => ?_, hanswers⟩
    rw [hsame] at hs'
    exact habreast.active.world.host? (Step.lent_source hs' hname)
  obtain ⟨m', hn, hscript⟩ := hm.exists_next
  obtain ⟨v', hn', hscript'⟩ := hv.exists_next
  obtain ⟨p', v'', hn'', hmoves, habreast'⟩ := habreast.next hfinds (fun hidle => by
    obtain ⟨-, hw⟩ | ⟨hne, -⟩ := hm
    · obtain ⟨-, hw'⟩ | ⟨hne, -⟩ := hv
      · exact ⟨s, _, _, hw, hw', by rwa [hsame, hs.ours]⟩
      · have hstack := habreast.active.stack
        rw [hidle] at hstack
        exact absurd (List.forall₂_nil_left_iff.mp hstack) hne
    · exact absurd hidle hne) hn
  obtain rfl : v' = v'' := Option.some.inj (hn'.symm.trans hn'')
  have hg := hmoves.grows
  have hs' : Sided own p' q := ⟨hg.own.trans hs.ours, hg.lent.trans hs.lent, hs.free⟩
  exact ⟨p', m', v', hn, hn', hmoves, of_ours hs' habreast' hscript hscript'⟩

/-- A move for one of the other steps leaves our session where it is. -/
lemma next_theirs (h : Joint own p ((false, s) :: rest) m v)
    (hwithin : s.within (fun n => !own n) (fun _ => true) = true) :
    ∃ q q' m' u u', m.next = some m' ∧ Moves q m u q' m' u' ∧
      (m'.stack ≠ [] → Joint own p ((false, s) :: rest) m' v) ∧
      (m'.stack = [] → Joint own p rest m' v) := by
  obtain ⟨q, u, hs, habreast, hm, hv⟩ := h.active_theirs
  have hown : q.own = fun n => !own n := by
    funext n
    rw [← hs.ours, habreast.own, Bool.not_not]
  obtain ⟨u', hscript', hlend, hfinds⟩ := habreast.lend
  obtain ⟨m', hn, hscript⟩ := hm.exists_next
  obtain ⟨q', u'', -, hmoves, habreast'⟩ := hlend.next hfinds (fun hidle => by
    obtain ⟨-, hw⟩ | ⟨hne, -⟩ := hm
    · exact ⟨s, _, _, hw, hscript'.trans hw, by rwa [hown, hs.free]⟩
    · exact absurd hidle hne) hn
  have hs' : Sided own p q' := ⟨hs.ours, hs.lent, hmoves.grows.lent.trans hs.free⟩
  exact ⟨q, q', m', u', u'', hn, hmoves, of_theirs hs' habreast' hscript hv⟩

/-- The steps not answered yet can be told from the state of the whole. -/
lemma unanswered_eq (h : Joint own p todo m v) (hl : todo <:+ l) : m.unanswered l = todo := by
  obtain ⟨done, rfl⟩ := hl
  have hdone : ∀ k, m.script.length + k = todo.length → (if m.stack.isEmpty then 0 else 1) = k →
      m.unanswered (done ++ todo) = todo := by
    intro k hk hempty
    have hdrop : (done ++ todo).length - m.script.length - k = done.length := by
      rw [List.length_append]
      omega
    rw [unanswered, hempty, hdrop, List.drop_left]
  cases h with
  | idle _ _ hm hw _ =>
    refine hdone 0 ?_ (by simp [hm])
    rw [hw, whole, List.length_map, Nat.add_zero]
  | ours _ _ hm hw _ =>
    refine hdone 1 ?_ (by simp [hm])
    rw [hw, whole, List.length_map, List.length_cons]
  | theirs _ _ hm hw _ =>
    refine hdone 1 ?_ (by simp [hm])
    rw [hw, whole, List.length_map, List.length_cons]

lemma mine_eq (h : Joint own p todo m v) (hl : todo <:+ l) :
    m.mine l = todo.head?.any Prod.fst := by
  rw [mine, h.unanswered_eq hl]

/-- At all times the whole holds our objects as our session does, and what it has written down in
our moves is what our session has written down. -/
lemma after (h : Joint own p todo m v) (hl : todo <:+ l) (hseparate : Separate own l)
    (hanswers : AllAnswers l m v) (n : Nat) :
    ∃ p' todo' es, p.Grows p' ∧ Joint own p' todo' (m.after n) (v.after (m.turns l n)) ∧
      (v.after (m.turns l n)).world.history = v.world.history ++ es ∧
      List.Forall₂ (Event.Mirrors p') (m.share l n) es := by
  induction n generalizing m v p todo with
  | zero => exact ⟨p, todo, [], .refl p, h, (List.append_nil _).symm, .nil⟩
  | succ n ih =>
    have hmine := h.mine_eq hl
    cases todo with
    | nil =>
      have hn := h.at_rest.1
      simp only [Machine.after, turns, share, hmine, hn, Option.getD_none, List.head?_nil,
        Option.any_none, Bool.false_eq_true, if_false, Nat.zero_add, List.nil_append]
      exact ih h hl hanswers
    | cons x rest =>
      obtain ⟨side, s⟩ := x
      cases side with
      | true =>
        obtain ⟨p', m', v', hn, hn', hmoves, hgoes, hends⟩ :=
          h.next_ours (hseparate.ours s (hl.subset List.mem_cons_self)) (hanswers 0 hmine)
        have hanswers' := hanswers.next_ours hmine hn hn'
        obtain ⟨es₁, es₁', hm₁, hv₁, hes₁⟩ := hmoves.wrote
        have hrun : ∃ p'' todo' es, p'.Grows p'' ∧
            Joint own p'' todo' (m'.after n) (v'.after (m'.turns l n)) ∧
            (v'.after (m'.turns l n)).world.history = v'.world.history ++ es ∧
            List.Forall₂ (Event.Mirrors p'') (m'.share l n) es := by
          by_cases hstack : m'.stack = []
          · exact ih (hends hstack) ((List.suffix_cons _ _).trans hl) hanswers'
          · exact ih (hgoes hstack) hl hanswers'
        obtain ⟨p'', todo', es, hg, hjoint, hhistory, hes⟩ := hrun
        simp only [Machine.after, turns, share, hmine, hn, Option.getD_some, List.head?_cons,
          Option.any_some, if_true, after_one_add hn']
        refine ⟨p'', todo', es₁' ++ es, hmoves.grows.trans hg, hjoint, ?_, ?_⟩
        · rw [hhistory, hv₁, List.append_assoc]
        · rw [hm₁, List.drop_left]
          exact List.rel_append (hes₁.imp fun _ _ he => he.mono hg) hes
      | false =>
        obtain ⟨q, q', m', u, u', hn, -, hgoes, hends⟩ :=
          h.next_theirs (hseparate.theirs s (hl.subset List.mem_cons_self))
        have hanswers' := hanswers.next_theirs hmine hn
        simp only [Machine.after, turns, share, hmine, hn, Option.getD_some, List.head?_cons,
          Option.any_some, Bool.false_eq_true, if_false, Nat.zero_add, List.nil_append]
        by_cases hstack : m'.stack = []
        · exact ih (hends hstack) ((List.suffix_cons _ _).trans hl) hanswers'
        · exact ih (hgoes hstack) hl hanswers'

end Joint

end Machine

/-! ## Reports -/

section Reports

variable {messages : Bool} {lines : List Line} {es es' rest : List Event} {p : Part}

lemma Event.Mirrors.line? {e e' : Event} (h : e.Mirrors p e') :
    e.line? messages = e'.line? messages := by
  cases h with
  | started _ ht => cases ht <;> rfl
  | fired _ _ hc =>
    cases hc with
    | script label args _ => cases args <;> rfl
    | delivery => rfl
  | _ => rfl

lemma Event.Mirrors.outcome? {e e' : Event} (h : e.Mirrors p e') (hquiet : e.outcome? = none) :
    e'.outcome? = none := by
  cases h with
  | answered answer state => cases hquiet
  | _ => rfl

/-- Events that are no reports add their lines to the next report. -/
lemma reportsFrom_append (hquiet : ∀ e ∈ es, e.outcome? = none) :
    reportsFrom messages lines (es ++ rest) =
      reportsFrom messages ((es.filterMap (·.line? messages)).reverse ++ lines) rest := by
  induction es generalizing lines with
  | nil => rfl
  | cons e es ih =>
    rw [List.cons_append, reportsFrom_cons, hquiet e List.mem_cons_self]
    dsimp only
    rw [ih fun e' he' => hquiet e' (List.mem_cons_of_mem _ he'), List.filterMap_cons]
    cases e.line? messages with
    | none => rfl
    | some line => simp

lemma lines_eq (h : List.Forall₂ (Event.Mirrors p) es es') :
    es.filterMap (·.line? messages) = es'.filterMap (·.line? messages) := by
  induction h with
  | nil => rfl
  | cons he _ ih => rw [List.filterMap_cons, List.filterMap_cons, he.line?, ih]

lemma quiet_of_mirrors (h : List.Forall₂ (Event.Mirrors p) es es')
    (hquiet : ∀ e ∈ es, e.outcome? = none) : ∀ e ∈ es', e.outcome? = none := by
  intro e' he'
  obtain ⟨e, he, hee⟩ := (exists_of_forall₂ h).2 e' he'
  exact hee.outcome? (hquiet e he)

/-- Events of a session hold a report on each of some steps, and on ours what the events of our
session hold.  The lines since the last report are given for both. -/
structure Accounts (messages : Bool) (own : String → Bool) (todo : List (Bool × Step))
    (lines lines' : List Line) (es es' : List Event) : Prop where
  length : (reportsFrom messages lines es).length = todo.length
  reports : ownReports own todo (reportsFrom messages lines es) = reportsFrom messages lines' es'

namespace Accounts

variable {own : String → Bool} {todo steps : List (Bool × Step)} {s : Step} {lines' : List Line}
  {rest' : List Event}

/-- The same events, none of them a report, happen first in both sessions. -/
lemma quiet_both (hes : List.Forall₂ (Event.Mirrors p) es es')
    (hquiet : ∀ e ∈ es, e.outcome? = none)
    (h : Accounts messages own todo ((es.filterMap (·.line? messages)).reverse ++ lines)
      ((es.filterMap (·.line? messages)).reverse ++ lines') rest rest') :
    Accounts messages own todo lines lines' (es ++ rest) (es' ++ rest') := by
  have hquiet' := quiet_of_mirrors hes hquiet
  constructor
  · rw [reportsFrom_append hquiet]
    exact h.length
  · rw [reportsFrom_append hquiet, reportsFrom_append hquiet', ← lines_eq hes]
    exact h.reports

/-- Events of the other part, none of them a report, happen first. -/
lemma quiet_whole (hquiet : ∀ e ∈ es, e.outcome? = none)
    (h : Accounts messages own todo ((es.filterMap (·.line? messages)).reverse ++ lines) lines' rest
      rest') : Accounts messages own todo lines lines' (es ++ rest) rest' := by
  constructor
  · rw [reportsFrom_append hquiet]
    exact h.length
  · rw [reportsFrom_append hquiet]
    exact h.reports

/-- One of our steps is reported on. -/
lemma answer_ours (answer : Answer) (state : List (String × Datum))
    (h : Accounts messages own steps [] [] rest rest') :
    Accounts messages own ((true, s) :: steps) lines lines (.answered answer state :: rest)
      (.answered answer (state.filter fun x => own x.1) :: rest') := by
  constructor
  · exact congrArg (· + 1) h.length
  · exact congrArg (Report.mk answer lines.reverse (state.filter fun x => own x.1) :: ·) h.reports

/-- One of the other steps is reported on. -/
lemma answer_theirs (answer : Answer) (state : List (String × Datum))
    (h : Accounts messages own steps [] lines' rest rest') :
    Accounts messages own ((false, s) :: steps) lines lines' (.answered answer state :: rest)
      rest' := by
  constructor
  · exact congrArg (· + 1) h.length
  · exact h.reports

end Accounts

end Reports

namespace Machine.Joint

variable {own : String → Bool} {p : Part} {todo l : List (Bool × Step)} {m v : Machine}

/-- From any state on, the whole reports once on every step not answered yet, and on ours what our
session reports.  The lines since the last report are the same while one of our steps is done. -/
lemma reports (messages : Bool) (h : Joint own p todo m v) (hl : todo <:+ l)
    (hseparate : Separate own l) (hanswers : AllAnswers l m v) (lines : List Line) :
    ∃ es es', m.finish.world.history = m.world.history ++ es ∧
      v.finish.world.history = v.world.history ++ es' ∧
      Accounts messages own todo lines (if todo.head?.any Prod.fst then lines else []) es es' := by
  induction m using Machine.finish.induct generalizing v p todo lines with
  | case1 m hn =>
    cases todo with
    | nil =>
      refine ⟨[], [], ?_, ?_, rfl, rfl⟩
      · rw [finish_of_rest hn, List.append_nil]
      · rw [finish_of_rest h.at_rest.2, List.append_nil]
    | cons x rest =>
      obtain ⟨m', hn'⟩ := h.exists_next
      rw [hn] at hn'
      cases hn'
  | case2 m m₁ hn ih =>
    have hmine := h.mine_eq hl
    cases todo with
    | nil =>
      rw [h.at_rest.1] at hn
      cases hn
    | cons x rest =>
      obtain ⟨side, s⟩ := x
      cases side with
      | true =>
        obtain ⟨p', m', v', hm, hv, hmoves, hgoes, hends⟩ :=
          h.next_ours (hseparate.ours s (hl.subset List.mem_cons_self)) (hanswers 0 hmine)
        obtain rfl := Option.some.inj (hn.symm.trans hm)
        have hanswers' := hanswers.next_ours hmine hm hv
        obtain ⟨es₁, es₁', tail, tail', hm₁, hv₁, hes₁, hquiet, htail⟩ := hmoves.told
        rw [finish_of_next hm, finish_of_next hv]
        rcases htail with ⟨rfl, rfl, hstack⟩ | ⟨answer, state, rfl, rfl, hstack⟩
        · obtain ⟨es, es', hm₂, hv₂, haccounts⟩ := ih (hgoes hstack) hl hanswers' _
          refine ⟨es₁ ++ es, es₁' ++ es', ?_, ?_, haccounts.quiet_both hes₁ hquiet⟩
          · rw [hm₂, hm₁, List.append_nil, List.append_assoc]
          · rw [hv₂, hv₁, List.append_nil, List.append_assoc]
        · have hjoint := hends hstack
          obtain ⟨es, es', hm₂, hv₂, haccounts⟩ :=
            ih hjoint ((List.suffix_cons _ _).trans hl) hanswers' []
          rw [ite_self] at haccounts
          rw [hjoint.own_eq] at hv₁
          refine ⟨es₁ ++ .answered answer state :: es, es₁' ++ .answered answer _ :: es', ?_, ?_,
            Accounts.quiet_both hes₁ hquiet (haccounts.answer_ours answer state)⟩
          · rw [hm₂, hm₁]
            simp
          · rw [hv₂, hv₁]
            simp
      | false =>
        obtain ⟨q, q', m', u, u', hm, hmoves, hgoes, hends⟩ :=
          h.next_theirs (hseparate.theirs s (hl.subset List.mem_cons_self))
        obtain rfl := Option.some.inj (hn.symm.trans hm)
        have hanswers' := hanswers.next_theirs hmine hm
        obtain ⟨es₁, es₁', tail, tail', hm₁, -, -, hquiet, htail⟩ := hmoves.told
        rw [finish_of_next hm]
        rcases htail with ⟨rfl, -, hstack⟩ | ⟨answer, state, rfl, -, hstack⟩
        · obtain ⟨es, es', hm₂, hv₂, haccounts⟩ := ih (hgoes hstack) hl hanswers' _
          refine ⟨es₁ ++ es, es', ?_, hv₂, haccounts.quiet_whole hquiet⟩
          rw [hm₂, hm₁, List.append_nil, List.append_assoc]
        · obtain ⟨es, es', hm₂, hv₂, haccounts⟩ :=
            ih (hends hstack) ((List.suffix_cons _ _).trans hl) hanswers' []
          rw [ite_self] at haccounts
          refine ⟨es₁ ++ .answered answer state :: es, es', ?_, hv₂,
            Accounts.quiet_whole hquiet (haccounts.answer_theirs answer state)⟩
          rw [hm₂, hm₁]
          simp

end Machine.Joint

/-! ## Timers that share a queue -/

/-- A step neither changes the registry of some timers nor depends on it: whatever is done to that
registry before the step may as well be done after it. -/
def Step.Ignores (s : Step) (w : World) (t : TimersId) : Prop :=
  (w.execute s).1.registry t = w.registry t ∧
    ∀ f, (w.updateRegistry t f).execute s = ((w.execute s).1.updateRegistry t f, (w.execute s).2)

namespace World

variable (w : World) {t t' : TimersId}

lemma registry_updateRegistry_of_ne (h : t ≠ t') (f : Registry Callback → Registry Callback) :
    (w.updateRegistry t' f).registry t = w.registry t := by
  simp [registry, updateRegistry, h.symm]

lemma updateRegistry_comm (h : t ≠ t') (f g : Registry Callback → Registry Callback) :
    (w.updateRegistry t' f).updateRegistry t g = (w.updateRegistry t g).updateRegistry t' f := by
  have htimers : ∀ a b : Timers → Timers,
      (w.timers.modify t' a).modify t b = (w.timers.modify t b).modify t' a := by
    intro a b
    refine List.ext_getElem? fun i => ?_
    simp only [List.getElem?_modify]
    by_cases hi : t = i
    · have hi' : t' ≠ i := fun heq => h (hi.trans heq.symm)
      simp [hi, hi']
    · simp [hi]
  simp only [updateRegistry, htimers]

lemma registry_cancel_of_ne (h : t ≠ t') (id : Nat) :
    (w.cancel t id).registry t' = w.registry t' := by
  simp only [cancel]
  split
  · exact w.registry_updateRegistry_of_ne h.symm (·.remove id)
  · exact w.registry_updateRegistry_of_ne h.symm (·.remove id)

lemma cancel_updateRegistry (h : t ≠ t') (id : Nat) (f : Registry Callback → Registry Callback) :
    (w.updateRegistry t' f).cancel t id = (w.cancel t id).updateRegistry t' f := by
  simp only [cancel, w.registry_updateRegistry_of_ne h f, w.updateRegistry_comm h]
  split
  · rfl
  · rfl

variable {w} {name : String} (hname : w.timers? name = some t) (h : t ≠ t')
include hname h

lemma cancel_ignores (verb : CancelVerb) (id : Nat) :
    (Step.cancel verb name id).Ignores w t' := by
  have hcancel : ∀ w' : World, w'.timers? name = some t →
      w'.execute (.cancel verb name id) = (w'.cancel t id, .done Answer.done) := by
    intro w' hw'
    simp only [execute, withHandle, hw', atOnce]
  refine ⟨?_, fun f => ?_⟩
  · rw [hcancel w hname]
    exact w.registry_cancel_of_ne h id
  · rw [hcancel w hname, hcancel (w.updateRegistry t' f) hname, w.cancel_updateRegistry h]

lemma state_ignores (id : Nat) : (Step.query (.state name id)).Ignores w t' := by
  refine ⟨rfl, fun f => ?_⟩
  have hname' : (w.updateRegistry t' f).timers? name = some t := hname
  simp only [execute, atOnce, query, hname, hname', w.registry_updateRegistry_of_ne h f]

lemma size_ignores : (Step.query (.size name)).Ignores w t' := by
  refine ⟨rfl, fun f => ?_⟩
  have hhandle : w.handle? name = some (.timers t) := handle_of_timers hname
  have hhandle' : (w.updateRegistry t' f).handle? name = some (.timers t) := hhandle
  simp only [execute, atOnce, query, hhandle, hhandle', w.registry_updateRegistry_of_ne h f]

end World

/-! ## Independence -/

lemma Machine.joint_start (own : String → Bool) (l : List (Bool × Step)) (e e' : Entropy) :
    Machine.Joint own ⟨own, own, [], [], [], []⟩ l (start e (whole l)) (start e' (ours l)) := by
  have hmirrors : ∀ (p : Part) (u : Entropy), p.queues = [] → p.timers = [] → p.workers = [] →
      p.handlers = [] → (World.start e).Mirrors p (World.start u) := by
    intro p u hq ht hw hh
    refine ⟨?_, ?_, ?_, ?_, .nil, by simp [World.start]⟩
    · rw [hq]
      exact .nil
    · rw [ht]
      exact .nil
    · rw [hw]
      exact .nil
    · rw [hh]
      exact .nil
  let q : Part := ⟨fun n => !own n, fun _ => true, [], [], [], []⟩
  refine .idle (q := q) (u := start e []) ⟨rfl, rfl, rfl⟩
    ⟨⟨hmirrors _ _ rfl rfl rfl rfl, .nil, grounded_nil⟩, hmirrors _ _ rfl rfl rfl rfl, rfl,
      fun _ => rfl, ?_⟩ rfl rfl rfl
  exact ⟨List.disjoint_nil_left _, List.disjoint_nil_left _, List.disjoint_nil_left _,
    List.disjoint_nil_left _⟩

/-- Parts of a session are independent.  Let the steps of a session come in any order, each keeping
to the names of its part, also in the bodies of its callbacks and handlers, and let our ops give the
same answers to the same calls whether or not the other steps are there.  Then after any number of
moves the whole holds our queues, timers, workers, handlers and names as the session of our steps
alone holds them after as many moves as were ours, and both have done the same for us: called the
same ops, queued and started the same tasks, fired the same timers, delivered the same messages and
come to the same answers, in the same order.  The whole reports once on each step, and on ours what
our session reports.  Timers that share a queue are independent as far as cancelling, looking at a
timer and counting go. -/
theorem sides_independent {own : String → Bool} {l : List (Bool × Step)}
    (hseparate : Separate own l) (e e' : Entropy)
    (hanswers : Machine.AllAnswers l (.start e (whole l)) (.start e' (ours l))) :
    (∀ n, ∃ p : Part, p.own = own ∧
      World.Mirrors p ((Machine.start e (whole l)).after n).world
        ((Machine.start e' (ours l)).after ((Machine.start e (whole l)).turns l n)).world ∧
      List.Forall₂ (Event.Mirrors p) ((Machine.start e (whole l)).share l n)
        ((Machine.start e' (ours l)).after
          ((Machine.start e (whole l)).turns l n)).world.history) ∧
    (∀ messages, (run e messages (whole l)).length = l.length ∧
      ownReports own l (run e messages (whole l)) = run e' messages (ours l)) ∧
    ∀ (w : World) (name : String) (t t' : TimersId), w.timers? name = some t → t ≠ t' →
      (∀ verb id, (Step.cancel verb name id).Ignores w t') ∧
      (∀ id, (Step.query (.state name id)).Ignores w t') ∧
      (Step.query (.size name)).Ignores w t' := by
  have hjoint := Machine.joint_start own l e e'
  refine ⟨fun n => ?_, fun messages => ?_, fun w name t t' hname hne => ?_⟩
  · obtain ⟨p, todo, es, -, hafter, hhistory, hes⟩ :=
      hjoint.after List.suffix_rfl hseparate hanswers n
    refine ⟨p, hafter.own_eq, hafter.mirrors, ?_⟩
    rw [hhistory]
    exact hes
  · obtain ⟨es, es', hm, hv, haccounts⟩ :=
      hjoint.reports messages List.suffix_rfl hseparate hanswers []
    rw [ite_self] at haccounts
    have hwhole : history e (whole l) = es := hm
    have hours : history e' (ours l) = es' := hv
    rw [run, run, hwhole, hours]
    exact ⟨haccounts.length, haccounts.reports⟩
  · exact ⟨World.cancel_ignores hname hne, World.state_ignores hname hne,
      World.size_ignores hname hne⟩

/-- Two environments over one host, with timers whose callbacks draw random bytes.  The other one
draws first, and its timer has the same id as ours. -/
def neighbours : List (Bool × Step) :=
  [(true, .host (.empty "host")),
    (true, .install "a" (.handle "host") .native),
    (false, .install "b" (.handle "host") .native),
    (false, .timersOf "bt" "b"),
    (true, .timersOf "at" "a"),
    (false, .schedule .timeout "bt" "theirs" 0 none
      [.crypto (.call "b" (.ok (.opRandomBytes 2)))]),
    (true, .schedule .timeout "at" "ours" 0 none [.crypto (.call "a" (.ok (.opRandomBytes 1)))]),
    (false, .run "b"),
    (false, .cancel .clearTimeout "bt" 1),
    (true, .run "a")]

/-- Random bytes that are all zero. -/
def zeros : Entropy :=
  ⟨fun _ => 0, 0⟩

lemma allAnswers_neighbours :
    Machine.AllAnswers neighbours (.start zeros (whole neighbours))
      (.start zeros (ours neighbours)) := by
  let m := Machine.start zeros (whole neighbours)
  let v := Machine.start zeros (ours neighbours)
  -- The only call of ours is in the callback; the tape of the whole is two bytes ahead then.
  have hsilent : ∀ n < 20, n ≠ 16 → (m.after n).mine neighbours = true →
      ((v.after (m.turns neighbours n)).upcoming?.bind fun x =>
        (v.after (m.turns neighbours n)).world.table? x.1) = none := by
    decide
  refine Machine.AllAnswers.of_rest (k := 20) rfl rfl ?_
  intro n hn hmine
  by_cases hcall : n = 16
  · subst hcall
    intro s v₀ hup t ht
    cases hup
    cases ht
    exact ⟨rfl, trivial⟩
  · exact Machine.answers_of_silent (hsilent n hn hcall hmine)

theorem neighbours_independent :
    ownReports ["host", "a", "at"].contains neighbours (run zeros true (whole neighbours)) =
      run zeros true (ours neighbours) :=
  ((sides_independent (by decide) zeros zeros allAnswers_neighbours).2.1 true).2

end Polyfill.Session
