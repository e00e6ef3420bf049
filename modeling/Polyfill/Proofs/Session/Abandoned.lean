import Polyfill.Proofs.Session.Delivery
/-!
# Abandoned registries

A registry that belongs to no environment lives as long as a handle to it is stored, or to a worker
that uses it, or one of its callbacks is running.  When nothing is stored any more it is abandoned,
and stays so, for a handle can only be made from another one (`Machine.Reaches.abandoned`).  What
keeps an abandoned registry alive are its own callbacks that run: drains nested in them still fire
its timers, and when the outermost of them has returned, the registry is dead for good.

The tasks of a dead registry stay where they are.  A drain that comes upon one takes it, counts it,
and does nothing else (`Machine.Discards`).
-/

namespace Polyfill.Session

namespace World

variable {w : World} {t : TimersId}

/-- No handle to a registry is stored, and none to a worker that uses it. -/
def Abandoned (w : World) (t : TimersId) : Prop :=
  (∀ name, (name, .timers t) ∉ w.names) ∧
    ∀ name k worker, (name, .worker k) ∈ w.names → w.workers[k]? = some worker → worker.timers ≠ t

/-- What is stored is all that keeps a registry that belongs to no environment. -/
lemma abandoned_iff {timers : Timers} (ht : w.timers[t]? = some timers)
    (ho : timers.owned = false) : w.Abandoned t ↔ w.keeps t = false := by
  have hkeeps : w.keeps t = w.names.any fun entry => w.holds t entry.2 := by simp [keeps, ht, ho]
  rw [hkeeps, List.any_eq_false]
  constructor
  · rintro ⟨htimers, hworkers⟩ ⟨name, handle⟩ hmem
    cases handle with
    | timers t' =>
      intro hh
      obtain rfl : t' = t := beq_iff_eq.mp hh
      exact htimers name hmem
    | worker k =>
      intro hh
      obtain ⟨worker, hk, hw⟩ := (Option.any_eq_true _ _).mp hh
      exact hworkers name k worker hmem hk (beq_iff_eq.mp hw)
    | _ => exact Bool.false_ne_true
  · intro hnone
    refine ⟨fun name hmem => hnone _ hmem (beq_self_eq_true t), fun name k worker hmem hk hw => ?_⟩
    refine hnone _ hmem ?_
    simp [holds, hk, hw]

end World

namespace Machine

variable {m m' m₁ : Machine} {t : TimersId} {entropy : Entropy} {script : List Step}

/-- One of the callbacks of a registry is running. -/
def Running (m : Machine) (t : TimersId) : Prop :=
  ∃ id kind, .settle t id kind ∈ m.stack

/-- On the way from one machine to another, no callback of a registry was invoked, and every message
that came by a timer was for a worker on other timers. -/
def Silent (t : TimersId) (m m' : Machine) : Prop :=
  ∃ later, m'.world.history = m.world.history ++ later ∧ (∀ id c, .fired t id c ∉ later) ∧
    ∀ k h name data, .message k h name data "" ∈ later →
      ∃ worker, m'.world.workers[k]? = some worker ∧ worker.timers ≠ t

/-- A drain that comes upon a task of a registry takes it and counts it, once and for all, and
nothing else happens. -/
def Discards (m : Machine) (t : TimersId) : Prop :=
  ∀ q n below id rest, m.stack = .drain q n :: below → m.world.tasks q = .fire t id :: rest →
    ∃ m₁, m₁ = { m with
        world := { m.world with queues := m.world.queues.set q rest }.log (.started q (.fire t id))
        stack := .drain q (n + 1) :: below } ∧
      m.next = some m₁ ∧ ∀ m', Reaches m₁ m' → ∀ q', .fire t id ∉ m'.world.tasks q'

/-! ## What keeps a registry alive -/

lemma Running.alive (h : m.Running t) : m.alive t = true := by
  obtain ⟨id, kind, hmem⟩ := h
  exact alive_iff.mpr (Or.inr ⟨id, kind, mem_running.mpr hmem⟩)

/-- An abandoned registry lives by its running callbacks only. -/
lemma alive_iff_running (hk : m.world.keeps t = false) : m.alive t = true ↔ m.Running t := by
  simp only [alive_iff, hk, Bool.false_eq_true, false_or, mem_running, Running]

/-- Registries and their owners stay. -/
lemma Reaches.owned (h : Reaches (start entropy script) m) {timers : Timers}
    (ht : m.world.timers[t]? = some timers) (ho : timers.owned = false) (h' : Reaches m m') :
    ∃ timers', m'.world.timers[t]? = some timers' ∧ timers'.owned = false := by
  obtain ⟨timers', ht', -, ho'⟩ := (h.grows h').timers t timers ht
  exact ⟨timers', ht', ho'.trans ho⟩

/-- What is abandoned stays abandoned. -/
lemma Reaches.abandoned (h : Reaches (start entropy script) m) {timers : Timers}
    (ht : m.world.timers[t]? = some timers) (ho : timers.owned = false)
    (ha : m.world.Abandoned t) (h' : Reaches m m') : m'.world.Abandoned t := by
  induction h' with
  | refl => exact ha
  | @move m₁ m₂ h₁ hn ih =>
    obtain ⟨timers₁, ht₁, ho₁⟩ := h.owned ht ho h₁
    obtain ⟨timers₂, ht₂, ho₂⟩ := h.owned ht ho (h₁.move hn)
    rw [World.abandoned_iff ht₁ ho₁] at ih
    rw [World.abandoned_iff ht₂ ho₂, Bool.eq_false_iff]
    intro hk
    have hs := (h.trans h₁).sound
    rcases (next_move hs hn).keeps_before hs hk with hold | hnew
    · rw [ih] at hold
      cases hold
    · exact absurd (List.getElem?_eq_some_iff.mp ht₁).1 (Nat.not_lt_of_ge hnew)

/-- What is dead stays dead. -/
lemma Reaches.dead (h : Reaches (start entropy script) m) (ht : t < m.world.timers.length)
    (hd : m.alive t = false) (h' : Reaches m m') : m'.alive t = false := by
  induction h' with
  | refl => exact hd
  | @move m₁ m₂ h₁ hn ih =>
    have hs := (h.trans h₁).sound
    rw [Bool.eq_false_iff]
    intro ha
    rcases (next_move hs hn).alive_before hs ha with hold | hnew
    · rw [ih] at hold
      cases hold
    · have hknows : m.world.Knows (.timers t) := ht
      exact absurd (hknows.mono (h.grows h₁)) (Nat.not_lt_of_ge hnew)

/-! ## Dead registries -/

lemma Silent.refl (t : TimersId) (m : Machine) : Silent t m m :=
  ⟨[], (List.append_nil _).symm, fun _ _ => List.not_mem_nil,
    fun _ _ _ _ hmem => absurd hmem List.not_mem_nil⟩

lemma Silent.trans (h : Silent t m m₁) (h' : Silent t m₁ m')
    (hg : World.Grows m₁.world m'.world) : Silent t m m' := by
  obtain ⟨later, hh, hf, hl⟩ := h
  obtain ⟨later', hh', hf', hl'⟩ := h'
  refine ⟨later ++ later', by rw [hh', hh, List.append_assoc], fun id c hmem => ?_,
    fun k hd name data hmem => ?_⟩
  · rcases List.mem_append.mp hmem with hold | hnew
    · exact hf id c hold
    · exact hf' id c hnew
  · rcases List.mem_append.mp hmem with hold | hnew
    · obtain ⟨worker, hk, hne⟩ := hl k hd name data hold
      obtain ⟨worker', hk', heq⟩ := hg.workers k worker hk
      exact ⟨worker', hk', heq ▸ hne⟩
    · exact hl' k hd name data hnew

/-- Nothing that is written down invokes a callback or delivers a message by a timer. -/
lemma Silent.append {es : List Event} (hh : m'.world.history = m.world.history ++ es)
    (hf : firings es = []) (hl : ∀ e ∈ es, e.letter? = none) : Silent t m m' := by
  refine ⟨es, hh, fun id c hmem => ?_, fun k hd name data hmem => ?_⟩
  · have hcall := mem_firings.mpr hmem
    rw [hf] at hcall
    cases hcall
  · cases hl _ hmem

/-- No move breaks the silence of a dead registry. -/
lemma Move.silent (h : Move m m') (hs : m.world.Sound) (hc : m.Consistent) (hp : m.world.Posted)
    (hd : m.alive t = false) : Silent t m m' := by
  have hg := h.grows
  cases h with
  | work hw _ =>
    obtain ⟨es, hes, hfir, hletter⟩ := hw.history
    exact Silent.append hes hfir hletter
  | skip _ hpop _ _ => exact Silent.append (World.history_pop hpop) rfl (by simp [Event.letter?])
  | @fire q t' id n below kind c w₁ w₂ _ hpop ha hf hm =>
    -- what fires belongs to a registry that is alive
    have hne : t' ≠ t := by
      rintro rfl
      rw [hd] at ha
      cases ha
    refine ⟨_, history_fire hs hpop hf hm, fun id' c' hmem => ?_, fun k hd name data hmem => ?_⟩
    · simp only [List.mem_cons, reduceCtorEq, false_or, Event.fired.injEq] at hmem
      rcases hmem with ⟨rfl, -⟩ | hletters
      · exact hne rfl
      · cases World.idle_of_mem_letters hletters
    · simp only [List.mem_cons, reduceCtorEq, false_or] at hmem
      rcases m.world.letters_cases c with hnil | ⟨k', data', hd', name', rfl, hone⟩
      · rw [hnil] at hmem
        cases hmem
      · rw [hone, List.mem_singleton] at hmem
        cases hmem
        have hfind := Registry.pending?_eq_some_iff.mp (World.fire_eq_some_iff.mp hf).1
        rw [World.registry_pop hpop, hc.faithful.entries] at hfind
        obtain ⟨a, b, heq, -⟩ := of_life_pending hfind
        obtain ⟨-, worker, hk, rfl⟩ := hp t' id kind k data (by simp [heq])
        obtain ⟨worker', hk', heq'⟩ := hg.workers k worker hk
        exact ⟨worker', hk', heq' ▸ hne⟩
  | settle _ hw => exact Silent.append (history_settle hw) rfl (by simp [Event.letter?])

/-- A dead registry is silent for good. -/
lemma Reaches.silent (h : Reaches (start entropy script) m) (ht : t < m.world.timers.length)
    (hd : m.alive t = false) (h' : Reaches m m') : Silent t m m' := by
  induction h' with
  | refl => exact Silent.refl t m
  | @move m₁ m₂ h₁ hn ih =>
    have hr := h.trans h₁
    have hmove := next_move hr.sound hn
    exact ih.trans (hmove.silent hr.sound hr.consistent hr.posted (h.dead ht hd h₁)) hmove.grows

/-- The tasks of a dead registry are taken and counted, and that is all. -/
lemma Reaches.discards (h : Reaches (start entropy script) m) (hd : m.alive t = false) :
    m.Discards t := by
  intro q n below id rest hs ht
  have hp := World.pop_eq_some_iff.mpr ⟨rest, ht, rfl⟩
  have hn := next_skip hs hp fun ha => by rw [hd] at ha; cases ha
  refine ⟨_, rfl, hn, fun m' h' q' => (h.move hn).not_queued (q := q) ?_ h' q'⟩
  simp [World.log, Event.started?, Microtask.timer?]

/-- An abandoned registry none of whose callbacks is running is dead and silent for good. -/
lemma Reaches.silenced (h : Reaches (start entropy script) m) {timers : Timers}
    (ht : m.world.timers[t]? = some timers) (ho : timers.owned = false)
    (ha : m.world.Abandoned t) (hrun : ¬ m.Running t) (h' : Reaches m m') :
    m'.alive t = false ∧ Silent t m m' ∧ m'.Discards t := by
  have hlt : t < m.world.timers.length := (List.getElem?_eq_some_iff.mp ht).1
  have hdead : m.alive t = false := by
    rw [Bool.eq_false_iff, ne_eq, alive_iff_running ((World.abandoned_iff ht ho).mp ha)]
    exact hrun
  have hdead' := h.dead hlt hdead h'
  exact ⟨hdead', h.silent hlt hdead h', (h.trans h').discards hdead'⟩

/-- A registry that belongs to no environment, at every point of every session.  While one of its
callbacks is running it is alive, and a drain nested in that callback fires its timers.  Once it is
abandoned it stays so, and lives by its running callbacks only.  From the point at which it is
abandoned and none of its callbacks is running, in every continuation: no callback of it is invoked,
no message reaches a worker by its timers, and a drain that comes upon one of its tasks counts the
task, once, and does nothing else.  This point comes at the latest when the outermost callback that
was running has returned. -/
theorem abandoned_registry_silent (h : Reaches (start entropy script) m) {timers : Timers}
    (ht : m.world.timers[t]? = some timers) (ho : timers.owned = false) :
    (m.Running t → m.alive t = true ∧ ∀ q n below id rest, m.stack = .drain q n :: below →
      m.world.tasks q = .fire t id :: rest → Uncancelled t id m.world.history →
      ∃ kind c w, .scheduled t id kind c ∈ m.world.history ∧
        w.history = m.world.history ++ [.started q (.fire t id), .fired t id c] ∧
        m.next = some ({ m with
          world := w
          stack := .settle t id kind :: .drain q (n + 1) :: below }.invoke c)) ∧
    (m.world.Abandoned t → ∀ m', Reaches m m' →
      m'.world.Abandoned t ∧ (m'.alive t = true ↔ m'.Running t)) ∧
    (m.world.Abandoned t → ¬ m.Running t → ∀ m', Reaches m m' →
      m'.alive t = false ∧ Silent t m m' ∧ m'.Discards t) ∧
    ∀ id kind below, m.world.Abandoned t → m.stack = .settle t id kind :: below →
      (∀ id' kind', .settle t id' kind' ∉ below) →
      ∃ m₁, m.next = some m₁ ∧ m₁.stack = below ∧ ∀ m', Reaches m₁ m' →
        m'.alive t = false ∧ Silent t m₁ m' ∧ m'.Discards t := by
  refine ⟨fun hrun => ⟨hrun.alive, fun q n below id rest hs ht hc => h.fires hs ht hrun.alive hc⟩,
    fun ha m' h' => ?_, fun ha hrun m' h' => h.silenced ht ho ha hrun h',
    fun id kind below ha hs houter => ?_⟩
  · obtain ⟨timers', ht', ho'⟩ := h.owned ht ho h'
    have ha' := h.abandoned ht ho ha h'
    exact ⟨ha', alive_iff_running ((World.abandoned_iff ht' ho').mp ha')⟩
  · have hn := next_of_settle hs
    have hstep := Reaches.refl.move hn
    obtain ⟨timers₁, ht₁, ho₁⟩ := h.owned ht ho hstep
    have ha₁ := h.abandoned ht ho ha hstep
    refine ⟨_, hn, rfl, fun m' h' => (h.move hn).silenced ht₁ ho₁ ha₁ ?_ h'⟩
    rintro ⟨id', kind', hmem⟩
    exact houter id' kind' hmem

/-- A session with two registries whose first callbacks drop the only handles.  The callback of the
second then drains the queue itself. -/
def abandoningScript : List Step :=
  [.newQueue "q", .newTimers "s" "q", .newTimers "t" "q",
    .schedule .timeout "s" "first" 0 none [.drop "s"],
    .schedule .timeout "s" "second" 0 none [],
    .schedule .timeout "t" "third" 0 none [.drop "t", .run "q"],
    .schedule .interval "t" "fourth" 0 none [],
    .run "q"]

/-- In that session, the second timer of the first registry is counted and never invoked, for its
callback had returned; that of the second registry fires, nested in the callback that dropped the
handle. -/
theorem abandoned_registry_silent_after_callback :
    let m (n : Nat) : Machine := (start ⟨fun _ => 0, 0⟩ abandoningScript).after n
    ((∀ m', Reaches (m 12) m' → Silent 0 (m 12) m') ∧
      (m 12).world.tasks 0 = [.fire 0 2, .fire 1 1, .fire 1 2] ∧ (m 12).next = some (m 13) ∧
      (m 13).stack = [.drain 0 2] ∧ (m 13).world.tasks 0 = [.fire 1 1, .fire 1 2]) ∧
    ((m 16).world.Abandoned 1 ∧ (m 16).alive 1 = true ∧ (m 16).world.tasks 0 = [.fire 1 2] ∧
      ∃ kind c, .scheduled 1 2 kind c ∈ (m 16).world.history ∧
        ∃ m', (m 16).next = some m' ∧ m'.running = [(1, 2, kind), (1, 1, .timeout)]) := by
  intro m
  have hreach (n : Nat) : Reaches (start ⟨fun _ => 0, 0⟩ abandoningScript) (m n) :=
    reaches_after _ n
  have hn₁₁ : (m 11).next = some (m 12) := rfl
  have htimers₀ : (m 11).world.timers[0]? = some ⟨_, 0, false⟩ := rfl
  have htimers₁ : (m 16).world.timers[1]? = some ⟨_, 0, false⟩ := rfl
  have habandoned₀ : (m 11).world.Abandoned 0 := (World.abandoned_iff htimers₀ rfl).mpr rfl
  have habandoned₁ : (m 16).world.Abandoned 1 := (World.abandoned_iff htimers₁ rfl).mpr rfl
  obtain ⟨-, -, -, houter⟩ := abandoned_registry_silent (hreach 11) htimers₀ rfl
  obtain ⟨hnested, -⟩ := abandoned_registry_silent (hreach 16) htimers₁ rfl
  obtain ⟨m₁, hn, -, hsilent⟩ := houter 1 .timeout [.drain 0 1] habandoned₀ rfl (by simp)
  obtain rfl := Option.some.inj (hn₁₁.symm.trans hn)
  obtain ⟨m₂, rfl, hn₁₂, -⟩ :=
    (hsilent (m 12) .refl).2.2 0 1 [] 2 [.fire 1 1, .fire 1 2] rfl rfl
  have hrunning : (m 16).Running 1 := ⟨1, .timeout, mem_running.mp List.mem_cons_self⟩
  obtain ⟨halive, hfires⟩ := hnested hrunning
  obtain ⟨kind, c, w, hsched, -, hnext⟩ := hfires 0 0 _ 2 [] rfl rfl (by decide)
  refine ⟨⟨fun m' h' => (hsilent m' h').2.1, rfl, hn₁₂, rfl, rfl⟩, habandoned₁, halive, rfl, kind,
    c, hsched, _, hnext, ?_⟩
  rw [running_invoke]
  rfl

end Machine

end Polyfill.Session
