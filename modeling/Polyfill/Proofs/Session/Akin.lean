import Polyfill.Proofs.Session.Delays
import Polyfill.Proofs.Session.Lifecycle
import Polyfill.Proofs.Session.Part
import Polyfill.Proofs.Session.Simulation
import Polyfill.Proofs.Session.Views
/-!
# Sessions with other kinds of timers

Two steps are akin if they are the same but for the kinds of the timers that they ask for, in their
bodies and in the bodies therein (`Step.Akin`); likewise everything that holds steps.  In two
sessions that are akin, registries drift apart: a fired timeout goes when its callback has returned,
while a fired interval stays until it is cancelled.  What they have in common is the last number and
the timers that wait (`Registry.Akin`), and this is all that decides what happens.

Every operation takes worlds that are akin to worlds that are akin.  A step comes to the same
answer, unless it looks at registered timers (`World.Akin.execute`).  Messages about timers are left
out of the comparison of histories: the kind of a timer shows in them, and whether a timer that is
cancelled was still registered.
-/

namespace Polyfill

/-! ## Related lists -/

section Related

variable {α β : Type} {R : α → β → Prop} {l : List α} {l' : List β}

lemma rel_getElem? (h : List.Forall₂ R l l') (i : Nat) : Option.Rel R l[i]? l'[i]? := by
  induction h generalizing i with
  | nil => exact .none
  | cons hab _ ih =>
    cases i with
    | zero => exact .some hab
    | succ i => exact ih i

/-- Related lists stay related if related members in one place are changed alike. -/
lemma forall₂_modify (h : List.Forall₂ R l l') {f : α → α} {g : β → β} (i : Nat)
    (hfg : ∀ a b, l[i]? = some a → l'[i]? = some b → R a b → R (f a) (g b)) :
    List.Forall₂ R (l.modify i f) (l'.modify i g) := by
  induction h generalizing i with
  | nil =>
    rw [List.modify_nil, List.modify_nil]
    exact .nil
  | @cons a b l l' hab htail ih =>
    cases i with
    | zero => exact .cons (hfg a b rfl rfl hab) htail
    | succ i => exact .cons hab (ih i fun a b ha hb => hfg a b ha hb)

lemma forall₂_set (h : List.Forall₂ R l l') (i : Nat) {a : α} {b : β} (hab : R a b) :
    List.Forall₂ R (l.set i a) (l'.set i b) := by
  rw [List.set_eq_modify, List.set_eq_modify]
  exact forall₂_modify h i fun _ _ _ _ _ => hab

end Related

/-! ## Timers that wait -/

namespace Registry

variable {κ : Type} {r : Registry κ}

lemma pending?_congr {r' : Registry κ} {id : Nat} (h : r'.find? id = r.find? id) :
    r'.pending? id = r.pending? id := by
  rw [pending?, pending?, h]

lemma pending?_schedule (kind : TimerKind) (c : κ) (id : Nat) (hr : r.find? (r.last + 1) = none) :
    (r.schedule kind c).pending? id = if id = r.last + 1 then some (kind, c)
      else r.pending? id := by
  have hfind := find?_schedule kind c id hr
  split
  · rename_i hid
    rw [if_pos hid] at hfind
    exact pending?_eq_some_iff.mpr hfind
  · rename_i hid
    rw [if_neg hid] at hfind
    exact pending?_congr hfind

lemma pending?_remove (r : Registry κ) (id id' : Nat) :
    (r.remove id).pending? id' = if id' = id then none else r.pending? id' := by
  have hfind := find?_remove r id id'
  split
  · rename_i hid
    rw [if_pos hid] at hfind
    rw [pending?, hfind]
  · rename_i hid
    rw [if_neg hid] at hfind
    exact pending?_congr hfind

lemma pending?_markFired (r : Registry κ) (id id' : Nat) :
    (r.markFired id).pending? id' = if id' = id then none else r.pending? id' := by
  have hfind := find?_markFired r id id'
  split
  · rename_i hid
    rw [if_pos hid] at hfind
    rw [pending?, hfind]
    cases r.find? id' <;> rfl
  · rename_i hid
    rw [if_neg hid] at hfind
    exact pending?_congr hfind

/-- To let a timer go that does not wait changes nothing for those that do. -/
lemma pending?_settle {id : Nat} (h : r.pending? id = none) (kind : TimerKind) (id' : Nat) :
    (r.settle id kind).pending? id' = r.pending? id' := by
  cases kind with
  | timeout =>
    rw [settle, pending?_remove]
    split
    · rename_i hid
      rw [hid, h]
    · rfl
  | interval => rfl

/-- Nothing is registered under a number that has not been given out. -/
def Fresh (r : Registry κ) : Prop :=
  ∀ id, r.last < id → r.find? id = none

lemma Fresh.next (h : r.Fresh) : r.find? (r.last + 1) = none :=
  h _ (Nat.lt_succ_self _)

lemma Fresh.schedule (h : r.Fresh) (kind : TimerKind) (c : κ) : (r.schedule kind c).Fresh := by
  intro id hid
  have hlt : r.last + 1 < id := hid
  rw [find?_schedule kind c id h.next, if_neg (by omega)]
  exact h id (by omega)

lemma Fresh.remove (h : r.Fresh) (id : Nat) : (r.remove id).Fresh := by
  intro id' hid
  rw [find?_remove, h id' hid, ite_self]

lemma Fresh.markFired (h : r.Fresh) (id : Nat) : (r.markFired id).Fresh := by
  intro id' hid
  rw [find?_markFired, h id' hid, Option.map_none, ite_self]

lemma Fresh.settle (h : r.Fresh) (id : Nat) (kind : TimerKind) : (r.settle id kind).Fresh := by
  cases kind with
  | timeout => exact h.remove id
  | interval => exact h

/-- Of a timer that does not wait, a registry tells that it has fired or is not registered. -/
lemma datum_stage_of_not_pending {id : Nat} (h : r.pending? id = none) :
    (r.stage id).datum = .text "Fired" ∨ (r.stage id).datum = .null := by
  unfold stage
  split
  · rename_i hx
    rw [pending?_eq_some_iff.mpr hx] at h
    cases h
  · exact Or.inl rfl
  · right
    split <;> rfl

end Registry

namespace Session

/-! ## What is akin -/

/-- The names of the steps that ask for a timer. -/
def timerVerbs : List String :=
  ["set_timeout", "set_interval"]

/-- Two steps are the same but for the kinds of the timers that they ask for, at any depth. -/
inductive Step.Akin : Step → Step → Prop
  | same (s : Step) : Akin s s
  | schedule (kind kind' : TimerKind) (timers label : String) (delay : Nat)
      (args : Option (List Datum)) {body body' : List Step} (h : List.Forall₂ Akin body body') :
      Akin (.schedule kind timers label delay args body)
        (.schedule kind' timers label delay args body')
  | enqueue (queue label : String) {body body' : List Step} (h : List.Forall₂ Akin body body') :
      Akin (.enqueue queue label body) (.enqueue queue label body')
  | messageHandler (as : String) (times : Nat) {body body' : List Step}
      (h : List.Forall₂ Akin body body') :
      Akin (.messageHandler as body times) (.messageHandler as body' times)
  /-- A step that asks for a timer, but not as it should. -/
  | malformed {name name' : String} (h : name ∈ timerVerbs) (h' : name' ∈ timerVerbs)
      (complaint : Complaint) : Akin (.malformed name complaint) (.malformed name' complaint)

/-- Two bodies are the same but for kinds of timers. -/
abbrev AkinBodies : List Step → List Step → Prop :=
  List.Forall₂ Step.Akin

lemma AkinBodies.refl (body : List Step) : AkinBodies body body :=
  List.forall₂_same.mpr fun s _ => .same s

/-- Two callbacks are the same but for kinds of timers. -/
inductive Callback.Akin : Callback → Callback → Prop
  | script (label : String) (args : Option (List Datum)) {body body' : List Step}
      (h : AkinBodies body body') : Akin (.script label args body) (.script label args body')
  | delivery (k : WorkerId) (data : String) : Akin (.delivery k data) (.delivery k data)

/-- Two tasks are the same but for kinds of timers. -/
inductive Microtask.Akin : Microtask → Microtask → Prop
  | fire (t : TimersId) (id : Nat) : Akin (.fire t id) (.fire t id)
  | script (label : String) {body body' : List Step} (h : AkinBodies body body') :
      Akin (.script label body) (.script label body')

/-- Two handlers are the same but for kinds of timers. -/
inductive Handler.Akin : Handler → Handler → Prop
  | message (name : String) (allowance : Nat) {body body' : List Step} (h : AkinBodies body body') :
      Akin ⟨name, .message body allowance⟩ ⟨name, .message body' allowance⟩
  | error (name : String) : Akin ⟨name, .error⟩ ⟨name, .error⟩

/-- Two frames are the same but for kinds of timers. -/
inductive Frame.Akin : Frame → Frame → Prop
  | body {rest rest' : List Step} (h : AkinBodies rest rest') : Akin (.body rest) (.body rest')
  | drain (q : QueueId) (count : Nat) : Akin (.drain q count) (.drain q count)
  | settle (t : TimersId) (id : Nat) (kind kind' : TimerKind) :
      Akin (.settle t id kind) (.settle t id kind')
  | reply (name : String) (answer : Answer) : Akin (.reply name answer) (.reply name answer)

end Session

namespace Registry

open Session

variable {r r' : Registry Callback}

/-- Two registries have given out the same numbers, and the same timers wait in them but for their
kinds.  What else is registered may differ. -/
structure Akin (r r' : Registry Callback) : Prop where
  last : r'.last = r.last
  fresh : r.Fresh
  fresh' : r'.Fresh
  pending : ∀ id, Option.Rel (fun p p' => p.2.Akin p'.2) (r.pending? id) (r'.pending? id)

namespace Akin

lemma empty : Akin Registry.empty Registry.empty :=
  ⟨rfl, fun _ _ => rfl, fun _ _ => rfl, fun _ => .none⟩

lemma schedule (h : Akin r r') (kind kind' : TimerKind) {c c' : Callback} (hc : c.Akin c') :
    Akin (r.schedule kind c) (r'.schedule kind' c') := by
  refine ⟨congrArg (· + 1) h.last, h.fresh.schedule kind c, h.fresh'.schedule kind' c', ?_⟩
  intro id
  rw [pending?_schedule kind c id h.fresh.next, pending?_schedule kind' c' id h.fresh'.next, h.last]
  split
  · exact .some hc
  · exact h.pending id

lemma remove (h : Akin r r') (id : Nat) : Akin (r.remove id) (r'.remove id) := by
  refine ⟨h.last, h.fresh.remove id, h.fresh'.remove id, fun id' => ?_⟩
  rw [pending?_remove, pending?_remove]
  split
  · exact .none
  · exact h.pending id'

lemma markFired (h : Akin r r') (id : Nat) : Akin (r.markFired id) (r'.markFired id) := by
  refine ⟨h.last, h.fresh.markFired id, h.fresh'.markFired id, fun id' => ?_⟩
  rw [pending?_markFired, pending?_markFired]
  split
  · exact .none
  · exact h.pending id'

/-- Here registries drift apart: a timeout goes, an interval stays. -/
lemma settle (h : Akin r r') {id : Nat} (hr : r.pending? id = none) (hr' : r'.pending? id = none)
    (kind kind' : TimerKind) : Akin (r.settle id kind) (r'.settle id kind') := by
  refine ⟨?_, h.fresh.settle id kind, h.fresh'.settle id kind', fun id' => ?_⟩
  · have hlast : ∀ (r : Registry Callback) kind, (r.settle id kind).last = r.last := by
      intro r kind
      cases kind <;> rfl
    rw [hlast, hlast, h.last]
  · rw [pending?_settle hr, pending?_settle hr']
    exact h.pending id'

end Akin

end Registry

namespace Session

/-- Two timer registries with the same queue and owner, of which the same timers wait. -/
structure Timers.Akin (timers timers' : Timers) : Prop where
  registry : timers.registry.Akin timers'.registry
  queue : timers'.queue = timers.queue
  owned : timers'.owned = timers.owned

/-- Two answers are the same, or they tell what may differ of registered timers: whether a timer
that does not wait is still registered, how many are registered, or that number in a description. -/
inductive Answer.Akin : Answer → Answer → Prop
  | same (answer : Answer) : Akin answer answer
  | status {d d' : Datum} (h : d ∈ [.text "Fired", .null]) (h' : d' ∈ [.text "Fired", .null]) :
      Akin (Answer.data d) (Answer.data d')
  | size (n n' : Nat) : Akin (Answer.data (World.sizeDatum n)) (Answer.data (World.sizeDatum n'))
  | described (before after : String) (n n' : Nat) :
      Akin (Answer.data (.text (before ++ toString n ++ after)))
        (Answer.data (.text (before ++ toString n' ++ after)))

/-- Two effects are the same but for kinds of timers.  Answers may differ, as far as answers may, if
`looks` says that the step looks at registered timers. -/
inductive Effect.Akin (looks : Prop) : Effect → Effect → Prop
  | done (answer : Answer) : Akin looks (.done answer) (.done answer)
  | look {answer answer' : Answer} (h : looks) (ha : Answer.Akin answer answer') :
      Akin looks (.done answer) (.done answer')
  | enter {frames frames' : List Frame} (h : List.Forall₂ Frame.Akin frames frames') :
      Akin looks (.enter frames) (.enter frames')

/-- A step looks at registered timers: it asks for the state of a timer, for their number, or for a
description that shows their number. -/
def Step.LooksAtTimers (w : World) : Step → Prop
  | .query (.state _ _) => True
  | .query (.size name) => ∃ t, w.handle? name = some (.timers t)
  | .query (.describe name _) => (∃ t, w.handle? name = some (.timers t)) ∨
      ∃ env q t, w.handle? name = some (.environment env q t)
  | _ => False

/-- The names of the steps that may look at registered timers. -/
def lookVerbs : List String :=
  ["state", "len", "debug"]

lemma Step.LooksAtTimers.name {w : World} {s : Step} (h : s.LooksAtTimers w) :
    s.name ∈ lookVerbs := by
  cases s with
  | query q =>
    cases q with
    | state | size | describe => simp [Step.name, Query.name, lookVerbs]
    | _ => cases h
  | _ => cases h

/-- Two worlds have the same names, the same workers, and equally many tasks in their queues. -/
structure World.Matches (w w' : World) : Prop where
  names : w'.names = w.names
  workers : w'.workers = w.workers
  lengths : ∀ q, (w'.tasks q).length = (w.tasks q).length

/-- Whether a note is a message about a timer. -/
def Note.aboutTimer : Note → Bool
  | .debug text | .trace text => "Timer ".toList.isPrefixOf text.toList
  | .op _ _ => false

/-- What is reported of a step of a session itself: its answer, and the state of its objects. -/
abbrev Reported : Type :=
  Answer × List (String × Datum)

namespace Event

/-- Whether an event is a message about a timer. -/
def aboutTimer : Event → Bool
  | .note n => Note.aboutTimer n
  | _ => false

/-- Two events are the same but for kinds of timers, for the names of the steps that ask for timers,
and for what steps that look at registered timers come to.  What is reported of the steps of two
sessions themselves is related by `V`. -/
inductive Akin (V : Reported → Reported → Prop) : Event → Event → Prop
  | same (e : Event) (h : e.outcome? = none) : Akin V e e
  | enqueued (q : QueueId) {task task' : Microtask} (h : task.Akin task') :
      Akin V (.enqueued q task) (.enqueued q task')
  | started (q : QueueId) {task task' : Microtask} (h : task.Akin task') :
      Akin V (.started q task) (.started q task')
  | scheduled (t : TimersId) (id : Nat) (kind kind' : TimerKind) {c c' : Callback} (h : c.Akin c') :
      Akin V (.scheduled t id kind c) (.scheduled t id kind' c')
  | fired (t : TimersId) (id : Nat) {c c' : Callback} (h : c.Akin c') :
      Akin V (.fired t id c) (.fired t id c')
  | stepped {name name' : String} {answer answer' : Answer}
      (hn : name = name' ∨ name ∈ timerVerbs ∧ name' ∈ timerVerbs)
      (ha : answer = answer' ∨ name ∈ lookVerbs ∧ Answer.Akin answer answer') :
      Akin V (.stepped name answer) (.stepped name' answer')
  | answered {answer answer' : Answer} {state state' : List (String × Datum)}
      (h : V (answer, state) (answer', state')) :
      Akin V (.answered answer state) (.answered answer' state')

end Event

/-- A history without messages about timers. -/
def withoutTimerNotes (h : List Event) : List Event :=
  h.filter fun e => !e.aboutTimer

lemma withoutTimerNotes_append (h h' : List Event) :
    withoutTimerNotes (h ++ h') = withoutTimerNotes h ++ withoutTimerNotes h' :=
  List.filter_append _ _

namespace Event

@[simp] lemma aboutTimer_scheduled (id : Nat) (kind : TimerKind) : aboutTimer
    (.note (.debug ("Timer " ++ timerText id ++ " scheduled (" ++ kind.label ++ ")"))) = true := by
  simp [aboutTimer, Note.aboutTimer]

@[simp] lemma aboutTimer_delay (id delay : Nat) : aboutTimer (.note (.trace
    ("Timer " ++ timerText id ++ ": delay of " ++ toString delay ++ " ms ignored"))) = true := by
  simp [aboutTimer, Note.aboutTimer]

@[simp] lemma aboutTimer_cancelled (id : Nat) :
    aboutTimer (.note (.debug ("Timer " ++ timerText id ++ " cancelled"))) = true := by
  simp [aboutTimer, Note.aboutTimer]

/-- Events that are akin are both messages about timers, or neither is. -/
lemma Akin.aboutTimer_eq {V : Reported → Reported → Prop} {e e' : Event} (h : e.Akin V e') :
    e'.aboutTimer = e.aboutTimer := by
  cases h <;> rfl

end Event

namespace World

/-- Two worlds are the same but for kinds of timers and registered timers that do not wait. -/
structure Akin (V : Reported → Reported → Prop) (w w' : World) : Prop where
  names : w'.names = w.names
  workers : w'.workers = w.workers
  entropy : w'.entropy = w.entropy
  queues : List.Forall₂ (List.Forall₂ Microtask.Akin) w.queues w'.queues
  timers : List.Forall₂ Timers.Akin w.timers w'.timers
  handlers : List.Forall₂ Handler.Akin w.handlers w'.handlers
  history : List.Forall₂ (Event.Akin V) (withoutTimerNotes w.history) (withoutTimerNotes w'.history)

namespace Akin

variable {V : Reported → Reported → Prop} {w w' : World}

/-! ## Looking at worlds -/

lemma tasks (h : Akin V w w') (q : QueueId) :
    List.Forall₂ Microtask.Akin (w.tasks q) (w'.tasks q) := by
  simp only [World.tasks, List.getD_eq_getElem?_getD]
  rcases rel_cases (rel_getElem? h.queues q) with ⟨hq, hq'⟩ | ⟨l, l', hq, hq', hl⟩
  · rw [hq, hq']
    exact .nil
  · rw [hq, hq']
    exact hl

lemma registry (h : Akin V w w') (t : TimersId) : (w.registry t).Akin (w'.registry t) := by
  simp only [World.registry]
  rcases rel_cases (rel_getElem? h.timers t) with ⟨ht, ht'⟩ | ⟨x, x', ht, ht', hx⟩
  · rw [ht, ht']
    exact .empty
  · rw [ht, ht']
    exact hx.registry

lemma queueOf (h : Akin V w w') (t : TimersId) : w'.queueOf t = w.queueOf t := by
  simp only [World.queueOf]
  rcases rel_cases (rel_getElem? h.timers t) with ⟨ht, ht'⟩ | ⟨x, x', ht, ht', hx⟩
  · rw [ht, ht']
  · rw [ht, ht', Option.map_some, Option.map_some, hx.queue]

lemma keeps (h : Akin V w w') (t : TimersId) : w'.keeps t = w.keeps t := by
  have howned : (w'.timers[t]?).any (·.owned) = (w.timers[t]?).any (·.owned) := by
    rcases rel_cases (rel_getElem? h.timers t) with ⟨ht, ht'⟩ | ⟨x, x', ht, ht', hx⟩
    · rw [ht, ht']
    · rw [ht, ht', Option.any_some, Option.any_some, hx.owned]
  have hholds : w'.holds t = w.holds t := by
    funext x
    cases x with
    | worker k => simp only [holds, h.workers]
    | _ => rfl
  rw [World.keeps, World.keeps, howned, hholds, h.names]

lemma slots (h : Akin V w w') (i : HandlerId) :
    (w'.handlers[i]?).map Handler.slot = (w.handlers[i]?).map Handler.slot := by
  rcases rel_cases (rel_getElem? h.handlers i) with ⟨hi, hi'⟩ | ⟨x, x', hi, hi', hx⟩
  · rw [hi, hi']
  · rw [hi, hi']
    cases hx <;> rfl

/-- Worlds that are akin show the same but for their timers. -/
lemma shown (h : Akin V w w') : w.Matches w' :=
  ⟨h.names, h.workers, fun q => (h.tasks q).length_eq.symm⟩

/-! ## Operations -/

lemma log (h : Akin V w w') {e e' : Event} (he : e.Akin V e') : Akin V (w.log e) (w'.log e') := by
  refine { h with history := ?_ }
  have htail : List.Forall₂ (Event.Akin V) (withoutTimerNotes [e]) (withoutTimerNotes [e']) := by
    simp only [withoutTimerNotes, List.filter_singleton, he.aboutTimer_eq]
    cases e.aboutTimer with
    | false => exact .cons he .nil
    | true => exact .nil
  simp only [World.log, withoutTimerNotes_append]
  exact List.rel_append h.history htail

/-- Messages about timers do not count. -/
lemma mute_left (h : Akin V w w') {e : Event} (he : e.aboutTimer = true) : Akin V (w.log e) w' := by
  refine { h with history := ?_ }
  simpa [World.log, withoutTimerNotes, he] using h.history

lemma mute_right (h : Akin V w w') {e : Event} (he : e.aboutTimer = true) :
    Akin V w (w'.log e) := by
  refine { h with history := ?_ }
  simpa [World.log, withoutTimerNotes, he] using h.history

lemma perform {α : Type} (h : Akin V w w') (act : Act α) :
    Joins (Akin V) (w.perform act) (w'.perform act) := by
  have hnotes : ∀ notes : List Note, List.Forall₂ (Event.Akin V)
      (withoutTimerNotes (notes.map .note)) (withoutTimerNotes (notes.map .note)) := by
    refine fun notes => List.forall₂_same.mpr fun e he => .same e ?_
    obtain ⟨n, -, rfl⟩ := List.mem_map.mp (List.mem_filter.mp he).1
    rfl
  refine ⟨by simp only [World.perform, h.entropy], { h with entropy := ?_, history := ?_ }⟩
  · simp only [World.perform, h.entropy]
  · simp only [World.perform, h.entropy, withoutTimerNotes_append]
    exact List.rel_append h.history (hnotes _)

lemma bind (h : Akin V w w') (name : String) (x : Handle) :
    Akin V (w.bind name x) (w'.bind name x) :=
  { h with names := by rw [World.bind, World.bind, h.names] }

lemma forget (h : Akin V w w') (name : String) : Akin V (w.forget name) (w'.forget name) :=
  { h with names := by rw [World.forget, World.forget, h.names] }

lemma updateWorker (h : Akin V w w') (k : WorkerId) (f : Worker → Worker) :
    Akin V (w.updateWorker k f) (w'.updateWorker k f) :=
  { h with workers := by rw [World.updateWorker, World.updateWorker, h.workers] }

lemma newWorker (h : Akin V w w') (worker : Worker) :
    Joins (Akin V) (w.newWorker worker) (w'.newWorker worker) :=
  ⟨by rw [World.newWorker, World.newWorker, h.workers],
    { h with workers := by rw [World.newWorker, World.newWorker, h.workers] }⟩

lemma newQueue (h : Akin V w w') : Joins (Akin V) w.newQueue w'.newQueue :=
  ⟨h.queues.length_eq.symm, { h with queues := List.rel_append h.queues (.cons .nil .nil) }⟩

lemma newTimers (h : Akin V w w') (q : QueueId) (owned : Bool) :
    Joins (Akin V) (w.newTimers q owned) (w'.newTimers q owned) :=
  ⟨h.timers.length_eq.symm,
    { h with timers := List.rel_append h.timers (.cons ⟨.empty, rfl, rfl⟩ .nil) }⟩

lemma newHandler (h : Akin V w w') {handler handler' : Handler} (hh : handler.Akin handler') :
    Joins (Akin V) (w.newHandler handler) (w'.newHandler handler') :=
  ⟨h.handlers.length_eq.symm,
    { h with handlers := List.rel_append h.handlers (.cons hh .nil) }⟩

lemma enqueue (h : Akin V w w') (q : QueueId) {task task' : Microtask} (ht : task.Akin task') :
    Akin V (w.enqueue q task) (w'.enqueue q task') := by
  have hqueues : Akin V { w with queues := w.queues.modify q (· ++ [task]) }
      { w' with queues := w'.queues.modify q (· ++ [task']) } :=
    { h with
      queues := forall₂_modify h.queues q fun _ _ _ _ hl => List.rel_append hl (.cons ht .nil) }
  exact hqueues.log (.enqueued q ht)

/-- A task goes to the queue of the same timers. -/
lemma enqueue_queueOf (h : Akin V w w') (t : TimersId) {task task' : Microtask}
    (ht : task.Akin task') :
    Akin V (w.enqueue (w.queueOf t) task) (w'.enqueue (w'.queueOf t) task') := by
  rw [h.queueOf]
  exact h.enqueue _ ht

/-- Tasks that are akin are taken, or none. -/
lemma pop (h : Akin V w w') (q : QueueId) : (w.pop q = none ∧ w'.pop q = none) ∨
    ∃ task task' v v', w.pop q = some (task, v) ∧ w'.pop q = some (task', v') ∧
      task.Akin task' ∧ Akin V v v' := by
  have htasks := h.tasks q
  simp only [World.pop]
  cases hq : w.tasks q with
  | nil =>
    rw [hq, List.forall₂_nil_left_iff] at htasks
    rw [htasks]
    exact Or.inl ⟨rfl, rfl⟩
  | cons task rest =>
    rw [hq] at htasks
    obtain ⟨task', rest', ht, hrest, hq'⟩ := List.forall₂_cons_left_iff.mp htasks
    rw [hq']
    have hset : Akin V { w with queues := w.queues.set q rest }
        { w' with queues := w'.queues.set q rest' } :=
      { h with queues := forall₂_set h.queues q hrest }
    exact Or.inr ⟨task, task', _, _, rfl, rfl, ht, hset.log (.started q ht)⟩

lemma updateRegistry (h : Akin V w w') (t : TimersId) {f f' : Registry Callback → Registry Callback}
    (hf : (f (w.registry t)).Akin (f' (w'.registry t))) :
    Akin V (w.updateRegistry t f) (w'.updateRegistry t f') := by
  refine { h with timers := forall₂_modify h.timers t fun x x' hx hx' hxx => ?_ }
  simp only [World.registry, hx, hx'] at hf
  exact ⟨hf, hxx.queue, hxx.owned⟩

/-- A timer gets the same number, whatever its kind. -/
lemma schedule (h : Akin V w w') (t : TimersId) (kind kind' : TimerKind) (delay : Nat)
    {c c' : Callback} (hc : c.Akin c') :
    Joins (Akin V) (w.schedule t kind delay c) (w'.schedule t kind' delay c') := by
  have hlast := (h.registry t).last
  have hregistry : Akin V (w.updateRegistry t (·.schedule kind c))
      (w'.updateRegistry t (·.schedule kind' c')) :=
    h.updateRegistry t ((h.registry t).schedule kind kind' hc)
  have hscheduled := hregistry.log (.scheduled t ((w.registry t).last + 1) kind kind' hc)
  refine ⟨congrArg (· + 1) hlast, ?_⟩
  simp only [World.schedule, hlast]
  refine enqueue_queueOf ?_ t (.fire t _)
  refine ((?_ : Akin V _ _).mute_left (Event.aboutTimer_delay _ _)).mute_right
    (Event.aboutTimer_delay _ _)
  exact (hscheduled.mute_left (Event.aboutTimer_scheduled _ _)).mute_right
    (Event.aboutTimer_scheduled _ _)

lemma cancel (h : Akin V w w') (t : TimersId) (id : Nat) :
    Akin V (w.cancel t id) (w'.cancel t id) := by
  have hremoved : Akin V ((w.updateRegistry t (·.remove id)).log (.cancelled t id))
      ((w'.updateRegistry t (·.remove id)).log (.cancelled t id)) :=
    (h.updateRegistry t ((h.registry t).remove id) : Akin V (w.updateRegistry t (·.remove id))
      (w'.updateRegistry t (·.remove id))).log (.same _ rfl)
  simp only [World.cancel]
  -- only the message tells whether the timer was registered
  split <;> split
  · exact (hremoved.mute_left (Event.aboutTimer_cancelled id)).mute_right
      (Event.aboutTimer_cancelled id)
  · exact hremoved.mute_left (Event.aboutTimer_cancelled id)
  · exact hremoved.mute_right (Event.aboutTimer_cancelled id)
  · exact hremoved

/-- The same timers may fire. -/
lemma fire (h : Akin V w w') (t : TimersId) (id : Nat) :
    (w.fire t id = none ∧ w'.fire t id = none) ∨
      ∃ kind kind' c c' v v', w.fire t id = some (kind, c, v) ∧
        w'.fire t id = some (kind', c', v') ∧ c.Akin c' ∧ Akin V v v' := by
  simp only [World.fire]
  rcases rel_cases ((h.registry t).pending id) with
    ⟨hp, hp'⟩ | ⟨⟨kind, c⟩, ⟨kind', c'⟩, hp, hp', hc⟩
  · rw [hp, hp']
    exact Or.inl ⟨rfl, rfl⟩
  · rw [hp, hp']
    have hmarked : Akin V (w.updateRegistry t (·.markFired id))
        (w'.updateRegistry t (·.markFired id)) :=
      h.updateRegistry t ((h.registry t).markFired id)
    exact Or.inr ⟨kind, kind', c, c', _, _, rfl, rfl, hc, hmarked.log (.fired t id hc)⟩

lemma settle (h : Akin V w w') {t : TimersId} {id : Nat} (hp : (w.registry t).pending? id = none)
    (hp' : (w'.registry t).pending? id = none) (kind kind' : TimerKind) :
    Akin V (w.settle t id kind) (w'.settle t id kind') := by
  have hregistry : Akin V (w.updateRegistry t (·.settle id kind))
      (w'.updateRegistry t (·.settle id kind')) :=
    h.updateRegistry t ((h.registry t).settle hp hp' kind kind')
  exact hregistry.log (.same (.settled t id) rfl)

/-- The same handler is called, and runs a body that is akin. -/
lemma deliver (h : Akin V w w') (k : WorkerId) (i : HandlerId) (data origin : String) :
    AkinBodies (w.deliver k i data origin).1 (w'.deliver k i data origin).1 ∧
      Akin V (w.deliver k i data origin).2 (w'.deliver k i data origin).2 := by
  simp only [World.deliver]
  rcases rel_cases (rel_getElem? h.handlers i) with ⟨hi, hi'⟩ | ⟨x, x', hi, hi', hx⟩
  · rw [hi, hi']
    exact ⟨.nil, h⟩
  · rw [hi, hi']
    cases hx with
    | error name => exact ⟨.nil, h.log (.same _ rfl)⟩
    | @message name allowance body body' hb =>
      cases allowance with
      | zero => exact ⟨.nil, h.log (.same _ rfl)⟩
      | succ allowance =>
        have hset : Akin V { w with handlers := w.handlers.set i ⟨name, .message body allowance⟩ }
            { w' with handlers := w'.handlers.set i ⟨name, .message body' allowance⟩ } :=
          { h with handlers := forall₂_set h.handlers i (.message name allowance hb) }
        exact ⟨hb, hset.log (.same (.message k i name data origin) rfl)⟩

lemma deliverError (h : Akin V w w') (k : WorkerId) (i : HandlerId) (message : String) :
    Akin V (w.deliverError k i message) (w'.deliverError k i message) := by
  simp only [World.deliverError]
  rcases rel_cases (rel_getElem? h.handlers i) with ⟨hi, hi'⟩ | ⟨x, x', hi, hi', hx⟩
  · rw [hi, hi']
    exact h
  · rw [hi, hi']
    cases hx <;> exact h.log (.same _ rfl)

/-- The relation is one that plain steps keep. -/
lemma simulation : Simulation (Akin V) where
  objects h := by rw [← h.names, ← h.workers, ← h.entropy]
  slots h i := h.slots i
  queueOf h t := h.queueOf t
  note h n := h.log (.same (.note n) rfl)
  perform h act := h.perform act
  bind h name x := h.bind name x
  forget h name := h.forget name
  newQueue h := h.newQueue
  newTimers h q owned := h.newTimers q owned
  newWorker h worker := h.newWorker worker
  updateWorker h k f := h.updateWorker k f
  errorHandler h name := h.newHandler (.error name)
  cancel h t id := h.cancel t id
  delivery h t k data := (h.schedule t .timeout .timeout 0 (.delivery k data)).world

/-! ## Steps -/

lemma describeQueue (h : Akin V w w') (q : QueueId) : w'.describeQueue q = w.describeQueue q := by
  have hlength := (h.tasks q).length_eq
  unfold World.describeQueue
  rw [hlength]

/-- A description of an environment is made of one of its queue and the number of its timers. -/
lemma exists_describe_environment (pretty : Bool) (env : Environment) (q : QueueId) (t : TimersId)
    (queue : String) : ∃ before after, ∀ w : World, w.describeQueue q = queue →
      w.describe? pretty (.environment env q t) =
        some (before ++ toString (w.registry t).size ++ after) := by
  have hsplit : ∀ (w : World) (a b : String), a ++ w.describeTimers t ++ b =
      a ++ "TimerQueue \x7b registered: " ++ toString (w.registry t).size ++ (" \x7d" ++ b) := by
    intro w a b
    unfold World.describeTimers
    generalize toString (w.registry t).size = n
    simp only [String.append_assoc]
  cases pretty with
  | false =>
    let before := "Environment \x7b installed: [" ++
      String.intercalate ", " (env.installed.map Capability.label) ++ "], microtasks: " ++ queue ++
      ", timers: "
    refine ⟨before ++ "TimerQueue \x7b registered: ", " \x7d" ++ ", .. \x7d", fun w hw => ?_⟩
    have hline : w.describeEnvironment env q t = before ++ w.describeTimers t ++ ", .. \x7d" := by
      unfold World.describeEnvironment
      rw [hw]
    exact congrArg some (hline.trans (hsplit w before ", .. \x7d"))
  | true =>
    let installed :=
      if env.installed.isEmpty then
        "[]"
      else
        "[\n" ++ String.join (env.installed.map fun c => "        " ++ c.label ++ ",\n") ++ "    ]"
    let before := "Environment \x7b\n    installed: " ++ installed ++ ",\n    microtasks: " ++
      queue ++ ",\n    timers: "
    refine ⟨before ++ "TimerQueue \x7b registered: ", " \x7d" ++ ",\n    ..\n\x7d", fun w hw => ?_⟩
    have hlines : w.describeEnvironmentPretty env q t =
        before ++ w.describeTimers t ++ ",\n    ..\n\x7d" := by
      unfold World.describeEnvironmentPretty
      rw [hw]
    exact congrArg some (hlines.trans (hsplit w before ",\n    ..\n\x7d"))

/-- Descriptions are the same but for the number of registered timers. -/
lemma describe? (h : Akin V w w') (pretty : Bool) (x : Handle) :
    w'.describe? pretty x = w.describe? pretty x ∨
      ((∃ t, x = .timers t) ∨ ∃ env q t, x = .environment env q t) ∧
      ∃ before after, ∃ n n' : Nat, w.describe? pretty x = some (before ++ toString n ++ after) ∧
        w'.describe? pretty x = some (before ++ toString n' ++ after) := by
  cases x with
  | queue q => exact Or.inl (congrArg some (h.describeQueue q))
  | timers t =>
    exact Or.inr ⟨Or.inl ⟨t, rfl⟩, _, _, (w.registry t).size, (w'.registry t).size, rfl, rfl⟩
  | worker k =>
    left
    simp only [World.describe?, h.workers]
  | environment env q t =>
    obtain ⟨before, after, hshown⟩ := exists_describe_environment pretty env q t (w.describeQueue q)
    exact Or.inr ⟨Or.inr ⟨env, q, t, rfl⟩, before, after, _, _, hshown w rfl,
      hshown w' (h.describeQueue q)⟩
  | _ => exact Or.inl rfl

/-- What is seen of objects is the same, unless it is of registered timers. -/
lemma query (h : Akin V w w') (q : Query) :
    Effect.Akin ((Step.query q).LooksAtTimers w) (.done (w.query q)) (.done (w'.query q)) := by
  have hname : ∀ name, w'.handle? name = w.handle? name := simulation.handle? h
  cases q with
  | state name id =>
    cases ht : w.timers? name with
    | none =>
      simp only [World.query, simulation.timers? h, ht]
      exact .done _
    | some t =>
      rw [World.query_state ht, World.query_state ((simulation.timers? h name).trans ht)]
      rcases rel_cases ((h.registry t).pending id) with ⟨hp, hp'⟩ | ⟨p, p', hp, hp', -⟩
      · refine .look trivial (.status ?_ ?_)
        · simpa using Registry.datum_stage_of_not_pending hp
        · simpa using Registry.datum_stage_of_not_pending hp'
      · rw [Registry.stage_of_pending (Registry.pending?_eq_some_iff.mp hp),
          Registry.stage_of_pending (Registry.pending?_eq_some_iff.mp hp')]
        exact .done _
  | size name =>
    simp only [World.query, hname]
    cases hx : w.handle? name with
    | none => exact .done _
    | some x =>
      cases x with
      | timers t => exact .look ⟨t, hx⟩ (.size _ _)
      | queue q =>
        simp only [(h.tasks q).length_eq]
        exact .done _
      | _ => exact .done _
  | workerInfo name =>
    simp only [World.query, simulation.worker? h, h.workers]
    exact .done _
  | eventType name =>
    simp only [World.query, simulation.handler? h]
    cases w.handler? name with
    | none => exact .done _
    | some i =>
      simp only [Option.bind_some]
      rcases rel_cases (rel_getElem? h.handlers i) with ⟨hi, hi'⟩ | ⟨x, x', hi, hi', hx⟩
      · rw [hi, hi']
        exact .done _
      · rw [hi, hi']
        cases hx <;> exact .done _
  | isCurrent name handlerName =>
    simp only [World.query, simulation.worker? h, h.workers, simulation.handler? h]
    cases (w.worker? name).bind (w.workers[·]?) with
    | none => exact .done _
    | some worker =>
      cases w.handler? handlerName with
      | none => exact .done _
      | some i =>
        rcases rel_cases (rel_getElem? h.handlers i) with ⟨hi, hi'⟩ | ⟨x, x', hi, hi', hx⟩
        · simp only [hi, hi']
          exact .done _
        · simp only [hi, hi']
          cases hx <;> exact .done _
  | describe name pretty =>
    simp only [World.query, hname]
    cases hx : w.handle? name with
    | none => exact .done _
    | some x =>
      simp only [Option.bind_some]
      rcases h.describe? pretty x with heq | ⟨hlooks, before, after, n, n', hd, hd'⟩
      · rw [heq]
        exact .done _
      · rw [hd, hd']
        refine .look ?_ (.described before after n n')
        rcases hlooks with ⟨t, rfl⟩ | ⟨env, q, t, rfl⟩
        · exact Or.inl ⟨t, hx⟩
        · exact Or.inr ⟨env, q, t, hx⟩
  | algorithm name =>
    simp only [World.query, hname]
    exact .done _

variable {looks : Prop}

/-- A plain step comes to the same answer, or begins the same drain. -/
lemma execute_plain (h : Akin V w w') {s : Step} (hs : s.isPlain = true) :
    Akin V (w.execute s).1 (w'.execute s).1 ∧
      Effect.Akin looks (w.execute s).2 (w'.execute s).2 := by
  obtain ⟨hworld, heffect⟩ := simulation.execute h hs
  refine ⟨hworld, ?_⟩
  rw [heffect]
  rcases w.effect_of_isPlain hs with ⟨answer, hdone⟩ | ⟨q, henter⟩
  · rw [hdone]
    exact .done answer
  · rw [henter]
    exact .enter (.cons (.drain q 0) .nil)

/-- Whatever its kind, a timer that is asked for gets the same number. -/
lemma execute_schedule (h : Akin V w w') (kind kind' : TimerKind) (timers label : String)
    (delay : Nat) (args : Option (List Datum)) {body body' : List Step}
    (hb : AkinBodies body body') :
    Akin V (w.execute (.schedule kind timers label delay args body)).1
        (w'.execute (.schedule kind' timers label delay args body')).1 ∧
      Effect.Akin looks (w.execute (.schedule kind timers label delay args body)).2
        (w'.execute (.schedule kind' timers label delay args body')).2 := by
  simp only [World.execute, simulation.timers? h]
  cases w.timers? timers with
  | none => exact ⟨h, .done _⟩
  | some t =>
    obtain ⟨hid, hworld⟩ := h.schedule t kind kind' delay (.script label args hb)
    refine ⟨hworld, ?_⟩
    simp only [atOnce, withHandle, hid]
    exact .done _

lemma execute_enqueue (h : Akin V w w') (queue label : String) {body body' : List Step}
    (hb : AkinBodies body body') :
    Akin V (w.execute (.enqueue queue label body)).1 (w'.execute (.enqueue queue label body')).1 ∧
      Effect.Akin looks (w.execute (.enqueue queue label body)).2
        (w'.execute (.enqueue queue label body')).2 := by
  simp only [World.execute, simulation.queue? h]
  cases w.queue? queue with
  | none => exact ⟨h, .done _⟩
  | some q => exact ⟨h.enqueue q (.script label hb), .done _⟩

lemma execute_messageHandler (h : Akin V w w') (as : String) (times : Nat) {body body' : List Step}
    (hb : AkinBodies body body') :
    Akin V (w.execute (.messageHandler as body times)).1
        (w'.execute (.messageHandler as body' times)).1 ∧
      Effect.Akin looks (w.execute (.messageHandler as body times)).2
        (w'.execute (.messageHandler as body' times)).2 :=
  ⟨(h.newHandler (.message as times hb)).bind simulation as .handler, .done _⟩

/-- The same handler is called directly, and runs a body that is akin. -/
lemma execute_callSlot (h : Akin V w w') (slot : Slot) (name : String) (data : Value) :
    Akin V (w.execute (.callSlot slot name data)).1 (w'.execute (.callSlot slot name data)).1 ∧
      Effect.Akin looks (w.execute (.callSlot slot name data)).2
        (w'.execute (.callSlot slot name data)).2 := by
  simp only [World.execute, simulation.worker? h]
  split
  · exact ⟨h, .done _⟩
  · split
    · rename_i text _
      simp only [World.callSlot, h.workers]
      split
      · exact ⟨h, .done _⟩
      · rename_i i _
        cases slot with
        | message =>
          obtain ⟨hbody, hworld⟩ := h.deliver _ i text directOrigin
          exact ⟨hworld, .enter (.cons (.body hbody) (.cons (.reply _ _) .nil))⟩
        | error => exact ⟨h.deliverError _ i text, .done _⟩
    · exact ⟨h, .done _⟩

/-- Steps that are akin do what is akin, and come to the same answer unless they look at registered
timers. -/
theorem execute (h : Akin V w w') {s s' : Step} (hs : s.Akin s') :
    Akin V (w.execute s).1 (w'.execute s').1 ∧
      Effect.Akin (s.LooksAtTimers w) (w.execute s).2 (w'.execute s').2 := by
  cases hs with
  | schedule kind kind' timers label delay args hb =>
    exact h.execute_schedule kind kind' timers label delay args hb
  | enqueue queue label hb => exact h.execute_enqueue queue label hb
  | messageHandler as times hb => exact h.execute_messageHandler as times hb
  | malformed _ _ complaint => exact ⟨h, .done _⟩
  | same s =>
    cases s with
    | schedule kind timers label delay args body =>
      exact h.execute_schedule kind kind timers label delay args (.refl body)
    | enqueue queue label body => exact h.execute_enqueue queue label (.refl body)
    | messageHandler as body times => exact h.execute_messageHandler as times (.refl body)
    | callSlot slot name data => exact h.execute_callSlot slot name data
    | query q => exact ⟨h, h.query q⟩
    | _ => exact h.execute_plain rfl

end Akin

end World

end Session

end Polyfill
