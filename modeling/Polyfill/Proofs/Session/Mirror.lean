import Polyfill.Proofs.Entries
import Polyfill.Proofs.Session.Delays
import Polyfill.Proofs.Session.Part
/-!
# A part of a world on its own

A world mirrors the world of one of its parts (`World.Mirrors`) if it holds what that world holds,
under the same names and under the numbers that the part says.  It may hold much more.

An operation on objects of the part, done in both worlds, keeps the mirror (`World.Couples`): it
does the same to both, writes the same down, and leaves alone whatever the whole holds besides.  So
it cannot be noticed by any other part either (`World.Couples.spares_other`).
-/

namespace Polyfill.Session

/-! ## Lists of objects -/

section Lists

variable {α β : Type} {R : α → β → Prop}

/-- A list and the part of it have changed together, and the rest of the list has not. -/
structure Shifts (R : α → β → Prop) (places places' : List Nat) (whole whole' : List α)
    (part' : List β) : Prop where
  placed : Placed R places' whole' part'
  spares : Spares places places' whole whole'

variable {places places' places'' : List Nat} {whole whole' whole'' : List α}
  {part part' part'' : List β}

lemma Placed.ne_none (h : Placed R places whole part) : ∀ j ∈ places, whole[j]? ≠ none := by
  intro j hj hnone
  obtain ⟨a, ha⟩ := h.exists_of_mem hj
  rw [ha] at hnone
  cases hnone

namespace Shifts

lemma refl (h : Placed R places whole part) : Shifts R places places whole whole part :=
  ⟨h, .refl _ _⟩

lemma trans {R' : α → β → Prop} (h : Shifts R places places' whole whole' part')
    (h' : Shifts R' places' places'' whole' whole'' part'') :
    Shifts R' places places'' whole whole'' part'' :=
  ⟨h'.placed, h.spares.trans h'.spares h.placed.ne_none⟩

lemma modify (h : Placed R places whole part) {i j : Nat} (hi : places[i]? = some j) {f : α → α}
    {g : β → β} (hfg : ∀ a b, R a b → R (f a) (g b)) :
    Shifts R places places whole (whole.modify j f) (part.modify i g) :=
  ⟨h.modify hi hfg, .modify (List.mem_of_getElem? hi) _ _⟩

lemma set (h : Placed R places whole part) {i j : Nat} (hi : places[i]? = some j) {a : α} {b : β}
    (hab : R a b) : Shifts R places places whole (whole.set j a) (part.set i b) :=
  ⟨h.set hi hab, .set (List.mem_of_getElem? hi) _ _⟩

lemma append (h : Placed R places whole part) {a : α} {b : β} (hab : R a b) :
    Shifts R places (places ++ [whole.length]) whole (whole ++ [a]) (part ++ [b]) :=
  ⟨h.append hab, .append _ _ _⟩

end Shifts

/-- The number of a new member of the part is the next one. -/
lemma Placed.getElem?_append (h : Placed R places whole part) :
    (places ++ [whole.length])[part.length]? = some whole.length := by
  rw [← h.length, List.getElem?_concat_length]

end Lists

namespace World

/-! ## Worlds -/

/-- A world holds what the world of a part holds.  That world may also know hosts by names that are
not the part's. -/
structure Mirrors (p : Part) (w v : World) : Prop where
  queues : Placed (List.Forall₂ (Microtask.Mirrors p)) p.queues w.queues v.queues
  timers : Placed (Timers.Mirrors p) p.timers w.timers v.timers
  workers : Placed (Worker.Mirrors p) p.workers w.workers v.workers
  handlers : Placed (Handler.Mirrors p) p.handlers w.handlers v.handlers
  names : List.Forall₂ (Keyed (Handle.Mirrors p)) (w.names.filter fun x => p.own x.1)
    (v.names.filter fun x => p.own x.1)
  guests : ∀ x ∈ v.names, p.own x.1 = true ∨ ∃ h, x.2 = .host h

/-- The same has been written down in both worlds, and no report. -/
def Tells (p : Part) (w v w' v' : World) : Prop :=
  ∃ es es', w'.history = w.history ++ es ∧ v'.history = v.history ++ es' ∧
    List.Forall₂ (Event.Mirrors p) es es' ∧ ∀ e ∈ es, e.outcome? = none

/-- A world and the world of a part have changed together: what they hold in common still is the
same, and whatever else the first world holds has not changed. -/
structure Couples (p : Part) (w v : World) (p' : Part) (w' v' : World) : Prop where
  own : p'.own = p.own
  lent : p'.lent = p.lent
  queues : Shifts (List.Forall₂ (Microtask.Mirrors p')) p.queues p'.queues w.queues w'.queues
    v'.queues
  timers : Shifts (Timers.Mirrors p') p.timers p'.timers w.timers w'.timers v'.timers
  workers : Shifts (Worker.Mirrors p') p.workers p'.workers w.workers w'.workers v'.workers
  handlers : Shifts (Handler.Mirrors p') p.handlers p'.handlers w.handlers w'.handlers v'.handlers
  names : List.Forall₂ (Keyed (Handle.Mirrors p')) (w'.names.filter fun x => p.own x.1)
    (v'.names.filter fun x => p.own x.1)
  guests : ∀ x ∈ v'.names, p.own x.1 = true ∨ ∃ h, x.2 = .host h
  others : w'.names.filter (fun x => !p.own x.1) = w.names.filter fun x => !p.own x.1
  history : Tells p' w v w' v'

variable {p p' p'' : Part} {w v w' v' w'' v'' : World}

lemma Tells.refl : Tells p w v w v :=
  ⟨[], [], (List.append_nil _).symm, (List.append_nil _).symm, .nil, by simp⟩

lemma Tells.trans (hg : p'.Grows p'') (h : Tells p' w v w' v') (h' : Tells p'' w' v' w'' v'') :
    Tells p'' w v w'' v'' := by
  obtain ⟨es₁, es₁', hw₁, hv₁, hes₁, hquiet₁⟩ := h
  obtain ⟨es₂, es₂', hw₂, hv₂, hes₂, hquiet₂⟩ := h'
  refine ⟨es₁ ++ es₂, es₁' ++ es₂', ?_, ?_, ?_, ?_⟩
  · rw [hw₂, hw₁, List.append_assoc]
  · rw [hv₂, hv₁, List.append_assoc]
  · exact List.rel_append (hes₁.imp fun _ _ he => he.mono hg) hes₂
  · intro e he
    rcases List.mem_append.mp he with he | he
    · exact hquiet₁ e he
    · exact hquiet₂ e he

namespace Couples

lemma grows (h : Couples p w v p' w' v') : p.Grows p' :=
  ⟨h.own, h.lent, h.queues.spares.grows, h.timers.spares.grows, h.workers.spares.grows,
    h.handlers.spares.grows⟩

lemma mirrors (h : Couples p w v p' w' v') : Mirrors p' w' v' := by
  refine ⟨h.queues.placed, h.timers.placed, h.workers.placed, h.handlers.placed, ?_, ?_⟩
  · rw [h.own]
    exact h.names
  · rw [h.own]
    exact h.guests

lemma trans (h : Couples p w v p' w' v') (h' : Couples p' w' v' p'' w'' v'') :
    Couples p w v p'' w'' v'' where
  own := h'.own.trans h.own
  lent := h'.lent.trans h.lent
  queues := h.queues.trans h'.queues
  timers := h.timers.trans h'.timers
  workers := h.workers.trans h'.workers
  handlers := h.handlers.trans h'.handlers
  names := by
    rw [← h.own]
    exact h'.names
  guests := by
    rw [← h.own]
    exact h'.guests
  others := by
    have hothers := h'.others
    rw [h.own] at hothers
    exact hothers.trans h.others
  history := h.history.trans h'.grows h'.history

/-- Two parts with different names and different objects do not notice each other. -/
lemma spares_other (h : Couples p w v p' w' v') {q : Part} {u : World} (hq : Mirrors q w u)
    (hown : ∀ n, q.own n = !p.own n) (hapart : p.Apart q) : Mirrors q w' u ∧ p'.Apart q := by
  have hapart' : p'.Apart q :=
    ⟨h.queues.spares.disjoint hapart.queues hq.queues.ne_none,
      h.timers.spares.disjoint hapart.timers hq.timers.ne_none,
      h.workers.spares.disjoint hapart.workers hq.workers.ne_none,
      h.handlers.spares.disjoint hapart.handlers hq.handlers.ne_none⟩
  have hnames : w'.names.filter (fun x => q.own x.1) = w.names.filter fun x => q.own x.1 := by
    simp only [hown]
    exact h.others
  refine ⟨⟨?_, ?_, ?_, ?_, ?_, hq.guests⟩, hapart'⟩
  · exact hq.queues.congr fun j hj => h.queues.spares.spared j fun hmem => hapart'.queues hmem hj
  · exact hq.timers.congr fun j hj => h.timers.spares.spared j fun hmem => hapart'.timers hmem hj
  · exact hq.workers.congr fun j hj =>
      h.workers.spares.spared j fun hmem => hapart'.workers hmem hj
  · exact hq.handlers.congr fun j hj =>
      h.handlers.spares.spared j fun hmem => hapart'.handlers hmem hj
  · rw [hnames]
    exact hq.names

end Couples

namespace Mirrors

/-! ### Growing parts -/

section Grow

variable (h : Mirrors p w v) (hg : p.Grows p')
include h hg

lemma grow_queues : Shifts (List.Forall₂ (Microtask.Mirrors p')) p.queues p.queues w.queues w.queues
    v.queues :=
  .refl (h.queues.mono fun _ _ hl => hl.imp fun _ _ ht => ht.mono hg)

lemma grow_timers : Shifts (Timers.Mirrors p') p.timers p.timers w.timers w.timers v.timers :=
  .refl (h.timers.mono fun _ _ ht => ht.mono hg)

lemma grow_workers :
    Shifts (Worker.Mirrors p') p.workers p.workers w.workers w.workers v.workers :=
  .refl (h.workers.mono fun _ _ hk => hk.mono hg)

lemma grow_handlers :
    Shifts (Handler.Mirrors p') p.handlers p.handlers w.handlers w.handlers v.handlers :=
  .refl (h.handlers.mono fun _ _ hh => hh.mono hg)

lemma grow_names : List.Forall₂ (Keyed (Handle.Mirrors p')) (w.names.filter fun x => p.own x.1)
    (v.names.filter fun x => p.own x.1) :=
  h.names.imp fun _ _ hx => ⟨hx.1, hx.2.mono hg⟩

end Grow

/-- Nothing happens in either world. -/
lemma couples (h : Mirrors p w v) : Couples p w v p w v where
  own := rfl
  lent := rfl
  queues := h.grow_queues (.refl p)
  timers := h.grow_timers (.refl p)
  workers := h.grow_workers (.refl p)
  handlers := h.grow_handlers (.refl p)
  names := h.names
  guests := h.guests
  others := rfl
  history := .refl

/-! ### Looking at objects -/

lemma handle? (h : Mirrors p w v) {name : String} (hn : p.own name = true) :
    Option.Rel (Handle.Mirrors p) (w.handle? name) (v.handle? name) := by
  have hlookup := rel_lookup h.names name
  rwa [lookup_filter_key p.own w.names hn, lookup_filter_key p.own v.names hn] at hlookup

section Lookup

variable (h : Mirrors p w v) {name : String} (hn : p.own name = true)
include h hn

lemma queue? : Option.Rel (fun j i => p.queues[i]? = some j) (w.queue? name) (v.queue? name) := by
  unfold World.queue?
  rcases rel_cases (h.handle? hn) with ⟨hw, hv⟩ | ⟨x, y, hw, hv, hxy⟩
  · rw [hw, hv]
    exact .none
  · rw [hw, hv]
    cases hxy with
    | queue hi => exact .some hi
    | _ => exact .none

lemma timers? :
    Option.Rel (fun j i => p.timers[i]? = some j) (w.timers? name) (v.timers? name) := by
  unfold World.timers?
  rcases rel_cases (h.handle? hn) with ⟨hw, hv⟩ | ⟨x, y, hw, hv, hxy⟩
  · rw [hw, hv]
    exact .none
  · rw [hw, hv]
    cases hxy with
    | timers hi => exact .some hi
    | _ => exact .none

lemma worker? :
    Option.Rel (fun j i => p.workers[i]? = some j) (w.worker? name) (v.worker? name) := by
  unfold World.worker?
  rcases rel_cases (h.handle? hn) with ⟨hw, hv⟩ | ⟨x, y, hw, hv, hxy⟩
  · rw [hw, hv]
    exact .none
  · rw [hw, hv]
    cases hxy with
    | worker hi => exact .some hi
    | _ => exact .none

lemma handler? :
    Option.Rel (fun j i => p.handlers[i]? = some j) (w.handler? name) (v.handler? name) := by
  unfold World.handler?
  rcases rel_cases (h.handle? hn) with ⟨hw, hv⟩ | ⟨x, y, hw, hv, hxy⟩
  · rw [hw, hv]
    exact .none
  · rw [hw, hv]
    cases hxy with
    | handler hi => exact .some hi
    | _ => exact .none

/-- An environment has the same host and the same ops, and the same queue and timers. -/
lemma environment_cases : (w.environment? name = none ∧ v.environment? name = none) ∨
    ∃ env q q' t t', w.environment? name = some (env, q, t) ∧
      v.environment? name = some (env, q', t') ∧ p.queues[q']? = some q ∧
      p.timers[t']? = some t := by
  unfold World.environment?
  rcases rel_cases (h.handle? hn) with ⟨hw, hv⟩ | ⟨x, y, hw, hv, hxy⟩
  · rw [hw, hv]
    exact Or.inl ⟨rfl, rfl⟩
  · rw [hw, hv]
    cases hxy with
    | environment env hq ht => exact Or.inr ⟨env, _, _, _, _, rfl, rfl, hq, ht⟩
    | _ => exact Or.inl ⟨rfl, rfl⟩

lemma host? : w.host? name = v.host? name := by
  unfold World.host?
  rcases rel_cases (h.handle? hn) with ⟨hw, hv⟩ | ⟨x, y, hw, hv, hxy⟩
  · rw [hw, hv]
  · rw [hw, hv]
    cases hxy <;> rfl

lemma drainable? :
    Option.Rel (fun j i => p.queues[i]? = some j) (w.drainable? name) (v.drainable? name) := by
  unfold World.drainable?
  rcases rel_cases (h.handle? hn) with ⟨hw, hv⟩ | ⟨x, y, hw, hv, hxy⟩
  · rw [hw, hv]
    exact .none
  · rw [hw, hv]
    cases hxy with
    | queue hi => exact .some hi
    | environment env hq _ => exact .some hq
    | _ => exact .none

end Lookup

lemma tasks (h : Mirrors p w v) {q q' : QueueId} (hq : p.queues[q']? = some q) :
    List.Forall₂ (Microtask.Mirrors p) (w.tasks q) (v.tasks q') := by
  obtain ⟨l, l', hl, hl', hll⟩ := h.queues.get hq
  rw [World.tasks, World.tasks, List.getD_eq_getElem?_getD, List.getD_eq_getElem?_getD, hl, hl']
  exact hll

lemma registry (h : Mirrors p w v) {t t' : TimersId} (ht : p.timers[t']? = some t) :
    Registry.Rel (Callback.Mirrors p) (w.registry t) (v.registry t') := by
  obtain ⟨a, b, ha, hb, hab⟩ := h.timers.get ht
  rw [World.registry, World.registry, ha, hb]
  exact hab.registry

lemma queueOf (h : Mirrors p w v) {t t' : TimersId} (ht : p.timers[t']? = some t) :
    p.queues[v.queueOf t']? = some (w.queueOf t) := by
  obtain ⟨a, b, ha, hb, hab⟩ := h.timers.get ht
  rw [World.queueOf, World.queueOf, ha, hb]
  exact hab.queue

/-- What a report shows of an object of the part. -/
lemma stateOf? (h : Mirrors p w v) {x y : Handle} (hxy : x.Mirrors p y) :
    w.stateOf? x = v.stateOf? y := by
  cases hxy with
  | queue hi => exact congrArg (fun n => some (Datum.nat n)) (h.tasks hi).length_eq
  | timers hi => exact congrArg (fun n => some (Datum.nat n)) (h.registry hi).size
  | worker hi =>
    obtain ⟨a, b, ha, hb, hab⟩ := h.workers.get hi
    have hmessage : a.onmessage.isSome = b.onmessage.isSome :=
      isSome_eq_of_rel (hab.slot .message)
    have herror : a.onerror.isSome = b.onerror.isSome := isSome_eq_of_rel (hab.slot .error)
    simp only [World.stateOf?, ha, hb, Option.map_some, hab.terminated, hmessage, herror]
  | _ => rfl

/-- The world of the part shows what the whole shows of it. -/
lemma state (h : Mirrors p w v) : v.state = w.state.filter fun x => p.own x.1 := by
  have hpart : v.state = (v.names.filter fun x => p.own x.1).filterMap fun x =>
      (v.stateOf? x.2).map fun d => (x.1, d) := by
    rw [List.filterMap_filter, World.state]
    refine List.filterMap_congr fun x hx => ?_
    -- Hosts do not show.
    rcases h.guests x hx with hown | ⟨host, hhost⟩
    · rw [if_pos hown]
    · rw [hhost]
      split <;> rfl
  have hwhole : w.state.filter (fun x => p.own x.1) =
      (w.names.filter fun x => p.own x.1).filterMap fun x =>
        (w.stateOf? x.2).map fun d => (x.1, d) := by
    rw [List.filterMap_filter, World.state, List.filter_filterMap]
    refine List.filterMap_congr fun x _ => ?_
    cases w.stateOf? x.2 with
    | none => simp
    | some d =>
      simp only [Option.map_some, Option.filter_some]
  rw [hpart, hwhole]
  have hnames := h.names
  generalize w.names.filter (fun x => p.own x.1) = l at hnames
  generalize v.names.filter (fun x => p.own x.1) = l' at hnames
  induction hnames with
  | nil => rfl
  | cons hxy _ ih =>
    obtain ⟨hname, hhandle⟩ := hxy
    rw [List.filterMap_cons, List.filterMap_cons, hname, h.stateOf? hhandle, ih]

/-! ### History and names -/

lemma log (h : Mirrors p w v) {e e' : Event} (he : e.Mirrors p e') (hquiet : e.outcome? = none) :
    Couples p w v p (w.log e) (v.log e') :=
  { h.couples with
    history := ⟨[e], [e'], rfl, rfl, .cons he .nil, by simpa using hquiet⟩ }

lemma note (h : Mirrors p w v) (n : Note) : Couples p w v p (w.note n) (v.note n) :=
  h.log (.note n) rfl

/-- An act does the same in both worlds if it comes to the same outcome and leaves the same
notes. -/
lemma perform {α : Type} (h : Mirrors p w v) {act : Act α}
    (houtcome : (act.perform ⟨w.entropy, []⟩).1 = (act.perform ⟨v.entropy, []⟩).1)
    (hnotes : (act.perform ⟨w.entropy, []⟩).2.notes = (act.perform ⟨v.entropy, []⟩).2.notes) :
    (w.perform act).1 = (v.perform act).1 ∧
      Couples p w v p (w.perform act).2 (v.perform act).2 := by
  have hevents : List.Forall₂ (Event.Mirrors p)
      ((act.perform ⟨w.entropy, []⟩).2.notes.map Event.note)
      ((act.perform ⟨v.entropy, []⟩).2.notes.map Event.note) := by
    rw [hnotes, List.forall₂_map_left_iff, List.forall₂_map_right_iff]
    exact List.forall₂_same.mpr fun n _ => .note n
  refine ⟨houtcome, { h.couples with history := ⟨_, _, rfl, rfl, hevents, ?_⟩ }⟩
  intro e he
  obtain ⟨n, -, rfl⟩ := List.mem_map.mp he
  rfl

/-- A name of the part is none of the other names. -/
lemma filter_others (own : String → Bool) (l : List (String × Handle)) {name : String}
    (hn : own name = true) :
    (l.filter fun x => x.1 != name).filter (fun x => !own x.1) = l.filter fun x => !own x.1 := by
  rw [List.filter_filter]
  refine List.filter_congr fun x _ => ?_
  by_cases hx : x.1 = name
  · simp [hx, hn]
  · simp [hx]

lemma filter_own (own : String → Bool) (l : List (String × Handle)) (name : String) :
    (l.filter fun x => x.1 != name).filter (fun x => own x.1) =
      (l.filter fun x => own x.1).filter fun x => x.1 != name := by
  rw [List.filter_filter, List.filter_filter]
  exact List.filter_congr fun x _ => Bool.and_comm _ _

lemma forget (h : Mirrors p w v) {name : String} (hn : p.own name = true) :
    Couples p w v p (w.forget name) (v.forget name) := by
  have hnames : List.Forall₂ (Keyed (Handle.Mirrors p))
      ((w.names.filter fun x => x.1 != name).filter fun x => p.own x.1)
      ((v.names.filter fun x => x.1 != name).filter fun x => p.own x.1) := by
    rw [filter_own, filter_own]
    exact rel_filter_key h.names (· != name)
  refine { h.couples with names := hnames, guests := ?_, others := filter_others _ _ hn }
  intro x hx
  exact h.guests x (List.mem_filter.mp hx).1

lemma bind (h : Mirrors p w v) {name : String} (hn : p.own name = true) {x y : Handle}
    (hxy : x.Mirrors p y) : Couples p w v p (w.bind name x) (v.bind name y) := by
  have hforget := h.forget hn
  refine { hforget with names := ?_, guests := ?_, others := ?_ }
  · have hnew : ∀ (z : Handle) (l : List (String × Handle)),
        ((name, z) :: l).filter (fun x => p.own x.1) =
          (name, z) :: l.filter fun x => p.own x.1 := fun _ _ => List.filter_cons_of_pos hn
    simp only [World.bind, hnew]
    exact .cons ⟨rfl, hxy⟩ hforget.names
  · intro z hz
    rcases List.mem_cons.mp hz with rfl | hz
    · exact Or.inl hn
    · exact hforget.guests z hz
  · simp only [World.bind]
    rw [List.filter_cons_of_neg (by simp [hn])]
    exact hforget.others

/-! ### Queues and timers -/

lemma newQueue (h : Mirrors p w v) :
    Couples p w v (p.addQueue w.queues.length) w.newQueue.2 v.newQueue.2 := by
  have hg := p.grows_addQueue w.queues.length
  exact { h.couples with
    queues := .append (h.grow_queues hg).placed .nil
    timers := h.grow_timers hg
    workers := h.grow_workers hg
    handlers := h.grow_handlers hg
    names := h.grow_names hg
    history := .refl }

lemma newTimers (h : Mirrors p w v) {q q' : QueueId} (hq : p.queues[q']? = some q) (owned : Bool) :
    Couples p w v (p.addTimers w.timers.length) (w.newTimers q owned).2
      (v.newTimers q' owned).2 := by
  have hg := p.grows_addTimers w.timers.length
  exact { h.couples with
    queues := h.grow_queues hg
    timers := .append (h.grow_timers hg).placed ⟨.empty, hq, rfl⟩
    workers := h.grow_workers hg
    handlers := h.grow_handlers hg
    names := h.grow_names hg
    history := .refl }

lemma enqueue (h : Mirrors p w v) {q q' : QueueId} (hq : p.queues[q']? = some q)
    {task task' : Microtask} (ht : task.Mirrors p task') :
    Couples p w v p (w.enqueue q task) (v.enqueue q' task') := by
  have hqueues : Couples p w v p { w with queues := w.queues.modify q (· ++ [task]) }
      { v with queues := v.queues.modify q' (· ++ [task']) } :=
    { h.couples with
      queues := .modify h.queues hq fun _ _ hl => List.rel_append hl (.cons ht .nil) }
  exact hqueues.trans (hqueues.mirrors.log (.enqueued hq ht) rfl)

/-- The same task is taken, or none. -/
lemma pop (h : Mirrors p w v) {q q' : QueueId} (hq : p.queues[q']? = some q) :
    (w.pop q = none ∧ v.pop q' = none) ∨
      ∃ task task' w' v', w.pop q = some (task, w') ∧ v.pop q' = some (task', v') ∧
        task.Mirrors p task' ∧ Couples p w v p w' v' := by
  have htasks := h.tasks hq
  unfold World.pop
  generalize w.tasks q = l at htasks
  generalize v.tasks q' = l' at htasks
  cases htasks with
  | nil => exact Or.inl ⟨rfl, rfl⟩
  | @cons task task' rest rest' ht hrest =>
    refine Or.inr ⟨task, task', _, _, rfl, rfl, ht, ?_⟩
    have hqueues : Couples p w v p { w with queues := w.queues.set q rest }
        { v with queues := v.queues.set q' rest' } :=
      { h.couples with queues := .set h.queues hq hrest }
    exact hqueues.trans (hqueues.mirrors.log (.started hq ht) rfl)

section Timers

variable (h : Mirrors p w v) {t t' : TimersId} (ht : p.timers[t']? = some t)
include h ht

lemma updateRegistry {f : Registry Callback → Registry Callback}
    {g : Registry Callback → Registry Callback}
    (hfg : ∀ r r', Registry.Rel (Callback.Mirrors p) r r' →
      Registry.Rel (Callback.Mirrors p) (f r) (g r')) :
    Couples p w v p (w.updateRegistry t f) (v.updateRegistry t' g) :=
  { h.couples with
    timers := .modify h.timers ht fun _ _ hab => ⟨hfg _ _ hab.registry, hab.queue, hab.owned⟩ }

/-- A timer gets the same number in both worlds. -/
lemma schedule (kind : TimerKind) (delay : Nat) {c c' : Callback} (hc : c.Mirrors p c') :
    (w.schedule t kind delay c).1 = (v.schedule t' kind delay c').1 ∧
      Couples p w v p (w.schedule t kind delay c).2 (v.schedule t' kind delay c').2 := by
  have hlast : (w.registry t).last = (v.registry t').last := (h.registry ht).last
  refine ⟨congrArg (· + 1) hlast, ?_⟩
  simp only [World.schedule, hlast]
  generalize (v.registry t').last + 1 = id
  have hregistry := h.updateRegistry ht
    (f := (·.schedule kind c)) (g := (·.schedule kind c')) fun _ _ hr => hr.schedule kind hc
  have hlog := hregistry.trans (hregistry.mirrors.log (.scheduled id kind ht hc) rfl)
  have hdebug := hlog.trans (hlog.mirrors.note
    (.debug ("Timer " ++ timerText id ++ " scheduled (" ++ kind.label ++ ")")))
  have htrace := hdebug.trans (hdebug.mirrors.note
    (.trace ("Timer " ++ timerText id ++ ": delay of " ++ toString delay ++ " ms ignored")))
  exact htrace.trans (htrace.mirrors.enqueue (htrace.mirrors.queueOf ht) (.fire ht))

lemma cancel (id : Nat) : Couples p w v p (w.cancel t id) (v.cancel t' id) := by
  have hregistered : ((w.registry t).find? id).isSome = ((v.registry t').find? id).isSome :=
    isSome_eq_of_rel ((h.registry ht).find? id)
  have hregistry := h.updateRegistry ht
    (f := (·.remove id)) (g := (·.remove id)) fun _ _ hr => hr.remove id
  have hlog := hregistry.trans (hregistry.mirrors.log (.cancelled id ht) rfl)
  simp only [World.cancel, hregistered]
  split
  · exact hlog.trans (hlog.mirrors.note _)
  · exact hlog

/-- The same timers may fire. -/
lemma fire (id : Nat) : (w.fire t id = none ∧ v.fire t' id = none) ∨
    ∃ kind c c' w' v', w.fire t id = some (kind, c, w') ∧ v.fire t' id = some (kind, c', v') ∧
      c.Mirrors p c' ∧ Couples p w v p w' v' := by
  unfold World.fire
  rcases rel_cases ((h.registry ht).pending? id) with ⟨hw, hv⟩ | ⟨x, y, hw, hv, hxy⟩
  · rw [hw, hv]
    exact Or.inl ⟨rfl, rfl⟩
  · rw [hw, hv]
    obtain ⟨kind, c⟩ := x
    obtain ⟨kind', c'⟩ := y
    obtain ⟨hkind, hc⟩ := hxy
    obtain rfl : kind = kind' := hkind
    have hregistry := h.updateRegistry ht
      (f := (·.markFired id)) (g := (·.markFired id)) fun _ _ hr => hr.markFired id
    exact Or.inr ⟨kind, c, c', _, _, rfl, rfl, hc,
      hregistry.trans (hregistry.mirrors.log (.fired id ht hc) rfl)⟩

lemma settle (id : Nat) (kind : TimerKind) :
    Couples p w v p (w.settle t id kind) (v.settle t' id kind) := by
  have hregistry := h.updateRegistry ht
    (f := (·.settle id kind)) (g := (·.settle id kind)) fun _ _ hr => hr.settle id kind
  exact hregistry.trans (hregistry.mirrors.log (.settled id ht) rfl)

end Timers

/-! ### Workers and handlers -/

lemma newWorker (h : Mirrors p w v) {a b : Worker} (hab : Worker.Mirrors p a b) :
    Couples p w v (p.addWorker w.workers.length) (w.newWorker a).2 (v.newWorker b).2 := by
  have hg := p.grows_addWorker w.workers.length
  exact { h.couples with
    queues := h.grow_queues hg
    timers := h.grow_timers hg
    workers := .append (h.grow_workers hg).placed (hab.mono hg)
    handlers := h.grow_handlers hg
    names := h.grow_names hg
    history := .refl }

lemma newHandler (h : Mirrors p w v) (handler : Handler) (hwithin : handler.Within p) :
    Couples p w v (p.addHandler w.handlers.length) (w.newHandler handler).2
      (v.newHandler handler).2 := by
  have hg := p.grows_addHandler w.handlers.length
  exact { h.couples with
    queues := h.grow_queues hg
    timers := h.grow_timers hg
    workers := h.grow_workers hg
    handlers := .append (h.grow_handlers hg).placed (Handler.Mirrors.mono hg ⟨rfl, hwithin⟩)
    names := h.grow_names hg
    history := .refl }

section Workers

variable (h : Mirrors p w v) {k k' : WorkerId} (hk : p.workers[k']? = some k)
include h hk

lemma updateWorker {f g : Worker → Worker}
    (hfg : ∀ a b, Worker.Mirrors p a b → Worker.Mirrors p (f a) (g b)) :
    Couples p w v p (w.updateWorker k f) (v.updateWorker k' g) :=
  { h.couples with workers := .modify h.workers hk hfg }

lemma post (data : String) : (w.post k data).1 = (v.post k' data).1 ∧
    Couples p w v p (w.post k data).2 (v.post k' data).2 := by
  obtain ⟨a, b, ha, hb, hab⟩ := h.workers.get hk
  have hsome : a.onmessage.isSome = b.onmessage.isSome := isSome_eq_of_rel (hab.slot .message)
  have hnone : a.onmessage.isNone = b.onmessage.isNone := by
    rw [← Option.not_isSome, ← Option.not_isSome, hsome]
  simp only [World.post, ha, hb, hab.terminated, hnone, hab.id]
  split
  · exact ⟨rfl, h.couples⟩
  · split
    · exact ⟨rfl, h.note _⟩
    · exact ⟨rfl, (h.schedule hab.timers .timeout 0 (.delivery hk)).2⟩

lemma terminate : Couples p w v p (w.terminate k) (v.terminate k') := by
  obtain ⟨a, b, ha, hb, hab⟩ := h.workers.get hk
  simp only [World.terminate, ha, hb, hab.terminated, hab.id]
  split
  · exact h.couples
  · have hworker := h.updateWorker hk (f := Worker.terminate) (g := Worker.terminate)
      fun _ _ hxy => ⟨hxy.id, hxy.url, hxy.timers, rfl, fun slot => by
        have hslot := hxy.slot slot
        cases slot <;> exact hslot⟩
    exact hworker.trans (hworker.mirrors.note _)

/-- The same handler is called, and runs the same body. -/
lemma deliver {i i' : HandlerId} (hi : p.handlers[i']? = some i) (data origin : String) :
    (w.deliver k i data origin).1 = (v.deliver k' i' data origin).1 ∧
      p.covers (v.deliver k' i' data origin).1 ∧
      Couples p w v p (w.deliver k i data origin).2 (v.deliver k' i' data origin).2 := by
  obtain ⟨a, b, ha, hb, hab⟩ := h.handlers.get hi
  obtain ⟨rfl, hwithin⟩ := hab
  obtain ⟨name, role⟩ := a
  have hlog := h.log (.message name data origin hk hi) rfl
  have hnil : p.covers [] := by simp [Part.covers, allWithin]
  simp only [World.deliver, ha, hb]
  cases role with
  | error => exact ⟨rfl, hnil, hlog⟩
  | message body allowance =>
    cases allowance with
    | zero => exact ⟨rfl, hnil, hlog⟩
    | succ allowance =>
      have hset : Couples p w v p
          { w with handlers := w.handlers.set i ⟨name, .message body allowance⟩ }
          { v with handlers := v.handlers.set i' ⟨name, .message body allowance⟩ } :=
        { h.couples with handlers := .set h.handlers hi ⟨rfl, hwithin⟩ }
      exact ⟨rfl, hwithin, hset.trans (hset.mirrors.log (.message name data origin hk hi) rfl)⟩

lemma deliverError {i i' : HandlerId} (hi : p.handlers[i']? = some i) (message : String) :
    Couples p w v p (w.deliverError k i message) (v.deliverError k' i' message) := by
  obtain ⟨a, b, ha, hb, hab⟩ := h.handlers.get hi
  obtain ⟨rfl, -⟩ := hab
  simp only [World.deliverError, ha, hb]
  exact h.log (.failure a.name message hk hi) rfl

end Workers

end Mirrors

end World

end Polyfill.Session
