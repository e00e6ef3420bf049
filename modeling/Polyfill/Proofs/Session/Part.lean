import Mathlib.Data.List.Forall2
import Mathlib.Data.List.Nodup
import Mathlib.Data.Option.Basic
import Mathlib.Tactic.Common
import Polyfill.Session.Machine
/-!
# Parts of a world

A session may use several groups of objects that have nothing to do with each other.  Such a part
of a session (`Part`) is known by the names it uses and by the numbers under which the world of the
session has its objects.  In a session that has nothing but this part, the same objects have numbers
of their own, counted from zero without gaps.

Whatever holds numbers or steps is mirrored from the whole in the part: the numbers are those of the
same objects, and all steps use the names of the part only.  For lists of objects this is `Placed`.
-/

namespace Polyfill

/-! ## Related options and lists -/

section Related

variable {α β : Type} {R : α → β → Prop}

/-- Related options are both empty, or they hold related values. -/
lemma rel_cases {x : Option α} {y : Option β} (h : Option.Rel R x y) :
    (x = none ∧ y = none) ∨ ∃ a b, x = some a ∧ y = some b ∧ R a b := by
  cases h with
  | none => exact Or.inl ⟨rfl, rfl⟩
  | some hab => exact Or.inr ⟨_, _, rfl, rfl, hab⟩

lemma isSome_eq_of_rel {x : Option α} {y : Option β} (h : Option.Rel R x y) :
    x.isSome = y.isSome := by
  cases h <;> rfl

/-- Each member of one of two related lists is related to a member of the other one. -/
lemma exists_of_forall₂ {l : List α} {l' : List β} (h : List.Forall₂ R l l') :
    (∀ a ∈ l, ∃ b ∈ l', R a b) ∧ ∀ b ∈ l', ∃ a ∈ l, R a b := by
  induction h with
  | nil => simp
  | @cons a b l l' hab _ ih =>
    refine ⟨fun x hx => ?_, fun y hy => ?_⟩
    · rcases List.mem_cons.mp hx with rfl | hx
      · exact ⟨b, List.mem_cons_self, hab⟩
      · obtain ⟨y, hy, hxy⟩ := ih.1 x hx
        exact ⟨y, List.mem_cons_of_mem _ hy, hxy⟩
    · rcases List.mem_cons.mp hy with rfl | hy
      · exact ⟨a, List.mem_cons_self, hab⟩
      · obtain ⟨x, hx, hxy⟩ := ih.2 y hy
        exact ⟨x, List.mem_cons_of_mem _ hx, hxy⟩

end Related

section Keyed

variable {κ α β : Type}

/-- Two pairs have the same key and related values. -/
def Keyed (R : α → β → Prop) (x : κ × α) (y : κ × β) : Prop :=
  x.1 = y.1 ∧ R x.2 y.2

variable {R : α → β → Prop} {l : List (κ × α)} {l' : List (κ × β)}

lemma rel_lookup [BEq κ] (h : List.Forall₂ (Keyed R) l l') (k : κ) :
    Option.Rel R (l.lookup k) (l'.lookup k) := by
  induction h with
  | nil => exact .none
  | @cons x y _ _ hxy _ ih =>
    obtain ⟨hkey, hvalue⟩ := hxy
    rw [List.lookup_cons, List.lookup_cons, hkey]
    split
    · exact .some hvalue
    · exact ih

lemma rel_filter_key (h : List.Forall₂ (Keyed R) l l') (f : κ → Bool) :
    List.Forall₂ (Keyed R) (l.filter fun x => f x.1) (l'.filter fun y => f y.1) :=
  List.rel_filter (fun x y hxy => by simp only [hxy.1]) h

end Keyed

/-! ## Timers and registries -/

section Registry

variable {κ κ' : Type} {R : κ → κ' → Prop}

/-- Two timers are of one kind and have come equally far, with related callbacks. -/
inductive Timer.Rel (R : κ → κ' → Prop) : Timer κ → Timer κ' → Prop
  | pending {kind : TimerKind} {c : κ} {c' : κ'} (h : R c c') :
      Rel R ⟨kind, .pending c⟩ ⟨kind, .pending c'⟩
  | fired {kind : TimerKind} : Rel R ⟨kind, .fired⟩ ⟨kind, .fired⟩

lemma Timer.Rel.status_label {t : Timer κ} {t' : Timer κ'} (h : Timer.Rel R t t') :
    t.status.label = t'.status.label := by
  cases h with
  | pending => rfl
  | fired => rfl

lemma Timer.Rel.fire {t : Timer κ} {t' : Timer κ'} (h : Timer.Rel R t t') :
    Timer.Rel R t.fire t'.fire := by
  cases h with
  | pending => exact .fired
  | fired => exact .fired

lemma Timer.Rel.mono {R' : κ → κ' → Prop} (hR : ∀ c c', R c c' → R' c c') {t : Timer κ}
    {t' : Timer κ'} (h : Timer.Rel R t t') : Timer.Rel R' t t' := by
  cases h with
  | pending h => exact .pending (hR _ _ h)
  | fired => exact .fired

/-- Two registries have given out the same numbers and hold related timers under them. -/
structure Registry.Rel (R : κ → κ' → Prop) (r : Registry κ) (r' : Registry κ') : Prop where
  last : r.last = r'.last
  timers : List.Forall₂ (Keyed (Timer.Rel R)) r.timers r'.timers

namespace Registry.Rel

variable {r : Registry κ} {r' : Registry κ'}

lemma empty : Rel R (Registry.empty : Registry κ) (Registry.empty : Registry κ') :=
  ⟨rfl, .nil⟩

lemma mono {R' : κ → κ' → Prop} (hR : ∀ c c', R c c' → R' c c') (h : Rel R r r') : Rel R' r r' :=
  ⟨h.last, h.timers.imp fun _ _ hx => ⟨hx.1, hx.2.mono hR⟩⟩

lemma size (h : Rel R r r') : r.size = r'.size :=
  h.timers.length_eq

lemma find? (h : Rel R r r') (id : Nat) : Option.Rel (Timer.Rel R) (r.find? id) (r'.find? id) :=
  rel_lookup h.timers id

lemma pending? (h : Rel R r r') (id : Nat) :
    Option.Rel (Keyed R) (r.pending? id) (r'.pending? id) := by
  unfold Registry.pending?
  rcases rel_cases (h.find? id) with ⟨hr, hr'⟩ | ⟨t, t', hr, hr', ht⟩
  · rw [hr, hr']
    exact .none
  · rw [hr, hr']
    cases ht with
    | pending hc => exact .some ⟨rfl, hc⟩
    | fired => exact .none

lemma schedule (h : Rel R r r') (kind : TimerKind) {c : κ} {c' : κ'} (hc : R c c') :
    Rel R (r.schedule kind c) (r'.schedule kind c') := by
  refine ⟨congrArg (· + 1) h.last, ?_⟩
  exact List.rel_append h.timers (.cons ⟨congrArg (· + 1) h.last, .pending hc⟩ .nil)

lemma remove (h : Rel R r r') (id : Nat) : Rel R (r.remove id) (r'.remove id) :=
  ⟨h.last, rel_filter_key h.timers (· != id)⟩

lemma markFired (h : Rel R r r') (id : Nat) : Rel R (r.markFired id) (r'.markFired id) := by
  refine ⟨h.last, ?_⟩
  refine List.rel_map (R := Keyed (Timer.Rel R)) (P := Keyed (Timer.Rel R)) ?_ h.timers
  rintro ⟨i, t⟩ ⟨i', t'⟩ ⟨hi, ht⟩
  obtain rfl : i = i' := hi
  unfold fireEntry
  split
  · exact ⟨rfl, ht.fire⟩
  · exact ⟨rfl, ht⟩

lemma settle (h : Rel R r r') (id : Nat) (kind : TimerKind) :
    Rel R (r.settle id kind) (r'.settle id kind) := by
  cases kind with
  | timeout => exact h.remove id
  | interval => exact h

end Registry.Rel

end Registry

namespace Session

/-! ## Lists within lists -/

section Lists

variable {α β : Type}

/-- The members of a list stand in another one: what has the number `i` in the part has the number
`places[i]` in the whole, and the two are related. -/
structure Placed (R : α → β → Prop) (places : List Nat) (whole : List α) (part : List β) :
    Prop where
  nodup : places.Nodup
  length : places.length = part.length
  get : ∀ {i j : Nat}, places[i]? = some j →
    ∃ a b, whole[j]? = some a ∧ part[i]? = some b ∧ R a b

/-- A list has changed at some places only, and places that came to those were free before. -/
structure Spares (places places' : List Nat) (l l' : List α) : Prop where
  grows : places <+: places'
  fresh : ∀ j ∈ places', j ∈ places ∨ l[j]? = none
  spared : ∀ j ∉ places', l'[j]? = l[j]?

namespace Placed

variable {R : α → β → Prop} {places : List Nat} {whole : List α} {part : List β} {i j : Nat}

lemma nil : Placed R [] ([] : List α) ([] : List β) :=
  ⟨List.nodup_nil, rfl, by simp⟩

lemma exists_of_mem (h : Placed R places whole part) (hj : j ∈ places) :
    ∃ a, whole[j]? = some a := by
  obtain ⟨i, hi⟩ := List.mem_iff_getElem?.mp hj
  obtain ⟨a, -, ha, -⟩ := h.get hi
  exact ⟨a, ha⟩

/-- One number in the whole is one number in the part. -/
lemma inj (h : Placed R places whole part) {i' : Nat} (hi : places[i]? = some j)
    (hi' : places[i']? = some j) : i = i' := by
  have hlt : i < places.length := (List.getElem?_eq_some_iff.mp hi).1
  exact (List.getElem?_inj hlt h.nodup).mp (hi.trans hi'.symm)

lemma mono {R' : α → β → Prop} (hR : ∀ a b, R a b → R' a b) (h : Placed R places whole part) :
    Placed R' places whole part := by
  refine ⟨h.nodup, h.length, fun hi => ?_⟩
  obtain ⟨a, b, ha, hb, hab⟩ := h.get hi
  exact ⟨a, b, ha, hb, hR a b hab⟩

/-- What stands elsewhere may change. -/
lemma congr (h : Placed R places whole part) {whole' : List α}
    (hw : ∀ j ∈ places, whole'[j]? = whole[j]?) : Placed R places whole' part := by
  refine ⟨h.nodup, h.length, fun {i j} hi => ?_⟩
  rw [hw j (List.mem_of_getElem? hi)]
  exact h.get hi

lemma modify (h : Placed R places whole part) (hi : places[i]? = some j) {f : α → α} {g : β → β}
    (hfg : ∀ a b, R a b → R (f a) (g b)) :
    Placed R places (whole.modify j f) (part.modify i g) := by
  refine ⟨h.nodup, by rw [List.length_modify, h.length], fun {i' j'} hi' => ?_⟩
  obtain ⟨a, b, ha, hb, hab⟩ := h.get hi'
  rw [List.getElem?_modify, List.getElem?_modify, ha, hb]
  by_cases hj : j = j'
  · subst hj
    obtain rfl := h.inj hi hi'
    exact ⟨f a, g b, by simp, by simp, hfg a b hab⟩
  · have hne : i ≠ i' := by
      rintro rfl
      exact hj (Option.some.inj (hi.symm.trans hi'))
    exact ⟨a, b, by simp [hj], by simp [hne], hab⟩

lemma set (h : Placed R places whole part) (hi : places[i]? = some j) {a : α} {b : β}
    (hab : R a b) : Placed R places (whole.set j a) (part.set i b) := by
  have hmodify := h.modify (f := fun _ => a) (g := fun _ => b) hi fun _ _ _ => hab
  rwa [← List.set_eq_modify, ← List.set_eq_modify] at hmodify

/-- A new member of the part is the new member of the whole. -/
lemma append (h : Placed R places whole part) {a : α} {b : β} (hab : R a b) :
    Placed R (places ++ [whole.length]) (whole ++ [a]) (part ++ [b]) := by
  have hlt : ∀ j ∈ places, j < whole.length := by
    intro j hj
    obtain ⟨a, ha⟩ := h.exists_of_mem hj
    exact (List.getElem?_eq_some_iff.mp ha).1
  refine ⟨?_, by simp [h.length], fun {i j} hi => ?_⟩
  · have hnew : whole.length ∉ places := fun hmem => Nat.lt_irrefl _ (hlt _ hmem)
    exact h.nodup.append (List.nodup_singleton _) (List.disjoint_singleton.mpr hnew)
  · by_cases hold : i < places.length
    · rw [List.getElem?_append_left hold] at hi
      obtain ⟨a', b', ha', hb', hab'⟩ := h.get hi
      rw [List.getElem?_append_left (List.getElem?_eq_some_iff.mp ha').1,
        List.getElem?_append_left (List.getElem?_eq_some_iff.mp hb').1]
      exact ⟨a', b', ha', hb', hab'⟩
    · rw [List.getElem?_append_right (Nat.le_of_not_lt hold), List.getElem?_singleton] at hi
      split at hi
      · rename_i heq
        obtain rfl := Option.some.inj hi
        have hi' : i = part.length := by
          have := h.length
          omega
        exact ⟨a, b, by simp, by simp [hi'], hab⟩
      · cases hi

end Placed

namespace Spares

variable {places places' places'' : List Nat} {l l' l'' : List α} {j : Nat}

lemma refl (places : List Nat) (l : List α) : Spares places places l l :=
  ⟨List.prefix_refl _, fun _ hj => Or.inl hj, fun _ _ => rfl⟩

lemma trans (h : Spares places places' l l') (h' : Spares places' places'' l' l'')
    (hsome : ∀ j ∈ places', l'[j]? ≠ none) : Spares places places'' l l'' := by
  refine ⟨h.grows.trans h'.grows, fun j hj => ?_, fun j hj => ?_⟩
  · rcases h'.fresh j hj with hmem | hnone
    · exact h.fresh j hmem
    · have hnew : j ∉ places' := fun hmem => hsome j hmem hnone
      exact Or.inr ((h.spared j hnew).symm.trans hnone)
  · rw [h'.spared j hj, h.spared j fun hmem => hj (h'.grows.subset hmem)]

lemma modify (hj : j ∈ places) (l : List α) (f : α → α) :
    Spares places places l (l.modify j f) := by
  refine ⟨List.prefix_refl _, fun _ hmem => Or.inl hmem, fun j' hj' => ?_⟩
  have hne : j ≠ j' := fun heq => hj' (heq ▸ hj)
  rw [List.getElem?_modify]
  simp [hne]

lemma set (hj : j ∈ places) (l : List α) (a : α) : Spares places places l (l.set j a) := by
  rw [List.set_eq_modify]
  exact modify hj l _

lemma append (places : List Nat) (l : List α) (a : α) :
    Spares places (places ++ [l.length]) l (l ++ [a]) := by
  refine ⟨List.prefix_append _ _, fun j hj => ?_, fun j hj => ?_⟩
  · rcases List.mem_append.mp hj with hmem | hmem
    · exact Or.inl hmem
    · obtain rfl := List.mem_singleton.mp hmem
      exact Or.inr (by simp)
  · have hne : j ≠ l.length := fun heq => hj (by simp [heq])
    rw [List.getElem?_append]
    split
    · rfl
    · rename_i hlt
      rw [List.getElem?_eq_none (Nat.le_of_not_lt hlt)]
      exact List.getElem?_eq_none (by simp; omega)

/-- Another part with other places is left as it was, and the places still differ. -/
lemma disjoint (h : Spares places places' l l') {others : List Nat}
    (hd : places.Disjoint others) (hsome : ∀ j ∈ others, l[j]? ≠ none) :
    places'.Disjoint others := by
  intro j hj hother
  rcases h.fresh j hj with hmem | hnone
  · exact hd hmem hother
  · exact hsome j hother hnone

end Spares

end Lists

/-! ## Steps that keep to some names -/

/-- Whether a host source is a list or a host with one of the names. -/
def HostSource.within (lent : String → Bool) : HostSource → Bool
  | .handle name => lent name
  | .bare | .names _ => true

/-- Whether a question is about objects with the names. -/
def Query.within (own : String → Bool) : Query → Bool
  | .state timers _ => own timers
  | .size name | .workerInfo name | .eventType name | .describe name _ | .algorithm name => own name
  | .isCurrent name handler => own name && own handler

/-- Whether a step on builders and functions uses the names only. -/
def CryptoStep.within (own : String → Bool) : CryptoStep → Bool
  | .call env _ => own env
  | .createHash as env _ | .createHmac as env _ _ => own as && own env
  | .update name _ | .digest name _ => own name

/-- Whether a step on host sets uses the names only. -/
def HostStep.within (own : String → Bool) : HostStep → Bool
  | .empty as | .full as | .parse as _ => own as
  | .insert name _ => own name
  | .extend name _ as => own name && own as
  | .same a b => own a && own b

mutual

/-- Whether a step uses the names `own` only, in its body and in the bodies therein too, but for the
hosts of environments, which may have the names `lent`. -/
def Step.within (own lent : String → Bool) : Step → Bool
  | .install as source _ => own as && source.within lent
  | .newQueue as | .errorHandler as => own as
  | .newTimers as queue => own as && own queue
  | .timersOf as env | .spawnWorker as env _ => own as && own env
  | .queueOf as timers | .newWorker as _ _ timers => own as && own timers
  | .schedule _ timers _ _ _ body => own timers && allWithin own lent body
  | .cancel _ timers _ => own timers
  | .enqueue queue _ body => own queue && allWithin own lent body
  | .run name | .post name _ | .terminate name | .drop name | .callSlot _ name _ => own name
  | .messageHandler as body _ => own as && allWithin own lent body
  | .setSlot _ name handler => own name && handler.all own
  | .addListener name handler | .removeListener name handler => own name && own handler
  | .clone name as => own name && own as
  | .query q => q.within own
  | .crypto c => c.within own
  | .host h => h.within own
  | .malformed _ _ => true

/-- Whether steps use the names only. -/
def allWithin (own lent : String → Bool) : List Step → Bool
  | [] => true
  | s :: rest => s.within own lent && allWithin own lent rest

end

/-! ## Parts -/

/-- A part of a session: the names it uses, the names of the hosts that its environments may
complete, and the numbers of its objects in the world of the session, in the order in which they
were made. -/
structure Part where
  own : String → Bool
  lent : String → Bool
  queues : List QueueId
  timers : List TimersId
  workers : List WorkerId
  handlers : List HandlerId

namespace Part

/-- The part keeps its names, and has perhaps more objects. -/
structure Grows (p p' : Part) : Prop where
  own : p'.own = p.own
  lent : p'.lent = p.lent
  queues : p.queues <+: p'.queues
  timers : p.timers <+: p'.timers
  workers : p.workers <+: p'.workers
  handlers : p.handlers <+: p'.handlers

/-- Two parts have no object in common. -/
structure Apart (p q : Part) : Prop where
  queues : p.queues.Disjoint q.queues
  timers : p.timers.Disjoint q.timers
  workers : p.workers.Disjoint q.workers
  handlers : p.handlers.Disjoint q.handlers

lemma Apart.symm {p q : Part} (h : p.Apart q) : q.Apart p :=
  ⟨List.disjoint_symm h.queues, List.disjoint_symm h.timers, List.disjoint_symm h.workers,
    List.disjoint_symm h.handlers⟩

lemma Grows.refl (p : Part) : p.Grows p :=
  ⟨rfl, rfl, List.prefix_refl _, List.prefix_refl _, List.prefix_refl _, List.prefix_refl _⟩

lemma Grows.trans {p p' p'' : Part} (h : p.Grows p') (h' : p'.Grows p'') : p.Grows p'' :=
  ⟨h'.own.trans h.own, h'.lent.trans h.lent, h.queues.trans h'.queues, h.timers.trans h'.timers,
    h.workers.trans h'.workers, h.handlers.trans h'.handlers⟩

/-- The part with one more queue. -/
def addQueue (p : Part) (q : QueueId) : Part :=
  { p with queues := p.queues ++ [q] }

/-- The part with more timers. -/
def addTimers (p : Part) (t : TimersId) : Part :=
  { p with timers := p.timers ++ [t] }

/-- The part with one more worker. -/
def addWorker (p : Part) (k : WorkerId) : Part :=
  { p with workers := p.workers ++ [k] }

/-- The part with one more handler. -/
def addHandler (p : Part) (h : HandlerId) : Part :=
  { p with handlers := p.handlers ++ [h] }

lemma grows_addQueue (p : Part) (q : QueueId) : p.Grows (p.addQueue q) :=
  { Grows.refl p with queues := List.prefix_append _ _ }

lemma grows_addTimers (p : Part) (t : TimersId) : p.Grows (p.addTimers t) :=
  { Grows.refl p with timers := List.prefix_append _ _ }

lemma grows_addWorker (p : Part) (k : WorkerId) : p.Grows (p.addWorker k) :=
  { Grows.refl p with workers := List.prefix_append _ _ }

lemma grows_addHandler (p : Part) (h : HandlerId) : p.Grows (p.addHandler h) :=
  { Grows.refl p with handlers := List.prefix_append _ _ }

/-- Whether steps are steps of the part. -/
def covers (p : Part) (steps : List Step) : Prop :=
  allWithin p.own p.lent steps = true

end Part

/-- A number stays where it is when places are added. -/
lemma getElem?_of_grows {places places' : List Nat} (h : places <+: places') {i j : Nat}
    (hi : places[i]? = some j) : places'[i]? = some j := by
  obtain ⟨more, rfl⟩ := h
  rw [List.getElem?_append_left (List.getElem?_eq_some_iff.mp hi).1]
  exact hi

/-! ## What is mirrored in a part

The first argument belongs to the whole and the second to the part. -/

/-- A callback of the part. -/
inductive Callback.Mirrors (p : Part) : Callback → Callback → Prop
  | script (label : String) (args : Option (List Datum)) {body : List Step} (h : p.covers body) :
      Mirrors p (.script label args body) (.script label args body)
  | delivery {j i : WorkerId} {data : String} (h : p.workers[i]? = some j) :
      Mirrors p (.delivery j data) (.delivery i data)

/-- A task of the part. -/
inductive Microtask.Mirrors (p : Part) : Microtask → Microtask → Prop
  | fire {j i : TimersId} {id : Nat} (h : p.timers[i]? = some j) :
      Mirrors p (.fire j id) (.fire i id)
  | script (label : String) {body : List Step} (h : p.covers body) :
      Mirrors p (.script label body) (.script label body)

/-- Timers of the part. -/
structure Timers.Mirrors (p : Part) (a b : Timers) : Prop where
  registry : Registry.Rel (Callback.Mirrors p) a.registry b.registry
  queue : p.queues[b.queue]? = some a.queue
  owned : a.owned = b.owned

/-- A worker of the part. -/
structure Worker.Mirrors (p : Part) (a b : Worker) : Prop where
  id : a.id = b.id
  url : a.url = b.url
  timers : p.timers[b.timers]? = some a.timers
  terminated : a.terminated = b.terminated
  slot : ∀ slot, Option.Rel (fun j i => p.handlers[i]? = some j) (a.slot slot) (b.slot slot)

/-- Whether what a handler runs is of the part. -/
def Handler.Within (p : Part) (h : Handler) : Prop :=
  match h.role with
  | .message body _ => p.covers body
  | .error => True

/-- A handler of the part. -/
structure Handler.Mirrors (p : Part) (a b : Handler) : Prop where
  eq : a = b
  within : b.Within p

/-- A handle to an object of the part. -/
inductive Handle.Mirrors (p : Part) : Handle → Handle → Prop
  | queue {j i : QueueId} (h : p.queues[i]? = some j) : Mirrors p (.queue j) (.queue i)
  | timers {j i : TimersId} (h : p.timers[i]? = some j) : Mirrors p (.timers j) (.timers i)
  | worker {j i : WorkerId} (h : p.workers[i]? = some j) : Mirrors p (.worker j) (.worker i)
  | handler {j i : HandlerId} (h : p.handlers[i]? = some j) : Mirrors p (.handler j) (.handler i)
  | environment (env : Environment) {q q' : QueueId} {t t' : TimersId}
      (hq : p.queues[q']? = some q) (ht : p.timers[t']? = some t) :
      Mirrors p (.environment env q t) (.environment env q' t')
  | host (h : Host) : Mirrors p (.host h) (.host h)
  | hash (b : HashBuilder) : Mirrors p (.hash b) (.hash b)
  | hmac (b : HmacBuilder) : Mirrors p (.hmac b) (.hmac b)

/-- A piece of work of the part. -/
inductive Frame.Mirrors (p : Part) : Frame → Frame → Prop
  | body {rest : List Step} (h : p.covers rest) : Mirrors p (.body rest) (.body rest)
  | drain {j i : QueueId} (n : Nat) (h : p.queues[i]? = some j) :
      Mirrors p (.drain j n) (.drain i n)
  | settle {j i : TimersId} (id : Nat) (kind : TimerKind) (h : p.timers[i]? = some j) :
      Mirrors p (.settle j id kind) (.settle i id kind)
  | reply (name : String) (answer : Answer) : Mirrors p (.reply name answer) (.reply name answer)

/-- What a step of the part leaves behind. -/
inductive Effect.Mirrors (p : Part) : Effect → Effect → Prop
  | done (answer : Answer) : Mirrors p (.done answer) (.done answer)
  | enter {frames frames' : List Frame} (h : List.Forall₂ (Frame.Mirrors p) frames frames') :
      Mirrors p (.enter frames) (.enter frames')

/-- Something that happened in the part.  A report on the whole shows the state of the part and
perhaps more. -/
inductive Event.Mirrors (p : Part) : Event → Event → Prop
  | note (n : Note) : Mirrors p (.note n) (.note n)
  | enqueued {j i : QueueId} {task task' : Microtask} (h : p.queues[i]? = some j)
      (ht : task.Mirrors p task') : Mirrors p (.enqueued j task) (.enqueued i task')
  | started {j i : QueueId} {task task' : Microtask} (h : p.queues[i]? = some j)
      (ht : task.Mirrors p task') : Mirrors p (.started j task) (.started i task')
  | drained {j i : QueueId} (n : Nat) (h : p.queues[i]? = some j) :
      Mirrors p (.drained j n) (.drained i n)
  | scheduled {j i : TimersId} (id : Nat) (kind : TimerKind) {c c' : Callback}
      (h : p.timers[i]? = some j) (hc : c.Mirrors p c') :
      Mirrors p (.scheduled j id kind c) (.scheduled i id kind c')
  | cancelled {j i : TimersId} (id : Nat) (h : p.timers[i]? = some j) :
      Mirrors p (.cancelled j id) (.cancelled i id)
  | fired {j i : TimersId} (id : Nat) {c c' : Callback} (h : p.timers[i]? = some j)
      (hc : c.Mirrors p c') : Mirrors p (.fired j id c) (.fired i id c')
  | settled {j i : TimersId} (id : Nat) (h : p.timers[i]? = some j) :
      Mirrors p (.settled j id) (.settled i id)
  | message {j i : WorkerId} {l k : HandlerId} (name data origin : String)
      (h : p.workers[i]? = some j) (hl : p.handlers[k]? = some l) :
      Mirrors p (.message j l name data origin) (.message i k name data origin)
  | failure {j i : WorkerId} {l k : HandlerId} (name text : String)
      (h : p.workers[i]? = some j) (hl : p.handlers[k]? = some l) :
      Mirrors p (.failure j l name text) (.failure i k name text)
  | stepped (name : String) (answer : Answer) :
      Mirrors p (.stepped name answer) (.stepped name answer)
  | answered (answer : Answer) (state : List (String × Datum)) :
      Mirrors p (.answered answer state)
        (.answered answer (state.filter fun entry => p.own entry.1))

/-! ### More objects

What is mirrored in a part is mirrored in it when it has more objects. -/

section Mono

variable {p p' : Part}

lemma Part.Grows.covers (h : p.Grows p') {steps : List Step} (hs : p.covers steps) :
    p'.covers steps := by
  rw [Part.covers, h.own, h.lent]
  exact hs

lemma Callback.Mirrors.mono (h : p.Grows p') {a b : Callback} (hab : a.Mirrors p b) :
    a.Mirrors p' b := by
  cases hab with
  | script label args hb => exact .script label args (h.covers hb)
  | delivery hi => exact .delivery (getElem?_of_grows h.workers hi)

lemma Microtask.Mirrors.mono (h : p.Grows p') {a b : Microtask} (hab : a.Mirrors p b) :
    a.Mirrors p' b := by
  cases hab with
  | fire hi => exact .fire (getElem?_of_grows h.timers hi)
  | script label hb => exact .script label (h.covers hb)

lemma Timers.Mirrors.mono (h : p.Grows p') {a b : Timers} (hab : a.Mirrors p b) :
    a.Mirrors p' b :=
  ⟨hab.registry.mono fun _ _ hc => hc.mono h, getElem?_of_grows h.queues hab.queue, hab.owned⟩

lemma Worker.Mirrors.mono (h : p.Grows p') {a b : Worker} (hab : Worker.Mirrors p a b) :
    Worker.Mirrors p' a b := by
  refine ⟨hab.id, hab.url, getElem?_of_grows h.timers hab.timers, hab.terminated, fun slot => ?_⟩
  rcases rel_cases (hab.slot slot) with ⟨ha, hb⟩ | ⟨j, i, ha, hb, hi⟩
  · rw [ha, hb]
    exact .none
  · rw [ha, hb]
    exact .some (getElem?_of_grows h.handlers hi)

lemma Handler.Mirrors.mono (h : p.Grows p') {a b : Handler} (hab : a.Mirrors p b) :
    a.Mirrors p' b := by
  refine ⟨hab.eq, ?_⟩
  have hwithin := hab.within
  unfold Handler.Within at hwithin ⊢
  split at hwithin
  · exact h.covers hwithin
  · trivial

lemma Handle.Mirrors.mono (h : p.Grows p') {a b : Handle} (hab : a.Mirrors p b) :
    a.Mirrors p' b := by
  cases hab with
  | queue hi => exact .queue (getElem?_of_grows h.queues hi)
  | timers hi => exact .timers (getElem?_of_grows h.timers hi)
  | worker hi => exact .worker (getElem?_of_grows h.workers hi)
  | handler hi => exact .handler (getElem?_of_grows h.handlers hi)
  | environment env hq ht =>
    exact .environment env (getElem?_of_grows h.queues hq) (getElem?_of_grows h.timers ht)
  | host x => exact .host x
  | hash b => exact .hash b
  | hmac b => exact .hmac b

lemma Frame.Mirrors.mono (h : p.Grows p') {a b : Frame} (hab : a.Mirrors p b) :
    a.Mirrors p' b := by
  cases hab with
  | body hb => exact .body (h.covers hb)
  | drain n hi => exact .drain n (getElem?_of_grows h.queues hi)
  | settle id kind hi => exact .settle id kind (getElem?_of_grows h.timers hi)
  | reply name answer => exact .reply name answer

lemma Event.Mirrors.mono (h : p.Grows p') {a b : Event} (hab : a.Mirrors p b) :
    a.Mirrors p' b := by
  cases hab with
  | note n => exact .note n
  | enqueued hi ht => exact .enqueued (getElem?_of_grows h.queues hi) (ht.mono h)
  | started hi ht => exact .started (getElem?_of_grows h.queues hi) (ht.mono h)
  | drained n hi => exact .drained n (getElem?_of_grows h.queues hi)
  | scheduled id kind hi hc =>
    exact .scheduled id kind (getElem?_of_grows h.timers hi) (hc.mono h)
  | cancelled id hi => exact .cancelled id (getElem?_of_grows h.timers hi)
  | fired id hi hc => exact .fired id (getElem?_of_grows h.timers hi) (hc.mono h)
  | settled id hi => exact .settled id (getElem?_of_grows h.timers hi)
  | message name data origin hi hl =>
    exact .message name data origin (getElem?_of_grows h.workers hi)
      (getElem?_of_grows h.handlers hl)
  | failure name text hi hl =>
    exact .failure name text (getElem?_of_grows h.workers hi) (getElem?_of_grows h.handlers hl)
  | stepped name answer => exact .stepped name answer
  | answered answer state =>
    rw [← h.own]
    exact .answered answer state

end Mono

end Session

end Polyfill
