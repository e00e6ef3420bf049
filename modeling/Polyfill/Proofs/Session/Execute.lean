import Polyfill.Proofs.Session.Change
/-!
# Steps are made of changes

A step leaves all timers alone, or it is one operation on timers and nothing else
(`World.execute_deed`); so every step does a few changes of the world, one after the other
(`World.execute_changes`).  No change brings a registry back to life that nothing kept
(`World.Change.keeps_before`): a handle is only ever stored if it refers to new timers or to timers
that are kept already.
-/

namespace Polyfill.Session

/-- The timer whose callback a frame waits for. -/
def Frame.timer? : Frame → Option (TimersId × Nat × TimerKind)
  | .settle t id kind => some (t, id, kind)
  | _ => none

namespace World

/-! ## Steps are made of changes -/

/-- A handle that holds no timers can be stored as soon as it refers to something. -/
lemma admits_of_holds_eq_false {w : World} {h : Handle} (hk : w.Knows h)
    (hn : ∀ t, w.holds t h = false) : w.Admits h :=
  ⟨hk, fun t ht => absurd ht (by simp [hn t])⟩

/-- A handle that is stored can be stored again. -/
lemma Sound.admits {w : World} (hs : w.Sound) {name : String} {h : Handle}
    (hh : w.handle? name = some h) : w.Admits h :=
  ⟨hs.knows hh, fun _ ht => keeps_of_holds hh ht⟩

lemma aside_of_perform {α : Type} {w w' : World} {act : Act α} {outcome : Except Error α}
    (h : w.perform act = (outcome, w')) : Aside w w' := by
  obtain rfl : (w.perform act).2 = w' := by rw [h]
  exact .perform act

lemma asides_answerText (w : World) (act : Act String) : Asides w (w.answerText act).1 := by
  unfold answerText
  split <;> rename_i h <;> exact .single (aside_of_perform h)

lemma asides_crypto (w : World) (c : CryptoStep) : Asides w (w.crypto c).1 := by
  cases c with
  | call env call =>
    simp only [crypto, withHandle]
    split
    · cases call with
      | error complaint => exact .refl
      | ok call => exact .single (.perform _)
    · exact .refl
  | createHash as env algorithm =>
    simp only [crypto, withHandle]
    split
    · exact .single (.bind _ _ (admits_of_holds_eq_false trivial fun _ => rfl))
    · exact .refl
  | createHmac as env algorithm key =>
    simp only [crypto, withHandle, withText]
    split
    · split
      · exact .single (.bind _ _ (admits_of_holds_eq_false trivial fun _ => rfl))
      · exact .refl
    · exact .refl
  | update name inputs =>
    simp only [crypto]
    split
    · exact .single (.bind _ _ (admits_of_holds_eq_false trivial fun _ => rfl))
    · exact .single (.bind _ _ (admits_of_holds_eq_false trivial fun _ => rfl))
    · exact .refl
  | digest name encoding =>
    simp only [crypto]
    split
    · exact asides_answerText _ _
    · exact asides_answerText _ _
    · exact .refl

lemma asides_hostStep (w : World) (h : HostStep) : Asides w (w.hostStep h).1 := by
  have hbind : ∀ name host, Asides w (w.bind name (.host host)) := fun name host =>
    .single (.bind _ _ (admits_of_holds_eq_false trivial fun _ => rfl))
  cases h with
  | empty as => exact hbind _ _
  | full as => exact hbind _ _
  | parse as names =>
    simp only [hostStep]
    split
    · exact hbind _ _
    · exact .refl
  | insert name names =>
    simp only [hostStep, withHandle]
    split
    · split <;> exact hbind _ _
    · exact .refl
  | extend name capability as =>
    simp only [hostStep, withHandle]
    split
    · split
      · exact hbind _ _
      · exact .refl
    · exact .refl
  | same a b =>
    simp only [hostStep, withHandle]
    split
    · split <;> exact .refl
    · exact .refl

/-- An environment is installed together with a queue and timers that belong to it. -/
lemma asides_install (w : World) (as : String) (source : HostSource) (ops : OpTable) :
    Asides w (w.install as source ops).1 := by
  unfold install
  split
  · exact .refl
  · split
    · rename_i h
      exact .single (aside_of_perform h)
    · rename_i env w₁ h
      have hq : w₁.queues.length < w₁.newQueue.2.queues.length := by simp [newQueue]
      have hk : (w₁.newQueue.2.newTimers w₁.queues.length true).2.Knows
          (.environment env w₁.queues.length w₁.timers.length) :=
        ⟨⟨Registry.empty, w₁.queues.length, true⟩, by simp [newTimers, newQueue], rfl, rfl⟩
      exact (((Relation.ReflTransGen.single (aside_of_perform h)).tail .newQueue).tail
        (.ownTimers _ hq)).tail (.bind as _ (admits_of_holds_eq_false hk fun _ => rfl))

/-- The handler under a name is made for the place it is said to belong in. -/
lemma suits_of_listener {w : World} {name : String} {h : HandlerId} {slot : Slot}
    (hl : w.listener? name = some (h, slot)) : w.Suits slot h := by
  unfold listener? at hl
  split at hl
  · obtain ⟨handler, hh, heq⟩ := Option.map_eq_some_iff.mp hl
    cases heq
    exact ⟨handler, hh, rfl⟩
  · cases hl

lemma asides_setSlot (w : World) (slot : Slot) (name : String) (handler : Option String) :
    Asides w (w.setSlot slot name handler).1 := by
  simp only [setSlot, withHandle]
  split
  · split
    · exact .single (.setSlot _ slot none fun _ h => by cases h)
    · split
      · rename_i h own hl
        split
        · rename_i hown
          refine .single (.setSlot _ slot (some h) fun h' hh => ?_)
          obtain rfl := Option.some.inj hh
          exact suits_of_listener (hown ▸ hl)
        · exact .refl
      · exact .refl
  · exact .refl

lemma holds_of_grows {w w' : World} (hg : Grows w w') {t : TimersId} {h : Handle}
    (hh : w.holds t h = true) : w'.holds t h = true := by
  cases h with
  | worker k =>
    simp only [holds, Option.any_eq_true, beq_iff_eq] at hh ⊢
    obtain ⟨x, hx, rfl⟩ := hh
    exact hg.workers k x hx
  | _ => exact hh

/-- What is kept alive stays so as long as no name is lost. -/
lemma keeps_of_grows {w w' : World} (hg : Grows w w') (hn : w'.names = w.names) {t : TimersId}
    (hk : w.keeps t = true) : w'.keeps t = true := by
  simp only [keeps, hn, Bool.or_eq_true, List.any_eq_true, Option.any_eq_true] at hk ⊢
  rcases hk with ⟨x, hx, ho⟩ | ⟨entry, hmem, hh⟩
  · obtain ⟨y, hy, -, ho'⟩ := hg.timers t x hx
    exact Or.inl ⟨y, hy, ho'.trans ho⟩
  · exact Or.inr ⟨entry, hmem, holds_of_grows hg hh⟩

/-- A new worker on timers that are kept is made and stored. -/
lemma asides_newWorker {w : World} (as : String) (id : Nat) (url : String)
    {t : TimersId} (hk : w.keeps t = true) (ht : t < w.timers.length) :
    Asides w ((w.newWorker (Worker.new id url t)).2.bind as (.worker w.workers.length)) := by
  refine (Relation.ReflTransGen.single (.newWorker id url t ht)).tail (.bind as _ ⟨?_, ?_⟩)
  · simp [Knows, newWorker]
  · intro t' hh
    obtain rfl : t = t' := by simpa [holds, newWorker, Worker.new] using hh
    exact keeps_of_grows (grows_newWorker w _) rfl hk

lemma asides_spawnWorker {w : World} (hs : w.Sound) (as env url : String) :
    Asides w (w.spawnWorker as env url).1 := by
  simp only [spawnWorker, withHandle]
  split
  · rename_i e he
    obtain ⟨env', q, t⟩ := e
    split <;> rename_i hp <;> have hc := aside_of_perform hp
    · exact .single hc
    · have hg := hc.grows
      obtain rfl : (w.perform _).2 = _ := congrArg Prod.snd hp
      exact (Relation.ReflTransGen.single hc).trans (asides_newWorker _ _ _
        (keeps_of_grows hg rfl (hs.keeps_environment he)) (hs.environment_timers_lt he))
  · exact .refl

lemma asides_clone {w : World} (hs : w.Sound) (name as : String) :
    Asides w (w.clone name as).1 := by
  unfold clone
  split
  · exact .refl
  · exact .refl
  · exact .refl
  · rename_i h _ _ hh
    exact .single (.bind as h (hs.admits hh))

lemma asides_callSlot (w : World) (slot : Slot) (verb : String) (k : WorkerId) (data : String) :
    Asides w (w.callSlot slot verb k data).1 := by
  unfold callSlot
  split
  · exact .refl
  · rename_i h _
    cases slot with
    | message => exact .single (.call k h data)
    | error =>
      simp only [deliverError]
      split
      · exact .single (.remark _ rfl)
      · exact .refl

/-- What a step does at once: it leaves all timers alone, or it is one operation on timers. -/
inductive Deed (w : World) (s : Step) : Prop
  | aside (h : Asides w (w.execute s).1)
  /-- A timer is registered, and its number is the answer. -/
  | schedule {kind : TimerKind} {name label : String} {delay : Nat} {args : Option (List Datum)}
      {body : List Step} {t : TimersId} (hs : s = .schedule kind name label delay args body)
      (ht : w.timers? name = some t)
      (he : w.execute s = ((w.schedule t kind delay (.script label args body)).2,
        .done (Answer.data (.nat ((w.registry t).last + 1)))))
  /-- A worker that listens accepts a message. -/
  | post {name data : String} {v : Value} {k : WorkerId} {worker : Worker} (hs : s = .post name v)
      (hk : w.worker? name = some k) (hw : w.workers[k]? = some worker) (hv : v.toText = .ok data)
      (ht : worker.terminated = false) (ho : worker.onmessage.isSome = true)
      (he : w.execute s =
        ((w.schedule worker.timers .timeout 0 (.delivery k data)).2, .done Answer.done))
  /-- A timer is cancelled. -/
  | cancel {verb : CancelVerb} {name : String} {id : Nat} {t : TimersId}
      (hs : s = .cancel verb name id) (ht : w.timers? name = some t)
      (he : w.execute s = (w.cancel t id, .done Answer.done))

/-- A timer that is asked for by a handle is registered, and its number is the answer. -/
lemma execute_schedule {w : World} {name : String} {t : TimersId} (ht : w.timers? name = some t)
    (kind : TimerKind) (label : String) (delay : Nat) (args : Option (List Datum))
    (body : List Step) :
    w.execute (.schedule kind name label delay args body) =
      ((w.schedule t kind delay (.script label args body)).2,
        .done (Answer.data (.nat ((w.registry t).last + 1)))) := by
  simp only [execute, atOnce, withHandle, ht]
  rfl

/-- A worker that listens accepts a message: a delivery is scheduled on its timers. -/
lemma execute_post_of_listening {w : World} {name : String} {v : Value} {data : String}
    {k : WorkerId} {worker : Worker} (hk : w.worker? name = some k)
    (hw : w.workers[k]? = some worker) (hv : v.toText = .ok data)
    (ht : worker.terminated = false) (ho : worker.onmessage.isSome = true) :
    w.execute (.post name v) =
      ((w.schedule worker.timers .timeout 0 (.delivery k data)).2, .done Answer.done) := by
  have ho' : worker.onmessage.isNone = false := by simpa using ho
  simp [execute, atOnce, withHandle, withText, post, hk, hw, hv, ht, ho']

lemma deed_schedule (w : World) (kind : TimerKind) (name label : String) (delay : Nat)
    (args : Option (List Datum)) (body : List Step) :
    Deed w (.schedule kind name label delay args body) := by
  cases ht : w.timers? name with
  | none =>
    refine .aside ?_
    simp only [execute, atOnce, withHandle, ht]
    exact .refl
  | some t => exact .schedule rfl ht (execute_schedule ht kind label delay args body)

lemma deed_cancel (w : World) (verb : CancelVerb) (name : String) (id : Nat) :
    Deed w (.cancel verb name id) := by
  cases ht : w.timers? name with
  | none =>
    refine .aside ?_
    simp only [execute, atOnce, withHandle, ht]
    exact .refl
  | some t => exact .cancel rfl ht (by simp [execute, atOnce, withHandle, ht])

/-- A message that is not accepted is refused or lost. -/
lemma asides_post {w : World} {k : WorkerId} {worker : Worker} (hw : w.workers[k]? = some worker)
    (hno : ¬ (worker.terminated = false ∧ worker.onmessage.isSome = true)) (data : String) :
    Asides w (w.post k data).2 := by
  simp only [post, hw]
  split
  · exact .refl
  · rename_i ht
    split
    · exact .single (.remark _ rfl)
    · rename_i ho
      exact absurd ⟨by simpa using ht, by simpa [Option.isSome_iff_ne_none] using ho⟩ hno

lemma deed_post (w : World) (name : String) (v : Value) : Deed w (.post name v) := by
  cases hk : w.worker? name with
  | none =>
    refine .aside ?_
    simp only [execute, atOnce, withHandle, hk]
    exact .refl
  | some k =>
    cases hv : v.toText with
    | error e =>
      refine .aside ?_
      simp only [execute, atOnce, withHandle, withText, hk, hv]
      exact .refl
    | ok data =>
      have hexec : (w.execute (.post name v)).1 = (w.post k data).2 := by
        simp only [execute, atOnce, withHandle, withText, hk, hv]
        split <;> rename_i h <;> rw [h]
      cases hw : w.workers[k]? with
      | none =>
        refine .aside ?_
        simp only [hexec, post, hw]
        exact .refl
      | some worker =>
        by_cases hyes : worker.terminated = false ∧ worker.onmessage.isSome = true
        · obtain ⟨ht, ho⟩ := hyes
          exact .post rfl hk hw hv ht ho (execute_post_of_listening hk hw hv ht ho)
        · exact .aside (hexec ▸ asides_post hw hyes data)

/-- Every step leaves all timers alone or is one operation on timers. -/
theorem execute_deed {w : World} (hs : w.Sound) (s : Step) : Deed w s := by
  cases s with
  | install as source ops => exact .aside (asides_install w as source ops)
  | newQueue as =>
    refine .aside ((Relation.ReflTransGen.single .newQueue).tail (.bind as _ ?_))
    exact admits_of_holds_eq_false (by simp [Knows]) fun _ => rfl
  | newTimers as queue =>
    refine .aside ?_
    simp only [execute, atOnce, withHandle]
    split
    · rename_i q hq
      exact .single (.newTimers as q (hs.knows (handle_of_queue hq)))
    · exact .refl
  | timersOf as env =>
    refine .aside ?_
    simp only [execute, atOnce, withHandle]
    split
    · rename_i e he
      obtain ⟨env', q, t⟩ := e
      split <;> rename_i hp <;> have hc := aside_of_perform hp
      · have hg := hc.grows
        obtain rfl : (w.perform _).2 = _ := congrArg Prod.snd hp
        refine (Relation.ReflTransGen.single hc).tail (.bind as _ ⟨hs.environment_timers_lt he, ?_⟩)
        intro t' hh
        obtain rfl : t = t' := by simpa [holds] using hh
        exact keeps_of_grows hg rfl (hs.keeps_environment he)
      · exact .single hc
    · exact .refl
  | queueOf as timers =>
    refine .aside ?_
    simp only [execute, atOnce, withHandle]
    split
    · rename_i t ht
      have hq : w.queueOf t < w.queues.length := hs.queueOf_lt (hs.knows (handle_of_timers ht))
      exact .single (.bind as _ (admits_of_holds_eq_false hq fun _ => rfl))
    · exact .refl
  | schedule kind timers label delay args body =>
    exact deed_schedule w kind timers label delay args body
  | cancel verb timers id => exact deed_cancel w verb timers id
  | enqueue queue label body =>
    refine .aside ?_
    simp only [execute, atOnce, withHandle]
    split
    · rename_i q hq
      exact .single (.enqueue q label body (hs.knows (handle_of_queue hq)))
    · exact .refl
  | run name =>
    refine .aside ?_
    simp only [execute, drain]
    split <;> exact .refl
  | newWorker as id url timers =>
    refine .aside ?_
    simp only [execute, atOnce, withHandle]
    split
    · rename_i t ht
      exact asides_newWorker as id url (keeps_timers ht) (hs.knows (handle_of_timers ht))
    · exact .refl
  | spawnWorker as env url => exact .aside (asides_spawnWorker hs as env url)
  | messageHandler as body times =>
    refine .aside ((Relation.ReflTransGen.single (.newHandler _)).tail (.bind as _ ?_))
    exact admits_of_holds_eq_false (by simp [Knows]) fun _ => rfl
  | errorHandler as =>
    refine .aside ((Relation.ReflTransGen.single (.newHandler _)).tail (.bind as _ ?_))
    exact admits_of_holds_eq_false (by simp [Knows]) fun _ => rfl
  | setSlot slot name handler => exact .aside (asides_setSlot w slot name handler)
  | addListener name handler =>
    refine .aside ?_
    simp only [execute, atOnce, withHandle]
    split
    · split
      · rename_i hl
        refine .single (.setSlot _ _ _ fun h hh => ?_)
        obtain rfl := Option.some.inj hh
        exact suits_of_listener hl
      · exact .refl
    · exact .refl
  | removeListener name handler =>
    refine .aside ?_
    simp only [execute, atOnce, withHandle]
    split
    · split
      · exact .single (.removeListener _ _ _)
      · exact .refl
    · exact .refl
  | callSlot slot name data =>
    refine .aside ?_
    simp only [execute]
    split
    · exact .refl
    · split
      · exact asides_callSlot _ _ _ _ _
      · exact .refl
  | post name data => exact deed_post w name data
  | terminate name =>
    refine .aside ?_
    simp only [execute, atOnce, withHandle]
    split
    · exact .single (.terminate _)
    · exact .refl
  | clone name as => exact .aside (asides_clone hs name as)
  | drop name => exact .aside (.single (.forget name))
  | query q => exact .aside .refl
  | crypto c => exact .aside (asides_crypto w c)
  | host h => exact .aside (asides_hostStep w h)
  | malformed name complaint => exact .aside .refl

/-- Every step is made of changes. -/
theorem execute_changes {w : World} (hs : w.Sound) (s : Step) : Changes w (w.execute s).1 := by
  cases execute_deed hs s with
  | aside h => exact h.changes
  | schedule _ ht he =>
    rw [he]
    exact .single (.schedule _ _ _ _ (hs.knows (handle_of_timers ht)) trivial)
  | post _ _ hw _ _ _ he =>
    rw [he]
    exact .single (.schedule _ _ _ _ (hs.workers _ _ hw) ⟨rfl, _, hw, rfl⟩)
  | cancel _ ht he =>
    rw [he]
    exact .single (.cancel _ _ (hs.knows (handle_of_timers ht)))

/-! ## What is dead stays dead -/

/-- A registry that a grown world keeps alive was kept before or is new, if this is so for whatever
the new names hold. -/
lemma keeps_before {w w' : World} (hs : w.Sound) (hg : Grows w w') {t : TimersId}
    (hn : ∀ entry ∈ w'.names, entry ∈ w.names ∨
      (w'.holds t entry.2 = true → w.keeps t = true ∨ w.timers.length ≤ t))
    (hk : w'.keeps t = true) : w.keeps t = true ∨ w.timers.length ≤ t := by
  simp only [keeps, Bool.or_eq_true, List.any_eq_true, Option.any_eq_true] at hk
  rcases hk with ⟨x', hx', ho⟩ | ⟨entry, hmem, hh⟩
  · rcases Nat.lt_or_ge t w.timers.length with hlt | hge
    · obtain ⟨y, hy, -, ho'⟩ := hg.timers t _ (List.getElem?_eq_getElem hlt)
      obtain rfl := Option.some.inj (hy.symm.trans hx')
      left
      simp [keeps, hlt, ho'.symm.trans ho]
    · exact Or.inr hge
  · rcases hn entry hmem with hold | hnew
    · left
      simp only [keeps, Bool.or_eq_true, List.any_eq_true]
      refine Or.inr ⟨entry, hold, ?_⟩
      -- a worker under an old name is an old worker, and workers keep their timers
      obtain ⟨name, h⟩ := entry
      cases h with
      | worker k =>
        have hlt : k < w.workers.length := hs.names _ hold
        obtain ⟨y, hy, hty⟩ := hg.workers k _ (List.getElem?_eq_getElem hlt)
        simpa [holds, hlt, hy, hty] using hh
      | _ => exact hh
    · exact hnew hh

lemma Aside.keeps_before {w w' : World} (h : Aside w w') (hs : w.Sound) {t : TimersId}
    (hk : w'.keeps t = true) : w.keeps t = true ∨ w.timers.length ≤ t := by
  refine World.keeps_before hs h.grows ?_ hk
  cases h with
  | bind name h hh =>
    intro entry hmem
    rcases List.mem_cons.mp hmem with rfl | hold
    · exact Or.inr fun ht => Or.inl (hh.2 t ht)
    · exact Or.inl (List.mem_filter.mp hold).1
  | forget name => exact fun _ hmem => Or.inl (List.mem_filter.mp hmem).1
  | newTimers name q hq =>
    intro entry hmem
    rcases List.mem_cons.mp hmem with rfl | hold
    · exact Or.inr fun ht => Or.inr (Nat.le_of_eq (beq_iff_eq.mp ht))
    · exact Or.inl (List.mem_filter.mp hold).1
  | terminate k =>
    unfold World.terminate
    split
    · exact fun _ hmem => Or.inl hmem
    · split <;> exact fun _ hmem => Or.inl hmem
  | call k h data =>
    unfold deliver
    split <;> exact fun _ hmem => Or.inl hmem
  | _ => exact fun _ hmem => Or.inl hmem

/-- A change keeps nothing alive that was not kept before, but for new timers. -/
lemma Change.keeps_before {w w' : World} (h : Change w w') (hs : w.Sound) {t : TimersId}
    (hk : w'.keeps t = true) : w.keeps t = true ∨ w.timers.length ≤ t := by
  have hg := h.grows
  cases h with
  | aside h => exact h.keeps_before hs hk
  | cancel t' id _ =>
    refine World.keeps_before hs hg ?_ hk
    simp only [World.cancel]
    split <;> exact fun _ hmem => Or.inl hmem
  | start q label body hp =>
    refine World.keeps_before hs hg ?_ hk
    obtain ⟨rest, -, rfl⟩ := pop_eq_some_iff.mp hp
    exact fun _ hmem => Or.inl hmem
  | _ => exact World.keeps_before hs hg (fun _ hmem => Or.inl hmem) hk

lemma Changes.keeps_before {w w' : World} (h : Changes w w') (hs : w.Sound) {t : TimersId}
    (hk : w'.keeps t = true) : w.keeps t = true ∨ w.timers.length ≤ t := by
  induction h with
  | refl => exact Or.inl hk
  | @tail w₁ w₂ h₁ h₂ ih =>
    rcases h₂.keeps_before (Changes.sound h₁ hs) hk with hk₁ | hle
    · exact ih hk₁
    · right
      rcases Nat.lt_or_ge t w.timers.length with hlt | hge
      · have hold : w.Knows (.timers t) := hlt
        exact absurd (hold.mono (Changes.grows h₁)) (Nat.not_lt_of_ge hle)
      · exact hge

/-- What the invocation of a callback does to the world at once: a delivery calls the handler that
its worker has then. -/
def invoke (w : World) : Callback → World
  | .script _ _ _ => w
  | .delivery k data =>
    match (w.workers[k]?).bind Worker.recipient? with
    | none => w
    | some h => (w.deliver k h data "").2

lemma grows_invoke (w : World) (c : Callback) : Grows w (w.invoke c) := by
  unfold invoke
  split
  · exact Grows.refl w
  · split
    · exact Grows.refl w
    · exact grows_deliver w _ _ _ _

lemma names_pop {w w' : World} {q : QueueId} {task : Microtask}
    (h : w.pop q = some (task, w')) : w'.names = w.names := by
  obtain ⟨rest, -, rfl⟩ := pop_eq_some_iff.mp h
  rfl

lemma names_fire {w w' : World} {t : TimersId} {id : Nat} {kind : TimerKind} {c : Callback}
    (h : w.fire t id = some (kind, c, w')) : w'.names = w.names := by
  obtain ⟨-, rfl⟩ := fire_eq_some_iff.mp h
  rfl

lemma names_invoke (w : World) (c : Callback) : (w.invoke c).names = w.names := by
  unfold invoke
  split
  · rfl
  · split
    · rfl
    · unfold deliver
      split <;> rfl

lemma Sound.invoke {w : World} (hs : w.Sound) (c : Callback) : (w.invoke c).Sound := by
  unfold World.invoke
  split
  · exact hs
  · split
    · exact hs
    · exact hs.deliver _ _ _ _

end World

end Polyfill.Session
