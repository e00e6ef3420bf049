import Polyfill.Proofs.Answers
import Polyfill.Proofs.Session.Mirror
/-!
# Steps of a part

A step that uses only names of a part does the same in a world and in the world of the part
(`World.Mirrors.execute`): it comes to the same answer or begins the same work, and the whole still
mirrors the part.  It need not be told the randomness of the whole: it is enough that the ops it
calls answer alike (`World.Answers`).
-/

namespace Polyfill.Session

/-- The call of an op that an event tells of. -/
def Event.call? : Event → Option Op
  | .note n => n.call?
  | _ => none

/-- The name of the host that a step reads to install an environment. -/
def Step.source? : Step → Option String
  | .install _ (.handle name) _ => some name
  | _ => none

lemma Step.lent_source {own lent : String → Bool} {s : Step} (hs : s.within own lent = true)
    {name : String} (hname : s.source? = some name) : lent name = true := by
  cases s with
  | install as source ops =>
    cases source with
    | handle name' =>
      obtain rfl : name' = name := Option.some.inj hname
      simp only [within, Bool.and_eq_true] at hs
      exact hs.2
    | _ => cases hname
  | _ => cases hname

namespace Worker.Mirrors

variable {p : Part} {a b : Worker}

lemma new (id : Nat) (url : String) {t t' : TimersId} (ht : p.timers[t']? = some t) :
    Worker.Mirrors p (Worker.new id url t) (Worker.new id url t') := by
  refine ⟨rfl, rfl, ht, rfl, fun slot => ?_⟩
  cases slot with
  | message => exact .none
  | error => exact .none

lemma setSlot (h : Worker.Mirrors p a b) (slot : Slot) {x y : Option HandlerId}
    (hxy : Option.Rel (fun j i => p.handlers[i]? = some j) x y) :
    Worker.Mirrors p (a.setSlot slot x) (b.setSlot slot y) := by
  have hslots : ∀ slot', Option.Rel (fun j i => p.handlers[i]? = some j)
      ((a.setSlot slot x).slot slot') ((b.setSlot slot y).slot slot') := by
    intro slot'
    rw [World.slot_setSlot, World.slot_setSlot]
    split
    · exact hxy
    · exact h.slot slot'
  cases slot with
  | message => exact ⟨h.id, h.url, h.timers, h.terminated, hslots⟩
  | error => exact ⟨h.id, h.url, h.timers, h.terminated, hslots⟩

end Worker.Mirrors

namespace World

/-! ## The ops that a step calls -/

/-- The table of ops that a step may ask. -/
def table? (w : World) : Step → Option OpTable
  | .spawnWorker _ env _ | .crypto (.call env _) =>
    (w.environment? env).map fun found => found.1.ops
  | .crypto (.digest name _) =>
    match w.handle? name with
    | some (.hash b) => some b.ops
    | some (.hmac b) => some b.ops
    | _ => none
  | _ => none

/-- The calls of ops that a step makes, in order. -/
def calls (w : World) (s : Step) : List Op :=
  ((w.execute s).1.history.drop w.history.length).filterMap Event.call?

/-- The calls that a step makes in the world of a part are answered alike in the whole. -/
def Answers (w v : World) (s : Step) : Prop :=
  ∀ t, v.table? s = some t → t.Alike (v.calls s) w.entropy v.entropy

/-- With the same randomness all calls are answered alike. -/
lemma answers_of_eq {w v : World} (h : w.entropy = v.entropy) (s : Step) : w.Answers v s := by
  intro t _
  rw [h]
  exact t.alike_refl _ _

/-- The calls of a step that writes nothing down but the notes of one act. -/
lemma calls_eq {α : Type} {v : World} {s : Step} (act : Act α)
    (h : (v.execute s).1.history = (v.perform act).2.history) :
    v.calls s = (act.perform ⟨v.entropy, []⟩).2.notes.filterMap Note.call? := by
  have hhistory : (v.perform act).2.history =
      v.history ++ (act.perform ⟨v.entropy, []⟩).2.notes.map Event.note := rfl
  rw [calls, h, hhistory, List.drop_left, List.filterMap_map]
  rfl

/-! ## Results -/

/-- A result in a world and one in the world of a part: the same answer, and the worlds have changed
together. -/
def SameAnswer (p : Part) (w v : World) (r r' : Result) : Prop :=
  r.2 = r'.2 ∧ ∃ p', Couples p w v p' r.1 r'.1

/-- What a step does in a world and in the world of a part. -/
def SameWork (p : Part) (w v : World) (r r' : World × Effect) : Prop :=
  ∃ p', Couples p w v p' r.1 r'.1 ∧ r.2.Mirrors p' r'.2

variable {p : Part} {w v : World}

lemma SameAnswer.atOnce {r r' : Result} (h : SameAnswer p w v r r') :
    SameWork p w v (World.atOnce r) (World.atOnce r') := by
  obtain ⟨hanswer, p', hc⟩ := h
  refine ⟨p', hc, ?_⟩
  simp only [World.atOnce, hanswer]
  exact .done _

namespace Mirrors

variable (h : Mirrors p w v)
include h

/-- A step may leave both worlds alone. -/
lemma sameAnswer (answer : Answer) : SameAnswer p w v (w, answer) (v, answer) :=
  ⟨rfl, p, h.couples⟩

lemma withHandle {α β : Type} {R : α → β → Prop} {found : Option α} {found' : Option β}
    (hfound : Option.Rel R found found') {go : α → Result} {go' : β → Result}
    (hgo : ∀ a b, R a b → SameAnswer p w v (go a) (go' b)) :
    SameAnswer p w v (w.withHandle found go) (v.withHandle found' go') := by
  cases hfound with
  | none => exact h.sameAnswer _
  | some hab => exact hgo _ _ hab

lemma withText (x : Value) {go go' : String → Result}
    (hgo : ∀ s, SameAnswer p w v (go s) (go' s)) :
    SameAnswer p w v (w.withText x go) (v.withText x go') := by
  simp only [World.withText]
  split
  · exact hgo _
  · exact h.sameAnswer _

/-! ## Questions -/

lemma listener? {name : String} (hn : p.own name = true) :
    Option.Rel (fun x y => p.handlers[y.1]? = some x.1 ∧ x.2 = y.2) (w.listener? name)
      (v.listener? name) := by
  rcases rel_cases (h.handler? hn) with ⟨hw, hv⟩ | ⟨i, i', hw, hv, hi⟩
  · simp only [World.listener?, hw, hv]
    exact .none
  · obtain ⟨a, b, ha, hb, hab⟩ := h.handlers.get hi
    simp only [World.listener?, hw, hv, ha, hb, Option.map_some, hab.eq]
    exact .some ⟨hi, rfl⟩

lemma describeQueue {q q' : QueueId} (hq : p.queues[q']? = some q) :
    w.describeQueue q = v.describeQueue q' := by
  have hlength : (w.tasks q).length = (v.tasks q').length := (h.tasks hq).length_eq
  unfold World.describeQueue
  rw [hlength]

lemma describeTimers {t t' : TimersId} (ht : p.timers[t']? = some t) :
    w.describeTimers t = v.describeTimers t' := by
  have hsize : (w.registry t).size = (v.registry t').size := (h.registry ht).size
  unfold World.describeTimers
  rw [hsize]

lemma describe? (pretty : Bool) {x y : Handle} (hxy : x.Mirrors p y) :
    w.describe? pretty x = v.describe? pretty y := by
  cases hxy with
  | queue hi => exact congrArg some (h.describeQueue hi)
  | timers hi => exact congrArg some (h.describeTimers hi)
  | worker hi =>
    obtain ⟨a, b, ha, hb, hab⟩ := h.workers.get hi
    have hdescribe : a.describe = b.describe := by
      unfold Worker.describe
      rw [hab.id, hab.url, hab.terminated]
    simp only [World.describe?, ha, hb, Option.map_some, hdescribe]
  | @environment env q q' t t' hq ht =>
    have hline : w.describeEnvironment env q t = v.describeEnvironment env q' t' := by
      unfold World.describeEnvironment
      rw [h.describeQueue hq, h.describeTimers ht]
    have hlines : w.describeEnvironmentPretty env q t = v.describeEnvironmentPretty env q' t' := by
      unfold World.describeEnvironmentPretty
      rw [h.describeQueue hq, h.describeTimers ht]
    refine congrArg some ?_
    rw [hline, hlines]
  | _ => rfl

/-- A place holds a handler of the part in both worlds or in none. -/
lemma slot_eq_some_iff {i i' : HandlerId} (hi : p.handlers[i']? = some i) {x y : Option HandlerId}
    (hxy : Option.Rel (fun j i => p.handlers[i]? = some j) x y) : x = some i ↔ y = some i' := by
  cases hxy with
  | none => simp
  | @some j j' hj =>
    rw [Option.some_inj, Option.some_inj]
    refine ⟨fun heq => ?_, fun heq => ?_⟩
    · rw [heq] at hj
      exact h.handlers.inj hj hi
    · rw [heq] at hj
      exact Option.some.inj (hj.symm.trans hi)

/-- A question about objects of the part has the same answer in the whole. -/
lemma query {q : Query} (hq : q.within p.own = true) : w.query q = v.query q := by
  cases q with
  | state name id =>
    have hn : p.own name = true := hq
    rcases rel_cases (h.timers? hn) with ⟨hw, hv⟩ | ⟨t, t', hw, hv, ht⟩
    · simp only [World.query, hw, hv]
    · rcases rel_cases ((h.registry ht).find? id) with ⟨hr, hr'⟩ | ⟨x, y, hr, hr', hxy⟩
      · simp only [World.query, hw, hv, hr, hr']
      · simp only [World.query, hw, hv, hr, hr', hxy.status_label]
  | size name =>
    have hn : p.own name = true := hq
    rcases rel_cases (h.handle? hn) with ⟨hw, hv⟩ | ⟨x, y, hw, hv, hxy⟩
    · simp only [World.query, hw, hv]
    · simp only [World.query, hw, hv]
      cases hxy with
      | queue hi => simp only [(h.tasks hi).length_eq]
      | timers hi => simp only [(h.registry hi).size]
      | _ => rfl
  | workerInfo name =>
    have hn : p.own name = true := hq
    rcases rel_cases (h.worker? hn) with ⟨hw, hv⟩ | ⟨k, k', hw, hv, hk⟩
    · simp only [World.query, hw, hv, Option.bind_none]
    · obtain ⟨a, b, ha, hb, hab⟩ := h.workers.get hk
      simp only [World.query, hw, hv, Option.bind_some, ha, hb, hab.id, hab.url, hab.terminated]
  | eventType name =>
    have hn : p.own name = true := hq
    rcases rel_cases (h.handler? hn) with ⟨hw, hv⟩ | ⟨i, i', hw, hv, hi⟩
    · simp only [World.query, hw, hv, Option.bind_none]
    · obtain ⟨a, b, ha, hb, hab⟩ := h.handlers.get hi
      simp only [World.query, hw, hv, Option.bind_some, ha, hb, hab.eq]
  | isCurrent name handlerName =>
    obtain ⟨hn, hn'⟩ := Bool.and_eq_true_iff.mp hq
    rcases rel_cases (h.worker? hn) with ⟨hw, hv⟩ | ⟨k, k', hw, hv, hk⟩
    · simp only [World.query, hw, hv, Option.bind_none]
    · obtain ⟨a, b, ha, hb, hab⟩ := h.workers.get hk
      rcases rel_cases (h.handler? hn') with ⟨hw', hv'⟩ | ⟨i, i', hw', hv', hi⟩
      · simp only [World.query, hw, hv, hw', hv', Option.bind_some, ha, hb]
      · obtain ⟨c, d, hc, hd, hcd⟩ := h.handlers.get hi
        obtain ⟨rfl, -⟩ := hcd
        have hslot : (a.slot c.slot == some i) = (b.slot c.slot == some i') :=
          Bool.eq_iff_iff.mpr (by
            rw [beq_iff_eq, beq_iff_eq]
            exact h.slot_eq_some_iff hi (hab.slot c.slot))
        simp only [World.query, hw, hv, hw', hv', Option.bind_some, ha, hb, hc, hd, hslot]
  | describe name pretty =>
    have hn : p.own name = true := hq
    rcases rel_cases (h.handle? hn) with ⟨hw, hv⟩ | ⟨x, y, hw, hv, hxy⟩
    · simp only [World.query, hw, hv, Option.bind_none]
    · simp only [World.query, hw, hv, Option.bind_some, h.describe? pretty hxy]
  | algorithm name =>
    have hn : p.own name = true := hq
    rcases rel_cases (h.handle? hn) with ⟨hw, hv⟩ | ⟨x, y, hw, hv, hxy⟩
    · simp only [World.query, hw, hv]
    · simp only [World.query, hw, hv]
      cases hxy <;> rfl

/-! ## Builders, calls and hosts -/

/-- An act whose calls are answered alike comes to the same. -/
lemma performs {α : Type} {act : Act α} {t : OpTable} (hact : act.Asks t)
    (halike : t.Alike ((act.perform ⟨v.entropy, []⟩).2.notes.filterMap Note.call?) w.entropy
      v.entropy) :
    ∃ outcome w' v', w.perform act = (outcome, w') ∧ v.perform act = (outcome, v') ∧
      Couples p w v p w' v' := by
  obtain ⟨houtcome, hnotes⟩ := hact.perform_eq halike
  obtain ⟨hfst, hc⟩ := h.perform houtcome hnotes
  exact ⟨(w.perform act).1, (w.perform act).2, (v.perform act).2, rfl, Prod.ext hfst.symm rfl, hc⟩

/-- An act that calls no op comes to the same whatever the randomness. -/
lemma performs_silent {α : Type} (act : Act α) (hact : ∀ t, act.Asks t)
    (hsilent : (act.perform ⟨v.entropy, []⟩).2.notes.filterMap Note.call? = []) :
    ∃ outcome w' v', w.perform act = (outcome, w') ∧ v.perform act = (outcome, v') ∧
      Couples p w v p w' v' := by
  refine h.performs (hact OpTable.native) ?_
  rw [hsilent]
  trivial

lemma answerText {act : Act String} {t : OpTable} (hact : act.Asks t)
    (halike : t.Alike ((act.perform ⟨v.entropy, []⟩).2.notes.filterMap Note.call?) w.entropy
      v.entropy) : SameAnswer p w v (w.answerText act) (v.answerText act) := by
  obtain ⟨outcome, w', v', hw, hv, hc⟩ := h.performs hact halike
  simp only [World.answerText, hw, hv]
  cases outcome with
  | ok s => exact ⟨rfl, p, hc⟩
  | error e => exact ⟨rfl, p, hc⟩

lemma bound {name : String} (hn : p.own name = true) {x y : Handle} (hxy : x.Mirrors p y)
    (answer : Answer) : SameAnswer p w v (w.bind name x, answer) (v.bind name y, answer) :=
  ⟨rfl, p, h.bind hn hxy⟩

omit h in
lemma history_answerText (act : Act String) :
    (v.answerText act).1.history = (v.perform act).2.history := by
  unfold World.answerText
  split <;> rename_i heq <;> rw [heq]

lemma crypto {c : CryptoStep} (hwithin : c.within p.own = true)
    (hanswers : w.Answers v (.crypto c)) : SameAnswer p w v (w.crypto c) (v.crypto c) := by
  cases c with
  | call env call =>
    have hn : p.own env = true := hwithin
    rcases h.environment_cases hn with ⟨hw, hv⟩ | ⟨found, q, q', t, t', hw, hv, -, -⟩
    · simp only [World.crypto, World.withHandle, hw, hv]
      exact h.sameAnswer _
    · simp only [World.crypto, World.withHandle, hw, hv]
      cases call with
      | error complaint => exact h.sameAnswer _
      | ok call =>
        have halike := hanswers found.ops (by simp only [World.table?, hv, Option.map_some])
        rw [calls_eq (call.perform found) (by
          simp only [World.execute, World.atOnce, World.crypto, World.withHandle, hv])] at halike
        obtain ⟨outcome, w', v', hw', hv', hc⟩ := h.performs (Call.asks_perform found call) halike
        simp only [hw', hv']
        exact ⟨rfl, p, hc⟩
  | createHash as env algorithm =>
    obtain ⟨has, hn⟩ := Bool.and_eq_true_iff.mp hwithin
    rcases h.environment_cases hn with ⟨hw, hv⟩ | ⟨found, q, q', t, t', hw, hv, -, -⟩
    · simp only [World.crypto, World.withHandle, hw, hv]
      exact h.sameAnswer _
    · simp only [World.crypto, World.withHandle, hw, hv]
      exact h.bound has (.hash _) _
  | createHmac as env algorithm key =>
    obtain ⟨has, hn⟩ := Bool.and_eq_true_iff.mp hwithin
    rcases h.environment_cases hn with ⟨hw, hv⟩ | ⟨found, q, q', t, t', hw, hv, -, -⟩
    · simp only [World.crypto, World.withHandle, hw, hv]
      exact h.sameAnswer _
    · simp only [World.crypto, World.withHandle, hw, hv]
      exact h.withText key fun _ => h.bound has (.hmac _) _
  | update name inputs =>
    have hn : p.own name = true := hwithin
    rcases rel_cases (h.handle? hn) with ⟨hw, hv⟩ | ⟨x, y, hw, hv, hxy⟩
    · simp only [World.crypto, hw, hv]
      exact h.sameAnswer _
    · simp only [World.crypto, hw, hv]
      cases hxy with
      | hash b => exact h.bound hn (.hash _) _
      | hmac b => exact h.bound hn (.hmac _) _
      | _ => exact h.sameAnswer _
  | digest name encoding =>
    have hn : p.own name = true := hwithin
    rcases rel_cases (h.handle? hn) with ⟨hw, hv⟩ | ⟨x, y, hw, hv, hxy⟩
    · simp only [World.crypto, hw, hv]
      exact h.sameAnswer _
    · simp only [World.crypto, hw, hv]
      cases hxy with
      | hash b =>
        have halike := hanswers b.ops (by simp only [World.table?, hv])
        rw [calls_eq (b.digest _) (by
          simp only [World.execute, World.atOnce, World.crypto, hv]
          exact history_answerText _)] at halike
        exact h.answerText (b.asks_digest _) halike
      | hmac b =>
        have halike := hanswers b.ops (by simp only [World.table?, hv])
        rw [calls_eq (b.digest _) (by
          simp only [World.execute, World.atOnce, World.crypto, hv]
          exact history_answerText _)] at halike
        exact h.answerText (b.asks_digest _) halike
      | _ => exact h.sameAnswer _

lemma hostStep {s : HostStep} (hwithin : s.within p.own = true) :
    SameAnswer p w v (w.hostStep s) (v.hostStep s) := by
  cases s with
  | empty as => exact h.bound hwithin (.host _) _
  | full as => exact h.bound hwithin (.host _) _
  | parse as names =>
    simp only [World.hostStep]
    split
    · exact h.bound hwithin (.host _) _
    · exact h.sameAnswer _
  | insert name names =>
    have hn : p.own name = true := hwithin
    simp only [World.hostStep, h.host? hn]
    cases v.host? name with
    | none => exact h.sameAnswer _
    | some host =>
      simp only [World.withHandle]
      split
      · exact h.bound hn (.host _) _
      · exact h.bound hn (.host _) _
  | extend name capability as =>
    obtain ⟨hn, has⟩ := Bool.and_eq_true_iff.mp hwithin
    simp only [World.hostStep, h.host? hn]
    cases v.host? name with
    | none => exact h.sameAnswer _
    | some host =>
      simp only [World.withHandle]
      split
      · exact h.bound has (.host _) _
      · exact h.sameAnswer _
  | same a b =>
    obtain ⟨ha, hb⟩ := Bool.and_eq_true_iff.mp hwithin
    simp only [World.hostStep, h.host? ha, h.host? hb]
    cases v.host? a with
    | none => exact h.sameAnswer _
    | some host =>
      cases v.host? b with
      | none => exact h.sameAnswer _
      | some host' => exact h.sameAnswer _

/-! ## Environments, workers and handlers -/

omit h in
lemma silent_install (host : Host) (ops : OpTable) (e : Entropy) :
    ((Environment.install host ops).perform ⟨e, []⟩).2.notes.filterMap Note.call? = [] := by
  have hnotes : ((Environment.install host ops).perform ⟨e, []⟩).2.notes =
      (Environment.installMessages host).map Note.debug := rfl
  rw [hnotes, List.filterMap_map, List.filterMap_eq_nil_iff]
  exact fun _ _ => rfl

lemma install {as : String} (has : p.own as = true) {source : HostSource}
    (hsource : w.hostOf source = v.hostOf source) (ops : OpTable) :
    SameAnswer p w v (w.install as source ops) (v.install as source ops) := by
  simp only [World.install, hsource]
  cases v.hostOf source with
  | error failure => exact h.sameAnswer _
  | ok host =>
    obtain ⟨outcome, w₁, v₁, hw, hv, h₁⟩ :=
      h.performs_silent _ (fun t => Environment.asks_install host ops) (silent_install host ops _)
    simp only [hw, hv]
    cases outcome with
    | error e => exact ⟨rfl, p, h₁⟩
    | ok env =>
      have h₂ := h₁.mirrors.newQueue
      have hq := h₁.mirrors.queues.getElem?_append
      have h₃ := h₂.mirrors.newTimers hq true
      have ht := h₂.mirrors.timers.getElem?_append
      have h₄ := h₃.mirrors.bind has (.environment env hq ht)
      exact ⟨rfl, _, h₁.trans (h₂.trans (h₃.trans h₄))⟩

lemma setSlot {slot : Slot} {name : String} (hn : p.own name = true) {handler : Option String}
    (hhandler : handler.all p.own = true) :
    SameAnswer p w v (w.setSlot slot name handler) (v.setSlot slot name handler) := by
  refine h.withHandle (h.worker? hn) fun k k' hk => ?_
  cases handler with
  | none => exact ⟨rfl, p, h.updateWorker hk fun _ _ hab => hab.setSlot slot .none⟩
  | some handlerName =>
    have hn' : p.own handlerName = true := hhandler
    rcases rel_cases (h.listener? hn') with ⟨hw, hv⟩ | ⟨x, y, hw, hv, hxy⟩
    · simp only [hw, hv]
      exact h.sameAnswer _
    · obtain ⟨i, own⟩ := x
      obtain ⟨i', own'⟩ := y
      obtain ⟨hi, rfl⟩ : p.handlers[i']? = some i ∧ own = own' := hxy
      simp only [hw, hv]
      split
      · exact ⟨rfl, p, h.updateWorker hk fun _ _ hab => hab.setSlot slot (.some hi)⟩
      · exact h.sameAnswer _

/-- Both worlds make a worker and give it a name. -/
lemma newWorkerBound {as : String} (has : p.own as = true) (id : Nat) (url : String)
    {t t' : TimersId} (ht : p.timers[t']? = some t) (answer : Answer) :
    SameAnswer p w v
      ((w.newWorker (Worker.new id url t)).2.bind as (.worker w.workers.length), answer)
      ((v.newWorker (Worker.new id url t')).2.bind as (.worker v.workers.length), answer) := by
  have h₁ := h.newWorker (Worker.Mirrors.new id url ht)
  exact ⟨rfl, _, h₁.trans (h₁.mirrors.bind has (.worker h.workers.getElem?_append))⟩

lemma spawnWorker {as env url : String} (has : p.own as = true) (hn : p.own env = true)
    (hanswers : w.Answers v (.spawnWorker as env url)) :
    SameAnswer p w v (w.spawnWorker as env url) (v.spawnWorker as env url) := by
  rcases h.environment_cases hn with ⟨hw, hv⟩ | ⟨found, q, q', t, t', hw, hv, -, ht⟩
  · simp only [World.spawnWorker, World.withHandle, hw, hv]
    exact h.sameAnswer _
  · have halike := hanswers found.ops (by simp only [World.table?, hv, Option.map_some])
    rw [calls_eq (found.spawnWorker url) (by
      simp only [World.execute, World.atOnce, World.spawnWorker, World.withHandle, hv]
      split <;> (rename_i heq; rw [heq]; try rfl))] at halike
    obtain ⟨outcome, w₁, v₁, hw₁, hv₁, h₁⟩ := h.performs (found.asks_spawnWorker url) halike
    simp only [World.spawnWorker, World.withHandle, hw, hv, hw₁, hv₁]
    cases outcome with
    | error e => exact ⟨rfl, p, h₁⟩
    | ok id =>
      obtain ⟨hanswer, p', h₂⟩ := h₁.mirrors.newWorkerBound has id url ht
        (Answer.data (.bool (id < 1000000)))
      exact ⟨hanswer, p', h₁.trans h₂⟩

lemma clone {name as : String} (hn : p.own name = true) (has : p.own as = true) :
    SameAnswer p w v (w.clone name as) (v.clone name as) := by
  rcases rel_cases (h.handle? hn) with ⟨hw, hv⟩ | ⟨x, y, hw, hv, hxy⟩
  · simp only [World.clone, hw, hv]
    exact h.sameAnswer _
  · simp only [World.clone, hw, hv]
    cases hxy with
    | hash b => exact h.sameAnswer _
    | hmac b => exact h.sameAnswer _
    | queue hi => exact h.bound has (.queue hi) _
    | timers hi => exact h.bound has (.timers hi) _
    | worker hi => exact h.bound has (.worker hi) _
    | handler hi => exact h.bound has (.handler hi) _
    | environment env hq ht => exact h.bound has (.environment env hq ht) _
    | host x => exact h.bound has (.host x) _

/-! ## All steps -/

lemma drain {name : String} (hn : p.own name = true) :
    SameWork p w v (w.drain name) (v.drain name) := by
  rcases rel_cases (h.drainable? hn) with ⟨hw, hv⟩ | ⟨q, q', hw, hv, hq⟩
  · simp only [World.drain, hw, hv]
    exact ⟨p, h.couples, .done _⟩
  · simp only [World.drain, hw, hv]
    exact ⟨p, h.couples, .enter (.cons (.drain 0 hq) .nil)⟩

lemma callSlot (slot : Slot) (verb : String) {k k' : WorkerId} (hk : p.workers[k']? = some k)
    (data : String) :
    SameWork p w v (w.callSlot slot verb k data) (v.callSlot slot verb k' data) := by
  obtain ⟨a, b, ha, hb, hab⟩ := h.workers.get hk
  rcases rel_cases (hab.slot slot) with ⟨hx, hy⟩ | ⟨i, i', hx, hy, hi⟩
  · simp only [World.callSlot, ha, hb, Option.bind_some, hx, hy]
    exact ⟨p, h.couples, .done _⟩
  · simp only [World.callSlot, ha, hb, Option.bind_some, hx, hy]
    cases slot with
    | message =>
      obtain ⟨hbody, hcovers, hc⟩ := h.deliver hk hi data directOrigin
      refine ⟨p, hc, ?_⟩
      simp only [hbody]
      exact .enter (.cons (.body hcovers) (.cons (.reply _ _) .nil))
    | error => exact ⟨p, h.deliverError hk hi data, .done _⟩

/-- A step of the part does the same in the whole and in the world of the part. -/
theorem execute {s : Step} (hs : s.within p.own p.lent = true)
    (hsource : ∀ name, s.source? = some name → w.host? name = v.host? name)
    (hanswers : w.Answers v s) : SameWork p w v (w.execute s) (v.execute s) := by
  cases s with
  | install as source ops =>
    simp only [Step.within, Bool.and_eq_true] at hs
    refine (h.install hs.1 ?_ ops).atOnce
    cases source with
    | bare => rfl
    | names list => rfl
    | handle name => simp only [World.hostOf, hsource name rfl]
  | newQueue as =>
    simp only [Step.within] at hs
    have h₁ := h.newQueue
    refine SameAnswer.atOnce ⟨rfl, _, h₁.trans (h₁.mirrors.bind hs ?_)⟩
    exact .queue h.queues.getElem?_append
  | newTimers as queue =>
    simp only [Step.within, Bool.and_eq_true] at hs
    refine (h.withHandle (h.queue? hs.2) fun q q' hq => ?_).atOnce
    have h₁ := h.newTimers hq false
    exact ⟨rfl, _, h₁.trans (h₁.mirrors.bind hs.1 (.timers h.timers.getElem?_append))⟩
  | timersOf as env =>
    simp only [Step.within, Bool.and_eq_true] at hs
    simp only [World.execute]
    rcases h.environment_cases hs.2 with ⟨hw, hv⟩ | ⟨found, q, q', t, t', hw, hv, -, ht⟩
    · simp only [World.withHandle, hw, hv]
      exact (h.sameAnswer _).atOnce
    · obtain ⟨outcome, w₁, v₁, hw₁, hv₁, h₁⟩ :=
        h.performs_silent found.timers (fun t => found.asks_timers) rfl
      simp only [World.withHandle, hw, hv, hw₁, hv₁]
      cases outcome with
      | ok _ => exact SameAnswer.atOnce ⟨rfl, p, h₁.trans (h₁.mirrors.bind hs.1 (.timers ht))⟩
      | error e => exact SameAnswer.atOnce ⟨rfl, p, h₁⟩
  | queueOf as timers =>
    simp only [Step.within, Bool.and_eq_true] at hs
    refine (h.withHandle (h.timers? hs.2) fun t t' ht => ?_).atOnce
    exact h.bound hs.1 (.queue (h.queueOf ht)) _
  | schedule kind timers label delay args body =>
    simp only [Step.within, Bool.and_eq_true] at hs
    refine (h.withHandle (h.timers? hs.1) fun t t' ht => ?_).atOnce
    obtain ⟨hid, hc⟩ := h.schedule ht kind delay (.script label args hs.2)
    exact ⟨congrArg (fun id => Answer.data (.nat id)) hid, p, hc⟩
  | cancel verb timers id =>
    simp only [Step.within] at hs
    refine (h.withHandle (h.timers? hs) fun t t' ht => ?_).atOnce
    exact ⟨rfl, p, h.cancel ht id⟩
  | enqueue queue label body =>
    simp only [Step.within, Bool.and_eq_true] at hs
    refine (h.withHandle (h.queue? hs.1) fun q q' hq => ?_).atOnce
    exact ⟨rfl, p, h.enqueue hq (.script label hs.2)⟩
  | run name =>
    simp only [Step.within] at hs
    exact h.drain hs
  | newWorker as id url timers =>
    simp only [Step.within, Bool.and_eq_true] at hs
    refine (h.withHandle (h.timers? hs.2) fun t t' ht => ?_).atOnce
    exact h.newWorkerBound hs.1 id url ht _
  | spawnWorker as env url =>
    simp only [Step.within, Bool.and_eq_true] at hs
    exact (h.spawnWorker hs.1 hs.2 hanswers).atOnce
  | messageHandler as body times =>
    simp only [Step.within, Bool.and_eq_true] at hs
    have h₁ := h.newHandler ⟨as, .message body times⟩ hs.2
    exact SameAnswer.atOnce
      ⟨rfl, _, h₁.trans (h₁.mirrors.bind hs.1 (.handler h.handlers.getElem?_append))⟩
  | errorHandler as =>
    simp only [Step.within] at hs
    have h₁ := h.newHandler ⟨as, .error⟩ trivial
    exact SameAnswer.atOnce
      ⟨rfl, _, h₁.trans (h₁.mirrors.bind hs (.handler h.handlers.getElem?_append))⟩
  | setSlot slot name handler =>
    simp only [Step.within, Bool.and_eq_true] at hs
    exact (h.setSlot hs.1 hs.2).atOnce
  | addListener name handler =>
    simp only [Step.within, Bool.and_eq_true] at hs
    refine (h.withHandle (h.worker? hs.1) fun k k' hk => ?_).atOnce
    refine h.withHandle (h.listener? hs.2) fun x y hxy => ?_
    obtain ⟨i, slot⟩ := x
    obtain ⟨i', slot'⟩ := y
    obtain ⟨hi, rfl⟩ : p.handlers[i']? = some i ∧ slot = slot' := hxy
    exact ⟨rfl, p, h.updateWorker hk fun _ _ hab => hab.setSlot slot (.some hi)⟩
  | removeListener name handler =>
    simp only [Step.within, Bool.and_eq_true] at hs
    refine (h.withHandle (h.worker? hs.1) fun k k' hk => ?_).atOnce
    refine h.withHandle (h.listener? hs.2) fun x y hxy => ?_
    obtain ⟨i, slot⟩ := x
    obtain ⟨i', slot'⟩ := y
    obtain ⟨hi, rfl⟩ : p.handlers[i']? = some i ∧ slot = slot' := hxy
    refine ⟨rfl, p, h.updateWorker hk fun a b hab => ?_⟩
    unfold Worker.removeListener
    have hiff := h.slot_eq_some_iff hi (hab.slot slot)
    by_cases hheld : b.slot slot = some i'
    · rw [if_pos hheld, if_pos (hiff.mpr hheld)]
      exact hab.setSlot slot .none
    · rw [if_neg hheld, if_neg (mt hiff.mp hheld)]
      exact hab
  | callSlot slot name data =>
    simp only [Step.within] at hs
    rcases rel_cases (h.worker? hs) with ⟨hw, hv⟩ | ⟨k, k', hw, hv, hk⟩
    · simp only [World.execute, hw, hv]
      exact ⟨p, h.couples, .done _⟩
    · simp only [World.execute, hw, hv]
      split
      · exact h.callSlot slot _ hk _
      · exact ⟨p, h.couples, .done _⟩
  | post name data =>
    simp only [Step.within] at hs
    refine (h.withHandle (h.worker? hs) fun k k' hk => h.withText data fun text => ?_).atOnce
    obtain ⟨houtcome, hc⟩ := h.post hk text
    rcases hw : w.post k text with ⟨outcome, w'⟩
    rcases hv : v.post k' text with ⟨outcome', v'⟩
    rw [hw, hv] at houtcome hc
    obtain rfl : outcome = outcome' := houtcome
    cases outcome with
    | ok _ => exact ⟨rfl, p, hc⟩
    | error e => exact ⟨rfl, p, hc⟩
  | terminate name =>
    simp only [Step.within] at hs
    refine (h.withHandle (h.worker? hs) fun k k' hk => ?_).atOnce
    exact ⟨rfl, p, h.terminate hk⟩
  | clone name as =>
    simp only [Step.within, Bool.and_eq_true] at hs
    exact (h.clone hs.1 hs.2).atOnce
  | drop name =>
    simp only [Step.within] at hs
    have hsome : (w.handle? name).isSome = (v.handle? name).isSome :=
      isSome_eq_of_rel (h.handle? hs)
    exact SameAnswer.atOnce ⟨by simp only [hsome], p, h.forget hs⟩
  | query q =>
    simp only [Step.within] at hs
    exact SameAnswer.atOnce ⟨h.query hs, p, h.couples⟩
  | crypto c =>
    simp only [Step.within] at hs
    exact (h.crypto hs hanswers).atOnce
  | host s =>
    simp only [Step.within] at hs
    exact (h.hostStep hs).atOnce
  | malformed name complaint => exact (h.sameAnswer _).atOnce

end Mirrors

end World

end Polyfill.Session
