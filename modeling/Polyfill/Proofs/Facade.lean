import Polyfill.Proofs.Builder
/-!
# Every function is gated by its own capability, or by none

Most functions of an environment and of its helpers take texts and give a text.  `TextFunction`
lists them, each with the capability it belongs to, if any, and with the op it stands for; one law
holds for the whole list.  A function whose capability the host provides is refused before anything
else happens (`TextFunction.perform_of_provides`), and any other makes one call of its op and hands
on what the table answers (`TextFunction.perform_of_lacks`).

The timers, new workers and random elements have results of other kinds but go through the same
gate.  A refusal leaves its mark nowhere: in a session, the whole world is as it was
(`Session.World.perform_eq_self_iff`).
-/

namespace Polyfill

/-! ## Functions from texts to a text -/

/-- A function of an environment or of its helpers that gives a text, with the texts it is given. -/
inductive TextFunction where
  | btoa (text : String)
  | atob (text : String)
  | digest (algorithm : HashAlgorithm) (text : String)
  | encodeUriComponent (text : String)
  | decodeUriComponent (text : String)
  | encodeUri (text : String)
  | decodeUri (text : String)
  | randomUuid
  | utilsDigest (algorithm : HashAlgorithm) (text : String)
  | utilsHmac (algorithm : HmacAlgorithm) (key text : String)
  | utilsBase64Encode (text : String)
  | utilsBase64Decode (text : String)
  | utilsHexEncode (text : String)
  | utilsHexDecode (text : String)
  | utilsUrlEncode (text : String)
  | utilsUrlDecode (text : String)

namespace TextFunction

/-- The capability that a function belongs to; most belong to none. -/
def capability? : TextFunction → Option Capability
  | encodeUriComponent _ => some .encodeUriComponent
  | decodeUriComponent _ => some .decodeUriComponent
  | encodeUri _ => some .encodeUri
  | decodeUri _ => some .decodeUri
  | randomUuid => some .randomUuid
  | _ => none

/-- The op that a function stands for.  A table that does not read whole addresses is asked to read
a component instead. -/
def op (ops : OpTable) : TextFunction → TextOp
  | btoa text | utilsBase64Encode text => .encode .base64 text
  | atob text | utilsBase64Decode text => .decode .base64 text
  | digest algorithm text | utilsDigest algorithm text => .digest algorithm text
  | utilsHmac algorithm key text => .hmac algorithm key text
  | utilsHexEncode text => .encode .hex text
  | utilsHexDecode text => .decode .hex text
  | utilsUrlEncode text => .encode .url text
  | utilsUrlDecode text => .decode .url text
  | encodeUriComponent text => .encode .uriComponent text
  | decodeUriComponent text => .decode .uriComponent text
  | encodeUri text => .encode .uri text
  | decodeUri text => if ops.decodesUri then .decode .uri text else .decode .uriComponent text
  | randomUuid => .randomUuid

/-- What a function does in an environment. -/
def act (env : Environment) : TextFunction → Act String
  | btoa text => env.btoa text
  | atob text => env.atob text
  | digest algorithm text => env.digest algorithm text
  | encodeUriComponent text => env.encodeUriComponent text
  | decodeUriComponent text => env.decodeUriComponent text
  | encodeUri text => env.encodeUri text
  | decodeUri text => env.decodeUri text
  | randomUuid => env.randomUuid
  | utilsDigest algorithm text => env.cryptoUtils.digest algorithm text
  | utilsHmac algorithm key text => env.cryptoUtils.hmac algorithm key text
  | utilsBase64Encode text => env.cryptoUtils.encode .base64 text
  | utilsBase64Decode text => env.cryptoUtils.decode .base64 text
  | utilsHexEncode text => env.cryptoUtils.encode .hex text
  | utilsHexDecode text => env.cryptoUtils.decode .hex text
  | utilsUrlEncode text => env.cryptoUtils.encode .url text
  | utilsUrlDecode text => env.cryptoUtils.decode .url text

end TextFunction

/-- The function that a call asks for, with the texts of the values it is called with; `none` for
calls of other kinds. -/
def Call.function? : Call → Except Error (Option TextFunction)
  | btoa v => v.toText.map fun text => some (.btoa text)
  | atob v => v.toText.map fun text => some (.atob text)
  | digest a v => v.toText.map fun text => some (.digest a text)
  | encodeUriComponent v => v.toText.map fun text => some (.encodeUriComponent text)
  | decodeUriComponent v => v.toText.map fun text => some (.decodeUriComponent text)
  | encodeUri v => v.toText.map fun text => some (.encodeUri text)
  | decodeUri v => v.toText.map fun text => some (.decodeUri text)
  | randomUuid => .ok (some .randomUuid)
  | utilsDigest a v => v.toText.map fun text => some (.utilsDigest a text)
  | utilsHmac a key v =>
    key.toText.bind fun key => v.toText.map fun text => some (.utilsHmac a key text)
  | utilsEncode .base64 v => v.toText.map fun text => some (.utilsBase64Encode text)
  | utilsDecode .base64 v => v.toText.map fun text => some (.utilsBase64Decode text)
  | utilsEncode .hex v => v.toText.map fun text => some (.utilsHexEncode text)
  | utilsDecode .hex v => v.toText.map fun text => some (.utilsHexDecode text)
  | utilsEncode .url v => v.toText.map fun text => some (.utilsUrlEncode text)
  | utilsDecode .url v => v.toText.map fun text => some (.utilsUrlDecode text)
  | _ => .ok none

/-! ## The gate -/

/-- One call of an op: the call is noted, and the answer of the table is handed on as it is. -/
def OpTable.handOn (t : OpTable) (op : TextOp) (s : Scene) : Except Error String × Scene :=
  ((t.answer op s.entropy).1,
    ⟨(t.answer op s.entropy).2, s.notes ++ [.op t.recorded (.text op)]⟩)

/-- What leaves a note changes the scene. -/
lemma Scene.ne_of_notes {s t : Scene} {n : Note} (rest : List Note)
    (h : t.notes = s.notes ++ n :: rest) : t ≠ s := by
  rintro rfl
  have hlength := congrArg List.length h
  rw [List.length_append, List.length_cons] at hlength
  omega

/-- Something is refused exactly if the host provides its capability, once it is known that it
changes the scene on any other host. -/
lemma refused_iff {β : Type} {result : β × Scene} {refusal : β} {s : Scene} {provides : Bool}
    (hprovides : provides = true → result = (refusal, s))
    (hlacks : provides = false → result.2 ≠ s) : result = (refusal, s) ↔ provides = true := by
  constructor
  · intro h
    by_contra hfalse
    have hne := hlacks (Bool.eq_false_iff.mpr hfalse)
    rw [h] at hne
    exact hne rfl
  · exact hprovides

namespace Environment

variable {α : Type} (host : Host) (ops : OpTable)

/-- Behind the gate of a capability an act is refused if the host provides the capability, and goes
on as if there were no gate if the host lacks it. -/
lemma perform_require_bind (c : Capability) (next : Unit → Act α) (s : Scene) :
    (require ⟨host, ops⟩ c >>= next).perform s =
      if host.provides c then (.error (.providedByHost c), s) else (next ()).perform s := by
  rw [Act.perform_bind, require, Act.perform_ofExcept, isInstalled]
  cases host.provides c with
  | false => rfl
  | true => rfl

end Environment

/-! ## The law of text functions -/

namespace TextFunction

variable {host : Host} {ops : OpTable} {c : Capability} {f : TextFunction}

/-- A text function does one of two things, and the host decides which by what it says about one
capability alone. -/
lemma perform_act (f : TextFunction) (host : Host) (ops : OpTable) (s : Scene) :
    (f.act ⟨host, ops⟩).perform s =
      match f.capability? with
      | some c =>
        if host.provides c then (.error (.providedByHost c), s) else ops.handOn (f.op ops) s
      | none => ops.handOn (f.op ops) s := by
  cases f with
  | encodeUriComponent text => exact Environment.perform_require_bind host ops _ _ s
  | decodeUriComponent text => exact Environment.perform_require_bind host ops _ _ s
  | encodeUri text => exact Environment.perform_require_bind host ops _ _ s
  | decodeUri text => exact Environment.perform_require_bind host ops _ _ s
  | randomUuid => exact Environment.perform_require_bind host ops _ _ s
  | _ => rfl

/-- A function whose capability the host provides is refused, with nothing asked. -/
lemma perform_of_provides (hc : f.capability? = some c) (h : host.provides c = true) (s : Scene) :
    (f.act ⟨host, ops⟩).perform s = (.error (.providedByHost c), s) := by
  rw [perform_act, hc]
  exact if_pos h

/-- A function that belongs to no capability of the host makes one call of its op. -/
lemma perform_of_lacks (h : ∀ c, f.capability? = some c → host.provides c = false) (s : Scene) :
    (f.act ⟨host, ops⟩).perform s = ops.handOn (f.op ops) s := by
  rw [perform_act]
  cases hc : f.capability? with
  | none => rfl
  | some c =>
    have hlacks : ¬host.provides c = true := by
      rw [h c hc]
      exact Bool.false_ne_true
    exact if_neg hlacks

/-- A function is refused exactly if the host provides its capability. -/
lemma refused_iff (hc : f.capability? = some c) (ops : OpTable) (s : Scene) :
    (f.act ⟨host, ops⟩).perform s = (.error (.providedByHost c), s) ↔ host.provides c = true := by
  refine Polyfill.refused_iff (fun h => perform_of_provides hc h s) fun hlacks => ?_
  have hother : ∀ d, f.capability? = some d → host.provides d = false := by
    intro d hd
    obtain rfl : c = d := Option.some.inj (hc.symm.trans hd)
    exact hlacks
  rw [perform_of_lacks hother]
  exact Scene.ne_of_notes [] rfl

/-- The host does not matter to a function that belongs to no capability. -/
lemma act_eq_of_ungated (hc : f.capability? = none) (host host' : Host) (ops : OpTable) :
    f.act ⟨host, ops⟩ = f.act ⟨host', ops⟩ := by
  cases f with
  | encodeUriComponent | decodeUriComponent | encodeUri | decodeUri | randomUuid => cases hc
  | _ => rfl

end TextFunction

/-! ## Calls with values -/

namespace Call

variable {env : Environment} {f : TextFunction}

/-- A call with one value gives the text of the value to its function. -/
lemma perform_of_map {v : Value} {make : String → TextFunction} {next : String → Act Reply}
    (h : (v.toText.map fun text => some (make text)) = .ok (some f))
    (hnext : ∀ text, next text = replyText ((make text).act env)) :
    (text v >>= next) = replyText (f.act env) := by
  cases hv : v.toText with
  | error e =>
    rw [hv] at h
    cases h
  | ok t =>
    rw [hv] at h
    obtain rfl : make t = f := Option.some.inj (Except.ok.inj h)
    rw [← hnext t, text, hv]
    rfl

/-- A call of a text function gives the function the texts of its values, and replies with what the
function gives. -/
lemma perform_of_function? {call : Call} (h : call.function? = .ok (some f)) :
    call.perform env = replyText (f.act env) := by
  cases call with
  | btoa v => exact perform_of_map h fun _ => rfl
  | atob v => exact perform_of_map h fun _ => rfl
  | digest a v => exact perform_of_map h fun _ => rfl
  | encodeUriComponent v => exact perform_of_map h fun _ => rfl
  | decodeUriComponent v => exact perform_of_map h fun _ => rfl
  | encodeUri v => exact perform_of_map h fun _ => rfl
  | decodeUri v => exact perform_of_map h fun _ => rfl
  | randomUuid =>
    obtain rfl : TextFunction.randomUuid = f := Option.some.inj (Except.ok.inj h)
    rfl
  | utilsDigest a v => exact perform_of_map h fun _ => rfl
  | utilsHmac a key v =>
    cases hkey : key.toText with
    | error e =>
      rw [function?, hkey] at h
      cases h
    | ok k =>
      rw [function?, hkey] at h
      have hperform : perform env (utilsHmac a key v) =
          (text v >>= fun t => replyText (env.cryptoUtils.hmac a k t)) := by
        rw [perform, text, hkey]
        rfl
      rw [hperform]
      exact perform_of_map h fun _ => rfl
  | utilsEncode c v =>
    cases c with
    | base64 => exact perform_of_map h fun _ => rfl
    | hex => exact perform_of_map h fun _ => rfl
    | url => exact perform_of_map h fun _ => rfl
    | uriComponent | uri => cases h
  | utilsDecode c v =>
    cases c with
    | base64 => exact perform_of_map h fun _ => rfl
    | hex => exact perform_of_map h fun _ => rfl
    | url => exact perform_of_map h fun _ => rfl
    | uriComponent | uri => cases h
  | _ => cases h

/-- A text function that fails makes the call fail, and nothing else does. -/
lemma perform_replyText_eq_error_iff {act : Act String} {e : Error} {s t : Scene} :
    (replyText act).perform s = (.error e, t) ↔ act.perform s = (.error e, t) := by
  rw [replyText, Act.perform_bind]
  rcases act.perform s with ⟨outcome, s'⟩
  cases outcome with
  | error e' => simp
  | ok text =>
    constructor
    · intro h
      cases h
    · intro h
      cases h

/-- A call that fills an array replies with what became of the array. -/
lemma perform_getRandomValues_eq_iff {element : Element} {bytes : List UInt8}
    {outcome : Except Error (List String)} {array : List String} {s t : Scene} :
    (perform env (.getRandomValues element bytes)).perform s = (.ok (.filling outcome array), t) ↔
      env.getRandomValues element.ofByte (bytes.map element.ofByte) s = (⟨outcome, array⟩, t) := by
  have hperform : (perform env (.getRandomValues element bytes)).perform s =
      (.ok (.filling
        (env.getRandomValues element.ofByte (bytes.map element.ofByte) s).1.outcome
        (env.getRandomValues element.ofByte (bytes.map element.ofByte) s).1.array),
      (env.getRandomValues element.ofByte (bytes.map element.ofByte) s).2) := rfl
  rw [hperform]
  rcases env.getRandomValues element.ofByte (bytes.map element.ofByte) s with ⟨⟨o, a⟩, s'⟩
  simp

end Call

/-! ## Timers, workers and random elements -/

namespace Environment

variable {host : Host} {ops : OpTable}

lemma timers_refused_iff (ops : OpTable) (s : Scene) :
    (timers ⟨host, ops⟩).perform s = (.error (.providedByHost .timers), s) ↔
      host.provides .timers = true := by
  rw [timers, require, Act.perform_ofExcept, isInstalled]
  cases host.provides .timers with
  | false => simp
  | true => simp

/-- Making a worker starts with a draw, and the draw is noted whatever it comes to. -/
lemma notes_spawnWorker (url : String) (s : Scene) (h : host.provides .worker = false) :
    ∃ rest, ((spawnWorker ⟨host, ops⟩ url).perform s).2.notes =
      s.notes ++ .op ops.recorded .randomScalar :: rest := by
  rw [spawnWorker, perform_require_bind, if_neg (Bool.eq_false_iff.mp h), Act.perform_bind]
  have hdraw : ops.drawScalar.perform s = ((ops.scalar s.entropy).1,
      ⟨(ops.scalar s.entropy).2, s.notes ++ [.op ops.recorded .randomScalar]⟩) := rfl
  rw [hdraw]
  cases (ops.scalar s.entropy).1 with
  | error e => exact ⟨[], rfl⟩
  | ok x =>
    refine ⟨[.debug ("Worker " ++ toString (workerNumber x) ++ " created for [" ++ url ++ "]")], ?_⟩
    exact List.append_assoc s.notes [_] [_]

lemma spawnWorker_refused_iff (ops : OpTable) (url : String) (s : Scene) :
    (spawnWorker ⟨host, ops⟩ url).perform s = (.error (.providedByHost .worker), s) ↔
      host.provides .worker = true := by
  refine refused_iff (fun h => ?_) fun hlacks => ?_
  · rw [spawnWorker, perform_require_bind, if_pos h]
  · obtain ⟨rest, hnotes⟩ := notes_spawnWorker url s hlacks
    exact Scene.ne_of_notes rest hnotes

variable {α : Type} (ofByte : UInt8 → α)

/-- The elements that an answer stands for, if it was asked for `count` random bytes. -/
def elementsOf (count : Nat) (answer : Except Error String) : Except Error (List α) :=
  answer.bind fun hex => (randomBytesOf count hex).map (·.map ofByte)

/-- Where the host does not fill arrays itself, random elements take one call, and what they come to
is decided by its answer. -/
lemma perform_randomElements (h : host.provides .getRandomValues = false) (count : Nat)
    (s : Scene) :
    (randomElements ⟨host, ops⟩ ofByte count).perform s =
      (elementsOf ofByte count (ops.handOn (.randomBytes count) s).1,
        (ops.handOn (.randomBytes count) s).2) := by
  have hcall : (ops.call (.randomBytes count)).perform s = ops.handOn (.randomBytes count) s := rfl
  rw [randomElements, perform_require_bind, if_neg (Bool.eq_false_iff.mp h), Act.perform_bind,
    hcall]
  rcases ops.handOn (.randomBytes count) s with ⟨answer, s'⟩
  cases answer with
  | error e => rfl
  | ok hex =>
    simp only [Act.perform_bind, Act.perform_ofExcept, elementsOf, Except.bind]
    cases randomBytesOf count hex with
    | error e => rfl
    | ok bytes => rfl

/-- What becomes of an array, by what there is to fill it with. -/
def Filling.ofOutcome (array : List α) : Except Error (List α) → Filling α
  | .ok filled => ⟨.ok filled, filled⟩
  | .error e => ⟨.error e, array⟩

lemma getRandomValues_eq (env : Environment) (array : List α) (s : Scene) :
    env.getRandomValues ofByte array s =
      (.ofOutcome array ((env.randomElements ofByte array.length).perform s).1,
        ((env.randomElements ofByte array.length).perform s).2) := by
  rw [getRandomValues]
  rcases (env.randomElements ofByte array.length).perform s with ⟨outcome, s'⟩
  cases outcome with
  | error e => rfl
  | ok filled => rfl

/-- An array is refused as it is exactly if the host fills arrays itself. -/
lemma getRandomValues_refused_iff (ops : OpTable) (array : List α) (s : Scene) :
    getRandomValues ⟨host, ops⟩ ofByte array s =
        (⟨.error (.providedByHost .getRandomValues), array⟩, s) ↔
      host.provides .getRandomValues = true := by
  rw [getRandomValues_eq]
  refine refused_iff (fun h => ?_) fun hlacks => ?_
  · rw [randomElements, perform_require_bind, if_pos h, Filling.ofOutcome]
  · rw [perform_randomElements ofByte hlacks]
    exact Scene.ne_of_notes [] rfl

end Environment

/-! ## Refusals in a session -/

lemma Answer.ofOutcome_injective : Function.Injective Answer.ofOutcome := by
  intro a b h
  cases a with
  | error e =>
    cases b with
    | error e' => exact congrArg Except.error (Failure.error.inj (Except.error.inj h))
    | ok reply => cases h
  | ok reply =>
    cases b with
    | error e => cases h
    | ok reply' => exact congrArg Except.ok (Except.ok.inj h)

namespace Session.World

variable {α : Type} {host : Host} {ops : OpTable} {w : World} {name : String} {q : QueueId}
  {t : TimersId}

/-- An act leaves the world as it is exactly if it draws nothing and notes nothing. -/
lemma perform_eq_self_iff {act : Act α} {outcome : Except Error α} :
    w.perform act = (outcome, w) ↔
      act.perform ⟨w.entropy, []⟩ = (outcome, ⟨w.entropy, []⟩) := by
  rw [World.perform]
  rcases act.perform ⟨w.entropy, []⟩ with ⟨result, entropy, notes⟩
  constructor
  · intro h
    have hentropy : entropy = w.entropy := congrArg (fun r => r.2.entropy) h
    have hhistory : w.history ++ notes.map Event.note = w.history :=
      congrArg (fun r => r.2.history) h
    have hnotes : notes = [] := List.map_eq_nil_iff.mp (List.append_right_eq_self.mp hhistory)
    have houtcome : result = outcome := congrArg Prod.fst h
    rw [hentropy, hnotes, houtcome]
  · intro h
    obtain ⟨rfl, rfl, rfl⟩ : result = outcome ∧ entropy = w.entropy ∧ notes = [] := by
      simpa using h
    simp

/-- A call is answered with the world as it was exactly if its act leaves the scene as it was. -/
lemma execute_call_eq_iff (henv : w.environment? name = some (⟨host, ops⟩, q, t)) {call : Call}
    (outcome : Except Error Reply) :
    w.execute (.crypto (.call name (.ok call))) = (w, .done (Answer.ofOutcome outcome)) ↔
      (call.perform ⟨host, ops⟩).perform ⟨w.entropy, []⟩ = (outcome, ⟨w.entropy, []⟩) := by
  have hexecute : w.execute (.crypto (.call name (.ok call))) =
      ((w.perform (call.perform ⟨host, ops⟩)).2,
        .done (Answer.ofOutcome (w.perform (call.perform ⟨host, ops⟩)).1)) := by
    simp only [execute, crypto, henv, withHandle, atOnce]
  rw [hexecute, ← perform_eq_self_iff]
  constructor
  · intro h
    have hworld := congrArg Prod.fst h
    have hanswer := Effect.done.inj (congrArg Prod.snd h)
    exact Prod.ext (Answer.ofOutcome_injective hanswer) hworld
  · intro h
    rw [h]

/-- A call of a text function is refused, with the world as it was, exactly if the host provides the
capability of the function. -/
lemma function_refused_iff (henv : w.environment? name = some (⟨host, ops⟩, q, t)) {call : Call}
    {f : TextFunction} {c : Capability} (hf : call.function? = .ok (some f))
    (hc : f.capability? = some c) :
    w.execute (.crypto (.call name (.ok call))) =
        (w, .done (Answer.fault (.providedByHost c))) ↔ host.provides c = true := by
  rw [← TextFunction.refused_iff hc ops ⟨w.entropy, []⟩,
    ← Call.perform_replyText_eq_error_iff, ← Call.perform_of_function? hf]
  exact execute_call_eq_iff henv (.error (.providedByHost c))

lemma getRandomValues_refused_iff (henv : w.environment? name = some (⟨host, ops⟩, q, t))
    (element : Element) (bytes : List UInt8) :
    w.execute (.crypto (.call name (.ok (.getRandomValues element bytes)))) =
        (w, .done (.ok (.filling (.error (.providedByHost .getRandomValues))
          (bytes.map element.ofByte)))) ↔
      host.provides .getRandomValues = true := by
  rw [← Environment.getRandomValues_refused_iff element.ofByte ops (bytes.map element.ofByte)
    ⟨w.entropy, []⟩, ← Call.perform_getRandomValues_eq_iff]
  exact execute_call_eq_iff henv (.ok _)

/-- The timers are refused, with the world as it was, exactly if the host provides them. -/
lemma timersOf_refused_iff (henv : w.environment? name = some (⟨host, ops⟩, q, t)) (as : String) :
    w.execute (.timersOf as name) = (w, .done (Answer.fault (.providedByHost .timers))) ↔
      host.provides .timers = true := by
  rw [← Environment.timers_refused_iff ops ⟨w.entropy, []⟩, ← perform_eq_self_iff]
  simp only [execute, henv, withHandle, atOnce]
  rcases w.perform (Environment.timers ⟨host, ops⟩) with ⟨outcome, w'⟩
  cases outcome with
  | error e => simp [Answer.fault, and_comm]
  | ok leave => simp [Answer.fault, Answer.done, Answer.data]

/-- A new worker is refused, with the world as it was, exactly if the host provides workers. -/
lemma spawnWorker_refused_iff (henv : w.environment? name = some (⟨host, ops⟩, q, t))
    (as url : String) :
    w.execute (.spawnWorker as name url) = (w, .done (Answer.fault (.providedByHost .worker))) ↔
      host.provides .worker = true := by
  rw [← Environment.spawnWorker_refused_iff ops url ⟨w.entropy, []⟩,
    ← perform_eq_self_iff]
  simp only [execute, spawnWorker, henv, withHandle, atOnce]
  rcases w.perform (Environment.spawnWorker ⟨host, ops⟩ url) with ⟨outcome, w'⟩
  cases outcome with
  | error e => simp [Answer.fault, and_comm]
  | ok id => simp [Answer.fault, Answer.data]

end Session.World

/-! ## Routes to a digest -/

lemma OpTable.oneShot_hex (t : OpTable) (op : TextOp) (s : Scene) :
    t.oneShot op .hex s = t.handOn op s := by
  unfold oneShot handOn
  rcases t.answer op s.entropy with ⟨outcome, rest⟩
  cases outcome with
  | error e => rfl
  | ok hex => rfl

/-- A builder of a digest that is given one text does what the function for the digest does. -/
lemma HashBuilder.perform_digest_update {a : HashAlgorithm} {given : String}
    (ha : Named given a.name) (ops : OpTable) (text : String) (s : Scene) :
    (((HashBuilder.new ops given).update text).digest .hex).perform s =
      ops.handOn (.digest a text) s := by
  have hbuffer : ((HashBuilder.new ops given).update text).buffer = text := String.empty_append
  rw [digest_eq, hbuffer, ← OpTable.oneShot_hex]
  exact (perform_digestBy HashAlgorithm.finds ops (.digest · text) (fun _ => rfl) given .hex s).1
    a ha

/-- A builder of a keyed digest that is given one text does what the function for it does. -/
lemma HmacBuilder.perform_digest_update {a : HmacAlgorithm} {given : String}
    (ha : Named given a.name) (ops : OpTable) (key text : String) (s : Scene) :
    (((HmacBuilder.new ops given key).update text).digest .hex).perform s =
      ops.handOn (.hmac a key text) s := by
  have hbuffer : ((HmacBuilder.new ops given key).update text).buffer = text :=
    String.empty_append
  rw [digest_eq, hbuffer, ← OpTable.oneShot_hex]
  exact (perform_digestBy HmacAlgorithm.finds ops (.hmac · key text) (fun _ => rfl) given .hex s).1
    a ha

lemma HashAlgorithm.named_name (a : HashAlgorithm) : Named a.name a.name := by
  cases a with
  | md5 | sha1 | sha256 | sha512 => rfl

lemma HmacAlgorithm.named_name (a : HmacAlgorithm) : Named a.name a.name := by
  cases a with
  | md5 | sha1 | sha256 => rfl

/-- Every function of an environment is gated by its own capability, or by none.  An environment
keeps the host and the ops it was installed with.  A function of a capability is refused, with no op
called and nothing changed, exactly if the host provides that capability; in a session the whole
world is then as it was.  Otherwise a text function calls one op, with the texts of its arguments,
and hands on the answer.  What belongs to no capability, the helpers included, is the same on every
host, and the three routes to a digest and the two to a keyed digest call the same op and come to
the same. -/
theorem facade_gated_and_transparent (host : Host) (ops : OpTable) :
    let env : Environment := ⟨host, ops⟩
    (∀ s, ((Environment.install host ops).perform s).1 = .ok env) ∧
    (∀ (f : TextFunction) (s : Scene),
      (∀ c, f.capability? = some c →
        ((f.act env).perform s = (.error (.providedByHost c), s) ↔ host.provides c = true)) ∧
      ((∀ c, f.capability? = some c → host.provides c = false) →
        (f.act env).perform s = ops.handOn (f.op ops) s)) ∧
    (∀ (call : Call) (f : TextFunction), call.function? = .ok (some f) →
      call.perform env = Call.replyText (f.act env)) ∧
    (∀ s, env.timers.perform s = (.error (.providedByHost .timers), s) ↔
      host.provides .timers = true) ∧
    (∀ url s, (env.spawnWorker url).perform s = (.error (.providedByHost .worker), s) ↔
      host.provides .worker = true) ∧
    (∀ {α : Type} (ofByte : UInt8 → α) (array : List α) (s : Scene),
      env.getRandomValues ofByte array s =
        (⟨.error (.providedByHost .getRandomValues), array⟩, s) ↔
      host.provides .getRandomValues = true) ∧
    (∀ (w : Session.World) (name : String) (q : Session.QueueId) (t : Session.TimersId),
      w.environment? name = some (env, q, t) →
      (∀ call f c, Call.function? call = .ok (some f) → f.capability? = some c →
        (w.execute (.crypto (.call name (.ok call))) =
          (w, .done (Answer.fault (.providedByHost c))) ↔ host.provides c = true)) ∧
      (∀ as, w.execute (.timersOf as name) =
        (w, .done (Answer.fault (.providedByHost .timers))) ↔ host.provides .timers = true) ∧
      (∀ as url, w.execute (.spawnWorker as name url) =
        (w, .done (Answer.fault (.providedByHost .worker))) ↔ host.provides .worker = true) ∧
      (∀ element bytes, w.execute (.crypto (.call name (.ok (.getRandomValues element bytes)))) =
        (w, .done (.ok (.filling (.error (.providedByHost .getRandomValues))
          (bytes.map element.ofByte)))) ↔ host.provides .getRandomValues = true)) ∧
    (∀ host' : Host, env.cryptoRandom = Environment.cryptoRandom ⟨host', ops⟩ ∧
      env.cryptoUtils = Environment.cryptoUtils ⟨host', ops⟩ ∧
      ∀ f : TextFunction, f.capability? = none → f.act env = f.act ⟨host', ops⟩) ∧
    (∀ a : HashAlgorithm, Named a.name a.name ∧ ∀ given text s, Named given a.name →
      (env.cryptoUtils.digest a text).perform s = (env.digest a text).perform s ∧
      (((env.cryptoUtils.createHash given).update text).digest .hex).perform s =
        (env.digest a text).perform s) ∧
    (∀ a : HmacAlgorithm, Named a.name a.name ∧ ∀ given key text s, Named given a.name →
      (((env.cryptoUtils.createHmac given key).update text).digest .hex).perform s =
        (env.cryptoUtils.hmac a key text).perform s) := by
  intro env
  refine ⟨fun s => rfl, fun f s => ⟨fun c hc => TextFunction.refused_iff hc ops s, fun h => ?_⟩,
    fun call f hf => Call.perform_of_function? hf, Environment.timers_refused_iff ops,
    Environment.spawnWorker_refused_iff ops,
    fun ofByte => Environment.getRandomValues_refused_iff ofByte ops,
    fun w name q t henv => ⟨fun call f c hf hc => ?_, ?_, ?_, ?_⟩,
    fun host' => ⟨rfl, rfl, fun f hf => ?_⟩, fun a => ⟨a.named_name, fun given text s ha => ?_⟩,
    fun a => ⟨a.named_name, fun given key text s ha => ?_⟩⟩
  · exact TextFunction.perform_of_lacks h s
  · exact Session.World.function_refused_iff henv hf hc
  · exact Session.World.timersOf_refused_iff henv
  · exact Session.World.spawnWorker_refused_iff henv
  · exact Session.World.getRandomValues_refused_iff henv
  · exact TextFunction.act_eq_of_ungated hf host host' ops
  · exact ⟨rfl, HashBuilder.perform_digest_update ha ops text s⟩
  · exact HmacBuilder.perform_digest_update ha ops key text s

end Polyfill
