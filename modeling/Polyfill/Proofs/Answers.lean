import Polyfill.Call
import Polyfill.Proofs.Act
/-!
# Acts and the answers of ops

An act learns of the world only what a table of ops answers to its calls (`Act.Asks`).  So if the
calls that it makes are answered alike from two tapes of randomness (`OpTable.Alike`), it comes to
the same outcome and leaves the same notes from both, although the tapes themselves may differ.

Every call of a function of an environment is such an act, and so is every digest of a builder.
-/

namespace Polyfill

/-- The call of an op that a note tells of. -/
def Note.call? : Note → Option Op
  | .op _ call => some call
  | .debug _ | .trace _ => none

/-- Whether calls, made one after the other, are answered alike from two tapes of randomness. -/
def OpTable.Alike (t : OpTable) : List Op → Entropy → Entropy → Prop
  | [], _, _ => True
  | .text op :: rest, e, e' =>
    (t.answer op e).1 = (t.answer op e').1 ∧ t.Alike rest (t.answer op e).2 (t.answer op e').2
  | .randomScalar :: rest, e, e' =>
    (t.scalar e).1 = (t.scalar e').1 ∧ t.Alike rest (t.scalar e).2 (t.scalar e').2

/-- From one tape all calls are answered alike. -/
lemma OpTable.alike_refl (t : OpTable) (calls : List Op) (e : Entropy) : t.Alike calls e e := by
  induction calls generalizing e with
  | nil => trivial
  | cons op rest ih =>
    cases op with
    | text op => exact ⟨rfl, ih _⟩
    | randomScalar => exact ⟨rfl, ih _⟩

namespace Act

variable {α β : Type} {t : OpTable}

/-- What an act comes to is decided by the answers of a table to the calls it makes: if these are
answered alike, the outcome and the notes are the same, and calls that are made later are answered
alike from what is left of the tapes. -/
def Asks (t : OpTable) (act : Act α) : Prop :=
  ∀ (e e' : Entropy) (notes : List Note), ∃ added,
    (act.perform ⟨e', notes⟩).2.notes = notes ++ added ∧
    ∀ later, t.Alike (added.filterMap Note.call? ++ later) e e' →
      (act.perform ⟨e, notes⟩).1 = (act.perform ⟨e', notes⟩).1 ∧
      (act.perform ⟨e, notes⟩).2.notes = notes ++ added ∧
      t.Alike later (act.perform ⟨e, notes⟩).2.entropy (act.perform ⟨e', notes⟩).2.entropy

lemma asks_pure (a : α) : (pure a : Act α).Asks t :=
  fun _ _ _ => ⟨[], (List.append_nil _).symm, fun _ h => ⟨rfl, (List.append_nil _).symm, h⟩⟩

lemma asks_ofExcept (outcome : Except Error α) : (ofExcept outcome).Asks t :=
  fun _ _ _ => ⟨[], (List.append_nil _).symm, fun _ h => ⟨rfl, (List.append_nil _).symm, h⟩⟩

lemma asks_debug (text : String) : (debug text).Asks t :=
  fun _ _ _ => ⟨[.debug text], rfl, fun _ h => ⟨rfl, rfl, h⟩⟩

lemma asks_call (op : TextOp) : (t.call op).Asks t :=
  fun _ _ _ => ⟨[.op t.recorded (.text (t.resolve op))], rfl, fun _ h => ⟨h.1, rfl, h.2⟩⟩

lemma asks_drawScalar : t.drawScalar.Asks t :=
  fun _ _ _ => ⟨[.op t.recorded .randomScalar], rfl, fun _ h => ⟨h.1, rfl, h.2⟩⟩

lemma asks_bind {act : Act α} {next : α → Act β} (hact : act.Asks t)
    (hnext : ∀ a, (next a).Asks t) : (act >>= next).Asks t := by
  intro e e' notes
  obtain ⟨added, hnotes, hadded⟩ := hact e e' notes
  simp only [perform_bind]
  rcases hs' : act.perform ⟨e', notes⟩ with ⟨outcome', e₁', notes₁'⟩
  rcases hs : act.perform ⟨e, notes⟩ with ⟨outcome, e₁, notes₁⟩
  rw [hs'] at hnotes
  rw [hs, hs'] at hadded
  obtain rfl : notes₁' = notes ++ added := hnotes
  cases outcome' with
  | error x =>
    -- The first part fails from the second tape, hence from the first one as well.
    refine ⟨added, rfl, fun later h => ?_⟩
    obtain ⟨houtcome, hnotes₁, hlater⟩ := hadded later h
    obtain rfl : outcome = .error x := houtcome
    exact ⟨rfl, hnotes₁, hlater⟩
  | ok a =>
    obtain ⟨added₂, hnotes₂, hadded₂⟩ := hnext a e₁ e₁' (notes ++ added)
    refine ⟨added ++ added₂, by rw [← List.append_assoc]; exact hnotes₂, fun later h => ?_⟩
    rw [List.filterMap_append, List.append_assoc] at h
    obtain ⟨houtcome, hnotes₁, hlater⟩ := hadded _ h
    obtain rfl : outcome = .ok a := houtcome
    obtain rfl : notes₁ = notes ++ added := hnotes₁
    rw [← List.append_assoc]
    exact hadded₂ later hlater

/-- An act whose outcome is only read in another way. -/
lemma Asks.read {act : Act α} (h : act.Asks t) (f : Except Error α → Except Error β) :
    Asks t (fun s => (f (act.perform s).1, (act.perform s).2) : Act β) := by
  intro e e' notes
  obtain ⟨added, hnotes, hadded⟩ := h e e' notes
  refine ⟨added, hnotes, fun later hlater => ?_⟩
  obtain ⟨houtcome, hrest⟩ := hadded later hlater
  exact ⟨congrArg f houtcome, hrest⟩

/-- If the calls that an act makes from a tape are answered alike from another one, it comes to the
same outcome from both and leaves the same notes. -/
lemma Asks.perform_eq {act : Act α} (h : act.Asks t) {e e' : Entropy}
    (halike : t.Alike ((act.perform ⟨e', []⟩).2.notes.filterMap Note.call?) e e') :
    (act.perform ⟨e, []⟩).1 = (act.perform ⟨e', []⟩).1 ∧
      (act.perform ⟨e, []⟩).2.notes = (act.perform ⟨e', []⟩).2.notes := by
  obtain ⟨added, hnotes, hadded⟩ := h e e' []
  rw [hnotes, List.nil_append] at halike
  obtain ⟨houtcome, hnotes', -⟩ := hadded [] (by rwa [List.append_nil])
  exact ⟨houtcome, hnotes'.trans hnotes.symm⟩

end Act

open Act

variable {t : OpTable}

/-! ## Builders and environments -/

lemma asks_write (encoding : DigestEncoding) (hex : String) :
    (encoding.write t hex).Asks t := by
  cases encoding with
  | hex => exact asks_pure hex
  | base64 => exact asks_call _

lemma HashBuilder.asks_digest (b : HashBuilder) (encoding : DigestEncoding) :
    (b.digest encoding).Asks b.ops :=
  asks_bind (asks_ofExcept _) fun _ => asks_bind (asks_call _) (asks_write encoding)

lemma HmacBuilder.asks_digest (b : HmacBuilder) (encoding : DigestEncoding) :
    (b.digest encoding).Asks b.ops :=
  asks_bind (asks_ofExcept _) fun _ => asks_bind (asks_call _) (asks_write encoding)

namespace Environment

variable (env : Environment)

lemma asks_require (c : Capability) : (env.require c).Asks t :=
  asks_ofExcept _

lemma asks_timers : env.timers.Asks t :=
  env.asks_require .timers

lemma asks_spawnWorker (url : String) : (env.spawnWorker url).Asks env.ops :=
  asks_bind (env.asks_require _) fun _ => asks_bind asks_drawScalar fun _ =>
    asks_bind (asks_debug _) fun _ => asks_pure _

lemma asks_install (host : Host) (ops : OpTable) : (install host ops).Asks t := by
  intro e e' notes
  have hnone : ((installMessages host).map Note.debug).filterMap Note.call? = [] := by
    rw [List.filterMap_map, List.filterMap_eq_nil_iff]
    exact fun _ _ => rfl
  refine ⟨(installMessages host).map Note.debug, rfl, fun later h => ⟨rfl, rfl, ?_⟩⟩
  rwa [hnone, List.nil_append] at h

lemma asks_randomElements {α : Type} (ofByte : UInt8 → α) (count : Nat) :
    (env.randomElements ofByte count).Asks env.ops :=
  asks_bind (env.asks_require _) fun _ => asks_bind (asks_call _) fun _ =>
    asks_bind (asks_ofExcept _) fun _ => asks_pure _

end Environment

namespace Call

lemma asks_text (v : Value) : (text v).Asks t :=
  asks_ofExcept _

lemma asks_reply (d : Datum) : (reply d).Asks t :=
  asks_pure _

lemma asks_replyText {act : Act String} (h : act.Asks t) : (replyText act).Asks t :=
  asks_bind h fun _ => asks_reply _

/-- Every call of a function of an environment asks the table of the environment only. -/
lemma asks_perform (env : Environment) (call : Call) : (call.perform env).Asks env.ops := by
  cases call with
  | getRandomValues element bytes =>
    have helements := env.asks_randomElements element.ofByte (bytes.map element.ofByte).length
    have hread := helements.read (fun outcome => Except.ok (match outcome with
      | .ok filled => Reply.filling (.ok filled) filled
      | .error e => .filling (.error e) (bytes.map element.ofByte)))
    convert hread using 1
    funext s
    simp only [perform, Environment.getRandomValues]
    rcases (env.randomElements element.ofByte (bytes.map element.ofByte).length).perform s with
      ⟨outcome, s'⟩
    cases outcome <;> rfl
  | digestEncoding name =>
    cases name with
    | none => exact asks_reply _
    | some name => exact asks_bind (asks_text _) fun _ => asks_reply _
  | _ =>
    simp only [perform, Environment.btoa, Environment.atob, Environment.digest,
      Environment.cryptoUtils, CryptoUtils.digest, CryptoUtils.hmac, CryptoUtils.encode,
      CryptoUtils.decode, Environment.encodeUriComponent, Environment.decodeUriComponent,
      Environment.encodeUri, Environment.decodeUri, Environment.cryptoRandom,
      Environment.randomUuid]
    repeat' with_reducible first
      | exact asks_text _
      | exact asks_reply _
      | exact asks_call _
      | exact asks_drawScalar
      | exact asks_ofExcept _
      | exact Environment.asks_require _ _
      | exact Environment.asks_randomElements _ _ _
      | refine asks_replyText ?_
      | refine asks_bind ?_ fun _ => ?_

end Call

end Polyfill
