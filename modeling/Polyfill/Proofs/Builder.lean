import Mathlib.Logic.Function.Basic
import Mathlib.Tactic.Common
import Polyfill.Proofs.Act
import Polyfill.Session.Perform
/-!
# Builders do what one call of an op does

However a text is cut into updates, and whatever digests are asked for in between, a builder holds
the name and the key it was made with and the text gathered so far (`HashBuilder.builder_run`,
`HmacBuilder.builder_run`).  A digest then is one call of an op on that text (`OpTable.oneShot`): an
algorithm that goes by the name, up to ASCII case, is asked once, and the encoder once more if the
digest is to be in base64.  Without such an algorithm nothing is asked at all.

Both kinds of builders look an algorithm up by its name (`Finds`) and then do the same
(`digestBy`).
-/

namespace Polyfill

/-! ## Names of algorithms -/

/-- A given name is, up to ASCII case, a name in small letters. -/
def Named (given name : String) : Prop :=
  given.toList.map Char.toLower = name.toList

lemma toLower_eq (c : Char) :
    (if 'A' ≤ c ∧ c ≤ 'Z' then Char.ofNat (c.toNat + 32) else c) = c.toLower := by
  have hcapital : ∀ n < 26, Char.ofNat (65 + n + 32) = (Char.ofNat (65 + n)).toLower := by decide
  split
  · rename_i h
    have hlow : 65 ≤ c.toNat := h.1
    have hhigh : c.toNat ≤ 90 := h.2
    have hc := hcapital (c.toNat - 65) (by omega)
    rwa [Nat.add_sub_cancel' hlow, Char.ofNat_toNat] at hc
  · rename_i h
    have hval : ¬(c.val ≥ 'A'.val ∧ c.val ≤ 'Z'.val) := h
    change c = if h : c.val ≥ 'A'.val ∧ c.val ≤ 'Z'.val then _ else c
    rw [dif_neg hval]

/-- Looking a name up in small letters is looking it up without regard to ASCII case. -/
lemma eq_asciiLower_iff {given name : String} :
    name = Text.asciiLower given ↔ Named given name := by
  rw [Text.asciiLower, Named, ← String.toList_inj, String.toList_ofList]
  simp only [toLower_eq]
  exact eq_comm

/-- Searching all there is for a name in small letters finds what goes by that name. -/
lemma find?_eq_some_iff {α : Type} {all : List α} {name : α → String} {given : String} {a : α}
    (hall : ∀ a, a ∈ all) (hname : Function.Injective name) :
    (all.find? fun a => name a == Text.asciiLower given) = some a ↔ Named given (name a) := by
  have hnamed : ∀ {b : α}, (all.find? fun a => name a == Text.asciiLower given) = some b →
      Named given (name b) := by
    intro b h
    have hbeq := List.find?_some h
    exact eq_asciiLower_iff.mp (eq_of_beq hbeq)
  refine ⟨hnamed, fun h => ?_⟩
  cases hfind : all.find? fun a => name a == Text.asciiLower given with
  | none =>
    exact absurd (beq_iff_eq.mpr (eq_asciiLower_iff.mpr h))
      (List.find?_eq_none.mp hfind a (hall a))
  | some b =>
    -- Whatever is found goes by the same name, and names are not shared.
    have hsame : name b = name a := String.toList_inj.mp ((hnamed hfind).symm.trans h)
    exact congrArg some (hname hsame)

/-- A look-up finds what goes by a name, and reports a name that nothing goes by as it was given. -/
structure Finds {α : Type} (name : α → String) (lookup : String → Except Error α) : Prop where
  found : ∀ {given : String} {a : α}, Named given (name a) → lookup given = .ok a
  missing : ∀ {given : String}, (∀ a, ¬Named given (name a)) →
    lookup given = .error (.unsupportedAlgorithm given)

lemma finds_of_find? {α : Type} (all : List α) {name : α → String}
    {lookup : String → Except Error α} (hall : ∀ a, a ∈ all) (hname : Function.Injective name)
    (hsome : ∀ {given a}, (all.find? fun a => name a == Text.asciiLower given) = some a →
      lookup given = .ok a)
    (hnone : ∀ {given}, (all.find? fun a => name a == Text.asciiLower given) = none →
      lookup given = .error (.unsupportedAlgorithm given)) : Finds name lookup := by
  constructor
  · intro given a h
    exact hsome ((find?_eq_some_iff hall hname).mpr h)
  · intro given h
    refine hnone (Option.eq_none_iff_forall_ne_some.mpr fun a ha => ?_)
    exact h a ((find?_eq_some_iff hall hname).mp ha)

lemma HashAlgorithm.finds : Finds name ofName :=
  finds_of_find? all (fun a => by cases a <;> decide)
    (fun a b => by cases a <;> cases b <;> decide) (fun h => by rw [ofName, h])
    (fun h => by rw [ofName, h])

lemma HmacAlgorithm.finds : Finds name ofName :=
  finds_of_find? all (fun a => by cases a <;> decide)
    (fun a b => by cases a <;> cases b <;> decide) (fun h => by rw [ofName, h])
    (fun h => by rw [ofName, h])

/-! ## One digest -/

/-- One call of an op for a digest, and one of the encoder if the digest is to be in base64: the
outcome, and the scene with the calls noted.  A failure is handed on as it is. -/
def OpTable.oneShot (t : OpTable) (op : TextOp) (encoding : DigestEncoding) (s : Scene) :
    Except Error String × Scene :=
  match t.answer op s.entropy, encoding with
  | (.error e, rest), _ => (.error e, ⟨rest, s.notes ++ [.op t.recorded (.text op)]⟩)
  | (.ok hex, rest), .hex => (.ok hex, ⟨rest, s.notes ++ [.op t.recorded (.text op)]⟩)
  | (.ok hex, rest), .base64 =>
    match t.answer (.encode .base64 hex) rest with
    | (outcome, rest) =>
      (outcome, ⟨rest, s.notes ++ [.op t.recorded (.text op)] ++
        [.op t.recorded (.text (.encode .base64 hex))]⟩)

/-- Asks for a digest by an op, if the op is known, and writes it in an encoding. -/
def digestBy (t : OpTable) (op : Except Error TextOp) (encoding : DigestEncoding) : Act String := do
  let op ← Act.ofExcept op
  let hex ← t.call op
  encoding.write t hex

lemma perform_digestBy_error (t : OpTable) (e : Error) (encoding : DigestEncoding) (s : Scene) :
    (digestBy t (.error e) encoding).perform s = (.error e, s) := by
  rw [digestBy, Act.perform_bind, Act.perform_ofExcept]

lemma perform_digestBy_ok {t : OpTable} {op : TextOp} (hop : t.resolve op = op)
    (encoding : DigestEncoding) (s : Scene) :
    (digestBy t (.ok op) encoding).perform s = t.oneShot op encoding s := by
  rw [digestBy, Act.perform_bind, Act.perform_ofExcept]
  simp only [Act.perform_bind, OpTable.perform_call, hop, OpTable.oneShot]
  rcases t.answer op s.entropy with ⟨outcome, rest⟩
  cases outcome with
  | error e => rfl
  | ok hex =>
    cases encoding with
    | hex => rfl
    | base64 => rfl

/-- A digest by an algorithm that goes by the name is one call of its op, and a digest by a name
that no algorithm goes by asks for nothing. -/
lemma perform_digestBy {α : Type} {name : α → String} {lookup : String → Except Error α}
    (h : Finds name lookup) (t : OpTable) (op : α → TextOp) (hop : ∀ a, t.resolve (op a) = op a)
    (given : String) (encoding : DigestEncoding) (s : Scene) :
    (∀ a, Named given (name a) →
      (digestBy t ((lookup given).map op) encoding).perform s = t.oneShot (op a) encoding s) ∧
    ((∀ a, ¬Named given (name a)) →
      (digestBy t ((lookup given).map op) encoding).perform s =
        (.error (.unsupportedAlgorithm given), s)) := by
  refine ⟨fun a ha => ?_, fun hnone => ?_⟩
  · rw [h.found ha]
    exact perform_digestBy_ok (hop a) encoding s
  · rw [h.missing hnone]
    exact perform_digestBy_error t _ encoding s

lemma HashBuilder.digest_eq (b : HashBuilder) (encoding : DigestEncoding) :
    b.digest encoding =
      digestBy b.ops ((HashAlgorithm.ofName b.algorithm).map (.digest · b.buffer)) encoding := by
  unfold digest digestBy
  cases HashAlgorithm.ofName b.algorithm <;> rfl

lemma HmacBuilder.digest_eq (b : HmacBuilder) (encoding : DigestEncoding) :
    b.digest encoding =
      digestBy b.ops ((HmacAlgorithm.ofName b.algorithm).map (.hmac · b.key b.buffer))
        encoding := by
  unfold digest digestBy
  cases HmacAlgorithm.ofName b.algorithm <;> rfl

/-! ## Many calls -/

/-- A call on a builder. -/
inductive BuilderCall where
  | update (text : String)
  | digest (encoding : DigestEncoding)

/-- The text that a call adds to a builder. -/
def BuilderCall.added : BuilderCall → String
  | update text => text
  | digest _ => ""

/-- The texts of all updates, joined in order. -/
def gathered (calls : List BuilderCall) : String :=
  String.join (calls.map BuilderCall.added)

/-- A builder in use: the builder, the scene, and what its digests have come to so far. -/
structure BuilderRun (β : Type) where
  builder : β
  scene : Scene
  outcomes : List (Except Error String)

namespace BuilderRun

variable {β : Type}

/-- The run after a digest; the builder stays as it is. -/
def digested (r : BuilderRun β) (result : Except Error String × Scene) : BuilderRun β :=
  ⟨r.builder, result.2, r.outcomes ++ [result.1]⟩

/-- The run after one more call. -/
def call (update : β → String → β) (digest : β → DigestEncoding → Act String)
    (r : BuilderRun β) : BuilderCall → BuilderRun β
  | .update text => { r with builder := update r.builder text }
  | .digest encoding => r.digested ((digest r.builder encoding).perform r.scene)

/-- Calls on a builder change it as far as updates do: each call is as good as one update. -/
lemma builder_call {update : β → String → β} {digest : β → DigestEncoding → Act String}
    (hempty : ∀ b, update b "" = b) (r : BuilderRun β) (c : BuilderCall) :
    (r.call update digest c).builder = update r.builder c.added := by
  cases c with
  | update text => rfl
  | digest encoding => exact (hempty r.builder).symm

/-- After any calls, a builder is as after one update with all texts joined. -/
lemma builder_calls {update : β → String → β} {digest : β → DigestEncoding → Act String}
    (hempty : ∀ b, update b "" = b)
    (happend : ∀ b x y, update (update b x) y = update b (x ++ y)) (r : BuilderRun β)
    (calls : List BuilderCall) :
    (calls.foldl (call update digest) r).builder = update r.builder (gathered calls) := by
  induction calls generalizing r with
  | nil => exact (hempty r.builder).symm
  | cons c calls ih =>
    rw [List.foldl_cons, ih, builder_call hempty, happend]
    simp only [gathered, List.map_cons, String.join_cons]

end BuilderRun

/-- Makes calls on a builder, one after the other. -/
def HashBuilder.run (b : HashBuilder) (scene : Scene) (calls : List BuilderCall) :
    BuilderRun HashBuilder :=
  calls.foldl (BuilderRun.call HashBuilder.update HashBuilder.digest) ⟨b, scene, []⟩

/-- Makes calls on a builder, one after the other. -/
def HmacBuilder.run (b : HmacBuilder) (scene : Scene) (calls : List BuilderCall) :
    BuilderRun HmacBuilder :=
  calls.foldl (BuilderRun.call HmacBuilder.update HmacBuilder.digest) ⟨b, scene, []⟩

lemma HashBuilder.builder_run (ops : OpTable) (name : String) (scene : Scene)
    (calls : List BuilderCall) :
    ((new ops name).run scene calls).builder = ⟨ops, name, gathered calls⟩ := by
  rw [run, BuilderRun.builder_calls]
  · simp [update, new]
  · simp [update]
  · simp [update, String.append_assoc]

lemma HmacBuilder.builder_run (ops : OpTable) (name key : String) (scene : Scene)
    (calls : List BuilderCall) :
    ((new ops name key).run scene calls).builder = ⟨ops, name, key, gathered calls⟩ := by
  rw [run, BuilderRun.builder_calls]
  · simp [update, new]
  · simp [update]
  · simp [update, String.append_assoc]

lemma HashBuilder.run_digest (b : HashBuilder) (scene : Scene) (calls : List BuilderCall)
    (encoding : DigestEncoding) :
    b.run scene (calls ++ [.digest encoding]) =
      (b.run scene calls).digested
        (((b.run scene calls).builder.digest encoding).perform (b.run scene calls).scene) := by
  rw [run, run, List.foldl_append]
  rfl

lemma HmacBuilder.run_digest (b : HmacBuilder) (scene : Scene) (calls : List BuilderCall)
    (encoding : DigestEncoding) :
    b.run scene (calls ++ [.digest encoding]) =
      (b.run scene calls).digested
        (((b.run scene calls).builder.digest encoding).perform (b.run scene calls).scene) := by
  rw [run, run, List.foldl_append]
  rfl

/-- A digest in a session writes notes and draws randomness, and leaves what names stand for. -/
lemma Session.World.names_crypto_digest (w : World) (builder : String) (encoding : Option String) :
    (w.crypto (.digest builder encoding)).1.names = w.names := by
  have htext : ∀ act : Act String, (w.answerText act).1.names = w.names := by
    intro act
    rw [answerText, World.perform]
    rcases act.perform ⟨w.entropy, []⟩ with ⟨outcome, scene⟩
    cases outcome <;> rfl
  simp only [crypto]
  split
  · exact htext _
  · exact htext _
  · rfl

/-- Builders do what one call of an op does.  After any calls a builder of either kind holds its
name, its key and the joined texts of all updates.  One more digest leaves it so and comes to what
one call of the op comes to on that text: of the algorithm that goes by the name up to ASCII case,
and without one to an error that carries the name as given, with nothing asked.  So builders that
gathered the same text are the same, however the text was cut and whatever was digested in between.
In a session, a digest leaves what every name stands for as it was. -/
theorem builders_refine_ops (ops : OpTable) (name key : String) (calls : List BuilderCall)
    (scene : Scene) :
    let hash := HashBuilder.new ops name
    let hmac := HmacBuilder.new ops name key
    let text := gathered calls
    (hash.run scene calls).builder = ⟨ops, name, text⟩ ∧
    (hmac.run scene calls).builder = ⟨ops, name, key, text⟩ ∧
    (∀ encoding,
      (∀ a : HashAlgorithm, Named name a.name →
        hash.run scene (calls ++ [.digest encoding]) = (hash.run scene calls).digested
          (ops.oneShot (.digest a text) encoding (hash.run scene calls).scene)) ∧
      ((∀ a : HashAlgorithm, ¬Named name a.name) →
        hash.run scene (calls ++ [.digest encoding]) = (hash.run scene calls).digested
          (.error (.unsupportedAlgorithm name), (hash.run scene calls).scene)) ∧
      (∀ a : HmacAlgorithm, Named name a.name →
        hmac.run scene (calls ++ [.digest encoding]) = (hmac.run scene calls).digested
          (ops.oneShot (.hmac a key text) encoding (hmac.run scene calls).scene)) ∧
      ((∀ a : HmacAlgorithm, ¬Named name a.name) →
        hmac.run scene (calls ++ [.digest encoding]) = (hmac.run scene calls).digested
          (.error (.unsupportedAlgorithm name), (hmac.run scene calls).scene))) ∧
    (∀ calls' scene', gathered calls' = text →
      (hash.run scene' calls').builder = (hash.run scene calls).builder ∧
      (hmac.run scene' calls').builder = (hmac.run scene calls).builder) ∧
    (∀ (w : Session.World) (builder : String) (encoding : Option String),
      (w.crypto (.digest builder encoding)).1.names = w.names) := by
  intro hash hmac text
  have hhash := HashBuilder.builder_run ops name scene calls
  have hhmac := HmacBuilder.builder_run ops name key scene calls
  refine ⟨hhash, hhmac, fun encoding => ?_, fun calls' scene' h => ?_,
    Session.World.names_crypto_digest⟩
  · obtain ⟨hfound, hmissing⟩ := perform_digestBy HashAlgorithm.finds ops
      (.digest · text) (fun _ => rfl) name encoding (hash.run scene calls).scene
    obtain ⟨hfound', hmissing'⟩ := perform_digestBy HmacAlgorithm.finds ops
      (.hmac · key text) (fun _ => rfl) name encoding (hmac.run scene calls).scene
    rw [HashBuilder.run_digest, HmacBuilder.run_digest, hhash, hhmac, HashBuilder.digest_eq,
      HmacBuilder.digest_eq]
    refine ⟨fun a ha => ?_, fun hnone => ?_, fun a ha => ?_, fun hnone => ?_⟩
    · rw [hfound a ha]
    · rw [hmissing hnone]
    · rw [hfound' a ha]
    · rw [hmissing' hnone]
  · rw [hhash, hhmac, HashBuilder.builder_run, HmacBuilder.builder_run, h]
    exact ⟨rfl, rfl⟩

end Polyfill
