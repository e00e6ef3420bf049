import Polyfill.Proofs.Codec.Written
import Polyfill.Proofs.Command.Outcome
import Polyfill.Proofs.Facade
/-!
# What one command encodes another decodes

A command for a codec finds its text in one of three places (`Options.Supplies`) and leaves what it
comes to in one of two (`Invocation.Leaves`).  Encoding asks the codec, and decoding takes the ends
of lines off first.  The written forms hold no ends of lines, so nothing but what came behind them
is taken off (`chomp_encode_append`), and the command that decodes leaves the text that the other
one was given (`command_round_trip`), also if all it got is what the other one printed.

Two of the codecs belong to globals that a host may provide; then their functions are refused, so
the hosts of both commands have to lack them.
-/

namespace Polyfill

namespace Codec

/-- The globals that a codec uses, to write and to read. -/
def globals : Codec → List Capability
  | uri => [.encodeUri, .decodeUri]
  | uriComponent => [.encodeUriComponent, .decodeUriComponent]
  | base64 | hex | url => []

/-- The name of a codec in a command line. -/
def optionName : Codec → String
  | base64 => "base64"
  | hex => "hex"
  | url => "url"
  | uri => "uri"
  | uriComponent => "uri-component"

/-- The function that writes a text. -/
def writer (text : String) : Codec → TextFunction
  | base64 => .btoa text
  | hex => .utilsHexEncode text
  | url => .utilsUrlEncode text
  | uri => .encodeUri text
  | uriComponent => .encodeUriComponent text

/-- The function that reads a text. -/
def reader (text : String) : Codec → TextFunction
  | base64 => .atob text
  | hex => .utilsHexDecode text
  | url => .utilsUrlDecode text
  | uri => .decodeUri text
  | uriComponent => .decodeUriComponent text

variable (c : Codec) (text : String)

/-- The functions of a codec belong to no capabilities but the globals that it uses. -/
lemma mem_globals_of_capability? {f : TextFunction} (hf : f = c.writer text ∨ f = c.reader text)
    {g : Capability} (hg : f.capability? = some g) : g ∈ c.globals := by
  rcases hf with rfl | rfl
  · cases c <;> cases hg <;> exact List.mem_cons_self
  · cases c <;> cases hg <;> exact List.mem_cons_of_mem _ List.mem_cons_self

/-- The built-in ops write a text as the codec does. -/
lemma answer_writer (e : Entropy) :
    OpTable.native.answer ((c.writer text).op OpTable.native) e = (.ok (c.encode text), e) := by
  cases c <;> rfl

/-- The built-in ops read a text as the codec does.  They read a whole address as they read a
component, which comes to the same. -/
lemma answer_reader (e : Entropy) :
    OpTable.native.answer ((c.reader text).op OpTable.native) e = (c.decode text, e) := by
  cases c <;> rfl

end Codec

namespace Command

/-! ## Codecs in a command -/

lemma codec?_optionName (c : Codec) : codec? c.optionName = some c := by
  cases c <;> rfl

lemma encodeWith_eq (env : Environment) (c : Codec) (text : String) :
    encodeWith env c text = (c.writer text).act env := by
  cases c <;> rfl

lemma decodeWith_eq (env : Environment) (c : Codec) (text : String) :
    decodeWith env c text = (c.reader text).act env := by
  cases c <;> rfl

section Lacking

variable {c : Codec} {host : Host} (h : ∀ g ∈ c.globals, host.provides g = false) (text : String)
  (s : Scene)

include h

/-- On a host that lacks the globals of a codec, writing gives the written form. -/
lemma fst_encodeWith :
    ((encodeWith ⟨host, OpTable.native⟩ c text).perform s).1 = .ok (c.encode text) := by
  have hlacks : ∀ g, (c.writer text).capability? = some g → host.provides g = false :=
    fun g hg => h g (c.mem_globals_of_capability? text (Or.inl rfl) hg)
  rw [encodeWith_eq, TextFunction.perform_of_lacks hlacks, OpTable.handOn, c.answer_writer]

/-- On a host that lacks the globals of a codec, reading gives what the codec reads. -/
lemma fst_decodeWith :
    ((decodeWith ⟨host, OpTable.native⟩ c text).perform s).1 = c.decode text := by
  have hlacks : ∀ g, (c.reader text).capability? = some g → host.provides g = false :=
    fun g hg => h g (c.mem_globals_of_capability? text (Or.inr rfl) hg)
  rw [decodeWith_eq, TextFunction.perform_of_lacks hlacks, OpTable.handOn, c.answer_reader]

end Lacking

/-- An action that hands on a text. -/
lemma fst_perform_text {x : Act String} {s : Scene} {text : String}
    (h : (x.perform s).1 = .ok text) :
    ((do return Output.text (← x) : Act Output).perform s).1 = .ok (.text text) := by
  rw [Act.perform_bind]
  rcases hx : x.perform s with ⟨outcome, s'⟩
  rw [hx] at h
  obtain rfl : outcome = .ok text := h
  rfl

lemma act_encode {o : Options} {c : Codec} (haction : o.action = "encode")
    (hcodec : codec? o.codec = some c) (text : String) (env : Environment) :
    act o (.ok text) env = do return Output.text (← encodeWith env c text) := by
  simp only [act, haction, hcodec]
  rfl

lemma act_decode {o : Options} {c : Codec} (haction : o.action = "decode")
    (hcodec : codec? o.codec = some c) (text : String) (env : Environment) :
    act o (.ok text) env = do return Output.text (← decodeWith env c (chomp text)) := by
  simp only [act, haction, hcodec]
  rfl

/-! ## Ends of lines -/

/-- Only the ends of lines behind a written form are taken off. -/
lemma chomp_encode_append (c : Codec) (s : String) {tail : String}
    (htail : ∀ ch ∈ tail.toList, ch = '\r' ∨ ch = '\n') :
    chomp (c.encode s ++ tail) = c.encode s := by
  have hkept : ∀ ch ∈ (c.encode s).toList, (ch == '\r' || ch == '\n') = false := by
    intro ch hch
    have hgraphic := (c.isGraphic_of_mem_encode hch).1
    rw [Bool.or_eq_false_iff, beq_eq_false_iff_ne, beq_eq_false_iff_ne]
    refine ⟨?_, ?_⟩
    · rintro rfl
      exact absurd hgraphic (by decide)
    · rintro rfl
      exact absurd hgraphic (by decide)
  have hdropped : ∀ ch ∈ tail.toList, (ch == '\r' || ch == '\n') = true := by
    intro ch hch
    rw [Bool.or_eq_true, beq_iff_eq, beq_iff_eq]
    exact htail ch hch
  rw [chomp, String.toList_append, Text.trimEnd_append hkept hdropped, String.ofList_toList]

/-! ## Commands -/

/-- Where a command that wants a text finds this one: with it, in a file, or on the standard
input. -/
def Options.Supplies (o : Options) (stdin : List UInt8) (disk : Disk) (text : String) : Prop :=
  match o.data, o.input with
  | some given, _ => given = text
  | none, some path => disk.read? path = some (Utf8.bytes text)
  | none, none => stdin = Utf8.bytes text

lemma readInput_of_supplies {o : Options} {stdin : List UInt8} {disk : Disk} {text : String}
    (h : o.Supplies stdin disk text) : readInput o stdin disk = .ok text := by
  have htext : Utf8.text? (Utf8.bytes text) = some text := Utf8.text?_eq_some_iff.mpr rfl
  unfold Options.Supplies at h
  unfold readInput
  cases hdata : o.data with
  | some given =>
    simp only [hdata] at h
    rw [h]
  | none =>
    cases hinput : o.input with
    | some path =>
      simp only [hdata, hinput] at h
      simp only [h, htext]
    | none =>
      simp only [hdata, hinput] at h
      simp only [h, htext]

/-- A command line with all that a command can see. -/
structure Invocation where
  args : List String
  stdin : List UInt8
  disk : Disk
  entropy : Entropy

namespace Invocation

/-- What a command leaves. -/
def outcome (i : Invocation) : Outcome :=
  run i.args i.stdin i.disk i.entropy

/-- A command asks for a text to be written or read by a codec, on a host that lacks the globals of
the codec; if it names a file for the output, that can be written. -/
structure Asks (i : Invocation) (action : String) (c : Codec) (o : Options) (text : String) :
    Prop where
  parse_eq : parse i.args = .run o
  action_eq : o.action = action
  codec_eq : o.codec = c.optionName
  lacks : ∃ host, Host.parse (o.host.getD "") = .ok host ∧ ∀ g ∈ c.globals, host.provides g = false
  supplies : o.Supplies i.stdin i.disk text
  writable : ∀ path, o.output = some path → i.disk.writable path = true

/-- A command ends well and leaves a text: as the whole of the file that it names, or else on a line
of the standard output. -/
def Leaves (i : Invocation) (o : Options) (text : String) : Prop :=
  i.outcome.code = 0 ∧
    match o.output with
    | some path =>
      i.outcome.stdout = "" ∧ (i.outcome.disk i.disk).read? path = some (Utf8.bytes text)
    | none => i.outcome.stdout = text ++ "\n" ∧ i.outcome.disk i.disk = i.disk

variable {i : Invocation} {action : String} {c : Codec} {o : Options} {text : String}

/-- A command whose action gives a text leaves it. -/
lemma Asks.leaves (h : i.Asks action c o text) {said : String}
    (hact : ∀ host s, (∀ g ∈ c.globals, host.provides g = false) →
      ((act o (.ok text) ⟨host, OpTable.native⟩).perform s).1 = .ok (.text said)) :
    i.Leaves o said := by
  obtain ⟨host, hhost, hlacks⟩ := h.lacks
  have hout : i.outcome = conclude o i.disk (result o (.ok text) i.entropy) := by
    rw [outcome, run, h.parse_eq]
    simp only
    rw [runOptions_eq, readInput_of_supplies h.supplies]
  have hresult : (result o (.ok text) i.entropy).1 = .ok (.text said) := by
    rw [fst_result hhost]
    exact hact host _ hlacks
  have hpair : result o (.ok text) i.entropy =
      (.ok (.text said), (result o (.ok text) i.entropy).2) := Prod.ext hresult rfl
  rw [Leaves, hout, hpair]
  cases houtput : o.output with
  | none => simp only [conclude, deliver, houtput, Outcome.disk, and_self]
  | some path =>
    simp only [conclude, deliver, houtput, if_pos (h.writable path houtput), Outcome.disk, true_and]
    exact i.disk.read?_write_self _ path

/-- A command that encodes leaves the written form of its text. -/
lemma Asks.leaves_encoded (h : i.Asks "encode" c o text) : i.Leaves o (c.encode text) := by
  refine h.leaves fun host s hlacks => ?_
  have hcodec : codec? o.codec = some c := by rw [h.codec_eq, codec?_optionName]
  rw [act_encode h.action_eq hcodec]
  exact fst_perform_text (fst_encodeWith hlacks text s)

/-- A command that decodes leaves what the codec reads in its text without the ends of lines behind
it. -/
lemma Asks.leaves_decoded (h : i.Asks "decode" c o text) {said : String}
    (hread : c.decode (chomp text) = .ok said) : i.Leaves o said := by
  refine h.leaves fun host s hlacks => ?_
  have hcodec : codec? o.codec = some c := by rw [h.codec_eq, codec?_optionName]
  rw [act_decode h.action_eq hcodec]
  exact fst_perform_text ((fst_decodeWith hlacks (chomp text) s).trans hread)

lemma Leaves.stdout_eq (h : i.Leaves o text) (houtput : o.output = none) :
    i.outcome.stdout = text ++ "\n" := by
  have hprinted := h.2
  rw [houtput] at hprinted
  exact hprinted.1

end Invocation

/-- Whatever text a command encodes, with whichever codec, another one decodes: it may get the
written form with any ends of lines behind it.  So a text gets through a pipe whole, with the ends
of lines that it begins or ends with, and the one that is printed behind it is no part of it. -/
theorem command_round_trip (c : Codec) (s : String) :
    ∃ e : String,
      (∀ (i : Invocation) o, i.Asks "encode" c o s → i.Leaves o e) ∧
      (∀ tail : String, (∀ ch ∈ tail.toList, ch = '\r' ∨ ch = '\n') →
        ∀ (i : Invocation) o, i.Asks "decode" c o (e ++ tail) → i.Leaves o s) ∧
      ∀ (i j : Invocation) o o', i.Asks "encode" c o s → o.output = none →
        j.Asks "decode" c o' i.outcome.stdout → j.Leaves o' s := by
  have hdecode : ∀ tail : String, (∀ ch ∈ tail.toList, ch = '\r' ∨ ch = '\n') →
      ∀ (i : Invocation) o, i.Asks "decode" c o (c.encode s ++ tail) → i.Leaves o s := by
    intro tail htail i o hasks
    apply hasks.leaves_decoded
    rw [chomp_encode_append c s htail]
    exact c.decode_encode s
  refine ⟨c.encode s, fun i o hasks => hasks.leaves_encoded, hdecode, ?_⟩
  intro i j o o' hencode houtput hasks
  rw [hencode.leaves_encoded.stdout_eq houtput] at hasks
  have hnewline : ∀ ch ∈ "\n".toList, ch = '\r' ∨ ch = '\n' :=
    fun ch hch => Or.inr (List.mem_singleton.mp hch)
  exact hdecode "\n" hnewline j o' hasks

/-- A text that begins and ends with ends of lines goes through a pipe into a file, past a host that
provides globals of another codec. -/
theorem command_round_trip_of_newlines :
    let i : Invocation := ⟨["-aencode", "-c", "uri-component", "-H", "encodeURI, Worker"],
      Utf8.bytes "\r\né\n", ⟨[], fun _ => false⟩, ⟨fun _ => 0, 0⟩⟩
    let j : Invocation := ⟨["-v", "-adecode", "-c=uri-component", "--output-file", "f"],
      Utf8.bytes i.outcome.stdout, ⟨[], fun path => path == "f"⟩, ⟨fun _ => 0, 0⟩⟩
    j.outcome.code = 0 ∧ (j.outcome.disk j.disk).read? "f" = some (Utf8.bytes "\r\né\n") := by
  intro i j
  obtain ⟨-, -, -, hpipe⟩ := command_round_trip .uriComponent "\r\né\n"
  have hlacks : ∀ host : Host, host.provides .encodeUriComponent = false →
      host.provides .decodeUriComponent = false →
      ∀ g ∈ Codec.uriComponent.globals, host.provides g = false := by
    intro host hencode hdecode g hg
    rcases List.mem_pair.mp hg with rfl | rfl
    · exact hencode
    · exact hdecode
  have hencode : i.Asks "encode" .uriComponent _ "\r\né\n" :=
    ⟨rfl, rfl, rfl, ⟨_, rfl, hlacks _ rfl rfl⟩, rfl, fun _ h => by cases h⟩
  have hdecode : j.Asks "decode" .uriComponent _ i.outcome.stdout :=
    ⟨rfl, rfl, rfl, ⟨_, rfl, hlacks _ rfl rfl⟩, rfl, fun _ h => by cases h; rfl⟩
  have hleaves := hpipe i j _ _ hencode rfl hdecode
  exact ⟨hleaves.1, hleaves.2.2⟩

end Command

end Polyfill
