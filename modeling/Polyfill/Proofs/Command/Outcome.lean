import Polyfill.Command.Run
import Polyfill.Proofs.Act
import Polyfill.Proofs.Entries
/-!
# What a command leaves

A command first comes to a result, a text or a listing or an error (`result`), and only then puts it
into effect (`conclude`).  The result knows nothing of where it will go, and the effect is the last
step; so an outcome is of one of three kinds (`Ending`): something was told on the standard output,
nothing happened and the code says so, or one file was written, the one that the command line names.

A text goes to the file if one is named and to the standard output otherwise; the two outcomes then
say the same (`Routed`).  A listing always goes to the standard output.
-/

namespace Polyfill

/-- Whatever an act gives has a property. -/
def Act.Gives {α : Type} (P : α → Prop) (act : Act α) : Prop :=
  ∀ s a s', act.perform s = (.ok a, s') → P a

namespace Act

variable {α β : Type} {P : β → Prop}

lemma gives_pure {b : β} (h : P b) : (pure b : Act β).Gives P := by
  intro s a s' heq
  obtain rfl : b = a := Except.ok.inj (congrArg Prod.fst heq)
  exact h

lemma gives_throw (e : Error) : (throw e : Act β).Gives P := by
  intro s a s' heq
  cases heq

/-- An act gives what its last part gives. -/
lemma gives_bind {act : Act α} {next : α → Act β} (h : ∀ a, (next a).Gives P) :
    (act >>= next).Gives P := by
  intro s b s' heq
  rw [perform_bind] at heq
  rcases hact : act.perform s with ⟨outcome, t⟩
  rw [hact] at heq
  cases outcome with
  | error e => cases heq
  | ok a => exact h a t b s' heq

end Act

namespace Command

/-! ## Disks -/

namespace Disk

variable (d : Disk) (content : List UInt8)

lemma read?_write_self (path : String) : (d.write path content).read? path = some content :=
  List.lookup_cons_self

lemma read?_write_of_ne {path other : String} (h : other ≠ path) :
    (d.write path content).read? other = d.read? other := by
  have hother : (other == path) = false := beq_eq_false_iff_ne.mpr h
  rw [read?, write, List.lookup_cons, hother]
  exact lookup_filter_key (· != path) d.files (bne_iff_ne.mpr h)

end Disk

/-! ## Results -/

/-- What a command comes to before anything is put into effect, and the messages shown on the
way. -/
def result (o : Options) (input : Except Error String) (entropy : Entropy) :
    Except Error Output × String :=
  match Host.parse (o.host.getD "") with
  | .error e => (.error e, "")
  | .ok host =>
    let whole : Act Output := do
      act o input (← Environment.install host OpTable.native)
    ((whole.perform ⟨entropy, []⟩).1, messages o (whole.perform ⟨entropy, []⟩).2.notes)

/-- Puts a result into effect. -/
def conclude (o : Options) (disk : Disk) : Except Error Output × String → Outcome
  | (.ok output, shown) => deliver o disk shown output
  | (.error e, shown) => failed shown e

/-- A command comes to a result and puts it into effect. -/
lemma runOptions_eq (o : Options) (stdin : List UInt8) (disk : Disk) (entropy : Entropy) :
    runOptions o stdin disk entropy =
      conclude o disk (result o (readInput o stdin disk) entropy) := by
  unfold runOptions result
  cases Host.parse (o.host.getD "") with
  | error e => rfl
  | ok host =>
    simp only
    split
    · rename_i output h
      rw [h]
      rfl
    · rename_i e h
      rw [h]
      rfl

/-- A command acts in an environment that completes the host of its command line. -/
lemma fst_result {o : Options} {host : Host} (h : Host.parse (o.host.getD "") = .ok host)
    (input : Except Error String) (entropy : Entropy) :
    (result o input entropy).1 =
      ((act o input ⟨host, OpTable.native⟩).perform
        ⟨entropy, (Environment.installMessages host).map Note.debug⟩).1 := by
  unfold result
  rw [h]
  rfl

/-- Where a result goes, and where its input came from, has no part in it. -/
lemma result_relocate (o : Options) (source target : Option String) (input : Except Error String)
    (entropy : Entropy) :
    result { o with input := source, output := target } input entropy = result o input entropy :=
  rfl

/-! ## Texts and listings -/

/-- Whether an output is a listing. -/
def Output.isListing : Output → Bool
  | text _ => false
  | listing _ => true

/-- An action other than the one that lists gives a text. -/
lemma gives_text {o : Options} (h : o.action ≠ "polyfills") (input : Except Error String)
    (env : Environment) : (act o input env).Gives fun output => output.isListing = false := by
  have hreturn : ∀ x : Act String,
      (do return Output.text (← x) : Act Output).Gives fun output => output.isListing = false :=
    fun x => Act.gives_bind fun _ => Act.gives_pure rfl
  unfold act
  split
  · exact Act.gives_bind fun _ => hreturn _
  · split
    · exact Act.gives_throw _
    · exact Act.gives_bind fun _ => hreturn _
  · refine Act.gives_bind fun _ => ?_
    split
    · exact Act.gives_throw _
    · exact hreturn _
  · refine Act.gives_bind fun _ => ?_
    split
    · exact Act.gives_throw _
    · exact hreturn _
  · exact hreturn _
  · split
    · exact Act.gives_throw _
    · exact Act.gives_bind fun _ => Act.gives_pure rfl
  · rename_i hlisting
    exact absurd hlisting h
  · exact Act.gives_throw _

lemma act_polyfills {o : Options} (h : o.action = "polyfills") (input : Except Error String)
    (env : Environment) : act o input env = pure (.listing (polyfillsText env o.verbose)) := by
  simp only [act, h]

/-- What a command gives is a listing exactly if it was asked for one. -/
lemma isListing_of_result {o : Options} {input : Except Error String} {entropy : Entropy}
    {output : Output} {shown : String} (h : result o input entropy = (.ok output, shown)) :
    output.isListing = true ↔ o.action = "polyfills" := by
  have hfst : (result o input entropy).1 = .ok output := congrArg Prod.fst h
  cases hhost : Host.parse (o.host.getD "") with
  | error e =>
    rw [result, hhost] at hfst
    cases hfst
  | ok host =>
    rw [fst_result hhost] at hfst
    constructor
    · intro hlisting
      by_contra haction
      have htext : output.isListing = false :=
        gives_text haction input _ _ output _ (Prod.ext hfst rfl)
      rw [hlisting] at htext
      cases htext
    · intro haction
      rw [act_polyfills haction] at hfst
      obtain rfl := Except.ok.inj hfst
      rfl

/-! ## Outcomes -/

/-- How a command can end. -/
inductive Ending (args : List String) (disk : Disk) : Outcome → Prop
  /-- All that happened is that something was told on the standard output. -/
  | told (text shown : String) : Ending args disk ⟨0, text, shown, none⟩
  /-- Nothing happened, and the code says so. -/
  | refused {code : Nat} (h : code ≠ 0) (shown : String) : Ending args disk ⟨code, "", shown, none⟩
  /-- The file that the command line names was written. -/
  | saved {o : Options} {path : String} (hparse : parse args = .run o)
      (houtput : o.output = some path) (content : List UInt8) (shown : String) :
      Ending args disk ⟨0, "", shown, some (path, content)⟩

/-- Every command ends in one of three ways. -/
lemma ending_run (args : List String) (stdin : List UInt8) (disk : Disk) (entropy : Entropy) :
    Ending args disk (run args stdin disk entropy) := by
  unfold run
  split
  · exact .told _ _
  · exact .told _ _
  · exact .refused (by decide) _
  · rename_i o hparse
    rw [runOptions_eq]
    rcases result o (readInput o stdin disk) entropy with ⟨outcome, shown⟩
    cases outcome with
    | error e => exact .refused Nat.one_ne_zero _
    | ok output =>
      cases output with
      | listing lines => exact .told _ _
      | text s =>
        rw [conclude, deliver]
        split
        · exact .told _ _
        · rename_i path houtput
          split
          · exact .saved hparse houtput _ _
          · exact .refused Nat.one_ne_zero _

/-- Two outcomes say the same text: one on a line of the standard output, the other as the whole of
a file, with nothing on the standard output. -/
def Routed (disk : Disk) (path : String) (printed filed : Outcome) : Prop :=
  ∃ text, printed.stdout = text ++ "\n" ∧ filed.code = 0 ∧ filed.stdout = "" ∧
    (filed.disk disk).read? path = some (Utf8.bytes text)

/-- A command that ends well has come to a result; if that is a text for a file, the file can be
written. -/
lemma result_of_code {o : Options} {disk : Disk} {r : Except Error Output × String}
    (h : (conclude o disk r).code = 0) :
    ∃ output shown, r = (.ok output, shown) ∧
      ∀ path, o.output = some path → output.isListing = true ∨ disk.writable path = true := by
  rcases r with ⟨outcome, shown⟩
  cases outcome with
  | error e => exact absurd h Nat.one_ne_zero
  | ok output =>
    refine ⟨output, shown, rfl, fun path hpath => ?_⟩
    cases output with
    | listing lines => exact Or.inl rfl
    | text s =>
      by_contra hneither
      have hwritable : ¬disk.writable path = true := fun hw => hneither (Or.inr hw)
      simp only [conclude, deliver, hpath, if_neg hwritable] at h
      exact Nat.one_ne_zero h

/-- The same text is printed without a file and filed with one. -/
lemma routed_text {plain filed : Options} {disk : Disk} {path : String}
    (hplain : plain.output = none) (hfiled : filed.output = some path)
    (hw : disk.writable path = true) (text shown : String) :
    Routed disk path (conclude plain disk (.ok (.text text), shown))
      (conclude filed disk (.ok (.text text), shown)) := by
  refine ⟨text, ?_⟩
  simp only [conclude, deliver, hplain, hfiled, if_pos hw, true_and]
  exact disk.read?_write_self _ path

/-- A listing is told in the same way whether a file is named or not. -/
lemma conclude_listing (o o' : Options) (disk : Disk) (lines shown : String) :
    conclude o disk (.ok (.listing lines), shown) =
      conclude o' disk (.ok (.listing lines), shown) :=
  rfl

/-! ## What a command changes -/

/-- A command that fails changes no file and prints nothing. -/
lemma Ending.unchanged {args : List String} {disk : Disk} {out : Outcome}
    (h : Ending args disk out) (hcode : out.code ≠ 0) : out.disk disk = disk ∧ out.stdout = "" := by
  cases h with
  | told text shown => exact absurd rfl hcode
  | refused hne shown => exact ⟨rfl, rfl⟩
  | saved hparse houtput content shown => exact absurd rfl hcode

/-- A file that a command changes is the one that the command line names for the output. -/
lemma Ending.output_of_changed {args : List String} {disk : Disk} {out : Outcome}
    (h : Ending args disk out) {path : String}
    (hchanged : (out.disk disk).read? path ≠ disk.read? path) :
    ∃ o, parse args = .run o ∧ o.output = some path := by
  cases h with
  | told text shown => exact absurd rfl hchanged
  | refused hne shown => exact absurd rfl hchanged
  | @saved o named hparse houtput content shown =>
    have hpath : path = named := by
      by_contra hne
      exact hchanged (disk.read?_write_of_ne content hne)
    rw [hpath]
    exact ⟨o, hparse, houtput⟩

/-- A command whose input file has a content works as one that gets this content on the standard
input. -/
lemma readInput_of_file {o : Options} {disk : Disk} {path : String} {content : List UInt8}
    (hinput : o.input = some path) (hcontent : disk.read? path = some content)
    (target : Option String) (stdin : List UInt8) :
    readInput o stdin disk = readInput { o with input := none, output := target } content disk := by
  simp only [readInput, hinput, hcontent]

/-- A command that reads and writes the same file has processed what the file held before: without
either name, and with the old content on the standard input, it prints what is now in the file. -/
lemma routed_in_place {o : Options} {disk : Disk} {path : String} {old : List UInt8}
    (hinput : o.input = some path) (houtput : o.output = some path)
    (hold : disk.read? path = some old) (stdin : List UInt8) (entropy : Entropy)
    (hcode : (runOptions o stdin disk entropy).code = 0) :
    let plain := runOptions { o with input := none, output := none } old disk entropy
    plain.code = 0 ∧ (Routed disk path plain (runOptions o stdin disk entropy) ∨
      o.action = "polyfills" ∧ runOptions o stdin disk entropy = plain) := by
  intro plain
  have hplain : plain = conclude { o with input := none, output := none } disk
      (result o (readInput o stdin disk) entropy) := by
    rw [readInput_of_file hinput hold none stdin]
    exact runOptions_eq _ old disk entropy
  rw [runOptions_eq] at hcode
  obtain ⟨output, shown, hresult, hwritable⟩ := result_of_code hcode
  have hlisting := isListing_of_result hresult
  rw [hplain, runOptions_eq, hresult]
  cases output with
  | listing lines =>
    have haction : o.action = "polyfills" := hlisting.mp rfl
    exact ⟨rfl, Or.inr ⟨haction, conclude_listing _ _ disk lines shown⟩⟩
  | text s =>
    have hw : disk.writable path = true := (hwritable path houtput).resolve_left Bool.false_ne_true
    exact ⟨rfl, Or.inl (routed_text rfl houtput hw s shown)⟩

/-- A command that fails leaves every file as it was and prints nothing.  One that ends well changes
no file but the one that the command line names for the output; and if it names the same file for
the input, what was processed is the old content of the file. -/
theorem failing_command_changes_nothing (args : List String) (stdin : List UInt8) (disk : Disk)
    (entropy : Entropy) :
    let out := run args stdin disk entropy
    (out.code ≠ 0 → out.disk disk = disk ∧ out.stdout = "") ∧
    (out.code = 0 → ∀ path, (out.disk disk).read? path ≠ disk.read? path →
      ∃ o, parse args = .run o ∧ o.output = some path) ∧
    (out.code = 0 → ∀ o path old, parse args = .run o → o.input = some path →
      o.output = some path → disk.read? path = some old →
      let plain := runOptions { o with input := none, output := none } old disk entropy
      plain.code = 0 ∧
        (Routed disk path plain out ∨ o.action = "polyfills" ∧ out = plain)) := by
  intro out
  have hending : Ending args disk out := ending_run args stdin disk entropy
  refine ⟨hending.unchanged, fun _ _ => hending.output_of_changed, ?_⟩
  intro hcode o path old hparse hinput houtput hold
  have hout : out = runOptions o stdin disk entropy := by
    simp only [out, run, hparse]
  rw [hout] at hcode ⊢
  exact routed_in_place hinput houtput hold stdin entropy hcode

/-- A file is encoded in place, and decoding what is no hexadecimal into it fails. -/
theorem failing_command_changes_nothing_in_place :
    let disk : Disk := ⟨[("f", Utf8.bytes "hi\n")], fun path => path == "f"⟩
    let encoded := run ["-aencode", "-c=hex", "-i", "f", "-o", "f"] [] disk ⟨fun _ => 0, 0⟩
    let refused := run ["-adecode", "-c=hex", "-i", "f", "-o", "f"] [] disk ⟨fun _ => 0, 0⟩
    (encoded.code = 0 ∧ ∃ plain : Outcome, plain.code = 0 ∧ Routed disk "f" plain encoded) ∧
      refused.code ≠ 0 ∧ refused.disk disk = disk ∧ refused.stdout = "" := by
  intro disk encoded refused
  have hcode : encoded.code = 0 := rfl
  have hfails : refused.code ≠ 0 := by decide
  obtain ⟨hplain, hrouted | ⟨haction, -⟩⟩ :=
    (failing_command_changes_nothing _ _ disk _).2.2 hcode _ "f" _ rfl rfl rfl rfl
  · exact ⟨⟨hcode, _, hplain, hrouted⟩, hfails,
      (failing_command_changes_nothing _ _ disk _).1 hfails⟩
  · exact absurd haction (by decide)

end Command

end Polyfill
