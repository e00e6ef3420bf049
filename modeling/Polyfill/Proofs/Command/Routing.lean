import Polyfill.Proofs.Command.Line
import Polyfill.Proofs.Command.Outcome
/-!
# Where the output goes

Naming a file for the output changes nothing about what a command comes to, as its result knows
nothing of where it will go.  For every action but one, the text that was printed on a line goes to
the file instead.  The list of polyfills is a listing and not a text: it goes to the standard output
whether a file is named or not, and the file is left alone.
-/

namespace Polyfill.Command

/-- Naming a file for the output has no part in the result. -/
lemma runOptions_filed (o : Options) (file : String) (stdin : List UInt8) (disk : Disk)
    (entropy : Entropy) :
    runOptions { o with output := some file } stdin disk entropy =
      conclude { o with output := some file } disk
        (result o (readInput o stdin disk) entropy) := by
  rw [runOptions_eq]
  exact congrArg _ (result_relocate o o.input (some file) _ entropy)

/-- What is told on the standard output all the same is routed nowhere. -/
lemma not_routed_self (disk : Disk) (file : String) (out : Outcome) :
    ¬Routed disk file out out := by
  rintro ⟨text, hprinted, -, hsilent, -⟩
  have hempty : text ++ "\n" = "" := hprinted.symm.trans hsilent
  exact absurd (String.append_eq_empty_iff.mp hempty).2 (by decide)

/-- A command that ends well and prints its output puts the same text into a file if one is named,
and prints nothing then, unless it lists the polyfills: this it does as before, file or no file. -/
theorem output_routed_unless_listing {file : String} {args args' : List String}
    (h : AddsOutput file args args') {o : Options} (hparse : parse args = .run o)
    (hnone : o.output = none) (stdin : List UInt8) (disk : Disk) (entropy : Entropy)
    (hcode : (run args stdin disk entropy).code = 0) (hwritable : disk.writable file = true) :
    let printed := run args stdin disk entropy
    let filed := run args' stdin disk entropy
    (Routed disk file printed filed ↔ o.action ≠ "polyfills") ∧
      (o.action = "polyfills" → filed = printed) := by
  intro printed filed
  have hprinted : printed = conclude o disk (result o (readInput o stdin disk) entropy) := by
    simp only [printed, run, hparse]
    exact runOptions_eq o stdin disk entropy
  have hfiled : filed = conclude { o with output := some file } disk
      (result o (readInput o stdin disk) entropy) := by
    simp only [filed, run, parse_of_adds h hparse hnone]
    exact runOptions_filed o file stdin disk entropy
  have hends : (conclude o disk (result o (readInput o stdin disk) entropy)).code = 0 := by
    rw [← hprinted]
    exact hcode
  obtain ⟨output, shown, hresult, -⟩ := result_of_code hends
  have hlisting := isListing_of_result hresult
  rw [hresult] at hprinted hfiled
  cases output with
  | listing lines =>
    have haction : o.action = "polyfills" := hlisting.mp rfl
    have hsame : filed = printed := by
      rw [hprinted, hfiled]
      exact conclude_listing _ _ disk lines shown
    refine ⟨⟨fun hrouted => ?_, fun hne => absurd haction hne⟩, fun _ => hsame⟩
    rw [hsame] at hrouted
    exact absurd hrouted (not_routed_self disk file printed)
  | text s =>
    have haction : o.action ≠ "polyfills" := fun heq => Bool.false_ne_true (hlisting.mpr heq)
    refine ⟨⟨fun _ => haction, fun _ => ?_⟩, fun heq => absurd heq haction⟩
    rw [hprinted, hfiled]
    exact routed_text hnone rfl hwritable s shown

/-- What is encoded is put into a file that is named in the middle of the command line. -/
theorem output_routed_unless_listing_encoded :
    let disk : Disk := ⟨[("f", [0])], fun path => path == "f"⟩
    let entropy : Entropy := ⟨fun _ => 0, 0⟩
    let printed := run ["-a", "encode", "-vc", "hex"] [104, 105] disk entropy
    let filed := run ["-a", "encode", "-of", "-vc", "hex"] [104, 105] disk entropy
    AddsOutput "f" ["-a", "encode", "-vc", "hex"] ["-a", "encode", "-of", "-vc", "hex"] ∧
      printed.code = 0 ∧ disk.writable "f" = true ∧ Routed disk "f" printed filed := by
  intro disk entropy printed filed
  have hspells : Spells "f" ["-of"] := .joined rfl (by decide)
  have hadds : AddsOutput "f" ["-a", "encode", "-vc", "hex"]
      ["-a", "encode", "-of", "-vc", "hex"] :=
    @AddsOutput.insert "f" ["-a", "encode"] ["-of"] ["-vc", "hex"] _ rfl rfl hspells
  refine ⟨hadds, rfl, rfl, ?_⟩
  have hrouted := output_routed_unless_listing hadds rfl rfl [104, 105] disk entropy rfl rfl
  exact hrouted.1.mpr (by decide)

/-- The list of polyfills is printed although a file is named, and the file is not made. -/
theorem listing_not_routed :
    let disk : Disk := ⟨[], fun path => path == "f"⟩
    let entropy : Entropy := ⟨fun _ => 0, 0⟩
    let printed := run ["-a", "polyfills"] [] disk entropy
    let filed := run ["-a", "polyfills", "-o", "f"] [] disk entropy
    AddsOutput "f" ["-a", "polyfills"] ["-a", "polyfills", "-o", "f"] ∧
      printed.code = 0 ∧ printed.stdout = "Installed polyfills:\n  - encodeURIComponent\n" ++
        "  - decodeURIComponent\n  - encodeURI\n  - decodeURI\n  - setTimeout\n  - Worker\n" ++
        "  - crypto.randomUUID\n  - crypto.getRandomValues" ++ "\n" ∧
      disk.writable "f" = true ∧ ¬Routed disk "f" printed filed ∧
      filed.stdout = printed.stdout ∧ (filed.disk disk).read? "f" = none := by
  intro disk entropy printed filed
  have hspells : Spells "f" ["-o", "f"] := .apart fun c rest h => by cases h
  have hadds : AddsOutput "f" ["-a", "polyfills"] ["-a", "polyfills", "-o", "f"] :=
    @AddsOutput.insert "f" ["-a", "polyfills"] ["-o", "f"] [] _ rfl rfl hspells
  have hsame : filed = printed := rfl
  refine ⟨hadds, rfl, rfl, rfl, ?_, rfl, rfl⟩
  rw [hsame]
  exact not_routed_self disk "f" printed

end Polyfill.Command
