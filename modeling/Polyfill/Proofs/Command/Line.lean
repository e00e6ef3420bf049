import Polyfill.Command.Options
import Polyfill.Proofs.Entries
/-!
# Adding an option to a command line

The arguments of a command line are read one after the other, and what was read before has no part
in what an argument adds (`argument_prepend`).  So two command lines that differ by one option only
are read alike, but for the value of that option (`exists_finish`), and the second comes to what the
first comes to with this value (`parse_of_adds`), provided that the option is nowhere else and
stands where no other option waits for its value.
-/

namespace Polyfill.Command

namespace Reading

/-! ## What was read before -/

/-- A reading with some values read before it. -/
def prepend (before : List (Opt × String)) (r : Reading) : Reading :=
  { r with values := before ++ r.values }

section Prepend

variable (before : List (Opt × String)) (r : Reading)

lemma interrupt_prepend : (r.prepend before).interrupt = r.interrupt.prepend before := rfl

lemma set_prepend (f : Flag) : (r.prepend before).set f = (r.set f).prepend before := rfl

lemma give_prepend (o : Opt) (value : String) :
    (r.prepend before).give o value = (r.give o value).prepend before := by
  simp only [give, prepend, List.append_assoc]

lemma long_prepend (arg : List Char) :
    (r.prepend before).long arg = (r.long arg).map (prepend before) := by
  simp only [long, interrupt_prepend, give_prepend]
  split
  · rfl
  · rfl
  · rfl
  · split
    · rfl
    · split
      · rfl
      · rfl

lemma short_prepend (arg : List Char) :
    (r.prepend before).short arg = (r.short arg).map (prepend before) := by
  induction arg generalizing r with
  | nil => rfl
  | cons c rest ih =>
    simp only [short, set_prepend, give_prepend, ih]
    split
    · rfl
    · split
      · rfl
      · rfl
      · rfl
    · split
      · rfl
      · split
        · rfl
        · rfl

lemma value_prepend (arg : String) :
    (r.prepend before).value arg = (r.value arg).map (prepend before) := by
  have hwaiting : (r.prepend before).waiting = r.waiting := rfl
  simp only [value, hwaiting, give_prepend]
  split
  · rfl
  · rfl

/-- What an argument adds does not depend on what was read before. -/
lemma argument_prepend (arg : String) :
    (r.prepend before).argument arg = (r.argument arg).map (prepend before) := by
  unfold argument
  split
  · exact long_prepend before r _
  · exact short_prepend before r.interrupt _
  · exact value_prepend before r arg

end Prepend

/-! ## Arguments that end the reading -/

lemma long_ne_run (r : Reading) (arg : List Char) (o : Options) : r.long arg ≠ .error (.run o) := by
  intro h
  unfold long at h
  dsimp only at h
  split at h
  · cases h
  · cases h
  · cases h
  · split at h
    · cases h
    · split at h
      · cases h
      · cases h

lemma short_ne_run (r : Reading) (arg : List Char) (o : Options) :
    r.short arg ≠ .error (.run o) := by
  induction arg generalizing r with
  | nil =>
    intro h
    cases h
  | cons c rest ih =>
    intro h
    unfold short at h
    split at h
    · exact ih _ h
    · split at h
      · cases h
      · cases h
      · cases h
    · split at h
      · cases h
      · split at h
        · cases h
        · cases h

/-- An argument that ends the reading at once asks for nothing to be run. -/
lemma argument_ne_run (r : Reading) (arg : String) (o : Options) :
    r.argument arg ≠ .error (.run o) := by
  unfold argument
  split
  · exact long_ne_run r _ o
  · exact short_ne_run r.interrupt _ o
  · unfold value
    split
    · exact fun h => by cases h
    · exact fun h => by cases h

/-! ## Whole command lines -/

/-- Arguments that do not end the reading are read one by one.  The bare pair of dashes is none of
them. -/
lemma arguments_append {r r' : Reading} {before : List String}
    (h : before.foldlM argument r = .ok r') (after : List String) :
    r.arguments (before ++ after) = r'.arguments after := by
  induction before generalizing r with
  | nil =>
    obtain rfl : r = r' := Except.ok.inj h
    rfl
  | cons arg before ih =>
    rw [List.foldlM_cons] at h
    cases harg : r.argument arg with
    | error request =>
      rw [harg] at h
      cases h
    | ok next =>
      rw [harg] at h
      have hdashes : arg ≠ "--" := by
        rintro rfl
        cases harg
      rw [List.cons_append, arguments, if_neg hdashes, harg]
      exact ih h

/-- A command line that asks for something to be run is read to its end, and how the rest of it is
read does not depend on what was read before. -/
lemma exists_finish {r : Reading} {before : List (Opt × String)} {args : List String} {o : Options}
    (h : (r.prepend before).arguments args = .run o) :
    ∃ last : Reading, ∀ before', (r.prepend before').arguments args =
      (last.prepend before').finish := by
  induction args generalizing r with
  | nil => exact ⟨r, fun _ => rfl⟩
  | cons arg rest ih =>
    rw [arguments] at h
    split at h
    · rename_i hdashes
      split at h
      · rename_i hrest
        refine ⟨r, fun before' => ?_⟩
        rw [arguments, if_pos hdashes, if_pos hrest]
      · cases h
    · rename_i hdashes
      rw [argument_prepend] at h
      cases harg : r.argument arg with
      | error request =>
        rw [harg] at h
        obtain rfl : request = .run o := h
        exact absurd harg (argument_ne_run r arg o)
      | ok next =>
        rw [harg] at h
        obtain ⟨last, hlast⟩ := ih h
        refine ⟨last, fun before' => ?_⟩
        rw [arguments, if_neg hdashes, argument_prepend, harg]
        exact hlast before'

/-- The options that a reading comes to, with the action that it asks for. -/
def options (r : Reading) (action : String) : Options where
  input := r.values.lookup .input
  data := r.values.lookup .data
  output := r.values.lookup .output
  action := action
  algorithm := (r.values.lookup .algorithm).getD "sha256"
  encoding := (r.values.lookup .encoding).getD "hex"
  key := r.values.lookup .key
  codec := (r.values.lookup .codec).getD "base64"
  count := (r.values.lookup .count).getD "16"
  host := r.values.lookup .host
  verbose := r.flags.contains .verbose
  debug := r.flags.contains .debug

lemma isOnce_iff {r : Reading} :
    r.isOnce = true ↔ r.flags.Nodup ∧ (r.values.map Prod.fst).Nodup := by
  have hlength : r.values.length = (r.values.map Prod.fst).length := (List.length_map Prod.fst).symm
  rw [isOnce, Bool.and_eq_true, beq_iff_eq, beq_iff_eq, length_eraseDups_eq_iff, hlength,
    length_eraseDups_eq_iff]

/-- A reading is complete if no option waits or was left without its value, and nothing is given
twice. -/
def Complete (r : Reading) : Prop :=
  (r.incomplete || r.waiting.isSome) = false ∧ r.flags.Nodup ∧ (r.values.map Prod.fst).Nodup

/-- A reading asks for something to be run exactly if it is complete and has an action. -/
lemma finish_eq_run_iff {r : Reading} {o : Options} :
    r.finish = .run o ↔
      r.Complete ∧ ∃ action, r.values.lookup .action = some action ∧ r.options action = o := by
  have honce : r.interrupt.isOnce = true ↔ r.flags.Nodup ∧ (r.values.map Prod.fst).Nodup :=
    isOnce_iff
  constructor
  · intro h
    unfold finish at h
    dsimp only at h
    split at h
    · cases h
    · rename_i action haction
      split at h
      · cases h
      · rename_i hcomplete
        rw [Bool.not_eq_true, Bool.or_eq_false_iff, Bool.not_eq_false'] at hcomplete
        exact ⟨⟨hcomplete.1, honce.mp hcomplete.2⟩, action, haction, Request.run.inj h⟩
  · rintro ⟨⟨hcomplete, hnodup⟩, action, haction, rfl⟩
    have haction' : r.interrupt.values.lookup .action = some action := haction
    have hinvalid : ¬(r.interrupt.incomplete || !r.interrupt.isOnce) = true := by
      rw [Bool.not_eq_true, Bool.or_eq_false_iff, Bool.not_eq_false']
      exact ⟨hcomplete, honce.mpr hnodup⟩
    unfold finish
    simp only [haction', if_neg hinvalid]
    rfl

/-! ## One option more -/

/-- A complete reading without an output stays complete with one, wherever it stands. -/
lemma Complete.insert {r : Reading} {before : List (Opt × String)}
    (h : (r.prepend before).Complete) (hnone : (r.prepend before).values.lookup .output = none)
    (file : String) : (r.prepend (before ++ [(.output, file)])).Complete := by
  obtain ⟨hcomplete, hflags, hvalues⟩ := h
  refine ⟨hcomplete, hflags, ?_⟩
  have hfresh : Opt.output ∉ (before ++ r.values).map Prod.fst := by
    intro hmem
    obtain ⟨x, hx, hkey⟩ := List.mem_map.mp hmem
    have hne := List.lookup_eq_none_iff.mp hnone x hx
    rw [hkey] at hne
    exact absurd hne (by decide)
  have hnodup : (before.map Prod.fst ++ r.values.map Prod.fst).Nodup := by
    rw [← List.map_append]
    exact hvalues
  rw [List.map_append] at hfresh
  simp only [prepend, List.append_assoc, List.map_append, List.map_cons, List.singleton_append]
  exact List.nodup_middle.mpr (List.nodup_cons.mpr ⟨hfresh, hnodup⟩)

/-- A reading that asks for something to be run without an output asks for the same with one, if
that is put in anywhere. -/
lemma finish_insert {r : Reading} {before : List (Opt × String)} {o : Options}
    (h : (r.prepend before).finish = .run o) (hnone : o.output = none) (file : String) :
    (r.prepend (before ++ [(.output, file)])).finish = .run { o with output := some file } := by
  obtain ⟨hcomplete, action, haction, rfl⟩ := finish_eq_run_iff.mp h
  have hvalues : (r.prepend (before ++ [(.output, file)])).values =
      before ++ (Opt.output, file) :: r.values := List.append_assoc _ _ _
  have hother : ∀ k, k ≠ Opt.output →
      (r.prepend (before ++ [(.output, file)])).values.lookup k =
        (r.prepend before).values.lookup k := by
    intro k hk
    rw [hvalues]
    exact lookup_insert_of_ne before r.values hk
  have hfile : (r.prepend (before ++ [(.output, file)])).values.lookup .output = some file := by
    have hlookup : (before ++ r.values).lookup Opt.output = none := hnone
    rw [hvalues]
    exact lookup_insert_self (x := (Opt.output, file)) hlookup
  refine finish_eq_run_iff.mpr ⟨hcomplete.insert hnone file, action, ?_, ?_⟩
  · rw [hother _ (by decide), haction]
  · simp only [options, hfile, hother, ne_eq, reduceCtorEq, not_false_eq_true]
    rfl

end Reading

/-- The ways to name a file for the output.  A name that could be taken for an option has to be
written in one piece with the name of its own option. -/
inductive Spells (file : String) : List String → Prop
  | apart (h : ∀ c rest, file.toList ≠ '-' :: c :: rest) : Spells file ["-o", file]
  | equals : Spells file ["-o=" ++ file]
  | joined {c : Char} {rest : List Char} (h : file.toList = c :: rest) (hc : c ≠ '=') :
      Spells file ["-o" ++ file]
  | longApart (h : ∀ c rest, file.toList ≠ '-' :: c :: rest) : Spells file ["--output-file", file]
  | longEquals : Spells file ["--output-file=" ++ file]

namespace Reading

/-- If no option waits, there is nothing to interrupt. -/
lemma interrupt_of_not_waiting {r : Reading} (h : r.waiting = none) : r.interrupt = r := by
  rw [interrupt, h, Option.isSome_none, Bool.or_false, ← h]

/-- An argument that is no name is the value of the option that waits for it. -/
lemma argument_of_waiting {r : Reading} {o : Opt} (hwaiting : r.waiting = some o) {arg : String}
    (harg : ∀ c rest, arg.toList ≠ '-' :: c :: rest) : r.argument arg = .ok (r.give o arg) := by
  unfold argument
  split
  · rename_i rest h
    exact absurd h (harg _ _)
  · rename_i c rest h
    exact absurd h (harg _ _)
  · rw [value, hwaiting]

/-- An option takes what follows its short name in the same argument as its value. -/
lemma short_joined (r : Reading) {name : Char} {o : Opt} (hflag : Flag.ofShort? name = none)
    (hopt : Opt.ofShort? name = some o) {c : Char} (hc : c ≠ '=') (rest : List Char) :
    r.short (name :: c :: rest) = .ok (r.give o (.ofList (c :: rest))) := by
  simp only [short, hflag, hopt]
  split
  · rename_i hnil
    cases hnil
  · rename_i value hequals
    exact absurd (List.cons.inj hequals).1 hc
  · rfl

/-- A file named for the output, where no other option waits for its value, is read as the value of
the output. -/
lemma foldlM_of_spells {r : Reading} (hwaiting : r.waiting = none) {file : String}
    {added : List String} (h : Spells file added) :
    added.foldlM argument r = .ok (r.give .output file) := by
  have hinterrupt := interrupt_of_not_waiting hwaiting
  have hsingle : ∀ arg, r.argument arg = .ok (r.interrupt.give .output (.ofList file.toList)) →
      [arg].foldlM argument r = .ok (r.give .output file) := by
    intro arg harg
    rw [hinterrupt, String.ofList_toList] at harg
    rw [List.foldlM_cons, harg]
    rfl
  have hpair : ∀ name, r.argument name = .ok { r.interrupt with waiting := some .output } →
      (∀ c rest, file.toList ≠ '-' :: c :: rest) →
      [name, file].foldlM argument r = .ok (r.give .output file) := by
    intro name hname hfile
    have hvalue : ({ r with waiting := some .output } : Reading).argument file =
        .ok (r.give .output file) := argument_of_waiting rfl hfile
    rw [List.foldlM_cons, hname, hinterrupt]
    change (argument _ file >>= fun next => [].foldlM argument next) = _
    rw [hvalue]
    rfl
  cases h with
  | apart hfile => exact hpair "-o" rfl hfile
  | longApart hfile => exact hpair "--output-file" rfl hfile
  | equals =>
    apply hsingle
    rw [argument, String.toList_append]
    rfl
  | longEquals =>
    apply hsingle
    rw [argument, String.toList_append]
    rfl
  | @joined c rest hfile hc =>
    apply hsingle
    rw [argument, String.toList_append, hfile]
    exact short_joined r.interrupt rfl rfl hc rest

end Reading

/-- A command line names a file for the output where the other does not, in a place where no option
waits for its value. -/
inductive AddsOutput (file : String) : List String → List String → Prop
  | insert {before added after : List String} {r : Reading}
      (hbefore : before.foldlM Reading.argument Reading.start = .ok r) (hwaiting : r.waiting = none)
      (hadded : Spells file added) : AddsOutput file (before ++ after) (before ++ (added ++ after))

/-- A command line that asks for something to be run and names no file for the output asks for the
same with a file, if one is named. -/
lemma parse_of_adds {file : String} {args args' : List String} (h : AddsOutput file args args')
    {o : Options} (hparse : parse args = .run o) (hnone : o.output = none) :
    parse args' = .run { o with output := some file } := by
  cases h with
  | @insert before added after r hbefore hwaiting hadded =>
    -- Everything read after the new option is read from nothing, behind what was read before.
    let rest : Reading := { r with values := [] }
    have hr : r = rest.prepend r.values := by
      simp only [Reading.prepend, rest, List.append_nil]
    have hgive : r.give .output file = rest.prepend (r.values ++ [(.output, file)]) := by
      simp only [Reading.prepend, Reading.give, rest, List.append_nil, hwaiting]
    rw [parse, Reading.arguments_append hbefore, hr] at hparse
    obtain ⟨last, hlast⟩ := Reading.exists_finish hparse
    rw [hlast] at hparse
    rw [parse, Reading.arguments_append hbefore,
      Reading.arguments_append (Reading.foldlM_of_spells hwaiting hadded), hgive, hlast]
    exact Reading.finish_insert hparse hnone file

end Polyfill.Command
