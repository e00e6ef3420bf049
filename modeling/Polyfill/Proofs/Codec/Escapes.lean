import Polyfill.Proofs.Codec.Hex
import Polyfill.Proofs.Codec.Percent
/-!
# Reading escapes in two passes

What the reader of percent codes does with the characters of a text in one go can be said in two
passes over its bytes.  The first pass looks at every `%`, whether or not it lies in an escape, and
stops at one that no two digits follow (`scan`); the second replaces the escapes by their bytes and
leaves all other bytes alone (`unescape`).  `decode_eq` says that the two ways agree: a digit is no
`%`, so none of those the first pass looks at lies within an escape that is in order, and the bytes
of a longer character are neither digits nor `%`.

With that, `percent_decoding_exact` says of every text whether it is read, as what, and which of the
two faults is reported where.
-/

namespace Polyfill

namespace Percent

/-! ## The two passes -/

/-- The ASCII character of a byte. -/
def letter (b : UInt8) : Char :=
  Char.ofNat b.toNat

/-- Two hexadecimal digits stand at the front. -/
def DigitsLead : List UInt8 → Prop
  | h :: l :: _ => Hex.IsDigit (letter h) ∧ Hex.IsDigit (letter l)
  | _ => False

instance : DecidablePred DigitsLead
  | h :: l :: _ => inferInstanceAs (Decidable (Hex.IsDigit (letter h) ∧ Hex.IsDigit (letter l)))
  | [_] => inferInstanceAs (Decidable False)
  | [] => inferInstanceAs (Decidable False)

/-- At an offset there is a `%` that no two digits follow. -/
def StrayAt (bytes : List UInt8) (i : Nat) : Prop :=
  bytes[i]? = some 0x25 ∧ ¬DigitsLead (bytes.drop (i + 1))

instance (bytes : List UInt8) (i : Nat) : Decidable (StrayAt bytes i) :=
  inferInstanceAs (Decidable (_ ∧ _))

/-- The first pass: the offset of the first stray `%`. -/
def scan : List UInt8 → Option Nat
  | [] => none
  | a :: rest => if a = 0x25 ∧ ¬DigitsLead rest then some 0 else (scan rest).map (· + 1)

/-- The second pass: escapes, from the left, replaced by their bytes. -/
def unescape : List UInt8 → List UInt8
  | a :: h :: l :: rest =>
    if a = 0x25 ∧ Hex.IsDigit (letter h) ∧ Hex.IsDigit (letter l) then
      Hex.byteOf (letter h) (letter l) :: unescape rest
    else
      a :: unescape (h :: l :: rest)
  | a :: rest => a :: unescape rest
  | [] => []

/-- Both passes over bytes from offset `offset` on, with the bytes already read, last first. -/
def twoPasses (offset : Nat) (read bytes : List UInt8) : Except Nat (List UInt8) :=
  match scan bytes with
  | some n => .error (offset + n)
  | none => .ok (read.reverse ++ unescape bytes)

/-! ## The first pass finds the first stray sign -/

lemma strayAt_zero {a : UInt8} {rest : List UInt8} :
    StrayAt (a :: rest) 0 ↔ a = 0x25 ∧ ¬DigitsLead rest := by
  simp [StrayAt]

lemma strayAt_succ {a : UInt8} {rest : List UInt8} {n : Nat} :
    StrayAt (a :: rest) (n + 1) ↔ StrayAt rest n := by
  simp [StrayAt]

/-- The first pass stops at the first stray `%`. -/
lemma scan_eq_some_iff {bytes : List UInt8} {n : Nat} :
    scan bytes = some n ↔ StrayAt bytes n ∧ ∀ m < n, ¬StrayAt bytes m := by
  induction bytes generalizing n with
  | nil => simp [scan, StrayAt]
  | cons a rest ih =>
    rw [scan]
    by_cases hstray : StrayAt (a :: rest) 0
    · rw [if_pos (strayAt_zero.mp hstray), Option.some.injEq]
      constructor
      · rintro rfl
        exact ⟨hstray, fun m hm => absurd hm (Nat.not_lt_zero m)⟩
      · rintro ⟨-, hfirst⟩
        by_contra hne
        exact hfirst 0 (Nat.pos_of_ne_zero fun h => hne h.symm) hstray
    · rw [if_neg (strayAt_zero.not.mp hstray)]
      cases n with
      | zero => simp [hstray]
      | succ n =>
        rw [Nat.forall_lt_succ_left, strayAt_succ]
        simp [strayAt_succ, ih, hstray]

/-- The first pass goes through exactly if there is no stray `%`. -/
lemma scan_eq_none_iff {bytes : List UInt8} : scan bytes = none ↔ ∀ n, ¬StrayAt bytes n := by
  induction bytes with
  | nil => simp [scan, StrayAt]
  | cons a rest ih =>
    rw [scan, ← Nat.and_forall_add_one]
    by_cases hstray : StrayAt (a :: rest) 0
    · simp [if_pos (strayAt_zero.mp hstray), hstray]
    · simp [if_neg (strayAt_zero.not.mp hstray), hstray, strayAt_succ, ih]

/-! ## Fronts that both passes leave behind -/

/-- Both passes get over a front that the first finds nothing in and the second replaces. -/
lemma twoPasses_front (front out : List UInt8) {rest : List UInt8} {k : Nat}
    (hscan : scan (front ++ rest) = (scan rest).map (· + k))
    (hunescape : unescape (front ++ rest) = out ++ unescape rest) (offset : Nat)
    (read : List UInt8) :
    twoPasses offset read (front ++ rest) = twoPasses (offset + k) (out.reverse ++ read) rest := by
  rw [twoPasses, twoPasses, hscan, hunescape]
  cases scan rest with
  | none => simp
  | some n => simp [Nat.add_assoc, Nat.add_comm k n]

/-- A byte that is no `%` is passed over and kept. -/
lemma unescape_cons {a : UInt8} (h : a ≠ 0x25) (rest : List UInt8) :
    unescape (a :: rest) = a :: unescape rest := by
  match rest with
  | [] => rfl
  | [b] => rfl
  | b :: c :: rest => rw [unescape, if_neg (fun hescape => h hescape.1)]

lemma scan_cons {a : UInt8} {rest : List UInt8} (h : ¬(a = 0x25 ∧ ¬DigitsLead rest)) :
    scan (a :: rest) = (scan rest).map (· + 1) := by
  rw [scan, if_neg h]

/-- Bytes among which there is no `%` are passed over and kept. -/
lemma twoPasses_plain {own : List UInt8} (h : 0x25 ∉ own) (offset : Nat) (read rest : List UInt8) :
    twoPasses offset read (own ++ rest) =
      twoPasses (offset + own.length) (own.reverse ++ read) rest := by
  refine twoPasses_front own own ?_ ?_ offset read
  · induction own with
    | nil => simp
    | cons a own ih =>
      obtain ⟨ha, hown⟩ := List.ne_and_not_mem_of_not_mem_cons h
      rw [List.cons_append, scan_cons (fun hstray => ha hstray.1.symm), ih hown, Option.map_map]
      rfl
  · induction own with
    | nil => rfl
    | cons a own ih =>
      obtain ⟨ha, hown⟩ := List.ne_and_not_mem_of_not_mem_cons h
      rw [List.cons_append, unescape_cons (Ne.symm ha), ih hown, List.cons_append]

/-- An escape is passed over and replaced by its byte: its digits are no further `%`. -/
lemma twoPasses_escape {h l : UInt8} (hh : Hex.IsDigit (letter h)) (hl : Hex.IsDigit (letter l))
    (offset : Nat) (read rest : List UInt8) :
    twoPasses offset read (0x25 :: h :: l :: rest) =
      twoPasses (offset + 3) (Hex.byteOf (letter h) (letter l) :: read) rest := by
  have hsign : ∀ {b : UInt8}, Hex.IsDigit (letter b) → b ≠ 0x25 := by
    rintro b hb rfl
    revert hb
    decide
  refine twoPasses_front [0x25, h, l] [Hex.byteOf (letter h) (letter l)] ?_ ?_ offset read
  · have hfirst : ¬((0x25 : UInt8) = 0x25 ∧ ¬DigitsLead (h :: l :: rest)) :=
      fun hstray => hstray.2 ⟨hh, hl⟩
    change scan (0x25 :: h :: l :: rest) = _
    rw [scan_cons hfirst, scan_cons (fun hstray => hsign hh hstray.1),
      scan_cons (fun hstray => hsign hl hstray.1), Option.map_map, Option.map_map]
    rfl
  · change unescape (0x25 :: h :: l :: rest) = _
    rw [unescape, if_pos ⟨rfl, hh, hl⟩, List.singleton_append]

/-! ## Characters and bytes -/

lemma letter_byte {c : Char} (h : c.toNat < 128) : letter (UInt8.ofNat c.toNat) = c := by
  rw [letter, Utf8.toNat_byte (by omega), Char.ofNat_toNat]

lemma not_isDigit_letter {b : UInt8} (h : 128 ≤ b.toNat) : ¬Hex.IsDigit (letter b) := by
  intro hdigit
  have hlt := hdigit.toNat_lt
  have hb := b.toNat_lt
  rw [letter, Utf8.toNat_char (Or.inl (by omega))] at hlt
  omega

/-- Only `%` is written with its byte. -/
lemma sign_not_mem_encodeChar {c : Char} (h : c ≠ '%') : 0x25 ∉ Utf8.encodeChar c := by
  intro hmem
  rcases Nat.lt_or_ge c.toNat 0x80 with hlt | hge
  · rw [Utf8.encodeChar_single hlt, List.mem_singleton] at hmem
    apply h
    rw [← letter_byte hlt, ← hmem]
    rfl
  · have hbound := Utf8.le_of_mem_encodeChar hge hmem
    revert hbound
    decide

/-- A digit at the front of the bytes of a text is the first character of the text. -/
lemma exists_cons_of_digit {cs : List Char} {b : UInt8} {bytes : List UInt8}
    (henc : Utf8.encode cs = b :: bytes) (hb : Hex.IsDigit (letter b)) :
    ∃ rest, cs = letter b :: rest ∧ bytes = Utf8.encode rest := by
  cases cs with
  | nil => cases henc
  | cons c rest =>
    rw [Utf8.encode_cons] at henc
    rcases Nat.lt_or_ge c.toNat 0x80 with hlt | hge
    · rw [Utf8.encodeChar_single hlt, List.singleton_append, List.cons.injEq] at henc
      obtain ⟨rfl, rfl⟩ := henc
      exact ⟨rest, by rw [letter_byte hlt], rfl⟩
    · obtain ⟨a, tail, hc⟩ := List.exists_cons_of_ne_nil (Utf8.encodeChar_ne_nil c)
      rw [hc, List.cons_append, List.cons.injEq] at henc
      have ha := Utf8.le_of_mem_encodeChar hge (hc ▸ List.mem_cons_self)
      exact absurd (henc.1 ▸ hb) (not_isDigit_letter ha)

/-- Two digits that lead the bytes of a text lead the text. -/
lemma exists_digits_of_digitsLead {cs : List Char} (hlead : DigitsLead (Utf8.encode cs)) :
    ∃ h l rest, cs = h :: l :: rest ∧ Hex.IsDigit h ∧ Hex.IsDigit l := by
  match henc : Utf8.encode cs, hlead with
  | h :: l :: bytes, ⟨hh, hl⟩ =>
    obtain ⟨cs', rfl, henc'⟩ := exists_cons_of_digit henc hh
    obtain ⟨rest, rfl, -⟩ := exists_cons_of_digit henc'.symm hl
    exact ⟨letter h, letter l, rest, rfl, hh, hl⟩

/-- A `%` that no two digits follow stops the first pass. -/
lemma twoPasses_stray {cs : List Char}
    (hstray : ¬∃ h l rest, cs = h :: l :: rest ∧ Hex.IsDigit h ∧ Hex.IsDigit l) (offset : Nat)
    (read : List UInt8) :
    twoPasses offset read (Utf8.encode ('%' :: cs)) = .error offset := by
  have hlead : ¬DigitsLead (Utf8.encode cs) := fun h => hstray (exists_digits_of_digitsLead h)
  have hsign : Utf8.encode ('%' :: cs) = 0x25 :: Utf8.encode cs := rfl
  rw [twoPasses, hsign, scan, if_pos ⟨rfl, hlead⟩]
  rfl

/-- The reader does what the two passes do. -/
lemma decodeOnto_eq (offset : Nat) (read : List UInt8) (cs : List Char) :
    decodeOnto offset read cs = twoPasses offset read (Utf8.encode cs) := by
  fun_induction decodeOnto offset read cs with
  | case1 offset read => rw [Utf8.encode_nil, twoPasses, scan, unescape, List.append_nil]
  | case2 offset read h l rest b hbyte ih =>
    rw [Hex.byte?_eq] at hbyte
    split at hbyte
    · rename_i hdigits
      obtain rfl := Option.some.inj hbyte
      have hh := hdigits.1.toNat_lt
      have hl := hdigits.2.toNat_lt
      have henc : Utf8.encode ('%' :: h :: l :: rest) =
          0x25 :: UInt8.ofNat h.toNat :: UInt8.ofNat l.toNat :: Utf8.encode rest := by
        rw [Utf8.encode_cons, Utf8.encode_cons, Utf8.encode_cons, Utf8.encodeChar_single hh,
          Utf8.encodeChar_single hl]
        rfl
      rw [ih, henc, twoPasses_escape (by rw [letter_byte hh]; exact hdigits.1)
        (by rw [letter_byte hl]; exact hdigits.2), letter_byte hh, letter_byte hl]
    · cases hbyte
  | case3 offset read h l rest hbyte =>
    refine (twoPasses_stray ?_ offset read).symm
    rintro ⟨_, _, _, ⟨rfl, rfl, rfl⟩, hdigits⟩
    rw [Hex.byte?_eq, if_pos hdigits] at hbyte
    cases hbyte
  | case4 offset read cs hshort =>
    refine (twoPasses_stray ?_ offset read).symm
    rintro ⟨h, l, rest, rfl, -⟩
    exact hshort h l rest rfl
  | case5 offset read c rest hc own ih =>
    rw [ih, Utf8.encode_cons, twoPasses_plain (sign_not_mem_encodeChar hc)]

/-- The bytes of a text with escapes, by two passes over its own bytes. -/
theorem decode_eq (cs : List Char) : decode cs =
    match scan (Utf8.encode cs) with
    | some n => .error n
    | none => .ok (unescape (Utf8.encode cs)) := by
  rw [decode, decodeOnto_eq, twoPasses]
  cases scan (Utf8.encode cs) with
  | none => rfl
  | some n => exact congrArg Except.error (Nat.zero_add n)

end Percent

/-! ## Texts -/

/-- The built-in ops read a text as the codec does.  They read a whole address as they read a
component, which comes to the same. -/
lemma OpTable.fst_native_decode (c : Codec) (t : String) (scene : Scene) :
    ((OpTable.native.call (.decode c t)).perform scene).1 = c.decode t := by
  cases c <;> rfl

namespace Codec

variable {c : Codec} {e : Percent.Encoder} {t s : String} {n : Nat}

lemma decodeBytes_of_scan_none (he : c.encoder? = some e)
    (h : Percent.scan (Utf8.bytes t) = none) :
    c.decodeBytes t = .ok (Percent.unescape (Utf8.bytes t)) := by
  have hdecode : Percent.decode t.toList = .ok (Percent.unescape (Utf8.bytes t)) := by
    rw [Percent.decode_eq, ← Utf8.bytes, h]
  cases c <;> cases he <;> simp only [decodeBytes, hdecode]

lemma decode_of_scan_some (he : c.encoder? = some e) (h : Percent.scan (Utf8.bytes t) = some n) :
    c.decode t = .error (.decode (.escape n)) := by
  have hdecode : Percent.decode t.toList = .error n := by
    rw [Percent.decode_eq, ← Utf8.bytes, h]
  apply decode_of_fault
  cases c <;> cases he <;> simp only [decodeBytes, hdecode]

lemma decode_percent_eq_ok_iff (he : c.encoder? = some e) :
    c.decode t = .ok s ↔ (∀ i, ¬Percent.StrayAt (Utf8.bytes t) i) ∧
      Percent.unescape (Utf8.bytes t) = Utf8.bytes s := by
  rw [← Percent.scan_eq_none_iff]
  cases h : Percent.scan (Utf8.bytes t) with
  | none => rw [decode_eq_ok_iff (decodeBytes_of_scan_none he h), and_iff_right rfl]
  | some n => simp [decode_of_scan_some he h]

lemma decode_percent_eq_notUtf8_iff (he : c.encoder? = some e) :
    c.decode t = .error (.decode .notUtf8) ↔ (∀ i, ¬Percent.StrayAt (Utf8.bytes t) i) ∧
      ¬Utf8.WellFormed (Percent.unescape (Utf8.bytes t)) := by
  rw [← Percent.scan_eq_none_iff]
  cases h : Percent.scan (Utf8.bytes t) with
  | none =>
    rw [decode_eq_error_iff (decodeBytes_of_scan_none he h), and_iff_right rfl, and_iff_right rfl]
  | some n => simp [decode_of_scan_some he h]

lemma decode_percent_eq_escape_iff (he : c.encoder? = some e) :
    c.decode t = .error (.decode (.escape n)) ↔ Percent.StrayAt (Utf8.bytes t) n ∧
      ∀ m < n, ¬Percent.StrayAt (Utf8.bytes t) m := by
  rw [← Percent.scan_eq_some_iff]
  cases h : Percent.scan (Utf8.bytes t) with
  | none => simp [decode_eq_error_iff (decodeBytes_of_scan_none he h)]
  | some m => simp [decode_of_scan_some he h]

/-- Where there is a stray `%`, the first one is reported. -/
lemma exists_decode_eq_escape (he : c.encoder? = some e) {i : Nat}
    (h : Percent.StrayAt (Utf8.bytes t) i) :
    ∃ n ≤ i, c.decode t = .error (.decode (.escape n)) := by
  cases hscan : Percent.scan (Utf8.bytes t) with
  | none => exact absurd h (Percent.scan_eq_none_iff.mp hscan i)
  | some n =>
    have hfirst := (Percent.scan_eq_some_iff.mp hscan).2
    exact ⟨n, Nat.not_lt.mp fun hlt => hfirst i hlt h, decode_of_scan_some he hscan⟩

end Codec

/-- A `%` that is too close to the end for two digits is a stray one. -/
lemma Percent.strayAt_of_length_lt {bytes : List UInt8} {i : Nat} (h : bytes[i]? = some 0x25)
    (hlength : bytes.length < i + 3) : Percent.StrayAt bytes i := by
  refine ⟨h, fun hlead => ?_⟩
  have hshort : (bytes.drop (i + 1)).length < 2 := by
    rw [List.length_drop]
    omega
  match hdrop : bytes.drop (i + 1), hlead with
  | _ :: _ :: rest, _ =>
    rw [hdrop, List.length_cons, List.length_cons] at hshort
    omega

/-- The reader of percent codes accepts exactly its grammar and reports the right fault, whichever
of the three codecs is asked.  A `%` that no two hexadecimal digits follow is a fault wherever it
stands, also where the text ends before two digits could follow, and the first such `%` is reported
by its offset among the bytes of the text, whatever else is wrong with the text.  Without one, the
escapes are replaced by their bytes and all other bytes are kept; the outcome is the text that has
the bytes so obtained, if they are well-formed, and otherwise they are reported as not UTF-8. -/
theorem percent_decoding_exact {reader : Codec} {e : Percent.Encoder}
    (hr : reader.encoder? = some e) (t : String) (scene : Scene) :
    let result := ((OpTable.native.call (.decode reader t)).perform scene).1
    let bytes := Utf8.bytes t
    ((∃ i, Percent.StrayAt bytes i) → ∃ n, result = .error (.decode (.escape n))) ∧
    (∀ n, result = .error (.decode (.escape n)) ↔
      Percent.StrayAt bytes n ∧ ∀ m < n, ¬Percent.StrayAt bytes m) ∧
    (∀ s, result = .ok s ↔
      (∀ i, ¬Percent.StrayAt bytes i) ∧ Percent.unescape bytes = Utf8.bytes s) ∧
    (result = .error (.decode .notUtf8) ↔
      (∀ i, ¬Percent.StrayAt bytes i) ∧ ¬Utf8.WellFormed (Percent.unescape bytes)) ∧
    (∀ i, bytes[i]? = some 0x25 → bytes.length < i + 3 →
      ∃ n ≤ i, result = .error (.decode (.escape n))) ∧
    (∀ n, (DecodeFault.escape n).message = "malformed escape sequence at offset " ++ toString n) ∧
    DecodeFault.notUtf8.message = "decoded data is not UTF-8" := by
  intro result bytes
  have hresult : result = reader.decode t := OpTable.fst_native_decode reader t scene
  rw [hresult]
  refine ⟨?_, fun n => Codec.decode_percent_eq_escape_iff hr,
    fun s => Codec.decode_percent_eq_ok_iff hr, Codec.decode_percent_eq_notUtf8_iff hr, ?_,
    fun n => rfl, rfl⟩
  · rintro ⟨i, hi⟩
    obtain ⟨n, -, hn⟩ := Codec.exists_decode_eq_escape hr hi
    exact ⟨n, hn⟩
  · intro i hi hlength
    exact Codec.exists_decode_eq_escape hr (Percent.strayAt_of_length_lt hi hlength)

/-- A whole address with escapes of either case and a character of two bytes, one with a surrogate
in its escapes, and one that also ends within an escape. -/
theorem percent_decoding_exact_of_addresses :
    Codec.uri.encoder? = some Percent.uri ∧
    ((OpTable.native.call (.decode .uri "é%2b+%C3%a9")).perform ⟨⟨fun _ => 0, 0⟩, []⟩).1 =
      .ok "é++é" ∧
    ((OpTable.native.call (.decode .uri "é%ED%A0%80")).perform ⟨⟨fun _ => 0, 0⟩, []⟩).1 =
      .error (.decode .notUtf8) ∧
    ((OpTable.native.call (.decode .uri "é%ED%A0%80%4")).perform ⟨⟨fun _ => 0, 0⟩, []⟩).1 =
      .error (.decode (.escape 11)) := by
  refine ⟨rfl, ?_, ?_, ?_⟩
  · refine ((percent_decoding_exact rfl _ _).2.2.1 _).mpr ⟨?_, by decide⟩
    exact Percent.scan_eq_none_iff.mp (by decide)
  · refine (percent_decoding_exact rfl _ _).2.2.2.1.mpr ⟨?_, ?_⟩
    · exact Percent.scan_eq_none_iff.mp (by decide)
    · exact Utf8.text?_eq_none_iff.mp (by decide +kernel)
  · exact ((percent_decoding_exact rfl _ _).2.1 11).mpr (by decide)

end Polyfill
