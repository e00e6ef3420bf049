import Mathlib.Data.List.Basic
import Polyfill.Act
import Polyfill.Proofs.Text.Utf8
/-!
# Percent coding can be read back

An encoder works character by character, but what it does can be said byte by byte: each byte of
the UTF-8 form of a text is written as itself or as an escape (`Encoder.Plain.encode_eq`).  That
needs two facts about what an encoder keeps, gathered in `Encoder.Plain`: kept marks are ASCII
characters, so a byte of a longer form is never taken for one, and `%` is not kept.

Reading takes either form of a byte off the front of any text (`decodeOnto_encodeByte_append`), so
it gives back the bytes that were written, whichever encoder wrote them.
-/

namespace Polyfill

namespace Utf8

/-- All bytes of a character beyond ASCII are beyond ASCII. -/
lemma le_of_mem_encodeChar {c : Char} (h : 0x80 ≤ c.toNat) {b : UInt8} (hb : b ∈ encodeChar c) :
    0x80 ≤ b.toNat := by
  have hvalid := isValidChar_toNat c
  rcases Nat.lt_or_ge c.toNat 0x800 with h2 | h2
  · simp only [encodeChar_pair h h2, List.mem_cons, List.not_mem_nil, or_false] at hb
    rcases hb with rfl | rfl <;> rw [toNat_byte (by omega)] <;> omega
  rcases Nat.lt_or_ge c.toNat 0x10000 with h3 | h3
  · simp only [encodeChar_triple h2 h3, List.mem_cons, List.not_mem_nil, or_false] at hb
    rcases hb with rfl | rfl | rfl <;> rw [toNat_byte (by omega)] <;> omega
  · simp only [encodeChar_quadruple h3, List.mem_cons, List.not_mem_nil, or_false] at hb
    rcases hb with rfl | rfl | rfl | rfl <;> rw [toNat_byte (by omega)] <;> omega

end Utf8

namespace Percent

/-! ## Escapes -/

lemma value?_digit {n : Nat} (h : n < 16) : Hex.value? (digit n) = some n := by
  have hall : ∀ n < 16, Hex.value? (digit n) = some n := by decide
  exact hall n h

/-- The digits of an escape stand for its byte. -/
lemma byte?_digits (b : UInt8) :
    Hex.byte? (digit (b.toNat / 16)) (digit (b.toNat % 16)) = some b := by
  have hb := b.toNat_lt
  have hsum : 16 * (b.toNat / 16) + b.toNat % 16 = b.toNat := Nat.div_add_mod _ _
  rw [Hex.byte?, value?_digit (by omega), value?_digit (by omega), Option.bind_some,
    Option.map_some, hsum, UInt8.ofNat_toNat]

/-! ## What an encoder keeps -/

namespace Encoder

/-- The marks that an encoder keeps are ASCII characters other than `%`. -/
def Plain (e : Encoder) : Prop :=
  ∀ m ∈ e.marks, m.toNat < 0x80 ∧ m ≠ '%'

/-- How an encoder writes one byte: as the character with its number, or as an escape. -/
def encodeByte (e : Encoder) (b : UInt8) : List Char :=
  if e.keeps (Char.ofNat b.toNat) then [Char.ofNat b.toNat] else escape b

lemma isAlphanumeric_ascii {c : Char} (h : isAlphanumeric c = true) :
    c.toNat < 0x80 ∧ c ≠ '%' := by
  have hle : ∀ {a b : Char}, a ≤ b → a.toNat ≤ b.toNat := fun h => h
  have hbounds : (48 ≤ c.toNat ∧ c.toNat ≤ 57) ∨ (65 ≤ c.toNat ∧ c.toNat ≤ 90) ∨
      (97 ≤ c.toNat ∧ c.toNat ≤ 122) := by
    simp only [isAlphanumeric, Bool.or_eq_true, Bool.and_eq_true, decide_eq_true_eq] at h
    rcases h with (⟨h, h'⟩ | ⟨h, h'⟩) | ⟨h, h'⟩
    · exact Or.inr (Or.inr ⟨hle h, hle h'⟩)
    · exact Or.inr (Or.inl ⟨hle h, hle h'⟩)
    · exact Or.inl ⟨hle h, hle h'⟩
  refine ⟨by omega, ?_⟩
  rintro rfl
  have hpercent : '%'.toNat = 37 := rfl
  omega

variable {e : Encoder}

/-- Whatever an encoder keeps is an ASCII character other than `%`. -/
lemma Plain.of_keeps (he : e.Plain) {c : Char} (h : e.keeps c = true) :
    c.toNat < 0x80 ∧ c ≠ '%' := by
  rcases Bool.or_eq_true_iff.mp h with halpha | hmark
  · exact isAlphanumeric_ascii halpha
  · exact he c (List.contains_iff_mem.mp hmark)

/-- A byte beyond ASCII is always escaped. -/
lemma Plain.encodeByte_of_le (he : e.Plain) {b : UInt8} (h : 0x80 ≤ b.toNat) :
    e.encodeByte b = escape b := by
  have hb := b.toNat_lt
  refine if_neg fun hkeeps => ?_
  have hlt := (he.of_keeps hkeeps).1
  rw [Utf8.toNat_char (Or.inl (by omega))] at hlt
  omega

/-- Writing a character is writing its bytes. -/
lemma Plain.encodeChar_eq (he : e.Plain) (c : Char) :
    e.encodeChar c = (Utf8.encodeChar c).flatMap e.encodeByte := by
  unfold encodeChar
  rcases Nat.lt_or_ge c.toNat 0x80 with h | h
  · rw [Utf8.encodeChar_single h, List.flatMap_singleton, List.flatMap_singleton, encodeByte,
      Utf8.toNat_byte (by omega), Char.ofNat_toNat]
  · have hkeeps : ¬e.keeps c = true := fun hkeeps => by
      have := (he.of_keeps hkeeps).1
      omega
    rw [if_neg hkeeps]
    exact List.flatMap_congr fun b hb =>
      (he.encodeByte_of_le (Utf8.le_of_mem_encodeChar h hb)).symm

/-- Writing a text is writing its bytes. -/
lemma Plain.encode_eq (he : e.Plain) (cs : List Char) :
    e.encode cs = (Utf8.encode cs).flatMap e.encodeByte := by
  rw [encode, Utf8.encode, List.flatMap_assoc]
  exact List.flatMap_congr fun c _ => he.encodeChar_eq c

end Encoder

/-! ## Reading what was written -/

variable {e : Encoder}

/-- Reading takes a written byte off the front. -/
lemma decodeOnto_encodeByte_append (he : e.Plain) (offset : Nat) (read : List UInt8) (b : UInt8)
    (rest : List Char) :
    decodeOnto offset read (e.encodeByte b ++ rest) =
      decodeOnto (offset + (e.encodeByte b).length) (b :: read) rest := by
  have hb := b.toNat_lt
  unfold Encoder.encodeByte
  split
  · rename_i hkeeps
    -- A kept byte is a character of its own, and that character's only byte.
    have hnat : (Char.ofNat b.toNat).toNat = b.toNat := Utf8.toNat_char (Or.inl (by omega))
    obtain ⟨hlt, hne⟩ := he.of_keeps hkeeps
    have hown : Utf8.encodeChar (Char.ofNat b.toNat) = [b] := by
      rw [Utf8.encodeChar_single hlt, hnat, UInt8.ofNat_toNat]
    rw [List.singleton_append, decodeOnto.eq_def]
    simp only [if_neg hne, hown, List.length_singleton, List.reverse_singleton,
      List.singleton_append]
  · rw [escape, List.cons_append, List.cons_append, List.singleton_append, decodeOnto]
    simp only [if_true, byte?_digits, List.length_cons, List.length_nil]

lemma decodeOnto_encodeBytes (he : e.Plain) (offset : Nat) (read bytes : List UInt8) :
    decodeOnto offset read (bytes.flatMap e.encodeByte) = .ok (read.reverse ++ bytes) := by
  induction bytes generalizing offset read with
  | nil => rw [List.flatMap_nil, decodeOnto, List.append_nil]
  | cons b bytes ih =>
    rw [List.flatMap_cons, decodeOnto_encodeByte_append he, ih, List.reverse_cons,
      List.append_assoc, List.singleton_append]

/-- A written text is read as its bytes. -/
theorem decode_encode (he : e.Plain) (cs : List Char) :
    decode (e.encode cs) = .ok (Utf8.encode cs) := by
  rw [he.encode_eq]
  exact decodeOnto_encodeBytes he 0 [] _

end Percent

/-! ## The percent codecs -/

namespace Codec

/-- The encoder of a percent codec. -/
def encoder? : Codec → Option Percent.Encoder
  | .url => some Percent.url
  | .uriComponent => some Percent.uriComponent
  | .uri => some Percent.uri
  | .base64 | .hex => none

variable {c : Codec} {e : Percent.Encoder}

lemma plain_of_encoder? (h : c.encoder? = some e) : e.Plain := by
  have hall : ∀ m ∈ Percent.uri.marks, m.toNat < 0x80 ∧ m ≠ '%' := by
    simp [Percent.uri, Percent.uriComponent, Percent.url]
  -- The encoder of whole addresses keeps the marks of the other two.
  cases c <;> cases h
  · exact fun m hm => hall m (List.mem_append_left _ (List.mem_append_left _ hm))
  · exact fun m hm => hall m (List.mem_append_left _ hm)
  · exact hall

lemma encode_of_encoder? (h : c.encoder? = some e) (s : String) :
    c.encode s = String.ofList (e.encode s.toList) := by
  cases c <;> cases h <;> rfl

/-- The percent codecs share one reader. -/
lemma decode_of_encoder? (h : c.encoder? = some e) {t s : String}
    (ht : Percent.decode t.toList = .ok (Utf8.bytes s)) : c.decode t = .ok s := by
  have hbytes : c.decodeBytes t = .ok (Utf8.bytes s) := by
    cases c <;> cases h <;> simp only [decodeBytes, ht]
  simp only [decode, hbytes, Utf8.text?_eq_some_iff.mpr rfl]

/-- Whichever percent codec writes a text, each of them reads it back. -/
lemma decode_encode_of_encoder? {writer reader : Codec} {e d : Percent.Encoder}
    (hw : writer.encoder? = some e) (hr : reader.encoder? = some d) (s : String) :
    reader.decode (writer.encode s) = .ok s := by
  apply decode_of_encoder? hr
  rw [encode_of_encoder? hw, String.toList_ofList]
  exact Percent.decode_encode (plain_of_encoder? hw) s.toList

end Codec

/-- Percent coding can be read back.  Whichever of the three built-in encoders writes a text, it
writes each byte of its UTF-8 form as itself or as an escape, and whichever of the three readers is
asked, the one for whole addresses among them, it gives back the text. -/
theorem percent_round_trip {writer reader : Codec} {e d : Percent.Encoder}
    (hw : writer.encoder? = some e) (hr : reader.encoder? = some d) (s : String)
    (scene scene' : Scene) :
    ∃ t, ((OpTable.native.call (.encode writer s)).perform scene).1 = .ok t ∧
      t.toList = (Utf8.bytes s).flatMap e.encodeByte ∧
      ((OpTable.native.call (.decode reader t)).perform scene').1 = .ok s := by
  have he := Codec.plain_of_encoder? hw
  have htext : (writer.encode s).toList = e.encode s.toList := by
    rw [Codec.encode_of_encoder? hw, String.toList_ofList]
  have hread : ∀ c f, Codec.encoder? c = some f → c.decode (writer.encode s) = .ok s := by
    intro c f hc
    refine Codec.decode_of_encoder? hc ?_
    rw [htext]
    exact Percent.decode_encode he s.toList
  refine ⟨writer.encode s, rfl, ?_, ?_⟩
  · rw [htext, he.encode_eq, Utf8.bytes]
  · -- The built-in ops do not read whole addresses themselves and ask the reader of components.
    cases reader with
    | base64 | hex => cases hr
    | url => exact hread .url _ rfl
    | uriComponent | uri => exact hread .uriComponent _ rfl

/-- A text with a percent sign, a control character and characters of every length in UTF-8, written
as a whole address and read as a component. -/
theorem percent_round_trip_of_every_length :
    Codec.uri.encoder? = some Percent.uri ∧
    Codec.uriComponent.encoder? = some Percent.uriComponent ∧
    ∃ t, ((OpTable.native.call (.encode .uri "50%\t/é€𝄞")).perform ⟨⟨fun _ => 0, 0⟩, []⟩).1 =
        .ok t ∧
      t.toList = (Utf8.bytes "50%\t/é€𝄞").flatMap Percent.uri.encodeByte ∧
      ((OpTable.native.call (.decode .uriComponent t)).perform ⟨⟨fun _ => 7, 3⟩, []⟩).1 =
        .ok "50%\t/é€𝄞" :=
  ⟨rfl, rfl, percent_round_trip rfl rfl _ _ _⟩

end Polyfill
