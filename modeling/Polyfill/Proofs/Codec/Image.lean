import Mathlib.Data.List.TakeWhile
import Polyfill.Proofs.Codec.Escapes
/-!
# What percent encoders can write

A text is written by an encoder exactly if it has a certain form (`Canonical`): it is made of kept
characters and of escapes with capital digits, no escape stands for a kept character, and the bytes
of each maximal run of escapes are well-formed.

That a written text has the form is a matter of cutting.  Its pieces are the bytes of the text that
was written, kept pieces are ASCII characters, and well-formed bytes can be cut at those.  The other
way the pieces are put together again: between two kept characters there is a run, so all bytes
together are well-formed (`wellFormed_of_runs`), and the text with these bytes is written as the
given pieces.
-/

namespace Polyfill

namespace Percent

/-! ## Pieces and runs -/

/-- The digits of escapes in their order, with capital letters. -/
def capitals : List Char :=
  ['0', '1', '2', '3', '4', '5', '6', '7', '8', '9', 'A', 'B', 'C', 'D', 'E', 'F']

/-- A piece of a written text: a character that stands for itself, or an escape with its digits. -/
inductive Piece where
  | kept (c : Char)
  | escape (h l : Char)

namespace Piece

/-- The characters of a piece. -/
def text : Piece → List Char
  | kept c => [c]
  | escape h l => ['%', h, l]

/-- The byte that a piece stands for. -/
def byte : Piece → UInt8
  | kept c => UInt8.ofNat c.toNat
  | escape h l => Hex.byteOf h l

/-- The bytes that a piece is read as: those of its character, or the one of its escape. -/
def bytes : Piece → List UInt8
  | kept c => Utf8.encodeChar c
  | escape h l => [Hex.byteOf h l]

/-- Whether a piece is an escape. -/
def isEscape : Piece → Bool
  | kept _ => false
  | escape _ _ => true

/-- A piece as it is written where certain characters are kept: one of these, or an escape with
capital digits that stands for none of them. -/
def Proper (keeps : Char → Prop) : Piece → Prop
  | kept c => keeps c
  | escape h l => h ∈ capitals ∧ l ∈ capitals ∧ ∀ c, keeps c → Hex.byteOf h l ≠ UInt8.ofNat c.toNat

end Piece

/-- A maximal run of adjacent escapes: no escape stands right before it, and none right behind. -/
def IsRun (pieces run : List Piece) : Prop :=
  ∃ before after, pieces = before ++ run ++ after ∧ (∀ p ∈ run, p.isEscape = true) ∧
    (∀ p ∈ before.getLast?, p.isEscape = false) ∧ ∀ p ∈ after.head?, p.isEscape = false

/-- The form of a written text. -/
structure Canonical (keeps : Char → Prop) (t : List Char) : Prop where
  ascii : ∀ c ∈ t, c.toNat < 0x80
  pieces : ∃ pieces : List Piece, t = pieces.flatMap Piece.text ∧
    (∀ p ∈ pieces, p.Proper keeps) ∧
    ∀ run, IsRun pieces run → Utf8.WellFormed (run.map Piece.byte)

/-! ## From runs to the whole -/

/-- The runs behind a kept character are runs of the whole. -/
lemma IsRun.behind {front rest run : List Piece} {p : Piece} (h : IsRun rest run)
    (hp : p.isEscape = false) : IsRun (front ++ p :: rest) run := by
  obtain ⟨before, after, rfl, hrun, hbefore, hafter⟩ := h
  refine ⟨front ++ p :: before, after, by simp, hrun, ?_, hafter⟩
  rw [List.getLast?_append_of_ne_nil front (List.cons_ne_nil p before)]
  cases before with
  | nil => simpa using hp
  | cons q before => rwa [List.getLast?_cons_cons]

/-- What is not an escape comes right behind the escapes at the front. -/
lemma isEscape_head?_dropWhile (pieces : List Piece) {p : Piece}
    (h : p ∈ (pieces.dropWhile Piece.isEscape).head?) : p.isEscape = false := by
  have hnot := List.head?_dropWhile_not Piece.isEscape pieces
  rw [Option.mem_def.mp h] at hnot
  exact hnot

/-- The escapes at the front are a run. -/
lemma isRun_front (pieces : List Piece) : IsRun pieces (pieces.takeWhile Piece.isEscape) := by
  refine ⟨[], pieces.dropWhile Piece.isEscape, ?_, fun p hp => List.mem_takeWhile_imp hp, ?_,
    fun p hp => isEscape_head?_dropWhile pieces hp⟩
  · rw [List.nil_append, List.takeWhile_append_dropWhile]
  · intro p hp
    cases hp

/-- Pieces with one byte each are read as their bytes in order. -/
lemma flatMap_bytes {pieces : List Piece} (h : ∀ p ∈ pieces, p.bytes = [p.byte]) :
    pieces.flatMap Piece.bytes = pieces.map Piece.byte := by
  rw [List.flatMap_congr h, List.map_eq_flatMap]

lemma bytes_of_isEscape {p : Piece} (h : p.isEscape = true) : p.bytes = [p.byte] := by
  cases p with
  | kept c => cases h
  | escape h l => rfl

/-- If the bytes of every run are well-formed, then so are the bytes of all pieces: what stands
between the runs are whole characters. -/
lemma wellFormed_of_runs (pieces : List Piece)
    (hruns : ∀ run, IsRun pieces run → Utf8.WellFormed (run.map Piece.byte)) :
    Utf8.WellFormed (pieces.flatMap Piece.bytes) := by
  -- Induction on the length, from one run with the kept character behind it to the next.
  induction hn : pieces.length using Nat.strong_induction_on generalizing pieces with
  | _ n ih =>
    have hfront := hruns _ (isRun_front pieces)
    have hescapes : ∀ p ∈ pieces.takeWhile Piece.isEscape, p.bytes = [p.byte] := fun p hp =>
      bytes_of_isEscape (List.mem_takeWhile_imp hp)
    rw [← flatMap_bytes hescapes] at hfront
    have hsplit := List.takeWhile_append_dropWhile (p := Piece.isEscape) (l := pieces)
    cases hrest : pieces.dropWhile Piece.isEscape with
    | nil =>
      rw [hrest, List.append_nil] at hsplit
      rwa [hsplit] at hfront
    | cons p rest =>
      have hp : p.isEscape = false := isEscape_head?_dropWhile pieces (by rw [hrest]; rfl)
      rw [hrest] at hsplit
      generalize pieces.takeWhile Piece.isEscape = front at hfront hsplit
      subst hsplit
      have hlength : rest.length < n := by
        rw [← hn, List.length_append, List.length_cons]
        omega
      have htail : Utf8.WellFormed (rest.flatMap Piece.bytes) :=
        ih rest.length hlength rest (fun run hrun => hruns run (hrun.behind hp)) rfl
      cases p with
      | escape h l => cases hp
      | kept c =>
        rw [List.flatMap_append, List.flatMap_cons]
        exact hfront.append (.cons (Utf8.form_encodeChar c) htail)

/-! ## Pieces of an encoder -/

namespace Encoder

variable {e : Encoder}

/-- The piece that an encoder writes for a byte. -/
def piece (e : Encoder) (b : UInt8) : Piece :=
  if e.keeps (letter b) then .kept (letter b)
  else .escape (digit (b.toNat / 16)) (digit (b.toNat % 16))

/-- The digits of escapes are capital digits, and stand for their numbers. -/
lemma digit_mem_capitals {n : Nat} (h : n < 16) :
    digit n ∈ capitals ∧ Hex.numeral (digit n) = n := by
  have hall : ∀ n < 16, digit n ∈ capitals ∧ Hex.numeral (digit n) = n := by decide
  exact hall n h

/-- A capital digit is the digit of its number. -/
lemma digit_numeral {c : Char} (h : c ∈ capitals) :
    Hex.numeral c < 16 ∧ digit (Hex.numeral c) = c := by
  have hall : capitals.all
      (fun c => decide (Hex.numeral c < 16 ∧ digit (Hex.numeral c) = c)) = true := rfl
  exact of_decide_eq_true (List.all_eq_true.mp hall c h)

lemma byteOf_digits (b : UInt8) :
    Hex.byteOf (digit (b.toNat / 16)) (digit (b.toNat % 16)) = b := by
  have hb := b.toNat_lt
  exact Hex.byteOf_eq (digit_mem_capitals (by omega)).2 (digit_mem_capitals (by omega)).2

lemma byte_letter (b : UInt8) : UInt8.ofNat (letter b).toNat = b := by
  have hb := b.toNat_lt
  rw [letter, Utf8.toNat_char (Or.inl (by omega)), UInt8.ofNat_toNat]

lemma text_piece (b : UInt8) : (e.piece b).text = e.encodeByte b := by
  unfold piece encodeByte
  rw [← letter]
  split
  · rfl
  · rfl

lemma byte_piece (b : UInt8) : (e.piece b).byte = b := by
  unfold piece
  split
  · exact byte_letter b
  · exact byteOf_digits b

/-- An encoder writes proper pieces. -/
lemma Plain.proper_piece (he : e.Plain) (b : UInt8) :
    (e.piece b).Proper fun c => e.keeps c = true := by
  have hb := b.toNat_lt
  unfold piece
  split
  · rename_i hkeeps
    exact hkeeps
  · rename_i hescape
    refine ⟨(digit_mem_capitals (by omega)).1, (digit_mem_capitals (by omega)).1, ?_⟩
    intro c hc heq
    rw [byteOf_digits] at heq
    apply hescape
    rwa [heq, letter_byte (he.of_keeps hc).1]

/-- A proper piece that is no escape is an ASCII character. -/
lemma Plain.byte_lt (he : e.Plain) {p : Piece} (hp : p.Proper fun c => e.keeps c = true)
    (hkept : p.isEscape = false) : p.byte.toNat < 0x80 := by
  cases p with
  | kept c =>
    have hc := (he.of_keeps hp).1
    rwa [Piece.byte, Utf8.toNat_byte (by omega)]
  | escape h l => cases hkept

/-- A proper piece is read as its one byte. -/
lemma Plain.bytes_eq (he : e.Plain) {p : Piece} (hp : p.Proper fun c => e.keeps c = true) :
    p.bytes = [p.byte] := by
  cases p with
  | kept c => exact Utf8.encodeChar_single (he.of_keeps hp).1
  | escape h l => rfl

lemma Plain.text_ascii (he : e.Plain) {p : Piece} (hp : p.Proper fun c => e.keeps c = true) :
    ∀ c ∈ p.text, c.toNat < 0x80 := by
  have hall : capitals.all (fun c => decide (c.toNat < 0x80)) = true := rfl
  have hcapital : ∀ c ∈ capitals, c.toNat < 0x80 := fun c hc =>
    of_decide_eq_true (List.all_eq_true.mp hall c hc)
  intro c hc
  cases p with
  | kept d =>
    obtain rfl := List.mem_singleton.mp hc
    exact (he.of_keeps hp).1
  | escape h l =>
    simp only [Piece.text, List.mem_cons, List.not_mem_nil, or_false] at hc
    rcases hc with rfl | rfl | rfl
    · decide
    · exact hcapital c hp.1
    · exact hcapital c hp.2.1

/-- A proper piece is what the encoder writes for its byte. -/
lemma Plain.encodeByte_byte (he : e.Plain) {p : Piece}
    (hp : p.Proper fun c => e.keeps c = true) : e.encodeByte p.byte = p.text := by
  cases p with
  | kept c =>
    have hkeeps : e.keeps (letter (UInt8.ofNat c.toNat)) = true := by
      rwa [letter_byte (he.of_keeps hp).1]
    rw [Piece.byte, encodeByte, ← letter, if_pos hkeeps, letter_byte (he.of_keeps hp).1, Piece.text]
  | escape h l =>
    obtain ⟨hh, hl, hnot⟩ := hp
    have hescape : ¬e.keeps (letter (Hex.byteOf h l)) = true := fun hkeeps =>
      hnot _ hkeeps (byte_letter _).symm
    obtain ⟨hhigh, hhdigit⟩ := digit_numeral hh
    obtain ⟨hlow, hldigit⟩ := digit_numeral hl
    obtain ⟨hdiv, hmod⟩ := Hex.toNat_byteOf hhigh hlow
    rw [Piece.byte, encodeByte, ← letter, if_neg hescape, escape, hdiv, hmod, hhdigit, hldigit,
      Piece.text]

/-! ## Written texts -/

/-- What an encoder writes has the form of a written text. -/
lemma Plain.canonical_encode (he : e.Plain) (cs : List Char) :
    Canonical (fun c => e.keeps c = true) (e.encode cs) := by
  have hpieces : e.encode cs = ((Utf8.encode cs).map e.piece).flatMap Piece.text := by
    rw [he.encode_eq, List.flatMap_map]
    exact List.flatMap_congr fun b _ => (text_piece b).symm
  refine ⟨?_, (Utf8.encode cs).map e.piece, hpieces, ?_, ?_⟩
  · intro c hc
    rw [hpieces, List.flatMap_map] at hc
    obtain ⟨b, -, hc⟩ := List.mem_flatMap.mp hc
    exact he.text_ascii (he.proper_piece b) c hc
  · intro p hp
    obtain ⟨b, -, rfl⟩ := List.mem_map.mp hp
    exact he.proper_piece b
  · -- A run of pieces comes from the bytes between two kept ones.
    rintro run ⟨before, after, hsplit, -, hbefore, hafter⟩
    obtain ⟨most, back, henc, hmost, rfl⟩ := List.map_eq_append_iff.mp hsplit
    obtain ⟨front, middle, rfl, rfl, rfl⟩ := List.map_eq_append_iff.mp hmost
    have hmiddle : (middle.map e.piece).map Piece.byte = middle := by
      rw [List.map_map]
      exact List.map_id'' byte_piece middle
    have hascii : ∀ b, (e.piece b).isEscape = false → b.toNat < 0x80 := fun b hb => by
      have hlt := he.byte_lt (he.proper_piece b) hb
      rwa [byte_piece] at hlt
    have hwell : Utf8.WellFormed (front ++ middle ++ back) := henc ▸ Utf8.wellFormed_encode cs
    rw [hmiddle]
    refine hwell.between (fun b hb => hascii b (hbefore _ ?_)) fun b hb => hascii b (hafter _ ?_)
    · rw [List.getLast?_map, hb]
      rfl
    · rw [List.head?_map, hb]
      rfl

/-- A text of that form is written by the encoder. -/
lemma Plain.exists_encode_eq (he : e.Plain) {t : List Char}
    (ht : Canonical (fun c => e.keeps c = true) t) : ∃ s : String, e.encode s.toList = t := by
  obtain ⟨-, pieces, rfl, hproper, hruns⟩ := ht
  have hwell := wellFormed_of_runs pieces hruns
  rw [flatMap_bytes fun p hp => he.bytes_eq (hproper p hp)] at hwell
  obtain ⟨s, hs⟩ := Utf8.wellFormed_iff.mp hwell
  refine ⟨s, ?_⟩
  rw [he.encode_eq, ← Utf8.bytes, ← hs, List.flatMap_map]
  exact List.flatMap_congr fun p hp => he.encodeByte_byte (hproper p hp)

end Encoder

/-- A character that is kept along with some marks: a mark, or an ASCII letter or digit. -/
def IsKept (marks : String) (c : Char) : Prop :=
  c.isAlphanum = true ∨ c ∈ marks.toList

lemma isAlphanumeric_eq (c : Char) : isAlphanumeric c = c.isAlphanum := by
  have hupper : c.isUpper = ('A' ≤ c && c ≤ 'Z') := Bool.decide_and _ _
  have hlower : c.isLower = ('a' ≤ c && c ≤ 'z') := rfl
  have hdigit : c.isDigit = ('0' ≤ c && c ≤ '9') := rfl
  have halphanum : c.isAlphanum = (c.isUpper || c.isLower || c.isDigit) := rfl
  rw [halphanum, hupper, hlower, hdigit, isAlphanumeric]
  simp only [Bool.or_comm]

end Percent

/-! ## The percent codecs -/

/-- The marks that a percent codec keeps. -/
def Codec.marks? : Codec → Option String
  | .url => some "-_.~"
  | .uriComponent => some "-_.~!*'()"
  | .uri => some "-_.~!*'();,/?:@&=+$#"
  | .base64 | .hex => none

/-- The characters that a percent codec keeps are those that its encoder keeps. -/
lemma Codec.exists_encoder_of_marks? {c : Codec} {marks : String} (h : c.marks? = some marks) :
    ∃ e, c.encoder? = some e ∧ (fun ch => e.keeps ch = true) = Percent.IsKept marks := by
  have hkeeps : ∀ e : Percent.Encoder, e.marks = marks.toList →
      (fun ch => e.keeps ch = true) = Percent.IsKept marks := by
    intro e he
    funext ch
    simp only [Percent.Encoder.keeps, Percent.IsKept, Percent.isAlphanumeric_eq, he,
      Bool.or_eq_true, List.contains_iff_mem]
  cases c <;> cases h
  · exact ⟨Percent.url, rfl, hkeeps _ (by decide)⟩
  · exact ⟨Percent.uriComponent, rfl, hkeeps _ (by decide)⟩
  · exact ⟨Percent.uri, rfl, hkeeps _ (by decide)⟩

lemma OpTable.fst_native_encode (c : Codec) (s : String) (scene : Scene) :
    ((OpTable.native.call (.encode c s)).perform scene).1 = .ok (c.encode s) := rfl

/-- The texts that the percent encoders write are those of one form.  A text is written by an
encoder exactly if it is ASCII and made of characters that the encoder keeps and of escapes with
capital digits, none of which stands for a kept character, such that the bytes of each maximal run
of adjacent escapes are well-formed.  Hence a text that can be read is written again as it was
exactly if it has that form. -/
theorem percent_image_canonical {codec : Codec} {marks : String}
    (h : codec.marks? = some marks) (t : String) (scene : Scene) :
    ((∃ s, ((OpTable.native.call (.encode codec s)).perform scene).1 = .ok t) ↔
      Percent.Canonical (Percent.IsKept marks) t.toList) ∧
    ∀ reader m, Codec.marks? reader = some m → ∀ s,
      ((OpTable.native.call (.decode reader t)).perform scene).1 = .ok s →
      (((OpTable.native.call (.encode codec s)).perform scene).1 = .ok t ↔
        Percent.Canonical (Percent.IsKept marks) t.toList) := by
  obtain ⟨e, he, hkept⟩ := Codec.exists_encoder_of_marks? h
  have hplain := Codec.plain_of_encoder? he
  have hwrites : ∀ s, codec.encode s = t ↔ e.encode s.toList = t.toList := by
    intro s
    rw [Codec.encode_of_encoder? he, ← String.toList_inj, String.toList_ofList]
  have himage : (∃ s, codec.encode s = t) ↔
      Percent.Canonical (Percent.IsKept marks) t.toList := by
    simp only [hwrites, ← hkept]
    constructor
    · rintro ⟨s, hs⟩
      rw [← hs]
      exact hplain.canonical_encode s.toList
    · exact hplain.exists_encode_eq
  simp only [OpTable.fst_native_encode, OpTable.fst_native_decode, Except.ok.injEq]
  refine ⟨himage, fun reader m hm s hs => ?_⟩
  obtain ⟨d, hd, -⟩ := Codec.exists_encoder_of_marks? hm
  rw [← himage]
  refine ⟨fun hst => ⟨s, hst⟩, ?_⟩
  -- Only one text is written as `t`, and that is what is read.
  rintro ⟨s', rfl⟩
  rw [Codec.decode_encode_of_encoder? he hd] at hs
  rw [Except.ok.inj hs]

/-- A written address with a run of three escapes, and two texts that can be read but are not
written: one has small digits, and one an escape for a kept character. -/
theorem percent_image_canonical_of_addresses :
    Codec.uri.marks? = some "-_.~!*'();,/?:@&=+$#" ∧
    Percent.Canonical (Percent.IsKept "-_.~!*'();,/?:@&=+$#") "a/%20%C3%A9?".toList ∧
    ¬Percent.Canonical (Percent.IsKept "-_.~!*'();,/?:@&=+$#") "%c3%a9".toList ∧
    ¬Percent.Canonical (Percent.IsKept "-_.~!*'();,/?:@&=+$#") "%2F".toList := by
  have scene : Scene := ⟨⟨fun _ => 0, 0⟩, []⟩
  have hmarks : Codec.uri.marks? = some "-_.~!*'();,/?:@&=+$#" := rfl
  refine ⟨hmarks, ?_, ?_, ?_⟩
  · exact (percent_image_canonical hmarks _ scene).1.mp ⟨"a/ é?", by rfl⟩
  · have hread : ((OpTable.native.call (.decode .uri "%c3%a9")).perform scene).1 = .ok "é" := by
      rfl
    refine ((percent_image_canonical hmarks _ scene).2 .uri _ hmarks _ hread).not.mp ?_
    rw [OpTable.fst_native_encode, Except.ok.injEq]
    decide
  · have hread : ((OpTable.native.call (.decode .uri "%2F")).perform scene).1 = .ok "/" := by rfl
    refine ((percent_image_canonical hmarks _ scene).2 .uri _ hmarks _ hread).not.mp ?_
    rw [OpTable.fst_native_encode, Except.ok.injEq]
    decide

end Polyfill
