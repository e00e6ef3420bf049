import Polyfill.Proofs.Codec.Image
/-!
# Percent codes are read piece by piece

A text is read exactly if it can be spelled by readable pieces, that is by characters other than `%`
and by escapes, and if the bytes of the pieces, put together, are well-formed (`decode_eq_ok_iff`).
Pieces are cut where the text is cut, unless the cut falls within an escape (`Spells.of_append`).
And well-formed bytes can be cut wherever a character that stands for itself is on one side of the
cut (`wellFormed_append_iff`): its own bytes are a whole character, which no byte of an escape can
become a part of.

So reading is local.  A text falls apart at every place that is neither within an escape nor between
two, and what is left to check are the runs of adjacent escapes, each by itself
(`wellFormed_iff_runs`).
-/

namespace Polyfill

namespace Percent

/-! ## Texts in pieces -/

/-- A piece that can be read: a character other than `%`, or an escape with digits of either
case. -/
def Piece.Readable : Piece → Prop
  | kept c => c ≠ '%'
  | escape h l => Hex.IsDigit h ∧ Hex.IsDigit l

/-- Readable pieces that make up a text. -/
structure Spells (pieces : List Piece) (cs : List Char) : Prop where
  text : cs = pieces.flatMap Piece.text
  readable : ∀ p ∈ pieces, p.Readable

/-- A text that ends within an escape: in `%`, or in `%` and one digit. -/
def Unfinished (cs : List Char) : Prop :=
  ['%'] <:+ cs ∨ ∃ h, Hex.IsDigit h ∧ ['%', h] <:+ cs

/-- A text that ends in a complete escape. -/
def EndsInEscape (cs : List Char) : Prop :=
  ∃ h l, Hex.IsDigit h ∧ Hex.IsDigit l ∧ ['%', h, l] <:+ cs

lemma Unfinished.of_suffix {a b : List Char} (h : Unfinished b) (hsuffix : b <:+ a) :
    Unfinished a := by
  rcases h with h | ⟨d, hd, h⟩
  · exact Or.inl (h.trans hsuffix)
  · exact Or.inr ⟨d, hd, h.trans hsuffix⟩

/-- A text with `%` close to its end has it among its last characters. -/
lemma mem_drop_of_suffix {tail cs : List Char} {n : Nat} (h : '%' :: tail <:+ cs)
    (hn : tail.length < n) : '%' ∈ cs.drop (cs.length - n) := by
  obtain ⟨front, rfl⟩ := h
  rw [List.drop_append_of_le_length]
  · exact List.mem_append_right _ List.mem_cons_self
  · simp only [List.length_append, List.length_cons]
    omega

lemma Unfinished.mem_drop {cs : List Char} (h : Unfinished cs) : '%' ∈ cs.drop (cs.length - 2) := by
  rcases h with h | ⟨d, -, h⟩
  · exact mem_drop_of_suffix h (Nat.zero_lt_succ 1)
  · exact mem_drop_of_suffix h (Nat.lt_succ_self 1)

lemma EndsInEscape.mem_drop {cs : List Char} (h : EndsInEscape cs) :
    '%' ∈ cs.drop (cs.length - 3) := by
  obtain ⟨d, l, -, -, h⟩ := h
  exact mem_drop_of_suffix h (Nat.lt_succ_self 2)

namespace Spells

variable {p : Piece} {pieces front back : List Piece} {cs a b : List Char}

lemma nil : Spells [] [] :=
  ⟨rfl, fun _ h => by cases h⟩

lemma cons (hp : p.Readable) (h : Spells pieces cs) : Spells (p :: pieces) (p.text ++ cs) := by
  refine ⟨?_, ?_⟩
  · rw [List.flatMap_cons, h.text]
  · intro q hq
    rcases List.mem_cons.mp hq with rfl | hmem
    · exact hp
    · exact h.readable q hmem

lemma append (ha : Spells front a) (hb : Spells back b) : Spells (front ++ back) (a ++ b) := by
  refine ⟨?_, ?_⟩
  · rw [List.flatMap_append, ha.text, hb.text]
  · intro q hq
    rcases List.mem_append.mp hq with hmem | hmem
    · exact ha.readable q hmem
    · exact hb.readable q hmem

/-- A piece that is cut in two is an escape, and what is in front of the cut is unfinished. -/
lemma unfinished_of_cut (hp : p.Readable) (h : p.text = a ++ b) (ha : a ≠ []) (hb : b ≠ []) :
    Unfinished a := by
  have hlength := congrArg List.length h
  have ha' := List.length_pos_iff.mpr ha
  have hb' := List.length_pos_iff.mpr hb
  rw [List.length_append] at hlength
  cases p with
  | kept c =>
    rw [Piece.text, List.length_singleton] at hlength
    omega
  | escape d l =>
    rcases a with _ | ⟨x, _ | ⟨y, _ | ⟨z, rest⟩⟩⟩
    · exact absurd rfl ha
    · cases h
      exact Or.inl List.suffix_rfl
    · cases h
      exact Or.inr ⟨d, hp.1, List.suffix_rfl⟩
    · simp only [Piece.text, List.length_cons, List.length_nil] at hlength
      omega

/-- Pieces are cut where the text is cut, if the cut is not within an escape. -/
lemma of_append (h : Spells pieces (a ++ b)) (ha : ¬Unfinished a) :
    ∃ front back, pieces = front ++ back ∧ Spells front a ∧ Spells back b := by
  obtain ⟨htext, hreadable⟩ := h
  induction pieces generalizing a with
  | nil =>
    obtain ⟨rfl, rfl⟩ := List.append_eq_nil_iff.mp htext
    exact ⟨[], [], rfl, .nil, .nil⟩
  | cons p pieces ih =>
    obtain ⟨hp, hpieces⟩ := List.forall_mem_cons.mp hreadable
    rw [List.flatMap_cons] at htext
    rcases List.append_eq_append_iff.mp htext with ⟨middle, hcut, hrest⟩ | ⟨middle, rfl, hrest⟩
    · -- The text is cut before the piece ends: at its front, at its end, or within an escape.
      by_cases hnil : a = []
      · subst hnil
        exact ⟨[], p :: pieces, rfl, .nil, ⟨by rw [List.flatMap_cons, hrest, hcut]; rfl, hreadable⟩⟩
      · by_cases hmiddle : middle = []
        · subst hmiddle
          rw [List.append_nil] at hcut
          refine ⟨[p], pieces, rfl, ⟨by simp [hcut], ?_⟩, ⟨hrest, hpieces⟩⟩
          exact fun q hq => List.mem_singleton.mp hq ▸ hp
        · exact absurd (unfinished_of_cut hp hcut hnil hmiddle) ha
    · have hmiddle : ¬Unfinished middle := fun h =>
        ha (h.of_suffix (List.suffix_append _ _))
      obtain ⟨front, back, rfl, hfront, hback⟩ := ih hmiddle hrest.symm hpieces
      exact ⟨p :: front, back, rfl, hfront.cons hp, hback⟩

/-- Pieces of a text that does not end in an escape end in a character that stands for itself. -/
lemma kept_of_not_endsInEscape (h : Spells pieces cs) (hend : ¬EndsInEscape cs) :
    ∀ p ∈ pieces.getLast?, p.isEscape = false := by
  intro p hp
  cases p with
  | kept c => rfl
  | escape d l =>
    obtain ⟨front, rfl⟩ := List.getLast?_eq_some_iff.mp hp
    obtain ⟨hd, hl⟩ := h.readable (.escape d l) (by simp)
    refine absurd ⟨d, l, hd, hl, ?_⟩ hend
    rw [h.text, List.flatMap_append]
    exact List.suffix_append _ _

/-- Pieces of a text that does not begin with `%` begin with a character that stands for itself. -/
lemma kept_of_head?_ne (h : Spells pieces cs) (hhead : cs.head? ≠ some '%') :
    ∀ p ∈ pieces.head?, p.isEscape = false := by
  intro p hp
  cases p with
  | kept c => rfl
  | escape d l =>
    obtain ⟨rest, rfl⟩ := List.head?_eq_some_iff.mp hp
    exact absurd (by rw [h.text]; rfl) hhead

end Spells

/-! ## Reading pieces -/

/-- Reading takes a piece off the front. -/
lemma decodeOnto_text_append {p : Piece} (hp : p.Readable) (offset : Nat) (read : List UInt8)
    (rest : List Char) :
    ∃ offset', decodeOnto offset read (p.text ++ rest) =
      decodeOnto offset' (p.bytes.reverse ++ read) rest := by
  cases p with
  | kept c =>
    refine ⟨offset + (Utf8.encodeChar c).length, ?_⟩
    rw [Piece.text, List.singleton_append, decodeOnto.eq_def]
    simp only [if_neg (show c ≠ '%' from hp), Piece.bytes]
  | escape h l =>
    refine ⟨offset + 3, ?_⟩
    have hbyte : Hex.byte? h l = some (Hex.byteOf h l) := by
      rw [Hex.byte?_eq]
      exact if_pos hp
    rw [Piece.text, List.cons_append, List.cons_append, List.singleton_append, decodeOnto]
    simp only [if_true, hbyte, Piece.bytes, List.reverse_singleton, List.singleton_append]

/-- A text in pieces is read as the bytes of its pieces. -/
lemma Spells.decodeOnto_eq {pieces : List Piece} {cs : List Char} (h : Spells pieces cs)
    (offset : Nat) (read : List UInt8) :
    decodeOnto offset read cs = .ok (read.reverse ++ pieces.flatMap Piece.bytes) := by
  obtain ⟨rfl, hreadable⟩ := h
  induction pieces generalizing offset read with
  | nil => rw [List.flatMap_nil, List.flatMap_nil, decodeOnto, List.append_nil]
  | cons p pieces ih =>
    obtain ⟨hp, hpieces⟩ := List.forall_mem_cons.mp hreadable
    obtain ⟨offset', htake⟩ := decodeOnto_text_append hp offset read (pieces.flatMap Piece.text)
    rw [List.flatMap_cons, htake, ih offset' _ hpieces]
    simp

/-- A text that is read falls into pieces. -/
lemma exists_spells_of_decodeOnto {offset : Nat} {read out : List UInt8} {cs : List Char}
    (h : decodeOnto offset read cs = .ok out) : ∃ pieces, Spells pieces cs := by
  fun_induction decodeOnto offset read cs with
  | case1 => exact ⟨[], .nil⟩
  | case2 offset read d l rest b hbyte ih =>
    obtain ⟨pieces, hpieces⟩ := ih h
    refine ⟨.escape d l :: pieces, hpieces.cons (p := .escape d l) ?_⟩
    rw [Hex.byte?_eq] at hbyte
    split at hbyte
    · assumption
    · cases hbyte
  | case5 offset read c rest hc own ih =>
    obtain ⟨pieces, hpieces⟩ := ih h
    exact ⟨.kept c :: pieces, hpieces.cons (p := .kept c) hc⟩
  | _ => cases h

/-- A text is read as some bytes exactly if they are the bytes of pieces that make it up. -/
theorem decode_eq_ok_iff {cs : List Char} {bytes : List UInt8} :
    decode cs = .ok bytes ↔ ∃ pieces, Spells pieces cs ∧ bytes = pieces.flatMap Piece.bytes := by
  constructor
  · intro h
    obtain ⟨pieces, hpieces⟩ := exists_spells_of_decodeOnto h
    have hread := hpieces.decodeOnto_eq 0 []
    exact ⟨pieces, hpieces, Except.ok.inj (h.symm.trans hread)⟩
  · rintro ⟨pieces, hpieces, rfl⟩
    exact hpieces.decodeOnto_eq 0 []

/-! ## Cutting the bytes of pieces -/

/-- Next to a character that stands for itself, the bytes of pieces can be cut: they are well-formed
exactly if both parts are. -/
lemma wellFormed_append_iff {front back : List Piece}
    (h : (∀ p ∈ front.getLast?, p.isEscape = false) ∨ ∀ p ∈ back.head?, p.isEscape = false) :
    Utf8.WellFormed ((front ++ back).flatMap Piece.bytes) ↔
      Utf8.WellFormed (front.flatMap Piece.bytes) ∧ Utf8.WellFormed (back.flatMap Piece.bytes) := by
  rw [List.flatMap_append]
  refine ⟨fun hwell => ?_, fun hboth => hboth.1.append hboth.2⟩
  rcases h with hlast | hfirst
  · rcases List.eq_nil_or_concat front with rfl | ⟨rest, p, rfl⟩
    · exact ⟨.nil, hwell⟩
    · rw [List.concat_eq_append] at hlast hwell ⊢
      cases p with
      | escape d l => cases hlast (.escape d l) (by simp)
      | kept c =>
        have hform := Utf8.form_encodeChar c
        have hchar : (rest ++ [Piece.kept c]).flatMap Piece.bytes =
            rest.flatMap Piece.bytes ++ (Utf8.encodeChar c ++ []) := List.flatMap_append
        rw [hchar, List.append_nil, List.append_assoc] at hwell
        obtain ⟨hrest, hback⟩ := hwell.around hform
        rw [hchar]
        exact ⟨hrest.append (.cons hform .nil), hback⟩
  · cases back with
    | nil => exact ⟨by rwa [List.flatMap_nil, List.append_nil] at hwell, .nil⟩
    | cons p rest =>
      cases p with
      | escape d l => cases hfirst (.escape d l) rfl
      | kept c =>
        have hform := Utf8.form_encodeChar c
        obtain ⟨hfront, hrest⟩ := hwell.around hform
        exact ⟨hfront, .cons hform hrest⟩

/-- The bytes of pieces are well-formed exactly if those of each run of escapes are. -/
lemma wellFormed_iff_runs (pieces : List Piece) :
    Utf8.WellFormed (pieces.flatMap Piece.bytes) ↔
      ∀ run, IsRun pieces run → Utf8.WellFormed (run.map Piece.byte) := by
  refine ⟨?_, wellFormed_of_runs pieces⟩
  rintro hwell run ⟨before, after, rfl, hrun, hbefore, hafter⟩
  have hleft := ((wellFormed_append_iff (Or.inr hafter)).mp hwell).1
  have hmiddle := ((wellFormed_append_iff (Or.inl hbefore)).mp hleft).2
  rwa [flatMap_bytes fun p hp => bytes_of_isEscape (hrun p hp)] at hmiddle

end Percent

/-! ## Texts -/

namespace Codec

variable {c : Codec} {e : Percent.Encoder} {t s : String}

/-- A text is read exactly if it falls into pieces whose bytes are those of the outcome. -/
lemma decode_eq_ok_iff_spells (he : c.encoder? = some e) :
    c.decode t = .ok s ↔ ∃ pieces, Percent.Spells pieces t.toList ∧
      Utf8.bytes s = pieces.flatMap Percent.Piece.bytes := by
  rw [← Percent.decode_eq_ok_iff]
  refine ⟨fun h => ?_, decode_of_encoder? he⟩
  cases hread : Percent.decode t.toList with
  | error n =>
    have hbytes : c.decodeBytes t = .error (.escape n) := by
      cases c <;> cases he <;> simp only [decodeBytes, hread]
    rw [decode_of_fault hbytes] at h
    cases h
  | ok bytes =>
    have hbytes : c.decodeBytes t = .ok bytes := by
      cases c <;> cases he <;> simp only [decodeBytes, hread]
    rw [(decode_eq_ok_iff hbytes).mp h]

/-- A text in pieces is read exactly if the bytes of its pieces are well-formed. -/
lemma exists_decode_eq_ok_iff (he : c.encoder? = some e) {pieces : List Percent.Piece}
    (h : Percent.Spells pieces t.toList) :
    (∃ s, c.decode t = .ok s) ↔ Utf8.WellFormed (pieces.flatMap Percent.Piece.bytes) := by
  rw [Utf8.wellFormed_iff]
  constructor
  · rintro ⟨s, hs⟩
    obtain ⟨pieces', hpieces', hbytes⟩ := (decode_eq_ok_iff_spells he).mp hs
    -- The bytes do not depend on how the text is cut: reading gives them.
    have hsame := (hpieces'.decodeOnto_eq 0 []).symm.trans (h.decodeOnto_eq 0 [])
    exact ⟨s, by rw [hbytes]; exact (Except.ok.inj hsame).symm⟩
  · rintro ⟨s, hs⟩
    exact ⟨s, (decode_eq_ok_iff_spells he).mpr ⟨pieces, h, hs.symm⟩⟩

/-- What is read of two texts is read of both together. -/
lemma decode_append (he : c.encoder? = some e) {a b x y : String} (hx : c.decode a = .ok x)
    (hy : c.decode b = .ok y) : c.decode (a ++ b) = .ok (x ++ y) := by
  obtain ⟨front, hfront, hxbytes⟩ := (decode_eq_ok_iff_spells he).mp hx
  obtain ⟨back, hback, hybytes⟩ := (decode_eq_ok_iff_spells he).mp hy
  refine (decode_eq_ok_iff_spells he).mpr ⟨front ++ back, ?_, ?_⟩
  · rw [String.toList_append]
    exact hfront.append hback
  · rw [List.flatMap_append, ← hxbytes, ← hybytes, Utf8.bytes, String.toList_append, Utf8.encode,
      List.flatMap_append]
    rfl

end Codec

/-- Percent codes are read locally, whichever of the three readers is asked.  Where one text ends
within no escape, and does not end in an escape that the other one goes on with, both together are
read exactly if each is read, and then as what they are read as, put together.  So a text that does
not fall into characters other than `%` and escapes is not read at all, and one that does is read
exactly if the bytes of each maximal run of adjacent escapes are well-formed by themselves, whatever
characters stand next to it. -/
theorem percent_decoding_local {reader : Codec} {e : Percent.Encoder}
    (hr : reader.encoder? = some e) (scene : Scene) :
    let result (t : String) := ((OpTable.native.call (.decode reader t)).perform scene).1
    (∀ a b : String, ¬Percent.Unfinished a.toList →
      ¬Percent.EndsInEscape a.toList ∨ b.toList.head? ≠ some '%' →
      ((∃ s, result (a ++ b) = .ok s) ↔ (∃ x, result a = .ok x) ∧ ∃ y, result b = .ok y) ∧
      ∀ x y, result a = .ok x → result b = .ok y → result (a ++ b) = .ok (x ++ y)) ∧
    (∀ t, (∀ pieces, ¬Percent.Spells pieces t.toList) → ∀ s, result t ≠ .ok s) ∧
    ∀ t pieces, Percent.Spells pieces t.toList →
      ((∃ s, result t = .ok s) ↔
        ∀ run, Percent.IsRun pieces run → Utf8.WellFormed (run.map Percent.Piece.byte)) := by
  intro result
  have hresult : ∀ t, result t = reader.decode t := fun t =>
    OpTable.fst_native_decode reader t scene
  simp only [hresult]
  refine ⟨fun a b hfinished hcut => ⟨⟨?_, ?_⟩, fun x y => Codec.decode_append hr⟩, ?_, ?_⟩
  · rintro ⟨s, hs⟩
    obtain ⟨pieces, hpieces, hbytes⟩ := (Codec.decode_eq_ok_iff_spells hr).mp hs
    rw [String.toList_append] at hpieces
    obtain ⟨front, back, rfl, hfront, hback⟩ := hpieces.of_append hfinished
    have hwell : Utf8.WellFormed ((front ++ back).flatMap Percent.Piece.bytes) :=
      Utf8.wellFormed_iff.mpr ⟨s, hbytes.symm⟩
    have hboundary := hcut.imp hfront.kept_of_not_endsInEscape hback.kept_of_head?_ne
    obtain ⟨hx, hy⟩ := (Percent.wellFormed_append_iff hboundary).mp hwell
    exact ⟨(Codec.exists_decode_eq_ok_iff hr hfront).mpr hx,
      (Codec.exists_decode_eq_ok_iff hr hback).mpr hy⟩
  · rintro ⟨⟨x, hx⟩, ⟨y, hy⟩⟩
    exact ⟨x ++ y, Codec.decode_append hr hx hy⟩
  · intro t hnone s hs
    obtain ⟨pieces, hpieces, -⟩ := (Codec.decode_eq_ok_iff_spells hr).mp hs
    exact hnone pieces hpieces
  · intro t pieces hpieces
    rw [Codec.exists_decode_eq_ok_iff hr hpieces, Percent.wellFormed_iff_runs]

/-- An address cut between an escape and a character, and one cut between a character and an escape
that begins no character: the first is read in two parts, the second not at all. -/
theorem percent_decoding_local_beside_characters :
    (¬Percent.Unfinished "%C3%A9".toList ∧ "é%20".toList.head? ≠ some '%' ∧
      ((OpTable.native.call (.decode .uri ("%C3%A9" ++ "é%20"))).perform ⟨⟨fun _ => 0, 0⟩, []⟩).1 =
        .ok ("é" ++ "é ")) ∧
    (¬Percent.Unfinished "%20é".toList ∧ ¬Percent.EndsInEscape "%20é".toList ∧
      ¬∃ s, ((OpTable.native.call (.decode .uri ("%20é" ++ "%A9"))).perform
        ⟨⟨fun _ => 0, 0⟩, []⟩).1 = .ok s) := by
  have hescape : ¬Percent.Unfinished "%C3%A9".toList := fun h => absurd h.mem_drop (by decide)
  have hfinished : ¬Percent.Unfinished "%20é".toList := fun h => absurd h.mem_drop (by decide)
  have hend : ¬Percent.EndsInEscape "%20é".toList := fun h => absurd h.mem_drop (by decide)
  have hhead : "é%20".toList.head? ≠ some '%' := by decide
  have hfront : Codec.uri.decode "%C3%A9" = .ok "é" :=
    (Codec.decode_percent_eq_ok_iff rfl).mpr ⟨Percent.scan_eq_none_iff.mp (by decide), by decide⟩
  have hback : Codec.uri.decode "é%20" = .ok "é " :=
    (Codec.decode_percent_eq_ok_iff rfl).mpr ⟨Percent.scan_eq_none_iff.mp (by decide), by decide⟩
  have hstray : Codec.uri.decode "%A9" = .error (.decode .notUtf8) :=
    (Codec.decode_percent_eq_notUtf8_iff rfl).mpr
      ⟨Percent.scan_eq_none_iff.mp (by decide), Utf8.text?_eq_none_iff.mp (by decide +kernel)⟩
  refine ⟨⟨hescape, hhead, ?_⟩, hfinished, hend, ?_⟩
  · exact ((percent_decoding_local rfl _).1 _ _ hescape (Or.inr hhead)).2 _ _ hfront hback
  · intro hread
    obtain ⟨-, y, hy⟩ := ((percent_decoding_local rfl _).1 _ _ hfinished (Or.inl hend)).1.mp hread
    cases hstray.symm.trans hy

end Polyfill
