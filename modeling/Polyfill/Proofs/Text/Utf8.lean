import Mathlib.Tactic.Common
import Polyfill.Text.Utf8
/-!
# UTF-8 is a code

Each character has one written form, and the four readers of forms are inverse to writing: a group
of two, three or four bytes is read as a character exactly if it is that character's written form
(`pair?_eq_some_iff`, `triple?_eq_some_iff`, `quadruple?_eq_some_iff`).  Hence reading takes what
was written off the front of any bytes (`decodeOnto_encodeChar_append`), and it accepts nothing
else: `decode_eq_some_iff` says that bytes are read as a text exactly if they are its written form.
-/

namespace Polyfill.Utf8

/-! ## Bytes and code points as numbers -/

lemma toNat_byte {n : Nat} (h : n < 256) : (UInt8.ofNat n).toNat = n := by
  rw [UInt8.toNat_ofNat', Nat.mod_eq_of_lt h]

lemma eq_byte_iff {b : UInt8} {n : Nat} (h : n < 256) : b = UInt8.ofNat n ↔ b.toNat = n := by
  rw [← UInt8.toNat_inj, toNat_byte h]

/-- Characters are the scalar values: no surrogates, and nothing above `10FFFF`. -/
lemma isValidChar_toNat (c : Char) : c.toNat.isValidChar :=
  c.valid

lemma toNat_char {v : Nat} (h : v.isValidChar) : (Char.ofNat v).toNat = v := by
  rw [Char.ofNat, dif_pos h]
  rfl

/-- The payload of a continuation byte. -/
lemma continuation?_eq_some_iff {b : UInt8} {y : Nat} :
    continuation? b = some y ↔ y < 0x40 ∧ b = UInt8.ofNat (0x80 + y) := by
  have hb := b.toNat_lt
  unfold continuation?
  constructor
  · intro h
    split at h
    · have hy := Option.some.inj h
      exact ⟨by omega, (eq_byte_iff (by omega)).mpr (by omega)⟩
    · cases h
  · rintro ⟨hy, rfl⟩
    rw [toNat_byte (by omega), if_pos (by omega), Nat.add_sub_cancel_left]

/-- A code point is a character's if it is not read from too long a form. -/
lemma scalar?_eq_some_iff {least v : Nat} {c : Char} :
    scalar? least v = some c ↔ least ≤ v ∧ c.toNat = v := by
  unfold scalar?
  constructor
  · intro h
    split at h
    · rename_i hv
      cases h
      exact ⟨hv.1, toNat_char hv.2⟩
    · cases h
  · rintro ⟨hleast, rfl⟩
    rw [if_pos ⟨hleast, isValidChar_toNat c⟩, Char.ofNat_toNat]

/-! ## The written form of a character -/

lemma encodeChar_single {c : Char} (h : c.toNat < 0x80) :
    encodeChar c = [UInt8.ofNat c.toNat] :=
  if_pos h

lemma encodeChar_pair {c : Char} (h : 0x80 ≤ c.toNat) (h' : c.toNat < 0x800) :
    encodeChar c =
      [UInt8.ofNat (0xC0 + c.toNat / 0x40), UInt8.ofNat (0x80 + c.toNat % 0x40)] := by
  rw [encodeChar, if_neg (by omega), if_pos h']

lemma encodeChar_triple {c : Char} (h : 0x800 ≤ c.toNat) (h' : c.toNat < 0x10000) :
    encodeChar c =
      [UInt8.ofNat (0xE0 + c.toNat / 0x1000), UInt8.ofNat (0x80 + c.toNat / 0x40 % 0x40),
        UInt8.ofNat (0x80 + c.toNat % 0x40)] := by
  rw [encodeChar, if_neg (by omega), if_neg (by omega), if_pos h']

lemma encodeChar_quadruple {c : Char} (h : 0x10000 ≤ c.toNat) :
    encodeChar c =
      [UInt8.ofNat (0xF0 + c.toNat / 0x40000), UInt8.ofNat (0x80 + c.toNat / 0x1000 % 0x40),
        UInt8.ofNat (0x80 + c.toNat / 0x40 % 0x40), UInt8.ofNat (0x80 + c.toNat % 0x40)] := by
  rw [encodeChar, if_neg (by omega), if_neg (by omega), if_neg (by omega)]

/-- Two bytes are read as a character exactly if they are its written form. -/
lemma pair?_eq_some_iff {a b : UInt8} {c : Char} :
    pair? a b = some c ↔ 0x80 ≤ c.toNat ∧ c.toNat < 0x800 ∧ encodeChar c = [a, b] := by
  unfold pair?
  constructor
  · intro h
    split at h
    · rename_i ha
      obtain ⟨y, hy, hc⟩ := Option.bind_eq_some_iff.mp h
      obtain ⟨hy, rfl⟩ := continuation?_eq_some_iff.mp hy
      obtain ⟨hleast, hc⟩ := scalar?_eq_some_iff.mp hc
      refine ⟨by omega, by omega, ?_⟩
      rw [encodeChar_pair (by omega) (by omega), List.cons.injEq, List.cons.injEq]
      refine ⟨(eq_byte_iff (by omega)).mpr (by omega) |>.symm, ?_, rfl⟩
      exact congrArg UInt8.ofNat (by omega)
    · cases h
  · rintro ⟨hlow, hhigh, henc⟩
    rw [encodeChar_pair hlow hhigh] at henc
    cases henc
    rw [toNat_byte (by omega), if_pos (by omega), Option.bind_eq_some_iff]
    refine ⟨c.toNat % 0x40, continuation?_eq_some_iff.mpr ⟨by omega, rfl⟩, ?_⟩
    exact scalar?_eq_some_iff.mpr ⟨by omega, by omega⟩

/-- Three bytes are read as a character exactly if they are its written form. -/
lemma triple?_eq_some_iff {a b d : UInt8} {c : Char} :
    triple? a b d = some c ↔ 0x800 ≤ c.toNat ∧ c.toNat < 0x10000 ∧ encodeChar c = [a, b, d] := by
  unfold triple?
  constructor
  · intro h
    split at h
    · rename_i ha
      obtain ⟨y, hy, h⟩ := Option.bind_eq_some_iff.mp h
      obtain ⟨z, hz, hc⟩ := Option.bind_eq_some_iff.mp h
      obtain ⟨hy, rfl⟩ := continuation?_eq_some_iff.mp hy
      obtain ⟨hz, rfl⟩ := continuation?_eq_some_iff.mp hz
      obtain ⟨hleast, hc⟩ := scalar?_eq_some_iff.mp hc
      refine ⟨by omega, by omega, ?_⟩
      rw [encodeChar_triple (by omega) (by omega), List.cons.injEq, List.cons.injEq,
        List.cons.injEq]
      refine ⟨(eq_byte_iff (by omega)).mpr (by omega) |>.symm, ?_, ?_, rfl⟩
      · exact congrArg UInt8.ofNat (by omega)
      · exact congrArg UInt8.ofNat (by omega)
    · cases h
  · rintro ⟨hlow, hhigh, henc⟩
    rw [encodeChar_triple hlow hhigh] at henc
    cases henc
    rw [toNat_byte (by omega), if_pos (by omega), Option.bind_eq_some_iff]
    refine ⟨c.toNat / 0x40 % 0x40, continuation?_eq_some_iff.mpr ⟨by omega, rfl⟩, ?_⟩
    rw [Option.bind_eq_some_iff]
    refine ⟨c.toNat % 0x40, continuation?_eq_some_iff.mpr ⟨by omega, rfl⟩, ?_⟩
    exact scalar?_eq_some_iff.mpr ⟨by omega, by omega⟩

/-- Four bytes are read as a character exactly if they are its written form. -/
lemma quadruple?_eq_some_iff {a b d e : UInt8} {c : Char} :
    quadruple? a b d e = some c ↔ 0x10000 ≤ c.toNat ∧ encodeChar c = [a, b, d, e] := by
  have hvalid := isValidChar_toNat c
  unfold quadruple?
  constructor
  · intro h
    split at h
    · rename_i ha
      obtain ⟨x, hx, h⟩ := Option.bind_eq_some_iff.mp h
      obtain ⟨y, hy, h⟩ := Option.bind_eq_some_iff.mp h
      obtain ⟨z, hz, hc⟩ := Option.bind_eq_some_iff.mp h
      obtain ⟨hx, rfl⟩ := continuation?_eq_some_iff.mp hx
      obtain ⟨hy, rfl⟩ := continuation?_eq_some_iff.mp hy
      obtain ⟨hz, rfl⟩ := continuation?_eq_some_iff.mp hz
      obtain ⟨hleast, hc⟩ := scalar?_eq_some_iff.mp hc
      refine ⟨by omega, ?_⟩
      rw [encodeChar_quadruple (by omega), List.cons.injEq, List.cons.injEq, List.cons.injEq,
        List.cons.injEq]
      refine ⟨(eq_byte_iff (by omega)).mpr (by omega) |>.symm, ?_, ?_, ?_, rfl⟩
      · exact congrArg UInt8.ofNat (by omega)
      · exact congrArg UInt8.ofNat (by omega)
      · exact congrArg UInt8.ofNat (by omega)
    · cases h
  · rintro ⟨hlow, henc⟩
    rw [encodeChar_quadruple hlow] at henc
    cases henc
    rw [toNat_byte (by omega), if_pos (by omega), Option.bind_eq_some_iff]
    refine ⟨c.toNat / 0x1000 % 0x40, continuation?_eq_some_iff.mpr ⟨by omega, rfl⟩, ?_⟩
    rw [Option.bind_eq_some_iff]
    refine ⟨c.toNat / 0x40 % 0x40, continuation?_eq_some_iff.mpr ⟨by omega, rfl⟩, ?_⟩
    rw [Option.bind_eq_some_iff]
    refine ⟨c.toNat % 0x40, continuation?_eq_some_iff.mpr ⟨by omega, rfl⟩, ?_⟩
    exact scalar?_eq_some_iff.mpr ⟨by omega, by omega⟩

/-! ## Reading what was written -/

@[simp] lemma encode_nil : encode [] = [] := rfl

@[simp] lemma encode_cons (c : Char) (cs : List Char) :
    encode (c :: cs) = encodeChar c ++ encode cs := rfl

/-- Reading takes a written character off the front. -/
lemma decodeOnto_encodeChar_append (read : List Char) (c : Char) (rest : List UInt8) :
    decodeOnto read (encodeChar c ++ rest) = decodeOnto (c :: read) rest := by
  have hvalid := isValidChar_toNat c
  -- The first byte tells which of the four forms was written.
  rcases Nat.lt_or_ge c.toNat 0x80 with h1 | h1
  · rw [encodeChar_single h1, List.singleton_append, decodeOnto.eq_def]
    simp only [toNat_byte (show c.toNat < 256 by omega), if_pos h1, Char.ofNat_toNat]
  rcases Nat.lt_or_ge c.toNat 0x800 with h2 | h2
  · have hread := pair?_eq_some_iff.mpr ⟨h1, h2, encodeChar_pair h1 h2⟩
    rw [encodeChar_pair h1 h2, List.cons_append, List.singleton_append, decodeOnto,
      toNat_byte (by omega), if_neg (by omega), if_pos (by omega)]
    simp only [hread]
  rcases Nat.lt_or_ge c.toNat 0x10000 with h3 | h3
  · have hread := triple?_eq_some_iff.mpr ⟨h2, h3, encodeChar_triple h2 h3⟩
    rw [encodeChar_triple h2 h3, List.cons_append, List.cons_append, List.singleton_append,
      decodeOnto, toNat_byte (by omega), if_neg (by omega), if_neg (by omega), if_pos (by omega)]
    simp only [hread]
  · have hread := quadruple?_eq_some_iff.mpr ⟨h3, encodeChar_quadruple h3⟩
    rw [encodeChar_quadruple h3, List.cons_append, List.cons_append, List.cons_append,
      List.singleton_append, decodeOnto, toNat_byte (by omega), if_neg (by omega),
      if_neg (by omega), if_neg (by omega)]
    simp only [hread]

lemma decodeOnto_encode (read cs : List Char) :
    decodeOnto read (encode cs) = some (read.reverse ++ cs) := by
  induction cs generalizing read with
  | nil => simp [decodeOnto]
  | cons c cs ih =>
    rw [encode_cons, decodeOnto_encodeChar_append, ih, List.reverse_cons, List.append_assoc,
      List.singleton_append]

/-- A written character before the written form of a text makes the written form of a longer one. -/
lemma exists_encode_cons {read out : List Char} {c : Char} {rest : List UInt8}
    (h : ∃ cs, out = (c :: read).reverse ++ cs ∧ rest = encode cs) :
    ∃ cs, out = read.reverse ++ cs ∧ encodeChar c ++ rest = encode cs := by
  obtain ⟨cs, rfl, rfl⟩ := h
  exact ⟨c :: cs, by simp, rfl⟩

/-- Whatever is read was written. -/
lemma encode_of_decodeOnto {read out : List Char} {bytes : List UInt8}
    (h : decodeOnto read bytes = some out) :
    ∃ cs, out = read.reverse ++ cs ∧ bytes = encode cs := by
  fun_induction decodeOnto read bytes with
  | case1 read =>
    cases h
    exact ⟨[], by simp, rfl⟩
  | case2 read a rest ha ih =>
    have hvalid : a.toNat.isValidChar := Or.inl (by omega)
    have henc : encodeChar (Char.ofNat a.toNat) = [a] := by
      rw [encodeChar_single (by rwa [toNat_char hvalid]), toNat_char hvalid, UInt8.ofNat_toNat]
    have hcons := exists_encode_cons (ih h)
    rwa [henc] at hcons
  | case3 read a _ _ b rest c hread ih =>
    have hcons := exists_encode_cons (ih h)
    rwa [(pair?_eq_some_iff.mp hread).2.2] at hcons
  | case6 read a _ _ _ b d rest c hread ih =>
    have hcons := exists_encode_cons (ih h)
    rwa [(triple?_eq_some_iff.mp hread).2.2] at hcons
  | case9 read a _ _ _ b d e rest c hread ih =>
    have hcons := exists_encode_cons (ih h)
    rwa [(quadruple?_eq_some_iff.mp hread).2] at hcons
  | _ => cases h

/-- Bytes are read as a text exactly if they are its written form. -/
theorem decode_eq_some_iff {bytes : List UInt8} {cs : List Char} :
    decode bytes = some cs ↔ bytes = encode cs := by
  constructor
  · intro h
    obtain ⟨ds, rfl, hbytes⟩ := encode_of_decodeOnto h
    exact hbytes
  · rintro rfl
    exact decodeOnto_encode [] cs

/-- Bytes are read as a string exactly if they are its bytes. -/
lemma text?_eq_some_iff {bs : List UInt8} {s : String} : text? bs = some s ↔ bs = bytes s := by
  unfold text?
  rw [Option.map_eq_some_iff]
  constructor
  · rintro ⟨cs, hcs, rfl⟩
    rw [bytes, String.toList_ofList]
    exact decode_eq_some_iff.mp hcs
  · intro h
    exact ⟨s.toList, decode_eq_some_iff.mpr h, String.ofList_toList⟩

end Polyfill.Utf8
