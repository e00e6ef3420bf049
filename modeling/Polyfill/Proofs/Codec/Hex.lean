import Mathlib.Data.List.Basic
import Polyfill.Op
import Polyfill.Proofs.Text.WellFormed
/-!
# Hexadecimal is a code up to case

A digit stands for its place in the row of digits, whatever its case (`numeral`), and two digits
stand for a byte (`byteOf`).  Reading succeeds on every even number of digits and on nothing else,
and gives the bytes that the digits stand for two by two (`decode_eq`).  Writing these bytes gives
the digits back, in small letters (`encode_pairs`).

On texts this leaves three outcomes, and `hex_faithful` says which texts come to which.
-/

namespace Polyfill

namespace Hex

/-! ## Digits -/

/-- The digits in their order, with small letters. -/
def digits : List Char :=
  ['0', '1', '2', '3', '4', '5', '6', '7', '8', '9', 'a', 'b', 'c', 'd', 'e', 'f']

/-- A digit, with a letter of either case. -/
def IsDigit (c : Char) : Prop :=
  ('0' ≤ c ∧ c ≤ '9') ∨ ('a' ≤ c ∧ c ≤ 'f') ∨ ('A' ≤ c ∧ c ≤ 'F')

instance (c : Char) : Decidable (IsDigit c) :=
  inferInstanceAs (Decidable (_ ∨ _ ∨ _))

/-- The number that a digit stands for: its place among the digits. -/
def numeral (c : Char) : Nat :=
  digits.idxOf c.toLower

/-- The byte that two digits stand for. -/
def byteOf (h l : Char) : UInt8 :=
  UInt8.ofNat (16 * numeral h + numeral l)

lemma IsDigit.toNat_lt {c : Char} (h : IsDigit c) : c.toNat < 128 := by
  have hle : ∀ {b : Char}, c ≤ b → b.toNat < 128 → c.toNat < 128 := fun h => Nat.lt_of_le_of_lt h
  rcases h with h | h | h
  · exact hle h.2 (by decide)
  · exact hle h.2 (by decide)
  · exact hle h.2 (by decide)

lemma IsDigit.numeral_lt {c : Char} (h : IsDigit c) : numeral c < 16 := by
  have hall : ∀ n < 128, IsDigit (Char.ofNat n) → numeral (Char.ofNat n) < 16 := by decide
  have hc := hall c.toNat h.toNat_lt
  rw [Char.ofNat_toNat] at hc
  exact hc h

/-- The small form of a digit is the digit of its number. -/
lemma IsDigit.digit_numeral {c : Char} (h : IsDigit c) : digit (numeral c) = c.toLower := by
  have hall : ∀ n < 128, IsDigit (Char.ofNat n) →
      digit (numeral (Char.ofNat n)) = (Char.ofNat n).toLower := by decide
  have hc := hall c.toNat h.toNat_lt
  rw [Char.ofNat_toNat] at hc
  exact hc h

/-- The characters that have a value are the digits, and their value is their number. -/
lemma value?_eq (c : Char) : value? c = if IsDigit c then some (numeral c) else none := by
  have hall : ∀ n < 128, value? (Char.ofNat n) =
      if IsDigit (Char.ofNat n) then some (numeral (Char.ofNat n)) else none := by decide
  by_cases hc : c.toNat < 128
  · have hchar := hall c.toNat hc
    rwa [Char.ofNat_toNat] at hchar
  · -- All three ranges of digits are below.
    have hdigit : ¬IsDigit c := fun h => hc h.toNat_lt
    have hranges := hdigit
    simp only [IsDigit, not_or] at hranges
    rw [if_neg hdigit, value?, if_neg hranges.1, if_neg hranges.2.1, if_neg hranges.2.2]

lemma byte?_eq (h l : Char) :
    byte? h l = if IsDigit h ∧ IsDigit l then some (byteOf h l) else none := by
  rw [byte?, value?_eq, value?_eq]
  by_cases hdigits : IsDigit h ∧ IsDigit l
  · simp only [hdigits, if_true, and_self, Option.bind_some, Option.map_some, byteOf]
  · rw [if_neg hdigits]
    rcases not_and_or.mp hdigits with hh | hl
    · rw [if_neg hh, Option.bind_none]
    · simp only [if_neg hl, Option.map_none, Option.bind_fun_none]

/-- The halves of a byte are the numbers of its two digits. -/
lemma toNat_byteOf {h l : Char} (hh : numeral h < 16) (hl : numeral l < 16) :
    (byteOf h l).toNat / 16 = numeral h ∧ (byteOf h l).toNat % 16 = numeral l := by
  rw [byteOf, Utf8.toNat_byte (by omega)]
  omega

/-- Digits whose numbers are the halves of a byte stand for it. -/
lemma byteOf_eq {h l : Char} {b : UInt8} (hh : numeral h = b.toNat / 16)
    (hl : numeral l = b.toNat % 16) : byteOf h l = b := by
  rw [byteOf, hh, hl, Nat.div_add_mod, UInt8.ofNat_toNat]

/-- Writing the byte of two digits gives the digits back, in small letters. -/
lemma encodeByte_byteOf {h l : Char} (hh : IsDigit h) (hl : IsDigit l) :
    encodeByte (byteOf h l) = [h.toLower, l.toLower] := by
  obtain ⟨hdiv, hmod⟩ := toNat_byteOf hh.numeral_lt hl.numeral_lt
  rw [encodeByte, hdiv, hmod, hh.digit_numeral, hl.digit_numeral]

/-! ## Reading -/

/-- An even number of digits. -/
def IsHex (cs : List Char) : Prop :=
  cs.length % 2 = 0 ∧ ∀ c ∈ cs, IsDigit c

instance (cs : List Char) : Decidable (IsHex cs) :=
  inferInstanceAs (Decidable (_ ∧ _))

/-- The bytes that digits stand for, two by two. -/
def pairs : List Char → List UInt8
  | h :: l :: rest => byteOf h l :: pairs rest
  | _ => []

lemma isHex_nil : IsHex [] :=
  ⟨rfl, fun _ h => by cases h⟩

lemma not_isHex_singleton (c : Char) : ¬IsHex [c] := by
  rintro ⟨hlength, -⟩
  cases hlength

lemma isHex_cons_cons {h l : Char} {rest : List Char} :
    IsHex (h :: l :: rest) ↔ (IsDigit h ∧ IsDigit l) ∧ IsHex rest := by
  have hlength : (h :: l :: rest).length % 2 = rest.length % 2 := Nat.add_mod_right _ 2
  simp only [IsHex, hlength, List.forall_mem_cons]
  constructor
  · rintro ⟨heven, hh, hl, hrest⟩
    exact ⟨⟨hh, hl⟩, heven, hrest⟩
  · rintro ⟨⟨hh, hl⟩, heven, hrest⟩
    exact ⟨heven, hh, hl, hrest⟩

lemma length_pairs {cs : List Char} (h : cs.length % 2 = 0) :
    cs.length = 2 * (pairs cs).length := by
  fun_induction pairs cs with
  | case1 a b rest ih =>
    rw [List.length_cons, List.length_cons] at h ⊢
    rw [List.length_cons, ih (by omega)]
    omega
  | case2 cs hshort =>
    match cs, hshort with
    | [], _ => rfl
    | [c], _ => cases h
    | a :: b :: rest, hshort => exact absurd rfl (hshort a b rest)

/-- Each byte is that of the two digits at its place. -/
lemma exists_digits_of_pairs {cs : List Char} {i : Nat} (h : i < (pairs cs).length) :
    ∃ a b, cs[2 * i]? = some a ∧ cs[2 * i + 1]? = some b ∧
      (pairs cs)[i]? = some (byteOf a b) := by
  fun_induction pairs cs generalizing i with
  | case1 a b rest ih =>
    cases i with
    | zero => exact ⟨a, b, rfl, rfl, rfl⟩
    | succ i => exact ih (Nat.lt_of_succ_lt_succ h)
  | case2 cs hshort => cases h

/-- Reading goes on over two digits, and over nothing else. -/
lemma decodeOnto_eq (read : List UInt8) (cs : List Char) :
    decodeOnto read cs = if IsHex cs then some (read.reverse ++ pairs cs) else none := by
  fun_induction pairs cs generalizing read with
  | case1 h l rest ih =>
    rw [decodeOnto, byte?_eq]
    by_cases hdigits : IsDigit h ∧ IsDigit l
    · simp only [ih, isHex_cons_cons, hdigits, and_self, true_and, if_true, List.reverse_cons,
        List.append_assoc, List.singleton_append]
    · have hrest : ¬IsHex (h :: l :: rest) := fun hex => hdigits (isHex_cons_cons.mp hex).1
      simp only [if_neg hdigits, if_neg hrest]
  | case2 cs hshort =>
    match cs, hshort with
    | [], _ => rw [if_pos isHex_nil, decodeOnto, List.append_nil]
    | [c], _ => rw [if_neg (not_isHex_singleton c), decodeOnto]
    | h :: l :: rest, hshort => exact absurd rfl (hshort h l rest)

/-- An even number of digits is read as the bytes they stand for, and nothing else is read. -/
theorem decode_eq (cs : List Char) : decode cs = if IsHex cs then some (pairs cs) else none :=
  decodeOnto_eq [] cs

example : decode "4A4b".toList = some [0x4A, 0x4B] ∧ decode "486".toList = none := by decide

/-! ## Writing -/

lemma length_encode (bytes : List UInt8) : (encode bytes).length = 2 * bytes.length := by
  rw [encode, List.length_flatMap]
  simp [encodeByte, Nat.mul_comm]

/-- The digit of a number is a digit, and stands for the number. -/
lemma isDigit_digit {n : Nat} (h : n < 16) : IsDigit (digit n) ∧ numeral (digit n) = n := by
  have hall : ∀ n < 16, IsDigit (digit n) ∧ numeral (digit n) = n := by decide
  exact hall n h

/-- The two digits of a byte stand for it. -/
lemma byteOf_digits (b : UInt8) : byteOf (digit (b.toNat / 16)) (digit (b.toNat % 16)) = b := by
  have hb := b.toNat_lt
  exact byteOf_eq (isDigit_digit (by omega)).2 (isDigit_digit (by omega)).2

lemma isHex_encode (bytes : List UInt8) : IsHex (encode bytes) := by
  induction bytes with
  | nil => exact isHex_nil
  | cons b bytes ih =>
    have hb := b.toNat_lt
    exact isHex_cons_cons.mpr
      ⟨⟨(isDigit_digit (by omega)).1, (isDigit_digit (by omega)).1⟩, ih⟩

/-- Written digits stand for the bytes that were written. -/
lemma pairs_encode (bytes : List UInt8) : pairs (encode bytes) = bytes := by
  induction bytes with
  | nil => rfl
  | cons b bytes ih =>
    have hcons : pairs (encode (b :: bytes)) =
        byteOf (digit (b.toNat / 16)) (digit (b.toNat % 16)) :: pairs (encode bytes) := rfl
    rw [hcons, byteOf_digits, ih]

/-- Every digit that is written is a small one. -/
lemma mem_digits_of_mem_encode {bytes : List UInt8} {c : Char} (h : c ∈ encode bytes) :
    c ∈ digits := by
  have hall : ∀ n < 16, digit n ∈ digits := by decide
  obtain ⟨b, -, hc⟩ := List.mem_flatMap.mp h
  have hb := b.toNat_lt
  rcases List.mem_pair.mp hc with rfl | rfl
  · exact hall _ (by omega)
  · exact hall _ (by omega)

/-- Writing the bytes of some digits gives the digits back, in small letters. -/
lemma encode_pairs {cs : List Char} (h : IsHex cs) : encode (pairs cs) = cs.map Char.toLower := by
  fun_induction pairs cs with
  | case1 a b rest ih =>
    obtain ⟨⟨ha, hb⟩, hrest⟩ := isHex_cons_cons.mp h
    rw [encode, List.flatMap_cons, encodeByte_byteOf ha hb, ← encode, ih hrest]
    rfl
  | case2 cs hshort =>
    match cs, hshort with
    | [], _ => rfl
    | [c], _ => exact absurd h (not_isHex_singleton c)
    | a :: b :: rest, hshort => exact absurd rfl (hshort a b rest)

end Hex

/-! ## Texts -/

namespace Codec

variable {c : Codec} {t s : String} {bytes : List UInt8}

/-- Once a written form is known to stand for some bytes, it is read exactly if they are the bytes
of a text. -/
lemma decode_eq_ok_iff (h : c.decodeBytes t = .ok bytes) :
    c.decode t = .ok s ↔ bytes = Utf8.bytes s := by
  simp only [decode, h]
  rw [← Utf8.text?_eq_some_iff]
  cases Utf8.text? bytes with
  | none => simp
  | some s => simp

/-- The only fault left then is that the bytes are not UTF-8. -/
lemma decode_eq_error_iff (h : c.decodeBytes t = .ok bytes) {fault : DecodeFault} :
    c.decode t = .error (.decode fault) ↔ fault = .notUtf8 ∧ ¬Utf8.WellFormed bytes := by
  simp only [decode, h]
  rw [← Utf8.text?_eq_none_iff]
  cases Utf8.text? bytes with
  | none => simp [eq_comm]
  | some s => simp

lemma decode_of_fault {fault : DecodeFault} (h : c.decodeBytes t = .error fault) :
    c.decode t = .error (.decode fault) := by
  simp only [decode, h]

lemma decodeBytes_hex (h : Hex.IsHex t.toList) :
    hex.decodeBytes t = .ok (Hex.pairs t.toList) := by
  simp only [decodeBytes, Hex.decode_eq, if_pos h]

lemma decode_hex_of_not_isHex (h : ¬Hex.IsHex t.toList) :
    hex.decode t = .error (.decode .hex) := by
  apply decode_of_fault
  simp only [decodeBytes, Hex.decode_eq, if_neg h]

lemma decode_hex_eq_ok_iff :
    hex.decode t = .ok s ↔ Hex.IsHex t.toList ∧ Hex.pairs t.toList = Utf8.bytes s := by
  by_cases h : Hex.IsHex t.toList
  · rw [decode_eq_ok_iff (decodeBytes_hex h), and_iff_right h]
  · simp [decode_hex_of_not_isHex h, h]

lemma decode_hex_eq_notUtf8_iff :
    hex.decode t = .error (.decode .notUtf8) ↔
      Hex.IsHex t.toList ∧ ¬Utf8.WellFormed (Hex.pairs t.toList) := by
  by_cases h : Hex.IsHex t.toList
  · rw [decode_eq_error_iff (decodeBytes_hex h), and_iff_right rfl, and_iff_right h]
  · simp [decode_hex_of_not_isHex h, h]

lemma decode_hex_eq_fault_iff :
    hex.decode t = .error (.decode .hex) ↔ ¬Hex.IsHex t.toList := by
  refine ⟨fun hfault h => ?_, decode_hex_of_not_isHex⟩
  cases ((decode_eq_error_iff (decodeBytes_hex h)).mp hfault).1

lemma toList_encode_hex (s : String) : (hex.encode s).toList = Hex.encode (Utf8.bytes s) :=
  String.toList_ofList

lemma decode_hex_encode (s : String) : hex.decode (hex.encode s) = .ok s := by
  rw [decode_hex_eq_ok_iff, toList_encode_hex]
  exact ⟨Hex.isHex_encode _, Hex.pairs_encode _⟩

/-- Digits stand for the bytes of a text exactly if their small letters are its written form. -/
lemma pairs_eq_bytes_iff (h : Hex.IsHex t.toList) :
    Hex.pairs t.toList = Utf8.bytes s ↔ t.toList.map Char.toLower = (hex.encode s).toList := by
  rw [toList_encode_hex, ← Hex.encode_pairs h]
  constructor
  · intro hbytes
    rw [hbytes]
  · intro hwritten
    have hpairs := congrArg Hex.pairs hwritten
    rwa [Hex.pairs_encode, Hex.pairs_encode] at hpairs

end Codec

/-- Hexadecimal is a faithful codec on texts.  Writing never fails, and takes two small digits for
each byte, which stand for the bytes of the text.  A text is read exactly if it is an even number of
digits of either case and its small letters are the written form of the outcome; digits that stand
for bytes which are not well-formed are refused as not UTF-8, and everything else as not
hexadecimal. -/
theorem hex_faithful (e : Entropy) :
    (∀ s, ∃ h, OpTable.native.answer (.encode .hex s) e = (.ok h, e) ∧
      (∀ c ∈ h.toList, c ∈ Hex.digits) ∧ h.length = 2 * Utf8.length s ∧
      Hex.pairs h.toList = Utf8.bytes s ∧
      OpTable.native.answer (.decode .hex h) e = (.ok s, e)) ∧
    (∀ t s, OpTable.native.answer (.decode .hex t) e = (.ok s, e) ↔
      (t.length % 2 = 0 ∧ ∀ c ∈ t.toList, Hex.IsDigit c) ∧
        ∃ h, OpTable.native.answer (.encode .hex s) e = (.ok h, e) ∧
          t.toList.map Char.toLower = h.toList) ∧
    (∀ t, OpTable.native.answer (.decode .hex t) e = (.error (.decode .notUtf8), e) ↔
      (t.length % 2 = 0 ∧ ∀ c ∈ t.toList, Hex.IsDigit c) ∧
        ¬Utf8.WellFormed (Hex.pairs t.toList)) ∧
    (∀ t, OpTable.native.answer (.decode .hex t) e = (.error (.decode .hex), e) ↔
      ¬(t.length % 2 = 0 ∧ ∀ c ∈ t.toList, Hex.IsDigit c)) ∧
    (∀ t, (∃ s, OpTable.native.answer (.decode .hex t) e = (.ok s, e)) ↔
      (t.length % 2 = 0 ∧ ∀ c ∈ t.toList, Hex.IsDigit c) ∧
        Utf8.WellFormed (Hex.pairs t.toList)) ∧
    DecodeFault.notUtf8.message = "decoded data is not UTF-8" ∧
    DecodeFault.hex.message = "hex: Invalid input for the given encoding" := by
  have hread : ∀ t r, OpTable.native.answer (.decode .hex t) e = (r, e) ↔
      Codec.hex.decode t = r := by
    intro t r
    exact ⟨fun h => congrArg Prod.fst h, fun h => congrArg (·, e) h⟩
  have hwrite : ∀ s h, OpTable.native.answer (.encode .hex s) e = (.ok h, e) ↔
      Codec.hex.encode s = h := by
    intro s h
    refine ⟨fun h => Except.ok.inj (congrArg Prod.fst h), ?_⟩
    rintro rfl
    rfl
  have hhex : ∀ t : String, (t.length % 2 = 0 ∧ ∀ c ∈ t.toList, Hex.IsDigit c) ↔
      Hex.IsHex t.toList := by
    intro t
    rw [Hex.IsHex, String.length_toList]
  simp only [hread, hwrite, hhex]
  refine ⟨fun s => ⟨_, rfl, ?_, ?_, ?_, Codec.decode_hex_encode s⟩, fun t s => ?_,
    fun t => Codec.decode_hex_eq_notUtf8_iff, fun t => Codec.decode_hex_eq_fault_iff, fun t => ?_,
    rfl, rfl⟩
  · intro c hc
    rw [Codec.toList_encode_hex] at hc
    exact Hex.mem_digits_of_mem_encode hc
  · rw [← String.length_toList, Codec.toList_encode_hex, Hex.length_encode, Utf8.length]
  · rw [Codec.toList_encode_hex, Hex.pairs_encode]
  · rw [Codec.decode_hex_eq_ok_iff]
    constructor
    · rintro ⟨hdigits, hbytes⟩
      exact ⟨hdigits, _, rfl, (Codec.pairs_eq_bytes_iff hdigits).mp hbytes⟩
    · rintro ⟨hdigits, h, rfl, hlower⟩
      exact ⟨hdigits, (Codec.pairs_eq_bytes_iff hdigits).mpr hlower⟩
  · simp only [Codec.decode_hex_eq_ok_iff, Utf8.wellFormed_iff, exists_and_left]

end Polyfill
