import Mathlib.Tactic.Common
import Polyfill.Op
import Polyfill.Proofs.Text.Utf8
/-!
# Base64 is a code

Three bytes are four digits of six bits each, and a last group of one or two bytes is filled up
with zero bits and padding.  Reading a group gives bytes exactly if the group is their written form
(`threeBytes?_eq_some_iff`, `paddedBytes?_eq_some_iff`), so the reader accepts exactly what the
writer produces: `decode_eq_some_iff`.

On texts this leaves three outcomes, and `base64_faithful` says which texts come to which: the
written forms of texts are read back, the written forms of other bytes are no UTF-8, and everything
else is no base64.
-/

namespace Polyfill

namespace Base64

/-! ## Digits -/

example : (List.range 64).map digit =
    "ABCDEFGHIJKLMNOPQRSTUVWXYZabcdefghijklmnopqrstuvwxyz0123456789+/".toList := by decide

lemma value?_digit {n : Nat} (h : n < 64) : value? (digit n) = some n := by
  have hall : ∀ n < 64, value? (digit n) = some n := by decide
  exact hall n h

/-- The digits are told apart from padding. -/
lemma digit_ne_pad {n : Nat} (h : n < 64) : digit n ≠ '=' := by
  have hall : ∀ n < 64, digit n ≠ '=' := by decide
  exact hall n h

/-- A character has a value exactly if it is the digit of it. -/
lemma value?_eq_some_iff {c : Char} {n : Nat} : value? c = some n ↔ n < 64 ∧ c = digit n := by
  have hle : ∀ {a b : Char}, a ≤ b → a.toNat ≤ b.toNat := fun h => h
  have hdigit : ∀ {m : Nat}, Char.ofNat c.toNat = digit m → c = digit m := fun h => by
    rwa [Char.ofNat_toNat] at h
  constructor
  · intro h
    unfold value? at h
    split at h
    · rename_i hc
      have hlow : 65 ≤ c.toNat := hle hc.1
      have hhigh : c.toNat ≤ 90 := hle hc.2
      have hn := Option.some.inj h
      refine ⟨by omega, hdigit ?_⟩
      rw [digit, if_pos (by omega)]
      exact congrArg Char.ofNat (by omega)
    split at h
    · rename_i hc
      have hlow : 97 ≤ c.toNat := hle hc.1
      have hhigh : c.toNat ≤ 122 := hle hc.2
      have hn := Option.some.inj h
      refine ⟨by omega, hdigit ?_⟩
      rw [digit, if_neg (by omega), if_pos (by omega)]
      exact congrArg Char.ofNat (by omega)
    split at h
    · rename_i hc
      have hlow : 48 ≤ c.toNat := hle hc.1
      have hhigh : c.toNat ≤ 57 := hle hc.2
      have hn := Option.some.inj h
      refine ⟨by omega, hdigit ?_⟩
      rw [digit, if_neg (by omega), if_neg (by omega), if_pos (by omega)]
      exact congrArg Char.ofNat (by omega)
    split at h
    · rename_i hc
      cases h
      exact ⟨by omega, hc⟩
    split at h
    · rename_i hc
      cases h
      exact ⟨by omega, hc⟩
    · cases h
  · rintro ⟨hn, rfl⟩
    exact value?_digit hn

/-! ## Groups -/

lemma byte_eq {n : Nat} {b : UInt8} (h : n = b.toNat) : UInt8.ofNat n = b := by
  rw [h, UInt8.ofNat_toNat]

/-- Four digits are read as three bytes exactly if they are their written form. -/
lemma threeBytes?_eq_some_iff {p q r s : Char} {group : List UInt8} :
    threeBytes? p q r s = some group ↔
      ∃ a b c, group = [a, b, c] ∧ [p, q, r, s] = encodeThree a b c := by
  constructor
  · intro h
    unfold threeBytes? at h
    split at h
    · rename_i w x y z hw hx hy hz
      obtain ⟨hw, rfl⟩ := value?_eq_some_iff.mp hw
      obtain ⟨hx, rfl⟩ := value?_eq_some_iff.mp hx
      obtain ⟨hy, rfl⟩ := value?_eq_some_iff.mp hy
      obtain ⟨hz, rfl⟩ := value?_eq_some_iff.mp hz
      refine ⟨_, _, _, (Option.some.inj h).symm, ?_⟩
      have ha : (UInt8.ofNat (w * 4 + x / 16)).toNat = w * 4 + x / 16 :=
        Utf8.toNat_byte (by omega)
      have hb : (UInt8.ofNat (x % 16 * 16 + y / 4)).toNat = x % 16 * 16 + y / 4 :=
        Utf8.toNat_byte (by omega)
      have hc : (UInt8.ofNat (y % 4 * 64 + z)).toNat = y % 4 * 64 + z :=
        Utf8.toNat_byte (by omega)
      simp only [encodeThree, ha, hb, hc, List.cons.injEq, and_true]
      refine ⟨congrArg digit ?_, congrArg digit ?_, congrArg digit ?_, congrArg digit ?_⟩ <;> omega
    · cases h
  · rintro ⟨a, b, c, rfl, h⟩
    have ha := a.toNat_lt
    have hb := b.toNat_lt
    have hc := c.toNat_lt
    simp only [encodeThree, List.cons.injEq, and_true] at h
    obtain ⟨rfl, rfl, rfl, rfl⟩ := h
    unfold threeBytes?
    rw [value?_digit (by omega), value?_digit (by omega), value?_digit (by omega),
      value?_digit (by omega)]
    simp only [Option.some.injEq, List.cons.injEq, and_true]
    exact ⟨byte_eq (by omega), byte_eq (by omega), byte_eq (by omega)⟩

/-- A group with padding is read as one or two bytes exactly if it is their written form. -/
lemma paddedBytes?_eq_some_iff {p q r : Char} {group : List UInt8} :
    paddedBytes? p q r = some group ↔ (∃ a, group = [a] ∧ [p, q, r, '='] = encodeOne a) ∨
      ∃ a b, group = [a, b] ∧ [p, q, r, '='] = encodeTwo a b := by
  constructor
  · intro h
    unfold paddedBytes? at h
    split at h
    · rename_i w x hw hx
      obtain ⟨hw, rfl⟩ := value?_eq_some_iff.mp hw
      obtain ⟨hx, rfl⟩ := value?_eq_some_iff.mp hx
      have ha : (UInt8.ofNat (w * 4 + x / 16)).toNat = w * 4 + x / 16 :=
        Utf8.toNat_byte (by omega)
      split at h
      · rename_i hr
        split at h
        · refine Or.inl ⟨_, (Option.some.inj h).symm, ?_⟩
          simp only [encodeOne, ha, hr, List.cons.injEq, and_true]
          exact ⟨congrArg digit (by omega), congrArg digit (by omega)⟩
        · cases h
      · split at h
        · rename_i y hy
          obtain ⟨hy, rfl⟩ := value?_eq_some_iff.mp hy
          split at h
          · refine Or.inr ⟨_, _, (Option.some.inj h).symm, ?_⟩
            have hb : (UInt8.ofNat (x % 16 * 16 + y / 4)).toNat = x % 16 * 16 + y / 4 :=
              Utf8.toNat_byte (by omega)
            simp only [encodeTwo, ha, hb, List.cons.injEq, and_true]
            refine ⟨congrArg digit ?_, congrArg digit ?_, congrArg digit ?_⟩ <;> omega
          · cases h
        · cases h
    · cases h
  · rintro (⟨a, rfl, h⟩ | ⟨a, b, rfl, h⟩)
    · have ha := a.toNat_lt
      simp only [encodeOne, List.cons.injEq, and_true] at h
      obtain ⟨rfl, rfl, rfl⟩ := h
      unfold paddedBytes?
      rw [value?_digit (by omega), value?_digit (by omega)]
      simp only [if_true]
      rw [if_pos (by omega), byte_eq (b := a) (by omega)]
    · have ha := a.toNat_lt
      have hb := b.toNat_lt
      simp only [encodeTwo, List.cons.injEq, and_true] at h
      obtain ⟨rfl, rfl, rfl⟩ := h
      unfold paddedBytes?
      rw [value?_digit (by omega), value?_digit (by omega), value?_digit (by omega)]
      simp only [digit_ne_pad (show b.toNat % 16 * 4 < 64 by omega), if_false]
      rw [if_pos (by omega), byte_eq (b := a) (by omega), byte_eq (b := b) (by omega)]

/-! ## Group by group -/

@[simp] lemma encode_nil : encode [] = [] := rfl

lemma encodeOnto_eq : ∀ (bytes : List UInt8) (written : List Char),
    encodeOnto written bytes = written.reverse ++ encode bytes
  | [], written => (List.append_nil _).symm
  | [_], _ => rfl
  | [_, _], _ => rfl
  | a :: b :: c :: rest, written => by
    rw [encode, encodeOnto, encodeOnto, encodeOnto_eq rest, encodeOnto_eq rest]
    simp only [List.reverse_append, List.reverse_reverse, List.append_assoc, List.reverse_nil,
      List.nil_append]

/-- Writing starts with the first group. -/
lemma encode_cons (a b c : UInt8) (rest : List UInt8) :
    encode (a :: b :: c :: rest) = encodeThree a b c ++ encode rest := by
  rw [encode, encodeOnto, encodeOnto_eq, List.append_nil, List.reverse_reverse]

/-- Reading takes a written group of three bytes off the front. -/
lemma decodeOnto_encodeThree_append (read : List UInt8) (a b c : UInt8) (rest : List Char) :
    decodeOnto read (encodeThree a b c ++ rest) = decodeOnto (c :: b :: a :: read) rest := by
  have hc := c.toNat_lt
  have hread := threeBytes?_eq_some_iff.mpr ⟨a, b, c, rfl, rfl⟩
  rw [encodeThree, List.cons_append, List.cons_append, List.cons_append, List.singleton_append,
    decodeOnto, if_neg (digit_ne_pad (by omega)), hread]
  rfl

lemma decodeOnto_padded {p q r : Char} {group : List UInt8} (read : List UInt8)
    (h : paddedBytes? p q r = some group) :
    decodeOnto read [p, q, r, '='] = some (read.reverse ++ group) := by
  rw [decodeOnto, if_pos rfl, if_pos List.isEmpty_nil, h, Option.map_some]

lemma decodeOnto_encode : ∀ (bytes read : List UInt8),
    decodeOnto read (encode bytes) = some (read.reverse ++ bytes)
  | [], read => by rw [encode_nil, decodeOnto, List.append_nil]
  | [a], read => decodeOnto_padded read (paddedBytes?_eq_some_iff.mpr (Or.inl ⟨a, rfl, rfl⟩))
  | [a, b], read =>
    decodeOnto_padded read (paddedBytes?_eq_some_iff.mpr (Or.inr ⟨a, b, rfl, rfl⟩))
  | a :: b :: c :: rest, read => by
    rw [encode_cons, decodeOnto_encodeThree_append, decodeOnto_encode rest]
    simp

/-- Whatever is read was written. -/
lemma encode_of_decodeOnto {read out : List UInt8} {cs : List Char}
    (h : decodeOnto read cs = some out) :
    ∃ bytes, out = read.reverse ++ bytes ∧ cs = encode bytes := by
  fun_induction decodeOnto read cs with
  | case1 read =>
    cases h
    exact ⟨[], by simp, rfl⟩
  | case2 read p q r rest hrest =>
    -- A group that ends in padding is the last one.
    obtain ⟨group, hgroup, rfl⟩ := Option.map_eq_some_iff.mp h
    obtain rfl := List.isEmpty_iff.mp hrest
    rcases paddedBytes?_eq_some_iff.mp hgroup with ⟨a, rfl, hcs⟩ | ⟨a, b, rfl, hcs⟩
    · exact ⟨[a], rfl, hcs⟩
    · exact ⟨[a, b], rfl, hcs⟩
  | case4 read p q r s rest hs group hgroup ih =>
    obtain ⟨a, b, c, rfl, hcs⟩ := threeBytes?_eq_some_iff.mp hgroup
    obtain ⟨bytes, rfl, rfl⟩ := ih h
    refine ⟨a :: b :: c :: bytes, by simp, ?_⟩
    rw [encode_cons, ← hcs]
    rfl
  | _ => cases h

/-- Digits are read as bytes exactly if they are their written form. -/
theorem decode_eq_some_iff {cs : List Char} {bytes : List UInt8} :
    decode cs = some bytes ↔ cs = encode bytes := by
  constructor
  · intro h
    obtain ⟨_, rfl, hcs⟩ := encode_of_decodeOnto h
    exact hcs
  · rintro rfl
    exact decodeOnto_encode bytes []

/-- Every three bytes, and what is left of them, take four digits. -/
lemma length_encode : ∀ bytes : List UInt8,
    (encode bytes).length = 4 * ((bytes.length + 2) / 3)
  | [] => rfl
  | [_] => by simp [encode, encodeOnto, encodeOne]
  | [_, _] => by simp [encode, encodeOnto, encodeTwo]
  | a :: b :: c :: rest => by
    rw [encode_cons, List.length_append, length_encode rest]
    simp only [encodeThree, List.length_cons, List.length_nil]
    omega

end Base64

/-! ## Texts -/

namespace Codec

/-- The written form of some bytes is read as their text, if they are UTF-8. -/
lemma decode_base64_of_eq {t : String} {bytes : List UInt8} (h : t.toList = Base64.encode bytes) :
    base64.decode t =
      match Utf8.text? bytes with
      | some s => .ok s
      | none => .error (.decode .notUtf8) := by
  have hbytes := Base64.decode_eq_some_iff.mpr h
  cases htext : Utf8.text? bytes with
  | none => simp only [decode, decodeBytes, hbytes, htext]
  | some s => simp only [decode, decodeBytes, hbytes, htext]

/-- What is no written form of any bytes is no base64. -/
lemma decode_base64_of_ne {t : String} (h : ∀ bytes, t.toList ≠ Base64.encode bytes) :
    base64.decode t = .error (.decode .base64) := by
  have hnone : Base64.decode t.toList = none :=
    Option.eq_none_iff_forall_ne_some.mpr fun bytes hbytes =>
      h bytes (Base64.decode_eq_some_iff.mp hbytes)
  simp only [decode, decodeBytes, hnone]

/-- The three outcomes of reading, each with the texts that come to it. -/
inductive Base64Outcome (t : String) : Except Error String → Prop
  /-- The text is the written form of a text. -/
  | text (s : String) (h : t = base64.encode s) : Base64Outcome t (.ok s)
  /-- The text is the written form of bytes that are the bytes of no text. -/
  | notUtf8 (bytes : List UInt8) (h : t.toList = Base64.encode bytes)
      (hbytes : ∀ s, bytes ≠ Utf8.bytes s) : Base64Outcome t (.error (.decode .notUtf8))
  /-- The text is the written form of no bytes. -/
  | foreign (h : ∀ bytes, t.toList ≠ Base64.encode bytes) :
      Base64Outcome t (.error (.decode .base64))

lemma base64Outcome (t : String) : Base64Outcome t (base64.decode t) := by
  by_cases h : ∃ bytes, t.toList = Base64.encode bytes
  · obtain ⟨bytes, hbytes⟩ := h
    rw [decode_base64_of_eq hbytes]
    cases hs : Utf8.text? bytes with
    | some s =>
      refine .text s ?_
      rw [encode, ← Utf8.text?_eq_some_iff.mp hs, ← hbytes, String.ofList_toList]
    | none =>
      refine .notUtf8 bytes hbytes fun s hbs => ?_
      rw [Utf8.text?_eq_some_iff.mpr hbs] at hs
      cases hs
  · have hne : ∀ bytes, t.toList ≠ Base64.encode bytes := fun bytes hb => h ⟨bytes, hb⟩
    rw [decode_base64_of_ne hne]
    exact .foreign hne

lemma decode_base64_eq_ok_iff {t s : String} :
    base64.decode t = .ok s ↔ base64.encode s = t := by
  constructor
  · intro h
    have hout := base64Outcome t
    rw [h] at hout
    cases hout with
    | text s h => exact h.symm
  · rintro rfl
    have hlist : (base64.encode s).toList = Base64.encode (Utf8.bytes s) := String.toList_ofList
    rw [decode_base64_of_eq hlist, Utf8.text?_eq_some_iff.mpr rfl]

lemma decode_base64_eq_notUtf8_iff {t : String} :
    base64.decode t = .error (.decode .notUtf8) ↔
      ∃ bytes, t.toList = Base64.encode bytes ∧ ∀ s, bytes ≠ Utf8.bytes s := by
  constructor
  · intro h
    have hout := base64Outcome t
    rw [h] at hout
    cases hout with
    | notUtf8 bytes h hbytes => exact ⟨bytes, h, hbytes⟩
  · rintro ⟨bytes, h, hbytes⟩
    have hnone : Utf8.text? bytes = none :=
      Option.eq_none_iff_forall_ne_some.mpr fun s hs => hbytes s (Utf8.text?_eq_some_iff.mp hs)
    rw [decode_base64_of_eq h, hnone]

lemma decode_base64_eq_fault_iff {t : String} :
    base64.decode t = .error (.decode .base64) ↔ ∀ bytes, t.toList ≠ Base64.encode bytes := by
  constructor
  · intro h
    have hout := base64Outcome t
    rw [h] at hout
    cases hout with
    | foreign h => exact h
  · exact decode_base64_of_ne

end Codec

/-- Base64 is a faithful codec on texts.  Writing never fails, and takes four characters for every
three bytes and what is left of them; a text is read exactly if it is the written form of the
outcome.  Anything else is refused: the written form of bytes that are the bytes of no text as not
UTF-8, and what is the written form of no bytes at all, be it for its padding, its alphabet, its
length or its last bits, as not base64. -/
theorem base64_faithful (e : Entropy) :
    (∀ s, ∃ t, OpTable.native.answer (.encode .base64 s) e = (.ok t, e) ∧
      t.length = 4 * ((Utf8.length s + 2) / 3) ∧
      OpTable.native.answer (.decode .base64 t) e = (.ok s, e)) ∧
    (∀ t s, OpTable.native.answer (.decode .base64 t) e = (.ok s, e) ↔
      OpTable.native.answer (.encode .base64 s) e = (.ok t, e)) ∧
    (∀ t, OpTable.native.answer (.decode .base64 t) e = (.error (.decode .notUtf8), e) ↔
      ∃ bytes, t.toList = Base64.encode bytes ∧ ∀ s, bytes ≠ Utf8.bytes s) ∧
    (∀ t, OpTable.native.answer (.decode .base64 t) e = (.error (.decode .base64), e) ↔
      ∀ bytes, t.toList ≠ Base64.encode bytes) ∧
    (∀ t, (∃ s, OpTable.native.answer (.decode .base64 t) e = (.ok s, e)) ∨
      ∃ fault, OpTable.native.answer (.decode .base64 t) e = (.error (.decode fault), e)) ∧
    DecodeFault.notUtf8.message = "decoded data is not UTF-8" ∧
    DecodeFault.base64.message = "base64: Invalid input for the given encoding" := by
  have hread : ∀ t r, OpTable.native.answer (.decode .base64 t) e = (r, e) ↔
      Codec.base64.decode t = r := by
    intro t r
    exact ⟨fun h => congrArg Prod.fst h, fun h => congrArg (·, e) h⟩
  have hwrite : ∀ t s, OpTable.native.answer (.encode .base64 s) e = (.ok t, e) ↔
      Codec.base64.encode s = t := by
    intro t s
    refine ⟨fun h => Except.ok.inj (congrArg Prod.fst h), ?_⟩
    rintro rfl
    rfl
  simp only [hread, hwrite]
  refine ⟨fun s => ⟨_, rfl, ?_, ?_⟩, fun t s => Codec.decode_base64_eq_ok_iff,
    fun t => Codec.decode_base64_eq_notUtf8_iff, fun t => Codec.decode_base64_eq_fault_iff,
    fun t => ?_, rfl, rfl⟩
  · rw [Codec.encode, String.length_ofList, Base64.length_encode, Utf8.length]
  · exact Codec.decode_base64_eq_ok_iff.mpr rfl
  · generalize hr : Codec.base64.decode t = r
    have hout := Codec.base64Outcome t
    rw [hr] at hout
    cases hout with
    | text s => exact Or.inl ⟨s, rfl⟩
    | notUtf8 => exact Or.inr ⟨.notUtf8, rfl⟩
    | foreign => exact Or.inr ⟨.base64, rfl⟩

end Polyfill
