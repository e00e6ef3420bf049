import Polyfill.Proofs.Codec.Base64
import Polyfill.Proofs.Codec.Hex
import Polyfill.Proofs.Codec.Percent
import Polyfill.Proofs.Text.Pieces
/-!
# What the codecs write

Two facts hold of all five codecs.  What a codec writes it reads back (`Codec.decode_encode`), and
it writes visible ASCII characters only (`Codec.isGraphic_of_mem_encode`).  So white space that gets
behind a written form on its way, the end of a line above all, can be told from it and taken off
again (`trimEnd_append`).
-/

namespace Polyfill

/-! ## Visible characters -/

namespace Text

/-- Whether a character is a visible character of ASCII. -/
def IsGraphic (c : Char) : Prop :=
  0x21 ≤ c.toNat ∧ c.toNat ≤ 0x7E

instance (c : Char) : Decidable (IsGraphic c) :=
  inferInstanceAs (Decidable (0x21 ≤ c.toNat ∧ c.toNat ≤ 0x7E))

/-- What is dropped from the end is taken off again if nothing else is dropped. -/
lemma trimEnd_append {drop : Char → Bool} {cs tail : List Char} (hcs : ∀ c ∈ cs, drop c = false)
    (htail : ∀ c ∈ tail, drop c = true) : trimEnd drop (cs ++ tail) = cs :=
  trimEnd_append_of_getLast? (fun c hc => hcs c (List.mem_of_getLast? hc)) htail

end Text

open Text (IsGraphic)

lemma Hex.isGraphic_of_mem_encode {bytes : List UInt8} {c : Char} (hc : c ∈ encode bytes) :
    IsGraphic c := by
  have hall : digits.all (fun c => decide (IsGraphic c)) = true := rfl
  exact of_decide_eq_true (List.all_eq_true.mp hall c (mem_digits_of_mem_encode hc))

namespace Base64

lemma isGraphic_digit {n : Nat} (h : n < 64) : IsGraphic (digit n) := by
  have hall : ∀ n < 64, IsGraphic (digit n) := by decide
  exact hall n h

lemma isGraphic_of_mem_encode : ∀ {bytes : List UInt8} {c : Char}, c ∈ encode bytes → IsGraphic c
  | [], c, hc => by cases hc
  | [a], c, hc => by
    have ha := a.toNat_lt
    have hmem : c ∈ encodeOne a := hc
    simp only [encodeOne, List.mem_cons, List.not_mem_nil, or_false] at hmem
    rcases hmem with rfl | rfl | rfl | rfl
    · exact isGraphic_digit (by omega)
    · exact isGraphic_digit (by omega)
    · decide
    · decide
  | [a, b], c, hc => by
    have ha := a.toNat_lt
    have hb := b.toNat_lt
    have hmem : c ∈ encodeTwo a b := hc
    simp only [encodeTwo, List.mem_cons, List.not_mem_nil, or_false] at hmem
    rcases hmem with rfl | rfl | rfl | rfl
    · exact isGraphic_digit (by omega)
    · exact isGraphic_digit (by omega)
    · exact isGraphic_digit (by omega)
    · decide
  | a :: b :: d :: rest, c, hc => by
    have ha := a.toNat_lt
    have hb := b.toNat_lt
    have hd := d.toNat_lt
    rw [encode_cons, List.mem_append] at hc
    rcases hc with hc | hc
    · simp only [encodeThree, List.mem_cons, List.not_mem_nil, or_false] at hc
      rcases hc with rfl | rfl | rfl | rfl <;> exact isGraphic_digit (by omega)
    · exact isGraphic_of_mem_encode hc

end Base64

namespace Percent

lemma isGraphic_digit {n : Nat} (h : n < 16) : IsGraphic (digit n) := by
  have hall : ∀ n < 16, IsGraphic (digit n) := by decide
  exact hall n h

lemma isGraphic_of_isAlphanumeric {c : Char} (h : isAlphanumeric c = true) : IsGraphic c := by
  have hle : ∀ {a b : Char}, a ≤ b → a.toNat ≤ b.toNat := fun h => h
  have hrange : ∀ {a b : Char}, a ≤ c → c ≤ b → 0x21 ≤ a.toNat → b.toNat ≤ 0x7E → IsGraphic c :=
    fun ha hb hlow hhigh => ⟨Nat.le_trans hlow (hle ha), Nat.le_trans (hle hb) hhigh⟩
  simp only [isAlphanumeric, Bool.or_eq_true, Bool.and_eq_true, decide_eq_true_eq] at h
  rcases h with (⟨h, h'⟩ | ⟨h, h'⟩) | ⟨h, h'⟩
  · exact hrange h h' (by decide) (by decide)
  · exact hrange h h' (by decide) (by decide)
  · exact hrange h h' (by decide) (by decide)

/-- An encoder that keeps visible marks writes visible characters. -/
lemma isGraphic_of_mem_encode {e : Encoder} (hmarks : ∀ m ∈ e.marks, IsGraphic m) {cs : List Char}
    {c : Char} (hc : c ∈ e.encode cs) : IsGraphic c := by
  obtain ⟨d, -, hc⟩ := List.mem_flatMap.mp hc
  unfold Encoder.encodeChar at hc
  split at hc
  · rename_i hkeeps
    obtain rfl := List.mem_singleton.mp hc
    rcases Bool.or_eq_true_iff.mp hkeeps with halpha | hmark
    · exact isGraphic_of_isAlphanumeric halpha
    · exact hmarks c (List.contains_iff_mem.mp hmark)
  · obtain ⟨b, -, hc⟩ := List.mem_flatMap.mp hc
    have hb := b.toNat_lt
    simp only [escape, List.mem_cons, List.not_mem_nil, or_false] at hc
    rcases hc with rfl | rfl | rfl
    · decide
    · exact isGraphic_digit (by omega)
    · exact isGraphic_digit (by omega)

end Percent

/-! ## All codecs -/

namespace Codec

/-- The encoder of whole addresses keeps the marks that any of them keeps. -/
lemma mem_marks_uri {c : Codec} {e : Percent.Encoder} (h : c.encoder? = some e) {m : Char}
    (hm : m ∈ e.marks) : m ∈ Percent.uri.marks := by
  cases c <;> cases h
  · exact List.mem_append_left _ (List.mem_append_left _ hm)
  · exact List.mem_append_left _ hm
  · exact hm

lemma isGraphic_of_mem_percent {c : Codec} {e : Percent.Encoder} {s : String} {ch : Char}
    (hch : ch ∈ (c.encode s).toList) (h : c.encoder? = some e) : IsGraphic ch := by
  have hall : Percent.uri.marks.all (fun m => decide (IsGraphic m)) = true := rfl
  have hmarks : ∀ m ∈ e.marks, IsGraphic m := fun m hm =>
    of_decide_eq_true (List.all_eq_true.mp hall m (mem_marks_uri h hm))
  rw [encode_of_encoder? h, String.toList_ofList] at hch
  exact Percent.isGraphic_of_mem_encode hmarks hch

/-- Every codec writes visible characters only. -/
theorem isGraphic_of_mem_encode (c : Codec) {s : String} {ch : Char}
    (h : ch ∈ (c.encode s).toList) : IsGraphic ch := by
  cases c with
  | base64 =>
    rw [encode, String.toList_ofList] at h
    exact Base64.isGraphic_of_mem_encode h
  | hex =>
    rw [toList_encode_hex] at h
    exact Hex.isGraphic_of_mem_encode h
  | url | uriComponent | uri => exact isGraphic_of_mem_percent h rfl

/-- Every codec reads what it writes. -/
theorem decode_encode (c : Codec) (s : String) : c.decode (c.encode s) = .ok s := by
  cases c with
  | base64 => exact decode_base64_eq_ok_iff.mpr rfl
  | hex => exact decode_hex_encode s
  | url | uriComponent | uri => exact decode_encode_of_encoder? rfl rfl s

end Codec

end Polyfill
