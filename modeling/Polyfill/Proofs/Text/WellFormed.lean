import Polyfill.Proofs.Text.Utf8
/-!
# Well-formed bytes

Which bytes are UTF-8 can be said without a reader or a writer, by the ranges that the bytes of one
character lie in (`Form`).  The ranges of a second byte depend on the first one, and that is what
keeps out forms that are longer than they need be, surrogates and numbers above `10FFFF`.
`wellFormed_iff` ties the two together: bytes are well-formed exactly if they are the bytes of a
text.

A byte that continues a character is never the first of one.  So well-formed bytes can be cut in
front of any other byte (`WellFormed.of_append`), in particular on both sides of an ASCII character,
and both parts are well-formed.
-/

namespace Polyfill.Utf8

/-- A byte that continues a character. -/
def Continues (b : UInt8) : Prop :=
  0x80 ≤ b.toNat ∧ b.toNat < 0xC0

/-- The bytes of one character. -/
inductive Form : List UInt8 → Prop where
  | single {a : UInt8} : a.toNat < 0x80 → Form [a]
  /-- `C0` and `C1` would begin a second form of an ASCII character. -/
  | pair {a b : UInt8} : 0xC2 ≤ a.toNat → a.toNat < 0xE0 → Continues b → Form [a, b]
  /-- `E0` must not begin a form that is too long, nor `ED` a surrogate. -/
  | triple {a b c : UInt8} : 0xE0 ≤ a.toNat → a.toNat < 0xF0 → Continues b → Continues c →
      (a.toNat = 0xE0 → 0xA0 ≤ b.toNat) → (a.toNat = 0xED → b.toNat < 0xA0) → Form [a, b, c]
  /-- `F0` must not begin a form that is too long, nor `F4` a number above `10FFFF`. -/
  | quadruple {a b c d : UInt8} : 0xF0 ≤ a.toNat → a.toNat ≤ 0xF4 → Continues b → Continues c →
      Continues d → (a.toNat = 0xF0 → 0x90 ≤ b.toNat) → (a.toNat = 0xF4 → b.toNat < 0x90) →
      Form [a, b, c, d]

/-- Bytes that are the bytes of characters, one after the other. -/
inductive WellFormed : List UInt8 → Prop where
  | nil : WellFormed []
  | cons {form rest : List UInt8} : Form form → WellFormed rest → WellFormed (form ++ rest)

/-! ## Characters and their forms -/

lemma Continues.payload {b : UInt8} (h : Continues b) : continuation? b = some (b.toNat - 0x80) :=
  if_pos h

/-- The written form of a character lies in the ranges. -/
lemma form_encodeChar (c : Char) : Form (encodeChar c) := by
  have hvalid := isValidChar_toNat c
  have hscalar : c.toNat < 0xD800 ∨ 0xDFFF < c.toNat ∧ c.toNat < 0x110000 := hvalid
  have hcont : ∀ n < 0x40, Continues (UInt8.ofNat (0x80 + n)) := by
    intro n hn
    rw [Continues, toNat_byte (by omega)]
    omega
  rcases Nat.lt_or_ge c.toNat 0x80 with h1 | h1
  · rw [encodeChar_single h1]
    exact .single (by rwa [toNat_byte (by omega)])
  rcases Nat.lt_or_ge c.toNat 0x800 with h2 | h2
  · rw [encodeChar_pair h1 h2]
    have ha : (UInt8.ofNat (0xC0 + c.toNat / 0x40)).toNat = 0xC0 + c.toNat / 0x40 :=
      toNat_byte (by omega)
    exact .pair (by omega) (by omega) (hcont _ (by omega))
  rcases Nat.lt_or_ge c.toNat 0x10000 with h3 | h3
  · rw [encodeChar_triple h2 h3]
    have ha : (UInt8.ofNat (0xE0 + c.toNat / 0x1000)).toNat = 0xE0 + c.toNat / 0x1000 :=
      toNat_byte (by omega)
    have hb : (UInt8.ofNat (0x80 + c.toNat / 0x40 % 0x40)).toNat = 0x80 + c.toNat / 0x40 % 0x40 :=
      toNat_byte (by omega)
    exact .triple (by omega) (by omega) (hcont _ (by omega)) (hcont _ (by omega)) (by omega)
      (by omega)
  · rw [encodeChar_quadruple h3]
    have ha : (UInt8.ofNat (0xF0 + c.toNat / 0x40000)).toNat = 0xF0 + c.toNat / 0x40000 :=
      toNat_byte (by omega)
    have hb : (UInt8.ofNat (0x80 + c.toNat / 0x1000 % 0x40)).toNat =
        0x80 + c.toNat / 0x1000 % 0x40 := toNat_byte (by omega)
    exact .quadruple (by omega) (by omega) (hcont _ (by omega)) (hcont _ (by omega))
      (hcont _ (by omega)) (by omega) (by omega)

lemma encodeChar_ne_nil (c : Char) : encodeChar c ≠ [] := by
  intro h
  have hform := form_encodeChar c
  rw [h] at hform
  cases hform

/-- Bytes in the ranges are the written form of a character: the reader of their form accepts
them. -/
lemma Form.exists_encodeChar {form : List UInt8} (h : Form form) : ∃ c, form = encodeChar c := by
  cases h with
  | @single a ha =>
    have hc : (Char.ofNat a.toNat).toNat = a.toNat := toNat_char (Or.inl (by omega))
    exact ⟨Char.ofNat a.toNat, by rw [encodeChar_single (by omega), hc, UInt8.ofNat_toNat]⟩
  | @pair a b ha ha' hb =>
    have hvalid : ((a.toNat - 0xC0) * 0x40 + (b.toNat - 0x80)).isValidChar := by
      unfold Nat.isValidChar Continues at *
      omega
    have hread : pair? a b = some (Char.ofNat ((a.toNat - 0xC0) * 0x40 + (b.toNat - 0x80))) := by
      rw [pair?, if_pos ⟨by omega, ha'⟩, hb.payload, Option.bind_some, scalar?,
        if_pos ⟨by omega, hvalid⟩]
    exact ⟨_, (pair?_eq_some_iff.mp hread).2.2.symm⟩
  | @triple a b c ha ha' hb hc hlong hsurrogate =>
    have hvalid : ((a.toNat - 0xE0) * 0x1000 + (b.toNat - 0x80) * 0x40 +
        (c.toNat - 0x80)).isValidChar := by
      unfold Nat.isValidChar Continues at *
      omega
    have hread : triple? a b c = some (Char.ofNat ((a.toNat - 0xE0) * 0x1000 +
        (b.toNat - 0x80) * 0x40 + (c.toNat - 0x80))) := by
      rw [triple?, if_pos ⟨ha, ha'⟩, hb.payload, Option.bind_some, hc.payload, Option.bind_some,
        scalar?, if_pos ⟨by omega, hvalid⟩]
    exact ⟨_, (triple?_eq_some_iff.mp hread).2.2.symm⟩
  | @quadruple a b c d ha ha' hb hc hd hlong hlarge =>
    have hvalid : ((a.toNat - 0xF0) * 0x40000 + (b.toNat - 0x80) * 0x1000 +
        (c.toNat - 0x80) * 0x40 + (d.toNat - 0x80)).isValidChar := by
      unfold Nat.isValidChar Continues at *
      omega
    have hread : quadruple? a b c d = some (Char.ofNat ((a.toNat - 0xF0) * 0x40000 +
        (b.toNat - 0x80) * 0x1000 + (c.toNat - 0x80) * 0x40 + (d.toNat - 0x80))) := by
      rw [quadruple?, if_pos ⟨ha, by omega⟩, hb.payload, Option.bind_some, hc.payload,
        Option.bind_some, hd.payload, Option.bind_some, scalar?, if_pos ⟨by omega, hvalid⟩]
    exact ⟨_, (quadruple?_eq_some_iff.mp hread).2.symm⟩

/-- All bytes of a character but the first continue it. -/
lemma Form.continues_of_mem_tail {form : List UInt8} (h : Form form) {b : UInt8}
    (hb : b ∈ form.tail) : Continues b := by
  cases h with
  | single => cases hb
  | pair _ _ hb' =>
    obtain rfl := List.mem_singleton.mp hb
    exact hb'
  | triple _ _ hb' hc' =>
    simp only [List.tail_cons, List.mem_cons, List.not_mem_nil, or_false] at hb
    rcases hb with rfl | rfl
    · exact hb'
    · exact hc'
  | quadruple _ _ hb' hc' hd' =>
    simp only [List.tail_cons, List.mem_cons, List.not_mem_nil, or_false] at hb
    rcases hb with rfl | rfl | rfl
    · exact hb'
    · exact hc'
    · exact hd'

lemma wellFormed_encode (cs : List Char) : WellFormed (encode cs) := by
  induction cs with
  | nil => exact .nil
  | cons c cs ih => exact .cons (form_encodeChar c) ih

/-- Bytes are well-formed exactly if they are the bytes of a text. -/
theorem wellFormed_iff {bs : List UInt8} : WellFormed bs ↔ ∃ s, bs = bytes s := by
  constructor
  · intro h
    induction h with
    | nil => exact ⟨"", rfl⟩
    | cons hform _ ih =>
      obtain ⟨c, rfl⟩ := hform.exists_encodeChar
      obtain ⟨s, rfl⟩ := ih
      exact ⟨String.ofList (c :: s.toList), by rw [bytes, bytes, String.toList_ofList, encode_cons]⟩
  · rintro ⟨s, rfl⟩
    exact wellFormed_encode s.toList

/-- Bytes cannot be read exactly if they are not well-formed. -/
lemma text?_eq_none_iff {bs : List UInt8} : text? bs = none ↔ ¬WellFormed bs := by
  rw [wellFormed_iff, Option.eq_none_iff_forall_ne_some]
  simp only [ne_eq, text?_eq_some_iff, not_exists]

-- Too long a form, a surrogate, a number above `10FFFF`, a character cut short, a stray byte.
example : ∀ bs ∈ [[0xC0, 0xAF], [0xED, 0xA0, 0x80], [0xF4, 0x90, 0x80, 0x80], [0xE2, 0x82], [0x80]],
    ¬WellFormed bs := by
  simp only [← text?_eq_none_iff]
  decide +kernel

/-! ## Cutting and joining -/

namespace WellFormed

variable {x y : List UInt8}

lemma append (hx : WellFormed x) (hy : WellFormed y) : WellFormed (x ++ y) := by
  induction hx with
  | nil => exact hy
  | cons hform _ ih =>
    rw [List.append_assoc]
    exact .cons hform ih

/-- What follows a character in well-formed bytes is well-formed. -/
lemma of_form_append (h : WellFormed (x ++ y)) (hx : Form x) : WellFormed y := by
  obtain ⟨c, rfl⟩ := hx.exists_encodeChar
  obtain ⟨s, hs⟩ := wellFormed_iff.mp h
  have hread : decodeOnto [c] y = some s.toList := by
    rw [← decodeOnto_encodeChar_append, hs]
    exact decodeOnto_encode [] s.toList
  obtain ⟨cs, -, rfl⟩ := encode_of_decodeOnto hread
  exact wellFormed_iff.mpr ⟨String.ofList cs, by rw [bytes, String.toList_ofList]⟩

/-- Well-formed bytes can be cut in front of a byte that does not continue a character. -/
lemma of_append (h : WellFormed (x ++ y)) (hy : ∀ b ∈ y.head?, ¬Continues b) :
    WellFormed x ∧ WellFormed y := by
  generalize hz : x ++ y = z at h
  induction h generalizing x with
  | nil =>
    obtain ⟨rfl, rfl⟩ := List.append_eq_nil_iff.mp hz
    exact ⟨.nil, .nil⟩
  | @cons form rest hform hrest ih =>
    rcases List.append_eq_append_iff.mp hz with ⟨middle, hfront, hback⟩ | ⟨middle, hfront, hback⟩
    · -- The cut is within the first character, so it is before it or behind it.
      cases x with
      | nil =>
        rw [List.nil_append] at hz
        exact ⟨.nil, hz ▸ .cons hform hrest⟩
      | cons a x =>
        cases middle with
        | nil =>
          rw [List.append_nil] at hfront
          rw [List.nil_append] at hback
          refine ⟨?_, hback ▸ hrest⟩
          rw [← hfront, ← List.append_nil form]
          exact .cons hform .nil
        | cons b middle =>
          have hb : b ∈ form.tail := by
            rw [hfront, List.cons_append, List.tail_cons]
            exact List.mem_append_right _ List.mem_cons_self
          exact absurd (hform.continues_of_mem_tail hb) (hy b (by rw [hback]; rfl))
    · obtain ⟨hmiddle, hy⟩ := ih hback.symm
      exact ⟨hfront ▸ .cons hform hmiddle, hy⟩

/-- Well-formed bytes can be cut on both sides of a whole character. -/
lemma around {form : List UInt8} (h : WellFormed (x ++ (form ++ y))) (hform : Form form) :
    WellFormed x ∧ WellFormed y := by
  have hhead : ∀ b ∈ (form ++ y).head?, ¬Continues b := by
    intro b hb hcont
    cases hform <;> cases hb <;> unfold Continues at hcont <;> omega
  obtain ⟨hx, hrest⟩ := h.of_append hhead
  exact ⟨hx, hrest.of_form_append hform⟩

/-- What stands between ASCII characters, or between one and an end, is well-formed by itself. -/
lemma between {front back : List UInt8} (h : WellFormed (front ++ x ++ back))
    (hfront : ∀ b ∈ front.getLast?, b.toNat < 0x80) (hback : ∀ b ∈ back.head?, b.toNat < 0x80) :
    WellFormed x := by
  have hascii : ∀ {b : UInt8}, b.toNat < 0x80 → ¬Continues b := fun hb hcont =>
    absurd hcont.1 (Nat.not_le.mpr hb)
  have hleft := (h.of_append fun b hb => hascii (hback b hb)).1
  rcases List.eq_nil_or_concat front with rfl | ⟨rest, a, rfl⟩
  · exact hleft
  · have ha : a.toNat < 0x80 := hfront a (by simp)
    rw [List.concat_eq_append, List.append_assoc] at hleft
    have hright : WellFormed ([a] ++ x) :=
      (hleft.of_append fun b hb => hascii (Option.some.inj hb ▸ ha)).2
    exact hright.of_form_append (.single ha)

end WellFormed

end Polyfill.Utf8
