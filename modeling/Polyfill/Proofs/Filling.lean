import Polyfill.Proofs.Codec.Hex
import Polyfill.Proofs.Facade
/-!
# An array is filled as a whole or not at all

The elements of an array are replaced only once it is known that there is a byte for each of them
and none too many.  What a table answers when it is asked for random bytes may be anything; it is
either refused, or is exactly as many bytes as asked for (`exists_randomBytesOf_iff`), and only then
does the array change (`getRandomValues_of_lacks`).
-/

namespace Polyfill

namespace Environment

variable {α : Type} {host : Host} {ops : OpTable} {count : Nat} {text : String}

/-! ## Sorting an answer -/

lemma randomBytesOf_of_isHex (h : Hex.IsHex text.toList) :
    randomBytesOf count text =
      if (Hex.pairs text.toList).length = count then .ok (Hex.pairs text.toList)
      else .error (.internal (.randomByteCount count (Hex.pairs text.toList).length)) := by
  simp only [randomBytesOf, Hex.decode_eq, if_pos h]

lemma randomBytesOf_of_not_isHex (h : ¬Hex.IsHex text.toList) :
    randomBytesOf count text = .error (.internal .malformedRandomBytes) := by
  simp only [randomBytesOf, Hex.decode_eq, if_neg h]

/-- So many pairs of digits are an even number of digits, and stand for so many bytes. -/
lemma length_pairs_of_length_eq {m : Nat} (hlength : text.length = 2 * m)
    (hdigits : ∀ c ∈ text.toList, Hex.IsDigit c) :
    Hex.IsHex text.toList ∧ (Hex.pairs text.toList).length = m := by
  rw [← String.length_toList] at hlength
  have heven : text.toList.length % 2 = 0 := by omega
  have hpairs := Hex.length_pairs heven
  exact ⟨⟨heven, hdigits⟩, by omega⟩

/-- Two digits for each byte asked for are accepted. -/
lemma randomBytesOf_of_length_eq (hlength : text.length = 2 * count)
    (hdigits : ∀ c ∈ text.toList, Hex.IsDigit c) :
    randomBytesOf count text = .ok (Hex.pairs text.toList) := by
  obtain ⟨hex, hpairs⟩ := length_pairs_of_length_eq hlength hdigits
  rw [randomBytesOf_of_isHex hex, if_pos hpairs]

/-- Two digits for each of another number of bytes are counted and refused. -/
lemma randomBytesOf_of_length_ne {m : Nat} (hlength : text.length = 2 * m)
    (hdigits : ∀ c ∈ text.toList, Hex.IsDigit c) (h : m ≠ count) :
    randomBytesOf count text = .error (.internal (.randomByteCount count m)) := by
  obtain ⟨hex, rfl⟩ := length_pairs_of_length_eq hlength hdigits
  rw [randomBytesOf_of_isHex hex, if_neg h]

/-- Nothing else is accepted. -/
lemma exists_randomBytesOf_iff :
    (∃ bytes, randomBytesOf count text = .ok bytes) ↔
      text.length = 2 * count ∧ ∀ c ∈ text.toList, Hex.IsDigit c := by
  refine ⟨?_, fun h => ⟨_, randomBytesOf_of_length_eq h.1 h.2⟩⟩
  rintro ⟨bytes, hbytes⟩
  by_cases hex : Hex.IsHex text.toList
  · rw [randomBytesOf_of_isHex hex] at hbytes
    by_cases hpairs : (Hex.pairs text.toList).length = count
    · rw [← String.length_toList, Hex.length_pairs hex.1, hpairs]
      exact ⟨rfl, hex.2⟩
    · rw [if_neg hpairs] at hbytes
      cases hbytes
  · rw [randomBytesOf_of_not_isHex hex] at hbytes
    cases hbytes

/-! ## The elements of an answer -/

section Elements

variable (ofByte : UInt8 → α)

lemma elementsOf_error (e : Error) : elementsOf ofByte count (.error e) = .error e := rfl

lemma elementsOf_of_error {e : Error} (h : randomBytesOf count text = .error e) :
    elementsOf ofByte count (.ok text) = .error e := by
  rw [elementsOf, Except.bind, h, Except.map]

lemma elementsOf_of_ok {bytes : List UInt8} (h : randomBytesOf count text = .ok bytes) :
    elementsOf ofByte count (.ok text) = .ok (bytes.map ofByte) := by
  rw [elementsOf, Except.bind, h, Except.map]

/-- There are elements exactly if the answer is two digits for each of them. -/
lemma exists_elementsOf_iff {answer : Except Error String} :
    (∃ filled, elementsOf ofByte count answer = .ok filled) ↔
      ∃ text, answer = .ok text ∧ text.length = 2 * count ∧
        ∀ c ∈ text.toList, Hex.IsDigit c := by
  constructor
  · rintro ⟨filled, hfilled⟩
    cases answer with
    | error e => cases hfilled
    | ok text =>
      cases hbytes : randomBytesOf count text with
      | error e =>
        rw [elementsOf_of_error ofByte hbytes] at hfilled
        cases hfilled
      | ok bytes => exact ⟨text, rfl, exists_randomBytesOf_iff.mp ⟨bytes, hbytes⟩⟩
  · rintro ⟨text, rfl, hlength, hdigits⟩
    exact ⟨_, elementsOf_of_ok ofByte (randomBytesOf_of_length_eq hlength hdigits)⟩

/-- Each element then comes from the two digits at its place. -/
lemma elementsOf_of_length_eq (hlength : text.length = 2 * count)
    (hdigits : ∀ c ∈ text.toList, Hex.IsDigit c) :
    ∃ filled, elementsOf ofByte count (.ok text) = .ok filled ∧ filled.length = count ∧
      ∀ i < count, ∃ h l, text.toList[2 * i]? = some h ∧ text.toList[2 * i + 1]? = some l ∧
        filled[i]? = some (ofByte (Hex.byteOf h l)) := by
  have hpairs := (length_pairs_of_length_eq hlength hdigits).2
  refine ⟨_, elementsOf_of_ok ofByte (randomBytesOf_of_length_eq hlength hdigits), ?_, ?_⟩
  · rw [List.length_map, hpairs]
  · intro i hi
    rw [← hpairs] at hi
    obtain ⟨h, l, hh, hl, hbyte⟩ := Hex.exists_digits_of_pairs hi
    refine ⟨h, l, hh, hl, ?_⟩
    rw [List.getElem?_map, hbyte, Option.map_some]

end Elements

/-! ## Filling an array -/

namespace Filling

variable {array filled : List α} {outcome : Except Error (List α)} {e : Error}

lemma outcome_ofOutcome (array : List α) (outcome : Except Error (List α)) :
    (ofOutcome array outcome).outcome = outcome := by
  cases outcome with
  | error => rfl
  | ok filled => rfl

/-- A call that succeeds leaves the array that it returns. -/
lemma array_of_ok (h : outcome = .ok filled) : (ofOutcome array outcome).array = filled := by
  rw [h, ofOutcome]

/-- A call that fails leaves the array as it was. -/
lemma array_of_error (h : outcome = .error e) : (ofOutcome array outcome).array = array := by
  rw [h, ofOutcome]

end Filling

/-- Where the host does not fill arrays itself, an array becomes what the answer to one call makes
of it. -/
lemma getRandomValues_of_lacks (ops : OpTable) (ofByte : UInt8 → α) (array : List α) (s : Scene)
    (h : host.provides .getRandomValues = false) :
    getRandomValues ⟨host, ops⟩ ofByte array s =
      (.ofOutcome array (elementsOf ofByte array.length
        (ops.answer (.randomBytes array.length) s.entropy).1),
      ⟨(ops.answer (.randomBytes array.length) s.entropy).2,
        s.notes ++ [.op ops.recorded (.text (.randomBytes array.length))]⟩) := by
  rw [getRandomValues_eq, perform_randomElements ofByte h, OpTable.handOn]

end Environment

open Environment in
/-- Random values fill an array as a whole or not at all, whatever the table answers.  A host that
fills arrays itself gets its own error and no op is called.  Otherwise the table is asked once, for
as many bytes as there are elements, and the call succeeds exactly if the answer is two digits for
each of them: each element then comes from the byte of the two digits at its place.  A failure of
the table is handed on, what is not an even number of digits is malformed, and any other number of
bytes is counted.  No failure changes the array. -/
theorem random_values_all_or_nothing {α : Type} (host : Host) (ops : OpTable) (ofByte : UInt8 → α)
    (array : List α) (s : Scene) :
    let n := array.length
    let filling := (getRandomValues ⟨host, ops⟩ ofByte array s).1
    let after := (getRandomValues ⟨host, ops⟩ ofByte array s).2
    let answer := ops.answer (.randomBytes n) s.entropy
    (host.provides .getRandomValues = true →
      filling.outcome = .error (.providedByHost .getRandomValues) ∧ after = s) ∧
    (host.provides .getRandomValues = false →
      after = ⟨answer.2, s.notes ++ [.op ops.recorded (.text (.randomBytes n))]⟩ ∧
      ((∃ filled, filling.outcome = .ok filled) ↔
        ∃ text, answer.1 = .ok text ∧ text.length = 2 * n ∧ ∀ c ∈ text.toList, Hex.IsDigit c) ∧
      (∀ text, answer.1 = .ok text → text.length = 2 * n →
        (∀ c ∈ text.toList, Hex.IsDigit c) →
        ∃ filled, filling.outcome = .ok filled ∧ filling.array = filled ∧ filled.length = n ∧
          ∀ i < n, ∃ h l, text.toList[2 * i]? = some h ∧ text.toList[2 * i + 1]? = some l ∧
            filled[i]? = some (ofByte (Hex.byteOf h l))) ∧
      (∀ e, answer.1 = .error e → filling.outcome = .error e) ∧
      (∀ text, answer.1 = .ok text →
        ¬(text.length % 2 = 0 ∧ ∀ c ∈ text.toList, Hex.IsDigit c) →
        filling.outcome = .error (.internal .malformedRandomBytes)) ∧
      (∀ text m, answer.1 = .ok text → text.length = 2 * m →
        (∀ c ∈ text.toList, Hex.IsDigit c) → m ≠ n →
        filling.outcome = .error (.internal (.randomByteCount n m)))) ∧
    (∀ e, filling.outcome = .error e → filling.array = array) ∧
    InternalFault.malformedRandomBytes.message = "malformed random bytes" ∧
    (∀ m, (InternalFault.randomByteCount n m).message =
      "expected " ++ toString n ++ " random bytes, got " ++ toString m) := by
  intro n filling after answer
  refine ⟨fun hprovides => ?_, fun hlacks => ?_, fun e he => ?_, rfl, fun m => rfl⟩
  · have hrefused := (getRandomValues_refused_iff ofByte ops array s).mpr hprovides
    exact ⟨congrArg (·.1.outcome) hrefused, congrArg Prod.snd hrefused⟩
  · have hcall := getRandomValues_of_lacks ops ofByte array s hlacks
    have hfilling : filling = .ofOutcome array (elementsOf ofByte n answer.1) :=
      congrArg Prod.fst hcall
    rw [hfilling, Filling.outcome_ofOutcome]
    refine ⟨congrArg Prod.snd hcall, exists_elementsOf_iff ofByte, ?_, ?_, ?_, ?_⟩
    · intro text hanswer hlength hdigits
      obtain ⟨filled, hfilled, helements⟩ := elementsOf_of_length_eq ofByte hlength hdigits
      rw [hanswer]
      exact ⟨filled, hfilled, Filling.array_of_ok hfilled, helements⟩
    · intro e hanswer
      rw [hanswer, elementsOf_error]
    · intro text hanswer hnot
      rw [← String.length_toList] at hnot
      rw [hanswer, elementsOf_of_error ofByte (randomBytesOf_of_not_isHex hnot)]
    · intro text m hanswer hlength hdigits hne
      rw [hanswer, elementsOf_of_error ofByte (randomBytesOf_of_length_ne hlength hdigits hne)]
  · have hfilling : filling = .ofOutcome array _ :=
      congrArg Prod.fst (getRandomValues_eq ofByte ⟨host, ops⟩ array s)
    rw [hfilling, Filling.outcome_ofOutcome] at he
    rw [hfilling, Filling.array_of_error he]

-- Digits of both cases fill an array of two; one digit less leaves it alone.
example :
    let s : Scene := ⟨⟨fun _ => 0, 0⟩, []⟩
    let fill (answer : String) := (Environment.getRandomValues
      ⟨.none, .scripted [("random_bytes", .text answer)]⟩ UInt8.toNat [7, 7] s).1.array
    fill "0aFf" = [10, 255] ∧ fill "0aF" = [7, 7] := by
  decide

end Polyfill
