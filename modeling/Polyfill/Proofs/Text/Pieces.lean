import Mathlib.Data.List.DropRight
import Mathlib.Tactic.Common
import Polyfill.Text.Blank
/-!
# Pieces of a text

What the two operations on lists of names give, said without running them.  A piece of a text lies
between two separators or ends of the text and holds no separator itself (`Text.IsPiece`); these are
the members of `Text.splitOn`.  The core of a text is what is left when all white space is taken
from both its ends (`Text.IsCore`); this is `Text.trim`.
-/

namespace Polyfill.Text

/-! ## Splitting -/

/-- A piece of a text: it holds no separator, and to either side of it the text ends or goes on with
a separator. -/
def IsPiece (separator : Char) (text piece : List Char) : Prop :=
  separator ∉ piece ∧ ∃ before after, text = before ++ piece ++ after ∧
    (∀ c ∈ before.getLast?, c = separator) ∧ ∀ c ∈ after.head?, c = separator

lemma splitOn_eq (separator : Char) (cs : List Char) :
    splitOn separator cs = cs.splitOn separator := by
  induction cs with
  | nil => rfl
  | cons c rest ih =>
    rw [splitOn, List.splitOn_cons_eq_if_modifyHead, ih]
    by_cases hc : c = separator
    · simp [hc]
    · simp only [hc, if_false, beq_iff_eq]
      cases h : rest.splitOn separator with
      | nil => exact absurd h (List.splitOn_ne_nil separator rest)
      | cons piece pieces => rfl

/-- A text is split at a separator in it. -/
lemma splitOn_append (separator : Char) (a b : List Char) :
    splitOn separator (a ++ separator :: b) = splitOn separator a ++ splitOn separator b := by
  simp only [splitOn_eq, List.splitOn_append_cons_self]

lemma splitOn_of_not_mem {separator : Char} {cs : List Char} (h : separator ∉ cs) :
    splitOn separator cs = [cs] := by
  rw [splitOn_eq, List.splitOn_eq_singleton h]

namespace IsPiece

variable {separator : Char} {text piece : List Char}

lemma append_right (h : IsPiece separator text piece) (b : List Char) :
    IsPiece separator (text ++ separator :: b) piece := by
  obtain ⟨hpiece, before, after, rfl, hbefore, hafter⟩ := h
  refine ⟨hpiece, before, after ++ separator :: b, by simp, hbefore, fun c hc => ?_⟩
  cases after with
  | nil => exact (Option.some.inj hc).symm
  | cons c' after => exact hafter c hc

lemma append_left (h : IsPiece separator text piece) (a : List Char) :
    IsPiece separator (a ++ separator :: text) piece := by
  obtain ⟨hpiece, before, after, rfl, hbefore, hafter⟩ := h
  refine ⟨hpiece, a ++ separator :: before, after, by simp, fun c hc => ?_, hafter⟩
  rw [List.getLast?_append] at hc
  cases before with
  | nil => exact (Option.some.inj hc).symm
  | cons c' before =>
    rw [List.getLast?_cons_cons] at hc
    refine hbefore c ?_
    cases hlast : (c' :: before).getLast? with
    | none => simp at hlast
    | some d =>
      rw [hlast] at hc
      exact hc

end IsPiece

/-- Splitting a text gives its pieces. -/
theorem mem_splitOn_iff {separator : Char} {text piece : List Char} :
    piece ∈ splitOn separator text ↔ IsPiece separator text piece := by
  constructor
  · intro h
    -- by induction on the length: a text is itself a piece, or has a separator to split it at
    induction hn : text.length using Nat.strongRecOn generalizing text with
    | ind n ih =>
      by_cases hmem : separator ∈ text
      · obtain ⟨a, b, rfl⟩ := List.append_of_mem hmem
        rw [List.length_append, List.length_cons] at hn
        rw [splitOn_append, List.mem_append] at h
        rcases h with ha | hb
        · exact (ih a.length (by omega) ha rfl).append_right b
        · exact (ih b.length (by omega) hb rfl).append_left a
      · rw [splitOn_of_not_mem hmem, List.mem_singleton] at h
        exact ⟨h ▸ hmem, [], [], by simp [h], by simp, by simp⟩
  · rintro ⟨hpiece, before, after, rfl, hbefore, hafter⟩
    have hfront : piece ∈ splitOn separator (before ++ piece) := by
      rcases List.eq_nil_or_concat before with rfl | ⟨a, c, rfl⟩
      · simp [splitOn_of_not_mem hpiece]
      · obtain rfl : c = separator := hbefore c (by simp)
        simp [splitOn_append, splitOn_of_not_mem hpiece]
    cases after with
    | nil => rwa [List.append_nil]
    | cons c b =>
      obtain rfl : c = separator := hafter c rfl
      rw [splitOn_append]
      exact List.mem_append_left _ hfront

/-! ## Trimming -/

/-- The core of a text: it begins and ends with no white space, and the text has nothing but white
space to either side of it. -/
def IsCore (text core : List Char) : Prop :=
  (∃ left right, text = left ++ core ++ right ∧ (∀ c ∈ left, isBlank c = true) ∧
    ∀ c ∈ right, isBlank c = true) ∧
  (∀ c ∈ core.head?, isBlank c = false) ∧ ∀ c ∈ core.getLast?, isBlank c = false

/-- What is dropped from the end is dropped, and no more than that. -/
lemma trimEnd_append_of_getLast? {drop : Char → Bool} {cs tail : List Char}
    (hcs : ∀ c ∈ cs.getLast?, drop c = false) (htail : ∀ c ∈ tail, drop c = true) :
    trimEnd drop (cs ++ tail) = cs := by
  have htail' : ∀ c ∈ tail.reverse, drop c = true := fun c hc => htail c (List.mem_reverse.mp hc)
  have hkeep : cs.rdropWhile drop = cs := by
    rw [List.rdropWhile_eq_self_iff]
    intro hne hlast
    rw [hcs _ (List.getLast_mem_getLast? hne)] at hlast
    cases hlast
  rw [trimEnd, List.reverse_append, List.dropWhile_append_of_pos htail']
  exact hkeep

lemma isCore_trim (cs : List Char) : IsCore cs (trim cs) := by
  have hfront : cs.takeWhile isBlank ++ cs.dropWhile isBlank = cs := List.takeWhile_append_dropWhile
  have hback : trim cs ++ (cs.dropWhile isBlank).rtakeWhile isBlank = cs.dropWhile isBlank :=
    List.rdropWhile_append_rtakeWhile
  refine ⟨⟨cs.takeWhile isBlank, (cs.dropWhile isBlank).rtakeWhile isBlank, ?_,
    fun c hc => List.mem_takeWhile_imp hc, fun c hc => List.mem_rtakeWhile_imp hc⟩,
    fun c hc => ?_, fun c hc => ?_⟩
  · rw [List.append_assoc, hback, hfront]
  · -- what is left begins as the text does once its white space in front is dropped
    have hhead : (cs.dropWhile isBlank).head? = some c := by
      rw [← hback, List.head?_append, Option.mem_def.mp hc, Option.some_or]
    have hnot := List.head?_dropWhile_not isBlank cs
    rw [hhead] at hnot
    simpa using hnot
  · obtain ⟨hne, rfl⟩ := List.mem_getLast?_eq_getLast hc
    exact Bool.eq_false_iff.mpr (List.rdropWhile_last_not isBlank (cs.dropWhile isBlank) hne)

lemma trim_of_isCore {text core : List Char} (h : IsCore text core) : trim text = core := by
  obtain ⟨⟨left, right, rfl, hleft, hright⟩, hhead, hlast⟩ := h
  rw [trim, List.append_assoc, List.dropWhile_append_of_pos hleft]
  cases core with
  | nil =>
    rw [List.nil_append, List.dropWhile_eq_nil_iff.mpr hright]
    rfl
  | cons c rest =>
    rw [List.cons_append, List.dropWhile_cons_of_neg (by simp [hhead c rfl]), ← List.cons_append]
    exact trimEnd_append_of_getLast? hlast hright

/-- Trimming a text gives its core. -/
theorem trim_eq_iff {text core : List Char} : trim text = core ↔ IsCore text core := by
  constructor
  · rintro rfl
    exact isCore_trim text
  · exact trim_of_isCore

end Polyfill.Text
