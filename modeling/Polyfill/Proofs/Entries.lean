import Mathlib.Data.List.Nodup
import Mathlib.Tactic.Common
/-!
# Entries under keys

Names, files and options are kept as lists of entries with a key each.  Two ways to change such a
list leave alone what is found under other keys: leaving entries out by their keys, and putting an
entry in anywhere.  A list has no key twice exactly if nothing is lost when repetitions are erased.
-/

namespace Polyfill

/-! ## Looking up -/

section Lookup

variable {κ α : Type} [BEq κ] [LawfulBEq κ]

/-- What is looked up under some of the names only is not changed by leaving out the others. -/
lemma lookup_filter_key (f : κ → Bool) (l : List (κ × α)) {k : κ} (hk : f k = true) :
    (l.filter fun x => f x.1).lookup k = l.lookup k := by
  induction l with
  | nil => rfl
  | cons x l ih =>
    rw [List.lookup_cons, List.filter_cons]
    by_cases hx : k == x.1
    · have hkx : f x.1 = true := by rwa [← eq_of_beq hx]
      rw [if_pos hkx, List.lookup_cons, hx]
    · rw [Bool.not_eq_true] at hx
      rw [hx]
      split
      · rw [List.lookup_cons, hx, ih]
      · exact ih

/-- An entry that is put in does not change what is found under other keys. -/
lemma lookup_insert_of_ne (l l' : List (κ × α)) {x : κ × α} {k : κ} (hk : k ≠ x.1) :
    (l ++ x :: l').lookup k = (l ++ l').lookup k := by
  have hx : (k == x.1) = false := beq_eq_false_iff_ne.mpr hk
  rw [List.lookup_append, List.lookup_append, List.lookup_cons, hx]

/-- An entry that is put in is found under its key, if nothing was there before. -/
lemma lookup_insert_self {l l' : List (κ × α)} {x : κ × α} (h : (l ++ l').lookup x.1 = none) :
    (l ++ x :: l').lookup x.1 = some x.2 := by
  rw [List.lookup_append, Option.or_eq_none_iff] at h
  rw [List.lookup_append, h.1, Option.none_or, List.lookup_cons, beq_self_eq_true]

end Lookup

/-! ## Repetitions -/

section Repetitions

variable {α : Type} [BEq α]

lemma eraseDups_sublist (l : List α) : l.eraseDups.Sublist l := by
  cases l with
  | nil => exact List.nil_sublist []
  | cons a l =>
    rw [List.eraseDups_cons]
    have hrest := eraseDups_sublist (l.filter fun b => !b == a)
    exact (hrest.trans List.filter_sublist).cons_cons a
termination_by l.length
decreasing_by exact Nat.lt_succ_of_le (List.length_filter_le _ _)

variable [LawfulBEq α]

lemma nodup_eraseDups (l : List α) : l.eraseDups.Nodup := by
  cases l with
  | nil => exact List.nodup_nil
  | cons a l =>
    rw [List.eraseDups_cons, List.nodup_cons]
    refine ⟨fun ha => ?_, nodup_eraseDups (l.filter fun b => !b == a)⟩
    have hfilter := List.mem_filter.mp (List.mem_eraseDups.mp ha)
    simp at hfilter
termination_by l.length
decreasing_by exact Nat.lt_succ_of_le (List.length_filter_le _ _)

lemma eraseDups_of_nodup {l : List α} (h : l.Nodup) : l.eraseDups = l := by
  induction l with
  | nil => rfl
  | cons a l ih =>
    obtain ⟨ha, hl⟩ := List.nodup_cons.mp h
    have hfilter : (l.filter fun b => !b == a) = l := by
      rw [List.filter_eq_self]
      intro b hb
      have hne : b ≠ a := fun heq => ha (heq ▸ hb)
      simp [hne]
    rw [List.eraseDups_cons, hfilter, ih hl]

/-- Nothing is lost when repetitions are erased exactly if there are none. -/
lemma length_eraseDups_eq_iff {l : List α} : l.eraseDups.length = l.length ↔ l.Nodup := by
  constructor
  · intro h
    have heq := (eraseDups_sublist l).eq_of_length h
    rw [← heq]
    exact nodup_eraseDups l
  · intro h
    rw [eraseDups_of_nodup h]

end Repetitions

end Polyfill
