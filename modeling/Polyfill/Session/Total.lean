/-!
# Sums over lists

The sum of a measure over the members of a list, and how it changes when one member does.
-/

namespace Polyfill.Session

/-- The sum of a measure over a list. -/
def total {α : Type} (f : α → Nat) (l : List α) : Nat :=
  l.foldr (fun a n => f a + n) 0

@[simp] theorem total_nil {α : Type} (f : α → Nat) : total f [] = 0 := rfl

@[simp] theorem total_cons {α : Type} (f : α → Nat) (a : α) (l : List α) :
    total f (a :: l) = f a + total f l := rfl

@[simp] theorem total_append {α : Type} (f : α → Nat) (l k : List α) :
    total f (l ++ k) = total f l + total f k := by
  induction l with
  | nil => simp
  | cons a l ih => rw [List.cons_append, total_cons, total_cons, ih, Nat.add_assoc]

theorem total_filter_le {α : Type} (f : α → Nat) (p : α → Bool) (l : List α) :
    total f (l.filter p) ≤ total f l := by
  induction l with
  | nil => simp
  | cons a l ih =>
    simp only [List.filter_cons, total_cons]
    split
    · rw [total_cons]; omega
    · omega

/-- A change of one member changes the sum by as much. -/
theorem total_modify {α : Type} (f : α → Nat) (g : α → α) (l : List α) (i : Nat) {a : α}
    (h : l[i]? = some a) : total f (l.modify i g) + f a = total f l + f (g a) := by
  induction l generalizing i with
  | nil => simp at h
  | cons b l ih =>
    cases i with
    | zero =>
      simp only [List.getElem?_cons_zero, Option.some.injEq] at h
      subst h
      simp only [List.modify_zero_cons, total_cons]
      omega
    | succ i =>
      simp only [List.getElem?_cons_succ] at h
      have := ih i h
      simp only [List.modify_succ_cons, total_cons]
      omega

/-- A change that adds at most `c` to any member adds at most `c` to the sum. -/
theorem total_modify_le {α : Type} (f : α → Nat) (g : α → α) (l : List α) (i c : Nat)
    (h : ∀ a, f (g a) ≤ f a + c) : total f (l.modify i g) ≤ total f l + c := by
  cases hi : l[i]? with
  | none => rw [List.modify_eq_self (by simpa using hi)]; omega
  | some a =>
    have := total_modify f g l i hi
    have := h a
    omega

/-- Putting another member into a place changes the sum by the difference. -/
theorem total_set {α : Type} (f : α → Nat) (l : List α) (i : Nat) {a : α} (b : α)
    (h : l[i]? = some a) : total f (l.set i b) + f a = total f l + f b := by
  induction l generalizing i with
  | nil => simp at h
  | cons c l ih =>
    cases i with
    | zero =>
      simp only [List.getElem?_cons_zero, Option.some.injEq] at h
      subst h
      simp only [List.set_cons_zero, total_cons]
      omega
    | succ i =>
      simp only [List.getElem?_cons_succ] at h
      have := ih i h
      simp only [List.set_cons_succ, total_cons]
      omega

end Polyfill.Session
