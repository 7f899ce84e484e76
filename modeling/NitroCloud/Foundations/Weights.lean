import Mathlib.Algebra.Order.BigOperators.Group.List
import Mathlib.Algebra.Order.Group.Nat
import Mathlib.Tactic.Abel

/-!
# Weights of the entries of a list

`total w as` adds up a weight over the entries of a list, as a component does that keeps a counter
of something its parts have.  The lemmas say what happens to the total when an entry is added or
replaced, and what an extreme total says of the entries.
-/

namespace Weights

variable {α M : Type*}

/-- The sum of the weights of the entries. -/
def total [AddCommMonoid M] (w : α → M) (as : List α) : M := (as.map w).sum

section Monoid

variable [AddCommMonoid M] {w : α → M} {as : List α}

@[simp] theorem total_nil : total w [] = 0 := rfl

@[simp] theorem total_cons (a : α) : total w (a :: as) = w a + total w as := List.sum_cons

theorem total_concat (a : α) : total w (as ++ [a]) = total w as + w a := by
  simp [total]

/-- Replacing one entry exchanges its weight. -/
theorem total_set {i : ℕ} {a b : α} (h : as[i]? = some a) :
    total w (as.set i b) + w a = total w as + w b := by
  induction as generalizing i with
  | nil => simp at h
  | cons c as ih =>
    cases i with
    | zero =>
      cases h
      simp only [List.set_cons_zero, total_cons]
      abel
    | succ i => rw [List.set_cons_succ, total_cons, total_cons, add_assoc, ih h, add_assoc]

end Monoid

variable {w w' : α → ℕ} {as : List α}

/-- Entries that are counted are entries of weight one. -/
theorem countP_eq_total (p : α → Bool) : as.countP p = total (fun a => (p a).toNat) as := by
  induction as with
  | nil => rfl
  | cons a as ih =>
    rw [List.countP_cons, total_cons, ih, Nat.add_comm]
    cases p a <;> rfl

/-- Replacing one entry changes the number of those counted by its own share. -/
theorem countP_set_add {i : ℕ} {a b : α} (p : α → Bool) (h : as[i]? = some a) :
    (as.set i b).countP p + (p a).toNat = as.countP p + (p b).toNat := by
  rw [countP_eq_total, countP_eq_total]
  exact total_set h

theorem count_set_add [DecidableEq α] {i : ℕ} {a b : α} (c : α) (h : as[i]? = some a) :
    (as.set i b).count c + (if a = c then 1 else 0) = as.count c + if b = c then 1 else 0 := by
  have hshare (x : α) : (x == c).toNat = if x = c then 1 else 0 := by
    by_cases hx : x = c
    · simp [hx]
    · rw [beq_false_of_ne hx, if_neg hx]
      rfl
  rw [← hshare a, ← hshare b, List.count_eq_countP, List.count_eq_countP]
  exact countP_set_add _ h

theorem total_le_total (h : ∀ a ∈ as, w a ≤ w' a) : total w as ≤ total w' as :=
  List.sum_le_sum h

theorem total_congr (h : ∀ a ∈ as, w a = w' a) : total w as = total w' as := by
  rw [total, List.map_congr_left h, total]

theorem total_eq_zero_iff : total w as = 0 ↔ ∀ a ∈ as, w a = 0 := by
  induction as with
  | nil => simp
  | cons a as ih => rw [total_cons, List.forall_mem_cons, ← ih, Nat.add_eq_zero_iff]

theorem total_le_length (h : ∀ a, w a ≤ 1) : total w as ≤ as.length := by
  induction as with
  | nil => simp
  | cons a as ih =>
    have ha := h a
    rw [total_cons, List.length_cons]
    omega

/-- Weights of at most one add up to the length when all of them are one. -/
theorem total_eq_length_iff (h : ∀ a, w a ≤ 1) : total w as = as.length ↔ ∀ a ∈ as, w a = 1 := by
  induction as with
  | nil => simp
  | cons a as ih =>
    have ha := h a
    have hle : total w as ≤ as.length := total_le_length h
    rw [total_cons, List.length_cons, List.forall_mem_cons, ← ih]
    omega

end Weights
