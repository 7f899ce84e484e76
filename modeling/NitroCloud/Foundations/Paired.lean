import Mathlib.Data.List.Forall2

/-!
# Lists kept in step

Two lists whose entries are related position by position, `List.Forall₂ R as bs`, as a component
keeps them that stores what belongs together in two places.  The lemmas look up the partner of an
entry and replace the entries at one position.
-/

namespace Paired

variable {α β : Type*} {R : α → β → Prop} {as : List α} {bs : List β}

/-- Replacing related entries at one position keeps the lists related. -/
theorem forall₂_set (h : List.Forall₂ R as bs) (i : ℕ) {a : α} {b : β} (hab : R a b) :
    List.Forall₂ R (as.set i a) (bs.set i b) := by
  induction h generalizing i with
  | nil => exact .nil
  | cons hr h ih =>
    cases i with
    | zero => exact .cons hab h
    | succ i => exact .cons hr (ih i)

theorem exists_of_getElem?_left (h : List.Forall₂ R as bs) {i : ℕ} {a : α} (ha : as[i]? = some a) :
    ∃ b, bs[i]? = some b ∧ R a b := by
  obtain ⟨hi, rfl⟩ := List.getElem?_eq_some_iff.1 ha
  have hi' : i < bs.length := h.length_eq ▸ hi
  exact ⟨bs[i], List.getElem?_eq_getElem hi', h.get hi hi'⟩

theorem exists_of_getElem?_right (h : List.Forall₂ R as bs) {i : ℕ} {b : β}
    (hb : bs[i]? = some b) : ∃ a, as[i]? = some a ∧ R a b :=
  exists_of_getElem?_left h.flip hb

/-- Storing an entry where it is changes nothing. -/
theorem set_of_getElem? {i : ℕ} {a : α} (ha : as[i]? = some a) : as.set i a = as := by
  obtain ⟨hi, rfl⟩ := List.getElem?_eq_some_iff.1 ha
  exact List.set_getElem_self hi

/-- Replacing an entry on the left by one that its partner is related to. -/
theorem forall₂_set_left (h : List.Forall₂ R as bs) {i : ℕ} {a : α} {b : β}
    (hb : bs[i]? = some b) (hab : R a b) : List.Forall₂ R (as.set i a) bs := by
  have hset := forall₂_set h i hab
  rwa [set_of_getElem? hb] at hset

theorem forall₂_set_right (h : List.Forall₂ R as bs) {i : ℕ} {a : α} {b : β}
    (ha : as[i]? = some a) (hab : R a b) : List.Forall₂ R as (bs.set i b) := by
  have hset := forall₂_set h i hab
  rwa [set_of_getElem? ha] at hset

end Paired
