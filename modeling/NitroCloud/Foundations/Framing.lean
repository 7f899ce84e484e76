import Mathlib.Data.List.Infix

/-!
# Frames on a stream

A stream of frames is what an encoding makes of a list of messages, one after the other.  When no
frame can be mistaken for the start of another one, what was cut out of the start of a stream is a
list of the first messages, however the stream was cut, and a rest that is not a whole frame is
empty when the stream ends there.
-/

namespace Framing

variable {α β : Type*}

/-- The frames of the messages, one after the other. -/
def stream (enc : α → List β) (as : List α) : List β := (as.map enc).flatten

/-- The frames of the messages with the property are not empty, and a stream has only one of them at
its start. -/
structure Decodable (enc : α → List β) (P : α → Prop) : Prop where
  ne_nil : ∀ a, P a → enc a ≠ []
  unique : ∀ a b s t, P a → P b → enc a ++ s = enc b ++ t → a = b

variable {enc : α → List β} {P : α → Prop}

@[simp] theorem stream_nil : stream enc [] = [] := rfl

@[simp] theorem stream_cons (a : α) (as : List α) : stream enc (a :: as) = enc a ++ stream enc as :=
  rfl

theorem stream_append (as bs : List α) :
    stream enc (as ++ bs) = stream enc as ++ stream enc bs := by
  rw [stream, stream, stream, List.map_append, List.flatten_append]

theorem stream_concat (as : List α) (a : α) : stream enc (as ++ [a]) = stream enc as ++ enc a := by
  rw [stream_append, stream_cons, stream_nil, List.append_nil]

/-- What was cut out of the start of a stream are its first messages. -/
theorem Decodable.isPrefix (h : Decodable enc P) {as bs : List α} (has : ∀ a ∈ as, P a)
    (hbs : ∀ b ∈ bs, P b) (hstream : stream enc as <+: stream enc bs) : as <+: bs := by
  induction as generalizing bs with
  | nil => exact List.nil_prefix
  | cons a as ih =>
    obtain ⟨t, ht⟩ := hstream
    rw [stream_cons, List.append_assoc] at ht
    cases bs with
    | nil =>
      rw [stream_nil, List.append_eq_nil_iff] at ht
      exact absurd ht.1 (h.ne_nil a (has a List.mem_cons_self))
    | cons b bs =>
      rw [stream_cons] at ht
      obtain rfl := h.unique a b _ _ (has a List.mem_cons_self) (hbs b List.mem_cons_self) ht
      have hrest := ih (fun x hx => has x (List.mem_cons_of_mem a hx))
        (fun x hx => hbs x (List.mem_cons_of_mem a hx)) ⟨t, List.append_cancel_left ht⟩
      exact List.cons_prefix_cons.2 ⟨rfl, hrest⟩

/-- A stream that ends in the middle of no frame was cut into all its messages. -/
theorem Decodable.eq_of_rest (h : Decodable enc P) {as bs : List α} {rest : List β}
    (has : ∀ a ∈ as, P a) (hbs : ∀ b ∈ bs, P b) (hstream : stream enc as ++ rest = stream enc bs)
    (hrest : ∀ b t, P b → rest ≠ enc b ++ t) : as = bs ∧ rest = [] := by
  obtain ⟨cs, rfl⟩ := h.isPrefix has hbs ⟨rest, hstream⟩
  rw [stream_append] at hstream
  have hcs : rest = stream enc cs := List.append_cancel_left hstream
  cases cs with
  | nil => exact ⟨(List.append_nil as).symm, hcs⟩
  | cons c cs =>
    rw [stream_cons] at hcs
    exact absurd hcs (hrest c _ (hbs c (by simp)))

end Framing
