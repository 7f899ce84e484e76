import Mathlib.Data.Option.Basic
import Mathlib.Order.Basic

/-!
# First-in first-out channels

A channel holds the messages on their way, and counts those that were sent into it and those that
were received from it.  Its capacity is a parameter of `send`: `some c` refuses a message when `c`
are on their way, and `none` never refuses one.
-/

/-- A channel; what was sent and not yet received is on its way. -/
structure Channel (α : Type*) where
  queue : List α
  sent : ℕ
  received : ℕ
  balance : sent = received + queue.length
deriving DecidableEq

namespace Channel

variable {α : Type*}

/-- The channel before any message. -/
def empty : Channel α := ⟨[], 0, 0, rfl⟩

/-- The channel has room for one more message. -/
def HasRoom (capacity : Option ℕ) (ch : Channel α) : Prop := ∀ c ∈ capacity, ch.queue.length < c

instance (capacity : Option ℕ) (ch : Channel α) : Decidable (ch.HasRoom capacity) :=
  match capacity with
  | none => isTrue (by simp [HasRoom])
  | some c => decidable_of_iff (ch.queue.length < c) (by simp [HasRoom])

/-- The channel holds no more messages than its capacity. -/
def Within (capacity : Option ℕ) (ch : Channel α) : Prop := ∀ c ∈ capacity, ch.queue.length ≤ c

/-- Sends a message, unless the channel is full. -/
def send (capacity : Option ℕ) (ch : Channel α) (a : α) : Option (Channel α) :=
  if ch.HasRoom capacity then
    some ⟨ch.queue ++ [a], ch.sent + 1, ch.received, by
      rw [List.length_append, List.length_singleton, ch.balance, Nat.add_assoc]⟩
  else none

/-- Receives the oldest message, unless the channel is empty. -/
def recv (ch : Channel α) : Option (α × Channel α) :=
  match h : ch.queue with
  | [] => none
  | a :: queue =>
    some (a, ⟨queue, ch.sent, ch.received + 1, by
      rw [ch.balance, h, List.length_cons, Nat.add_assoc, Nat.add_comm 1]⟩)

variable {capacity : Option ℕ} {ch ch' : Channel α} {a : α}

@[simp] theorem queue_empty : (empty : Channel α).queue = [] := rfl

@[simp] theorem sent_empty : (empty : Channel α).sent = 0 := rfl

@[simp] theorem received_empty : (empty : Channel α).received = 0 := rfl

theorem within_empty : (empty : Channel α).Within capacity := fun c _ => Nat.zero_le c

/-! ## What the operations do -/

theorem send_eq_none_iff :
    ch.send capacity a = none ↔ ∃ c, capacity = some c ∧ c ≤ ch.queue.length := by
  simp [send, HasRoom]

theorem of_send (h : ch.send capacity a = some ch') :
    ch.HasRoom capacity ∧ ch'.queue = ch.queue ++ [a] ∧ ch'.sent = ch.sent + 1 ∧
      ch'.received = ch.received := by
  unfold send at h
  split_ifs at h with hroom
  cases h
  exact ⟨hroom, rfl, rfl, rfl⟩

theorem recv_eq_none_iff : ch.recv = none ↔ ch.queue = [] := by
  unfold recv
  split
  · next hqueue => simp [hqueue]
  · next hqueue => simp [hqueue]

theorem of_recv (h : ch.recv = some (a, ch')) :
    ch.queue = a :: ch'.queue ∧ ch'.sent = ch.sent ∧ ch'.received = ch.received + 1 := by
  unfold recv at h
  split at h
  · cases h
  · next hqueue =>
    cases h
    exact ⟨hqueue, rfl, rfl⟩

theorem Within.send (h : ch.send capacity a = some ch') : ch'.Within capacity := by
  obtain ⟨hroom, hqueue, -, -⟩ := of_send h
  intro c hc
  rw [hqueue, List.length_append]
  exact hroom c hc

theorem Within.recv (hwithin : ch.Within capacity) (h : ch.recv = some (a, ch')) :
    ch'.Within capacity := by
  obtain ⟨hqueue, -, -⟩ := of_recv h
  intro c hc
  have hle := hwithin c hc
  rw [hqueue, List.length_cons] at hle
  omega

end Channel
