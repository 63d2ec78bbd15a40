import Mathlib.Algebra.BigOperators.Group.List.Basic
import Mathlib.Algebra.Order.Ring.Nat

/-! A queue of messages from which a receiver takes the first one it selects.

    `find? p` is the message received and `eraseP p` the queue left behind. A count of messages of
    any kind drops by one exactly when the message received is of that kind. -/

namespace Mailbox

variable {α : Type*} {p : α → Bool} {l : List α} {a : α}

/-- What is received is in the queue and of the selected kind. -/
theorem mem_of_find (h : l.find? p = some a) : a ∈ l ∧ p a = true :=
  ⟨List.mem_of_find?_eq_some h, List.find?_some h⟩

/-- A reception moves one message from the queue to the receiver. -/
theorem countP_eraseP (q : α → Bool) (h : l.find? p = some a) :
    (l.eraseP p).countP q + (if q a then 1 else 0) = l.countP q := by
  obtain ⟨hp, pre, post, rfl, hpre⟩ := List.find?_eq_some_iff_append.mp h
  have hnone : ∀ x ∈ pre, ¬ p x = true := fun x hx => by simpa using hpre x hx
  rw [List.eraseP_append_right _ hnone, List.eraseP_cons_of_pos hp, List.countP_append,
    List.countP_append, List.countP_cons]
  omega

/-- The same for a sum over the messages. -/
theorem sum_map_eraseP (f : α → ℕ) (h : l.find? p = some a) :
    ((l.eraseP p).map f).sum + f a = (l.map f).sum := by
  obtain ⟨hp, pre, post, rfl, hpre⟩ := List.find?_eq_some_iff_append.mp h
  have hnone : ∀ x ∈ pre, ¬ p x = true := fun x hx => by simpa using hpre x hx
  rw [List.eraseP_append_right _ hnone, List.eraseP_cons_of_pos hp, List.map_append,
    List.map_append, List.map_cons, List.sum_append, List.sum_append, List.sum_cons]
  omega

/-- Nothing of a kind is in the queue when its count is zero. -/
theorem not_mem_of_countP {q : α → Bool} (h : l.countP q = 0) (ha : a ∈ l) : q a = false := by
  have := List.countP_eq_zero.mp h a ha
  simpa using this

end Mailbox
