import Mathlib.Data.List.Basic
import Mathlib.Data.List.Induction

/-! A history cut into segments by marks.

    The events up to a mark are one closed segment, without the mark; the events after the last
    mark are the current one. A history grows at its end, so an event is added to the current
    segment and a mark closes it.

        e₁ e₂ ▮ e₃ e₄ e₅ ▮ e₆ …
        closed   closed    current -/

namespace Segments

variable {α : Type*} (mark : α → Bool)

/-- One more event. -/
def add (x : List (List α) × List α) (e : α) : List (List α) × List α :=
  if mark e then (x.1 ++ [x.2], []) else (x.1, x.2 ++ [e])

/-- The closed segments and the current one. -/
def split (l : List α) : List (List α) × List α := l.foldl (add mark) ([], [])

/-- The segments that a mark has closed. -/
def closed (l : List α) : List (List α) := (split mark l).1

/-- The events since the last mark. -/
def current (l : List α) : List α := (split mark l).2

variable {mark} {l : List α} {e : α}

theorem current_append_mark (h : mark e = true) : current mark (l ++ [e]) = [] := by
  simp [current, split, add, h]

theorem closed_append_mark (h : mark e = true) :
    closed mark (l ++ [e]) = closed mark l ++ [current mark l] := by
  simp [current, closed, split, add, h]

theorem current_append (h : mark e = false) : current mark (l ++ [e]) = current mark l ++ [e] := by
  simp [current, split, add, h]

theorem closed_append (h : mark e = false) : closed mark (l ++ [e]) = closed mark l := by
  simp [closed, split, add, h]

/-- Events that are no marks stay in the current segment. -/
theorem current_append_list {es : List α} (h : ∀ e ∈ es, mark e = false) :
    current mark (l ++ es) = current mark l ++ es := by
  induction es generalizing l with
  | nil => simp
  | cons e es ih =>
    have htail : ∀ e ∈ es, mark e = false := fun x hx => h x (List.mem_cons_of_mem _ hx)
    rw [List.append_cons, ih htail, current_append (h e List.mem_cons_self), List.append_assoc]
    rfl

theorem closed_append_list {es : List α} (h : ∀ e ∈ es, mark e = false) :
    closed mark (l ++ es) = closed mark l := by
  induction es generalizing l with
  | nil => simp
  | cons e es ih =>
    have htail : ∀ e ∈ es, mark e = false := fun x hx => h x (List.mem_cons_of_mem _ hx)
    rw [List.append_cons, ih htail, closed_append (h e List.mem_cons_self)]

/-- The current segment is the end of the history. -/
theorem current_suffix : ∀ l : List α, current mark l <:+ l := by
  intro l
  induction l using List.reverseRecOn with
  | nil => exact List.suffix_rfl
  | append_singleton l e ih =>
    cases h : mark e
    · rw [current_append h]
      obtain ⟨l', hl⟩ := ih
      exact ⟨l', by rw [← List.append_assoc, hl]⟩
    · rw [current_append_mark h]
      exact List.nil_suffix

/-- What holds of the segment being closed, and of those closed before, holds of all. -/
theorem forall_closed_append {P : List α → Prop} (hl : ∀ d ∈ closed mark l, P d)
    (hcur : mark e = true → P (current mark l)) : ∀ d ∈ closed mark (l ++ [e]), P d := by
  intro d hd
  cases h : mark e
  · rw [closed_append h] at hd
    exact hl d hd
  · rw [closed_append_mark h, List.mem_append, List.mem_singleton] at hd
    rcases hd with hd | rfl
    · exact hl d hd
    · exact hcur h

end Segments
