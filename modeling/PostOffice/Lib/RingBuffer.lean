import Mathlib.Data.Fin.Basic
import Mathlib.Logic.Function.Basic
import Mathlib.Data.List.Basic
import Mathlib.Data.Nat.ModEq

/-! A bounded ring buffer over any element type and any capacity.

    The cells are a fixed array; `head` and `tail` are the next cell to read and to write, `length`
    the number of live cells. The fields `head_lt`, `tail_lt`, `length_le` and `tail_eq` make an
    ill-formed buffer impossible to build, so every array access below is in bounds by its type.
    `toList` reads the live cells in order; the operations are those of a list of at most `n`
    elements (`toList_push`, `push_eq_none_iff`, `toList_pop`, `pop_of_empty`, `toList_reset`).

        head            tail
         │ live … live   │ free … free      (indices modulo n) -/

/-- A ring buffer of capacity `n`. -/
structure RingBuffer (α : Type*) (n : ℕ) where
  entries : Fin n → α
  head : ℕ
  tail : ℕ
  length : ℕ
  head_lt : head < n
  tail_lt : tail < n
  length_le : length ≤ n
  tail_eq : tail = (head + length) % n

namespace RingBuffer

variable {α : Type*} {n : ℕ}

theorem pos (q : RingBuffer α n) : 0 < n := lt_of_le_of_lt (Nat.zero_le _) q.head_lt

/-- The cell `i` places after the head. -/
def slot (q : RingBuffer α n) (i : ℕ) : Fin n := ⟨(q.head + i) % n, Nat.mod_lt _ q.pos⟩

/-- The live entries, oldest first. -/
def toList (q : RingBuffer α n) : List α := (List.range q.length).map fun i => q.entries (q.slot i)

/-- All cells `z`, nothing live. -/
def reset (hn : 0 < n) (z : α) : RingBuffer α n where
  entries _ := z
  head := 0
  tail := 0
  length := 0
  head_lt := hn
  tail_lt := hn
  length_le := Nat.zero_le _
  tail_eq := (Nat.zero_mod _).symm

/-- No free cell is left. -/
def isFull (q : RingBuffer α n) : Bool := decide (n ≤ q.length)

/-- Write at the tail; `none` when the buffer is full. -/
def push (q : RingBuffer α n) (a : α) : Option (RingBuffer α n) :=
  if h : n ≤ q.length then none
  else some
    { entries := Function.update q.entries ⟨q.tail, q.tail_lt⟩ a
      head := q.head
      tail := (q.tail + 1) % n
      length := q.length + 1
      head_lt := q.head_lt
      tail_lt := Nat.mod_lt _ q.pos
      length_le := by omega
      tail_eq := by rw [q.tail_eq, Nat.mod_add_mod]; rfl }

/-- Read at the head and overwrite the cell with `blank`; an empty buffer returns `blank` and is
    left as it is. -/
def pop (blank : α) (q : RingBuffer α n) : α × RingBuffer α n :=
  if h : q.length = 0 then (blank, q)
  else (q.entries ⟨q.head, q.head_lt⟩,
    { entries := Function.update q.entries ⟨q.head, q.head_lt⟩ blank
      head := (q.head + 1) % n
      tail := q.tail
      length := q.length - 1
      head_lt := Nat.mod_lt _ q.pos
      tail_lt := q.tail_lt
      length_le := (Nat.sub_le _ _).trans q.length_le
      tail_eq := by
        rw [q.tail_eq, Nat.mod_add_mod]
        congr 1
        omega })

@[simp] theorem length_toList (q : RingBuffer α n) : q.toList.length = q.length := by simp [toList]

theorem toList_eq_nil_iff (q : RingBuffer α n) : q.toList = [] ↔ q.length = 0 := by
  rw [← List.length_eq_zero_iff, length_toList]

@[simp] theorem toList_reset (hn : 0 < n) (z : α) : (reset hn z).toList = [] := by
  simp [toList, reset]

@[simp] theorem isFull_iff (q : RingBuffer α n) : q.isFull = true ↔ n ≤ q.length := by simp [isFull]

/-- Two live places are different cells: `i` and `j` are less than `n` apart. -/
theorem slot_ne (q : RingBuffer α n) {i j : ℕ} (hij : i < j) (hj : j < i + n) :
    q.slot i ≠ q.slot j := by
  intro h
  have hmod : (q.head + i) % n = (q.head + j) % n := congrArg Fin.val h
  have hdvd : n ∣ (q.head + j) - (q.head + i) := (Nat.modEq_iff_dvd' (by omega)).mp hmod
  have hle := Nat.le_of_dvd (by omega) hdvd
  omega

theorem tail_eq_slot (q : RingBuffer α n) : (⟨q.tail, q.tail_lt⟩ : Fin n) = q.slot q.length :=
  Fin.ext q.tail_eq

theorem head_eq_slot (q : RingBuffer α n) : (⟨q.head, q.head_lt⟩ : Fin n) = q.slot 0 :=
  Fin.ext (by simp [slot, Nat.mod_eq_of_lt q.head_lt])

theorem push_eq_none_iff (q : RingBuffer α n) (a : α) : q.push a = none ↔ n ≤ q.length := by
  unfold push
  split <;> simp_all

/-- Pushing appends at the end. -/
theorem toList_push {q q' : RingBuffer α n} {a : α} (h : q.push a = some q') :
    q'.toList = q.toList ++ [a] := by
  unfold push at h
  split at h
  · cases h
  · rename_i hlt
    obtain rfl := Option.some.inj h
    simp only [toList, List.range_succ, List.map_append, List.map_cons, List.map_nil]
    congr 1
    · refine List.map_congr_left ?_
      intro i hi
      have hi : i < q.length := List.mem_range.mp hi
      have hne : q.slot i ≠ q.slot q.length := q.slot_ne hi (by omega)
      exact (congrArg (Function.update q.entries · a (q.slot i)) q.tail_eq_slot).trans
        (Function.update_of_ne hne _ _)
    · have hs : (⟨q.tail, q.tail_lt⟩ : Fin n) = ⟨(q.head + q.length) % n, _⟩ := q.tail_eq_slot
      simp [slot, hs]

theorem length_push {q q' : RingBuffer α n} {a : α} (h : q.push a = some q') :
    q'.length = q.length + 1 := by
  rw [← length_toList, toList_push h, List.length_append, length_toList, List.length_singleton]

theorem pop_of_empty {q : RingBuffer α n} {blank : α} (h : q.length = 0) :
    q.pop blank = (blank, q) := by
  simp [pop, h]

/-- Popping a non-empty buffer takes the oldest entry. -/
theorem toList_pop {q : RingBuffer α n} (blank : α) (h : q.length ≠ 0) :
    q.toList = (q.pop blank).1 :: (q.pop blank).2.toList := by
  have hrange : List.range q.length = 0 :: (List.range (q.length - 1)).map Nat.succ := by
    rw [← List.range_succ_eq_map, Nat.sub_add_cancel (Nat.pos_of_ne_zero h)]
  simp only [pop, h, dite_false, toList]
  rw [hrange, List.map_cons, List.map_map]
  congr 1
  · rw [head_eq_slot]
  · refine List.map_congr_left ?_
    intro i hi
    have hi : i < q.length - 1 := List.mem_range.mp hi
    have hle := q.length_le
    have hne : q.slot (i + 1) ≠ q.slot 0 := (q.slot_ne (by omega) (by omega)).symm
    have hslot : (⟨((q.head + 1) % n + i) % n, Nat.mod_lt _ q.pos⟩ : Fin n) = q.slot (i + 1) :=
      Fin.ext (by simp only [slot, Nat.mod_add_mod]; congr 1; omega)
    rw [head_eq_slot]
    exact ((congrArg _ hslot).trans (Function.update_of_ne hne _ _)).symm

theorem length_pop {q : RingBuffer α n} (blank : α) (h : q.length ≠ 0) :
    (q.pop blank).2.length + 1 = q.length := by
  rw [← q.length_toList, toList_pop blank h, List.length_cons, length_toList]

end RingBuffer
