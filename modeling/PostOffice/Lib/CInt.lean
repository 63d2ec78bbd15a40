import Mathlib.Algebra.Order.Ring.Int

/-! Signed integer arithmetic of a given width, as in C: an operation whose result does not fit has
    no value, and neither has a division by zero.

        x + y    fits ──▶ some (x + y)
                 does not fit ──▶ none -/

namespace CInt

/-- The values of a signed type of this width. -/
def InRange (bits : ℕ) (x : ℤ) : Prop := -2 ^ (bits - 1) ≤ x ∧ x < 2 ^ (bits - 1)

instance (bits : ℕ) : DecidablePred (InRange bits) :=
  fun x => inferInstanceAs (Decidable (-2 ^ (bits - 1) ≤ x ∧ x < 2 ^ (bits - 1)))

variable (bits : ℕ)

def checked (x : ℤ) : Option ℤ := if InRange bits x then some x else none

def add (x y : ℤ) : Option ℤ := checked bits (x + y)

def sub (x y : ℤ) : Option ℤ := checked bits (x - y)

def mul (x y : ℤ) : Option ℤ := checked bits (x * y)

/-- `x / y`, rounded towards zero. -/
def div (x y : ℤ) : Option ℤ := if y = 0 then none else checked bits (x.tdiv y)

/-- `x % y`, of the sign of `x`; it has a value when `x / y` has. -/
def mod (x y : ℤ) : Option ℤ := (div bits x y).map fun _ => x.tmod y

variable {α : Type*}

/-- What is left of a loop that counts `i` up to `n`, with the results of its rounds. -/
def loopFrom (n : ℤ) (body : ℤ → Option α) : ℕ → ℤ → Option (List α)
  | 0, _ => some []
  | rounds + 1, i =>
      if i < n then
        (body i).bind fun a => (add bits i 1).bind fun j => (loopFrom n body rounds j).map (a :: ·)
      else some []

/-- `for (i = 0; i < n; ++i)`. -/
def loop (n : ℤ) (body : ℤ → Option α) : Option (List α) := loopFrom bits n body n.toNat 0

variable {bits} {x y z n : ℤ}

theorem InRange.mono (hx : InRange bits x) (hz : InRange bits z) (hxy : x ≤ y) (hyz : y ≤ z) :
    InRange bits y :=
  ⟨hx.1.trans hxy, lt_of_le_of_lt hyz hz.2⟩

theorem inRange_zero : InRange bits 0 := by
  have h : (0 : ℤ) < 2 ^ (bits - 1) := Int.pow_pos (by decide)
  exact ⟨by omega, h⟩

/-- What lies between 0 and a value is a value. -/
theorem InRange.of_le (hx : InRange bits x) (hy : 0 ≤ y) (hyx : y ≤ x) : InRange bits y :=
  inRange_zero.mono hx hy hyx

/-- The product of two values fits in as many bits as they have together. -/
theorem InRange.mul {m n : ℕ} (hx : InRange m x) (hy : InRange n y) (hx0 : 0 ≤ x) (hy0 : 0 ≤ y) :
    InRange (m + n) (x * y) := by
  have hlt : x * y < 2 ^ (m + n - 1) :=
    calc x * y < 2 ^ (m - 1) * 2 ^ (n - 1) := mul_lt_mul'' hx.2 hy.2 hx0 hy0
      _ = 2 ^ (m - 1 + (n - 1)) := (pow_add _ _ _).symm
      _ ≤ 2 ^ (m + n - 1) := pow_le_pow_right₀ (by decide) (by omega)
  have hneg : -2 ^ (m + n - 1) ≤ (0 : ℤ) := inRange_zero.1
  exact ⟨hneg.trans (mul_nonneg hx0 hy0), hlt⟩

theorem checked_eq (h : InRange bits x) : checked bits x = some x := if_pos h

theorem checked_eq_none_iff : checked bits x = none ↔ ¬ InRange bits x := by
  unfold checked
  split <;> simp [*]

theorem add_eq (h : InRange bits (x + y)) : add bits x y = some (x + y) := checked_eq h

theorem add_eq_none_iff : add bits x y = none ↔ ¬ InRange bits (x + y) := checked_eq_none_iff

theorem sub_eq (h : InRange bits (x - y)) : sub bits x y = some (x - y) := checked_eq h

theorem mul_eq (h : InRange bits (x * y)) : mul bits x y = some (x * y) := checked_eq h

/-- No quotient of two positive values overflows. -/
theorem div_eq (hx : InRange bits x) (hpos : 0 ≤ x) (hy : 0 < y) :
    div bits x y = some (x.tdiv y) := by
  have hle : x.tdiv y ≤ x := Int.tdiv_le_self y hpos
  unfold div
  rw [if_neg hy.ne', checked_eq (hx.of_le (Int.tdiv_nonneg hpos hy.le) hle)]

theorem mod_eq (hx : InRange bits x) (hpos : 0 ≤ x) (hy : 0 < y) :
    mod bits x y = some (x.tmod y) := by
  unfold mod
  rw [div_eq hx hpos hy]
  rfl

/-- A remainder, as an index. -/
theorem mod_spec (hx : InRange bits x) (hpos : 0 ≤ x) (hy : 0 < y) :
    ∃ r, mod bits x y = some r ∧ 0 ≤ r ∧ r < y :=
  ⟨_, mod_eq hx hpos hy, Int.tmod_nonneg y hpos, Int.tmod_lt_of_pos x hy⟩

/-- Quotient and remainder make up the dividend. -/
theorem div_mod_spec (hx : InRange bits x) (hpos : 0 ≤ x) (hy : 0 < y) :
    ∃ q r, div bits x y = some q ∧ mod bits x y = some r ∧ 0 ≤ q ∧ 0 ≤ r ∧ r < y ∧ q * y + r = x :=
  ⟨_, _, div_eq hx hpos hy, mod_eq hx hpos hy, Int.tdiv_nonneg hpos hy.le, Int.tmod_nonneg y hpos,
    Int.tmod_lt_of_pos x hy, Int.mul_comm y _ ▸ Int.mul_tdiv_add_tmod x y⟩

/-- The rule for a counting loop: when each round has a value, so has the loop. -/
theorem loopFrom_spec {f : ℤ → Option α} {P : ℤ → α → Prop} (hn : InRange bits n)
    (hf : ∀ i, 0 ≤ i → i < n → ∃ a, f i = some a ∧ P i a) {rounds : ℕ} {i : ℤ} (hi : 0 ≤ i)
    (hrounds : i + rounds = n) :
    ∃ l, loopFrom bits n f rounds i = some l ∧ l.length = rounds ∧
      ∀ a ∈ l, ∃ j, 0 ≤ j ∧ j < n ∧ P j a := by
  induction rounds generalizing i with
  | zero => exact ⟨[], rfl, rfl, List.forall_mem_nil _⟩
  | succ rounds ih =>
    have hlt : i < n := by omega
    obtain ⟨a, ha, hP⟩ := hf i hi hlt
    have hnext : add bits i 1 = some (i + 1) := add_eq (hn.of_le (by omega) (by omega))
    obtain ⟨l, hl, hlen, hmem⟩ := ih (i := i + 1) (by omega) (by omega)
    refine ⟨a :: l, ?_, congrArg Nat.succ hlen, List.forall_mem_cons.mpr ⟨⟨i, hi, hlt, hP⟩, hmem⟩⟩
    rw [loopFrom, if_pos hlt, ha, Option.bind_some, hnext, Option.bind_some, hl]
    rfl

theorem loop_spec {f : ℤ → Option α} {P : ℤ → α → Prop} (hn : InRange bits n) (hpos : 0 ≤ n)
    (hf : ∀ i, 0 ≤ i → i < n → ∃ a, f i = some a ∧ P i a) :
    ∃ l, loop bits n f = some l ∧ l.length = n.toNat ∧ ∀ a ∈ l, ∃ j, 0 ≤ j ∧ j < n ∧ P j a :=
  loopFrom_spec hn hf le_rfl (by omega)

/-- The results of a counting loop whose rounds have the values of a function. -/
theorem loopFrom_eq {f : ℤ → Option α} {g : ℕ → α} (hn : InRange bits n)
    (hf : ∀ j : ℕ, (j : ℤ) < n → f j = some (g j)) {rounds i : ℕ} (hrounds : (i + rounds : ℤ) = n) :
    loopFrom bits n f rounds i = some ((List.range' i rounds).map g) := by
  induction rounds generalizing i with
  | zero => rfl
  | succ rounds ih =>
    have hlt : (i : ℤ) < n := by omega
    have hnext : add bits (i : ℤ) 1 = some ((i + 1 : ℕ) : ℤ) := add_eq (hn.of_le (by omega) (by omega))
    rw [loopFrom, if_pos hlt, hf i hlt, Option.bind_some, hnext, Option.bind_some,
      ih (by push_cast at hrounds ⊢; omega)]
    rfl

theorem loop_eq {f : ℤ → Option α} {g : ℕ → α} (hn : InRange bits n) (hpos : 0 ≤ n)
    (hf : ∀ j : ℕ, (j : ℤ) < n → f j = some (g j)) :
    loop bits n f = some ((List.range n.toNat).map g) := by
  rw [List.range_eq_range']
  exact loopFrom_eq (i := 0) hn hf (by omega)

end CInt
