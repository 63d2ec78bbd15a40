import Mathlib.Algebra.Order.Ring.Int
import PostOffice.Lib.Scanf

/-! Integers in texts: what `%d` of `printf` writes, and what `strtol` reads.

        n ──%d──▶ "-"? digits
        white space, numeral, rest ──strtol──▶ the number, rest
        a text without a numeral in front ──strtol──▶ 0, the whole text -/

namespace Scanf

/-- `%d` and `%ld`. -/
def writeInt (n : ℤ) : List Char :=
  if n < 0 then '-' :: Nat.toDigits 10 n.natAbs else Nat.toDigits 10 n.natAbs

/-- The value that a `long` can have, nearest to a number. -/
def clampLong (v : ℤ) : ℤ := max (-2 ^ 63) (min v (2 ^ 63 - 1))

/-- `strtol` to base ten: the number, and the text that the end pointer points to. -/
def strtol (l : List Char) : ℤ × List Char :=
  match readInt l with
  | none => (0, l)
  | some (v, rest) => (clampLong v, rest)

variable {l num sp : List Char} {v : ℤ}

theorem decimal_toDigits (n : ℕ) : decimal (Nat.toDigits 10 n) = n :=
  Nat.ofDigitChars_toDigits (by decide) le_rfl

/-- A number is written as a numeral. -/
theorem numeral_writeInt (n : ℤ) : Numeral (writeInt n) n := by
  have hdigits : ∀ ch ∈ Nat.toDigits 10 n.natAbs, ch.isDigit = true := fun ch hch =>
    Nat.isDigit_of_mem_toDigits (by decide) le_rfl hch
  unfold writeInt
  split
  · have h := Numeral.minus Nat.toDigits_ne_nil hdigits
    rwa [decimal_toDigits, show -(n.natAbs : ℤ) = n by omega] at h
  · have h := Numeral.plain Nat.toDigits_ne_nil hdigits
    rwa [decimal_toDigits, show (n.natAbs : ℤ) = n by omega] at h

/-- Twenty characters are enough for a `long`. -/
theorem length_writeInt_le {n : ℤ} (hmin : -2 ^ 63 ≤ n) (hmax : n < 2 ^ 63) :
    (writeInt n).length ≤ 20 := by
  have hlen : (Nat.toDigits 10 n.natAbs).length ≤ 19 :=
    (Nat.length_toDigits_le_iff (by decide) (by decide)).mpr (by omega)
  unfold writeInt
  split
  · exact Nat.succ_le_succ hlen
  · omega

/-- A numeral, and nothing behind it. -/
theorem strtol_of_numeral (hsp : Blank sp) (hnum : Numeral num v) :
    strtol (sp ++ num) = (clampLong v, []) := by
  have h : readInt (sp ++ num) = some (v, []) :=
    readInt_eq_some_iff.mpr ⟨sp, num, hsp, by simp, hnum, fun _ h => by cases h⟩
  rw [strtol, h]

theorem strtol_writeInt {n : ℤ} (hmin : -2 ^ 63 ≤ n) (hmax : n < 2 ^ 63) :
    strtol (writeInt n) = (n, []) := by
  have h := strtol_of_numeral blank_nil (numeral_writeInt n)
  rw [List.nil_append] at h
  rw [h, clampLong, min_eq_left (by omega), max_eq_right hmin]

/-- The text is read to its end: it is a numeral, after white space, or empty. -/
theorem strtol_end_iff : (strtol l).2 = [] ↔
    l = [] ∨ ∃ sp num v, Blank sp ∧ l = sp ++ num ∧ Numeral num v := by
  constructor
  · intro h
    unfold strtol at h
    split at h
    · exact .inl h
    · rename_i v rest hread
      subst h
      obtain ⟨sp, num, hsp, rfl, hnum, -⟩ := readInt_eq_some_iff.mp hread
      exact .inr ⟨sp, num, v, hsp, by simp, hnum⟩
  · rintro (rfl | ⟨sp, num, v, hsp, rfl, hnum⟩)
    · rfl
    · rw [strtol_of_numeral hsp hnum]

end Scanf
