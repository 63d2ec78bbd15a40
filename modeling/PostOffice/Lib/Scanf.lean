import Mathlib.Data.Int.Notation
import Mathlib.Data.List.Basic
import Mathlib.Data.List.TakeWhile

/-! Formatted input: the conversions `%<width>s` and `%d` of `fscanf` on a text.

    Both skip white space first. A word is the longest run of other characters, cut off at the
    width; an integer is an optional sign and the longest run of decimal digits. Each conversion is
    a function from the text to what it has read and the text that is left, and is characterized by
    how the text is written:

        text  =  white space ++ word or numeral ++ rest

    An integer that does not fit into an `int` is undefined in C; here it keeps its value. -/

namespace Scanf

/-- `isspace`. -/
def isSpace (ch : Char) : Bool :=
  ch = ' ' || ch = '\t' || ch = '\n' || ch = '\x0b' || ch = '\x0c' || ch = '\r'

/-- Nothing but white space. -/
def Blank (l : List Char) : Prop := ∀ ch ∈ l, isSpace ch = true

/-- The text does not begin with a character of the kind. -/
def NoHead (p : Char → Bool) (l : List Char) : Prop := ∀ ch ∈ l.head?, p ch = false

instance (l : List Char) : Decidable (Blank l) := inferInstanceAs (Decidable (∀ _ ∈ _, _))

theorem blank_nil : Blank [] := fun _ h => absurd h List.not_mem_nil

variable {l l' rest word : List Char} {p : Char → Bool} {ch : Char}

/-! ### Runs of characters -/

theorem noHead_cons : NoHead p (ch :: l) ↔ p ch = false := by simp [NoHead]

theorem noHead_append (hl : NoHead p l) (hne : l ≠ []) : NoHead p (l ++ l') := by
  cases l with
  | nil => exact absurd rfl hne
  | cons ch l => exact noHead_cons.mpr (noHead_cons.mp hl)

/-- The longest run is what is written before a character of another kind. -/
theorem takeWhile_run (hl : ∀ ch ∈ l, p ch = true) (hr : NoHead p rest) :
    (l ++ rest).takeWhile p = l := by
  have hrest : rest.takeWhile p = [] := by
    cases rest with
    | nil => rfl
    | cons ch rest => rw [List.takeWhile_cons, noHead_cons.mp hr]; rfl
  rw [List.takeWhile_append_of_pos hl, hrest, List.append_nil]

theorem dropWhile_run (hl : ∀ ch ∈ l, p ch = true) (hr : NoHead p rest) :
    (l ++ rest).dropWhile p = rest := by
  have hrest : rest.dropWhile p = rest := by
    cases rest with
    | nil => rfl
    | cons ch rest => rw [List.dropWhile_cons, noHead_cons.mp hr]; rfl
  rw [List.dropWhile_append_of_pos hl, hrest]

theorem noHead_dropWhile (l : List Char) : NoHead p (l.dropWhile p) := by
  have h := List.head?_dropWhile_not p l
  intro ch hch
  rw [Option.mem_def.mp hch] at h
  exact h

/-! ### `%<width>s` -/

/-- Skip white space, then read at most `width` other characters, at least one. -/
def readWord (width : ℕ) (l : List Char) : Option (List Char × List Char) :=
  let l := l.dropWhile isSpace
  let word := (l.takeWhile fun ch => !isSpace ch).take width
  if word = [] then none else some (word, l.drop word.length)

/-- The word a conversion of this width reads from the front of `word ++ rest`. -/
structure IsWord (width : ℕ) (word rest : List Char) : Prop where
  ne_nil : word ≠ []
  solid : ∀ ch ∈ word, isSpace ch = false
  fits : word.length ≤ width
  ends : word.length = width ∨ NoHead (fun ch => !isSpace ch) rest

theorem readWord_eq_some_iff {width : ℕ} : readWord width l = some (word, rest) ↔
    ∃ sp, Blank sp ∧ l = sp ++ (word ++ rest) ∧ IsWord width word rest := by
  constructor
  · intro h
    simp only [readWord] at h
    split at h
    · cases h
    rename_i hne
    cases h
    set run := (l.dropWhile isSpace).takeWhile fun ch => !isSpace ch with hrun
    have hprefix : run.take width <+: l.dropWhile isSpace :=
      (List.take_prefix _ _).trans (List.takeWhile_prefix _)
    refine ⟨l.takeWhile isSpace, fun ch hch => List.mem_takeWhile_imp hch, ?_, hne, ?_, ?_, ?_⟩
    · rw [List.prefix_iff_eq_append.mp hprefix, List.takeWhile_append_dropWhile]
    · intro ch hch
      simpa using List.mem_takeWhile_imp (List.mem_of_mem_take hch)
    · exact List.length_take_le width run
    · rcases Nat.lt_or_ge run.length width with hlt | hle
      · refine .inr ?_
        have hsplit : l.dropWhile isSpace =
            run ++ (l.dropWhile isSpace).dropWhile fun ch => !isSpace ch :=
          List.takeWhile_append_dropWhile.symm
        rw [List.take_of_length_le hlt.le,
          (congrArg (List.drop run.length) hsplit).trans List.drop_left]
        exact noHead_dropWhile _
      · exact .inl (List.length_take_of_le hle)
  · rintro ⟨sp, hsp, rfl, hne, hsolid, hfits, hends⟩
    have hhead : NoHead isSpace (word ++ rest) := by
      refine noHead_append ?_ hne
      intro ch hch
      exact hsolid ch (List.mem_of_mem_head? hch)
    have hsolid' : ∀ ch ∈ word, (!isSpace ch) = true := fun ch hch => by simp [hsolid ch hch]
    have hrun : ((word ++ rest).takeWhile fun ch => !isSpace ch).take width = word := by
      rcases hends with hlen | hrest
      · rw [List.takeWhile_append_of_pos hsolid', ← hlen, List.take_left]
      · rw [takeWhile_run hsolid' hrest, List.take_of_length_le hfits]
    simp only [readWord, dropWhile_run hsp hhead, hrun, if_neg hne, List.drop_left']

/-! ### `%d` -/

/-- The number that decimal digits stand for. -/
def decimal (ds : List Char) : ℕ := ds.foldl (fun n ch => 10 * n + (ch.toNat - '0'.toNat)) 0

/-- The digits of `%d`, after the sign. -/
def readDigits (sign : ℤ) (l : List Char) : Option (ℤ × List Char) :=
  let ds := l.takeWhile Char.isDigit
  if ds = [] then none else some (sign * decimal ds, l.dropWhile Char.isDigit)

/-- Skip white space, then read an optional sign and at least one digit. -/
def readInt (l : List Char) : Option (ℤ × List Char) :=
  match l.dropWhile isSpace with
  | [] => none
  | ch :: l =>
    if ch = '+' then readDigits 1 l else if ch = '-' then readDigits (-1) l
    else readDigits 1 (ch :: l)

/-- A decimal integer as it is written. -/
inductive Numeral : List Char → ℤ → Prop
  | plain {ds} (hne : ds ≠ []) (hds : ∀ ch ∈ ds, ch.isDigit = true) : Numeral ds (decimal ds)
  | plus {ds} (hne : ds ≠ []) (hds : ∀ ch ∈ ds, ch.isDigit = true) : Numeral ('+' :: ds) (decimal ds)
  | minus {ds} (hne : ds ≠ []) (hds : ∀ ch ∈ ds, ch.isDigit = true) :
      Numeral ('-' :: ds) (-decimal ds)

theorem readDigits_eq_some_iff {sign v : ℤ} : readDigits sign l = some (v, rest) ↔
    ∃ ds, ds ≠ [] ∧ (∀ ch ∈ ds, ch.isDigit = true) ∧ l = ds ++ rest ∧ NoHead Char.isDigit rest ∧
      v = sign * decimal ds := by
  constructor
  · intro h
    simp only [readDigits] at h
    split at h
    · cases h
    · rename_i hne
      cases h
      exact ⟨l.takeWhile Char.isDigit, hne, fun ch hch => List.mem_takeWhile_imp hch,
        List.takeWhile_append_dropWhile.symm, noHead_dropWhile l, rfl⟩
  · rintro ⟨ds, hne, hds, rfl, hrest, rfl⟩
    simp only [readDigits, takeWhile_run hds hrest, dropWhile_run hds hrest, if_neg hne]

theorem ne_of_isDigit {d : Char} (hch : ch.isDigit = true) (hd : d.isDigit = false) : ch ≠ d := by
  rintro rfl
  exact Bool.false_ne_true (hd.symm.trans hch)

/-- A digit is neither white space nor a sign. -/
theorem isSpace_of_isDigit (h : ch.isDigit = true) : isSpace ch = false := by
  simp [isSpace, ne_of_isDigit h]

theorem Numeral.ne_nil {num : List Char} {v : ℤ} (h : Numeral num v) : num ≠ [] := by
  cases h with
  | plain hne => exact hne
  | plus | minus => exact List.cons_ne_nil _ _

/-- A numeral begins behind the white space. -/
theorem Numeral.noHead {num : List Char} {v : ℤ} (h : Numeral num v) (rest : List Char) :
    NoHead isSpace (num ++ rest) := by
  cases h with
  | plain hne hds =>
    cases num with
    | nil => exact absurd rfl hne
    | cons d ds => exact noHead_cons.mpr (isSpace_of_isDigit (hds d List.mem_cons_self))
  | plus | minus => exact noHead_cons.mpr (by decide)

theorem readInt_eq_some_iff {v : ℤ} : readInt l = some (v, rest) ↔
    ∃ sp num, Blank sp ∧ l = sp ++ (num ++ rest) ∧ Numeral num v ∧ NoHead Char.isDigit rest := by
  constructor
  · intro h
    have hblank : Blank (l.takeWhile isSpace) := fun ch hch => List.mem_takeWhile_imp hch
    have hsplit := List.takeWhile_append_dropWhile (p := isSpace) (l := l)
    unfold readInt at h
    split at h
    · cases h
    rename_i ch l' hl
    rw [hl] at hsplit
    split at h
    · rename_i hch
      obtain ⟨ds, hne, hds, rfl, hrest, rfl⟩ := readDigits_eq_some_iff.mp h
      subst hch
      exact ⟨_, '+' :: ds, hblank, hsplit.symm, by simpa using .plus hne hds, hrest⟩
    split at h
    · rename_i hch
      obtain ⟨ds, hne, hds, rfl, hrest, rfl⟩ := readDigits_eq_some_iff.mp h
      subst hch
      exact ⟨_, '-' :: ds, hblank, hsplit.symm, by simpa using .minus hne hds, hrest⟩
    · obtain ⟨ds, hne, hds, heq, hrest, rfl⟩ := readDigits_eq_some_iff.mp h
      rw [heq] at hsplit
      exact ⟨_, ds, hblank, hsplit.symm, by simpa using .plain hne hds, hrest⟩
  · rintro ⟨sp, num, hsp, rfl, hnum, hrest⟩
    unfold readInt
    rw [dropWhile_run hsp (hnum.noHead rest)]
    cases hnum with
    | plus hne hds => exact readDigits_eq_some_iff.mpr ⟨_, hne, hds, rfl, hrest, by simp⟩
    | minus hne hds => exact readDigits_eq_some_iff.mpr ⟨_, hne, hds, rfl, hrest, by simp⟩
    | plain hne hds =>
      cases num with
      | nil => exact absurd rfl hne
      | cons d ds =>
        have hd := hds d List.mem_cons_self
        have hplus : d ≠ '+' := ne_of_isDigit hd (by decide)
        have hminus : d ≠ '-' := ne_of_isDigit hd (by decide)
        simp only [List.cons_append, if_neg hplus, if_neg hminus]
        exact readDigits_eq_some_iff.mpr ⟨_, hne, hds, rfl, hrest, by simp⟩

end Scanf
