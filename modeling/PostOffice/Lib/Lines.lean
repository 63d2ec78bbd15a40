import Mathlib.Data.List.Nodup

/-! The lines of a text. A separator ends a line; `ends` lists the separators from left to right,
    each with its position and the length of the line it ends:

        a b ▮ ▮ c ▮ d        ends = [(2, 2), (3, 0), (5, 1)]

    A line of length 0 is one that begins the text or comes directly after another separator. -/

namespace Lines

variable {α : Type*} [DecidableEq α] (sep : α)

/-- The separators of a text that begins at position `pos`, `col` elements into a line. -/
def ends : ℕ → ℕ → List α → List (ℕ × ℕ)
  | _, _, [] => []
  | pos, col, a :: l =>
      if a = sep then (pos, col) :: ends (pos + 1) 0 l else ends (pos + 1) (col + 1) l

variable {sep} {pos col i n m : ℕ} {l run : List α}

/-- Further on in a line. -/
theorem ends_append (h : sep ∉ run) :
    ends sep pos col (run ++ l) = ends sep (pos + run.length) (col + run.length) l := by
  induction run generalizing pos col with
  | nil => rfl
  | cons a run ih =>
    obtain ⟨ha, hrun⟩ := not_or.mp (h ∘ List.mem_cons.mpr)
    rw [List.cons_append, ends, if_neg (Ne.symm ha), ih hrun, List.length_cons]
    congr 1 <;> omega

theorem ends_sep : ends sep pos col (sep :: l) = (pos, col) :: ends sep (pos + 1) 0 l := by
  rw [ends, if_pos rfl]

theorem le_of_mem_ends (h : (i, n) ∈ ends sep pos col l) : pos ≤ i := by
  induction l generalizing pos col with
  | nil => cases h
  | cons a l ih =>
    unfold ends at h
    split at h
    · rcases List.mem_cons.mp h with h | h
      · exact Nat.le_of_eq (congrArg Prod.fst h).symm
      · exact Nat.le_of_succ_le (ih h)
    · exact Nat.le_of_succ_le (ih h)

/-- The separators are listed once each. -/
theorem nodup_ends : ((ends sep pos col l).map Prod.fst).Nodup := by
  induction l generalizing pos col with
  | nil => exact List.nodup_nil
  | cons a l ih =>
    unfold ends
    split
    · rw [List.map_cons, List.nodup_cons]
      refine ⟨fun h => ?_, ih⟩
      obtain ⟨⟨i, n⟩, hmem, rfl⟩ := List.mem_map.mp h
      exact absurd (le_of_mem_ends hmem) (Nat.not_succ_le_self i)
    · exact ih

/-- A separator ends one line. -/
theorem ends_unique (hn : (i, n) ∈ ends sep pos col l) (hm : (i, m) ∈ ends sep pos col l) :
    n = m :=
  congrArg Prod.snd (List.inj_on_of_nodup_map nodup_ends hn hm rfl)

/-- A line of length 0: there is nothing between its separator and the one before. -/
theorem mem_ends_zero_add : (pos + i, 0) ∈ ends sep pos col l ↔
    l[i]? = some sep ∧ (i = 0 ∧ col = 0 ∨ 0 < i ∧ l[i - 1]? = some sep) := by
  induction l generalizing pos col i with
  | nil => simp [ends]
  | cons a l ih =>
    have hlater (col') : (pos, 0) ∉ ends sep (pos + 1) col' l := fun h =>
      Nat.not_succ_le_self pos (le_of_mem_ends h)
    cases i with
    | zero =>
      by_cases ha : a = sep
      · simp [ends, ha, hlater, eq_comm]
      · simp [ends, ha, hlater]
    | succ j =>
      have hpos : pos + (j + 1) = pos + 1 + j := by omega
      have hhead : (pos + 1 + j, 0) ≠ (pos, col) := fun h => by
        have := congrArg Prod.fst h
        dsimp only at this
        omega
      by_cases ha : a = sep
      · rw [hpos, ends, if_pos ha, List.mem_cons, or_iff_right hhead, ih]
        cases j <;> simp [ha]
      · rw [hpos, ends, if_neg ha, ih]
        cases j <;> simp [ha]

theorem mem_ends_zero : (i, 0) ∈ ends sep 0 0 l ↔
    l[i]? = some sep ∧ (i = 0 ∨ 0 < i ∧ l[i - 1]? = some sep) := by
  have h := @mem_ends_zero_add α _ sep 0 0 i l
  rw [Nat.zero_add] at h
  simpa using h

/-! ### The end of a text -/

/-- How far into its last line a text ends, when it begins at column `col`. -/
def column (sep : α) (col : ℕ) (l : List α) : ℕ :=
  l.foldl (fun col a => if a = sep then 0 else col + 1) col

theorem column_run (h : sep ∉ run) :
    column sep col (run ++ l) = column sep (col + run.length) l := by
  induction run generalizing col with
  | nil => rfl
  | cons a run ih =>
    obtain ⟨ha, hrun⟩ := not_or.mp (h ∘ List.mem_cons.mpr)
    have hstep : column sep col (a :: (run ++ l)) = column sep (col + 1) (run ++ l) := by
      simp [column, Ne.symm ha]
    rw [List.cons_append, hstep, ih hrun, List.length_cons]
    congr 1
    omega

theorem column_sep : column sep col (run ++ sep :: l) = column sep 0 l := by
  simp [column, List.foldl_append]

/-- The first line of a text is what stands before the first separator. -/
theorem takeWhile_line (h : sep ∉ run) : (run ++ sep :: l).takeWhile (fun a => a ≠ sep) = run := by
  rw [List.takeWhile_append_of_pos fun a ha => decide_eq_true (ne_of_mem_of_not_mem ha h),
    List.takeWhile_cons_of_neg (by simp), List.append_nil]

/-- A text of whole lines, each ended by its separator, is only one list of lines. -/
theorem flatten_inj {ls ls' : List (List α)} (h : ∀ l ∈ ls, ∃ body, l = body ++ [sep] ∧ sep ∉ body)
    (h' : ∀ l ∈ ls', ∃ body, l = body ++ [sep] ∧ sep ∉ body) (heq : ls.flatten = ls'.flatten) :
    ls = ls' := by
  induction ls generalizing ls' with
  | nil =>
    cases ls' with
    | nil => rfl
    | cons l' ls' =>
      obtain ⟨body, rfl, -⟩ := h' l' List.mem_cons_self
      simp at heq
  | cons l ls ih =>
    obtain ⟨body, rfl, hbody⟩ := h l List.mem_cons_self
    cases ls' with
    | nil => simp at heq
    | cons l' ls' =>
      obtain ⟨body', rfl, hbody'⟩ := h' l' List.mem_cons_self
      simp only [List.flatten_cons, List.append_assoc, List.singleton_append] at heq
      have hline := congrArg (List.takeWhile fun a => a ≠ sep) heq
      rw [takeWhile_line hbody, takeWhile_line hbody'] at hline
      subst hline
      have hrest := List.tail_eq_of_cons_eq (List.append_cancel_left heq)
      rw [ih (fun l hl => h l (List.mem_cons_of_mem _ hl))
        (fun l hl => h' l (List.mem_cons_of_mem _ hl)) hrest]

end Lines
