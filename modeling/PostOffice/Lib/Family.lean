import Mathlib.Algebra.BigOperators.Group.Finset.Basic
import Mathlib.Algebra.BigOperators.Group.Finset.Piecewise
import Mathlib.Algebra.Order.BigOperators.Group.Finset
import Mathlib.Algebra.Field.Rat
import Mathlib.Data.Fintype.Card
import Mathlib.Data.Fintype.Basic

/-! Sums over a finite family of components of which one changes at a time.

    A system of processes has a state `x : ι → α`; a step of component `i` is
    `Function.update x i a`. What the processes hold together is `total f x`, the sum of `f j (x j)`
    over all `j`, and the step changes it by the one term: `total_update`. It is stated without
    subtraction, so that a linear decision procedure can use it. -/

namespace Family

/-- A change of one component that `p` does not see. -/
theorem update_of_eq {ι α β : Type*} [DecidableEq ι] (p : α → β) {x : ι → α} {i : ι} {a : α}
    (h : p a = p (x i)) (j : ι) : p (Function.update x i a j) = p (x j) := by
  rw [Function.update_apply]
  split
  · rw [h, ‹j = i›]
  · rfl

variable {ι : Type*} [Fintype ι] {α : Type*}

/-- What the components hold together. -/
def total (f : ι → α → ℕ) (x : ι → α) : ℕ := ∑ j, f j (x j)

/-- Two totals that differ in one component. -/
theorem total_exchange (f g : ι → α → ℕ) (x y : ι → α) (i : ι)
    (h : ∀ j, j ≠ i → f j (x j) = g j (y j)) :
    total f x + g i (y i) = total g y + f i (x i) := by
  classical
  have hf := Finset.add_sum_erase Finset.univ (fun j => f j (x j)) (Finset.mem_univ i)
  have hg := Finset.add_sum_erase Finset.univ (fun j => g j (y j)) (Finset.mem_univ i)
  have hrest : ∑ j ∈ Finset.univ.erase i, f j (x j) = ∑ j ∈ Finset.univ.erase i, g j (y j) :=
    Finset.sum_congr rfl fun j hj => h j (Finset.ne_of_mem_erase hj)
  unfold total
  omega

/-- One component changes: the total exchanges its old term for the new one. -/
theorem total_update [DecidableEq ι] (f : ι → α → ℕ) (x : ι → α) (i : ι) (a : α) :
    total f (Function.update x i a) + f i (x i) = total f x + f i a := by
  have h := total_exchange f f (Function.update x i a) x i fun j hj => by
    rw [Function.update_of_ne hj]
  rwa [Function.update_self] at h

/-- One component gains one unit. -/
theorem total_update_succ [DecidableEq ι] {f : ι → α → ℕ} {x : ι → α} {i : ι} {a : α}
    (h : f i a = f i (x i) + 1) : total f (Function.update x i a) = total f x + 1 := by
  have := total_update f x i a
  omega

/-- A change that the total does not see. -/
theorem total_update_eq [DecidableEq ι] {f : ι → α → ℕ} {x : ι → α} {i : ι} {a : α}
    (h : f i a = f i (x i)) : total f (Function.update x i a) = total f x := by
  have := total_update f x i a
  omega

/-- A term is at most the total. -/
theorem le_total (f : ι → α → ℕ) (x : ι → α) (i : ι) : f i (x i) ≤ total f x := by
  classical
  have := Finset.add_sum_erase Finset.univ (fun j => f j (x j)) (Finset.mem_univ i)
  unfold total
  omega

/-- Two terms are at most the total. -/
theorem add_le_total (f : ι → α → ℕ) (x : ι → α) {i j : ι} (hij : i ≠ j) :
    f i (x i) + f j (x j) ≤ total f x := by
  classical
  have hi := Finset.add_sum_erase Finset.univ (fun k => f k (x k)) (Finset.mem_univ i)
  have hj := Finset.single_le_sum (f := fun k => f k (x k)) (fun k _ => Nat.zero_le _)
    (Finset.mem_erase.mpr ⟨hij.symm, Finset.mem_univ j⟩)
  unfold total
  omega

theorem total_eq_zero {f : ι → α → ℕ} {x : ι → α} (h : ∀ i, f i (x i) = 0) : total f x = 0 :=
  Finset.sum_eq_zero fun i _ => h i

/-- The same for each component. -/
theorem total_eq_card_mul {f : ι → α → ℕ} {x : ι → α} {k : ℕ} (h : ∀ i, f i (x i) = k) :
    total f x = Fintype.card ι * k := by
  unfold total
  rw [Finset.sum_const_nat fun i _ => h i, Finset.card_univ]

theorem total_congr {f g : ι → α → ℕ} {x y : ι → α} (h : ∀ i, f i (x i) = g i (y i)) :
    total f x = total g y :=
  Finset.sum_congr rfl fun i _ => h i

theorem total_le_total {f g : ι → α → ℕ} {x : ι → α} (h : ∀ i, f i (x i) ≤ g i (x i)) :
    total f x ≤ total g x :=
  Finset.sum_le_sum fun i _ => h i

/-- Componentwise at most, and less by one in some component. -/
theorem total_lt_total {f g : ι → α → ℕ} {x : ι → α} (h : ∀ i, f i (x i) ≤ g i (x i)) (i : ι)
    (hi : f i (x i) < g i (x i)) : total f x < total g x :=
  Finset.sum_lt_sum (fun j _ => h j) ⟨i, Finset.mem_univ i, hi⟩

/-- Componentwise at most, and less by `d` in some component. -/
theorem total_add_le {f g : ι → α → ℕ} {x y : ι → α} {d : ℕ} (h : ∀ j, f j (x j) ≤ g j (y j))
    (i : ι) (hi : f i (x i) + d ≤ g i (y i)) : total f x + d ≤ total g y := by
  classical
  have hf := Finset.add_sum_erase Finset.univ (fun j => f j (x j)) (Finset.mem_univ i)
  have hg := Finset.add_sum_erase Finset.univ (fun j => g j (y j)) (Finset.mem_univ i)
  have hrest : ∑ j ∈ Finset.univ.erase i, f j (x j) ≤ ∑ j ∈ Finset.univ.erase i, g j (y j) :=
    Finset.sum_le_sum fun j _ => h j
  unfold total
  omega

/-- At most one unit for each component: the total is at most their number. -/
theorem total_le_card (f : ι → α → ℕ) (x : ι → α) (hle : ∀ i, f i (x i) ≤ 1) :
    total f x ≤ Fintype.card ι := by
  rw [← Finset.card_univ, Finset.card_eq_sum_ones]
  exact Finset.sum_le_sum fun i _ => hle i

/-- At most `k` units for each component and `k` times as many as components: each has `k`. -/
theorem eq_of_card_mul_le (f : ι → α → ℕ) (x : ι → α) {k : ℕ} (hle : ∀ i, f i (x i) ≤ k)
    (hcard : Fintype.card ι * k ≤ total f x) (i : ι) : f i (x i) = k := by
  by_contra hi
  have hlt : ∑ j, f j (x j) < ∑ _j : ι, k :=
    Finset.sum_lt_sum (fun j _ => hle j) ⟨i, Finset.mem_univ i, by have := hle i; omega⟩
  rw [Finset.sum_const_nat fun _ _ => rfl, Finset.card_univ] at hlt
  exact absurd hcard (Nat.not_le.mpr hlt)

/-- One component gains `d`, in any commutative monoid. -/
theorem sum_update_add [DecidableEq ι] {M : Type*} [AddCommMonoid M] (f : α → M) {x : ι → α} {i : ι}
    {a : α} {d : M} (h : f a = f (x i) + d) :
    ∑ j, f (Function.update x i a j) = ∑ j, f (x j) + d := by
  have hterm (j : ι) : f (Function.update x i a j) = f (x j) + if j = i then d else 0 := by
    by_cases hj : j = i
    · subst hj
      rw [Function.update_self, if_pos rfl, h]
    · rw [Function.update_of_ne hj, if_neg hj, add_zero]
  simp only [hterm, Finset.sum_add_distrib, Finset.sum_ite_eq', Finset.mem_univ, if_true]

/-- Each class shares its weight among its members: all the shares together are the weights of the
    classes that have members. -/
theorem sum_share {κ : Type*} [DecidableEq κ] (f : ι → κ) (a : κ → ℚ) :
    ∑ i, a (f i) / (Finset.univ.filter fun j => f j = f i).card = ∑ q ∈ Finset.univ.image f, a q := by
  refine (Finset.sum_image' _ fun i _ => ?_).symm
  have hconst : ∀ j ∈ Finset.univ.filter fun j => f j = f i,
      a (f j) / ((Finset.univ.filter fun k => f k = f j).card : ℚ) =
        a (f i) / (Finset.univ.filter fun k => f k = f i).card := by
    intro j hj
    rw [(Finset.mem_filter.mp hj).2]
  have hmem : i ∈ Finset.univ.filter fun j => f j = f i := by simp
  have hpos : ((Finset.univ.filter fun j => f j = f i).card : ℚ) ≠ 0 :=
    Nat.cast_ne_zero.mpr (Finset.card_ne_zero_of_mem hmem)
  rw [Finset.sum_congr rfl hconst, Finset.sum_const, nsmul_eq_mul, mul_div_cancel₀ _ hpos]

/-- A kind of element that is split into one kind for each component is counted by parts. -/
theorem sum_countP {β : Type*} {p : ι → β → Bool} {q : β → Bool}
    (h : ∀ b, ∑ i, (if p i b then 1 else 0) = if q b then 1 else 0) (l : List β) :
    ∑ i, l.countP (p i) = l.countP q := by
  induction l with
  | nil => simp
  | cons b l ih => simp only [List.countP_cons, Finset.sum_add_distrib, ih, h]

/-- Every element is of one of the kinds: there are at most as many as the kinds count together. -/
theorem length_le_sum_countP {β : Type*} {p : ι → β → Bool} {l : List β}
    (h : ∀ b ∈ l, ∃ i, p i b = true) : l.length ≤ ∑ i, l.countP (p i) := by
  induction l with
  | nil => exact Nat.zero_le _
  | cons b l ih =>
    obtain ⟨i, hi⟩ := h b List.mem_cons_self
    have hone : 1 ≤ ∑ j, (if p j b then 1 else 0) :=
      (if_pos hi).ge.trans (le_total (fun j (_ : Unit) => if p j b then 1 else 0) (fun _ => ()) i)
    have hrest := ih fun x hx => h x (List.mem_cons_of_mem b hx)
    simp only [List.countP_cons, Finset.sum_add_distrib, List.length_cons]
    omega

end Family
