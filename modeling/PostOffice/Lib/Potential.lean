import Mathlib.Algebra.BigOperators.Group.List.Basic
import Mathlib.Algebra.Order.Ring.Nat
import PostOffice.Lib.Transition

/-! How long a transition system can work. A potential `φ` pays for the work when every action that
    works lowers it, and every other action raises it by at most its price:

        φ s  ──work──▶  < φ s          φ s  ──other──▶  ≤ φ s + price

    Then a run works at most as often as its first potential and the prices of its actions allow,
    and from every state it can work on until it is at rest. Where this holds only on the way to a
    goal, a run does so up to the goal. -/

namespace Transition

variable {S A : Type*} {step : S → A → Option S} {ok : S → A → Prop} {φ : S → ℕ} {work : A → Bool}
  {price : A → ℕ} {s₀ s s' : S}

/-- The potential pays for the action. -/
def Pays (φ : S → ℕ) (work : A → Bool) (price : A → ℕ) (s : S) (a : A) (s' : S) : Prop :=
  φ s' + (if work a then 1 else 0) ≤ φ s + price a

/-- A run from a state on the way comes through the goal, or it is still on the way at its end and
    has paid for its work. -/
theorem goal_or_countP_work_le {P G : S → Prop}
    (hstep : ∀ s a s', Reach step s₀ s → P s → ¬ G s → step s a = some s' →
      P s' ∧ Pays φ work price s a s')
    {as : List A} (hr : Reach step s₀ s) (hP : P s) (he : exec step as s = some s') :
    (∃ bs cs t, as = bs ++ cs ∧ exec step bs s = some t ∧ G t) ∨
      P s' ∧ as.countP work + φ s' ≤ φ s + (as.map price).sum := by
  induction as generalizing s with
  | nil =>
    obtain rfl := Option.some.inj he
    exact .inr ⟨hP, by simp⟩
  | cons a as ih =>
    by_cases hG : G s
    · exact .inl ⟨[], a :: as, s, rfl, rfl, hG⟩
    obtain ⟨t, ht, he⟩ := Option.bind_eq_some_iff.mp he
    obtain ⟨hPt, hfirst⟩ := hstep s a t hr hP hG ht
    rcases ih (hr.tail trivial ht) hPt he with ⟨bs, cs, u, rfl, hu, hGu⟩ | ⟨hP', hrest⟩
    · exact .inl ⟨a :: bs, cs, u, rfl, by simp [exec, ht, hu], hGu⟩
    · refine .inr ⟨hP', ?_⟩
      unfold Pays at hfirst
      rw [List.countP_cons, List.map_cons, List.sum_cons]
      omega

/-- Every run pays for its work. -/
theorem countP_work_le
    (hpays : ∀ s a s', Reach step s₀ s → step s a = some s' → Pays φ work price s a s')
    {as : List A} (hr : Reach step s₀ s) (he : exec step as s = some s') :
    as.countP work + φ s' ≤ φ s + (as.map price).sum := by
  rcases goal_or_countP_work_le (P := fun _ => True) (G := fun _ => False)
    (fun s a t hs _ _ ht => ⟨trivial, hpays s a t hs ht⟩) hr trivial he with h | h
  · obtain ⟨bs, cs, t, -, -, hfalse⟩ := h
    exact hfalse.elim
  · exact h.2

/-- Repeating one action leads to the goal, where on the way it is always enabled and comes nearer. -/
theorem exists_replicate (φ : S → ℕ) {P G : S → Prop} {a : A}
    (hstep : ∀ s, P s → ¬ G s → ∃ s', step s a = some s' ∧ (G s' ∨ P s' ∧ φ s' < φ s)) (hP : P s) :
    ∃ n s', exec step (List.replicate n a) s = some s' ∧ G s' := by
  induction hn : φ s using Nat.strongRecOn generalizing s with
  | _ n ih =>
    by_cases hG : G s
    · exact ⟨0, s, rfl, hG⟩
    obtain ⟨t, ht, hGt | ⟨hPt, hlt⟩⟩ := hstep s hP hG
    · exact ⟨1, t, by simp [exec, ht], hGt⟩
    · obtain ⟨k, s', he, hG'⟩ := ih (φ t) (hn ▸ hlt) hPt rfl
      exact ⟨k + 1, s', by simp [List.replicate_succ, exec, ht, he], hG'⟩

/-- Nothing allowed is left to do. -/
def AtRest (step : S → A → Option S) (ok : S → A → Prop) (work : A → Bool) (s : S) : Prop :=
  ∀ a s', work a = true → ok s a → step s a ≠ some s'

/-- From every state the system can work on until it is at rest. -/
theorem exists_rest
    (hdec : ∀ s a s', ReachBy step ok s₀ s → work a = true → ok s a → step s a = some s' →
      φ s' < φ s) (h : ReachBy step ok s₀ s) :
    ∃ as s', exec step as s = some s' ∧ Allowed step ok as s ∧ (∀ a ∈ as, work a = true) ∧
      as.length ≤ φ s ∧ AtRest step ok work s' := by
  induction hn : φ s using Nat.strongRecOn generalizing s with
  | _ n ih =>
    by_cases hrest : AtRest step ok work s
    · exact ⟨[], s, rfl, trivial, fun _ ha => absurd ha List.not_mem_nil, Nat.zero_le _, hrest⟩
    · unfold AtRest at hrest
      push Not at hrest
      obtain ⟨a, t, hwork, hok, ht⟩ := hrest
      have hlt : φ t < n := hn ▸ hdec s a t h hwork hok ht
      obtain ⟨as, s', he, hallowed, hworks, hlen, hrest⟩ := ih (φ t) hlt (h.tail hok ht) rfl
      refine ⟨a :: as, s', by simp [exec, ht, he], ⟨hok, fun x hx => ?_⟩, ?_, ?_, hrest⟩
      · obtain rfl := Option.some.inj (ht.symm.trans hx)
        exact hallowed
      · exact List.forall_mem_cons.mpr ⟨hwork, hworks⟩
      · rw [List.length_cons]
        omega

end Transition
