import Mathlib.Data.List.Basic

/-! A journal: a history in which every event is judged by what came before it.

    `Kept good l` says that each event of `l` is good for the events in front of it. A journal grows
    at its end, so the new event is the only one to judge (`kept_append`).

        e₁   e₂   e₃ …   eₙ │ e        good [e₁, …, eₙ] e ? -/

namespace Journal

variable {α : Type*}

/-- Every event is good for what came before it. -/
def Kept (good : List α → α → Prop) (l : List α) : Prop :=
  ∀ pre e post, l = pre ++ e :: post → good pre e

variable {good : List α → α → Prop} {l : List α}

theorem kept_nil : Kept good [] := fun pre e post h => by simp at h

/-- One more event, good for all there was. -/
theorem kept_append (hl : Kept good l) {e : α} (he : good l e) : Kept good (l ++ [e]) := by
  intro pre x post h
  rcases List.eq_nil_or_concat post with rfl | ⟨post, y, rfl⟩
  · obtain ⟨rfl, hx⟩ := List.append_inj' h rfl
    obtain rfl := List.singleton_inj.mp hx
    exact he
  · have h' : l ++ [e] = (pre ++ x :: post) ++ [y] := by simpa using h
    exact hl pre x post (List.append_inj' h' rfl).1

/-- What came before an event was kept. -/
theorem kept_of_append {l' : List α} (h : Kept good (l ++ l')) : Kept good l := by
  rintro pre e post rfl
  exact h pre e (post ++ l') (by simp)

/-- The last event is good for all the others. -/
theorem good_of_append {e : α} (h : Kept good (l ++ [e])) : good l e := h l e [] rfl

/-- Events that are good whatever came before them. -/
theorem kept_append_list (hl : Kept good l) {es : List α} (hes : ∀ e ∈ es, ∀ pre, good pre e) :
    Kept good (l ++ es) := by
  induction es generalizing l with
  | nil => simpa using hl
  | cons e es ih =>
    rw [List.append_cons]
    exact ih (kept_append hl (hes e List.mem_cons_self l)) fun x hx =>
      hes x (List.mem_cons_of_mem _ hx)

/-- The journal around the event at place `n`. -/
theorem eq_append_of_getElem? {n : ℕ} {e : α} (h : l[n]? = some e) :
    l = l.take n ++ e :: l.drop (n + 1) := by
  obtain ⟨hn, rfl⟩ := List.getElem?_eq_some_iff.mp h
  rw [← List.drop_eq_getElem_cons hn, List.take_append_drop]

end Journal
