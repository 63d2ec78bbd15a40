import Mathlib.Data.Option.Basic

/-! Transition systems given by an executable step function.

    A step `step s a` is `some s'` when action `a` is enabled in `s` and leads to `s'`, and `none`
    otherwise. Replaying a list of actions (`exec`) checks a concrete run; `ReachBy ok s₀ s` says
    that some run leads from `s₀` to `s` whose steps all satisfy `ok`, a condition on the state
    before the step and the action. With `ok` always true these are the reachable states. An
    invariant needs one step lemma; `ReachBy.invariant` is the induction over the run. -/

namespace Transition

variable {S A : Type*} {step : S → A → Option S} {ok ok' : S → A → Prop} {s₀ s s' : S}

/-- Replay of a list of actions, stopping with `none` at the first one that is not enabled. -/
def exec (step : S → A → Option S) : List A → S → Option S
  | [], s => some s
  | a :: as, s => (step s a).bind (exec step as)

/-- A replay with one action more. -/
theorem exec_concat (as : List A) (a : A) (s : S) :
    exec step (as ++ [a]) s = (exec step as s).bind fun t => step t a := by
  induction as generalizing s with
  | nil => simp [exec]
  | cons b as ih =>
    simp only [List.cons_append, exec, Option.bind_assoc]
    exact congrArg _ (funext ih)

/-- Every action of the list satisfies `ok` in the state it is taken in. -/
def Allowed (step : S → A → Option S) (ok : S → A → Prop) : List A → S → Prop
  | [], _ => True
  | a :: as, s => ok s a ∧ ∀ s' ∈ step s a, Allowed step ok as s'

instance Allowed.decidable [∀ s a, Decidable (ok s a)] :
    ∀ (as : List A) (s : S), Decidable (Allowed step ok as s)
  | [], _ => isTrue trivial
  | a :: as, s => by
      have : Decidable (∀ s' ∈ step s a, Allowed step ok as s') :=
        match step s a with
        | none => isTrue nofun
        | some t => @decidable_of_iff _ (Allowed step ok as t) (by simp) (Allowed.decidable as t)
      exact inferInstanceAs (Decidable (_ ∧ _))

/-- The states reached from `s₀` by steps that all satisfy `ok`. -/
inductive ReachBy (step : S → A → Option S) (ok : S → A → Prop) (s₀ : S) : S → Prop
  | refl : ReachBy step ok s₀ s₀
  | tail {s s' : S} {a : A} :
      ReachBy step ok s₀ s → ok s a → step s a = some s' → ReachBy step ok s₀ s'

/-- The states reached from `s₀` by any steps. -/
abbrev Reach (step : S → A → Option S) (s₀ : S) : S → Prop :=
  ReachBy step (fun _ _ => True) s₀

/-- A list of actions each of which is allowed in any state. -/
theorem Allowed.of_forall {as : List A} (h : ∀ a ∈ as, ∀ s, ok s a) (s : S) :
    Allowed step ok as s := by
  induction as generalizing s with
  | nil => trivial
  | cons a as ih =>
    exact ⟨h a List.mem_cons_self s, fun s' _ => ih (fun b hb => h b (List.mem_cons_of_mem _ hb)) s'⟩

namespace ReachBy

/-- Fewer steps are allowed, fewer states are reached. -/
theorem mono (hok : ∀ s a, ok s a → ok' s a) (h : ReachBy step ok s₀ s) :
    ReachBy step ok' s₀ s := by
  induction h with
  | refl => exact .refl
  | tail _ ha hs ih => exact ih.tail (hok _ _ ha) hs

theorem reach (h : ReachBy step ok s₀ s) : Reach step s₀ s :=
  h.mono fun _ _ _ => trivial

/-- A run that goes on from where another one ends. -/
theorem trans (h : ReachBy step ok s₀ s) (h' : ReachBy step ok s s') : ReachBy step ok s₀ s' := by
  induction h' with
  | refl => exact h
  | tail _ ha hs ih => exact ih.tail ha hs

/-- The induction over a run: a predicate that holds at the start and that every allowed step from
    a reached state preserves holds in every reached state. -/
theorem invariant {I : S → Prop} (h0 : I s₀)
    (hstep : ∀ s a s', ReachBy step ok s₀ s → I s → ok s a → step s a = some s' → I s')
    (h : ReachBy step ok s₀ s) : I s := by
  induction h with
  | refl => exact h0
  | tail hr ha hs ih => exact hstep _ _ _ hr ih ha hs

/-- A replayed list of allowed actions ends in a reached state. -/
theorem of_exec : ∀ (as : List A) {s s' : S}, ReachBy step ok s₀ s → exec step as s = some s' →
    Allowed step ok as s → ReachBy step ok s₀ s'
  | [], _, _, hr, he, _ => by
      obtain rfl := Option.some.inj he
      exact hr
  | a :: as, s, s', hr, he, hok => by
      obtain ⟨t, ht, he⟩ := Option.bind_eq_some_iff.mp he
      exact of_exec as (hr.tail hok.1 ht) he (hok.2 t ht)

end ReachBy

/-- A replayed list of actions ends in a reachable state. -/
theorem reach_of_exec (as : List A) (he : exec step as s₀ = some s') : Reach step s₀ s' := by
  refine ReachBy.of_exec as .refl he ?_
  clear he
  induction as generalizing s₀ with
  | nil => trivial
  | cons a as ih => exact ⟨trivial, fun t _ => ih⟩

end Transition
