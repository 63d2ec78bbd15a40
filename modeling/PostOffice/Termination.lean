import PostOffice.Mutex
import PostOffice.Phases

/-! Termination. The children are told to terminate only by `stop_children`: before it no `SIGTERM`
    is pending for a child and no child has raised its flag. -/

namespace PostOffice

variable {c : Setup}

namespace State

/-- `SIGTERM` reaches the children only from `stop_children`. -/
structure Termination (s : State c) : Prop where
  pending : ∀ p, p ≠ .director → s.g.pending p .term = true → s.director.pc.stopping = true
  dispenser : s.dispenser.vars.terminateRequested = true → s.director.pc.stopping = true
  operator : ∀ w, (s.operators w).vars.terminateRequested = true → s.director.pc.stopping = true
  user : ∀ u, (s.users u).vars.terminateRequested = true → s.director.pc.stopping = true

namespace Termination

variable {s : State c}

/-- Before `stop_children` no `SIGTERM` is on its way to a child. -/
theorem not_pending (hT : s.Termination) (h : s.director.pc.stopping = false) {p : c.Proc}
    (hp : p ≠ .director) : s.g.pending p .term = false :=
  Bool.eq_false_iff.mpr fun ht => Bool.false_ne_true (h.symm.trans (hT.pending p hp ht))

theorem not_dispenser (hT : s.Termination) (h : s.director.pc.stopping = false) :
    s.dispenser.vars.terminateRequested = false :=
  Bool.eq_false_iff.mpr fun ht => Bool.false_ne_true (h.symm.trans (hT.dispenser ht))

theorem not_operator (hT : s.Termination) (h : s.director.pc.stopping = false)
    (w : Fin c.nofWorkers) : (s.operators w).vars.terminateRequested = false :=
  Bool.eq_false_iff.mpr fun ht => Bool.false_ne_true (h.symm.trans (hT.operator w ht))

theorem not_user (hT : s.Termination) (h : s.director.pc.stopping = false)
    (u : Fin c.nofUsers) : (s.users u).vars.terminateRequested = false :=
  Bool.eq_false_iff.mpr fun ht => Bool.false_ne_true (h.symm.trans (hT.user u ht))

end Termination

end State

/-- `stop_children` is never left. -/
theorem Director.Move.stopping {pc pc' : DirPc c.nofWorkerSeats c.nofWorkers c.nofUsers}
    {v v' : DirVars} {g g' : Shared c} (h : Director.Move pc v g pc' v' g')
    (hs : pc.stopping = true) : pc'.stopping = true := by
  cases h with
  | stay => exact hs
  | _ => simp [DirPc.stopping] at hs ⊢

/-- The director sends `SIGTERM` only in `stop_children`. -/
theorem Director.Move.pending_term {pc pc' : DirPc c.nofWorkerSeats c.nofWorkers c.nofUsers}
    {v v' : DirVars} {g g' : Shared c} (h : Director.Move pc v g pc' v' g') {p : c.Proc}
    (hp : g'.pending p .term = true) : g.pending p .term = true ∨ pc'.stopping = true := by
  cases h
  case startWorkersNext | startWorkersLast | startUsersNext | startUsersLast | stopWorkersNext
      | stopWorkersLast | stopUsersNext | stopUsersLast =>
    simp only [Shared.kill_pending, Function.update_apply] at hp
    grind
  all_goals first | exact .inl hp | exact .inr rfl

/-- Of an operator's flags its own step leaves the termination flag alone. -/
theorem Operator.Move.terminate {w : Fin c.nofWorkers} {l l' : Operator c} {g g' : Shared c}
    (h : Operator.Move w l g l' g') :
    l'.vars.terminateRequested = l.vars.terminateRequested := by
  cases h with
  | consume hf | «begin» hf | raiseStop hf => rw [hf]
  | _ hf => rw [hf]

/-- After a delivery a flag was up before or its signal was pending. -/
theorem State.Termination.deliver {s : State c} (hI : s.Termination) {p : c.Proc}
    {sigs : List Signal} (hp : ∀ sig ∈ sigs, s.g.pending p sig = true) :
    (s.deliverTo sigs p).Termination := by
  have hterm (hne : p ≠ .director) (h : .term ∈ sigs) : s.director.pc.stopping = true :=
    hI.pending p hne (hp _ h)
  refine ⟨fun q hq hpend => ?_, fun hf => ?_, fun w hf => ?_, fun u hf => ?_⟩ <;>
    rw [State.deliverTo_director_pc]
  · refine hI.pending q hq ?_
    simp only [State.deliverTo_g, Shared.delivered_pending, Function.update_apply] at hpend
    split at hpend
    · subst_vars
      exact (Bool.and_eq_true _ _ ▸ hpend).1
    · exact hpend
  · rw [State.deliverTo_dispenser] at hf
    split at hf
    · subst_vars
      simp only [Task.deliver_vars, foldl_handleTicketSignal, Bool.or_eq_true,
        decide_eq_true_eq] at hf
      exact hf.elim hI.dispenser (hterm (by simp))
    · exact hI.dispenser hf
  · rw [State.deliverTo_operators] at hf
    split at hf
    · subst_vars
      simp only [Task.deliver_vars, foldl_handleOperatorSignal, Bool.or_eq_true,
        decide_eq_true_eq] at hf
      exact hf.elim (hI.operator w) (hterm (by simp))
    · exact hI.operator w hf
  · rw [State.deliverTo_users] at hf
    split at hf
    · subst_vars
      simp only [Task.deliver_vars, foldl_handleUserSignal, Bool.or_eq_true,
        decide_eq_true_eq] at hf
      exact hf.elim (hI.user u) (hterm (by simp))
    · exact hI.user u hf

theorem State.Termination.step {s s' : State c} (hI : s.Termination) (h : s.Move s') :
    s'.Termination := by
  cases h with
  | director hm =>
    refine ⟨fun p hne hp => ?_, fun hf => hm.stopping (hI.dispenser hf),
      fun w hf => hm.stopping (hI.operator w hf), fun u hf => hm.stopping (hI.user u hf)⟩
    exact (hm.pending_term hp).elim (fun hp => hm.stopping (hI.pending p hne hp)) id
  | dispenser hm hf =>
    rw [hm.frame]
    exact ⟨hI.pending, fun h => hI.dispenser (hf ▸ h), hI.operator, hI.user⟩
  | operator w hstep hm =>
    have hf := hm.terminate
    rw [hm.frame]
    refine ⟨hI.pending, hI.dispenser, fun v h => ?_, hI.user⟩
    rw [State.setOperator_operators, Function.update_apply] at h
    split at h
    · exact hI.operator w (hf ▸ h)
    · exact hI.operator v h
  | user u hm hf =>
    rw [hm.frame]
    refine ⟨hI.pending, hI.dispenser, hI.operator, fun v h => ?_⟩
    rw [State.setUser_users, Function.update_apply] at h
    split at h
    · exact hI.user u (hf ▸ h)
    · exact hI.user v h
  | deliver p sigs hp => exact hI.deliver hp
  | interrupt sig hsig =>
    refine ⟨fun p hne hp => hI.pending p hne ?_, hI.dispenser, hI.operator, hI.user⟩
    simpa [Function.update_apply, hne] using hp
  | tick ns => exact ⟨hI.pending, hI.dispenser, hI.operator, hI.user⟩

theorem termination {s : State c} (h : Reachable s) : s.Termination :=
  h.invariant ⟨fun _ _ h => (Bool.false_ne_true h).elim, fun h => (Bool.false_ne_true h).elim,
    fun _ h => (Bool.false_ne_true h).elim, fun _ h => (Bool.false_ne_true h).elim⟩
    fun _ _ _ hI hm => hI.step hm

/-- The director sends no `SIGINT`. -/
theorem Director.Move.pending_int {pc pc' : DirPc c.nofWorkerSeats c.nofWorkers c.nofUsers}
    {v v' : DirVars} {g g' : Shared c} (h : Director.Move pc v g pc' v' g') (p : c.Proc) :
    g'.pending p .int = g.pending p .int := by
  cases h
  case startWorkersNext | startWorkersLast | startUsersNext | startUsersLast | stopWorkersNext
      | stopWorkersLast | stopUsersNext | stopUsersLast | termDispenser | termWorkersNext
      | termWorkersLast | termUsersNext | termUsersLast =>
    simp only [Shared.kill_pending, Function.update_apply]
    split
    · subst_vars
      rfl
    · rfl
  all_goals rfl

/-- No child is ever sent `SIGINT`. -/
theorem no_sigint {s : State c} (h : Reachable s) (p : c.Proc) (hp : p ≠ .director) :
    s.g.pending p .int = false := by
  refine @Reachable.invariant c (fun s => s.g.pending p .int = false) rfl
    (fun s s' _ hI hm => ?_) s h
  cases hm with
  | director hm => exact (hm.pending_int p).trans hI
  | dispenser hm hf | operator w hstep hm | user u hm hf => rw [hm.frame]; exact hI
  | deliver q sigs hq =>
    simp only [State.deliverTo_g, Shared.delivered_pending, Function.update_apply]
    split
    · subst_vars
      simp only [hI, Bool.false_and]
    · exact hI
  | interrupt sig hsig => simpa [Function.update_apply, hp] using hI
  | tick ns => exact hI

end PostOffice
