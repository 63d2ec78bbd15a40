import PostOffice.LostSignal
import PostOffice.Pauses

/-! The stop signal and the day after. The director does not wait for `SIGUSR2` to be handled: an
    operator that has left early by a pause may still have it pending when the next day begins. The
    `SIGUSR1` of that day is then pending too, and both handlers run before the operator enters
    `run_day`, where the stop flag is cleared first.

        SIGUSR2 pending ──── SIGUSR1 pending ──── both delivered ──── flag = 0 ──── run_day
           yesterday              today            outside run_day

    This needs that a delivery runs the handlers of all pending signals. -/

namespace PostOffice

open Transition

instance : Fintype Signal where
  elems := {.int, .term, .usr1, .usr2}
  complete sig := by cases sig <;> decide

variable {c : Setup}

/-- From the `SIGUSR1` to operator `w` to its `SIGUSR2`. -/
def DirPc.called {seats workers users : ℕ} (pc : DirPc seats workers users) (w : Fin workers) :
    Bool := pc.live w && !pc.stopSent w

theorem DirPc.called_of_active {seats workers users : ℕ} {pc : DirPc seats workers users}
    {w : Fin workers} (hlive : pc.live w = true) (hact : pc.active = true) :
    pc.called w = true := by
  have hstop : pc.stopSent w = false := by
    by_contra h
    rw [Bool.not_eq_false] at h
    exact Bool.false_ne_true ((DirPc.not_active_of_stopSent h).symm.trans hact)
  rw [called, hlive, hstop]
  rfl

/-- An operator is called by its `SIGUSR1`; until its `SIGUSR2` it is sent nothing else. -/
theorem Director.Move.called {pc pc' : DirPc c.nofWorkerSeats c.nofWorkers c.nofUsers}
    {v v' : DirVars} {g g' : Shared c} (h : Director.Move pc v g pc' v' g')
    {w : Fin c.nofWorkers} (hw : pc'.called w = true) :
    (pc.live w = false ∧ g'.pending (.operator w) .usr1 = true) ∨
      (pc.called w = true ∧ ∀ sig, g'.pending (.operator w) sig = g.pending (.operator w) sig) := by
  cases h
  case stay => exact .inr ⟨hw, fun _ => rfl⟩
  case startWorkersNext i hi | startWorkersLast i hi =>
    by_cases hwi : w = i
    · subst hwi
      exact .inl ⟨by simp [DirPc.live, DirPc.dayOpen, DirPc.preStart], by simp⟩
    · have hne : (w : ℕ) ≠ i := fun h => hwi (Fin.ext h)
      refine .inr ⟨?_, fun sig => by simp [hwi]⟩
      simp only [DirPc.called, DirPc.live, DirPc.dayOpen, DirPc.preStart, DirPc.stopSent, Fin.le_def,
        Bool.true_and, Bool.and_eq_true, Bool.not_eq_true', decide_eq_false_iff_not,
        and_true] at hw ⊢
      omega
  case startUsersNext | startUsersLast => exact .inr ⟨rfl, fun sig => by simp⟩
  case stopWorkersNext i hi =>
    simp only [DirPc.called, DirPc.live, DirPc.dayOpen, DirPc.preStart, DirPc.stopSent, Fin.lt_def,
      Bool.true_and, Bool.not_false, Bool.not_eq_true', decide_eq_false_iff_not] at hw ⊢
    have hne : w ≠ i := by
      rintro rfl
      omega
    exact .inr ⟨by omega, fun sig => by simp [hne]⟩
  case activate => simp [DirPc.called, DirPc.live, DirPc.preStart, Fin.le_def] at hw
  all_goals first
    | exact absurd hw Bool.false_ne_true
    | exact .inr ⟨rfl, fun _ => rfl⟩

/-- One delivery to an operator handles all the signals that are pending at that moment. -/
def HandlesAll (s : State c) (p : c.Proc) (sigs : List Signal) : Prop :=
  ∀ w, p = .operator w → ∀ sig, s.g.pending p sig = true → sig ∈ sigs

instance (s : State c) (p : c.Proc) (sigs : List Signal) : Decidable (HandlesAll s p sigs) := by
  unfold HandlesAll
  infer_instance

namespace State

/-- An operator that has been called for the day has no `SIGUSR2` of the day before to come once its
    `SIGUSR1` is handled, and inside `run_day` its stop flag is its own. -/
structure OwnStop (s : State c) : Prop where
  pending : ∀ w, s.director.pc.called w = true → s.g.pending (.operator w) .usr2 = true →
    s.g.pending (.operator w) .usr1 = true
  flag : ∀ w, s.director.pc.called w = true → s.stage w ≠ .away →
    (s.operators w).vars.dayStopRequested = true →
      s.stage w = .leaving ∧ 0 < (s.g.workers w).pausesToday

namespace OwnStop

variable {s s' : State c}

theorem step_director {l' : Director c} {g' : Shared c} (hB : s.Barrier) (hI : s.OwnStop)
    (h : Director.Move s.director.pc s.director.vars s.g l'.pc l'.vars g') :
    (s.setDirector (l', g')).OwnStop := by
  refine ⟨fun w hw hp => ?_, fun w hw hne hflag => ?_⟩
  · rcases h.called hw with ⟨-, husr1⟩ | ⟨hold, hsame⟩
    · exact husr1
    · rw [setDirector_g, hsame] at hp
      rw [setDirector_g, hsame]
      exact hI.pending w hold hp
  · rcases h.called hw with ⟨hlive, -⟩ | ⟨hold, -⟩
    · exact absurd (hB.away hlive) hne
    · obtain ⟨hleaving, hpos⟩ := hI.flag w hold hne hflag
      refine ⟨hleaving, ?_⟩
      rcases h.pausesToday w with htoday | ⟨-, hpre⟩
      · exact htoday ▸ hpos
      · exact absurd ((hB.owes hne).1.symm.trans hpre) Bool.false_ne_true

theorem step_operator {l' : Operator c} {g' : Shared c} {v : Fin c.nofWorkers} {n : ℕ}
    (hP : s.Pauses) (hI : s.OwnStop)
    (hstep : Operator.step v (s.operators v) s.g n = some (l', g')) :
    (s.setOperator v (l', g')).OwnStop := by
  have hframe := (Operator.step_move hstep).frame
  have hpend : g'.pending = s.g.pending := by rw [hframe]
  have h := Operator.step_pauseMove hstep
  refine ⟨fun w hw hp => ?_, fun w hw hne hflag => ?_⟩
  · rw [setOperator_g, hpend] at hp ⊢
    exact hI.pending w hw hp
  · rw [stage_setOperator] at hne ⊢
    rw [setOperator_operators] at hflag
    rw [setOperator_g]
    by_cases hwv : w = v
    · subst hwv
      rw [Function.update_self] at hne hflag ⊢
      have hold := hI.flag w hw
      -- before the pause is taken the flag is down
      have hdown (hs : s.stage w ≠ .away) (hs' : s.stage w ≠ .leaving) :
          (s.operators w).vars.dayStopRequested ≠ true := fun hf => hs' (hold hs hf).1
      cases h with
      | stay hs hp hf =>
        rw [hs] at hne ⊢
        rw [hp.today]
        exact hold hne (hf ▸ hflag)
      | enter hs hs' hp hf => exact absurd (hf.symm.trans hflag) Bool.false_ne_true
      | leave hs hs' hp hf | choose hs hs' hlt hf | count hs hs' hf | total hs hs' hf =>
        rw [hf] at hflag
        exact absurd hflag (hdown (by simp [stage, hs]) (by simp [stage, hs]))
      | raise hs hs' hg =>
        subst hg
        exact ⟨hs', (hP.kept w).taken (.inr hs)⟩
      | finish hs hs' => exact absurd hs' hne
    · rw [Function.update_of_ne hwv] at hne hflag ⊢
      rw [(h.other hwv).2]
      exact hI.flag w hw hne hflag

theorem deliver (hB : s.Barrier) (hT : s.Termination) (hI : s.OwnStop) {p : c.Proc}
    {sigs : List Signal} (hp : ∀ sig ∈ sigs, s.g.pending p sig = true)
    (hall : HandlesAll s p sigs) : (s.deliverTo sigs p).OwnStop := by
  refine ⟨fun w hw hpend => ?_, fun w hw hne hflag => ?_⟩
  · rw [deliverTo_director_pc] at hw
    rw [deliverTo_g, Shared.delivered_pending] at hpend ⊢
    by_cases hpw : p = .operator w
    · -- nothing is left pending
      subst hpw
      rw [Function.update_self] at hpend
      obtain ⟨hold, hmem⟩ := Bool.and_eq_true_iff.mp hpend
      simp [hall w rfl _ hold] at hmem
    · have hne : Proc.operator w ≠ p := fun h => hpw h.symm
      rw [Function.update_of_ne hne] at hpend ⊢
      exact hI.pending w hw hpend
  · rw [deliverTo_director_pc] at hw
    rw [stage_deliverTo] at hne ⊢
    rw [deliverTo_g, Shared.delivered_workers]
    refine hI.flag w hw hne ?_
    rw [deliverTo_operators] at hflag
    split at hflag
    · -- inside `run_day` the start signal has been handled, so no stop signal is pending
      subst_vars
      have hrun : (s.view w).inRun = true := (OpPc.inRun_iff _ _).mpr hne
      have hlive := hB.live_of_inRun hrun
      have hstop := DirPc.not_stopping_of_dayOpen (DirPc.dayOpen_of_live hlive)
      have hterm : Signal.term ∉ sigs := fun h =>
        Bool.false_ne_true ((hT.not_pending hstop (by simp)).symm.trans (hp _ h))
      have husr2 : Signal.usr2 ∉ sigs := fun h => by
        have husr1 := hI.pending w hw (hp _ h)
        have hle := (hB.owed_le w).trans (ind_le_one _)
        have hbusy : (Operator.view w (s.operators w)).busy = true := OpPc.busy_of_inRun hrun
        rw [owed, Operator.debt, ind_of husr1, ind_of hbusy] at hle
        omega
      simpa [foldl_handleOperatorSignal, hterm, husr2] using hflag
    · exact hflag

theorem step (hB : s.Barrier) (hT : s.Termination) (hP : s.Pauses) (hI : s.OwnStop)
    (h : State.MoveBy (HandlesAll s) s s') : s'.OwnStop := by
  cases h with
  | director hm => exact hI.step_director hB hm
  | operator w hstep hm => exact hI.step_operator hP hstep
  | dispenser hm hf | user u hm hf =>
    rw [hm.frame]
    exact ⟨hI.pending, hI.flag⟩
  | deliver p sigs hp hne hall => exact hI.deliver hB hT hp hall
  | interrupt sig hsig => exact ⟨fun w => by simpa using hI.pending w, hI.flag⟩
  | tick ns => exact ⟨hI.pending, hI.flag⟩

theorem init : (State.init c).OwnStop := ⟨fun _ => nofun, fun _ => nofun⟩

end OwnStop

end State

theorem ownStop {s : State c} (h : ReachableBy (Delivers HandlesAll) s) : s.OwnStop :=
  h.invariant .init fun _ _ hr hI hm => hI.step (barrier hr) (termination hr) (pauses hr) hm

/-- At a call of `sem_op_interruptible` by `claim_counter_for_service`, `wait_for_ticket`,
    `pop_ticket_for_service` or `lock_stats`. -/
def OpPc.interruptible {seats : ℕ} : OpPc seats → Bool
  | .claimToken | .scanLock _ | .waitTicket _ | .popLock _ | .serveLock _ _ _ _ | .pauseLock _ =>
    true
  | _ => false

theorem OpPc.stage_of_interruptible {seats : ℕ} {pc : OpPc seats} (h : pc.interruptible = true) :
    pc.stage = .working ∨ pc.stage = .counted := by
  cases pc <;> first
    | exact .inl rfl
    | exact .inr rfl
    | exact Bool.noConfusion h

/-- CORRECT: no stop signal reaches into a later day, if a delivery handles all pending signals.
    While the day is active, an operator inside `run_day` has its stop flag up only on its way out
    after a pause it took today, so no call that a stop request interrupts returns 1. -/
theorem stop_flag_is_own {s : State c} (h : ReachableBy (Delivers HandlesAll) s)
    (hact : s.g.dayActive = true) {w : Fin c.nofWorkers} (hrun : (s.view w).inRun = true) :
    ((s.operators w).vars.dayStopRequested = true →
      s.stage w = .leaving ∧ (s.g.workers w).pausesToday = 1) ∧
    ((s.operators w).pc.interruptible = true →
      ¬ ((s.operators w).mode = .eintr ∧ Operator.interrupted (s.operators w) = true)) := by
  have hB := barrier h.reach
  have hlive := hB.live_of_inRun hrun
  have hcalled := DirPc.called_of_active hlive ((closing h.reach).active ▸ hact)
  have hown := (ownStop h).flag w hcalled ((OpPc.inRun_iff _ _).mp hrun)
  refine ⟨fun hflag => ?_, fun hpc => ?_⟩
  · obtain ⟨hleaving, hpos⟩ := hown hflag
    have := ((pauses h.reach).kept w).le_one
    exact ⟨hleaving, by omega⟩
  · rintro ⟨-, hint⟩
    rcases Bool.or_eq_true_iff.mp hint with hterm | hflag
    · have hstop := DirPc.not_stopping_of_dayOpen (DirPc.dayOpen_of_live hlive)
      have hnot := (termination h.reach).not_operator hstop w
      exact Bool.false_ne_true (hnot.symm.trans hterm)
    · have hleaving := (hown hflag).1
      rcases OpPc.stage_of_interruptible hpc with hs | hs <;>
        exact absurd (hs.symm.trans hleaving) (by simp)

/-- The operator pauses on the first day and sleeps through its end; on the second day both signals
    are delivered together, and it goes to its counter. -/
def SmallOffice.bothPending : List (Act smallOffice) :=
  serving ++ own clerk 16 ++ own .director 88 ++ [.deliver clerk [.usr2, .usr1]] ++ own clerk 8

/-- Yesterday's stop signal, handled today, has left nothing behind. -/
theorem stop_flag_is_own_small : ∃ s : State smallOffice,
    exec step SmallOffice.bothPending (State.init smallOffice) = some s ∧ s.g.currentDay = 2 ∧
      (s.operators (0 : Fin 1)).pc = .claimToken ∧
      (s.operators (0 : Fin 1)).vars.dayStopRequested ≠ true ∧
      ¬ ((s.operators (0 : Fin 1)).mode = .eintr ∧
        Operator.interrupted (s.operators (0 : Fin 1)) = true) := by
  have hrun : ((exec step SmallOffice.bothPending (State.init smallOffice)).any fun s =>
      decide (s.g.dayActive = true ∧ s.g.currentDay = 2 ∧
        (s.operators (0 : Fin 1)).pc = .claimToken)) = true := by decide +kernel
  obtain ⟨s, hs, h⟩ := (Option.any_eq_true _ _).mp hrun
  obtain ⟨hact, hday, hpc⟩ := of_decide_eq_true h
  have hok : Allowed step (Delivers HandlesAll) SmallOffice.bothPending
      (State.init smallOffice) := by decide +kernel
  have hin : (s.view (0 : Fin 1)).inRun = true := by
    unfold State.view Operator.view
    rw [hpc]
    rfl
  obtain ⟨hflag, hcall⟩ := stop_flag_is_own (ReachBy.of_exec _ .refl hs hok) hact hin
  refine ⟨s, hs, hday, hpc, fun hf => ?_, hcall (by rw [hpc]; rfl)⟩
  have hstage : (s.operators (0 : Fin 1)).pc.stage = .leaving := (hflag hf).1
  rw [hpc] at hstage
  cases hstage

end PostOffice
