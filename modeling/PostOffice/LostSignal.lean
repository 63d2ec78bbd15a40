import PostOffice.Closing
import PostOffice.Barrier

/-! The signal that ends a day. An operator tests its flags and then calls `semop`; a `SIGUSR2`
    delivered in between only raises a flag that has just been tested, and the call sleeps on.

        claimStop ── flag = 0 ──▶ claimToken (running) ──▶ claimToken (asleep)
                                        ▲                        ▲
                                 SIGUSR2: lost            SIGUSR2: EINTR

    Apart from this window the signal is never lost: once the director has sent it, an operator
    past the test of `DAY_ACTIVE` has its flag up or the signal pending, and in front of the call
    it has the signal pending. -/

namespace PostOffice

open Transition

namespace OpPc

variable {seats : ℕ}

/-- At the `semop` of `claim_counter_for_service` or of `wait_for_ticket`. -/
def awaiting : OpPc seats → Bool
  | .claimToken | .waitTicket _ => true
  | _ => false

/-- Inside `run_day`, past the first test of `DAY_ACTIVE` of a round of
    `claim_counter_for_service` and not yet at the end. -/
def committed : OpPc seats → Bool
  | .sendInit | .mainTest | .waitDayStarted | .waitTerminate | .suspend | .mainBreak
  | .clearStarted | .clearStop | .claimTerminate | .claimActive | .dayFinished | .done => false
  | _ => true

/-- The semaphore of that call. -/
def awaited (service : Service) : OpPc seats → Option (Sem seats)
  | .claimToken => some (.freeCounter service)
  | .waitTicket _ => some (.jobs service)
  | _ => none

theorem awaiting_of_awaited {pc : OpPc seats} {service : Service} {σ : Sem seats}
    (h : pc.awaited service = some σ) : pc.awaiting = true := by
  cases pc <;> first | rfl | cases h

theorem committed_of_awaiting {pc : OpPc seats} (h : pc.awaiting = true) :
    pc.committed = true := by
  cases pc <;> first | rfl | exact Bool.noConfusion h

end OpPc

/-- The director has sent operator `w` the day's `SIGUSR2`, and the day has not ended yet. -/
def DirPc.stopSent {seats workers users : ℕ} : DirPc seats workers users → Fin workers → Bool
  | .stopWorkers i, w => w < i
  | .stopUsers _, _ | .dayEndInit, _ | .waitDayEnd, _ => true
  | _, _ => false

theorem DirPc.not_active_of_stopSent {seats workers users : ℕ} {pc : DirPc seats workers users}
    {w : Fin workers} (h : pc.stopSent w = true) : pc.active = false := by
  cases pc <;> first | rfl | exact Bool.noConfusion h

theorem DirPc.not_stopping_of_stopSent {seats workers users : ℕ} {pc : DirPc seats workers users}
    {w : Fin workers} (h : pc.stopSent w = true) : pc.stopping = false := by
  cases pc <;> first | rfl | exact Bool.noConfusion h

variable {c : Setup}

namespace Operator

/-- The operator knows that the day is to end, or will be told: `pending` says whether the
    `SIGUSR2` is still pending. -/
structure Warned (l : Operator c) (pending : Prop) : Prop where
  flag : l.pc.committed = true → l.vars.dayStopRequested = true ∨ pending
  signal : l.pc.awaiting = true → l.mode = .running ∨ l.mode = .asleep → pending

namespace Warned

variable {l l' : Operator c} {p : Prop}

theorem of_pending (h : p) (l : Operator c) : Warned l p := ⟨fun _ => .inr h, fun _ _ => h⟩

theorem of_not_committed (h : l.pc.committed = false) : Warned l p := by
  refine ⟨?_, ?_⟩
  · intro hc
    exact absurd (h.symm.trans hc) Bool.false_ne_true
  · intro hw
    exact absurd (h.symm.trans (OpPc.committed_of_awaiting hw)) Bool.false_ne_true

/-- Further on its way through `run_day`, but not in front of one of the two calls. -/
theorem goOn (hI : Warned l p) (hc : l.pc.committed = true)
    (hf : l.vars.dayStopRequested = true → l'.vars.dayStopRequested = true)
    (hw : l'.pc.awaiting = false) : Warned l' p :=
  ⟨fun _ => (hI.flag hc).imp_left hf, fun h => absurd (hw.symm.trans h) Bool.false_ne_true⟩

end Warned

variable {w : Fin c.nofWorkers} {l l' : Operator c} {g g' : Shared c} {p : Prop}

theorem semOpInterruptible_warned {σ : Sem c.nofWorkerSeats} {next : OpPc c.nofWorkerSeats}
    {onInterrupt : Operator c} (h : semOpInterruptible l g σ next onInterrupt = some (l', g'))
    (hI : Warned l p) (hc : l.pc.committed = true) (hnext : next.awaiting = false)
    (hint : Warned onInterrupt p) (hterm : l.vars.terminateRequested = false)
    (hx : l.exited = false) : Warned l' p := by
  have hmode : l.mode ≠ .eintr → l.mode = .running ∨ l.mode = .asleep := by
    unfold Task.exited at hx
    cases hm : l.mode <;> simp [hm] at hx ⊢
  unfold semOpInterruptible Task.semWait at h
  split at h
  · split at h <;> cases h
    · exact hint
    · -- The flag is down, so the signal is still pending.
      rename_i hno
      have hflag : l.vars.dayStopRequested = false := by
        simpa [interrupted, hterm] using hno
      exact .of_pending ((hI.flag hc).resolve_left (by simp [hflag])) _
  · rename_i hm
    split at h
    · cases h
      exact hI.goOn hc id hnext
    · split at h <;> cases h
      exact ⟨hI.flag, fun hw _ => hI.signal hw (hmode hm)⟩

/-- After the end of the day no step of an operator loses the warning. -/
theorem step_warned {n : ℕ} (h : step w l g n = some (l', g')) (hday : g.dayActive = false)
    (hterm : l.vars.terminateRequested = false) (hI : Warned l p) : Warned l' p := by
  unfold step at h
  split at h
  · cases h
  rename_i hx
  rw [Bool.not_eq_true] at hx
  unfold body at h
  cases hpc : l.pc <;> rw [hpc] at h <;> simp only [hday, Bool.false_eq_true, if_false] at h
  case claimStop =>
    cases h
    cases hflag : l.vars.dayStopRequested
    · exact .of_pending ((hI.flag (by rw [hpc]; rfl)).resolve_left (by simp [hflag])) _
    · exact .of_not_committed (by rfl)
  case loopStop k =>
    cases h
    cases hflag : l.vars.dayStopRequested
    · exact .of_pending ((hI.flag (by rw [hpc]; rfl)).resolve_left (by simp [hflag])) _
    · exact hI.goOn (by rw [hpc]; rfl) id (by simp [OpPc.awaiting])
  case claimToken | scanLock | releaseLock =>
    exact semOpInterruptible_warned h hI (by rw [hpc]; rfl) (by rfl) (.of_not_committed (by rfl))
      hterm hx
  case waitTicket | popLock =>
    have hc : l.pc.committed = true := by rw [hpc]; rfl
    exact semOpInterruptible_warned h hI hc (by rfl) (hI.goOn hc id (by rfl)) hterm hx
  case serveLock | pauseLock =>
    have hc : l.pc.committed = true := by rw [hpc]; rfl
    have hw : (l.exit 1).pc.awaiting = false := by rw [Task.exit_pc, hpc]; rfl
    exact semOpInterruptible_warned h hI hc (by rfl) (hI.goOn hc id hw) hterm hx
  case sendInit | dayFinished =>
    rcases msgSendRetry_cases h with ⟨h1, -, -⟩ | ⟨-, rfl, -⟩
    · exact .of_not_committed (by rw [h1, hpc]; rfl)
    · exact .of_not_committed (by rfl)
  case serveReply =>
    have hc : l.pc.committed = true := by rw [hpc]; rfl
    rcases msgSendRetry_cases h with ⟨h1, h2, -⟩ | ⟨-, rfl, -⟩
    · exact hI.goOn hc (h2 ▸ id) (by rw [h1, hpc]; rfl)
    · exact hI.goOn hc id (by rfl)
  case serveSleep =>
    have hc : l.pc.committed = true := by rw [hpc]; rfl
    unfold Task.nanosleep at h
    repeat' split at h
    all_goals cases h; exact hI.goOn hc id (by simp [hpc, OpPc.awaiting])
  case mainTest | waitDayStarted | waitTerminate | suspend | mainBreak | clearStarted | clearStop
      | claimTerminate | claimActive | tokenGiveBack | scanFallback | releaseToken =>
    repeat' split at h
    all_goals cases h
    all_goals refine .of_not_committed ?_
    all_goals simp [hpc, OpPc.committed]
  case pauseStop =>
    cases h
    exact hI.goOn (by rw [hpc]; rfl) (fun _ => rfl) (by rfl)
  case done => cases h
  -- Everywhere else the operator goes on inside `run_day` and keeps its flag.
  all_goals
    have hc : l.pc.committed = true := by rw [hpc]; rfl
    try simp only [forLoop] at h
    repeat' split at h
    all_goals cases h
    all_goals refine hI.goOn hc id ?_
    all_goals simp [OpPc.awaiting]

/-- In front of one of the two calls, with the semaphore at 0, the operator falls asleep whatever
    its flags are. -/
theorem sleep_of_awaited (hl : l.mode = .running) {σ : Sem c.nofWorkerSeats}
    (hσ : l.pc.awaited (c.workerService w) = some σ) (hsem : g.sem σ = 0) (n : ℕ) :
    step w l g n = some (l.sleep, g) := by
  obtain ⟨pc, mode, vars⟩ := l
  dsimp only at hl hσ
  subst hl
  cases pc <;> cases hσ <;>
    simp [step, body, semOpInterruptible, Task.semWait, Task.exited, hsem]

end Operator

/-- A `SIGUSR2` once sent to an operator stays sent to the end of the day. -/
theorem Director.Move.stopSent {pc pc' : DirPc c.nofWorkerSeats c.nofWorkers c.nofUsers}
    {v v' : DirVars} {g g' : Shared c} (h : Director.Move pc v g pc' v' g')
    {w : Fin c.nofWorkers} (hs : pc'.stopSent w = true) :
    g'.pending (.operator w) .usr2 = true ∨
      pc.stopSent w = true ∧
        g'.pending (.operator w) .usr2 = g.pending (.operator w) .usr2 := by
  cases h
  case stay => exact .inr ⟨hs, rfl⟩
  case stopWorkersNext i hi =>
    by_cases hw : w = i
    · subst hw
      exact .inl (by simp)
    · refine .inr ⟨?_, by simp [hw]⟩
      have hlt : (w : ℕ) < i + 1 := by simpa [DirPc.stopSent, Fin.lt_def] using hs
      simp only [DirPc.stopSent, decide_eq_true_eq, Fin.lt_def]
      omega
  case stopWorkersLast i hi =>
    by_cases hw : w = i
    · subst hw
      exact .inl (by simp)
    · refine .inr ⟨?_, by simp [hw]⟩
      simp only [DirPc.stopSent, decide_eq_true_eq, Fin.lt_def]
      omega
  case deactivate => simp [DirPc.stopSent, Fin.lt_def] at hs
  all_goals first
    | exact absurd hs Bool.false_ne_true
    | exact .inr ⟨rfl, rfl⟩

/-! ### The invariant -/

/-- No `SIGUSR2` that ends the day is delivered to an operator that has tested its flags for one of
    the two calls and has not fallen asleep in it yet. -/
def HeardAsleep (s : State c) (p : c.Proc) (sigs : List Signal) : Prop :=
  ∀ w, p = .operator w → .usr2 ∈ sigs → s.director.pc.stopSent w = true →
    (s.operators w).pc.awaiting = true → (s.operators w).mode ≠ .running

instance (s : State c) (p : c.Proc) (sigs : List Signal) : Decidable (HeardAsleep s p sigs) := by
  unfold HeardAsleep
  infer_instance

namespace State

/-- Every operator to which the signal has been sent is warned. -/
def AllWarned (s : State c) : Prop :=
  ∀ w, s.director.pc.stopSent w = true →
    (s.operators w).Warned (s.g.pending (.operator w) .usr2 = true)

variable {s s' : State c}

/-- Delivery raises the flag or leaves the signal pending. -/
theorem AllWarned.deliver (hI : s.AllWarned) {p : c.Proc} {sigs : List Signal}
    (hd : HeardAsleep s p sigs) : (s.deliverTo sigs p).AllWarned := by
  intro w hs
  rw [deliverTo_director_pc] at hs
  have hold := hI w hs
  rw [deliverTo_operators, deliverTo_g]
  by_cases hp : p = .operator w
  · subst hp
    simp only [if_true, Shared.delivered_pending, Function.update_self]
    by_cases hu : Signal.usr2 ∈ sigs
    · refine ⟨fun _ => .inl ?_, fun hw hm => ?_⟩
      · simp [foldl_handleOperatorSignal, hu]
      · -- It was not running, so it is back from the call.
        have hrunning := hd w rfl hu hs hw
        rw [Task.deliver_mode] at hm
        split at hm <;> simp_all
    · refine ⟨fun hc => (hold.flag hc).imp (fun hf => ?_) fun hp => ?_, fun hw hm => ?_⟩
      · simp [foldl_handleOperatorSignal, hf]
      · simp [hp, hu]
      · rw [Task.deliver_mode] at hm
        have hmode : (s.operators w).mode = .running ∨ (s.operators w).mode = .asleep := by
          split at hm <;> simp_all
        simp [hold.signal hw hmode, hu]
  · have hp' : Proc.operator w ≠ p := fun h => hp h.symm
    simpa [hp, hp'] using hold

theorem AllWarned.step (hC : s.Closing) (hT : s.Termination) (hI : s.AllWarned)
    (h : State.MoveBy (HeardAsleep s) s s') : s'.AllWarned := by
  cases h with
  | @director l' g' hm =>
    intro w hs
    rcases hm.stopSent hs with hp | ⟨hold, hp⟩
    · exact .of_pending hp _
    · show (s.operators w).Warned (g'.pending (.operator w) .usr2 = true)
      rw [hp]
      exact hI w hold
  | dispenser hm hf | user u hm hf =>
    rw [hm.frame]
    exact hI
  | @operator n l' g' v hstep hm =>
    intro w hs
    have hold := hI w hs
    have hpending : g'.pending = s.g.pending := by rw [hm.frame]
    rw [setOperator_operators, Function.update_apply, setOperator_g, hpending]
    split
    · subst_vars
      have hactive := DirPc.not_active_of_stopSent hs
      have hterm := hT.not_operator (DirPc.not_stopping_of_stopSent hs) w
      exact Operator.step_warned hstep (hC.active.trans hactive) hterm hold
    · exact hold
  | deliver p sigs hp hne hd => exact hI.deliver hd
  | interrupt sig hsig =>
    intro w hs
    simpa using hI w hs
  | tick ns => exact hI

theorem AllWarned.init : (State.init c).AllWarned := fun _ => nofun

end State

theorem allWarned {s : State c} (h : ReachableBy (Delivers HeardAsleep) s) : s.AllWarned :=
  h.invariant .init fun _ _ hr hI hm => hI.step (closing hr) (termination hr) hm

/-- The end of the day is stuck on operator `w`: the director sleeps in `wait_for_workers_day_end`
    with no `DAY_FINISHED` queued, the operator has not sent its own and sleeps in one of the two
    calls on a semaphore of value 0, with its stop flag up and no signal to come, every other
    operator has finished, and the dispenser waits for a request. -/
structure State.Wedged (s : State c) (w : Fin c.nofWorkers) : Prop where
  director : s.director.pc = .waitDayEnd ∧ s.director.mode = .asleep
  messages : s.g.msgs.countP (Message.isOfKind .dayFinished) = 0
  unfinished : s.g.finished w < s.g.currentDay
  asleep : (s.operators w).mode = .asleep
  awaited : ∃ σ, (s.operators w).pc.awaited (c.workerService w) = some σ ∧ s.g.sem σ = 0
  stop : (s.operators w).vars.dayStopRequested = true
  quiet : ∀ sig, s.g.pending (.operator w) sig = false
  others : ∀ v, v ≠ w → s.g.finished v = s.g.currentDay
  dispenser : s.dispenser.pc = .receive ∧ s.dispenser.mode = .asleep

/-- CORRECT: in a run in which every `SIGUSR2` of the end of a day finds its operator outside the
    window between the test of the flags and the sleep, the end of a day never gets stuck. -/
theorem day_end_never_wedged {s : State c} (h : ReachableBy (Delivers HeardAsleep) s)
    (w : Fin c.nofWorkers) : ¬ s.Wedged w := by
  intro hW
  have hsent : s.director.pc.stopSent w = true := by rw [hW.director.1]; rfl
  obtain ⟨σ, hσ, -⟩ := hW.awaited
  have hpending := (allWarned h w hsent).signal (OpPc.awaiting_of_awaited hσ) (.inr hW.asleep)
  exact absurd (hpending.symm.trans (hW.quiet .usr2)) Bool.false_ne_true.symm

/-- The window is the defect: after a delivery in it, if the semaphore is 0, the operator's next step
    is to fall asleep with its stop flag up and no `SIGUSR2` to come. -/
theorem sleeps_of_unheard {s s' : State c} {w : Fin c.nofWorkers} {sigs : List Signal}
    (hd : ¬ HeardAsleep s (.operator w) sigs)
    (hs : step s (.deliver (.operator w) sigs) = some s') {σ : Sem c.nofWorkerSeats}
    (hσ : (s.operators w).pc.awaited (c.workerService w) = some σ) (hsem : s.g.sem σ = 0) :
    ∃ t, step s' (.own (.operator w) 0) = some t ∧ (t.operators w).pc = (s.operators w).pc ∧
      (t.operators w).mode = .asleep ∧ (t.operators w).vars.dayStopRequested = true ∧
      t.g.pending (.operator w) .usr2 = false := by
  unfold HeardAsleep at hd
  push Not at hd
  obtain ⟨v, hv, husr2, -, -, hmode⟩ := hd
  obtain rfl := Proc.operator.inj hv
  obtain rfl := State.eq_deliverTo hs
  have hsleep := @Operator.sleep_of_awaited c w ((s.operators w).deliver handleOperatorSignal sigs)
    (s.deliverTo sigs (.operator w)).g (by simp [hmode]) σ hσ (by simpa using hsem) 0
  have hstep : step (s.deliverTo sigs (.operator w)) (.own (.operator w) 0) =
      some ((s.deliverTo sigs (.operator w)).setOperator w
        (((s.operators w).deliver handleOperatorSignal sigs).sleep,
          (s.deliverTo sigs (.operator w)).g)) := by
    simp only [step, State.deliverTo_operators, if_true, hsleep, Option.map_some]
  refine ⟨_, hstep, ?_, ?_, ?_, ?_⟩
  · simp
  · simp
  · simp [foldl_handleOperatorSignal, husr2]
  · simp [husr2]

/-- The operator sleeps in `wait_for_ticket` and the director in `wait_for_workers_day_end` when the
    signal comes. -/
def SmallOffice.heard : List (Act smallOffice) :=
  morning ++ signal clerk .usr1 ++ own clerk 18 ++ own .director 8 ++
    own .dispenser 2 ++ signal clerk .usr2

/-- The signal interrupts the call. -/
theorem day_end_never_wedged_small : ∃ s : State smallOffice,
    exec step SmallOffice.heard (State.init smallOffice) = some s ∧
      (s.operators (0 : Fin 1)).pc.awaiting = true ∧
      (s.operators (0 : Fin 1)).mode = .eintr ∧ ¬ s.Wedged (0 : Fin 1) := by
  have hrun : ((exec step SmallOffice.heard (State.init smallOffice)).any fun s =>
      decide ((s.operators (0 : Fin 1)).pc.awaiting = true ∧
        (s.operators (0 : Fin 1)).mode = .eintr)) = true := by decide +kernel
  obtain ⟨s, hs, h⟩ := (Option.any_eq_true _ _).mp hrun
  obtain ⟨hpc, hmode⟩ := of_decide_eq_true h
  have hok : Allowed step (Delivers HeardAsleep) SmallOffice.heard (State.init smallOffice) := by
    decide +kernel
  exact ⟨s, hs, hpc, hmode, day_end_never_wedged (ReachBy.of_exec _ .refl hs hok) _⟩

/-- The operator has tested its flags and stands in front of `wait_for_ticket` when the signal comes;
    then it falls asleep there. -/
def SmallOffice.unheard : List (Act smallOffice) :=
  morning ++ signal clerk .usr1 ++ own clerk 17 ++ own .director 8 ++
    own .dispenser 2 ++ signal clerk .usr2 ++ own clerk 1

/-- The end of the first day gets stuck. -/
theorem day_end_wedged : ∃ s : State smallOffice,
    exec step SmallOffice.unheard (State.init smallOffice) = some s ∧ s.Wedged (0 : Fin 1) := by
  have hrun : ((exec step SmallOffice.unheard (State.init smallOffice)).any fun s =>
      decide ((s.director.pc = .waitDayEnd ∧ s.director.mode = .asleep) ∧
        s.g.msgs.countP (Message.isOfKind .dayFinished) = 0 ∧
        s.g.finished (0 : Fin 1) < s.g.currentDay ∧
        (s.operators (0 : Fin 1)).mode = .asleep ∧
        (s.operators (0 : Fin 1)).pc = .waitTicket (0 : Fin 1) ∧
        s.g.sem (.jobs 0) = 0 ∧
        (s.operators (0 : Fin 1)).vars.dayStopRequested = true ∧
        (∀ sig ∈ [Signal.int, .term, .usr1, .usr2],
          s.g.pending (.operator (0 : Fin 1)) sig = false) ∧
        (s.dispenser.pc = .receive ∧ s.dispenser.mode = .asleep))) = true := by decide +kernel
  obtain ⟨s, hs, h⟩ := (Option.any_eq_true _ _).mp hrun
  obtain ⟨hdir, hmsgs, hfin, hasleep, hpc, hsem, hstop, hquiet, hdisp⟩ := of_decide_eq_true h
  refine ⟨s, hs, hdir, hmsgs, hfin, hasleep, ⟨.jobs 0, by rw [hpc]; rfl, hsem⟩, hstop,
    fun sig => hquiet sig (by cases sig <;> decide), fun v hv => ?_, hdisp⟩
  exact absurd (@Subsingleton.elim (Fin 1) _ v 0) hv

end PostOffice
