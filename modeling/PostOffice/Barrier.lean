import PostOffice.Announcements

/-! The day barrier. `wait_for_workers_day_end` only counts messages; that the count is right is an
    accounting over all days.

    Each `SIGUSR1` is a debt of one `DAY_FINISHED`. The debt of an operator is carried by the
    pending signal, then by the flag `day_started`, then by the operator being between the reset of
    that flag and its message (`owed`), and it is never in two of these places at once:

        finished w + owed w + [w not yet started today] = CURRENT_DAY
        DAY_FINISHED messages + those received = Σ finished w

    The director has received as many messages as there are operators only when every debt of the
    day is paid. -/

namespace PostOffice

open Transition

namespace Event

variable {workers users : ℕ}

/-- `DAY_FINISHED` by the operator. -/
def isDayFinished (w : Fin workers) : Event workers users → Bool
  | .dayFinished v => v = w
  | _ => false

/-- `DAY_FINISHED` by anyone. -/
def isAnyDayFinished : Event workers users → Bool
  | .dayFinished _ => true
  | _ => false

end Event

variable {c : Setup}

/-! ### The debts of the operators -/

/-- How many `DAY_FINISHED` the operator has sent. -/
def Shared.finished (g : Shared c) (w : Fin c.nofWorkers) : ℕ :=
  g.hist.countP (Event.isDayFinished w)

namespace Operator

/-- What the two tests of the start of a day have seen. -/
def Starts (l : Operator c) : Prop :=
  (l.pc = .mainBreak → l.vars.dayStarted = true ∨ l.vars.terminateRequested = true) ∧
  (l.pc = .clearStarted → l.vars.dayStarted = true ∧ l.vars.terminateRequested = false)

variable {w : Fin c.nofWorkers} {l l' : Operator c} {g g' : Shared c}

theorem Starts.of_ne {l : Operator c} (h1 : l.pc ≠ .mainBreak) (h2 : l.pc ≠ .clearStarted) :
    Starts l :=
  ⟨fun h => absurd h h1, fun h => absurd h h2⟩

theorem step_starts {n : ℕ} (h : step w l g n = some (l', g')) (hI : Starts l) : Starts l' := by
  unfold step at h
  split at h
  · cases h
  unfold body at h
  cases hpc : l.pc <;> rw [hpc] at h <;> simp only at h
  case mainBreak =>
    split at h <;> cases h
    · exact .of_ne (by simp) (by simp)
    · rename_i hterm
      exact ⟨by simp, fun _ => ⟨(hI.1 hpc).resolve_right hterm, Bool.not_eq_true _ ▸ hterm⟩⟩
  case waitDayStarted | waitTerminate =>
    cases h
    simp only [Starts, Task.goto_pc, Task.goto_vars]
    split <;> simp_all
  case claimToken | scanLock | waitTicket | popLock | serveLock | pauseLock | releaseLock =>
    rcases semOpInterruptible_cases h with ⟨-, -, rfl, -⟩ | ⟨h1, -, -⟩ | ⟨-, rfl, -⟩
    all_goals exact .of_ne (by simp [*]) (by simp [*])
  case sendInit | serveReply | dayFinished =>
    rcases msgSendRetry_cases h with ⟨h1, -, -⟩ | ⟨-, rfl, -⟩
    all_goals exact .of_ne (by simp [*]) (by simp [*])
  all_goals
    try simp only [Task.nanosleep, forLoop] at h
    repeat' split at h
    all_goals cases h
    all_goals exact .of_ne (by simp [hpc]) (by simp [hpc])

/-- The part of the debt that the operator carries itself. -/
def debt (w : Fin c.nofWorkers) (l : Operator c) : ℕ :=
  ind (l.vars.dayStarted = true ∧ l.vars.terminateRequested = false) + ind ((view w l).busy = true)

/-- A move pays the debt with `DAY_FINISHED` and in no other way. -/
theorem Move.debt (hs : Starts l) (h : Move w l g l' g') :
    g'.finished w + debt w l' = g.finished w + debt w l := by
  unfold Operator.debt Shared.finished
  have hview (x : Operator c) : view w x = x.pc.view (c.workerService w) := rfl
  cases h with
  | silent hf hv => rw [hf, hv]
  | acquire hf σ hm hl hσ hv | release hf σ hm hl hv =>
    simp [hf, hv]
  | consume hf hpc hpc' =>
    simp [hf, hview, hpc, hpc', hs.2 hpc, OpPc.view, OpView.idle, OpView.starting]
  | init hf hpc hpc' | «begin» hf hpc hpc' | pop hf k t q hlen hq hpc hpc'
  | popEmpty hf k hlen hpc hpc' | serveStart hf k t m hpc hpc' | count hf k t n m hpc hpc'
  | reply hf k t hpc hpc' | pauseCount hf k hpc hpc' | pauseStats hf k hpc hpc'
  | raiseStop hf k hpc hpc' | finish hf hpc hpc' =>
    simp [hf, hview, hpc, hpc', OpPc.view, OpView.idle, OpView.starting, OpView.running,
      OpView.seated, Event.isDayFinished]
    try omega
  | takeToken hf hσ hv hv' | giveToken hf p hv hv' | dropToken hf hi p hv hv'
  | pass hf i hi hv hv' | sit hf i hi hv hv' | stand hf k hv hv' | dropSeat hf hi k hv hv'
  | takeJob hf hσ k hv hv' | dropJob hf hi k hv hv' =>
    simp [hf, hv, hv', OpView.scanning, OpView.seated, OpView.running, OpView.starting,
      OpView.idle]

end Operator

namespace Director

variable {pc pc' : DirPc c.nofWorkerSeats c.nofWorkers c.nofUsers} {v v' : DirVars}
  {g g' : Shared c}

/-- A new day puts every operator in debt; its `SIGUSR1` hands the debt over. -/
theorem Move.start (h : Move pc v g pc' v' g') (w : Fin c.nofWorkers)
    (hday : pc.betweenDays = true → v.day = g.currentDay + 1)
    (hp : pc.preStart w = true → g.pending (.operator w) .usr1 = false) :
    ind (g'.pending (.operator w) .usr1 = true) + ind (pc'.preStart w = true) + g.currentDay =
      ind (g.pending (.operator w) .usr1 = true) + ind (pc.preStart w = true) + g'.currentDay := by
  cases h
  case stay => rfl
  case setDay =>
    have := hday rfl
    simp only [DirPc.preStart]
    simp
    omega
  case startWorkersNext i hi | startWorkersLast i hi =>
    simp only [DirPc.preStart, decide_eq_true_eq, Shared.kill_pending,
      Shared.kill_currentDay, Fin.le_def, Function.update_apply] at hp ⊢
    grind [ind]
  case startUsersNext | startUsersLast | stopWorkersNext | stopWorkersLast | stopUsersNext
      | stopUsersLast | termDispenser | termWorkersNext | termWorkersLast | termUsersNext
      | termUsersLast =>
    simp only [DirPc.preStart, Shared.kill_pending, Shared.kill_currentDay, Function.update_apply]
    grind [ind]
  all_goals rfl
/-- Until the barrier opens, an operator that is handed a debt is live. -/
theorem Move.live (h : Move pc v g pc' v' g') (w : Fin c.nofWorkers) (hne : pc' ≠ .countInit)
    (hp : pc.preStart w = true → g.pending (.operator w) .usr1 = false) :
    ind (g'.pending (.operator w) .usr1 = true) + ind (pc.live w = true) ≤
      ind (g.pending (.operator w) .usr1 = true) + ind (pc'.live w = true) := by
  cases h
  case stay => exact le_rfl
  case dayEndLast => exact absurd rfl hne
  case startWorkersNext i hi | startWorkersLast i hi =>
    simp only [DirPc.live, DirPc.dayOpen, DirPc.preStart, decide_eq_true_eq, Shared.kill_pending,
      Fin.le_def, Function.update_apply] at hp ⊢
    grind [ind]
  case startUsersNext | startUsersLast | stopWorkersNext | stopWorkersLast | stopUsersNext
      | stopUsersLast | termDispenser | termWorkersNext | termWorkersLast | termUsersNext
      | termUsersLast =>
    simp only [DirPc.live, DirPc.dayOpen, DirPc.preStart, Shared.kill_pending,
      Function.update_apply]
    grind [ind]
  all_goals exact le_rfl

/-- Each `DAY_FINISHED` message that leaves the queue is counted. -/
theorem Move.dayMessages (h : Move pc v g pc' v' g')
    (hinit : pc = .waitInit → g.msgs.countP (Message.isOfKind .dayFinished) = 0)
    (hday : pc.betweenDays = true → v.day = g.currentDay + 1)
    (hrecv : pc = .waitDayEnd → v.received < c.nofWorkers) :
    g'.msgs.countP (Message.isOfKind .dayFinished) + receivedOf .dayFinished pc' v'.received +
          (c.nofWorkers * g'.currentDay + c.nofWorkers * ind (pc.dayOpen = true)) =
        g.msgs.countP (Message.isOfKind .dayFinished) + receivedOf .dayFinished pc v.received +
          (c.nofWorkers * g.currentDay + c.nofWorkers * ind (pc'.dayOpen = true)) ∧
      (pc' = .waitDayEnd → v'.received < c.nofWorkers) := by
  cases h with
  | stay => exact ⟨rfl, hrecv⟩
  | setDay =>
    refine ⟨?_, by simp⟩
    simp [receivedOf, DirPc.dayOpen, hday rfl, Nat.mul_succ]
  | dayEndInit => exact ⟨rfl, fun _ => c.workers_pos⟩
  | dayEndOther hm hk hr | dayEndMore hm hk hr =>
    have hcount := Mailbox.countP_eraseP (Message.isOfKind .dayFinished) hm
    simp only [Message.isOfKind_director, hk, decide_true, decide_false, if_true,
      Bool.false_eq_true, if_false] at hcount
    refine ⟨?_, fun _ => hr⟩
    simp only [receivedOf, Shared.received_msgs, Shared.received_currentDay]
    omega
  | @dayEndLast _ _ _ m hm hv hr =>
    have hcount := Mailbox.countP_eraseP (Message.isOfKind .dayFinished) hm
    have hlt := hrecv rfl
    by_cases hk : m.kind = .dayFinished
    · simp only [Message.isOfKind_director, hk, decide_true, if_true] at hcount hv
      refine ⟨?_, by simp⟩
      simp only [receivedOf, Shared.received_msgs, Shared.received_currentDay, DirPc.dayOpen]
      rw [hv] at hr
      simp at hr ⊢
      omega
    · rw [hv, if_neg hk] at hr
      exact absurd hlt (Nat.not_lt.mpr hr)
  | initOther hm hk hr | initMore hm hk hr | initLast hm hk hr =>
    have hcount := Mailbox.countP_eraseP (Message.isOfKind .dayFinished) hm
    have hzero := hinit rfl
    refine ⟨?_, by simp⟩
    simp only [receivedOf, Shared.received_msgs, Shared.received_currentDay, DirPc.dayOpen]
    simp
    omega
  | flushReply => exact ⟨by simp [receivedOf, Message.isOfKind, DirPc.dayOpen], by simp⟩
  | _ => exact ⟨rfl, by simp⟩

end Director

/-! ### Who finishes -/

theorem Logs.finished_eq {p : c.Proc} {g g' : Shared c} (h : Logs p g g') {w : Fin c.nofWorkers}
    (hp : p ≠ .operator w) : g'.finished w = g.finished w := by
  refine h.countP_eq ?_
  intro e he
  cases e with
  | dayFinished v => simpa [Event.isDayFinished] using fun hv : v = w => hp (hv ▸ he.symm)
  | _ => rfl

theorem Logs.anyFinished_eq {p : c.Proc} {g g' : Shared c} (h : Logs p g g')
    (hp : ∀ w, p ≠ .operator w) :
    g'.hist.countP Event.isAnyDayFinished = g.hist.countP Event.isAnyDayFinished := by
  refine h.countP_eq ?_
  intro e he
  cases e with
  | dayFinished w => exact absurd he.symm (hp w)
  | _ => rfl

/-- All the operators together. -/
theorem Shared.total_finished (g : Shared c) :
    ∑ w, g.finished w = g.hist.countP Event.isAnyDayFinished := by
  refine Family.sum_countP (fun e => ?_) g.hist
  cases e with
  | dayFinished v => simp [Event.isDayFinished, Event.isAnyDayFinished]
  | _ => simp [Event.isDayFinished, Event.isAnyDayFinished]

/-- An operator that finishes sends the message. -/
theorem Operator.Move.finishes {w : Fin c.nofWorkers} {l l' : Operator c} {g g' : Shared c}
    (h : Operator.Move w l g l' g') :
    g'.msgs.countP (Message.isOfKind .dayFinished) + g.hist.countP Event.isAnyDayFinished =
      g.msgs.countP (Message.isOfKind .dayFinished) + g'.hist.countP Event.isAnyDayFinished := by
  cases h <;> simp [Message.isOfKind, Event.isAnyDayFinished]
  omega

theorem Dispenser.Move.finishes {pc pc' : DispPc c.nofWorkerSeats} {f : DispFlags}
    {g g' : Shared c} (h : Dispenser.Move pc f g pc' g') :
    g'.msgs.countP (Message.isOfKind .dayFinished) =
      g.msgs.countP (Message.isOfKind .dayFinished) := by
  cases h with
  | receive hm hs | receiveInvalid hm hs =>
    exact Shared.countP_received hm (isOfKind_of_mtype (by decide))
  | _ => simp [Message.isOfKind]

theorem User.Move.finishes {u : Fin c.nofUsers} {pc pc' : UserPc} {f : UserFlags}
    {g g' : Shared c} (h : User.Move u pc f g pc' g') :
    g'.msgs.countP (Message.isOfKind .dayFinished) =
      g.msgs.countP (Message.isOfKind .dayFinished) := by
  cases h with
  | receive hm => exact Shared.countP_received hm (isOfKind_of_mtype (replyMtype_ne u))
  | _ => simp [Message.isOfKind]

/-! ### The invariant -/

namespace State

/-- The debt of the operator, wherever it is. -/
def owed (s : State c) (w : Fin c.nofWorkers) : ℕ :=
  ind (s.g.pending (.operator w) .usr1 = true) + Operator.debt w (s.operators w)

/-- The accounts of the barrier. -/
structure Barrier (s : State c) : Prop where
  day : s.director.pc.ending = false →
    s.director.vars.day = s.g.currentDay + ind (s.director.pc.betweenDays = true)
  starts : ∀ w, (s.operators w).Starts
  account : ∀ w, s.g.finished w + s.owed w + ind (s.director.pc.preStart w = true) =
    s.g.currentDay
  owed_le : ∀ w, s.owed w ≤ ind (s.director.pc.live w = true)
  received : s.director.pc = .waitDayEnd → s.director.vars.received < c.nofWorkers
  messages : s.g.msgs.countP (Message.isOfKind .dayFinished) +
      Director.receivedOf .dayFinished s.director.pc s.director.vars.received +
        c.nofWorkers * s.g.currentDay =
    s.g.hist.countP Event.isAnyDayFinished + c.nofWorkers * ind (s.director.pc.dayOpen = true)

end State

theorem Director.Move.day {pc pc' : DirPc c.nofWorkerSeats c.nofWorkers c.nofUsers}
    {v v' : DirVars} {g g' : Shared c} (h : Director.Move pc v g pc' v' g')
    (hI : pc.ending = false → v.day = g.currentDay + ind (pc.betweenDays = true)) :
    pc'.ending = false → v'.day = g'.currentDay + ind (pc'.betweenDays = true) := by
  cases h with
  | stay => exact hI
  | initLast hm hv hr | dayEndLast hm hv hr =>
    subst hv
    exact fun _ => hI rfl
  | dayEnd h => exact fun _ => congrArg (· + 1) (hI rfl)
  | setDay => exact fun _ => rfl
  | dayOver | dayBreak | timeout | keepCause | finalLock | finalPrint | finalUnlock
  | termDispenser | termWorkersNext | termWorkersLast | termUsersNext | termUsersLast
  | reapWorkerNext | reapWorkerLast | reapUserNext | reapUserLast | reapDispenser | cleanupNext
  | cleanupLast | logStop =>
    exact fun h => by cases h
  | _ => exact fun _ => hI rfl

namespace State

variable {s : State c}

/-- Signal delivery moves a debt from the pending signal to the flag. -/
theorem owed_deliverTo {p : c.Proc} {sigs : List Signal} {w : Fin c.nofWorkers}
    (hp : ∀ sig ∈ sigs, s.g.pending p sig = true) (hle : s.owed w ≤ 1)
    (hflag : (s.operators w).vars.terminateRequested = true → s.owed w = 0)
    (hterm : .term ∈ sigs → p = .operator w → s.owed w = 0) :
    (s.deliverTo sigs p).owed w = s.owed w := by
  unfold owed Operator.debt at *
  rw [deliverTo_operators, deliverTo_g]
  by_cases hpw : p = .operator w
  · subst hpw
    have h1 := hp .usr1
    simp only [if_true, Shared.delivered_pending, Function.update_self, Task.deliver_vars,
      foldl_handleOperatorSignal, Operator.view, Task.deliver_pc] at *
    by_cases hu : Signal.usr1 ∈ sigs <;> by_cases ht : Signal.term ∈ sigs <;>
      simp_all [ind]
  · have hpw' : Proc.operator w ≠ p := fun h => hpw h.symm
    simp [hpw, hpw']

/-- Every debt is paid when nobody owes more than the day allows and as many messages were sent as
    there are operators for each day. -/
theorem Barrier.paid (hle : ∀ w, s.g.finished w ≤ s.g.currentDay)
    (h : c.nofWorkers * s.g.currentDay ≤ s.g.hist.countP Event.isAnyDayFinished)
    (w : Fin c.nofWorkers) : s.g.finished w = s.g.currentDay := by
  refine Family.eq_of_card_mul_le (fun w (_ : Unit) => s.g.finished w) (fun _ => ()) hle ?_ w
  rw [Fintype.card_fin]
  exact h.trans s.g.total_finished.ge

namespace Barrier

variable {s' : State c}

theorem not_owed (hI : s.Barrier) {w : Fin c.nofWorkers}
    (h : s.director.pc.live w = false) : s.owed w = 0 := by
  have hle := hI.owed_le w
  rw [h] at hle
  exact Nat.le_zero.mp hle

theorem not_pending (hI : s.Barrier) {w : Fin c.nofWorkers}
    (h : s.director.pc.preStart w = true) : s.g.pending (.operator w) .usr1 = false := by
  have hlive : s.director.pc.live w = false := by simp [DirPc.live, h]
  have howed := hI.not_owed hlive
  cases hp : s.g.pending (.operator w) .usr1
  · rfl
  · simp [owed, hp] at howed

theorem finished_eq (hI : s.Barrier) (h : s.director.pc.dayOpen = false) (w : Fin c.nofWorkers) :
    s.g.finished w = s.g.currentDay := by
  have haccount := hI.account w
  have howed := hI.not_owed (show s.director.pc.live w = false by simp [DirPc.live, h])
  have hpre : s.director.pc.preStart w = false := by
    by_contra hp
    rw [Bool.not_eq_false] at hp
    exact Bool.false_ne_true (h ▸ DirPc.dayOpen_of_preStart hp)
  rw [howed, hpre] at haccount
  simpa using haccount

/-- Between the days all `DAY_FINISHED` messages have been received. -/
theorem drained (hI : s.Barrier) (h : s.director.pc.dayOpen = false) :
    s.g.msgs.countP (Message.isOfKind .dayFinished) = 0 := by
  have htotal : s.g.hist.countP Event.isAnyDayFinished = c.nofWorkers * s.g.currentDay := by
    rw [← s.g.total_finished, Finset.sum_const_nat fun w _ => hI.finished_eq h w,
      Finset.card_univ, Fintype.card_fin]
  have hm := hI.messages
  rw [htotal, h, ind_of_not Bool.false_ne_true] at hm
  omega

theorem step_director {l' : Director c} {g' : Shared c} (hI : s.Barrier)
    (h : Director.Move s.director.pc s.director.vars s.g l'.pc l'.vars g') :
    (s.setDirector (l', g')).Barrier := by
  have hday := h.day hI.day
  have hbetween (hb : s.director.pc.betweenDays = true) :
      s.director.vars.day = s.g.currentDay + 1 := by
    have hend : s.director.pc.ending = false := by
      revert hb
      cases s.director.pc <;> simp [DirPc.betweenDays, DirPc.ending]
    rw [hI.day hend, ind_of hb]
  have hfin (w) : g'.finished w = s.g.finished w := h.logs.finished_eq (by simp)
  have hany := h.logs.anyFinished_eq (by simp)
  obtain ⟨hmsg, hrecv⟩ := h.dayMessages (fun hpc => hI.drained (by rw [hpc]; rfl))
    hbetween hI.received
  have hm := hI.messages
  have hmessages : g'.msgs.countP (Message.isOfKind .dayFinished) +
      Director.receivedOf .dayFinished l'.pc l'.vars.received + c.nofWorkers * g'.currentDay =
        g'.hist.countP Event.isAnyDayFinished + c.nofWorkers * ind (l'.pc.dayOpen = true) := by
    omega
  have haccount (w) : g'.finished w + (ind (g'.pending (.operator w) .usr1 = true) +
      Operator.debt w (s.operators w)) + ind (l'.pc.preStart w = true) = g'.currentDay := by
    have hs := h.start w hbetween hI.not_pending
    have ha := hI.account w
    unfold owed at ha
    rw [hfin]
    omega
  refine ⟨hday, hI.starts, haccount, fun w => ?_, hrecv, hmessages⟩
  · show ind (g'.pending (.operator w) .usr1 = true) + Operator.debt w (s.operators w) ≤
      ind (l'.pc.live w = true)
    by_cases hne : l'.pc = .countInit
    · -- the barrier has opened: the number of messages leaves no debt
      have hle (v) : g'.finished v ≤ g'.currentDay := by
        have := haccount v
        omega
      have hopen : ind (l'.pc.dayOpen = true) = 0 := by rw [hne]; rfl
      have hpaid : g'.finished w = g'.currentDay :=
        paid (s := s.setDirector (l', g')) hle (by
          show c.nofWorkers * g'.currentDay ≤ g'.hist.countP Event.isAnyDayFinished
          rw [hopen] at hmessages
          omega) w
      have := haccount w
      omega
    · have hl := h.live w hne hI.not_pending
      have ho := hI.owed_le w
      unfold owed at ho
      omega

theorem step_operator {l' : Operator c} {g' : Shared c} {w : Fin c.nofWorkers} {n : ℕ}
    (hI : s.Barrier) (hstep : Operator.step w (s.operators w) s.g n = some (l', g')) :
    (s.setOperator w (l', g')).Barrier := by
  have h := Operator.step_move hstep
  have hdebt := h.debt (hI.starts w)
  have hle := h.logs.countP_le (Event.isDayFinished w)
  have hmsg := h.finishes
  have hpend : g'.pending = s.g.pending := by rw [h.frame]
  have hcur : g'.currentDay = s.g.currentDay := by rw [h.frame]
  have hfin (v : Fin c.nofWorkers) (hv : v ≠ w) : g'.finished v = s.g.finished v :=
    h.logs.finished_eq (by simpa using hv.symm)
  have howed (v : Fin c.nofWorkers) : g'.finished v + (s.setOperator w (l', g')).owed v =
      s.g.finished v + s.owed v ∧ (s.setOperator w (l', g')).owed v ≤ s.owed v := by
    simp only [owed, setOperator_g, setOperator_operators, hpend]
    by_cases hv : v = w
    · subst hv
      rw [Function.update_self]
      unfold Shared.finished at *
      omega
    · rw [Function.update_of_ne hv, hfin v hv]
      exact ⟨rfl, le_rfl⟩
  refine ⟨fun hend => (hI.day hend).trans (by simp [hcur]), fun v => ?_, fun v => ?_,
    fun v => (howed v).2.trans (hI.owed_le v), hI.received, ?_⟩
  · rw [setOperator_operators]
    by_cases hv : v = w
    · subst hv
      rw [Function.update_self]
      exact Operator.step_starts hstep (hI.starts v)
    · rw [Function.update_of_ne hv]
      exact hI.starts v
  · rw [← Shared.finished] at *
    have := hI.account v
    have := (howed v).1
    simp only [setOperator_g, setOperator_director, hcur]
    omega
  · have := hI.messages
    simp only [setOperator_g, setOperator_director, hcur]
    omega

/-- Who touches neither the director, nor the operators, nor what the accounts are kept of. -/
theorem congr (hI : s.Barrier) (hdir : s'.director = s.director)
    (hops : s'.operators = s.operators) (hcur : s'.g.currentDay = s.g.currentDay)
    (hpend : ∀ w, s'.g.pending (.operator w) = s.g.pending (.operator w))
    (hfin : ∀ w, s'.g.finished w = s.g.finished w)
    (hany : s'.g.hist.countP Event.isAnyDayFinished = s.g.hist.countP Event.isAnyDayFinished)
    (hmsg : s'.g.msgs.countP (Message.isOfKind .dayFinished) =
      s.g.msgs.countP (Message.isOfKind .dayFinished)) : s'.Barrier := by
  have howed (w) : s'.owed w = s.owed w := by unfold owed; rw [hops, hpend]
  refine ⟨?_, ?_, ?_, ?_, ?_, ?_⟩
  · rw [hdir, hcur]
    exact hI.day
  · rw [hops]
    exact hI.starts
  · intro w
    rw [hdir, hcur, hfin, howed]
    exact hI.account w
  · intro w
    rw [hdir, howed]
    exact hI.owed_le w
  · rw [hdir]
    exact hI.received
  · rw [hdir, hcur, hany, hmsg]
    exact hI.messages

theorem step_deliver {p : c.Proc} {sigs : List Signal} (hT : s.Termination) (hI : s.Barrier)
    (hp : ∀ sig ∈ sigs, s.g.pending p sig = true) : (s.deliverTo sigs p).Barrier := by
  obtain ⟨b, hb⟩ := s.deliverTo_director_vars sigs p
  have hstop (w) (h : s.director.pc.stopping = true) : s.owed w = 0 :=
    hI.not_owed (by simp [DirPc.live, DirPc.dayOpen_of_stopping h])
  have howed (w) : (s.deliverTo sigs p).owed w = s.owed w :=
    owed_deliverTo hp ((hI.owed_le w).trans (ind_le_one _))
      (fun h => hstop w (hT.operator w h))
      (fun h hpw => hstop w (hT.pending p (by simp [hpw]) (hp _ h)))
  refine ⟨?_, ?_, ?_, ?_, ?_, ?_⟩
  · simpa [hb] using hI.day
  · intro w
    obtain ⟨hbreak, hclear⟩ := hI.starts w
    rw [deliverTo_operators]
    split
    · simp only [Operator.Starts, Task.deliver_pc, Task.deliver_vars, foldl_handleOperatorSignal,
        Bool.or_eq_true, Bool.or_eq_false_iff]
      refine ⟨fun h => ?_, fun h => ⟨.inl (.inl (hclear h).1), (hclear h).2, ?_⟩⟩
      · exact (hbreak h).imp (fun h => .inl (.inl h)) .inl
      · -- an operator that has seen its start still owes the day, so no termination is pending
        rw [decide_eq_false_iff_not]
        intro hterm
        have hpw : p = .operator w := ‹_›
        have := hstop w (hT.pending p (by simp [hpw]) (hp _ hterm))
        simp [owed, Operator.debt, hclear h] at this
    · exact ⟨hbreak, hclear⟩
  · intro w
    rw [howed]
    simpa [Shared.finished] using hI.account w
  · intro w
    rw [howed]
    simpa using hI.owed_le w
  · simpa [hb] using hI.received
  · simpa [hb] using hI.messages

theorem step (hT : s.Termination) (hI : s.Barrier) (h : s.Move s') : s'.Barrier := by
  cases h with
  | director hm => exact hI.step_director hm
  | operator w hstep hm => exact hI.step_operator hstep
  | dispenser hm hf =>
    exact hI.congr rfl rfl (by rw [hm.frame]; rfl) (fun w => by rw [hm.frame]; rfl)
      (fun w => hm.logs.finished_eq (by simp)) (hm.logs.anyFinished_eq (by simp)) hm.finishes
  | user u hm hf =>
    exact hI.congr rfl rfl (by rw [hm.frame]; rfl) (fun w => by rw [hm.frame]; rfl)
      (fun w => hm.logs.finished_eq (by simp)) (hm.logs.anyFinished_eq (by simp)) hm.finishes
  | deliver p sigs hp => exact hI.step_deliver hT hp
  | interrupt sig hsig =>
    exact hI.congr rfl rfl rfl (fun w => funext fun _ => by simp)
      (fun w => rfl) rfl rfl
  | tick ns => exact hI.congr rfl rfl rfl (fun w => rfl) (fun w => rfl) rfl rfl

theorem init : (State.init c).Barrier :=
  ⟨fun _ => rfl, fun _ => ⟨nofun, nofun⟩, fun _ => rfl, fun _ => le_rfl, nofun, rfl⟩

end Barrier

end State

theorem barrier {s : State c} (h : Reachable s) : s.Barrier :=
  h.invariant .init fun _ _ hr hI hm => hI.step (termination hr) hm

namespace State

variable {s : State c}

/-- An operator without a debt is outside `run_day` and holds nothing. -/
theorem Barrier.quiet (hI : s.Barrier) {w : Fin c.nofWorkers}
    (h : s.director.pc.live w = false) :
    s.view w = .idle ∨ s.view w = { OpView.idle with inited := false } := by
  refine OpPc.view_of_not_busy ?_
  have howed := hI.not_owed h
  by_contra hb
  rw [Bool.not_eq_false] at hb
  simp [owed, Operator.debt, Operator.view, hb] at howed

/-- No operator is inside `run_day` unless the day is open and the operator has been started. -/
theorem Barrier.not_inRun (hI : s.Barrier) {w : Fin c.nofWorkers}
    (h : s.director.pc.live w = false) : (s.view w).inRun = false := by
  rcases hI.quiet h with hv | hv <;> rw [hv] <;> rfl

theorem Barrier.live_of_inRun (hI : s.Barrier) {w : Fin c.nofWorkers}
    (h : (s.view w).inRun = true) : s.director.pc.live w = true := by
  by_contra hl
  exact Bool.false_ne_true ((hI.not_inRun (Bool.eq_false_iff.mpr hl)).symm.trans h)

/-- Inside `run_day` no signal but `SIGUSR2` is pending. -/
theorem Barrier.only_usr2 (hI : s.Barrier) (hT : s.Termination)
    (hint : ∀ p, p ≠ .director → s.g.pending p .int = false) {w : Fin c.nofWorkers}
    (hrun : (s.view w).inRun = true) {sig : Signal}
    (hp : s.g.pending (.operator w) sig = true) : sig = .usr2 := by
  have hopen := DirPc.dayOpen_of_live (hI.live_of_inRun hrun)
  cases sig with
  | usr2 => rfl
  | int => exact absurd (hp.symm.trans (hint (.operator w) (by simp))) Bool.false_ne_true.symm
  | term =>
    have hterm := hT.not_pending (DirPc.not_stopping_of_dayOpen hopen) (p := .operator w) (by simp)
    exact absurd (hterm.symm.trans hp) Bool.false_ne_true
  | usr1 =>
    have hle := (hI.owed_le w).trans (ind_le_one _)
    have hbusy : (Operator.view w (s.operators w)).busy = true := OpPc.busy_of_inRun hrun
    rw [owed, Operator.debt, ind_of hp, ind_of hbusy] at hle
    omega

end State

/-- CORRECT: the day barrier is exact. When `wait_for_workers_day_end` returns for a day, every
    operator has sent one `DAY_FINISHED` for each day up to it, no operator is inside `run_day` and
    no director message is queued; `wait_for_initialization` returns only when every child has sent
    its `INIT`; neither loop finds a message of the other's kind; and no operator is inside
    `run_day` while `assign_daily_counters` rewrites the counters, semaphores and queues. -/
theorem day_barrier_exact {s : State c} (h : Reachable s) :
    (s.director.pc = .countInit → (∀ w, s.g.finished w = s.director.vars.day) ∧
      (∀ w, (s.view w).inRun = false) ∧ ∀ m, Message.director m ∉ s.g.msgs) ∧
    (s.director.pc ≠ .waitInit → ∀ p, p ≠ .director → s.g.announced p = 1) ∧
    (s.director.pc = .waitInit → ∀ m ∈ s.g.msgs, m.isOfKind .dayFinished = false) ∧
    (s.director.pc = .waitDayEnd → ∀ m ∈ s.g.msgs, m.isOfKind .init = false) ∧
    (s.director.pc.assigning = true → ∀ w, (s.view w).inRun = false) := by
  have hA := announced h
  have hB := barrier h
  refine ⟨fun hpc => ⟨fun w => ?_, fun w => hB.not_inRun (by rw [hpc]; rfl), fun m hm => ?_⟩,
    fun hpc => (hA.all hpc).2,
    fun hpc m hm => Mailbox.not_mem_of_countP (hB.drained (by rw [hpc]; rfl)) hm,
    fun hpc m hm => Mailbox.not_mem_of_countP (hA.all (by simp [hpc])).1 hm,
    fun hpc w => hB.not_inRun (by simp [DirPc.live, DirPc.preStart_of_assigning hpc])⟩
  · have hday := hB.day (by rw [hpc]; rfl)
    rw [hB.finished_eq (by rw [hpc]; rfl) w, hday, hpc]
    rfl
  · have hinit := Mailbox.not_mem_of_countP (hA.all (by simp [hpc])).1 hm
    have hday := Mailbox.not_mem_of_countP (hB.drained (by rw [hpc]; rfl)) hm
    cases hk : m.kind <;> simp [hk] at hinit hday

/-- The first day of the small office. -/
theorem day_barrier_exact_small : ∃ s : State smallOffice,
    exec step SmallOffice.evening (State.init smallOffice) = some s ∧
      (∀ w, s.g.finished w = s.director.vars.day) ∧ ∀ p, p ≠ .director → s.g.announced p = 1 := by
  have hrun : ((exec step SmallOffice.evening (State.init smallOffice)).any fun s =>
      decide (s.director.pc = .countInit)) = true := by decide +kernel
  obtain ⟨s, hs, hpc⟩ := (Option.any_eq_true _ _).mp hrun
  have hpc : s.director.pc = .countInit := of_decide_eq_true hpc
  obtain ⟨hreturn, hinit, -⟩ := day_barrier_exact (reach_of_exec _ hs)
  exact ⟨s, hs, (hreturn hpc).1, hinit (by simp [hpc])⟩

end PostOffice
