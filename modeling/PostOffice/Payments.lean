import PostOffice.Prices

/-! Every step pays for itself: whatever one step of a program hands on, what the process and the
    shared objects have left drops by one at least. For each program there is one lemma, one case
    for each program point. -/

namespace PostOffice

variable {c : Setup}

/-- A pop of an empty queue leaves it as it is. -/
theorem length_pop_le (queue : ServiceQueue) : (serviceQueuePop queue).2.length ≤ queue.length := by
  by_cases h : queue.length = 0
  · exact (congrArg (fun x => x.2.length) (RingBuffer.pop_of_empty h)).le
  · exact (Nat.le_succ _).trans (RingBuffer.length_pop noTicket h).le

namespace Operator

variable {w : Fin c.nofWorkers} {l l' : Operator c} {g g' : Shared c}

theorem semOpInterruptible_work {σ : Sem c.nofWorkerSeats} {next onIntr : OpPc c.nofWorkerSeats}
    (h : semOpInterruptible l g σ next (l.goto onIntr) = some (l', g')) (hx : l.exited = false)
    (hnext : c.opWork next l.vars + 2 ≤ c.opWork l.pc l.vars + σ.work)
    (honIntr : c.opWork onIntr l.vars ≤ c.opWork l.pc l.vars + 18) :
    l'.work c.opWork + g'.workLeft + 1 ≤ l.work c.opWork + g.workLeft := by
  unfold semOpInterruptible at h
  split at h
  · split at h <;> cases h
    · exact Task.goto_work_of_eintr ‹_› honIntr
    · exact Task.retry_work ‹_›
  · exact Task.semWait_work h hx hnext

/-- A step of an operator pays for itself. -/
theorem step_work {n : ℕ} (h : step w l g n = some (l', g')) (hpc : l.pc ≠ .scanFallback) :
    l'.work c.opWork + g'.workLeft + 1 ≤ l.work c.opWork + g.workLeft := by
  unfold step at h
  split at h
  · cases h
  rename_i hx
  rw [Bool.not_eq_true] at hx
  unfold body at h
  cases hat : l.pc <;> rw [hat] at h hpc <;> simp only at h
  case claimToken | scanLock | waitTicket | popLock | releaseLock =>
    refine semOpInterruptible_work h hx ?_ ?_ <;> rw [hat] <;>
      simp only [Setup.opWork, OpPc.work, Sem.work, jobWork] <;> omega
  case serveLock | pauseLock =>
    unfold lockStats semOpInterruptible at h
    split at h
    · split at h <;> cases h
      · exact Task.exit_work ‹l.mode = .eintr›
      · exact Task.retry_work ‹l.mode = .eintr›
    · refine Task.semWait_work h hx ?_
      rw [hat]
      simp only [Setup.opWork, OpPc.work, Sem.work]
      omega
  case sendInit | serveReply | dayFinished =>
    simp only [sendDirectorMessage, sendUserReply, msgSendRetry] at h
    split at h
    · cases h
      exact Task.retry_work ‹l.mode = .eintr›
    · refine Task.msgSend_work h hx ?_
      rw [hat]
      simp only [Setup.opWork, OpPc.work, Setup.messageWork]
      omega
  case serveSleep =>
    split at h
    · cases h
      exact Task.retry_work ‹l.mode = .eintr›
    · refine Task.nanosleep_work h hx ?_
      rw [hat]
      simp only [Setup.opWork, OpPc.work]
      omega
  case tokenGiveBack | scanTaken | serveUnlock | pauseUnlock | releaseUnlock | releaseToken =>
    refine Task.semPost_work h ?_
    rw [hat]
    simp only [Setup.opWork, OpPc.work, Sem.work]
    omega
  case popUnlock =>
    refine Task.semPost_work h ?_
    rw [hat]
    split <;> simp only [Setup.opWork, OpPc.work, Sem.work] <;> omega
  case scanNext i =>
    refine Task.semPost_work h ?_
    have hi := i.isLt
    rw [hat]
    refine forLoop_cases (fun hk => ?_) ?_ <;>
      simp only [Setup.opWork, OpPc.work, Sem.work] <;> omega
  case tokenTerminate =>
    cases h
    refine Task.goto_work ?_
    rw [hat]
    split
    · simp only [Setup.opWork, OpPc.work]
      omega
    · refine forLoop_cases (fun hk => ?_) ?_ <;> simp only [Setup.opWork, OpPc.work] <;> omega
  case waitDayStarted | waitTerminate =>
    cases h
    refine Task.goto_work ?_
    rw [hat]
    split
    · have : startWork c.opDay true false ≤
          startWork c.opDay l.vars.dayStarted l.vars.terminateRequested :=
        startWork_le (by simp [*])
      simp only [Setup.opWork, OpPc.work]
      omega
    · simp only [Setup.opWork, OpPc.work]
      omega
  case claimTerminate | claimActive | claimStop | tokenActive | tokenStop | loopTerminate | loopStop
      | loopActive | serveStart | afterTerminate | afterStop | afterActive | pauseActive
      | pauseDraw =>
    cases h
    refine Task.goto_work ?_
    rw [hat]
    try split
    all_goals simp only [Setup.opWork, OpPc.work]
    all_goals omega
  case serveStats | pauseCount | pauseStats | releaseClear =>
    cases h
    refine Task.goto_work ?_
    rw [hat]
    simp only [Setup.opWork, OpPc.work]
    omega
  case scanCheck =>
    split at h <;> cases h
    all_goals
      refine Task.goto_work ?_
      rw [hat]
      simp only [Setup.opWork, OpPc.work]
      omega
  case clearStop | pauseStop =>
    cases h
    simp only [Shared.workLeft_log, Task.work, Task.goto, Task.setVars, Mode.work, hat,
      Setup.opWork, OpPc.work]
    omega
  case clearStarted =>
    cases h
    have : startWork c.opDay true l.vars.terminateRequested =
        startWork c.opDay false l.vars.terminateRequested + c.opDay := by
      simp [startWork, Nat.add_comm]
    simp only [Task.work, Task.goto, Task.setVars, Mode.work, hat, Setup.opWork, OpPc.work]
    simp only [Setup.opDay] at this ⊢
    omega
  case popTake k =>
    cases h
    have hqueue := g.workLeft_setQueue (c.workerService w)
      (serviceQueuePop (g.queues (c.workerService w))).2
    have := Nat.mul_le_mul_left flushWork (length_pop_le (g.queues (c.workerService w)))
    rw [Shared.workLeft_log]
    simp only [Task.work, Task.goto, Mode.work, hat, Setup.opWork, OpPc.work]
    omega
  case mainTest | mainBreak =>
    split at h <;> cases h
    · simp only [Task.work, Task.goto, Task.exit, Mode.work, hat, Setup.opWork, OpPc.work]
      omega
    · refine Task.goto_work ?_
      rw [hat]
      simp only [Setup.opWork, OpPc.work, *]
      omega
  case suspend =>
    split at h
    · cases h
      refine Task.goto_work_of_eintr ‹l.mode = .eintr› ?_
      rw [hat]
      simp only [Setup.opWork, OpPc.work]
      omega
    · split at h <;> cases h
      exact Task.sleep_work hx ‹_›
  case done => cases h
  case scanFallback => exact absurd rfl hpc

end Operator

namespace User

variable {u : Fin c.nofUsers} {l l' : User} {g g' : Shared c}

/-- A step of a user pays for itself. -/
theorem step_work {n : ℕ} (h : step u l g n = some (l', g')) :
    l'.work c.userWork + g'.workLeft + 1 ≤ l.work c.userWork + g.workLeft := by
  unfold step at h
  split at h
  · cases h
  rename_i hx
  rw [Bool.not_eq_true] at hx
  unfold body at h
  cases hat : l.pc <;> rw [hat] at h <;> simp only at h
  case sendInit =>
    split at h
    · cases h
      exact Task.retry_work ‹l.mode = .eintr›
    · refine Task.msgSend_work h hx ?_
      rw [hat]
      simp only [Setup.userWork, UserPc.work, Setup.messageWork]
      omega
  case requestSend =>
    repeat' split at h
    · cases h
      refine Task.goto_work_of_eintr ‹l.mode = .eintr› ?_
      rw [hat]
      simp only [Setup.userWork, UserPc.work]
      omega
    · cases h
      exact Task.retry_work ‹l.mode = .eintr›
    · refine Task.msgSend_work h hx ?_
      rw [hat]
      simp only [Setup.userWork, UserPc.work, Setup.messageWork]
      omega
  case requestWait =>
    repeat' split at h
    · cases h
      refine Task.goto_work_of_eintr ‹l.mode = .eintr› ?_
      rw [hat]
      simp only [Setup.userWork, UserPc.work]
      omega
    · cases h
      exact Task.retry_work ‹l.mode = .eintr›
    · unfold receiveReply at h
      dsimp only at h
      repeat' split at h
      all_goals cases h
      · have := Shared.workLeft_received ‹g.firstOfType _ = some _›
        simp only [Task.work, Task.goto, Mode.work, hat, Setup.userWork, UserPc.work]
        omega
      · exact Task.sleep_work hx ‹_›
  case arrive =>
    split at h
    · cases h
      refine Task.goto_work_of_eintr ‹l.mode = .eintr› ?_
      rw [hat]
      simp only [Setup.userWork, UserPc.work]
      omega
    · refine Task.nanosleep_work h hx ?_
      rw [hat]
      simp only [Setup.userWork, UserPc.work]
      omega
  case waitDayStarted | waitTerminate =>
    cases h
    refine Task.goto_work ?_
    rw [hat]
    split
    · have : startWork c.userDay true false ≤
          startWork c.userDay l.vars.dayStarted l.vars.terminateRequested :=
        startWork_le (by simp [*])
      simp only [Setup.userWork, UserPc.work]
      omega
    · simp only [Setup.userWork, UserPc.work]
      omega
  case drawGo | drawService | drawArrival | wakeTerminate | wakeClosed | wakeActive | goTerminate
      | goClosed | goActive =>
    cases h
    refine Task.goto_work ?_
    rw [hat]
    try split
    all_goals simp only [Setup.userWork, UserPc.work]
    all_goals omega
  case clearStarted =>
    cases h
    have : startWork c.userDay true l.vars.terminateRequested =
        startWork c.userDay false l.vars.terminateRequested + c.userDay := by
      simp [startWork, Nat.add_comm]
    simp only [Task.work, Task.goto, Task.setVars, Mode.work, hat, Setup.userWork, UserPc.work]
    simp only [Setup.userDay] at this ⊢
    omega
  case clearClosed =>
    cases h
    simp only [Shared.workLeft_log, Task.work, Task.goto, Task.setVars, Mode.work, hat,
      Setup.userWork, UserPc.work]
    omega
  case mainTest | mainBreak =>
    split at h <;> cases h
    · simp only [Task.work, Task.goto, Task.exit, Mode.work, hat, Setup.userWork, UserPc.work]
      omega
    · refine Task.goto_work ?_
      rw [hat]
      simp only [Setup.userWork, UserPc.work, *]
      omega
  case suspend =>
    split at h
    · cases h
      refine Task.goto_work_of_eintr ‹l.mode = .eintr› ?_
      rw [hat]
      simp only [Setup.userWork, UserPc.work]
      omega
    · split at h <;> cases h
      exact Task.sleep_work hx ‹_›
  case done => cases h

end User

namespace Dispenser

variable {l l' : Dispenser c} {g g' : Shared c}

theorem semOpRetry_work {σ : Sem c.nofWorkerSeats} {next : DispPc c.nofWorkerSeats}
    (h : semOpRetry l g σ next = some (l', g')) (hx : l.exited = false)
    (hnext : next.work + 2 ≤ l.pc.work) :
    l'.work (fun pc _ => pc.work) + g'.workLeft + 1 ≤
      l.work (fun pc _ => pc.work) + g.workLeft := by
  unfold semOpRetry at h
  split at h
  · split at h <;> cases h
    · exact Task.exit_work ‹l.mode = .eintr›
    · exact Task.retry_work ‹l.mode = .eintr›
  · exact Task.semWait_work h hx (by omega)

theorem sendUserReply_work {pid : ℤ} {status : UserReplyStatus} {service : Service}
    {next : DispPc c.nofWorkerSeats} (h : sendUserReply l g pid status service next = some (l', g'))
    (hx : l.exited = false) (hnext : next.work + 2 ≤ l.pc.work) :
    l'.work (fun pc _ => pc.work) + g'.workLeft + 1 ≤
      l.work (fun pc _ => pc.work) + g.workLeft := by
  unfold sendUserReply at h
  split at h
  · split at h <;> cases h
    · exact Task.goto_work_of_eintr ‹l.mode = .eintr› (by omega)
    · exact Task.retry_work ‹l.mode = .eintr›
  · exact Task.msgSend_work h hx hnext

/-- A step of the dispenser pays for itself. -/
theorem step_work (h : step l g = some (l', g')) :
    l'.work (fun pc _ => pc.work) + g'.workLeft + 1 ≤
      l.work (fun pc _ => pc.work) + g.workLeft := by
  unfold step at h
  split at h
  · cases h
  rename_i hx
  rw [Bool.not_eq_true] at hx
  unfold body at h
  cases hat : l.pc <;> rw [hat] at h <;> simp only at h
  case sendInit =>
    split at h
    · cases h
      exact Task.retry_work ‹l.mode = .eintr›
    · refine Task.msgSend_work h hx ?_
      rw [hat]
      exact le_rfl
  case mainTest =>
    split at h <;> cases h
    · simp only [Task.work, Task.goto, Task.exit, Mode.work, hat, DispPc.work]
      omega
    · refine Task.goto_work ?_
      rw [hat]
      exact le_rfl
  case receive =>
    repeat' split at h
    all_goals cases h
    · simp only [Task.work, Task.goto, Task.exit, Mode.work, DispPc.work, *]
      omega
    · refine Task.goto_work_of_eintr ‹l.mode = .eintr› ?_
      rw [hat]
      simp only [DispPc.work]
      omega
    iterate 2
      · have := Shared.workLeft_received ‹g.firstOfType _ = some _›
        simp only [Task.work, Task.goto, Mode.work, hat, DispPc.work, Setup.messageWork,
          Setup.requestWork] at this ⊢
        omega
    · exact Task.sleep_work hx ‹_›
  case invalidReply | refuseReply =>
    refine sendUserReply_work h hx ?_
    rw [hat]
    exact le_rfl
  case countLock | queueLock | refuseLock =>
    refine semOpRetry_work h hx ?_
    rw [hat]
    simp only [DispPc.work]
    omega
  case countUnlock | pushUnlock | postJob | rejectUnlock | refuseUnlock =>
    refine Task.semPost_work h ?_
    rw [hat]
    simp only [DispPc.work, Sem.work, jobWork, flushWork]
    omega
  case testActive =>
    cases h
    refine Task.goto_work ?_
    rw [hat]
    split
    · refine forLoop_cases (fun hk => ?_) ?_ <;> simp only [DispPc.work] <;> omega
    · simp only [DispPc.work]
      omega
  case offered i =>
    cases h
    refine Task.goto_work ?_
    have hi := i.isLt
    rw [hat]
    split
    · simp only [DispPc.work]
      omega
    · refine forLoop_cases (fun hk => ?_) ?_ <;> simp only [DispPc.work] <;> omega
  case queueActive | queueFull | stamp =>
    cases h
    refine Task.goto_work ?_
    rw [hat]
    try split
    all_goals simp only [DispPc.work, jobWork, flushWork]
    all_goals omega
  case countStats | refuseStats =>
    cases h
    refine Task.goto_work ?_
    rw [hat]
    simp only [DispPc.work]
    omega
  case push m s t =>
    split at h <;> cases h
    · rename_i q hpush
      have hqueue := g.workLeft_setQueue s q
      rw [RingBuffer.length_push hpush, Nat.mul_succ] at hqueue
      rw [Shared.workLeft_log]
      simp only [Task.work, Task.goto, Mode.work, hat, DispPc.work]
      omega
    · refine Task.goto_work ?_
      rw [hat]
      simp only [DispPc.work, jobWork, flushWork]
      omega
  case done => cases h

end Dispenser

namespace Director

variable {l l' : Director c} {g g' : Shared c}
  {pc next : DirPc c.nofWorkerSeats c.nofWorkers c.nofUsers} {day n : ℕ}

/-- The way from `pc` to `next` within a day, or out of the loop over the days, takes `n`. -/
def Spends (c : Setup) (day n : ℕ) (pc next : DirPc c.nofWorkerSeats c.nofWorkers c.nofUsers) :
    Prop :=
  next.daysLeft c day ≤ pc.daysLeft c day ∧ next.work c + n ≤ pc.work c

theorem Spends.le {v v' : DirVars} (h : Spends c v.day n pc next) (hday : v'.day = v.day) :
    c.dirWork next v' + n ≤ c.dirWork pc v := by
  obtain ⟨hdays, hwork⟩ := h
  have := Nat.mul_le_mul_left c.directorDay hdays
  simp only [Setup.dirWork, hday]
  omega

theorem Spends.work (h : Spends c l.vars.day n l.pc l'.pc) (hm : l'.mode = .running)
    (hday : l'.vars.day = l.vars.day) (hg : g'.workLeft + 2 ≤ g.workLeft + n) :
    l'.work c.dirWork + g'.workLeft + 1 ≤ l.work c.dirWork + g.workLeft := by
  have := h.le hday
  simp only [Task.work, Mode.work, hm]
  omega

theorem semOpRetry_work {σ : Sem c.nofWorkerSeats} (h : semOpRetry l g σ next = some (l', g'))
    (hx : l.exited = false) (hs : Spends c l.vars.day 2 l.pc next) :
    l'.work c.dirWork + g'.workLeft + 1 ≤ l.work c.dirWork + g.workLeft := by
  unfold semOpRetry at h
  split at h
  · split at h <;> cases h
    · exact Task.exit_work ‹l.mode = .eintr›
    · exact Task.retry_work ‹l.mode = .eintr›
  · exact Task.semWait_work h hx ((hs.le rfl).trans (Nat.le_add_right _ _))

theorem semPost_work {σ : Sem c.nofWorkerSeats} (h : l.semPost g σ next = some (l', g'))
    (hσ : σ.work = 0) (hs : Spends c l.vars.day 2 l.pc next) :
    l'.work c.dirWork + g'.workLeft + 1 ≤ l.work c.dirWork + g.workLeft := by
  refine Task.semPost_work h ?_
  rw [hσ]
  exact hs.le rfl

theorem waitpid_work {p : c.Proc} {ex : c.Proc → Bool} (h : waitpid l g p ex next = some (l', g'))
    (hx : l.exited = false) (hs : Spends c l.vars.day 2 l.pc next) :
    l'.work c.dirWork + g'.workLeft + 1 ≤ l.work c.dirWork + g.workLeft := by
  unfold waitpid at h
  repeat' split at h
  all_goals cases h
  · exact Task.goto_work (hs.le rfl)
  · exact Task.goto_work (hs.le rfl)
  · exact Task.sleep_work hx ‹_›

/-- Each round of the two loops over the messages consumes one. -/
theorem receiveDirector_work {kind : DirectorMessageKind} {expected : ℕ}
    (h : receiveDirector l g (countMessage l kind expected l.pc next) = some (l', g'))
    (hx : l.exited = false) (hs : Spends c l.vars.day 0 l.pc next) :
    l'.work c.dirWork + g'.workLeft + 1 ≤ l.work c.dirWork + g.workLeft := by
  unfold receiveDirector at h
  repeat' split at h
  all_goals cases h
  · exact Task.retry_work ‹_›
  · have hpc : ∀ k, Spends c l.vars.day 0 l.pc (if k < expected then l.pc else next) := by
      intro k
      split
      · exact ⟨le_rfl, le_rfl⟩
      · exact hs
    have hreceived := Shared.workLeft_received ‹g.firstOfType _ = some _›
    exact (hpc _).work rfl rfl hreceived.le
  · exact Task.sleep_work hx ‹_›

theorem sendSignal_work_le (p : c.Proc) (sig : Signal) :
    (sendSignal g p sig).workLeft ≤ g.workLeft + c.signalWork p := by
  unfold sendSignal
  split
  · exact Shared.workLeft_kill_le p sig
  · exact Nat.le_add_right _ _

/-- A loop that spends `a` in each round. -/
theorem mul_sub_succ (a : ℕ) {n i : ℕ} (h : i < n) : a * (n - i) = a * (n - (i + 1)) + a := by
  rw [show n - i = n - (i + 1) + 1 by omega, Nat.mul_succ]

/-- A step of the director pays for itself. -/
theorem step_work {childExited : c.Proc → Bool} (h : step l g childExited n = some (l', g')) :
    l'.work c.dirWork + g'.workLeft + 1 ≤ l.work c.dirWork + g.workLeft := by
  unfold step at h
  split at h
  · cases h
  rename_i hx
  rw [Bool.not_eq_true] at hx
  have hcount : serviceCount = 6 := rfl
  have hzero : ((0 : Service) : ℕ) = 0 := rfl
  unfold body at h
  cases hat : l.pc <;> rw [hat] at h <;> simp only at h
  case waitInit | waitDayEnd =>
    rw [← hat] at h
    refine receiveDirector_work h hx ?_
    rw [hat]
    refine ⟨le_rfl, ?_⟩
    simp only [DirPc.work]
    omega
  case dayTest =>
    cases h
    refine Task.goto_work ?_
    rw [hat]
    split
    · have hday : c.simDuration + 1 - l.vars.day = c.simDuration - l.vars.day + 1 := by omega
      simp only [Setup.dirWork, DirPc.daysLeft, DirPc.ending, DirPc.work, hday, Nat.mul_succ,
        Setup.directorDay, Bool.false_eq_true, if_false]
      omega
    · refine Spends.le ⟨Nat.zero_le _, ?_⟩ rfl
      simp only [DirPc.work, Setup.endWork]
      omega
  case dayEnd =>
    split at h <;> cases h
    · refine Task.goto_work ?_
      rw [hat]
      refine Spends.le ⟨Nat.zero_le _, ?_⟩ rfl
      simp only [DirPc.work, Setup.endWork]
      omega
    · simp only [Task.work, Task.goto, Task.setVars, Mode.work, hat, Setup.dirWork, DirPc.daysLeft,
        DirPc.ending, DirPc.work, Nat.add_sub_add_right, Bool.false_eq_true, if_false]
      omega
  case resetLock | finalLock | printLock | countLock | flushLock | flushStatsLock | assignLock =>
    refine semOpRetry_work h hx ?_
    rw [hat]
    refine ⟨le_rfl, ?_⟩
    simp only [DirPc.work, Setup.directorDay, Setup.endWork]
    omega
  case flushUnlock | flushStatsUnlock | printUnlock =>
    refine semPost_work h rfl ?_
    rw [hat]
    refine ⟨le_rfl, ?_⟩
    simp only [DirPc.work]
    omega
  case setDay | resetStats | dayEndInit | countInit | countRead | flushInit | flushStats
      | printActive | printDaily | finalPrint =>
    cases h
    refine Spends.work (n := 2) ?_ rfl rfl le_rfl
    rw [hat]
    refine ⟨le_rfl, ?_⟩
    simp only [Task.goto_pc, DirPc.work, Setup.directorDay, Setup.endWork]
    omega
  case decide | setCause =>
    cases h
    refine Spends.work (n := 2) ?_ rfl rfl ?_
    · rw [hat]
      refine ⟨le_rfl, ?_⟩
      simp only [Task.goto_pc, DirPc.work, Setup.endWork]
      omega
    · split <;> exact le_rfl
  case finalUnlock =>
    refine semPost_work h rfl ?_
    rw [hat]
    refine ⟨le_rfl, ?_⟩
    simp only [DirPc.work, Setup.endWork]
    omega
  case countUnlock s =>
    have hs := s.isLt
    refine semPost_work h rfl ?_
    rw [hat]
    refine forLoop_cases (fun hk => ⟨le_rfl, ?_⟩) ⟨le_rfl, ?_⟩ <;> simp only [DirPc.work] <;> omega
  case assignUnlock i =>
    have hi := i.isLt
    refine semPost_work h rfl ?_
    rw [hat]
    refine forLoop_cases (fun hk => ⟨le_rfl, ?_⟩) ⟨le_rfl, ?_⟩ <;>
      simp only [DirPc.work] <;> omega
  case resetUnlock =>
    refine semPost_work h rfl ?_
    rw [hat]
    refine forLoop_cases (fun hk => ⟨le_rfl, ?_⟩) ⟨le_rfl, ?_⟩ <;>
      simp only [DirPc.work, Setup.directorDay] <;> omega
  case activate | deactivate =>
    cases h
    refine Spends.work (n := 2) ?_ rfl rfl le_rfl
    rw [hat]
    refine forLoop_cases (fun hk => ⟨le_rfl, ?_⟩)
      (forLoop_cases (fun hk => ⟨le_rfl, ?_⟩) ⟨le_rfl, ?_⟩) <;>
      simp only [Task.goto_pc, DirPc.work, Setup.workersWork, Setup.usersWork, Nat.sub_zero] <;>
      omega
  case startWorkers i | stopWorkers i =>
    cases h
    have hi := mul_sub_succ (2 * c.opDay + 23) i.isLt
    refine Spends.work (n := 2 * c.opDay + 23) ?_ rfl rfl
      (Nat.add_le_add_right (sendSignal_work_le _ _) 2)
    rw [hat]
    refine forLoop_cases (fun hk => ⟨le_rfl, ?_⟩)
      (forLoop_cases (fun hk => ⟨le_rfl, ?_⟩) ⟨le_rfl, ?_⟩) <;>
      simp only [Task.goto_pc, DirPc.work, Setup.usersWork, Nat.sub_zero] <;> omega
  case startUsers i | stopUsers i =>
    cases h
    have hi := mul_sub_succ (2 * c.userDay + 23) i.isLt
    refine Spends.work (n := 2 * c.userDay + 23) ?_ rfl rfl
      (Nat.add_le_add_right (sendSignal_work_le _ _) 2)
    rw [hat]
    refine forLoop_cases (fun hk => ⟨le_rfl, ?_⟩) ⟨le_rfl, ?_⟩ <;>
      simp only [Task.goto_pc, DirPc.work] <;> omega
  case daySleep =>
    have hle : c.dirWork .deactivate l.vars + 2 ≤ c.dirWork l.pc l.vars := by
      rw [hat]
      exact Spends.le ⟨le_rfl, le_rfl⟩ rfl
    repeat' split at h
    · cases h
      exact Task.goto_work_of_eintr ‹l.mode = .eintr› (by omega)
    · cases h
      exact Task.retry_work ‹l.mode = .eintr›
    · exact Task.nanosleep_work h hx hle
  case resetWorker i =>
    cases h
    have hi := i.isLt
    refine Spends.work (n := 2) ?_ rfl rfl le_rfl
    rw [hat]
    refine forLoop_cases (fun hk => ⟨le_rfl, ?_⟩) ⟨le_rfl, ?_⟩ <;>
      simp only [Task.goto_pc, DirPc.work] <;> omega
  case assignInit =>
    cases h
    refine Spends.work (n := 2) ?_ rfl rfl le_rfl
    rw [hat]
    refine forLoop_cases (fun hk => ⟨le_rfl, ?_⟩) ⟨le_rfl, ?_⟩ <;>
      simp only [Task.goto_pc, DirPc.work] <;> omega
  case assignWrite =>
    cases h
    refine Spends.work (n := 2) ?_ rfl rfl le_rfl
    rw [hat]
    refine ⟨le_rfl, ?_⟩
    simp only [Task.goto_pc, DirPc.work]
    omega
  case setJobs s =>
    cases h
    refine Spends.work (n := 2) ?_ rfl rfl
      (Nat.add_le_add_right (Shared.workLeft_setSemValue_le _ (.inr rfl)) 2)
    rw [hat]
    exact ⟨le_rfl, le_rfl⟩
  case setFree s =>
    cases h
    refine Spends.work (n := 2) ?_ rfl rfl
      (Nat.add_le_add_right (Shared.workLeft_setSemValue_le _ (.inl rfl)) 2)
    rw [hat]
    refine ⟨le_rfl, ?_⟩
    simp only [Task.goto_pc, DirPc.work]
    omega
  case resetQueue s =>
    cases h
    have hs := s.isLt
    have hqueue := g.workLeft_setQueue s serviceQueueReset
    rw [show serviceQueueReset.length = 0 from rfl, Nat.mul_zero] at hqueue
    refine Spends.work (n := 2) ?_ rfl rfl (by omega)
    rw [hat]
    refine forLoop_cases (fun hk => ⟨le_rfl, ?_⟩) ⟨le_rfl, ?_⟩ <;>
      simp only [Task.goto_pc, DirPc.work] <;> omega
  case flushTake s =>
    split at h <;> cases h
    · have hqueue := g.workLeft_setQueue s (serviceQueuePop (g.queues s)).2
      rw [← RingBuffer.length_pop noTicket (Nat.ne_of_gt ‹0 < _›), Nat.mul_succ] at hqueue
      rw [Shared.workLeft_log]
      simp only [Task.work, Task.goto, Task.setVars, Mode.work, hat, Setup.dirWork, DirPc.daysLeft,
        DirPc.ending, DirPc.work, serviceQueuePop, flushWork, Bool.false_eq_true,
        if_false] at hqueue ⊢
      omega
    · refine Task.goto_work ?_
      rw [hat]
      refine Spends.le ⟨le_rfl, ?_⟩ rfl
      simp only [DirPc.work]
      omega
  case flushReply =>
    split at h
    · cases h
      exact Task.retry_work ‹l.mode = .eintr›
    · refine Task.msgSend_work h hx ?_
      rw [hat]
      refine Spends.le ⟨le_rfl, ?_⟩ rfl
      simp only [DirPc.work]
      omega
  case flushJobs s =>
    cases h
    have hs := s.isLt
    refine Spends.work (n := 2) ?_ rfl rfl
      (Nat.add_le_add_right (Shared.workLeft_setSemValue_le _ (.inr rfl)) 2)
    rw [hat]
    refine forLoop_cases (fun hk => ⟨le_rfl, ?_⟩) ⟨le_rfl, ?_⟩ <;>
      simp only [Task.goto_pc, DirPc.work] <;> omega
  case termDispenser =>
    cases h
    refine Spends.work (n := 23) ?_ rfl rfl (Nat.add_le_add_right (sendSignal_work_le _ _) 2)
    rw [hat]
    refine forLoop_cases (fun hk => ⟨le_rfl, ?_⟩) (forLoop_cases (fun hk => ⟨le_rfl, ?_⟩)
      (forLoop_cases (fun hk => ⟨le_rfl, ?_⟩) (forLoop_cases (fun hk => ⟨le_rfl, ?_⟩)
        ⟨le_rfl, ?_⟩))) <;>
      simp only [Task.goto_pc, DirPc.work, Setup.workersWork, Setup.usersWork, Nat.sub_zero] <;>
      omega
  case termWorkers i =>
    cases h
    have hi := mul_sub_succ (2 * c.opDay + 23) i.isLt
    refine Spends.work (n := 2 * c.opDay + 23) ?_ rfl rfl
      (Nat.add_le_add_right (sendSignal_work_le _ _) 2)
    rw [hat]
    refine forLoop_cases (fun hk => ⟨le_rfl, ?_⟩) (forLoop_cases (fun hk => ⟨le_rfl, ?_⟩)
      (forLoop_cases (fun hk => ⟨le_rfl, ?_⟩) (forLoop_cases (fun hk => ⟨le_rfl, ?_⟩)
        ⟨le_rfl, ?_⟩))) <;>
      simp only [Task.goto_pc, DirPc.work, Setup.usersWork, Nat.sub_zero] <;> omega
  case termUsers i =>
    cases h
    have hi := mul_sub_succ (2 * c.userDay + 23) i.isLt
    refine Spends.work (n := 2 * c.userDay + 23) ?_ rfl rfl
      (Nat.add_le_add_right (sendSignal_work_le _ _) 2)
    rw [hat]
    refine forLoop_cases (fun hk => ⟨le_rfl, ?_⟩) (forLoop_cases (fun hk => ⟨le_rfl, ?_⟩)
      (forLoop_cases (fun hk => ⟨le_rfl, ?_⟩) ⟨le_rfl, ?_⟩)) <;>
      simp only [Task.goto_pc, DirPc.work] <;> omega
  case reapWorker i =>
    have hi := i.isLt
    refine waitpid_work h hx ?_
    rw [hat]
    refine forLoop_cases (fun hk => ⟨le_rfl, ?_⟩) (forLoop_cases (fun hk => ⟨le_rfl, ?_⟩)
      ⟨le_rfl, ?_⟩) <;>
      simp only [DirPc.work] <;> omega
  case reapUser i =>
    have hi := i.isLt
    refine waitpid_work h hx ?_
    rw [hat]
    refine forLoop_cases (fun hk => ⟨le_rfl, ?_⟩) ⟨le_rfl, ?_⟩ <;> simp only [DirPc.work] <;> omega
  case reapDispenser =>
    refine waitpid_work h hx ?_
    rw [hat]
    exact ⟨le_rfl, le_rfl⟩
  case cleanupIpc i =>
    cases h
    have hi := i.isLt
    refine Spends.work (n := 2) ?_ rfl rfl le_rfl
    rw [hat]
    refine forLoop_cases (fun hk => ⟨le_rfl, ?_⟩) ⟨le_rfl, ?_⟩ <;>
      simp only [Task.goto_pc, DirPc.work] <;> omega
  case logStop =>
    cases h
    simp only [Task.work, Task.goto, Task.exit, Mode.work, hat, Setup.dirWork, DirPc.daysLeft,
      DirPc.ending, DirPc.work]
    omega
  case ended => cases h

end Director

end PostOffice
