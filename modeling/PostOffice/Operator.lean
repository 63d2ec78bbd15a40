import PostOffice.Shared

/-! The operator (`operator.c`), one step for every flag test, access to shared memory, semaphore
    operation, message and signal.

    A program point names the statement about to run; its arguments are the live local variables:
    `i` the loop counter of `claim_counter_for_service`, `k` the counter of `run_day`, `t` the
    popped ticket. `sem_op_interruptible` is a blocking call at the program point itself: the mode
    tells whether the process runs, sleeps in the call or came back from it with `EINTR`.

        sendInit ─▶ mainTest ─▶ wait… ─▶ clearStarted ─▶ clearStop
                        ▲                                    │ run_day
                        │                 claim… ─▶ scan… ◀──┘
                   dayFinished ◀─ release… ◀─ loop… ⇄ pop… ─▶ serve… ─▶ after… ─▶ pause… -/

namespace PostOffice

/-- The program points of the operator. -/
inductive OpPc (seats : ℕ) where
  -- main and wait_for_next_day
  | sendInit | mainTest | waitDayStarted | waitTerminate | suspend | mainBreak
  | clearStarted | clearStop
  -- claim_counter_for_service
  | claimTerminate | claimActive | claimStop | claimToken
  | tokenActive | tokenStop | tokenTerminate | tokenGiveBack
  | scanLock (i : Fin seats) | scanCheck (i : Fin seats) | scanTaken (i : Fin seats)
  | scanNext (i : Fin seats) | scanFallback
  -- the loop of run_day, with wait_for_ticket and pop_ticket_for_service
  | loopTerminate (k : Fin seats) | loopStop (k : Fin seats) | loopActive (k : Fin seats)
  | waitTicket (k : Fin seats) | popLock (k : Fin seats) | popTake (k : Fin seats)
  | popUnlock (k : Fin seats) (t : QueueTicket)
  -- serve_ticket
  | serveStart (k : Fin seats) (t : QueueTicket)
  | serveSleep (k : Fin seats) (t : QueueTicket) (waitingNs : ℤ) (minutes : ℕ)
  | serveLock (k : Fin seats) (t : QueueTicket) (waitingNs : ℤ) (minutes : ℕ)
  | serveStats (k : Fin seats) (t : QueueTicket) (waitingNs : ℤ) (minutes : ℕ)
  | serveUnlock (k : Fin seats) (t : QueueTicket)
  | serveReply (k : Fin seats) (t : QueueTicket)
  -- the end of a round: should_take_pause and update_pause_statistics
  | afterTerminate (k : Fin seats) | afterStop (k : Fin seats) | afterActive (k : Fin seats)
  | pauseActive (k : Fin seats) | pauseDraw (k : Fin seats) | pauseCount (k : Fin seats)
  | pauseLock (k : Fin seats) | pauseStats (k : Fin seats) | pauseUnlock (k : Fin seats)
  | pauseStop (k : Fin seats)
  -- release_counter and the end of run_day
  | releaseLock (k : Fin seats) | releaseClear (k : Fin seats) | releaseUnlock (k : Fin seats)
  | releaseToken | dayFinished
  | done
  deriving DecidableEq

/-- The operator's flags. -/
structure OpFlags where
  dayStarted : Bool
  dayStopRequested : Bool
  terminateRequested : Bool
  deriving DecidableEq

/-- `handle_operator_signal`. -/
def handleOperatorSignal (v : OpFlags) : Signal → OpFlags
  | .usr1 => { v with dayStarted := true }
  | .usr2 => { v with dayStopRequested := true }
  | .term => { v with terminateRequested := true, dayStopRequested := true, dayStarted := true }
  | .int => v

/-- An operator process. -/
abbrev Operator (c : Setup) := Task (OpPc c.nofWorkerSeats) OpFlags

/-- `random_service_duration_minutes` with `rand()` returning `n`. -/
def randomServiceDurationMinutes (service : Service) (n : ℕ) : ℕ :=
  let mean := serviceMeanMinutes service
  let min := if mean / 2 ≤ 0 then 1 else mean / 2
  let max := mean + mean / 2
  min + n % (max - min + 1)

/-- The part of `serve_ticket` between `lock_stats` and `unlock_stats`. -/
def SimulationStats.serve (st : SimulationStats) (service : Service) (waitMinutes : ℚ)
    (minutes : ℕ) : SimulationStats :=
  let bump (x : ServiceStats) : ServiceStats :=
    { x with
      served := x.served + 1
      waitMinutesSum := x.waitMinutesSum + waitMinutes
      serviceMinutesSum := x.serviceMinutesSum + minutes }
  { st with
    dayUsersServed := st.dayUsersServed + 1
    totalUsersServed := st.totalUsersServed + 1
    dayServicesServed := st.dayServicesServed + 1
    totalServicesServed := st.totalServicesServed + 1
    dayWaitMinutesSum := st.dayWaitMinutesSum + waitMinutes
    totalWaitMinutesSum := st.totalWaitMinutesSum + waitMinutes
    dayServiceMinutesSum := st.dayServiceMinutesSum + minutes
    totalServiceMinutesSum := st.totalServiceMinutesSum + minutes
    dayByService := Function.update st.dayByService service (bump (st.dayByService service))
    totalByService := Function.update st.totalByService service (bump (st.totalByService service)) }

/-- The part of `update_pause_statistics` between `lock_stats` and `unlock_stats`. -/
def SimulationStats.pause (st : SimulationStats) : SimulationStats :=
  { st with
    dayPauseTotal := st.dayPauseTotal + 1
    totalPauseTotal := st.totalPauseTotal + 1 }

namespace Operator

variable {c : Setup} (w : Fin c.nofWorkers) (l : Operator c) (g : Shared c)

/-- `terminate_requested || day_stop_requested`. -/
def interrupted : Bool := l.vars.terminateRequested || l.vars.dayStopRequested

/-- `sem_op_interruptible` with -1; `onInterrupt` is the caller's reaction to the result 1. -/
def semOpInterruptible (σ : Sem c.nofWorkerSeats) (next : OpPc c.nofWorkerSeats)
    (onInterrupt : Operator c) : Option (Operator c × Shared c) :=
  if l.mode = .eintr then
    if interrupted l then some (onInterrupt, g) else some (l.retry, g)
  else l.semWait g σ next

/-- `lock_stats`: any result but 0 ends the process. -/
def lockStats (next : OpPc c.nofWorkerSeats) : Option (Operator c × Shared c) :=
  semOpInterruptible l g .stats next (l.exit 1)

/-- `msgsnd` with the retry loop of `send_director_message` and `send_user_reply`. -/
def msgSendRetry (m : Message) (e : c.Event) (next : OpPc c.nofWorkerSeats) :
    Option (Operator c × Shared c) :=
  if l.mode = .eintr then some (l.retry, g) else l.msgSend g m e next

/-- `send_director_message`. -/
def sendDirectorMessage (kind : DirectorMessageKind) (e : c.Event)
    (next : OpPc c.nofWorkerSeats) : Option (Operator c × Shared c) :=
  msgSendRetry l g (.director { kind := kind, index := w, pid := c.pid (.operator w) }) e next

/-- `send_user_reply`. -/
def sendUserReply (userPid : ℤ) (status : UserReplyStatus) (service : Service)
    (next : OpPc c.nofWorkerSeats) : Option (Operator c × Shared c) :=
  msgSendRetry l g
    (.userReply { mtype := userReplyBase + userPid, status := status, service := service })
    (.replied (.operator w) userPid status service) next

/-- One step of a live operator; `n` is what `rand()` returns, where the step calls it. -/
def body (n : ℕ) : Option (Operator c × Shared c) :=
  let service := c.workerService w
  match l.pc with
  | .sendInit => sendDirectorMessage w l g .init (.init (.operator w)) .mainTest
  | .mainTest =>
      if l.vars.terminateRequested then some ((l.goto .done).exit 0, g)
      else some (l.goto .waitDayStarted, g)
  | .waitDayStarted =>
      some (l.goto (if l.vars.dayStarted then .mainBreak else .waitTerminate), g)
  | .waitTerminate =>
      some (l.goto (if l.vars.terminateRequested then .mainBreak else .suspend), g)
  | .suspend =>
      -- sigsuspend sleeps until a handler has run
      if l.mode = .eintr then some (l.goto .waitDayStarted, g)
      else if l.mode = .asleep then none else some (l.sleep, g)
  | .mainBreak =>
      if l.vars.terminateRequested then some ((l.goto .done).exit 0, g)
      else some (l.goto .clearStarted, g)
  | .clearStarted => some ((l.setVars { l.vars with dayStarted := false }).goto .clearStop, g)
  | .clearStop =>
      some ((l.setVars { l.vars with dayStopRequested := false }).goto .claimTerminate,
        g.log (.runDay (.operator w) g.currentDay))
  -- claim_counter_for_service
  | .claimTerminate =>
      some (l.goto (if l.vars.terminateRequested then .dayFinished else .claimActive), g)
  | .claimActive => some (l.goto (if g.dayActive then .claimStop else .dayFinished), g)
  | .claimStop =>
      some (l.goto (if l.vars.dayStopRequested then .dayFinished else .claimToken), g)
  | .claimToken => semOpInterruptible l g (.freeCounter service) .tokenActive (l.goto .dayFinished)
  | .tokenActive => some (l.goto (if g.dayActive then .tokenStop else .tokenGiveBack), g)
  | .tokenStop =>
      some (l.goto (if l.vars.dayStopRequested then .tokenGiveBack else .tokenTerminate), g)
  | .tokenTerminate =>
      some (l.goto (if l.vars.terminateRequested then .tokenGiveBack
        else forLoop c.nofWorkerSeats 0 .scanLock .scanFallback), g)
  | .tokenGiveBack => l.semPost g (.freeCounter service) .dayFinished
  | .scanLock i =>
      semOpInterruptible l g (.counterMutex i) (.scanCheck i) (l.goto .dayFinished)
  | .scanCheck i =>
      if (g.counters i).service = some service ∧ (g.counters i).workerPid = -1 then
        some (l.goto (.scanTaken i),
          (g.setCounter i { g.counters i with workerPid := c.pid (.operator w) }).setWorker w
            { g.workers w with
              currentCounter := some i, activeToday := true, activeEver := true })
      else some (l.goto (.scanNext i), g)
  | .scanTaken i => l.semPost g (.counterMutex i) (.loopTerminate i)
  | .scanNext i =>
      l.semPost g (.counterMutex i) (forLoop c.nofWorkerSeats (i + 1) .scanLock .scanFallback)
  | .scanFallback => l.semPost g (.freeCounter service) .claimTerminate
  -- run_day
  | .loopTerminate k =>
      some (l.goto (if l.vars.terminateRequested then .releaseLock k else .loopStop k), g)
  | .loopStop k =>
      some (l.goto (if l.vars.dayStopRequested then .loopActive k else .waitTicket k), g)
  | .loopActive k => some (l.goto (if g.dayActive then .waitTicket k else .releaseLock k), g)
  | .waitTicket k =>
      semOpInterruptible l g (.jobs service) (.popLock k) (l.goto (.releaseLock k))
  | .popLock k =>
      semOpInterruptible l g (.queueMutex service) (.popTake k) (l.goto (.loopTerminate k))
  | .popTake k =>
      let (t, q) := serviceQueuePop (g.queues service)
      some (l.goto (.popUnlock k t), (g.setQueue service q).log
        (if (g.queues service).length = 0 then .poppedEmpty w service else .popped w service t))
  | .popUnlock k t =>
      l.semPost g (.queueMutex service) (if 0 < t.userPid then .serveStart k t else .loopTerminate k)
  -- serve_ticket
  | .serveStart k t =>
      some (l.goto (.serveSleep k t (g.clock - t.requestedAtNs)
        (randomServiceDurationMinutes service n)), g)
  | .serveSleep k t waitingNs minutes =>
      if l.mode = .eintr then some (l.retry, g)
      else l.nanosleep g (.serveLock k t waitingNs minutes)
  | .serveLock k t waitingNs minutes => lockStats l g (.serveStats k t waitingNs minutes)
  | .serveStats k t waitingNs minutes =>
      some (l.goto (.serveUnlock k t),
        (g.setStats (g.stats.serve service (nsToMinutes waitingNs c.nNanoSeconds) minutes)).log
          (.served w service t waitingNs))
  | .serveUnlock k t => l.semPost g .stats (.serveReply k t)
  | .serveReply k t => sendUserReply w l g t.userPid .served service (.afterTerminate k)
  | .afterTerminate k =>
      some (l.goto (if l.vars.terminateRequested then .releaseLock k else .afterStop k), g)
  | .afterStop k =>
      some (l.goto (if l.vars.dayStopRequested then .releaseLock k else .afterActive k), g)
  | .afterActive k => some (l.goto (if g.dayActive then .pauseActive k else .releaseLock k), g)
  -- should_take_pause and update_pause_statistics
  | .pauseActive k => some (l.goto (if g.dayActive then .pauseDraw k else .loopTerminate k), g)
  | .pauseDraw k =>
      some (l.goto (if (g.workers w).pausesTaken < c.nofPause ∧ n % 100 < 10 then .pauseCount k
        else .loopTerminate k), g)
  | .pauseCount k =>
      some (l.goto (.pauseLock k), g.setWorker w
        { g.workers w with
          pausesTaken := (g.workers w).pausesTaken + 1
          pausesToday := (g.workers w).pausesToday + 1 })
  | .pauseLock k => lockStats l g (.pauseStats k)
  | .pauseStats k => some (l.goto (.pauseUnlock k), g.setStats g.stats.pause)
  | .pauseUnlock k => l.semPost g .stats (.pauseStop k)
  | .pauseStop k =>
      some ((l.setVars { l.vars with dayStopRequested := true }).goto (.releaseLock k), g)
  -- release_counter
  | .releaseLock k =>
      semOpInterruptible l g (.counterMutex k) (.releaseClear k) (l.goto .dayFinished)
  | .releaseClear k =>
      some (l.goto (.releaseUnlock k),
        (g.setCounter k { g.counters k with workerPid := -1 }).setWorker w
          { g.workers w with currentCounter := none })
  | .releaseUnlock k => l.semPost g (.counterMutex k) .releaseToken
  | .releaseToken => l.semPost g (.freeCounter service) .dayFinished
  | .dayFinished => sendDirectorMessage w l g .dayFinished (.dayFinished w) .mainTest
  | .done => none

/-- One step of an operator. -/
def step (n : ℕ) : Option (Operator c × Shared c) := if l.exited then none else body w l g n

end Operator

end PostOffice
