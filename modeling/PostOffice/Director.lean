import Mathlib.Algebra.BigOperators.Group.Finset.Basic
import Mathlib.Data.Fintype.Basic
import PostOffice.Dispenser

/-! The director (`director.c`), from `wait_for_initialization` to the end of `main`: the state
    `create_children` leaves is the initial state of the system.

        waitInit ─▶ dayTest ─▶ setDay ─▶ reset… ─▶ assign… ─▶ activate ─▶ start… ─▶ daySleep
                       ▲  │                                                            │
                 dayEnd┘  │     print… ◀─ flush… ◀─ decide ◀─ count… ◀─ waitDayEnd ◀─ stop…
                          ▼
                setCause ─▶ final… ─▶ term… ─▶ reap… ─▶ cleanup… ─▶ logStop ─▶ ended

    `sem_op_retry` gives up when a signal interrupts it and the shutdown flag is set, and every
    caller then calls `exit`. Nobody looks at what `log_init` returned: without a log directory `fp`
    is `NULL` at the end, and `log_stop` closes it all the same. -/

namespace PostOffice

/-- The program points of the director. -/
inductive DirPc (seats workers users : ℕ) where
  -- wait_for_initialization and the head of the day loop
  | waitInit | dayTest | setDay
  -- reset_day_statistics and reset_workers_day_state
  | resetLock | resetStats | resetUnlock | resetWorker (i : Fin workers)
  -- assign_daily_counters
  | assignInit | assignLock (i : Fin seats) | assignWrite (i : Fin seats)
  | assignUnlock (i : Fin seats)
  | setJobs (s : Service) | setFree (s : Service) | resetQueue (s : Service)
  -- the day
  | activate | startWorkers (i : Fin workers) | startUsers (i : Fin users) | daySleep | deactivate
  | stopWorkers (i : Fin workers) | stopUsers (i : Fin users)
  -- wait_for_workers_day_end
  | dayEndInit | waitDayEnd
  -- count_pending_users and the explode decision
  | countInit | countLock (s : Service) | countRead (s : Service) | countUnlock (s : Service)
  | decide
  -- flush_pending_users
  | flushInit | flushLock (s : Service) | flushTake (s : Service)
  | flushReply (s : Service) (t : QueueTicket)
  | flushStatsLock (s : Service) | flushStats (s : Service) | flushStatsUnlock (s : Service)
  | flushUnlock (s : Service) | flushJobs (s : Service)
  -- print_daily_statistics and the end of the loop body
  | printActive | printLock | printDaily | printUnlock | dayEnd
  -- print_final_statistics
  | setCause | finalLock | finalPrint | finalUnlock
  -- stop_children
  | termDispenser | termWorkers (i : Fin workers) | termUsers (i : Fin users)
  | reapWorker (i : Fin workers) | reapUser (i : Fin users) | reapDispenser
  -- cleanup_ipc and the end of main
  | cleanupIpc (i : Fin Resource.removals.length) | logStop | ended
  deriving DecidableEq

/-- The director's shutdown flag and local variables. -/
structure DirVars where
  shutdownRequested : Bool
  day : ℕ
  received : ℕ
  countersPerService : Service → ℕ
  /-- `total` of `count_pending_users`. -/
  total : ℕ
  pendingBeforeFlush : ℕ
  /-- `pending_total` of `flush_pending_users`. -/
  pendingTotal : ℕ
  activeToday : ℕ
  activeTotal : ℕ

/-- `handle_director_signal`, installed for `SIGTERM` and `SIGINT`. -/
def handleDirectorSignal (v : DirVars) : Signal → DirVars
  | .term | .int => { v with shutdownRequested := true }
  | .usr1 | .usr2 => v

/-- The director process. -/
abbrev Director (c : Setup) := Task (DirPc c.nofWorkerSeats c.nofWorkers c.nofUsers) DirVars

/-- With what the director ends: `log_stop` closes the log and `main` returns 0, or without a log
    `fclose(NULL)` is a `SIGSEGV`. -/
def Setup.endStatus (c : Setup) : ℕ := if c.logOpen then 0 else 139

/-- All counters zero. -/
def ServiceStats.zero : ServiceStats :=
  { requests := 0, served := 0, notServed := 0, waitMinutesSum := 0, serviceMinutesSum := 0 }

/-- `reset_day_statistics` between `lock_stats` and `unlock_stats`. -/
def SimulationStats.resetDay (st : SimulationStats) : SimulationStats :=
  { st with
    dayByService := fun _ => .zero
    dayUsersServed := 0
    dayServicesServed := 0
    dayServicesNotServed := 0
    dayWaitMinutesSum := 0
    dayServiceMinutesSum := 0
    dayPauseTotal := 0 }

namespace Director

variable {c : Setup} (l : Director c) (g : Shared c)

/-- `sem_op_retry` with -1, in callers that exit on -1. -/
def semOpRetry (σ : Sem c.nofWorkerSeats) (next : DirPc c.nofWorkerSeats c.nofWorkers c.nofUsers) :
    Option (Director c × Shared c) :=
  if l.mode = .eintr then
    if l.vars.shutdownRequested then some (l.exit 1, g) else some (l.retry, g)
  else l.semWait g σ next

/-- `kill` in `send_signal_to_workers`, `send_signal_to_users` and `stop_children`. -/
def sendSignal (p : c.Proc) (sig : Signal) : Shared c := if 0 < c.pid p then g.kill p sig else g

/-- `waitpid`, its result ignored: the child's pid when it has terminated, -1 when a signal
    interrupts the call. -/
def waitpid (p : c.Proc) (childExited : c.Proc → Bool)
    (next : DirPc c.nofWorkerSeats c.nofWorkers c.nofUsers) : Option (Director c × Shared c) :=
  if l.mode = .eintr then some (l.goto next, g)
  else if childExited p = true then some (l.goto next, g.reap p)
  else if l.mode = .asleep then none else some (l.sleep, g)

/-- `msgrcv` of a director message; `onMessage` is what the loop does with it. -/
def receiveDirector (onMessage : DirectorMessage → Director c) :
    Option (Director c × Shared c) :=
  if l.mode = .eintr then some (l.retry, g)
  else match g.firstOfType directorMtype with
    | some (.director m) => some (onMessage m, g.received directorMtype)
    -- a message of that type always is a director message
    | some _ => none
    | none => if l.mode = .asleep then none else some (l.sleep, g)

/-- The loop of `wait_for_initialization` and `wait_for_workers_day_end` after a message: count it
    when it is of the kind waited for, go on when `expected` have come. -/
def countMessage (kind : DirectorMessageKind) (expected : ℕ)
    (again next : DirPc c.nofWorkerSeats c.nofWorkers c.nofUsers) (m : DirectorMessage) :
    Director c :=
  let received := if m.kind = kind then l.vars.received + 1 else l.vars.received
  (l.setVars { l.vars with received := received }).goto (if received < expected then again else next)

/-- One step of the live director; `n` is what `rand()` returns, where the step calls it, and
    `childExited` tells `waitpid` which children have terminated. -/
def body (childExited : c.Proc → Bool) (n : ℕ) : Option (Director c × Shared c) :=
  match l.pc with
  | .waitInit => receiveDirector l g
      (countMessage l .init (c.nofWorkers + c.nofUsers + 1) .waitInit .dayTest)
  | .dayTest =>
      some (l.goto (if l.vars.day ≤ c.simDuration ∧ l.vars.shutdownRequested = false then .setDay
        else .setCause), g)
  | .setDay => some (l.goto .resetLock, { g with currentDay := l.vars.day })
  -- reset_day_statistics
  | .resetLock => semOpRetry l g .stats .resetStats
  | .resetStats => some (l.goto .resetUnlock, g.setStats g.stats.resetDay)
  | .resetUnlock => l.semPost g .stats (forLoop c.nofWorkers 0 .resetWorker .assignInit)
  | .resetWorker i =>
      some (l.goto (forLoop c.nofWorkers (i + 1) .resetWorker .assignInit), g.setWorker i
        { g.workers i with activeToday := false, pausesToday := 0, currentCounter := none })
  -- assign_daily_counters
  | .assignInit =>
      some ((l.setVars { l.vars with countersPerService := fun _ => 0 }).goto
        (forLoop c.nofWorkerSeats 0 .assignLock (.setJobs 0)), g.log (.assigned g.currentDay))
  | .assignLock i => semOpRetry l g (.counterMutex i) (.assignWrite i)
  | .assignWrite i =>
      let service := drawnService n
      let counts := l.vars.countersPerService
      some ((l.setVars { l.vars with
          countersPerService := Function.update counts service (counts service + 1) }).goto
        (.assignUnlock i), g.setCounter i { service := some service, workerPid := -1 })
  | .assignUnlock i => l.semPost g (.counterMutex i)
      (forLoop c.nofWorkerSeats (i + 1) .assignLock (.setJobs 0))
  | .setJobs s => some (l.goto (.setFree s), g.setSemValue (.jobs s) 0)
  | .setFree s =>
      some (l.goto (.resetQueue s), g.setSemValue (.freeCounter s) (l.vars.countersPerService s))
  | .resetQueue s =>
      some (l.goto (forLoop serviceCount (s + 1) .setJobs .activate),
        g.setQueue s serviceQueueReset)
  -- the day
  | .activate =>
      some (l.goto (forLoop c.nofWorkers 0 .startWorkers (forLoop c.nofUsers 0 .startUsers
        .daySleep)), { g with dayActive := true })
  | .startWorkers i =>
      some (l.goto (forLoop c.nofWorkers (i + 1) .startWorkers (forLoop c.nofUsers 0 .startUsers
        .daySleep)), sendSignal g (.operator i) .usr1)
  | .startUsers i =>
      some (l.goto (forLoop c.nofUsers (i + 1) .startUsers .daySleep), sendSignal g (.user i) .usr1)
  | .daySleep =>
      if l.mode = .eintr then
        if l.vars.shutdownRequested then some (l.goto .deactivate, g.log .brokenOff)
        else some (l.retry, g)
      else l.nanosleep g .deactivate
  | .deactivate =>
      some (l.goto (forLoop c.nofWorkers 0 .stopWorkers (forLoop c.nofUsers 0 .stopUsers
        .dayEndInit)), { g with dayActive := false })
  | .stopWorkers i =>
      some (l.goto (forLoop c.nofWorkers (i + 1) .stopWorkers (forLoop c.nofUsers 0 .stopUsers
        .dayEndInit)), sendSignal g (.operator i) .usr2)
  | .stopUsers i =>
      some (l.goto (forLoop c.nofUsers (i + 1) .stopUsers .dayEndInit),
        sendSignal g (.user i) .usr2)
  -- wait_for_workers_day_end
  | .dayEndInit => some ((l.setVars { l.vars with received := 0 }).goto .waitDayEnd, g)
  | .waitDayEnd => receiveDirector l g
      (countMessage l .dayFinished c.nofWorkers .waitDayEnd .countInit)
  -- count_pending_users
  | .countInit => some ((l.setVars { l.vars with total := 0 }).goto (.countLock 0), g)
  | .countLock s => semOpRetry l g (.queueMutex s) (.countRead s)
  | .countRead s =>
      some ((l.setVars { l.vars with total := l.vars.total + serviceQueueLength (g.queues s) }).goto
        (.countUnlock s), g)
  | .countUnlock s =>
      l.semPost g (.queueMutex s) (forLoop serviceCount (s + 1) .countLock .decide)
  | .decide =>
      some ((l.setVars { l.vars with pendingBeforeFlush := l.vars.total }).goto .flushInit,
        if (l.vars.total : ℤ) > c.explodeThreshold then { g with terminationCause := .explode }
        else g)
  -- flush_pending_users
  | .flushInit => some ((l.setVars { l.vars with pendingTotal := 0 }).goto (.flushLock 0), g)
  | .flushLock s => semOpRetry l g (.queueMutex s) (.flushTake s)
  | .flushTake s =>
      if 0 < serviceQueueLength (g.queues s) then
        let (t, q) := serviceQueuePop (g.queues s)
        some ((l.setVars { l.vars with pendingTotal := l.vars.pendingTotal + 1 }).goto
          (.flushReply s t), (g.setQueue s q).log (.flushed s t))
      else some (l.goto (.flushUnlock s), g)
  | .flushReply s t =>
      if l.mode = .eintr then some (l.retry, g)
      else l.msgSend g
        (.userReply { mtype := userReplyBase + t.userPid, status := .notServed, service := s })
        (.replied .director t.userPid .notServed s) (.flushStatsLock s)
  | .flushStatsLock s => semOpRetry l g .stats (.flushStats s)
  | .flushStats s => some (l.goto (.flushStatsUnlock s), g.setStats (g.stats.markNotServed s))
  | .flushStatsUnlock s => l.semPost g .stats (.flushTake s)
  | .flushUnlock s => l.semPost g (.queueMutex s) (.flushJobs s)
  | .flushJobs s =>
      some (l.goto (forLoop serviceCount (s + 1) .flushLock .printActive),
        g.setSemValue (.jobs s) 0)
  -- print_daily_statistics
  | .printActive =>
      some ((l.setVars { l.vars with
          activeToday := (Finset.univ.filter fun w => (g.workers w).activeToday = true).card
          activeTotal := (Finset.univ.filter fun w => (g.workers w).activeEver = true).card }).goto
        .printLock, g)
  | .printLock => semOpRetry l g .stats .printDaily
  | .printDaily =>
      some (l.goto .printUnlock,
        g.log (.dailyStatistics l.vars.day l.vars.activeToday l.vars.activeTotal g.stats))
  | .printUnlock => l.semPost g .stats .dayEnd
  | .dayEnd =>
      if g.terminationCause = .explode then some (l.goto .setCause, g)
      else some ((l.setVars { l.vars with day := l.vars.day + 1 }).goto .dayTest, g)
  -- print_final_statistics
  | .setCause =>
      some (l.goto .finalLock,
        if g.terminationCause = .none then { g with terminationCause := .timeout } else g)
  | .finalLock => semOpRetry l g .stats .finalPrint
  | .finalPrint =>
      some (l.goto .finalUnlock, g.log (.finalStatistics g.terminationCause g.currentDay g.stats))
  | .finalUnlock => l.semPost g .stats .termDispenser
  -- stop_children
  | .termDispenser =>
      some (l.goto (forLoop c.nofWorkers 0 .termWorkers (forLoop c.nofUsers 0 .termUsers
        (forLoop c.nofWorkers 0 .reapWorker (forLoop c.nofUsers 0 .reapUser .reapDispenser)))),
        sendSignal g .dispenser .term)
  | .termWorkers i =>
      some (l.goto (forLoop c.nofWorkers (i + 1) .termWorkers (forLoop c.nofUsers 0 .termUsers
        (forLoop c.nofWorkers 0 .reapWorker (forLoop c.nofUsers 0 .reapUser .reapDispenser)))),
        sendSignal g (.operator i) .term)
  | .termUsers i =>
      some (l.goto (forLoop c.nofUsers (i + 1) .termUsers
        (forLoop c.nofWorkers 0 .reapWorker (forLoop c.nofUsers 0 .reapUser .reapDispenser))),
        sendSignal g (.user i) .term)
  | .reapWorker i => waitpid l g (.operator i) childExited
      (forLoop c.nofWorkers (i + 1) .reapWorker (forLoop c.nofUsers 0 .reapUser .reapDispenser))
  | .reapUser i => waitpid l g (.user i) childExited
      (forLoop c.nofUsers (i + 1) .reapUser .reapDispenser)
  | .reapDispenser => waitpid l g .dispenser childExited (.cleanupIpc ⟨0, by decide⟩)
  -- cleanup_ipc and log_stop
  | .cleanupIpc i =>
      some (l.goto (forLoop Resource.removals.length (i + 1) .cleanupIpc .logStop),
        g.remove (Resource.removals.get i))
  | .logStop => some ((l.goto .ended).exit c.endStatus, g)
  | .ended => none

/-- One step of the director. -/
def step (childExited : c.Proc → Bool) (n : ℕ) : Option (Director c × Shared c) :=
  if l.exited then none else body l g childExited n

end Director

end PostOffice
