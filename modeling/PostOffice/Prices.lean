import Mathlib.Data.Fintype.Sum
import PostOffice.StopFlag

/-! What everything costs. Every process, every message, every job token, every queued ticket and
    every pending signal has a price in steps: what the process that gets it does with it. The
    price of what is handed on is part of the price of the program point that hands it on:

        SIGUSR1 ──▶ user ── request ──▶ dispenser ── ticket, job ──▶ operator
           ▲                                 └─────── ticket ──────▶ director (flush)
        director: SIM_DURATION days -/

namespace PostOffice

variable {c : Setup}

/-! ### The prices -/

/-- A call that is interrupted is made again, or the process goes round its loop to the call. -/
def Mode.work : Mode → ℕ
  | .running => 1
  | .asleep | .exited _ => 0
  | .eintr => 20

/-- What an operator does with a job token. -/
def jobWork : ℕ := 46

/-- What the director does with a ticket it flushes. -/
def flushWork : ℕ := 10

namespace Setup

variable (c : Setup)

/-- A day of an operator, without the jobs. -/
def opDay : ℕ := 6 * c.nofWorkerSeats + 58

/-- What the dispenser does with a request, and what comes of it. -/
def requestWork : ℕ := 2 * c.nofWorkerSeats + jobWork + flushWork + 26

/-- A day of a user, with its request. -/
def userDay : ℕ := c.requestWork + 30

/-- What a process does with a signal; the termination signal starts the operators and the users,
    too. -/
def signalWork : c.Proc → ℕ
  | .director | .dispenser => 21
  | .operator _ => 2 * c.opDay + 21
  | .user _ => 2 * c.userDay + 21

/-- A signal to each user. -/
def usersWork : ℕ := (2 * c.userDay + 23) * c.nofUsers

/-- A signal to each operator. -/
def workersWork : ℕ := (2 * c.opDay + 23) * c.nofWorkers

/-- From the end of the last day to the end of `main`. -/
def endWork : ℕ := 2 * (c.nofUsers + c.nofWorkers) + c.usersWork + c.workersWork + 53

/-- A day of the director, with the signals it sends. -/
def directorDay : ℕ :=
  2 * (c.usersWork + c.workersWork) + 6 * c.nofWorkerSeats + 2 * c.nofWorkers + 186

end Setup

/-! ### What the processes have left -/

/-- What the flags of an operator or a user make it do: the start flag a day, and the termination
    flag, which starts it once more, another one. -/
def startWork (day : ℕ) (started terminate : Bool) : ℕ :=
  (if started then day else 0) + if terminate then day else 0

/-- Either flag is enough for one day. -/
theorem startWork_le {day : ℕ} {started terminate : Bool}
    (h : started = true ∨ terminate = true) :
    startWork day true false ≤ startWork day started terminate := by
  cases started <;> cases terminate <;> simp [startWork] at h ⊢

/-- Up to the end of the main loop, the start flag being down. -/
def OpPc.work {seats : ℕ} : OpPc seats → ℕ
  | .done => 0
  | .suspend => 4
  | .waitTerminate => 6
  | .waitDayStarted => 8
  | .mainTest => 10
  | .sendInit => 14
  | .mainBreak => 4
  | .clearStarted => 2
  | .dayFinished => 14
  | .tokenGiveBack | .releaseToken => 16
  | .releaseUnlock _ => 18
  | .releaseClear _ => 20
  | .releaseLock _ => 22
  | .waitTicket _ => 24
  | .loopActive _ => 26
  | .loopStop _ => 28
  | .loopTerminate _ => 30
  | .pauseStop _ => 32
  | .pauseUnlock _ => 34
  | .pauseStats _ => 36
  | .pauseLock _ => 38
  | .pauseCount _ => 40
  | .pauseDraw _ => 42
  | .pauseActive _ => 44
  | .afterActive _ => 46
  | .afterStop _ => 48
  | .afterTerminate _ => 50
  | .serveReply _ _ => 52
  | .serveUnlock _ _ => 54
  | .serveStats _ _ _ _ => 56
  | .serveLock _ _ _ _ => 58
  | .serveSleep _ _ _ _ => 60
  | .serveStart _ _ => 62
  | .popUnlock _ _ => 64
  | .popTake _ => 66
  | .popLock _ => 68
  | .scanFallback => 40
  | .scanLock i => 6 * (seats - i) + 42
  | .scanCheck i => 6 * (seats - i) + 40
  | .scanTaken i | .scanNext i => 6 * (seats - i) + 38
  | .tokenTerminate => 6 * seats + 44
  | .tokenStop => 6 * seats + 46
  | .tokenActive => 6 * seats + 48
  | .claimToken => 6 * seats + 50
  | .claimStop => 6 * seats + 52
  | .claimActive => 6 * seats + 54
  | .claimTerminate => 6 * seats + 56
  | .clearStop => 6 * seats + 58

/-- Up to the end of the main loop, with `request` for a request. -/
def UserPc.work (request : ℕ) : UserPc → ℕ
  | .done => 0
  | .suspend => 4
  | .waitTerminate => 6
  | .waitDayStarted => 8
  | .mainTest => 10
  | .sendInit => 14
  | .mainBreak => 4
  | .clearStarted => 2
  | .requestWait _ => 12
  | .requestSend _ => request + 14
  | .goActive _ => request + 16
  | .goClosed _ => request + 18
  | .goTerminate _ => request + 20
  | .arrive _ _ => request + 22
  | .wakeActive _ _ | .drawArrival _ => request + 24
  | .wakeClosed _ _ | .drawService => request + 26
  | .wakeTerminate _ _ | .drawGo => request + 28
  | .clearClosed => request + 30

/-- Up to the next `msgrcv`. -/
def DispPc.work {seats : ℕ} : DispPc seats → ℕ
  | .done => 0
  | .receive => 4
  | .mainTest => 6
  | .sendInit => 10
  | .invalidReply _ | .refuseReply _ _ => 8
  | .refuseUnlock _ _ => 10
  | .refuseStats _ _ => 12
  | .refuseLock _ _ => 14
  | .rejectUnlock _ _ => 16
  | .postJob _ => jobWork + 8
  | .pushUnlock _ => jobWork + 10
  | .push _ _ _ => jobWork + flushWork + 12
  | .stamp _ _ => jobWork + flushWork + 14
  | .queueFull _ _ => jobWork + flushWork + 16
  | .queueActive _ _ => jobWork + flushWork + 18
  | .queueLock _ _ => jobWork + flushWork + 20
  | .offered _ _ i => 2 * (seats - i) + jobWork + flushWork + 20
  | .testActive _ _ => 2 * seats + jobWork + flushWork + 22
  | .countUnlock _ _ => 2 * seats + jobWork + flushWork + 24
  | .countStats _ _ => 2 * seats + jobWork + flushWork + 26
  | .countLock _ _ => 2 * seats + jobWork + flushWork + 28

/-- Up to the end of the day, and from there to the end of `main`. -/
def DirPc.work (c : Setup) : DirPc c.nofWorkerSeats c.nofWorkers c.nofUsers → ℕ
  | .ended => 0
  | .logStop => 2
  | .cleanupIpc i => 2 * (Resource.removals.length - i) + 2
  | .reapDispenser => 20
  | .reapUser i => 2 * (c.nofUsers - i) + 20
  | .reapWorker i => 2 * (c.nofWorkers - i) + 2 * c.nofUsers + 20
  | .termUsers i =>
      (2 * c.userDay + 23) * (c.nofUsers - i) + 2 * (c.nofUsers + c.nofWorkers) + 20
  | .termWorkers i => (2 * c.opDay + 23) * (c.nofWorkers - i) + c.usersWork +
      2 * (c.nofUsers + c.nofWorkers) + 20
  | .termDispenser => c.workersWork + c.usersWork + 2 * (c.nofUsers + c.nofWorkers) + 43
  | .finalUnlock => c.endWork - 8
  | .finalPrint => c.endWork - 6
  | .finalLock => c.endWork - 4
  | .setCause => c.endWork - 2
  | .dayTest => c.endWork
  | .waitInit | .dayEnd => c.endWork + 2
  | .printUnlock => c.endWork + 4
  | .printDaily => c.endWork + 6
  | .printLock => c.endWork + 8
  | .printActive => c.endWork + 10
  | .flushJobs s => 12 * (serviceCount - s) + c.endWork + 6
  | .flushUnlock s => 12 * (serviceCount - s) + c.endWork + 8
  | .flushTake s => 12 * (serviceCount - s) + c.endWork + 10
  | .flushLock s | .flushStatsUnlock s => 12 * (serviceCount - s) + c.endWork + 12
  | .flushStats s => 12 * (serviceCount - s) + c.endWork + 14
  | .flushStatsLock s => 12 * (serviceCount - s) + c.endWork + 16
  | .flushReply s _ => 12 * (serviceCount - s) + c.endWork + 18
  | .flushInit => c.endWork + 86
  | .decide => c.endWork + 88
  | .countUnlock s => 6 * (serviceCount - s) + c.endWork + 86
  | .countRead s => 6 * (serviceCount - s) + c.endWork + 88
  | .countLock s => 6 * (serviceCount - s) + c.endWork + 90
  | .countInit => c.endWork + 128
  | .waitDayEnd => c.endWork + 130
  | .dayEndInit => c.endWork + 132
  | .stopUsers i => (2 * c.userDay + 23) * (c.nofUsers - i) + c.endWork + 132
  | .stopWorkers i =>
      (2 * c.opDay + 23) * (c.nofWorkers - i) + c.usersWork + c.endWork + 132
  | .deactivate => c.workersWork + c.usersWork + c.endWork + 134
  | .daySleep => c.workersWork + c.usersWork + c.endWork + 136
  | .startUsers i =>
      (2 * c.userDay + 23) * (c.nofUsers - i) + c.workersWork + c.usersWork + c.endWork + 136
  | .startWorkers i =>
      (2 * c.opDay + 23) * (c.nofWorkers - i) + c.workersWork + 2 * c.usersWork + c.endWork + 136
  | .activate => 2 * (c.workersWork + c.usersWork) + c.endWork + 138
  | .resetQueue s =>
      6 * (serviceCount - s) + 2 * (c.workersWork + c.usersWork) + c.endWork + 134
  | .setFree s => 6 * (serviceCount - s) + 2 * (c.workersWork + c.usersWork) + c.endWork + 136
  | .setJobs s => 6 * (serviceCount - s) + 2 * (c.workersWork + c.usersWork) + c.endWork + 138
  | .assignUnlock i =>
      6 * (c.nofWorkerSeats - i) + 2 * (c.workersWork + c.usersWork) + c.endWork + 170
  | .assignWrite i =>
      6 * (c.nofWorkerSeats - i) + 2 * (c.workersWork + c.usersWork) + c.endWork + 172
  | .assignLock i =>
      6 * (c.nofWorkerSeats - i) + 2 * (c.workersWork + c.usersWork) + c.endWork + 174
  | .assignInit => 6 * c.nofWorkerSeats + 2 * (c.workersWork + c.usersWork) + c.endWork + 176
  | .resetWorker i => 2 * (c.nofWorkers - i) + 6 * c.nofWorkerSeats +
      2 * (c.workersWork + c.usersWork) + c.endWork + 176
  | .resetUnlock => c.directorDay + c.endWork - 8
  | .resetStats => c.directorDay + c.endWork - 6
  | .resetLock => c.directorDay + c.endWork - 4
  | .setDay => c.directorDay + c.endWork - 2

/-- The days after the current one, or with it, before it has begun. -/
def DirPc.daysLeft (c : Setup) (day : ℕ) :
    DirPc c.nofWorkerSeats c.nofWorkers c.nofUsers → ℕ
  | .waitInit | .dayTest => c.simDuration + 1 - day
  | pc => if pc.ending then 0 else c.simDuration - day

/-- What a process has left at its program point, by a table of prices. -/
def Task.work {P V : Type} (price : P → V → ℕ) (l : Task P V) : ℕ := price l.pc l.vars + l.mode.work

/-- What an operator has left. Behind the test of the start flag the day is paid for, whatever
    becomes of the flag. -/
def Setup.opWork (c : Setup) (pc : OpPc c.nofWorkerSeats) (v : OpFlags) : ℕ :=
  pc.work + match pc with
    | .done => 0
    | .mainBreak => startWork c.opDay true false
    | .clearStarted => startWork c.opDay true v.terminateRequested
    | _ => startWork c.opDay v.dayStarted v.terminateRequested

/-- What a user has left. -/
def Setup.userWork (c : Setup) (pc : UserPc) (v : UserFlags) : ℕ :=
  pc.work c.requestWork + match pc with
    | .done => 0
    | .mainBreak => startWork c.userDay true false
    | .clearStarted => startWork c.userDay true v.terminateRequested
    | _ => startWork c.userDay v.dayStarted v.terminateRequested

/-- What the director has left. -/
def Setup.dirWork (c : Setup) (pc : DirPc c.nofWorkerSeats c.nofWorkers c.nofUsers) (v : DirVars) :
    ℕ :=
  c.directorDay * pc.daysLeft c v.day + pc.work c

/-! ### What is on its way -/

instance {workers users : ℕ} : Fintype (Proc workers users) :=
  .ofSurjective
    (fun x : Bool ⊕ Fin workers ⊕ Fin users => match x with
      | .inl true => .director
      | .inl false => .dispenser
      | .inr (.inl w) => .operator w
      | .inr (.inr u) => .user u)
    fun p => match p with
      | .director => ⟨.inl true, rfl⟩
      | .dispenser => ⟨.inl false, rfl⟩
      | .operator w => ⟨.inr (.inl w), rfl⟩
      | .user u => ⟨.inr (.inr u), rfl⟩

/-- What the receiver of a message does with it. -/
def Setup.messageWork (c : Setup) : Message → ℕ
  | .director _ => 2
  | .ticket _ => c.requestWork
  | .userReply _ => 0

/-- What the operators do with a unit of a semaphore. -/
def Sem.work {seats : ℕ} : Sem seats → ℕ
  | .jobs _ => jobWork
  | _ => 0

namespace Shared

variable (g : Shared c)

/-- The pending signals of a process. -/
def pendingWork (p : c.Proc) (pending : Signal → Bool) : ℕ :=
  Family.total (fun _ b => if b then c.signalWork p else 0) pending

/-- What these signals, messages, job tokens and queued tickets will make the processes do. -/
def workOf (pending : c.Proc → Signal → Bool) (msgs : List Message) (sem : Sem c.nofWorkerSeats → ℕ)
    (queues : Service → ServiceQueue) : ℕ :=
  Family.total pendingWork pending + (msgs.map c.messageWork).sum +
    Family.total (fun _ n => jobWork * n) (fun q => sem (.jobs q)) +
    Family.total (fun _ q => flushWork * q.length) queues

def workLeft : ℕ := workOf g.pending g.msgs g.sem g.queues

section

variable {g}

@[simp] theorem workLeft_log (e : c.Event) : (g.log e).workLeft = g.workLeft := rfl

@[simp] theorem workLeft_send (m : Message) :
    (g.send m).workLeft = g.workLeft + c.messageWork m := by
  show workOf g.pending (g.msgs ++ [m]) g.sem g.queues = workOf g.pending g.msgs g.sem g.queues + _
  simp only [workOf, List.map_append, List.sum_append, List.map_singleton, List.sum_singleton]
  omega

theorem workLeft_received {mtype : ℤ} {m : Message} (h : g.firstOfType mtype = some m) :
    (g.received mtype).workLeft + c.messageWork m = g.workLeft := by
  have := Mailbox.sum_map_eraseP c.messageWork h
  simp only [workLeft, workOf, received]
  omega

/-- One semaphore changes. -/
theorem total_jobs_update (sem : Sem c.nofWorkerSeats → ℕ) (σ : Sem c.nofWorkerSeats) (n : ℕ) :
    Family.total (fun _ n => jobWork * n) (fun q => Function.update sem σ n (.jobs q)) +
        σ.work * sem σ =
      Family.total (fun _ n => jobWork * n) (fun q => sem (.jobs q)) + σ.work * n := by
  cases σ with
  | jobs s =>
    have hcomp : (fun q => Function.update sem (.jobs s) n (.jobs q)) =
        Function.update (fun q => sem (.jobs q)) s n :=
      Function.update_comp_eq_of_injective sem (fun _ _ h => Sem.jobs.inj h) s n
    rw [hcomp]
    exact Family.total_update (fun _ n => jobWork * n) (fun q => sem (.jobs q)) s n
  | counterMutex | queueMutex | freeCounter | stats => simp [Sem.work]

@[simp] theorem workLeft_up (σ : Sem c.nofWorkerSeats) :
    (g.up σ).workLeft = g.workLeft + σ.work := by
  have := total_jobs_update g.sem σ (g.sem σ + 1)
  rw [Nat.mul_succ] at this
  simp only [workLeft, workOf, up]
  omega

theorem workLeft_down {σ : Sem c.nofWorkerSeats} (h : 0 < g.sem σ) :
    (g.down σ).workLeft + σ.work = g.workLeft := by
  have hjobs := total_jobs_update g.sem σ (g.sem σ - 1)
  obtain ⟨n, hn⟩ := Nat.exists_eq_succ_of_ne_zero h.ne'
  rw [hn, Nat.succ_sub_one, Nat.mul_succ] at hjobs
  simp only [workLeft, workOf, down, hn, Nat.succ_sub_one]
  omega

theorem workLeft_setSemValue_le (σ : Sem c.nofWorkerSeats) {n : ℕ} (h : σ.work = 0 ∨ n = 0) :
    (g.setSemValue σ n).workLeft ≤ g.workLeft := by
  have hjobs := total_jobs_update g.sem σ n
  have hzero : σ.work * n = 0 := Nat.mul_eq_zero.mpr h
  simp only [workLeft, workOf, setSemValue]
  omega

theorem workLeft_setQueue (s : Service) (q : ServiceQueue) :
    (g.setQueue s q).workLeft + flushWork * (g.queues s).length =
      g.workLeft + flushWork * q.length := by
  have := Family.total_update (fun _ (q : ServiceQueue) => flushWork * q.length) g.queues s q
  simp only [workLeft, workOf, setQueue]
  omega

/-- Equal pending signals coalesce. -/
theorem workLeft_kill_le (p : c.Proc) (sig : Signal) :
    (g.kill p sig).workLeft ≤ g.workLeft + c.signalWork p := by
  have hproc := Family.total_update pendingWork g.pending p
    (Function.update (g.pending p) sig true)
  have hsig : pendingWork p (Function.update (g.pending p) sig true) + _ =
      pendingWork p (g.pending p) + c.signalWork p :=
    Family.total_update (fun _ b => if b then c.signalWork p else 0) (g.pending p) sig true
  simp only [workLeft, workOf, kill]
  omega

/-- A delivery spends at least one signal. -/
theorem workLeft_delivered {p : c.Proc} {sigs : List Signal} (hne : sigs ≠ [])
    (hp : ∀ sig ∈ sigs, g.pending p sig = true) :
    (g.delivered p sigs).workLeft + c.signalWork p ≤ g.workLeft := by
  obtain ⟨sig, hmem⟩ := List.exists_mem_of_ne_nil sigs hne
  have hproc := Family.total_update pendingWork g.pending p
    fun sig => g.pending p sig && !sigs.contains sig
  have hsig : pendingWork p (fun sig => g.pending p sig && !sigs.contains sig) + c.signalWork p ≤
      pendingWork p (g.pending p) := by
    refine Family.total_add_le (fun x => ?_) sig ?_
    · cases g.pending p x <;> simp
      split <;> simp
    · simp [hmem, hp sig hmem]
  simp only [workLeft, workOf, delivered]
  omega

end

end Shared

/-! ### Each call pays -/

/-- The test of a loop leads to the round or to the end. -/
@[elab_as_elim]
theorem forLoop_cases {P : Type} {n k : ℕ} {body : Fin n → P} {done : P} {motive : P → Prop}
    (hround : ∀ h : k < n, motive (body ⟨k, h⟩)) (hdone : motive done) :
    motive (forLoop n k body done) := by
  unfold forLoop
  split
  · exact hround _
  · exact hdone

namespace Task

variable {P V : Type} {l l' : Task P V} {g g' : Shared c} {price : P → V → ℕ} {next : P}

theorem goto_work (h : price next l.vars + 2 ≤ price l.pc l.vars) :
    (l.goto next).work price + g.workLeft + 1 ≤ l.work price + g.workLeft := by
  simp only [work, goto, Mode.work]
  omega

theorem goto_work_of_eintr (hm : l.mode = .eintr)
    (h : price next l.vars ≤ price l.pc l.vars + 18) :
    (l.goto next).work price + g.workLeft + 1 ≤ l.work price + g.workLeft := by
  simp only [work, goto, Mode.work, hm]
  omega

theorem retry_work (hm : l.mode = .eintr) :
    l.retry.work price + g.workLeft + 1 ≤ l.work price + g.workLeft := by
  simp only [work, retry, Mode.work, hm]
  omega

theorem exit_work (hm : l.mode = .eintr) {code : ℕ} :
    (l.exit code).work price + g.workLeft + 1 ≤ l.work price + g.workLeft := by
  simp only [work, exit, Mode.work, hm]
  omega

theorem sleep_work (hx : l.exited = false) (hm : l.mode ≠ .asleep) :
    l.sleep.work price + g.workLeft + 1 ≤ l.work price + g.workLeft := by
  obtain ⟨pc, mode, vars⟩ := l
  cases mode with
  | asleep => exact absurd rfl hm
  | exited => exact Bool.noConfusion hx
  | running | eintr => simp only [work, sleep, Mode.work]; omega

theorem semWait_work {σ : Sem c.nofWorkerSeats} (h : l.semWait g σ next = some (l', g'))
    (hx : l.exited = false) (hnext : price next l.vars + 2 ≤ price l.pc l.vars + σ.work) :
    l'.work price + g'.workLeft + 1 ≤ l.work price + g.workLeft := by
  unfold semWait at h
  repeat' split at h
  all_goals cases h
  · have := Shared.workLeft_down ‹0 < g.sem σ›
    simp only [work, goto, Mode.work]
    omega
  · exact sleep_work hx ‹_›

theorem semPost_work {σ : Sem c.nofWorkerSeats} (h : l.semPost g σ next = some (l', g'))
    (hnext : price next l.vars + σ.work + 2 ≤ price l.pc l.vars) :
    l'.work price + g'.workLeft + 1 ≤ l.work price + g.workLeft := by
  cases h
  rw [Shared.workLeft_up]
  simp only [work, goto, Mode.work]
  omega

theorem msgSend_work {m : Message} {e : c.Event} (h : l.msgSend g m e next = some (l', g'))
    (hx : l.exited = false)
    (hnext : price next l.vars + c.messageWork m + 2 ≤ price l.pc l.vars) :
    l'.work price + g'.workLeft + 1 ≤ l.work price + g.workLeft := by
  unfold msgSend at h
  repeat' split at h
  all_goals cases h
  · rw [Shared.workLeft_log, Shared.workLeft_send]
    simp only [work, goto, Mode.work]
    omega
  · exact sleep_work hx ‹_›

theorem nanosleep_work (h : l.nanosleep g next = some (l', g')) (hx : l.exited = false)
    (hnext : price next l.vars + 2 ≤ price l.pc l.vars) :
    l'.work price + g'.workLeft + 1 ≤ l.work price + g.workLeft := by
  unfold nanosleep at h
  split at h <;> cases h
  · exact goto_work hnext
  · exact sleep_work hx ‹_›

end Task

end PostOffice
