import Mathlib.Tactic.Simps.Basic
import Mathlib.Logic.Function.Basic
import PostOffice.Commons

/-! What the processes share: the parameters, the System V objects, pending signals and the clock.

    `Setup` is everything fixed once the children are spawned: the accepted configuration, the draws
    of `initialize_shared_state` and the process ids. `Shared` is everything that changes: the
    shared memory segments, the semaphore set, the message queue (at most `msgCapacity` messages),
    the pending signals of each process and the monotonic clock.

    `hist` is a history variable: no program reads it. It records, in order, the events the
    properties speak about.

    System calls fail only with `EINTR`, and only while asleep; a semaphore operation of +1 neither
    sleeps nor fails. So a process that is left when the objects are removed goes on as if they were
    there. The numbers of the semaphores are those of the set that `semget` has granted: its limit
    is far below 2^16, so that the cast of `sem_num` to `unsigned short` changes none of them. -/

namespace PostOffice

/-- The processes: `create_children` spawns all but the director. -/
inductive Proc (workers users : ℕ) where
  | director
  | dispenser
  | operator (w : Fin workers)
  | user (u : Fin users)
  deriving DecidableEq

/-- The signals the programs use. -/
inductive Signal where | int | term | usr1 | usr2
  deriving DecidableEq

/-- A run's fixed data: the accepted configuration and what the start-up drew. -/
structure Setup where
  nofWorkerSeats : ℕ
  nofWorkers : ℕ
  nofUsers : ℕ
  nofPause : ℤ
  simDuration : ℕ
  nNanoSeconds : ℤ
  explodeThreshold : ℤ
  /-- `workers[i].service`, drawn by `initialize_shared_state`. -/
  workerService : Fin nofWorkers → Service
  /-- `users[i].go_probability`, drawn by `initialize_shared_state`. -/
  goProbability : Fin nofUsers → ℤ
  pid : Proc nofWorkers nofUsers → ℤ
  /-- How many messages the queue holds. -/
  msgCapacity : ℕ
  /-- `log_init` has opened the log. -/
  logOpen : Bool
  seats_pos : 0 < nofWorkerSeats
  workers_pos : 0 < nofWorkers
  users_pos : 0 < nofUsers
  capacity_pos : 0 < msgCapacity
  pid_pos : ∀ p, 0 < pid p
  pid_injective : Function.Injective pid

/-- The processes of a run. -/
abbrev Setup.Proc (c : Setup) := PostOffice.Proc c.nofWorkers c.nofUsers

/-- The events of a run. -/
inductive Event (workers users : ℕ) where
  /-- A child sent `DIRECTOR_MSG_INIT`. -/
  | init (p : Proc workers users)
  /-- `assign_daily_counters` of the day begins. -/
  | assigned (day : ℕ)
  /-- An operator or a user enters `run_day` while `CURRENT_DAY` is `day`. -/
  | runDay (p : Proc workers users) (day : ℕ)
  /-- A user sent a ticket request. -/
  | requested (u : Fin users) (s : Service)
  /-- `service_queue_push` while `CURRENT_DAY` is `day`. -/
  | pushed (s : Service) (t : QueueTicket) (day : ℕ)
  | popped (w : Fin workers) (s : Service) (t : QueueTicket)
  /-- A pop by an operator found the queue empty. -/
  | poppedEmpty (w : Fin workers) (s : Service)
  /-- The shutdown flag breaks `sleep_for_day_duration` off. -/
  | brokenOff
  /-- A pop by `flush_pending_users`. -/
  | flushed (s : Service) (t : QueueTicket)
  /-- The statistics update of `serve_ticket`. -/
  | served (w : Fin workers) (s : Service) (t : QueueTicket) (waitingNs : ℤ)
  /-- `send_user_reply` by `p`. -/
  | replied (p : Proc workers users) (userPid : ℤ) (status : UserReplyStatus) (s : Service)
  /-- An operator sent `DIRECTOR_MSG_DAY_FINISHED`. -/
  | dayFinished (w : Fin workers)
  | dailyStatistics (day activeToday activeTotal : ℕ) (stats : SimulationStats)
  | finalStatistics (cause : TerminationCause) (day : ℕ) (stats : SimulationStats)

/-- The process whose step records the event. -/
def Event.actor {workers users : ℕ} : Event workers users → Proc workers users
  | .init p | .runDay p _ | .replied p _ _ _ => p
  | .assigned _ | .brokenOff | .flushed _ _ | .dailyStatistics _ _ _ _ | .finalStatistics _ _ _ => .director
  | .requested u _ => .user u
  | .pushed _ _ _ => .dispenser
  | .popped w _ _ | .poppedEmpty w _ | .served w _ _ _ | .dayFinished w => .operator w

abbrev Setup.Event (c : Setup) := PostOffice.Event c.nofWorkers c.nofUsers

/-- The shared state. -/
structure Shared (c : Setup) where
  currentDay : ℕ
  dayActive : Bool
  terminationCause : TerminationCause
  counters : Fin c.nofWorkerSeats → Counter
  workers : Fin c.nofWorkers → WorkerInfo c.nofWorkerSeats
  stats : SimulationStats
  queues : Service → ServiceQueue
  sem : Sem c.nofWorkerSeats → ℕ
  msgs : List Message
  pending : c.Proc → Signal → Bool
  /-- The System V objects that have not been removed. -/
  objects : Resource → Bool
  /-- The children whose pid `waitpid` has returned. -/
  reaped : c.Proc → Bool
  clock : ℤ
  hist : List c.Event

namespace Shared

variable {c : Setup} (g : Shared c)

/-- A successful `semop` of -1. -/
@[simps] def down (σ : Sem c.nofWorkerSeats) : Shared c :=
  { g with sem := Function.update g.sem σ (g.sem σ - 1) }

/-- `semop` of +1. -/
@[simps] def up (σ : Sem c.nofWorkerSeats) : Shared c :=
  { g with sem := Function.update g.sem σ (g.sem σ + 1) }

/-- `set_sem_value`. -/
@[simps] def setSemValue (σ : Sem c.nofWorkerSeats) (value : ℕ) : Shared c :=
  { g with sem := Function.update g.sem σ value }

/-- `msgsnd` into a queue with room. -/
@[simps] def send (m : Message) : Shared c := { g with msgs := g.msgs ++ [m] }

/-- The first message of the type, as `msgrcv` selects it. -/
def firstOfType (mtype : ℤ) : Option Message := g.msgs.find? fun m => m.mtype == mtype

/-- The queue without the first message of the type. -/
@[simps] def received (mtype : ℤ) : Shared c :=
  { g with msgs := g.msgs.eraseP fun m => m.mtype == mtype }

/-- `kill`: equal pending signals coalesce. -/
@[simps] def kill (p : c.Proc) (sig : Signal) : Shared c :=
  { g with pending := Function.update g.pending p (Function.update (g.pending p) sig true) }

/-- The signals are taken off the pending set of `p`. -/
@[simps] def delivered (p : c.Proc) (sigs : List Signal) : Shared c :=
  { g with pending := Function.update g.pending p fun sig => g.pending p sig && !sigs.contains sig }

/-- `msgctl`, `semctl` or `shmctl` with `IPC_RMID`. -/
@[simps] def remove (r : Resource) : Shared c :=
  { g with objects := Function.update g.objects r false }

/-- `waitpid` returns the pid of the child. -/
@[simps] def reap (p : c.Proc) : Shared c :=
  { g with reaped := Function.update g.reaped p true }

/-- Record an event. -/
@[simps] def log (e : c.Event) : Shared c := { g with hist := g.hist ++ [e] }

@[simps] def setCounter (i : Fin c.nofWorkerSeats) (x : Counter) : Shared c :=
  { g with counters := Function.update g.counters i x }

@[simps] def setWorker (w : Fin c.nofWorkers) (x : WorkerInfo c.nofWorkerSeats) : Shared c :=
  { g with workers := Function.update g.workers w x }

@[simps] def setQueue (s : Service) (q : ServiceQueue) : Shared c :=
  { g with queues := Function.update g.queues s q }

@[simps] def setStats (stats : SimulationStats) : Shared c := { g with stats := stats }

end Shared

/-! ### Processes and their blocking calls -/

/-- How a process stands at its program point: running towards it, asleep in the call there, back
    from that call with `EINTR`, or terminated, with its exit status or, killed by a signal, with 128
    and the number of that signal. -/
inductive Mode where
  | running
  | asleep
  | eintr
  | exited (code : ℕ)
  deriving DecidableEq

/-- A process: program point, mode and program variables. A process that calls `exit` keeps the
    program point and the variables it had. -/
structure Task (P V : Type) where
  pc : P
  mode : Mode
  vars : V

namespace Task

variable {P V : Type} (l : Task P V)

@[simps] def goto (pc : P) : Task P V := { l with pc := pc, mode := .running }

/-- The call at the program point blocks. -/
@[simps] def sleep : Task P V := { l with mode := .asleep }

/-- The call that was interrupted is about to be made again. -/
@[simps] def retry : Task P V := { l with mode := .running }

@[simps] def exit (code : ℕ) : Task P V := { l with mode := .exited code }

@[simps] def setVars (vars : V) : Task P V := { l with vars := vars }

def exited : Bool := match l.mode with
  | .exited _ => true
  | _ => false

/-- Signal delivery: the handlers run in the order of the list, and a call the process sleeps in
    fails with `EINTR`. -/
@[simps] def deliver (handler : V → Signal → V) (sigs : List Signal) : Task P V :=
  { l with vars := sigs.foldl handler l.vars,
           mode := if l.mode = .asleep then .eintr else l.mode }

/-- Signal delivery ends no process. -/
theorem exited_deliver (handler : V → Signal → V) (sigs : List Signal) :
    (l.deliver handler sigs).exited = l.exited := by
  unfold exited deliver
  cases l.mode <;> rfl

theorem mode_eq_running {l : Task P V} (hx : l.exited = false) (hm : l.mode ≠ .eintr)
    (ha : l.mode ≠ .asleep) : l.mode = .running := by
  unfold exited at hx
  cases hmode : l.mode with
  | running => rfl
  | asleep => exact absurd hmode ha
  | eintr => exact absurd hmode hm
  | exited code =>
    rw [hmode] at hx
    exact Bool.noConfusion hx

variable {c : Setup} (g : Shared c)

/-- One step of `semop(σ, -1)`, not interrupted: take a unit, or fall asleep, or sleep on. -/
def semWait (σ : Sem c.nofWorkerSeats) (next : P) : Option (Task P V × Shared c) :=
  if 0 < g.sem σ then some (l.goto next, g.down σ)
  else if l.mode = .asleep then none else some (l.sleep, g)

/-- `semop(σ, +1)`. -/
def semPost (σ : Sem c.nofWorkerSeats) (next : P) : Option (Task P V × Shared c) :=
  some (l.goto next, g.up σ)

/-- One step of `msgsnd`, not interrupted. -/
def msgSend (m : Message) (e : c.Event) (next : P) : Option (Task P V × Shared c) :=
  if g.msgs.length < c.msgCapacity then some (l.goto next, (g.send m).log e)
  else if l.mode = .asleep then none else some (l.sleep, g)

/-- One step of `nanosleep` and of any call that ends by itself: it may end at any time. -/
def nanosleep (next : P) : Option (Task P V × Shared c) :=
  if l.mode = .asleep then some (l.goto next, g) else some (l.sleep, g)

end Task

/-- `for (i = k; i < n; ++i)`: the program point of round `k`, or `done` when the loop is over. -/
def forLoop {P : Type} (n k : ℕ) (body : Fin n → P) (done : P) : P :=
  if h : k < n then body ⟨k, h⟩ else done

end PostOffice
