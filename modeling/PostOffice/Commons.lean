import Mathlib.Data.Rat.Defs
import Mathlib.Data.Fin.VecNotation
import Mathlib.Data.Fintype.Basic
import PostOffice.Lib.RingBuffer

/-! The data shared by the four programs (`commons.h`): constants, the structures in shared memory,
    the semaphores and the three kinds of messages.

    An `int` that only takes the value -1 or an index is an `Option`: `counters[i].service` before
    the first assignment, `current_counter` of an operator without a counter. Process ids stay
    integers, with -1 for "nobody" as in the source. The minute sums, `double` in the source, are
    rationals, added and divided exactly where every `+=` and `/` of the source rounds: no program
    reads them back except to print an average. -/

namespace PostOffice

/-- `SERVICE_COUNT`. -/
abbrev serviceCount : ℕ := 6

instance : NeZero serviceCount := ⟨by decide⟩

/-- `WORKDAY_MINUTES`. -/
def workdayMinutes : ℕ := 480

/-- `MAX_COUNT_QUEUE`. -/
def maxCountQueue : ℕ := 4096

/-- `DIRECTOR_MTYPE`. -/
def directorMtype : ℤ := 1

/-- `TICKET_REQUEST_MTYPE`. -/
def ticketRequestMtype : ℤ := 2

/-- `USER_REPLY_BASE`. -/
def userReplyBase : ℤ := 100000

/-- `enum service_type`: packages, letters, banking, payments, financial, gifts. -/
abbrev Service := Fin serviceCount

/-- `rand() % SERVICE_COUNT` when `rand()` returns `n`. -/
def drawnService (n : ℕ) : Service := ⟨n % serviceCount, Nat.mod_lt _ (by decide)⟩

/-- `enum director_message_kind`. -/
inductive DirectorMessageKind where | init | dayFinished
  deriving DecidableEq

/-- `enum user_reply_status`. -/
inductive UserReplyStatus where | served | notServed
  deriving DecidableEq

/-- `enum termination_cause`. -/
inductive TerminationCause where | none | timeout | explode
  deriving DecidableEq

/-- The System V objects. -/
inductive Resource where | config | counters | workers | users | stats | queues | messages | semaphores
  deriving DecidableEq

instance : Fintype Resource :=
  ⟨{.config, .counters, .workers, .users, .stats, .queues, .messages, .semaphores},
    fun r => by cases r <;> decide⟩

/-- The order of `cleanup_stale_ipc_resources` and of `cleanup_ipc`. -/
def Resource.removals : List Resource :=
  [.messages, .semaphores, .config, .counters, .workers, .users, .stats, .queues]

/-- `struct postal_counter`; `counter_id` is the index and `none` the service -1. -/
structure Counter where
  service : Option Service
  workerPid : ℤ
  deriving DecidableEq

/-- `struct queue_ticket`. -/
structure QueueTicket where
  userPid : ℤ
  userIndex : ℤ
  requestedAtNs : ℤ
  deriving DecidableEq

/-- `struct worker_info`, without the pid and the service, which never change once the operators
    are spawned. `none` is the counter -1. -/
structure WorkerInfo (seats : ℕ) where
  pausesTaken : ℕ
  pausesToday : ℕ
  activeToday : Bool
  activeEver : Bool
  currentCounter : Option (Fin seats)
  deriving DecidableEq

/-- `struct service_stats`. -/
structure ServiceStats where
  requests : ℕ
  served : ℕ
  notServed : ℕ
  waitMinutesSum : ℚ
  serviceMinutesSum : ℚ

/-- `struct simulation_stats`. -/
structure SimulationStats where
  dayUsersServed : ℕ
  dayServicesServed : ℕ
  dayServicesNotServed : ℕ
  dayWaitMinutesSum : ℚ
  dayServiceMinutesSum : ℚ
  dayByService : Service → ServiceStats
  totalUsersServed : ℕ
  totalServicesServed : ℕ
  totalServicesNotServed : ℕ
  totalWaitMinutesSum : ℚ
  totalServiceMinutesSum : ℚ
  totalByService : Service → ServiceStats
  dayPauseTotal : ℕ
  totalPauseTotal : ℕ

/-- `service_mean_minutes`. -/
def serviceMeanMinutes : Service → ℕ := ![8, 8, 6, 8, 20, 20]

/-- `ns_to_minutes`. -/
def nsToMinutes (durationNs minuteNs : ℤ) : ℚ :=
  if minuteNs ≤ 0 then 0 else (durationNs : ℚ) / (minuteNs : ℚ)

/-! ### Service queues -/

/-- `struct service_queue`. -/
abbrev ServiceQueue := RingBuffer QueueTicket maxCountQueue

/-- The ticket that an empty queue returns and that a popped cell is overwritten with. -/
def noTicket : QueueTicket := { userPid := -1, userIndex := -1, requestedAtNs := 0 }

/-- `service_queue_reset`: all bytes zero. -/
def serviceQueueReset : ServiceQueue :=
  RingBuffer.reset (by decide) { userPid := 0, userIndex := 0, requestedAtNs := 0 }

/-- `service_queue_is_full`. -/
def serviceQueueIsFull (queue : ServiceQueue) : Bool := queue.isFull

/-- `service_queue_push`; `none` is the return value -1. -/
def serviceQueuePush (queue : ServiceQueue) (ticket : QueueTicket) : Option ServiceQueue :=
  queue.push ticket

/-- `service_queue_length`. -/
def serviceQueueLength (queue : ServiceQueue) : ℕ := queue.length

/-- `service_queue_pop`. -/
def serviceQueuePop (queue : ServiceQueue) : QueueTicket × ServiceQueue := queue.pop noTicket

/-! ### Semaphores -/

/-- The semaphores of the set, by use. -/
inductive Sem (seats : ℕ) where
  | counterMutex (i : Fin seats)
  | queueMutex (s : Service)
  | jobs (s : Service)
  | freeCounter (s : Service)
  | stats
  deriving DecidableEq

/-- `counter_mutex_sem`, `service_queue_mutex_sem`, `service_jobs_sem`, `service_free_counter_sem`
    and `stats_mutex_sem`: the number of each semaphore in the set. -/
def Sem.index {seats : ℕ} : Sem seats → ℕ
  | .counterMutex i => i
  | .queueMutex s => seats + s
  | .jobs s => seats + serviceCount + s
  | .freeCounter s => seats + serviceCount * 2 + s
  | .stats => seats + serviceCount * 3

/-- `total_sems`. -/
def totalSems (seats : ℕ) : ℕ := seats + serviceCount * 3 + 1

/-- No two uses share a semaphore. -/
theorem Sem.index_injective {seats : ℕ} : Function.Injective (@Sem.index seats) := by
  intro σ τ h
  cases σ <;> cases τ <;> simp only [Sem.index, serviceCount, Sem.counterMutex.injEq,
    Sem.queueMutex.injEq, Sem.jobs.injEq, Sem.freeCounter.injEq, Fin.ext_iff] at h ⊢ <;> omega

/-- Every semaphore number lies in the set. -/
theorem Sem.index_lt {seats : ℕ} (σ : Sem seats) : σ.index < totalSems seats := by
  cases σ <;> simp only [Sem.index, totalSems, serviceCount] <;> omega

/-- The mutexes: every semaphore that guards a critical section. -/
def Sem.IsMutex {seats : ℕ} : Sem seats → Prop
  | .counterMutex _ | .queueMutex _ | .stats => True
  | .jobs _ | .freeCounter _ => False

/-! ### Messages -/

/-- `struct director_message`. -/
structure DirectorMessage where
  kind : DirectorMessageKind
  index : ℤ
  pid : ℤ
  deriving DecidableEq

/-- `struct ticket_message`. -/
structure TicketMessage where
  userIndex : ℤ
  userPid : ℤ
  service : ℤ
  deriving DecidableEq

/-- `struct user_reply_message`. -/
structure UserReplyMessage where
  mtype : ℤ
  status : UserReplyStatus
  service : Service
  deriving DecidableEq

/-- A message in the queue. -/
inductive Message where
  | director (m : DirectorMessage)
  | ticket (m : TicketMessage)
  | userReply (m : UserReplyMessage)
  deriving DecidableEq

/-- The type a message is sent with. -/
def Message.mtype : Message → ℤ
  | .director _ => directorMtype
  | .ticket _ => ticketRequestMtype
  | .userReply m => m.mtype

end PostOffice
