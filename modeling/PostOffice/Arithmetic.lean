import PostOffice.Lib.CInt
import PostOffice.Config
import PostOffice.Operator

/-! The integer arithmetic on the parameters: an `int` has 32 bits and a `long long` 64, and what
    does not fit has no value. `allocate_ipc` evaluates the arguments of all its calls before it
    looks at any of their results:

        shmget × 5 ──▶ msgget ──▶ semget(total_sems) ──▶ one is -1? ──▶ exit
                                                         │ no
                                                         ▼
                                     shmat × 5 ──▶ initialize_shared_state

    Only the number of seats is added to anything: `total_sems` is the largest of these sums. -/

namespace PostOffice

open CInt

/-- The parameter of this name. -/
def SimulationParameter.get (config : SimulationParameter) : ConfigKey → ℤ
  | .nofWorkerSeats => config.nofWorkerSeats
  | .nofWorkers => config.nofWorkers
  | .nofUsers => config.nofUsers
  | .nofPause => config.nofPause
  | .pServMin => config.pServMin
  | .pServMax => config.pServMax
  | .simDuration => config.simDuration
  | .nNanoSeconds => config.nNanoSeconds
  | .explodeThreshold => config.explodeThreshold

/-- Every parameter is an `int`. -/
def SimulationParameter.Ints (config : SimulationParameter) : Prop :=
  ∀ key, InRange 32 (config.get key)

instance (config : SimulationParameter) : Decidable config.Ints :=
  inferInstanceAs (Decidable (∀ key, InRange 32 (config.get key)))

namespace Checked

def counterMutexSem (counterId : ℤ) : Option ℤ := some counterId

def serviceQueueMutexSem (totalCounters service : ℤ) : Option ℤ := add 32 totalCounters service

def serviceJobsSem (totalCounters service : ℤ) : Option ℤ := do
  let jobs ← add 32 totalCounters serviceCount
  add 32 jobs service

def serviceFreeCounterSem (totalCounters service : ℤ) : Option ℤ := do
  let before ← mul 32 serviceCount 2
  let free ← add 32 totalCounters before
  add 32 free service

def statsMutexSem (totalCounters : ℤ) : Option ℤ := do
  let before ← mul 32 serviceCount 3
  add 32 totalCounters before

def totalSems (totalCounters : ℤ) : Option ℤ := do
  let before ← mul 32 serviceCount 3
  let stats ← add 32 totalCounters before
  add 32 stats 1

def minutesToNs (minutes minuteNs : ℤ) : Option ℤ := mul 64 minutes minuteNs

/-! ### `allocate_ipc` -/

/-- The segments that `allocate_ipc` creates. -/
inductive Segment where | counters | workers | users | stats | queues
  deriving DecidableEq

instance : Fintype Segment :=
  ⟨{.counters, .workers, .users, .stats, .queues}, fun segment => by cases segment <;> decide⟩

/-- What the system answers, and the sizes of the structures in memory. -/
structure IpcCalls where
  sizeof : Segment → ℕ
  shmget : Segment → ℤ → ℤ
  msgget : ℤ
  semget : ℤ → ℤ
  /-- `none` is `(void *) -1`. -/
  shmat : Segment → ℤ → Option ℕ

/-- The product that is passed to `shmget`, a `size_t`. -/
def segmentSize (calls : IpcCalls) (config : SimulationParameter) (segment : Segment) : ℤ :=
  let count : ℤ := match segment with
    | .counters => config.nofWorkerSeats
    | .workers => config.nofWorkers
    | .users => config.nofUsers
    | .stats => 1
    | .queues => serviceCount
  calls.sizeof segment * count % 2 ^ 64

/-- A system that grants nothing. -/
def refusingCalls : IpcCalls where
  sizeof _ := 8
  shmget _ _ := -1
  msgget := -1
  semget _ := -1
  shmat _ _ := none

/-- The ids and the addresses that `allocate_ipc` leaves. -/
structure Ipc where
  shmid : Segment → ℤ
  msgid : ℤ
  semid : ℤ
  address : Segment → Option ℕ

/-- `allocate_ipc`; `some none` is `exit(EXIT_FAILURE)`. -/
def allocateIpc (calls : IpcCalls) (config : SimulationParameter) : Option (Option Ipc) := do
  let shmid := fun segment => calls.shmget segment (segmentSize calls config segment)
  let msgid := calls.msgget
  let count ← totalSems config.nofWorkerSeats
  let semid := calls.semget count
  if (∃ segment, shmid segment = -1) ∨ msgid = -1 ∨ semid = -1 then return none
  let address := fun segment => calls.shmat segment (shmid segment)
  if ∃ segment, address segment = none then return none
  return some { shmid := shmid, msgid := msgid, semid := semid, address := address }

/-! ### `initialize_shared_state` -/

/-- What `initialize_shared_state` writes, and its calls of `set_sem_value`. -/
structure SharedState where
  counterIds : List ℤ
  workerServices : List ℤ
  goProbabilities : List ℤ
  semValues : List (ℤ × ℤ)

/-- The round of a user, with the result of `rand()`. -/
def drawGoProbability (config : SimulationParameter) (draw : ℤ) : Option ℤ := do
  let width ← sub 32 config.pServMax config.pServMin
  let interval ← add 32 width 1
  let offset ← mod 32 draw interval
  add 32 config.pServMin offset

/-- The round of a service. -/
def initServiceSems (seats service : ℤ) : Option (List (ℤ × ℤ)) := do
  let queueMutex ← serviceQueueMutexSem seats service
  let jobs ← serviceJobsSem seats service
  let free ← serviceFreeCounterSem seats service
  return [(queueMutex, 1), (jobs, 0), (free, 0)]

/-- `initialize_shared_state`; `rand` are the results of `rand()`, in order. -/
def initializeSharedState (rand : ℕ → ℤ) (config : SimulationParameter) : Option SharedState := do
  let counterIds ← loop 32 config.nofWorkerSeats some
  let workerServices ← loop 32 config.nofWorkers fun i => mod 32 (rand i.toNat) serviceCount
  let goProbabilities ← loop 32 config.nofUsers fun i =>
    drawGoProbability config (rand (config.nofWorkers.toNat + i.toNat))
  let counterMutexes ← loop 32 config.nofWorkerSeats fun i =>
    (counterMutexSem i).map fun sem => (sem, 1)
  let serviceSems ← loop 32 serviceCount (initServiceSems config.nofWorkerSeats)
  let statsMutex ← statsMutexSem config.nofWorkerSeats
  return {
    counterIds := counterIds
    workerServices := workerServices
    goProbabilities := goProbabilities
    semValues := counterMutexes ++ serviceSems.flatten ++ [(statsMutex, 1)] }

/-! ### The sleeps -/

/-- `struct timespec`. -/
structure Timespec where
  tvSec : ℤ
  tvNsec : ℤ

/-- The request that a sleep begins with. -/
def splitDuration (durationNs : ℤ) : Option Timespec := do
  let tvSec ← div 64 durationNs 1000000000
  let tvNsec ← mod 64 durationNs 1000000000
  return { tvSec := tvSec, tvNsec := tvNsec }

def sleepForDayDuration (config : SimulationParameter) : Option Timespec := do
  let durationNs ← minutesToNs workdayMinutes config.nNanoSeconds
  splitDuration durationNs

def sleepUntilArrival (config : SimulationParameter) (arrivalMinute : ℤ) : Option Timespec := do
  let durationNs ← minutesToNs arrivalMinute config.nNanoSeconds
  splitDuration durationNs

def sleepServiceDuration (durationNs : ℤ) : Option Timespec := splitDuration durationNs

/-- `random_service_duration_minutes`, with the result of `rand()`. -/
def randomServiceDurationMinutes (service : Service) (draw : ℤ) : Option ℤ := do
  let mean : ℤ := serviceMeanMinutes service
  let half ← div 32 mean 2
  let max ← add 32 mean half
  let min := if half ≤ 0 then 1 else half
  let width ← sub 32 max min
  let interval ← add 32 width 1
  let offset ← mod 32 draw interval
  add 32 min offset

/-- The beginning of `serve_ticket`. -/
def serveTicketSleep (config : SimulationParameter) (service : Service) (draw : ℤ) :
    Option Timespec := do
  let serviceMinutes ← randomServiceDurationMinutes service draw
  let serviceDurationNs ← minutesToNs serviceMinutes config.nNanoSeconds
  sleepServiceDuration serviceDurationNs

/-- The beginning of `run_day` of a user who goes. -/
def runDaySleep (config : SimulationParameter) (draw : ℤ) : Option Timespec := do
  let arrivalMinute ← mod 32 draw workdayMinutes
  sleepUntilArrival config arrivalMinute

/-! ### Bounds -/

section Bounds

variable {config : SimulationParameter} {seats i x : ℤ}

theorem int_iff : InRange 32 x ↔ -2147483648 ≤ x ∧ x ≤ 2147483647 := by
  unfold InRange
  omega

theorem longLong_iff : InRange 64 x ↔ -9223372036854775808 ≤ x ∧ x ≤ 9223372036854775807 := by
  unfold InRange
  omega

/-- `INT_MAX` less the semaphores that are not one for each seat. -/
def maxSeats : ℤ := 2147483628

/-- The sums over the seats: none of them exceeds the number of semaphores. -/
theorem inRange_sum (hpos : 0 ≤ seats) (hmax : seats ≤ maxSeats) (hx : seats ≤ x)
    (hle : x ≤ seats + 19) : InRange 32 x := by
  unfold maxSeats at hmax
  exact int_iff.mpr ⟨by omega, by omega⟩

theorem semsBeforeStats : mul 32 serviceCount 3 = some 18 := by decide

theorem semsBeforeFree : mul 32 serviceCount 2 = some 12 := by decide

theorem totalSems_eq (hpos : 0 ≤ seats) (hmax : seats ≤ maxSeats) :
    totalSems seats = some (seats + 18 + 1) := by
  have hstats : InRange 32 (seats + 18) := inRange_sum hpos hmax (by omega) (by omega)
  have hlast : InRange 32 (seats + 18 + 1) := inRange_sum hpos hmax (by omega) (by omega)
  simp only [totalSems, semsBeforeStats, Option.bind_eq_bind, Option.bind_some, add_eq hstats,
    add_eq hlast]

/-- One of the two sums overflows, whichever is the first. -/
theorem totalSems_eq_none (hmax : maxSeats < seats) : totalSems seats = none := by
  unfold maxSeats at hmax
  simp only [totalSems, semsBeforeStats, Option.bind_eq_bind, Option.bind_some]
  by_cases hstats : InRange 32 (seats + 18)
  · rw [add_eq hstats, Option.bind_some, add_eq_none_iff, int_iff]
    omega
  · rw [add_eq_none_iff.mpr hstats]
    rfl

theorem serviceQueueMutexSem_eq (hpos : 0 ≤ seats) (hmax : seats ≤ maxSeats) (hi : 0 ≤ i)
    (hlt : i < 6) : serviceQueueMutexSem seats i = some (seats + i) :=
  add_eq (inRange_sum hpos hmax (by omega) (by omega))

theorem serviceJobsSem_eq (hpos : 0 ≤ seats) (hmax : seats ≤ maxSeats) (hi : 0 ≤ i)
    (hlt : i < 6) : serviceJobsSem seats i = some (seats + serviceCount + i) := by
  have hcount : ((serviceCount : ℕ) : ℤ) = 6 := rfl
  have hjobs : InRange 32 (seats + serviceCount) := inRange_sum hpos hmax (by omega) (by omega)
  have hsum : InRange 32 (seats + serviceCount + i) := inRange_sum hpos hmax (by omega) (by omega)
  simp only [serviceJobsSem, add_eq hjobs, Option.bind_eq_bind, Option.bind_some, add_eq hsum]

theorem serviceFreeCounterSem_eq (hpos : 0 ≤ seats) (hmax : seats ≤ maxSeats) (hi : 0 ≤ i)
    (hlt : i < 6) : serviceFreeCounterSem seats i = some (seats + 12 + i) := by
  have hfree : InRange 32 (seats + 12) := inRange_sum hpos hmax (by omega) (by omega)
  have hsum : InRange 32 (seats + 12 + i) := inRange_sum hpos hmax (by omega) (by omega)
  simp only [serviceFreeCounterSem, semsBeforeFree, Option.bind_eq_bind, Option.bind_some,
    add_eq hfree, add_eq hsum]

theorem statsMutexSem_eq (hpos : 0 ≤ seats) (hmax : seats ≤ maxSeats) :
    statsMutexSem seats = some (seats + 18) := by
  have hstats : InRange 32 (seats + 18) := inRange_sum hpos hmax (by omega) (by omega)
  simp only [statsMutexSem, semsBeforeStats, Option.bind_eq_bind, Option.bind_some, add_eq hstats]

/-- The functions of the semaphores, by use. -/
def semNumber {seats : ℕ} : Sem seats → Option ℤ
  | .counterMutex k => counterMutexSem k
  | .queueMutex s => serviceQueueMutexSem seats s
  | .jobs s => serviceJobsSem seats s
  | .freeCounter s => serviceFreeCounterSem seats s
  | .stats => statsMutexSem seats

/-- They give the numbers of the semaphores when there are not too many seats. -/
theorem semNumber_eq {seats : ℕ} (hmax : seats ≤ maxSeats) (σ : Sem seats) :
    semNumber σ = some (σ.index : ℤ) := by
  have hpos := Int.natCast_nonneg seats
  have hservice (s : Service) : (0 : ℤ) ≤ (s : ℕ) ∧ ((s : ℕ) : ℤ) < 6 :=
    ⟨Int.natCast_nonneg _, by exact_mod_cast s.isLt⟩
  cases σ with
  | counterMutex k => rfl
  | queueMutex s =>
    rw [semNumber, serviceQueueMutexSem_eq hpos hmax (hservice s).1 (hservice s).2, Sem.index]
    push_cast
    rfl
  | jobs s =>
    rw [semNumber, serviceJobsSem_eq hpos hmax (hservice s).1 (hservice s).2, Sem.index]
    push_cast
    rfl
  | freeCounter s =>
    rw [semNumber, serviceFreeCounterSem_eq hpos hmax (hservice s).1 (hservice s).2, Sem.index]
    push_cast
    rfl
  | stats =>
    rw [semNumber, statsMutexSem_eq hpos hmax, Sem.index]
    push_cast
    rfl

/-- No draw leaves the interval, and the interval is not empty. -/
theorem drawGoProbability_spec {draw : ℤ} (hmin : 0 ≤ config.pServMin)
    (hle : config.pServMin ≤ config.pServMax) (hmax : config.pServMax ≤ 100) (hdraw : 0 ≤ draw)
    (hint : InRange 32 draw) :
    ∃ p, drawGoProbability config draw = some p ∧ config.pServMin ≤ p ∧ p ≤ config.pServMax := by
  have hwidth : InRange 32 (config.pServMax - config.pServMin) := int_iff.mpr ⟨by omega, by omega⟩
  have hinterval : InRange 32 (config.pServMax - config.pServMin + 1) :=
    int_iff.mpr ⟨by omega, by omega⟩
  obtain ⟨offset, hmod, hnonneg, hlt⟩ :=
    mod_spec (y := config.pServMax - config.pServMin + 1) hint hdraw (by omega)
  have hsum : InRange 32 (config.pServMin + offset) := int_iff.mpr ⟨by omega, by omega⟩
  refine ⟨config.pServMin + offset, ?_, by omega, by omega⟩
  simp only [drawGoProbability, sub_eq hwidth, add_eq hinterval, hmod, add_eq hsum,
    Option.bind_eq_bind, Option.bind_some]

theorem initServiceSems_spec (hpos : 0 ≤ seats) (hmax : seats ≤ maxSeats) (hi : 0 ≤ i)
    (hlt : i < serviceCount) :
    ∃ calls, initServiceSems seats i = some calls ∧
      ∀ call ∈ calls, seats ≤ call.1 ∧ call.1 < seats + 18 := by
  have hcount : ((serviceCount : ℕ) : ℤ) = 6 := rfl
  rw [hcount] at hlt
  refine ⟨[(seats + i, 1), (seats + serviceCount + i, 0), (seats + 12 + i, 0)], ?_, ?_⟩
  · simp only [initServiceSems, serviceQueueMutexSem_eq hpos hmax hi hlt,
      serviceJobsSem_eq hpos hmax hi hlt, serviceFreeCounterSem_eq hpos hmax hi hlt,
      Option.bind_eq_bind, Option.bind_some]
    rfl
  · simp only [List.forall_mem_cons, hcount]
    exact ⟨by omega, by omega, by omega, List.forall_mem_nil _⟩

/-- The quotient and the remainder of a duration. -/
def Timespec.Splits (request : Timespec) (durationNs : ℤ) : Prop :=
  0 ≤ request.tvSec ∧ 0 ≤ request.tvNsec ∧ request.tvNsec < 1000000000 ∧
    request.tvSec * 1000000000 + request.tvNsec = durationNs

theorem splitDuration_spec (hint : InRange 64 x) (hpos : 0 ≤ x) :
    ∃ request, splitDuration x = some request ∧ request.Splits x := by
  obtain ⟨q, r, hdiv, hmod, hq, hr, hlt, hsum⟩ :=
    div_mod_spec (y := 1000000000) hint hpos (by decide)
  refine ⟨{ tvSec := q, tvNsec := r }, ?_, hq, hr, hlt, hsum⟩
  simp only [splitDuration, hdiv, hmod, Option.bind_eq_bind, Option.bind_some]
  rfl

/-- A minute count of a day, in nanoseconds. -/
theorem minutesToNs_spec {minutes minuteNs : ℤ} (hpos : 0 ≤ minutes)
    (hday : minutes ≤ workdayMinutes) (hns : 0 < minuteNs) (hint : InRange 32 minuteNs) :
    minutesToNs minutes minuteNs = some (minutes * minuteNs) ∧ 0 ≤ minutes * minuteNs ∧
      InRange 64 (minutes * minuteNs) := by
  have hle : minutes * minuteNs ≤ 480 * 2147483647 :=
    mul_le_mul hday (int_iff.mp hint).2 hns.le (by decide)
  have hnonneg : 0 ≤ minutes * minuteNs := mul_nonneg hpos hns.le
  have hrange : InRange 64 (minutes * minuteNs) := longLong_iff.mpr ⟨by omega, by omega⟩
  exact ⟨mul_eq hrange, hnonneg, hrange⟩

/-- The minutes of a service, as in `PostOffice.randomServiceDurationMinutes`. -/
theorem randomServiceDurationMinutes_eq (service : Service) {n : ℕ} (hint : InRange 32 n) :
    randomServiceDurationMinutes service n =
      some (PostOffice.randomServiceDurationMinutes service n : ℤ) ∧
      PostOffice.randomServiceDurationMinutes service n ≤ workdayMinutes := by
  have hmean : 2 ≤ serviceMeanMinutes service ∧ serviceMeanMinutes service ≤ 20 := by
    revert service
    decide
  unfold randomServiceDurationMinutes PostOffice.randomServiceDurationMinutes
  generalize serviceMeanMinutes service = mean at hmean
  obtain ⟨hmin, hmax⟩ := hmean
  obtain ⟨half, hhalf⟩ : ∃ half, mean / 2 = half := ⟨_, rfl⟩
  obtain ⟨offset, hoffset⟩ : ∃ offset, n % (mean + 1) = offset := ⟨_, rfl⟩
  have hlt : offset < mean + 1 := hoffset ▸ Nat.mod_lt _ (by omega)
  have hdiv : div 32 mean 2 = some (half : ℤ) := by
    rw [div_eq (int_iff.mpr ⟨by omega, by omega⟩) (by omega) (by decide), ← hhalf]
    rfl
  have hadd : add 32 mean half = some (mean + half : ℤ) :=
    add_eq (int_iff.mpr ⟨by omega, by omega⟩)
  have hsub : sub 32 (mean + half : ℤ) half = some (mean : ℤ) := by
    rw [sub_eq (int_iff.mpr ⟨by omega, by omega⟩), Int.add_sub_cancel]
  have hinterval : add 32 (mean : ℤ) 1 = some (mean + 1 : ℤ) :=
    add_eq (int_iff.mpr ⟨by omega, by omega⟩)
  have hmod : mod 32 (n : ℤ) (mean + 1) = some (offset : ℤ) := by
    rw [mod_eq hint (by omega) (by omega), ← hoffset]
    rfl
  have hsum : add 32 (half : ℤ) offset = some (half + offset : ℤ) :=
    add_eq (int_iff.mpr ⟨by omega, by omega⟩)
  have hpos : ¬ half ≤ 0 := by omega
  have hposInt : ¬ (half : ℤ) ≤ 0 := by omega
  have hwidth : mean + half - half + 1 = mean + 1 := by omega
  simp only [hhalf, if_neg hpos, hwidth, hoffset]
  refine ⟨Option.bind_eq_some_iff.mpr ⟨_, hdiv, Option.bind_eq_some_iff.mpr ⟨_, hadd, ?_⟩⟩, ?_⟩
  · rw [if_neg hposInt]
    exact Option.bind_eq_some_iff.mpr ⟨_, hsub, Option.bind_eq_some_iff.mpr ⟨_, hinterval,
      Option.bind_eq_some_iff.mpr ⟨_, hmod, hsum⟩⟩⟩
  · unfold workdayMinutes
    omega

/-- What an accepted file promises, and that its parameters are an `int` each. -/
structure Accepted (config : SimulationParameter) : Prop where
  ints : config.Ints
  seats_pos : 0 < config.nofWorkerSeats
  workers_pos : 0 < config.nofWorkers
  users_pos : 0 < config.nofUsers
  minute_pos : 0 < config.nNanoSeconds
  pServ : 0 ≤ config.pServMin ∧ config.pServMin ≤ config.pServMax ∧ config.pServMax ≤ 100

theorem Accepted.of_readConfigFile {content : List Char} (hints : config.Ints)
    (h : readConfigFile content .zero = .ok config) : Accepted config := by
  obtain ⟨hseats, hworkers, husers, -, hminute, hpServ⟩ := accepted_bounds h
  exact ⟨hints, hseats, hworkers, husers, hminute, hpServ⟩

/-- The results of `rand()` are no less than 0. -/
def Draws (rand : ℕ → ℤ) : Prop := ∀ k, InRange 32 (rand k) ∧ 0 ≤ rand k

namespace Accepted

theorem sharedState (h : Accepted config) (hmax : config.nofWorkerSeats ≤ maxSeats)
    {rand : ℕ → ℤ} (hrand : Draws rand) :
    ∃ shared, initializeSharedState rand config = some shared ∧
      shared.goProbabilities.length = config.nofUsers.toNat ∧
      (∀ p ∈ shared.goProbabilities, config.pServMin ≤ p ∧ p ≤ config.pServMax) ∧
      ∀ call ∈ shared.semValues, 0 ≤ call.1 ∧ call.1 < config.nofWorkerSeats + 19 := by
  have hseats := h.seats_pos.le
  obtain ⟨ids, hids, -⟩ := loop_spec (n := config.nofWorkerSeats) (f := some)
    (P := fun i id => id = i) (h.ints .nofWorkerSeats) hseats fun i _ _ => ⟨i, rfl, rfl⟩
  obtain ⟨services, hservices, -⟩ := loop_spec (n := config.nofWorkers)
    (f := fun i => mod 32 (rand i.toNat) serviceCount) (P := fun _ r => 0 ≤ r ∧ r < serviceCount)
    (h.ints .nofWorkers) h.workers_pos.le fun i _ _ => mod_spec (hrand _).1 (hrand _).2 (by decide)
  obtain ⟨probabilities, hprobabilities, hlen, hbounds⟩ := loop_spec (n := config.nofUsers)
    (f := fun i => drawGoProbability config (rand (config.nofWorkers.toNat + i.toNat)))
    (P := fun _ p => config.pServMin ≤ p ∧ p ≤ config.pServMax)
    (h.ints .nofUsers) h.users_pos.le fun i _ _ =>
      drawGoProbability_spec h.pServ.1 h.pServ.2.1 h.pServ.2.2 (hrand _).2 (hrand _).1
  obtain ⟨mutexes, hmutexes, -, hmutex⟩ := loop_spec (n := config.nofWorkerSeats)
    (f := fun i => (counterMutexSem i).map fun sem => (sem, (1 : ℤ)))
    (P := fun i call => call.1 = i) (h.ints .nofWorkerSeats) hseats fun i _ _ => ⟨(i, 1), rfl, rfl⟩
  obtain ⟨sems, hsems, -, hsem⟩ := loop_spec (n := serviceCount)
    (f := initServiceSems config.nofWorkerSeats)
    (P := fun _ calls => ∀ call ∈ calls, config.nofWorkerSeats ≤ call.1 ∧
      call.1 < config.nofWorkerSeats + 18)
    (by decide : InRange 32 serviceCount) (by decide) fun i hi hlt =>
      initServiceSems_spec hseats hmax hi hlt
  refine ⟨{
    counterIds := ids
    workerServices := services
    goProbabilities := probabilities
    semValues := mutexes ++ sems.flatten ++ [(config.nofWorkerSeats + 18, 1)] }, ?_, hlen, ?_, ?_⟩
  · simp only [initializeSharedState, hids, hservices, hprobabilities, hmutexes, hsems,
      statsMutexSem_eq hseats hmax, Option.bind_eq_bind, Option.bind_some]
    rfl
  · intro p hp
    obtain ⟨-, -, -, hbound⟩ := hbounds p hp
    exact hbound
  · intro call hcall
    rcases List.mem_append.mp hcall with hcall | hcall
    · rcases List.mem_append.mp hcall with hcall | hcall
      · obtain ⟨i, hi, hlt, heq⟩ := hmutex call hcall
        omega
      · obtain ⟨calls, hcalls, hmem⟩ := List.mem_flatten.mp hcall
        obtain ⟨-, -, -, hbound⟩ := hsem calls hcalls
        have := hbound call hmem
        omega
    · obtain rfl := List.mem_singleton.mp hcall
      dsimp only
      omega

/-- Every minute of a day can be slept. -/
theorem minute (h : Accepted config) {minutes : ℤ} (hpos : 0 ≤ minutes)
    (hday : minutes ≤ workdayMinutes) :
    ∃ request, minutesToNs minutes config.nNanoSeconds = some (minutes * config.nNanoSeconds) ∧
      splitDuration (minutes * config.nNanoSeconds) = some request ∧
      request.Splits (minutes * config.nNanoSeconds) := by
  obtain ⟨hns, hnonneg, hrange⟩ :=
    minutesToNs_spec hpos hday h.minute_pos (h.ints .nNanoSeconds)
  obtain ⟨request, hrequest, hsplits⟩ := splitDuration_spec hrange hnonneg
  exact ⟨request, hns, hrequest, hsplits⟩

theorem sleepUntilArrival (h : Accepted config) {minutes : ℤ} (hpos : 0 ≤ minutes)
    (hday : minutes ≤ workdayMinutes) :
    ∃ request, Checked.sleepUntilArrival config minutes = some request ∧
      request.Splits (minutes * config.nNanoSeconds) := by
  obtain ⟨request, hns, hrequest, hsplits⟩ := h.minute hpos hday
  exact ⟨request, Option.bind_eq_some_iff.mpr ⟨_, hns, hrequest⟩, hsplits⟩

end Accepted

end Bounds

/-! ### No overflow -/

/-- What is computed from the parameters has a value, whatever the system answers and `rand()`
    returns, and the value is the intended one. -/
structure NoOverflow (config : SimulationParameter) : Prop where
  allocation : ∀ calls, allocateIpc calls config ≠ none
  sharedState : ∀ rand, Draws rand → ∃ shared, initializeSharedState rand config = some shared ∧
    shared.goProbabilities.length = config.nofUsers.toNat ∧
    ∀ p ∈ shared.goProbabilities, config.pServMin ≤ p ∧ p ≤ config.pServMax
  minutes : ∀ minutes : ℤ, 0 ≤ minutes → minutes ≤ workdayMinutes → ∃ durationNs request,
    minutesToNs minutes config.nNanoSeconds = some durationNs ∧
    splitDuration durationNs = some request ∧ durationNs = minutes * config.nNanoSeconds ∧
    request.Splits durationNs
  daySleep : sleepForDayDuration config ≠ none
  arrivalSleep : ∀ draw, InRange 32 draw → 0 ≤ draw → runDaySleep config draw ≠ none
  serviceSleep : ∀ service draw, InRange 32 draw → 0 ≤ draw →
    serveTicketSleep config service draw ≠ none

/-- What the calls answer makes no difference. -/
theorem allocateIpc_eq_none {calls : IpcCalls} {config : SimulationParameter}
    (h : totalSems config.nofWorkerSeats = none) : allocateIpc calls config = none := by
  unfold allocateIpc
  rw [h]
  rfl

theorem allocateIpc_ne_none {calls : IpcCalls} {config : SimulationParameter} {count : ℤ}
    (h : totalSems config.nofWorkerSeats = some count) : allocateIpc calls config ≠ none := by
  unfold allocateIpc
  simp only [h, Option.bind_eq_bind, Option.bind_some]
  split
  · exact Option.some_ne_none _
  · split
    · exact Option.some_ne_none _
    · exact Option.some_ne_none _

/-- CORRECT: nothing that is computed from an accepted configuration overflows if and only if it has
    at most `maxSeats` seats; the one sum that can overflow is `total_sems`. -/
theorem accepted_no_overflow (content : List Char) (config : SimulationParameter)
    (hread : readConfigFile content .zero = .ok config) (hints : config.Ints) :
    NoOverflow config ↔ config.nofWorkerSeats ≤ maxSeats := by
  have h := Accepted.of_readConfigFile hints hread
  constructor
  · intro hsafe
    by_contra hmax
    exact hsafe.allocation refusingCalls
      (allocateIpc_eq_none (totalSems_eq_none (Int.not_le.mp hmax)))
  · intro hmax
    refine {
      allocation := fun calls => allocateIpc_ne_none (totalSems_eq h.seats_pos.le hmax)
      sharedState := fun rand hrand => ?_
      minutes := fun minutes hpos hday => ?_
      daySleep := ?_
      arrivalSleep := fun draw hint hpos => ?_
      serviceSleep := fun service draw hint hpos => ?_ }
    · obtain ⟨shared, hshared, hlen, hbounds, -⟩ := h.sharedState hmax hrand
      exact ⟨shared, hshared, hlen, hbounds⟩
    · obtain ⟨request, hns, hrequest, hsplits⟩ := h.minute hpos hday
      exact ⟨_, request, hns, hrequest, rfl, hsplits⟩
    · obtain ⟨request, hrequest, -⟩ := h.sleepUntilArrival (Int.natCast_nonneg _) le_rfl
      exact Option.ne_none_iff_exists'.mpr ⟨request, hrequest⟩
    · obtain ⟨arrival, hmod, hnonneg, hlt⟩ :=
        mod_spec (y := workdayMinutes) hint hpos (by decide)
      obtain ⟨request, hrequest, -⟩ := h.sleepUntilArrival hnonneg hlt.le
      exact Option.ne_none_iff_exists'.mpr
        ⟨request, Option.bind_eq_some_iff.mpr ⟨arrival, hmod, hrequest⟩⟩
    · obtain ⟨n, rfl⟩ := Int.eq_ofNat_of_zero_le hpos
      obtain ⟨hminutes, hday⟩ := randomServiceDurationMinutes_eq service hint
      obtain ⟨request, hns, hrequest, -⟩ :=
        h.minute (Int.natCast_nonneg (PostOffice.randomServiceDurationMinutes service n))
          (Int.ofNat_le.mpr hday)
      have hsleep : serveTicketSleep config service n = some request := by
        simp only [serveTicketSleep, sleepServiceDuration, hminutes, hns, hrequest,
          Option.bind_eq_bind, Option.bind_some]
      exact Option.ne_none_iff_exists'.mpr ⟨request, hsleep⟩

/-- A configuration file with one of everything but this many seats. -/
def seatsConfig (seats : String) : List Char :=
  ("NOF_WORKER_SEATS " ++ seats ++
    "\nNOF_WORKERS 1\nNOF_USERS 1\nSIM_DURATION 1\nN_NANO_SECONDS 1\n").toList

/-- What `read_config_file` makes of it. -/
def seatsParameter (seats : ℤ) : SimulationParameter :=
  { SimulationParameter.zero with
    nofWorkerSeats := seats
    nofWorkers := 1
    nofUsers := 1
    simDuration := 1
    nNanoSeconds := 1 }

theorem accepted_no_overflow_small : NoOverflow (seatsParameter 3) :=
  (accepted_no_overflow (seatsConfig "3") (seatsParameter 3) (by decide +kernel)
    (by decide)).mpr (by decide)

/-- With `INT_MAX` seats the file is accepted, and the number of semaphores overflows. -/
theorem most_seats_overflow :
    readConfigFile (seatsConfig "2147483647") .zero = .ok (seatsParameter 2147483647) ∧
      (seatsParameter 2147483647).Ints ∧ ¬ NoOverflow (seatsParameter 2147483647) := by
  refine ⟨by decide +kernel, by decide, fun hsafe => ?_⟩
  exact hsafe.allocation refusingCalls rfl

end Checked

end PostOffice
