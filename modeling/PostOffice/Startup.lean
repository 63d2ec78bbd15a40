import PostOffice.IpcRuns
import PostOffice.System

/-! The start-up, from the objects that `allocate_ipc` attaches to the state in which the first day
    can begin. `initialize_shared_state` and `create_children` write the records of shared memory
    and the semaphores, by number; `Setup` and `State.init` speak of services, processes and
    semaphores by name:

        config, rand() ──initialize_shared_state──▶ records, semaphores ──create_children──▶ pids
             │                                              │ shows
             └────────────── Setup ──────────────▶ Shared.init

    Whatever the segments and the semaphores hold before is overwritten; the message queue is not,
    and has to be new. -/

namespace PostOffice

open KeyTable Transition

/-! ### The records -/

/-- `struct postal_counter`. -/
structure CounterRecord where
  counterId : ℤ
  service : ℤ
  workerPid : ℤ
  deriving DecidableEq

/-- `struct worker_info`. -/
structure WorkerRecord where
  pid : ℤ
  service : ℤ
  pausesTaken : ℤ
  pausesToday : ℤ
  activeToday : ℤ
  activeEver : ℤ
  currentCounter : ℤ
  deriving DecidableEq

/-- `struct user_info`. -/
structure UserRecord where
  pid : ℤ
  goProbability : ℤ
  deriving DecidableEq

/-- The objects of the office, by what is in them. -/
structure Memory where
  config : SimulationParameter
  counters : List CounterRecord
  workers : List WorkerRecord
  users : List UserRecord
  stats : SimulationStats
  queues : Service → ServiceQueue
  sems : ℤ → ℤ
  messages : List Message

/-- What `fork` returns, and the director's own pid. -/
structure Children where
  director : ℤ
  dispenser : ℤ
  operator : ℕ → ℤ
  user : ℕ → ℤ

/-- The pid of a process. -/
def Children.pid {workers users : ℕ} (x : Children) : Proc workers users → ℤ
  | .director => x.director
  | .dispenser => x.dispenser
  | .operator w => x.operator w
  | .user u => x.user u

/-- No two processes have the same pid. -/
structure Children.Alive (x : Children) (workers users : ℕ) : Prop where
  pos : ∀ p : Proc workers users, 0 < x.pid p
  injective : Function.Injective (x.pid : Proc workers users → ℤ)

namespace Memory

/-- `initialize_shared_state`: `memset` and the loops. -/
def initializeSharedState (rand : ℕ → ℤ) (m : Memory) : Option Memory :=
  (Checked.initializeSharedState rand m.config).map fun x => { m with
    counters := x.counterIds.map fun i => { counterId := i, service := -1, workerPid := -1 }
    workers := x.workerServices.map fun service =>
      { pid := 0, service := service, pausesTaken := 0, pausesToday := 0, activeToday := 0
        activeEver := 0, currentCounter := -1 }
    users := x.goProbabilities.map fun p => { pid := 0, goProbability := p }
    stats := .zero
    queues := fun _ => serviceQueueReset
    sems := x.semValues.foldl (fun sems call => Function.update sems call.1 call.2) m.sems }

/-- `create_children`, as far as it writes to memory. -/
def createChildren (children : Children) (m : Memory) : Memory :=
  { m with
    workers := m.workers.mapIdx fun i x => { x with pid := children.operator i }
    users := m.users.mapIdx fun i x => { x with pid := children.user i } }

/-- From the return of `allocate_ipc` to `wait_for_initialization`. -/
def startUp (rand : ℕ → ℤ) (children : Children) (m : Memory) : Option Memory :=
  (m.initializeSharedState rand).map (createChildren children)

/-- A flag, as an `int`. -/
def flag (b : Bool) : ℤ := if b then 1 else 0

/-- An index, or -1. -/
def indexOrNone {n : ℕ} (i : Option (Fin n)) : ℤ := i.elim (-1) fun i => (i : ℕ)

/-- The memory shows the shared state of the model. -/
structure Shows {c : Setup} (m : Memory) (g : Shared c) : Prop where
  currentDay : m.config.currentDay = g.currentDay
  dayActive : m.config.dayActive = g.dayActive
  terminationCause : m.config.terminationCause = g.terminationCause
  counters : m.counters = List.ofFn fun i =>
    { counterId := (i : ℕ), service := indexOrNone (g.counters i).service
      workerPid := (g.counters i).workerPid }
  workers : m.workers = List.ofFn fun w =>
    { pid := c.pid (.operator w), service := (c.workerService w : ℕ)
      pausesTaken := (g.workers w).pausesTaken, pausesToday := (g.workers w).pausesToday
      activeToday := flag (g.workers w).activeToday, activeEver := flag (g.workers w).activeEver
      currentCounter := indexOrNone (g.workers w).currentCounter }
  users : m.users = List.ofFn fun u =>
    { pid := c.pid (.user u), goProbability := c.goProbability u }
  stats : m.stats = g.stats
  queues : m.queues = g.queues
  sems : ∀ σ : Sem c.nofWorkerSeats, m.sems σ.index = g.sem σ
  messages : m.messages = g.msgs

end Memory

/-- The parameters of the run are those of the configuration. -/
structure Setup.Of (c : Setup) (config : SimulationParameter) : Prop where
  nofWorkerSeats : config.nofWorkerSeats = c.nofWorkerSeats
  nofWorkers : config.nofWorkers = c.nofWorkers
  nofUsers : config.nofUsers = c.nofUsers
  nofPause : config.nofPause = c.nofPause
  simDuration : config.simDuration = c.simDuration
  nNanoSeconds : config.nNanoSeconds = c.nNanoSeconds
  explodeThreshold : config.explodeThreshold = c.explodeThreshold
  goProbability : ∀ u, config.pServMin ≤ c.goProbability u ∧ c.goProbability u ≤ config.pServMax

/-! ### What is written -/

namespace Checked

variable {config : SimulationParameter} {rand : ℕ → ℤ}

/-- The probability of a user: `pServMin` and what `rand()` adds to it. -/
def goProbability (config : SimulationParameter) (draw : ℤ) : ℤ :=
  config.pServMin + draw.tmod (config.pServMax - config.pServMin + 1)

theorem drawGoProbability_eq (h : Accepted config) {draw : ℤ} (hint : CInt.InRange 32 draw)
    (hdraw : 0 ≤ draw) : drawGoProbability config draw = some (goProbability config draw) := by
  obtain ⟨hmin, hle, hmax⟩ := h.pServ
  have hpos : 0 < config.pServMax - config.pServMin + 1 := by omega
  have hnonneg := Int.tmod_nonneg (config.pServMax - config.pServMin + 1) hdraw
  have hlt := Int.tmod_lt_of_pos draw hpos
  have hwidth : CInt.InRange 32 (config.pServMax - config.pServMin) :=
    int_iff.mpr ⟨by omega, by omega⟩
  have hinterval : CInt.InRange 32 (config.pServMax - config.pServMin + 1) :=
    int_iff.mpr ⟨by omega, by omega⟩
  have hsum : CInt.InRange 32 (goProbability config draw) := by
    unfold goProbability
    exact int_iff.mpr ⟨by omega, by omega⟩
  simp only [drawGoProbability, CInt.sub_eq hwidth, CInt.add_eq hinterval,
    CInt.mod_eq hint hdraw hpos, Option.bind_eq_bind, Option.bind_some]
  exact CInt.add_eq hsum

theorem goProbability_bounds (h : Accepted config) {draw : ℤ} (hdraw : 0 ≤ draw) :
    config.pServMin ≤ goProbability config draw ∧ goProbability config draw ≤ config.pServMax := by
  obtain ⟨hmin, hle, hmax⟩ := h.pServ
  have hnonneg := Int.tmod_nonneg (config.pServMax - config.pServMin + 1) hdraw
  have hlt := Int.tmod_lt_of_pos draw (b := config.pServMax - config.pServMin + 1) (by omega)
  unfold goProbability
  omega

/-- The calls of `set_sem_value`. -/
def semCalls (seats : ℕ) : List (ℤ × ℤ) :=
  (List.range seats).map (fun i : ℕ => ((i : ℤ), (1 : ℤ))) ++
    ((List.range serviceCount).map fun i : ℕ =>
      [((seats : ℤ) + i, (1 : ℤ)), (seats + serviceCount + i, 0), (seats + 12 + i, 0)]).flatten ++
    [((seats : ℤ) + 18, 1)]

theorem initializeSharedState_eq (h : Accepted config) (hmax : config.nofWorkerSeats ≤ maxSeats)
    (hrand : Draws rand) : initializeSharedState rand config = some {
      counterIds := (List.range config.nofWorkerSeats.toNat).map fun i : ℕ => (i : ℤ)
      workerServices := (List.range config.nofWorkers.toNat).map fun i => (rand i).tmod serviceCount
      goProbabilities := (List.range config.nofUsers.toNat).map fun i =>
        goProbability config (rand (config.nofWorkers.toNat + i))
      semValues := semCalls config.nofWorkerSeats.toNat } := by
  obtain ⟨seats, hseats⟩ := Int.eq_ofNat_of_zero_le h.seats_pos.le
  rw [hseats] at hmax
  have hint : CInt.InRange 32 (seats : ℤ) := hseats ▸ h.ints .nofWorkerSeats
  have hids := CInt.loop_eq (f := some) (g := fun i => (i : ℤ)) hint (by omega) fun _ _ => rfl
  have hservices := CInt.loop_eq (n := config.nofWorkers)
    (f := fun i => CInt.mod 32 (rand i.toNat) serviceCount)
    (g := fun i => (rand i).tmod serviceCount) (h.ints .nofWorkers) h.workers_pos.le
    fun i _ => CInt.mod_eq (hrand i).1 (hrand i).2 (by decide)
  have hprobabilities := CInt.loop_eq (n := config.nofUsers)
    (f := fun i => drawGoProbability config (rand (config.nofWorkers.toNat + i.toNat)))
    (g := fun i => goProbability config (rand (config.nofWorkers.toNat + i))) (h.ints .nofUsers)
    h.users_pos.le fun i _ => drawGoProbability_eq h (hrand _).1 (hrand _).2
  have hmutexes := CInt.loop_eq (f := fun i => (counterMutexSem i).map fun sem => (sem, (1 : ℤ)))
    (g := fun i => ((i : ℤ), 1)) hint (by omega) fun _ _ => rfl
  have hsems := CInt.loop_eq (f := initServiceSems seats)
    (g := fun i => [((seats : ℤ) + i, (1 : ℤ)), (seats + serviceCount + i, 0), (seats + 12 + i, 0)])
    (by decide : CInt.InRange 32 serviceCount) (by decide) fun i hi => by
      have hlt : (i : ℤ) < 6 := hi
      simp only [initServiceSems, serviceQueueMutexSem_eq (Int.natCast_nonneg _) hmax (by omega) hlt,
        serviceJobsSem_eq (Int.natCast_nonneg _) hmax (by omega) hlt,
        serviceFreeCounterSem_eq (Int.natCast_nonneg _) hmax (by omega) hlt, Option.bind_eq_bind,
        Option.bind_some]
      rfl
  simp only [initializeSharedState, hseats, hids, hservices, hprobabilities, hmutexes, hsems,
    statsMutexSem_eq (Int.natCast_nonneg seats) hmax, Option.bind_eq_bind, Option.bind_some,
    Int.toNat_natCast]
  rfl

/-- The calls set the semaphores of the model to their first values, and no others. -/
theorem mem_semCalls {c : Setup} {call : ℤ × ℤ} : call ∈ semCalls c.nofWorkerSeats ↔
    ∃ σ : Sem c.nofWorkerSeats, call = ((σ.index : ℤ), ((Shared.init c).sem σ : ℤ)) := by
  simp only [semCalls, List.mem_append, List.mem_map, List.mem_range, List.mem_flatten,
    List.mem_singleton]
  constructor
  · rintro ((⟨i, hi, rfl⟩ | ⟨calls, ⟨i, hi, rfl⟩, hcall⟩) | rfl)
    · exact ⟨.counterMutex ⟨i, hi⟩, rfl⟩
    · simp only [List.mem_cons, List.not_mem_nil, or_false] at hcall
      rcases hcall with rfl | rfl | rfl
      · exact ⟨.queueMutex ⟨i, hi⟩, rfl⟩
      · exact ⟨.jobs ⟨i, hi⟩, rfl⟩
      · exact ⟨.freeCounter ⟨i, hi⟩, rfl⟩
    · exact ⟨.stats, rfl⟩
  · rintro ⟨σ, rfl⟩
    cases σ with
    | counterMutex i => exact .inl (.inl ⟨i, i.isLt, rfl⟩)
    | queueMutex q => exact .inl (.inr ⟨_, ⟨q, q.isLt, rfl⟩, List.mem_cons_self⟩)
    | jobs q =>
      exact .inl (.inr ⟨_, ⟨q, q.isLt, rfl⟩, List.mem_cons_of_mem _ List.mem_cons_self⟩)
    | freeCounter q =>
      refine .inl (.inr ⟨_, ⟨q, q.isLt, rfl⟩, ?_⟩)
      exact List.mem_cons_of_mem _ (List.mem_cons_of_mem _ List.mem_cons_self)
    | stats => exact .inr rfl

end Checked

/-- Writes one after the other, those to one place all of one value. -/
theorem foldl_update_eq {ι α : Type*} [DecidableEq ι] {calls : List (ι × α)} {i : ι} {a : α}
    (hmem : (i, a) ∈ calls) (hval : ∀ call ∈ calls, call.1 = i → call.2 = a) (f : ι → α) :
    calls.foldl (fun f call => Function.update f call.1 call.2) f i = a := by
  induction calls using List.reverseRecOn with
  | nil => exact absurd hmem List.not_mem_nil
  | append_singleton calls call ih =>
    rw [List.foldl_append, List.foldl_cons, List.foldl_nil, Function.update_apply]
    split
    · rename_i heq
      exact hval call (by simp) heq.symm
    · rename_i hne
      refine ih ?_ fun call' hcall' => hval call' (List.mem_append_left _ hcall')
      rcases List.mem_append.mp hmem with hmem | hmem
      · exact hmem
      · exact absurd (congrArg Prod.fst (List.mem_singleton.mp hmem)) hne

/-- The setup of a run: the parameters of its configuration, the draws and the pids. -/
def Setup.ofStartup {config : SimulationParameter} (h : Checked.Accepted config) (rand : ℕ → ℤ)
    {children : Children} (halive : children.Alive config.nofWorkers.toNat config.nofUsers.toNat)
    {capacity : ℕ} (hcapacity : 0 < capacity) (logOpen : Bool) : Setup where
  nofWorkerSeats := config.nofWorkerSeats.toNat
  nofWorkers := config.nofWorkers.toNat
  nofUsers := config.nofUsers.toNat
  nofPause := config.nofPause
  simDuration := config.simDuration.toNat
  nNanoSeconds := config.nNanoSeconds
  explodeThreshold := config.explodeThreshold
  workerService w := drawnService (rand w).toNat
  goProbability u := Checked.goProbability config (rand (config.nofWorkers.toNat + u))
  pid := children.pid
  msgCapacity := capacity
  logOpen := logOpen
  seats_pos := Int.pos_iff_toNat_pos.mp h.seats_pos
  workers_pos := Int.pos_iff_toNat_pos.mp h.workers_pos
  users_pos := Int.pos_iff_toNat_pos.mp h.users_pos
  capacity_pos := hcapacity
  pid_pos := halive.pos
  pid_injective := halive.injective

/-- The service that an operator draws. -/
theorem tmod_serviceCount {draw : ℤ} (hdraw : 0 ≤ draw) :
    draw.tmod serviceCount = (drawnService draw.toNat : ℕ) := by
  obtain ⟨n, rfl⟩ := Int.eq_ofNat_of_zero_le hdraw
  rfl

section

variable {config : SimulationParameter} (h : Checked.Accepted config) {rand : ℕ → ℤ}
  {children : Children} (halive : children.Alive config.nofWorkers.toNat config.nofUsers.toNat)
  {capacity : ℕ} (hcapacity : 0 < capacity) (logOpen : Bool)

theorem Setup.ofStartup_of (hdays : 0 ≤ config.simDuration) (hrand : Checked.Draws rand) :
    (Setup.ofStartup h rand halive hcapacity logOpen).Of config where
  nofWorkerSeats := (Int.toNat_of_nonneg h.seats_pos.le).symm
  nofWorkers := (Int.toNat_of_nonneg h.workers_pos.le).symm
  nofUsers := (Int.toNat_of_nonneg h.users_pos.le).symm
  nofPause := rfl
  simDuration := (Int.toNat_of_nonneg hdays).symm
  nNanoSeconds := rfl
  explodeThreshold := rfl
  goProbability _ := Checked.goProbability_bounds h (hrand _).2

/-- The start-up has a value, and it shows the first state of the model. -/
theorem Memory.startUp_shows (hmax : config.nofWorkerSeats ≤ Checked.maxSeats)
    (hrand : Checked.Draws rand) {m : Memory} (hconfig : m.config = config)
    (hday : config.currentDay = 0 ∧ config.dayActive = false ∧ config.terminationCause = .none)
    (hmessages : m.messages = []) :
    ∃ m', m.startUp rand children = some m' ∧
      m'.Shows (Shared.init (Setup.ofStartup h rand halive hcapacity logOpen)) := by
  subst hconfig
  unfold startUp initializeSharedState
  rw [Checked.initializeSharedState_eq h hmax hrand]
  refine ⟨_, rfl, ?_⟩
  exact {
    currentDay := hday.1
    dayActive := hday.2.1
    terminationCause := hday.2.2
    counters := by
      refine List.ext_getElem (by simp [createChildren, Setup.ofStartup]) fun i h₁ h₂ => ?_
      simp [createChildren, Shared.init, indexOrNone]
    workers := by
      refine List.ext_getElem (by simp [createChildren, Setup.ofStartup]) fun i h₁ h₂ => ?_
      simp only [createChildren, List.getElem_mapIdx, List.getElem_map, List.getElem_range,
        List.getElem_ofFn, tmod_serviceCount (hrand _).2]
      rfl
    users := by
      refine List.ext_getElem (by simp [createChildren, Setup.ofStartup]) fun i h₁ h₂ => ?_
      simp only [createChildren, List.getElem_mapIdx, List.getElem_map, List.getElem_range,
        List.getElem_ofFn]
      rfl
    stats := rfl
    queues := rfl
    sems := fun σ => by
      refine foldl_update_eq (Checked.mem_semCalls.mpr ⟨σ, rfl⟩) (fun call hcall hkey => ?_) _
      obtain ⟨τ, rfl⟩ := Checked.mem_semCalls.mp hcall
      obtain rfl := Sem.index_injective (Int.natCast_inj.mp hkey)
      rfl
    messages := hmessages }

end

/-! ### The first state of the office -/

/-- The memory that the run has attached, with the messages in its queue. -/
structure Memory.Attached (m : Memory) (s : Life) : Prop where
  config : m.config = s.config
  messages : ∀ o ∈ s.table.find Resource.messages.key, m.messages = o.contents.messages

/-- No day has begun when the file is read. -/
theorem readConfigFile_day {file : List Char} {config : SimulationParameter}
    (h : readConfigFile file .zero = .ok config) :
    config.currentDay = 0 ∧ config.dayActive = false ∧ config.terminationCause = .none := by
  obtain ⟨ps, rest, -, -, -, rfl⟩ := readConfigFile_eq_ok_iff.mp h
  exact ⟨rfl, rfl, rfl⟩

/-- The semaphores are there, so that their number has not overflowed. -/
theorem Life.Holds.seats_le {s : Life} (h : s.Holds .semaphores) :
    s.config.nofWorkerSeats ≤ Checked.maxSeats := by
  obtain ⟨o, -, -, -, hsize⟩ := h
  by_contra hmax
  simp only [Resource.size, Checked.totalSems_eq_none (Int.not_le.mp hmax), Option.map_none,
    reduceCtorEq] at hsize

/-- CORRECT: the office begins in its first state. Whatever runs there were before and however they
    ended, whatever the memory attached holds and whatever `rand()` returns: after
    `initialize_shared_state` and `create_children` shared memory, the semaphores and the message
    queue are those of `State.init`, for a setup with the parameters of the file. -/
theorem startup_is_initial {table : IpcTable} (hmine : ∀ r : Resource, table.Mine r.key) {s : Life}
    (h : Reach Life.step (Life.init table) s) (hpc : s.pc = .attach) (hints : s.config.Ints)
    {rand : ℕ → ℤ} (hrand : Checked.Draws rand) {children : Children}
    (halive : children.Alive s.config.nofWorkers.toNat s.config.nofUsers.toNat) {m : Memory}
    (hm : m.Attached s) {capacity : ℕ} (hcapacity : 0 < capacity) (logOpen : Bool) :
    ∃ m' c, m.startUp rand children = some m' ∧ c.Of s.config ∧ c.msgCapacity = capacity ∧
      c.logOpen = logOpen ∧ (∀ p : c.Proc, c.pid p = children.pid p) ∧ m'.Shows (State.init c).g := by
  have hat := (kept hmine h).at_pc
  simp only [Life.At, hpc] at hat
  obtain ⟨hholds, hsilent, -, hread⟩ := hat
  obtain ⟨o, ho, -⟩ := hholds .messages
  have hmessages : m.messages = [] := (hm.messages o ho).trans (hsilent o ho)
  obtain ⟨-, -, -, hdays, -⟩ := accepted_bounds hread
  have haccepted := Checked.Accepted.of_readConfigFile hints hread
  obtain ⟨m', hm', hshows⟩ := Memory.startUp_shows haccepted halive hcapacity logOpen
    (hholds .semaphores).seats_le hrand hm.config (readConfigFile_day hread) hmessages
  exact ⟨m', _, hm', Setup.ofStartup_of haccepted halive hcapacity logOpen hdays.le hrand, rfl,
    rfl, fun _ => rfl, hshows⟩

/-- Two seats, an operator and a user, after a run that was killed. -/
def smallChildren : Children where
  director := 100
  dispenser := 101
  operator w := 102 + w
  user u := 103 + u

theorem smallChildren_alive : smallChildren.Alive 1 1 where
  pos p := by cases p <;> simp only [Children.pid, smallChildren] <;> omega
  injective p q h := by
    cases p <;> cases q <;>
      simp only [Children.pid, smallChildren, Proc.operator.injEq, Proc.user.injEq,
        reduceCtorEq] at h ⊢ <;> omega

/-- Records that are not zero, and semaphores that are not free. -/
def staleMemory : Memory where
  config := Checked.seatsParameter 2
  counters := [{ counterId := 9, service := 9, workerPid := 9 }]
  workers := []
  users := []
  stats := .zero
  queues _ := serviceQueueReset
  sems _ := 7
  messages := []

theorem startup_is_initial_small : ∃ s m c,
    exec Life.step twoRuns.dropLast (Life.init usedTable) = some s ∧ s.pc = .attach ∧
    staleMemory.startUp (fun _ => 3) smallChildren = some m ∧ m.Shows (State.init c).g ∧
    c.nofWorkerSeats = 2 := by
  have hrun : ((exec Life.step twoRuns.dropLast (Life.init usedTable)).any fun s =>
      decide (s.pc = .attach ∧ s.config = staleMemory.config ∧
        (s.table.find Resource.messages.key).map (fun o => o.contents.messages) = some [])) = true := by
    decide +kernel
  obtain ⟨s, hs, h⟩ := (Option.any_eq_true _ _).mp hrun
  obtain ⟨hpc, hconfig, hmessages⟩ := of_decide_eq_true h
  have hm : staleMemory.Attached s := by
    refine ⟨hconfig.symm, fun o ho => ?_⟩
    rw [Option.mem_def.mp ho] at hmessages
    exact (Option.some.inj hmessages).symm
  have hdraw : CInt.InRange 32 3 ∧ (0 : ℤ) ≤ 3 := by decide
  have hrand : Checked.Draws fun _ => 3 := fun _ => hdraw
  obtain ⟨m, c, hm, hof, -, -, -, hshows⟩ := startup_is_initial (by decide) (reach_of_exec _ hs) hpc
    (by rw [hconfig]; decide) hrand (by rw [hconfig]; exact smallChildren_alive) hm Nat.one_pos true
  refine ⟨s, m, c, hs, hpc, hm, hshows, ?_⟩
  have hseats := hof.nofWorkerSeats
  rw [hconfig] at hseats
  exact Int.natCast_inj.mp hseats.symm

end PostOffice
