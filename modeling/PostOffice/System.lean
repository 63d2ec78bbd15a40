import PostOffice.Lib.Transition
import PostOffice.Operator
import PostOffice.User
import PostOffice.Director

/-! The whole system: the four programs interleaved in any order.

    An action is one step of one process, the delivery of some of a process's pending signals, a
    `SIGINT` or `SIGTERM` sent to the director from outside, or the passing of time. Pending signals
    wait for any length of time; one delivery runs the handlers of one or more of them, in any
    order, before the process's next own step. Signals from outside go to the director only.

    `reachable` ranges over every interleaving. The initial state is the one `create_children`
    leaves: the children have not run yet, and nothing they do before the director comes to
    `wait_for_initialization` touches what it writes until then. -/

namespace PostOffice

open Transition

/-- The state of the system. -/
structure State (c : Setup) where
  g : Shared c
  director : Director c
  dispenser : Dispenser c
  operators : Fin c.nofWorkers → Operator c
  users : Fin c.nofUsers → User

/-- The actions. -/
inductive Act (c : Setup) where
  /-- The next own step of `p`; `rand` is what `rand()` returns in it. -/
  | own (p : c.Proc) (rand : ℕ)
  /-- The handlers of these pending signals of `p` run, in this order. -/
  | deliver (p : c.Proc) (sigs : List Signal)
  /-- Somebody outside sends `SIGINT` or, with `term`, `SIGTERM` to the director. -/
  | interrupt (term : Bool)
  /-- Time passes. -/
  | tick (ns : ℕ)

namespace State

variable {c : Setup} (s : State c)

@[simps] def setG (g : Shared c) : State c := { s with g := g }

@[simps] def setDirector (x : Director c × Shared c) : State c :=
  { s with director := x.1, g := x.2 }

@[simps] def setDispenser (x : Dispenser c × Shared c) : State c :=
  { s with dispenser := x.1, g := x.2 }

@[simps] def setOperator (w : Fin c.nofWorkers) (x : Operator c × Shared c) : State c :=
  { s with operators := Function.update s.operators w x.1, g := x.2 }

@[simps] def setUser (u : Fin c.nofUsers) (x : User × Shared c) : State c :=
  { s with users := Function.update s.users u x.1, g := x.2 }

/-- The process has terminated. -/
def exited : c.Proc → Bool
  | .director => s.director.exited
  | .dispenser => s.dispenser.exited
  | .operator w => (s.operators w).exited
  | .user u => (s.users u).exited

/-- The signal handlers of one process run. -/
def deliverTo (sigs : List Signal) : c.Proc → State c
  | .director => s.setDirector (s.director.deliver handleDirectorSignal sigs,
      s.g.delivered .director sigs)
  | .dispenser => s.setDispenser (s.dispenser.deliver handleTicketSignal sigs,
      s.g.delivered .dispenser sigs)
  | .operator w => s.setOperator w ((s.operators w).deliver handleOperatorSignal sigs,
      s.g.delivered (.operator w) sigs)
  | .user u => s.setUser u ((s.users u).deliver handleUserSignal sigs, s.g.delivered (.user u) sigs)

end State

variable {c : Setup}

/-- One step of the system. -/
def step (s : State c) : Act c → Option (State c)
  | .own .director n => (Director.step s.director s.g s.exited n).map s.setDirector
  | .own .dispenser _ => (Dispenser.step s.dispenser s.g).map s.setDispenser
  | .own (.operator w) n => (Operator.step w (s.operators w) s.g n).map (s.setOperator w)
  | .own (.user u) n => (User.step u (s.users u) s.g n).map (s.setUser u)
  | .deliver p sigs =>
      if sigs ≠ [] ∧ sigs.Nodup ∧ (∀ sig ∈ sigs, s.g.pending p sig = true) ∧ s.exited p = false then
        some (s.deliverTo sigs p)
      else none
  | .interrupt term => some (s.setG (s.g.kill .director (if term then .term else .int)))
  | .tick ns => some (s.setG { s.g with clock := s.g.clock + ns })

/-- All statistics zero. -/
def SimulationStats.zero : SimulationStats :=
  { dayUsersServed := 0, dayServicesServed := 0, dayServicesNotServed := 0
    dayWaitMinutesSum := 0, dayServiceMinutesSum := 0, dayByService := fun _ => .zero
    totalUsersServed := 0, totalServicesServed := 0, totalServicesNotServed := 0
    totalWaitMinutesSum := 0, totalServiceMinutesSum := 0, totalByService := fun _ => .zero
    dayPauseTotal := 0, totalPauseTotal := 0 }

/-- What `initialize_shared_state` leaves in shared memory and in the semaphore set. -/
def Shared.init (c : Setup) : Shared c where
  currentDay := 0
  dayActive := false
  terminationCause := .none
  counters _ := { service := none, workerPid := -1 }
  workers _ := { pausesTaken := 0, pausesToday := 0, activeToday := false, activeEver := false,
                 currentCounter := none }
  stats := .zero
  queues _ := serviceQueueReset
  sem
    | .counterMutex _ | .queueMutex _ | .stats => 1
    | .jobs _ | .freeCounter _ => 0
  msgs := []
  pending _ _ := false
  objects _ := true
  reaped _ := false
  clock := 0
  hist := []

/-- The state in which the director enters `wait_for_initialization`. -/
def State.init (c : Setup) : State c where
  g := Shared.init c
  director := { pc := .waitInit, mode := .running, vars :=
    { shutdownRequested := false, day := 1, received := 0, countersPerService := fun _ => 0
      total := 0, pendingBeforeFlush := 0, pendingTotal := 0, activeToday := 0
      activeTotal := 0 } }
  dispenser := { pc := .sendInit, mode := .running, vars := { terminateRequested := false } }
  operators _ := { pc := .sendInit, mode := .running, vars :=
    { dayStarted := false, dayStopRequested := false, terminateRequested := false } }
  users _ := { pc := .sendInit, mode := .running, vars :=
    { dayStarted := false, dayClosed := false, terminateRequested := false } }

/-- The states of every interleaving. -/
abbrev Reachable (s : State c) : Prop := Reach step (State.init c) s

/-- The states of the interleavings whose steps all satisfy `ok`. -/
abbrev ReachableBy (ok : State c → Act c → Prop) (s : State c) : Prop :=
  ReachBy step ok (State.init c) s

/-- Every signal delivery satisfies `D`, in the state it happens in. -/
def Delivers (D : State c → c.Proc → List Signal → Prop) (s : State c) (a : Act c) : Prop :=
  ∀ p sigs, a = .deliver p sigs → D s p sigs

instance {D : State c → c.Proc → List Signal → Prop} [∀ s p sigs, Decidable (D s p sigs)]
    (s : State c) : (a : Act c) → Decidable (Delivers D s a)
  | .deliver p sigs => decidable_of_iff (D s p sigs)
      ⟨fun h _ _ he => by obtain ⟨rfl, rfl⟩ := Act.deliver.inj he; exact h, fun h => h p sigs rfl⟩
  | .own _ _ | .interrupt _ | .tick _ => isTrue nofun

/-- The action delivers the signal. -/
def Act.delivers (sig : Signal) : Act c → Bool
  | .deliver _ sigs => sigs.contains sig
  | _ => false

/-- A run without `SIGUSR2` satisfies every condition on the deliveries of `SIGUSR2`. -/
theorem allowed_of_quiet {D : State c → c.Proc → List Signal → Prop} {as : List (Act c)}
    (hD : ∀ s p sigs, .usr2 ∉ sigs → D s p sigs)
    (has : ∀ a ∈ as, a.delivers .usr2 = false) (s : State c) :
    Allowed step (Delivers D) as s := by
  refine Allowed.of_forall (fun a ha t p sigs he => hD t p sigs fun hmem => ?_) s
  subst he
  have := has _ ha
  simp only [Act.delivers, List.contains_eq_mem, decide_eq_false_iff_not] at this
  exact this hmem

/-! ### A small office -/

/-- One seat, one operator, for service 0, and two users, who go on every other draw. -/
def smallOffice : Setup where
  nofWorkerSeats := 1
  nofWorkers := 1
  nofUsers := 2
  nofPause := 1
  simDuration := 2
  nNanoSeconds := 1000000
  explodeThreshold := 10
  workerService _ := 0
  goProbability _ := 50
  pid
    | .director => 100
    | .dispenser => 101
    | .operator w => 102 + w
    | .user u => 103 + u
  msgCapacity := 8
  logOpen := true
  seats_pos := by decide
  workers_pos := by decide
  users_pos := by decide
  capacity_pos := by decide
  pid_pos p := by cases p <;> simp only <;> omega
  pid_injective p q h := by
    cases p <;> cases q <;>
      simp only [Proc.operator.injEq, Proc.user.injEq, reduceCtorEq] at h ⊢ <;> omega

namespace SmallOffice

def clerk : Proc 1 2 := .operator 0

def first : Proc 1 2 := .user 0

def second : Proc 1 2 := .user 1

/-- `n` steps of the process, `rand()` returning 0. -/
def own (p : Proc 1 2) (n : ℕ) : List (Act smallOffice) := List.replicate n (.own p 0)

def signal (p : Proc 1 2) (sig : Signal) : List (Act smallOffice) := [.deliver p [sig]]

/-- Everybody announces itself and the first day begins. -/
def morning : List (Act smallOffice) :=
  own .dispenser 1 ++ own clerk 1 ++ own first 1 ++ own second 1 ++ own .director 36

/-- The operator sits down and the first user sends a request. -/
def arrival : List (Act smallOffice) :=
  morning ++ signal clerk .usr1 ++ own clerk 16 ++ own .dispenser 2 ++
    signal first .usr1 ++ own first 14

/-- The ticket is in the queue. -/
def queued : List (Act smallOffice) := arrival ++ own .dispenser 13

/-- The operator pops it and serves the user, until the reply. -/
def serving : List (Act smallOffice) := queued ++ own clerk 11

/-- The day ends: up to the return of `wait_for_workers_day_end`. -/
def evening : List (Act smallOffice) :=
  serving ++ own .director 6 ++ signal clerk .usr2 ++ own clerk 8 ++
    own .director 2

/-- The queues are counted and flushed: up to `print_daily_statistics`. -/
def closing : List (Act smallOffice) := evening ++ own .director 45

/-- Up to the second `DAY_ACTIVE = 1`. -/
def night : List (Act smallOffice) := closing ++ own .director 33

end SmallOffice

end PostOffice
