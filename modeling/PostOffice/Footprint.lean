import PostOffice.Closing

/-! What each statement of the four programs reads and writes of the data in shared memory.

        s ──────── step ────────▶ s'
        │ another value of d      │          read:     the rest of s' depends on it
        ▼                         ▼          written:  the value of d in s' is another one
        s ──────── step ────────▶ s'

    `Reads` and `Writes` are about the steps themselves. The tables `reads` and `writes` of each
    program give the data by program point, and `own_untouched` and `own_kept` say that the tables
    leave nothing out. The semaphores, the messages, the signals and the clock are the kernel's. -/

namespace PostOffice

/-- The data in shared memory that change during a run. -/
inductive Datum (c : Setup) where
  | currentDay
  | dayActive
  | terminationCause
  | counterService (i : Fin c.nofWorkerSeats)
  | counterPid (i : Fin c.nofWorkerSeats)
  | worker (w : Fin c.nofWorkers)
  | stats
  | queue (q : Service)
  deriving DecidableEq

variable {c : Setup}

namespace Datum

/-- The shared state `g` with this datum as `h` has it, and without the history, which no program
    reads. -/
def copy (d : Datum c) (h g : Shared c) : Shared c :=
  { match d with
    | .currentDay => { g with currentDay := h.currentDay }
    | .dayActive => { g with dayActive := h.dayActive }
    | .terminationCause => { g with terminationCause := h.terminationCause }
    | .counterService i => g.setCounter i { g.counters i with service := (h.counters i).service }
    | .counterPid i => g.setCounter i { g.counters i with workerPid := (h.counters i).workerPid }
    | .worker w => g.setWorker w (h.workers w)
    | .stats => g.setStats h.stats
    | .queue q => g.setQueue q (h.queues q)
    with hist := [] }

variable {d : Datum c} {h g g' : Shared c}

@[simp] theorem copy_sem : (d.copy h g).sem = g.sem := by cases d <;> rfl

@[simp] theorem copy_msgs : (d.copy h g).msgs = g.msgs := by cases d <;> rfl

@[simp] theorem copy_clock : (d.copy h g).clock = g.clock := by cases d <;> rfl

@[simp] theorem copy_firstOfType (mtype : ℤ) :
    (d.copy h g).firstOfType mtype = g.firstOfType mtype := by cases d <;> rfl

@[simp] theorem copy_log (e : c.Event) : d.copy h (g.log e) = d.copy h g := by cases d <;> rfl

theorem copy_dayActive (hd : d ≠ .dayActive) : (d.copy h g).dayActive = g.dayActive := by
  cases d <;> first | rfl | exact absurd rfl hd

theorem copy_terminationCause (hd : d ≠ .terminationCause) :
    (d.copy h g).terminationCause = g.terminationCause := by
  cases d <;> first | rfl | exact absurd rfl hd

theorem copy_stats (hd : d ≠ .stats) : (d.copy h g).stats = g.stats := by
  cases d <;> first | rfl | exact absurd rfl hd

theorem copy_workers {w : Fin c.nofWorkers} (hd : d ≠ .worker w) :
    (d.copy h g).workers w = g.workers w := by
  cases d with
  | worker v =>
    have hne : w ≠ v := by
      rintro rfl
      exact hd rfl
    exact Function.update_of_ne hne _ _
  | _ => rfl

theorem copy_queues {q : Service} (hd : d ≠ .queue q) :
    (d.copy h g).queues q = g.queues q := by
  cases d with
  | queue r =>
    have hne : q ≠ r := by
      rintro rfl
      exact hd rfl
    exact Function.update_of_ne hne _ _
  | _ => rfl

theorem copy_counters_service {i : Fin c.nofWorkerSeats} (hd : d ≠ .counterService i) :
    ((d.copy h g).counters i).service = (g.counters i).service := by
  cases d with
  | counterService j =>
    have hne : i ≠ j := by
      rintro rfl
      exact hd rfl
    exact congrArg Counter.service (Function.update_of_ne hne _ _)
  | counterPid j =>
    show (Function.update g.counters j _ i).service = _
    exact Family.update_of_eq Counter.service (by rfl) i
  | _ => rfl

theorem copy_counters_workerPid {i : Fin c.nofWorkerSeats} (hd : d ≠ .counterPid i) :
    ((d.copy h g).counters i).workerPid = (g.counters i).workerPid := by
  cases d with
  | counterPid j =>
    have hne : i ≠ j := by
      rintro rfl
      exact hd rfl
    exact congrArg Counter.workerPid (Function.update_of_ne hne _ _)
  | counterService j =>
    show (Function.update g.counters j _ i).workerPid = _
    exact Family.update_of_eq Counter.workerPid (by rfl) i
  | _ => rfl

/-- A second value takes the place of the first. -/
@[simp] theorem copy_copy (g' : Shared c) : d.copy h (d.copy g' g) = d.copy h g := by
  cases d <;> simp [copy, Shared.setCounter, Shared.setWorker, Shared.setQueue, Shared.setStats]

/-! Another value of a datum is the same before and after what the kernel does. -/

@[simp] theorem down_copy (σ : Sem c.nofWorkerSeats) :
    (d.copy h g).down σ = d.copy h (g.down σ) := by cases d <;> rfl

@[simp] theorem up_copy (σ : Sem c.nofWorkerSeats) :
    (d.copy h g).up σ = d.copy h (g.up σ) := by cases d <;> rfl

@[simp] theorem setSemValue_copy (σ : Sem c.nofWorkerSeats) (value : ℕ) :
    (d.copy h g).setSemValue σ value = d.copy h (g.setSemValue σ value) := by cases d <;> rfl

@[simp] theorem send_copy (m : Message) :
    (d.copy h g).send m = d.copy h (g.send m) := by cases d <;> rfl

@[simp] theorem received_copy (mtype : ℤ) :
    (d.copy h g).received mtype = d.copy h (g.received mtype) := by cases d <;> rfl

@[simp] theorem kill_copy (p : c.Proc) (sig : Signal) :
    (d.copy h g).kill p sig = d.copy h (g.kill p sig) := by cases d <;> rfl

@[simp] theorem remove_copy (r : Resource) :
    (d.copy h g).remove r = d.copy h (g.remove r) := by cases d <;> rfl

@[simp] theorem reap_copy (p : c.Proc) :
    (d.copy h g).reap p = d.copy h (g.reap p) := by cases d <;> rfl

theorem setCurrentDay_copy (hd : d ≠ .currentDay) (day : ℕ) :
    { d.copy h g with currentDay := day } = d.copy h { g with currentDay := day } := by
  cases d <;> first | rfl | exact absurd rfl hd

theorem setDayActive_copy (hd : d ≠ .dayActive) (b : Bool) :
    { d.copy h g with dayActive := b } = d.copy h { g with dayActive := b } := by
  cases d <;> first | rfl | exact absurd rfl hd

theorem setTerminationCause_copy (hd : d ≠ .terminationCause) (cause : TerminationCause) :
    { d.copy h g with terminationCause := cause } =
      d.copy h { g with terminationCause := cause } := by
  cases d <;> first | rfl | exact absurd rfl hd

theorem setWorker_copy {w : Fin c.nofWorkers} (hd : d ≠ .worker w)
    (x : WorkerInfo c.nofWorkerSeats) :
    (d.copy h g).setWorker w x = d.copy h (g.setWorker w x) := by
  cases d with
  | worker v =>
    have hne : v ≠ w := by
      rintro rfl
      exact hd rfl
    simp [copy, Shared.setWorker, Function.update_comm hne]
  | _ => rfl

/-- The process id of a counter is written without its service. -/
theorem setCounterPid_copy {i : Fin c.nofWorkerSeats} (hd : d ≠ .counterPid i) (pid : ℤ) :
    (d.copy h g).setCounter i { (d.copy h g).counters i with workerPid := pid } =
      d.copy h (g.setCounter i { g.counters i with workerPid := pid }) := by
  cases d with
  | counterPid j =>
    have hne : j ≠ i := by
      rintro rfl
      exact hd rfl
    simp [copy, Shared.setCounter, Function.update_comm hne, hne, hne.symm]
  | counterService j =>
    by_cases hj : i = j
    · subst hj
      simp [copy, Shared.setCounter]
    · simp [copy, Shared.setCounter, hj, Ne.symm hj, Function.update_comm hj]
  | _ => rfl

/-! What a step does to other data and to the kernel's objects leaves the value of a datum. -/

@[simp] theorem of_down (σ : Sem c.nofWorkerSeats) : d.copy (g.down σ) = d.copy g := by
  cases d <;> rfl

@[simp] theorem of_up (σ : Sem c.nofWorkerSeats) : d.copy (g.up σ) = d.copy g := by
  cases d <;> rfl

@[simp] theorem of_setSemValue (σ : Sem c.nofWorkerSeats) (value : ℕ) :
    d.copy (g.setSemValue σ value) = d.copy g := by cases d <;> rfl

@[simp] theorem of_send (m : Message) : d.copy (g.send m) = d.copy g := by cases d <;> rfl

@[simp] theorem of_received (mtype : ℤ) : d.copy (g.received mtype) = d.copy g := by
  cases d <;> rfl

@[simp] theorem of_kill (p : c.Proc) (sig : Signal) : d.copy (g.kill p sig) = d.copy g := by
  cases d <;> rfl

@[simp] theorem of_remove (r : Resource) : d.copy (g.remove r) = d.copy g := by cases d <;> rfl

theorem of_reaped (reaped : c.Proc → Bool) : d.copy { g with reaped := reaped } = d.copy g := by
  cases d <;> rfl

@[simp] theorem of_log (e : c.Event) : d.copy (g.log e) = d.copy g := by cases d <;> rfl

theorem of_setStats (hd : d ≠ .stats) (stats : SimulationStats) :
    d.copy (g.setStats stats) = d.copy g := by
  cases d <;> first | rfl | exact absurd rfl hd

theorem of_setWorker {w : Fin c.nofWorkers} (hd : d ≠ .worker w)
    (x : WorkerInfo c.nofWorkerSeats) : d.copy (g.setWorker w x) = d.copy g := by
  cases d with
  | worker v =>
    have hne : v ≠ w := by
      rintro rfl
      exact hd rfl
    funext k
    simp [copy, hne]
  | _ => rfl

theorem of_setQueue {q : Service} (hd : d ≠ .queue q) (x : ServiceQueue) :
    d.copy (g.setQueue q x) = d.copy g := by
  cases d with
  | queue r =>
    have hne : r ≠ q := by
      rintro rfl
      exact hd rfl
    funext k
    simp [copy, hne]
  | _ => rfl

theorem of_setCounter {i : Fin c.nofWorkerSeats} {x : Counter}
    (hs : d = .counterService i → x.service = (g.counters i).service)
    (hp : d = .counterPid i → x.workerPid = (g.counters i).workerPid) :
    d.copy (g.setCounter i x) = d.copy g := by
  cases d with
  | counterService j =>
    funext k
    by_cases hj : j = i
    · subst hj
      simp [copy, hs rfl]
    · simp [copy, hj]
  | counterPid j =>
    funext k
    by_cases hj : j = i
    · subst hj
      simp [copy, hp rfl]
    · simp [copy, hj]
  | _ => rfl

/-- The value that was put there. -/
@[simp] theorem of_copy : d.copy (d.copy h g) = d.copy h := by
  funext k
  cases d <;> simp [copy]

/-- Two states with the same value of the datum. -/
theorem service_eq {i : Fin c.nofWorkerSeats}
    (he : (counterService i).copy g = (counterService i).copy h) :
    (g.counters i).service = (h.counters i).service := by
  have hcounter := congrArg (fun f => ((f g).counters i).service) he
  simpa [copy] using hcounter

/-! What is written over is written over whatever it was before. -/

@[simp] theorem copy_setStats_copy (stats : SimulationStats) :
    d.copy h ((d.copy g' g).setStats stats) = d.copy h (g.setStats stats) := by
  cases d <;> simp [copy, Shared.setCounter, Shared.setWorker, Shared.setQueue, Shared.setStats]

@[simp] theorem copy_setWorker_copy (w : Fin c.nofWorkers) (x : WorkerInfo c.nofWorkerSeats) :
    d.copy h ((d.copy g' g).setWorker w x) = d.copy h (g.setWorker w x) := by
  cases d with
  | worker v =>
    by_cases hv : w = v
    · subst hv
      simp [copy, Shared.setWorker]
    · simp [copy, Shared.setWorker, Function.update_comm hv]
  | _ => simp [copy, Shared.setCounter, Shared.setWorker, Shared.setQueue, Shared.setStats]

@[simp] theorem copy_setQueue_copy (q : Service) (x : ServiceQueue) :
    d.copy h ((d.copy g' g).setQueue q x) = d.copy h (g.setQueue q x) := by
  cases d with
  | queue r =>
    by_cases hr : q = r
    · subst hr
      simp [copy, Shared.setQueue]
    · simp [copy, Shared.setQueue, Function.update_comm hr]
  | _ => simp [copy, Shared.setCounter, Shared.setWorker, Shared.setQueue, Shared.setStats]

@[simp] theorem copy_setCounter_copy (i : Fin c.nofWorkerSeats) (x : Counter) :
    d.copy h ((d.copy g' g).setCounter i x) = d.copy h (g.setCounter i x) := by
  cases d with
  | counterService j | counterPid j =>
    by_cases hj : i = j
    · subst hj
      simp [copy, Shared.setCounter]
    · simp [copy, Shared.setCounter, Function.update_comm hj, Ne.symm hj]
  | _ => simp [copy, Shared.setCounter, Shared.setWorker, Shared.setQueue, Shared.setStats]

end Datum

/-! ### The calls -/

/-- What a step leaves behind, one datum and the history apart. -/
abbrev Datum.after (d : Datum c) (h : Shared c) {P V : Type} (x : Option (Task P V × Shared c)) :
    Option (Task P V × Shared c) :=
  x.map (Prod.map id (d.copy h))

namespace Task

variable {P V : Type} {l : Task P V} {g h : Shared c} {d : Datum c}

/-- The step goes on with another value of the datum. -/
theorem after_some (l : Task P V) (g : Shared c) : d.after h (some (l, d.copy h g)) =
    d.after h (some (l, g)) :=
  congrArg (fun x => some (l, x)) (Datum.copy_copy h)

theorem semWait_after (σ : Sem c.nofWorkerSeats) (next : P) :
    d.after h (l.semWait (d.copy h g) σ next) = d.after h (l.semWait g σ next) := by
  unfold semWait
  rw [Datum.copy_sem, Datum.down_copy]
  split
  · exact after_some _ _
  · split
    · rfl
    · exact after_some _ _

theorem semPost_after (σ : Sem c.nofWorkerSeats) (next : P) :
    d.after h (l.semPost (d.copy h g) σ next) = d.after h (l.semPost g σ next) := by
  unfold semPost
  rw [Datum.up_copy]
  exact after_some _ _

theorem msgSend_after (m : Message) (e : c.Event) (next : P) :
    d.after h (l.msgSend (d.copy h g) m e next) = d.after h (l.msgSend g m e next) := by
  unfold msgSend
  rw [Datum.copy_msgs, Datum.send_copy]
  split
  · simp
  · split
    · rfl
    · exact after_some _ _

theorem nanosleep_after (next : P) :
    d.after h (l.nanosleep (d.copy h g) next) = d.after h (l.nanosleep g next) := by
  unfold nanosleep
  split <;> exact after_some _ _

end Task

/-! ### The director -/

/-- The data that a statement of the director writes. -/
def DirPc.writes : DirPc c.nofWorkerSeats c.nofWorkers c.nofUsers → Datum c → Prop
  | .setDay, d => d = .currentDay
  | .resetStats, d | .flushStats _, d => d = .stats
  | .resetWorker i, d => d = .worker i
  | .assignWrite i, d => d = .counterService i ∨ d = .counterPid i
  | .resetQueue s, d | .flushTake s, d => d = .queue s
  | .activate, d | .deactivate, d => d = .dayActive
  | .decide, d | .setCause, d => d = .terminationCause
  | _, _ => False

/-- The data that it reads and does not write. -/
def DirPc.reads : DirPc c.nofWorkerSeats c.nofWorkers c.nofUsers → Datum c → Prop
  | .countRead s, d => d = .queue s
  | .printActive, d => ∃ w, d = .worker w
  | .printDaily, d => d = .stats ∨ ∃ i, d = .counterService i
  | .dayEnd, d => d = .terminationCause
  | .finalPrint, d => d = .stats ∨ d = .terminationCause ∨ d = .currentDay
  | _, _ => False

namespace Director

variable {l : Director c} {g h : Shared c} {d : Datum c} {ex : c.Proc → Bool} {n : ℕ}

theorem semOpRetry_after (σ : Sem c.nofWorkerSeats)
    (next : DirPc c.nofWorkerSeats c.nofWorkers c.nofUsers) :
    d.after h (semOpRetry l (d.copy h g) σ next) = d.after h (semOpRetry l g σ next) := by
  unfold semOpRetry
  split
  · split <;> exact Task.after_some _ _
  · exact Task.semWait_after _ _

theorem waitpid_after (p : c.Proc) (childExited : c.Proc → Bool)
    (next : DirPc c.nofWorkerSeats c.nofWorkers c.nofUsers) :
    d.after h (waitpid l (d.copy h g) p childExited next) =
      d.after h (waitpid l g p childExited next) := by
  unfold waitpid
  rw [Datum.reap_copy]
  split
  · exact Task.after_some _ _
  · split
    · exact Task.after_some _ _
    · split
      · rfl
      · exact Task.after_some _ _

theorem receiveDirector_after (onMessage : DirectorMessage → Director c) :
    d.after h (receiveDirector l (d.copy h g) onMessage) =
      d.after h (receiveDirector l g onMessage) := by
  unfold receiveDirector
  rw [Datum.copy_firstOfType, Datum.received_copy]
  split
  · exact Task.after_some _ _
  · split
    · exact Task.after_some _ _
    · rfl
    · split
      · rfl
      · exact Task.after_some _ _

theorem sendSignal_after (l : Director c) (p : c.Proc) (sig : Signal) :
    d.after h (some (l, sendSignal (d.copy h g) p sig)) =
      d.after h (some (l, sendSignal g p sig)) := by
  rw [sendSignal_eq, sendSignal_eq, Datum.kill_copy]
  exact Task.after_some _ _

/-- A step of the director does not depend on what its statement neither reads nor writes. -/
theorem body_untouched (hr : ¬ l.pc.reads d) (hw : ¬ l.pc.writes d) :
    d.after h (body l (d.copy h g) ex n) = d.after h (body l g ex n) := by
  unfold body
  cases hpc : l.pc <;> rw [hpc] at hr hw <;> simp only
  case waitInit | waitDayEnd => exact receiveDirector_after _
  case resetLock | assignLock | countLock | flushLock | flushStatsLock | printLock | finalLock =>
    exact semOpRetry_after _ _
  case resetUnlock | assignUnlock | countUnlock | flushStatsUnlock | flushUnlock | printUnlock |
      finalUnlock =>
    exact Task.semPost_after _ _
  case startWorkers | startUsers | stopWorkers | stopUsers | termDispenser | termWorkers |
      termUsers =>
    exact sendSignal_after _ _ _
  case reapWorker | reapUser | reapDispenser => exact waitpid_after _ _ _
  case dayTest | dayEndInit | countInit | flushInit | logStop => exact Task.after_some _ _
  case cleanupIpc =>
    rw [Datum.remove_copy]
    exact Task.after_some _ _
  case assignInit | printDaily | finalPrint => simp
  case daySleep =>
    split
    · split
      · simp
      · exact Task.after_some _ _
    · exact Task.nanosleep_after _
  case flushReply =>
    split
    · exact Task.after_some _ _
    · exact Task.msgSend_after _ _ _
  case setJobs | setFree | flushJobs =>
    rw [Datum.setSemValue_copy]
    exact Task.after_some _ _
  case assignWrite | resetQueue => simp
  case setDay =>
    rw [Datum.setCurrentDay_copy hw]
    exact Task.after_some _ _
  case activate | deactivate =>
    rw [Datum.setDayActive_copy hw]
    exact Task.after_some _ _
  case resetStats | flushStats => simp [Datum.copy_stats hw]
  case resetWorker i => simp [Datum.copy_workers hw]
  case countRead s => simp [Datum.copy_queues hr]
  case flushTake s =>
    rw [Datum.copy_queues hw]
    split <;> simp
  case decide =>
    rw [Datum.setTerminationCause_copy hw]
    split <;> exact Task.after_some _ _
  case printActive =>
    have hworkers (w : Fin c.nofWorkers) : (d.copy h g).workers w = g.workers w :=
      Datum.copy_workers fun he => hr ⟨w, he⟩
    simp [hworkers]
  case dayEnd =>
    rw [Datum.copy_terminationCause hr]
    split <;> exact Task.after_some _ _
  case setCause =>
    rw [Datum.copy_terminationCause hw, Datum.setTerminationCause_copy hw]
    split <;> exact Task.after_some _ _

/-- A step of the director leaves what its statement does not write. -/
theorem Move.kept {pc pc' : DirPc c.nofWorkerSeats c.nofWorkers c.nofUsers} {v v' : DirVars}
    {g' : Shared c} (hm : Move pc v g pc' v' g') (hw : ¬ pc.writes d) :
    d.copy g' = d.copy g := by
  cases hm with
  | resetStats | flushStats => exact Datum.of_setStats hw _
  | resetWorkerNext | resetWorkerLast => exact Datum.of_setWorker hw _
  | assignWrite =>
    exact Datum.of_setCounter (fun hd => absurd (.inl hd) hw) fun hd => absurd (.inr hd) hw
  | resetQueueNext | resetQueueLast => exact Datum.of_setQueue hw _
  | flushTake => exact (Datum.of_log _).trans (Datum.of_setQueue hw _)
  | setDay | activate | deactivate | explode | timeout =>
    cases d <;> first | rfl | exact absurd rfl hw
  | reapWorkerNext | reapWorkerLast | reapUserNext | reapUserLast | reapDispenser =>
    exact Datum.of_reaped _
  | _ => simp

end Director

/-! ### The operators -/

/-- The data that a statement of operator `w` writes. -/
def OpPc.writes (w : Fin c.nofWorkers) : OpPc c.nofWorkerSeats → Datum c → Prop
  | .scanCheck i, d => d = .counterPid i ∨ d = .worker w
  | .popTake _, d => d = .queue (c.workerService w)
  | .serveStats _ _ _ _, d | .pauseStats _, d => d = .stats
  | .pauseCount _, d => d = .worker w
  | .releaseClear k, d => d = .counterPid k ∨ d = .worker w
  | _, _ => False

/-- The data that it reads and does not write. -/
def OpPc.reads (w : Fin c.nofWorkers) : OpPc c.nofWorkerSeats → Datum c → Prop
  | .claimActive, d | .tokenActive, d | .loopActive _, d | .afterActive _, d
  | .pauseActive _, d => d = .dayActive
  | .scanCheck i, d => d = .counterService i
  | .pauseDraw _, d => d = .worker w
  | _, _ => False

namespace Operator

variable {w : Fin c.nofWorkers} {l : Operator c} {g h : Shared c} {d : Datum c} {n : ℕ}

theorem semOpInterruptible_after (σ : Sem c.nofWorkerSeats) (next : OpPc c.nofWorkerSeats)
    (onInterrupt : Operator c) :
    d.after h (semOpInterruptible l (d.copy h g) σ next onInterrupt) =
      d.after h (semOpInterruptible l g σ next onInterrupt) := by
  unfold semOpInterruptible
  split
  · split <;> exact Task.after_some _ _
  · exact Task.semWait_after _ _

theorem msgSendRetry_after (m : Message) (e : c.Event) (next : OpPc c.nofWorkerSeats) :
    d.after h (msgSendRetry l (d.copy h g) m e next) = d.after h (msgSendRetry l g m e next) := by
  unfold msgSendRetry
  split
  · exact Task.after_some _ _
  · exact Task.msgSend_after _ _ _

/-- A step of an operator does not depend on what its statement neither reads nor writes. -/
theorem body_untouched (hr : ¬ l.pc.reads w d) (hw : ¬ l.pc.writes w d) :
    d.after h (body w l (d.copy h g) n) = d.after h (body w l g n) := by
  unfold body
  cases hpc : l.pc <;> rw [hpc] at hr hw <;> simp only
  case claimToken | scanLock | waitTicket | popLock | serveLock | pauseLock | releaseLock =>
    exact semOpInterruptible_after _ _ _
  case sendInit | serveReply | dayFinished => exact msgSendRetry_after _ _ _
  case tokenGiveBack | scanTaken | scanNext | scanFallback | popUnlock | serveUnlock |
      pauseUnlock | releaseUnlock | releaseToken =>
    exact Task.semPost_after _ _
  case waitDayStarted | waitTerminate | clearStarted | claimTerminate | claimStop | tokenStop |
      tokenTerminate | loopTerminate | loopStop | afterTerminate | afterStop | pauseStop =>
    exact Task.after_some _ _
  case mainTest | mainBreak => split <;> exact Task.after_some _ _
  case clearStop => simp
  case suspend =>
    split
    · exact Task.after_some _ _
    · split
      · rfl
      · exact Task.after_some _ _
  case serveSleep =>
    split
    · exact Task.after_some _ _
    · exact Task.nanosleep_after _
  case claimActive | tokenActive | loopActive | afterActive | pauseActive =>
    rw [Datum.copy_dayActive hr]
    exact Task.after_some _ _
  case serveStart => simp
  case serveStats | pauseStats => simp [Datum.copy_stats hw]
  case pauseDraw =>
    rw [Datum.copy_workers hr]
    exact Task.after_some _ _
  case pauseCount =>
    simp [Datum.copy_workers hw]
  case popTake =>
    simp [Datum.copy_queues hw]
  case scanCheck i =>
    obtain ⟨hpid, hworker⟩ := not_or.mp hw
    rw [Datum.setCounterPid_copy hpid, Datum.setWorker_copy hworker, Datum.copy_workers hworker,
      Datum.copy_counters_service hr, Datum.copy_counters_workerPid hpid]
    split <;> exact Task.after_some _ _
  case releaseClear k =>
    obtain ⟨hpid, hworker⟩ := not_or.mp hw
    rw [Datum.setCounterPid_copy hpid, Datum.setWorker_copy hworker, Datum.copy_workers hworker]
    exact Task.after_some _ _

/-- A step of an operator leaves what its statement does not write. -/
theorem body_kept {l' : Operator c} {g' : Shared c} (hs : body w l g n = some (l', g'))
    (hw : ¬ l.pc.writes w d) : d.copy g' = d.copy g := by
  unfold body at hs
  cases hpc : l.pc <;> rw [hpc] at hs hw <;> simp only at hs
  case claimToken | scanLock | waitTicket | popLock | serveLock | pauseLock | releaseLock =>
    rcases semOpInterruptible_cases hs with ⟨-, -, -, rfl⟩ | ⟨-, -, rfl⟩ | ⟨-, -, rfl⟩ <;> simp
  case sendInit | serveReply | dayFinished =>
    rcases msgSendRetry_cases hs with ⟨-, -, rfl⟩ | ⟨-, -, rfl⟩ <;> simp
  case serveStats | pauseStats =>
    cases hs
    simp [Datum.of_setStats hw]
  case popTake =>
    cases hs
    simp [Datum.of_setQueue hw]
  case pauseCount =>
    cases hs
    exact Datum.of_setWorker hw _
  case scanCheck i =>
    obtain ⟨hpid, hworker⟩ := not_or.mp hw
    split at hs
    · cases hs
      exact (Datum.of_setWorker hworker _).trans
        (Datum.of_setCounter (fun _ => rfl) fun hd => absurd hd hpid)
    · cases hs
      rfl
  case releaseClear k =>
    obtain ⟨hpid, hworker⟩ := not_or.mp hw
    cases hs
    exact (Datum.of_setWorker hworker _).trans
      (Datum.of_setCounter (fun _ => rfl) fun hd => absurd hd hpid)
  all_goals
    try simp only [Task.semPost, Task.nanosleep] at hs
    repeat' split at hs
    all_goals cases hs
    all_goals simp

end Operator

/-! ### The dispenser and the users -/

/-- The data that a statement of the dispenser writes. -/
def DispPc.writes : DispPc c.nofWorkerSeats → Datum c → Prop
  | .countStats _ _, d | .refuseStats _ _, d => d = .stats
  | .push _ s _, d => d = .queue s
  | _, _ => False

/-- The data that it reads and does not write. -/
def DispPc.reads : DispPc c.nofWorkerSeats → Datum c → Prop
  | .testActive _ _, d | .queueActive _ _, d => d = .dayActive
  | .offered _ _ i, d => d = .counterService i
  | .queueFull _ s, d => d = .queue s
  | _, _ => False

namespace Dispenser

variable {l : Dispenser c} {g h : Shared c} {d : Datum c}

theorem semOpRetry_after (σ : Sem c.nofWorkerSeats) (next : DispPc c.nofWorkerSeats) :
    d.after h (semOpRetry l (d.copy h g) σ next) = d.after h (semOpRetry l g σ next) := by
  unfold semOpRetry
  split
  · split <;> exact Task.after_some _ _
  · exact Task.semWait_after _ _

theorem sendUserReply_after (userPid : ℤ) (status : UserReplyStatus) (service : Service)
    (next : DispPc c.nofWorkerSeats) :
    d.after h (sendUserReply l (d.copy h g) userPid status service next) =
      d.after h (sendUserReply l g userPid status service next) := by
  unfold sendUserReply
  split
  · split <;> exact Task.after_some _ _
  · exact Task.msgSend_after _ _ _

/-- A step of the dispenser does not depend on what its statement neither reads nor writes. -/
theorem body_untouched (hr : ¬ l.pc.reads d) (hw : ¬ l.pc.writes d) :
    d.after h (body l (d.copy h g)) = d.after h (body l g) := by
  unfold body
  cases hpc : l.pc <;> rw [hpc] at hr hw <;> simp only
  case countLock | queueLock | refuseLock => exact semOpRetry_after _ _
  case invalidReply | refuseReply => exact sendUserReply_after _ _ _ _
  case countUnlock | pushUnlock | postJob | rejectUnlock | refuseUnlock =>
    exact Task.semPost_after _ _
  case sendInit =>
    split
    · exact Task.after_some _ _
    · exact Task.msgSend_after _ _ _
  case mainTest => split <;> exact Task.after_some _ _
  case receive =>
    rw [Datum.copy_firstOfType, Datum.received_copy]
    split
    · split <;> exact Task.after_some _ _
    · split
      · exact Task.after_some _ _
      · rfl
      · split
        · rfl
        · exact Task.after_some _ _
  case countStats | refuseStats => simp [Datum.copy_stats hw]
  case testActive | queueActive =>
    rw [Datum.copy_dayActive hr]
    exact Task.after_some _ _
  case offered =>
    rw [Datum.copy_counters_service hr]
    exact Task.after_some _ _
  case queueFull =>
    rw [Datum.copy_queues hr]
    exact Task.after_some _ _
  case stamp => simp
  case push =>
    rw [Datum.copy_queues hw]
    split
    · simp
    · exact Task.after_some _ _

/-- A step of the dispenser leaves what its statement does not write. -/
theorem Move.kept {pc pc' : DispPc c.nofWorkerSeats} {f : DispFlags} {g' : Shared c}
    (hm : Move pc f g pc' g') (hw : ¬ pc.writes d) : d.copy g' = d.copy g := by
  cases hm with
  | countStats | refuseStats => exact Datum.of_setStats hw _
  | push => exact (Datum.of_log _).trans (Datum.of_setQueue hw _)
  | _ => simp

end Dispenser

/-- The data that a statement of a user reads; it writes none. -/
def UserPc.reads : UserPc → Datum c → Prop
  | .wakeActive _ _, d | .goActive _, d => d = .dayActive
  | _, _ => False

namespace User

variable {u : Fin c.nofUsers} {l : User} {g h : Shared c} {d : Datum c} {n : ℕ}

theorem receiveReply_after (next : UserPc) :
    d.after h (receiveReply u l (d.copy h g) next) = d.after h (receiveReply u l g next) := by
  simp only [receiveReply, Datum.copy_firstOfType, Datum.received_copy]
  split
  · exact Task.after_some _ _
  · split
    · rfl
    · exact Task.after_some _ _

/-- A step of a user does not depend on what its statement does not read. -/
theorem body_untouched (hr : ¬ l.pc.reads d) :
    d.after h (body u l (d.copy h g) n) = d.after h (body u l g n) := by
  unfold body
  cases hpc : l.pc <;> rw [hpc] at hr <;> simp only
  case sendInit =>
    split
    · exact Task.after_some _ _
    · exact Task.msgSend_after _ _ _
  case mainTest | mainBreak => split <;> exact Task.after_some _ _
  case waitDayStarted | waitTerminate | clearStarted | drawGo | drawService | drawArrival |
      wakeTerminate | wakeClosed | goTerminate | goClosed =>
    exact Task.after_some _ _
  case suspend =>
    split
    · exact Task.after_some _ _
    · split
      · rfl
      · exact Task.after_some _ _
  case clearClosed => simp
  case arrive =>
    split
    · exact Task.after_some _ _
    · exact Task.nanosleep_after _
  case wakeActive | goActive =>
    rw [Datum.copy_dayActive hr]
    exact Task.after_some _ _
  case requestSend =>
    split
    · split <;> exact Task.after_some _ _
    · exact Task.msgSend_after _ _ _
  case requestWait =>
    split
    · split <;> exact Task.after_some _ _
    · exact receiveReply_after _

/-- A user writes no datum. -/
theorem Move.kept {pc pc' : UserPc} {f : UserFlags} {g' : Shared c}
    (hm : Move u pc f g pc' g') : d.copy g' = d.copy g := by
  cases hm <;> simp

end User

end PostOffice
