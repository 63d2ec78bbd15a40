import PostOffice.Operator

/-! What one step of an operator can do.

    `OpPc.view` forgets the control flow of the operator and keeps what the other processes can
    notice: whether it is inside `run_day`, the critical section it is in, its free-counter token
    and counter, its job token, the ticket in its hands. `Operator.Move` lists the changes a step
    can make to that view and to the shared state, and `step_move` says the list is complete. Every
    invariant of the operators is proved from the list, not from the program. -/

namespace PostOffice

/-- What an operator holds. -/
structure OpView (seats : ℕ) where
  /-- It has announced itself to the director. -/
  inited : Bool
  /-- Past the clearing of `day_started` and not yet back in `main`. -/
  busy : Bool
  /-- Inside `run_day`. -/
  inRun : Bool
  /-- The mutex of the critical section it is in. -/
  lock : Option (Sem seats)
  /-- It holds a free-counter token and no counter, and its scan has passed this many counters. -/
  pos : Option ℕ
  /-- The counter it sits at. -/
  seat : Option (Fin seats)
  /-- It holds a job token. -/
  job : Bool
  /-- The ticket it popped and has not answered. -/
  hand : Option QueueTicket
  /-- The waiting time taken for it, until it is counted as served. -/
  waiting : Option ℤ
  /-- That ticket has been counted as served. -/
  counted : Bool
  deriving DecidableEq

namespace OpView

variable {seats : ℕ}

/-- Outside `run_day`. -/
def idle : OpView seats :=
  { inited := true, busy := false, inRun := false, lock := none, pos := none, seat := none
    job := false, hand := none, waiting := none, counted := false }

/-- Between the two flag resets of `main`. -/
def starting : OpView seats := { idle with busy := true }

/-- Inside `run_day` with nothing held. -/
def running : OpView seats := { starting with inRun := true }

/-- Inside `run_day` with a token, the scan having passed `p` counters. -/
def scanning (p : ℕ) : OpView seats := { running with pos := some p }

/-- At counter `k`. -/
def seated (k : Fin seats) : OpView seats := { running with seat := some k }

end OpView

/-- The view of a program point, for an operator of the given service. -/
def OpPc.view {seats : ℕ} (service : Service) : OpPc seats → OpView seats
  | .sendInit => { OpView.idle with inited := false }
  | .mainTest | .waitDayStarted | .waitTerminate | .suspend | .mainBreak
  | .clearStarted | .done => .idle
  | .clearStop => .starting
  | .claimTerminate | .claimActive | .claimStop | .claimToken | .dayFinished => .running
  | .tokenActive | .tokenStop | .tokenTerminate | .tokenGiveBack | .releaseToken => .scanning 0
  | .scanLock i => .scanning i
  | .scanCheck i => { OpView.scanning i with lock := some (.counterMutex i) }
  | .scanTaken i => { OpView.seated i with lock := some (.counterMutex i) }
  | .scanNext i => { OpView.scanning (i + 1) with lock := some (.counterMutex i) }
  | .scanFallback => .scanning seats
  | .loopTerminate k | .loopStop k | .loopActive k | .waitTicket k
  | .afterTerminate k | .afterStop k | .afterActive k
  | .pauseActive k | .pauseDraw k | .pauseCount k | .pauseLock k | .pauseStop k
  | .releaseLock k => .seated k
  | .popLock k => { OpView.seated k with job := true }
  | .popTake k => { OpView.seated k with job := true, lock := some (.queueMutex service) }
  | .popUnlock k t =>
      { OpView.seated k with
        lock := some (.queueMutex service), hand := if 0 < t.userPid then some t else none }
  | .serveStart k t => { OpView.seated k with hand := some t }
  | .serveSleep k t waitingNs _ | .serveLock k t waitingNs _ =>
      { OpView.seated k with hand := some t, waiting := some waitingNs }
  | .serveStats k t waitingNs _ =>
      { OpView.seated k with hand := some t, waiting := some waitingNs, lock := some .stats }
  | .serveUnlock k t =>
      { OpView.seated k with hand := some t, counted := true, lock := some .stats }
  | .serveReply k t => { OpView.seated k with hand := some t, counted := true }
  | .pauseStats k | .pauseUnlock k => { OpView.seated k with lock := some .stats }
  | .releaseClear k => { OpView.seated k with lock := some (.counterMutex k) }
  | .releaseUnlock k => { OpView.scanning 0 with lock := some (.counterMutex k) }

/-- An operator that is not busy holds nothing. -/
theorem OpPc.view_of_not_busy {seats : ℕ} {service : Service} {pc : OpPc seats}
    (h : (pc.view service).busy = false) :
    pc.view service = .idle ∨ pc.view service = { OpView.idle with inited := false } := by
  cases pc <;> first
    | exact .inl rfl
    | exact .inr rfl
    | exact Bool.noConfusion h

/-- An operator outside `run_day` holds nothing. -/
theorem OpPc.view_of_not_inRun {seats : ℕ} {service : Service} {pc : OpPc seats}
    (h : (pc.view service).inRun = false) :
    ∃ i b, pc.view service = { OpView.idle with inited := i, busy := b } := by
  cases pc <;> first
    | exact ⟨_, _, rfl⟩
    | exact Bool.noConfusion h

theorem OpPc.busy_of_inRun {seats : ℕ} {service : Service} {pc : OpPc seats}
    (h : (pc.view service).inRun = true) : (pc.view service).busy = true := by
  cases pc <;> first | rfl | exact Bool.noConfusion h

namespace Operator

variable {c : Setup}

/-- The view of operator `w`. -/
abbrev view (w : Fin c.nofWorkers) (l : Operator c) : OpView c.nofWorkerSeats :=
  l.pc.view (c.workerService w)

/-- A counter the scan of an operator of service `s` stops at. -/
def Takes (s : Service) (x : Counter) : Prop := x.service = some s ∧ x.workerPid = -1

instance (s : Service) (x : Counter) : Decidable (Takes s x) := by unfold Takes; infer_instance

/-- The moves of operator `w` from process state `l` and shared state `g`. -/
inductive Move (w : Fin c.nofWorkers) (l : Operator c) (g : Shared c) :
    Operator c → Shared c → Prop where
  /-- A test, a sleep, a retry, an exit. -/
  | silent {l'} (hf : l'.vars = l.vars) (hv : view w l' = view w l) : Move w l g l' g
  | init {l'} (hf : l'.vars = l.vars) (hpc : l.pc = .sendInit) (hpc' : l'.pc = .mainTest)
      (hroom : g.msgs.length < c.msgCapacity) :
      Move w l g l' ((g.send (.director
        { kind := .init, index := w, pid := c.pid (.operator w) })).log (.init (.operator w)))
  /-- `day_started = 0`. -/
  | consume {l'} (hf : l'.vars = { l.vars with dayStarted := false })
      (hpc : l.pc = .clearStarted) (hpc' : l'.pc = .clearStop) : Move w l g l' g
  /-- `day_stop_requested = 0`, and into `run_day`. -/
  | begin {l'} (hf : l'.vars = { l.vars with dayStopRequested := false })
      (hpc : l.pc = .clearStop) (hpc' : l'.pc = .claimTerminate) :
      Move w l g l' (g.log (.runDay (.operator w) g.currentDay))
  | acquire {l'} (hf : l'.vars = l.vars) (σ : Sem c.nofWorkerSeats) (hm : σ.IsMutex)
      (hl : (view w l).lock = none) (hσ : 0 < g.sem σ)
      (hv : view w l' = { view w l with lock := some σ }) : Move w l g l' (g.down σ)
  | release {l'} (hf : l'.vars = l.vars) (σ : Sem c.nofWorkerSeats) (hm : σ.IsMutex)
      (hl : (view w l).lock = some σ) (hv : view w l' = { view w l with lock := none }) :
      Move w l g l' (g.up σ)
  | takeToken {l'} (hf : l'.vars = l.vars) (hσ : 0 < g.sem (.freeCounter (c.workerService w)))
      (hv : view w l = .running) (hv' : view w l' = .scanning 0) :
      Move w l g l' (g.down (.freeCounter (c.workerService w)))
  | giveToken {l'} (hf : l'.vars = l.vars) (p : ℕ) (hv : view w l = .scanning p)
      (hv' : view w l' = .running) : Move w l g l' (g.up (.freeCounter (c.workerService w)))
  /-- The scan is interrupted at a counter mutex: the token is lost. -/
  | dropToken {l'} (hf : l'.vars = l.vars) (hi : l.mode = .eintr) (p : ℕ)
      (hv : view w l = .scanning p) (hv' : view w l' = .running) : Move w l g l' g
  /-- The scan goes past a counter it cannot take. -/
  | pass {l'} (hf : l'.vars = l.vars) (i : Fin c.nofWorkerSeats)
      (hi : ¬ Takes (c.workerService w) (g.counters i))
      (hv : view w l = { OpView.scanning i with lock := some (.counterMutex i) })
      (hv' : view w l' = { OpView.scanning (i + 1) with lock := some (.counterMutex i) }) :
      Move w l g l' g
  /-- The operator sits down. -/
  | sit {l'} (hf : l'.vars = l.vars) (i : Fin c.nofWorkerSeats)
      (hi : Takes (c.workerService w) (g.counters i))
      (hv : view w l = { OpView.scanning i with lock := some (.counterMutex i) })
      (hv' : view w l' = { OpView.seated i with lock := some (.counterMutex i) }) :
      Move w l g l'
        ((g.setCounter i { g.counters i with workerPid := c.pid (.operator w) }).setWorker w
          { g.workers w with currentCounter := some i, activeToday := true, activeEver := true })
  /-- The operator gives its counter up. -/
  | stand {l'} (hf : l'.vars = l.vars) (k : Fin c.nofWorkerSeats)
      (hv : view w l = { OpView.seated k with lock := some (.counterMutex k) })
      (hv' : view w l' = { OpView.scanning 0 with lock := some (.counterMutex k) }) :
      Move w l g l'
        ((g.setCounter k { g.counters k with workerPid := -1 }).setWorker w
          { g.workers w with currentCounter := none })
  /-- The release is interrupted at the counter mutex: counter and token are left behind. -/
  | dropSeat {l'} (hf : l'.vars = l.vars) (hi : l.mode = .eintr) (k : Fin c.nofWorkerSeats)
      (hv : view w l = .seated k) (hv' : view w l' = .running) : Move w l g l' g
  | takeJob {l'} (hf : l'.vars = l.vars) (hσ : 0 < g.sem (.jobs (c.workerService w)))
      (k : Fin c.nofWorkerSeats) (hv : view w l = .seated k)
      (hv' : view w l' = { OpView.seated k with job := true }) :
      Move w l g l' (g.down (.jobs (c.workerService w)))
  /-- The pop is interrupted at the queue mutex: the job token is lost. -/
  | dropJob {l'} (hf : l'.vars = l.vars) (hi : l.mode = .eintr) (k : Fin c.nofWorkerSeats)
      (hv : view w l = { OpView.seated k with job := true }) (hv' : view w l' = .seated k) :
      Move w l g l' g
  /-- `service_queue_pop` finds a ticket. -/
  | pop {l'} (hf : l'.vars = l.vars) (k : Fin c.nofWorkerSeats) (t : QueueTicket)
      (q : ServiceQueue) (hlen : (g.queues (c.workerService w)).length ≠ 0)
      (hq : (g.queues (c.workerService w)).toList = t :: q.toList)
      (hpc : l.pc = .popTake k) (hpc' : l'.pc = .popUnlock k t) :
      Move w l g l' ((g.setQueue (c.workerService w) q).log (.popped w (c.workerService w) t))
  /-- `service_queue_pop` finds the queue empty. -/
  | popEmpty {l'} (hf : l'.vars = l.vars) (k : Fin c.nofWorkerSeats)
      (hlen : (g.queues (c.workerService w)).length = 0)
      (hpc : l.pc = .popTake k) (hpc' : l'.pc = .popUnlock k noTicket) :
      Move w l g l' (g.log (.poppedEmpty w (c.workerService w)))
  /-- The waiting time is taken. -/
  | serveStart {l'} (hf : l'.vars = l.vars) (k : Fin c.nofWorkerSeats) (t : QueueTicket)
      (minutes : ℕ) (hpc : l.pc = .serveStart k t)
      (hpc' : l'.pc = .serveSleep k t (g.clock - t.requestedAtNs) minutes) : Move w l g l' g
  /-- The ticket is counted as served. -/
  | count {l'} (hf : l'.vars = l.vars) (k : Fin c.nofWorkerSeats) (t : QueueTicket)
      (waitingNs : ℤ) (minutes : ℕ) (hpc : l.pc = .serveStats k t waitingNs minutes)
      (hpc' : l'.pc = .serveUnlock k t) :
      Move w l g l' ((g.setStats (g.stats.serve (c.workerService w)
        (nsToMinutes waitingNs c.nNanoSeconds) minutes)).log
          (.served w (c.workerService w) t waitingNs))
  /-- The user is answered. -/
  | reply {l'} (hf : l'.vars = l.vars) (k : Fin c.nofWorkerSeats) (t : QueueTicket)
      (hpc : l.pc = .serveReply k t) (hpc' : l'.pc = .afterTerminate k)
      (hroom : g.msgs.length < c.msgCapacity) :
      Move w l g l' ((g.send (.userReply
        { mtype := userReplyBase + t.userPid, status := .served, service := c.workerService w })).log
          (.replied (.operator w) t.userPid .served (c.workerService w)))
  /-- `update_pause_statistics`, the operator's own fields. -/
  | pauseCount {l'} (hf : l'.vars = l.vars) (k : Fin c.nofWorkerSeats)
      (hpc : l.pc = .pauseCount k) (hpc' : l'.pc = .pauseLock k) :
      Move w l g l' (g.setWorker w
        { g.workers w with
          pausesTaken := (g.workers w).pausesTaken + 1
          pausesToday := (g.workers w).pausesToday + 1 })
  /-- `update_pause_statistics`, the shared totals. -/
  | pauseStats {l'} (hf : l'.vars = l.vars) (k : Fin c.nofWorkerSeats)
      (hpc : l.pc = .pauseStats k) (hpc' : l'.pc = .pauseUnlock k) :
      Move w l g l' (g.setStats g.stats.pause)
  /-- The pause raises the operator's own stop flag. -/
  | raiseStop {l'} (hf : l'.vars = { l.vars with dayStopRequested := true })
      (k : Fin c.nofWorkerSeats) (hpc : l.pc = .pauseStop k) (hpc' : l'.pc = .releaseLock k) :
      Move w l g l' g
  | finish {l'} (hf : l'.vars = l.vars) (hpc : l.pc = .dayFinished) (hpc' : l'.pc = .mainTest)
      (hroom : g.msgs.length < c.msgCapacity) :
      Move w l g l' ((g.send (.director
        { kind := .dayFinished, index := w, pid := c.pid (.operator w) })).log (.dayFinished w))

/-! ### The list is complete -/

variable {w : Fin c.nofWorkers} {l l' : Operator c} {g g' : Shared c}

theorem semOpInterruptible_cases {σ : Sem c.nofWorkerSeats} {next : OpPc c.nofWorkerSeats}
    {onInterrupt : Operator c} (h : semOpInterruptible l g σ next onInterrupt = some (l', g')) :
    (l.mode = .eintr ∧ interrupted l = true ∧ l' = onInterrupt ∧ g' = g) ∨
    (l'.pc = l.pc ∧ l'.vars = l.vars ∧ g' = g) ∨
    (0 < g.sem σ ∧ l' = l.goto next ∧ g' = g.down σ) := by
  unfold semOpInterruptible Task.semWait at h
  split at h
  · split at h <;> simp only [Option.some.injEq, Prod.mk.injEq] at h <;> obtain ⟨rfl, rfl⟩ := h
    · exact .inl ⟨‹_›, ‹_›, rfl, rfl⟩
    · exact .inr (.inl ⟨rfl, rfl, rfl⟩)
  · split at h
    · simp only [Option.some.injEq, Prod.mk.injEq] at h
      exact .inr (.inr ⟨‹_›, h.1.symm, h.2.symm⟩)
    · split at h
      · cases h
      · simp only [Option.some.injEq, Prod.mk.injEq] at h
        obtain ⟨rfl, rfl⟩ := h
        exact .inr (.inl ⟨rfl, rfl, rfl⟩)

theorem msgSendRetry_cases {m : Message} {e : c.Event} {next : OpPc c.nofWorkerSeats}
    (h : msgSendRetry l g m e next = some (l', g')) :
    (l'.pc = l.pc ∧ l'.vars = l.vars ∧ g' = g) ∨
    (g.msgs.length < c.msgCapacity ∧ l' = l.goto next ∧ g' = (g.send m).log e) := by
  unfold msgSendRetry Task.msgSend at h
  split at h
  · simp only [Option.some.injEq, Prod.mk.injEq] at h
    obtain ⟨rfl, rfl⟩ := h
    exact .inl ⟨rfl, rfl, rfl⟩
  · split at h
    · simp only [Option.some.injEq, Prod.mk.injEq] at h
      exact .inr ⟨‹_›, h.1.symm, h.2.symm⟩
    · split at h
      · cases h
      · simp only [Option.some.injEq, Prod.mk.injEq] at h
        obtain ⟨rfl, rfl⟩ := h
        exact .inl ⟨rfl, rfl, rfl⟩

/-- A step that stays at its program point shows nothing. -/
theorem Move.stay (hpc : l'.pc = l.pc) (hf : l'.vars = l.vars) (hg : g' = g) :
    Move w l g l' g' := by
  subst hg
  exact .silent hf (by rw [view, view, hpc])

/-- A jump between program points of the same view shows nothing. -/
theorem Move.jump {pc : OpPc c.nofWorkerSeats} (hv : pc.view (c.workerService w) = view w l) :
    Move w l g (l.goto pc) g :=
  .silent rfl hv

/-- The for-loop of `claim_counter_for_service` about to examine counter `k`, or over. -/
theorem view_scan {seats k : ℕ} (service : Service) (hk : k ≤ seats) :
    (forLoop seats k OpPc.scanLock .scanFallback).view service = .scanning k := by
  unfold forLoop
  split
  · rfl
  · obtain rfl : k = seats := by omega
    rfl

/-- Every step of an operator is one of the moves. -/
theorem step_move {n : ℕ} (h : step w l g n = some (l', g')) : Move w l g l' g' := by
  unfold step at h
  split at h
  · cases h
  unfold body at h
  have hview : view w l = l.pc.view (c.workerService w) := rfl
  cases hpc : l.pc <;> rw [hpc] at h hview <;> simp only at h
  case mainTest | mainBreak =>
    split at h <;> cases h
    · exact .silent (by rfl) hview.symm
    · exact .jump hview.symm
  case waitDayStarted | waitTerminate | claimTerminate | claimActive | claimStop | tokenActive
      | tokenStop | loopTerminate | loopStop | loopActive | afterTerminate | afterStop
      | afterActive | pauseActive | pauseDraw =>
    cases h
    refine .jump ?_
    split <;> exact hview.symm
  case suspend =>
    split at h
    · cases h
      exact .jump hview.symm
    · split at h <;> cases h
      exact .stay rfl rfl rfl
  case tokenTerminate =>
    cases h
    refine .jump ?_
    split
    · exact hview.symm
    · rw [view_scan _ (Nat.zero_le _), hview]
      rfl
  case clearStarted =>
    cases h
    exact .consume (by rfl) hpc (by rfl)
  case clearStop =>
    cases h
    exact .begin (by rfl) hpc (by rfl)
  case sendInit =>
    rcases msgSendRetry_cases h with ⟨h1, h2, h3⟩ | ⟨hroom, rfl, rfl⟩
    · exact .stay h1 h2 h3
    · exact .init (by rfl) hpc (by rfl) hroom
  case claimToken =>
    rcases semOpInterruptible_cases h with ⟨-, -, rfl, rfl⟩ | ⟨h1, h2, h3⟩ | ⟨hσ, rfl, rfl⟩
    · exact .jump hview.symm
    · exact .stay h1 h2 h3
    · exact .takeToken (by rfl) hσ hview (by rfl)
  case tokenGiveBack =>
    cases h
    exact .giveToken (by rfl) 0 hview (by rfl)
  case scanLock i =>
    rcases semOpInterruptible_cases h with ⟨hm, -, rfl, rfl⟩ | ⟨h1, h2, h3⟩ | ⟨hσ, rfl, rfl⟩
    · exact .dropToken (by rfl) hm i hview (by rfl)
    · exact .stay h1 h2 h3
    · exact .acquire (by rfl) _ (by trivial) (by rw [hview]; rfl) hσ (by rw [hview]; rfl)
  case scanCheck i =>
    split at h <;> cases h
    · exact .sit (by rfl) i ‹_› hview (by rfl)
    · exact .pass (by rfl) i ‹_› hview (by rfl)
  case scanTaken i =>
    cases h
    exact .release (by rfl) _ (by trivial) (by rw [hview]; rfl) (by rw [hview]; rfl)
  case scanNext i =>
    cases h
    refine .release (by rfl) _ (by trivial) (by rw [hview]; rfl) ?_
    rw [hview]
    exact view_scan _ i.isLt
  case scanFallback =>
    cases h
    exact .giveToken (by rfl) _ hview (by rfl)
  case waitTicket k =>
    rcases semOpInterruptible_cases h with ⟨-, -, rfl, rfl⟩ | ⟨h1, h2, h3⟩ | ⟨hσ, rfl, rfl⟩
    · exact .jump hview.symm
    · exact .stay h1 h2 h3
    · exact .takeJob (by rfl) hσ k hview (by rfl)
  case popLock k =>
    rcases semOpInterruptible_cases h with ⟨hm, -, rfl, rfl⟩ | ⟨h1, h2, h3⟩ | ⟨hσ, rfl, rfl⟩
    · exact .dropJob (by rfl) hm k hview (by rfl)
    · exact .stay h1 h2 h3
    · exact .acquire (by rfl) _ (by trivial) (by rw [hview]; rfl) hσ (by rw [hview]; rfl)
  case popTake k =>
    cases h
    split
    · rename_i hlen
      rw [serviceQueuePop, RingBuffer.pop_of_empty hlen]
      have hself : g.setQueue (c.workerService w) (g.queues (c.workerService w)) = g := by
        simp [Shared.setQueue]
      rw [hself]
      exact .popEmpty (by rfl) k hlen hpc (by rfl)
    · rename_i hlen
      exact .pop (by rfl) k _ _ hlen (RingBuffer.toList_pop noTicket hlen) hpc (by rfl)
  case popUnlock k t =>
    cases h
    refine .release (by rfl) _ (by trivial) (by rw [hview]; rfl) ?_
    rw [hview]
    split <;> simp only [OpPc.view, *] <;> rfl
  case serveStart k t =>
    cases h
    exact .serveStart (by rfl) k t _ hpc (by rfl)
  case serveSleep k t waitingNs minutes =>
    unfold Task.nanosleep at h
    split at h
    · cases h
      exact .stay rfl rfl rfl
    · split at h <;> cases h
      · exact .jump hview.symm
      · exact .stay rfl rfl rfl
  case serveLock k t waitingNs minutes =>
    rcases semOpInterruptible_cases h with ⟨-, -, rfl, rfl⟩ | ⟨h1, h2, h3⟩ | ⟨hσ, rfl, rfl⟩
    · exact .stay rfl rfl rfl
    · exact .stay h1 h2 h3
    · exact .acquire (by rfl) _ (by trivial) (by rw [hview]; rfl) hσ (by rw [hview]; rfl)
  case serveStats k t waitingNs minutes =>
    cases h
    exact .count (by rfl) k t waitingNs minutes hpc (by rfl)
  case serveUnlock k t =>
    cases h
    exact .release (by rfl) _ (by trivial) (by rw [hview]; rfl) (by rw [hview]; rfl)
  case serveReply k t =>
    rcases msgSendRetry_cases h with ⟨h1, h2, h3⟩ | ⟨hroom, rfl, rfl⟩
    · exact .stay h1 h2 h3
    · exact .reply (by rfl) k t hpc (by rfl) hroom
  case pauseCount k =>
    cases h
    exact .pauseCount (by rfl) k hpc (by rfl)
  case pauseLock k =>
    rcases semOpInterruptible_cases h with ⟨-, -, rfl, rfl⟩ | ⟨h1, h2, h3⟩ | ⟨hσ, rfl, rfl⟩
    · exact .stay rfl rfl rfl
    · exact .stay h1 h2 h3
    · exact .acquire (by rfl) _ (by trivial) (by rw [hview]; rfl) hσ (by rw [hview]; rfl)
  case pauseStats k =>
    cases h
    exact .pauseStats (by rfl) k hpc (by rfl)
  case pauseUnlock k =>
    cases h
    exact .release (by rfl) _ (by trivial) (by rw [hview]; rfl) (by rw [hview]; rfl)
  case pauseStop k =>
    cases h
    exact .raiseStop (by rfl) k hpc (by rfl)
  case releaseLock k =>
    rcases semOpInterruptible_cases h with ⟨hm, -, rfl, rfl⟩ | ⟨h1, h2, h3⟩ | ⟨hσ, rfl, rfl⟩
    · exact .dropSeat (by rfl) hm k hview (by rfl)
    · exact .stay h1 h2 h3
    · exact .acquire (by rfl) _ (by trivial) (by rw [hview]; rfl) hσ (by rw [hview]; rfl)
  case releaseClear k =>
    cases h
    exact .stand (by rfl) k hview (by rfl)
  case releaseUnlock k =>
    cases h
    exact .release (by rfl) _ (by trivial) (by rw [hview]; rfl) (by rw [hview]; rfl)
  case releaseToken =>
    cases h
    exact .giveToken (by rfl) 0 hview (by rfl)
  case dayFinished =>
    rcases msgSendRetry_cases h with ⟨h1, h2, h3⟩ | ⟨hroom, rfl, rfl⟩
    · exact .stay h1 h2 h3
    · exact .finish (by rfl) hpc (by rfl) hroom
  case done => cases h

/-! ### Own steps never end in `EINTR` -/

theorem semOpInterruptible_mode {σ : Sem c.nofWorkerSeats} {next : OpPc c.nofWorkerSeats}
    {onInterrupt : Operator c} (h : semOpInterruptible l g σ next onInterrupt = some (l', g'))
    (hi : onInterrupt.mode ≠ .eintr) : l'.mode ≠ .eintr := by
  unfold semOpInterruptible Task.semWait at h
  repeat' split at h
  all_goals cases h
  all_goals simp_all

theorem msgSendRetry_mode {m : Message} {e : c.Event} {next : OpPc c.nofWorkerSeats}
    (h : msgSendRetry l g m e next = some (l', g')) : l'.mode ≠ .eintr := by
  unfold msgSendRetry Task.msgSend at h
  repeat' split at h
  all_goals cases h
  all_goals simp

/-- An own step never leaves a process in a call that failed with `EINTR`: only a delivery does. -/
theorem step_mode {n : ℕ} (h : step w l g n = some (l', g')) : l'.mode ≠ .eintr := by
  unfold step at h
  split at h
  · cases h
  unfold body at h
  cases hpc : l.pc <;> rw [hpc] at h <;> simp only at h
  case claimToken | scanLock | waitTicket | popLock | serveLock | pauseLock | releaseLock =>
    exact semOpInterruptible_mode h (by simp)
  case sendInit | serveReply | dayFinished => exact msgSendRetry_mode h
  case serveSleep =>
    unfold Task.nanosleep at h
    repeat' split at h
    all_goals cases h; simp
  case done => cases h
  all_goals first | cases h; simp | (repeat' split at h) <;> cases h <;> simp

end Operator

end PostOffice
