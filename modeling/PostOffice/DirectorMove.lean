import PostOffice.Director

/-! What one step of the director can do: the table of its transitions, every loop unrolled into
    "next round" and "over". -/

namespace PostOffice

namespace Director

variable {c : Setup}

/-- The transitions of the director, from program point, variables and shared state. -/
inductive Move : DirPc c.nofWorkerSeats c.nofWorkers c.nofUsers → DirVars → Shared c →
    DirPc c.nofWorkerSeats c.nofWorkers c.nofUsers → DirVars → Shared c → Prop where
  /-- A sleep, a retry, an exit. -/
  | stay {pc v g} : Move pc v g pc v g
  -- wait_for_initialization
  | initOther {v g m} (hm : g.firstOfType directorMtype = some (.director m))
      (hk : m.kind ≠ .init) (hr : v.received < c.nofWorkers + c.nofUsers + 1) :
      Move .waitInit v g .waitInit v (g.received directorMtype)
  | initMore {v g m} (hm : g.firstOfType directorMtype = some (.director m))
      (hk : m.kind = .init) (hr : v.received + 1 < c.nofWorkers + c.nofUsers + 1) :
      Move .waitInit v g .waitInit { v with received := v.received + 1 } (g.received directorMtype)
  | initLast {v v' g m} (hm : g.firstOfType directorMtype = some (.director m))
      (hv : v' = { v with received := if m.kind = .init then v.received + 1 else v.received })
      (hr : c.nofWorkers + c.nofUsers + 1 ≤ v'.received) :
      Move .waitInit v g .dayTest v' (g.received directorMtype)
  -- the head of the day loop
  | dayNext {v g} (hd : v.day ≤ c.simDuration) (hs : v.shutdownRequested = false) :
      Move .dayTest v g .setDay v g
  | dayOver {v g} (h : ¬ (v.day ≤ c.simDuration ∧ v.shutdownRequested = false)) :
      Move .dayTest v g .setCause v g
  | setDay {v g} : Move .setDay v g .resetLock v { g with currentDay := v.day }
  -- reset_day_statistics and reset_workers_day_state
  | resetLock {v g} (h : 0 < g.sem .stats) : Move .resetLock v g .resetStats v (g.down .stats)
  | resetStats {v g} : Move .resetStats v g .resetUnlock v (g.setStats g.stats.resetDay)
  | resetUnlock {v g} : Move .resetUnlock v g (.resetWorker ⟨0, c.workers_pos⟩) v (g.up .stats)
  | resetWorkerNext {v g} {i : Fin c.nofWorkers} (hi : (i : ℕ) + 1 < c.nofWorkers) :
      Move (.resetWorker i) v g (.resetWorker ⟨i + 1, hi⟩) v (g.setWorker i
        { g.workers i with activeToday := false, pausesToday := 0, currentCounter := none })
  | resetWorkerLast {v g} {i : Fin c.nofWorkers} (hi : c.nofWorkers ≤ (i : ℕ) + 1) :
      Move (.resetWorker i) v g .assignInit v (g.setWorker i
        { g.workers i with activeToday := false, pausesToday := 0, currentCounter := none })
  -- assign_daily_counters
  | assignInit {v g} : Move .assignInit v g (.assignLock ⟨0, c.seats_pos⟩)
      { v with countersPerService := fun _ => 0 } (g.log (.assigned g.currentDay))
  | assignLock {v g i} (h : 0 < g.sem (.counterMutex i)) :
      Move (.assignLock i) v g (.assignWrite i) v (g.down (.counterMutex i))
  | assignWrite {v g i} (s : Service) : Move (.assignWrite i) v g (.assignUnlock i)
      { v with countersPerService :=
        Function.update v.countersPerService s (v.countersPerService s + 1) }
      (g.setCounter i { service := some s, workerPid := -1 })
  | assignNext {v g} {i : Fin c.nofWorkerSeats} (hi : (i : ℕ) + 1 < c.nofWorkerSeats) :
      Move (.assignUnlock i) v g (.assignLock ⟨i + 1, hi⟩) v (g.up (.counterMutex i))
  | assignLast {v g} {i : Fin c.nofWorkerSeats} (hi : c.nofWorkerSeats ≤ (i : ℕ) + 1) :
      Move (.assignUnlock i) v g (.setJobs 0) v (g.up (.counterMutex i))
  | setJobs {v g s} : Move (.setJobs s) v g (.setFree s) v (g.setSemValue (.jobs s) 0)
  | setFree {v g s} : Move (.setFree s) v g (.resetQueue s) v
      (g.setSemValue (.freeCounter s) (v.countersPerService s))
  | resetQueueNext {v g} {s : Service} (hs : (s : ℕ) + 1 < serviceCount) :
      Move (.resetQueue s) v g (.setJobs ⟨s + 1, hs⟩) v (g.setQueue s serviceQueueReset)
  | resetQueueLast {v g} {s : Service} (hs : serviceCount ≤ (s : ℕ) + 1) :
      Move (.resetQueue s) v g .activate v (g.setQueue s serviceQueueReset)
  -- the day
  | activate {v g} :
      Move .activate v g (.startWorkers ⟨0, c.workers_pos⟩) v { g with dayActive := true }
  | startWorkersNext {v g} {i : Fin c.nofWorkers} (hi : (i : ℕ) + 1 < c.nofWorkers) :
      Move (.startWorkers i) v g (.startWorkers ⟨i + 1, hi⟩) v (g.kill (.operator i) .usr1)
  | startWorkersLast {v g} {i : Fin c.nofWorkers} (hi : c.nofWorkers ≤ (i : ℕ) + 1) :
      Move (.startWorkers i) v g (.startUsers ⟨0, c.users_pos⟩) v (g.kill (.operator i) .usr1)
  | startUsersNext {v g} {i : Fin c.nofUsers} (hi : (i : ℕ) + 1 < c.nofUsers) :
      Move (.startUsers i) v g (.startUsers ⟨i + 1, hi⟩) v (g.kill (.user i) .usr1)
  | startUsersLast {v g} {i : Fin c.nofUsers} (hi : c.nofUsers ≤ (i : ℕ) + 1) :
      Move (.startUsers i) v g .daySleep v (g.kill (.user i) .usr1)
  | daySleep {v g} : Move .daySleep v g .deactivate v g
  | dayBrokenOff {v g} (hs : v.shutdownRequested = true) :
      Move .daySleep v g .deactivate v (g.log .brokenOff)
  | deactivate {v g} :
      Move .deactivate v g (.stopWorkers ⟨0, c.workers_pos⟩) v { g with dayActive := false }
  | stopWorkersNext {v g} {i : Fin c.nofWorkers} (hi : (i : ℕ) + 1 < c.nofWorkers) :
      Move (.stopWorkers i) v g (.stopWorkers ⟨i + 1, hi⟩) v (g.kill (.operator i) .usr2)
  | stopWorkersLast {v g} {i : Fin c.nofWorkers} (hi : c.nofWorkers ≤ (i : ℕ) + 1) :
      Move (.stopWorkers i) v g (.stopUsers ⟨0, c.users_pos⟩) v (g.kill (.operator i) .usr2)
  | stopUsersNext {v g} {i : Fin c.nofUsers} (hi : (i : ℕ) + 1 < c.nofUsers) :
      Move (.stopUsers i) v g (.stopUsers ⟨i + 1, hi⟩) v (g.kill (.user i) .usr2)
  | stopUsersLast {v g} {i : Fin c.nofUsers} (hi : c.nofUsers ≤ (i : ℕ) + 1) :
      Move (.stopUsers i) v g .dayEndInit v (g.kill (.user i) .usr2)
  -- wait_for_workers_day_end
  | dayEndInit {v g} : Move .dayEndInit v g .waitDayEnd { v with received := 0 } g
  | dayEndOther {v g m} (hm : g.firstOfType directorMtype = some (.director m))
      (hk : m.kind ≠ .dayFinished) (hr : v.received < c.nofWorkers) :
      Move .waitDayEnd v g .waitDayEnd v (g.received directorMtype)
  | dayEndMore {v g m} (hm : g.firstOfType directorMtype = some (.director m))
      (hk : m.kind = .dayFinished) (hr : v.received + 1 < c.nofWorkers) :
      Move .waitDayEnd v g .waitDayEnd { v with received := v.received + 1 }
        (g.received directorMtype)
  | dayEndLast {v v' g m} (hm : g.firstOfType directorMtype = some (.director m))
      (hv : v' =
        { v with received := if m.kind = .dayFinished then v.received + 1 else v.received })
      (hr : c.nofWorkers ≤ v'.received) :
      Move .waitDayEnd v g .countInit v' (g.received directorMtype)
  -- count_pending_users and the explode decision
  | countInit {v g} : Move .countInit v g (.countLock 0) { v with total := 0 } g
  | countLock {v g s} (h : 0 < g.sem (.queueMutex s)) :
      Move (.countLock s) v g (.countRead s) v (g.down (.queueMutex s))
  | countRead {v g s} : Move (.countRead s) v g (.countUnlock s)
      { v with total := v.total + (g.queues s).length } g
  | countNext {v g} {s : Service} (hs : (s : ℕ) + 1 < serviceCount) :
      Move (.countUnlock s) v g (.countLock ⟨s + 1, hs⟩) v (g.up (.queueMutex s))
  | countLast {v g} {s : Service} (hs : serviceCount ≤ (s : ℕ) + 1) :
      Move (.countUnlock s) v g .decide v (g.up (.queueMutex s))
  | explode {v g} (h : (v.total : ℤ) > c.explodeThreshold) : Move .decide v g .flushInit
      { v with pendingBeforeFlush := v.total } { g with terminationCause := .explode }
  | noExplode {v g} (h : ¬ (v.total : ℤ) > c.explodeThreshold) : Move .decide v g .flushInit
      { v with pendingBeforeFlush := v.total } g
  -- flush_pending_users
  | flushInit {v g} : Move .flushInit v g (.flushLock 0) { v with pendingTotal := 0 } g
  | flushLock {v g s} (h : 0 < g.sem (.queueMutex s)) :
      Move (.flushLock s) v g (.flushTake s) v (g.down (.queueMutex s))
  | flushTake {v g s t q} (hlen : (g.queues s).length ≠ 0)
      (hq : (g.queues s).toList = t :: q.toList) : Move (.flushTake s) v g (.flushReply s t)
      { v with pendingTotal := v.pendingTotal + 1 } ((g.setQueue s q).log (.flushed s t))
  | flushEmpty {v g s} (hlen : (g.queues s).length = 0) :
      Move (.flushTake s) v g (.flushUnlock s) v g
  | flushReply {v g s t} (hroom : g.msgs.length < c.msgCapacity) :
      Move (.flushReply s t) v g (.flushStatsLock s) v
      ((g.send (.userReply
        { mtype := userReplyBase + t.userPid, status := .notServed, service := s })).log
          (.replied .director t.userPid .notServed s))
  | flushStatsLock {v g s} (h : 0 < g.sem .stats) :
      Move (.flushStatsLock s) v g (.flushStats s) v (g.down .stats)
  | flushStats {v g s} :
      Move (.flushStats s) v g (.flushStatsUnlock s) v (g.setStats (g.stats.markNotServed s))
  | flushStatsUnlock {v g s} : Move (.flushStatsUnlock s) v g (.flushTake s) v (g.up .stats)
  | flushUnlock {v g s} : Move (.flushUnlock s) v g (.flushJobs s) v (g.up (.queueMutex s))
  | flushNext {v g} {s : Service} (hs : (s : ℕ) + 1 < serviceCount) :
      Move (.flushJobs s) v g (.flushLock ⟨s + 1, hs⟩) v (g.setSemValue (.jobs s) 0)
  | flushLast {v g} {s : Service} (hs : serviceCount ≤ (s : ℕ) + 1) :
      Move (.flushJobs s) v g .printActive v (g.setSemValue (.jobs s) 0)
  -- print_daily_statistics
  | printActive {v g activeToday activeTotal} : Move .printActive v g .printLock
      { v with activeToday := activeToday, activeTotal := activeTotal } g
  | printLock {v g} (h : 0 < g.sem .stats) : Move .printLock v g .printDaily v (g.down .stats)
  | printDaily {v g} : Move .printDaily v g .printUnlock v
      (g.log (.dailyStatistics v.day v.activeToday v.activeTotal g.stats))
  | printUnlock {v g} : Move .printUnlock v g .dayEnd v (g.up .stats)
  | dayBreak {v g} (h : g.terminationCause = .explode) : Move .dayEnd v g .setCause v g
  | dayEnd {v g} (h : g.terminationCause ≠ .explode) :
      Move .dayEnd v g .dayTest { v with day := v.day + 1 } g
  -- print_final_statistics
  | timeout {v g} (h : g.terminationCause = .none) :
      Move .setCause v g .finalLock v { g with terminationCause := .timeout }
  | keepCause {v g} (h : g.terminationCause ≠ .none) : Move .setCause v g .finalLock v g
  | finalLock {v g} (h : 0 < g.sem .stats) : Move .finalLock v g .finalPrint v (g.down .stats)
  | finalPrint {v g} : Move .finalPrint v g .finalUnlock v
      (g.log (.finalStatistics g.terminationCause g.currentDay g.stats))
  | finalUnlock {v g} : Move .finalUnlock v g .termDispenser v (g.up .stats)
  -- stop_children
  | termDispenser {v g} :
      Move .termDispenser v g (.termWorkers ⟨0, c.workers_pos⟩) v (g.kill .dispenser .term)
  | termWorkersNext {v g} {i : Fin c.nofWorkers} (hi : (i : ℕ) + 1 < c.nofWorkers) :
      Move (.termWorkers i) v g (.termWorkers ⟨i + 1, hi⟩) v (g.kill (.operator i) .term)
  | termWorkersLast {v g} {i : Fin c.nofWorkers} (hi : c.nofWorkers ≤ (i : ℕ) + 1) :
      Move (.termWorkers i) v g (.termUsers ⟨0, c.users_pos⟩) v (g.kill (.operator i) .term)
  | termUsersNext {v g} {i : Fin c.nofUsers} (hi : (i : ℕ) + 1 < c.nofUsers) :
      Move (.termUsers i) v g (.termUsers ⟨i + 1, hi⟩) v (g.kill (.user i) .term)
  | termUsersLast {v g} {i : Fin c.nofUsers} (hi : c.nofUsers ≤ (i : ℕ) + 1) :
      Move (.termUsers i) v g (.reapWorker ⟨0, c.workers_pos⟩) v (g.kill (.user i) .term)
  | reapWorkerNext {v g reaped} {i : Fin c.nofWorkers} (hi : (i : ℕ) + 1 < c.nofWorkers) :
      Move (.reapWorker i) v g (.reapWorker ⟨i + 1, hi⟩) v { g with reaped := reaped }
  | reapWorkerLast {v g reaped} {i : Fin c.nofWorkers} (hi : c.nofWorkers ≤ (i : ℕ) + 1) :
      Move (.reapWorker i) v g (.reapUser ⟨0, c.users_pos⟩) v { g with reaped := reaped }
  | reapUserNext {v g reaped} {i : Fin c.nofUsers} (hi : (i : ℕ) + 1 < c.nofUsers) :
      Move (.reapUser i) v g (.reapUser ⟨i + 1, hi⟩) v { g with reaped := reaped }
  | reapUserLast {v g reaped} {i : Fin c.nofUsers} (hi : c.nofUsers ≤ (i : ℕ) + 1) :
      Move (.reapUser i) v g .reapDispenser v { g with reaped := reaped }
  | reapDispenser {v g reaped} :
      Move .reapDispenser v g (.cleanupIpc ⟨0, by decide⟩) v { g with reaped := reaped }
  -- cleanup_ipc and log_stop
  | cleanupNext {v g} {i : Fin Resource.removals.length}
      (hi : (i : ℕ) + 1 < Resource.removals.length) :
      Move (.cleanupIpc i) v g (.cleanupIpc ⟨i + 1, hi⟩) v (g.remove (Resource.removals.get i))
  | cleanupLast {v g} {i : Fin Resource.removals.length}
      (hi : Resource.removals.length ≤ (i : ℕ) + 1) :
      Move (.cleanupIpc i) v g .logStop v (g.remove (Resource.removals.get i))
  | logStop {v g} : Move .logStop v g .ended v g

/-! ### The table is complete -/

variable {l l' : Director c} {g g' : Shared c}

theorem semOpRetry_cases {σ : Sem c.nofWorkerSeats}
    {next : DirPc c.nofWorkerSeats c.nofWorkers c.nofUsers}
    (h : semOpRetry l g σ next = some (l', g')) :
    (l'.pc = l.pc ∧ l'.vars = l.vars ∧ g' = g) ∨
    (0 < g.sem σ ∧ l' = l.goto next ∧ g' = g.down σ) := by
  unfold semOpRetry Task.semWait at h
  repeat' split at h
  all_goals cases h
  all_goals first | exact .inl ⟨rfl, rfl, rfl⟩ | exact .inr ⟨‹_›, rfl, rfl⟩

theorem waitpid_cases {p : c.Proc} {ex : c.Proc → Bool}
    {next : DirPc c.nofWorkerSeats c.nofWorkers c.nofUsers}
    (h : waitpid l g p ex next = some (l', g')) :
    (l'.pc = l.pc ∧ l'.vars = l.vars ∧ g' = g) ∨
    ∃ reaped, l' = l.goto next ∧ g' = { g with reaped := reaped } := by
  unfold waitpid at h
  repeat' split at h
  all_goals cases h
  · exact .inr ⟨_, rfl, rfl⟩
  · exact .inr ⟨_, rfl, rfl⟩
  · exact .inl ⟨rfl, rfl, rfl⟩

theorem receiveDirector_cases {onMessage : DirectorMessage → Director c}
    (h : receiveDirector l g onMessage = some (l', g')) :
    (l'.pc = l.pc ∧ l'.vars = l.vars ∧ g' = g) ∨
    ∃ m, g.firstOfType directorMtype = some (.director m) ∧ l' = onMessage m ∧
      g' = g.received directorMtype := by
  unfold receiveDirector at h
  repeat' split at h
  all_goals cases h
  · exact .inl ⟨rfl, rfl, rfl⟩
  · exact .inr ⟨_, ‹_›, rfl, rfl⟩
  · exact .inl ⟨rfl, rfl, rfl⟩

@[simp] theorem sendSignal_eq (p : c.Proc) (sig : Signal) : sendSignal g p sig = g.kill p sig := by
  simp [sendSignal, c.pid_pos p]

theorem countMessage_cases (kind : DirectorMessageKind) (expected : ℕ)
    (again next : DirPc c.nofWorkerSeats c.nofWorkers c.nofUsers) (m : DirectorMessage) :
    (m.kind ≠ kind ∧ l.vars.received < expected ∧
      countMessage l kind expected again next m = l.goto again) ∨
    (m.kind = kind ∧ l.vars.received + 1 < expected ∧
      countMessage l kind expected again next m =
        (l.setVars { l.vars with received := l.vars.received + 1 }).goto again) ∨
    ∃ v', v' = { l.vars with
        received := if m.kind = kind then l.vars.received + 1 else l.vars.received } ∧
      expected ≤ v'.received ∧
      countMessage l kind expected again next m = (l.setVars v').goto next := by
  unfold countMessage
  by_cases hk : m.kind = kind
  · by_cases hr : l.vars.received + 1 < expected
    · exact .inr (.inl ⟨hk, hr, by simp [hk, hr]⟩)
    · exact .inr (.inr ⟨_, rfl, by simp [hk]; omega, by simp [hk, hr]⟩)
  · by_cases hr : l.vars.received < expected
    · exact .inl ⟨hk, hr, by simp [hk, hr, Task.setVars]⟩
    · exact .inr (.inr ⟨_, rfl, by simp [hk]; omega, by simp [hk, hr]⟩)

/-- Every step of the director is in the table. -/
theorem step_move {childExited : c.Proc → Bool} {n : ℕ}
    (h : step l g childExited n = some (l', g')) : Move l.pc l.vars g l'.pc l'.vars g' := by
  have hstay : l'.pc = l.pc ∧ l'.vars = l.vars ∧ g' = g → Move l.pc l.vars g l'.pc l'.vars g' := by
    rintro ⟨h1, h2, rfl⟩
    rw [h1, h2]
    exact .stay
  unfold step at h
  split at h
  · cases h
  unfold body at h
  cases hpc : l.pc <;> rw [hpc] at h hstay <;>
    simp only [sendSignal_eq, forLoop, c.workers_pos, c.users_pos, c.seats_pos, dite_true] at h
  case waitInit =>
    rcases receiveDirector_cases h with h | ⟨m, hm, rfl, rfl⟩
    · exact hstay (hpc ▸ h)
    obtain ⟨hk, hr, he⟩ | ⟨hk, hr, he⟩ | ⟨v', hv, hr, he⟩ := countMessage_cases (l := l) .init
      (c.nofWorkers + c.nofUsers + 1) .waitInit .dayTest m <;>
      rw [he]
    · exact .initOther hm hk hr
    · exact .initMore hm hk hr
    · exact .initLast hm hv hr
  case waitDayEnd =>
    rcases receiveDirector_cases h with h | ⟨m, hm, rfl, rfl⟩
    · exact hstay (hpc ▸ h)
    obtain ⟨hk, hr, he⟩ | ⟨hk, hr, he⟩ | ⟨v', hv, hr, he⟩ := countMessage_cases (l := l)
      .dayFinished c.nofWorkers .waitDayEnd .countInit m <;> rw [he]
    · exact .dayEndOther hm hk hr
    · exact .dayEndMore hm hk hr
    · exact .dayEndLast hm hv hr
  case resetLock | assignLock | countLock | flushLock | flushStatsLock | printLock | finalLock =>
    rcases semOpRetry_cases h with h | ⟨hσ, rfl, rfl⟩
    · exact hstay (hpc ▸ h)
    · constructor; exact hσ
  case reapWorker i | reapUser i =>
    rcases waitpid_cases h with h | ⟨reaped, rfl, rfl⟩
    · exact hstay (hpc ▸ h)
    · rw [Task.goto_pc, Task.goto_vars]
      split
      · constructor
      · constructor; omega
  case reapDispenser =>
    rcases waitpid_cases h with h | ⟨reaped, rfl, rfl⟩
    · exact hstay (hpc ▸ h)
    · exact .reapDispenser
  case dayTest =>
    split at h <;> cases h
    · exact .dayNext (And.left ‹_›) (And.right ‹_›)
    · exact .dayOver ‹_›
  case daySleep =>
    unfold Task.nanosleep at h
    repeat' split at h
    all_goals cases h
    all_goals first | exact .daySleep | exact .dayBrokenOff ‹_› | exact hstay ⟨hpc, rfl, rfl⟩
  case decide =>
    cases h
    split
    · exact .explode ‹_›
    · exact .noExplode ‹_›
  case flushTake s =>
    split at h <;> cases h
    · have hlen : (g.queues s).length ≠ 0 := Nat.pos_iff_ne_zero.mp ‹_›
      exact .flushTake hlen (RingBuffer.toList_pop noTicket hlen)
    · exact .flushEmpty (Nat.eq_zero_of_not_pos ‹_›)
  case flushReply s t =>
    unfold Task.msgSend at h
    repeat' split at h
    all_goals cases h
    all_goals first | exact .flushReply ‹_› | exact hstay ⟨hpc, rfl, rfl⟩
  case dayEnd =>
    split at h <;> cases h
    · exact .dayBreak ‹_›
    · exact .dayEnd ‹_›
  case setCause =>
    cases h
    split
    · exact .timeout ‹_›
    · exact .keepCause ‹_›
  case assignWrite i => cases h; exact .assignWrite _
  case resetWorker i | assignUnlock i | resetQueue s | startWorkers i | startUsers i | stopWorkers i
      | stopUsers i | countUnlock s | flushJobs s | termWorkers i | termUsers i | cleanupIpc i =>
    cases h
    rw [Task.goto_pc, Task.goto_vars]
    split
    · constructor
    · constructor; omega
  case ended => cases h
  all_goals cases h; constructor

end Director

end PostOffice
