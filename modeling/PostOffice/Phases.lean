import PostOffice.DirectorMove

/-! The phases of a day, read off the director's program point.

        setDay   reset… assign… activate   start… daySleep deactivate   stop… waitDayEnd   count… flush…
        ├──────────────── dayOpen ─────────────────────────────────────────────────────┤
        ├─ preStart w ────────────────────┤(until w is sent SIGUSR1)
                                           ├─ active ─────────────────┤ -/

namespace PostOffice

namespace DirPc

variable {seats workers users : ℕ}

/-- `CURRENT_DAY` is still the day that has ended, `day` the one to come. -/
def betweenDays : DirPc seats workers users → Bool
  | .waitInit | .dayTest | .setDay => true
  | _ => false

/-- After the loop over the days. -/
def ending : DirPc seats workers users → Bool
  | .setCause | .finalLock | .finalPrint | .finalUnlock | .termDispenser | .termWorkers _
  | .termUsers _ | .reapWorker _ | .reapUser _ | .reapDispenser | .cleanupIpc _ | .logStop
  | .ended => true
  | _ => false

/-- Inside `stop_children` or after it, the first `SIGTERM` sent. -/
def stopping : DirPc seats workers users → Bool
  | .termWorkers _ | .termUsers _ | .reapWorker _ | .reapUser _ | .reapDispenser | .cleanupIpc _
  | .logStop | .ended => true
  | _ => false

/-- From the new `CURRENT_DAY` to the end of `wait_for_workers_day_end`. -/
def dayOpen : DirPc seats workers users → Bool
  | .resetLock | .resetStats | .resetUnlock | .resetWorker _ | .assignInit | .assignLock _
  | .assignWrite _ | .assignUnlock _ | .setJobs _ | .setFree _ | .resetQueue _ | .activate
  | .startWorkers _ | .startUsers _ | .daySleep | .deactivate | .stopWorkers _ | .stopUsers _
  | .dayEndInit | .waitDayEnd => true
  | _ => false

/-- From the new `CURRENT_DAY` to the `SIGUSR1` to operator `w`. -/
def preStart : DirPc seats workers users → Fin workers → Bool
  | .resetLock, _ | .resetStats, _ | .resetUnlock, _ | .resetWorker _, _ | .assignInit, _
  | .assignLock _, _ | .assignWrite _, _ | .assignUnlock _, _ | .setJobs _, _ | .setFree _, _
  | .resetQueue _, _ | .activate, _ => true
  | .startWorkers i, w => i ≤ w
  | _, _ => false

/-- From the `SIGUSR1` to operator `w` to the end of `wait_for_workers_day_end`. -/
def live (pc : DirPc seats workers users) (w : Fin workers) : Bool := pc.dayOpen && !pc.preStart w

/-- `DAY_ACTIVE` is 1. -/
def active : DirPc seats workers users → Bool
  | .startWorkers _ | .startUsers _ | .daySleep | .deactivate => true
  | _ => false

/-- Inside `assign_daily_counters`. -/
def assigning : DirPc seats workers users → Bool
  | .assignInit | .assignLock _ | .assignWrite _ | .assignUnlock _ | .setJobs _ | .setFree _
  | .resetQueue _ => true
  | _ => false

/-- From the record that opens a day in `assign_daily_counters` to the end of the loop body. -/
def inDay : DirPc seats workers users → Bool
  | .waitInit | .dayTest | .setDay | .resetLock | .resetStats | .resetUnlock | .resetWorker _
  | .assignInit => false
  | pc => !pc.ending

/-- The next record ends a day. -/
def endsDay : DirPc seats workers users → Bool
  | .assignInit | .finalPrint => true
  | _ => false

/-- The dispenser can no longer find the day active inside the queue mutex of `q`: the director has
    locked it in `count_pending_users`. -/
def closed : DirPc seats workers users → Service → Bool
  | .startWorkers _, _ | .startUsers _, _ | .daySleep, _ | .deactivate, _ | .stopWorkers _, _
  | .stopUsers _, _ | .dayEndInit, _ | .waitDayEnd, _ | .countInit, _ => false
  | .countLock s, q => q < s
  | .countRead s, q | .countUnlock s, q => q ≤ s
  | _, _ => true

/-- `flush_pending_users` has finished with the queue `q`, and the next day is not active yet. -/
def emptied : DirPc seats workers users → Service → Bool
  | .startWorkers _, _ | .startUsers _, _ | .daySleep, _ | .deactivate, _ | .stopWorkers _, _
  | .stopUsers _, _ | .dayEndInit, _ | .waitDayEnd, _ | .countInit, _ | .countLock _, _
  | .countRead _, _ | .countUnlock _, _ | .decide, _ | .flushInit, _ => false
  | .flushLock s, q | .flushTake s, q | .flushReply s _, q | .flushStatsLock s, q
  | .flushStats s, q | .flushStatsUnlock s, q => q < s
  | .flushUnlock s, q | .flushJobs s, q => q ≤ s
  | _, _ => true

/-- `count_pending_users` has read the length of the queue `q`. -/
def counted : DirPc seats workers users → Service → Bool
  | .countLock s, q | .countRead s, q => q < s
  | .countUnlock s, q => q ≤ s
  | _, _ => true

/-- `flush_pending_users` has begun. -/
def flushing : DirPc seats workers users → Bool
  | .flushLock _ | .flushTake _ | .flushReply _ _ | .flushStatsLock _ | .flushStats _
  | .flushStatsUnlock _ | .flushUnlock _ | .flushJobs _ | .printActive | .printLock | .printDaily
  | .printUnlock | .dayEnd => true
  | _ => false

/-- The explode decision of the day is taken. -/
def decided (pc : DirPc seats workers users) : Bool := pc = .flushInit || pc.flushing

/-- From the first queue that `count_pending_users` visits to the end of the day. -/
def tallying : DirPc seats workers users → Bool
  | .countLock _ | .countRead _ | .countUnlock _ | .decide => true
  | pc => pc.decided

theorem dayOpen_of_preStart {pc : DirPc seats workers users} {w : Fin workers}
    (h : pc.preStart w = true) : pc.dayOpen = true := by
  cases pc <;> simp [preStart, dayOpen] at h ⊢

theorem dayOpen_of_live {pc : DirPc seats workers users} {w : Fin workers}
    (h : pc.live w = true) : pc.dayOpen = true :=
  (Bool.and_eq_true _ _ ▸ h).1

theorem dayOpen_of_active {pc : DirPc seats workers users} (h : pc.active = true) :
    pc.dayOpen = true := by
  cases pc <;> simp [active, dayOpen] at h ⊢

/-- While an operator is live the flush of the day has not begun. -/
theorem not_flushing_of_live {pc : DirPc seats workers users} {w : Fin workers}
    (h : pc.live w = true) :
    pc.inDay = true ∧ pc.flushing = false ∧ pc.emptied = fun _ => false := by
  cases pc <;> simp [live, dayOpen, preStart, inDay, ending, flushing] at h ⊢
  all_goals rfl

theorem emptied_of_endsDay {pc : DirPc seats workers users} (h : pc.endsDay = true)
    (q : Service) : pc.emptied q = true := by
  cases pc <;> simp [endsDay, emptied] at h ⊢

theorem dayOpen_of_stopping {pc : DirPc seats workers users} (h : pc.stopping = true) :
    pc.dayOpen = false := by
  cases pc <;> simp [stopping, dayOpen] at h ⊢

theorem not_stopping_of_dayOpen {pc : DirPc seats workers users} (h : pc.dayOpen = true) :
    pc.stopping = false :=
  Bool.eq_false_iff.mpr fun hs => Bool.false_ne_true ((dayOpen_of_stopping hs).symm.trans h)

theorem dayOpen_of_tallying {pc : DirPc seats workers users} (h : pc.tallying = true) :
    pc.dayOpen = false := by
  cases pc <;> simp [tallying, decided, flushing, dayOpen] at h ⊢

theorem preStart_of_assigning {pc : DirPc seats workers users} (h : pc.assigning = true)
    (w : Fin workers) : pc.preStart w = true := by
  cases pc <;> simp [assigning, preStart] at h ⊢

end DirPc

/-- `CURRENT_DAY` is written at the head of the day loop and nowhere else. -/
theorem Director.Move.currentDay {c : Setup}
    {pc pc' : DirPc c.nofWorkerSeats c.nofWorkers c.nofUsers} {v v' : DirVars} {g g' : Shared c}
    (h : Director.Move pc v g pc' v' g') :
    g'.currentDay = g.currentDay ∨ pc = .setDay ∧ g'.currentDay = v.day := by
  cases h <;> first | exact .inl rfl | exact .inr ⟨rfl, rfl⟩

end PostOffice
