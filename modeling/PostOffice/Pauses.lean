import PostOffice.Barrier

/-! Pauses. An operator takes a pause at most once a day, at the end of `run_day`: it counts the
    pause in its own entry without a lock, then in the shared totals under the statistics mutex, and
    leaves by raising its own stop flag.

        away ─▶ working ─▶ deciding ─▶ counted ─▶ totalled ─▶ leaving ─▶ away
                   └──────────────────────────────────────────▶┘

    The totals lag behind the entries by the operators between the two counts. The day's total is
    reset before the entries are, one after the other, so for the time in between an entry that is
    still to be reset stands for 0. -/

namespace PostOffice

open Transition

variable {c : Setup}

/-- How far an operator is in `run_day`. -/
inductive Stage where
  /-- Outside `run_day`. -/
  | away
  /-- From the first test of `claim_counter_for_service` to `should_take_pause`. -/
  | working
  /-- `should_take_pause` has returned 1. -/
  | deciding
  /-- The pause stands in the operator's entry. -/
  | counted
  /-- The pause stands in the totals too. -/
  | totalled
  /-- The loop is over: `release_counter` and the message to the director. -/
  | leaving
  deriving DecidableEq

/-- The stage of a program point. -/
def OpPc.stage {seats : ℕ} : OpPc seats → Stage
  | .sendInit | .mainTest | .waitDayStarted | .waitTerminate | .suspend | .mainBreak
  | .clearStarted | .clearStop | .done => .away
  | .pauseCount _ => .deciding
  | .pauseLock _ | .pauseStats _ => .counted
  | .pauseUnlock _ | .pauseStop _ => .totalled
  | .releaseLock _ | .releaseClear _ | .releaseUnlock _ | .releaseToken | .dayFinished => .leaving
  | _ => .working

theorem OpPc.inRun_iff {seats : ℕ} (service : Service) (pc : OpPc seats) :
    (pc.view service).inRun = true ↔ pc.stage ≠ .away := by
  cases pc <;> simp [view, stage, OpView.idle, OpView.starting, OpView.running, OpView.scanning,
    OpView.seated]

/-- What an operator records when it pops a ticket, serves it and answers the user. -/
def Event.isWork {workers users : ℕ} (w : Fin workers) : Event workers users → Bool
  | .popped v _ _ | .poppedEmpty v _ | .served v _ _ _ => v = w
  | .replied p _ _ _ => p = .operator w
  | _ => false

namespace Shared

/-- The tickets operator `w` has popped, served and answered. -/
def work (g : Shared c) (w : Fin c.nofWorkers) : List c.Event := g.hist.filter (Event.isWork w)

/-- No figure about pauses has changed. -/
structure SamePauses (g g' : Shared c) : Prop where
  taken : ∀ w, (g'.workers w).pausesTaken = (g.workers w).pausesTaken
  today : ∀ w, (g'.workers w).pausesToday = (g.workers w).pausesToday
  dayTotal : g'.stats.dayPauseTotal = g.stats.dayPauseTotal
  total : g'.stats.totalPauseTotal = g.stats.totalPauseTotal

/-- Neither the entries nor the two totals are written. -/
theorem SamePauses.of_eq {g g' : Shared c} (hw : g'.workers = g.workers)
    (hd : g'.stats.dayPauseTotal = g.stats.dayPauseTotal)
    (ht : g'.stats.totalPauseTotal = g.stats.totalPauseTotal) : SamePauses g g' :=
  ⟨fun _ => by rw [hw], fun _ => by rw [hw], hd, ht⟩

/-- A worker's entry is written, but not its pauses. -/
theorem SamePauses.of_update {g g' : Shared c} {w : Fin c.nofWorkers}
    {x : WorkerInfo c.nofWorkerSeats} (hw : g'.workers = Function.update g.workers w x)
    (ht : x.pausesTaken = (g.workers w).pausesTaken)
    (hd : x.pausesToday = (g.workers w).pausesToday) (hs : g'.stats = g.stats) :
    SamePauses g g' := by
  refine ⟨fun v => ?_, fun v => ?_, by rw [hs], by rw [hs]⟩ <;> rw [hw]
  · exact Family.update_of_eq WorkerInfo.pausesTaken ht v
  · exact Family.update_of_eq WorkerInfo.pausesToday hd v

/-- The pauses of all operators over the whole simulation. -/
def pausesTaken (g : Shared c) : ℕ := Family.total (fun _ x => x.pausesTaken) g.workers

/-- The pauses of the day, where the stale entries stand for 0. -/
def pausesToday (g : Shared c) (stale : Fin c.nofWorkers → Bool) : ℕ :=
  Family.total (fun w x => if stale w then 0 else x.pausesToday) g.workers

theorem SamePauses.pausesTaken_eq {g g' : Shared c} (h : SamePauses g g') :
    g'.pausesTaken = g.pausesTaken :=
  Family.total_congr h.taken

theorem SamePauses.pausesToday_eq {g g' : Shared c} (h : SamePauses g g')
    (stale : Fin c.nofWorkers → Bool) : g'.pausesToday stale = g.pausesToday stale :=
  Family.total_congr fun w => by rw [h.today w]

/-- The operator's entry with one more pause. -/
def countPause (g : Shared c) (w : Fin c.nofWorkers) : Shared c :=
  g.setWorker w { g.workers w with
    pausesTaken := (g.workers w).pausesTaken + 1
    pausesToday := (g.workers w).pausesToday + 1 }

theorem pausesTaken_countPause (g : Shared c) (w : Fin c.nofWorkers) :
    (g.countPause w).pausesTaken = g.pausesTaken + 1 :=
  Family.total_update_succ rfl

theorem pausesToday_countPause (g : Shared c) {w : Fin c.nofWorkers}
    {stale : Fin c.nofWorkers → Bool} (h : stale w = false) :
    (g.countPause w).pausesToday stale = g.pausesToday stale + 1 :=
  Family.total_update_succ (by simp [h])

end Shared

namespace Operator

/-- One step of operator `w`, as its pauses see it. -/
inductive PauseMove (w : Fin c.nofWorkers) (l : Operator c) (g : Shared c) (l' : Operator c)
    (g' : Shared c) : Prop where
  | stay (hs : l'.pc.stage = l.pc.stage) (hp : g.SamePauses g')
      (hf : l'.vars.dayStopRequested = l.vars.dayStopRequested)
      (hw : l.pc.stage = .working ∨ g'.work w = g.work w)
      (hd : g'.finished w = g.finished w)
  | enter (hs : l.pc.stage = .away) (hs' : l'.pc.stage = .working) (hp : g.SamePauses g')
      (hf : l'.vars.dayStopRequested = false) (hw : g'.work w = g.work w)
      (hd : g'.finished w = g.finished w)
  | leave (hs : l.pc.stage = .working) (hs' : l'.pc.stage = .leaving) (hp : g.SamePauses g')
      (hf : l'.vars = l.vars) (hh : g'.hist = g.hist)
  | choose (hs : l.pc.stage = .working) (hs' : l'.pc.stage = .deciding)
      (hlt : ((g.workers w).pausesTaken : ℤ) < c.nofPause) (hf : l'.vars = l.vars) (hg : g' = g)
  | count (hs : l.pc.stage = .deciding) (hs' : l'.pc.stage = .counted)
      (hf : l'.vars = l.vars) (hg : g' = g.countPause w)
  | total (hs : l.pc.stage = .counted) (hs' : l'.pc.stage = .totalled)
      (hf : l'.vars = l.vars) (hg : g' = g.setStats g.stats.pause)
  | raise (hs : l.pc.stage = .totalled) (hs' : l'.pc.stage = .leaving) (hg : g' = g)
  | finish (hs : l.pc.stage = .leaving) (hs' : l'.pc.stage = .away) (hp : g.SamePauses g')
      (hw : g'.work w = g.work w) (hd : g'.finished w = g.finished w + 1)

variable {w : Fin c.nofWorkers} {l l' : Operator c} {g g' : Shared c}

/-- A step that records nothing. -/
theorem PauseMove.silent (hs : l'.pc.stage = l.pc.stage) (hp : g.SamePauses g')
    (hf : l'.vars.dayStopRequested = l.vars.dayStopRequested) (hh : g'.hist = g.hist) :
    PauseMove w l g l' g' :=
  .stay hs hp hf (.inr (by rw [Shared.work, hh, Shared.work])) (by rw [Shared.finished, hh]; rfl)

/-- A step of the work on a ticket. -/
theorem PauseMove.work (hs : l'.pc.stage = .working) (hpc : l.pc.stage = .working)
    (hp : g.SamePauses g') (hf : l'.vars = l.vars) {e : c.Event} (hh : g'.hist = g.hist ++ [e])
    (he : e.isDayFinished w = false) : PauseMove w l g l' g' := by
  refine .stay (hs.trans hpc.symm) hp (by rw [hf]) (.inl hpc) ?_
  simp [Shared.finished, hh, he]

/-- Every step of an operator is one of these. -/
theorem step_pauseMove {n : ℕ} (h : step w l g n = some (l', g')) : PauseMove w l g l' g' := by
  unfold step at h
  split at h
  · cases h
  unfold body at h
  cases hpc : l.pc <;> rw [hpc] at h <;> simp only at h
  case claimToken | scanLock | waitTicket =>
    rcases semOpInterruptible_cases h with ⟨-, -, rfl, rfl⟩ | ⟨h1, h2, rfl⟩ | ⟨-, rfl, rfl⟩
    · exact .leave (by rw [hpc]; rfl) (by rfl) (.of_eq rfl rfl rfl) (by rfl) rfl
    · exact .silent (by rw [h1]) (.of_eq rfl rfl rfl) (by rw [h2]) rfl
    · exact .silent (by rw [hpc]; rfl) (.of_eq rfl rfl rfl) (by rfl) rfl
  case popLock | serveLock | pauseLock | releaseLock =>
    rcases semOpInterruptible_cases h with ⟨-, -, rfl, rfl⟩ | ⟨h1, h2, rfl⟩ | ⟨-, rfl, rfl⟩
    · exact .silent (by simp [hpc, OpPc.stage]) (.of_eq rfl rfl rfl) (by rfl) rfl
    · exact .silent (by rw [h1]) (.of_eq rfl rfl rfl) (by rw [h2]) rfl
    · exact .silent (by rw [hpc]; rfl) (.of_eq rfl rfl rfl) (by rfl) rfl
  case sendInit =>
    rcases msgSendRetry_cases h with ⟨h1, h2, rfl⟩ | ⟨-, rfl, rfl⟩
    · exact .silent (by rw [h1]) (.of_eq rfl rfl rfl) (by rw [h2]) rfl
    · refine .stay (by rw [hpc]; rfl) (.of_eq rfl rfl rfl) (by rfl) (.inr ?_) ?_ <;>
        simp [Shared.work, Shared.finished, Event.isWork, Event.isDayFinished]
  case serveReply =>
    rcases msgSendRetry_cases h with ⟨h1, h2, rfl⟩ | ⟨-, rfl, rfl⟩
    · exact .silent (by rw [h1]) (.of_eq rfl rfl rfl) (by rw [h2]) rfl
    · exact .work (by rfl) (by rw [hpc]; rfl) (.of_eq rfl rfl rfl) (by rfl) (by rfl) (by rfl)
  case dayFinished =>
    rcases msgSendRetry_cases h with ⟨h1, h2, rfl⟩ | ⟨-, rfl, rfl⟩
    · exact .silent (by rw [h1]) (.of_eq rfl rfl rfl) (by rw [h2]) rfl
    · refine .finish (by rw [hpc]; rfl) (by rfl) (.of_eq rfl rfl rfl) ?_ ?_ <;>
        simp [Shared.work, Shared.finished, Event.isWork, Event.isDayFinished]
  case clearStop =>
    cases h
    refine .enter (by rw [hpc]; rfl) (by rfl) (.of_eq rfl rfl rfl) (by rfl) ?_ ?_ <;>
      simp [Shared.work, Shared.finished, Event.isWork, Event.isDayFinished]
  case done => cases h
  case scanCheck =>
    split at h <;> cases h
    · exact .silent (by rw [hpc]; rfl) (.of_update rfl rfl rfl rfl) (by rfl) rfl
    · exact .silent (by rw [hpc]; rfl) (.of_eq rfl rfl rfl) (by rfl) rfl
  case releaseClear =>
    cases h
    exact .silent (by rw [hpc]; rfl) (.of_update rfl rfl rfl rfl) (by rfl) rfl
  case claimTerminate | claimStop | loopTerminate | afterTerminate | afterStop =>
    cases h
    split
    · exact .leave (by rw [hpc]; rfl) (by rfl) (.of_eq rfl rfl rfl) (by rfl) rfl
    · exact .silent (by rw [hpc]; rfl) (.of_eq rfl rfl rfl) (by rfl) rfl
  case claimActive | loopActive | afterActive =>
    cases h
    split
    · exact .silent (by rw [hpc]; rfl) (.of_eq rfl rfl rfl) (by rfl) rfl
    · exact .leave (by rw [hpc]; rfl) (by rfl) (.of_eq rfl rfl rfl) (by rfl) rfl
  case tokenGiveBack =>
    cases h
    exact .leave (by rw [hpc]; rfl) (by rfl) (.of_eq rfl rfl rfl) (by rfl) rfl
  case popTake k =>
    cases h
    split
    · exact .work (by rfl) (by rw [hpc]; rfl) (.of_eq rfl rfl rfl) (by rfl) (by rfl) (by rfl)
    · exact .work (by rfl) (by rw [hpc]; rfl) (.of_eq rfl rfl rfl) (by rfl) (by rfl) (by rfl)
  case serveStats =>
    cases h
    exact .work (by rfl) (by rw [hpc]; rfl) (.of_eq rfl rfl rfl) (by rfl) (by rfl) (by rfl)
  case pauseDraw k =>
    cases h
    split
    · rename_i hdraw
      exact .choose (by rw [hpc]; rfl) (by rfl) hdraw.1 (by rfl) rfl
    · exact .silent (by rw [hpc]; rfl) (.of_eq rfl rfl rfl) (by rfl) rfl
  case pauseCount =>
    cases h
    exact .count (by rw [hpc]; rfl) (by rfl) (by rfl) rfl
  case pauseStats =>
    cases h
    exact .total (by rw [hpc]; rfl) (by rfl) (by rfl) rfl
  case pauseStop =>
    cases h
    exact .raise (by rw [hpc]; rfl) (by rfl) rfl
  all_goals
    try simp only [Task.nanosleep, forLoop] at h
    repeat' split at h
    all_goals cases h
    all_goals exact .silent (by simp [hpc, OpPc.stage]) (.of_eq rfl rfl rfl) (by rfl) rfl

/-- Nobody writes another operator's pauses. -/
theorem PauseMove.other (h : PauseMove w l g l' g') {v : Fin c.nofWorkers} (hv : v ≠ w) :
    (g'.workers v).pausesTaken = (g.workers v).pausesTaken ∧
      (g'.workers v).pausesToday = (g.workers v).pausesToday := by
  cases h with
  | stay _ hp | enter _ _ hp | leave _ _ hp | finish _ _ hp => exact ⟨hp.taken v, hp.today v⟩
  | choose _ _ _ _ hg | raise _ _ hg => subst hg; exact ⟨rfl, rfl⟩
  | count _ _ _ hg => subst hg; simp [Shared.countPause, hv]
  | total _ _ _ hg => subst hg; exact ⟨rfl, rfl⟩

/-- The pauses of one operator: `due` says that it has not finished the day yet and that its entry
    has been reset for the day. -/
structure PausesKept (x : Stage) (info : WorkerInfo c.nofWorkerSeats) (due : Prop) : Prop where
  bound : (info.pausesTaken : ℤ) ≤ max 0 c.nofPause
  allowed : x = .deciding → (info.pausesTaken : ℤ) < c.nofPause
  le_one : info.pausesToday ≤ 1
  fresh : due → x = .away ∨ x = .working ∨ x = .deciding → info.pausesToday = 0
  taken : x = .counted ∨ x = .totalled → 0 < info.pausesToday

theorem PausesKept.congr {x : Stage} {info info' : WorkerInfo c.nofWorkerSeats} {due due' : Prop}
    (h : PausesKept x info due) (ht : info'.pausesTaken = info.pausesTaken)
    (hd : info'.pausesToday = info.pausesToday) (hdue : due' → due) : PausesKept x info' due' :=
  ⟨ht ▸ h.bound, ht ▸ h.allowed, hd ▸ h.le_one, fun hd' hx => hd ▸ h.fresh (hdue hd') hx,
    hd ▸ h.taken⟩

/-- An operator takes a pause only when it has none today and may have one more. -/
theorem PauseMove.kept (h : PauseMove w l g l' g') {due due' : Prop}
    (hI : PausesKept l.pc.stage (g.workers w) due) (hdue : l.pc.stage = .deciding → due)
    (hle : due' → due) (hover : l.pc.stage ≠ .away → l'.pc.stage = .away → ¬ due') :
    PausesKept l'.pc.stage (g'.workers w) due' := by
  obtain ⟨hbound, hallowed, hone, hfresh, htaken⟩ := hI
  cases h with
  | stay hs hp =>
    rw [hs]
    exact PausesKept.congr ⟨hbound, hallowed, hone, hfresh, htaken⟩ (hp.taken w) (hp.today w) hle
  | enter hs hs' hp =>
    refine PausesKept.congr ⟨hbound, by simp [hs'], hone, fun hd _ => ?_, by simp [hs']⟩
      (hp.taken w) (hp.today w) hle
    exact hfresh hd (.inl hs)
  | leave hs hs' hp =>
    exact PausesKept.congr ⟨hbound, by simp [hs'], hone, by simp [hs'], by simp [hs']⟩
      (hp.taken w) (hp.today w) hle
  | choose hs hs' hlt hf hg =>
    subst hg
    exact ⟨hbound, fun _ => hlt, hone, fun hd _ => hfresh (hle hd) (by simp [hs]), by simp [hs']⟩
  | count hs hs' hf hg =>
    subst hg
    have hzero := hfresh (hdue hs) (by simp [hs])
    have hlt := hallowed hs
    refine ⟨?_, by simp [hs'], ?_, by simp [hs'], fun _ => ?_⟩ <;>
      simp only [Shared.countPause, Shared.setWorker_workers, Function.update_self]
    · push_cast
      omega
    · omega
    · omega
  | total hs hs' hf hg =>
    subst hg
    exact ⟨hbound, by simp [hs'], hone, by simp [hs'], fun _ => htaken (.inl hs)⟩
  | raise hs hs' hg =>
    subst hg
    exact ⟨hbound, by simp [hs'], hone, by simp [hs'], by simp [hs']⟩
  | finish hs hs' hp =>
    have hkept : PausesKept l'.pc.stage (g.workers w) due' :=
      ⟨hbound, by simp [hs'], hone, fun hd => absurd hd (hover (by simp [hs]) hs'), by simp [hs']⟩
    exact hkept.congr (hp.taken w) (hp.today w) id

/-- A total `T` follows a sum `S` of the entries: an operator between its two counts lags by one. -/
theorem PauseMove.lags (h : PauseMove w l g l' g') {T S : Shared c → ℕ}
    (hsame : ∀ g', g.SamePauses g' → T g' = T g ∧ S g' = S g)
    (hcount : l.pc.stage = .deciding → T (g.countPause w) = T g ∧ S (g.countPause w) = S g + 1)
    (htotal : T (g.setStats g.stats.pause) = T g + 1 ∧ S (g.setStats g.stats.pause) = S g) :
    T g' + ind (l'.pc.stage = .counted) + S g = T g + ind (l.pc.stage = .counted) + S g' := by
  have hcounted : ind (Stage.counted = .counted) = 1 := ind_of rfl
  cases h with
  | stay hs hp =>
    obtain ⟨hT, hS⟩ := hsame g' hp
    rw [hT, hS, hs]
  | enter hs hs' hp | leave hs hs' hp | finish hs hs' hp =>
    obtain ⟨hT, hS⟩ := hsame g' hp
    rw [hT, hS, hs, hs', ind_of_not (by simp), ind_of_not (by simp)]
  | choose hs hs' hlt hf hg | raise hs hs' hg =>
    rw [hg, hs, hs', ind_of_not (by simp), ind_of_not (by simp)]
  | count hs hs' hf hg =>
    obtain ⟨hT, hS⟩ := hcount hs
    rw [hg, hT, hS, hs, hs', hcounted, ind_of_not (by simp)]
    omega
  | total hs hs' hf hg =>
    obtain ⟨hT, hS⟩ := htotal
    rw [hg, hT, hS, hs, hs', hcounted, ind_of_not (by simp)]

/-- Only the message to the director ends `run_day`. -/
theorem PauseMove.finished_of_away (h : PauseMove w l g l' g') (hx : l.pc.stage ≠ .away)
    (hx' : l'.pc.stage = .away) : g'.finished w = g.finished w + 1 := by
  cases h with
  | finish _ _ _ _ hd => exact hd
  | stay hs => exact absurd (hs.symm.trans hx') hx
  | enter _ hs' | leave _ hs' | choose _ hs' | count _ hs' | total _ hs' | raise _ hs' =>
    simp [hs'] at hx'

end Operator

/-- The dispenser counts no pauses. -/
theorem Dispenser.Move.samePauses {pc pc' : DispPc c.nofWorkerSeats} {f : DispFlags}
    {g g' : Shared c} (h : Dispenser.Move pc f g pc' g') : g.SamePauses g' := by
  cases h <;> exact .of_eq rfl rfl rfl

/-! ### The two resets -/

namespace DirPc

variable {seats workers users : ℕ}

/-- The entry of operator `w` still has the pauses of the day before. -/
def unreset : DirPc seats workers users → Fin workers → Bool
  | .resetLock, _ | .resetStats, _ | .resetUnlock, _ => true
  | .resetWorker i, w => i ≤ w
  | _, _ => false

/-- The same, and the day's total has been reset. -/
def stale : DirPc seats workers users → Fin workers → Bool
  | .resetUnlock, _ => true
  | .resetWorker i, w => i ≤ w
  | _, _ => false

theorem preStart_of_unreset {pc : DirPc seats workers users} {w : Fin workers}
    (h : pc.unreset w = true) : pc.preStart w = true := by
  cases pc <;> first | rfl | exact Bool.noConfusion h

theorem unreset_of_stale {pc : DirPc seats workers users} {w : Fin workers}
    (h : pc.stale w = true) : pc.unreset w = true := by
  cases pc <;> first | rfl | exact h

/-- An operator that has been started has been reset. -/
theorem reset_of_started {pc : DirPc seats workers users} {w : Fin workers}
    (h : pc.preStart w = false) : pc.unreset w = false ∧ pc.stale w = false := by
  have hunreset : pc.unreset w = false := Bool.eq_false_iff.mpr fun hw =>
    Bool.false_ne_true (h.symm.trans (preStart_of_unreset hw))
  exact ⟨hunreset, Bool.eq_false_iff.mpr fun hw =>
    Bool.false_ne_true (hunreset.symm.trans (unreset_of_stale hw))⟩

end DirPc

namespace Director

variable {pc pc' : DirPc c.nofWorkerSeats c.nofWorkers c.nofUsers} {v v' : DirVars}
  {g g' : Shared c}

/-- The director leaves the pauses of the whole simulation alone. -/
theorem Move.pausesTaken (h : Move pc v g pc' v' g') :
    (∀ w, (g'.workers w).pausesTaken = (g.workers w).pausesTaken) ∧
      g'.stats.totalPauseTotal = g.stats.totalPauseTotal := by
  cases h
  case resetWorkerNext | resetWorkerLast =>
    exact ⟨Family.update_of_eq WorkerInfo.pausesTaken (by rfl), rfl⟩
  all_goals exact ⟨fun _ => rfl, rfl⟩

/-- An entry is written before its operator is started, and only to be reset. -/
theorem Move.pausesToday (h : Move pc v g pc' v' g') (w : Fin c.nofWorkers) :
    (g'.workers w).pausesToday = (g.workers w).pausesToday ∨
      (g'.workers w).pausesToday = 0 ∧ pc.preStart w = true := by
  cases h
  case resetWorkerNext | resetWorkerLast =>
    rw [Shared.setWorker_workers, Function.update_apply]
    split
    · exact .inr ⟨rfl, rfl⟩
    · exact .inl rfl
  all_goals exact .inl rfl

/-- After the resets an entry counts the pauses of the current day. -/
theorem Move.unreset (h : Move pc v g pc' v' g') {w : Fin c.nofWorkers}
    (hw : pc'.unreset w = false) : g'.currentDay = g.currentDay ∧
      (pc.unreset w = false ∨ (g'.workers w).pausesToday = 0) := by
  cases h
  case resetWorkerNext i hi | resetWorkerLast i hi =>
    refine ⟨rfl, ?_⟩
    rw [Shared.setWorker_workers, Function.update_apply]
    split
    · exact .inr rfl
    · left
      simp only [DirPc.unreset, decide_eq_false_iff_not, Fin.le_def] at hw ⊢
      omega
  all_goals first
    | exact absurd hw (Bool.false_ne_true ∘ Eq.symm)
    | exact ⟨rfl, .inl hw⟩

/-- The day's total is reset when no entry counts any more; the entries follow one by one. -/
theorem Move.dayPauses (h : Move pc v g pc' v' g') :
    (g'.stats.dayPauseTotal = g.stats.dayPauseTotal ∧
      g'.pausesToday pc'.stale = g.pausesToday pc.stale) ∨
    (pc = .resetStats ∧ g'.stats.dayPauseTotal = 0 ∧ g'.pausesToday pc'.stale = 0) := by
  cases h
  case resetStats => exact .inr ⟨rfl, rfl, Family.total_eq_zero fun _ => rfl⟩
  case resetWorkerNext i hi | resetWorkerLast i hi =>
    refine .inl ⟨rfl, Family.total_congr fun w => ?_⟩
    by_cases hw : w = i
    · subst hw
      simp [DirPc.stale]
    · have hne : (w : ℕ) ≠ i := fun h => hw (Fin.ext h)
      simp only [Shared.setWorker_workers, Function.update_of_ne hw, DirPc.stale, Fin.le_def,
        decide_eq_true_eq, Bool.false_eq_true, if_false]
      repeat' split
      all_goals omega
  all_goals exact .inl ⟨rfl, rfl⟩

end Director

/-! ### The invariant -/

namespace State

/-- How far each operator is. -/
def stage (s : State c) (w : Fin c.nofWorkers) : Stage := (s.operators w).pc.stage

/-- The operators whose pause stands in their entry and not in the totals. -/
def uncountedPauses (s : State c) : ℕ := Family.total (fun _ x => ind (x = .counted)) s.stage

/-- The operator has not finished the day, and its entry has been reset for it. -/
def PauseDue (s : State c) (w : Fin c.nofWorkers) : Prop :=
  s.director.pc.unreset w = false ∧ s.g.finished w < s.g.currentDay

/-- The books of the pauses. -/
structure Pauses (s : State c) : Prop where
  kept : ∀ w, Operator.PausesKept (s.stage w) (s.g.workers w) (s.PauseDue w)
  total : s.g.stats.totalPauseTotal + s.uncountedPauses = s.g.pausesTaken
  day : s.g.stats.dayPauseTotal + s.uncountedPauses = s.g.pausesToday s.director.pc.stale

theorem stage_setOperator (s : State c) (w : Fin c.nofWorkers) (x : Operator c × Shared c) :
    (s.setOperator w x).stage = Function.update s.stage w x.1.pc.stage := by
  funext v
  by_cases h : v = w
  · subst h
    simp [stage]
  · simp [stage, h]

@[simp] theorem stage_deliverTo (s : State c) (sigs : List Signal) (p : c.Proc) :
    (s.deliverTo sigs p).stage = s.stage := by
  funext w
  simp [stage]

variable {s s' : State c}

/-- Inside `run_day` the operator owes the day. -/
theorem Barrier.owes (hB : s.Barrier) {w : Fin c.nofWorkers} (h : s.stage w ≠ .away) :
    s.director.pc.preStart w = false ∧ s.g.finished w + 1 = s.g.currentDay := by
  have hrun : (s.view w).inRun = true := (OpPc.inRun_iff _ _).mpr h
  have hlive := hB.live_of_inRun hrun
  have hpre : s.director.pc.preStart w = false := by
    simp only [DirPc.live, Bool.and_eq_true, Bool.not_eq_true'] at hlive
    exact hlive.2
  refine ⟨hpre, ?_⟩
  have haccount := hB.account w
  have hle := hB.owed_le w
  have hdebt : ind ((s.view w).busy = true) = 1 := ind_of (OpPc.busy_of_inRun hrun)
  have howed : ind ((s.view w).busy = true) ≤ s.owed w := by
    unfold owed Operator.debt
    exact (Nat.le_add_left _ _).trans (Nat.le_add_left _ _)
  rw [hpre] at haccount
  have := hle.trans (ind_le_one _)
  simp only [Bool.false_eq_true, ind_of_not, not_false_eq_true] at haccount
  omega

theorem Barrier.away (hB : s.Barrier) {w : Fin c.nofWorkers}
    (h : s.director.pc.live w = false) : s.stage w = .away := by
  by_contra hne
  exact Bool.false_ne_true ((hB.not_inRun h).symm.trans ((OpPc.inRun_iff _ _).mpr hne))

theorem Barrier.uncountedPauses (hB : s.Barrier) (h : ∀ w, s.director.pc.live w = false) :
    s.uncountedPauses = 0 :=
  Family.total_eq_zero fun w => ind_of_not (by rw [hB.away (h w)]; simp)

namespace Pauses

theorem step_director {l' : Director c} {g' : Shared c} (hB : s.Barrier) (hI : s.Pauses)
    (h : Director.Move s.director.pc s.director.vars s.g l'.pc l'.vars g') :
    (s.setDirector (l', g')).Pauses := by
  obtain ⟨htaken, htotal⟩ := h.pausesTaken
  refine ⟨fun w => ?_, ?_, ?_⟩
  · obtain ⟨hbound, hallowed, hone, hfresh, hcounted⟩ := hI.kept w
    have hfin : g'.finished w = s.g.finished w := h.logs.finished_eq (by simp)
    have haway (hpre : s.director.pc.preStart w = true) : s.stage w = .away :=
      hB.away (by simp [DirPc.live, hpre])
    have htoday := h.pausesToday w
    refine ⟨htaken w ▸ hbound, htaken w ▸ hallowed, ?_, fun hdue hx => ?_, fun hx => ?_⟩
    · rcases htoday with h0 | ⟨h0, -⟩ <;> simp only [setDirector_g, h0] <;> omega
    · obtain ⟨hunreset, hlt⟩ := hdue
      obtain ⟨hcur, hold⟩ := h.unreset hunreset
      rcases htoday with h0 | ⟨h0, -⟩
      · rcases hold with hold | hold
        · refine h0.trans (hfresh ⟨hold, ?_⟩ hx)
          simpa only [setDirector_g, hfin, hcur] using hlt
        · exact hold
      · exact h0
    · rcases htoday with h0 | ⟨-, hpre⟩
      · exact h0 ▸ hcounted hx
      · have hx' : s.stage w = .counted ∨ s.stage w = .totalled := hx
        simp [haway hpre] at hx'
  · have : g'.pausesTaken = s.g.pausesTaken := Family.total_congr htaken
    exact (congrArg (· + s.uncountedPauses) htotal).trans (hI.total.trans this.symm)
  · rcases h.dayPauses with ⟨hday, hsum⟩ | ⟨hpc, hday, hsum⟩
    · exact (congrArg (· + s.uncountedPauses) hday).trans (hI.day.trans hsum.symm)
    · have hzero := hB.uncountedPauses fun w => by rw [hpc]; rfl
      show g'.stats.dayPauseTotal + s.uncountedPauses = g'.pausesToday l'.pc.stale
      rw [hday, hsum, hzero]

theorem step_operator {l' : Operator c} {g' : Shared c} {w : Fin c.nofWorkers} {n : ℕ}
    (hB : s.Barrier) (hI : s.Pauses)
    (hstep : Operator.step w (s.operators w) s.g n = some (l', g')) :
    (s.setOperator w (l', g')).Pauses := by
  have h := Operator.step_pauseMove hstep
  have hframe := (Operator.step_move hstep).frame
  have hlogs := (Operator.step_move hstep).logs
  have hcur : g'.currentDay = s.g.currentDay := by rw [hframe]
  have hdue (hx : s.stage w ≠ .away) : s.PauseDue w := by
    obtain ⟨hpre, hfin⟩ := hB.owes hx
    exact ⟨(DirPc.reset_of_started hpre).1, by omega⟩
  have hfresh (hx : s.stage w = .deciding) : s.director.pc.stale w = false :=
    (DirPc.reset_of_started (hB.owes (by simp [hx])).1).2
  have hcount := Family.total_update (fun _ x => ind (x = .counted)) s.stage w l'.pc.stage
  have htotal := h.lags (T := fun g => g.stats.totalPauseTotal) (S := Shared.pausesTaken)
    (fun _ hp => ⟨hp.total, hp.pausesTaken_eq⟩)
    (fun _ => ⟨rfl, s.g.pausesTaken_countPause w⟩) ⟨rfl, rfl⟩
  have hday := h.lags (T := fun g => g.stats.dayPauseTotal)
    (S := fun g => g.pausesToday s.director.pc.stale)
    (fun _ hp => ⟨hp.dayTotal, hp.pausesToday_eq _⟩)
    (fun hx => ⟨rfl, s.g.pausesToday_countPause (hfresh hx)⟩) ⟨rfl, rfl⟩
  have hstage : (s.operators w).pc.stage = s.stage w := rfl
  rw [hstage] at htotal hday
  refine ⟨fun v => ?_, ?_, ?_⟩
  · by_cases hv : v = w
    · subst hv
      rw [stage_setOperator, Function.update_self]
      refine h.kept (hI.kept v) (fun hx => hdue (by simp [stage, hx])) ?_ ?_
      · rintro ⟨hunreset, hlt⟩
        refine ⟨hunreset, ?_⟩
        have := hlogs.countP_le (Event.isDayFinished v)
        simp only [setOperator_g, hcur, Shared.finished] at hlt ⊢
        omega
      · rintro hx hx' ⟨-, hlt⟩
        have hfin := (hB.owes hx).2
        have hfin' := h.finished_of_away hx hx'
        simp only [setOperator_g, hcur] at hlt
        omega
    · rw [stage_setOperator, Function.update_of_ne hv]
      obtain ⟨ht, hd⟩ := h.other hv
      refine (hI.kept v).congr ht hd ?_
      have hfin : g'.finished v = s.g.finished v := hlogs.finished_eq (by simpa using Ne.symm hv)
      rintro ⟨hunreset, hlt⟩
      refine ⟨hunreset, ?_⟩
      simpa only [setOperator_g, hfin, hcur] using hlt
  · have := hI.total
    simp only [uncountedPauses, stage_setOperator, setOperator_g] at this hcount ⊢
    omega
  · have := hI.day
    simp only [uncountedPauses, stage_setOperator, setOperator_g, setOperator_director]
      at this hcount ⊢
    omega

/-- Who leaves the director, the operators and what the books are kept of alone. -/
theorem congr (hI : s.Pauses) (hdir : s'.director.pc = s.director.pc) (hstage : s'.stage = s.stage)
    (hp : s.g.SamePauses s'.g) (hcur : s'.g.currentDay = s.g.currentDay)
    (hfin : ∀ w, s'.g.finished w = s.g.finished w) : s'.Pauses := by
  refine ⟨fun w => ?_, ?_, ?_⟩
  · rw [hstage]
    refine (hI.kept w).congr (hp.taken w) (hp.today w) ?_
    unfold PauseDue
    rw [hdir, hcur, hfin]
    exact id
  · unfold uncountedPauses
    rw [hstage, hp.total, hp.pausesTaken_eq]
    exact hI.total
  · unfold uncountedPauses
    rw [hstage, hp.dayTotal, hdir, hp.pausesToday_eq]
    exact hI.day

theorem step (hB : s.Barrier) (hI : s.Pauses) (h : s.Move s') : s'.Pauses := by
  cases h with
  | director hm => exact hI.step_director hB hm
  | operator w hstep hm => exact hI.step_operator hB hstep
  | dispenser hm hf =>
    refine hI.congr rfl rfl ?_ ?_ fun w => hm.logs.finished_eq (by simp)
    · exact hm.samePauses
    · rw [hm.frame]
      rfl
  | user u hm hf =>
    refine hI.congr rfl rfl ?_ ?_ fun w => hm.logs.finished_eq (by simp)
    · rw [hm.frame]
      exact .of_eq rfl rfl rfl
    · rw [hm.frame]
      rfl
  | deliver p sigs hp =>
    refine hI.congr (by simp) (by simp) ?_ (by simp) fun w => by simp [Shared.finished]
    rw [deliverTo_g]
    exact .of_eq rfl rfl rfl
  | interrupt sig hsig => exact hI.congr rfl rfl (.of_eq rfl rfl rfl) rfl fun w => rfl
  | tick ns => exact hI.congr rfl rfl (.of_eq rfl rfl rfl) rfl fun w => rfl

theorem init : (State.init c).Pauses := by
  have hstage : (State.init c).uncountedPauses = 0 := Family.total_eq_zero fun _ => rfl
  have htaken : (State.init c).g.pausesTaken = 0 := Family.total_eq_zero fun _ => rfl
  have htoday (stale) : (State.init c).g.pausesToday stale = 0 :=
    Family.total_eq_zero fun w => by simp [State.init, Shared.init]
  refine ⟨fun w => ⟨le_max_left _ _, nofun, Nat.zero_le _, fun _ _ => rfl, ?_⟩, ?_, ?_⟩
  · rintro (h | h) <;> cases h
  · rw [hstage, htaken]
    rfl
  · rw [hstage, htoday]
    rfl

end Pauses

end State

theorem pauses {s : State c} (h : Reachable s) : s.Pauses :=
  h.invariant .init fun _ _ hr hI hm => hI.step (barrier hr) hm

/-! ### The rest of the day -/

theorem Logs.work_eq {p : c.Proc} {g g' : Shared c} (h : Logs p g g') {w : Fin c.nofWorkers}
    (hp : p ≠ .operator w) : g'.work w = g.work w := by
  obtain ⟨es, hes, hact⟩ := h
  have hnone : es.filter (Event.isWork w) = [] := by
    refine List.filter_eq_nil_iff.mpr fun e he hw => hp ?_
    rw [← hact e he]
    cases e with
    | popped v | poppedEmpty v | served v =>
      exact congrArg Proc.operator (of_decide_eq_true hw)
    | replied q => exact of_decide_eq_true hw
    | _ => cases hw
  rw [Shared.work, hes, List.filter_append, hnone, List.append_nil]
  rfl

namespace State

/-- Since `r` operator `w` has not worked on the day of `r`: it is past the decision to pause or
    has finished the day. -/
def RestsSince (r : State c) (w : Fin c.nofWorkers) (s : State c) : Prop :=
  r.g.currentDay ≤ s.g.currentDay ∧
    (s.g.currentDay = r.g.currentDay → s.g.work w = r.g.work w ∧
      (s.stage w ≠ .away ∧ s.stage w ≠ .working ∨ s.g.finished w = s.g.currentDay))

namespace RestsSince

variable {r s s' : State c} {w : Fin c.nofWorkers}

/-- Who leaves the operator and what it has recorded alone. -/
theorem congr (hI : RestsSince r w s) (hstage : s'.stage w = s.stage w)
    (hcur : s'.g.currentDay = s.g.currentDay) (hwork : s'.g.work w = s.g.work w)
    (hfin : s'.g.finished w = s.g.finished w) : RestsSince r w s' := by
  unfold RestsSince
  rw [hcur, hwork, hstage, hfin]
  exact hI

theorem step_operator {l' : Operator c} {g' : Shared c} {n : ℕ} (hB : s.Barrier)
    (hI : RestsSince r w s) (hB' : (s.setOperator w (l', g')).Barrier)
    (hstep : Operator.step w (s.operators w) s.g n = some (l', g')) :
    RestsSince r w (s.setOperator w (l', g')) := by
  have hcur : g'.currentDay = s.g.currentDay := by rw [(Operator.step_move hstep).frame]
  have hstage : (s.setOperator w (l', g')).stage w = l'.pc.stage := by simp [stage]
  obtain ⟨hle, hrest⟩ := hI
  refine ⟨hcur ▸ hle, fun hday => ?_⟩
  obtain ⟨hwork, hwhere⟩ := hrest (hcur ▸ hday)
  -- an operator that has finished the day is away
  have haway (hfin : s.g.finished w = s.g.currentDay) : s.stage w = .away := by
    by_contra hne
    have := (hB.owes hne).2
    omega
  have howes := hB.owes (w := w)
  have howes' := hB'.owes (w := w)
  rw [hstage] at howes' ⊢
  simp only [setOperator_g, setOperator_director, hcur] at howes' ⊢
  cases Operator.step_pauseMove hstep with
  | stay hs hp hf hw hd =>
    rw [hs, hd]
    refine ⟨?_, hwhere⟩
    rcases hw with hw | hw
    · rcases hwhere with ⟨-, hne⟩ | hfin
      · exact absurd hw hne
      · exact absurd (hw.symm.trans (haway hfin)) (by simp)
    · exact hw.trans hwork
  | enter hs hs' hp hf hw hd =>
    rcases hwhere with ⟨hne, -⟩ | hfin
    · exact absurd hs hne
    · have := (howes' (by simp [hs'])).2
      omega
  | leave hs hs' | choose hs hs' =>
    rcases hwhere with ⟨-, hne⟩ | hfin
    · exact absurd hs hne
    · exact absurd (hs.symm.trans (haway hfin)) (by simp)
  | count hs hs' hf hg | total hs hs' hf hg | raise hs hs' hg =>
    subst hg
    exact ⟨hwork, .inl (by simp [hs'])⟩
  | finish hs hs' hp hw hd =>
    have := (howes (by simp [stage, hs])).2
    exact ⟨hw.trans hwork, .inr (by omega)⟩

theorem step (hB : s.Barrier) (hB' : s'.Barrier) (hI : RestsSince r w s) (h : s.Move s') :
    RestsSince r w s' := by
  cases h with
  | director hm =>
    rcases hm.currentDay with hcur | ⟨hpc, hcur⟩
    · exact hI.congr rfl hcur (hm.logs.work_eq (by simp)) (hm.logs.finished_eq (by simp))
    · -- a new day
      have hday := hB.day (by rw [hpc]; rfl)
      rw [hpc, ind_of (by rfl)] at hday
      have hle := hI.1
      refine ⟨?_, fun h => ?_⟩ <;> simp only [setDirector_g] at * <;> omega
  | dispenser hm hf =>
    exact hI.congr rfl (by rw [hm.frame]; rfl) (hm.logs.work_eq (by simp))
      (hm.logs.finished_eq (by simp))
  | user u hm hf =>
    exact hI.congr rfl (by rw [hm.frame]; rfl) (hm.logs.work_eq (by simp))
      (hm.logs.finished_eq (by simp))
  | @operator n l' g' v hstep hm =>
    by_cases hv : w = v
    · subst hv
      exact hI.step_operator hB hB' hstep
    · have hne : Proc.operator v ≠ (Proc.operator w : c.Proc) := by simpa using Ne.symm hv
      refine hI.congr ?_ (by rw [hm.frame]; rfl) (hm.logs.work_eq hne) (hm.logs.finished_eq hne)
      rw [stage_setOperator, Function.update_of_ne hv]
  | deliver p sigs hp =>
    exact hI.congr (by simp) (by simp) (by simp [Shared.work]) (by simp [Shared.finished])
  | interrupt sig hsig => exact hI.congr rfl rfl rfl rfl
  | tick ns => exact hI.congr rfl rfl rfl rfl

end RestsSince

end State

/-- CORRECT: pauses are accounted for. Each time `wait_for_workers_day_end` returns, no operator has
    more than one pause on the day or more than `NOF_PAUSE` in all, the day's total is the sum of
    the pauses of the day and the simulation's total the sum of all pauses; and an operator that has
    decided to pause on the day has popped, served and answered nothing since. -/
theorem pause_accounting {s : State c} (h : Reachable s) (hpc : s.director.pc = .countInit) :
    (∀ w, (s.g.workers w).pausesToday ≤ 1 ∧
      ((s.g.workers w).pausesTaken : ℤ) ≤ max 0 c.nofPause) ∧
    s.g.stats.dayPauseTotal = ∑ w, (s.g.workers w).pausesToday ∧
    s.g.stats.totalPauseTotal = ∑ w, (s.g.workers w).pausesTaken ∧
    ∀ (r : State c) (w : Fin c.nofWorkers) (k : Fin c.nofWorkerSeats), Reachable r →
      Reach step r s → r.g.currentDay = s.g.currentDay → (r.operators w).pc = .pauseCount k →
        s.g.work w = r.g.work w := by
  have hP := pauses h
  have hzero := (barrier h).uncountedPauses fun w => by rw [hpc]; rfl
  refine ⟨fun w => ⟨(hP.kept w).le_one, (hP.kept w).bound⟩, ?_, ?_, ?_⟩
  · have hday := hP.day
    rw [hzero, hpc] at hday
    exact hday
  · have htotal := hP.total
    rw [hzero] at htotal
    exact htotal
  · intro r w k hr hrun hcur hpause
    have h0 : State.RestsSince r w r := ⟨le_rfl, fun _ => ⟨rfl, .inl (by
      rw [State.stage, hpause]
      simp [OpPc.stage])⟩⟩
    have hrest := hr.since h0 (fun t t' ht hI hm =>
      hI.step (barrier ht) ((barrier ht).step (termination ht) hm) hm) hrun
    exact (hrest.2 hcur.symm).1

/-- The operator has served the user and decides to take its pause. -/
def SmallOffice.pausing : List (Act smallOffice) := serving ++ own clerk 6

/-- It pauses for the rest of the day, and the day ends. -/
def SmallOffice.paused : List (Act smallOffice) := own clerk 10 ++ own .director 8

/-- One pause, in all four figures, and nothing more from the operator. -/
theorem pause_accounting_small : ∃ r s : State smallOffice,
    exec step SmallOffice.pausing (State.init smallOffice) = some r ∧
      exec step SmallOffice.paused r = some s ∧ s.director.pc = .countInit ∧
      s.g.stats.dayPauseTotal = 1 ∧ ∑ w, (s.g.workers w).pausesToday = 1 ∧
      ∑ w, (s.g.workers w).pausesTaken = 1 ∧ s.g.work (0 : Fin 1) = r.g.work (0 : Fin 1) := by
  have hrun : ((exec step SmallOffice.pausing (State.init smallOffice)).any fun r =>
      decide ((r.operators (0 : Fin 1)).pc = .pauseCount (0 : Fin 1) ∧ r.g.currentDay = 1) &&
        (exec step SmallOffice.paused r).any fun s => decide (s.director.pc = .countInit ∧
          s.g.currentDay = 1 ∧ s.g.stats.dayPauseTotal = 1 ∧ s.g.stats.totalPauseTotal = 1)) =
      true := by decide +kernel
  obtain ⟨r, hr, h⟩ := (Option.any_eq_true _ _).mp hrun
  obtain ⟨hpause, h⟩ := Bool.and_eq_true_iff.mp h
  obtain ⟨hpause, hday⟩ := of_decide_eq_true hpause
  obtain ⟨s, hs, h⟩ := (Option.any_eq_true _ _).mp h
  obtain ⟨hpc, hday', htoday, htotal⟩ := of_decide_eq_true h
  have hreach := reach_of_exec _ hr
  have hlater := reach_of_exec _ hs
  obtain ⟨-, hsum, hsum', hrest⟩ := pause_accounting (hreach.trans hlater) hpc
  exact ⟨r, s, hr, hs, hpc, htoday, hsum ▸ htoday, hsum' ▸ htotal,
    hrest r _ _ hreach hlater (hday.trans hday'.symm) hpause⟩

end PostOffice
