import PostOffice.Discipline
import PostOffice.Footprint

/-! Data races. Two processes race for a datum when the next step of one writes it and the next step
    of the other reads or writes it: nothing orders the two.

        stats, counters, queues     inside their mutex
        worker entries              the operator inside run_day, the director outside the day
        queue reset                 after the flush, which has closed the dispenser's window
        CURRENT_DAY, cause          the director alone
        DAY_ACTIVE, offered today   without a lock

    Since the programs race for nothing else, the grain of the model loses no interleaving: a step
    that reads or writes several data is as good as one step for each. -/

namespace PostOffice

open Transition

variable {c : Setup}

namespace State

variable (s : State c)

/-- The next step of `p` may write the datum: from some value of it, it ends with another one. -/
def Writes (p : c.Proc) (d : Datum c) : Prop :=
  ∃ h n s', step (s.setG (d.copy h s.g)) (.own p n) = some s' ∧ d.copy s'.g ≠ d.copy h

/-- The next step of `p` may read the datum: what it leaves behind apart from it depends on it. -/
def Reads (p : c.Proc) (d : Datum c) : Prop :=
  ∃ h n, (step (s.setG (d.copy h s.g)) (.own p n)).map (fun t => t.setG (d.copy h t.g)) ≠
    (step s (.own p n)).map fun t => t.setG (d.copy h t.g)

/-- The statement of `p` is listed as one that writes the datum. -/
def listedWrite : c.Proc → Datum c → Prop
  | .director, d => s.director.pc.writes d
  | .dispenser, d => s.dispenser.pc.writes d
  | .operator w, d => (s.operators w).pc.writes w d
  | .user _, _ => False

/-- The statement of `p` is listed as one that reads the datum. -/
def listedRead : c.Proc → Datum c → Prop
  | .director, d => s.director.pc.reads d
  | .dispenser, d => s.dispenser.pc.reads d
  | .operator w, d => (s.operators w).pc.reads w d
  | .user u, d => (s.users u).pc.reads d

variable {s} {p p' : c.Proc} {d : Datum c}

/-- Every write is listed. -/
theorem Writes.listed (h : s.Writes p d) : s.listedWrite p d := by
  by_contra hw
  obtain ⟨k, n, s', hs, hne⟩ := h
  refine hne ?_
  cases p with
  | director =>
    obtain ⟨⟨l', g'⟩, hx, rfl⟩ := Option.map_eq_some_iff.mp hs
    exact ((Director.step_move hx).kept hw).trans Datum.of_copy
  | dispenser =>
    obtain ⟨⟨l', g'⟩, hx, rfl⟩ := Option.map_eq_some_iff.mp hs
    exact ((Dispenser.step_move hx).1.kept hw).trans Datum.of_copy
  | operator w =>
    obtain ⟨⟨l', g'⟩, hx, rfl⟩ := Option.map_eq_some_iff.mp hs
    unfold Operator.step at hx
    split at hx
    · cases hx
    · exact (Operator.body_kept hx hw).trans Datum.of_copy
  | user u =>
    obtain ⟨⟨l', g'⟩, hx, rfl⟩ := Option.map_eq_some_iff.mp hs
    exact (User.step_move hx).1.kept.trans Datum.of_copy

theorem exited_setG (g : Shared c) : (s.setG g).exited = s.exited := by
  funext p
  cases p <;> rfl

/-- A datum of the system is one of the process that has stepped. -/
theorem map_after {P V : Type} (put : Task P V × Shared c → State c) (k : Shared c)
    (hput : ∀ x : Task P V × Shared c, (put x).setG (d.copy k (put x).g) = put (x.1, d.copy k x.2))
    (x : Option (Task P V × Shared c)) :
    (x.map put).map (fun t => t.setG (d.copy k t.g)) = (d.after k x).map put := by
  cases x with
  | none => rfl
  | some x => exact congrArg some (hput x)

/-- Every read is listed. -/
theorem Reads.listed (h : s.Reads p d) : s.listedRead p d ∨ s.listedWrite p d := by
  by_contra hlisted
  obtain ⟨hr, hw⟩ := not_or.mp hlisted
  obtain ⟨k, n, hne⟩ := h
  refine hne ?_
  cases p with
  | director =>
    have hstep : d.after k (Director.step s.director (d.copy k s.g) s.exited n) =
        d.after k (Director.step s.director s.g s.exited n) := by
      unfold Director.step
      split
      · rfl
      · exact Director.body_untouched hr hw
    have hput (x : Director c × Shared c) : (s.setDirector x).setG (d.copy k (s.setDirector x).g) =
        s.setDirector (x.1, d.copy k x.2) := rfl
    have hleft := map_after s.setDirector k hput
    rw [step, step, exited_setG]
    exact (hleft _).trans ((congrArg _ hstep).trans (hleft _).symm)
  | dispenser =>
    have hstep : d.after k (Dispenser.step s.dispenser (d.copy k s.g)) =
        d.after k (Dispenser.step s.dispenser s.g) := by
      unfold Dispenser.step
      split
      · rfl
      · exact Dispenser.body_untouched hr hw
    have hleft := map_after (d := d) s.setDispenser k fun _ => rfl
    exact (hleft _).trans ((congrArg _ hstep).trans (hleft _).symm)
  | operator w =>
    have hstep : d.after k (Operator.step w (s.operators w) (d.copy k s.g) n) =
        d.after k (Operator.step w (s.operators w) s.g n) := by
      unfold Operator.step
      split
      · rfl
      · exact Operator.body_untouched hr hw
    have hleft := map_after (d := d) (s.setOperator w) k fun _ => rfl
    exact (hleft _).trans ((congrArg _ hstep).trans (hleft _).symm)
  | user u =>
    have hstep : d.after k (User.step u (s.users u) (d.copy k s.g) n) =
        d.after k (User.step u (s.users u) s.g n) := by
      unfold User.step
      split
      · rfl
      · exact User.body_untouched hr
    have hleft := map_after (d := d) (s.setUser u) k fun _ => rfl
    exact (hleft _).trans ((congrArg _ hstep).trans (hleft _).symm)

end State

/-! ### What orders two accesses -/

/-- The mutex that guards the datum, where there is one. -/
def Datum.guard : Datum c → Option (Sem c.nofWorkerSeats)
  | .stats => some .stats
  | .counterService i | .counterPid i => some (.counterMutex i)
  | .queue q => some (.queueMutex q)
  | .currentDay | .dayActive | .terminationCause | .worker _ => none

section Guards

variable {d : Datum c} {σ : Sem c.nofWorkerSeats}

theorem Datum.isMutex_of_guard (h : d.guard = some σ) : σ.IsMutex := by
  cases d <;> simp only [guard, Option.some.injEq, reduceCtorEq] at h <;> subst h <;> trivial

/-- The director reaches a guarded datum inside the mutex, except in the reset of the queues and
    when it prints the services of the counters. -/
theorem DirPc.holds_guard {pc : DirPc c.nofWorkerSeats c.nofWorkers c.nofUsers}
    (hd : pc.reads d ∨ pc.writes d) (hg : d.guard = some σ) :
    pc.holds σ ∨ (∃ q, pc = .resetQueue q ∧ d = .queue q) ∨
      pc = .printDaily ∧ ∃ i, d = .counterService i := by
  cases pc with
  | countRead q =>
    obtain rfl : d = .queue q := hd.resolve_right id
    exact .inl (Option.some.inj hg).symm
  | flushTake q =>
    obtain rfl : d = .queue q := hd.resolve_left id
    exact .inl (Option.some.inj hg).symm
  | resetQueue q => exact .inr (.inl ⟨q, rfl, hd.resolve_left id⟩)
  | resetStats =>
    obtain rfl : d = .stats := hd.resolve_left id
    exact .inl (Option.some.inj hg).symm
  | flushStats q =>
    obtain rfl : d = .stats := hd.resolve_left id
    exact .inl (.inr (Option.some.inj hg).symm)
  | assignWrite i =>
    rcases hd.resolve_left id with rfl | rfl <;> exact .inl (Option.some.inj hg).symm
  | printDaily =>
    rcases hd.resolve_right id with rfl | hservice
    · exact .inl (Option.some.inj hg).symm
    · exact .inr (.inr ⟨rfl, hservice⟩)
  | finalPrint =>
    rcases hd.resolve_right id with rfl | rfl | rfl
    · exact .inl (Option.some.inj hg).symm
    · cases hg
    · cases hg
  | setDay | resetWorker | activate | deactivate | decide | setCause =>
    obtain rfl := hd.resolve_left id
    cases hg
  | dayEnd =>
    obtain rfl : d = .terminationCause := hd.resolve_right id
    cases hg
  | printActive =>
    obtain ⟨w, rfl⟩ := hd.resolve_right id
    cases hg
  | _ => exact (hd.elim id id).elim

theorem DispPc.lock_guard {pc : DispPc c.nofWorkerSeats} (hd : pc.reads d ∨ pc.writes d)
    (hg : d.guard = some σ) :
    pc.lock = some σ ∨ ∃ m q i, pc = .offered m q i ∧ d = .counterService i := by
  cases pc with
  | testActive | queueActive =>
    obtain rfl : d = .dayActive := hd.resolve_right id
    cases hg
  | offered m q i => exact .inr ⟨m, q, i, rfl, hd.resolve_right id⟩
  | queueFull m q =>
    obtain rfl : d = .queue q := hd.resolve_right id
    exact .inl hg
  | countStats m q | refuseStats m q =>
    obtain rfl : d = .stats := hd.resolve_left id
    exact .inl hg
  | push m q t =>
    obtain rfl : d = .queue q := hd.resolve_left id
    exact .inl hg
  | _ => exact (hd.elim id id).elim

theorem OpPc.lock_guard {w : Fin c.nofWorkers} {pc : OpPc c.nofWorkerSeats}
    (hd : pc.reads w d ∨ pc.writes w d) (hg : d.guard = some σ) :
    (pc.view (c.workerService w)).lock = some σ := by
  cases pc with
  | claimActive | tokenActive | loopActive | afterActive | pauseActive =>
    obtain rfl : d = .dayActive := hd.resolve_right id
    cases hg
  | pauseDraw =>
    obtain rfl : d = .worker w := hd.resolve_right id
    cases hg
  | pauseCount =>
    obtain rfl : d = .worker w := hd.resolve_left id
    cases hg
  | scanCheck i =>
    rcases hd with rfl | rfl | rfl
    · exact hg
    · exact hg
    · cases hg
  | releaseClear k =>
    rcases hd.resolve_left id with rfl | rfl
    · exact hg
    · cases hg
  | popTake k =>
    obtain rfl : d = .queue (c.workerService w) := hd.resolve_left id
    exact hg
  | serveStats | pauseStats =>
    obtain rfl : d = .stats := hd.resolve_left id
    exact hg
  | _ => exact (hd.elim id id).elim

/-- Outside the guarded data the dispenser reads `DAY_ACTIVE` only. -/
theorem DispPc.dayActive_of_unguarded {pc : DispPc c.nofWorkerSeats}
    (hd : pc.reads d ∨ pc.writes d) (hg : d.guard = none) : d = .dayActive ∧ ¬ pc.writes d := by
  cases pc with
  | testActive | queueActive => exact ⟨hd.resolve_right id, id⟩
  | offered | queueFull =>
    obtain rfl := hd.resolve_right id
    cases hg
  | countStats | refuseStats | push =>
    obtain rfl := hd.resolve_left id
    cases hg
  | _ => exact (hd.elim id id).elim

/-- Outside the guarded data an operator reads `DAY_ACTIVE` and has its own entry. -/
theorem OpPc.own_of_unguarded {w : Fin c.nofWorkers} {pc : OpPc c.nofWorkerSeats}
    (hd : pc.reads w d ∨ pc.writes w d) (hg : d.guard = none) :
    d = .dayActive ∧ ¬ pc.writes w d ∨ d = .worker w := by
  cases pc with
  | claimActive | tokenActive | loopActive | afterActive | pauseActive =>
    exact .inl ⟨hd.resolve_right id, id⟩
  | pauseDraw => exact .inr (hd.resolve_right id)
  | pauseCount => exact .inr (hd.resolve_left id)
  | scanCheck i =>
    rcases hd with rfl | rfl | rfl
    · cases hg
    · cases hg
    · exact .inr rfl
  | releaseClear k =>
    rcases hd.resolve_left id with rfl | rfl
    · cases hg
    · exact .inr rfl
  | popTake | serveStats | pauseStats =>
    obtain rfl := hd.resolve_left id
    cases hg
  | _ => exact (hd.elim id id).elim

/-- An operator has to do with the data inside `run_day` only. -/
theorem OpPc.inRun_of_listed {w : Fin c.nofWorkers} {pc : OpPc c.nofWorkerSeats}
    (hd : pc.reads w d ∨ pc.writes w d) : (pc.view (c.workerService w)).inRun = true := by
  cases pc <;> first | rfl | exact (hd.elim id id).elim

/-- The dispenser has to do with a queue inside its window only. -/
theorem DispPc.window_of_queue {pc : DispPc c.nofWorkerSeats} {q : Service}
    (hd : pc.reads (.queue q : Datum c) ∨ pc.writes (.queue q : Datum c)) : pc.window = some q := by
  cases pc <;> simp [reads, writes] at hd <;> simp [window, hd]

/-- The director has to do with the entry of an operator outside the day of that operator only. -/
theorem DirPc.not_live_of_worker {pc : DirPc c.nofWorkerSeats c.nofWorkers c.nofUsers}
    {w : Fin c.nofWorkers} (hd : pc.reads (.worker w : Datum c) ∨ pc.writes (.worker w : Datum c)) :
    pc.live w = false := by
  cases pc <;> simp [reads, writes] at hd <;> rfl

/-- Only the director draws services. -/
theorem OpPc.not_writes_service {w : Fin c.nofWorkers} {pc : OpPc c.nofWorkerSeats}
    (i : Fin c.nofWorkerSeats) : ¬ pc.writes w (.counterService i : Datum c) := by
  cases pc <;> simp [writes]

theorem DispPc.not_writes_service {pc : DispPc c.nofWorkerSeats} (i : Fin c.nofWorkerSeats) :
    ¬ pc.writes (.counterService i : Datum c) := by
  cases pc <;> simp [writes]

theorem DirPc.eq_assignWrite {pc : DirPc c.nofWorkerSeats c.nofWorkers c.nofUsers}
    {i : Fin c.nofWorkerSeats} (h : pc.writes (.counterService i : Datum c)) :
    pc = .assignWrite i := by
  cases pc <;> simp [writes] at h
  subst h
  rfl

end Guards

namespace State

variable {s : State c} {p p' : c.Proc} {d : Datum c} {σ : Sem c.nofWorkerSeats}

/-- Nobody shares a critical section. -/
theorem MutexesSound.unique (hM : s.MutexesSound) (hσ : σ.IsMutex) (hp : s.Inside σ p)
    (hp' : s.Inside σ p') : p = p' := by
  have hone := hM σ hσ
  unfold holders at hone
  have hdir (h : s.Inside σ .director) : ind (s.director.pc.holds σ) = 1 := ind_of h
  have hdisp (h : s.Inside σ .dispenser) : ind (s.dispenser.pc.lock = some σ) = 1 := ind_of h
  have hop {w : Fin c.nofWorkers} (h : s.Inside σ (.operator w)) :
      1 ≤ Family.total (fun _ v => ind (v.lock = some σ)) s.view :=
    (ind_of (show (s.view w).lock = some σ from h)).ge.trans
      (Family.le_total (fun _ v => ind (v.lock = some σ)) s.view w)
  cases p with
  | director =>
    have := hdir hp
    cases p' with
    | director => rfl
    | dispenser =>
      have := hdisp hp'
      omega
    | operator w =>
      have := hop hp'
      omega
    | user u => exact hp'.elim
  | dispenser =>
    have := hdisp hp
    cases p' with
    | director =>
      have := hdir hp'
      omega
    | dispenser => rfl
    | operator w =>
      have := hop hp'
      omega
    | user u => exact hp'.elim
  | operator v =>
    have := hop hp
    cases p' with
    | director =>
      have := hdir hp'
      omega
    | dispenser =>
      have := hdisp hp'
      omega
    | operator w =>
      by_contra hne
      have htwo := Family.add_le_total (fun _ v => ind (v.lock = some σ)) s.view
        (fun he => hne (congrArg Proc.operator he) : v ≠ w)
      rw [ind_of (show (s.view v).lock = some σ from hp),
        ind_of (show (s.view w).lock = some σ from hp')] at htwo
      omega
    | user u => exact hp'.elim
  | user u => exact hp.elim

/-- The statement of `p` is listed with the datum. -/
def listed (s : State c) (p : c.Proc) (d : Datum c) : Prop := s.listedRead p d ∨ s.listedWrite p d

/-- Who has to do with a datum without a guard. -/
theorem listed.unguarded (h : s.listed p d) (hg : d.guard = none) :
    p = .director ∨ d = .dayActive ∧ ¬ s.listedWrite p d ∨
      ∃ w, p = .operator w ∧ d = .worker w ∧ (s.view w).inRun = true := by
  cases p with
  | director => exact .inl rfl
  | dispenser => exact .inr (.inl (DispPc.dayActive_of_unguarded h hg))
  | operator w =>
    rcases OpPc.own_of_unguarded h hg with hday | hown
    · exact .inr (.inl hday)
    · exact .inr (.inr ⟨w, rfl, hown, OpPc.inRun_of_listed h⟩)
  | user u =>
    refine .inr (.inl ⟨?_, id⟩)
    have hr : (s.users u).pc.reads d := h.resolve_right id
    cases hpc : (s.users u).pc <;> rw [hpc] at hr <;> first | exact hr | exact hr.elim

/-- Who has to do with a guarded datum is inside the mutex, with three exceptions. -/
theorem listed.guarded (h : s.listed p d) (hg : d.guard = some σ) :
    s.Inside σ p ∨ (p = .director ∧ ∃ q, s.director.pc = .resetQueue q ∧ d = .queue q) ∨
      ∃ i, d = .counterService i ∧ (p = .director ∧ s.director.pc = .printDaily ∨
        p = .dispenser ∧ ∃ m q, s.dispenser.pc = .offered m q i) := by
  cases p with
  | director =>
    rcases DirPc.holds_guard h hg with hin | hreset | ⟨hpc, i, hd⟩
    · exact .inl hin
    · exact .inr (.inl ⟨rfl, hreset⟩)
    · exact .inr (.inr ⟨i, hd, .inl ⟨rfl, hpc⟩⟩)
  | dispenser =>
    rcases DispPc.lock_guard h hg with hin | ⟨m, q, i, hpc, hd⟩
    · exact .inl hin
    · exact .inr (.inr ⟨i, hd, .inr ⟨rfl, m, q, hpc⟩⟩)
  | operator w => exact .inl (OpPc.lock_guard h hg)
  | user u =>
    have hr : (s.users u).pc.reads d := h.resolve_right id
    cases hpc : (s.users u).pc <;> rw [hpc] at hr
    case wakeActive | goActive =>
      obtain rfl := hr
      cases hg
    all_goals exact hr.elim

/-- The director and an operator do not meet at a datum: the operator is inside `run_day`, the
    director outside the day. -/
theorem Barrier.apart (hB : s.Barrier) {w : Fin c.nofWorkers} (hrun : (s.view w).inRun = true)
    (hpc : s.director.pc.live w = false) : False :=
  Bool.false_ne_true ((hB.not_inRun hpc).symm.trans hrun)

/-- Nobody else has to do with a queue that the director resets. -/
theorem reset_alone (hB : s.Barrier) (hC : s.Closing) {q : Service}
    (hpc : s.director.pc = .resetQueue q) (h : s.listed p (.queue q)) : p = .director := by
  cases p with
  | director => rfl
  | dispenser =>
    exact absurd (DispPc.window_of_queue h) (hC.closed q (by rw [hpc]; rfl))
  | operator w =>
    have hrun : (s.view w).inRun = true := OpPc.inRun_of_listed h
    exact (hB.apart hrun (by rw [hpc]; rfl)).elim
  | user u =>
    have hr : (s.users u).pc.reads (.queue q : Datum c) := h.resolve_right id
    cases hpc : (s.users u).pc <;> rw [hpc] at hr <;> cases hr

/-- The operator and the director take turns with the operator's entry. -/
theorem entry_alone (hB : s.Barrier) {w : Fin c.nofWorkers} (hrun : (s.view w).inRun = true) :
    ¬ s.listed .director (.worker w) :=
  fun h => hB.apart hrun (DirPc.not_live_of_worker h)

/-- The director draws the service of a counter while another process reads it. -/
theorem service_written (hw : s.listedWrite p d) {i : Fin c.nofWorkerSeats}
    (hd : d = .counterService i) : p = .director ∧ s.director.pc = .assignWrite i := by
  subst hd
  cases p with
  | director => exact ⟨rfl, DirPc.eq_assignWrite hw⟩
  | dispenser => exact absurd hw (DispPc.not_writes_service i)
  | operator w => exact absurd hw (OpPc.not_writes_service i)
  | user u => exact hw.elim

end State

/-- CORRECT: data-race freedom. In every reachable state the next steps of two processes conflict on
    no datum in shared memory but two, both accessed without a lock: `DAY_ACTIVE`, which only the
    director writes, and the service of a counter that `service_is_offered_today` reads while
    `assign_daily_counters` draws a new one. -/
theorem race_free {s : State c} (h : Reachable s) {p p' : c.Proc} (hne : p ≠ p') {d : Datum c}
    (hw : s.Writes p d) (ha : s.Reads p' d ∨ s.Writes p' d) :
    p = .director ∧ d = .dayActive ∨
    ∃ i m q, d = .counterService i ∧ p = .director ∧ s.director.pc = .assignWrite i ∧
      p' = .dispenser ∧ s.dispenser.pc = .offered m q i := by
  have hB := barrier h
  have hC := closing h
  have hlw : s.listedWrite p d := hw.listed
  have hl : s.listed p d := .inr hlw
  have hl' : s.listed p' d := ha.elim State.Reads.listed fun hw' => .inr hw'.listed
  cases hg : d.guard with
  | none =>
    rcases hl.unguarded hg with rfl | ⟨-, hno⟩ | ⟨w, rfl, rfl, hrun⟩
    · rcases hl'.unguarded hg with rfl | ⟨rfl, -⟩ | ⟨w, rfl, rfl, hrun⟩
      · exact absurd rfl hne
      · exact .inl ⟨rfl, rfl⟩
      · exact absurd hl (State.entry_alone hB hrun)
    · exact absurd hlw hno
    · rcases hl'.unguarded hg with rfl | ⟨hd, -⟩ | ⟨v, rfl, hd, -⟩
      · exact absurd hl' (State.entry_alone hB hrun)
      · cases hd
      · cases hd
        exact absurd rfl hne
  | some σ =>
    have hσ := Datum.isMutex_of_guard hg
    rcases hl.guarded hg with hin | ⟨rfl, q, hpc, rfl⟩ | ⟨i, hd, hwho⟩
    · rcases hl'.guarded hg with hin' | ⟨rfl, q, hpc, rfl⟩ | ⟨i, hd, hwho⟩
      · exact absurd ((mutexesSound h).unique hσ hin hin') hne
      · exact absurd (State.reset_alone hB hC hpc hl) hne
      · obtain ⟨rfl, hpc⟩ := State.service_written hlw hd
        rcases hwho with ⟨rfl, -⟩ | ⟨rfl, m, q, hpc'⟩
        · exact absurd rfl hne
        · exact .inr ⟨i, m, q, hd, rfl, hpc, rfl, hpc'⟩
    · exact absurd (State.reset_alone hB hC hpc hl').symm hne
    · obtain ⟨rfl, hpc⟩ := State.service_written hlw hd
      rcases hwho with ⟨-, hpc'⟩ | ⟨hp, -⟩
      · exact absurd (hpc.symm.trans hpc') (by simp)
      · cases hp

/-- The first user's request is late: the dispenser is still looking for its service when the
    director draws the services of the second day. -/
def SmallOffice.overnight : List (Act smallOffice) :=
  arrival ++ own .dispenser 5 ++ own .director 6 ++ signal clerk .usr2 ++ own clerk 7 ++
    own .director 60

/-- The race for the service of a counter happens in the small office. -/
theorem race_free_small : ∃ s : State smallOffice,
    exec step SmallOffice.overnight (State.init smallOffice) = some s ∧
    s.Writes .director (.counterService (0 : Fin 1)) ∧
    s.Reads .dispenser (.counterService (0 : Fin 1)) ∧
    s.director.pc = .assignWrite (0 : Fin 1) ∧ s.dispenser.pc ≠ .receive := by
  have hrun : ((exec step SmallOffice.overnight (State.init smallOffice)).any fun s => decide (
      (s.g.counters (0 : Fin 1)).service = some 0 ∧
      ((step (s.setG ((Datum.counterService (0 : Fin 1)).copy s.g s.g)) (.own .director 1)).any
        fun t => decide ((t.g.counters (0 : Fin 1)).service = some 1)) = true ∧
      (step (s.setG ((Datum.counterService (0 : Fin 1)).copy (Shared.init _) s.g))
        (.own .dispenser 0)).map (fun t => t.dispenser.pc) ≠
      (step s (.own .dispenser 0)).map fun t => t.dispenser.pc)) = true := by decide +kernel
  obtain ⟨s, hs, h⟩ := (Option.any_eq_true _ _).mp hrun
  obtain ⟨hold, hnew, hdiff⟩ := of_decide_eq_true h
  obtain ⟨t, ht, hservice⟩ := (Option.any_eq_true _ _).mp hnew
  have hw : s.Writes .director (.counterService (0 : Fin 1)) := by
    refine ⟨s.g, 1, t, ht, fun he => ?_⟩
    have hsame := Datum.service_eq he
    rw [of_decide_eq_true hservice, hold] at hsame
    exact absurd hsame (by decide)
  have hr : s.Reads .dispenser (.counterService (0 : Fin 1)) := by
    refine ⟨Shared.init _, 0, fun he => hdiff ?_⟩
    have hpc := congrArg (Option.map fun t : State smallOffice => t.dispenser.pc) he
    simpa [Option.map_map, Function.comp_def] using hpc
  rcases race_free (reach_of_exec _ hs) (by simp) hw (.inl hr) with ⟨-, hd⟩ |
    ⟨i, m, q, hd, -, hpc, -, hpc'⟩
  · cases hd
  · cases hd
    exact ⟨s, hs, hw, hr, hpc, by rw [hpc']; simp⟩

end PostOffice
