import Mathlib.Logic.Relation
import PostOffice.RunDay

/-! The lock discipline of the four programs. A process is inside the critical section of a mutex
    (`Inside`) or in front of its lock (`Locking`), read off its program point:

        Locking ── semop -1 ──▶ Inside ── semop +1 ──▶ out
           │ EINTR
           └──▶ returns, goes on or exits, without the mutex

    A process in front of a lock is inside no other mutex, except the director in
    `flush_pending_users`, which locks the statistics inside a queue mutex. -/

namespace PostOffice

open Transition

/-! ### In front of a lock -/

/-- The mutex the operator is about to lock. -/
def OpPc.locking {seats : ℕ} (service : Service) : OpPc seats → Option (Sem seats)
  | .scanLock i | .releaseLock i => some (.counterMutex i)
  | .popLock _ => some (.queueMutex service)
  | .serveLock _ _ _ _ | .pauseLock _ => some .stats
  | _ => none

/-- The mutex the dispenser is about to lock. -/
def DispPc.locking {seats : ℕ} : DispPc seats → Option (Sem seats)
  | .countLock _ _ | .refuseLock _ _ => some .stats
  | .queueLock _ s => some (.queueMutex s)
  | _ => none

/-- The mutex the director is about to lock. -/
def DirPc.locking {seats workers users : ℕ} : DirPc seats workers users → Option (Sem seats)
  | .resetLock | .flushStatsLock _ | .printLock | .finalLock => some .stats
  | .assignLock i => some (.counterMutex i)
  | .countLock s | .flushLock s => some (.queueMutex s)
  | _ => none

/-- In front of a lock an operator is inside no critical section. -/
theorem OpPc.lock_of_locking {seats : ℕ} {service : Service} {pc : OpPc seats} {τ : Sem seats}
    (h : pc.locking service = some τ) : (pc.view service).lock = none := by
  cases pc <;> first | rfl | cases h

theorem DispPc.lock_of_locking {seats : ℕ} {pc : DispPc seats} {τ : Sem seats}
    (h : pc.locking = some τ) : pc.lock = none := by
  cases pc <;> first | rfl | cases h

/-- The director locks the statistics inside a queue mutex in `flush_pending_users`, and nothing
    else inside anything. -/
theorem DirPc.nested {seats workers users : ℕ} {pc : DirPc seats workers users} {σ τ : Sem seats}
    (hin : pc.holds σ) (hlock : pc.locking = some τ) :
    ∃ q, pc = .flushStatsLock q ∧ σ = .queueMutex q ∧ τ = .stats := by
  cases pc <;> first
    | exact ⟨_, rfl, hin, (Option.some.inj hlock).symm⟩
    | exact hin.elim
    | cases hlock

variable {c : Setup}

/-- An operator enters a critical section through its lock. -/
theorem Operator.step_locking {w : Fin c.nofWorkers} {l l' : Operator c} {g g' : Shared c} {n : ℕ}
    {σ : Sem c.nofWorkerSeats} (h : Operator.step w l g n = some (l', g'))
    (hl : (view w l).lock ≠ some σ) (hl' : (view w l').lock = some σ) :
    l.pc.locking (c.workerService w) = some σ := by
  have hview (x : Operator c) : view w x = x.pc.view (c.workerService w) := rfl
  unfold step at h
  split at h
  · cases h
  unfold body at h
  rw [hview] at hl hl'
  cases hpc : l.pc <;> rw [hpc] at h hl <;> simp only at h
  case claimToken | scanLock | waitTicket | popLock | serveLock | pauseLock | releaseLock =>
    rcases semOpInterruptible_cases h with ⟨-, -, rfl, rfl⟩ | ⟨h1, h2, h3⟩ | ⟨hσ, rfl, rfl⟩
    · simp only [Task.goto_pc, Task.exit_pc, hpc] at hl'
      exact absurd hl' hl
    · exact absurd (by rw [h1, hpc] at hl'; exact hl') hl
    · exact hl'
  case sendInit | serveReply | dayFinished =>
    rcases msgSendRetry_cases h with ⟨h1, h2, h3⟩ | ⟨hroom, rfl, rfl⟩
    · exact absurd (by rw [h1, hpc] at hl'; exact hl') hl
    · cases hl'
  case serveSleep =>
    unfold Task.nanosleep at h
    repeat' split at h
    all_goals cases h; simp [hpc, OpPc.view, OpView.seated, OpView.running, OpView.starting,
      OpView.idle] at hl'
  case done => cases h
  all_goals
    try simp only [forLoop] at h
    repeat' split at h
    all_goals cases h
    all_goals simp only [Task.goto_pc, Task.exit_pc, Task.sleep_pc, hpc] at hl'
    all_goals first | exact absurd hl' hl | cases hl'

/-- At `lock_stats` an operator is still outside the critical section. -/
theorem OpPc.lock_of_lockingStats {seats : ℕ} {service : Service} {pc : OpPc seats}
    (h : pc.lockingStats = true) : (pc.view service).lock = none := by
  cases pc <;> first | rfl | exact Bool.noConfusion h

/-- An operator that exits is in front of `lock_stats` or outside `run_day`. -/
theorem Operator.lock_of_exited {w : Fin c.nofWorkers} {l l' : Operator c} {g g' : Shared c}
    {n : ℕ} (h : step w l g n = some (l', g')) (hx : l'.exited = true) :
    (view w l').lock = none := by
  rcases step_exit h hx with ⟨hlock, -, hpc⟩ | ⟨hdone, -⟩
  · rw [view, hpc]
    exact OpPc.lock_of_lockingStats hlock
  · rw [view, hdone]
    rfl

theorem Dispenser.Move.locking {pc pc' : DispPc c.nofWorkerSeats} {f : DispFlags} {g g' : Shared c}
    {σ : Sem c.nofWorkerSeats} (h : Dispenser.Move pc f g pc' g') (hl : pc.lock ≠ some σ)
    (hl' : pc'.lock = some σ) : pc.locking = some σ := by
  cases h with
  | countLock | queueLock | refuseLock => exact hl'
  | _ => first | exact absurd hl' hl | cases hl'

theorem Director.Move.locking {pc pc' : DirPc c.nofWorkerSeats c.nofWorkers c.nofUsers}
    {v v' : DirVars} {g g' : Shared c} {σ : Sem c.nofWorkerSeats}
    (h : Director.Move pc v g pc' v' g') (hl : ¬ pc.holds σ) (hl' : pc'.holds σ) :
    pc.locking = some σ := by
  cases h with
  | resetLock | assignLock | countLock | flushLock | printLock | finalLock =>
    exact congrArg some (Eq.symm hl')
  | flushStatsLock => exact congrArg some (hl'.resolve_left hl).symm
  | flushStatsUnlock => exact absurd (.inl hl') hl
  | _ => first | exact absurd hl' hl | cases hl'

/-- The dispenser exits when it is told to terminate: in front of a lock, or after its last loop
    test. -/
theorem Dispenser.step_exit {l l' : Dispenser c} {g g' : Shared c}
    (h : Dispenser.step l g = some (l', g')) (hx : l'.exited = true) :
    l'.pc.lock = none ∧ l'.vars.terminateRequested = true := by
  unfold step at h
  split at h
  · cases h
  unfold body at h
  cases hpc : l.pc <;> rw [hpc] at h <;> simp only at h
  case countLock | queueLock | refuseLock =>
    unfold semOpRetry Task.semWait at h
    repeat' split at h
    all_goals cases h
    all_goals first
      | exact Bool.noConfusion hx
      | exact ⟨congrArg DispPc.lock hpc, ‹_›⟩
  case done => cases h
  all_goals
    try simp only [sendUserReply, Task.msgSend, Task.semPost] at h
    repeat' split at h
    all_goals cases h
    all_goals first
      | exact Bool.noConfusion hx
      | exact ⟨rfl, ‹_›⟩

/-! ### Inside and in front -/

namespace State

/-- The process is in a critical section of the mutex. -/
def Inside (s : State c) (σ : Sem c.nofWorkerSeats) : c.Proc → Prop
  | .director => s.director.pc.holds σ
  | .dispenser => s.dispenser.pc.lock = some σ
  | .operator w => (s.view w).lock = some σ
  | .user _ => False

instance (s : State c) (σ : Sem c.nofWorkerSeats) : (p : c.Proc) → Decidable (s.Inside σ p)
  | .director => inferInstanceAs (Decidable (s.director.pc.holds σ))
  | .dispenser => inferInstanceAs (Decidable (s.dispenser.pc.lock = some σ))
  | .operator w => inferInstanceAs (Decidable ((s.view w).lock = some σ))
  | .user _ => isFalse id

/-- The process is in front of the lock of the mutex. -/
def Locking (s : State c) (σ : Sem c.nofWorkerSeats) : c.Proc → Prop
  | .director => s.director.pc.locking = some σ
  | .dispenser => s.dispenser.pc.locking = some σ
  | .operator w => (s.operators w).pc.locking (c.workerService w) = some σ
  | .user _ => False

/-- Whoever is inside `σ` waits for `τ`. -/
def WaitsFor (s : State c) (σ τ : Sem c.nofWorkerSeats) : Prop :=
  ∃ p, s.Inside σ p ∧ s.Locking τ p

variable {s s' : State c} {σ τ : Sem c.nofWorkerSeats} {p : c.Proc}

/-- A step of `p` takes the mutex exactly when it enters the critical section, and gives it back
    exactly when it leaves it. -/
theorem own_mutex {n : ℕ} (hσ : σ.IsMutex) (h : PostOffice.step s (.own p n) = some s') :
    s'.g.sem σ + ind (s'.Inside σ p) = s.g.sem σ + ind (s.Inside σ p) ∧
      (¬ s.Inside σ p → s'.Inside σ p → s.Locking σ p) := by
  cases p with
  | director =>
    obtain ⟨⟨l', g'⟩, hx, rfl⟩ := Option.map_eq_some_iff.mp h
    have hm := Director.step_move hx
    exact ⟨hm.mutex hσ, hm.locking⟩
  | dispenser =>
    obtain ⟨⟨l', g'⟩, hx, rfl⟩ := Option.map_eq_some_iff.mp h
    have hm := (Dispenser.step_move hx).1
    exact ⟨hm.mutex hσ, hm.locking⟩
  | operator w =>
    obtain ⟨⟨l', g'⟩, hx, rfl⟩ := Option.map_eq_some_iff.mp h
    have hview : (s.setOperator w (l', g')).view w = Operator.view w l' := by
      rw [view_setOperator, Function.update_self]
    have hin : (s.setOperator w (l', g')).Inside σ (.operator w) ↔
        (Operator.view w l').lock = some σ :=
      iff_of_eq (congrArg (fun v : OpView c.nofWorkerSeats => v.lock = some σ) hview)
    refine ⟨?_, fun hout hnew => Operator.step_locking hx hout (hin.mp hnew)⟩
    rw [ind_congr hin]
    exact (Operator.step_move hx).mutex hσ
  | user u =>
    obtain ⟨⟨l', g'⟩, hx, rfl⟩ := Option.map_eq_some_iff.mp h
    have hg : g'.sem = s.g.sem := by rw [(User.step_move hx).1.frame]
    exact ⟨congrArg (· + 0) (congrFun hg σ), fun _ => False.elim⟩

/-- In front of a lock no process is inside another mutex, except the director in
    `flush_pending_users`. -/
theorem nested_lock (hin : s.Inside σ p) (hlock : s.Locking τ p) :
    p = .director ∧ ∃ q, s.director.pc = .flushStatsLock q ∧ σ = .queueMutex q ∧ τ = .stats := by
  cases p with
  | director => exact ⟨rfl, DirPc.nested hin hlock⟩
  | dispenser =>
    exact absurd ((DispPc.lock_of_locking hlock).symm.trans hin).symm (Option.some_ne_none σ)
  | operator w =>
    exact absurd ((OpPc.lock_of_locking hlock).symm.trans hin).symm (Option.some_ne_none σ)
  | user u => exact hin.elim

end State

/-- The order in which mutexes are locked. -/
def Sem.lockOrder {seats : ℕ} : Sem seats → ℕ
  | .stats => 1
  | _ => 0

/-- Waiting goes up in the lock order, so it never comes back. -/
theorem State.not_waitsFor_self (s : State c) (σ : Sem c.nofWorkerSeats) :
    ¬ Relation.TransGen s.WaitsFor σ σ := by
  intro h
  have hup : ∀ σ τ, s.WaitsFor σ τ → σ.lockOrder < τ.lockOrder := by
    rintro σ τ ⟨p, hin, hlock⟩
    obtain ⟨-, q, -, rfl, rfl⟩ := State.nested_lock hin hlock
    exact Nat.zero_lt_one
  have hlt : Relation.TransGen (· < ·) σ.lockOrder σ.lockOrder :=
    Relation.TransGen.lift Sem.lockOrder hup σ σ h
  rw [Relation.transGen_eq_self] at hlt
  exact lt_irrefl _ hlt

/-! ### The invariant -/

namespace State

/-- No operator and no dispenser has terminated inside a critical section. -/
structure LeavesFree (s : State c) : Prop where
  operator : ∀ w, (s.operators w).exited = true → (s.view w).lock = none
  dispenser : s.dispenser.exited = true → s.dispenser.pc.lock = none

namespace LeavesFree

variable {s s' : State c}

theorem step {a : Act c} (hI : s.LeavesFree) (h : s.StepOf a s') : s'.LeavesFree := by
  cases h with
  | director | user | interrupt | tick => exact ⟨hI.operator, hI.dispenser⟩
  | dispenser hstep => exact ⟨hI.operator, fun hd => (Dispenser.step_exit hstep hd).1⟩
  | operator w hstep =>
    have hother : ∀ v, v ≠ w → (s.operators v).exited = true → (s.view v).lock = none :=
      fun v _ => hI.operator v
    exact ⟨(Function.forall_update_iff s.operators fun v l =>
      l.exited = true → (Operator.view v l).lock = none).mpr
        ⟨Operator.lock_of_exited hstep, hother⟩, hI.dispenser⟩
  | deliver p sigs hp hne hx =>
    refine ⟨fun w hw => ?_, fun hd => ?_⟩
    · rw [deliverTo_view]
      exact hI.operator w (ne_of_exited_deliverTo (q := .operator w) hx hw).2
    · rw [deliverTo_dispenser_pc]
      exact hI.dispenser (ne_of_exited_deliverTo (q := .dispenser) hx hd).2

theorem init : (State.init c).LeavesFree := ⟨fun _ => nofun, nofun⟩

end LeavesFree

end State

theorem leavesFree {s : State c} (h : Reachable s) : s.LeavesFree :=
  ReachableBy.induct .init (fun _ _ _ _ hI _ hs => hI.step hs) h

/-- What the programs promise about the mutexes. -/
structure State.LockDiscipline (s : State c) : Prop where
  /-- A mutex is free, or one process is inside. -/
  exclusive : ∀ σ : Sem c.nofWorkerSeats, σ.IsMutex → s.g.sem σ ≤ 1 ∧
    s.g.sem σ + (ind (s.Inside σ .director) + ind (s.Inside σ .dispenser) +
      ∑ w, ind (s.Inside σ (.operator w))) = 1
  /-- A process comes inside by a `semop` of -1 that succeeds, at its lock. -/
  enters : ∀ σ p n s', σ.IsMutex → step s (.own p n) = some s' → ¬ s.Inside σ p → s'.Inside σ p →
    s.Locking σ p ∧ s.g.sem σ = 1 ∧ s'.g.sem σ = 0
  /-- Only a process that is inside gives the mutex back, and it leaves with that. -/
  leaves : ∀ σ a s', σ.IsMutex → step s a = some s' → s.g.sem σ < s'.g.sem σ →
    ∃ p n, a = .own p n ∧ s.Inside σ p ∧ ¬ s'.Inside σ p
  operators : ∀ w, (s.operators w).exited = true → ∀ σ, ¬ s.Inside σ (.operator w)
  dispenser : s.dispenser.exited = true → ∀ σ, ¬ s.Inside σ .dispenser
  /-- The one place where a mutex is locked inside another. -/
  nested : ∀ σ τ p, s.Inside σ p → s.Locking τ p →
    p = .director ∧ ∃ q, s.director.pc = .flushStatsLock q ∧ σ = .queueMutex q ∧ τ = .stats
  acyclic : ∀ σ, ¬ Relation.TransGen s.WaitsFor σ σ

/-- Actions that are no own steps leave the semaphores alone. -/
theorem exists_own_of_sem {s s' : State c} {a : Act c} (h : s.StepOf a s')
    (hne : s'.g.sem ≠ s.g.sem) : ∃ p n, a = .own p n := by
  cases h with
  | director | dispenser | operator | user => exact ⟨_, _, rfl⟩
  | deliver p sigs => exact absurd (by rw [State.deliverTo_g]; rfl) hne
  | interrupt | tick => exact absurd rfl hne

/-- CORRECT: the four programs keep the lock discipline in every reachable state. -/
theorem lock_discipline {s : State c} (h : Reachable s) : s.LockDiscipline := by
  have hM := mutexesSound h
  have hF := leavesFree h
  refine ⟨fun σ hσ => ⟨?_, hM σ hσ⟩, ?_, ?_, fun w hx σ hin => ?_, fun hx σ hin => ?_,
    fun σ τ p => State.nested_lock, s.not_waitsFor_self⟩
  · have := hM σ hσ
    omega
  · intro σ p n s' hσ hs hout hin
    obtain ⟨hsem, hlock⟩ := State.own_mutex hσ hs
    rw [ind_of_not hout, ind_of hin] at hsem
    have := hM σ hσ
    exact ⟨hlock hout hin, by omega, by omega⟩
  · intro σ a s' hσ hs hlt
    obtain ⟨p, n, rfl⟩ := exists_own_of_sem (step_stepOf hs) fun he => by
      rw [he] at hlt
      exact lt_irrefl _ hlt
    refine ⟨p, n, rfl, ?_⟩
    have hsem := (State.own_mutex hσ hs).1
    by_cases hin : s.Inside σ p
    · refine ⟨hin, fun hin' => ?_⟩
      rw [ind_of hin, ind_of hin'] at hsem
      omega
    · rw [ind_of_not hin] at hsem
      omega
  · exact absurd ((hF.operator w hx).symm.trans hin).symm (Option.some_ne_none σ)
  · exact absurd ((hF.dispenser hx).symm.trans hin).symm (Option.some_ne_none σ)

/-- At the end of the first day of the small office the director has locked the first queue in
    `count_pending_users`. -/
theorem lock_discipline_small : ∃ s : State smallOffice,
    exec step (SmallOffice.evening ++ SmallOffice.own .director 2) (State.init smallOffice) =
      some s ∧ s.Inside (.queueMutex 0) .director ∧ s.LockDiscipline := by
  have hrun : ((exec step (SmallOffice.evening ++ SmallOffice.own .director 2)
      (State.init smallOffice)).any fun s =>
        decide (s.Inside (.queueMutex 0) .director)) = true := by decide +kernel
  obtain ⟨s, hs, hin⟩ := (Option.any_eq_true _ _).mp hrun
  exact ⟨s, hs, of_decide_eq_true hin, lock_discipline (reach_of_exec _ hs)⟩

end PostOffice
