import PostOffice.SystemMove

/-! Mutual exclusion: each counter mutex, each queue mutex and the statistics mutex is free or held
    by exactly one process.

    A process that calls `exit` inside a critical section keeps the mutex; one that is interrupted
    while it waits for the mutex never gets it. Both are in the counting argument as they are in
    the program, since a process's program point does not move when it exits. -/

namespace PostOffice

/-- 1 when the proposition holds. -/
def ind (p : Prop) [Decidable p] : ℕ := if p then 1 else 0

@[simp] theorem ind_of {p : Prop} [Decidable p] (h : p) : ind p = 1 := if_pos h

@[simp] theorem ind_of_not {p : Prop} [Decidable p] (h : ¬ p) : ind p = 0 := if_neg h

theorem ind_le_one (p : Prop) [Decidable p] : ind p ≤ 1 := by
  unfold ind
  split <;> omega

theorem ind_congr {p q : Prop} [Decidable p] [Decidable q] (h : p ↔ q) : ind p = ind q := by
  simp only [ind, h]

theorem ind_mono {p q : Prop} [Decidable p] [Decidable q] (h : p → q) : ind p ≤ ind q := by
  unfold ind
  split
  · rw [if_pos (h ‹_›)]
  · exact Nat.zero_le _

namespace Sem

variable {seats : ℕ} {σ : Sem seats}

theorem isMutex_queueMutex (s : Service) : (queueMutex s : Sem seats).IsMutex := trivial

theorem IsMutex.ne_jobs (h : σ.IsMutex) (s : Service) : σ ≠ .jobs s := by
  rintro rfl
  exact h

theorem IsMutex.ne_freeCounter (h : σ.IsMutex) (s : Service) : σ ≠ .freeCounter s := by
  rintro rfl
  exact h

end Sem

/-- The mutexes whose critical section the director is in. -/
def DirPc.holds {seats workers users : ℕ} : DirPc seats workers users → Sem seats → Prop
  | .resetStats, σ | .resetUnlock, σ | .printDaily, σ | .printUnlock, σ | .finalPrint, σ
  | .finalUnlock, σ => σ = .stats
  | .assignWrite i, σ | .assignUnlock i, σ => σ = .counterMutex i
  | .countRead s, σ | .countUnlock s, σ | .flushTake s, σ | .flushReply s _, σ
  | .flushStatsLock s, σ | .flushUnlock s, σ => σ = .queueMutex s
  | .flushStats s, σ | .flushStatsUnlock s, σ => σ = .queueMutex s ∨ σ = .stats
  | _, _ => False

instance {seats workers users : ℕ} (pc : DirPc seats workers users) (σ : Sem seats) :
    Decidable (pc.holds σ) := by
  cases pc <;> unfold DirPc.holds <;> infer_instance

namespace State

variable {c : Setup} (s : State c)

/-- How many processes are in a critical section of the mutex. -/
def holders (σ : Sem c.nofWorkerSeats) : ℕ :=
  ind (s.director.pc.holds σ) + ind (s.dispenser.pc.lock = some σ) +
    Family.total (fun _ v => ind (v.lock = some σ)) s.view

/-- Each mutex is free or held once. -/
def MutexesSound : Prop := ∀ σ : Sem c.nofWorkerSeats, σ.IsMutex → s.g.sem σ + s.holders σ = 1

end State

variable {c : Setup} {σ : Sem c.nofWorkerSeats} {g g' : Shared c}

/-- The director takes a mutex when it enters a critical section and gives it back at the end. -/
theorem Director.Move.mutex (hσ : σ.IsMutex)
    {pc pc' : DirPc c.nofWorkerSeats c.nofWorkers c.nofUsers} {v v' : DirVars}
    (h : Director.Move pc v g pc' v' g') :
    g'.sem σ + ind (pc'.holds σ) = g.sem σ + ind (pc.holds σ) := by
  have hj := hσ.ne_jobs
  have hf := hσ.ne_freeCounter
  cases h <;> simp [DirPc.holds, Function.update_apply, ind, hj, hf]
  all_goals grind

theorem Dispenser.Move.mutex (hσ : σ.IsMutex) {pc pc' : DispPc c.nofWorkerSeats} {f : DispFlags}
    (h : Dispenser.Move pc f g pc' g') :
    g'.sem σ + ind (pc'.lock = some σ) = g.sem σ + ind (pc.lock = some σ) := by
  have hj := hσ.ne_jobs
  cases h <;> simp [DispPc.lock, Function.update_apply, ind, hj]
  all_goals grind

theorem Operator.Move.mutex (hσ : σ.IsMutex) {w : Fin c.nofWorkers} {l l' : Operator c}
    (h : Operator.Move w l g l' g') :
    g'.sem σ + ind ((view w l').lock = some σ) = g.sem σ + ind ((view w l).lock = some σ) := by
  have hj := hσ.ne_jobs
  have hf := hσ.ne_freeCounter
  have hview (x : Operator c) : view w x = x.pc.view (c.workerService w) := rfl
  cases h with
  | silent hf hv => rw [hv]
  | acquire hf τ hm hl hτ hv =>
    simp only [hv, hl, Shared.down_sem, Function.update_apply, ind, Option.some.injEq]
    grind
  | release hf τ hm hl hv =>
    simp only [hv, hl, Shared.up_sem, Function.update_apply, ind, Option.some.injEq]
    grind
  | init hf hpc hpc' | consume hf hpc hpc' | begin hf hpc hpc' | pop hf k t q hlen hq hpc hpc'
  | popEmpty hf k hlen hpc hpc' | serveStart hf k t m hpc hpc' | count hf k t n m hpc hpc'
  | reply hf k t hpc hpc' | pauseCount hf k hpc hpc' | pauseStats hf k hpc hpc'
  | raiseStop hf k hpc hpc' | finish hf hpc hpc' =>
    simp [hview, hpc, hpc', OpPc.view, OpView.idle, OpView.starting, OpView.running,
      OpView.seated]
  | takeToken hf' hσ hv hv' | giveToken hf' p hv hv' | dropToken hf' hi p hv hv'
  | pass hf' i hi hv hv' | sit hf' i hi hv hv' | stand hf' k hv hv' | dropSeat hf' hi k hv hv'
  | takeJob hf' hσ k hv hv' | dropJob hf' hi k hv hv' =>
    simp [hv, hv', OpView.scanning, OpView.seated, OpView.running, OpView.starting, OpView.idle,
      hj, hf]

/-- Every move keeps the mutexes sound. -/
theorem State.MutexesSound.step {s s' : State c} (hI : s.MutexesSound) (h : s.Move s') :
    s'.MutexesSound := by
  intro σ hσ
  have hs := hI σ hσ
  unfold State.holders at hs ⊢
  cases h with
  | director hm =>
    have := hm.mutex hσ
    simp only [State.setDirector_g, State.setDirector_director, State.setDirector_dispenser,
      State.view_setDirector]
    omega
  | dispenser hm hf =>
    have := hm.mutex hσ
    simp only [State.setDispenser_g, State.setDispenser_director, State.setDispenser_dispenser,
      State.view_setDispenser]
    omega
  | @operator n l' g' w hstep hm =>
    have hown := hm.mutex hσ
    have htotal := s.total_view_setOperator (fun _ v => ind (v.lock = some σ)) w (l', g')
    rw [s.view_eq] at hown
    dsimp only at htotal
    simp only [State.setOperator_g, State.setOperator_director, State.setOperator_dispenser]
    omega
  | user u hm hf =>
    rw [hm.frame]
    exact hs
  | deliver p sigs hp => simpa using hs
  | interrupt sig hsig => exact hs
  | tick ns => exact hs

theorem State.MutexesSound.init : (State.init c).MutexesSound := by
  intro σ hσ
  have hfree : (State.init c).g.sem σ = 1 := by cases σ <;> first | rfl | exact hσ.elim
  have hops : Family.total (fun _ v => ind (v.lock = some σ)) (State.init c).view = 0 :=
    Family.total_eq_zero fun w => rfl
  rw [hfree, State.holders, hops]
  rfl

/-- CORRECT: in every reachable state each mutex is free or held by exactly one process. -/
theorem mutexesSound {s : State c} (h : Reachable s) : s.MutexesSound :=
  h.invariant .init fun _ _ _ hI hm => hI.step hm

end PostOffice
