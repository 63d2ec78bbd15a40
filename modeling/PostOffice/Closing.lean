import PostOffice.Barrier
import PostOffice.History

/-! The end of the day. The director counts the pending users and then turns them away in two
    passes, one queue lock at a time, while the dispenser goes on. Between the two passes no queue
    changes: the operators are outside `run_day` since the barrier, and the dispenser re-reads
    `DAY_ACTIVE` inside the queue mutex, so once the director has locked a queue after the end of
    the day nothing more is pushed onto it.

        dispenser   lock ─ DAY_ACTIVE? ─ … push ─ unlock         lock ─ DAY_ACTIVE? no ─ unlock
        director             DAY_ACTIVE = 0        lock ─ count ─ unlock    …    lock ─ flush -/

namespace PostOffice

variable {c : Setup}

namespace DirPc

variable {seats workers users : ℕ}

theorem closed_of_emptied {pc : DirPc seats workers users} {q : Service}
    (h : pc.emptied q = true) : pc.closed q = true := by
  cases pc <;> simp [emptied, closed] at h ⊢

theorem closed_of_counted {pc : DirPc seats workers users} {q : Service}
    (ht : pc.tallying = true) (h : pc.counted q = true) : pc.closed q = true := by
  cases pc <;> simp [tallying, decided, flushing, counted, closed] at ht h ⊢
  all_goals first | exact h | exact h.le

theorem not_closed_of_active {pc : DirPc seats workers users} (h : pc.active = true)
    (q : Service) : pc.closed q = false := by
  cases pc <;> simp [active, closed] at h ⊢

end DirPc

/-- The window is open only inside the queue mutex. -/
theorem DispPc.lock_of_window {seats : ℕ} {pc : DispPc seats} {q : Service}
    (h : pc.window = some q) : pc.lock = some (.queueMutex q) := by
  cases pc <;> simp [window, lock] at h ⊢
  all_goals exact h

namespace Director

variable {pc pc' : DirPc c.nofWorkerSeats c.nofWorkers c.nofUsers} {v v' : DirVars}
  {g g' : Shared c}

theorem Move.active (h : Move pc v g pc' v' g') (hI : g.dayActive = pc.active) :
    g'.dayActive = pc'.active := by
  cases h <;> first | exact hI | rfl

/-- A queue is closed by locking it. -/
theorem Move.closed (h : Move pc v g pc' v' g') {q : Service} (hq : pc'.closed q = true) :
    pc.closed q = true ∨ pc'.holds (.queueMutex q) := by
  cases h
  case countLock s _ =>
    simp only [DirPc.closed, decide_eq_true_eq, DirPc.holds, Sem.queueMutex.injEq] at hq ⊢
    exact hq.lt_or_eq
  case countNext s hs =>
    simp only [DirPc.closed, decide_eq_true_eq, Fin.lt_def, Fin.le_def] at hq ⊢
    exact .inl (Nat.lt_succ_iff.mp hq)
  case countLast s hs =>
    simp only [DirPc.closed, decide_eq_true_eq, Fin.le_def]
    omega
  all_goals first | exact .inl hq | exact .inl rfl

/-- A queue is emptied by the flush, and only the director's own reset touches an emptied one. -/
theorem Move.emptied (h : Move pc v g pc' v' g')
    (hI : ∀ q, pc.emptied q = true → (g.queues q).length = 0) (q : Service)
    (hq : pc'.emptied q = true) : (g'.queues q).length = 0 := by
  cases h
  case resetQueueNext s _ | resetQueueLast s _ =>
    by_cases hs : q = s
    · subst hs
      simp [serviceQueueReset, RingBuffer.reset]
    · simpa [hs] using hI q rfl
  case flushTake s t qu hlen hqu =>
    have hs : q ≠ s := (show q < s by simpa [DirPc.emptied] using hq).ne
    simpa [hs] using hI q hq
  case flushEmpty s hlen =>
    have hle : q ≤ s := by simpa [DirPc.emptied] using hq
    rcases hle.lt_or_eq with hlt | rfl
    · exact hI q (by simpa [DirPc.emptied] using hlt)
    · exact hlen
  case flushNext s hs =>
    simp only [DirPc.emptied, decide_eq_true_eq, Fin.lt_def] at hq
    exact hI q (by simp only [DirPc.emptied, decide_eq_true_eq, Fin.le_def]; omega)
  case flushLast s hs =>
    exact hI q (by simp only [DirPc.emptied, Fin.le_def, decide_eq_true_eq]; omega)
  all_goals first | exact hI q hq | exact hI q rfl

end Director

namespace State

/-- The queues close one after the other at the end of a day. -/
structure Closing (s : State c) : Prop where
  active : s.g.dayActive = s.director.pc.active
  closed : ∀ q, s.director.pc.closed q = true → s.dispenser.pc.window ≠ some q
  emptied : ∀ q, s.director.pc.emptied q = true → (s.g.queues q).length = 0

variable {s s' : State c}

/-- The director and the dispenser are not in the same critical section. -/
theorem MutexesSound.director_dispenser (hM : s.MutexesSound) {σ : Sem c.nofWorkerSeats}
    (hσ : σ.IsMutex) (h : s.director.pc.holds σ) : s.dispenser.pc.lock ≠ some σ := by
  intro hd
  have := hM σ hσ
  rw [holders, ind_of h, ind_of hd] at this
  omega

end State

/-- The dispenser opens the window of a queue only while the day is active. -/
theorem Dispenser.Move.window {pc pc' : DispPc c.nofWorkerSeats} {f : DispFlags}
    {g g' : Shared c} (h : Dispenser.Move pc f g pc' g') {q : Service}
    (hw : pc'.window = some q) : pc.window = some q ∨ g.dayActive = true := by
  cases h <;> first | exact .inl hw | exact .inr ‹_› | cases hw

/-- The dispenser pushes only onto the queue whose window is open. -/
theorem Dispenser.Move.queues {pc pc' : DispPc c.nofWorkerSeats} {f : DispFlags}
    {g g' : Shared c} (h : Dispenser.Move pc f g pc' g') {q : Service}
    (hw : pc.window ≠ some q) : g'.queues q = g.queues q := by
  cases h with
  | @push m s t qu hpush hq =>
    have hne : q ≠ s := fun h => hw (h ▸ rfl)
    simp [hne]
  | _ => rfl

/-- An operator that is not inside `run_day` touches no queue. -/
theorem Operator.Move.queues {w : Fin c.nofWorkers} {l l' : Operator c} {g g' : Shared c}
    (h : Operator.Move w l g l' g') (hw : (view w l).inRun = false) : g'.queues = g.queues := by
  cases h with
  | pop hf k t q hlen hq hpc hpc' =>
    simp [view, hpc, OpPc.view, OpView.seated, OpView.running] at hw
  | _ => rfl

/-- An operator never lengthens a queue. -/
theorem Operator.Move.queue_length {w : Fin c.nofWorkers} {l l' : Operator c} {g g' : Shared c}
    (h : Operator.Move w l g l' g') (q : Service) :
    (g'.queues q).length ≤ (g.queues q).length := by
  cases h with
  | pop hf k t qu hlen hq hpc hpc' =>
    have hl := congrArg List.length hq
    simp only [RingBuffer.length_toList, List.length_cons] at hl
    by_cases hs : q = c.workerService w
    · subst hs
      simp
      omega
    · simp [hs]
  | _ => exact le_rfl

namespace State.Closing

variable {s s' : State c}

theorem step (hM : s'.MutexesSound) (hI : s.Closing) (h : s.Move s') : s'.Closing := by
  cases h with
  | director hm =>
    refine ⟨hm.active hI.active, fun q hq => ?_, hm.emptied hI.emptied⟩
    rcases hm.closed hq with hq | hlock
    · exact hI.closed q hq
    · exact fun hw =>
        hM.director_dispenser (Sem.isMutex_queueMutex q) hlock (DispPc.lock_of_window hw)
  | dispenser hm hf =>
    refine ⟨?_, ?_, ?_⟩
    · rw [hm.frame]
      exact hI.active
    · intro q hq hw
      rcases hm.window hw with hw | hact
      · exact hI.closed q hq hw
      · have := DirPc.not_closed_of_active (hI.active ▸ hact) q
        exact Bool.false_ne_true (this ▸ hq)
    · intro q hq
      have hw := hI.closed q (DirPc.closed_of_emptied hq)
      exact (congrArg _ (hm.queues hw)).trans (hI.emptied q hq)
  | operator w hstep hm =>
    refine ⟨?_, hI.closed, ?_⟩
    · rw [hm.frame]
      exact hI.active
    · intro q hq
      exact Nat.le_zero.mp ((hm.queue_length q).trans (hI.emptied q hq).le)
  | user u hm hf =>
    rw [hm.frame]
    exact ⟨hI.active, hI.closed, hI.emptied⟩
  | deliver p sigs hp =>
    refine ⟨?_, ?_, ?_⟩
    · simpa using hI.active
    · intro q hq
      simpa using hI.closed q (by simpa using hq)
    · intro q hq
      simpa using hI.emptied q (by simpa using hq)
  | interrupt sig hsig => exact ⟨hI.active, hI.closed, hI.emptied⟩
  | tick ns => exact ⟨hI.active, hI.closed, hI.emptied⟩

theorem init : (State.init c).Closing := ⟨rfl, fun _ _ => nofun, fun _ _ => rfl⟩

end State.Closing

theorem closing {s : State c} (h : Reachable s) : s.Closing :=
  h.invariant .init fun _ _ hr hI hm => hI.step ((mutexesSound hr).step hm) hm

end PostOffice
