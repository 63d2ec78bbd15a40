import PostOffice.Discipline

/-! The end of the director. `stop_children` waits for one child after the other, `cleanup_ipc`
    removes one IPC object after the other, and `main` returns:

        … termUsers ─▶ reapWorker… ─▶ reapUser… ─▶ reapDispenser ─▶ cleanupIpc… ─▶ logStop ─▶ ended

    Two kinds of calls take a signal badly: the lock of a mutex, where the shutdown flag makes
    `sem_op_retry` fail and the caller exit, and `waitpid`, whose result nobody reads. -/

namespace PostOffice

open Transition

namespace DirPc

variable {seats workers users : ℕ}

/-- The child that `waitpid` waits for. -/
def reaping : DirPc seats workers users → Option (Proc workers users)
  | .reapWorker i => some (.operator i)
  | .reapUser i => some (.user i)
  | .reapDispenser => some .dispenser
  | _ => none

/-- `stop_children` has come past the `waitpid` for the child. -/
def reaped : DirPc seats workers users → Proc workers users → Prop
  | .reapWorker i, .operator w => (w : ℕ) < i
  | .reapUser _, .operator _ => True
  | .reapUser i, .user u => (u : ℕ) < i
  | .reapDispenser, p => p ≠ .director ∧ p ≠ .dispenser
  | .cleanupIpc _, p | .logStop, p | .ended, p => p ≠ .director
  | _, _ => False

/-- `cleanup_ipc` has begun. -/
def cleaning : DirPc seats workers users → Bool
  | .cleanupIpc _ | .logStop | .ended => true
  | _ => false

/-- `cleanup_ipc` has removed the object. -/
def removed : DirPc seats workers users → Resource → Prop
  | .cleanupIpc i, r => ∃ j < i, Resource.removals.get j = r
  | .logStop, _ | .ended, _ => True
  | _, _ => False

theorem reaped_of_cleaning {pc : DirPc seats workers users} (h : pc.cleaning = true)
    {p : Proc workers users} (hp : p ≠ .director) : pc.reaped p := by
  cases pc <;> first | exact hp | exact Bool.noConfusion h

end DirPc

variable {c : Setup}

namespace Director

variable {l l' : Director c} {g g' : Shared c} {ex : c.Proc → Bool}

theorem semOpRetry_mode {σ : Sem c.nofWorkerSeats}
    {next : DirPc c.nofWorkerSeats c.nofWorkers c.nofUsers}
    (h : semOpRetry l g σ next = some (l', g')) :
    l'.mode ≠ .eintr ∧ (l'.exited = true → l.mode = .eintr ∧ l'.pc = l.pc) := by
  unfold semOpRetry Task.semWait at h
  repeat' split at h
  all_goals cases h
  all_goals simp_all [Task.exited]

theorem waitpid_mode {p : c.Proc} {next : DirPc c.nofWorkerSeats c.nofWorkers c.nofUsers}
    (h : waitpid l g p ex next = some (l', g')) : l'.mode ≠ .eintr ∧ l'.exited = false := by
  unfold waitpid at h
  repeat' split at h
  all_goals cases h
  all_goals simp [Task.exited]

theorem receiveDirector_mode {kind : DirectorMessageKind} {expected : ℕ}
    {again next : DirPc c.nofWorkerSeats c.nofWorkers c.nofUsers}
    (h : receiveDirector l g (countMessage l kind expected again next) = some (l', g')) :
    l'.mode ≠ .eintr ∧ l'.exited = false := by
  unfold receiveDirector countMessage at h
  repeat' split at h
  all_goals cases h
  all_goals simp [Task.exited]

/-- An own step never leaves the director in a call that failed with `EINTR`, and it exits only out
    of an interrupted lock or at the end of `main`. -/
theorem step_exit {n : ℕ} (h : step l g ex n = some (l', g')) :
    l'.mode ≠ .eintr ∧ (l'.exited = true →
      l.pc.locking ≠ none ∧ l.mode = .eintr ∧ l'.pc = l.pc ∨
        l'.pc = .ended ∧ l'.mode = .exited c.endStatus) := by
  unfold step at h
  split at h
  · cases h
  unfold body at h
  cases hpc : l.pc <;> rw [hpc] at h <;> simp only at h
  case resetLock | assignLock | countLock | flushLock | flushStatsLock | printLock | finalLock =>
    obtain ⟨hm, hx⟩ := semOpRetry_mode h
    exact ⟨hm, fun hex => .inl ⟨by simp [DirPc.locking], (hx hex).1, (hx hex).2.trans hpc⟩⟩
  case reapWorker | reapUser | reapDispenser =>
    obtain ⟨hm, hx⟩ := waitpid_mode h
    exact ⟨hm, fun hex => absurd (hx.symm.trans hex) Bool.false_ne_true⟩
  case waitInit | waitDayEnd =>
    obtain ⟨hm, hx⟩ := receiveDirector_mode h
    exact ⟨hm, fun hex => absurd (hx.symm.trans hex) Bool.false_ne_true⟩
  case ended => cases h
  case logStop =>
    cases h
    exact ⟨by simp, fun _ => .inr ⟨rfl, rfl⟩⟩
  all_goals
    try simp only [Task.nanosleep, Task.msgSend, Task.semPost] at h
    repeat' split at h
    all_goals cases h
    all_goals exact ⟨by simp, fun hex => Bool.noConfusion hex⟩

/-- `stop_children` comes past one child at a time. -/
theorem Move.reaped {pc pc' : DirPc c.nofWorkerSeats c.nofWorkers c.nofUsers} {v v' : DirVars}
    (h : Move pc v g pc' v' g') {p : c.Proc} (hp : pc'.reaped p) :
    pc.reaped p ∨ pc.reaping = some p := by
  cases h with
  | stay => exact .inl hp
  | reapWorkerNext hi | reapWorkerLast hi | reapUserNext hi | reapUserLast hi | reapDispenser =>
    cases p <;> simp [DirPc.reaped, DirPc.reaping, Fin.ext_iff] at hp ⊢ <;> omega
  | cleanupNext | cleanupLast | logStop => exact .inl hp
  | termUsersLast => cases p <;> simp [DirPc.reaped] at hp
  | _ => exact hp.elim

/-- Only `waitpid` reaps. -/
theorem Move.reaped_eq {pc pc' : DirPc c.nofWorkerSeats c.nofWorkers c.nofUsers} {v v' : DirVars}
    (h : Move pc v g pc' v' g') (hq : pc.reaping = none) : g'.reaped = g.reaped := by
  cases h with
  | reapWorkerNext | reapWorkerLast | reapUserNext | reapUserLast | reapDispenser => cases hq
  | _ => rfl

/-- `cleanup_ipc` comes past one object at a time, and removes it. -/
theorem Move.removed {pc pc' : DirPc c.nofWorkerSeats c.nofWorkers c.nofUsers} {v v' : DirVars}
    (h : Move pc v g pc' v' g') {r : Resource} (hr : pc'.removed r) :
    pc.removed r ∨ g'.objects r = false := by
  cases h with
  | stay => exact .inl hr
  | @cleanupNext v g i hi =>
    obtain ⟨j, hj, rfl⟩ := hr
    by_cases hji : j = i
    · subst hji
      exact .inr (Function.update_self _ _ _)
    · have hlt : (j : ℕ) < i + 1 := hj
      exact .inl ⟨j, by omega, rfl⟩
  | @cleanupLast v g i hi =>
    -- the last object: all the others have been removed
    obtain ⟨j, rfl⟩ : ∃ j, Resource.removals.get j = r := List.get_of_mem (by cases r <;> decide)
    by_cases hji : j = i
    · subst hji
      exact .inr (Function.update_self _ _ _)
    · have hlt := j.isLt
      exact .inl ⟨j, by omega, rfl⟩
  | logStop => exact .inl trivial
  | reapDispenser =>
    obtain ⟨j, hj, -⟩ := hr
    exact absurd hj (Nat.not_lt_zero _)
  | _ => exact hr.elim

/-- Only `cleanup_ipc` removes, and nothing is made again. -/
theorem Move.objects {pc pc' : DirPc c.nofWorkerSeats c.nofWorkers c.nofUsers} {v v' : DirVars}
    (h : Move pc v g pc' v' g') (r : Resource) :
    g'.objects r = g.objects r ∨ g'.objects r = false ∧ pc.cleaning = true := by
  cases h with
  | cleanupNext | cleanupLast =>
    rw [Shared.remove_objects, Function.update_apply]
    split
    · exact .inr ⟨rfl, rfl⟩
    · exact .inl rfl
  | _ => exact .inl rfl

theorem Move.cleaning {pc pc' : DirPc c.nofWorkerSeats c.nofWorkers c.nofUsers} {v v' : DirVars}
    (h : Move pc v g pc' v' g') (hpc : pc.cleaning = true) : pc'.cleaning = true := by
  cases h with
  | stay => exact hpc
  | cleanupNext | cleanupLast | logStop => rfl
  | _ => exact Bool.noConfusion hpc

/-- `waitpid` returns the pid of a child that has terminated, or a signal interrupts it. -/
theorem step_reaping {n : ℕ} {q : c.Proc} (h : step l g ex n = some (l', g'))
    (hq : l.pc.reaping = some q) :
    l'.pc = l.pc ∧ g' = g ∨ l.mode = .eintr ∧ g' = g ∨ ex q = true ∧ g' = g.reap q := by
  have hwait {p : c.Proc} {next : DirPc c.nofWorkerSeats c.nofWorkers c.nofUsers}
      (h : waitpid l g p ex next = some (l', g')) :
      l'.pc = l.pc ∧ g' = g ∨ l.mode = .eintr ∧ g' = g ∨ ex p = true ∧ g' = g.reap p := by
    unfold waitpid at h
    repeat' split at h
    all_goals cases h
    · exact .inr (.inl ⟨‹_›, rfl⟩)
    · exact .inr (.inr ⟨‹_›, rfl⟩)
    · exact .inl ⟨rfl, rfl⟩
  unfold step at h
  split at h
  · cases h
  unfold body at h
  cases hpc : l.pc <;> rw [hpc] at h hq <;> first
    | cases hq; rw [← hpc]; exact hwait h
    | cases hq

end Director

/-! ### Over a run -/

/-- A signal does not reach the director while it sleeps in the lock of a mutex, nor while it sleeps
    in `waitpid`. -/
def NotInterrupted (s : State c) (p : c.Proc) (_sigs : List Signal) : Prop :=
  p = .director → s.director.mode = .asleep →
    s.director.pc.locking = none ∧ s.director.pc.reaping = none

/-- The same, but a child that `waitpid` waits for may have terminated already. -/
def NotHurried (s : State c) (p : c.Proc) (_sigs : List Signal) : Prop :=
  p = .director → s.director.mode = .asleep →
    s.director.pc.locking = none ∧ ∀ q ∈ s.director.pc.reaping, s.exited q = true

instance (s : State c) (p : c.Proc) (sigs : List Signal) : Decidable (NotInterrupted s p sigs) :=
  inferInstanceAs (Decidable (_ → _ → _))

instance (s : State c) (p : c.Proc) (sigs : List Signal) : Decidable (NotHurried s p sigs) :=
  inferInstanceAs (Decidable (_ → _ → _))

theorem NotInterrupted.notHurried {s : State c} {p : c.Proc} {sigs : List Signal}
    (h : NotInterrupted s p sigs) : NotHurried s p sigs := fun hp hm =>
  ⟨(h hp hm).1, fun q hq => by
    rw [(h hp hm).2] at hq
    exact absurd hq (Option.not_mem_none q)⟩

namespace State

/-- The director terminates only at the end of `main`, when it has reaped every child and removed
    every IPC object, and it removes none before it has reaped them all. -/
structure LeavesCleanly (s : State c) : Prop where
  returns : s.director.exited = true →
    s.director.pc = .ended ∧ (c.logOpen = true → s.director.mode = .exited 0)
  reaped : s.director.exited = true → ∀ p, p ≠ .director → s.g.reaped p = true
  removed : s.director.exited = true → ∀ r, s.g.objects r = false
  inOrder : ∀ r, s.g.objects r = false →
    ∀ p, p ≠ .director → s.g.reaped p = true ∧ s.exited p = true

/-! #### In any run -/

/-- The objects are removed by `cleanup_ipc`, and the children that have been reaped have
    terminated. -/
structure Removes (s : State c) : Prop where
  removed : ∀ r, s.director.pc.removed r → s.g.objects r = false
  late : ∀ r, s.g.objects r = false → s.director.pc.cleaning = true
  dead : ∀ p, s.g.reaped p = true → s.exited p = true

namespace Removes

variable {s s' : State c}

/-- A step that leaves the director, the objects and the children reaped alone. -/
theorem frame {a : Act c} (hI : s.Removes) (h : s.StepOf a s')
    (hpc : s'.director.pc = s.director.pc) (hobjects : s'.g.objects = s.g.objects)
    (hreaped : s'.g.reaped = s.g.reaped) : s'.Removes := by
  refine ⟨?_, ?_, fun p hp => h.exited (hI.dead p ?_)⟩
  · rw [hpc, hobjects]
    exact hI.removed
  · rw [hpc, hobjects]
    exact hI.late
  · rw [← hreaped]
    exact hp

theorem director {n : ℕ} {l' : Director c} {g' : Shared c} (hI : s.Removes)
    (h : Director.step s.director s.g s.exited n = some (l', g')) :
    (s.setDirector (l', g')).Removes := by
  have hm := Director.step_move h
  have hx {p : c.Proc} : s.exited p = true → (s.setDirector (l', g')).exited p = true :=
    (StepOf.director h).exited
  refine ⟨fun r hr => ?_, fun r hr => ?_, fun p hp => ?_⟩
  · rcases hm.removed hr with hold | hnew
    · rcases hm.objects r with heq | ⟨hgone, -⟩
      · exact heq.trans (hI.removed r hold)
      · exact hgone
    · exact hnew
  · rcases hm.objects r with heq | ⟨-, hclean⟩
    · exact hm.cleaning (hI.late r (heq.symm.trans hr))
    · exact hm.cleaning hclean
  · rw [setDirector_g] at hp
    cases hq : s.director.pc.reaping with
    | none =>
      rw [hm.reaped_eq hq] at hp
      exact hx (hI.dead p hp)
    | some q =>
      rcases Director.step_reaping h hq with ⟨-, rfl⟩ | ⟨-, rfl⟩ | ⟨hdead, rfl⟩
      · exact hx (hI.dead p hp)
      · exact hx (hI.dead p hp)
      · rw [Shared.reap_reaped, Function.update_apply] at hp
        split at hp
        · subst_vars
          exact hx hdead
        · exact hx (hI.dead p hp)

theorem step {a : Act c} (hI : s.Removes) (h : s.StepOf a s') : s'.Removes := by
  have hstep := h
  cases h with
  | director h => exact hI.director h
  | dispenser h =>
    have hframe := (Dispenser.step_move h).1.frame
    exact hI.frame hstep rfl (by rw [setDispenser_g, hframe]) (by rw [setDispenser_g, hframe])
  | operator w h =>
    have hframe := (Operator.step_move h).frame
    exact hI.frame hstep rfl (by rw [setOperator_g, hframe]) (by rw [setOperator_g, hframe])
  | user u h =>
    have hframe := (User.step_move h).1.frame
    exact hI.frame hstep rfl (by rw [setUser_g, hframe]) (by rw [setUser_g, hframe])
  | deliver p sigs =>
    exact hI.frame hstep (deliverTo_director_pc s sigs p) (by rw [deliverTo_g]; rfl)
      (by rw [deliverTo_g]; rfl)
  | interrupt | tick => exact hI.frame hstep rfl rfl rfl

theorem init : (State.init c).Removes := ⟨fun _ => False.elim, nofun, nofun⟩

end Removes

/-! #### In a run that no signal disturbs -/

/-- The invariant: no call that takes a signal badly fails with `EINTR`, and `stop_children` comes
    past a child only when it has terminated. -/
structure Graceful (s : State c) : Prop where
  lock : s.director.mode = .eintr → s.director.pc.locking = none
  wait : s.director.mode = .eintr → ∀ q ∈ s.director.pc.reaping, s.exited q = true
  returns : s.director.exited = true →
    s.director.pc = .ended ∧ s.director.mode = .exited c.endStatus
  reaped : ∀ p, s.director.pc.reaped p → s.exited p = true

namespace Graceful

variable {s s' : State c}

theorem init : (State.init c).Graceful := ⟨nofun, nofun, nofun, fun _ => False.elim⟩

theorem director {n : ℕ} {l' : Director c} {g' : Shared c} (hI : s.Graceful)
    (h : Director.step s.director s.g s.exited n = some (l', g')) :
    (s.setDirector (l', g')).Graceful := by
  obtain ⟨hmode, hexit⟩ := Director.step_exit h
  refine ⟨fun he => absurd he hmode, fun he => absurd he hmode, fun hx => ?_, fun p hp => ?_⟩
  · rcases hexit hx with ⟨hlock, heintr, -⟩ | hret
    · exact absurd (hI.lock heintr) hlock
    · exact hret
  · have hchild : s.exited p = true := by
      rcases (Director.step_move h).reaped hp with hp | hreaping
      · exact hI.reaped p hp
      rcases Director.step_reaping h hreaping with ⟨hpc, -⟩ | ⟨heintr, -⟩ | ⟨hx, -⟩
      · exact hI.reaped p (hpc ▸ hp)
      · exact hI.wait heintr p hreaping
      · exact hx
    exact (StepOf.director h).exited hchild

theorem deliver {p : c.Proc} {sigs : List Signal} (hI : s.Graceful) (hok : NotHurried s p sigs) :
    (s.deliverTo sigs p).Graceful := by
  have hx := s.exited_deliverTo sigs p
  by_cases hp : p = .director
  · subst hp
    have hlock (he : (s.deliverTo sigs .director).director.mode = .eintr) :
        s.director.pc.locking = none ∧ ∀ q ∈ s.director.pc.reaping, s.exited q = true := by
      by_cases hasleep : s.director.mode = .asleep
      · exact hok rfl hasleep
      · have heintr : s.director.mode = .eintr := by
          simpa [State.deliverTo_director, hasleep] using he
        exact ⟨hI.lock heintr, hI.wait heintr⟩
    refine ⟨fun he => (hlock he).1, fun he q hq => ?_, fun hex => ?_, fun q hq => ?_⟩
    · exact (hx q).trans ((hlock he).2 q hq)
    · obtain ⟨hpc, hmode⟩ := hI.returns ((hx .director).symm.trans hex)
      exact ⟨hpc, by simp [State.deliverTo_director, hmode]⟩
    · exact (hx q).trans (hI.reaped q hq)
  · have hdir : (s.deliverTo sigs p).director = s.director := by
      rw [State.deliverTo_director, if_neg hp]
    refine ⟨fun he => ?_, fun he q hq => ?_, fun hex => ?_, fun q hq => ?_⟩
    · rw [hdir] at he ⊢
      exact hI.lock he
    · rw [hdir] at he hq
      exact (hx q).trans (hI.wait he q hq)
    · rw [hdir] at hex ⊢
      exact hI.returns hex
    · rw [hdir] at hq
      exact (hx q).trans (hI.reaped q hq)

/-- A step that leaves the director alone. -/
theorem frame {a : Act c} (hI : s.Graceful) (h : s.StepOf a s') (hd : s'.director = s.director) :
    s'.Graceful := by
  constructor <;> rw [hd]
  · exact hI.lock
  · exact fun he q hq => h.exited (hI.wait he q hq)
  · exact hI.returns
  · exact fun p hp => h.exited (hI.reaped p hp)

theorem step {a : Act c} (hI : s.Graceful) (hok : Delivers NotHurried s a)
    (h : s.StepOf a s') : s'.Graceful := by
  have hstep := h
  cases h with
  | director h => exact hI.director h
  | deliver p sigs => exact hI.deliver (hok p sigs rfl)
  | dispenser | operator | user | interrupt | tick => exact hI.frame hstep rfl

end Graceful

/-- The invariant of the reaping: no `waitpid` fails, and `stop_children` comes past a child only
    when it has reaped it. -/
structure Reaps (s : State c) : Prop where
  wait : s.director.mode = .eintr → s.director.pc.reaping = none
  reaped : ∀ p, s.director.pc.reaped p → s.g.reaped p = true

namespace Reaps

variable {s s' : State c}

theorem director {n : ℕ} {l' : Director c} {g' : Shared c} (hI : s.Reaps)
    (h : Director.step s.director s.g s.exited n = some (l', g')) :
    (s.setDirector (l', g')).Reaps := by
  have hm := Director.step_move h
  refine ⟨fun he => absurd he (Director.step_exit h).1, fun p hp => ?_⟩
  rw [setDirector_g]
  cases hq : s.director.pc.reaping with
  | none =>
    rw [hm.reaped_eq hq]
    rcases hm.reaped hp with hold | hnew
    · exact hI.reaped p hold
    · exact absurd (hq.symm.trans hnew) (Option.some_ne_none p).symm
  | some q =>
    rcases Director.step_reaping h hq with ⟨hpc, rfl⟩ | ⟨heintr, -⟩ | ⟨-, rfl⟩
    · exact hI.reaped p (hpc ▸ hp)
    · exact absurd (hq.symm.trans (hI.wait heintr)) (Option.some_ne_none q)
    · rw [Shared.reap_reaped, Function.update_apply]
      split
      · rfl
      · rename_i hne
        refine hI.reaped p ((hm.reaped hp).resolve_right fun hnew => hne ?_)
        exact Option.some.inj (hnew.symm.trans hq)

theorem deliver {p : c.Proc} {sigs : List Signal} (hI : s.Reaps) (hok : NotInterrupted s p sigs) :
    (s.deliverTo sigs p).Reaps := by
  refine ⟨fun he => ?_, ?_⟩
  · rw [deliverTo_director_pc]
    rw [deliverTo_director] at he
    split at he
    · by_cases hasleep : s.director.mode = .asleep
      · exact (hok ‹_› hasleep).2
      · rw [Task.deliver_mode, if_neg hasleep] at he
        exact hI.wait he
    · exact hI.wait he
  · rw [deliverTo_director_pc, deliverTo_g]
    exact hI.reaped

theorem step {a : Act c} (hI : s.Reaps) (hok : Delivers NotInterrupted s a)
    (h : s.StepOf a s') : s'.Reaps := by
  cases h with
  | director h => exact hI.director h
  | deliver p sigs => exact hI.deliver (hok p sigs rfl)
  | dispenser h =>
    refine ⟨hI.wait, ?_⟩
    rw [setDispenser_g, (Dispenser.step_move h).1.frame]
    exact hI.reaped
  | operator w h =>
    refine ⟨hI.wait, ?_⟩
    rw [setOperator_g, (Operator.step_move h).frame]
    exact hI.reaped
  | user u h =>
    refine ⟨hI.wait, ?_⟩
    rw [setUser_g, (User.step_move h).1.frame]
    exact hI.reaped
  | interrupt | tick => exact ⟨hI.wait, hI.reaped⟩

theorem init : (State.init c).Reaps := ⟨nofun, fun _ => False.elim⟩

end Reaps

end State

theorem removes {s : State c} (h : Reachable s) : s.Removes :=
  ReachableBy.induct .init (fun _ _ _ _ hI _ hs => hI.step hs) h

theorem graceful {s : State c} (h : ReachableBy (Delivers NotHurried) s) : s.Graceful :=
  ReachableBy.induct .init (fun _ _ _ _ hI hok hs => hI.step hok hs) h

theorem reaps {s : State c} (h : ReachableBy (Delivers NotInterrupted) s) : s.Reaps :=
  ReachableBy.induct .init (fun _ _ _ _ hI hok hs => hI.step hok hs) h

/-- CORRECT: in a run in which no signal interrupts a lock of the director nor its `waitpid`, the
    director terminates only by returning from `main`, with every child reaped and every IPC object
    removed, and it removes none while a child is left. -/
theorem director_leaves_cleanly {s : State c} (h : ReachableBy (Delivers NotInterrupted) s) :
    s.LeavesCleanly := by
  have hG := graceful (h.mono fun s a hok p sigs he => (hok p sigs he).notHurried)
  have hR := reaps h
  have hO := removes h.reach
  have hlate {r : Resource} (hr : s.g.objects r = false) {p : c.Proc} (hp : p ≠ .director) :
      s.director.pc.reaped p :=
    DirPc.reaped_of_cleaning (hO.late r hr) hp
  refine ⟨fun hx => ⟨(hG.returns hx).1, fun hlog => ?_⟩, fun hx p hp => hR.reaped p ?_,
    fun hx r => hO.removed r ?_, fun r hr p hp =>
      ⟨hR.reaped p (hlate hr hp), hG.reaped p (hlate hr hp)⟩⟩
  · rw [(hG.returns hx).2, Setup.endStatus, if_pos hlog]
  · rw [(hG.returns hx).1]
    exact hp
  · rw [(hG.returns hx).1]
    exact trivial

/-- `SIGINT` in the sleep of the first day, and `SIGTERM` between two `waitpid`. -/
def SmallOffice.shutDown : List (Act smallOffice) :=
  morning ++ own .director 1 ++ [.interrupt false] ++ signal .director .int ++ own .director 7 ++
    signal clerk .usr1 ++ signal clerk .usr2 ++ own clerk 12 ++ own .director 61 ++
    signal clerk .term ++ own clerk 3 ++ own .director 1 ++ [.interrupt true] ++
    signal .director .term ++ own .director 1 ++ signal first .term ++ own first 1 ++
    signal second .term ++ own second 1 ++ own .director 2 ++ signal .dispenser .term ++
    own .dispenser 1 ++ own .director 10

/-- The director returns from `main`. -/
theorem director_leaves_cleanly_small : ∃ s : State smallOffice,
    exec step SmallOffice.shutDown (State.init smallOffice) = some s ∧
      s.director.exited = true ∧ s.LeavesCleanly := by
  have hrun : ((exec step SmallOffice.shutDown (State.init smallOffice)).any fun s =>
      decide (s.director.exited = true)) = true := by decide +kernel
  obtain ⟨s, hs, h⟩ := (Option.any_eq_true _ _).mp hrun
  have hok : Allowed step (Delivers NotInterrupted) SmallOffice.shutDown
      (State.init smallOffice) := by decide +kernel
  exact ⟨s, hs, of_decide_eq_true h, director_leaves_cleanly (ReachBy.of_exec _ .refl hs hok)⟩

/-- The lock is the defect: a signal that comes while the director sleeps in the lock of a mutex
    makes its next step an `exit(EXIT_FAILURE)`. -/
theorem exits_of_interrupted {s s' : State c} {sigs : List Signal}
    (hlock : s.director.pc.locking ≠ none) (hasleep : s.director.mode = .asleep)
    (hsig : .int ∈ sigs ∨ .term ∈ sigs) (hs : step s (.deliver .director sigs) = some s') :
    ∃ t, step s' (.own .director 0) = some t ∧ t.director.mode = .exited 1 := by
  obtain rfl := State.eq_deliverTo hs
  set l := s.director.deliver handleDirectorSignal sigs with hl
  have hmode : l.mode = .eintr := by simp [hl, hasleep]
  have hflag : l.vars.shutdownRequested = true := by
    rw [hl, Task.deliver_vars, foldl_shutdownRequested]
    rcases hsig with hsig | hsig <;> simp [hsig]
  have hpc : l.pc = s.director.pc := rfl
  have hlive : l.exited = false := by simp [Task.exited, hmode]
  have hexit (g : Shared c) (ex : c.Proc → Bool) : Director.step l g ex 0 = some (l.exit 1, g) := by
    rw [Director.step, hlive, Director.body]
    cases hat : s.director.pc <;> rw [hat] at hlock hpc <;> rw [hpc] <;> first
      | exact absurd rfl hlock
      | simp [Director.semOpRetry, hmode, hflag]
  have hstep : step (s.deliverTo sigs .director) (.own .director 0) =
      some ((s.deliverTo sigs .director).setDirector
        (l.exit 1, (s.deliverTo sigs .director).g)) := by
    simp only [step, State.deliverTo_director, if_true, ← hl, hexit, Option.map_some]
  exact ⟨_, hstep, rfl⟩

/-- The dispenser is inside `lock_stats` when the first day ends, and `SIGINT` comes while the
    director waits for the mutex in `print_daily_statistics`. -/
def SmallOffice.interruptedLock : List (Act smallOffice) :=
  arrival ++ own .dispenser 2 ++ own .director 6 ++ signal clerk .usr2 ++ own clerk 7 ++
    own .director 49 ++ [.interrupt false] ++ signal .director .int ++ own .director 1

/-- `SIGINT` before the first day, and once more in every `waitpid`. -/
def SmallOffice.interruptedWaits : List (Act smallOffice) :=
  own .dispenser 1 ++ own clerk 1 ++ own first 1 ++ own second 1 ++ own .director 4 ++
    [.interrupt false] ++ signal .director .int ++ own .director 9 ++
    (List.replicate 4 (own .director 1 ++ [.interrupt false] ++ signal .director .int ++
      own .director 1)).flatten ++ own .director 9

/-- The children of the small office. -/
theorem SmallOffice.forall_child {P : Proc 1 2 → Prop}
    (h : P .dispenser ∧ P clerk ∧ P first ∧ P second) (p : Proc 1 2) (hp : p ≠ .director) :
    P p := by
  cases p with
  | director => exact absurd rfl hp
  | dispenser => exact h.1
  | operator w =>
    obtain rfl := Subsingleton.elim w 0
    exact h.2.1
  | user u =>
    have huser : ∀ u : Fin 2, P (.user u) := Fin.forall_fin_two.mpr h.2.2
    exact huser u

/-- In the first run the director exits with failure, in the second it removes every IPC object and
    returns; every child is alive. -/
theorem director_leaves_children :
    (∃ s : State smallOffice,
      exec step SmallOffice.interruptedLock (State.init smallOffice) = some s ∧
        s.director.mode = .exited 1 ∧ (∀ p, p ≠ .director → s.exited p = false) ∧
        ¬ s.LeavesCleanly) ∧
    ∃ s : State smallOffice,
      exec step SmallOffice.interruptedWaits (State.init smallOffice) = some s ∧
        s.director.mode = .exited 0 ∧ (∀ r, s.g.objects r = false) ∧
        (∀ p, p ≠ .director → s.exited p = false) ∧ ¬ s.LeavesCleanly := by
  have hlock : ((exec step SmallOffice.interruptedLock (State.init smallOffice)).any fun s =>
      decide (s.director.mode = .exited 1 ∧ s.director.pc = .printLock ∧
        s.exited .dispenser = false ∧ s.exited SmallOffice.clerk = false ∧
        s.exited SmallOffice.first = false ∧ s.exited SmallOffice.second = false)) = true := by
    decide +kernel
  have hwait : ((exec step SmallOffice.interruptedWaits (State.init smallOffice)).any fun s =>
      decide (s.director.mode = .exited 0 ∧ (∀ r, s.g.objects r = false) ∧
        s.exited .dispenser = false ∧ s.exited SmallOffice.clerk = false ∧
        s.exited SmallOffice.first = false ∧ s.exited SmallOffice.second = false)) = true := by
    decide +kernel
  constructor
  · obtain ⟨s, hs, h⟩ := (Option.any_eq_true _ _).mp hlock
    obtain ⟨hmode, hpc, hall⟩ := of_decide_eq_true h
    refine ⟨s, hs, hmode, SmallOffice.forall_child hall, fun hclean => ?_⟩
    have hexited : s.director.exited = true := by simp [Task.exited, hmode]
    exact absurd (hpc.symm.trans (hclean.returns hexited).1) (by simp)
  · obtain ⟨s, hs, h⟩ := (Option.any_eq_true _ _).mp hwait
    obtain ⟨hmode, hobjects, hall⟩ := of_decide_eq_true h
    refine ⟨s, hs, hmode, hobjects, SmallOffice.forall_child hall, fun hclean => ?_⟩
    have hdead := (hclean.inOrder .config (hobjects _) .dispenser (by simp)).2
    exact Bool.false_ne_true (hall.1.symm.trans hdead)

end PostOffice
