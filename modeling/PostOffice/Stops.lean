import PostOffice.CtrlC
import PostOffice.Wakeups
import PostOffice.Shutdown
import PostOffice.Limits
import PostOffice.LostSignal

/-! Where a process can stop. A process has no next step only when it has terminated or when it is
    asleep in a call that somebody else has to end:

        semop -1        somebody gives the unit back
        msgsnd          somebody takes a message out
        msgrcv          somebody sends one
        sigsuspend      somebody sends a signal
        waitpid         the child terminates

    A sleep ends by itself, and a call that has been interrupted goes on. -/

namespace PostOffice

open Transition

variable {c : Setup}

namespace Task

variable {P V : Type} {l : Task P V} {g : Shared c} {σ : Sem c.nofWorkerSeats} {m : Message}
  {e : c.Event} {next : P}

theorem semWait_eq_none (h : l.semWait g σ next = none) : l.mode = .asleep ∧ g.sem σ = 0 := by
  unfold semWait at h
  repeat' split at h
  all_goals cases h
  exact ⟨‹_›, Nat.eq_zero_of_not_pos ‹_›⟩

theorem msgSend_eq_none (h : l.msgSend g m e next = none) : l.mode = .asleep := by
  unfold msgSend at h
  repeat' split at h
  all_goals cases h
  assumption

theorem nanosleep_ne_none : l.nanosleep g next ≠ none := by
  unfold nanosleep
  split <;> exact Option.some_ne_none _

end Task

/-! ### The operator -/

namespace Operator

variable {w : Fin c.nofWorkers} {l l' : Operator c} {g g' : Shared c} {n : ℕ}

/-- The operator has stopped. -/
inductive Stops (w : Fin c.nofWorkers) (l : Operator c) (g : Shared c) : Prop where
  | exited (hx : l.exited = true)
  | done (hpc : l.pc = .done)
  | suspended (hpc : l.pc = .suspend) (hm : l.mode = .asleep)
  | sending (hpc : l.pc.sending = true) (hm : l.mode = .asleep)
  | locking {σ} (hpc : l.pc.locking (c.workerService w) = some σ) (h0 : g.sem σ = 0)
  | awaiting (hpc : l.pc.awaiting = true) (hm : l.mode = .asleep)

theorem semOpInterruptible_eq_none {σ : Sem c.nofWorkerSeats} {next : OpPc c.nofWorkerSeats}
    {onIntr : Operator c} (h : semOpInterruptible l g σ next onIntr = none) :
    l.mode = .asleep ∧ g.sem σ = 0 := by
  unfold semOpInterruptible at h
  repeat' split at h
  · cases h
  · cases h
  · exact Task.semWait_eq_none h

theorem stops_of_step (h : step w l g n = none) : Stops w l g := by
  unfold step at h
  split at h
  · exact .exited ‹_›
  unfold body at h
  cases hat : l.pc <;> rw [hat] at h <;> simp only at h
  case scanLock | popLock | releaseLock =>
    exact .locking (by rw [hat]; rfl) (semOpInterruptible_eq_none h).2
  case serveLock | pauseLock =>
    exact .locking (by rw [hat]; rfl) (semOpInterruptible_eq_none h).2
  case claimToken | waitTicket =>
    exact .awaiting (by rw [hat]; rfl) (semOpInterruptible_eq_none h).1
  case sendInit | serveReply | dayFinished =>
    simp only [sendDirectorMessage, sendUserReply, msgSendRetry] at h
    split at h
    · cases h
    · exact .sending (by rw [hat]; rfl) (Task.msgSend_eq_none h)
  case serveSleep =>
    split at h
    · cases h
    · exact absurd h Task.nanosleep_ne_none
  case suspend =>
    repeat' split at h
    all_goals cases h
    exact .suspended hat ‹_›
  case done => exact .done hat
  all_goals first
    | cases h
    | (repeat' split at h) <;> cases h

/-- Where it stops alive, it is in no critical section. -/
theorem lock_of_stops (h : Stops w l g) (hx : l.exited = false) : (view w l).lock = none := by
  unfold view
  cases h with
  | exited h => exact absurd (hx.symm.trans h) Bool.false_ne_true
  | done h | suspended h => rw [h]; rfl
  | sending h =>
    rcases OpPc.eq_of_sending h with hpc | ⟨k, t, hpc⟩ | hpc <;> rw [hpc] <;> rfl
  | locking h => exact OpPc.lock_of_locking h
  | awaiting h => cases hpc : l.pc <;> rw [hpc] at h <;> first | rfl | exact Bool.noConfusion h

end Operator

/-! ### The dispenser -/

namespace Dispenser

variable {l l' : Dispenser c} {g g' : Shared c}

/-- The dispenser has stopped. -/
inductive Stops (l : Dispenser c) (g : Shared c) : Prop where
  | exited (hx : l.exited = true)
  | done (hpc : l.pc = .done)
  | receiving (hpc : l.pc = .receive) (hm : l.mode = .asleep)
  | misread {m} (hpc : l.pc = .receive) (hm : g.firstOfType ticketRequestMtype = some m)
      (hno : ∀ t, m ≠ .ticket t)
  | sending (hpc : l.pc.sending = true) (hm : l.mode = .asleep)
  | locking {σ} (hpc : l.pc.locking = some σ) (h0 : g.sem σ = 0)

theorem semOpRetry_eq_none {σ : Sem c.nofWorkerSeats} {next : DispPc c.nofWorkerSeats}
    (h : semOpRetry l g σ next = none) : g.sem σ = 0 := by
  unfold semOpRetry at h
  repeat' split at h
  · cases h
  · cases h
  · exact (Task.semWait_eq_none h).2

theorem sendUserReply_eq_none {pid : ℤ} {status : UserReplyStatus} {service : Service}
    {next : DispPc c.nofWorkerSeats} (h : sendUserReply l g pid status service next = none) :
    l.mode = .asleep := by
  unfold sendUserReply at h
  repeat' split at h
  · cases h
  · cases h
  · exact Task.msgSend_eq_none h

theorem stops_of_step (h : step l g = none) : Stops l g := by
  unfold step at h
  split at h
  · exact .exited ‹_›
  unfold body at h
  cases hat : l.pc <;> rw [hat] at h <;> simp only at h
  case countLock | queueLock | refuseLock =>
    exact .locking (by rw [hat]; rfl) (semOpRetry_eq_none h)
  case invalidReply | refuseReply =>
    exact .sending (by rw [hat]; rfl) (sendUserReply_eq_none h)
  case sendInit =>
    split at h
    · cases h
    · exact .sending (by rw [hat]; rfl) (Task.msgSend_eq_none h)
  case receive =>
    repeat' split at h
    all_goals first
      | exact .misread hat ‹_› ‹_›
      | exact .receiving hat ‹l.mode = .asleep›
      | cases h
  case done => exact .done hat
  all_goals first
    | cases h
    | (repeat' split at h) <;> cases h

theorem lock_of_stops (h : Stops l g) (hx : l.exited = false) : l.pc.lock = none := by
  cases h with
  | exited h => exact absurd (hx.symm.trans h) Bool.false_ne_true
  | done h | receiving h | misread h => rw [h]; rfl
  | sending h => cases hpc : l.pc <;> rw [hpc] at h <;> first | rfl | exact Bool.noConfusion h
  | locking h => exact DispPc.lock_of_locking h

end Dispenser

/-! ### The user -/

namespace User

variable {u : Fin c.nofUsers} {l l' : User} {g g' : Shared c} {n : ℕ}

/-- The user has stopped. -/
inductive Stops (l : User) : Prop where
  | exited (hx : l.exited = true)
  | done (hpc : l.pc = .done)
  | suspended (hpc : l.pc = .suspend) (hm : l.mode = .asleep)
  | sending (hpc : l.pc.sending = true) (hm : l.mode = .asleep)
  | waiting {q} (hpc : l.pc = .requestWait q) (hm : l.mode = .asleep)

theorem stops_of_step (h : step u l g n = none) : Stops l := by
  unfold step at h
  split at h
  · exact .exited ‹_›
  unfold body at h
  cases hat : l.pc <;> rw [hat] at h <;> simp only at h
  case sendInit | requestSend =>
    repeat' split at h
    all_goals first
      | cases h
      | exact .sending (by rw [hat]; rfl) (Task.msgSend_eq_none h)
  case requestWait =>
    unfold receiveReply at h
    dsimp only at h
    repeat' split at h
    all_goals first
      | exact .waiting hat ‹l.mode = .asleep›
      | cases h
  case arrive =>
    split at h
    · cases h
    · exact absurd h Task.nanosleep_ne_none
  case suspend =>
    repeat' split at h
    all_goals cases h
    exact .suspended hat ‹_›
  case done => exact .done hat
  all_goals first
    | cases h
    | (repeat' split at h) <;> cases h

end User

/-! ### The director -/

namespace Director

variable {l l' : Director c} {g g' : Shared c} {ex : c.Proc → Bool} {n : ℕ}

/-- The director has stopped. -/
inductive Stops (l : Director c) (g : Shared c) (ex : c.Proc → Bool) : Prop where
  | exited (hx : l.exited = true)
  | ended (hpc : l.pc = .ended)
  | receiving (hpc : l.pc = .waitInit ∨ l.pc = .waitDayEnd)
      (hnone : ∀ m, g.firstOfType directorMtype ≠ some (.director m))
  | sending (hpc : l.pc.sending = true) (hm : l.mode = .asleep)
  | locking {σ} (hpc : l.pc.locking = some σ) (h0 : g.sem σ = 0)
  | reaping {q} (hpc : l.pc.reaping = some q) (halive : ex q = false)

theorem semOpRetry_eq_none {σ : Sem c.nofWorkerSeats}
    {next : DirPc c.nofWorkerSeats c.nofWorkers c.nofUsers}
    (h : semOpRetry l g σ next = none) : g.sem σ = 0 := by
  unfold semOpRetry at h
  repeat' split at h
  · cases h
  · cases h
  · exact (Task.semWait_eq_none h).2

theorem receiveDirector_eq_none {onMessage : DirectorMessage → Director c}
    (h : receiveDirector l g onMessage = none) (m : DirectorMessage) :
    g.firstOfType directorMtype ≠ some (.director m) := by
  intro hm
  unfold receiveDirector at h
  rw [hm] at h
  split at h <;> cases h

theorem waitpid_eq_none {p : c.Proc} {next : DirPc c.nofWorkerSeats c.nofWorkers c.nofUsers}
    (h : waitpid l g p ex next = none) : ex p = false := by
  unfold waitpid at h
  repeat' split at h
  all_goals cases h
  exact Bool.eq_false_iff.mpr ‹_›

theorem stops_of_step (h : step l g ex n = none) : Stops l g ex := by
  unfold step at h
  split at h
  · exact .exited ‹_›
  unfold body at h
  cases hat : l.pc <;> rw [hat] at h <;> simp only at h
  case resetLock | assignLock | countLock | flushLock | flushStatsLock | printLock | finalLock =>
    exact .locking (by rw [hat]; rfl) (semOpRetry_eq_none h)
  case waitInit => exact .receiving (.inl hat) (receiveDirector_eq_none h)
  case waitDayEnd => exact .receiving (.inr hat) (receiveDirector_eq_none h)
  case reapWorker | reapUser | reapDispenser =>
    exact .reaping (by rw [hat]; rfl) (waitpid_eq_none h)
  case flushReply =>
    split at h
    · cases h
    · exact .sending (by rw [hat]; rfl) (Task.msgSend_eq_none h)
  case daySleep =>
    repeat' split at h
    · cases h
    · cases h
    · exact absurd h Task.nanosleep_ne_none
  case ended => exact .ended hat
  all_goals first
    | cases h
    | (repeat' split at h) <;> cases h

end Director

end PostOffice
