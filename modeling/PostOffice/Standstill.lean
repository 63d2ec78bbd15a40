import PostOffice.Stops
import PostOffice.Work

/-! The standstill. In a run in which every signal is delivered where its receiver can hear it, and
    with a message queue that is large enough, the office comes to a standstill in one way only:
    the director has come to the end of `main`, every child has terminated and every IPC object has
    been removed.

        director waits for      because                        but
          INIT                  a child has not sent it        nobody sleeps in `msgsnd`
          DAY_FINISHED          an operator has not sent it    it has heard `SIGUSR2`
          a child's end         the child is alive             it has heard `SIGTERM`
          a mutex               somebody is inside             nobody stops inside -/

namespace PostOffice

open Transition

variable {c : Setup}

/-! ### Where the processes terminate -/

/-- A process at the end of `main` has terminated, and nobody terminates in front of its
    announcement. -/
def Task.Ends {P V : Type} (sendInit done : P) (l : Task P V) : Prop :=
  (l.pc = done → l.exited = true) ∧ (l.pc = sendInit → l.exited = false)

theorem Task.Ends.deliver {P V : Type} {sendInit done : P} {l : Task P V}
    (h : l.Ends sendInit done) (handler : V → Signal → V) (sigs : List Signal) :
    (l.deliver handler sigs).Ends sendInit done := by
  unfold Ends
  rw [Task.exited_deliver]
  exact h

theorem Operator.step_ends {w : Fin c.nofWorkers} {l l' : Operator c} {g g' : Shared c} {n : ℕ}
    (h : step w l g n = some (l', g')) : l'.Ends .sendInit .done := by
  unfold step at h
  split at h
  · cases h
  rename_i hx
  rw [Bool.not_eq_true] at hx
  unfold body at h
  cases hat : l.pc <;> rw [hat] at h <;> simp only [lockStats, semOpInterruptible,
    sendDirectorMessage, sendUserReply, msgSendRetry, Task.semWait, Task.semPost, Task.msgSend,
    Task.nanosleep, forLoop] at h
  all_goals (repeat' split at h) <;> cases h
  all_goals simp [Task.Ends, Task.exited, hat]

theorem Dispenser.step_ends {l l' : Dispenser c} {g g' : Shared c}
    (h : step l g = some (l', g')) : l'.Ends .sendInit .done := by
  unfold step at h
  split at h
  · cases h
  unfold body at h
  cases hat : l.pc <;> rw [hat] at h <;> simp only [semOpRetry, sendUserReply, Task.semWait,
    Task.semPost, Task.msgSend, forLoop] at h
  all_goals (repeat' split at h) <;> cases h
  all_goals simp [Task.Ends, Task.exited, hat]

theorem User.step_ends {u : Fin c.nofUsers} {l l' : User} {g g' : Shared c} {n : ℕ}
    (h : step u l g n = some (l', g')) : l'.Ends .sendInit .done := by
  unfold step at h
  split at h
  · cases h
  unfold body at h
  cases hat : l.pc <;> rw [hat] at h <;> simp only [receiveReply, Task.msgSend,
    Task.nanosleep] at h
  all_goals (repeat' split at h) <;> cases h
  all_goals simp [Task.Ends, Task.exited, hat]

theorem Director.step_ends {l l' : Director c} {g g' : Shared c} {ex : c.Proc → Bool} {n : ℕ}
    (h : step l g ex n = some (l', g')) : l'.Ends .waitInit .ended := by
  unfold step at h
  split at h
  · cases h
  unfold body at h
  cases hat : l.pc <;> rw [hat] at h <;> simp only [semOpRetry, receiveDirector, countMessage,
    waitpid, Task.semWait, Task.semPost, Task.msgSend, Task.nanosleep, forLoop] at h
  all_goals (repeat' split at h) <;> cases h
  all_goals simp [Task.Ends, Task.exited, hat]

namespace State

/-- No process goes beyond the end of its `main`. -/
structure Ends (s : State c) : Prop where
  director : s.director.Ends .waitInit .ended
  dispenser : s.dispenser.Ends .sendInit .done
  operator : ∀ w, (s.operators w).Ends .sendInit .done
  user : ∀ u, (s.users u).Ends .sendInit .done

theorem Ends.step {s s' : State c} {a : Act c} (hI : s.Ends) (h : s.StepOf a s') : s'.Ends := by
  cases h with
  | interrupt | tick => exact ⟨hI.director, hI.dispenser, hI.operator, hI.user⟩
  | director hstep => exact ⟨Director.step_ends hstep, hI.dispenser, hI.operator, hI.user⟩
  | dispenser hstep => exact ⟨hI.director, Dispenser.step_ends hstep, hI.operator, hI.user⟩
  | operator w hstep =>
    exact ⟨hI.director, hI.dispenser, (Function.forall_update_iff s.operators fun _ l =>
      l.Ends .sendInit .done).mpr ⟨Operator.step_ends hstep, fun v _ => hI.operator v⟩, hI.user⟩
  | user u hstep =>
    exact ⟨hI.director, hI.dispenser, hI.operator, (Function.forall_update_iff s.users fun _ l =>
      l.Ends .sendInit .done).mpr ⟨User.step_ends hstep, fun v _ => hI.user v⟩⟩
  | deliver p sigs =>
    refine ⟨?_, ?_, fun w => ?_, fun u => ?_⟩
    · rw [deliverTo_director]
      split
      · exact hI.director.deliver _ _
      · exact hI.director
    · rw [deliverTo_dispenser]
      split
      · exact hI.dispenser.deliver _ _
      · exact hI.dispenser
    · rw [deliverTo_operators]
      split
      · exact (hI.operator w).deliver _ _
      · exact hI.operator w
    · rw [deliverTo_users]
      split
      · exact (hI.user u).deliver _ _
      · exact hI.user u

theorem Ends.init : (State.init c).Ends :=
  ⟨⟨nofun, fun _ => rfl⟩, ⟨nofun, fun _ => rfl⟩, fun _ => ⟨nofun, fun _ => rfl⟩,
    fun _ => ⟨nofun, fun _ => rfl⟩⟩

end State

theorem ends {s : State c} (h : Reachable s) : s.Ends :=
  ReachableBy.induct .init (fun _ _ _ _ hI _ hs => hI.step hs) h

/-! ### The last signal -/

/-- `stop_children` has sent `SIGTERM` to the process. -/
def DirPc.told {seats workers users : ℕ} : DirPc seats workers users → Proc workers users → Bool
  | _, .director => false
  | .termWorkers _, .dispenser | .termUsers _, .dispenser | .termUsers _, .operator _ => true
  | .termWorkers i, .operator w => w < i
  | .termUsers i, .user u => u < i
  | .reapWorker _, _ | .reapUser _, _ | .reapDispenser, _ | .cleanupIpc _, _ | .logStop, _
  | .ended, _ => true
  | _, _ => false

theorem DirPc.told_of_reaping {seats workers users : ℕ} {pc : DirPc seats workers users}
    {p : Proc workers users} (h : pc.reaping = some p) : pc.told p = true := by
  cases pc <;> cases h <;> rfl

/-- The child has been told to terminate. -/
def State.terminates (s : State c) : c.Proc → Bool
  | .director => s.director.vars.shutdownRequested
  | .dispenser => s.dispenser.vars.terminateRequested
  | .operator w => (s.operators w).vars.terminateRequested
  | .user u => (s.users u).vars.terminateRequested

/-- A child that `stop_children` has come past has its `SIGTERM` pending or its flag raised. -/
def State.Told (s : State c) : Prop :=
  ∀ p, s.director.pc.told p = true → s.g.pending p .term = true ∨ s.terminates p = true

theorem Director.Move.told {pc pc' : DirPc c.nofWorkerSeats c.nofWorkers c.nofUsers}
    {v v' : DirVars} {g g' : Shared c} (h : Director.Move pc v g pc' v' g') {p : c.Proc}
    (hp : pc'.told p = true) : pc.told p = true ∨ g'.pending p .term = true := by
  cases h
  case stay => exact .inl hp
  case termDispenser | termWorkersNext i hi | termWorkersLast i hi | termUsersNext i hi
      | termUsersLast i hi =>
    cases p <;> simp only [DirPc.told, decide_eq_true_eq, Fin.lt_def, Bool.false_eq_true,
      Shared.kill_pending, Function.update_apply] at hp ⊢
    all_goals grind
  case reapWorkerNext | reapWorkerLast | reapUserNext | reapUserLast | reapDispenser | cleanupNext
      | cleanupLast | logStop =>
    exact .inl (by cases p <;> first | rfl | exact Bool.noConfusion hp)
  all_goals cases p <;> exact Bool.noConfusion hp

/-- A pending signal stays pending until it is delivered. -/
theorem Director.Move.pending_of_term {pc pc' : DirPc c.nofWorkerSeats c.nofWorkers c.nofUsers}
    {v v' : DirVars} {g g' : Shared c} (h : Director.Move pc v g pc' v' g') {p : c.Proc}
    (hp : g.pending p .term = true) : g'.pending p .term = true := by
  cases h
  case startWorkersNext | startWorkersLast | startUsersNext | startUsersLast | stopWorkersNext
      | stopWorkersLast | stopUsersNext | stopUsersLast | termDispenser | termWorkersNext
      | termWorkersLast | termUsersNext | termUsersLast =>
    simp only [Shared.kill_pending, Function.update_apply]
    grind
  all_goals exact hp

namespace State

variable {s s' : State c}

/-- A raised flag stays raised. -/
theorem terminates_deliverTo {p : c.Proc} (h : s.terminates p = true) (q : c.Proc)
    (sigs : List Signal) : (s.deliverTo sigs q).terminates p = true := by
  cases p with
  | director =>
    simp only [terminates, deliverTo_director] at h ⊢
    split
    · simp [foldl_shutdownRequested, h]
    · exact h
  | dispenser =>
    simp only [terminates, deliverTo_dispenser] at h ⊢
    split
    · simp [foldl_handleTicketSignal, h]
    · exact h
  | operator w =>
    simp only [terminates, deliverTo_operators] at h ⊢
    split
    · simp [foldl_handleOperatorSignal, h]
    · exact h
  | user u =>
    simp only [terminates, deliverTo_users] at h ⊢
    split
    · simp [foldl_handleUserSignal, h]
    · exact h

/-- `SIGTERM` raises it. -/
theorem terminates_of_term {sigs : List Signal} (h : .term ∈ sigs) (p : c.Proc) :
    (s.deliverTo sigs p).terminates p = true := by
  cases p <;> simp [terminates, deliverTo, foldl_shutdownRequested, foldl_handleTicketSignal,
    foldl_handleOperatorSignal, foldl_handleUserSignal, h]

theorem Told.step (hI : s.Told) (h : s.Move s') : s'.Told := by
  intro p hp
  cases h with
  | director hm =>
    rcases hm.told hp with hold | hterm
    · refine (hI p hold).imp hm.pending_of_term fun ht => ?_
      cases p with
      | director => exact absurd hp Bool.false_ne_true
      | dispenser | operator w | user u => exact ht
    · exact .inl hterm
  | dispenser hm hf =>
    rw [hm.frame]
    refine (hI p hp).imp_right fun ht => ?_
    cases p with
    | dispenser => exact (congrArg DispFlags.terminateRequested hf).trans ht
    | director | operator w | user u => exact ht
  | operator w hstep hm =>
    have hf := hm.terminate
    rw [hm.frame]
    refine (hI p hp).imp_right fun ht => ?_
    cases p with
    | operator v =>
      simp only [terminates, setOperator_operators, Function.update_apply] at ht ⊢
      split
      · subst_vars
        exact hf.trans ht
      · exact ht
    | director | dispenser | user u => exact ht
  | user u hm hf =>
    rw [hm.frame]
    refine (hI p hp).imp_right fun ht => ?_
    cases p with
    | user v =>
      simp only [terminates, setUser_users, Function.update_apply] at ht ⊢
      split
      · subst_vars
        exact hf.trans ht
      · exact ht
    | director | dispenser | operator w => exact ht
  | deliver q sigs hq =>
    rw [deliverTo_director_pc] at hp
    rcases hI p hp with hterm | ht
    · by_cases hhit : p = q ∧ .term ∈ sigs
      · obtain ⟨rfl, hmem⟩ := hhit
        exact .inr (terminates_of_term hmem p)
      · refine .inl ?_
        simp only [deliverTo_g, Shared.delivered_pending, Function.update_apply]
        split
        · subst_vars
          simpa [hterm] using hhit
        · exact hterm
    · exact .inr (terminates_deliverTo ht q sigs)
  | interrupt sig hsig =>
    refine (hI p hp).imp_left fun ht => ?_
    simp only [setG_g, Shared.kill_pending, Function.update_apply]
    grind
  | tick ns => exact hI p hp

end State

theorem told {s : State c} (h : Reachable s) : s.Told :=
  h.invariant (fun p hp => by cases p <;> cases hp) fun _ _ _ hI hm => hI.step hm

/-! ### The standstill -/

/-- Every signal is delivered where its receiver hears it and where it does no harm. -/
def Careful (s : State c) (p : c.Proc) (sigs : List Signal) : Prop :=
  HeardAsleep s p sigs ∧ HeardInTime s p sigs ∧ StatsUndisturbed s p sigs ∧ NotHurried s p sigs

instance (s : State c) (p : c.Proc) (sigs : List Signal) : Decidable (Careful s p sigs) := by
  unfold Careful
  infer_instance

theorem careful_mono {D : State c → c.Proc → List Signal → Prop} {s : State c}
    (hD : ∀ s p sigs, Careful s p sigs → D s p sigs) (h : ReachableBy (Delivers Careful) s) :
    ReachableBy (Delivers D) s :=
  h.mono fun _ _ hok p sigs he => hD _ p sigs (hok p sigs he)

theorem OpPc.isMutex_of_locking {seats : ℕ} {service : Service} {pc : OpPc seats} {σ : Sem seats}
    (h : pc.locking service = some σ) : σ.IsMutex := by
  cases pc <;> cases h <;> trivial

theorem DispPc.isMutex_of_locking {seats : ℕ} {pc : DispPc seats} {σ : Sem seats}
    (h : pc.locking = some σ) : σ.IsMutex := by
  cases pc <;> cases h <;> trivial

theorem DirPc.isMutex_of_locking {seats workers users : ℕ} {pc : DirPc seats workers users}
    {σ : Sem seats} (h : pc.locking = some σ) : σ.IsMutex := by
  cases pc <;> cases h <;> trivial

/-! A child that has not announced itself is about to. -/

theorem DispPc.eq_of_not_inited {seats : ℕ} {pc : DispPc seats} (h : ¬pc.inited = true) :
    pc = .sendInit := by
  cases pc <;> first | rfl | exact absurd rfl h

theorem UserPc.eq_of_not_inited {pc : UserPc} (h : ¬pc.inited = true) : pc = .sendInit := by
  cases pc <;> first | rfl | exact absurd rfl h

theorem Operator.eq_of_not_inited {w : Fin c.nofWorkers} {l : Operator c}
    (h : ¬(view w l).inited = true) : l.pc = .sendInit := by
  unfold view at h
  cases hpc : l.pc <;> rw [hpc] at h <;> first | rfl | exact absurd rfl h

namespace State

/-- No process has a next step and no signal can be delivered where it is heard. -/
def Standstill (s : State c) : Prop :=
  Transition.AtRest PostOffice.step (Delivers Careful) Act.works s

/-- The director has come to the end of `main`, and neither a child nor an IPC object is left. -/
structure Over (s : State c) : Prop where
  director : s.director.mode = .exited c.endStatus
  children : ∀ p, s.exited p = true
  objects : ∀ r, s.g.objects r = false

namespace Standstill

variable {s : State c}

theorem own_eq_none (hS : s.Standstill) (p : c.Proc) (n : ℕ) :
    PostOffice.step s (.own p n) = none :=
  Option.eq_none_iff_forall_ne_some.mpr fun s' => hS _ s' rfl fun _ _ he => nomatch he

theorem director (hS : s.Standstill) : Director.Stops s.director s.g s.exited :=
  Director.stops_of_step (Option.map_eq_none_iff.mp (hS.own_eq_none .director 0))

theorem dispenser (hS : s.Standstill) : Dispenser.Stops s.dispenser s.g :=
  Dispenser.stops_of_step (Option.map_eq_none_iff.mp (hS.own_eq_none .dispenser 0))

theorem operator (hS : s.Standstill) (w : Fin c.nofWorkers) :
    Operator.Stops w (s.operators w) s.g :=
  Operator.stops_of_step (Option.map_eq_none_iff.mp (hS.own_eq_none (.operator w) 0))

theorem user (hS : s.Standstill) (u : Fin c.nofUsers) : User.Stops (s.users u) :=
  User.stops_of_step (Option.map_eq_none_iff.mp (hS.own_eq_none (.user u) 0))

/-- Otherwise the signal could be delivered. -/
theorem not_pending (hS : s.Standstill) {p : c.Proc} {sig : Signal} (hx : s.exited p = false)
    (hc : Careful s p [sig]) : s.g.pending p sig = false := by
  refine Bool.eq_false_iff.mpr fun hp =>
    hS (.deliver p [sig]) (s.deliverTo [sig] p) rfl (fun q sigs he => ?_) ?_
  · cases he
    exact hc
  · simp only [PostOffice.step]
    exact if_pos ⟨List.cons_ne_nil _ _, List.nodup_singleton _, by simpa using hp, hx⟩

/-- Only the director can have stopped inside a critical section. -/
theorem director_holds (hS : s.Standstill) (hr : Reachable s) {σ : Sem c.nofWorkerSeats}
    (hσ : σ.IsMutex) (h0 : s.g.sem σ = 0) : s.director.pc.holds σ := by
  have hdisp : s.dispenser.pc.lock = none := by
    cases hx : s.dispenser.exited
    · exact Dispenser.lock_of_stops hS.dispenser hx
    · exact (leavesFree hr).dispenser hx
  have hop (w) : (s.view w).lock = none := by
    cases hx : (s.operators w).exited
    · exact Operator.lock_of_stops (hS.operator w) hx
    · exact (leavesFree hr).operator w hx
  have hsound := mutexesSound hr σ hσ
  have htotal : Family.total (fun _ v => ind (v.lock = some σ)) s.view = 0 :=
    Family.total_eq_zero fun w => ind_of_not (by simp [hop w])
  by_contra hno
  rw [h0, holders, htotal, ind_of_not hno, hdisp, ind_of_not (Option.some_ne_none σ).symm] at hsound
  exact absurd hsound (by decide)

section Careful

variable (hcap : c.nofWorkers + c.nofUsers + 1 < c.msgCapacity)
  (h : ReachableBy (Delivers Careful) s) (hS : s.Standstill)

include hcap h hS

/-- So every mutex is free. -/
theorem sem_ne_zero {σ : Sem c.nofWorkerSeats} (hσ : σ.IsMutex) : s.g.sem σ ≠ 0 := by
  intro h0
  have hin := hS.director_holds h.reach hσ h0
  cases hS.director with
  | exited hx =>
    have hpc := ((graceful (careful_mono (fun _ _ _ hc => hc.2.2.2) h)).returns hx).1
    rw [hpc] at hin
    exact hin
  | ended hpc =>
    rw [hpc] at hin
    exact hin
  | receiving hpc =>
    rcases hpc with hpc | hpc <;> rw [hpc] at hin <;> exact hin
  | sending hpc hm =>
    exact Bool.false_ne_true (((nobodyWaits hcap h.reach).director hm).symm.trans hpc)
  | locking hpc h0 =>
    -- The director waits for the statistics inside a queue mutex; then it would have both.
    obtain ⟨q, hq, -, rfl⟩ := DirPc.nested hin hpc
    have hstats := hS.director_holds h.reach (DirPc.isMutex_of_locking hpc) h0
    rw [hq] at hstats
    cases hstats
  | reaping hpc =>
    cases hat : s.director.pc <;> rw [hat] at hpc hin <;> first | exact hin | cases hpc

/-- An operator that is left sleeps between the days, or for a token or a ticket. -/
theorem operator_sleeps {w : Fin c.nofWorkers} (hx : (s.operators w).exited = false) :
    (s.operators w).mode = .asleep ∧
      ((s.operators w).pc = .suspend ∧ (s.operators w).vars.dayStarted = false ∧
          (s.operators w).vars.terminateRequested = false ∨
        (s.operators w).pc.awaiting = true) := by
  cases hS.operator w with
  | exited hex => exact absurd (hx.symm.trans hex) Bool.false_ne_true
  | done hpc => exact absurd (hx.symm.trans (((ends h.reach).operator w).1 hpc)) Bool.false_ne_true
  | suspended hpc hm =>
    have hheeds := (heeds (careful_mono (fun _ _ _ hc => hc.2.1) h)).operator w
    unfold Operator.Heeds at hheeds
    rw [hpc] at hheeds
    exact ⟨hm, .inl ⟨hpc, hheeds (.inr hm)⟩⟩
  | sending hpc hm =>
    exact absurd (((nobodyWaits hcap h.reach).operator w hm).symm.trans hpc) Bool.false_ne_true
  | locking hpc h0 => exact absurd h0 (hS.sem_ne_zero hcap h (OpPc.isMutex_of_locking hpc))
  | awaiting hpc hm => exact ⟨hm, .inr hpc⟩

/-- The dispenser, if it is left, waits for a request. -/
theorem dispenser_sleeps (hx : s.dispenser.exited = false) :
    s.dispenser.mode = .asleep ∧ s.dispenser.pc = .receive ∧
      s.dispenser.vars.terminateRequested = false := by
  cases hS.dispenser with
  | exited hex => exact absurd (hx.symm.trans hex) Bool.false_ne_true
  | done hpc => exact absurd (hx.symm.trans ((ends h.reach).dispenser.1 hpc)) Bool.false_ne_true
  | receiving hpc hm =>
    have hheeds := (heeds (careful_mono (fun _ _ _ hc => hc.2.1) h)).dispenser
    exact ⟨hm, hpc, hheeds hpc (.inr hm)⟩
  | @misread m hpc hm hno =>
    -- Only requests are sent with that type.
    obtain ⟨hmem, hmtype⟩ := Mailbox.mem_of_find hm
    rw [beq_iff_eq] at hmtype
    cases m with
    | director d => simp [Message.mtype, ticketRequestMtype, directorMtype] at hmtype
    | ticket t => exact absurd rfl (hno t)
    | userReply r =>
      obtain ⟨u, hu⟩ := (addressed h.reach).replies r hmem
      have hpos := c.pid_pos (.user u)
      have : userReplyBase + c.pid (.user u) = ticketRequestMtype := hu.symm.trans hmtype
      unfold userReplyBase ticketRequestMtype at this
      omega
  | sending hpc hm =>
    exact absurd (((nobodyWaits hcap h.reach).dispenser hm).symm.trans hpc) Bool.false_ne_true
  | locking hpc h0 => exact absurd h0 (hS.sem_ne_zero hcap h (DispPc.isMutex_of_locking hpc))

/-- A user that is left sleeps between the days or waits for its reply. -/
theorem user_sleeps {u : Fin c.nofUsers} (hx : (s.users u).exited = false) :
    (s.users u).mode = .asleep ∧
      ((s.users u).pc = .suspend ∨ ∃ q, (s.users u).pc = .requestWait q) ∧
      (s.users u).vars.terminateRequested = false := by
  have hheeds := (heeds (careful_mono (fun _ _ _ hc => hc.2.1) h)).user u
  unfold User.Heeds at hheeds
  cases hS.user u with
  | exited hex => exact absurd (hx.symm.trans hex) Bool.false_ne_true
  | done hpc => exact absurd (hx.symm.trans (((ends h.reach).user u).1 hpc)) Bool.false_ne_true
  | suspended hpc hm =>
    rw [hpc] at hheeds
    exact ⟨hm, .inl hpc, (hheeds (.inr hm)).2⟩
  | sending hpc hm =>
    exact absurd (((nobodyWaits hcap h.reach).user u hm).symm.trans hpc) Bool.false_ne_true
  | waiting hpc hm =>
    rw [hpc] at hheeds
    exact ⟨hm, .inr ⟨_, hpc⟩, hheeds (.inr hm)⟩

/-- A child that is left has heard every signal. -/
theorem child_not_pending {p : c.Proc} (hp : p ≠ .director) (hx : s.exited p = false)
    (sig : Signal) : s.g.pending p sig = false := by
  refine hS.not_pending hx ⟨fun w he _ _ hslp => ?_, ?_, fun w he _ _ => ?_, fun he => absurd he hp⟩
  · subst he
    rw [(hS.operator_sleeps hcap h hx).1]
    exact nofun
  · cases p with
    | director => exact trivial
    | dispenser =>
      rintro ⟨-, hrun, -⟩
      cases (hS.dispenser_sleeps hcap h hx).1.symm.trans hrun
    | operator w =>
      obtain ⟨hm, ⟨hpc, -⟩ | hpc⟩ := hS.operator_sleeps hcap h hx <;> intro hgap <;>
        unfold Operator.Gap at hgap
      · rw [hpc] at hgap
        cases hm.symm.trans hgap.1
      · cases hat : (s.operators w).pc <;> rw [hat] at hpc hgap <;>
          first | exact hgap | cases hpc
    | user u =>
      obtain ⟨hm, hpc | ⟨q, hpc⟩, -⟩ := hS.user_sleeps hcap h hx <;> intro hgap <;>
        unfold User.Gap at hgap <;> rw [hpc] at hgap <;> cases hm.symm.trans hgap.1
  · subst he
    obtain ⟨-, ⟨hpc, -⟩ | hpc⟩ := hS.operator_sleeps hcap h hx
    · rw [hpc]
      rfl
    · cases hat : (s.operators w).pc <;> rw [hat] at hpc <;> first | rfl | cases hpc

/-- Every child has announced itself. -/
theorem all_inited : inited s.dispenser.pc s.view s.userPc = c.nofWorkers + c.nofUsers + 1 := by
  have hE := ends h.reach
  have hdisp : s.dispenser.pc.inited = true := by
    by_contra hno
    have hpc := DispPc.eq_of_not_inited hno
    have hslp := (hS.dispenser_sleeps hcap h (hE.dispenser.2 hpc)).2.1
    cases hpc.symm.trans hslp
  have hop (w) : (s.view w).inited = true := by
    by_contra hno
    have hpc := Operator.eq_of_not_inited hno
    obtain ⟨-, ⟨hslp, -⟩ | hslp⟩ := hS.operator_sleeps hcap h ((hE.operator w).2 hpc) <;>
      rw [hpc] at hslp <;> cases hslp
  have huser (u) : (s.userPc u).inited = true := by
    by_contra hno
    have hpc := UserPc.eq_of_not_inited hno
    obtain ⟨-, hslp | ⟨q, hslp⟩, -⟩ := hS.user_sleeps hcap h ((hE.user u).2 hpc) <;>
      cases hpc.symm.trans hslp
  have hops : Family.total (fun _ v => ind (v.inited = true)) s.view = c.nofWorkers * 1 := by
    refine Eq.trans (Family.total_eq_card_mul fun w => ind_of (hop w)) ?_
    rw [Fintype.card_fin]
  have husers : Family.total (fun _ pc => ind (pc.inited = true)) s.userPc = c.nofUsers * 1 := by
    refine Eq.trans (Family.total_eq_card_mul fun u => ind_of (huser u)) ?_
    rw [Fintype.card_fin]
  rw [inited, ind_of hdisp, hops, husers]
  omega

omit hcap hS in
/-- What `msgrcv` does not find is not in the queue. -/
theorem countP_isOfKind (hnone : ∀ m, s.g.firstOfType directorMtype ≠ some (.director m))
    (kind : DirectorMessageKind) : s.g.msgs.countP (Message.isOfKind kind) = 0 := by
  refine List.countP_eq_zero.mpr fun m hm hkind => ?_
  obtain ⟨d, rfl⟩ : ∃ d, m = .director d := by
    cases m with
    | director d => exact ⟨d, rfl⟩
    | ticket | userReply => exact absurd hkind Bool.false_ne_true
  cases hfind : s.g.firstOfType directorMtype with
  | none => exact absurd (List.find?_eq_none.mp hfind _ hm) (by simp [Message.mtype])
  | some m' =>
    obtain ⟨hmem, hmtype⟩ := Mailbox.mem_of_find hfind
    rw [beq_iff_eq] at hmtype
    cases m' with
    | director d' => exact hnone d' hfind
    | ticket => simp [Message.mtype, ticketRequestMtype, directorMtype] at hmtype
    | userReply r =>
      obtain ⟨u, hu⟩ := (addressed h.reach).replies r hmem
      exact replyMtype_ne u (hu.symm.trans hmtype)

/-- The director does not wait for messages. -/
theorem not_receiving (hpc : s.director.pc = .waitInit ∨ s.director.pc = .waitDayEnd)
    (hnone : ∀ m, s.g.firstOfType directorMtype ≠ some (.director m)) : False := by
  have hzero := countP_isOfKind h hnone
  rcases hpc with hpc | hpc
  · have hA := announced h.reach
    have hmessages := hA.messages
    have hlt := hA.received hpc
    rw [hzero, hpc, hS.all_inited hcap h] at hmessages
    simp only [Director.receivedOf] at hmessages
    omega
  · have hB := barrier h.reach
    have hneeded := hB.needed hpc
    have hlt := hB.received hpc
    rw [hzero] at hneeded
    obtain ⟨w, hw⟩ := Finset.card_pos.mp (show 0 < (Finset.univ.filter fun w =>
      s.g.finished w < s.g.currentDay).card by omega)
    have howes : s.g.finished w < s.g.currentDay := (Finset.mem_filter.mp hw).2
    have hx := alive_of_dayOpen (careful_mono (fun _ _ _ hc => hc.2.2.1) h)
      (by rw [hpc]; rfl) w
    have hchild : (.operator w : c.Proc) ≠ .director := by simp
    have hpending := hS.child_not_pending hcap h hchild hx
    obtain ⟨hm, ⟨hslp, hdown, -⟩ | hslp⟩ := hS.operator_sleeps hcap h hx
    · -- It has been started, and has not heard of it.
      have haccount := hB.account w
      have hpre : s.director.pc.preStart w = false := by rw [hpc]; rfl
      have hbusy : (Operator.view w (s.operators w)).busy = false := by
        unfold Operator.view
        rw [hslp]
        rfl
      have hdebt : s.owed w = 0 := by
        simp [owed, Operator.debt, hpending, hdown, hbusy, ind]
      rw [hdebt, hpre, ind_of_not Bool.false_ne_true] at haccount
      omega
    · -- It has been told that the day is over, and has not heard of it.
      have hwarned := allWarned (careful_mono (fun _ _ _ hc => hc.1) h) w (by rw [hpc]; rfl)
      exact Bool.false_ne_true ((hpending .usr2).symm.trans (hwarned.signal hslp (.inr hm)))

/-- Nor does it wait for a child. -/
theorem not_reaping {p : c.Proc} (hpc : s.director.pc.reaping = some p) : s.exited p = true := by
  by_contra hx
  rw [Bool.not_eq_true] at hx
  have hflag : s.terminates p = true := by
    have hchild : p ≠ .director := by
      rintro rfl
      cases hat : s.director.pc <;> rw [hat] at hpc <;> cases hpc
    refine (told h.reach p (DirPc.told_of_reaping hpc)).resolve_left fun hp => ?_
    exact Bool.false_ne_true ((hS.child_not_pending hcap h hchild hx .term).symm.trans hp)
  cases p with
  | director => cases hat : s.director.pc <;> rw [hat] at hpc <;> cases hpc
  | dispenser =>
    exact Bool.false_ne_true ((hS.dispenser_sleeps hcap h hx).2.2.symm.trans hflag)
  | user u => exact Bool.false_ne_true ((hS.user_sleeps hcap h hx).2.2.symm.trans hflag)
  | operator w =>
    obtain ⟨-, ⟨-, -, hdown⟩ | hslp⟩ := hS.operator_sleeps hcap h hx
    · exact Bool.false_ne_true (hdown.symm.trans hflag)
    · -- After the days nobody is inside `run_day`.
      have hrun : (s.view w).inRun = true := by
        unfold view Operator.view
        cases hat : (s.operators w).pc <;> rw [hat] at hslp <;> first | rfl | cases hslp
      have hlive := (barrier h.reach).live_of_inRun hrun
      cases hat : s.director.pc <;> rw [hat] at hpc hlive <;> first | cases hpc; done | cases hlive

end Careful

end Standstill

/-- Only the living have a next step, and signals are delivered to them only. -/
theorem Over.standstill {s : State c} (hO : s.Over) : s.Standstill := by
  intro a s' hwork _ ht
  cases step_stepOf ht with
  | director hl => simp [Director.step, show s.director.exited = true from hO.children .director] at hl
  | dispenser hl => simp [Dispenser.step, show s.dispenser.exited = true from hO.children .dispenser] at hl
  | operator w hl =>
    simp [Operator.step, show (s.operators w).exited = true from hO.children (.operator w)] at hl
  | user u hl => simp [User.step, show (s.users u).exited = true from hO.children (.user u)] at hl
  | deliver p sigs hp hne hx => exact Bool.false_ne_true (hx.symm.trans (hO.children p))
  | interrupt | tick => exact Bool.false_ne_true hwork

/-- Where the director has left gracefully, everybody has left. -/
theorem Graceful.over {s : State c} (hG : s.Graceful) (hR : s.Removes)
    (hx : s.director.exited = true) : s.Over := by
  obtain ⟨hpc, hmode⟩ := hG.returns hx
  refine ⟨hmode, fun p => ?_, fun r => hR.removed r ?_⟩
  · by_cases hp : p = .director
    · rw [hp]
      exact hx
    · refine hG.reaped p ?_
      rw [hpc]
      exact hp
  · rw [hpc]
    exact trivial

end State

/-- The director has not stopped anywhere else. -/
theorem State.Standstill.over (hcap : c.nofWorkers + c.nofUsers + 1 < c.msgCapacity) {s : State c}
    (h : ReachableBy (Delivers Careful) s) (hS : s.Standstill) : s.Over := by
  refine (graceful (careful_mono (fun _ _ _ hc => hc.2.2.2) h)).over (removes h.reach) ?_
  cases hS.director with
  | exited hx => exact hx
  | ended hpc => exact (ends h.reach).director.1 hpc
  | receiving hpc hnone => exact (hS.not_receiving hcap h hpc hnone).elim
  | sending hpc hm =>
    exact absurd (((nobodyWaits hcap h.reach).director hm).symm.trans hpc) Bool.false_ne_true
  | locking hpc h0 => exact absurd h0 (hS.sem_ne_zero hcap h (DirPc.isMutex_of_locking hpc))
  | reaping hpc halive =>
    exact absurd (halive.symm.trans (hS.not_reaping hcap h hpc)) Bool.false_ne_true

/-- CORRECT: the office never deadlocks. In a run in which every signal is delivered where its
    receiver hears it, and with room in the message queue for all that is ever in it, the office
    stands still only at its end: the director has come to the end of `main`, where it returns 0 or,
    without a log, crashes in `log_stop`, all its children have terminated, and no IPC object is
    left. -/
theorem standstill_iff_over (hcap : c.nofWorkers + c.nofUsers + 1 < c.msgCapacity) {s : State c}
    (h : ReachableBy (Delivers Careful) s) : s.Standstill ↔ s.Over :=
  ⟨fun hS => hS.over hcap h, State.Over.standstill⟩

/-- `SIGINT` in the sleep of the first day, and `SIGTERM` in the `waitpid` for the operator, which
    has terminated. -/
def SmallOffice.graceful : List (Act smallOffice) :=
  morning ++ own .director 1 ++ [.interrupt false] ++ signal .director .int ++ own .director 7 ++
    signal clerk .usr1 ++ signal clerk .usr2 ++ own clerk 12 ++ own .director 61 ++
    [.interrupt true] ++ signal clerk .term ++ own clerk 3 ++ signal .director .term ++
    own .director 2 ++ signal first .term ++ own first 1 ++ signal second .term ++ own second 1 ++
    signal .dispenser .term ++ own .dispenser 1 ++ own .director 12

/-- The run that ends well in the small office. -/
theorem standstill_iff_over_small : ∃ s : State smallOffice,
    exec step SmallOffice.graceful (State.init smallOffice) = some s ∧ s.Standstill ∧ s.Over := by
  have hrun : ((exec step SmallOffice.graceful (State.init smallOffice)).any fun s =>
      decide (s.director.exited = true)) = true := by decide +kernel
  obtain ⟨s, hs, hx⟩ := (Option.any_eq_true _ _).mp hrun
  have hok : Allowed step (Delivers Careful) SmallOffice.graceful (State.init smallOffice) := by
    decide +kernel
  have hr : ReachableBy (Delivers Careful) s := ReachBy.of_exec _ .refl hs hok
  have hgraceful := graceful (careful_mono (fun _ _ _ hc => hc.2.2.2) hr)
  have hover := hgraceful.over (removes hr.reach) (of_decide_eq_true hx)
  exact ⟨s, hs, (standstill_iff_over (by decide) hr).mpr hover, hover⟩

/-- CORRECT: the office always closes. Whatever has happened in such a run, the processes can go on
    to the end of the simulation, without a signal from outside and within what is left of the
    budget. -/
theorem office_closes (hcap : c.nofWorkers + c.nofUsers + 1 < c.msgCapacity) {as : List (Act c)}
    {s : State c} (hs : exec step as (State.init c) = some s)
    (hok : Allowed step (Delivers Careful) as (State.init c)) :
    ∃ bs s', exec step bs s = some s' ∧ Allowed step (Delivers Careful) bs s ∧
      (∀ b ∈ bs, b.works = true) ∧ s'.Over ∧
      as.countP Act.works + bs.length ≤ c.budget + 21 * as.countP Act.outside := by
  have hr : ReachableBy (Delivers Careful) s := ReachBy.of_exec _ .refl hs hok
  have hspent := countP_work_le (fun t a t' ht hstep => State.pays ht hstep) .refl hs
  rw [State.work_init, sum_price] at hspent
  obtain ⟨bs, s', hbs, hallowed, hworks, hlen, hrest⟩ := exists_rest State.work_lt hr
  have hr' : ReachableBy (Delivers Careful) s' := ReachBy.of_exec _ hr hbs hallowed
  exact ⟨bs, s', hbs, hallowed, hworks, State.Standstill.over hcap hr' hrest, by omega⟩

/-- With a user at the counter. -/
theorem office_closes_small : ∃ s : State smallOffice,
    exec step SmallOffice.serving (State.init smallOffice) = some s ∧
    ∃ bs s', exec step bs s = some s' ∧ s'.Over := by
  have hrun : (exec step SmallOffice.serving (State.init smallOffice)).isSome = true := by
    decide +kernel
  obtain ⟨s, hs⟩ := Option.isSome_iff_exists.mp hrun
  have hok : Allowed step (Delivers Careful) SmallOffice.serving (State.init smallOffice) := by
    decide +kernel
  obtain ⟨bs, s', hbs, -, -, hover, -⟩ := office_closes (by decide) hs hok
  exact ⟨s, hs, bs, s', hbs, hover⟩

end PostOffice
