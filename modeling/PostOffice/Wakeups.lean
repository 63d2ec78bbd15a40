import PostOffice.Closing

/-! Start and termination signals. Four loops test a flag and then sleep: `wait_for_next_day` of the
    operator and of the user in `sigsuspend`, `request_service` and the dispenser's main loop in
    `msgrcv`. No signal is blocked between the test and the call.

        flag = 0? ──▶ (gap) ──▶ asleep ── signal ──▶ EINTR ──▶ flag = 0? …
                        ▲
                 signal: flag = 1, and asleep all the same

    A process whose signals come outside the gap never sleeps with its flag up. -/

namespace PostOffice

open Transition

/-- The process is on its way into the call at its program point, or asleep in it. -/
def Task.falling {P V : Type} (l : Task P V) : Prop := l.mode = .running ∨ l.mode = .asleep

theorem Task.falling_of_live {P V : Type} {l : Task P V} (hx : ¬ l.exited = true)
    (hm : ¬ l.mode = .eintr) : l.falling := by
  unfold exited at hx
  unfold falling
  cases hmode : l.mode <;> simp [hmode] at hx hm ⊢

/-- A delivery wakes a sleeper: afterwards a process is falling only if it was running. -/
theorem Task.running_of_deliver {P V : Type} {l : Task P V} {handler : V → Signal → V}
    {sigs : List Signal} (h : (l.deliver handler sigs).falling) : l.mode = .running := by
  unfold falling at h
  rw [deliver_mode] at h
  split at h <;> simp_all

variable {c : Setup}

/-! ### The operator -/

namespace Operator

/-- What the tests on the way to `sigsuspend` have found still holds. -/
def Heeds (l : Operator c) : Prop :=
  match l.pc with
  | .waitTerminate => l.vars.dayStarted = false ∨ l.vars.terminateRequested = true
  | .suspend => l.falling → l.vars.dayStarted = false ∧ l.vars.terminateRequested = false
  | _ => True

/-- The signals come between the test of the flag they raise and the sleep. -/
def Gap (l : Operator c) (sigs : List Signal) : Prop :=
  match l.pc with
  | .waitTerminate => .usr1 ∈ sigs ∧ .term ∉ sigs ∧ l.vars.terminateRequested = false
  | .suspend => l.mode = .running ∧ (.usr1 ∈ sigs ∨ .term ∈ sigs)
  | _ => False

instance (l : Operator c) (sigs : List Signal) : Decidable (Gap l sigs) := by
  unfold Gap
  cases l.pc <;> infer_instance

variable {w : Fin c.nofWorkers} {l l' : Operator c} {g g' : Shared c}

theorem Heeds.of_ne (h1 : l.pc ≠ .waitTerminate) (h2 : l.pc ≠ .suspend) : Heeds l := by
  unfold Heeds
  split <;> first | contradiction | trivial

theorem step_heeds {n : ℕ} (h : step w l g n = some (l', g')) (hI : Heeds l) : Heeds l' := by
  unfold step at h
  split at h
  · cases h
  rename_i hx
  unfold body at h
  unfold Heeds at hI
  cases hpc : l.pc <;> rw [hpc] at h hI <;> simp only at h hI
  case waitDayStarted =>
    cases h
    cases hflag : l.vars.dayStarted
    · exact .inl hflag
    · exact .of_ne (by simp) (by simp)
  case waitTerminate =>
    cases h
    cases hflag : l.vars.terminateRequested
    · exact fun _ => ⟨hI.resolve_right (by simp [hflag]), hflag⟩
    · exact .of_ne (by simp) (by simp)
  case suspend =>
    split at h
    · cases h
      exact .of_ne (by simp) (by simp)
    · rename_i hm
      split at h <;> cases h
      unfold Heeds
      rw [Task.sleep_pc, hpc]
      exact fun _ => hI (Task.falling_of_live hx hm)
  case claimToken | scanLock | waitTicket | popLock | serveLock | pauseLock | releaseLock =>
    rcases semOpInterruptible_cases h with ⟨-, -, rfl, -⟩ | ⟨h1, -, -⟩ | ⟨-, rfl, -⟩
    all_goals exact .of_ne (by simp [*]) (by simp [*])
  case sendInit | serveReply | dayFinished =>
    rcases msgSendRetry_cases h with ⟨h1, -, -⟩ | ⟨-, rfl, -⟩
    all_goals exact .of_ne (by simp [*]) (by simp [*])
  all_goals
    try simp only [Task.nanosleep, forLoop] at h
    repeat' split at h
    all_goals cases h
    all_goals exact .of_ne (by simp [hpc]) (by simp [hpc])

/-- Outside the gap a delivery wakes the operator or comes before the test. -/
theorem Heeds.deliver (hI : Heeds l) {sigs : List Signal} (hgap : ¬ Gap l sigs) :
    Heeds (l.deliver handleOperatorSignal sigs) := by
  unfold Heeds at hI ⊢
  unfold Gap at hgap
  rw [Task.deliver_pc]
  cases hpc : l.pc <;> rw [hpc] at hI hgap <;> simp only at hI hgap ⊢
  case waitTerminate =>
    rw [Task.deliver_vars, foldl_handleOperatorSignal]
    grind
  case suspend =>
    intro hf
    have hrun := Task.running_of_deliver hf
    obtain ⟨h1, h2⟩ := hI (.inl hrun)
    have hno : .usr1 ∉ sigs ∧ .term ∉ sigs := by simpa [hrun] using hgap
    rw [Task.deliver_vars, foldl_handleOperatorSignal]
    simp [h1, h2, hno]

end Operator

/-! ### The user -/

/-- The program points behind a test. -/
def UserPc.tested : UserPc → Bool
  | .waitTerminate | .suspend | .requestSend _ | .requestWait _ => true
  | _ => false

namespace User

/-- What the tests on the way to `sigsuspend` and through `request_service` have found still
    holds. -/
def Heeds (l : User) : Prop :=
  match l.pc with
  | .waitTerminate => l.vars.dayStarted = false ∨ l.vars.terminateRequested = true
  | .suspend => l.falling → l.vars.dayStarted = false ∧ l.vars.terminateRequested = false
  | .requestSend _ | .requestWait _ => l.falling → l.vars.terminateRequested = false
  | _ => True

/-- The signals come between the test of the flag they raise and the sleep. -/
def Gap (l : User) (sigs : List Signal) : Prop :=
  match l.pc with
  | .waitTerminate => .usr1 ∈ sigs ∧ .term ∉ sigs ∧ l.vars.terminateRequested = false
  | .suspend => l.mode = .running ∧ (.usr1 ∈ sigs ∨ .term ∈ sigs)
  | .requestSend _ | .requestWait _ => l.mode = .running ∧ .term ∈ sigs
  | _ => False

instance (l : User) (sigs : List Signal) : Decidable (Gap l sigs) := by
  unfold Gap
  cases l.pc <;> infer_instance

variable {u : Fin c.nofUsers} {l l' : User} {g g' : Shared c}

theorem Heeds.of_not_tested (h : l.pc.tested = false) : Heeds l := by
  unfold Heeds
  cases hpc : l.pc <;> first | trivial | (rw [hpc] at h; exact Bool.noConfusion h)

/-- While the day is active nobody has been told to terminate, so `goActive` tests that flag too. -/
theorem step_heeds {n : ℕ} (h : step u l g n = some (l', g'))
    (hday : g.dayActive = true → l.vars.terminateRequested = false) (hI : Heeds l) : Heeds l' := by
  unfold step at h
  split at h
  · cases h
  rename_i hx
  unfold body at h
  unfold Heeds at hI
  cases hpc : l.pc <;> rw [hpc] at h hI <;> simp only at h hI
  case waitDayStarted =>
    cases h
    cases hflag : l.vars.dayStarted
    · exact .inl hflag
    · exact .of_not_tested (by rfl)
  case waitTerminate =>
    cases h
    cases hflag : l.vars.terminateRequested
    · exact fun _ => ⟨hI.resolve_right (by simp [hflag]), hflag⟩
    · exact .of_not_tested (by rfl)
  case suspend =>
    split at h
    · cases h
      exact .of_not_tested (by rfl)
    · rename_i hm
      split at h <;> cases h
      unfold Heeds
      rw [Task.sleep_pc, hpc]
      exact fun _ => hI (Task.falling_of_live hx hm)
  case goActive s =>
    cases h
    cases hact : g.dayActive
    · exact .of_not_tested (by rfl)
    · exact fun _ => hday hact
  case requestSend s =>
    unfold Task.msgSend at h
    split at h
    · split at h <;> cases h
      · exact .of_not_tested (by rfl)
      · unfold Heeds
        rw [Task.retry_pc, hpc]
        exact fun _ => Bool.eq_false_iff.mpr ‹_›
    · have hflag := hI (Task.falling_of_live hx ‹_›)
      repeat' split at h
      all_goals cases h
      · exact fun _ => hflag
      · unfold Heeds
        rw [Task.sleep_pc, hpc]
        exact fun _ => hflag
  case requestWait s =>
    unfold receiveReply at h
    simp only at h
    split at h
    · split at h <;> cases h
      · exact .of_not_tested (by rfl)
      · unfold Heeds
        rw [Task.retry_pc, hpc]
        exact fun _ => Bool.eq_false_iff.mpr ‹_›
    · have hflag := hI (Task.falling_of_live hx ‹_›)
      repeat' split at h
      all_goals cases h
      · exact .of_not_tested (by rfl)
      · unfold Heeds
        rw [Task.sleep_pc, hpc]
        exact fun _ => hflag
  all_goals
    try simp only [Task.nanosleep, Task.msgSend] at h
    repeat' split at h
    all_goals cases h
    all_goals refine .of_not_tested ?_
    all_goals first | rfl | simp [hpc, UserPc.tested]

theorem Heeds.deliver (hI : Heeds l) {sigs : List Signal} (hgap : ¬ Gap l sigs) :
    Heeds (l.deliver handleUserSignal sigs) := by
  unfold Heeds at hI ⊢
  unfold Gap at hgap
  rw [Task.deliver_pc]
  cases hpc : l.pc <;> rw [hpc] at hI hgap <;> simp only at hI hgap ⊢
  case waitTerminate =>
    rw [Task.deliver_vars, foldl_handleUserSignal, foldl_handleUserSignal_dayStarted]
    grind
  case suspend =>
    intro hf
    have hrun := Task.running_of_deliver hf
    obtain ⟨h1, h2⟩ := hI (.inl hrun)
    have hno : .usr1 ∉ sigs ∧ .term ∉ sigs := by simpa [hrun] using hgap
    rw [Task.deliver_vars, foldl_handleUserSignal, foldl_handleUserSignal_dayStarted]
    simp [h1, h2, hno]
  case requestSend | requestWait =>
    intro hf
    have hrun := Task.running_of_deliver hf
    have hno : .term ∉ sigs := by simpa [hrun] using hgap
    rw [Task.deliver_vars, foldl_handleUserSignal]
    simp [hI (.inl hrun), hno]

end User

/-! ### The dispenser -/

namespace Dispenser

/-- What the loop test has found still holds. -/
def Heeds (l : Dispenser c) : Prop :=
  l.pc = .receive → l.falling → l.vars.terminateRequested = false

/-- `SIGTERM` comes between the loop test and the sleep. -/
def Gap (l : Dispenser c) (sigs : List Signal) : Prop :=
  l.pc = .receive ∧ l.mode = .running ∧ .term ∈ sigs

instance (l : Dispenser c) (sigs : List Signal) : Decidable (Gap l sigs) := by
  unfold Gap
  infer_instance

variable {l l' : Dispenser c} {g g' : Shared c}

theorem step_heeds (h : step l g = some (l', g')) (hI : Heeds l) : Heeds l' := by
  obtain ⟨hm, hv⟩ := step_move h
  intro hpc' _
  rw [hv]
  rw [hpc'] at hm
  unfold step at h
  split at h
  · cases h
  rename_i hx
  unfold body at h
  cases hpc : l.pc <;> rw [hpc] at h hm
  case mainTest =>
    simp only at h
    split at h <;> cases h
    · cases hpc'
    · exact Bool.eq_false_iff.mpr ‹_›
  case receive =>
    simp only at h
    split at h
    · split at h <;> cases h <;> cases hpc'
    · exact hI hpc (Task.falling_of_live hx ‹_›)
  all_goals cases hm

theorem Heeds.deliver (hI : Heeds l) {sigs : List Signal} (hgap : ¬ Gap l sigs) :
    Heeds (l.deliver handleTicketSignal sigs) := by
  intro hpc hf
  have hrun := Task.running_of_deliver hf
  have hno : .term ∉ sigs := fun hterm => hgap ⟨hpc, hrun, hterm⟩
  rw [Task.deliver_vars, foldl_handleTicketSignal]
  simp [hI hpc (.inl hrun), hno]

end Dispenser

/-! ### The invariant -/

/-- No signal comes to a child between the test of the flag it raises and the sleep. -/
def HeardInTime (s : State c) (p : c.Proc) (sigs : List Signal) : Prop :=
  match p with
  | .director => True
  | .dispenser => ¬ s.dispenser.Gap sigs
  | .operator w => ¬ (s.operators w).Gap sigs
  | .user u => ¬ (s.users u).Gap sigs

instance (s : State c) (p : c.Proc) (sigs : List Signal) : Decidable (HeardInTime s p sigs) := by
  unfold HeardInTime
  cases p <;> infer_instance

namespace State

/-- What the children have tested still holds. -/
structure Heeds (s : State c) : Prop where
  dispenser : s.dispenser.Heeds
  operator : ∀ w, (s.operators w).Heeds
  user : ∀ u, (s.users u).Heeds

namespace Heeds

variable {s s' : State c}

theorem step (hC : s.Closing) (hT : s.Termination) {a : Act c} (hI : s.Heeds)
    (hok : Delivers HeardInTime s a) (h : s.StepOf a s') : s'.Heeds := by
  cases h with
  | director | interrupt | tick => exact ⟨hI.dispenser, hI.operator, hI.user⟩
  | dispenser hstep => exact ⟨Dispenser.step_heeds hstep hI.dispenser, hI.operator, hI.user⟩
  | operator w hstep =>
    refine ⟨hI.dispenser, fun v => ?_, hI.user⟩
    rw [setOperator_operators, Function.update_apply]
    split
    · exact Operator.step_heeds hstep (hI.operator w)
    · exact hI.operator v
  | user u hstep =>
    refine ⟨hI.dispenser, hI.operator, fun v => ?_⟩
    rw [setUser_users, Function.update_apply]
    split
    · refine User.step_heeds hstep (fun hact => ?_) (hI.user u)
      have hopen := DirPc.dayOpen_of_active (hC.active ▸ hact)
      exact hT.not_user (DirPc.not_stopping_of_dayOpen hopen) u
    · exact hI.user v
  | deliver p sigs hp hne hx =>
    have hgap := hok p sigs rfl
    refine ⟨?_, fun w => ?_, fun u => ?_⟩
    · rw [deliverTo_dispenser]
      split
      · subst_vars
        exact hI.dispenser.deliver hgap
      · exact hI.dispenser
    · rw [deliverTo_operators]
      split
      · subst_vars
        exact (hI.operator w).deliver hgap
      · exact hI.operator w
    · rw [deliverTo_users]
      split
      · subst_vars
        exact (hI.user u).deliver hgap
      · exact hI.user u

theorem init : (State.init c).Heeds := ⟨nofun, fun _ => trivial, fun _ => trivial⟩

end Heeds

/-- The process sleeps on in one of the four calls with the flag raised that its loop tests, and no
    signal is pending that would wake it. -/
def Oversleeps (s : State c) (p : c.Proc) : Prop :=
  (∀ sig, s.g.pending p sig = false) ∧
  match p with
  | .director => False
  | .dispenser => s.dispenser.mode = .asleep ∧ s.dispenser.pc = .receive ∧
      s.dispenser.vars.terminateRequested = true
  | .operator w => (s.operators w).mode = .asleep ∧ (s.operators w).pc = .suspend ∧
      ((s.operators w).vars.terminateRequested = true ∨ (s.operators w).vars.dayStarted = true)
  | .user u => (s.users u).mode = .asleep ∧
      ((s.users u).pc = .suspend ∧
          ((s.users u).vars.terminateRequested = true ∨ (s.users u).vars.dayStarted = true) ∨
        (∃ q, (s.users u).pc = .requestWait q) ∧ (s.users u).vars.terminateRequested = true)

end State

theorem heeds {s : State c} (h : ReachableBy (Delivers HeardInTime) s) : s.Heeds :=
  ReachableBy.induct .init
    (fun _ _ _ hr hI hok hs => hI.step (closing hr.reach) (termination hr.reach) hok hs) h

/-- The gap is the defect: after a start signal in front of `sigsuspend`, if no other signal is
    pending, the operator's next step is to oversleep. -/
theorem oversleeps_of_unheard {s s' : State c} {w : Fin c.nofWorkers}
    (hpc : (s.operators w).pc = .suspend) (hmode : (s.operators w).mode = .running)
    (hpending : ∀ sig, sig ≠ .usr1 → s.g.pending (.operator w) sig = false)
    (hs : step s (.deliver (.operator w) [.usr1]) = some s') :
    ∃ t, step s' (.own (.operator w) 0) = some t ∧ t.Oversleeps (.operator w) := by
  obtain rfl := State.eq_deliverTo hs
  set l := (s.operators w).deliver handleOperatorSignal [.usr1] with hl
  have hsleep : Operator.step w l (s.deliverTo [.usr1] (.operator w)).g 0 =
      some (l.sleep, (s.deliverTo [.usr1] (.operator w)).g) := by
    simp [Operator.step, Operator.body, Task.exited, hl, hpc, hmode]
  have hstep : step (s.deliverTo [.usr1] (.operator w)) (.own (.operator w) 0) =
      some ((s.deliverTo [.usr1] (.operator w)).setOperator w
        (l.sleep, (s.deliverTo [.usr1] (.operator w)).g)) := by
    simp only [step, State.deliverTo_operators, if_true, ← hl, hsleep, Option.map_some]
  refine ⟨_, hstep, fun sig => ?_, ?_⟩
  · by_cases husr1 : sig = .usr1
    · simp [husr1]
    · simp [hpending sig husr1]
  · simp [hl, hpc, handleOperatorSignal]

/-- The operator sleeps in `sigsuspend` when its start signal comes. -/
def SmallOffice.woken : List (Act smallOffice) :=
  morning ++ own clerk 4 ++ signal clerk .usr1

/-- The operator has tested its flags and stands in front of `sigsuspend` when its start signal
    comes. -/
def SmallOffice.oversleeping : List (Act smallOffice) :=
  morning ++ own clerk 3 ++ signal clerk .usr1 ++ own clerk 1

end PostOffice
