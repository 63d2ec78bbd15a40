import PostOffice.Lib.Potential
import PostOffice.Barrier

/-! The way out of `run_day`. Every caller of `sem_op_interruptible` but `lock_stats` takes an
    interruption for the end of the day:

        claimToken, scanLock ─────────────────────────────────────────────────┐
        waitTicket ─────────────────┐           ┌─────────────────────────────┤
        popLock ─▶ loop… ───────────┴─▶ releaseLock ─▶ release… ──────────────┴─▶ dayFinished

    The only call on the way that can sleep is the lock of the operator's own counter in
    `release_counter`. -/

namespace PostOffice

open Transition

namespace OpPc

variable {seats : ℕ}

/-- At a call of `sem_op_interruptible` whose interruption ends the day. -/
def stoppable : OpPc seats → Bool
  | .claimToken | .scanLock _ | .waitTicket _ | .popLock _ | .releaseLock _ => true
  | _ => false

/-- From the test of the loop in `run_day` to `DAY_FINISHED`. -/
def leaving : OpPc seats → Bool
  | .loopTerminate _ | .loopStop _ | .loopActive _ | .releaseLock _ | .releaseClear _
  | .releaseUnlock _ | .releaseToken | .dayFinished => true
  | _ => false

/-- `DAY_ACTIVE` is still to be read: if it is 1, the loop goes on. -/
def rejoins : OpPc seats → Bool
  | .popLock _ | .loopTerminate _ | .loopStop _ | .loopActive _ => true
  | _ => false

/-- The counter that `release_counter` is going to lock. -/
def toRelease : OpPc seats → Option (Fin seats)
  | .waitTicket k | .popLock k | .loopTerminate k | .loopStop k | .loopActive k
  | .releaseLock k => some k
  | _ => none

/-- How many program points there are to `DAY_FINISHED`. -/
def toFinish : OpPc seats → ℕ
  | .popLock _ => 8
  | .loopTerminate _ => 7
  | .loopStop _ => 6
  | .loopActive _ | .waitTicket _ => 5
  | .releaseLock _ => 4
  | .releaseClear _ => 3
  | .releaseUnlock _ => 2
  | .releaseToken | .claimToken | .scanLock _ => 1
  | _ => 0

end OpPc

variable {c : Setup}

namespace Operator

/-- On the way out: its stop flag is up, and it is past the last call that was interrupted or is
    about to see that it was. -/
structure Leaving (l : Operator c) (g : Shared c) : Prop where
  alive : l.exited = false
  stop : l.vars.dayStopRequested = true
  path : l.pc.leaving = true ∨ l.mode = .eintr ∧ l.pc.stoppable = true
  dayOver : l.pc.rejoins = true → g.dayActive = false

/-- How many steps it is at most to `DAY_FINISHED`; to fall asleep is one of them. -/
def toFinish (l : Operator c) : ℕ := 2 * l.pc.toFinish + ind (l.mode = .running)

variable {w : Fin c.nofWorkers} {l l' : Operator c} {g g' : Shared c}

/-- To go on to a program point further on the way. -/
theorem Leaving.goto (hI : Leaving l g) {pc : OpPc c.nofWorkerSeats} (hpc : pc.leaving = true)
    (hover : pc.rejoins = true → g'.dayActive = false) (hlt : pc.toFinish < l.pc.toFinish) :
    Leaving (l.goto pc) g' ∧ toFinish (l.goto pc) < toFinish l := by
  refine ⟨⟨rfl, hI.stop, .inl hpc, hover⟩, ?_⟩
  have hmode := ind_le_one ((l.goto pc).mode = .running)
  unfold toFinish
  rw [Task.goto_pc]
  omega

/-- Once it has come to `release_counter` it does not look at `DAY_ACTIVE` again. -/
theorem Leaving.out (hI : Leaving l g) {pc : OpPc c.nofWorkerSeats} (hpc : pc.leaving = true)
    (hrejoins : pc.rejoins = false) (hlt : pc.toFinish < l.pc.toFinish) :
    Leaving (l.goto pc) g' ∧ toFinish (l.goto pc) < toFinish l :=
  hI.goto hpc (fun hp => absurd (hrejoins.symm.trans hp) Bool.false_ne_true) hlt

/-- An interrupted call ends the day. -/
theorem Leaving.semOp (hI : Leaving l g) {σ : Sem c.nofWorkerSeats}
    {next : OpPc c.nofWorkerSeats} {onInterrupt : Operator c} (hm : l.mode = .eintr)
    (h : semOpInterruptible l g σ next onInterrupt = some (l', g')) :
    l' = onInterrupt ∧ g' = g := by
  have hint : interrupted l = true := by rw [interrupted, hI.stop, Bool.or_true]
  rw [semOpInterruptible, if_pos hm, if_pos hint] at h
  cases h
  exact ⟨rfl, rfl⟩

/-- Each own step comes nearer to `DAY_FINISHED`. -/
theorem Leaving.step (hI : Leaving l g) (hpc : l.pc ≠ .dayFinished) {n : ℕ}
    (h : Operator.step w l g n = some (l', g')) : Leaving l' g' ∧ toFinish l' < toFinish l := by
  have hstop := hI.stop
  have hpath := hI.path
  have hover := hI.dayOver
  unfold Operator.step at h
  rw [if_neg (Bool.eq_false_iff.mp hI.alive)] at h
  unfold body at h
  cases hl : l.pc <;> rw [hl] at h hpath hover <;>
    simp only [OpPc.leaving, OpPc.stoppable, OpPc.rejoins, Bool.false_eq_true, and_false,
      or_self, false_or, true_or, and_true, forall_true_left, false_implies] at hpath hover h
  case claimToken | scanLock =>
    obtain ⟨rfl, rfl⟩ := hI.semOp hpath h
    exact hI.out rfl rfl (by rw [hl]; exact Nat.zero_lt_one)
  case waitTicket k =>
    obtain ⟨rfl, rfl⟩ := hI.semOp hpath h
    exact hI.out rfl rfl (by rw [hl]; exact Nat.lt_succ_self 4)
  case popLock k =>
    obtain ⟨rfl, rfl⟩ := hI.semOp hpath h
    exact hI.goto rfl (fun _ => hover) (by rw [hl]; exact Nat.lt_succ_self 7)
  case loopTerminate k =>
    cases h
    split
    · exact hI.out rfl rfl (by rw [hl]; simp [OpPc.toFinish])
    · exact hI.goto rfl (fun _ => hover) (by rw [hl]; exact Nat.lt_succ_self 6)
  case loopStop k =>
    rw [if_pos hstop] at h
    cases h
    exact hI.goto rfl (fun _ => hover) (by rw [hl]; exact Nat.lt_succ_self 5)
  case loopActive k =>
    rw [hover, if_neg Bool.false_ne_true] at h
    cases h
    exact hI.out rfl rfl (by rw [hl]; exact Nat.lt_succ_self 4)
  case releaseLock k =>
    by_cases hm : l.mode = .eintr
    · obtain ⟨rfl, rfl⟩ := hI.semOp hm h
      exact hI.out rfl rfl (by rw [hl]; simp [OpPc.toFinish])
    · rw [semOpInterruptible, if_neg hm, Task.semWait] at h
      split at h
      · cases h
        exact hI.out rfl rfl (by rw [hl]; exact Nat.lt_succ_self 3)
      · split at h <;> cases h
        -- The operator falls asleep in the lock.
        refine ⟨⟨rfl, hstop, .inl (by rw [Task.sleep_pc, hl]; rfl),
          fun hp => Bool.noConfusion (hl ▸ hp)⟩, ?_⟩
        have hrun : l.mode = .running := Task.mode_eq_running hI.alive hm ‹_›
        simp [toFinish, hrun]
  case releaseClear | releaseUnlock | releaseToken =>
    cases h
    exact hI.out rfl rfl (by rw [hl]; exact Nat.lt_succ_self _)
  case dayFinished => exact absurd hl hpc

/-- When the mutex of its counter is free, no call on the way sleeps. -/
theorem Leaving.goes (w : Fin c.nofWorkers) (hI : Leaving l g) (hpc : l.pc ≠ .dayFinished)
    (hfree : ∀ k, l.pc.toRelease = some k → 0 < g.sem (.counterMutex k)) :
    ∃ l' g', Operator.step w l g 0 = some (l', g') ∧
      ∀ k, l'.pc.toRelease = some k → 0 < g'.sem (.counterMutex k) := by
  have hint : interrupted l = true := by rw [Operator.interrupted, hI.stop, Bool.or_true]
  have hpath := hI.path
  unfold Operator.step
  rw [if_neg (Bool.eq_false_iff.mp hI.alive)]
  unfold body
  cases hl : l.pc <;> rw [hl] at hpath hfree <;>
    simp only [OpPc.leaving, OpPc.stoppable, Bool.false_eq_true, and_false, or_self, false_or,
      true_or, and_true] at hpath ⊢
  case claimToken | scanLock =>
    rw [semOpInterruptible, if_pos hpath, if_pos hint]
    exact ⟨_, _, rfl, nofun⟩
  case waitTicket | popLock =>
    rw [semOpInterruptible, if_pos hpath, if_pos hint]
    exact ⟨_, _, rfl, hfree⟩
  case loopTerminate | loopStop | loopActive =>
    refine ⟨_, _, rfl, ?_⟩
    split <;> exact hfree
  case releaseLock k =>
    by_cases hm : l.mode = .eintr
    · rw [semOpInterruptible, if_pos hm, if_pos hint]
      exact ⟨_, _, rfl, nofun⟩
    · rw [semOpInterruptible, if_neg hm, Task.semWait, if_pos (hfree k rfl)]
      exact ⟨_, _, rfl, nofun⟩
  case releaseClear | releaseUnlock | releaseToken => exact ⟨_, _, rfl, nofun⟩
  case dayFinished => exact absurd hl hpc

/-- A delivery leaves it on the way. -/
theorem Leaving.deliver (sigs : List Signal) (hI : Leaving l g)
    (hg : g'.dayActive = g.dayActive) :
    Leaving (l.deliver handleOperatorSignal sigs) g' ∧
      toFinish (l.deliver handleOperatorSignal sigs) ≤ toFinish l := by
  refine ⟨⟨?_, ?_, ?_, ?_⟩, ?_⟩
  · exact (Task.exited_deliver l _ _).trans hI.alive
  · rw [Task.deliver_vars, foldl_handleOperatorSignal, hI.stop, Bool.true_or, Bool.true_or]
  · refine hI.path.imp id fun h => ⟨?_, h.2⟩
    rw [Task.deliver_mode, h.1]
    rfl
  · exact fun hp => hg.trans (hI.dayOver hp)
  · unfold toFinish
    refine Nat.add_le_add_left (ind_mono fun hrun => ?_) _
    rw [Task.deliver_mode] at hrun
    split at hrun
    · exact Mode.noConfusion hrun
    · exact hrun

end Operator

/-! ### The way in a run -/

/-- `DAY_ACTIVE` goes up in one place. -/
theorem Director.Move.dayActive {pc pc' : DirPc c.nofWorkerSeats c.nofWorkers c.nofUsers}
    {v v' : DirVars} {g g' : Shared c} (h : Director.Move pc v g pc' v' g')
    (hpc : pc ≠ .activate) (hg : g.dayActive = false) : g'.dayActive = false := by
  cases h with
  | activate => exact absurd rfl hpc
  | deactivate => rfl
  | _ => exact hg

theorem OpPc.inRun_of_leaving {seats : ℕ} {service : Service} {pc : OpPc seats}
    (h : pc.leaving = true ∨ pc.stoppable = true) : (pc.view service).inRun = true := by
  cases pc <;> first | rfl | exact h.elim Bool.noConfusion Bool.noConfusion

namespace State

/-- The operator is on its way out of `run_day`. -/
def Leaving (s : State c) (w : Fin c.nofWorkers) : Prop := (s.operators w).Leaving s.g

/-- How many of the operator's steps it is at most to `DAY_FINISHED`. -/
def toFinish (s : State c) (w : Fin c.nofWorkers) : ℕ := (s.operators w).toFinish

variable {s s' : State c} {w : Fin c.nofWorkers}

/-- What the others do leaves the operator on its way, as long as the day does not begin anew. -/
theorem Leaving.frame (hI : s.Leaving w) (hl : s'.operators w = s.operators w)
    (hg : s.g.dayActive = false → s'.g.dayActive = false) :
    s'.Leaving w ∧ s'.toFinish w = s.toFinish w := by
  unfold Leaving toFinish
  rw [hl]
  exact ⟨⟨hI.alive, hI.stop, hI.path, fun hp => hg (hI.dayOver hp)⟩, rfl⟩

/-- The way out is left at `DAY_FINISHED` only, and every step of the operator comes nearer to it. -/
theorem Leaving.step (hB : s.Barrier) (hI : s.Leaving w)
    (hpc : (s.operators w).pc ≠ .dayFinished) {a : Act c} (h : PostOffice.step s a = some s') :
    s'.Leaving w ∧
      Pays (toFinish · w) (fun a => a.owner == some (.operator w)) (fun _ => 0) s a s' := by
  have hrun : (s.view w).inRun = true :=
    OpPc.inRun_of_leaving (hI.path.imp_right And.right)
  -- An action of anyone else costs nothing.
  have hother (ha : a.owner ≠ some (.operator w)) (hl : s'.operators w = s.operators w)
      (hg : s.g.dayActive = false → s'.g.dayActive = false) : s'.Leaving w ∧
        Pays (toFinish · w) (fun a => a.owner == some (.operator w)) (fun _ => 0) s a s' := by
    obtain ⟨hleaving, hsame⟩ := hI.frame hl hg
    exact ⟨hleaving, by simp [Pays, hsame, ha]⟩
  cases step_stepOf h with
  | director hstep =>
    have hact : s.director.pc ≠ .activate := fun he => by
      have hlive := hB.live_of_inRun hrun
      rw [he] at hlive
      exact Bool.noConfusion hlive
    exact hother (by simp [Act.owner]) rfl ((Director.step_move hstep).dayActive hact)
  | dispenser hstep =>
    refine hother (by simp [Act.owner]) rfl ?_
    rw [setDispenser_g, (Dispenser.step_move hstep).1.frame]
    exact id
  | user u hstep =>
    refine hother (by simp [Act.owner]) rfl ?_
    rw [setUser_g, (User.step_move hstep).1.frame]
    exact id
  | @operator n l' g' v hstep =>
    by_cases hv : v = w
    · subst hv
      obtain ⟨hleaving, hlt⟩ := Operator.Leaving.step hI hpc hstep
      refine ⟨?_, ?_⟩
      · unfold Leaving
        rw [setOperator_operators, Function.update_self]
        exact hleaving
      · simp only [Pays, toFinish, setOperator_operators, Function.update_self]
        simpa [Act.owner, Nat.succ_le_iff] using hlt
    · refine hother (by simpa [Act.owner] using hv) ?_ ?_
      · rw [setOperator_operators, Function.update_of_ne (Ne.symm hv)]
      · rw [setOperator_g, (Operator.step_move hstep).frame]
        exact id
  | deliver p sigs hp hne hx =>
    have hday : (s.deliverTo sigs p).g.dayActive = s.g.dayActive := by rw [deliverTo_g]; rfl
    by_cases hw : p = .operator w
    · obtain ⟨hleaving, hle⟩ := Operator.Leaving.deliver sigs hI hday
      refine ⟨?_, ?_⟩
      · unfold Leaving
        rw [deliverTo_operators, if_pos hw]
        exact hleaving
      · simp only [Pays, toFinish, deliverTo_operators, if_pos hw]
        exact hle
    · refine hother (by simp [Act.owner]) ?_ (hday.trans ·)
      rw [deliverTo_operators, if_neg hw]
  | interrupt term => exact hother (by simp [Act.owner]) rfl id
  | tick ns => exact hother (by simp [Act.owner]) rfl id

/-- A stop signal that finds the operator asleep in one of these calls sends it on its way out, from
    `pop_ticket_for_service` when the day is over. -/
theorem leaving_of_deliver {sigs : List Signal}
    (h : PostOffice.step s (.deliver (.operator w) sigs) = some s') (husr2 : .usr2 ∈ sigs)
    (hm : (s.operators w).mode = .asleep) (hpc : (s.operators w).pc.stoppable = true)
    (hover : (s.operators w).pc.rejoins = true → s.g.dayActive = false) : s'.Leaving w := by
  obtain rfl := eq_deliverTo h
  have hself : (s.deliverTo sigs (.operator w)).operators w =
      (s.operators w).deliver handleOperatorSignal sigs := by
    rw [deliverTo_operators, if_pos rfl]
  unfold Leaving
  rw [hself, deliverTo_g]
  refine ⟨?_, ?_, .inr ⟨?_, hpc⟩, hover⟩
  · rw [Task.exited_deliver, Task.exited, hm]
  · simp [foldl_handleOperatorSignal, husr2]
  · rw [Task.deliver_mode, if_pos hm]

/-- With the mutex of its counter free the operator's own steps lead to `DAY_FINISHED`. -/
theorem Leaving.finishes (hI : s.Leaving w) (hfree : ∀ k,
    (s.operators w).pc.toRelease = some k → 0 < s.g.sem (.counterMutex k)) :
    ∃ n s', exec PostOffice.step (List.replicate n (.own (.operator w) 0)) s = some s' ∧
      (s'.operators w).pc = .dayFinished := by
  refine exists_replicate (toFinish · w)
    (P := fun s => s.Leaving w ∧ ∀ k,
      (s.operators w).pc.toRelease = some k → 0 < s.g.sem (.counterMutex k))
    (fun s hP hG => ?_) ⟨hI, hfree⟩
  obtain ⟨l', g', hstep, hfree'⟩ := Operator.Leaving.goes w hP.1 hG hP.2
  obtain ⟨hleaving, hlt⟩ := Operator.Leaving.step hP.1 hG hstep
  refine ⟨s.setOperator w (l', g'), by simp [PostOffice.step, hstep], .inr ⟨⟨?_, ?_⟩, ?_⟩⟩
  · unfold Leaving
    rw [setOperator_operators, Function.update_self]
    exact hleaving
  · simpa using hfree'
  · simpa [toFinish] using hlt

end State

/-- In every run from there the operator comes to `DAY_FINISHED`, or it is still on its way out and
    has come nearer with each of its steps. -/
theorem finished_or_leaving {s s' : State c} (h : Reachable s) {w : Fin c.nofWorkers}
    (hI : s.Leaving w) {as : List (Act c)} (he : exec step as s = some s') :
    (∃ bs cs t, as = bs ++ cs ∧ exec step bs s = some t ∧ (t.operators w).pc = .dayFinished) ∨
      s'.Leaving w ∧
        as.countP (fun a => a.owner == some (.operator w)) + s'.toFinish w ≤ s.toFinish w := by
  have hrun := goal_or_countP_work_le (G := fun s => (s.operators w).pc = .dayFinished)
    (fun _ _ _ hr hP hG ht => State.Leaving.step (barrier hr) hP hG ht) h hI he
  simpa using hrun

end PostOffice
