import PostOffice.RunDay
import PostOffice.Visits

/-! Ctrl+C. The terminal sends `SIGINT` to every process of the foreground group. The director has a
    handler for it; the dispenser, the operators and the users have none, so it terminates them:

        Ctrl+C ─▶ SIGINT pending ─▶ director: shutdown_requested = 1
                        └─────────▶ child: terminated

    A session is a run of the office in which this happens. A child that is terminated takes no step
    any more and keeps what it holds, and `waitpid` finds it. So until `stop_children` the director
    sees a run of the office in which that child is not scheduled any more. -/

namespace PostOffice

open Transition

/-- The programs that call `sigaction` for `SIGINT`. -/
def Proc.handlesInt {workers users : ℕ} : Proc workers users → Bool
  | .director => true
  | .dispenser | .operator _ | .user _ => false

/-- The process whose step or signal delivery it is. -/
def Act.subject {c : Setup} : Act c → Option c.Proc
  | .own p _ | .deliver p _ => some p
  | .interrupt _ | .tick _ => none

/-- The office in the foreground of a terminal. -/
structure Session (c : Setup) where
  office : State c
  /-- A `SIGINT` is pending for a process without a handler. -/
  struck : c.Proc → Bool
  /-- `SIGINT` has terminated the process. -/
  killed : c.Proc → Bool

/-- The actions of a session. -/
inductive SessionAct (c : Setup) where
  /-- An action of the office. -/
  | office (a : Act c)
  | ctrlC
  /-- The default action of a pending `SIGINT`. -/
  | die (p : c.Proc)

variable {c : Setup}

namespace Session

variable (s : Session c)

@[simps] def setOffice (x : State c) : Session c := { s with office := x }

/-- The process has terminated, by itself or by `SIGINT`. -/
def gone (p : c.Proc) : Bool := s.office.exited p || s.killed p

/-- One action of the office; `waitpid` finds every child that has terminated. -/
def officeStep : Act c → Option (State c)
  | .own .director n =>
      (Director.step s.office.director s.office.g s.gone n).map s.office.setDirector
  | a => PostOffice.step s.office a

/-- One action of the session. -/
def step : SessionAct c → Option (Session c)
  | .office a =>
      if a.subject.any s.killed then none else (s.officeStep a).map s.setOffice
  | .ctrlC => some { s with
      office := s.office.setG (s.office.g.kill .director .int)
      struck := fun p => s.struck p || !p.handlesInt }
  | .die p =>
      if s.struck p = true ∧ s.gone p = false then
        some { s with killed := Function.update s.killed p true }
      else none

/-- Nobody has pressed anything yet. -/
def init (c : Setup) : Session c :=
  { office := State.init c, struck := fun _ => false, killed := fun _ => false }

/-- How many living operators have not sent their `DAY_FINISHED` for the current day. -/
def unsent : ℕ :=
  (Finset.univ.filter fun w =>
    s.gone (.operator w) = false ∧ s.office.g.finished w < s.office.g.currentDay).card

/-- The director sleeps in `wait_for_workers_day_end`, and the messages it still needs are more than
    those in the queue and those that can still be sent. -/
def Hung : Prop :=
  s.office.director.pc = .waitDayEnd ∧ s.office.director.mode = .asleep ∧
    s.office.g.msgs.countP (Message.isOfKind .dayFinished) + s.unsent <
      c.nofWorkers - s.office.director.vars.received

instance : Decidable s.Hung := inferInstanceAs (Decidable (_ ∧ _))

/-- `SIGINT` terminates an operator only when it has sent the `DAY_FINISHED` of the current day, no
    day begins with an operator terminated, and no `SIGUSR2` finds one asleep in `lock_stats`. -/
def Spares : SessionAct c → Prop
  | .office a => Delivers StatsUndisturbed s.office a ∧
      (a.owner = some .director → s.office.director.pc = .setDay →
        ∀ w, s.killed (.operator w) = false)
  | .ctrlC => True
  | .die p => ∀ w, p = .operator w → s.office.g.finished w = s.office.g.currentDay

instance : (a : SessionAct c) → Decidable (s.Spares a)
  | .office _ => inferInstanceAs (Decidable (_ ∧ _))
  | .ctrlC => isTrue trivial
  | .die _ => inferInstanceAs (Decidable (∀ _, _))

variable {s}

/-! ### A session is a run of the office -/

theorem step_office {a : Act c} {s' : Session c} (h : s.step (.office a) = some s') :
    (∀ p, a.subject = some p → s.killed p = false) ∧
      ∃ x, s.officeStep a = some x ∧ s' = s.setOffice x := by
  simp only [step] at h
  split at h
  · cases h
  · rename_i hkilled
    obtain ⟨x, hx, rfl⟩ := Option.map_eq_some_iff.mp h
    refine ⟨fun p hp => ?_, x, hx, rfl⟩
    simpa [hp] using hkilled

theorem step_die {p : c.Proc} {s' : Session c} (h : s.step (.die p) = some s') :
    s.gone p = false ∧ s' = { s with killed := Function.update s.killed p true } := by
  simp only [step] at h
  split at h
  · rename_i hstruck
    exact ⟨hstruck.2, (Option.some.inj h).symm⟩
  · cases h

end Session

/-- Outside `stop_children` the director does not ask who has terminated. -/
theorem Director.step_congr {l : Director c} {g : Shared c} {n : ℕ} {ex ex' : c.Proc → Bool}
    (h : l.pc.stopping = false) : step l g ex n = step l g ex' n := by
  unfold step body
  cases hpc : l.pc <;> rw [hpc] at h <;> first | rfl | cases h

namespace Session

variable {s s' : Session c}

theorem officeStep_eq {a : Act c} (h : s.office.director.pc.stopping = false) :
    s.officeStep a = PostOffice.step s.office a := by
  cases a with
  | own p n =>
    cases p with
    | director => exact congrArg (Option.map s.office.setDirector) (Director.step_congr h)
    | dispenser | operator w | user u => rfl
  | deliver p sigs | interrupt term | tick ns => rfl

/-- `stop_children` is never left, whoever has terminated. -/
theorem officeStep_stopping {a : Act c} {x : State c} (h : s.officeStep a = some x)
    (hs : s.office.director.pc.stopping = true) : x.director.pc.stopping = true := by
  have hother (hx : PostOffice.step s.office a = some x) (ha : a.owner ≠ some .director) :
      x.director.pc.stopping = true := by
    cases step_stepOf hx with
    | director => exact absurd rfl ha
    | deliver p sigs => rwa [State.deliverTo_director_pc]
    | _ => exact hs
  cases a with
  | own p n =>
    cases p with
    | director =>
      obtain ⟨⟨l', g'⟩, hx, rfl⟩ := Option.map_eq_some_iff.mp h
      exact (Director.step_move hx).stopping hs
    | dispenser | operator w | user u => exact hother h (by simp [Act.owner])
  | deliver p sigs | interrupt term | tick ns => exact hother h (by simp [Act.owner])

section Follows

variable {D : State c → c.Proc → List Signal → Prop} {a : SessionAct c}

/-- Until `stop_children` every action of the session is one of the office, or none. -/
theorem step_reachableBy (hr : ReachableBy (Delivers D) s.office)
    (hstop : s.office.director.pc.stopping = false)
    (hok : ∀ b, a = .office b → Delivers D s.office b) (h : s.step a = some s') :
    ReachableBy (Delivers D) s'.office := by
  cases a with
  | office a =>
    obtain ⟨-, x, hx, rfl⟩ := step_office h
    exact hr.tail (hok a rfl) (officeStep_eq hstop ▸ hx)
  | ctrlC =>
    obtain rfl := Option.some.inj h
    have hint : Delivers D s.office (.interrupt false) := fun p sigs he => by cases he
    exact hr.tail hint rfl
  | die p =>
    obtain rfl := (step_die h).2
    exact hr

theorem step_stopping (hs : s.office.director.pc.stopping = true) (h : s.step a = some s') :
    s'.office.director.pc.stopping = true := by
  cases a with
  | office a =>
    obtain ⟨-, x, hx, rfl⟩ := step_office h
    exact officeStep_stopping hx hs
  | ctrlC =>
    obtain rfl := Option.some.inj h
    exact hs
  | die p =>
    obtain rfl := (step_die h).2
    exact hs

end Follows

/-- The sessions reached by steps that satisfy `ok`. -/
abbrev ReachableBy (ok : Session c → SessionAct c → Prop) (s : Session c) : Prop :=
  ReachBy Session.step ok (Session.init c) s

/-- Until `stop_children` the office of a session has been reached by a run of the office alone. -/
theorem follows {D : State c → c.Proc → List Signal → Prop} {ok : Session c → SessionAct c → Prop}
    (hok : ∀ s a, ok s (.office a) → Delivers D s.office a) (h : Session.ReachableBy ok s)
    (hstop : s.office.director.pc.stopping = false) :
    PostOffice.ReachableBy (Delivers D) s.office := by
  have hI : PostOffice.ReachableBy (Delivers D) s.office ∨
      s.office.director.pc.stopping = true := by
    refine ReachBy.invariant (I := fun s => PostOffice.ReachableBy (Delivers D) s.office ∨
      s.office.director.pc.stopping = true) (.inl .refl) (fun s a s' _ hI ha hs => ?_) h
    cases hstop : s.office.director.pc.stopping with
    | true => exact .inr (step_stopping hstop hs)
    | false =>
      have hr := hI.resolve_right (by simp [hstop])
      exact .inl (step_reachableBy hr hstop (fun b hb => hok s b (hb ▸ ha)) hs)
  exact hI.resolve_right (by simp [hstop])

/-! ### The books of a dead operator -/

/-- Nobody sends `DAY_FINISHED` for an operator, and only the director begins a day. -/
theorem officeStep_books {a : Act c} {x : State c} {w : Fin c.nofWorkers}
    (h : s.officeStep a = some x) (hw : a.subject ≠ some (.operator w))
    (hpc : a.owner = some .director → s.office.director.pc ≠ .setDay) :
    x.g.finished w = s.office.g.finished w ∧ x.g.currentDay = s.office.g.currentDay := by
  have hother (hx : PostOffice.step s.office a = some x) (ha : a.owner ≠ some .director) :
      x.g.finished w = s.office.g.finished w ∧ x.g.currentDay = s.office.g.currentDay := by
    cases step_stepOf hx with
    | director => exact absurd rfl ha
    | dispenser hstep =>
      have hm := (Dispenser.step_move hstep).1
      exact ⟨hm.logs.finished_eq (by simp), by rw [State.setDispenser_g, hm.frame]⟩
    | operator v hstep =>
      have hm := Operator.step_move hstep
      exact ⟨hm.logs.finished_eq fun he => hw (congrArg some he),
        by rw [State.setOperator_g, hm.frame]⟩
    | user u hstep =>
      have hm := (User.step_move hstep).1
      exact ⟨hm.logs.finished_eq (by simp), by rw [State.setUser_g, hm.frame]⟩
    | deliver p sigs => rw [State.deliverTo_g]; exact ⟨rfl, rfl⟩
    | interrupt term | tick ns => exact ⟨rfl, rfl⟩
  cases a with
  | own p n =>
    cases p with
    | director =>
      obtain ⟨⟨l', g'⟩, hx, rfl⟩ := Option.map_eq_some_iff.mp h
      have hm := Director.step_move hx
      exact ⟨hm.logs.finished_eq (by simp), hm.currentDay.resolve_right fun h => hpc rfl h.1⟩
    | dispenser | operator v | user u => exact hother h (by simp [Act.owner])
  | deliver p sigs | interrupt term | tick ns => exact hother h (by simp [Act.owner])

theorem step_books {a : SessionAct c} {w : Fin c.nofWorkers} (h : s.step a = some s')
    (hdead : s.killed (.operator w) = true)
    (hday : ∀ b, a = .office b → b.owner = some .director → s.office.director.pc ≠ .setDay) :
    s'.office.g.finished w = s.office.g.finished w ∧
      s'.office.g.currentDay = s.office.g.currentDay := by
  cases a with
  | office a =>
    obtain ⟨halive, x, hx, rfl⟩ := step_office h
    have hsubject : a.subject ≠ some (.operator w) := fun he =>
      Bool.false_ne_true ((halive _ he).symm.trans hdead)
    exact officeStep_books hx hsubject (hday a rfl)
  | ctrlC =>
    obtain rfl := Option.some.inj h
    exact ⟨rfl, rfl⟩
  | die p =>
    obtain rfl := (step_die h).2
    exact ⟨rfl, rfl⟩

/-- A process is dead when it was dead or dies now. -/
theorem step_killed {a : SessionAct c} {p : c.Proc} (h : s.step a = some s') :
    s'.killed p = true ↔ s.killed p = true ∨ a = .die p := by
  cases a with
  | office a =>
    obtain ⟨-, x, -, rfl⟩ := step_office h
    simp
  | ctrlC =>
    obtain rfl := Option.some.inj h
    simp
  | die q =>
    obtain rfl := (step_die h).2
    by_cases hq : p = q
    · simp [hq]
    · simp [hq, Ne.symm hq]

/-- A killed operator has sent the `DAY_FINISHED` of the current day. -/
def Paid (s : Session c) : Prop :=
  ∀ w, s.killed (.operator w) = true → s.office.g.finished w = s.office.g.currentDay

theorem Paid.step {a : SessionAct c} (hI : s.Paid) (hok : s.Spares a) (h : s.step a = some s') :
    s'.Paid := by
  intro w hw
  rcases (step_killed h).mp hw with hdead | rfl
  · have hday : ∀ b, a = .office b → b.owner = some .director →
        s.office.director.pc ≠ .setDay := by
      rintro b rfl ho hpc
      exact Bool.false_ne_true ((hok.2 ho hpc w).symm.trans hdead)
    obtain ⟨hfin, hcur⟩ := step_books h hdead hday
    rw [hfin, hcur]
    exact hI w hdead
  · obtain rfl := (step_die h).2
    exact hok w rfl

theorem paid (h : Session.ReachableBy Spares s) : s.Paid :=
  h.invariant (fun _ hw => (Bool.false_ne_true hw).elim) fun _ _ _ _ hI hok hs => hI.step hok hs

end Session

/-! ### The barrier -/

/-- An operator exits in `lock_stats`, or when it is told to terminate. -/
theorem Operator.step_told {w : Fin c.nofWorkers} {l l' : Operator c} {g g' : Shared c} {n : ℕ}
    (h : step w l g n = some (l', g')) (hx : l'.exited = true) :
    (view w l').inRun = true ∨ l'.vars.terminateRequested = true := by
  rcases step_exit h hx with ⟨hlock, -, hpc⟩ | ⟨-, hterm⟩
  · rw [view, hpc]
    exact .inl (OpPc.inRun_of_lockingStats hlock)
  · exact .inr hterm

theorem operator_told {s : State c} (h : Reachable s) (w : Fin c.nofWorkers)
    (hx : (s.operators w).exited = true) :
    (s.view w).inRun = true ∨ (s.operators w).vars.terminateRequested = true := by
  refine @ReachableBy.induct c _ (fun s => ∀ w, (s.operators w).exited = true →
    (s.view w).inRun = true ∨ (s.operators w).vars.terminateRequested = true) (fun _ => nofun)
    (fun s a s' _ hI _ hs => ?_) s h w hx
  cases hs with
  | operator v hstep =>
    exact (Function.forall_update_iff s.operators fun w l => l.exited = true →
      (Operator.view w l).inRun = true ∨ l.vars.terminateRequested = true).mpr
        ⟨Operator.step_told hstep, fun w _ => hI w⟩
  | deliver p sigs hp hne halive =>
    intro w hw
    obtain ⟨hother, hold⟩ := State.ne_of_exited_deliverTo (q := .operator w) halive hw
    rw [State.deliverTo_view, State.deliverTo_operators, if_neg hother]
    exact hI w hold
  | _ => exact hI

/-- During a day no operator has exited when no `SIGUSR2` finds one in `lock_stats`. -/
theorem alive_of_dayOpen {s : State c} (h : ReachableBy (Delivers StatsUndisturbed) s)
    (hopen : s.director.pc.dayOpen = true) (w : Fin c.nofWorkers) :
    (s.operators w).exited = false := by
  refine Bool.eq_false_iff.mpr fun hx => ?_
  rcases operator_told h.reach w hx with hrun | hterm
  · exact Bool.false_ne_true (((undisturbed h).alive w hrun).symm.trans hx)
  · have hnot := (termination h.reach).not_operator (DirPc.not_stopping_of_dayOpen hopen) w
    exact Bool.false_ne_true (hnot.symm.trans hterm)

/-- While the director waits, the messages it still needs are those in the queue and one of each
    operator that has not finished the day. -/
theorem State.Barrier.needed {s : State c} (hB : s.Barrier) (hpc : s.director.pc = .waitDayEnd) :
    s.g.msgs.countP (Message.isOfKind .dayFinished) + s.director.vars.received +
      (Finset.univ.filter fun w => s.g.finished w < s.g.currentDay).card = c.nofWorkers := by
  have hday (w) : s.g.finished w + ind (s.g.finished w < s.g.currentDay) = s.g.currentDay := by
    have haccount := hB.account w
    have hle := (hB.owed_le w).trans (ind_le_one _)
    have hpre : s.director.pc.preStart w = false := by rw [hpc]; rfl
    rw [hpre, ind_of_not Bool.false_ne_true] at haccount
    unfold ind
    split <;> omega
  have hsum : ∑ w, s.g.finished w + ∑ w, ind (s.g.finished w < s.g.currentDay) =
      c.nofWorkers * s.g.currentDay := by
    rw [← Finset.sum_add_distrib, Finset.sum_const_nat fun w _ => hday w, Finset.card_univ,
      Fintype.card_fin]
  have hmessages := hB.messages
  rw [s.g.total_finished] at hsum
  have hopen : ind (s.director.pc.dayOpen = true) = 1 := ind_of (by rw [hpc]; rfl)
  rw [hopen, Nat.mul_one, hpc] at hmessages
  simp only [Director.receivedOf] at hmessages
  rw [Finset.card_filter]
  unfold ind at hsum
  omega

namespace Session

variable {s t : Session c}

/-- An operator that is terminated during a day and owes its `DAY_FINISHED` keeps the director in
    that day for ever: no statistics are printed and no IPC object is removed. -/
theorem waits_forever (h : Reach Session.step (Session.init c) s) {w : Fin c.nofWorkers}
    (hdead : s.killed (.operator w) = true)
    (howes : s.office.g.finished w < s.office.g.currentDay)
    (hopen : s.office.director.pc.dayOpen = true) (ht : Reach Session.step s t) :
    t.office.director.pc.dayOpen = true := by
  have hr : PostOffice.ReachableBy (Delivers fun _ _ _ => True) s.office :=
    follows (fun _ _ _ _ _ _ => trivial) h (DirPc.not_stopping_of_dayOpen hopen)
  refine (ReachBy.invariant (I := fun t => Reachable t.office ∧ t.killed (.operator w) = true ∧
    t.office.g.finished w < t.office.g.currentDay ∧ t.office.director.pc.dayOpen = true)
    ⟨hr.reach, hdead, howes, hopen⟩ (fun t a t' _ hI _ hs => ?_) ht).2.2.2
  obtain ⟨hr, hdead, howes, hopen⟩ := hI
  have hr' : Reachable t'.office :=
    (step_reachableBy (D := fun _ _ _ => True) (hr.mono fun _ _ _ _ _ _ => trivial)
      (DirPc.not_stopping_of_dayOpen hopen) (fun _ _ _ _ _ => trivial) hs).reach
  have hday : ∀ b, a = .office b → b.owner = some .director →
      t.office.director.pc ≠ .setDay := by
    intro b _ _ hpc
    rw [hpc] at hopen
    exact Bool.false_ne_true hopen
  obtain ⟨hfin, hcur⟩ := step_books hs hdead hday
  have howes' : t'.office.g.finished w < t'.office.g.currentDay := by
    rw [hfin, hcur]
    exact howes
  refine ⟨hr', (step_killed hs).mpr (.inl hdead), howes', ?_⟩
  -- Once the barrier has opened, everybody has finished the day.
  by_contra hclosed
  exact howes'.ne ((barrier hr').finished_eq (Bool.eq_false_iff.mpr hclosed) w)

end Session

namespace SmallOffice

/-- Ctrl+C, and the children are terminated. -/
def ctrlC : List (SessionAct smallOffice) :=
  [.ctrlC, .die .dispenser, .die clerk, .die first, .die second]

/-- The day is over, the operator has sent its `DAY_FINISHED`, and the director sleeps. -/
def lateCtrlC : List (SessionAct smallOffice) :=
  (morning ++ signal clerk .usr1 ++ own clerk 16 ++ own .director 8 ++ signal clerk .usr2 ++
    own clerk 7).map .office ++ ctrlC

/-- The operator waits for tickets, and the director notices the shutdown. -/
def earlyCtrlC : List (SessionAct smallOffice) :=
  (morning ++ own .director 1 ++ signal clerk .usr1 ++ own clerk 16).map .office ++ ctrlC ++
    (signal .director .int ++ own .director 7).map .office

end SmallOffice

end PostOffice
