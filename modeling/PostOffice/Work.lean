import PostOffice.Lib.Potential
import PostOffice.Counters
import PostOffice.Payments

/-! How much work is left in the whole system. Own steps and deliveries lower it, so their number is
    bounded by the configuration, in any order of steps: no loop of the programs goes round for
    ever. Only signals from outside can add to it, and only a bounded number of steps for each. -/

namespace PostOffice

open Transition

variable {c : Setup}

/-- A handler does nothing but raise flags; a process that sleeps wakes up. -/
theorem Task.deliver_work {P V : Type} {l : Task P V} {price : P → V → ℕ} {sigs : List Signal}
    {handler : V → Signal → V} {n : ℕ}
    (h : price l.pc (sigs.foldl handler l.vars) ≤ price l.pc l.vars + n) :
    (l.deliver handler sigs).work price + 1 ≤ l.work price + (n + 21) := by
  obtain ⟨pc, mode, vars⟩ := l
  cases mode <;> simp only [work, deliver, Mode.work, reduceCtorEq, if_false, if_true] at h ⊢ <;>
    omega

theorem startWork_le_of_flags (day : ℕ) (a b a' b' : Bool) :
    startWork day a b ≤ startWork day a' b' + 2 * day := by
  cases a <;> cases b <;> simp [startWork] <;> omega

theorem Setup.opWork_le (pc : OpPc c.nofWorkerSeats) (v v' : OpFlags) :
    c.opWork pc v' ≤ c.opWork pc v + 2 * c.opDay := by
  cases pc
  case done | mainBreak => exact Nat.le_add_right _ _
  all_goals
    simp only [opWork, Nat.add_assoc, Nat.add_le_add_iff_left]
    exact startWork_le_of_flags _ _ _ _ _

theorem Setup.userWork_le (pc : UserPc) (v v' : UserFlags) :
    c.userWork pc v' ≤ c.userWork pc v + 2 * c.userDay := by
  cases pc
  case done | mainBreak => exact Nat.le_add_right _ _
  all_goals
    simp only [userWork, Nat.add_assoc, Nat.add_le_add_iff_left]
    exact startWork_le_of_flags _ _ _ _ _

/-- The own steps and the signal deliveries: what the processes and the kernel do, without the
    signals from outside and the passing of time. -/
def Act.works : Act c → Bool
  | .own _ _ | .deliver _ _ => true
  | .interrupt _ | .tick _ => false

/-- What a signal from outside makes the director do. -/
def Act.price : Act c → ℕ
  | .interrupt _ => 21
  | _ => 0

namespace State

/-- What is left of the work. -/
def work (s : State c) : ℕ :=
  s.director.work c.dirWork + s.dispenser.work (fun pc _ => pc.work) +
    Family.total (fun _ l => l.work c.opWork) s.operators +
    Family.total (fun _ l => l.work c.userWork) s.users + s.g.workLeft

theorem work_deliverTo {s : State c} {p : c.Proc} {sigs : List Signal} (hne : sigs ≠ [])
    (hp : ∀ sig ∈ sigs, s.g.pending p sig = true) : (s.deliverTo sigs p).work + 1 ≤ s.work := by
  have hg := Shared.workLeft_delivered hne hp
  cases p with
  | director =>
    have hdir : (s.director.deliver handleDirectorSignal sigs).work c.dirWork + 1 ≤
        s.director.work c.dirWork + (0 + 21) := by
      obtain ⟨b, hb⟩ := foldl_handleDirectorSignal sigs s.director.vars
      refine Task.deliver_work (le_of_eq ?_)
      rw [hb]
      rfl
    simp only [work, deliverTo, setDirector, Setup.signalWork] at hg ⊢
    omega
  | dispenser =>
    have hdisp : (s.dispenser.deliver handleTicketSignal sigs).work (fun pc _ => pc.work) + 1 ≤
        s.dispenser.work (fun pc _ => pc.work) + (0 + 21) := Task.deliver_work le_rfl
    simp only [work, deliverTo, setDispenser, Setup.signalWork] at hg ⊢
    omega
  | operator w =>
    have hop : ((s.operators w).deliver handleOperatorSignal sigs).work c.opWork + 1 ≤
        (s.operators w).work c.opWork + (2 * c.opDay + 21) :=
      Task.deliver_work (c.opWork_le _ _ _)
    have htotal := Family.total_update (fun _ (l : Operator c) => l.work c.opWork) s.operators w
      ((s.operators w).deliver handleOperatorSignal sigs)
    simp only [work, deliverTo, setOperator, Setup.signalWork] at hg htotal ⊢
    omega
  | user u =>
    have hus : ((s.users u).deliver handleUserSignal sigs).work c.userWork + 1 ≤
        (s.users u).work c.userWork + (2 * c.userDay + 21) :=
      Task.deliver_work (c.userWork_le _ _ _)
    have htotal := Family.total_update (fun _ (l : User) => l.work c.userWork) s.users u
      ((s.users u).deliver handleUserSignal sigs)
    simp only [work, deliverTo, setUser, Setup.signalWork] at hg htotal ⊢
    omega

/-- Behind the last counter there is no free one, so nobody looks for one there. -/
theorem Seating.no_fallback {s : State c} (hS : s.Seating) (w : Fin c.nofWorkers) :
    (s.operators w).pc ≠ .scanFallback := by
  intro hpc
  have hroom := hS.room (c.workerService w) c.nofWorkerSeats fun h => absurd h c.seats_pos.ne'
  have hfree : s.g.free (c.workerService w) c.nofWorkerSeats = 0 :=
    Family.total_eq_zero fun i => ind_of_not fun hi => Nat.not_lt.mpr hi.1 i.isLt
  have hpassed : (s.view w).passed c.nofWorkerSeats :=
    ⟨_, by rw [State.view, Operator.view, hpc]; rfl, le_rfl⟩
  have hone := Family.le_total
    (fun v x => ind (c.workerService v = c.workerService w ∧ x.passed c.nofWorkerSeats)) s.view w
  rw [ind_of ⟨rfl, hpassed⟩] at hone
  have := hone.trans ((Nat.le_add_right _ _).trans hroom)
  omega

/-- Every step pays for itself. -/
theorem pays {s s' : State c} {a : Act c} (h : Reachable s) (hstep : step s a = some s') :
    Pays work Act.works Act.price s a s' := by
  cases step_stepOf hstep with
  | director hl =>
    have := Director.step_work hl
    simp only [Pays, work, setDirector, Act.works, Act.price, if_true]
    omega
  | dispenser hl =>
    have := Dispenser.step_work hl
    simp only [Pays, work, setDispenser, Act.works, Act.price, if_true]
    omega
  | @operator n l' g' w hl =>
    have := Operator.step_work hl ((seating h).no_fallback w)
    have htotal := Family.total_update (fun _ (l : Operator c) => l.work c.opWork) s.operators w l'
    simp only [Pays, work, setOperator, Act.works, Act.price, if_true] at htotal ⊢
    omega
  | @user n l' g' u hl =>
    have := User.step_work hl
    have htotal := Family.total_update (fun _ (l : User) => l.work c.userWork) s.users u l'
    simp only [Pays, work, setUser, Act.works, Act.price, if_true] at htotal ⊢
    omega
  | deliver p sigs hp hne _ => exact work_deliverTo hne hp
  | interrupt term =>
    have := Shared.workLeft_kill_le (g := s.g) (.director : c.Proc) (if term then .term else .int)
    simp only [Pays, work, setG, Act.works, Act.price, Setup.signalWork, Bool.false_eq_true,
      if_false] at this ⊢
    omega
  | tick ns => exact le_rfl

/-- The processes use up what is left. -/
theorem work_lt {ok : State c → Act c → Prop} (s : State c) (a : Act c) (s' : State c)
    (h : ReachBy PostOffice.step ok (State.init c) s) (hwork : a.works = true) (_ : ok s a)
    (hstep : PostOffice.step s a = some s') : s'.work < s.work := by
  have hpays := pays h.reach hstep
  have hprice : a.price = 0 := by
    cases a <;> first | rfl | exact Bool.noConfusion hwork
  rw [Pays, hwork, hprice, if_pos rfl] at hpays
  exact hpays

end State

/-- What the configuration allows a run to do. -/
def Setup.budget (c : Setup) : ℕ :=
  c.directorDay * c.simDuration + c.endWork + 15 * (c.nofWorkers + c.nofUsers) + 14

/-- The run begins with empty queues and with no signal pending. -/
theorem State.work_init : (State.init c).work = c.budget := by
  have hg : (Shared.init c).workLeft = 0 := by
    simp [Shared.workLeft, Shared.workOf, Shared.pendingWork, Shared.init, Family.total,
      serviceQueueReset, RingBuffer.reset]
  have hops : Family.total (fun _ l => l.work c.opWork) (State.init c).operators =
      c.nofWorkers * 15 := by
    refine (Family.total_eq_card_mul (k := 15) fun _ => rfl).trans ?_
    rw [Fintype.card_fin]
  have husers : Family.total (fun _ l => l.work c.userWork) (State.init c).users =
      c.nofUsers * 15 := by
    refine (Family.total_eq_card_mul (k := 15) fun _ => rfl).trans ?_
    rw [Fintype.card_fin]
  rw [work, hops, husers]
  simp only [init, hg, Task.work, Mode.work, Setup.dirWork, DirPc.daysLeft, DirPc.work,
    DispPc.work, Setup.budget, Nat.add_sub_cancel]
  omega

/-- Somebody outside sends a signal. -/
def Act.outside : Act c → Bool
  | .interrupt _ => true
  | _ => false

theorem sum_price (as : List (Act c)) : (as.map Act.price).sum = 21 * as.countP Act.outside := by
  induction as with
  | nil => rfl
  | cons a as ih =>
    rw [List.map_cons, List.sum_cons, ih, List.countP_cons]
    cases a <;> simp [Act.price, Act.outside, Nat.mul_add, Nat.add_comm]

/-- CORRECT: the programs do not go round in circles. In any order of steps, fair or not, a run
    consists of at most `c.budget` steps and deliveries, and 21 more for each signal from outside;
    the budget is a polynomial in the configuration. -/
theorem bounded_work {as : List (Act c)} {s : State c}
    (h : exec step as (State.init c) = some s) :
    as.countP Act.works ≤ c.budget + 21 * as.countP Act.outside := by
  have hwork := countP_work_le (fun t a t' ht hstep => State.pays ht hstep) .refl h
  rw [State.work_init, sum_price] at hwork
  omega

/-- The small office, up to the second day. -/
theorem bounded_work_small : ∃ s : State smallOffice,
    exec step SmallOffice.night (State.init smallOffice) = some s ∧
    SmallOffice.night.countP Act.works ≤
      smallOffice.budget + 21 * SmallOffice.night.countP Act.outside := by
  have hrun : (exec step SmallOffice.night (State.init smallOffice)).isSome = true := by
    decide +kernel
  obtain ⟨s, hs⟩ := Option.isSome_iff_exists.mp hrun
  exact ⟨s, hs, bounded_work hs⟩

end PostOffice
