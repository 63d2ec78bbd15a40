import Mathlib.Algebra.Order.BigOperators.Group.Finset
import Mathlib.Data.Rat.Cast.Order
import Mathlib.Tactic.Linarith
import PostOffice.Stamps
import PostOffice.Reports

/-! The figures behind the printed averages. The statistics hold each figure twice, for the day and
    for the simulation; a column is one of the two.

        hist   … ▮ served served … served │
        day       └──── today ──────────┘      cleared from resetStats to the next ▮
        total  └──── all of it ─────────┘

    Both columns are a function of the services in the history: how many there were for each
    service, and how long their users waited. Of the durations, which no event shows, the sums are
    known up to the range `random_service_duration_minutes` draws from. -/

namespace PostOffice

open Transition

variable {c : Setup}

/-- The least number of minutes that `random_service_duration_minutes` returns. -/
def shortestMinutes (service : Service) : ℕ :=
  if serviceMeanMinutes service / 2 ≤ 0 then 1 else serviceMeanMinutes service / 2

/-- The greatest. -/
def longestMinutes (service : Service) : ℕ :=
  serviceMeanMinutes service + serviceMeanMinutes service / 2

theorem shortestMinutes_le (service : Service) :
    shortestMinutes service ≤ longestMinutes service := by
  revert service
  decide

/-- Every duration is drawn from the range. -/
theorem randomServiceDurationMinutes_mem (service : Service) (n : ℕ) :
    shortestMinutes service ≤ randomServiceDurationMinutes service n ∧
      randomServiceDurationMinutes service n ≤ longestMinutes service := by
  have hle := shortestMinutes_le service
  have hlt : n % (longestMinutes service - shortestMinutes service + 1) <
      longestMinutes service - shortestMinutes service + 1 := Nat.mod_lt _ (Nat.succ_pos _)
  have heq : randomServiceDurationMinutes service n = shortestMinutes service +
      n % (longestMinutes service - shortestMinutes service + 1) := rfl
  omega

/-! ### Columns -/

/-- The figures about services, for the day or for the simulation. -/
structure Column where
  usersServed : ℕ
  servicesServed : ℕ
  servicesNotServed : ℕ
  waitMinutesSum : ℚ
  serviceMinutesSum : ℚ
  byService : Service → ServiceStats

namespace SimulationStats

variable (st : SimulationStats)

def dayColumn : Column :=
  { usersServed := st.dayUsersServed, servicesServed := st.dayServicesServed
    servicesNotServed := st.dayServicesNotServed, waitMinutesSum := st.dayWaitMinutesSum
    serviceMinutesSum := st.dayServiceMinutesSum, byService := st.dayByService }

def totalColumn : Column :=
  { usersServed := st.totalUsersServed, servicesServed := st.totalServicesServed
    servicesNotServed := st.totalServicesNotServed, waitMinutesSum := st.totalWaitMinutesSum
    serviceMinutesSum := st.totalServiceMinutesSum, byService := st.totalByService }

end SimulationStats

/-- The column of services whose users waited `waits q` minutes for service `q`. -/
structure Column.Counts (x : Column) (waits : Service → List ℚ) : Prop where
  users : x.usersServed = x.servicesServed
  services : x.servicesServed = ∑ q, (waits q).length
  served : ∀ q, (x.byService q).served = (waits q).length
  notServed : x.servicesNotServed = ∑ q, (x.byService q).notServed
  waitSum : x.waitMinutesSum = ∑ q, (waits q).sum
  wait : ∀ q, (x.byService q).waitMinutesSum = (waits q).sum
  minutesSum : x.serviceMinutesSum = ∑ q, (x.byService q).serviceMinutesSum
  shortest : ∀ q, (shortestMinutes q * (waits q).length : ℚ) ≤ (x.byService q).serviceMinutesSum
  longest : ∀ q, (x.byService q).serviceMinutesSum ≤ (longestMinutes q * (waits q).length : ℚ)

namespace Column.Counts

variable {x x' : Column} {waits : Service → List ℚ}

/-- An empty column. -/
theorem zero : SimulationStats.zero.totalColumn.Counts fun _ => [] := by
  constructor <;> simp [SimulationStats.totalColumn, SimulationStats.zero, ServiceStats.zero]

/-- A service is counted. -/
theorem serve (h : x.Counts waits) {s : Service} {wait : ℚ} {minutes : ℕ}
    (hshort : shortestMinutes s ≤ minutes) (hlong : minutes ≤ longestMinutes s)
    (hx : x' = { x with
      usersServed := x.usersServed + 1
      servicesServed := x.servicesServed + 1
      waitMinutesSum := x.waitMinutesSum + wait
      serviceMinutesSum := x.serviceMinutesSum + minutes
      byService := Function.update x.byService s { x.byService s with
        served := (x.byService s).served + 1
        waitMinutesSum := (x.byService s).waitMinutesSum + wait
        serviceMinutesSum := (x.byService s).serviceMinutesSum + minutes } }) :
    x'.Counts (Function.update waits s (waits s ++ [wait])) := by
  subst hx
  refine ⟨congrArg (· + 1) h.users, ?_, fun q => ?_, ?_, ?_, fun q => ?_, ?_, fun q => ?_,
    fun q => ?_⟩
  · rw [Family.sum_update_add (d := 1) List.length (by simp)]
    exact congrArg (· + 1) h.services
  · by_cases hq : q = s
    · subst hq
      simp [h.served]
    · simp [hq, h.served]
  · rw [Family.sum_update_add (d := 0) ServiceStats.notServed (by rfl)]
    exact h.notServed
  · rw [Family.sum_update_add (d := wait) List.sum (by simp)]
    exact congrArg (· + wait) h.waitSum
  · by_cases hq : q = s
    · subst hq
      simp [h.wait]
    · simp [hq, h.wait]
  · rw [Family.sum_update_add (d := (minutes : ℚ)) ServiceStats.serviceMinutesSum (by rfl)]
    exact congrArg (· + (minutes : ℚ)) h.minutesSum
  · by_cases hq : q = s
    · subst hq
      have hcast : (shortestMinutes q : ℚ) ≤ minutes := by exact_mod_cast hshort
      have hold := h.shortest q
      simp only [Function.update_self, List.length_append, List.length_singleton, Nat.cast_add,
        Nat.cast_one, mul_add, mul_one]
      linarith
    · simpa [hq] using h.shortest q
  · by_cases hq : q = s
    · subst hq
      have hcast : (minutes : ℚ) ≤ longestMinutes q := by exact_mod_cast hlong
      have hold := h.longest q
      simp only [Function.update_self, List.length_append, List.length_singleton, Nat.cast_add,
        Nat.cast_one, mul_add, mul_one]
      linarith
    · simpa [hq] using h.longest q

/-- A figure that the column of services does not show changes for one service. -/
theorem other (h : x.Counts waits) {s : Service} {y : ServiceStats} (d : ℕ)
    (hy : y = { x.byService s with requests := y.requests, notServed := y.notServed })
    (hd : y.notServed = (x.byService s).notServed + d)
    (hx : x' = { x with
      servicesNotServed := x.servicesNotServed + d
      byService := Function.update x.byService s y }) : x'.Counts waits := by
  subst hx
  have hserved : y.served = (x.byService s).served := by rw [hy]
  have hwait : y.waitMinutesSum = (x.byService s).waitMinutesSum := by rw [hy]
  have hminutes : y.serviceMinutesSum = (x.byService s).serviceMinutesSum := by rw [hy]
  refine ⟨h.users, h.services, fun q => ?_, ?_, h.waitSum, fun q => ?_, ?_, fun q => ?_,
    fun q => ?_⟩
  · exact (Family.update_of_eq ServiceStats.served hserved q).trans (h.served q)
  · rw [Family.sum_update_add ServiceStats.notServed hd]
    exact congrArg (· + d) h.notServed
  · exact (Family.update_of_eq ServiceStats.waitMinutesSum hwait q).trans (h.wait q)
  · rw [Family.sum_update_add (d := 0) ServiceStats.serviceMinutesSum (by rw [hminutes, add_zero]),
      add_zero]
    exact h.minutesSum
  · exact (h.shortest q).trans_eq (Family.update_of_eq ServiceStats.serviceMinutesSum hminutes q).symm
  · exact (Family.update_of_eq ServiceStats.serviceMinutesSum hminutes q).trans_le (h.longest q)

end Column.Counts

/-! ### What the columns count -/

/-- How long the user of a service of `q` waited. -/
def Event.waited (c : Setup) (q : Service) : c.Event → Option ℚ
  | .served _ s _ waitingNs => if s = q then some (nsToMinutes waitingNs c.nNanoSeconds) else none
  | _ => none

/-- The waiting times of the services of `q` among the events. -/
def waits (c : Setup) (l : List c.Event) (q : Service) : List ℚ := l.filterMap (Event.waited c q)

theorem waits_append (l l' : List c.Event) (q : Service) :
    waits c (l ++ l') q = waits c l q ++ waits c l' q :=
  List.filterMap_append

/-- One more service. -/
theorem waits_served (l : List c.Event) (w : Fin c.nofWorkers) (s : Service) (t : QueueTicket)
    (ns : ℤ) : waits c (l ++ [.served w s t ns]) =
      Function.update (waits c l) s (waits c l s ++ [nsToMinutes ns c.nNanoSeconds]) := by
  funext q
  rw [waits_append]
  by_cases hq : q = s
  · subst hq
    simp [waits, Event.waited]
  · simp [waits, Event.waited, hq, Ne.symm hq]

/-- An event that is no service. -/
theorem waits_other {l : List c.Event} {e : c.Event} (he : ∀ q, e.waited c q = none) :
    waits c (l ++ [e]) = waits c l := by
  funext q
  rw [waits_append]
  simp [waits, he q]

/-- Only the operators serve. -/
theorem Logs.waits_eq {p : c.Proc} {g g' : Shared c} (h : Logs p g g') (hp : p ≠ .director)
    (hw : ∀ w, p ≠ .operator w) :
    waits c g'.hist = waits c g.hist ∧ waits c g'.today = waits c g.today := by
  have hnone (q : Service) (e : c.Event) (he : e.actor = p) :
      e.waited c q = Option.none := by
    cases e with
    | served w => exact absurd he.symm (hw w)
    | _ => rfl
  refine ⟨funext fun q => ?_, funext fun q => h.today_filterMap_eq hp (hnone q)⟩
  obtain ⟨es, hes, hact⟩ := h
  rw [hes, waits_append]
  simp only [waits, List.filterMap_eq_nil_iff.mpr fun e he => hnone q e (hact e he),
    List.append_nil]

/-- A report gives the services of its day and of the simulation so far. -/
def ReportTrue (c : Setup) (before : List c.Event) : c.Event → Prop
  | .dailyStatistics _ _ _ st =>
      st.totalColumn.Counts (waits c before) ∧
      st.dayColumn.Counts (waits c (Segments.current Event.isBoundary before))
  | .finalStatistics _ _ st => st.totalColumn.Counts (waits c before)
  | _ => True

/-- `reset_day_statistics` has cleared the column of the day that is over. -/
def DirPc.cleared {seats workers users : ℕ} : DirPc seats workers users → Bool
  | .resetUnlock | .resetWorker _ | .assignInit => true
  | _ => false

theorem DirPc.not_cleared_of_live {seats workers users : ℕ} {pc : DirPc seats workers users}
    {w : Fin workers} (h : pc.live w = true) : pc.cleared = false ∧ pc.closedBooks = false := by
  cases pc <;> first
    | exact ⟨rfl, rfl⟩
    | exact Bool.noConfusion h

/-! ### The books -/

/-- The columns, for the director's program point and the shared state. -/
structure Ledger (pc : DirPc c.nofWorkerSeats c.nofWorkers c.nofUsers) (g : Shared c) : Prop where
  total : g.stats.totalColumn.Counts (waits c g.hist)
  day : pc.closedBooks = false →
    g.stats.dayColumn.Counts (if pc.cleared = true then fun _ => [] else waits c g.today)
  kept : Journal.Kept (ReportTrue c) g.hist

namespace Ledger

variable {pc pc' : DirPc c.nofWorkerSeats c.nofWorkers c.nofUsers} {v v' : DirVars}
  {g g' : Shared c}

/-- A step that changes the columns only in what the services do not show, and records no
    service and no report. -/
theorem move (hI : Ledger pc g) (hc : pc'.closedBooks = false → pc.closedBooks = false)
    (hcl : pc'.cleared = pc.cleared)
    (htotal : ∀ w, g.stats.totalColumn.Counts w → g'.stats.totalColumn.Counts w)
    (hday : ∀ w, g.stats.dayColumn.Counts w → g'.stats.dayColumn.Counts w)
    (hw : waits c g'.hist = waits c g.hist) (ht : waits c g'.today = waits c g.today)
    (hkept : Journal.Kept (ReportTrue c) g'.hist) : Ledger pc' g' := by
  refine ⟨hw ▸ htotal _ hI.total, fun h => ?_, hkept⟩
  rw [hcl, ht]
  exact hday _ (hI.day (hc h))

/-- Who neither serves nor reports. -/
theorem logs (hI : Ledger pc g) {p : c.Proc} (hlogs : Logs p g g') (hp : p ≠ .director)
    (hp' : ∀ w, p ≠ .operator w)
    (htotal : ∀ w, g.stats.totalColumn.Counts w → g'.stats.totalColumn.Counts w)
    (hday : ∀ w, g.stats.dayColumn.Counts w → g'.stats.dayColumn.Counts w) : Ledger pc g' := by
  obtain ⟨hw, ht⟩ := hlogs.waits_eq hp hp'
  refine hI.move id rfl htotal hday hw ht ?_
  obtain ⟨es, hes, hact⟩ := hlogs
  rw [hes]
  refine Journal.kept_append_list hI.kept fun e he pre => ?_
  cases e with
  | dailyStatistics | finalStatistics => exact absurd (hact _ he).symm hp
  | _ => trivial

/-- The statistics are written under the lock. -/
theorem markRequest {st : SimulationStats} {s : Service} {w : Service → List ℚ} :
    (st.totalColumn.Counts w → (st.markRequest s).totalColumn.Counts w) ∧
    (st.dayColumn.Counts w → (st.markRequest s).dayColumn.Counts w) :=
  let bump (x : ServiceStats) : ServiceStats := { x with requests := x.requests + 1 }
  ⟨fun h => h.other (y := bump (st.totalByService s)) 0 rfl rfl rfl,
    fun h => h.other (y := bump (st.dayByService s)) 0 rfl rfl rfl⟩

theorem markNotServed {st : SimulationStats} {s : Service} {w : Service → List ℚ} :
    (st.totalColumn.Counts w → (st.markNotServed s).totalColumn.Counts w) ∧
    (st.dayColumn.Counts w → (st.markNotServed s).dayColumn.Counts w) :=
  ⟨fun h => h.other 1 rfl rfl rfl, fun h => h.other 1 rfl rfl rfl⟩

theorem dispenser {dpc dpc' : DispPc c.nofWorkerSeats} {f : DispFlags}
    (h : Dispenser.Move dpc f g dpc' g') (hI : Ledger pc g) : Ledger pc g' := by
  refine hI.logs h.logs (by simp) (by simp) (fun w hw => ?_) fun w hw => ?_
  · cases h with
    | countStats => exact markRequest.1 hw
    | refuseStats => exact markNotServed.1 hw
    | _ => exact hw
  · cases h with
    | countStats => exact markRequest.2 hw
    | refuseStats => exact markNotServed.2 hw
    | _ => exact hw

/-- The director clears the column of the day, counts what it flushes and reports. -/
theorem director (h : Director.Move pc v g pc' v' g') (hI : Ledger pc g) : Ledger pc' g' := by
  cases h with
  | resetStats =>
    exact ⟨hI.total, fun _ => Column.Counts.zero, hI.kept⟩
  | flushStats =>
    exact hI.move id rfl (fun _ => markNotServed.1) (fun _ => markNotServed.2) rfl rfl hI.kept
  | assignInit =>
    have htoday : (g.log (.assigned g.currentDay)).today = [] := g.today_log_boundary rfl
    have hwaits : waits c (g.hist ++ [.assigned g.currentDay]) = waits c g.hist :=
      waits_other fun _ => rfl
    refine ⟨?_, fun _ => ?_, Journal.kept_append hI.kept trivial⟩
    · rw [Shared.log_hist, hwaits]
      exact hI.total
    · rw [htoday]
      have hday : g.stats.dayColumn.Counts fun _ => [] := hI.day rfl
      exact hday
  | dayBrokenOff | flushTake | flushReply =>
    refine hI.move id rfl (fun _ => id) (fun _ => id) (waits_other fun _ => rfl) ?_
      (Journal.kept_append hI.kept trivial)
    rw [Shared.today_log _ rfl]
    exact waits_other fun _ => rfl
  | printDaily =>
    refine hI.move id rfl (fun _ => id) (fun _ => id) (waits_other fun _ => rfl) ?_
      (Journal.kept_append hI.kept ⟨hI.total, hI.day rfl⟩)
    rw [Shared.today_log _ rfl]
    exact waits_other fun _ => rfl
  | finalPrint =>
    refine ⟨?_, nofun, Journal.kept_append hI.kept hI.total⟩
    rw [Shared.log_hist, waits_other fun _ => rfl]
    exact hI.total
  | _ => exact hI.move id rfl (fun _ => id) (fun _ => id) rfl rfl hI.kept

/-- The operators count their services, while they are inside `run_day`. -/
theorem operator {w : Fin c.nofWorkers} {l l' : Operator c} (h : Operator.Move w l g l' g')
    (hI : Ledger pc g) (hlive : (Operator.view w l).inRun = true → pc.live w = true)
    (hminutes : ∀ k t ns m, l.pc = .serveStats k t ns m →
      shortestMinutes (c.workerService w) ≤ m ∧ m ≤ longestMinutes (c.workerService w)) :
    Ledger pc g' := by
  have hother {es : List c.Event} (hes : g'.hist = g.hist ++ es) (hst : g'.stats = g.stats ∨
      g'.stats = g.stats.pause) (hact : ∀ e ∈ es, e.actor = .operator w)
      (hnone : ∀ e ∈ es, ∀ q, e.waited c q = none) : Ledger pc g' := by
    have hnew (q : Service) : waits c es q = [] :=
      List.filterMap_eq_nil_iff.mpr fun e he => hnone e he q
    have htoday : g'.today = g.today ++ es := by
      rw [Shared.today, hes]
      exact Segments.current_append_list fun e he => Logs.not_boundary (by simp) (hact e he)
    refine hI.move id rfl (fun _ hx => ?_) (fun _ hx => ?_) (funext fun q => ?_)
      (funext fun q => ?_) ?_
    · rcases hst with hst | hst <;> rw [hst] <;> exact hx
    · rcases hst with hst | hst <;> rw [hst] <;> exact hx
    · rw [hes, waits_append, hnew, List.append_nil]
    · rw [htoday, waits_append, hnew, List.append_nil]
    · rw [hes]
      refine Journal.kept_append_list hI.kept fun e he pre => ?_
      cases e with
      | dailyStatistics | finalStatistics => exact nomatch hact _ he
      | _ => trivial
  cases h with
  | count hf k t ns m hpc =>
    have hrun : (Operator.view w l).inRun = true := by rw [Operator.view, hpc]; rfl
    obtain ⟨hcl, hcb⟩ := DirPc.not_cleared_of_live (hlive hrun)
    obtain ⟨hshort, hlong⟩ := hminutes k t ns m hpc
    refine ⟨?_, fun _ => ?_, Journal.kept_append hI.kept trivial⟩
    · rw [Shared.log_hist, Shared.setStats_hist, waits_served]
      exact hI.total.serve hshort hlong rfl
    · have hday := hI.day hcb
      rw [hcl, if_neg Bool.false_ne_true] at hday ⊢
      rw [Shared.today_log _ rfl, waits_served]
      exact hday.serve hshort hlong rfl
  | init | «begin» | pop | popEmpty | reply | finish =>
    exact hother rfl (.inl rfl) (by simp [Event.actor]) (by simp [Event.waited])
  | pauseStats => exact hother (List.append_nil _).symm (.inr rfl) (by simp) (by simp)
  | _ => exact hother (List.append_nil _).symm (.inl rfl) (by simp) (by simp)

end Ledger

/-! ### The duration of the service in progress -/

/-- The number of minutes an operator has drawn for the ticket in its hands. -/
def OpPc.minutes {seats : ℕ} : OpPc seats → Option ℕ
  | .serveSleep _ _ _ m | .serveLock _ _ _ m | .serveStats _ _ _ m => some m
  | _ => none

/-- An operator draws the minutes and keeps them until it has counted them. -/
theorem Operator.step_minutes {w : Fin c.nofWorkers} {l l' : Operator c} {g g' : Shared c} {n m : ℕ}
    (h : Operator.step w l g n = some (l', g')) (hm : l'.pc.minutes = some m) :
    l.pc.minutes = some m ∨ m = randomServiceDurationMinutes (c.workerService w) n := by
  have hstay (hpc : l'.pc = l.pc) : l.pc.minutes = some m := hpc ▸ hm
  unfold step at h
  split at h
  · cases h
  unfold body at h
  cases hpc : l.pc <;> rw [hpc] at h hstay <;> simp only at h
  case serveStart k t =>
    cases h
    exact .inr (Option.some.inj hm).symm
  case serveSleep k t ns m =>
    unfold Task.nanosleep at h
    repeat' split at h
    all_goals cases h
    all_goals first | exact .inl hm | exact .inl (hstay hpc)
  case serveLock k t ns m =>
    rcases semOpInterruptible_cases h with ⟨-, -, rfl, rfl⟩ | ⟨h1, -, -⟩ | ⟨-, rfl, rfl⟩
    · exact .inl (hstay hpc)
    · exact .inl (hstay (h1.trans hpc))
    · exact .inl hm
  case claimToken | scanLock | waitTicket | popLock | pauseLock | releaseLock =>
    rcases semOpInterruptible_cases h with ⟨-, -, rfl, rfl⟩ | ⟨h1, -, -⟩ | ⟨-, rfl, rfl⟩
    · first | exact .inl (hstay hpc) | cases hm
    · exact .inl (hstay (h1.trans hpc))
    · cases hm
  case sendInit | serveReply | dayFinished =>
    rcases msgSendRetry_cases h with ⟨h1, -, -⟩ | ⟨-, rfl, -⟩
    · exact .inl (hstay (h1.trans hpc))
    · cases hm
  all_goals
    try simp only [forLoop] at h
    repeat' split at h
    all_goals cases h
    all_goals first | cases hm | exact .inl (hstay hpc)

namespace State

/-- The minutes in hand are in range, and the columns are kept. -/
structure Figures (s : State c) : Prop where
  minutes : ∀ w m, (s.operators w).pc.minutes = some m →
    shortestMinutes (c.workerService w) ≤ m ∧ m ≤ longestMinutes (c.workerService w)
  ledger : Ledger s.director.pc s.g

namespace Figures

variable {s s' : State c}

theorem step {a : Act c} (hr : Reachable s) (hI : s.Figures) (h : s.StepOf a s') : s'.Figures := by
  cases h with
  | director hstep => exact ⟨hI.minutes, Ledger.director (Director.step_move hstep) hI.ledger⟩
  | dispenser hstep =>
    exact ⟨hI.minutes, Ledger.dispenser (Dispenser.step_move hstep).1 hI.ledger⟩
  | operator w hstep =>
    refine ⟨fun v m hm => ?_, Ledger.operator (Operator.step_move hstep) hI.ledger
      (barrier hr).live_of_inRun fun k t ns m hpc => hI.minutes w m (by rw [hpc]; rfl)⟩
    rw [setOperator_operators] at hm
    by_cases hv : v = w
    · subst hv
      rw [Function.update_self] at hm
      rcases Operator.step_minutes hstep hm with hold | rfl
      · exact hI.minutes v m hold
      · exact randomServiceDurationMinutes_mem _ _
    · rw [Function.update_of_ne hv] at hm
      exact hI.minutes v m hm
  | user u hstep =>
    have hm := (User.step_move hstep).1
    refine ⟨hI.minutes, hI.ledger.logs hm.logs (by simp) (by simp) (fun _ h => ?_) fun _ h => ?_⟩
    · rw [hm.frame]
      exact h
    · rw [hm.frame]
      exact h
  | deliver p sigs =>
    refine ⟨by simpa using hI.minutes, ?_⟩
    rw [deliverTo_director_pc, deliverTo_g]
    exact ⟨hI.ledger.total, hI.ledger.day, hI.ledger.kept⟩
  | interrupt | tick => exact ⟨hI.minutes, hI.ledger.total, hI.ledger.day, hI.ledger.kept⟩

theorem init : (State.init c).Figures :=
  ⟨fun _ _ => nofun, Column.Counts.zero, fun _ => Column.Counts.zero, Journal.kept_nil⟩

end Figures

end State

theorem figures {s : State c} (h : Reachable s) : s.Figures :=
  ReachableBy.induct .init (fun _ _ _ hr hI _ hs => hI.step hr hs) h

end PostOffice
