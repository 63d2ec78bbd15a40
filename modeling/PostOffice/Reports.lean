import PostOffice.Lib.Journal
import PostOffice.Closing

/-! The daily reports. Every event counts in a figure of the day and in the same figure of the
    simulation; the day's figures are printed and reset in two critical sections.

        resetStats ─▶ … the day, count, flush … ─▶ printDaily ─▶ … next day … ─▶ resetStats
        total = printed + day                      total = printed
                                                       (gap: nobody may count)

    What is counted in the gap is in the next day's total and in no day's figure. -/

namespace PostOffice

open Transition

/-- The figures that a report gives for the day and for the simulation. -/
inductive Figure where
  | usersServed | servicesServed | servicesNotServed | pauses
  | served (s : Service) | notServed (s : Service)

namespace SimulationStats

/-- The figures of the day. -/
def day (st : SimulationStats) : Figure → ℕ
  | .usersServed => st.dayUsersServed
  | .servicesServed => st.dayServicesServed
  | .servicesNotServed => st.dayServicesNotServed
  | .pauses => st.dayPauseTotal
  | .served s => (st.dayByService s).served
  | .notServed s => (st.dayByService s).notServed

/-- The figures of the simulation. -/
def total (st : SimulationStats) : Figure → ℕ
  | .usersServed => st.totalUsersServed
  | .servicesServed => st.totalServicesServed
  | .servicesNotServed => st.totalServicesNotServed
  | .pauses => st.totalPauseTotal
  | .served s => (st.totalByService s).served
  | .notServed s => (st.totalByService s).notServed

variable (st : SimulationStats) (s : Service) (k : Figure)

/-- Each update counts as much for the day as for the simulation. -/
theorem total_serve (wait : ℚ) (minutes : ℕ) :
    (st.serve s wait minutes).total k + st.day k = st.total k + (st.serve s wait minutes).day k := by
  cases k with
  | usersServed | servicesServed => exact Nat.add_right_comm _ _ _
  | servicesNotServed | pauses => rfl
  | served q =>
    simp only [serve, total, day, Function.update_apply]
    split
    · rw [‹q = s›]
      exact Nat.add_right_comm _ _ _
    · rfl
  | notServed q =>
    exact congrArg₂ (· + ·) (Family.update_of_eq ServiceStats.notServed (by rfl) q)
      (Family.update_of_eq ServiceStats.notServed (by rfl) q).symm

theorem total_pause : st.pause.total k + st.day k = st.total k + st.pause.day k := by
  cases k with
  | pauses => exact Nat.add_right_comm _ _ _
  | _ => rfl

theorem total_markNotServed : (st.markNotServed s).total k + st.day k =
    st.total k + (st.markNotServed s).day k := by
  cases k with
  | servicesNotServed => exact Nat.add_right_comm _ _ _
  | usersServed | servicesServed | pauses => rfl
  | notServed q =>
    simp only [markNotServed, total, day, Function.update_apply]
    split
    · rw [‹q = s›]
      exact Nat.add_right_comm _ _ _
    · rfl
  | served q =>
    exact congrArg₂ (· + ·) (Family.update_of_eq ServiceStats.served (by rfl) q)
      (Family.update_of_eq ServiceStats.served (by rfl) q).symm

/-- A request counts in no figure of the reports. -/
theorem total_markRequest : (st.markRequest s).total k = st.total k := by
  cases k with
  | served q => exact Family.update_of_eq ServiceStats.served (by rfl) q
  | notServed q => exact Family.update_of_eq ServiceStats.notServed (by rfl) q
  | _ => rfl

theorem day_markRequest : (st.markRequest s).day k = st.day k := by
  cases k with
  | served q => exact Family.update_of_eq ServiceStats.served (by rfl) q
  | notServed q => exact Family.update_of_eq ServiceStats.notServed (by rfl) q
  | _ => rfl

theorem total_resetDay : st.resetDay.total = st.total := by
  funext k
  cases k <;> rfl

theorem day_resetDay : st.resetDay.day k = 0 := by
  cases k <;> rfl

end SimulationStats

/-! ### What has been printed -/

/-- The statistics that a daily report prints. -/
def Event.report {workers users : ℕ} : Event workers users → Option SimulationStats
  | .dailyStatistics _ _ _ st => some st
  | _ => none

section Printed

variable {workers users : ℕ} (hist : List (Event workers users))

/-- The daily reports. -/
def reports : List SimulationStats := hist.filterMap Event.report

/-- The simulation figures of the last daily report. -/
def lastReported : Figure → ℕ :=
  match (reports hist).getLast? with
  | some st => st.total
  | none => fun _ => 0

/-- A report adds up to the ones before it. -/
def AddsUp (before : List (Event workers users)) : Event workers users → Prop
  | .dailyStatistics day _ _ st => day = (reports before).length + 1 ∧
      ∀ k, st.total k = lastReported before k + st.day k
  | .finalStatistics _ _ st => ∀ k, st.total k = lastReported before k
  | _ => True

variable {hist}

theorem reports_append {es : List (Event workers users)} (h : ∀ e ∈ es, e.actor ≠ .director) :
    reports (hist ++ es) = reports hist := by
  have hnil : es.filterMap Event.report = [] := by
    refine List.filterMap_eq_nil_iff.mpr fun e he => ?_
    cases e with
    | dailyStatistics => exact absurd rfl (h _ he)
    | _ => rfl
  rw [reports, List.filterMap_append, hnil, List.append_nil]
  rfl

theorem lastReported_congr {hist' : List (Event workers users)} (h : reports hist' = reports hist) :
    lastReported hist' = lastReported hist := by
  unfold lastReported
  rw [h]

theorem reports_daily (day activeToday activeTotal : ℕ) (st : SimulationStats) :
    reports (hist ++ [.dailyStatistics day activeToday activeTotal st]) = reports hist ++ [st] := by
  simp [reports, Event.report]

theorem lastReported_daily (day activeToday activeTotal : ℕ) (st : SimulationStats) :
    lastReported (hist ++ [.dailyStatistics day activeToday activeTotal st]) = st.total := by
  unfold lastReported
  rw [reports_daily, List.getLast?_concat]

/-- The history around the report found at place `n`. -/
theorem exists_daily {n : ℕ} {st : SimulationStats} (h : hist[n]?.bind Event.report = some st) :
    ∃ pre post day activeToday activeTotal, pre = hist.take n ∧
      hist = pre ++ .dailyStatistics day activeToday activeTotal st :: post := by
  obtain ⟨e, he, hst⟩ := Option.bind_eq_some_iff.mp h
  have hsplit := Journal.eq_append_of_getElem? he
  cases e with
  | dailyStatistics day activeToday activeTotal st' =>
    obtain rfl := Option.some.inj hst
    exact ⟨_, _, _, _, _, rfl, hsplit⟩
  | _ => cases hst

end Printed

/-! ### The gap -/

/-- About to count a request as not served. -/
def DispPc.countsRefusal {seats : ℕ} : DispPc seats → Bool
  | .refuseStats _ _ => true
  | _ => false

namespace DirPc

variable {seats workers users : ℕ}

/-- The day's figures are printed and not reset yet. -/
def printed : DirPc seats workers users → Bool
  | .waitInit | .dayTest | .setDay | .resetLock | .resetStats | .printUnlock | .dayEnd | .setCause
  | .finalLock | .finalPrint => true
  | _ => false

/-- After the final statistics. -/
def closedBooks : DirPc seats workers users → Bool
  | .finalUnlock => true
  | pc => pc.stopping || pc = .termDispenser

/-- The number of the day that the next report gives is one more than that of the reports. -/
def toReport : DirPc seats workers users → Bool
  | .printUnlock | .dayEnd => false
  | _ => true

theorem not_printed_of_live {pc : DirPc seats workers users} {w : Fin workers}
    (h : pc.live w = true) : pc.printed = false ∧ pc.closedBooks = false := by
  cases pc <;> first
    | exact ⟨rfl, rfl⟩
    | exact Bool.noConfusion h

end DirPc

variable {c : Setup}

/-- The books of the reports, for the director's program point, its day, and the shared state. -/
structure Books (pc : DirPc c.nofWorkerSeats c.nofWorkers c.nofUsers) (day : ℕ)
    (g : Shared c) : Prop where
  /-- In the gap the simulation stands where the last report left it. -/
  printed : pc.printed = true → ∀ k, g.stats.total k = lastReported g.hist k
  /-- During the day it has grown by the day. -/
  open_ : pc.printed = false → pc.closedBooks = false →
    ∀ k, g.stats.total k = lastReported g.hist k + g.stats.day k
  day : pc.ending = false → day = (reports g.hist).length + ind (pc.toReport = true)
  kept : Journal.Kept AddsUp g.hist

namespace Books

variable {pc pc' : DirPc c.nofWorkerSeats c.nofWorkers c.nofUsers} {v v' : DirVars} {day : ℕ}
  {g g' : Shared c}

/-- An update that counts for the day and for the simulation, made while the day is open. -/
theorem count (hI : Books pc day g) {st : SimulationStats} (hp : pc.printed = false)
    (hst : ∀ k, st.total k + g.stats.day k = g.stats.total k + st.day k) :
    Books pc day (g.setStats st) := by
  refine ⟨fun h => absurd (hp.symm.trans h) Bool.false_ne_true, fun _ hc k => ?_, hI.day, hI.kept⟩
  have hold := hI.open_ hp hc k
  have hnew := hst k
  simp only [Shared.setStats_stats, Shared.setStats_hist]
  omega

/-- An update that no report shows. -/
theorem same (hI : Books pc day g) {st : SimulationStats}
    (hst : ∀ k, st.total k = g.stats.total k ∧ st.day k = g.stats.day k) :
    Books pc day (g.setStats st) := by
  refine ⟨fun hp k => (hst k).1.trans (hI.printed hp k), fun hp hc k => ?_, hI.day, hI.kept⟩
  simp only [Shared.setStats_stats, Shared.setStats_hist, (hst k).1, (hst k).2]
  exact hI.open_ hp hc k

/-- Who leaves the statistics alone and prints no report. -/
theorem logs (hI : Books pc day g) {p : c.Proc} (hlogs : Logs p g g') (hp : p ≠ .director)
    (hst : g'.stats = g.stats) : Books pc day g' := by
  obtain ⟨es, hes, hact⟩ := hlogs
  have hne : ∀ e ∈ es, e.actor ≠ .director := fun e he => (hact e he) ▸ hp
  have hrep : reports g'.hist = reports g.hist := by rw [hes, reports_append hne]
  have hlast := lastReported_congr hrep
  refine ⟨?_, ?_, ?_, ?_⟩
  · rw [hst, hlast]
    exact hI.printed
  · rw [hst, hlast]
    exact hI.open_
  · rw [hrep]
    exact hI.day
  · rw [hes]
    refine Journal.kept_append_list hI.kept fun e he pre => ?_
    cases e with
    | dailyStatistics | finalStatistics => exact absurd rfl (hne _ he)
    | _ => trivial

/-- A step of the director that leaves the statistics alone and prints no daily report. -/
theorem move (hI : Books pc day g) {day' : ℕ} (hst : g'.stats = g.stats)
    (hh : g'.hist = g.hist ∨
      ∃ e : c.Event, g'.hist = g.hist ++ [e] ∧ e.report = none ∧ AddsUp g.hist e)
    (hp : pc'.printed = true → pc.printed = true)
    (ho : pc'.printed = false → pc'.closedBooks = false →
      pc.printed = false ∧ pc.closedBooks = false)
    (hd : pc'.ending = false → day' = (reports g.hist).length + ind (pc'.toReport = true)) :
    Books pc' day' g' := by
  have hrep : reports g'.hist = reports g.hist := by
    rcases hh with hh | ⟨e, hh, hnone, -⟩
    · rw [hh]
    · simp [hh, reports, hnone]
  have hlast := lastReported_congr hrep
  refine ⟨fun h => ?_, fun h hc => ?_, fun he => ?_, ?_⟩
  · rw [hst, hlast]
    exact hI.printed (hp h)
  · rw [hst, hlast]
    exact hI.open_ (ho h hc).1 (ho h hc).2
  · rw [hrep]
    exact hd he
  · rcases hh with hh | ⟨e, hh, -, hadd⟩
    · exact hh ▸ hI.kept
    · exact hh ▸ Journal.kept_append hI.kept hadd

/-- The director prints and resets. -/
theorem director (h : Director.Move pc v g pc' v' g') (hI : Books pc v.day g) :
    Books pc' v'.day g' := by
  cases h
  case stay => exact hI
  case resetStats =>
    refine ⟨nofun, fun _ _ k => ?_, hI.day, hI.kept⟩
    simp only [Shared.setStats_stats, Shared.setStats_hist, SimulationStats.total_resetDay,
      SimulationStats.day_resetDay]
    exact hI.printed rfl k
  case flushStats s =>
    exact (hI.count rfl (g.stats.total_markNotServed s)).move rfl (.inl rfl) id
      (fun _ _ => ⟨rfl, rfl⟩) hI.day
  case printDaily =>
    have hopen := hI.open_ rfl rfl
    refine ⟨fun _ k => ?_, nofun, fun _ => ?_, ?_⟩
    · rw [Shared.log_hist, lastReported_daily]
      rfl
    · rw [Shared.log_hist, reports_daily, List.length_append]
      exact hI.day rfl
    · exact Journal.kept_append hI.kept ⟨hI.day rfl, hopen⟩
  case finalPrint =>
    exact hI.move rfl (.inr ⟨_, rfl, rfl, hI.printed rfl⟩) nofun nofun nofun
  case assignInit | dayBrokenOff | flushTake | flushReply =>
    exact hI.move rfl (.inr ⟨_, rfl, rfl, trivial⟩) id (fun _ _ => ⟨rfl, rfl⟩) hI.day
  case dayEnd =>
    exact hI.move rfl (.inl rfl) id nofun fun _ => congrArg (· + 1) (hI.day rfl)
  case initLast _ hv =>
    exact hI.move rfl (.inl rfl) id nofun fun _ => (by rw [hv]; exact hI.day rfl)
  case dayEndLast _ hv =>
    exact hI.move rfl (.inl rfl) id (fun _ _ => ⟨rfl, rfl⟩) fun _ => (by rw [hv]; exact hI.day rfl)
  all_goals first
    | exact hI.move rfl (.inl rfl) id (fun _ _ => ⟨rfl, rfl⟩) hI.day
    | exact hI.move rfl (.inl rfl) id (fun h _ => Bool.noConfusion h) hI.day
    | exact hI.move rfl (.inl rfl) id (fun h _ => Bool.noConfusion h) (fun h => Bool.noConfusion h)
    | exact hI.move rfl (.inl rfl) id (fun _ h => Bool.noConfusion h) (fun h => Bool.noConfusion h)

/-- The dispenser counts refusals. -/
theorem dispenser {dpc dpc' : DispPc c.nofWorkerSeats} {f : DispFlags}
    (h : Dispenser.Move dpc f g dpc' g') (hI : Books pc day g)
    (hgap : dpc.countsRefusal = true → pc.printed = false) : Books pc day g' := by
  have hlogs := h.logs
  cases h with
  | countStats =>
    exact hI.same fun k => ⟨g.stats.total_markRequest _ k, g.stats.day_markRequest _ k⟩
  | refuseStats => exact hI.count (hgap rfl) (g.stats.total_markNotServed _)
  | _ => exact hI.logs hlogs (by simp) rfl

/-- The operators count services and pauses, inside `run_day` only. -/
theorem operator {w : Fin c.nofWorkers} {l l' : Operator c} (h : Operator.Move w l g l' g')
    (hI : Books pc day g) (hgap : (Operator.view w l).inRun = true → pc.printed = false) :
    Books pc day g' := by
  have hlogs := h.logs
  cases h with
  | count hf k t n m hpc =>
    have hrun : (Operator.view w l).inRun = true := by rw [Operator.view, hpc]; rfl
    exact Books.logs (p := .operator w) (hI.count (hgap hrun) (g.stats.total_serve _ · _ m))
      (.one rfl rfl) (by simp) rfl
  | pauseStats hf k hpc =>
    have hrun : (Operator.view w l).inRun = true := by rw [Operator.view, hpc]; rfl
    exact hI.count (hgap hrun) g.stats.total_pause
  | _ => exact hI.logs hlogs (by simp) rfl

end Books

/-! ### The invariant -/

/-- The dispenser counts no refusal between the printing of a day's figures and their reset, or the
    final statistics. -/
def CountsInTime (s : State c) (a : Act c) : Prop :=
  a.owner = some .dispenser → s.dispenser.pc.countsRefusal = true → s.director.pc.printed = false

instance (s : State c) (a : Act c) : Decidable (CountsInTime s a) := by
  unfold CountsInTime
  infer_instance

/-- The books of the reports are kept. -/
def State.Reported (s : State c) : Prop := Books s.director.pc s.director.vars.day s.g

namespace State.Reported

variable {s s' : State c}

theorem step {a : Act c} (hB : s.Barrier) (hI : s.Reported) (hok : CountsInTime s a)
    (h : s.StepOf a s') : s'.Reported := by
  cases h with
  | director hstep => exact Books.director (Director.step_move hstep) hI
  | user u hstep =>
    have hm := (User.step_move hstep).1
    exact Books.logs hI hm.logs (by simp) (by rw [hm.frame]; rfl)
  | dispenser hstep =>
    exact Books.dispenser (Dispenser.step_move hstep).1 hI (hok rfl)
  | operator w hstep =>
    refine Books.operator (Operator.step_move hstep) hI fun hrun => ?_
    exact (DirPc.not_printed_of_live (hB.live_of_inRun hrun)).1
  | deliver p sigs hp hne hx =>
    obtain ⟨b, hb⟩ := s.deliverTo_director_vars sigs p
    unfold Reported
    rw [deliverTo_director_pc, deliverTo_g, hb]
    exact ⟨hI.printed, hI.open_, hI.day, hI.kept⟩
  | interrupt | tick => exact ⟨hI.printed, hI.open_, hI.day, hI.kept⟩

theorem init : (State.init c).Reported :=
  ⟨fun _ k => by cases k <;> rfl, nofun, fun _ => rfl, Journal.kept_nil⟩

end State.Reported

theorem reported {s : State c} (h : ReachableBy CountsInTime s) : s.Reported :=
  ReachableBy.induct .init (fun _ _ _ hr hI hok hs => hI.step (barrier hr.reach) hok hs) h

/-- CORRECT: in a run in which the dispenser counts no refusal between the printing of a day's figures
    and their reset, the reports add up: the reports are numbered from 1, the figure a report gives
    for the simulation is the one of the report before it (0 for the first) plus its figure for the
    day, and the final statistics give the figures of the last report. -/
theorem reports_add_up {s : State c} (h : ReachableBy CountsInTime s) :
    (∀ pre post day activeToday activeTotal st,
      s.g.hist = pre ++ .dailyStatistics day activeToday activeTotal st :: post →
        day = (reports pre).length + 1 ∧ ∀ k, st.total k = lastReported pre k + st.day k) ∧
    (∀ pre post cause day st, s.g.hist = pre ++ .finalStatistics cause day st :: post →
      ∀ k, st.total k = lastReported pre k) :=
  ⟨fun pre post _ _ _ _ hhist => (reported h).kept pre _ post hhist,
    fun pre post _ _ _ hhist => (reported h).kept pre _ post hhist⟩

/-- The first day's report of the small office: one user served. -/
theorem reports_add_up_small : ∃ s : State smallOffice,
    exec step (SmallOffice.closing ++ SmallOffice.own .director 3) (State.init smallOffice) =
      some s ∧
    ∃ pre post day activeToday activeTotal st,
      s.g.hist = pre ++ .dailyStatistics day activeToday activeTotal st :: post ∧
      st.total .usersServed = 1 ∧ day = (reports pre).length + 1 ∧
      ∀ k, st.total k = lastReported pre k + st.day k := by
  have hrun : ((exec step (SmallOffice.closing ++ SmallOffice.own .director 3)
      (State.init smallOffice)).any fun s =>
        (s.g.hist[13]?.bind Event.report).any fun st => decide (st.total .usersServed = 1)) =
          true := by decide +kernel
  obtain ⟨s, hs, h⟩ := (Option.any_eq_true _ _).mp hrun
  obtain ⟨st, hst, hserved⟩ := (Option.any_eq_true _ _).mp h
  obtain ⟨pre, post, day, a, b, -, hhist⟩ := exists_daily hst
  have hok : Allowed step CountsInTime (SmallOffice.closing ++ SmallOffice.own .director 3)
      (State.init smallOffice) := by decide +kernel
  have hadd := (reports_add_up (ReachBy.of_exec _ .refl hs hok)).1 pre post day a b st hhist
  exact ⟨s, hs, pre, post, day, a, b, st, hhist, of_decide_eq_true hserved, hadd⟩

/-- The dispenser comes to the first user's request after the first day's report is printed, turns it
    away before the figures are reset, and nobody comes on the second day. -/
def SmallOffice.uncounted : List (Act smallOffice) :=
  arrival ++ own .director 6 ++ signal clerk .usr2 ++ own clerk 7 ++ own .director 51 ++
    own .dispenser 8 ++ own .director 39 ++ signal clerk .usr1 ++ own clerk 8 ++ own .director 50

/-- The second day's report: one service not served in the simulation, none on that day, none
    before. -/
theorem report_does_not_add_up : ∃ s : State smallOffice,
    exec step SmallOffice.uncounted (State.init smallOffice) = some s ∧
    ∃ pre post day activeToday activeTotal st,
      s.g.hist = pre ++ .dailyStatistics day activeToday activeTotal st :: post ∧
      st.total .servicesNotServed = 1 ∧ lastReported pre .servicesNotServed = 0 ∧
      st.day .servicesNotServed = 0 := by
  have hrun : ((exec step SmallOffice.uncounted (State.init smallOffice)).any fun s =>
      (s.g.hist[13]?.bind Event.report).any fun st =>
        decide (st.total .servicesNotServed = 1 ∧
          lastReported (s.g.hist.take 13) .servicesNotServed = 0 ∧
          st.day .servicesNotServed = 0)) = true := by decide +kernel
  obtain ⟨s, hs, h⟩ := (Option.any_eq_true _ _).mp hrun
  obtain ⟨st, hst, h⟩ := (Option.any_eq_true _ _).mp h
  obtain ⟨htotal, hlast, hday⟩ := of_decide_eq_true h
  obtain ⟨pre, post, day, a, b, rfl, hhist⟩ := exists_daily hst
  exact ⟨s, hs, _, post, day, a, b, st, hhist, htotal, hlast, hday⟩

end PostOffice
