import Mathlib.Algebra.BigOperators.Fin
import PostOffice.Figures

/-! What `print_daily_statistics` and `print_final_statistics` print. Each figure of the text is a
    field; the averages are computed as the source computes them, with the guard against an empty
    count, but in exact rational arithmetic, where the source rounds every sum and every quotient to
    a `double` and prints two places of it.

        === GIORNO d ===        day | total | average per day
        per service             giornata: … totale: …
        per counter             available / seats = ratio -/

namespace PostOffice

open Transition

variable {c : Setup}

/-- `n > 0 ? sum / n : 0.0`. -/
def average (n : ℕ) (sum : ℚ) : ℚ := if 0 < n then sum / n else 0

/-- What `print_service_statistics_line` prints after the label. -/
structure ServiceStatisticsLine where
  dailyServed : ℕ
  dailyNotServed : ℕ
  dailyWait : ℚ
  dailyService : ℚ
  totalServed : ℕ
  totalNotServed : ℕ
  servedPerDay : ℚ
  notServedPerDay : ℚ
  totalWait : ℚ
  totalService : ℚ

/-- `print_service_statistics_line`. -/
def printServiceStatisticsLine (daily total : ServiceStats) (dayNumber : ℕ) :
    ServiceStatisticsLine where
  dailyServed := daily.served
  dailyNotServed := daily.notServed
  dailyWait := average daily.served daily.waitMinutesSum
  dailyService := average daily.served daily.serviceMinutesSum
  totalServed := total.served
  totalNotServed := total.notServed
  servedPerDay := (total.served : ℚ) / dayNumber
  notServedPerDay := (total.notServed : ℚ) / dayNumber
  totalWait := average total.served total.waitMinutesSum
  totalService := average total.served total.serviceMinutesSum

/-- What `print_daily_statistics` prints, without the lines of the counters. -/
structure DailyStatistics where
  dayNumber : ℕ
  dayUsersServed : ℕ
  totalUsersServed : ℕ
  usersServedPerDay : ℚ
  dayServicesServed : ℕ
  totalServicesServed : ℕ
  servicesServedPerDay : ℚ
  dayNotServed : ℕ
  totalNotServed : ℕ
  notServedPerDay : ℚ
  dayWaitAvg : ℚ
  totalWaitAvg : ℚ
  dayServiceAvg : ℚ
  totalServiceAvg : ℚ
  activeToday : ℕ
  activeTotal : ℕ
  pauseAvg : ℚ
  totalPauseTotal : ℕ
  lines : Service → ServiceStatisticsLine

/-- `print_daily_statistics` under the lock, from the numbers of active operators it has counted. -/
def printDailyStatistics (dayNumber activeToday activeTotal : ℕ) (stats : SimulationStats) :
    DailyStatistics where
  dayNumber := dayNumber
  dayUsersServed := stats.dayUsersServed
  totalUsersServed := stats.totalUsersServed
  usersServedPerDay := (stats.totalUsersServed : ℚ) / dayNumber
  dayServicesServed := stats.dayServicesServed
  totalServicesServed := stats.totalServicesServed
  servicesServedPerDay := (stats.totalServicesServed : ℚ) / dayNumber
  dayNotServed := stats.dayServicesNotServed
  totalNotServed := stats.totalServicesNotServed
  notServedPerDay := (stats.totalServicesNotServed : ℚ) / dayNumber
  dayWaitAvg := average stats.dayServicesServed stats.dayWaitMinutesSum
  totalWaitAvg := average stats.totalServicesServed stats.totalWaitMinutesSum
  dayServiceAvg := average stats.dayServicesServed stats.dayServiceMinutesSum
  totalServiceAvg := average stats.totalServicesServed stats.totalServiceMinutesSum
  activeToday := activeToday
  activeTotal := activeTotal
  pauseAvg := average activeToday stats.dayPauseTotal
  totalPauseTotal := stats.totalPauseTotal
  lines s := printServiceStatisticsLine (stats.dayByService s) (stats.totalByService s) dayNumber

/-- What `print_final_statistics` prints. -/
structure FinalStatistics where
  cause : String
  days : ℕ
  totalUsersServed : ℕ
  totalServicesServed : ℕ
  totalNotServed : ℕ
  totalWaitAvg : ℚ
  totalServiceAvg : ℚ

/-- `print_final_statistics`. -/
def printFinalStatistics (cause : TerminationCause) (currentDay : ℕ) (stats : SimulationStats) :
    FinalStatistics where
  cause := match cause with
    | .timeout => "timeout"
    | .explode => "explode"
    | .none => "UNKNOWN"
  days := currentDay
  totalUsersServed := stats.totalUsersServed
  totalServicesServed := stats.totalServicesServed
  totalNotServed := stats.totalServicesNotServed
  totalWaitAvg := average stats.totalServicesServed stats.totalWaitMinutesSum
  totalServiceAvg := average stats.totalServicesServed stats.totalServiceMinutesSum

/-! ### The services of the reports -/

/-- The mean of the waiting times, 0 when there are none. -/
def mean (l : List ℚ) : ℚ := average l.length l.sum

/-- The waiting times of all services together. -/
def allWaits (waits : Service → List ℚ) : List ℚ := (List.finRange serviceCount).flatMap waits

theorem length_allWaits (waits : Service → List ℚ) :
    (allWaits waits).length = ∑ q, (waits q).length := by
  rw [allWaits, List.length_flatMap, Fin.sum_univ_def]

theorem sum_allWaits (waits : Service → List ℚ) : (allWaits waits).sum = ∑ q, (waits q).sum := by
  rw [allWaits, List.flatMap_def, List.sum_flatten, List.map_map, Fin.sum_univ_def]
  rfl

namespace Column.Counts

variable {x : Column} {waits : Service → List ℚ}

/-- The average waiting time of a service. -/
theorem average_wait (h : x.Counts waits) (q : Service) :
    average (x.byService q).served (x.byService q).waitMinutesSum = mean (waits q) := by
  rw [mean, h.served, h.wait]

/-- The average waiting time of all services. -/
theorem average_waits (h : x.Counts waits) :
    average x.servicesServed x.waitMinutesSum = mean (allWaits waits) := by
  rw [mean, length_allWaits, sum_allWaits, h.services, h.waitSum]

end Column.Counts

/-- CORRECT: the reports are exact about the services. Each daily report gives, for each service and
    for all together, the number of services of its day and of the simulation so far and the mean
    waiting time of their users, and the lines of the services add up to the figures over them; the
    final report gives the same for the simulation. -/
theorem reports_count_services {s : State c} (h : Reachable s) :
    (∀ pre post day activeToday activeTotal st,
      s.g.hist = pre ++ .dailyStatistics day activeToday activeTotal st :: post →
      let r := printDailyStatistics day activeToday activeTotal st
      let today := waits c (Segments.current Event.isBoundary pre)
      let sofar := waits c pre
      (∀ q, (r.lines q).dailyServed = (today q).length ∧ (r.lines q).dailyWait = mean (today q) ∧
        (r.lines q).totalServed = (sofar q).length ∧ (r.lines q).totalWait = mean (sofar q)) ∧
      r.dayServicesServed = (allWaits today).length ∧ r.dayWaitAvg = mean (allWaits today) ∧
      r.totalServicesServed = (allWaits sofar).length ∧ r.totalWaitAvg = mean (allWaits sofar) ∧
      r.dayUsersServed = r.dayServicesServed ∧ r.totalUsersServed = r.totalServicesServed ∧
      r.dayNotServed = ∑ q, (r.lines q).dailyNotServed ∧
      r.totalNotServed = ∑ q, (r.lines q).totalNotServed) ∧
    ∀ pre post cause day st, s.g.hist = pre ++ .finalStatistics cause day st :: post →
      let r := printFinalStatistics cause day st
      r.totalServicesServed = (allWaits (waits c pre)).length ∧
      r.totalUsersServed = r.totalServicesServed ∧
      r.totalWaitAvg = mean (allWaits (waits c pre)) := by
  refine ⟨fun pre post day a b st hhist => ?_, fun pre post cause day st hhist => ?_⟩
  · obtain ⟨htotal, hday⟩ := (figures h).ledger.kept pre _ post hhist
    refine ⟨fun q => ⟨hday.served q, hday.average_wait q, htotal.served q, htotal.average_wait q⟩,
      ?_, hday.average_waits, ?_, htotal.average_waits, hday.users, htotal.users, hday.notServed,
      htotal.notServed⟩
    · exact hday.services.trans (length_allWaits _).symm
    · exact htotal.services.trans (length_allWaits _).symm
  · have htotal := (figures h).ledger.kept pre _ post hhist
    exact ⟨htotal.services.trans (length_allWaits _).symm, htotal.users, htotal.average_waits⟩

/-- The first report of the small office: one service on its day. -/
theorem reports_count_services_small : ∃ s : State smallOffice,
    exec step (SmallOffice.closing ++ SmallOffice.own .director 3) (State.init smallOffice) =
      some s ∧
    ∃ pre post day activeToday activeTotal st,
      s.g.hist = pre ++ .dailyStatistics day activeToday activeTotal st :: post ∧
      (printDailyStatistics day activeToday activeTotal st).dayServicesServed = 1 ∧
      (allWaits (waits smallOffice (Segments.current Event.isBoundary pre))).length = 1 := by
  have hrun : ((exec step (SmallOffice.closing ++ SmallOffice.own .director 3)
      (State.init smallOffice)).any fun s =>
        (s.g.hist[13]?.bind Event.report).any fun st => decide (st.dayServicesServed = 1)) =
          true := by decide +kernel
  obtain ⟨s, hs, h⟩ := (Option.any_eq_true _ _).mp hrun
  obtain ⟨st, hst, hserved⟩ := (Option.any_eq_true _ _).mp h
  obtain ⟨pre, post, day, a, b, -, hhist⟩ := exists_daily hst
  have hone : (printDailyStatistics day a b st).dayServicesServed = 1 := of_decide_eq_true hserved
  obtain ⟨-, hcount, -⟩ := (reports_count_services (reach_of_exec _ hs)).1 pre post day a b st hhist
  exact ⟨s, hs, pre, post, day, a, b, st, hhist, hone, hcount.symm.trans hone⟩

/-! ### The averages -/

theorem average_mem {n : ℕ} {sum low high : ℚ} (hn : 0 < n) (hlow : low * n ≤ sum)
    (hhigh : sum ≤ high * n) : low ≤ average n sum ∧ average n sum ≤ high := by
  have hpos : (0 : ℚ) < n := by exact_mod_cast hn
  rw [average, if_pos hn]
  exact ⟨(le_div_iff₀ hpos).mpr hlow, (div_le_iff₀ hpos).mpr hhigh⟩

theorem mean_nonneg {l : List ℚ} (h : ∀ x ∈ l, 0 ≤ x) : 0 ≤ mean l := by
  unfold mean average
  split
  · exact div_nonneg (List.sum_nonneg h) (Nat.cast_nonneg _)
  · exact le_rfl

/-- No service takes less than 3 minutes or more than 30. -/
theorem minutes_bounds (q : Service) : 3 ≤ shortestMinutes q ∧ longestMinutes q ≤ 30 := by
  revert q
  decide

namespace Column.Counts

variable {x : Column} {waits : Service → List ℚ}

/-- The average duration of the services of one kind is in the range of that kind. -/
theorem average_minutes_mem (h : x.Counts waits) {q : Service} (hq : 0 < (x.byService q).served) :
    shortestMinutes q ≤ average (x.byService q).served (x.byService q).serviceMinutesSum ∧
      average (x.byService q).served (x.byService q).serviceMinutesSum ≤ longestMinutes q := by
  have hshort := h.shortest q
  have hlong := h.longest q
  rw [← h.served q] at hshort hlong
  exact average_mem hq hshort hlong

/-- The average duration of all services is in the range of all kinds. -/
theorem average_all_mem (h : x.Counts waits) (hx : 0 < x.servicesServed) :
    3 ≤ average x.servicesServed x.serviceMinutesSum ∧
      average x.servicesServed x.serviceMinutesSum ≤ 30 := by
  refine average_mem hx ?_ ?_
  · rw [h.minutesSum, h.services, Nat.cast_sum, Finset.mul_sum]
    refine Finset.sum_le_sum fun q _ => le_trans ?_ (h.shortest q)
    exact mul_le_mul_of_nonneg_right (by exact_mod_cast (minutes_bounds q).1) (Nat.cast_nonneg _)
  · rw [h.minutesSum, h.services, Nat.cast_sum, Finset.mul_sum]
    refine Finset.sum_le_sum fun q _ => (h.longest q).trans ?_
    exact mul_le_mul_of_nonneg_right (by exact_mod_cast (minutes_bounds q).2) (Nat.cast_nonneg _)

end Column.Counts

/-- Nobody waited a negative time. -/
theorem waits_nonneg {s : State c} (h : Reachable s) {l : List c.Event} (hl : l ⊆ s.g.hist)
    (q : Service) : ∀ x ∈ waits c l q, 0 ≤ x := by
  intro x hx
  obtain ⟨e, he, hwaited⟩ := List.mem_filterMap.mp hx
  cases e with
  | served w r t ns =>
    obtain ⟨-, ⟨⟩⟩ := Option.ite_none_right_eq_some.mp hwaited
    have hns : 0 ≤ ns := (stamps h).served w r t ns (hl he)
    unfold nsToMinutes
    split
    · exact le_rfl
    · exact div_nonneg (by exact_mod_cast hns) (by exact_mod_cast (by omega : 0 ≤ c.nNanoSeconds))
  | _ => cases hwaited

/-- CORRECT: the averages of the reports are in range. No average waiting time is negative; where a
    report counts a service at all, its average duration is one that
    `random_service_duration_minutes` can draw for the service, and over all services it is from 3
    to 30 minutes. -/
theorem averages_in_range {s : State c} (h : Reachable s) {pre post : List c.Event}
    {day activeToday activeTotal : ℕ} {st : SimulationStats}
    (hhist : s.g.hist = pre ++ .dailyStatistics day activeToday activeTotal st :: post) :
    let r := printDailyStatistics day activeToday activeTotal st
    (∀ q, (0 < (r.lines q).dailyServed → shortestMinutes q ≤ (r.lines q).dailyService ∧
          (r.lines q).dailyService ≤ longestMinutes q) ∧
        (0 < (r.lines q).totalServed → shortestMinutes q ≤ (r.lines q).totalService ∧
          (r.lines q).totalService ≤ longestMinutes q) ∧
        0 ≤ (r.lines q).dailyWait ∧ 0 ≤ (r.lines q).totalWait) ∧
      (0 < r.dayServicesServed → 3 ≤ r.dayServiceAvg ∧ r.dayServiceAvg ≤ 30) ∧
      (0 < r.totalServicesServed → 3 ≤ r.totalServiceAvg ∧ r.totalServiceAvg ≤ 30) ∧
      0 ≤ r.dayWaitAvg ∧ 0 ≤ r.totalWaitAvg := by
  obtain ⟨htotal, hday⟩ := (figures h).ledger.kept pre _ post hhist
  have hpre : pre ⊆ s.g.hist := hhist ▸ List.subset_append_left _ _
  have hcurrent : Segments.current Event.isBoundary pre ⊆ s.g.hist := fun e he =>
    hpre ((Segments.current_suffix pre).subset he)
  have hall {l : List c.Event} (hl : l ⊆ s.g.hist) : ∀ x ∈ allWaits (waits c l), 0 ≤ x := by
    intro x hx
    obtain ⟨q, -, hq⟩ := List.mem_flatMap.mp hx
    exact waits_nonneg h hl q x hq
  refine ⟨fun q => ⟨hday.average_minutes_mem, htotal.average_minutes_mem, ?_, ?_⟩,
    hday.average_all_mem, htotal.average_all_mem, ?_, ?_⟩
  · exact (mean_nonneg (waits_nonneg h hcurrent q)).trans_eq (hday.average_wait q).symm
  · exact (mean_nonneg (waits_nonneg h hpre q)).trans_eq (htotal.average_wait q).symm
  · exact (mean_nonneg (hall hcurrent)).trans_eq hday.average_waits.symm
  · exact (mean_nonneg (hall hpre)).trans_eq htotal.average_waits.symm

/-- The one service of the first day of the small office is of a kind that takes 4 to 12 minutes. -/
theorem averages_in_range_small : ∃ s : State smallOffice,
    exec step (SmallOffice.closing ++ SmallOffice.own .director 3) (State.init smallOffice) =
      some s ∧
    ∃ pre post day activeToday activeTotal st,
      s.g.hist = pre ++ .dailyStatistics day activeToday activeTotal st :: post ∧
      4 ≤ ((printDailyStatistics day activeToday activeTotal st).lines 0).dailyService ∧
      ((printDailyStatistics day activeToday activeTotal st).lines 0).dailyService ≤ 12 := by
  have hrun : ((exec step (SmallOffice.closing ++ SmallOffice.own .director 3)
      (State.init smallOffice)).any fun s =>
        (s.g.hist[13]?.bind Event.report).any fun st => decide (0 < (st.dayByService 0).served)) =
          true := by decide +kernel
  obtain ⟨s, hs, h⟩ := (Option.any_eq_true _ _).mp hrun
  obtain ⟨st, hst, hserved⟩ := (Option.any_eq_true _ _).mp h
  obtain ⟨pre, post, day, a, b, -, hhist⟩ := exists_daily hst
  have hrange := ((averages_in_range (reach_of_exec _ hs) hhist).1 0).1 (of_decide_eq_true hserved)
  exact ⟨s, hs, pre, post, day, a, b, st, hhist, by exact_mod_cast hrange.1,
    by exact_mod_cast hrange.2⟩

end PostOffice
