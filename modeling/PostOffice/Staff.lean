import PostOffice.DailyReport
import PostOffice.Counters
import PostOffice.Offers
import PostOffice.Pauses

/-! The operators and the counters of the reports. An operator is active on a day once it has sat
    down, and only an active operator takes a pause; the entries are cleared before the operators
    are started and read after the last of them has finished.

        resetWorker ─▶ … sit ─▶ pause … ─▶ printActive ─▶ printDaily
        inactive        active   counted      read          printed

    The counters keep the services of `assign_daily_counters` to the end of the day, so the ratios
    printed for them count every operator whose service is on offer exactly once. -/

namespace PostOffice

open Transition

variable {c : Setup}

/-! ### Active operators -/

/-- What a step of an operator does to its entry. -/
theorem Operator.Move.entry {w : Fin c.nofWorkers} {l l' : Operator c} {g g' : Shared c}
    (h : Operator.Move w l g l' g') :
    (g'.workers = g.workers ∧ ((view w l').seat ≠ none → (view w l).seat ≠ none)) ∨
    (view w l).inRun = true ∧ ∃ x, g'.workers = Function.update g.workers w x ∧
      ((x.activeToday = true ∧ x.activeEver = true ∧
          x.pausesToday = (g.workers w).pausesToday) ∨
        (view w l).seat ≠ none ∧ x.activeToday = (g.workers w).activeToday ∧
          x.activeEver = (g.workers w).activeEver) := by
  have hview (x : Operator c) : view w x = x.pc.view (c.workerService w) := rfl
  cases h with
  | silent hf hv => exact .inl ⟨rfl, by rw [hv]; exact id⟩
  | acquire hf σ hm hl hσ hv | release hf σ hm hl hv => exact .inl ⟨rfl, by rw [hv]; exact id⟩
  | sit hf i hi hv hv' =>
    refine .inr ⟨by rw [hv]; rfl, _, rfl, .inl ⟨rfl, rfl, rfl⟩⟩
  | stand hf k hv hv' =>
    exact .inr ⟨by rw [hv]; rfl, _, rfl, .inr ⟨by rw [hv]; exact nofun, rfl, rfl⟩⟩
  | pauseCount hf k hpc hpc' =>
    refine .inr ⟨?_, _, rfl, .inr ⟨?_, rfl, rfl⟩⟩
    · rw [hview, hpc]
      rfl
    · rw [hview, hpc]
      exact nofun
  | init hf hpc hpc' | consume hf hpc hpc' | «begin» hf hpc hpc' | pop hf k t qu hlen hqu hpc hpc'
  | popEmpty hf k hlen hpc hpc' | serveStart hf k t m hpc hpc' | count hf k t n m hpc hpc'
  | reply hf k t hpc hpc' | pauseStats hf k hpc hpc' | raiseStop hf k hpc hpc'
  | finish hf hpc hpc' =>
    refine .inl ⟨rfl, ?_⟩
    rw [hview, hview, hpc, hpc']
    exact id
  | takeToken hf hσ hv hv' | giveToken hf p hv hv' | dropToken hf hi p hv hv'
  | pass hf i hi hv hv' | dropSeat hf hi k hv hv' =>
    exact .inl ⟨rfl, by rw [hv']; exact fun h => absurd rfl h⟩
  | takeJob hf hσ k hv hv' | dropJob hf hi k hv hv' =>
    exact .inl ⟨rfl, by rw [hv, hv']; exact id⟩

/-- `print_daily_statistics` counts the active operators. -/
theorem Director.step_printActive {l l' : Director c} {g g' : Shared c} {ex : c.Proc → Bool} {n : ℕ}
    (h : Director.step l g ex n = some (l', g')) (hpc : l.pc = .printActive) :
    l'.vars = { l.vars with
      activeToday := (Finset.univ.filter fun w => (g.workers w).activeToday = true).card
      activeTotal := (Finset.univ.filter fun w => (g.workers w).activeEver = true).card } := by
  unfold step at h
  split at h
  · cases h
  unfold body at h
  rw [hpc] at h
  cases h
  rfl

/-- The numbers of active operators are read. -/
def DirPc.activeRead {seats workers users : ℕ} : DirPc seats workers users → Bool
  | .printLock | .printDaily => true
  | _ => false

namespace Director

variable {pc pc' : DirPc c.nofWorkerSeats c.nofWorkers c.nofUsers} {v v' : DirVars}
  {g g' : Shared c}

/-- An entry is written before its operator is started, and only to be cleared. -/
theorem Move.cleared (h : Move pc v g pc' v' g') (w : Fin c.nofWorkers) :
    g'.workers w = g.workers w ∨ pc.preStart w = true ∧ (g'.workers w).activeToday = false ∧
      (g'.workers w).pausesToday = 0 := by
  have hreset (i : Fin c.nofWorkers) (x : WorkerInfo c.nofWorkerSeats)
      (hx : x.activeToday = false ∧ x.pausesToday = 0) :
      (g.setWorker i x).workers w = g.workers w ∨
        True ∧ ((g.setWorker i x).workers w).activeToday = false ∧
          ((g.setWorker i x).workers w).pausesToday = 0 := by
    by_cases hw : w = i
    · subst hw
      simp [hx]
    · simp [hw]
  cases h
  case resetWorkerNext i hi | resetWorkerLast i hi =>
    exact (hreset i _ ⟨rfl, rfl⟩).imp_right fun h => ⟨rfl, h.2⟩
  all_goals exact .inl rfl

/-- The numbers read stand for the entries until they are printed. -/
theorem Move.activeRead (h : Move pc v g pc' v' g') (hpc' : pc'.activeRead = true) :
    g'.workers = g.workers ∧ (pc = .printActive ∨ pc.activeRead = true ∧
      v'.activeToday = v.activeToday ∧ v'.activeTotal = v.activeTotal) := by
  cases h <;> first
    | exact Bool.noConfusion hpc'
    | exact ⟨rfl, .inl rfl⟩
    | exact ⟨rfl, .inr ⟨hpc', rfl, rfl⟩⟩

/-- The director's events: a report, or none. -/
theorem Move.daily (h : Move pc v g pc' v' g') :
    g'.hist = g.hist ∨ ∃ e : c.Event, g'.hist = g.hist ++ [e] ∧ (e.report = none ∨
      pc = .printDaily ∧ e = .dailyStatistics v.day v.activeToday v.activeTotal g.stats) := by
  cases h <;> first
    | exact .inl rfl
    | exact .inr ⟨_, rfl, .inl rfl⟩
    | exact .inr ⟨_, rfl, .inr ⟨rfl, rfl⟩⟩

end Director

/-- What a report says about the operators. -/
def StaffTrue (c : Setup) (_ : List c.Event) : c.Event → Prop
  | .dailyStatistics _ activeToday activeTotal st =>
      st.dayPauseTotal ≤ activeToday ∧ activeToday ≤ activeTotal ∧ activeTotal ≤ c.nofWorkers
  | _ => True

namespace State

/-- Who sits or has paused today is active today, who is active today is active ever. -/
structure Staff (s : State c) : Prop where
  seated : ∀ w, (s.view w).seat ≠ none → (s.g.workers w).activeToday = true
  paused : ∀ w, 0 < (s.g.workers w).pausesToday → (s.g.workers w).activeToday = true
  ever : ∀ w, (s.g.workers w).activeToday = true → (s.g.workers w).activeEver = true
  read : s.director.pc.activeRead = true →
    s.director.vars.activeToday =
      (Finset.univ.filter fun w => (s.g.workers w).activeToday = true).card ∧
    s.director.vars.activeTotal =
      (Finset.univ.filter fun w => (s.g.workers w).activeEver = true).card
  kept : Journal.Kept (StaffTrue c) s.g.hist

namespace Staff

variable {s s' : State c}

/-- Each active operator has at most one pause, the others none. -/
theorem pauses_le (hP : s.Pauses) (hI : s.Staff) : ∑ w, (s.g.workers w).pausesToday ≤
    (Finset.univ.filter fun w => (s.g.workers w).activeToday = true).card := by
  rw [Finset.card_filter]
  refine Finset.sum_le_sum fun w _ => ?_
  split
  · exact (hP.kept w).le_one
  · by_contra hpos
    exact ‹¬ _› (hI.paused w (Nat.pos_of_ne_zero fun h => hpos h.le))

theorem active_le (hI : s.Staff) :
    (Finset.univ.filter fun w => (s.g.workers w).activeToday = true).card ≤
      (Finset.univ.filter fun w => (s.g.workers w).activeEver = true).card :=
  Finset.card_le_card fun w hw => by
    rw [Finset.mem_filter] at hw ⊢
    exact ⟨hw.1, hI.ever w hw.2⟩

/-- Who leaves the entries, the seats and the reports alone. -/
theorem congr (hI : s.Staff) (hw : s'.g.workers = s.g.workers)
    (hseat : ∀ w, (s'.view w).seat ≠ none → (s.view w).seat ≠ none)
    (hpc : s'.director.pc = s.director.pc)
    (hv : s'.director.vars.activeToday = s.director.vars.activeToday ∧
      s'.director.vars.activeTotal = s.director.vars.activeTotal)
    (hkept : Journal.Kept (StaffTrue c) s'.g.hist) : s'.Staff := by
  refine ⟨?_, ?_, ?_, ?_, hkept⟩
  · rw [hw]
    exact fun w h => hI.seated w (hseat w h)
  · rw [hw]
    exact hI.paused
  · rw [hw]
    exact hI.ever
  · rw [hw, hpc, hv.1, hv.2]
    exact hI.read

/-- What the others record is no report. -/
theorem kept_of_logs (hI : s.Staff) {p : c.Proc} {g' : Shared c} (h : Logs p s.g g')
    (hp : p ≠ .director) : Journal.Kept (StaffTrue c) g'.hist := by
  obtain ⟨es, hes, hact⟩ := h
  rw [hes]
  refine Journal.kept_append_list hI.kept fun e he pre => ?_
  cases e with
  | dailyStatistics => exact absurd (hact _ he).symm hp
  | _ => trivial

/-- The director clears an entry before its operator is started, and reads the entries when nobody
    writes them. -/
theorem director (hB : s.Barrier) (hP : s.Pauses) (hI : s.Staff) {n : ℕ} {l' : Director c}
    {g' : Shared c} (hstep : Director.step s.director s.g s.exited n = some (l', g')) :
    (s.setDirector (l', g')).Staff := by
  have hm := Director.step_move hstep
  refine ⟨fun w h => ?_, fun w h => ?_, fun w h => ?_, fun h => ?_, ?_⟩
  · rcases hm.cleared w with hw | ⟨hpre, -⟩
    · exact hw ▸ hI.seated w h
    · have hidle : (s.view w).inRun = false := hB.not_inRun (by simp [DirPc.live, hpre])
      obtain ⟨i, b, hv⟩ := OpPc.view_of_not_inRun hidle
      exact absurd (congrArg OpView.seat hv) h
  · rcases hm.cleared w with hw | ⟨-, -, hzero⟩
    · exact hw ▸ hI.paused w (hw ▸ h)
    · exact absurd hzero h.ne'
  · rcases hm.cleared w with hw | ⟨-, hfalse, -⟩
    · exact hw ▸ hI.ever w (hw ▸ h)
    · exact absurd (hfalse.symm.trans h) Bool.false_ne_true
  · obtain ⟨hworkers, hpc | ⟨hread, htoday, htotal⟩⟩ := hm.activeRead h
    · rw [setDirector_director, setDirector_g, hworkers, Director.step_printActive hstep hpc]
      exact ⟨rfl, rfl⟩
    · rw [setDirector_director, setDirector_g, hworkers, htoday, htotal]
      exact hI.read hread
  · rcases hm.daily with hh | ⟨e, hh, hnone | ⟨hpc, rfl⟩⟩ <;> rw [setDirector_g, hh]
    · exact hI.kept
    · refine Journal.kept_append hI.kept ?_
      cases e with
      | dailyStatistics => cases hnone
      | _ => trivial
    · refine Journal.kept_append hI.kept ?_
      obtain ⟨htoday, htotal⟩ := hI.read (by rw [hpc]; rfl)
      have hzero := hB.uncountedPauses fun w => by rw [hpc]; rfl
      have hday := hP.day
      rw [hzero, hpc] at hday
      refine ⟨?_, ?_, ?_⟩
      · rw [htoday]
        exact hday.trans_le (pauses_le hP hI)
      · rw [htoday, htotal]
        exact hI.active_le
      · rw [htotal]
        exact (Finset.card_le_univ _).trans_eq (Fintype.card_fin _)

/-- An operator sits down before it pauses. -/
theorem operator (hB : s.Barrier) (hI : s.Staff) {w : Fin c.nofWorkers} {l' : Operator c}
    {g' : Shared c} (hm : Operator.Move w (s.operators w) s.g l' g') :
    (s.setOperator w (l', g')).Staff := by
  have hkept := hI.kept_of_logs hm.logs (by simp)
  have hseat (hw : (Operator.view w l').seat ≠ none → (s.view w).seat ≠ none)
      (v : Fin c.nofWorkers) (hv : ((s.setOperator w (l', g')).view v).seat ≠ none) :
      (s.view v).seat ≠ none := by
    rw [view_setOperator] at hv
    by_cases he : v = w
    · subst he
      exact hw (by simpa using hv)
    · simpa [he] using hv
  rcases hm.entry with ⟨hworkers, hsame⟩ | ⟨hrun, x, hworkers, hx⟩
  · exact hI.congr hworkers (hseat hsame) rfl ⟨rfl, rfl⟩ hkept
  -- The entry of `w` is active, before or after the step; the others are as they were.
  have hentry (v : Fin c.nofWorkers) (hv : v ≠ w) : g'.workers v = s.g.workers v := by
    rw [hworkers, Function.update_of_ne hv]
  have hown : g'.workers w = x := by rw [hworkers, Function.update_self]
  have hactive : x.activeToday = true ∧ x.activeEver = true := by
    rcases hx with ⟨ht, he, -⟩ | ⟨hne, ht, he⟩
    · exact ⟨ht, he⟩
    · have htoday := hI.seated w hne
      exact ⟨ht.trans htoday, he.trans (hI.ever w htoday)⟩
  refine ⟨fun v h => ?_, fun v h => ?_, fun v h => ?_, fun h => ?_, hkept⟩
  · by_cases hv : v = w
    · subst hv
      rw [setOperator_g, hown]
      exact hactive.1
    · rw [view_setOperator, Function.update_of_ne hv] at h
      rw [setOperator_g, hentry v hv]
      exact hI.seated v h
  · by_cases hv : v = w
    · subst hv
      rw [setOperator_g, hown]
      exact hactive.1
    · rw [setOperator_g, hentry v hv] at h ⊢
      exact hI.paused v h
  · by_cases hv : v = w
    · subst hv
      rw [setOperator_g, hown]
      exact hactive.2
    · rw [setOperator_g, hentry v hv] at h ⊢
      exact hI.ever v h
  · -- While the numbers are read nobody is inside `run_day`.
    have hidle : (s.view w).inRun = false := hB.not_inRun (by
      rw [setOperator_director] at h
      generalize s.director.pc = pc at h ⊢
      cases pc <;> first | rfl | exact Bool.noConfusion h)
    exact absurd (hidle.symm.trans hrun) Bool.false_ne_true

theorem step {a : Act c} (hr : Reachable s) (hI : s.Staff) (h : s.StepOf a s') : s'.Staff := by
  cases h with
  | director hstep => exact director (barrier hr) (pauses hr) hI hstep
  | dispenser hstep =>
    have hm := (Dispenser.step_move hstep).1
    exact hI.congr (by rw [setDispenser_g, hm.frame]) (fun _ h => h) rfl ⟨rfl, rfl⟩
      (hI.kept_of_logs hm.logs (by simp))
  | operator w hstep => exact operator (barrier hr) hI (Operator.step_move hstep)
  | user u hstep =>
    have hm := (User.step_move hstep).1
    exact hI.congr (by rw [setUser_g, hm.frame]) (fun _ h => h) rfl ⟨rfl, rfl⟩
      (hI.kept_of_logs hm.logs (by simp))
  | deliver p sigs =>
    obtain ⟨b, hb⟩ := s.deliverTo_director_vars sigs p
    exact hI.congr (by rw [deliverTo_g]; rfl) (by simp) (by simp) (by simp [hb])
      (by simpa using hI.kept)
  | interrupt | tick => exact hI.congr rfl (fun _ h => h) rfl ⟨rfl, rfl⟩ hI.kept

theorem init : (State.init c).Staff :=
  ⟨fun _ h => absurd rfl h, fun _ h => absurd h (lt_irrefl 0), fun _ => nofun, nofun,
    Journal.kept_nil⟩

end Staff

end State

theorem staff {s : State c} (h : Reachable s) : s.Staff :=
  ReachableBy.induct .init (fun _ _ _ hr hI _ hs => hI.step hr hs) h

/-- CORRECT: the figures about the operators fit together. In each daily report at most as many
    operators are active on the day as in the simulation, and at most as many in the simulation as
    there are; the average number of pauses is from 0 to 1, and 0 only when nobody paused: a day
    without active operators has no pauses that the guard of the average could hide. -/
theorem report_of_operators {s : State c} (h : Reachable s) {pre post : List c.Event}
    {day activeToday activeTotal : ℕ} {st : SimulationStats}
    (hhist : s.g.hist = pre ++ .dailyStatistics day activeToday activeTotal st :: post) :
    let r := printDailyStatistics day activeToday activeTotal st
    r.activeToday ≤ r.activeTotal ∧ r.activeTotal ≤ c.nofWorkers ∧ 0 ≤ r.pauseAvg ∧
      r.pauseAvg ≤ 1 ∧ r.pauseAvg * r.activeToday = st.dayPauseTotal := by
  obtain ⟨hpauses, hactive, hall⟩ := (staff h).kept pre _ post hhist
  refine ⟨hactive, hall, ?_⟩
  show 0 ≤ average activeToday st.dayPauseTotal ∧ average activeToday st.dayPauseTotal ≤ 1 ∧
    average activeToday st.dayPauseTotal * activeToday = st.dayPauseTotal
  rcases Nat.eq_zero_or_pos activeToday with rfl | hpos
  · have hzero : st.dayPauseTotal = 0 := Nat.le_zero.mp hpauses
    simp [average, hzero]
  · have hcast : (0 : ℚ) < activeToday := by exact_mod_cast hpos
    have hlow : 0 * (activeToday : ℚ) ≤ st.dayPauseTotal := by simp
    have hhigh : (st.dayPauseTotal : ℚ) ≤ 1 * activeToday := by
      rw [one_mul]
      exact_mod_cast hpauses
    have hrange := average_mem hpos hlow hhigh
    refine ⟨hrange.1, hrange.2, ?_⟩
    rw [average, if_pos hpos, div_mul_cancel₀ _ hcast.ne']

/-- The clerk of the small office was active on the first day and paused once. -/
theorem report_of_operators_small : ∃ s : State smallOffice,
    exec step (SmallOffice.pausing ++ SmallOffice.paused ++ SmallOffice.own .director 50)
      (State.init smallOffice) = some s ∧
    ∃ pre post day activeToday activeTotal st,
      s.g.hist = pre ++ .dailyStatistics day activeToday activeTotal st :: post ∧
      st.dayPauseTotal = 1 ∧ 1 ≤ activeToday ∧ activeToday ≤ activeTotal ∧ activeTotal ≤ 1 := by
  have hrun : ((exec step (SmallOffice.pausing ++ SmallOffice.paused ++ SmallOffice.own .director 50)
      (State.init smallOffice)).any fun s =>
        (s.g.hist[13]?.bind Event.report).any fun st => decide (st.dayPauseTotal = 1)) = true := by
    decide +kernel
  obtain ⟨s, hs, h⟩ := (Option.any_eq_true _ _).mp hrun
  obtain ⟨st, hst, hpause⟩ := (Option.any_eq_true _ _).mp h
  obtain ⟨pre, post, day, a, b, -, hhist⟩ := exists_daily hst
  have hone : st.dayPauseTotal = 1 := of_decide_eq_true hpause
  obtain ⟨hactive, hall, -, -, havg⟩ := report_of_operators (reach_of_exec _ hs) hhist
  have hpos : 1 ≤ a := by
    refine Nat.one_le_iff_ne_zero.mpr ?_
    rintro rfl
    rw [hone] at havg
    simp [printDailyStatistics] at havg
  exact ⟨s, hs, pre, post, day, a, b, st, hhist, hone, hpos, hactive, hall⟩

/-! ### The lines of the counters -/

/-- `count_workers_for_service`. -/
def Setup.countWorkersForService (c : Setup) (service : Service) : ℕ :=
  (List.finRange c.nofWorkers).countP fun i => c.workerService i = service

/-- What `print_daily_statistics` prints for one counter. -/
structure CounterLine where
  service : Service
  availableWorkers : ℕ
  seats : ℕ
  ratio : ℚ

/-- The line of counter `i`; none when its service -1 would index `counters_per_service`. -/
def printCounterLine (c : Setup) (counters : Fin c.nofWorkerSeats → Counter)
    (countersPerService : Service → ℕ) (i : Fin c.nofWorkerSeats) : Option CounterLine :=
  (counters i).service.map fun service =>
    { service := service
      availableWorkers := c.countWorkersForService service
      seats := countersPerService service
      ratio := if 0 < countersPerService service then
          (c.countWorkersForService service : ℚ) / countersPerService service
        else 0 }

/-- How many counters `assign_daily_counters` has written, until the day has been printed. -/
def DirPc.assigned {seats workers users : ℕ} : DirPc seats workers users → Option ℕ
  | .waitInit | .dayTest | .setDay | .resetLock | .resetStats | .resetUnlock | .resetWorker _
  | .assignInit | .setCause | .finalLock | .finalPrint | .finalUnlock | .termDispenser
  | .termWorkers _ | .termUsers _ | .reapWorker _ | .reapUser _ | .reapDispenser | .cleanupIpc _
  | .logStop | .ended => none
  | .assignLock i | .assignWrite i => some i
  | .assignUnlock i => some (i + 1)
  | _ => some seats

namespace State

/-- The counters written so far have their services, and `counters_per_service` counts them. -/
def Assigned (s : State c) : Prop :=
  ∀ n, s.director.pc.assigned = some n →
    (∀ q, s.director.vars.countersPerService q = s.g.offering q n) ∧
    ∀ i : Fin c.nofWorkerSeats, (i : ℕ) < n → (s.g.counters i).service ≠ none

namespace Assigned

variable {s s' : State c}

/-- Who leaves the services alone. -/
theorem congr (hI : s.Assigned) (hpc : s'.director.pc = s.director.pc)
    (hv : s'.director.vars.countersPerService = s.director.vars.countersPerService)
    (hs : ∀ i, (s'.g.counters i).service = (s.g.counters i).service) : s'.Assigned := by
  intro n hn
  obtain ⟨hcount, hsome⟩ := hI n (hpc ▸ hn)
  refine ⟨fun q => ?_, fun i hi => hs i ▸ hsome i hi⟩
  rw [hv, hcount]
  exact Family.total_congr fun i => by rw [hs i]

theorem director {l' : Director c} {g' : Shared c} (hI : s.Assigned)
    (hm : Director.Move s.director.pc s.director.vars s.g l'.pc l'.vars g') :
    (s.setDirector (l', g')).Assigned := by
  intro n hn
  rw [setDirector_director, setDirector_g]
  rw [setDirector_director] at hn
  unfold Assigned at hI
  generalize s.director.pc = pc at hm hI
  generalize l'.pc = pc' at hm hn
  generalize s.director.vars = v at hm hI
  generalize l'.vars = v' at hm ⊢
  generalize s.g = g at hm hI
  cases hm
  case assignInit =>
    obtain rfl : 0 = n := Option.some.inj hn
    exact ⟨fun q => (Family.total_eq_zero fun j => by simp).symm, fun j hj => by omega⟩
  case assignWrite i x =>
    obtain rfl : (i : ℕ) + 1 = n := Option.some.inj hn
    obtain ⟨hcount, hsome⟩ := hI i rfl
    refine ⟨fun q => ?_, fun j hj => ?_⟩
    · rw [Shared.offering_write, ← hcount q]
      by_cases hq : q = x
      · subst hq
        simp
      · simp [hq]
    · by_cases hj' : j = i
      · subst hj'
        simp
      · have hne : (j : ℕ) ≠ i := fun h => hj' (Fin.ext h)
        simpa [hj'] using hsome j (by omega)
  case assignLast i hi =>
    obtain rfl : c.nofWorkerSeats = n := Option.some.inj hn
    have heq : c.nofWorkerSeats = i + 1 := by omega
    exact hI _ (congrArg some heq.symm)
  case dayEndLast _ hv =>
    subst hv
    exact hI n hn
  all_goals first | exact hI n hn | cases hn

theorem step (hI : s.Assigned) (h : s.Move s') : s'.Assigned := by
  cases h with
  | director hm => exact hI.director hm
  | dispenser hm hf => exact hI.congr rfl rfl fun i => by rw [setDispenser_g, hm.frame]
  | operator w hstep hm => exact hI.congr rfl rfl hm.services
  | user u hm hf => exact hI.congr rfl rfl fun i => by rw [setUser_g, hm.frame]
  | deliver p sigs hp =>
    obtain ⟨b, hb⟩ := s.deliverTo_director_vars sigs p
    exact hI.congr (by simp) (by simp [hb]) (by simp)
  | interrupt sig hsig | tick ns => exact hI.congr rfl rfl fun _ => rfl

theorem init : (State.init c).Assigned := fun _ hn => nomatch hn

end Assigned

end State

theorem assigned {s : State c} (h : Reachable s) : s.Assigned :=
  h.invariant .init fun _ _ _ hI hm => hI.step hm

/-- The operators of a service are counted one by one. -/
theorem Setup.countWorkersForService_eq (c : Setup) (q : Service) :
    c.countWorkersForService q = (Finset.univ.filter fun w => c.workerService w = q).card := by
  rw [countWorkersForService, List.countP_eq_length_filter, ← List.toFinset_card_of_nodup
    ((List.nodup_finRange _).filter _)]
  congr 1
  ext w
  simp

/-- CORRECT: the lines of the counters. Whenever `print_daily_statistics` prints, every counter has a
    service, the seats printed for it are the counters with that service, at least the counter
    itself, so no ratio is hidden by the guard; and the ratios of all counters add up to the number
    of operators whose service some counter offers. -/
theorem counter_lines {s : State c} (h : Reachable s) (hpc : s.director.pc = .printDaily) :
    ∃ lines : Fin c.nofWorkerSeats → CounterLine,
      (∀ i, printCounterLine c s.g.counters s.director.vars.countersPerService i = some (lines i)) ∧
      (∀ i, 0 < (lines i).seats ∧ (lines i).seats =
        (Finset.univ.filter fun j => (lines j).service = (lines i).service).card) ∧
      ∑ i, (lines i).ratio =
        (Finset.univ.filter fun w => ∃ i, (lines i).service = c.workerService w).card := by
  obtain ⟨hcount, hsome⟩ := assigned h c.nofWorkerSeats (by rw [hpc]; rfl)
  choose service hservice using fun i : Fin c.nofWorkerSeats =>
    Option.ne_none_iff_exists'.mp (hsome i i.isLt)
  have hseats (q : Service) : s.director.vars.countersPerService q =
      (Finset.univ.filter fun j => service j = q).card := by
    rw [hcount, Shared.offering, Family.total, Finset.card_filter]
    refine Finset.sum_congr rfl fun j _ => ?_
    simp [hservice, ind]
  have hpos (i : Fin c.nofWorkerSeats) : 0 < s.director.vars.countersPerService (service i) := by
    rw [hseats]
    exact Finset.card_pos.mpr ⟨i, by simp⟩
  refine ⟨fun i => ⟨service i, c.countWorkersForService (service i),
    s.director.vars.countersPerService (service i),
    c.countWorkersForService (service i) / s.director.vars.countersPerService (service i)⟩,
    fun i => ?_, fun i => ⟨hpos i, hseats _⟩, ?_⟩
  · rw [printCounterLine, hservice i, Option.map_some, if_pos (hpos i)]
  · -- Each service shares its operators among its counters.
    have hshare := Family.sum_share service fun q => (c.countWorkersForService q : ℚ)
    simp only [← hseats] at hshare
    refine hshare.trans ?_
    rw [← Nat.cast_sum]
    congr 1
    simp only [Setup.countWorkersForService_eq]
    rw [← Finset.card_biUnion]
    · congr 1
      ext w
      simp [eq_comm]
    · intro q _ r _ hne
      refine Finset.disjoint_filter.mpr fun w _ hq hr => hne (hq.symm.trans hr)

/-- The one counter of the small office has the service of its one operator: the ratios add up
    to 1. -/
theorem counter_lines_small : ∃ s : State smallOffice,
    exec step (SmallOffice.closing ++ SmallOffice.own .director 2) (State.init smallOffice) =
      some s ∧
    ∃ lines : Fin 1 → CounterLine, (∀ i, printCounterLine smallOffice s.g.counters
      s.director.vars.countersPerService i = some (lines i)) ∧ ∑ i, (lines i).ratio = 1 := by
  have hrun : ((exec step (SmallOffice.closing ++ SmallOffice.own .director 2)
      (State.init smallOffice)).any fun s => decide (s.director.pc = .printDaily ∧
        (s.g.counters (0 : Fin 1)).service = some 0)) = true := by decide +kernel
  obtain ⟨s, hs, h⟩ := (Option.any_eq_true _ _).mp hrun
  obtain ⟨hpc, hservice⟩ := of_decide_eq_true h
  obtain ⟨lines, hlines, -, hratio⟩ := counter_lines (reach_of_exec _ hs) hpc
  have hzero : (lines (0 : Fin 1)).service = 0 := by
    have hline := hlines (0 : Fin 1)
    unfold printCounterLine at hline
    rw [hservice, Option.map_some] at hline
    exact (congrArg CounterLine.service (Option.some.inj hline)).symm
  refine ⟨s, hs, lines, hlines, hratio.trans ?_⟩
  rw [Finset.filter_true_of_mem fun w _ => ⟨(0 : Fin 1), hzero⟩]
  rfl

end PostOffice
