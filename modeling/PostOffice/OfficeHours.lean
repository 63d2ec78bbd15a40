import PostOffice.Overflow

/-! The office hours. Seen from outside, the simulation is a sequence of days, and the tickets are
    pushed, popped, served and turned away while a day is open:

                assigned (n + 1)
        closed n ────────────▶ opened (n + 1) ─┐ pushed, popped, served, flushed, replied, …
           │  ▲                       │  ▲─────┘
           │  └───────────────────────┘
           │    dailyStatistics (n + 1)
           ▼
         over n    finalStatistics n

    The automaton reads the history of all processes, in the order in which they have recorded it. -/

namespace PostOffice

open Transition

/-- Closed after `n` days, open on day `d`, or over after `n` days. -/
inductive Hours where
  | closed (n : ℕ)
  | opened (d : ℕ)
  | over (n : ℕ)
  deriving DecidableEq

namespace Hours

variable {workers users : ℕ}

/-- What may happen, and when. -/
def next : Hours → Event workers users → Option Hours
  | .closed n, .init _ => if n = 0 then some (.closed n) else none
  | .closed n, .assigned d => if d = n + 1 then some (.opened d) else none
  | .closed n, .finalStatistics cause d _ =>
      if cause ≠ .none ∧ d = n then some (.over n) else none
  | .opened d, .runDay (.operator _) e => if e = d then some (.opened d) else none
  | .opened d, .pushed _ _ e => if e = d then some (.opened d) else none
  | .opened d, .popped _ _ _ | .opened d, .poppedEmpty _ _ | .opened d, .served _ _ _ _
  | .opened d, .flushed _ _ | .opened d, .dayFinished _ | .opened d, .brokenOff
  | .opened d, .replied .director _ _ _ | .opened d, .replied (.operator _) _ _ _ =>
      some (.opened d)
  | .opened d, .dailyStatistics e _ _ _ => if e = d then some (.closed d) else none
  -- the users and the refusals of the dispenser keep no hours
  | h, .runDay (.user _) _ | h, .requested _ _ | h, .replied .dispenser _ _ _ => some h
  | _, _ => none

/-- How many days are reported. -/
def reported : Hours → ℕ
  | .closed n | .over n => n
  | .opened d => d - 1

/-- The simulation is over. -/
def isOver : Hours → Bool
  | .over _ => true
  | _ => false

end Hours

/-- The day that a daily report is about. -/
def Event.reportDay {workers users : ℕ} : Event workers users → Option ℕ
  | .dailyStatistics d _ _ _ => some d
  | _ => none

def Event.isFinal {workers users : ℕ} : Event workers users → Bool
  | .finalStatistics _ _ _ => true
  | _ => false

namespace Hours

variable {workers users : ℕ} {h h' : Hours} {e : Event workers users}

/-- No day is opened before the first. -/
def Sound : Hours → Prop
  | .opened d => 0 < d
  | _ => True

theorem next_sound (hs : h.Sound) (hn : h.next e = some h') : h'.Sound := by
  unfold next at hn
  split at hn
  all_goals
    try split at hn
    all_goals cases hn
  all_goals first | exact hs | trivial | skip
  all_goals
    show 0 < _
    omega

/-- A step reports one day more, the next one, or none. -/
theorem next_reported (hs : h.Sound) (hn : h.next e = some h') :
    (e.reportDay = none ∧ h'.reported = h.reported) ∨
      e.reportDay = some (h.reported + 1) ∧ h'.reported = h.reported + 1 := by
  unfold next at hn
  split at hn
  all_goals
    try split at hn
    all_goals cases hn
  all_goals simp_all [reported, Event.reportDay, Sound]
  all_goals omega

/-- The reports are about day 1, day 2 and so on. -/
theorem reports_of_exec {l : List (Event workers users)} (hl : exec next l (.closed 0) = some h) :
    h.Sound ∧ l.filterMap Event.reportDay = List.range' 1 h.reported := by
  induction l using List.reverseRecOn generalizing h with
  | nil =>
    obtain rfl := Option.some.inj hl
    exact ⟨trivial, rfl⟩
  | append_singleton l e ih =>
    rw [exec_concat] at hl
    obtain ⟨t, ht, hn⟩ := Option.bind_eq_some_iff.mp hl
    obtain ⟨hs, hreports⟩ := ih ht
    refine ⟨next_sound hs hn, ?_⟩
    rw [List.filterMap_append, hreports]
    rcases next_reported hs hn with ⟨hnone, heq⟩ | ⟨hday, heq⟩
    · simp [hnone, heq]
    · rw [heq, List.range'_concat]
      simp [hday, Nat.add_comm]

/-- There is one final report when the simulation is over, and none before. -/
theorem next_isOver (hn : h.next e = some h') :
    ind (h'.isOver = true) = ind (h.isOver = true) + if e.isFinal then 1 else 0 := by
  unfold next at hn
  split at hn
  all_goals
    try split at hn
    all_goals cases hn
  all_goals simp [isOver, Event.isFinal]

theorem finals_of_exec {l : List (Event workers users)} (hl : exec next l (.closed 0) = some h) :
    l.countP Event.isFinal = ind (h.isOver = true) := by
  induction l using List.reverseRecOn generalizing h with
  | nil =>
    obtain rfl := Option.some.inj hl
    rfl
  | append_singleton l e ih =>
    rw [exec_concat] at hl
    obtain ⟨t, ht, hn⟩ := Option.bind_eq_some_iff.mp hl
    rw [List.countP_append, List.countP_singleton, ih ht, next_isOver hn]

end Hours

/-! ### The hours of the programs -/

namespace DirPc

variable {seats workers users : ℕ}

/-- From the new `CURRENT_DAY` to the record that opens the day. -/
def opening : DirPc seats workers users → Bool
  | .resetLock | .resetStats | .resetUnlock | .resetWorker _ | .assignInit => true
  | _ => false

/-- The hours, where `CURRENT_DAY` is `day`. -/
def hours (pc : DirPc seats workers users) (day : ℕ) : Hours :=
  match pc with
  | .waitInit | .dayTest | .setDay | .printUnlock | .dayEnd | .setCause | .finalLock
  | .finalPrint => .closed day
  | .resetLock | .resetStats | .resetUnlock | .resetWorker _ | .assignInit => .closed (day - 1)
  | .finalUnlock | .termDispenser | .termWorkers _ | .termUsers _ | .reapWorker _ | .reapUser _
  | .reapDispenser | .cleanupIpc _ | .logStop | .ended => .over day
  | _ => .opened day

theorem hours_of_live {pc : DirPc seats workers users} {w : Fin workers} (h : pc.live w = true)
    (day : ℕ) : pc.hours day = .opened day := by
  cases pc <;> simp [live, dayOpen, preStart] at h <;> rfl

theorem hours_of_not_closed {pc : DirPc seats workers users} {q : Service}
    (h : pc.closed q = false) (day : ℕ) : pc.hours day = .opened day := by
  cases pc <;> simp [closed] at h <;> rfl

end DirPc

variable {c : Setup}

/-- The director opens and closes the days, one after the other. -/
theorem Director.Move.hours {pc pc' : DirPc c.nofWorkerSeats c.nofWorkers c.nofUsers}
    {v v' : DirVars} {g g' : Shared c} (h : Director.Move pc v g pc' v' g')
    (hday : pc.ending = false → v.day = g.currentDay + ind (pc.betweenDays = true))
    (hpos : pc.opening = true → 0 < g.currentDay)
    (hcause : pc = .finalPrint → g.terminationCause ≠ .none) :
    g'.hist = g.hist ∧ pc'.hours g'.currentDay = pc.hours g.currentDay ∨
      ∃ e, g'.hist = g.hist ++ [e] ∧
        (pc.hours g.currentDay).next e = some (pc'.hours g'.currentDay) := by
  cases h with
  | setDay =>
    have := hday rfl
    refine .inl ⟨rfl, congrArg Hours.closed ?_⟩
    show v.day - 1 = g.currentDay
    simp [DirPc.betweenDays] at this
    omega
  | assignInit =>
    have := hpos rfl
    refine .inr ⟨_, rfl, if_pos ?_⟩
    omega
  | dayBrokenOff | flushTake | flushReply => exact .inr ⟨_, rfl, rfl⟩
  | printDaily => exact .inr ⟨_, rfl, if_pos (hday rfl)⟩
  | finalPrint => exact .inr ⟨_, rfl, if_pos ⟨hcause rfl, rfl⟩⟩
  | _ => exact .inl ⟨rfl, rfl⟩

/-- Where the director may have come from. -/
theorem Director.Move.came {pc pc' : DirPc c.nofWorkerSeats c.nofWorkers c.nofUsers}
    {v v' : DirVars} {g g' : Shared c} (h : Director.Move pc v g pc' v' g') :
    (pc' = .waitInit → pc = .waitInit) ∧
    (pc'.opening = true → pc = .setDay ∧ g'.currentDay = v.day ∨ pc.opening = true) ∧
    (pc' = .finalLock ∨ pc' = .finalPrint → g'.terminationCause ≠ .none ∨
      (pc = .finalLock ∨ pc = .finalPrint) ∧ g'.terminationCause = g.terminationCause) := by
  cases h with
  | stay => exact ⟨id, .inr, fun h => .inr ⟨h, rfl⟩⟩
  | initOther | initMore => exact ⟨fun _ => rfl, .inr, fun h => .inr ⟨h, rfl⟩⟩
  | setDay => exact ⟨by simp, fun _ => .inl ⟨rfl, rfl⟩, by simp⟩
  | resetLock | resetStats | resetUnlock | resetWorkerNext | resetWorkerLast =>
    exact ⟨by simp, fun _ => .inr rfl, by simp⟩
  | timeout => exact ⟨by simp, .inr, fun _ => .inl TerminationCause.noConfusion⟩
  | keepCause h => exact ⟨by simp, .inr, fun _ => .inl h⟩
  | finalLock => exact ⟨by simp, .inr, fun _ => .inr ⟨.inl rfl, rfl⟩⟩
  | _ => exact ⟨by simp, fun h => Bool.noConfusion h, by simp⟩

/-- The dispenser announces itself, pushes inside the window, or refuses. -/
theorem Dispenser.Move.hours {pc pc' : DispPc c.nofWorkerSeats} {f : DispFlags} {g g' : Shared c}
    (h : Dispenser.Move pc f g pc' g') {hours : Hours}
    (hinit : pc.inited = false → hours = .closed 0)
    (hwindow : ∀ q, pc.window = some q → hours = .opened g.currentDay) :
    g'.hist = g.hist ∨ ∃ e, g'.hist = g.hist ++ [e] ∧ hours.next e = some hours := by
  cases h with
  | init =>
    rw [hinit rfl]
    exact .inr ⟨_, rfl, rfl⟩
  | push hpush hqu =>
    rw [hwindow _ rfl]
    exact .inr ⟨_, rfl, if_pos rfl⟩
  | invalidReply | refuseReply => exact .inr ⟨_, rfl, by cases hours <;> rfl⟩
  | _ => exact .inl rfl

/-- An operator announces itself, or is inside `run_day` or about to be. -/
theorem Operator.Move.hours {w : Fin c.nofWorkers} {l l' : Operator c} {g g' : Shared c}
    (h : Operator.Move w l g l' g') {hours : Hours}
    (hinit : (view w l).inited = false → hours = .closed 0)
    (hrun : (view w l).inRun = true ∨ (view w l').inRun = true → hours = .opened g.currentDay) :
    g'.hist = g.hist ∨ ∃ e, g'.hist = g.hist ++ [e] ∧ hours.next e = some hours := by
  have hview (x : Operator c) : view w x = x.pc.view (c.workerService w) := rfl
  cases h with
  | init hf hpc hpc' =>
    rw [hinit (by rw [hview, hpc]; rfl)]
    exact .inr ⟨_, rfl, rfl⟩
  | «begin» hf hpc hpc' =>
    rw [hrun (.inr (by rw [hview, hpc']; rfl))]
    exact .inr ⟨_, rfl, if_pos rfl⟩
  | pop hf k t q hlen hq hpc hpc' | popEmpty hf k hlen hpc hpc' | count hf k t n m hpc hpc'
  | reply hf k t hpc hpc' | finish hf hpc hpc' =>
    rw [hrun (.inl (by rw [hview, hpc]; rfl))]
    exact .inr ⟨_, rfl, rfl⟩
  | _ => exact .inl rfl

/-- A user announces itself; otherwise it keeps no hours. -/
theorem User.Move.hours {u : Fin c.nofUsers} {pc pc' : UserPc} {f : UserFlags} {g g' : Shared c}
    (h : User.Move u pc f g pc' g') {hours : Hours}
    (hinit : pc.inited = false → hours = .closed 0) :
    g'.hist = g.hist ∨ ∃ e, g'.hist = g.hist ++ [e] ∧ hours.next e = some hours := by
  cases h with
  | init =>
    rw [hinit rfl]
    exact .inr ⟨_, rfl, rfl⟩
  | «begin» | request => exact .inr ⟨_, rfl, by cases hours <;> rfl⟩
  | _ => exact .inl rfl

namespace State

/-- The hours of the office. -/
def hours (s : State c) : Hours := s.director.pc.hours s.g.currentDay

/-- The history keeps the hours. -/
structure Diary (s : State c) : Prop where
  kept : exec Hours.next s.g.hist (.closed 0) = some s.hours
  first : s.director.pc = .waitInit → s.g.currentDay = 0
  pos : s.director.pc.opening = true → 0 < s.g.currentDay
  cause : s.director.pc = .finalLock ∨ s.director.pc = .finalPrint →
    s.g.terminationCause ≠ .none

variable {s s' : State c}

/-- Records that keep the hours. -/
theorem Diary.record (hI : s.Diary) {g' : Shared c} {h : Hours}
    (hg : g'.hist = s.g.hist ∧ h = s.hours ∨
      ∃ e, g'.hist = s.g.hist ++ [e] ∧ s.hours.next e = some h) :
    exec Hours.next g'.hist (.closed 0) = some h := by
  rcases hg with ⟨hhist, rfl⟩ | ⟨e, hhist, hn⟩
  · rw [hhist]
    exact hI.kept
  · rw [hhist, exec_concat, hI.kept]
    exact hn

/-- A child that has not announced itself yet is waited for, before the first day. -/
theorem Diary.hours_of_announced (hI : s.Diary) (hA : s.Announced) {p : c.Proc}
    (hp : p ≠ .director) (hinit : s.g.announced p = 0) : s.hours = .closed 0 := by
  have hpc : s.director.pc = .waitInit := by
    by_contra hne
    have := (hA.all hne).2 p hp
    omega
  rw [hours, hpc, hI.first hpc]
  rfl

/-- The others' records keep the hours, and nothing else of the diary changes. -/
theorem Diary.frame (hI : s.Diary) (hpc : s'.director.pc = s.director.pc)
    (hday : s'.g.currentDay = s.g.currentDay)
    (hcause : s'.g.terminationCause = s.g.terminationCause)
    (hrec : s'.g.hist = s.g.hist ∨
      ∃ e, s'.g.hist = s.g.hist ++ [e] ∧ s.hours.next e = some s.hours) : s'.Diary := by
  have hhours : s'.hours = s.hours := by rw [hours, hours, hpc, hday]
  refine ⟨?_, ?_, ?_, ?_⟩
  · rw [hhours]
    exact hI.record (hrec.imp_left fun h => ⟨h, rfl⟩)
  · rw [hpc, hday]
    exact hI.first
  · rw [hpc, hday]
    exact hI.pos
  · rw [hpc, hcause]
    exact hI.cause

theorem Diary.director (hB : s.Barrier) (hI : s.Diary) {l' : Director c} {g' : Shared c}
    (hm : Director.Move s.director.pc s.director.vars s.g l'.pc l'.vars g') :
    (s.setDirector (l', g')).Diary := by
  obtain ⟨hfirst, hopening, hfinal⟩ := hm.came
  have hsame (hpc : s.director.pc ≠ .setDay) : g'.currentDay = s.g.currentDay :=
    hm.currentDay.resolve_right fun h => hpc h.1
  refine ⟨hI.record (hm.hours hB.day hI.pos fun hpc => hI.cause (.inr hpc)), fun hpc => ?_,
    fun hpc => ?_, fun hpc => ?_⟩
  · have hwait := hfirst hpc
    exact (hsame (by rw [hwait]; simp)).trans (hI.first hwait)
  · rcases hopening hpc with ⟨hset, hday⟩ | hold
    · have hday' := hB.day (by rw [hset]; rfl)
      rw [hset] at hday'
      rw [setDirector_g, hday, hday']
      exact Nat.succ_pos _
    · have hne : s.director.pc ≠ .setDay := fun h => by
        rw [h] at hold
        exact Bool.noConfusion hold
      rw [setDirector_g, hsame hne]
      exact hI.pos hold
  · rcases hfinal hpc with hne | ⟨hold, heq⟩
    · exact hne
    · rw [setDirector_g, heq]
      exact hI.cause hold

theorem Diary.step (hr : Reachable s) (hr' : Reachable s') (hI : s.Diary) (h : s.Move s') :
    s'.Diary := by
  have hA := announced hr
  have hB := barrier hr
  cases h with
  | director hm => exact hI.director hB hm
  | @dispenser l' g' hm hf =>
    refine hI.frame rfl (by rw [setDispenser_g, hm.frame]) (by rw [setDispenser_g, hm.frame])
      (hm.hours (fun hinit => ?_) fun q hw => ?_)
    · refine hI.hours_of_announced hA (p := .dispenser) (by simp) ?_
      rw [hA.dispenser, hinit]
      rfl
    · exact DirPc.hours_of_not_closed (q := q)
        (Bool.eq_false_iff.mpr fun hq => (closing hr).closed q hq hw) _
  | @operator n l' g' w hstep hm =>
    refine hI.frame rfl (by rw [setOperator_g, hm.frame]) (by rw [setOperator_g, hm.frame])
      (hm.hours (fun hinit => ?_) fun hrun => ?_)
    · refine hI.hours_of_announced hA (p := .operator w) (by simp) ?_
      rw [hA.operator]
      exact ind_of_not fun h => Bool.false_ne_true (hinit.symm.trans h)
    · have hlive : s.director.pc.live w = true := by
        rcases hrun with hrun | hrun
        · exact hB.live_of_inRun hrun
        · refine (barrier hr').live_of_inRun (w := w) ?_
          rw [view_setOperator, Function.update_self]
          exact hrun
      exact DirPc.hours_of_live hlive _
  | @user l' g' u hm hf =>
    refine hI.frame rfl (by rw [setUser_g, hm.frame]) (by rw [setUser_g, hm.frame])
      (hm.hours fun hinit => ?_)
    refine hI.hours_of_announced hA (p := .user u) (by simp) ?_
    rw [hA.user]
    exact ind_of_not fun h => Bool.false_ne_true (hinit.symm.trans h)
  | deliver p sigs hp =>
    refine hI.frame (by simp) ?_ ?_ (.inl ?_) <;> rw [deliverTo_g] <;> rfl
  | interrupt | tick => exact ⟨hI.kept, hI.first, hI.pos, hI.cause⟩

theorem Diary.init : (State.init c).Diary :=
  ⟨rfl, fun _ => rfl, fun h => Bool.noConfusion h, by simp [State.init]⟩

end State

theorem diary {s : State c} (h : Reachable s) : s.Diary :=
  ReachBy.invariant .init (fun _ _ _ hr hI _ hs =>
    hI.step hr (hr.tail trivial hs) (step_moveBy hs fun _ _ _ => trivial)) h

/-- At most as many days are reported as there are. -/
theorem State.reported_hours_le {s : State c} (h : Reachable s) :
    s.hours.reported ≤ c.simDuration := by
  have hcur := (smallCounters h).currentDay
  have hle : s.hours.reported ≤ s.g.currentDay := by
    unfold State.hours
    generalize s.director.pc = pc
    cases pc <;> first | exact le_rfl | exact Nat.sub_le _ _
  exact hle.trans hcur

/-- CORRECT: the office keeps its hours. The history of every run is one that the automaton accepts:
    the children announce themselves before the first day, days are opened and reported one after
    the other, tickets are pushed, popped, served and turned away and operators work only while a day
    is open, and after the final report, which names a cause and the last day, there are only users
    and refusals. The reports are about day 1, day 2, …, at most `SIM_DURATION`, and there is one
    final report when the simulation is over, none before. -/
theorem office_hours {s : State c} (h : Reachable s) :
    exec Hours.next s.g.hist (.closed 0) = some s.hours ∧
    s.g.hist.filterMap Event.reportDay = List.range' 1 s.hours.reported ∧
    s.hours.reported ≤ c.simDuration ∧
    s.g.hist.countP Event.isFinal = ind (s.hours.isOver = true) :=
  ⟨(diary h).kept, (Hours.reports_of_exec (diary h).kept).2, State.reported_hours_le h,
    Hours.finals_of_exec (diary h).kept⟩

/-- In the small office the second day is open after the first one is reported. -/
theorem office_hours_small : ∃ s : State smallOffice,
    exec step SmallOffice.night (State.init smallOffice) = some s ∧
    exec Hours.next s.g.hist (.closed 0) = some (.opened 2) ∧
    s.g.hist.filterMap Event.reportDay = [1] := by
  have hrun : ((exec step SmallOffice.night (State.init smallOffice)).any fun s =>
      decide (s.hours = .opened 2)) = true := by decide +kernel
  obtain ⟨s, hs, h⟩ := (Option.any_eq_true _ _).mp hrun
  obtain ⟨hkept, hreports, -⟩ := office_hours (reach_of_exec _ hs)
  rw [of_decide_eq_true h] at hkept hreports
  exact ⟨s, hs, hkept, hreports⟩

end PostOffice
