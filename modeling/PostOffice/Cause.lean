import PostOffice.Lib.Journal
import PostOffice.Flush

/-! The cause of termination. The loop over the days has three ways out, and the cause is read off
    `TERMINATION_CAUSE` after it:

        dayTest ── day > SIM_DURATION ──────────▶ setCause ── still NONE: TIMEOUT ──▶ finalPrint
        dayTest ── shutdown_requested ──────────▶
        dayEnd  ── TERMINATION_CAUSE = EXPLODE ─▶

    A day of the simulation is one whose statistics are printed. It is simulated to its end unless the
    shutdown flag has broken its sleep off. Its pending users are those `flush_pending_users` has
    turned away since the statistics of the day before. -/

namespace PostOffice

open Transition

namespace Event

variable {workers users : ℕ}

/-- The end of a day: its statistics are printed. -/
def isDaily : Event workers users → Bool
  | .dailyStatistics _ _ _ _ => true
  | _ => false

/-- The cause that the final statistics give. -/
def finalCause : Event workers users → Option TerminationCause
  | .finalStatistics cause _ _ => some cause
  | _ => none

/-- A pop by `flush_pending_users`. -/
def isFlushed : Event workers users → Bool
  | .flushed _ _ => true
  | _ => false

/-- A day is cut short. -/
def isBrokenOff : Event workers users → Bool
  | .brokenOff => true
  | _ => false

end Event

/-- A day of the simulation: how many users were pending at its end, and whether it came to it
    without being cut short. -/
structure DayRecord where
  pending : ℕ
  whole : Bool
  deriving DecidableEq

section Records

variable {workers users : ℕ}

/-- What a stretch of the history says about the day. -/
def DayRecord.of (day : List (Event workers users)) : DayRecord :=
  { pending := day.countP Event.isFlushed, whole := !day.any Event.isBrokenOff }

variable (hist : List (Event workers users))

/-- The days that have been printed. -/
def dayRecords : List DayRecord := (Segments.closed Event.isDaily hist).map .of

/-- The day that has not been printed yet. -/
def openRecord : DayRecord := .of (Segments.current Event.isDaily hist)

variable {hist}

/-- Events that neither end a day, nor cut it short, nor turn anybody away. -/
theorem records_append {es : List (Event workers users)}
    (h : ∀ e ∈ es, e.isDaily = false ∧ e.isFlushed = false ∧ e.isBrokenOff = false) :
    dayRecords (hist ++ es) = dayRecords hist ∧ openRecord (hist ++ es) = openRecord hist := by
  have hday (e) (he : e ∈ es) : e.isDaily = false := (h e he).1
  have hzero : es.countP Event.isFlushed = 0 :=
    List.countP_eq_zero.mpr fun e he => by simp [(h e he).2.1]
  have hnone : es.any Event.isBrokenOff = false :=
    List.any_eq_false.mpr fun e he => by simp [(h e he).2.2]
  unfold dayRecords openRecord DayRecord.of
  rw [Segments.closed_append_list hday, Segments.current_append_list hday, List.countP_append,
    List.any_append, hzero, hnone, Bool.or_false]
  exact ⟨rfl, rfl⟩

theorem records_flushed (s : Service) (t : QueueTicket) :
    dayRecords (hist ++ [.flushed s t]) = dayRecords hist ∧
      openRecord (hist ++ [.flushed s t]) =
        { openRecord hist with pending := (openRecord hist).pending + 1 } := by
  unfold dayRecords openRecord DayRecord.of
  rw [Segments.closed_append (by rfl), Segments.current_append (by rfl), List.countP_append,
    List.any_append]
  exact ⟨rfl, by simp [Event.isFlushed, Event.isBrokenOff]⟩

theorem records_brokenOff :
    dayRecords (hist ++ [.brokenOff]) = dayRecords hist ∧
      openRecord (hist ++ [.brokenOff]) = { openRecord hist with whole := false } := by
  unfold dayRecords openRecord DayRecord.of
  rw [Segments.closed_append (by rfl), Segments.current_append (by rfl), List.countP_append,
    List.any_append]
  exact ⟨rfl, by simp [Event.isFlushed, Event.isBrokenOff]⟩

theorem records_daily (day activeToday activeTotal : ℕ) (st : SimulationStats) :
    dayRecords (hist ++ [.dailyStatistics day activeToday activeTotal st]) =
        dayRecords hist ++ [openRecord hist] ∧
      openRecord (hist ++ [.dailyStatistics day activeToday activeTotal st]) =
        { pending := 0, whole := true } := by
  unfold dayRecords openRecord
  rw [Segments.closed_append_mark (by rfl), Segments.current_append_mark (by rfl), List.map_append]
  exact ⟨rfl, rfl⟩

/-- The history around the final report found at place `n`. -/
theorem exists_final {n : ℕ} {cause : TerminationCause}
    (h : hist[n]?.bind Event.finalCause = some cause) :
    ∃ day st post, hist = hist.take n ++ .finalStatistics cause day st :: post := by
  obtain ⟨e, he, hcause⟩ := Option.bind_eq_some_iff.mp h
  have hsplit := Journal.eq_append_of_getElem? he
  cases e with
  | finalStatistics cause' day st =>
    obtain rfl := Option.some.inj hcause
    exact ⟨day, st, _, hsplit⟩
  | _ => cases hcause

end Records

variable {c : Setup}

/-- The cause is the true one for a simulation of these days: explode when the last day, and no day
    before, ended above the threshold; timeout when all the days were simulated to their ends and
    none ended above it; neither of the two for a simulation cut short. -/
structure TrueCause (c : Setup) (days : List DayRecord) (cause : TerminationCause) : Prop where
  explode : cause = .explode ↔ ∃ (before : List DayRecord) (last : DayRecord),
    days = before ++ [last] ∧ (last.pending : ℤ) > c.explodeThreshold ∧
      ∀ d ∈ before, (d.pending : ℤ) ≤ c.explodeThreshold
  timeout : cause = .timeout ↔ days.length = c.simDuration ∧
    ∀ d ∈ days, d.whole = true ∧ (d.pending : ℤ) ≤ c.explodeThreshold
  cutShort : days.length < c.simDuration ∨ (∃ d ∈ days, d.whole = false) →
    (∀ d ∈ days, (d.pending : ℤ) ≤ c.explodeThreshold) → cause ≠ .explode ∧ cause ≠ .timeout

/-- Every final report of a history gives the true cause. -/
def ReportsTrueCause (c : Setup) (before : List c.Event) : c.Event → Prop
  | .finalStatistics cause _ _ => TrueCause c (dayRecords before) cause
  | _ => True

theorem TrueCause.of_explode {before : List DayRecord} {last : DayRecord}
    (hlast : (last.pending : ℤ) > c.explodeThreshold)
    (hbefore : ∀ d ∈ before, (d.pending : ℤ) ≤ c.explodeThreshold) :
    TrueCause c (before ++ [last]) .explode := by
  have hnot (h : ∀ d ∈ before ++ [last], (d.pending : ℤ) ≤ c.explodeThreshold) : False :=
    absurd (h last (by simp)) (not_le.mpr hlast)
  exact ⟨⟨fun _ => ⟨before, last, rfl, hlast, hbefore⟩, fun _ => rfl⟩,
    ⟨nofun, fun h => (hnot fun d hd => (h.2 d hd).2).elim⟩, fun _ h => (hnot h).elim⟩

theorem TrueCause.of_timeout {days : List DayRecord} (hlen : days.length = c.simDuration)
    (hwhole : ∀ d ∈ days, d.whole = true)
    (hle : ∀ d ∈ days, (d.pending : ℤ) ≤ c.explodeThreshold) : TrueCause c days .timeout := by
  refine ⟨⟨nofun, ?_⟩, ⟨fun _ => ⟨hlen, fun d hd => ⟨hwhole d hd, hle d hd⟩⟩, fun _ => rfl⟩, ?_⟩
  · rintro ⟨before, last, rfl, hlast, -⟩
    exact absurd (hle last (by simp)) (not_le.mpr hlast)
  · rintro (hlt | ⟨d, hd, hcut⟩)
    · exact absurd hlen hlt.ne
    · exact absurd (hcut.symm.trans (hwhole d hd)) Bool.false_ne_true

/-! ### The loop over the days -/

namespace DirPc

variable {seats workers users : ℕ}

/-- The day's statistics are printed and the loop body is not over. -/
def dayPrinted : DirPc seats workers users → Bool
  | .printUnlock | .dayEnd => true
  | _ => false

theorem decided_of_dayPrinted {pc : DirPc seats workers users} (h : pc.dayPrinted = true) :
    pc.decided = true := by
  cases pc <;> first | rfl | exact Bool.noConfusion h

/-- At the head of the day loop or after it, where `day` may have passed `SIM_DURATION`. -/
def pastBody : DirPc seats workers users → Bool
  | .waitInit | .dayTest => true
  | pc => pc.ending

/-- At the head of the day loop. -/
def atHead : DirPc seats workers users → Bool
  | .dayTest => true
  | _ => false

end DirPc

/-- No day has been cut short. -/
def SleptWell {workers users : ℕ} (hist : List (Event workers users)) : Prop :=
  (∀ d ∈ dayRecords hist, d.whole = true) ∧ (openRecord hist).whole = true

/-- The books of the days, for the director's program point and variables and the shared state. A day
    has been cut short only when the flag is up and days are still to come. -/
structure DayBooks (pc : DirPc c.nofWorkerSeats c.nofWorkers c.nofUsers) (v : DirVars)
    (g : Shared c) : Prop where
  bound : v.day ≤ c.simDuration + ind (pc.pastBody = true)
  days : pc.ending = false →
    (dayRecords g.hist).length + 1 = v.day + ind (pc.dayPrinted = true)
  open_ : pc.ending = false → (openRecord g.hist).pending =
    if pc.flushing = true ∧ pc.dayPrinted = false then v.pendingTotal else 0
  below : pc.ending = false → pc.dayPrinted = false →
    ∀ d ∈ dayRecords g.hist, (d.pending : ℤ) ≤ c.explodeThreshold
  last : pc.dayPrinted = true → ∃ before last, dayRecords g.hist = before ++ [last] ∧
    last.pending = v.total ∧ ∀ d ∈ before, (d.pending : ℤ) ≤ c.explodeThreshold
  whole : pc.ending = false → SleptWell g.hist ∨
    v.shutdownRequested = true ∧ v.day + ind (pc.atHead = false) ≤ c.simDuration
  verdict : pc.ending = true → TrueCause c (dayRecords g.hist)
    (if pc = .setCause ∧ g.terminationCause = .none then .timeout else g.terminationCause)
  kept : Journal.Kept (ReportsTrueCause c) g.hist

namespace DayBooks

variable {pc pc' : DirPc c.nofWorkerSeats c.nofWorkers c.nofUsers} {v v' : DirVars}
  {g g' : Shared c}

/-- Events that are not about the days. -/
theorem append (hI : DayBooks pc v g) {es : List c.Event} (hes : g'.hist = g.hist ++ es)
    (hrecords : ∀ e ∈ es, e.isDaily = false ∧ e.isFlushed = false ∧ e.isBrokenOff = false)
    (hkept : Journal.Kept (ReportsTrueCause c) g'.hist)
    (hcause : g'.terminationCause = g.terminationCause) : DayBooks pc v g' := by
  obtain ⟨hday, hopen⟩ := @records_append _ _ g.hist es hrecords
  refine ⟨hI.bound, ?_, ?_, ?_, ?_, ?_, ?_, hkept⟩ <;> rw [hes]
  · rw [hday]
    exact hI.days
  · rw [hopen]
    exact hI.open_
  · rw [hday]
    exact hI.below
  · rw [hday]
    exact hI.last
  · rw [SleptWell, hday, hopen]
    exact hI.whole
  · rw [hday, hcause]
    exact hI.verdict

/-- What the other processes record is not about the days. -/
theorem logs (hI : DayBooks pc v g) {p : c.Proc} (hlogs : Logs p g g') (hp : p ≠ .director)
    (hcause : g'.terminationCause = g.terminationCause) : DayBooks pc v g' := by
  obtain ⟨es, hes, hact⟩ := hlogs
  have hne : ∀ e ∈ es, e.actor ≠ .director := fun e he => hact e he ▸ hp
  refine hI.append hes (fun e he => ?_) ?_ hcause
  · cases e with
    | dailyStatistics | flushed | brokenOff => exact absurd rfl (hne _ he)
    | _ => exact ⟨rfl, rfl, rfl⟩
  · rw [hes]
    refine Journal.kept_append_list hI.kept fun e he pre => ?_
    cases e with
    | finalStatistics => exact absurd rfl (hne _ he)
    | _ => trivial

/-- An event of the director that is not about the days. -/
theorem log (hI : DayBooks pc v g) {e : c.Event} (hday : e.isDaily = false)
    (hflushed : e.isFlushed = false) (hbroken : e.isBrokenOff = false)
    (hgood : ReportsTrueCause c g.hist e) : DayBooks pc v (g.log e) :=
  hI.append rfl (by simp [hday, hflushed, hbroken]) (Journal.kept_append hI.kept hgood) rfl

theorem director (h : Director.Move pc v g pc' v' g') (hI : DayBooks pc v g)
    (htotal : pc = .printDaily → v.total = v.pendingTotal)
    (hcause : pc.ending = false → g.terminationCause =
      if pc.decided = true ∧ (v.total : ℤ) > c.explodeThreshold then .explode else .none)
    (hshut : pc = .dayTest → v.shutdownRequested = true → c.simDuration < v.day)
    (hsleep : pc = .daySleep → g' = g.log .brokenOff → v.day ≠ c.simDuration) :
    DayBooks pc' v' g' := by
  cases h with
  | initLast hm hv hr =>
    subst hv
    refine ⟨hI.bound, hI.days, hI.open_, hI.below, hI.last, fun _ => ?_, fun h => Bool.noConfusion h,
      hI.kept⟩
    exact (hI.whole rfl).imp_right fun h => ⟨h.1, (Nat.le_succ _).trans h.2⟩
  | dayEndLast hm hv hr =>
    subst hv
    exact ⟨hI.bound, hI.days, hI.open_, hI.below, hI.last, hI.whole, fun h => Bool.noConfusion h,
      hI.kept⟩
  | assignInit =>
    have h := hI.log (e := .assigned g.currentDay) rfl rfl rfl trivial
    exact ⟨h.bound, h.days, h.open_, h.below, h.last, h.whole, fun h => Bool.noConfusion h, h.kept⟩
  | flushReply =>
    rename_i s t hroom
    have h := hI.log (e := .replied .director t.userPid .notServed s) rfl rfl rfl trivial
    exact ⟨h.bound, h.days, h.open_, h.below, h.last, h.whole, fun h => Bool.noConfusion h, h.kept⟩
  | dayNext hd hs =>
    refine ⟨hd, hI.days, hI.open_, hI.below, hI.last, fun _ => .inl ?_, fun h => Bool.noConfusion h,
      hI.kept⟩
    exact (hI.whole rfl).resolve_right fun h => Bool.false_ne_true (hs.symm.trans h.1)
  | dayOver hover =>
    have hbelow := hI.below rfl rfl
    have hdays : (dayRecords g.hist).length + 1 = v.day := hI.days rfl
    have hbound : v.day ≤ c.simDuration + 1 := hI.bound
    have hlt : c.simDuration < v.day := by
      by_contra hle
      exact hover ⟨not_lt.mp hle, Bool.eq_false_iff.mpr fun hs => hle (hshut rfl hs)⟩
    have hwhole : SleptWell g.hist := (hI.whole rfl).resolve_right fun h => absurd h.2 (by
      show ¬ v.day + 0 ≤ c.simDuration
      omega)
    have hnone : g.terminationCause = .none :=
      (hcause rfl).trans (if_neg fun h => Bool.false_ne_true h.1)
    refine ⟨hI.bound, fun h => Bool.noConfusion h, fun h => Bool.noConfusion h,
      fun h => Bool.noConfusion h, fun h => Bool.noConfusion h, fun h => Bool.noConfusion h,
      fun _ => ?_, hI.kept⟩
    rw [if_pos ⟨rfl, hnone⟩]
    exact .of_timeout (by omega) hwhole.1 hbelow
  | dayBrokenOff hs =>
    -- the flag has come up before the last day
    obtain ⟨hday, hopen⟩ := @records_brokenOff _ _ g.hist
    have hbound : v.day ≤ c.simDuration := hI.bound
    have hearly := hsleep rfl rfl
    have hkept := Journal.kept_append hI.kept (e := .brokenOff) trivial
    refine ⟨hI.bound, fun _ => ?_, fun _ => ?_, fun _ _ => ?_, fun h => Bool.noConfusion h,
      fun _ => .inr ⟨hs, ?_⟩, fun h => Bool.noConfusion h, hkept⟩
    · exact (congrArg (·.length + 1) hday).trans (hI.days rfl)
    · exact (congrArg DayRecord.pending hopen).trans (hI.open_ rfl)
    · exact hday.symm ▸ hI.below rfl rfl
    · show v.day + 1 ≤ c.simDuration
      omega
  | flushInit =>
    exact ⟨hI.bound, hI.days, hI.open_, hI.below, hI.last, hI.whole, fun h => Bool.noConfusion h,
      hI.kept⟩
  | flushTake hlen hq =>
    rename_i s t q
    obtain ⟨hday, hopen⟩ := @records_flushed _ _ g.hist s t
    have hold : (openRecord g.hist).pending = v.pendingTotal := hI.open_ rfl
    have hkept := Journal.kept_append hI.kept (e := .flushed s t) trivial
    refine ⟨hI.bound, fun _ => ?_, fun _ => ?_, fun _ _ => ?_, fun h => Bool.noConfusion h,
      fun _ => ?_, fun h => Bool.noConfusion h, hkept⟩
    · exact (congrArg (·.length + 1) hday).trans (hI.days rfl)
    · exact (congrArg DayRecord.pending hopen).trans (congrArg (· + 1) hold)
    · exact hday.symm ▸ hI.below rfl rfl
    · refine (hI.whole rfl).imp_left fun hslept => ⟨hday.symm ▸ hslept.1, ?_⟩
      exact (congrArg DayRecord.whole hopen).trans hslept.2
  | printDaily =>
    obtain ⟨hday, hopen⟩ := @records_daily _ _ g.hist v.day v.activeToday v.activeTotal g.stats
    have hold : (openRecord g.hist).pending = v.pendingTotal := hI.open_ rfl
    have hdays : (dayRecords g.hist).length + 1 = v.day := hI.days rfl
    have hkept := Journal.kept_append hI.kept
      (e := .dailyStatistics v.day v.activeToday v.activeTotal g.stats) trivial
    refine ⟨hI.bound, fun _ => ?_, fun _ => congrArg DayRecord.pending hopen,
      fun _ h => Bool.noConfusion h, fun _ => ?_, fun _ => ?_, fun h => Bool.noConfusion h, hkept⟩
    · simp only [Shared.log_hist, hday, List.length_append, List.length_singleton, hdays]
      rfl
    · exact ⟨dayRecords g.hist, openRecord g.hist, hday, hold.trans (htotal rfl).symm,
        hI.below rfl rfl⟩
    · refine (hI.whole rfl).imp_left fun hslept => ⟨fun d hd => ?_, congrArg DayRecord.whole hopen⟩
      rw [Shared.log_hist, hday, List.mem_append, List.mem_singleton] at hd
      rcases hd with hd | rfl
      · exact hslept.1 d hd
      · exact hslept.2
  | dayBreak hx =>
    obtain ⟨before, last, hlast, hpending, hle⟩ := hI.last rfl
    have htot : (v.total : ℤ) > c.explodeThreshold := by
      by_contra hn
      rw [hcause rfl, if_neg fun h => hn h.2] at hx
      cases hx
    refine ⟨Nat.le_succ_of_le hI.bound, fun h => Bool.noConfusion h, fun h => Bool.noConfusion h,
      fun h => Bool.noConfusion h, fun h => Bool.noConfusion h, fun h => Bool.noConfusion h,
      fun _ => ?_, hI.kept⟩
    rw [hx, hlast, if_neg (by simp)]
    exact .of_explode (hpending ▸ htot) hle
  | dayEnd hx =>
    obtain ⟨before, last, hlast, hpending, hle⟩ := hI.last rfl
    have htot : ¬ (v.total : ℤ) > c.explodeThreshold := fun hgt =>
      hx ((hcause rfl).trans (if_pos ⟨rfl, hgt⟩))
    refine ⟨Nat.succ_le_succ hI.bound, hI.days, hI.open_, fun _ _ d hd => ?_,
      fun h => Bool.noConfusion h, hI.whole, fun h => Bool.noConfusion h, hI.kept⟩
    rw [hlast, List.mem_append, List.mem_singleton] at hd
    rcases hd with hd | rfl
    · exact hle d hd
    · rw [hpending]
      exact not_lt.mp htot
  | timeout hnone =>
    have hverdict := hI.verdict rfl
    rw [if_pos ⟨rfl, hnone⟩] at hverdict
    exact ⟨hI.bound, hI.days, hI.open_, hI.below, hI.last, hI.whole, fun _ => hverdict, hI.kept⟩
  | keepCause hne =>
    have hverdict := hI.verdict rfl
    rw [if_neg fun h => hne h.2] at hverdict
    exact ⟨hI.bound, hI.days, hI.open_, hI.below, hI.last, hI.whole, fun _ => hverdict, hI.kept⟩
  | finalPrint =>
    have h := hI.log (e := .finalStatistics g.terminationCause g.currentDay g.stats) rfl rfl rfl
      (hI.verdict rfl)
    exact ⟨h.bound, h.days, h.open_, h.below, h.last, h.whole, h.verdict, h.kept⟩
  | countInit | countRead =>
    exact ⟨hI.bound, hI.days, hI.open_, hI.below, fun h => Bool.noConfusion h, hI.whole, hI.verdict,
      hI.kept⟩
  | stay => exact hI
  | _ =>
    first
      | exact ⟨hI.bound, hI.days, hI.open_, hI.below, hI.last, hI.whole, hI.verdict, hI.kept⟩
      | exact ⟨hI.bound, hI.days, hI.open_, hI.below, hI.last, hI.whole,
          fun h => Bool.noConfusion h, hI.kept⟩

end DayBooks

/-- The shutdown flag cuts nothing short: while it is up the director finds no day still to come at
    the head of the loop, and it does not come back with `EINTR` from the sleep of the last day. -/
def NotCutShort (s : State c) (a : Act c) : Prop :=
  a.owner = some .director → s.director.vars.shutdownRequested = true →
    (s.director.pc = .dayTest → c.simDuration < s.director.vars.day) ∧
    (s.director.pc = .daySleep → s.director.mode = .eintr →
      s.director.vars.day ≠ c.simDuration)

instance (s : State c) (a : Act c) : Decidable (NotCutShort s a) := by
  unfold NotCutShort
  infer_instance

/-- The sleep is broken off by an interruption with the flag up. -/
theorem Director.eintr_of_brokenOff {l l' : Director c} {g : Shared c} {ex : c.Proc → Bool} {n : ℕ}
    (h : step l g ex n = some (l', g.log .brokenOff)) (hpc : l.pc = .daySleep) :
    l.mode = .eintr ∧ l.vars.shutdownRequested = true := by
  have hne : g ≠ g.log .brokenOff := fun he => by
    have hlen := congrArg (·.hist.length) he
    simp at hlen
  unfold step at h
  split at h
  · cases h
  rw [body, hpc] at h
  simp only [Task.nanosleep] at h
  repeat' split at h
  · exact ⟨‹_›, ‹_›⟩
  all_goals exact absurd (Prod.mk.inj (Option.some.inj h)).2 hne

/-- The books of the days are kept. -/
def State.DaysKept (s : State c) : Prop := DayBooks s.director.pc s.director.vars s.g

namespace State.DaysKept

variable {s s' : State c}

theorem step {a : Act c} (hC : s.Closing) (hT : s.Tally) (hI : s.DaysKept) (hok : NotCutShort s a)
    (h : s.StepOf a s') : s'.DaysKept := by
  cases h with
  | director hstep =>
    refine DayBooks.director (Director.step_move hstep) hI (fun hpc => ?_) hT.cause
      (fun hpc hs => (hok rfl hs).1 hpc) fun hpc hg => ?_
    · -- all that was counted has been turned away
      have htotal := hT.total (by rw [hpc]; rfl)
      have hleft : remaining s.director.pc s.g.queues = 0 := by
        refine Family.total_eq_zero fun q => ?_
        rw [hC.emptied q (by rw [hpc]; rfl)]
        split <;> rfl
      rw [hleft, hpc] at htotal
      exact htotal
    · subst hg
      obtain ⟨hmode, hs⟩ := Director.eintr_of_brokenOff hstep hpc
      exact (hok rfl hs).2 hpc hmode
  | user u hstep =>
    have hm := (User.step_move hstep).1
    exact DayBooks.logs hI hm.logs (by simp) (by rw [hm.frame]; rfl)
  | dispenser hstep =>
    have hm := (Dispenser.step_move hstep).1
    exact DayBooks.logs hI hm.logs (by simp) (by rw [hm.frame]; rfl)
  | operator w hstep =>
    have hm := Operator.step_move hstep
    exact DayBooks.logs hI hm.logs (by simp) (by rw [hm.frame]; rfl)
  | deliver p sigs hp hne hx =>
    obtain ⟨b, hb⟩ := s.deliverTo_director_vars sigs p
    have hup := s.shutdownRequested_deliverTo sigs p
    unfold DaysKept
    rw [hb] at hup
    rw [deliverTo_director_pc, deliverTo_g, hb]
    exact ⟨hI.bound, hI.days, hI.open_, hI.below, hI.last,
      fun he => (hI.whole he).imp_right fun h => ⟨hup h.1, h.2⟩, hI.verdict, hI.kept⟩
  | interrupt | tick =>
    exact ⟨hI.bound, hI.days, hI.open_, hI.below, hI.last, hI.whole, hI.verdict, hI.kept⟩

theorem init : (State.init c).DaysKept :=
  ⟨Nat.le_add_left _ _, fun _ => rfl, fun _ => rfl, fun _ _ => nofun, nofun,
    fun _ => .inl ⟨nofun, rfl⟩, nofun, Journal.kept_nil⟩

end State.DaysKept

theorem daysKept {s : State c} (h : ReachableBy NotCutShort s) : s.DaysKept :=
  ReachableBy.induct .init
    (fun _ _ _ hr hI hok hs => hI.step (closing hr.reach) (tally hr.reach) hok hs) h

/-- CORRECT: in a run that the shutdown flag does not cut short, the cause that
    `print_final_statistics` reports is the true one. The pending count of a day is the
    `pending_before_flush` that `main` compares with the threshold. -/
theorem reported_cause_true {s : State c} (h : ReachableBy NotCutShort s) :
    (∀ pre post cause day st, s.g.hist = pre ++ .finalStatistics cause day st :: post →
      TrueCause c (dayRecords pre) cause) ∧
    (s.director.pc.dayPrinted = true → (dayRecords s.g.hist).getLast?.map DayRecord.pending =
      some s.director.vars.pendingBeforeFlush) := by
  refine ⟨fun pre post _ _ _ hhist => (daysKept h).kept pre _ post hhist, fun hpc => ?_⟩
  obtain ⟨before, last, hlast, hpending, -⟩ := (daysKept h).last hpc
  have hdecided : s.director.pc.decided = true := DirPc.decided_of_dayPrinted hpc
  rw [hlast, List.getLast?_concat, (tally h.reach).pendingBeforeFlush hdecided]
  exact congrArg some hpending

/-- Two days on which the operator comes when the day is over, to the end of the simulation. -/
def SmallOffice.wholeRun : List (Act smallOffice) :=
  morning ++ own .director 8 ++ [.deliver clerk [.usr1, .usr2]] ++ own clerk 8 ++
    own .director 91 ++ [.deliver clerk [.usr1, .usr2]] ++ own clerk 9 ++ own .director 55

/-- Both days are simulated to their ends, with nobody pending, and the cause is the timeout. -/
theorem reported_cause_true_small : ∃ s : State smallOffice,
    exec step SmallOffice.wholeRun (State.init smallOffice) = some s ∧
    ∃ pre post cause day st, s.g.hist = pre ++ .finalStatistics cause day st :: post ∧
      dayRecords pre = [⟨0, true⟩, ⟨0, true⟩] ∧ TrueCause smallOffice (dayRecords pre) cause := by
  have hrun : ((exec step SmallOffice.wholeRun (State.init smallOffice)).any fun s =>
      decide (s.g.hist[12]?.bind Event.finalCause = some .timeout ∧
        dayRecords (s.g.hist.take 12) = [⟨0, true⟩, ⟨0, true⟩])) = true := by decide +kernel
  obtain ⟨s, hs, h⟩ := (Option.any_eq_true _ _).mp hrun
  obtain ⟨hfinal, hrecords⟩ := of_decide_eq_true h
  obtain ⟨day, st, post, hhist⟩ := exists_final hfinal
  have hok : Allowed step NotCutShort SmallOffice.wholeRun (State.init smallOffice) := by
    decide +kernel
  exact ⟨s, hs, _, post, _, day, st, hhist, hrecords,
    (reported_cause_true (ReachBy.of_exec _ .refl hs hok)).1 _ post _ day st hhist⟩

/-- `SIGINT` in the sleep of the first day. -/
def SmallOffice.cutShort : List (Act smallOffice) :=
  morning ++ own .director 1 ++ [.interrupt false] ++ signal .director .int ++ own .director 7 ++
    [.deliver clerk [.usr1, .usr2]] ++ own clerk 8 ++ own .director 55

/-- `SIGINT` in the sleep of the second day. -/
def SmallOffice.lastDayCutShort : List (Act smallOffice) :=
  morning ++ own .director 8 ++ [.deliver clerk [.usr1, .usr2]] ++ own clerk 8 ++
    own .director 84 ++ [.interrupt false] ++ signal .director .int ++ own .director 7 ++
    [.deliver clerk [.usr1, .usr2]] ++ own clerk 9 ++ own .director 55

/-- One day of two has been begun, and then the second has been cut short: the cause that is reported
    is the timeout. -/
theorem cut_short_reported_as_timeout :
    (∃ s : State smallOffice,
      exec step SmallOffice.cutShort (State.init smallOffice) = some s ∧
      ∃ pre post day st, s.g.hist = pre ++ .finalStatistics .timeout day st :: post ∧
        dayRecords pre = [⟨0, false⟩] ∧ smallOffice.simDuration = 2 ∧
        ¬ TrueCause smallOffice (dayRecords pre) .timeout) ∧
    ∃ s : State smallOffice,
      exec step SmallOffice.lastDayCutShort (State.init smallOffice) = some s ∧
      ∃ pre post day st, s.g.hist = pre ++ .finalStatistics .timeout day st :: post ∧
        dayRecords pre = [⟨0, true⟩, ⟨0, false⟩] ∧
        ¬ TrueCause smallOffice (dayRecords pre) .timeout := by
  have hfirst : ((exec step SmallOffice.cutShort (State.init smallOffice)).any fun s =>
      decide (s.g.hist[9]?.bind Event.finalCause = some .timeout ∧
        dayRecords (s.g.hist.take 9) = [⟨0, false⟩])) = true := by decide +kernel
  have hsecond : ((exec step SmallOffice.lastDayCutShort (State.init smallOffice)).any fun s =>
      decide (s.g.hist[13]?.bind Event.finalCause = some .timeout ∧
        dayRecords (s.g.hist.take 13) = [⟨0, true⟩, ⟨0, false⟩])) = true := by decide +kernel
  constructor
  · obtain ⟨s, hs, h⟩ := (Option.any_eq_true _ _).mp hfirst
    obtain ⟨hfinal, hrecords⟩ := of_decide_eq_true h
    obtain ⟨day, st, post, hhist⟩ := exists_final hfinal
    refine ⟨s, hs, _, post, day, st, hhist, hrecords, rfl, fun htrue => ?_⟩
    have hlen := (htrue.timeout.mp rfl).1
    rw [hrecords] at hlen
    exact absurd hlen (by decide)
  · obtain ⟨s, hs, h⟩ := (Option.any_eq_true _ _).mp hsecond
    obtain ⟨hfinal, hrecords⟩ := of_decide_eq_true h
    obtain ⟨day, st, post, hhist⟩ := exists_final hfinal
    refine ⟨s, hs, _, post, day, st, hhist, hrecords, fun htrue => ?_⟩
    have hwhole := ((htrue.timeout.mp rfl).2 ⟨0, false⟩ (by rw [hrecords]; decide)).1
    exact Bool.false_ne_true hwhole

end PostOffice
