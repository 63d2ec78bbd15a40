import PostOffice.Capacity
import PostOffice.Cause
import PostOffice.Lib.CInt
import PostOffice.Staff
import PostOffice.Visits

/-! The sizes of the counters. The programs count in `int` and `long`, the model in `ℕ`, so the
    counters have to stay within their types. A start signal leads to one request at most, and all
    that is counted about the services begins with a request:

        requests of one user ≤ CURRENT_DAY ≤ SIM_DURATION
        served, not served ≤ requests ≤ NOF_USERS · SIM_DURATION
        pauses ≤ NOF_WORKERS · NOF_PAUSE -/

namespace PostOffice

open Transition

variable {c : Setup}

/-! ### The figures of the day -/

/-- The figures of a service on the day are part of its totals. -/
structure ServiceStats.Within (x y : ServiceStats) : Prop where
  requests : x.requests ≤ y.requests
  served : x.served ≤ y.served
  notServed : x.notServed ≤ y.notServed

/-- One service changes. -/
theorem ServiceStats.within_update {f g : Service → ServiceStats} (h : ∀ q, (f q).Within (g q))
    {s : Service} {x y : ServiceStats} (hxy : x.Within y) (q : Service) :
    (Function.update f s x q).Within (Function.update g s y q) := by
  by_cases hq : q = s
  · subst hq
    simp only [Function.update_self]
    exact hxy
  · simp only [Function.update_of_ne hq]
    exact h q

namespace SimulationStats

/-- The figures of the day are part of the totals. -/
structure DayWithin (st : SimulationStats) : Prop where
  users : st.dayUsersServed ≤ st.totalUsersServed
  served : st.dayServicesServed ≤ st.totalServicesServed
  notServed : st.dayServicesNotServed ≤ st.totalServicesNotServed
  pauses : st.dayPauseTotal ≤ st.totalPauseTotal
  service : ∀ q, (st.dayByService q).Within (st.totalByService q)

variable {st : SimulationStats}

theorem DayWithin.serve (h : st.DayWithin) (s : Service) (wait : ℚ) (minutes : ℕ) :
    (st.serve s wait minutes).DayWithin :=
  ⟨Nat.succ_le_succ h.users, Nat.succ_le_succ h.served, h.notServed, h.pauses,
    ServiceStats.within_update h.service
      ⟨(h.service s).requests, Nat.succ_le_succ (h.service s).served, (h.service s).notServed⟩⟩

theorem DayWithin.markRequest (h : st.DayWithin) (s : Service) : (st.markRequest s).DayWithin :=
  ⟨h.users, h.served, h.notServed, h.pauses, ServiceStats.within_update h.service
    ⟨Nat.succ_le_succ (h.service s).requests, (h.service s).served, (h.service s).notServed⟩⟩

theorem DayWithin.markNotServed (h : st.DayWithin) (s : Service) :
    (st.markNotServed s).DayWithin :=
  ⟨h.users, h.served, Nat.succ_le_succ h.notServed, h.pauses,
    ServiceStats.within_update h.service
      ⟨(h.service s).requests, (h.service s).served, Nat.succ_le_succ (h.service s).notServed⟩⟩

theorem DayWithin.pause (h : st.DayWithin) : st.pause.DayWithin :=
  ⟨h.users, h.served, h.notServed, Nat.succ_le_succ h.pauses, h.service⟩

theorem DayWithin.resetDay (st : SimulationStats) : st.resetDay.DayWithin :=
  ⟨Nat.zero_le _, Nat.zero_le _, Nat.zero_le _, Nat.zero_le _,
    fun _ => ⟨Nat.zero_le _, Nat.zero_le _, Nat.zero_le _⟩⟩

theorem DayWithin.zero : SimulationStats.zero.DayWithin := DayWithin.resetDay .zero

end SimulationStats

/-- What a step does to the statistics. -/
inductive SimulationStats.Change (st : SimulationStats) : SimulationStats → Prop where
  | same : Change st st
  | resetDay : Change st st.resetDay
  | markRequest (q : Service) : Change st (st.markRequest q)
  | markNotServed (q : Service) : Change st (st.markNotServed q)
  | serve (q : Service) (wait : ℚ) (minutes : ℕ) : Change st (st.serve q wait minutes)
  | pause : Change st st.pause

theorem Director.Move.stats {pc pc' : DirPc c.nofWorkerSeats c.nofWorkers c.nofUsers}
    {v v' : DirVars} {g g' : Shared c} (h : Director.Move pc v g pc' v' g') :
    g.stats.Change g'.stats := by
  cases h with
  | resetStats => exact .resetDay
  | flushStats => exact .markNotServed _
  | _ => exact .same

theorem Dispenser.Move.stats {pc pc' : DispPc c.nofWorkerSeats} {f : DispFlags} {g g' : Shared c}
    (h : Dispenser.Move pc f g pc' g') : g.stats.Change g'.stats := by
  cases h with
  | countStats => exact .markRequest _
  | refuseStats => exact .markNotServed _
  | _ => exact .same

theorem Operator.Move.stats {w : Fin c.nofWorkers} {l l' : Operator c} {g g' : Shared c}
    (h : Operator.Move w l g l' g') : g.stats.Change g'.stats := by
  cases h with
  | count => exact .serve _ _ _
  | pauseStats => exact .pause
  | _ => exact .same

theorem State.Move.stats {s s' : State c} (h : s.Move s') : s.g.stats.Change s'.g.stats := by
  cases h with
  | director hm => exact hm.stats
  | dispenser hm hf => exact hm.stats
  | operator w hstep hm => exact hm.stats
  | user u hm hf =>
    rw [hm.frame]
    exact .same
  | deliver p sigs hp =>
    rw [deliverTo_g]
    exact .same
  | interrupt | tick => exact .same

theorem SimulationStats.DayWithin.change {st st' : SimulationStats} (h : st.DayWithin)
    (hc : st.Change st') : st'.DayWithin := by
  cases hc with
  | same => exact h
  | resetDay => exact .resetDay _
  | markRequest q => exact h.markRequest q
  | markNotServed q => exact h.markNotServed q
  | serve q wait minutes => exact h.serve q wait minutes
  | pause => exact h.pause

theorem dayWithin {s : State c} (h : Reachable s) : s.g.stats.DayWithin :=
  h.invariant (I := fun s => s.g.stats.DayWithin) .zero fun _ _ _ hI hm => hI.change hm.stats

/-! ### The requests -/

/-- A request of user `u`. -/
def Event.isRequestBy {workers users : ℕ} (u : Fin users) : Event workers users → Bool
  | .requested v _ => v = u
  | _ => false

/-- A request. -/
def Event.isRequest {workers users : ℕ} : Event workers users → Bool
  | .requested _ _ => true
  | _ => false

def Message.isTicket : Message → Bool
  | .ticket _ => true
  | _ => false

/-- The dispenser has a request that `mark_request` has not counted. -/
def DispPc.toCount {seats : ℕ} : DispPc seats → Bool
  | .countLock _ _ | .countStats _ _ => true
  | _ => false

namespace Shared

/-- The requests the user has sent. -/
def asked (g : Shared c) (u : Fin c.nofUsers) : ℕ := g.hist.countP (Event.isRequestBy u)

/-- All together. -/
theorem total_asked (g : Shared c) : ∑ u, g.asked u = g.hist.countP Event.isRequest := by
  refine Family.sum_countP (fun e => ?_) g.hist
  cases e with
  | requested v q => simp [Event.isRequestBy, Event.isRequest]
  | _ => simp [Event.isRequestBy, Event.isRequest]

/-- The requests in the message queue. -/
def toDispense (g : Shared c) : ℕ := g.msgs.countP Message.isTicket

theorem toDispense_received {g : Shared c} {mtype : ℤ} {m : Message}
    (hm : g.firstOfType mtype = some m) :
    (g.received mtype).toDispense + (if m.isTicket then 1 else 0) = g.toDispense :=
  Mailbox.countP_eraseP _ hm

end Shared

namespace SimulationStats

/-- The requests counted for all services. -/
def totalRequests (st : SimulationStats) : ℕ := ∑ q, (st.totalByService q).requests

theorem totalRequests_markRequest (st : SimulationStats) (s : Service) :
    (st.markRequest s).totalRequests = st.totalRequests + 1 :=
  Family.sum_update_add (d := 1) ServiceStats.requests (by rfl)

theorem totalRequests_markNotServed (st : SimulationStats) (s : Service) :
    (st.markNotServed s).totalRequests = st.totalRequests :=
  Family.sum_update_add (d := 0) ServiceStats.requests (by rfl)

theorem totalRequests_serve (st : SimulationStats) (s : Service) (wait : ℚ) (minutes : ℕ) :
    (st.serve s wait minutes).totalRequests = st.totalRequests :=
  Family.sum_update_add (d := 0) ServiceStats.requests (by rfl)

end SimulationStats

/-- Nobody but the user sends its requests. -/
theorem Logs.asked_eq {r : c.Proc} {g g' : Shared c} (h : Logs r g g') {u : Fin c.nofUsers}
    (hr : r ≠ .user u) : g'.asked u = g.asked u := by
  refine h.countP_eq fun e he => ?_
  cases e with
  | requested v q => exact decide_eq_false fun hv => hr (he ▸ congrArg Proc.user hv)
  | _ => rfl

theorem Logs.isRequest_eq {r : c.Proc} {g g' : Shared c} (h : Logs r g g')
    (hr : ∀ u, r ≠ .user u) : g'.hist.countP Event.isRequest = g.hist.countP Event.isRequest := by
  refine h.countP_eq fun e he => ?_
  cases e with
  | requested v q => exact absurd he.symm (hr v)
  | _ => rfl

section Moves

variable {g g' : Shared c}

/-- A start becomes a request or nothing. -/
theorem User.step_asked {u : Fin c.nofUsers} {l l' : User} {n : ℕ}
    (h : User.step u l g n = some (l', g')) (hl : l.Headed) :
    l'.starts + g'.asked u ≤ l.starts + g.asked u := by
  obtain ⟨-, hstarts, hvars, -⟩ := step_visit h hl
  have hm := (step_move h).1
  generalize hpc : l.pc = pc at hm hvars
  generalize hpc' : l'.pc = pc' at hm
  generalize l.vars = f at hm
  cases hm with
  | request hroom =>
    have hsent : l'.starts + 1 = l.starts := by
      simp [starts, Noticed, hpc, hpc', hvars rfl, UserPc.visiting, UserPc.touring]
    simp [Shared.asked, List.countP_append, Event.isRequestBy]
    omega
  | init | «begin» => simpa [Shared.asked, List.countP_append, Event.isRequestBy] using hstarts
  | _ => exact Nat.add_le_add_right hstarts _

/-- A message for the dispenser is a request that its user has sent. -/
theorem User.Move.toDispense {u : Fin c.nofUsers} {pc pc' : UserPc} {f : UserFlags}
    (h : User.Move u pc f g pc' g') :
    g'.toDispense + g.hist.countP Event.isRequest ≤
      g.toDispense + g'.hist.countP Event.isRequest := by
  cases h with
  | init | request | «begin» =>
    simp [Shared.toDispense, List.countP_append, Message.isTicket, Event.isRequest]
    try omega
  | receive hm =>
    have := Shared.toDispense_received hm
    show _ + g.hist.countP Event.isRequest ≤ _ + g.hist.countP Event.isRequest
    omega
  | _ => exact le_rfl

/-- The dispenser counts what it takes off the message queue. -/
theorem Dispenser.Move.toDispense {pc pc' : DispPc c.nofWorkerSeats} {f : DispFlags}
    (h : Dispenser.Move pc f g pc' g') :
    g'.stats.totalRequests + g'.toDispense + ind (pc'.toCount = true) ≤
      g.stats.totalRequests + g.toDispense + ind (pc.toCount = true) := by
  cases h with
  | receive hm hs | receiveInvalid hm hs =>
    have := Shared.toDispense_received hm
    simp only [Message.isTicket, if_true, Shared.received_stats, DispPc.toCount, ind,
      Bool.false_eq_true, if_false] at this ⊢
    omega
  | countStats =>
    rw [Shared.setStats_stats, SimulationStats.totalRequests_markRequest]
    show g.stats.totalRequests + 1 + g.toDispense + 0 ≤ g.stats.totalRequests + g.toDispense + 1
    omega
  | refuseStats =>
    rw [Shared.setStats_stats, SimulationStats.totalRequests_markNotServed]
    exact le_rfl
  | init | invalidReply | refuseReply =>
    simp [Shared.toDispense, List.countP_append, Message.isTicket, DispPc.toCount]
  | _ => exact le_rfl

/-- The director counts no request and takes none. -/
theorem Director.Move.toDispense {pc pc' : DirPc c.nofWorkerSeats c.nofWorkers c.nofUsers}
    {v v' : DirVars} (h : Director.Move pc v g pc' v' g') :
    g'.stats.totalRequests + g'.toDispense ≤ g.stats.totalRequests + g.toDispense := by
  cases h with
  | initOther hm | initMore hm | initLast hm | dayEndOther hm | dayEndMore hm | dayEndLast hm =>
    exact Nat.add_le_add_left (Nat.le.intro (Shared.toDispense_received hm)) _
  | flushReply => simp [Shared.toDispense, List.countP_append, Message.isTicket]
  | flushStats =>
    rw [Shared.setStats_stats, SimulationStats.totalRequests_markNotServed]
    exact le_rfl
  | _ => exact le_rfl

/-- Nor does an operator. -/
theorem Operator.Move.toDispense {w : Fin c.nofWorkers} {l l' : Operator c}
    (h : Operator.Move w l g l' g') :
    g'.stats.totalRequests + g'.toDispense = g.stats.totalRequests + g.toDispense := by
  cases h with
  | init | reply | finish => simp [Shared.toDispense, List.countP_append, Message.isTicket]
  | count =>
    rw [Shared.log_stats, Shared.setStats_stats, SimulationStats.totalRequests_serve]
    rfl
  | _ => rfl

end Moves

namespace State

/-- Every request counted was sent, and no user sends more requests than days have begun. -/
structure Asked (s : State c) : Prop where
  counted : s.g.stats.totalRequests + s.g.toDispense + ind (s.dispenser.pc.toCount = true) ≤
    s.g.hist.countP Event.isRequest
  user : ∀ u, ind (s.director.pc.preUser u = true) + ind (s.g.pending (.user u) .usr1 = true) +
    (s.users u).starts + s.g.asked u ≤ s.g.currentDay

variable {s s' : State c}

theorem Asked.director (hr : Reachable s) (hI : s.Asked) {l' : Director c} {g' : Shared c}
    (hm : Director.Move s.director.pc s.director.vars s.g l'.pc l'.vars g') :
    (s.setDirector (l', g')).Asked := by
  refine ⟨?_, fun u => ?_⟩
  · have hold := hI.counted
    have := hm.toDispense
    rw [← hm.logs.isRequest_eq (by simp)] at hold
    simp only [setDirector_g, setDirector_dispenser]
    omega
  · have hold := hI.user u
    have hasked := hm.logs.asked_eq (u := u) (by simp)
    simp only [setDirector_director, setDirector_g, setDirector_users, hasked]
    by_cases hpc : s.director.pc = .setDay
    · -- The new day is one more, and its start signal to come.
      have hday := (barrier hr).day (by rw [hpc]; rfl)
      rw [hpc] at hm hday
      rcases hm.ofSetDay with ⟨hpc', hg⟩ | hg
      · rw [hpc', hg, ← hpc]
        exact hold
      · rw [hg]
        dsimp only
        have hone := ind_le_one (l'.pc.preUser u = true)
        have hbetween : ind ((DirPc.setDay : DirPc c.nofWorkerSeats c.nofWorkers
          c.nofUsers).betweenDays = true) = 1 := rfl
        omega
    · have hstart := hm.userStart hpc u
      have hcur : g'.currentDay = s.g.currentDay := hm.currentDay.resolve_right fun h => hpc h.1
      omega

theorem Asked.deliver (hI : s.Asked) {p : c.Proc} {sigs : List Signal}
    (hp : ∀ sig ∈ sigs, s.g.pending p sig = true) : (s.deliverTo sigs p).Asked := by
  refine ⟨?_, fun u => ?_⟩
  · rw [deliverTo_g, deliverTo_dispenser_pc]
    exact hI.counted
  · have hold := hI.user u
    rw [deliverTo_director_pc, deliverTo_users, deliverTo_g]
    by_cases hpu : p = .user u
    · subst hpu
      have hstarts := User.starts_deliver (s.users u) sigs
      have hpend : ind ((s.g.delivered (.user u) sigs).pending (.user u) .usr1 = true) +
          ind (Signal.usr1 ∈ sigs) ≤ ind (s.g.pending (.user u) .usr1 = true) := by
        by_cases hu : Signal.usr1 ∈ sigs
        · simp [hu, hp .usr1 hu]
        · simp [hu]
      rw [if_pos rfl]
      show _ + _ + _ + s.g.asked u ≤ s.g.currentDay
      omega
    · have hpend : (s.g.delivered p sigs).pending (.user u) .usr1 = s.g.pending (.user u) .usr1 := by
        simp [Ne.symm hpu]
      rw [if_neg hpu, hpend]
      exact hold

theorem Asked.step {a : Act c} (hr : Reachable s) (hI : s.Asked) (h : s.StepOf a s') :
    s'.Asked := by
  cases h with
  | director hstep => exact hI.director hr (Director.step_move hstep)
  | @dispenser n l' g' hstep =>
    have hm := (Dispenser.step_move hstep).1
    refine ⟨?_, fun u => ?_⟩
    · have hold := hI.counted
      have := hm.toDispense
      rw [← hm.logs.isRequest_eq (by simp)] at hold
      simp only [setDispenser_g, setDispenser_dispenser]
      omega
    · have hold := hI.user u
      have hasked := hm.logs.asked_eq (u := u) (by simp)
      have hpend : g'.pending = s.g.pending := by rw [hm.frame]
      have hcur : g'.currentDay = s.g.currentDay := by rw [hm.frame]
      simp only [setDispenser_director, setDispenser_g, setDispenser_users, hasked, hpend, hcur]
      exact hold
  | @operator n l' g' w hstep =>
    have hm := Operator.step_move hstep
    refine ⟨?_, fun u => ?_⟩
    · have hold := hI.counted
      have := hm.toDispense
      rw [← hm.logs.isRequest_eq (by simp)] at hold
      simp only [setOperator_g, setOperator_dispenser]
      omega
    · have hold := hI.user u
      have hasked := hm.logs.asked_eq (u := u) (by simp)
      have hpend : g'.pending = s.g.pending := by rw [hm.frame]
      have hcur : g'.currentDay = s.g.currentDay := by rw [hm.frame]
      simp only [setOperator_director, setOperator_g, setOperator_users, hasked, hpend, hcur]
      exact hold
  | @user n l' g' v hstep =>
    have hm := (User.step_move hstep).1
    have hpend : g'.pending = s.g.pending := by rw [hm.frame]
    have hcur : g'.currentDay = s.g.currentDay := by rw [hm.frame]
    have hstats : g'.stats = s.g.stats := by rw [hm.frame]
    refine ⟨?_, fun u => ?_⟩
    · have hold := hI.counted
      have := hm.toDispense
      simp only [setUser_g, setUser_dispenser, hstats]
      omega
    · have hold := hI.user u
      simp only [setUser_director, setUser_g, setUser_users, hpend, hcur]
      by_cases hu : u = v
      · subst hu
        have := User.step_asked hstep (headed_home hr u).1
        rw [Function.update_self]
        omega
      · have hasked := hm.logs.asked_eq (u := u) (by simpa using Ne.symm hu)
        rw [Function.update_of_ne hu, hasked]
        exact hold
  | deliver p sigs hp => exact hI.deliver hp
  | interrupt term =>
    refine ⟨hI.counted, fun u => ?_⟩
    have hpend : (s.g.kill .director (if term then .term else .int)).pending (.user u) .usr1 =
        s.g.pending (.user u) .usr1 := by simp
    simp only [setG_director, setG_g, setG_users, hpend]
    exact hI.user u
  | tick ns => exact ⟨hI.counted, hI.user⟩

theorem Asked.init : (State.init c).Asked :=
  ⟨by simp [State.init, Shared.init, SimulationStats.totalRequests, SimulationStats.zero,
    ServiceStats.zero, Shared.toDispense, DispPc.toCount],
    fun u => by simp [State.init, Shared.init, DirPc.preUser, User.starts, User.Noticed,
      UserPc.visiting, UserPc.touring, Shared.asked]⟩

end State

theorem asked {s : State c} (h : Reachable s) : s.Asked :=
  ReachableBy.induct .init (fun _ _ _ hr hI _ hs => hI.step hr hs) h

/-- The requests counted are at most one a day for each user. -/
theorem totalRequests_le {s : State c} (h : Reachable s) :
    s.g.stats.totalRequests ≤ c.nofUsers * s.g.currentDay := by
  have hasked : ∑ u, s.g.asked u ≤ ∑ _u : Fin c.nofUsers, s.g.currentDay :=
    Finset.sum_le_sum fun u _ => (Nat.le_add_left _ _).trans ((asked h).user u)
  rw [Finset.sum_const_nat fun _ _ => rfl, Finset.card_univ, Fintype.card_fin,
    s.g.total_asked] at hasked
  exact ((Nat.le_add_right _ _).trans (Nat.le_add_right _ _)).trans
    ((asked h).counted.trans hasked)

/-! ### The director's counters -/

/-- The director's counters are bounded by the parameters. -/
structure DirVars.Small (c : Setup) (pc : DirPc c.nofWorkerSeats c.nofWorkers c.nofUsers)
    (v : DirVars) (currentDay : ℕ) : Prop where
  day : v.day ≤ c.simDuration + ind (pc.pastBody = true)
  currentDay : currentDay ≤ c.simDuration
  received : v.received ≤ c.nofWorkers + c.nofUsers + 1
  counters : ∀ q, v.countersPerService q ≤ c.nofWorkerSeats
  pendingTotal : v.pendingTotal ≤ c.goers
  activeToday : v.activeToday ≤ c.nofWorkers
  activeTotal : v.activeTotal ≤ c.nofWorkers

theorem Shared.offering_le (g : Shared c) (q : Service) (n : ℕ) :
    g.offering q n ≤ c.nofWorkerSeats := by
  refine (Family.total_le_card _ _ ?_).trans_eq (Fintype.card_fin _)
  intro i
  exact ind_le_one _

theorem card_workers_le (p : Fin c.nofWorkers → Prop) [DecidablePred p] :
    (Finset.univ.filter p).card ≤ c.nofWorkers :=
  (Finset.card_filter_le _ _).trans_eq (Finset.card_fin _)

/-- What the counters of one step were counted from bounds them. -/
theorem Director.Move.small {pc pc' : DirPc c.nofWorkerSeats c.nofWorkers c.nofUsers}
    {v v' : DirVars} {g g' : Shared c} (h : Director.Move pc v g pc' v' g')
    (hI : v.Small c pc g.currentDay)
    (hinit : pc = .waitInit → v.received < c.nofWorkers + c.nofUsers + 1)
    (hend : pc = .waitDayEnd → v.received < c.nofWorkers)
    (hwritten : ∀ n, pc'.written = some n → ∀ q, v'.countersPerService q ≤ c.nofWorkerSeats)
    (hflush : pc'.flushing = true → v'.pendingTotal ≤ c.goers)
    (hactive : pc' = .printLock → v'.activeToday ≤ c.nofWorkers ∧ v'.activeTotal ≤ c.nofWorkers) :
    v'.Small c pc' g'.currentDay := by
  obtain ⟨hday, hcur, hreceived, hcounters, htotal, htoday, hever⟩ := hI
  cases h with
  | initMore hm hk hr => exact ⟨hday, hcur, hr.le, hcounters, htotal, htoday, hever⟩
  | initLast hm hv hr =>
    have := hinit rfl
    subst hv
    refine ⟨hday, hcur, ?_, hcounters, htotal, htoday, hever⟩
    dsimp only
    split <;> omega
  | dayEndMore hm hk hr =>
    exact ⟨hday, hcur, by dsimp only; omega, hcounters, htotal, htoday, hever⟩
  | dayEndLast hm hv hr =>
    have := hend rfl
    subst hv
    refine ⟨hday, hcur, ?_, hcounters, htotal, htoday, hever⟩
    dsimp only
    split <;> omega
  | dayNext hd hs => exact ⟨hd, hcur, hreceived, hcounters, htotal, htoday, hever⟩
  | setDay => exact ⟨hday, hday, hreceived, hcounters, htotal, htoday, hever⟩
  | assignInit | assignWrite =>
    exact ⟨hday, hcur, hreceived, hwritten _ rfl, htotal, htoday, hever⟩
  | dayEndInit => exact ⟨hday, hcur, Nat.zero_le _, hcounters, htotal, htoday, hever⟩
  | flushInit | flushTake => exact ⟨hday, hcur, hreceived, hcounters, hflush rfl, htoday, hever⟩
  | printActive =>
    exact ⟨hday, hcur, hreceived, hcounters, htotal, (hactive rfl).1, (hactive rfl).2⟩
  | dayBreak =>
    exact ⟨hday.trans (Nat.le_succ _), hcur, hreceived, hcounters, htotal, htoday, hever⟩
  | dayEnd => exact ⟨Nat.succ_le_succ hday, hcur, hreceived, hcounters, htotal, htoday, hever⟩
  | _ => exact ⟨hday, hcur, hreceived, hcounters, htotal, htoday, hever⟩

namespace State

/-- `flush_pending_users` counts no more than `count_pending_users`. -/
theorem pendingTotal_le_goers {s : State c} (h : Reachable s)
    (hf : s.director.pc.flushing = true) : s.director.vars.pendingTotal ≤ c.goers := by
  have htally : s.director.pc.tallying = true := by
    generalize s.director.pc = pc at hf
    cases pc <;> simp [DirPc.flushing] at hf <;> rfl
  have htotal := (tally h).total htally
  have hgoers := (fewPending h).total
  rw [flushCount, if_pos hf] at htotal
  omega

/-- The counters of the director are small. -/
def SmallCounters (s : State c) : Prop :=
  s.director.vars.Small c s.director.pc s.g.currentDay

variable {s s' : State c}

theorem SmallCounters.step (hr : Reachable s) (hr' : Reachable s') (hI : s.SmallCounters)
    (h : s.Move s') : s'.SmallCounters := by
  cases h with
  | @director l' g' hm =>
    refine hm.small hI (announced hr).received (barrier hr).received (fun n hn q => ?_)
      (fun hf => ?_) fun hpc => ?_
    · have hoffering := ((seating hr').written n hn).1 q
      exact hoffering.trans_le (g'.offering_le q n)
    · exact pendingTotal_le_goers hr' hf
    · obtain ⟨htoday, hever⟩ := (staff hr').read (by rw [setDirector_director, hpc]; rfl)
      exact ⟨htoday.trans_le (card_workers_le _), hever.trans_le (card_workers_le _)⟩
  | dispenser hm hf =>
    rw [hm.frame]
    exact hI
  | operator w hstep hm =>
    rw [hm.frame]
    exact hI
  | user u hm hf =>
    rw [hm.frame]
    exact hI
  | deliver p sigs hp =>
    obtain ⟨b, hb⟩ := s.deliverTo_director_vars sigs p
    unfold SmallCounters
    rw [hb, deliverTo_g, deliverTo_director_pc]
    exact ⟨hI.day, hI.currentDay, hI.received, hI.counters, hI.pendingTotal, hI.activeToday,
      hI.activeTotal⟩
  | interrupt sig hsig => exact hI
  | tick ns => exact hI

theorem SmallCounters.init : (State.init c).SmallCounters :=
  ⟨Nat.le_add_left _ _, Nat.zero_le _, Nat.zero_le _, fun _ => Nat.zero_le _, Nat.zero_le _,
    Nat.zero_le _, Nat.zero_le _⟩

end State

theorem smallCounters {s : State c} (h : Reachable s) : s.SmallCounters :=
  ReachBy.invariant .init (fun _ _ _ hr hI _ hs =>
    hI.step hr (hr.tail trivial hs) (step_moveBy hs fun _ _ _ => trivial)) h

/-! ### The types -/

/-- The `long` fields. -/
def ServiceStats.longs (x : ServiceStats) : List ℕ := [x.requests, x.served, x.notServed]

/-- The `long` fields, those of the services included. -/
def SimulationStats.longs (st : SimulationStats) : List ℕ :=
  [st.dayUsersServed, st.dayServicesServed, st.dayServicesNotServed, st.totalUsersServed,
    st.totalServicesServed, st.totalServicesNotServed, st.dayPauseTotal, st.totalPauseTotal] ++
  (List.finRange serviceCount).flatMap fun q =>
    (st.dayByService q).longs ++ (st.totalByService q).longs

/-- The `int` counters among the director's variables. -/
def DirVars.ints (v : DirVars) : List ℕ :=
  [v.day, v.received, v.total, v.pendingBeforeFlush, v.pendingTotal, v.activeToday,
    v.activeTotal] ++ (List.finRange serviceCount).map v.countersPerService

/-- Every `long` is at most the number of requests or of pauses. -/
theorem longs_le {s : State c} (h : Reachable s) {n : ℕ} (hn : n ∈ s.g.stats.longs) :
    n ≤ s.g.stats.totalRequests ∨ n ≤ s.g.stats.totalPauseTotal := by
  have hT := totals h
  obtain ⟨husers, hserved, hnotServed, hpauses, hservice⟩ := dayWithin h
  have hle (q) : (s.g.stats.totalByService q).served + (s.g.stats.totalByService q).notServed ≤
      (s.g.stats.totalByService q).requests := (Nat.le_add_right _ _).trans_eq (hT.account q).symm
  have hsum : s.g.stats.totalServicesServed + s.g.stats.totalServicesNotServed ≤
      s.g.stats.totalRequests := by
    rw [hT.balanced.served, hT.balanced.notServed, Family.total, Family.total,
      ← Finset.sum_add_distrib]
    exact Finset.sum_le_sum fun q _ => hle q
  have hone (q) : (s.g.stats.totalByService q).requests ≤ s.g.stats.totalRequests :=
    Finset.single_le_sum (f := fun q => (s.g.stats.totalByService q).requests)
      (fun _ _ => Nat.zero_le _) (Finset.mem_univ q)
  have hboth := hT.balanced.users
  rcases List.mem_append.mp hn with hn | hn
  · simp only [List.mem_cons, List.not_mem_nil, or_false] at hn
    omega
  · obtain ⟨q, -, hq⟩ := List.mem_flatMap.mp hn
    obtain ⟨hreq, hsrv, hnot⟩ := hservice q
    have := hle q
    have := hone q
    simp only [ServiceStats.longs, List.mem_append, List.mem_cons, List.not_mem_nil,
      or_false] at hq
    omega

/-- No operator pauses more often than `NOF_PAUSE` allows. -/
theorem totalPauseTotal_le {s : State c} (h : Reachable s) :
    (s.g.stats.totalPauseTotal : ℤ) ≤ c.nofWorkers * max 0 c.nofPause := by
  have htotal := (pauses h).total
  have htaken : ∑ w, (s.g.workers w).pausesTaken ≤ ∑ _w : Fin c.nofWorkers, c.nofPause.toNat := by
    refine Finset.sum_le_sum fun w _ => ?_
    have := ((pauses h).kept w).bound
    omega
  rw [Finset.sum_const_nat fun _ _ => rfl, Finset.card_univ, Fintype.card_fin] at htaken
  have hle : s.g.stats.totalPauseTotal ≤ c.nofWorkers * c.nofPause.toNat :=
    ((Nat.le_add_right _ _).trans_eq htotal).trans htaken
  calc (s.g.stats.totalPauseTotal : ℤ) ≤ ((c.nofWorkers * c.nofPause.toNat : ℕ) : ℤ) := by
        exact_mod_cast hle
    _ = c.nofWorkers * max 0 c.nofPause := by
        rw [Nat.cast_mul, Int.toNat_eq_max, max_comm]

/-- CORRECT: no counter overflows. When the parameters, `NOF_WORKERS + NOF_USERS + 1` and
    `SIM_DURATION + 1` are values of `int`, then in every reachable state every `long` of the
    statistics is one, and every `int` counter of the director and of the operators is one. -/
theorem counters_never_overflow {s : State c} (h : Reachable s)
    (hseats : CInt.InRange 32 c.nofWorkerSeats)
    (hchildren : CInt.InRange 32 (c.nofWorkers + c.nofUsers + 1 : ℕ))
    (hpause : CInt.InRange 32 c.nofPause) (hdays : CInt.InRange 32 (c.simDuration + 1 : ℕ)) :
    (∀ n ∈ s.g.stats.longs, CInt.InRange 64 n) ∧
    (∀ n ∈ s.g.currentDay :: s.director.vars.ints, CInt.InRange 32 n) ∧
    ∀ w, CInt.InRange 32 (s.g.workers w).pausesTaken ∧
      CInt.InRange 32 (s.g.workers w).pausesToday := by
  obtain ⟨hday, hcur, hreceived, hcounters, htotal, htoday, hever⟩ := smallCounters h
  have hP := fewPending h
  have hgoers := c.goers_le
  have hint {n : ℕ} (hn : n ≤ c.nofWorkers + c.nofUsers + 1) : CInt.InRange 32 n :=
    hchildren.of_le (Int.natCast_nonneg _) (by exact_mod_cast hn)
  have hdayInt {n : ℕ} (hn : n ≤ c.simDuration + 1) : CInt.InRange 32 n :=
    hdays.of_le (Int.natCast_nonneg _) (by exact_mod_cast hn)
  refine ⟨fun n hn => ?_, fun n hn => ?_, fun w => ?_⟩
  · rcases longs_le h hn with hle | hle
    · have hfit := (hint (n := c.nofUsers) (by omega)).mul (hdayInt (Nat.le_succ c.simDuration))
        (Int.natCast_nonneg _) (Int.natCast_nonneg _)
      refine hfit.of_le (Int.natCast_nonneg _) ?_
      exact_mod_cast (hle.trans (totalRequests_le h)).trans (Nat.mul_le_mul_left _ hcur)
    · have hpos : CInt.InRange 32 (max 0 c.nofPause) := by
        rcases max_choice 0 c.nofPause with hmax | hmax <;> rw [hmax]
        · exact CInt.inRange_zero
        · exact hpause
      have hfit := (hint (n := c.nofWorkers) (by omega)).mul hpos (Int.natCast_nonneg _)
        (le_max_left _ _)
      exact hfit.of_le (Int.natCast_nonneg _)
        ((Int.ofNat_le.mpr hle).trans (totalPauseTotal_le h))
  · have hone := ind_le_one (s.director.pc.pastBody = true)
    rcases List.mem_cons.mp hn with rfl | hn
    · exact hdayInt (by omega)
    rcases List.mem_append.mp hn with hn | hn
    · simp only [List.mem_cons, List.not_mem_nil, or_false] at hn
      rcases hn with rfl | hn
      · exact hdayInt (by omega)
      · have := hP.total
        have := hP.pendingBeforeFlush
        exact hint (by omega)
    · obtain ⟨q, -, rfl⟩ := List.mem_map.mp hn
      exact hseats.of_le (Int.natCast_nonneg _) (Int.ofNat_le.mpr (hcounters q))
  · have hkept := (pauses h).kept w
    refine ⟨?_, hint (by have := hkept.le_one; omega)⟩
    rcases max_choice 0 c.nofPause with hmax | hmax <;> have hbound := hkept.bound <;>
      rw [hmax] at hbound
    · exact CInt.inRange_zero.of_le (Int.natCast_nonneg _) hbound
    · exact hpause.of_le (Int.natCast_nonneg _) hbound

/-- In the small office one request has been counted when the first day closes, and all the sizes
    are those of the types. -/
theorem counters_never_overflow_small : ∃ s : State smallOffice,
    exec step SmallOffice.closing (State.init smallOffice) = some s ∧
    s.g.stats.totalRequests = 1 ∧ ∀ n ∈ s.g.stats.longs, CInt.InRange 64 n := by
  have hrun : ((exec step SmallOffice.closing (State.init smallOffice)).any fun s =>
      decide (s.g.stats.totalRequests = 1)) = true := by decide +kernel
  obtain ⟨s, hs, h⟩ := (Option.any_eq_true _ _).mp hrun
  exact ⟨s, hs, of_decide_eq_true h, (counters_never_overflow (reach_of_exec _ hs) (by decide)
    (by decide) (by decide) (by decide)).1⟩

end PostOffice
