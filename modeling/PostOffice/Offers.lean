import PostOffice.Lib.Potential
import PostOffice.Termination

/-! Which services get tickets. `service_is_offered_today` reads the counters before the queue is
    locked, and under the lock only `DAY_ACTIVE` is read again:

        offered… ─▶ queueLock ─▶ queueActive ─▶ … ─▶ push        checked: an offer was seen
             │           ▲
             │           └─ assign_daily_counters of the next day
             └─▶ refuse…                                          refusing: NOT_SERVED follows

    The offer still holds at the push unless counters are written in between. -/

namespace PostOffice

open Transition

/-- The service that the scan of the counters has found offered. -/
def DispPc.checked {seats : ℕ} : DispPc seats → Option Service
  | .queueLock _ s | .queueActive _ s | .queueFull _ s | .stamp _ s | .push _ s _ => some s
  | _ => none

/-- About to write a counter in `assign_daily_counters`. -/
def DirPc.writing {seats workers users : ℕ} : DirPc seats workers users → Bool
  | .assignWrite _ => true
  | _ => false

variable {c : Setup}

/-! ### The moves -/

/-- Sitting down and standing up leave the services of the counters alone. -/
theorem Operator.Move.services {w : Fin c.nofWorkers} {l l' : Operator c} {g g' : Shared c}
    (h : Operator.Move w l g l' g') (i : Fin c.nofWorkerSeats) :
    (g'.counters i).service = (g.counters i).service := by
  cases h with
  | sit hf k | stand hf k => exact Family.update_of_eq Counter.service (by rfl) i
  | _ => rfl

/-- The director gives the counters their services in `assign_daily_counters`. -/
theorem Director.Move.services {pc pc' : DirPc c.nofWorkerSeats c.nofWorkers c.nofUsers}
    {v v' : DirVars} {g g' : Shared c} (h : Director.Move pc v g pc' v' g')
    (hpc : pc.writing = false) : g'.counters = g.counters := by
  cases h with
  | assignWrite => exact Bool.noConfusion hpc
  | _ => rfl

/-- Signals to the dispenser come from `stop_children` only. -/
theorem Director.Move.pending_dispenser {pc pc' : DirPc c.nofWorkerSeats c.nofWorkers c.nofUsers}
    {v v' : DirVars} {g g' : Shared c} (h : Director.Move pc v g pc' v' g') :
    g'.pending .dispenser = g.pending .dispenser ∨ pc'.stopping = true := by
  cases h
  case startWorkersNext | startWorkersLast | startUsersNext | startUsersLast | stopWorkersNext
      | stopWorkersLast | stopUsersNext | stopUsersLast =>
    exact .inl (funext fun sig => by simp)
  all_goals first | exact .inl rfl | exact .inr rfl

theorem Director.Move.not_stopping {pc pc' : DirPc c.nofWorkerSeats c.nofWorkers c.nofUsers}
    {v v' : DirVars} {g g' : Shared c} (h : Director.Move pc v g pc' v' g')
    (hs : pc'.stopping = false) : pc.stopping = false :=
  Bool.eq_false_iff.mpr fun ht => Bool.false_ne_true (hs.symm.trans (h.stopping ht))

namespace Dispenser

variable {pc pc' : DispPc c.nofWorkerSeats} {f : DispFlags} {g g' : Shared c}

/-- An offer comes from a counter just read. -/
theorem Move.checked (h : Move pc f g pc' g') {q : Service} (hq : pc'.checked = some q) :
    pc.checked = some q ∨ ∃ i, (g.counters i).service = some q := by
  cases h with
  | stay => exact .inl hq
  | offeredYes hi => exact .inr ⟨_, hi.trans hq⟩
  | queueLock | queueOpen | queueRoom | stamp => exact .inl hq
  | _ => cases hq

/-- The negative reply to the request. -/
def refusal (g : Shared c) (m : TicketMessage) (q : Service) : Shared c :=
  (g.send (.userReply
    { mtype := userReplyBase + m.userPid, status := .notServed, service := q })).log
      (.replied .dispenser m.userPid .notServed q)

/-- On the way to the negative reply to this request: refused, or at the scan with no offer among the
    counters that are left. -/
inductive Refusing (g : Shared c) (m : TicketMessage) (q : Service) :
    DispPc c.nofWorkerSeats → Prop where
  | scan {i : Fin c.nofWorkerSeats}
      (h : ∀ j : Fin c.nofWorkerSeats, (i : ℕ) ≤ j → (g.counters j).service ≠ some q) :
      Refusing g m q (.offered m q i)
  | reject : Refusing g m q (.rejectUnlock m q)
  | lock : Refusing g m q (.refuseLock m q)
  | stats : Refusing g m q (.refuseStats m q)
  | unlock : Refusing g m q (.refuseUnlock m q)
  | reply : Refusing g m q (.refuseReply m q)

end Dispenser

namespace DispPc

variable {seats : ℕ}

/-- How many steps it is at most to the push or to the reply. -/
def toAnswer : DispPc seats → ℕ
  | .countLock _ _ => seats + 13
  | .countStats _ _ => seats + 12
  | .countUnlock _ _ => seats + 11
  | .testActive _ _ => seats + 10
  | .offered _ _ i => seats - i + 9
  | .queueLock _ _ => 9
  | .queueActive _ _ => 8
  | .queueFull _ _ => 7
  | .stamp _ _ => 6
  | .push _ _ _ => 5
  | .rejectUnlock _ _ => 4
  | .refuseLock _ _ => 3
  | .refuseStats _ _ => 2
  | .refuseUnlock _ _ => 1
  | _ => 0

/-- Behind the lock of `mark_not_served`. -/
def marking : DispPc seats → Bool
  | .refuseStats _ _ | .refuseUnlock _ _ | .refuseReply _ _ => true
  | _ => false

end DispPc

namespace Dispenser

variable {l l' : Dispenser c} {g g' : Shared c} {m : TicketMessage} {q : Service}

theorem scan_hand {k : ℕ} :
    (forLoop c.nofWorkerSeats k (DispPc.offered m q) (.refuseLock m q)).hand = some (m, some q) := by
  unfold forLoop
  split <;> rfl

theorem scan_toAnswer (m : TicketMessage) (q : Service) (k : ℕ) :
    (forLoop c.nofWorkerSeats k (DispPc.offered m q) (.refuseLock m q)).toAnswer ≤
      c.nofWorkerSeats - k + 9 := by
  unfold forLoop
  split
  · exact le_rfl
  · exact Nat.le_add_left_of_le (by simp [DispPc.toAnswer])

theorem Refusing.scanFrom {k : ℕ}
    (h : ∀ j : Fin c.nofWorkerSeats, k ≤ j → (g.counters j).service ≠ some q) :
    Refusing g m q (forLoop c.nofWorkerSeats k (DispPc.offered m q) (.refuseLock m q)) := by
  unfold forLoop
  split
  · exact .scan h
  · exact .lock

theorem Refusing.hand {pc : DispPc c.nofWorkerSeats} (h : Refusing g m q pc) :
    pc.hand = some (m, some q) := by
  cases h <;> rfl

/-- What an own step of the dispenser does with the request in its hands: it brings the answer
    nearer, pushes the ticket, sends the negative reply, or falls asleep in the lock of a mutex or
    for want of room in the message queue. A request on its way to the negative reply stays on it. -/
inductive Handles (m : TicketMessage) (q : Service) (l : Dispenser c) (g : Shared c)
    (l' : Dispenser c) (g' : Shared c) : Prop where
  | nearer (hhand : l'.pc.hand = some (m, some q)) (hlt : l'.pc.toAnswer < l.pc.toAnswer)
      (hrefuse : Refusing g m q l.pc → Refusing g' m q l'.pc)
  | pushed {t : QueueTicket} (hpc : l.pc = .push m q t) (hpc' : l'.pc = .pushUnlock q)
      (hhist : g'.hist = g.hist ++ [.pushed q t g.currentDay])
  | refused (hpc : l.pc = .refuseReply m q) (hpc' : l'.pc = .mainTest) (hg : g' = refusal g m q)
  | asleep (hm : l.mode = .running) (hl : l' = l.sleep) (hg : g' = g)

theorem semOpRetry_awake {σ : Sem c.nofWorkerSeats} {next : DispPc c.nofWorkerSeats}
    (h : semOpRetry l g σ next = some (l', g')) (hm : l.mode ≠ .eintr) (hx : l.exited = false) :
    (l' = l.goto next ∧ g' = g.down σ) ∨ (l.mode = .running ∧ l' = l.sleep ∧ g' = g) := by
  simp only [semOpRetry, if_neg hm, Task.semWait] at h
  repeat' split at h
  all_goals cases h
  · exact .inl ⟨rfl, rfl⟩
  · exact .inr ⟨Task.mode_eq_running hx hm ‹_›, rfl, rfl⟩

theorem sendUserReply_awake {userPid : ℤ} {status : UserReplyStatus} {s : Service}
    {next : DispPc c.nofWorkerSeats} (h : sendUserReply l g userPid status s next = some (l', g'))
    (hm : l.mode ≠ .eintr) (hx : l.exited = false) :
    (l' = l.goto next ∧
      g' = (g.send (.userReply
        { mtype := userReplyBase + userPid, status := status, service := s })).log
          (.replied .dispenser userPid status s)) ∨
    (l.mode = .running ∧ l' = l.sleep ∧ g' = g) := by
  simp only [sendUserReply, if_neg hm, Task.msgSend] at h
  repeat' split at h
  all_goals cases h
  · exact .inl ⟨rfl, rfl⟩
  · exact .inr ⟨Task.mode_eq_running hx hm ‹_›, rfl, rfl⟩

/-- Awake, the dispenser handles the request in each of its steps. -/
theorem step_handles (h : step l g = some (l', g')) (hm : l.mode ≠ .eintr)
    (hhand : l.pc.hand = some (m, some q)) : Handles m q l g l' g' := by
  unfold step at h
  split at h
  · cases h
  rename_i hx
  rw [Bool.not_eq_true] at hx
  unfold body at h
  cases hpc : l.pc <;> rw [hpc] at h hhand <;>
    simp only [DispPc.hand, reduceCtorEq, Option.some.injEq, Prod.mk.injEq, and_false] at hhand <;>
    obtain ⟨rfl, rfl⟩ := hhand <;> simp only at h
  case countLock | queueLock | refuseLock =>
    rcases semOpRetry_awake h hm hx with ⟨rfl, rfl⟩ | ⟨hrun, hl, hg⟩
    · refine .nearer (by rfl) ?_ (hpc ▸ ?_)
      · rw [hpc]
        exact Nat.lt_succ_self _
      · first | exact fun _ => .stats | exact nofun
    · exact .asleep hrun hl hg
  case countStats | countUnlock | stamp | rejectUnlock | refuseStats | refuseUnlock =>
    cases h
    refine .nearer (by rfl) ?_ (hpc ▸ ?_)
    · rw [hpc]
      exact Nat.lt_succ_self _
    · first | exact fun _ => .lock | exact fun _ => .unlock | exact fun _ => .reply | exact nofun
  case testActive m q =>
    cases h
    have hscan := scan_toAnswer (c := c) m q 0
    split
    · refine .nearer scan_hand ?_ (hpc ▸ nofun)
      rw [hpc]
      exact hscan.trans_lt (Nat.lt_succ_self _)
    · refine .nearer (by rfl) ?_ (hpc ▸ nofun)
      rw [hpc]
      simp only [Task.goto_pc, DispPc.toAnswer]
      omega
  case offered m q i =>
    cases h
    have hscan := scan_toAnswer (c := c) m q (i + 1)
    split
    · refine .nearer (by rfl) ?_ (hpc ▸ ?_)
      · rw [hpc]
        exact Nat.lt_add_of_pos_left (Nat.sub_pos_of_lt i.isLt)
      · rintro ⟨hno⟩
        exact absurd ‹_› (hno i le_rfl)
    · refine .nearer scan_hand ?_ (hpc ▸ ?_)
      · rw [hpc]
        refine hscan.trans_lt ?_
        simp only [DispPc.toAnswer]
        omega
      · rintro ⟨hno⟩
        exact .scanFrom fun j hj => hno j ((Nat.le_succ i).trans hj)
  case queueActive | queueFull =>
    cases h
    split <;> exact .nearer (by rfl) (by simp [hpc, DispPc.toAnswer]) (hpc ▸ nofun)
  case push m q t =>
    split at h <;> cases h
    · exact .pushed hpc rfl rfl
    · exact .nearer (by rfl) (by rw [hpc]; exact Nat.lt_succ_self _) (hpc ▸ nofun)
  case refuseReply =>
    rcases sendUserReply_awake h hm hx with ⟨rfl, rfl⟩ | ⟨hrun, hl, hg⟩
    · exact .refused hpc rfl rfl
    · exact .asleep hrun hl hg

/-- The negative reply to the request has been sent, and nothing else. -/
def Refused (g g' : Shared c) (m : TicketMessage) (q : Service) : Prop :=
  g'.msgs = g.msgs ++ [.userReply
    { mtype := userReplyBase + m.userPid, status := .notServed, service := q }] ∧
  g'.hist = g.hist ++ [.replied .dispenser m.userPid .notServed q]

/-- With the statistics free and room in the message queue it does not wait. -/
theorem Refusing.goes (h : Refusing g m q l.pc) (hm : l.mode ≠ .eintr) (hx : l.exited = false)
    (hfree : l.pc.marking = true ∨ 0 < g.sem .stats) (hroom : g.msgs.length < c.msgCapacity) :
    ∃ l' g', Dispenser.step l g = some (l', g') ∧ l'.mode = .running ∧
      (l'.pc = .mainTest ∧ Refused g g' m q ∨
        g'.msgs = g.msgs ∧ g'.hist = g.hist ∧ (l'.pc.marking = true ∨ 0 < g'.sem .stats)) := by
  have hstats (hpc : l.pc.marking = false) : 0 < g.sem .stats :=
    hfree.resolve_left (Bool.eq_false_iff.mp hpc)
  unfold Dispenser.step
  rw [if_neg (Bool.eq_false_iff.mp hx)]
  generalize hpc : l.pc = pc at h hstats
  unfold body
  rw [hpc]
  cases h with
  | @scan i hno =>
    simp only [if_neg (hno i le_rfl)]
    exact ⟨_, _, rfl, rfl, .inr ⟨rfl, rfl, .inr (hstats rfl)⟩⟩
  | reject =>
    refine ⟨_, _, rfl, rfl, .inr ⟨rfl, rfl, .inr ?_⟩⟩
    rw [Shared.up_sem, Function.update_of_ne (by simp)]
    exact hstats rfl
  | lock =>
    simp only [semOpRetry, if_neg hm, Task.semWait, if_pos (hstats rfl)]
    exact ⟨_, _, rfl, rfl, .inr ⟨rfl, rfl, .inl rfl⟩⟩
  | stats | unlock => exact ⟨_, _, rfl, rfl, .inr ⟨rfl, rfl, .inl rfl⟩⟩
  | reply =>
    simp only [sendUserReply, if_neg hm, Task.msgSend, if_pos hroom]
    exact ⟨_, _, rfl, rfl, .inl ⟨rfl, rfl, rfl⟩⟩

/-- Only a dispenser that is told to terminate is killed or gives up. -/
theorem step_awake (h : step l g = some (l', g')) (hf : l.vars.terminateRequested = false) :
    l'.mode = .running ∨ l'.mode = .asleep := by
  unfold step at h
  split at h
  · cases h
  unfold body at h
  cases hpc : l.pc <;> rw [hpc] at h <;> simp only [semOpRetry, sendUserReply, Task.semWait,
    Task.semPost, Task.msgSend, hf] at h
  all_goals (repeat' split at h) <;> cases h
  all_goals first
    | exact .inl rfl
    | exact .inr rfl
    | exact absurd ‹false = true› Bool.false_ne_true

end Dispenser

/-! ### The invariant -/

/-- `assign_daily_counters` writes no counter while the dispenser is between a positive offer check
    and the push. -/
def AssignsUnseen (s : State c) (a : Act c) : Prop :=
  a.owner = some .director → s.director.pc.writing = true → s.dispenser.pc.checked = none

instance (s : State c) (a : Act c) : Decidable (AssignsUnseen s a) := by
  unfold AssignsUnseen
  infer_instance

namespace State

/-- The service found offered is offered. -/
def Offered (s : State c) : Prop :=
  ∀ q, s.dispenser.pc.checked = some q → ∃ i, (s.g.counters i).service = some q

variable {s s' : State c}

theorem Offered.step {a : Act c} (hI : s.Offered) (hok : AssignsUnseen s a) (h : s.StepOf a s') :
    s'.Offered := by
  intro q hq
  cases h with
  | director hstep =>
    have hwrite : s.director.pc.writing = false := by
      by_contra hw
      have hnone := hok rfl (Bool.not_eq_false _ ▸ hw)
      exact Option.some_ne_none q (Eq.symm hq |>.trans hnone)
    obtain ⟨i, hi⟩ := hI q hq
    exact ⟨i, by rw [setDirector_g, (Director.step_move hstep).services hwrite]; exact hi⟩
  | dispenser hstep =>
    obtain ⟨hm, -⟩ := Dispenser.step_move hstep
    rw [setDispenser_g, hm.frame]
    exact (hm.checked hq).elim (hI q) id
  | operator w hstep =>
    obtain ⟨i, hi⟩ := hI q hq
    exact ⟨i, ((Operator.step_move hstep).services i).trans hi⟩
  | user u hstep =>
    rw [setUser_g, (User.step_move hstep).1.frame]
    exact hI q hq
  | deliver p sigs =>
    rw [deliverTo_dispenser_pc] at hq
    rw [deliverTo_g]
    exact hI q hq
  | interrupt | tick => exact hI q hq

end State

theorem offered {s : State c} (h : ReachableBy AssignsUnseen s) : s.Offered :=
  ReachableBy.induct (fun _ => nofun) (fun _ _ _ _ hI hok hs => hI.step hok hs) h

namespace State

variable {s s' : State c}

/-- Before `stop_children` no signal is on its way to the dispenser, and it runs or sleeps. -/
structure Serving (s : State c) : Prop where
  quiet : s.director.pc.stopping = false → ∀ sig, s.g.pending .dispenser sig = false
  awake : s.director.pc.stopping = false →
    s.dispenser.mode = .running ∨ s.dispenser.mode = .asleep

theorem Serving.step {a : Act c} (hT : s.Termination) (hI : s.Serving) (h : s.StepOf a s') :
    s'.Serving := by
  cases h with
  | director hstep =>
    have hm := Director.step_move hstep
    refine ⟨fun hs sig => ?_, fun hs => hI.awake (hm.not_stopping hs)⟩
    rcases hm.pending_dispenser with hp | hp
    · exact (congrFun hp sig).trans (hI.quiet (hm.not_stopping hs) sig)
    · exact absurd (hs.symm.trans hp) Bool.false_ne_true
  | dispenser hstep =>
    have hm := (Dispenser.step_move hstep).1
    refine ⟨fun hs sig => ?_, fun hs => Dispenser.step_awake hstep (hT.not_dispenser hs)⟩
    rw [setDispenser_g, hm.frame]
    exact hI.quiet hs sig
  | operator w hstep =>
    refine ⟨fun hs sig => ?_, hI.awake⟩
    rw [setOperator_g, (Operator.step_move hstep).frame]
    exact hI.quiet hs sig
  | user u hstep =>
    refine ⟨fun hs sig => ?_, hI.awake⟩
    rw [setUser_g, (User.step_move hstep).1.frame]
    exact hI.quiet hs sig
  | deliver p sigs hp hne hx =>
    refine ⟨fun hs sig => ?_, fun hs => ?_⟩ <;> rw [deliverTo_director_pc] at hs
    · simp only [deliverTo_g, Shared.delivered_pending, Function.update_apply]
      split
      · subst_vars
        simp only [hI.quiet hs, Bool.false_and]
      · exact hI.quiet hs sig
    · rw [deliverTo_dispenser, if_neg]
      · exact hI.awake hs
      · rintro rfl
        obtain ⟨sig, hsig⟩ := List.exists_mem_of_ne_nil sigs hne
        exact Bool.false_ne_true ((hI.quiet hs sig).symm.trans (hp sig hsig))
  | interrupt term =>
    exact ⟨fun hs sig => by simpa [Function.update_apply] using hI.quiet hs sig, hI.awake⟩
  | tick => exact ⟨hI.quiet, hI.awake⟩

end State

theorem serving {s : State c} (h : Reachable s) : s.Serving :=
  ReachableBy.induct ⟨fun _ _ => rfl, fun _ => .inl rfl⟩
    (fun _ _ _ hr hI _ hs => hI.step (termination hr) hs) h

/-- On its way to the negative reply, nothing to wait for and nothing sent or recorded since `g`. -/
structure State.Unhindered (g : Shared c) (m : TicketMessage) (q : Service) (s : State c) :
    Prop where
  refusing : Dispenser.Refusing s.g m q s.dispenser.pc
  awake : s.dispenser.mode = .running ∨ s.dispenser.mode = .asleep
  free : s.dispenser.pc.marking = true ∨ 0 < s.g.sem .stats
  room : s.g.msgs.length < c.msgCapacity
  msgs : s.g.msgs = g.msgs
  hist : s.g.hist = g.hist

/-- The dispenser's next step sends the reply or brings it nearer. -/
theorem State.Unhindered.step {g : Shared c} {m : TicketMessage} {q : Service} {s : State c}
    (h : s.Unhindered g m q) :
    ∃ s', PostOffice.step s (.own .dispenser 0) = some s' ∧
      ((s'.dispenser.pc = .mainTest ∧ Dispenser.Refused g s'.g m q) ∨
        (s'.Unhindered g m q ∧ s'.dispenser.pc.toAnswer < s.dispenser.pc.toAnswer)) := by
  have hm : s.dispenser.mode ≠ .eintr := by rcases h.awake with hm | hm <;> simp [hm]
  have hx : s.dispenser.exited = false := by
    rcases h.awake with hm | hm <;> simp [Task.exited, hm]
  obtain ⟨l', g', hstep, hrun, hgoes⟩ := h.refusing.goes hm hx h.free h.room
  refine ⟨s.setDispenser (l', g'), by simp [PostOffice.step, hstep], ?_⟩
  rcases hgoes with ⟨hpc, hmsgs, hhist⟩ | ⟨hmsgs, hhist, hfree⟩
  · exact .inl ⟨hpc, by rw [← h.msgs]; exact hmsgs, by rw [← h.hist]; exact hhist⟩
  cases Dispenser.step_handles hstep hm h.refusing.hand with
  | nearer hhand hlt hrefuse =>
    exact .inr ⟨⟨hrefuse h.refusing, .inl hrun, hfree, by simpa [hmsgs] using h.room,
      hmsgs.trans h.msgs, hhist.trans h.hist⟩, hlt⟩
  | pushed hpc =>
    have hpush := hpc ▸ h.refusing
    cases hpush
  | refused hpc hpc' hg =>
    refine .inl ⟨hpc', ?_, ?_⟩
    · rw [← h.msgs, setDispenser_g, hg]
      rfl
    · rw [← h.hist, setDispenser_g, hg]
      rfl
  | asleep hm' hl =>
    rw [hl] at hrun
    exact Mode.noConfusion hrun

/-- CORRECT: in a run in which no counter is written between an offer check and its push, a ticket is
    pushed only onto the queue of a service that a counter offers at that moment. During the days a
    request in the dispenser's hands is nearer its answer after each of the dispenser's steps, until
    it is pushed or answered NOT_SERVED; a step that is not can only fall asleep waiting for a mutex
    or for room in the message queue. If no counter offers the service, the request is answered
    NOT_SERVED: by the dispenser's own steps, when the statistics are free and the queue has room. -/
theorem tickets_only_for_offered {s : State c} (h : ReachableBy AssignsUnseen s) :
    (∀ m q t, s.dispenser.pc = .push m q t → ∃ i, (s.g.counters i).service = some q) ∧
    (s.director.pc.stopping = false → ∀ m q,
      (∀ n s', step s (.own .dispenser n) = some s' → s.dispenser.pc.hand = some (m, some q) →
        Dispenser.Handles m q s.dispenser s.g s'.dispenser s'.g) ∧
      (Dispenser.Refusing s.g m q s.dispenser.pc → s.g.msgs.length < c.msgCapacity →
        (s.dispenser.pc.marking = true ∨ 0 < s.g.sem .stats) →
        ∃ k s', exec step (List.replicate k (.own .dispenser 0)) s = some s' ∧
          s'.dispenser.pc = .mainTest ∧ Dispenser.Refused s.g s'.g m q)) := by
  have hS := serving h.reach
  refine ⟨fun m q t hpc => offered h q (by rw [hpc]; rfl), fun hday m q => ⟨?_, ?_⟩⟩
  · intro n s' hs hhand
    obtain ⟨⟨l', g'⟩, hx, rfl⟩ := Option.map_eq_some_iff.mp hs
    refine Dispenser.step_handles hx ?_ hhand
    rcases hS.awake hday with hm | hm <;> simp [hm]
  · exact fun hno hroom hfree => exists_replicate (fun s => s.dispenser.pc.toAnswer)
      (fun _ hP _ => hP.step)
      (show s.Unhindered s.g m q from ⟨hno, hS.awake hday, hfree, hroom, rfl, rfl⟩)

/-- The dispenser is about to push the first user's ticket. -/
theorem tickets_only_for_offered_small : ∃ s : State smallOffice,
    exec step (SmallOffice.arrival ++ SmallOffice.own .dispenser 10) (State.init smallOffice) =
      some s ∧
    (∃ m t, s.dispenser.pc = .push m 0 t) ∧ ∃ i, (s.g.counters i).service = some 0 := by
  have hrun : ((exec step (SmallOffice.arrival ++ SmallOffice.own .dispenser 10)
      (State.init smallOffice)).any fun s =>
        decide (s.dispenser.pc = .push ⟨0, 103, 0⟩ 0 ⟨103, 0, 0⟩)) = true := by decide +kernel
  obtain ⟨s, hs, hpc⟩ := (Option.any_eq_true _ _).mp hrun
  have hpc : s.dispenser.pc = .push ⟨0, 103, 0⟩ 0 ⟨103, 0, 0⟩ := of_decide_eq_true hpc
  have hok : Allowed step AssignsUnseen (SmallOffice.arrival ++ SmallOffice.own .dispenser 10)
      (State.init smallOffice) := by decide +kernel
  exact ⟨s, hs, ⟨_, _, hpc⟩,
    (tickets_only_for_offered (ReachBy.of_exec _ .refl hs hok)).1 _ _ _ hpc⟩

/-- The dispenser has found service 0 offered when the day ends; the counter gets service 1 for the
    second day, and then the dispenser goes on. -/
def SmallOffice.overtaken : List (Act smallOffice) :=
  arrival ++ own .dispenser 6 ++ own .director 6 ++ signal clerk .usr2 ++ own clerk 7 ++
    own .director 60 ++ [.own .director 1] ++ own .director 20 ++ own .dispenser 4

/-- It pushes the ticket of the first day onto a queue that no counter serves. -/
theorem ticket_for_service_not_offered : ∃ s : State smallOffice,
    exec step SmallOffice.overtaken (State.init smallOffice) = some s ∧
      (∃ m t, s.dispenser.pc = .push m 0 t) ∧ s.g.currentDay = 2 ∧
      ∀ i, (s.g.counters i).service ≠ some 0 := by
  have hrun : ((exec step SmallOffice.overtaken (State.init smallOffice)).any fun s =>
      decide (s.dispenser.pc = .push ⟨0, 103, 0⟩ 0 ⟨103, 0, 0⟩ ∧ s.g.currentDay = 2 ∧
        (s.g.counters (0 : Fin 1)).service = some 1)) = true := by decide +kernel
  obtain ⟨s, hs, h⟩ := (Option.any_eq_true _ _).mp hrun
  obtain ⟨hpc, hday, hserv⟩ := of_decide_eq_true h
  refine ⟨s, hs, ⟨_, _, hpc⟩, hday, fun i hi => ?_⟩
  obtain rfl : i = (0 : Fin 1) := @Subsingleton.elim (Fin 1) _ i 0
  exact absurd (hserv.symm.trans hi) (by decide)

end PostOffice
