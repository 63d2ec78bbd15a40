import PostOffice.Capacity
import PostOffice.Jobs

/-! The limits of the kernel objects. `semop` with +1 and `SETVAL` fail beyond the largest value of a
    semaphore, and `msgsnd` waits in a full message queue. The model lets the first two succeed, so
    the values they reach are bounded here:

        counter, queue and stats mutex   1
        freeCounter q                    the seats
        jobs q                           MAX_COUNT_QUEUE + 1, one post may be late
        messages                         one from each operator, one for each user that may go out -/

namespace PostOffice

open Transition

variable {c : Setup}

/-! ### Job tokens -/

/-- Before the director closes a queue it leaves the tickets and the job tokens alone. -/
theorem Director.Move.open_jobs {pc pc' : DirPc c.nofWorkerSeats c.nofWorkers c.nofUsers}
    {v v' : DirVars} {g g' : Shared c} (h : Director.Move pc v g pc' v' g') {q : Service}
    (hq : pc'.closed q = false) :
    pc'.running = true ∨
      pc.closed q = false ∧ g'.queues q = g.queues q ∧ g'.sem (.jobs q) = g.sem (.jobs q) := by
  cases h
  case countNext s hs =>
    refine .inr ⟨?_, rfl, rfl⟩
    simp only [DirPc.closed, decide_eq_false_iff_not, Fin.lt_def, Fin.le_def] at hq ⊢
    omega
  case countLock s _ =>
    refine .inr ⟨?_, rfl, rfl⟩
    simp only [DirPc.closed, decide_eq_false_iff_not, Fin.lt_def, Fin.le_def] at hq ⊢
    omega
  all_goals first
    | exact .inl rfl
    | exact .inr ⟨hq, rfl, rfl⟩
    | exact .inr ⟨rfl, rfl, rfl⟩
    | cases hq

/-- The dispenser adds to the job tokens what it has still to post. -/
theorem Dispenser.Move.jobs {pc pc' : DispPc c.nofWorkerSeats} {f : DispFlags} {g g' : Shared c}
    (h : Dispenser.Move pc f g pc' g') (q : Service) :
    g'.sem (.jobs q) + ind (pc'.posting = some q) ≤ g.sem (.jobs q) + ind (pc.posting = some q) ∨
      pc.window = some q := by
  by_cases hw : pc.window = some q
  · exact .inr hw
  · have hcredits := h.credits q
    rw [h.queues hw] at hcredits
    exact .inl (by omega)

/-- An operator posts no job. -/
theorem Operator.Move.jobs_le {w : Fin c.nofWorkers} {l l' : Operator c} {g g' : Shared c}
    (h : Operator.Move w l g l' g') (q : Service) : g'.sem (.jobs q) ≤ g.sem (.jobs q) := by
  cases h with
  | acquire hf σ hm hl hσ hv | release hf σ hm hl hv => simp [(hm.ne_jobs q).symm]
  | takeJob hf hσ k hv hv' =>
    simp only [Shared.down_sem, Function.update_apply]
    split
    · rw [‹Sem.jobs q = _›]
      exact Nat.sub_le _ _
    · exact le_rfl
  | takeToken | giveToken => simp
  | _ => exact le_rfl

/-- The director only sets the job tokens to 0. -/
theorem Director.Move.jobs_le {pc pc' : DirPc c.nofWorkerSeats c.nofWorkers c.nofUsers}
    {v v' : DirVars} {g g' : Shared c} (h : Director.Move pc v g pc' v' g') (q : Service) :
    g'.sem (.jobs q) ≤ g.sem (.jobs q) := by
  cases h
  case setJobs s | flushNext s _ | flushLast s _ =>
    simp only [Shared.setSemValue_sem, Function.update_apply]
    split
    · exact Nat.zero_le _
    · exact le_rfl
  all_goals exact le_rfl

namespace State

variable {s s' : State c}

/-- An operator's step adds no slack. -/
theorem slack_setOperator_le {w : Fin c.nofWorkers} {l' : Operator c} {g' : Shared c}
    (hm : Operator.Move w (s.operators w) s.g l' g') (q : Service) :
    (s.setOperator w (l', g')).slack q ≤ s.slack q := by
  have hcredits := s.credits_setOperator w (l', g') q
  have hmoves := hm.credits
  rw [view_eq] at hmoves
  dsimp only at hcredits
  unfold slack
  simp only [setOperator_g]
  rcases hmoves with ⟨hsame, -⟩ | ⟨-, hjob, hjob', hsem, hqueues, -⟩
  · have := hsame q
    omega
  · simp only [hjob, hjob', hsem, and_true, Bool.false_eq_true, and_false, ind_of_not,
      not_false_eq_true, add_zero] at hcredits
    rw [hqueues]
    omega

/-- The dispenser's step keeps the slack. -/
theorem slack_setDispenser {l' : Dispenser c} {g' : Shared c}
    (hm : Dispenser.Move s.dispenser.pc s.dispenser.vars s.g l'.pc g') (q : Service) :
    (s.setDispenser (l', g')).slack q = s.slack q := by
  have := hm.credits q
  unfold slack credits
  simp only [setDispenser_g, setDispenser_dispenser, view_setDispenser]
  omega

theorem Jobs.slack_le (hJ : s.Jobs) (hrun : s.director.pc.running = true) (q : Service) :
    s.slack q ≤ 1 := by
  have hone := hJ.running hrun
  have hle := Finset.single_le_sum (f := s.slack) (fun _ _ => Nat.zero_le _) (Finset.mem_univ q)
  omega

/-- While a queue is not closed its jobs are at most one more than its tickets. -/
def SlackLeOne (s : State c) : Prop := ∀ q, s.director.pc.closed q = false → s.slack q ≤ 1

theorem SlackLeOne.step (hJ : s'.Jobs) (hI : s.SlackLeOne) (h : s.Move s') : s'.SlackLeOne := by
  cases h with
  | director hm =>
    intro q hq
    rcases hm.open_jobs hq with hrun | ⟨hq, hqueue, hjobs⟩
    · exact hJ.slack_le hrun q
    · have hold := hI q hq
      unfold slack credits at hold ⊢
      simp only [setDirector_g, setDirector_dispenser, view_setDirector, hqueue, hjobs]
      exact hold
  | dispenser hm hf => exact fun q hq => (slack_setDispenser hm q).trans_le (hI q hq)
  | operator w hstep hm => exact fun q hq => (slack_setOperator_le hm q).trans (hI q hq)
  | user u hm hf =>
    rw [hm.frame]
    exact hI
  | deliver p sigs hp => simpa [SlackLeOne, slack, credits] using hI
  | interrupt sig hsig => exact hI
  | tick ns => exact hI

theorem SlackLeOne.init : (State.init c).SlackLeOne := by
  intro q hq
  cases hq

end State

theorem slackLeOne {s : State c} (h : Reachable s) : s.SlackLeOne :=
  h.invariant .init fun _ _ hr hI hm => hI.step ((jobs hr).step (barrier hr) (closing hr) hm) hm

namespace State

/-- The job tokens of a queue, with the one still to be posted, are at most one more than the
    queue holds. -/
def FewJobs (s : State c) : Prop :=
  ∀ q, s.g.sem (.jobs q) + ind (s.dispenser.pc.posting = some q) ≤ maxCountQueue + 1

variable {s s' : State c}

theorem FewJobs.step (hC : s.Closing) (hS : s'.SlackLeOne) (hI : s.FewJobs) (h : s.Move s') :
    s'.FewJobs := by
  cases h with
  | director hm => exact fun q => (Nat.add_le_add_right (hm.jobs_le q) _).trans (hI q)
  | @dispenser l' g' hm hf =>
    intro q
    rcases hm.jobs q with hle | hw
    · exact hle.trans (hI q)
    · -- A push: the queue is not closed, and the tokens are those of its tickets.
      have hopen : s.director.pc.closed q = false :=
        Bool.eq_false_iff.mpr fun hq => hC.closed q hq hw
      have hslack := hS q hopen
      have hlen := (g'.queues q).length_le
      unfold slack credits at hslack
      simp only [setDispenser_g, setDispenser_dispenser] at hslack ⊢
      omega
  | operator w hstep hm => exact fun q => (Nat.add_le_add_right (hm.jobs_le q) _).trans (hI q)
  | user u hm hf =>
    rw [hm.frame]
    exact hI
  | deliver p sigs hp => simpa [FewJobs] using hI
  | interrupt sig hsig => exact hI
  | tick ns => exact hI

theorem FewJobs.init : (State.init c).FewJobs := fun _ => Nat.zero_le _

end State

theorem fewJobs {s : State c} (h : Reachable s) : s.FewJobs :=
  ReachBy.invariant .init (fun _ _ _ hr hI _ hs =>
    hI.step (closing hr) (slackLeOne (hr.tail trivial hs)) (step_moveBy hs fun _ _ _ => trivial)) h

/-! ### Counter tokens -/

/-- The tokens of a service change only once its counters are written. -/
theorem Director.Move.free_eq {pc pc' : DirPc c.nofWorkerSeats c.nofWorkers c.nofUsers}
    {v v' : DirVars} {g g' : Shared c} (h : Director.Move pc v g pc' v' g') {q : Service}
    (hq : pc'.granted q = false) : g'.sem (.freeCounter q) = g.sem (.freeCounter q) := by
  cases h
  case setFree s =>
    simp only [DirPc.granted, decide_eq_false_iff_not] at hq
    have hne : q ≠ s := fun h => hq h.le
    simp [hne]
  all_goals rfl

/-- Outside `run_day` an operator holds no token and takes none. -/
theorem Operator.Move.free_eq {w : Fin c.nofWorkers} {l l' : Operator c} {g g' : Shared c}
    (h : Operator.Move w l g l' g') (hrun : (view w l).inRun = false) (q : Service) :
    g'.sem (.freeCounter q) = g.sem (.freeCounter q) := by
  cases h with
  | acquire hf σ hm hl hσ hv | release hf σ hm hl hv => simp [(hm.ne_freeCounter q).symm]
  | takeToken hf hσ hv hv' | giveToken hf p hv hv' =>
    rw [hv] at hrun
    exact absurd hrun.symm Bool.false_ne_true
  | takeJob hf hσ k hv hv' => simp
  | _ => rfl

namespace State

variable {s s' : State c}

/-- The counter tokens of a service are at most the seats. -/
def FewTokens (s : State c) : Prop := ∀ q, s.g.sem (.freeCounter q) ≤ c.nofWorkerSeats

/-- Once they are handed out there is a free counter for each. -/
theorem Seating.free_le (hS : s.Seating) {q : Service} (hq : s.director.pc.granted q = true) :
    s.g.sem (.freeCounter q) ≤ c.nofWorkerSeats := by
  have hroom := hS.room q 0 fun _ => hq
  have hfree : s.g.free q 0 ≤ Fintype.card (Fin c.nofWorkerSeats) :=
    Family.total_le_card _ _ fun _ => ind_le_one _
  rw [Fintype.card_fin] at hfree
  have htokens : s.g.tokens q 0 = s.g.sem (.freeCounter q) := if_pos rfl
  omega

theorem FewTokens.step (hB : s.Barrier) (hS : s'.Seating) (hI : s.FewTokens) (h : s.Move s') :
    s'.FewTokens := by
  intro q
  cases hq : s'.director.pc.granted q with
  | true => exact hS.free_le hq
  | false =>
    cases h with
    | director hm => exact (hm.free_eq hq).trans_le (hI q)
    | dispenser hm hf => exact (hm.freeCounter q).trans_le (hI q)
    | operator w hstep hm =>
      refine (hm.free_eq ?_ q).trans_le (hI q)
      refine hB.not_inRun (Bool.eq_false_iff.mpr fun hlive => ?_)
      exact Bool.false_ne_true (hq.symm.trans (DirPc.granted_of_dayOpen hlive q))
    | user u hm hf =>
      rw [hm.frame]
      exact hI q
    | deliver p sigs hp => simpa using hI q
    | interrupt sig hsig => exact hI q
    | tick ns => exact hI q

theorem FewTokens.init : (State.init c).FewTokens := fun _ => Nat.zero_le _

end State

theorem fewTokens {s : State c} (h : Reachable s) : s.FewTokens :=
  ReachBy.invariant .init (fun _ _ _ hr hI _ hs =>
    hI.step (barrier hr) (seating (hr.tail trivial hs)) (step_moveBy hs fun _ _ _ => trivial)) h

/-! ### Messages -/

namespace State

variable {s : State c}

/-- Each operator has at most one `DAY_FINISHED` in the queue. -/
theorem Barrier.finished_messages_le (hB : s.Barrier) :
    s.g.msgs.countP (Message.isOfKind .dayFinished) ≤ c.nofWorkers := by
  have hfinished : ∑ w, s.g.finished w ≤ ∑ _w : Fin c.nofWorkers, s.g.currentDay :=
    Finset.sum_le_sum fun w _ => by
      have := hB.account w
      omega
  rw [Finset.sum_const_nat fun _ _ => rfl, Finset.card_univ, Fintype.card_fin,
    s.g.total_finished] at hfinished
  have hmessages := hB.messages
  have hopen := Nat.mul_le_mul_left c.nofWorkers (ind_le_one (s.director.pc.dayOpen = true))
  omega

/-- Every message is one for the director, a request or a reply. -/
theorem length_msgs_le_add (h : Reachable s) :
    s.g.msgs.length ≤ s.g.msgs.countP (Message.isOfKind .init) +
      s.g.msgs.countP (Message.isOfKind .dayFinished) + s.totalOutstanding := by
  have hsplit : s.g.msgs.length ≤ ∑ x : Bool ⊕ Fin c.nofUsers × Service,
      s.g.msgs.countP (Sum.elim (fun first => Message.isOfKind (if first then .init else .dayFinished))
        (fun y => Message.concerns (c.pid (.user y.1)) y.2) x) := by
    refine Family.length_le_sum_countP fun m hm => ?_
    cases m with
    | director m =>
      refine ⟨.inl (m.kind = .init), ?_⟩
      cases hk : m.kind <;> simp [hk]
    | ticket m =>
      obtain ⟨u, q, rfl⟩ := (genuine h).messages m hm
      have hasks : (Message.ticket (c.request u q)).asks (c.pid (.user u)) q = true :=
        decide_eq_true ⟨rfl, Setup.request_service u q⟩
      exact ⟨.inr (u, q), by simp [Message.concerns, hasks]⟩
    | userReply r =>
      obtain ⟨u, hu⟩ := (addressed h).replies r hm
      exact ⟨.inr (u, r.service), by simp [Message.concerns, Message.answers, hu]⟩
  have hout : ∑ x : Fin c.nofUsers × Service,
      s.g.msgs.countP (Message.concerns (c.pid (.user x.1)) x.2) ≤ s.totalOutstanding := by
    refine Finset.sum_le_sum fun x _ => ?_
    rw [Shared.countP_concerns]
    unfold outstanding unanswered
    omega
  rw [Fintype.sum_sum_type, Fintype.sum_bool] at hsplit
  simp only [Sum.elim_inl, Sum.elim_inr, if_true, Bool.false_eq_true, if_false] at hsplit
  omega

/-- Before the first day the queue holds announcements, later `DAY_FINISHED` and what the users
    have outstanding. -/
theorem length_msgs_le_of_phase (h : Reachable s) : s.g.msgs.length ≤
    if s.director.pc = .waitInit then c.nofWorkers + c.nofUsers + 1
    else c.nofWorkers + c.goers := by
  refine (length_msgs_le_add h).trans ?_
  have hA := announced h
  split
  · -- Nothing is asked and nothing finished yet.
    have hzero : s.totalOutstanding = 0 :=
      Finset.sum_eq_zero fun x _ => nothing_before h ‹_› x.1 x.2
    have hinited : inited s.dispenser.pc s.view s.userPc ≤ 1 + c.nofWorkers + c.nofUsers := by
      refine Nat.add_le_add (Nat.add_le_add (ind_le_one _) ?_) ?_
      · exact (Family.total_le_card _ s.view fun _ => ind_le_one _).trans_eq (Fintype.card_fin _)
      · exact (Family.total_le_card _ s.userPc fun _ => ind_le_one _).trans_eq (Fintype.card_fin _)
    have hmessages := hA.messages
    rw [(barrier h).drained (by rw [‹s.director.pc = _›]; rfl), hzero]
    omega
  · rw [(hA.all ‹_›).1, Nat.zero_add]
    exact Nat.add_le_add (barrier h).finished_messages_le (totalOutstanding_le h)

end State

/-! ### Who waits in `msgsnd` -/

section Senders

variable {g g' : Shared c}

/-- `msgsnd` falls asleep only when the queue is full. -/
theorem Task.msgSend_sleeps {P V : Type} {l l' : Task P V} {m : Message} {e : c.Event} {next : P}
    (h : l.msgSend g m e next = some (l', g')) (hsleep : l'.mode = .asleep) :
    c.msgCapacity ≤ g.msgs.length := by
  unfold msgSend at h
  split at h
  · cases h
    cases hsleep
  · exact Nat.le_of_not_lt ‹_›

/-- No call sleeps on after its process has run a handler. -/
theorem Task.mode_deliver_ne {P V : Type} {l : Task P V} (handler : V → Signal → V)
    (sigs : List Signal) : (l.deliver handler sigs).mode ≠ .asleep := by
  rw [deliver_mode]
  split
  · exact Mode.noConfusion
  · assumption

/-- So does each program, in all its calls of `msgsnd`. -/
theorem User.step_sleeps {u : Fin c.nofUsers} {l l' : User} {n : ℕ}
    (h : User.step u l g n = some (l', g')) (hsleep : l'.mode = .asleep)
    (hroom : g.msgs.length < c.msgCapacity) : l'.pc.sending = false := by
  refine Bool.eq_false_iff.mpr fun hsend => hroom.not_ge ?_
  unfold step at h
  split at h
  · cases h
  unfold body at h
  cases hpc : l.pc <;> rw [hpc] at h <;> simp only at h
  case sendInit | requestSend =>
    repeat' split at h
    all_goals first
      | exact Task.msgSend_sleeps h hsleep
      | cases h; cases hsleep
  all_goals
    try simp only [Task.nanosleep, receiveReply] at h
    repeat' split at h
    all_goals cases h
    all_goals first | cases hsleep; done | simp [hpc, UserPc.sending] at hsend

theorem Dispenser.step_sleeps {l l' : Dispenser c}
    (h : Dispenser.step l g = some (l', g')) (hsleep : l'.mode = .asleep)
    (hroom : g.msgs.length < c.msgCapacity) : l'.pc.sending = false := by
  refine Bool.eq_false_iff.mpr fun hsend => hroom.not_ge ?_
  unfold step at h
  split at h
  · cases h
  unfold body at h
  cases hpc : l.pc <;> rw [hpc] at h <;> simp only at h
  case sendInit | invalidReply | refuseReply =>
    try unfold sendUserReply at h
    repeat' split at h
    all_goals first
      | exact Task.msgSend_sleeps h hsleep
      | cases h; cases hsleep
  all_goals
    try simp only [Task.semWait, Task.semPost, semOpRetry] at h
    repeat' split at h
    all_goals cases h
    all_goals first | cases hsleep; done | simp [hpc, DispPc.sending] at hsend

theorem Operator.step_sleeps {w : Fin c.nofWorkers} {l l' : Operator c} {n : ℕ}
    (h : Operator.step w l g n = some (l', g')) (hsleep : l'.mode = .asleep)
    (hroom : g.msgs.length < c.msgCapacity) : l'.pc.sending = false := by
  refine Bool.eq_false_iff.mpr fun hsend => hroom.not_ge ?_
  unfold step at h
  split at h
  · cases h
  unfold body at h
  cases hpc : l.pc <;> rw [hpc] at h <;> simp only at h
  case sendInit | serveReply | dayFinished =>
    try simp only [sendDirectorMessage, sendUserReply, msgSendRetry] at h
    split at h
    all_goals first
      | exact Task.msgSend_sleeps h hsleep
      | cases h; cases hsleep
  all_goals
    try simp only [Task.semWait, Task.semPost, Task.nanosleep, lockStats, semOpInterruptible] at h
    repeat' split at h
    all_goals cases h
    all_goals first | cases hsleep; done | simp [hpc, OpPc.sending] at hsend

theorem Director.step_sleeps {l l' : Director c} {exited : c.Proc → Bool} {n : ℕ}
    (h : Director.step l g exited n = some (l', g')) (hsleep : l'.mode = .asleep)
    (hroom : g.msgs.length < c.msgCapacity) : l'.pc.sending = false := by
  refine Bool.eq_false_iff.mpr fun hsend => hroom.not_ge ?_
  unfold step at h
  split at h
  · cases h
  unfold body at h
  cases hpc : l.pc <;> rw [hpc] at h <;> simp only at h
  case flushReply =>
    split at h
    · cases h
      cases hsleep
    · exact Task.msgSend_sleeps h hsleep
  all_goals
    try simp only [Task.semWait, Task.semPost, Task.nanosleep, semOpRetry, waitpid, receiveDirector] at h
    repeat' split at h
    all_goals cases h
    all_goals first | cases hsleep; done | simp [hpc, DirPc.sending] at hsend

end Senders

namespace State

/-- Nobody is asleep in `msgsnd`. -/
structure NobodyWaits (s : State c) : Prop where
  director : s.director.mode = .asleep → s.director.pc.sending = false
  dispenser : s.dispenser.mode = .asleep → s.dispenser.pc.sending = false
  operator : ∀ w, (s.operators w).mode = .asleep → (s.operators w).pc.sending = false
  user : ∀ u, (s.users u).mode = .asleep → (s.users u).pc.sending = false

variable {s s' : State c}

theorem NobodyWaits.step {a : Act c} (hroom : s.g.msgs.length < c.msgCapacity)
    (hI : s.NobodyWaits) (h : s.StepOf a s') : s'.NobodyWaits := by
  cases h with
  | director hstep =>
    exact ⟨fun hs => Director.step_sleeps hstep hs hroom, hI.dispenser, hI.operator, hI.user⟩
  | dispenser hstep =>
    exact ⟨hI.director, fun hs => Dispenser.step_sleeps hstep hs hroom, hI.operator, hI.user⟩
  | operator w hstep =>
    exact ⟨hI.director, hI.dispenser, (Function.forall_update_iff s.operators fun _ l =>
      l.mode = .asleep → l.pc.sending = false).mpr
        ⟨fun hs => Operator.step_sleeps hstep hs hroom, fun v _ => hI.operator v⟩, hI.user⟩
  | user u hstep =>
    exact ⟨hI.director, hI.dispenser, hI.operator, (Function.forall_update_iff s.users fun _ l =>
      l.mode = .asleep → l.pc.sending = false).mpr
        ⟨fun hs => User.step_sleeps hstep hs hroom, fun v _ => hI.user v⟩⟩
  | deliver p sigs hp hne hx =>
    refine ⟨fun hs => ?_, fun hs => ?_, fun w hs => ?_, fun u hs => ?_⟩
    · rw [deliverTo_director_pc]
      rw [deliverTo_director] at hs
      split at hs
      · exact absurd hs (Task.mode_deliver_ne _ _)
      · exact hI.director hs
    · rw [deliverTo_dispenser_pc]
      rw [deliverTo_dispenser] at hs
      split at hs
      · exact absurd hs (Task.mode_deliver_ne _ _)
      · exact hI.dispenser hs
    · rw [deliverTo_operators_pc]
      rw [deliverTo_operators] at hs
      split at hs
      · exact absurd hs (Task.mode_deliver_ne _ _)
      · exact hI.operator w hs
    · rw [deliverTo_users_pc]
      rw [deliverTo_users] at hs
      split at hs
      · exact absurd hs (Task.mode_deliver_ne _ _)
      · exact hI.user u hs
  | interrupt term | tick ns => exact ⟨hI.director, hI.dispenser, hI.operator, hI.user⟩

theorem NobodyWaits.init : (State.init c).NobodyWaits :=
  ⟨fun h => Mode.noConfusion h, fun h => Mode.noConfusion h, fun _ h => Mode.noConfusion h,
    fun _ h => Mode.noConfusion h⟩

end State

theorem nobodyWaits (hcap : c.nofWorkers + c.nofUsers + 1 < c.msgCapacity) {s : State c}
    (h : Reachable s) : s.NobodyWaits := by
  refine ReachableBy.induct .init (fun s a s' hr hI _ hs => hI.step ?_ hs) h
  have hlen := State.length_msgs_le_of_phase hr
  have hgoers := c.goers_le
  split at hlen <;> omega

/-- CORRECT: no limit is reached. In every reachable state the mutexes are at most 1, the tokens of
    the counters at most the seats and the job tokens at most one more than a queue holds. The
    message queue holds at most an announcement of each child before the first day, and later
    `DAY_FINISHED` of each operator and one message for each user that may go out; if it has room
    for more than all children nobody ever sleeps in `msgsnd`. -/
theorem kernel_limits {s : State c} (h : Reachable s) :
    (∀ σ : Sem c.nofWorkerSeats, σ.IsMutex → s.g.sem σ ≤ 1) ∧
    (∀ q, s.g.sem (.freeCounter q) ≤ c.nofWorkerSeats) ∧
    (∀ q, s.g.sem (.jobs q) ≤ maxCountQueue + 1) ∧
    (s.g.msgs.length ≤ if s.director.pc = .waitInit then c.nofWorkers + c.nofUsers + 1
      else c.nofWorkers + c.goers) ∧
    (c.nofWorkers + c.nofUsers + 1 < c.msgCapacity → ∀ p, ¬ s.AsleepSending p) := by
  refine ⟨fun σ hσ => (Nat.le_add_right _ _).trans_eq (mutexesSound h σ hσ), fewTokens h,
    fun q => (Nat.le_add_right _ _).trans (fewJobs h q), State.length_msgs_le_of_phase h,
    fun hcap p hp => ?_⟩
  obtain ⟨hdir, hdisp, hop, huser⟩ := nobodyWaits hcap h
  obtain ⟨hsleep, hsend⟩ := hp
  refine Bool.false_ne_true (Eq.trans (Eq.symm ?_) hsend)
  cases p with
  | director => exact hdir hsleep
  | dispenser => exact hdisp hsleep
  | operator w => exact hop w hsleep
  | user u => exact huser u hsleep

/-- In the small office, while a ticket waits in the queue of service 0, one job is posted for it
    and the reply or request of the second user may still come. -/
theorem kernel_limits_small : ∃ s : State smallOffice,
    exec step SmallOffice.queued (State.init smallOffice) = some s ∧
    s.g.sem (.jobs 0) = 1 ∧ s.g.msgs.length ≤ 3 := by
  have hrun : ((exec step SmallOffice.queued (State.init smallOffice)).any fun s =>
      decide (s.g.sem (.jobs 0) = 1 ∧ s.director.pc = .daySleep)) = true := by decide +kernel
  obtain ⟨s, hs, h⟩ := (Option.any_eq_true _ _).mp hrun
  obtain ⟨hjobs, hpc⟩ := of_decide_eq_true h
  obtain ⟨-, -, -, hlen, -⟩ := kernel_limits (reach_of_exec _ hs)
  rw [hpc, if_neg (by simp)] at hlen
  exact ⟨s, hs, hjobs, hlen.trans (by decide)⟩

end PostOffice
