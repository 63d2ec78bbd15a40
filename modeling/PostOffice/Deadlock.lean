import PostOffice.Outstanding
import PostOffice.Shutdown

/-! The bounded message queue. Everybody sends into the same queue, and sleeps in `msgsnd` when it is
    full:

        users ── requests ───────▶ ┌──────────────────────┐ ──▶ dispenser ─┐
        operators ── replies ────▶ │ msgCapacity messages │ ──▶ users      │ replies
        children ── INIT, … ─────▶ └──────────────────────┘ ──▶ director   │
                                              ▲────────────────────────────┘

    The dispenser is in the cycle: while it sleeps with a reply, nobody takes the requests off the
    queue. What keeps the cycle open is that a user has at most one request in the system. -/

namespace PostOffice

open Transition

/-! ### Senders -/

/-- The operator's calls of `msgsnd`. -/
def OpPc.sending {seats : ℕ} : OpPc seats → Bool
  | .sendInit | .serveReply _ _ | .dayFinished => true
  | _ => false

/-- The dispenser's calls of `msgsnd`. -/
def DispPc.sending {seats : ℕ} : DispPc seats → Bool
  | .sendInit | .invalidReply _ | .refuseReply _ _ => true
  | _ => false

/-- The user's calls of `msgsnd`. -/
def UserPc.sending : UserPc → Bool
  | .sendInit | .requestSend _ => true
  | _ => false

/-- The director's calls of `msgsnd`. -/
def DirPc.sending {seats workers users : ℕ} : DirPc seats workers users → Bool
  | .flushReply _ _ => true
  | _ => false

theorem OpPc.eq_of_sending {seats : ℕ} {pc : OpPc seats} (h : pc.sending = true) :
    pc = .sendInit ∨ (∃ k t, pc = .serveReply k t) ∨ pc = .dayFinished := by
  cases pc <;> simp [sending] at h ⊢

theorem DispPc.eq_of_sending {seats : ℕ} {pc : DispPc seats} (h : pc.sending = true) :
    pc = .sendInit ∨ (∃ m, pc = .invalidReply m) ∨ ∃ m q, pc = .refuseReply m q := by
  cases pc <;> simp [sending] at h ⊢

theorem UserPc.eq_of_sending {pc : UserPc} (h : pc.sending = true) :
    pc = .sendInit ∨ ∃ q, pc = .requestSend q := by
  cases pc <;> simp [sending] at h ⊢

theorem DirPc.eq_of_sending {seats workers users : ℕ} {pc : DirPc seats workers users}
    (h : pc.sending = true) : ∃ q t, pc = .flushReply q t := by
  cases pc <;> simp [sending] at h ⊢

variable {c : Setup}

/-- How many users may go out: `go_probability` is positive. -/
def Setup.goers (c : Setup) : ℕ := (Finset.univ.filter fun u => 0 < c.goProbability u).card

/-- The type of the messages the process receives. -/
def Setup.inbox (c : Setup) : c.Proc → Option ℤ
  | .director => some directorMtype
  | .dispenser => some ticketRequestMtype
  | .operator _ => none
  | .user u => some (userReplyBase + c.pid (.user u))

namespace State

variable (s : State c)

/-- How the process stands. -/
def mode : c.Proc → Mode
  | .director => s.director.mode
  | .dispenser => s.dispenser.mode
  | .operator w => (s.operators w).mode
  | .user u => (s.users u).mode

/-- The process is in a call of `msgsnd`. -/
def sending : c.Proc → Bool
  | .director => s.director.pc.sending
  | .dispenser => s.dispenser.pc.sending
  | .operator w => (s.operators w).pc.sending
  | .user u => (s.users u).pc.sending

/-- Asleep sending into the queue. -/
def AsleepSending (p : c.Proc) : Prop := s.mode p = .asleep ∧ s.sending p = true

/-- Asleep sending into the queue, or on a mutex held by such a sender. -/
def Blocked (p : c.Proc) : Prop :=
  s.AsleepSending p ∨
    s.mode p = .asleep ∧ ∃ σ q, s.AsleepSending q ∧ s.Inside σ q ∧ s.Locking σ p

/-- Somebody waits for room in the queue, and every process that could remove one of the messages
    is blocked. -/
structure Deadlocked : Prop where
  full : c.msgCapacity ≤ s.g.msgs.length
  sender : ∃ p, s.AsleepSending p
  blocked : ∀ m ∈ s.g.msgs, ∀ p, c.inbox p = some m.mtype → s.exited p = false → s.Blocked p

instance (p : c.Proc) : Decidable (s.AsleepSending p) := inferInstanceAs (Decidable (_ ∧ _))

end State

/-! ### Who is alive -/

/-- A user exits when it is told to terminate. -/
theorem User.step_told {u : Fin c.nofUsers} {l l' : User} {g g' : Shared c} {n : ℕ}
    (h : User.step u l g n = some (l', g')) (hx : l'.exited = true) :
    l'.vars.terminateRequested = true := by
  unfold step at h
  split at h
  · cases h
  unfold body at h
  cases hpc : l.pc <;> rw [hpc] at h <;> simp only at h
  case done => cases h
  all_goals
    try simp only [Task.msgSend, Task.nanosleep, receiveReply] at h
    repeat' split at h
    all_goals cases h
    all_goals first | assumption | exact Bool.noConfusion hx

namespace State

/-- Why a process that receives messages has terminated. -/
structure Gone (s : State c) : Prop where
  director : s.director.exited = true → s.director.pc.locking ≠ none ∨ s.director.pc = .ended
  dispenser : s.dispenser.exited = true → s.dispenser.vars.terminateRequested = true
  user : ∀ u, (s.users u).exited = true → (s.users u).vars.terminateRequested = true

theorem Gone.step {s s' : State c} {a : Act c} (hI : s.Gone) (h : s.StepOf a s') : s'.Gone := by
  cases h with
  | director hstep =>
    refine ⟨fun hx => ?_, hI.dispenser, hI.user⟩
    rcases (Director.step_exit hstep).2 hx with ⟨hlock, -, hpc⟩ | ⟨hpc, -⟩
    · exact .inl (hpc ▸ hlock)
    · exact .inr hpc
  | dispenser hstep =>
    exact ⟨hI.director, fun hx => (Dispenser.step_exit hstep hx).2, hI.user⟩
  | operator w hstep | interrupt term | tick ns => exact ⟨hI.director, hI.dispenser, hI.user⟩
  | user u hstep =>
    exact ⟨hI.director, hI.dispenser, (Function.forall_update_iff s.users fun _ l =>
      l.exited = true → l.vars.terminateRequested = true).mpr
        ⟨User.step_told hstep, fun v _ => hI.user v⟩⟩
  | deliver p sigs hp hne hx =>
    refine ⟨fun hd => ?_, fun hd => ?_, fun u hu => ?_⟩
    · rw [deliverTo_director_pc]
      exact hI.director (ne_of_exited_deliverTo (q := .director) hx hd).2
    · obtain ⟨hother, hold⟩ := ne_of_exited_deliverTo (q := .dispenser) hx hd
      rw [deliverTo_dispenser, if_neg hother]
      exact hI.dispenser hold
    · obtain ⟨hother, hold⟩ := ne_of_exited_deliverTo (q := .user u) hx hu
      rw [deliverTo_users, if_neg hother]
      exact hI.user u hold

end State

theorem gone {s : State c} (h : Reachable s) : s.Gone :=
  ReachableBy.induct ⟨nofun, nofun, fun _ => nofun⟩ (fun _ _ _ _ hI _ hs => hI.step hs) h

/-- While an operator is live the director neither locks nor sends. -/
theorem DirPc.free_of_live {seats workers users : ℕ} {pc : DirPc seats workers users}
    {w : Fin workers} (h : pc.live w = true) :
    pc.locking = none ∧ pc.sending = false ∧ pc ≠ .ended ∧ pc.stopping = false := by
  cases pc <;> simp [DirPc.live, DirPc.dayOpen, DirPc.preStart] at h <;>
    exact ⟨rfl, rfl, by simp, rfl⟩

/-- `DAY_FINISHED` is in the queue only while some operator is live. -/
theorem State.Barrier.live_of_message {s : State c} (hB : s.Barrier)
    (hm : s.g.msgs.countP (Message.isOfKind .dayFinished) ≠ 0) :
    ∃ w, s.director.pc.live w = true := by
  by_contra hnone
  have hlive (w) : s.director.pc.live w = false :=
    Bool.eq_false_iff.mpr fun hw => hnone ⟨w, hw⟩
  have hopen : s.director.pc.dayOpen = true := by
    by_contra h
    exact hm (hB.drained (Bool.eq_false_iff.mpr h))
  have hpre (w) : s.director.pc.preStart w = true := by
    have := hlive w
    rw [DirPc.live, hopen] at this
    simpa using this
  -- Nobody is started yet, so nobody has finished this day.
  have hfinished : ∑ w, (s.g.finished w + 1) = c.nofWorkers * s.g.currentDay := by
    have hsum : ∀ w ∈ Finset.univ, s.g.finished w + 1 = s.g.currentDay := fun w _ => by
      have := hB.account w
      rw [hB.not_owed (hlive w), ind_of (hpre w)] at this
      exact this
    rw [Finset.sum_const_nat hsum, Finset.card_univ, Fintype.card_fin]
  rw [Finset.sum_add_distrib, s.g.total_finished, ← Finset.card_eq_sum_ones, Finset.card_univ,
    Fintype.card_fin] at hfinished
  have hmessages := hB.messages
  rw [ind_of hopen, Nat.mul_one] at hmessages
  omega

namespace State

variable {s : State c}

/-- A director that neither sends nor locks is not blocked. -/
theorem not_blocked_director (hlock : s.director.pc.locking = none)
    (hsend : s.director.pc.sending = false) : ¬ s.Blocked .director := by
  rintro (⟨-, h⟩ | ⟨-, σ, q, -, -, h⟩)
  · exact Bool.false_ne_true (hsend.symm.trans h)
  · exact Option.some_ne_none σ (Eq.trans (Eq.symm h) hlock)

/-- When a message for the director is in the queue, the director is alive and comes to receive
    it. -/
theorem director_receives (h : Reachable s) {m : DirectorMessage}
    (hm : Message.director m ∈ s.g.msgs) : s.exited .director = false ∧ ¬ s.Blocked .director := by
  have hfree : s.director.pc.locking = none ∧ s.director.pc.sending = false ∧
      s.director.pc ≠ .ended := by
    have hpos : s.g.msgs.countP (Message.isOfKind m.kind) ≠ 0 := fun h0 => by
      simpa using Mailbox.not_mem_of_countP h0 hm
    cases hk : m.kind with
    | init =>
      have hpc : s.director.pc = .waitInit := by
        by_contra hne
        exact hpos (hk ▸ ((announced h).all hne).1)
      rw [hpc]
      exact ⟨rfl, rfl, nofun⟩
    | dayFinished =>
      obtain ⟨w, hw⟩ := (barrier h).live_of_message (hk ▸ hpos)
      obtain ⟨hlock, hsend, hret, -⟩ := DirPc.free_of_live hw
      exact ⟨hlock, hsend, hret⟩
  refine ⟨Bool.eq_false_iff.mpr fun hx => ?_, not_blocked_director hfree.1 hfree.2.1⟩
  exact ((gone h).director hx).elim (fun hne => hne hfree.1) hfree.2.2

/-- So in a deadlock the queue holds requests and replies only. -/
theorem Deadlocked.no_director_message (hD : s.Deadlocked) (h : Reachable s) (m : DirectorMessage) :
    Message.director m ∉ s.g.msgs := fun hm =>
  (director_receives h hm).2 (hD.blocked _ hm .director rfl (director_receives h hm).1)

/-! ### Counting -/

/-- What all users have asked and are answered. -/
def totalOutstanding (s : State c) : ℕ :=
  ∑ x : Fin c.nofUsers × Service, s.outstanding x.1 x.2

theorem totalOutstanding_eq (s : State c) :
    s.totalOutstanding = ∑ u, ∑ q, s.outstanding u q :=
  Fintype.sum_prod_type fun x : Fin c.nofUsers × Service => s.outstanding x.1 x.2

theorem goers_eq : c.goers = ∑ u, ind (0 < c.goProbability u) := Finset.card_filter _ _

/-- Each user that may go out has at most one request outstanding. -/
theorem totalOutstanding_le (h : Reachable s) : s.totalOutstanding ≤ c.goers := by
  rw [totalOutstanding_eq, goers_eq]
  exact Finset.sum_le_sum fun u _ => total_outstanding h u

/-- The messages of a deadlock are outstanding requests and replies. -/
theorem Deadlocked.capacity_le (hD : s.Deadlocked) (h : Reachable s) :
    c.msgCapacity ≤ s.totalOutstanding := by
  refine hD.full.trans ((length_msgs_le h (hD.no_director_message h)).trans ?_)
  refine Finset.sum_le_sum fun x _ => ?_
  unfold outstanding unanswered
  omega

/-- When one more is in the hands of somebody who is about to answer it, there are more outstanding
    than users to have them. -/
theorem Deadlocked.not_in_hand (hD : s.Deadlocked) (h : Reachable s) (hK : c.goers ≤ c.msgCapacity)
    (u : Fin c.nofUsers) (q : Service) : s.unanswered u q ≤ s.g.asking (c.pid (.user u)) q := by
  by_contra hu
  have hlt : s.g.msgs.length < s.totalOutstanding := by
    refine (length_msgs_le h (hD.no_director_message h)).trans_lt ?_
    refine Finset.sum_lt_sum (fun x _ => ?_) ⟨(u, q), Finset.mem_univ _, ?_⟩
    · unfold outstanding unanswered
      omega
    · show s.g.asking (c.pid (.user u)) q + s.g.answering (c.pid (.user u)) q < s.outstanding u q
      unfold outstanding
      omega
  have := hD.full
  have := totalOutstanding_le h
  omega

/-- Somebody who announces itself does so before the first day, when nothing is outstanding. -/
theorem Deadlocked.announced_ne (hD : s.Deadlocked) (h : Reachable s) {p : c.Proc}
    (hp : p ≠ .director) : s.g.announced p ≠ 0 := by
  intro hinit
  have hpc : s.director.pc = .waitInit := by
    by_contra hne
    have := ((announced h).all hne).2 p hp
    omega
  have hzero : s.totalOutstanding = 0 :=
    Finset.sum_eq_zero fun x _ => nothing_before h hpc x.1 x.2
  have := hD.capacity_le h
  have := c.capacity_pos
  omega

/-! ### Nobody sleeps with a reply or a request -/

theorem Deadlocked.director_awake (hD : s.Deadlocked) (h : Reachable s)
    (hK : c.goers ≤ c.msgCapacity) : s.director.pc.sending = false := by
  refine Bool.eq_false_iff.mpr fun hsend => ?_
  obtain ⟨q, t, hpc⟩ := DirPc.eq_of_sending hsend
  obtain ⟨u, hu, -⟩ := (addressed h).flushing q t hpc
  have hone : ind ((c.pid (.user u), q) ∈ s.director.pc.unanswered) = 1 :=
    ind_of (by rw [hpc]; exact DirPc.mem_unanswered_flushReply.mpr ⟨hu, rfl⟩)
  have := hD.not_in_hand h hK u q
  unfold unanswered at this
  omega

theorem Deadlocked.dispenser_awake (hD : s.Deadlocked) (h : Reachable s)
    (hK : c.goers ≤ c.msgCapacity) : s.dispenser.pc.sending = false := by
  refine Bool.eq_false_iff.mpr fun hsend => ?_
  rcases DispPc.eq_of_sending hsend with hpc | ⟨m, hpc⟩ | ⟨m, q, hpc⟩
  · refine hD.announced_ne h (p := .dispenser) (by simp) ?_
    rw [(announced h).dispenser, hpc]
    rfl
  · obtain ⟨_, _, _, he⟩ := (genuine h).hand m none (by rw [hpc]; rfl)
    cases he
  · obtain ⟨u, r, rfl, hr⟩ := (genuine h).hand m (some q) (by rw [hpc]; rfl)
    have hone : ind (s.dispenser.pc.handles (c.pid (.user u)) q) = 1 := ind_of (by rw [hpc]; rfl)
    have := hD.not_in_hand h hK u q
    unfold unanswered at this
    omega

theorem Deadlocked.user_awake (hD : s.Deadlocked) (h : Reachable s) (hK : c.goers ≤ c.msgCapacity)
    (u : Fin c.nofUsers) : (s.users u).pc.sending = false := by
  refine Bool.eq_false_iff.mpr fun hsend => ?_
  rcases UserPc.eq_of_sending hsend with hpc | ⟨q, hpc⟩
  · refine hD.announced_ne h (p := .user u) (by simp) ?_
    rw [(announced h).user, userPc, hpc]
    rfl
  · -- One of the users that may go out has nothing outstanding.
    obtain ⟨hzero, hgo⟩ := nothing_outstanding h hpc
    have hlt : s.totalOutstanding < c.goers := by
      rw [totalOutstanding_eq, goers_eq]
      refine Finset.sum_lt_sum (fun v _ => total_outstanding h v) ⟨u, Finset.mem_univ u, ?_⟩
      rw [Finset.sum_eq_zero fun r _ => hzero r, ind_of hgo]
      exact Nat.zero_lt_one
    have := hD.capacity_le h
    omega

/-- An operator that sleeps in `msgsnd` sleeps with its `DAY_FINISHED`. -/
theorem Deadlocked.operator_finishing (hD : s.Deadlocked) (h : Reachable s)
    (hK : c.goers ≤ c.msgCapacity) {w : Fin c.nofWorkers}
    (hsend : (s.operators w).pc.sending = true) : (s.operators w).pc = .dayFinished := by
  rcases OpPc.eq_of_sending hsend with hpc | ⟨k, t, hpc⟩ | hpc
  · refine absurd ?_ (hD.announced_ne h (p := .operator w) (by simp))
    rw [(announced h).operator, view, Operator.view, hpc]
    rfl
  · have hview : s.view w = (OpPc.serveReply k t).view (c.workerService w) := by
      rw [view, Operator.view, hpc]
    obtain ⟨u, hu, -⟩ := (genuine h).held w t (by rw [hview]; rfl)
    obtain ⟨q, hq⟩ : ∃ q, c.workerService w = q := ⟨_, rfl⟩
    have hhandles : (s.view w).handles (c.workerService w) (c.pid (.user u)) q := by
      rw [hview]
      exact ⟨hq, congrArg some hu⟩
    have htotal := Family.le_total
      (fun w v => ind (v.handles (c.workerService w) (c.pid (.user u)) q)) s.view w
    simp only [ind_of hhandles] at htotal
    have := hD.not_in_hand h hK u q
    unfold unanswered at this
    omega
  · exact hpc

/-- So nobody sleeps on a mutex of a sender, and whoever is blocked is an operator. -/
theorem Deadlocked.operator_of_blocked (hD : s.Deadlocked) (h : Reachable s)
    (hK : c.goers ≤ c.msgCapacity) {p : c.Proc} (hp : s.Blocked p) :
    ∃ w, p = .operator w ∧ (s.operators w).pc = .dayFinished := by
  have hsender {q : c.Proc} (hq : s.AsleepSending q) :
      ∃ w, q = .operator w ∧ (s.operators w).pc = .dayFinished := by
    cases q with
    | director => exact absurd ((hD.director_awake h hK).symm.trans hq.2) Bool.false_ne_true
    | dispenser => exact absurd ((hD.dispenser_awake h hK).symm.trans hq.2) Bool.false_ne_true
    | user u => exact absurd ((hD.user_awake h hK u).symm.trans hq.2) Bool.false_ne_true
    | operator w => exact ⟨w, rfl, hD.operator_finishing h hK hq.2⟩
  rcases hp with hp | ⟨-, σ, q, hq, hin, -⟩
  · exact hsender hp
  · obtain ⟨w, rfl, hpc⟩ := hsender hq
    change (s.view w).lock = some σ at hin
    rw [view, Operator.view, hpc] at hin
    cases hin

end State

/-- CORRECT: when the queue has room for one message of each user that may go out, the message queue
    never deadlocks the system. -/
theorem queue_never_deadlocks (hK : c.goers ≤ c.msgCapacity) {s : State c} (h : Reachable s) :
    ¬ s.Deadlocked := by
  intro hD
  obtain ⟨p, hp⟩ := hD.sender
  obtain ⟨w, rfl, hpc⟩ := hD.operator_of_blocked h hK (.inl hp)
  -- An operator that finishes its day is live, so nobody has been told to terminate.
  have hrun : (s.view w).inRun = true := by rw [State.view, Operator.view, hpc]; rfl
  obtain ⟨-, -, -, hstop⟩ := DirPc.free_of_live ((barrier h).live_of_inRun hrun)
  have hT := termination h
  have hnot {b : Bool} (ht : b = true → s.director.pc.stopping = true) : b = false :=
    Bool.eq_false_iff.mpr fun hb => Bool.false_ne_true (hstop.symm.trans (ht hb))
  have hawake {m : Message} {p : c.Proc} (hm : m ∈ s.g.msgs) (hinbox : c.inbox p = some m.mtype)
      (halive : s.exited p = false) (hne : ∀ w, p ≠ .operator w) : False := by
    obtain ⟨v, hv, -⟩ := hD.operator_of_blocked h hK (hD.blocked m hm p hinbox halive)
    exact hne v hv
  obtain ⟨m, hm⟩ : ∃ m, m ∈ s.g.msgs :=
    List.exists_mem_of_length_pos (c.capacity_pos.trans_le hD.full)
  cases m with
  | director m => exact hD.no_director_message h m hm
  | ticket m =>
    exact hawake (p := .dispenser) hm rfl
      (hnot fun hx => hT.dispenser ((gone h).dispenser hx)) (by simp)
  | userReply r =>
    obtain ⟨u, hu⟩ := (addressed h).replies r hm
    exact hawake (p := .user u) hm (congrArg some hu.symm)
      (hnot fun hx => hT.user u ((gone h).user u hx)) (by simp)

/-- The small office has room for eight messages; here the first user's request is in the queue. -/
theorem queue_never_deadlocks_small : ∃ s : State smallOffice,
    exec step SmallOffice.arrival (State.init smallOffice) = some s ∧ s.g.msgs.length = 1 ∧
      smallOffice.goers ≤ smallOffice.msgCapacity ∧ ¬ s.Deadlocked := by
  have hrun : ((exec step SmallOffice.arrival (State.init smallOffice)).any fun s =>
      decide (s.g.msgs.length = 1)) = true := by decide +kernel
  obtain ⟨s, hs, h⟩ := (Option.any_eq_true _ _).mp hrun
  have hK : smallOffice.goers ≤ smallOffice.msgCapacity := by decide
  exact ⟨s, hs, of_decide_eq_true h, hK, queue_never_deadlocks hK (reach_of_exec _ hs)⟩

/-- The small office with room for one message. -/
def crowdedOffice : Setup := { smallOffice with msgCapacity := 1, capacity_pos := Nat.one_pos }

namespace CrowdedOffice

def own (p : Proc 1 2) (n : ℕ) : List (Act crowdedOffice) := List.replicate n (.own p 0)

/-- The user is started and sends a request for service 1. -/
def request (user : Proc 1 2) : List (Act crowdedOffice) :=
  [.deliver user [.usr1]] ++ own user 6 ++ [.own user 1] ++ own user 7

/-- Everybody announces itself and the day begins; the dispenser takes the first user's request, for
    a service that is not offered, and the second user asks before it has answered. -/
def crowd : List (Act crowdedOffice) :=
  own .dispenser 1 ++ own .director 1 ++ own SmallOffice.clerk 1 ++ own .director 1 ++
    own SmallOffice.first 1 ++ own .director 1 ++ own SmallOffice.second 1 ++ own .director 33 ++
    request SmallOffice.first ++ own .dispenser 2 ++ request SmallOffice.second ++ own .dispenser 9

end CrowdedOffice

/-- Only the dispenser receives requests. -/
theorem Setup.inbox_ticket {p : c.Proc} (hp : c.inbox p = some ticketRequestMtype) :
    p = .dispenser := by
  cases p with
  | dispenser => rfl
  | director | operator w => cases hp
  | user u =>
    have hpos := c.pid_pos (.user u)
    simp only [Setup.inbox, userReplyBase, ticketRequestMtype, Option.some.injEq] at hp
    omega

/-- Two users, room for one message: the queue is full of requests, and the dispenser sleeps in
    `send_user_reply`. -/
theorem queue_deadlocks : ∃ s : State crowdedOffice,
    exec step CrowdedOffice.crowd (State.init crowdedOffice) = some s ∧
      (∀ m ∈ s.g.msgs, m.mtype = ticketRequestMtype) ∧ s.AsleepSending .dispenser ∧
      s.Deadlocked := by
  have hrun : ((exec step CrowdedOffice.crowd (State.init crowdedOffice)).any fun s =>
      decide (1 ≤ s.g.msgs.length ∧ (∀ m ∈ s.g.msgs, m.mtype = ticketRequestMtype) ∧
        s.AsleepSending .dispenser)) = true := by decide +kernel
  obtain ⟨s, hs, h⟩ := (Option.any_eq_true _ _).mp hrun
  obtain ⟨hfull, htickets, hasleep⟩ := of_decide_eq_true h
  refine ⟨s, hs, htickets, hasleep, hfull, ⟨_, hasleep⟩, fun m hm p hp _ => ?_⟩
  rw [htickets m hm] at hp
  obtain rfl := Setup.inbox_ticket hp
  exact .inl hasleep

end PostOffice
