import PostOffice.Tickets
import PostOffice.Flush

/-! Where a request is. From the `msgsnd` of `request_service` to the `msgrcv` of the reply, the
    request of a user is in exactly one place:

        ticket message ─▶ dispenser ─▶ queues[s] ─▶ operator ─▶ reply message
                              │            │                         ▲
                              │            └─▶ flush of the director ┤
                              └──────────────────────────────────────┘

    The places are counted for each user and each service; every step of every process moves the
    request from one place to the next, or touches none of them. -/

namespace PostOffice

open Transition

/-- A request message of the user with this process id for service `q`. -/
def Message.asks (userPid : ℤ) (q : Service) : Message → Bool
  | .ticket m => m.userPid = userPid ∧ m.service? = some q
  | _ => false

/-- A reply message to that user about service `q`. -/
def Message.answers (userPid : ℤ) (q : Service) : Message → Bool
  | .userReply m => m.mtype = userReplyBase + userPid ∧ m.service = q
  | _ => false

/-- A reply to that user about service `q` was sent. -/
def Event.isReplyTo {workers users : ℕ} (userPid : ℤ) (q : Service) : Event workers users → Bool
  | .replied _ p _ s => p = userPid ∧ s = q
  | _ => false

/-- User `u` sent a request for service `q`. -/
def Event.isRequestOf {workers users : ℕ} (u : Fin users) (q : Service) :
    Event workers users → Bool
  | .requested v s => v = u ∧ s = q
  | _ => false

variable {c : Setup}

namespace Shared

variable (g : Shared c) (userPid : ℤ) (q : Service)

/-- The request messages in the queue. -/
def asking : ℕ := g.msgs.countP (Message.asks userPid q)

/-- The reply messages in the queue. -/
def answering : ℕ := g.msgs.countP (Message.answers userPid q)

/-- The entries of `queues[q]`. -/
def queuing : ℕ := (g.queues q).toList.countP fun t => t.userPid = userPid

/-- The replies sent so far. -/
def replied : ℕ := g.hist.countP (Event.isReplyTo userPid q)

/-- The requests sent so far. -/
def requested (u : Fin c.nofUsers) : ℕ := g.hist.countP (Event.isRequestOf u q)

section Simp

variable {userPid q} (e : c.Event) (m : Message) (s : Service) (qu : ServiceQueue)

@[simp] theorem asking_log : (g.log e).asking userPid q = g.asking userPid q := rfl

@[simp] theorem answering_log : (g.log e).answering userPid q = g.answering userPid q := rfl

@[simp] theorem queuing_log : (g.log e).queuing userPid q = g.queuing userPid q := rfl

@[simp] theorem replied_log : (g.log e).replied userPid q =
    g.replied userPid q + if e.isReplyTo userPid q then 1 else 0 := by
  simp [replied, List.countP_append]

@[simp] theorem asking_send : (g.send m).asking userPid q =
    g.asking userPid q + if m.asks userPid q then 1 else 0 := by
  simp [asking, List.countP_append]

@[simp] theorem answering_send : (g.send m).answering userPid q =
    g.answering userPid q + if m.answers userPid q then 1 else 0 := by
  simp [answering, List.countP_append]

@[simp] theorem queuing_send : (g.send m).queuing userPid q = g.queuing userPid q := rfl

@[simp] theorem replied_send : (g.send m).replied userPid q = g.replied userPid q := rfl

@[simp] theorem asking_setQueue : (g.setQueue s qu).asking userPid q = g.asking userPid q := rfl

@[simp] theorem answering_setQueue :
    (g.setQueue s qu).answering userPid q = g.answering userPid q := rfl

@[simp] theorem replied_setQueue :
    (g.setQueue s qu).replied userPid q = g.replied userPid q := rfl

@[simp] theorem requested_send (u : Fin c.nofUsers) : (g.send m).requested q u = g.requested q u :=
  rfl

@[simp] theorem requested_log (u : Fin c.nofUsers) : (g.log e).requested q u =
    g.requested q u + if e.isRequestOf u q then 1 else 0 := by
  simp [requested, List.countP_append]

variable {e m s qu}

/-- A reception takes one message off the queue. -/
theorem asking_received {mtype : ℤ} (hm : g.firstOfType mtype = some m) :
    (g.received mtype).asking userPid q + (if m.asks userPid q then 1 else 0) =
      g.asking userPid q :=
  Mailbox.countP_eraseP _ hm

theorem answering_received {mtype : ℤ} (hm : g.firstOfType mtype = some m) :
    (g.received mtype).answering userPid q + (if m.answers userPid q then 1 else 0) =
      g.answering userPid q :=
  Mailbox.countP_eraseP _ hm

/-- A pop takes one ticket off the queue. -/
theorem queuing_pop {t : QueueTicket} (hqu : (g.queues s).toList = t :: qu.toList) :
    (g.setQueue s qu).queuing userPid q + ind (t.userPid = userPid ∧ s = q) =
      g.queuing userPid q := by
  unfold queuing
  by_cases hs : s = q
  · subst hs
    rw [setQueue_queues, Function.update_self, hqu, List.countP_cons]
    simp [ind]
  · rw [setQueue_queues, Function.update_of_ne (Ne.symm hs), ind_of_not fun h => hs h.2]
    rfl

/-- A push adds one. -/
theorem queuing_push {t : QueueTicket} (hqu : qu.toList = (g.queues s).toList ++ [t]) :
    (g.setQueue s qu).queuing userPid q =
      g.queuing userPid q + ind (t.userPid = userPid ∧ s = q) := by
  unfold queuing
  by_cases hs : s = q
  · subst hs
    rw [setQueue_queues, Function.update_self, hqu, List.countP_append, List.countP_singleton]
    simp [ind]
  · rw [setQueue_queues, Function.update_of_ne (Ne.symm hs), ind_of_not fun h => hs h.2]
    rfl

/-- Emptying an empty queue changes nothing. -/
theorem queuing_reset (h : (g.queues s).length = 0) :
    (g.setQueue s serviceQueueReset).queuing userPid q = g.queuing userPid q := by
  unfold queuing
  by_cases hs : q = s
  · subst hs
    rw [(RingBuffer.toList_eq_nil_iff (g.queues q)).mpr h]
    simp [serviceQueueReset]
  · rw [setQueue_queues, Function.update_of_ne hs]

end Simp

end Shared

/-- The dispenser's local message is that request. -/
def DispPc.handles {seats : ℕ} (pc : DispPc seats) (userPid : ℤ) (q : Service) : Prop :=
  pc.hand.map (fun x => (x.1.userPid, x.2)) = some (userPid, some q)

instance {seats : ℕ} (pc : DispPc seats) (userPid : ℤ) (q : Service) :
    Decidable (pc.handles userPid q) := by unfold DispPc.handles; infer_instance

/-- The ticket in the hands of an operator of the given service is that request. -/
def OpView.handles {seats : ℕ} (service : Service) (v : OpView seats) (userPid : ℤ)
    (q : Service) : Prop :=
  service = q ∧ v.hand.map QueueTicket.userPid = some userPid

instance {seats : ℕ} (service : Service) (v : OpView seats) (userPid : ℤ) (q : Service) :
    Decidable (v.handles service userPid q) := by unfold OpView.handles; infer_instance

/-! ### The moves -/

section Moves

variable {g g' : Shared c} {p : ℤ} {q : Service}

/-- Nobody but the user sends its requests. -/
theorem Logs.requested_eq {r : c.Proc} (h : Logs r g g') {u : Fin c.nofUsers}
    (hr : r ≠ .user u) : g'.requested q u = g.requested q u := by
  refine h.countP_eq ?_
  intro e he
  cases e with
  | requested v s =>
    refine decide_eq_false fun hv => hr ?_
    rw [← he, hv.1]
    rfl
  | _ => rfl

theorem DirPc.mem_unanswered_flushReply {seats workers users : ℕ} {s : Service} {t : QueueTicket} :
    (p, q) ∈ (DirPc.flushReply s t : DirPc seats workers users).unanswered ↔
      t.userPid = p ∧ s = q :=
  List.mem_singleton.trans (by rw [eq_comm, Prod.mk.injEq])

/-- The director's flush moves a ticket from the queue to its hands, and from there to a reply. -/
theorem Director.Move.requests {pc pc' : DirPc c.nofWorkerSeats c.nofWorkers c.nofUsers}
    {v v' : DirVars} (h : Director.Move pc v g pc' v' g')
    (hempty : ∀ q, pc.emptied q = true → (g.queues q).length = 0) (p : ℤ) (q : Service) :
    g'.asking p q + g'.queuing p q + ind ((p, q) ∈ pc'.unanswered) + g'.replied p q =
      g.asking p q + g.queuing p q + ind ((p, q) ∈ pc.unanswered) + g.replied p q ∧
    g'.answering p q + g.replied p q = g.answering p q + g'.replied p q := by
  cases h with
  | initOther hm | initMore hm | initLast hm | dayEndOther hm | dayEndMore hm | dayEndLast hm =>
    have h1 := @Shared.asking_received c g p q _ _ hm
    have h2 := @Shared.answering_received c g p q _ _ hm
    exact ⟨congrArg (· + _ + _ + _) h1, congrArg (· + _) h2⟩
  | resetQueueNext | resetQueueLast =>
    exact ⟨congrArg (_ + · + _ + _) (Shared.queuing_reset g (hempty _ rfl)), rfl⟩
  | @flushTake v g s t qu hlen hqu =>
    have hpop := @Shared.queuing_pop c g p q s qu t hqu
    simp only [DirPc.mem_unanswered_flushReply]
    simp [DirPc.unanswered, Event.isReplyTo] at hpop ⊢
    omega
  | @flushReply v g s t hroom =>
    simp only [DirPc.mem_unanswered_flushReply]
    simp [DirPc.unanswered, Event.isReplyTo, Message.asks, Message.answers, ind]
    omega
  | assignInit | dayBrokenOff | printDaily | finalPrint =>
    simp [DirPc.unanswered, Event.isReplyTo]
  | _ => exact ⟨rfl, rfl⟩

/-- The dispenser moves the request from the message queue to its hands, and from there to a queue
    or, refused, to a reply. Told to terminate, it may drop what is in its hands. -/
theorem Dispenser.Move.requests_or_drop {pc pc' : DispPc c.nofWorkerSeats} {f : DispFlags}
    (h : Dispenser.Move pc f g pc' g') (hvalid : ∀ m, pc.hand ≠ some (m, none))
    (hstamped : ∀ m q t, pc = .push m q t → t.userPid = m.userPid) (p : ℤ) (q : Service) :
    (f.terminateRequested = true ∧ pc'.hand = none ∧ g' = g) ∨
    (g'.asking p q + ind (pc'.handles p q) + g'.queuing p q + g'.replied p q =
        g.asking p q + ind (pc.handles p q) + g.queuing p q + g.replied p q ∧
      g'.answering p q + g.replied p q = g.answering p q + g'.replied p q) := by
  cases h with
  | refuseGiveUp h => exact .inl ⟨h, rfl, rfl⟩
  | invalidReply | invalidGiveUp => exact absurd rfl (hvalid _)
  | receive hm hs | receiveInvalid hm hs =>
    refine .inr ?_
    have h1 := @Shared.asking_received c g p q _ _ hm
    have h2 := @Shared.answering_received c g p q _ _ hm
    simp [DispPc.handles, DispPc.hand, Message.asks, Message.answers, hs, ind] at h1 h2 ⊢
    exact ⟨congrArg (· + _ + _) h1, congrArg (· + _) h2⟩
  | push hpush hqu =>
    refine .inr ?_
    rename_i m s t qu
    have hq := @Shared.queuing_push c g p q s qu t hqu
    rw [hstamped m s t rfl] at hq
    simp [DispPc.handles, DispPc.hand, Event.isReplyTo, ind] at hq ⊢
    omega
  | refuseReply hroom =>
    refine .inr ?_
    simp [DispPc.handles, DispPc.hand, Event.isReplyTo, Message.asks, Message.answers, ind]
    omega
  | init =>
    refine .inr ?_
    simp [DispPc.handles, DispPc.hand, Event.isReplyTo, Message.asks, Message.answers]
  | _ => exact .inr ⟨rfl, rfl⟩

/-- An operator moves the request from the queue to its hands, and from there to a reply. -/
theorem Operator.Move.requests {w : Fin c.nofWorkers} {l l' : Operator c}
    (h : Operator.Move w l g l' g') {p : ℤ} (hp : 0 < p) (q : Service) :
    g'.asking p q = g.asking p q ∧
    g'.queuing p q + ind ((view w l').handles (c.workerService w) p q) + g'.replied p q =
      g.queuing p q + ind ((view w l).handles (c.workerService w) p q) + g.replied p q ∧
    g'.answering p q + g.replied p q = g.answering p q + g'.replied p q := by
  have hview (x : Operator c) : view w x = x.pc.view (c.workerService w) := rfl
  cases h with
  | silent hf hv => rw [hv]; exact ⟨rfl, rfl, rfl⟩
  | acquire hf σ hm hl hσ hv | release hf σ hm hl hv => rw [hv]; exact ⟨rfl, rfl, rfl⟩
  | pop hf k t qu hlen hqu hpc hpc' =>
    have hpop := @Shared.queuing_pop c g p q _ qu t hqu
    have hhand : ind ((view w l').handles (c.workerService w) p q) =
        ind (t.userPid = p ∧ c.workerService w = q) := by
      refine ind_congr ?_
      rw [hview, hpc', OpView.handles, OpPc.view]
      by_cases ht : 0 < t.userPid
      · simp [ht, and_comm]
      · simp [ht]
        omega
    rw [hhand, hview, hpc]
    simp [OpView.handles, OpPc.view, OpView.seated, OpView.running, OpView.starting, OpView.idle,
      Event.isReplyTo]
    omega
  | reply hf k t hpc hpc' hroom =>
    rw [hview, hview, hpc, hpc']
    simp [OpView.handles, OpPc.view, OpView.seated, OpView.running, OpView.starting, OpView.idle,
      Event.isReplyTo, Message.asks, Message.answers, ind, and_comm]
    omega
  | init hf hpc hpc' | consume hf hpc hpc' | «begin» hf hpc hpc' | popEmpty hf k hlen hpc hpc'
  | serveStart hf k t m hpc hpc' | count hf k t n m hpc hpc' | pauseCount hf k hpc hpc'
  | pauseStats hf k hpc hpc' | raiseStop hf k hpc hpc' | finish hf hpc hpc' =>
    simp [hview, hpc, hpc', OpView.handles, OpPc.view, OpView.seated, OpView.running,
      OpView.starting, OpView.idle, Event.isReplyTo, Message.asks, Message.answers, noTicket]
    try exact ⟨rfl, rfl, rfl⟩
  | takeToken hf hσ hv hv' | giveToken hf p hv hv' | dropToken hf hi p hv hv'
  | pass hf i hi hv hv' | sit hf i hi hv hv' | stand hf k hv hv' | dropSeat hf hi k hv hv'
  | takeJob hf hσ k hv hv' | dropJob hf hi k hv hv' =>
    rw [hv, hv']
    exact ⟨rfl, rfl, rfl⟩

/-- A message of the type a user waits for is a reply. -/
theorem exists_reply {u : Fin c.nofUsers} {m : Message}
    (hm : m.mtype = userReplyBase + c.pid (.user u)) : ∃ r : UserReplyMessage,
    m = .userReply r ∧ r.mtype = userReplyBase + c.pid (.user u) := by
  have hpos := c.pid_pos (.user u)
  cases m with
  | userReply r => exact ⟨r, rfl, hm⟩
  | director | ticket =>
    simp only [Message.mtype, directorMtype, ticketRequestMtype, userReplyBase] at hm
    omega

/-- A user adds its requests to the message queue and touches no other place; the replies to the
    others stay where they are. -/
theorem User.Move.requests {u : Fin c.nofUsers} {pc pc' : UserPc} {f : UserFlags}
    (h : User.Move u pc f g pc' g') (v : Fin c.nofUsers) (q : Service) :
    g'.asking (c.pid (.user v)) q + g.requested q v =
      g.asking (c.pid (.user v)) q + g'.requested q v ∧
    (∀ p, g'.queuing p q = g.queuing p q ∧ g'.replied p q = g.replied p q) ∧
    (v ≠ u → g'.answering (c.pid (.user v)) q = g.answering (c.pid (.user v)) q) := by
  have hpid (x y : Fin c.nofUsers) : c.pid (.user x) = c.pid (.user y) ↔ x = y :=
    c.pid_injective.eq_iff.trans (by simp)
  cases h with
  | silent | giveUp => exact ⟨rfl, fun _ => ⟨rfl, rfl⟩, fun _ => rfl⟩
  | init | «begin» =>
    simp [Message.asks, Message.answers, Event.isReplyTo, Event.isRequestOf]
  | @request f g s hroom =>
    have hs : (c.request u s).service? = some s := c.request_service u s
    unfold Setup.request at hs
    simp [Message.asks, Message.answers, Event.isReplyTo, Event.isRequestOf, hpid, hs]
    omega
  | receive hm =>
    obtain ⟨r, rfl, hr⟩ := exists_reply (by simpa using (Mailbox.mem_of_find hm).2)
    have h1 := @Shared.asking_received c g (c.pid (.user v)) q _ _ hm
    have h2 := @Shared.answering_received c g (c.pid (.user v)) q _ _ hm
    refine ⟨congrArg (· + _) h1, fun _ => ⟨rfl, rfl⟩, fun hv => ?_⟩
    have hne : c.pid (.user u) ≠ c.pid (.user v) := fun h => hv ((hpid u v).mp h).symm
    simpa [Message.answers, hr, hne] using h2

/-- A user waits from the request to the reply; the reply it takes is one for it. Told to terminate,
    it may leave without the reply. -/
theorem User.Move.waits_or_leaves {u : Fin c.nofUsers} {pc pc' : UserPc} {f : UserFlags}
    (h : User.Move u pc f g pc' g') :
    (f.terminateRequested = true ∧ pc' = .mainTest ∧ g' = g) ∨
    (∀ q, g'.answering (c.pid (.user u)) q = g.answering (c.pid (.user u)) q ∧
      ind (pc'.waiting = some q) + g.requested q u =
        ind (pc.waiting = some q) + g'.requested q u) ∨
    (pc'.waiting = none ∧ (∀ q, g'.requested q u = g.requested q u) ∧
      ∃ r, ∀ q, g'.answering (c.pid (.user u)) q + ind (r = q) =
        g.answering (c.pid (.user u)) q) := by
  cases h with
  | silent hi hw => exact .inr (.inl fun q => ⟨rfl, by rw [hw]⟩)
  | giveUp h => exact .inl ⟨h, rfl, rfl⟩
  | init | «begin» =>
    exact .inr (.inl fun q => by simp [Message.answers, UserPc.waiting, Event.isRequestOf])
  | @request f g s hroom =>
    refine .inr (.inl ?_)
    intro q
    simp [Message.answers, UserPc.waiting, Event.isRequestOf, ind]
    omega
  | receive hm =>
    obtain ⟨r, rfl, hr⟩ := exists_reply (by simpa using (Mailbox.mem_of_find hm).2)
    refine .inr (.inr ⟨rfl, fun _ => rfl, r.service, fun q => ?_⟩)
    have h2 := @Shared.answering_received c g (c.pid (.user u)) q _ _ hm
    simpa [Message.answers, hr, ind] using h2

end Moves

/-! ### The invariant -/

namespace State

/-- The places a request of user `u` for service `q` can be in before it is answered. -/
def unanswered (s : State c) (u : Fin c.nofUsers) (q : Service) : ℕ :=
  s.g.asking (c.pid (.user u)) q + ind (s.dispenser.pc.handles (c.pid (.user u)) q) +
    s.g.queuing (c.pid (.user u)) q +
    Family.total (fun w v => ind (v.handles (c.workerService w) (c.pid (.user u)) q)) s.view +
    ind ((c.pid (.user u), q) ∈ s.director.pc.unanswered)

/-! #### What a step does to the requests of one user -/

section Books

variable (s : State c) (u : Fin c.nofUsers) (q : Service)

/-- The user's own request comes in. -/
theorem unanswered_setUser {v : Fin c.nofUsers} {l' : User} {g' : Shared c}
    (hm : User.Move v (s.users v).pc (s.users v).vars s.g l'.pc g') :
    (s.setUser v (l', g')).unanswered u q + s.g.requested q u =
      s.unanswered u q + g'.requested q u := by
  obtain ⟨hask, hrest, -⟩ := hm.requests u q
  have hqueue := (hrest (c.pid (.user u))).1
  simp only [unanswered, setUser_g, setUser_dispenser, setUser_director, view_setUser]
  omega

/-- An answer takes the request out. -/
theorem unanswered_setDirector {l' : Director c} {g' : Shared c} (hC : s.Closing)
    (hm : Director.Move s.director.pc s.director.vars s.g l'.pc l'.vars g') :
    (s.setDirector (l', g')).unanswered u q + g'.replied (c.pid (.user u)) q =
      s.unanswered u q + s.g.replied (c.pid (.user u)) q := by
  have hbooks := (hm.requests hC.emptied (c.pid (.user u)) q).1
  simp only [unanswered, setDirector_g, setDirector_director, setDirector_dispenser,
    view_setDirector]
  omega

/-- Told to terminate, the dispenser may drop the request in its hands. -/
theorem unanswered_setDispenser {l' : Dispenser c} {g' : Shared c} (hG : s.Genuine)
    (hm : Dispenser.Move s.dispenser.pc s.dispenser.vars s.g l'.pc g') :
    (s.dispenser.vars.terminateRequested = true ∧ g' = s.g ∧
      (s.setDispenser (l', g')).unanswered u q ≤ s.unanswered u q) ∨
    ((s.setDispenser (l', g')).unanswered u q + g'.replied (c.pid (.user u)) q =
        s.unanswered u q + s.g.replied (c.pid (.user u)) q ∧
      g'.answering (c.pid (.user u)) q + s.g.replied (c.pid (.user u)) q =
        s.g.answering (c.pid (.user u)) q + g'.replied (c.pid (.user u)) q) := by
  have hvalid (m) : s.dispenser.pc.hand ≠ some (m, none) := by
    intro hm
    obtain ⟨_, _, _, h⟩ := hG.hand m none hm
    cases h
  simp only [unanswered, setDispenser_g, setDispenser_director, setDispenser_dispenser,
    view_setDispenser]
  rcases hm.requests_or_drop hvalid (fun m q t h => (hG.stamped m q t h).1) (c.pid (.user u)) q
    with ⟨hterm, hnone, rfl⟩ | ⟨hbooks, hreplies⟩
  · have hempty : ind (l'.pc.handles (c.pid (.user u)) q) = 0 := by simp [DispPc.handles, hnone]
    refine .inl ⟨hterm, rfl, ?_⟩
    omega
  · refine .inr ⟨?_, hreplies⟩
    omega

theorem unanswered_setOperator {w : Fin c.nofWorkers} {l' : Operator c} {g' : Shared c}
    (hm : Operator.Move w (s.operators w) s.g l' g') :
    (s.setOperator w (l', g')).unanswered u q + g'.replied (c.pid (.user u)) q =
      s.unanswered u q + s.g.replied (c.pid (.user u)) q := by
  obtain ⟨hask, hbooks, -⟩ := hm.requests (c.pid_pos (.user u)) q
  have htotal := s.total_view_setOperator
    (fun w v => ind (v.handles (c.workerService w) (c.pid (.user u)) q)) w (l', g')
  rw [view_eq] at hbooks
  dsimp only at htotal
  simp only [unanswered, setOperator_g, setOperator_director, setOperator_dispenser]
  omega

/-- The one thing there is for the user is taken: nothing is left. -/
theorem nothing_left {waiting : Option Service} {r : Service} {here left : Service → ℕ}
    (hone : ∀ q, here q ≤ ind (waiting = some q)) (htake : ∀ q, left q + ind (r = q) = here q) :
    left q = 0 := by
  have hr := htake r
  rw [ind_of rfl] at hr
  have hle := hone q
  have hq := htake q
  by_cases hrq : r = q
  · subst hrq
    have := ind_le_one (waiting = some r)
    omega
  · have hwaiting : waiting = some r := by
      by_contra hne
      have := hone r
      rw [ind_of_not hne] at this
      omega
    rw [hwaiting, ind_of_not (by simpa using hrq)] at hle
    omega

end Books

/-- The books of the requests, until `stop_children`. -/
def Requests (s : State c) : Prop :=
  s.director.pc.stopping = false → ∀ u q,
    s.unanswered u q + s.g.answering (c.pid (.user u)) q =
      ind ((s.userPc u).waiting = some q) ∧
    s.g.requested q u = s.g.replied (c.pid (.user u)) q + s.unanswered u q

namespace Requests

variable {s s' : State c}

theorem user (hT : s.Termination) (hI : s.Requests) {u : Fin c.nofUsers} {l' : User}
    {g' : Shared c} (hm : User.Move u (s.users u).pc (s.users u).vars s.g l'.pc g') :
    (s.setUser u (l', g')).Requests := by
  intro hstop v q
  obtain ⟨h1, h2⟩ := hI hstop v q
  have hopen := s.unanswered_setUser v q hm
  obtain ⟨-, hrest, hother⟩ := hm.requests v q
  have hrep := (hrest (c.pid (.user v))).2
  simp only [setUser_g, userPc_setUser]
  by_cases hv : v = u
  · subst hv
    have hf := hT.not_user hstop v
    rw [Function.update_self]
    rw [← userPc_eq] at h1
    rcases hm.waits_or_leaves with ⟨ht, -, -⟩ | hw | ⟨hnone, hreq, r, hr⟩
    · exact absurd (hf.symm.trans ht) Bool.false_ne_true
    · obtain ⟨ha, hw⟩ := hw q
      show _ + g'.answering _ _ = ind (l'.pc.waiting = some q) ∧ _
      omega
    · -- The reply it takes is the one it was waiting for, so nothing is left of the request.
      have htake (q : Service) : (s.setUser v (l', g')).unanswered v q +
          g'.answering (c.pid (.user v)) q + ind (r = q) =
          s.unanswered v q + s.g.answering (c.pid (.user v)) q := by
        have := s.unanswered_setUser v q hm
        have := hreq q
        have := hr q
        omega
      have hleft := nothing_left q (fun q => (hI hstop v q).1.le) htake
      have hreq := hreq q
      show _ + g'.answering _ _ = ind (l'.pc.waiting = some q) ∧ _
      rw [hnone, ind_of_not (by simp)]
      omega
  · rw [Function.update_of_ne hv]
    have := hother hv
    have hreq : g'.requested q v = s.g.requested q v :=
      hm.logs.requested_eq (by simpa using Ne.symm hv)
    omega

theorem step (hG : s.Genuine) (hC : s.Closing) (hT : s.Termination) (hI : s.Requests)
    (h : s.Move s') : s'.Requests := by
  cases h with
  | @director l' g' hm =>
    by_cases hstop : s.director.pc.stopping = true
    · exact fun h => absurd (h.symm.trans (hm.stopping hstop)) Bool.false_ne_true
    intro _ u q
    obtain ⟨h1, h2⟩ := hI (Bool.eq_false_iff.mpr hstop) u q
    have hbooks := s.unanswered_setDirector u q hC hm
    have hreplies := (hm.requests hC.emptied (c.pid (.user u)) q).2
    have hreq : g'.requested q u = s.g.requested q u := hm.logs.requested_eq (by simp)
    show _ + g'.answering _ _ = ind ((s.userPc u).waiting = some q) ∧
      g'.requested q u = g'.replied _ q + _
    omega
  | @dispenser l' g' hm hf =>
    intro hstop u q
    have hflag := hT.not_dispenser hstop
    obtain ⟨h1, h2⟩ := hI hstop u q
    obtain ⟨hbooks, hreplies⟩ := (s.unanswered_setDispenser u q hG hm).resolve_left fun ht =>
      Bool.false_ne_true (hflag.symm.trans ht.1)
    have hreq : g'.requested q u = s.g.requested q u := hm.logs.requested_eq (by simp)
    show _ + g'.answering _ _ = ind ((s.userPc u).waiting = some q) ∧
      g'.requested q u = g'.replied _ q + _
    omega
  | @operator n l' g' w hstep hm =>
    intro hstop u q
    obtain ⟨h1, h2⟩ := hI hstop u q
    have hbooks := s.unanswered_setOperator u q hm
    obtain ⟨-, -, hreplies⟩ := hm.requests (c.pid_pos (.user u)) q
    have hreq : g'.requested q u = s.g.requested q u := hm.logs.requested_eq (by simp)
    show _ + g'.answering _ _ = ind ((s.userPc u).waiting = some q) ∧
      g'.requested q u = g'.replied _ q + _
    omega
  | user u hm hf => exact hI.user hT hm
  | deliver p sigs hp =>
    intro hstop u q
    simpa [unanswered, Shared.asking, Shared.queuing, Shared.answering, Shared.replied,
      Shared.requested] using hI (by simpa using hstop) u q
  | interrupt sig hsig => exact hI
  | tick ns => exact hI

theorem init : (State.init c).Requests := by
  intro _ u q
  have hview : Family.total (fun w v => ind (v.handles (c.workerService w) (c.pid (.user u)) q))
      (State.init c).view = 0 := Family.total_eq_zero fun w => ind_of_not fun h => nomatch h.2
  unfold unanswered
  rw [hview]
  exact ⟨rfl, rfl⟩

end Requests

end State

theorem requests {s : State c} (h : Reachable s) : s.Requests :=
  h.invariant .init fun _ _ hr hI hm =>
    hI.step (genuine hr) (closing hr) (termination hr) hm

/-- CORRECT: no request is lost, duplicated or misdelivered. Until the director starts
    `stop_children`, a user that waits for a reply for service `q` has exactly one request for `q`
    in one of the six places (`unanswered` counts the first five, `answering` the reply messages)
    and none for another service; a user that does not wait has none. So each request is answered
    exactly once: the requests sent are those replied to and the one still unanswered. -/
theorem request_in_one_place {s : State c} (h : Reachable s)
    (hs : s.director.pc.stopping = false) (u : Fin c.nofUsers) (q : Service) :
    s.unanswered u q + s.g.answering (c.pid (.user u)) q =
        ind ((s.userPc u).waiting = some q) ∧
      s.g.requested q u = s.g.replied (c.pid (.user u)) q + s.unanswered u q :=
  requests h hs u q

/-- In the small office the first user's ticket is in the queue. -/
theorem request_in_one_place_small : ∃ s : State smallOffice,
    exec step SmallOffice.queued (State.init smallOffice) = some s ∧ s.g.queuing 103 0 = 1 ∧
    s.unanswered (0 : Fin 2) 0 + s.g.answering 103 0 = 1 ∧
    s.g.requested 0 (0 : Fin 2) = s.g.replied 103 0 + s.unanswered (0 : Fin 2) 0 := by
  have hrun : ((exec step SmallOffice.queued (State.init smallOffice)).any fun s =>
      decide (s.g.queuing 103 0 = 1 ∧ s.director.pc.stopping = false ∧
        (s.userPc (0 : Fin 2)).waiting = some 0)) = true := by decide +kernel
  obtain ⟨s, hs, h⟩ := (Option.any_eq_true _ _).mp hrun
  obtain ⟨hqueue, hstop, hwait⟩ := of_decide_eq_true h
  obtain ⟨hone, hhist⟩ := request_in_one_place (reach_of_exec _ hs) hstop (0 : Fin 2) 0
  exact ⟨s, hs, hqueue, hone.trans (ind_of hwait), hhist⟩

end PostOffice
