import PostOffice.SystemMove

/-! The requests. Only the users make requests, and the services they draw exist: the branch of the
    dispenser for a service out of range is never taken, every ticket carries the process id of a
    user, and no pop with a ticket in the queue is taken for an empty one.

        user ─ request ─▶ queue of messages ─▶ dispenser ─ ticket ─▶ queues[s] ─▶ operator -/

namespace PostOffice

variable {c : Setup}

/-- The request user `u` sends for service `q`. -/
def Setup.request (c : Setup) (u : Fin c.nofUsers) (q : Service) : TicketMessage :=
  { userIndex := u, userPid := c.pid (.user u), service := q }

/-- The ticket of a user. -/
def Setup.IsTicket (c : Setup) (t : QueueTicket) : Prop :=
  ∃ u : Fin c.nofUsers, t.userPid = c.pid (.user u) ∧ t.userIndex = u

@[simp] theorem Setup.request_service (u : Fin c.nofUsers) (q : Service) :
    (c.request u q).service? = some q := by
  have hq := q.isLt
  have hle : (0 : ℤ) ≤ (q : ℕ) ∧ ((q : ℕ) : ℤ) < (serviceCount : ℕ) := by omega
  exact dif_pos hle

theorem Setup.IsTicket.pos {t : QueueTicket} (h : c.IsTicket t) : 0 < t.userPid := by
  obtain ⟨u, hu, -⟩ := h
  exact hu ▸ c.pid_pos (.user u)

/-! ### The moves -/

section Moves

variable {g g' : Shared c} {m : TicketMessage}

theorem Shared.ticket_received {mtype : ℤ} (h : Message.ticket m ∈ (g.received mtype).msgs) :
    Message.ticket m ∈ g.msgs :=
  List.mem_of_mem_eraseP h

theorem Shared.ticket_send {x : Message} (h : Message.ticket m ∈ (g.send x).msgs)
    (hx : x ≠ .ticket m) : Message.ticket m ∈ g.msgs := by
  rw [Shared.send_msgs, List.mem_append, List.mem_singleton] at h
  exact h.resolve_right fun he => hx he.symm

theorem Director.Move.ticket {pc pc' : DirPc c.nofWorkerSeats c.nofWorkers c.nofUsers}
    {v v' : DirVars} (h : Director.Move pc v g pc' v' g') (hm : Message.ticket m ∈ g'.msgs) :
    Message.ticket m ∈ g.msgs := by
  cases h
  case flushReply => exact Shared.ticket_send hm (by simp)
  case initOther | initMore | initLast | dayEndOther | dayEndMore | dayEndLast =>
    exact Shared.ticket_received hm
  all_goals exact hm

theorem Dispenser.Move.ticket {pc pc' : DispPc c.nofWorkerSeats} {f : DispFlags}
    (h : Dispenser.Move pc f g pc' g') (hm : Message.ticket m ∈ g'.msgs) :
    Message.ticket m ∈ g.msgs := by
  cases h with
  | init | invalidReply | refuseReply => exact Shared.ticket_send hm (by simp)
  | receive | receiveInvalid => exact Shared.ticket_received hm
  | _ => exact hm

theorem Operator.Move.ticket {w : Fin c.nofWorkers} {l l' : Operator c}
    (h : Operator.Move w l g l' g') (hm : Message.ticket m ∈ g'.msgs) :
    Message.ticket m ∈ g.msgs := by
  cases h with
  | init | reply | finish => exact Shared.ticket_send hm (by simp)
  | _ => exact hm

/-- A user adds its own request. -/
theorem User.Move.ticket {u : Fin c.nofUsers} {pc pc' : UserPc} {f : UserFlags}
    (h : User.Move u pc f g pc' g') (hm : Message.ticket m ∈ g'.msgs) :
    Message.ticket m ∈ g.msgs ∨ ∃ q, m = c.request u q := by
  cases h with
  | init => exact .inl (Shared.ticket_send hm (by simp))
  | receive => exact .inl (Shared.ticket_received hm)
  | @request f g q hroom =>
    rw [Shared.log_msgs, Shared.send_msgs, List.mem_append, List.mem_singleton] at hm
    exact hm.imp_right fun he => ⟨q, Message.ticket.inj he⟩
  | _ => exact .inl hm

/-- What the dispenser holds it had before or has received. -/
theorem Dispenser.Move.hand {pc pc' : DispPc c.nofWorkerSeats} {f : DispFlags}
    (h : Dispenser.Move pc f g pc' g') {x : TicketMessage × Option Service}
    (hx : pc'.hand = some x) :
    pc.hand = some x ∨ ∃ m, Message.ticket m ∈ g.msgs ∧ x = (m, m.service?) := by
  cases h with
  | receive hm hs | receiveInvalid hm hs =>
    refine .inr ⟨_, (Mailbox.mem_of_find hm).1, ?_⟩
    rw [hs]
    exact (Option.some.inj hx).symm
  | _ => first | exact .inl hx | cases hx

/-- The stamp does not change the user. -/
theorem Dispenser.Move.stamped {pc pc' : DispPc c.nofWorkerSeats} {f : DispFlags}
    (h : Dispenser.Move pc f g pc' g') {q : Service} {t : QueueTicket} (hpc' : pc' = .push m q t) :
    pc = .push m q t ∨ t.userPid = m.userPid ∧ t.userIndex = m.userIndex := by
  cases h with
  | stay => exact .inl hpc'
  | stamp =>
    cases hpc'
    exact .inr ⟨rfl, rfl⟩
  | _ => cases hpc'

/-- What the dispenser adds to a queue. -/
theorem Dispenser.Move.queued {pc pc' : DispPc c.nofWorkerSeats} {f : DispFlags}
    (h : Dispenser.Move pc f g pc' g') {q : Service} {t : QueueTicket}
    (ht : t ∈ (g'.queues q).toList) :
    t ∈ (g.queues q).toList ∨ ∃ m, pc = .push m q t := by
  cases h with
  | push hpush hqu =>
    rename_i m s t' qu
    simp only [Shared.log_queues, Shared.setQueue_queues, Function.update_apply] at ht
    split at ht
    · subst_vars
      rw [hqu, List.mem_append, List.mem_singleton] at ht
      rcases ht with ht | rfl
      · exact .inl ht
      · exact .inr ⟨m, rfl⟩
    · exact .inl ht
  | _ => exact .inl ht

theorem Director.Move.queued {pc pc' : DirPc c.nofWorkerSeats c.nofWorkers c.nofUsers}
    {v v' : DirVars} (h : Director.Move pc v g pc' v' g') {q : Service} {t : QueueTicket}
    (ht : t ∈ (g'.queues q).toList) : t ∈ (g.queues q).toList := by
  cases h
  case resetQueueNext s _ | resetQueueLast s _ =>
    simp only [Shared.setQueue_queues, Function.update_apply] at ht
    split at ht
    · simp [serviceQueueReset] at ht
    · exact ht
  case flushTake s t' qu hlen hqu =>
    simp only [Shared.log_queues, Shared.setQueue_queues, Function.update_apply] at ht
    split at ht
    · subst_vars
      exact hqu ▸ List.mem_cons_of_mem _ ht
    · exact ht
  all_goals exact ht

theorem Operator.Move.queued {w : Fin c.nofWorkers} {l l' : Operator c}
    (h : Operator.Move w l g l' g') {q : Service} {t : QueueTicket}
    (ht : t ∈ (g'.queues q).toList) : t ∈ (g.queues q).toList := by
  cases h with
  | pop hf k t' qu hlen hqu hpc hpc' =>
    simp only [Shared.log_queues, Shared.setQueue_queues, Function.update_apply] at ht
    split at ht
    · subst_vars
      exact hqu ▸ List.mem_cons_of_mem _ ht
    · exact ht
  | _ => exact ht

/-- The ticket in the hands of an operator comes from the queue of its service. -/
theorem Operator.Move.hand {w : Fin c.nofWorkers} {l l' : Operator c}
    (h : Operator.Move w l g l' g') {t : QueueTicket} (ht : (view w l').hand = some t) :
    (view w l).hand = some t ∨ t ∈ (g.queues (c.workerService w)).toList := by
  have hview (x : Operator c) : view w x = x.pc.view (c.workerService w) := rfl
  cases h with
  | silent hf hv => exact .inl (hv ▸ ht)
  | acquire hf σ hm hl hσ hv | release hf σ hm hl hv =>
    rw [hv] at ht
    exact .inl ht
  | pop hf k t' qu hlen hqu hpc hpc' =>
    rw [hview, hpc', OpPc.view] at ht
    obtain rfl : t' = t := Option.some.inj (Option.ite_none_right_eq_some.mp ht).2
    exact .inr (hqu ▸ List.mem_cons_self)
  | popEmpty hf k hlen hpc hpc' =>
    rw [hview, hpc'] at ht
    cases ht
  | init hf hpc hpc' | consume hf hpc hpc' | «begin» hf hpc hpc' | pauseCount hf k hpc hpc'
  | pauseStats hf k hpc hpc' | raiseStop hf k hpc hpc' | finish hf hpc hpc'
  | serveStart hf k t m hpc hpc' | count hf k t n m hpc hpc' | reply hf k t hpc hpc' =>
    rw [hview, hpc'] at ht
    rw [hview, hpc]
    first | exact .inl ht | cases ht
  | takeToken hf hσ hv hv' | giveToken hf p hv hv' | dropToken hf hi p hv hv'
  | pass hf i hi hv hv' | sit hf i hi hv hv' | stand hf k hv hv' | dropSeat hf hi k hv hv'
  | takeJob hf hσ k hv hv' | dropJob hf hi k hv hv' =>
    rw [hv'] at ht
    cases ht

/-- An operator pops from the queue of its service. -/
theorem Operator.Move.popped {w : Fin c.nofWorkers} {l l' : Operator c}
    (h : Operator.Move w l g l' g') {v : Fin c.nofWorkers} {q : Service} {t : QueueTicket}
    (hp : Event.popped v q t ∈ g'.hist) : Event.popped v q t ∈ g.hist ∨
      v = w ∧ q = c.workerService w ∧ t ∈ (g.queues q).toList := by
  cases h with
  | pop hf k t' qu hlen hqu hpc hpc' =>
    rw [Shared.log_hist, List.mem_append, List.mem_singleton] at hp
    refine hp.imp_right ?_
    intro he
    cases he
    exact ⟨rfl, rfl, hqu ▸ List.mem_cons_self⟩
  | init | «begin» | popEmpty | count | reply | finish =>
    rw [Shared.log_hist, List.mem_append, List.mem_singleton] at hp
    exact .inl (hp.resolve_right (by simp))
  | _ => exact .inl hp

end Moves

/-- Nobody but an operator pops for it. -/
theorem Logs.popped {p : c.Proc} {g g' : Shared c} (h : Logs p g g') (hp : ∀ w, p ≠ .operator w)
    {v : Fin c.nofWorkers} {q : Service} {t : QueueTicket}
    (hx : Event.popped v q t ∈ g'.hist) : Event.popped v q t ∈ g.hist :=
  (h.mem hx).resolve_right fun he => hp v he.symm

/-! ### The invariant -/

namespace State

/-- Every request on its way is a user's. -/
structure Genuine (s : State c) : Prop where
  messages : ∀ m, Message.ticket m ∈ s.g.msgs → ∃ u q, m = c.request u q
  hand : ∀ m r, s.dispenser.pc.hand = some (m, r) → ∃ u q, m = c.request u q ∧ r = some q
  stamped : ∀ m q t, s.dispenser.pc = .push m q t →
    t.userPid = m.userPid ∧ t.userIndex = m.userIndex
  queued : ∀ q, ∀ t ∈ (s.g.queues q).toList, c.IsTicket t
  held : ∀ w t, (s.view w).hand = some t → c.IsTicket t
  popped : ∀ w q t, Event.popped w q t ∈ s.g.hist → q = c.workerService w ∧ c.IsTicket t

namespace Genuine

variable {s s' : State c}

theorem step (hI : s.Genuine) (h : s.Move s') : s'.Genuine := by
  cases h with
  | director hm =>
    exact ⟨fun m hx => hI.messages m (hm.ticket hx), hI.hand, hI.stamped,
      fun q t ht => hI.queued q t (hm.queued ht), hI.held,
      fun w q t hx => hI.popped w q t (hm.logs.popped (by simp) hx)⟩
  | dispenser hm hf =>
    refine ⟨fun m hx => hI.messages m (hm.ticket hx), fun m r hx => ?_, fun m q t hpc => ?_,
      fun q t ht => ?_, hI.held, fun w q t hx => hI.popped w q t (hm.logs.popped (by simp) hx)⟩
    · rcases hm.hand hx with hx | ⟨m', hm', he⟩
      · exact hI.hand m r hx
      · obtain ⟨u, q, rfl⟩ := hI.messages m' hm'
        rw [Setup.request_service] at he
        cases he
        exact ⟨u, q, rfl, rfl⟩
    · exact (hm.stamped hpc).elim (hI.stamped m q t) id
    · rcases hm.queued ht with ht | ⟨m, hpc⟩
      · exact hI.queued q t ht
      · obtain ⟨u, r, rfl, -⟩ := hI.hand m (some q) (by rw [hpc]; rfl)
        exact ⟨u, hI.stamped _ q t hpc⟩
  | operator w hstep hm =>
    refine ⟨fun m hx => hI.messages m (hm.ticket hx), hI.hand, hI.stamped,
      fun q t ht => hI.queued q t (hm.queued ht), fun v t ht => ?_, fun v q t hx => ?_⟩
    · rw [State.view_setOperator] at ht
      by_cases hv : v = w
      · subst hv
        rw [Function.update_self] at ht
        exact (hm.hand ht).elim (hI.held v t) (hI.queued _ t)
      · rw [Function.update_of_ne hv] at ht
        exact hI.held v t ht
    · rcases hm.popped hx with hx | ⟨rfl, rfl, ht⟩
      · exact hI.popped v q t hx
      · exact ⟨rfl, hI.queued _ t ht⟩
  | user u hm hf =>
    refine ⟨fun m hx => ?_, hI.hand, hI.stamped, ?_, hI.held,
      fun w q t hx => hI.popped w q t (hm.logs.popped (by simp) hx)⟩
    · rcases hm.ticket hx with hx | ⟨q, rfl⟩
      · exact hI.messages m hx
      · exact ⟨u, q, rfl⟩
    · rw [hm.frame]
      exact hI.queued
  | deliver p sigs hp =>
    refine ⟨?_, ?_, ?_, ?_, ?_, ?_⟩
    · simpa using hI.messages
    · simpa using hI.hand
    · simpa using hI.stamped
    · simpa using hI.queued
    · simpa using hI.held
    · simpa using hI.popped
  | interrupt sig hsig =>
    exact ⟨hI.messages, hI.hand, hI.stamped, hI.queued, hI.held, hI.popped⟩
  | tick ns => exact ⟨hI.messages, hI.hand, hI.stamped, hI.queued, hI.held, hI.popped⟩

theorem init : (State.init c).Genuine := ⟨nofun, nofun, nofun, fun _ => nofun, nofun, nofun⟩

end Genuine

end State

theorem genuine {s : State c} (h : Reachable s) : s.Genuine :=
  h.invariant .init fun _ _ _ hI hm => hI.step hm

end PostOffice
