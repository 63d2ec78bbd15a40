import PostOffice.Shared

/-! The ticket dispenser (`erogatore_ticket.c`): receives the requests one at a time, counts each,
    and either pushes a ticket onto the queue of the service or turns the user away.

        receive ─▶ count… ─▶ testActive ─▶ offered ─▶ queueLock ─▶ queueActive ─▶ queueFull
           ▲                     │             │                        │             │
           │                     └─────────────┴─▶ refuse… ◀─ rejectUnlock ◀──────────┤
           └──────── postJob ◀─ pushUnlock ◀─ push ◀─ stamp ◀─────────────────────────┘

    The arguments of a program point are the live local variables: the message `m`, its service `s`
    once it is known to be in range, and the ticket `t`. -/

namespace PostOffice

/-- The program points of the dispenser. -/
inductive DispPc (seats : ℕ) where
  | sendInit | mainTest | receive
  /-- The reply to a request whose service does not exist. -/
  | invalidReply (m : TicketMessage)
  -- mark_request
  | countLock (m : TicketMessage) (s : Service) | countStats (m : TicketMessage) (s : Service)
  | countUnlock (m : TicketMessage) (s : Service)
  -- enqueue_user_request
  | testActive (m : TicketMessage) (s : Service)
  | offered (m : TicketMessage) (s : Service) (i : Fin seats)
  | queueLock (m : TicketMessage) (s : Service)
  | queueActive (m : TicketMessage) (s : Service) | queueFull (m : TicketMessage) (s : Service)
  | stamp (m : TicketMessage) (s : Service)
  | push (m : TicketMessage) (s : Service) (t : QueueTicket)
  | pushUnlock (s : Service) | postJob (s : Service)
  | rejectUnlock (m : TicketMessage) (s : Service)
  -- mark_not_served and the negative reply
  | refuseLock (m : TicketMessage) (s : Service) | refuseStats (m : TicketMessage) (s : Service)
  | refuseUnlock (m : TicketMessage) (s : Service) | refuseReply (m : TicketMessage) (s : Service)
  | done
  deriving DecidableEq

/-- The dispenser's flag. -/
structure DispFlags where
  terminateRequested : Bool
  deriving DecidableEq

/-- `handle_ticket_signal`. -/
def handleTicketSignal (v : DispFlags) : Signal → DispFlags
  | .term => { v with terminateRequested := true }
  | .int | .usr1 | .usr2 => v

/-- The dispenser process. -/
abbrev Dispenser (c : Setup) := Task (DispPc c.nofWorkerSeats) DispFlags

/-- The part of `mark_request` between `lock_stats` and `unlock_stats`. -/
def SimulationStats.markRequest (st : SimulationStats) (service : Service) : SimulationStats :=
  let bump (x : ServiceStats) : ServiceStats := { x with requests := x.requests + 1 }
  { st with
    dayByService := Function.update st.dayByService service (bump (st.dayByService service))
    totalByService := Function.update st.totalByService service (bump (st.totalByService service)) }

/-- The part of `mark_not_served` between `lock_stats` and `unlock_stats`, which
    `flush_pending_users` repeats. -/
def SimulationStats.markNotServed (st : SimulationStats) (service : Service) : SimulationStats :=
  let bump (x : ServiceStats) : ServiceStats := { x with notServed := x.notServed + 1 }
  { st with
    dayServicesNotServed := st.dayServicesNotServed + 1
    totalServicesNotServed := st.totalServicesNotServed + 1
    dayByService := Function.update st.dayByService service (bump (st.dayByService service))
    totalByService := Function.update st.totalByService service (bump (st.totalByService service)) }

/-- The service of a message, when `0 <= service < SERVICE_COUNT`. -/
def TicketMessage.service? (m : TicketMessage) : Option Service :=
  if h : 0 ≤ m.service ∧ m.service < serviceCount then
    some ⟨m.service.toNat, by omega⟩
  else none

namespace Dispenser

variable {c : Setup} (l : Dispenser c) (g : Shared c)

/-- `sem_op_retry` with -1, in callers that exit on any result but 0. -/
def semOpRetry (σ : Sem c.nofWorkerSeats) (next : DispPc c.nofWorkerSeats) :
    Option (Dispenser c × Shared c) :=
  if l.mode = .eintr then
    if l.vars.terminateRequested then some (l.exit 1, g) else some (l.retry, g)
  else l.semWait g σ next

/-- `send_user_reply`: given up when the dispenser is told to terminate. -/
def sendUserReply (userPid : ℤ) (status : UserReplyStatus) (service : Service)
    (next : DispPc c.nofWorkerSeats) : Option (Dispenser c × Shared c) :=
  if l.mode = .eintr then
    if l.vars.terminateRequested then some (l.goto next, g) else some (l.retry, g)
  else l.msgSend g
    (.userReply { mtype := userReplyBase + userPid, status := status, service := service })
    (.replied .dispenser userPid status service) next

/-- One step of the live dispenser. -/
def body : Option (Dispenser c × Shared c) :=
  match l.pc with
  | .sendInit =>
      if l.mode = .eintr then some (l.retry, g)
      else l.msgSend g (.director { kind := .init, index := -1, pid := c.pid .dispenser })
        (.init .dispenser) .mainTest
  | .mainTest =>
      if l.vars.terminateRequested then some ((l.goto .done).exit 0, g)
      else some (l.goto .receive, g)
  | .receive =>
      if l.mode = .eintr then
        if l.vars.terminateRequested then some ((l.goto .done).exit 0, g)
        else some (l.goto .mainTest, g)
      else match g.firstOfType ticketRequestMtype with
        | some (.ticket m) => some (l.goto (match m.service? with
            | some s => .countLock m s
            | none => .invalidReply m), g.received ticketRequestMtype)
        | some _ => none
        | none => if l.mode = .asleep then none else some (l.sleep, g)
  | .invalidReply m => sendUserReply l g m.userPid .notServed 0 .mainTest
  -- mark_request
  | .countLock m s => semOpRetry l g .stats (.countStats m s)
  | .countStats m s => some (l.goto (.countUnlock m s), g.setStats (g.stats.markRequest s))
  | .countUnlock m s => l.semPost g .stats (.testActive m s)
  -- enqueue_user_request
  | .testActive m s =>
      some (l.goto (if g.dayActive then forLoop c.nofWorkerSeats 0 (.offered m s) (.refuseLock m s)
        else .refuseLock m s), g)
  | .offered m s i =>
      -- service_is_offered_today reads one counter, without a lock
      some (l.goto (if (g.counters i).service = some s then .queueLock m s
        else forLoop c.nofWorkerSeats (i + 1) (.offered m s) (.refuseLock m s)), g)
  | .queueLock m s => semOpRetry l g (.queueMutex s) (.queueActive m s)
  | .queueActive m s => some (l.goto (if g.dayActive then .queueFull m s else .rejectUnlock m s), g)
  | .queueFull m s =>
      some (l.goto (if serviceQueueIsFull (g.queues s) then .rejectUnlock m s else .stamp m s), g)
  | .stamp m s =>
      some (l.goto (.push m s
        { userPid := m.userPid, userIndex := m.userIndex, requestedAtNs := g.clock }), g)
  | .push m s t => match serviceQueuePush (g.queues s) t with
      | some q => some (l.goto (.pushUnlock s), (g.setQueue s q).log (.pushed s t g.currentDay))
      | none => some (l.goto (.rejectUnlock m s), g)
  | .pushUnlock s => l.semPost g (.queueMutex s) (.postJob s)
  | .postJob s => l.semPost g (.jobs s) .mainTest
  | .rejectUnlock m s => l.semPost g (.queueMutex s) (.refuseLock m s)
  -- mark_not_served
  | .refuseLock m s => semOpRetry l g .stats (.refuseStats m s)
  | .refuseStats m s => some (l.goto (.refuseUnlock m s), g.setStats (g.stats.markNotServed s))
  | .refuseUnlock m s => l.semPost g .stats (.refuseReply m s)
  | .refuseReply m s => sendUserReply l g m.userPid .notServed s .mainTest
  | .done => none

/-- One step of the dispenser. -/
def step : Option (Dispenser c × Shared c) := if l.exited then none else body l g

end Dispenser

end PostOffice
