import PostOffice.Dispenser

/-! What one step of the dispenser can do: the table of its transitions, with the tests that lead
    to the same next program point merged, and what the dispenser holds at each program point. -/

namespace PostOffice

namespace DispPc

variable {seats : ℕ}

/-- It has announced itself to the director. -/
def inited : DispPc seats → Bool
  | .sendInit => false
  | _ => true

/-- The mutex of the critical section it is in. -/
def lock : DispPc seats → Option (Sem seats)
  | .countStats _ _ | .countUnlock _ _ | .refuseStats _ _ | .refuseUnlock _ _ => some .stats
  | .queueActive _ s | .queueFull _ s | .stamp _ s | .push _ s _ | .pushUnlock s
  | .rejectUnlock _ s => some (.queueMutex s)
  | _ => none

/-- The request it has received and neither pushed nor answered. -/
def hand : DispPc seats → Option (TicketMessage × Option Service)
  | .invalidReply m => some (m, none)
  | .countLock m s | .countStats m s | .countUnlock m s | .testActive m s | .offered m s _
  | .queueLock m s | .queueActive m s | .queueFull m s | .stamp m s | .push m s _
  | .rejectUnlock m s | .refuseLock m s | .refuseStats m s | .refuseUnlock m s
  | .refuseReply m s => some (m, some s)
  | _ => none

/-- The service of the request that `mark_request` has counted and that is neither pushed nor
    counted as not served. -/
def counted : DispPc seats → Option Service
  | .countUnlock _ s | .testActive _ s | .offered _ s _ | .queueLock _ s | .queueActive _ s
  | .queueFull _ s | .stamp _ s | .push _ s _ | .rejectUnlock _ s | .refuseLock _ s
  | .refuseStats _ s => some s
  | _ => none

/-- The queue it has locked and found the day active for, until it has pushed or turned back. -/
def window : DispPc seats → Option Service
  | .queueFull _ s | .stamp _ s | .push _ s _ => some s
  | _ => none

/-- The service whose queue it has pushed onto without posting the job yet. -/
def posting : DispPc seats → Option Service
  | .pushUnlock s | .postJob s => some s
  | _ => none

end DispPc

namespace Dispenser

variable {c : Setup}

/-- The transitions of the dispenser, from program point, flag and shared state. -/
inductive Move : DispPc c.nofWorkerSeats → DispFlags → Shared c →
    DispPc c.nofWorkerSeats → Shared c → Prop where
  /-- A sleep, a retry, an exit. -/
  | stay {pc} : Move pc f g pc g
  | init (hroom : g.msgs.length < c.msgCapacity) : Move .sendInit f g .mainTest
      ((g.send (.director { kind := .init, index := -1, pid := c.pid .dispenser })).log
        (.init .dispenser))
  | mainDone (h : f.terminateRequested = true) : Move .mainTest f g .done g
  | mainReceive : Move .mainTest f g .receive g
  | receiveDone (h : f.terminateRequested = true) : Move .receive f g .done g
  | receiveAgain : Move .receive f g .mainTest g
  | receiveInvalid (hm : g.firstOfType ticketRequestMtype = some (.ticket m))
      (hs : m.service? = none) :
      Move .receive f g (.invalidReply m) (g.received ticketRequestMtype)
  | receive (hm : g.firstOfType ticketRequestMtype = some (.ticket m)) (hs : m.service? = some s) :
      Move .receive f g (.countLock m s) (g.received ticketRequestMtype)
  | invalidReply (hroom : g.msgs.length < c.msgCapacity) : Move (.invalidReply m) f g .mainTest
      ((g.send (.userReply
        { mtype := userReplyBase + m.userPid, status := .notServed, service := 0 })).log
          (.replied .dispenser m.userPid .notServed 0))
  | invalidGiveUp (h : f.terminateRequested = true) : Move (.invalidReply m) f g .mainTest g
  | countLock (h : 0 < g.sem .stats) : Move (.countLock m s) f g (.countStats m s) (g.down .stats)
  | countStats :
      Move (.countStats m s) f g (.countUnlock m s) (g.setStats (g.stats.markRequest s))
  | countUnlock : Move (.countUnlock m s) f g (.testActive m s) (g.up .stats)
  | testClosed (h : g.dayActive = false) : Move (.testActive m s) f g (.refuseLock m s) g
  | testOpen (h : g.dayActive = true) :
      Move (.testActive m s) f g (.offered m s ⟨0, c.seats_pos⟩) g
  | offeredYes {i} (h : (g.counters i).service = some s) :
      Move (.offered m s i) f g (.queueLock m s) g
  | offeredNext {i : Fin c.nofWorkerSeats} (h : (g.counters i).service ≠ some s)
      (hi : i + 1 < c.nofWorkerSeats) :
      Move (.offered m s i) f g (.offered m s ⟨i + 1, hi⟩) g
  | offeredNo {i : Fin c.nofWorkerSeats} (h : (g.counters i).service ≠ some s)
      (hi : c.nofWorkerSeats ≤ i + 1) :
      Move (.offered m s i) f g (.refuseLock m s) g
  | queueLock (h : 0 < g.sem (.queueMutex s)) :
      Move (.queueLock m s) f g (.queueActive m s) (g.down (.queueMutex s))
  | queueClosed (h : g.dayActive = false) : Move (.queueActive m s) f g (.rejectUnlock m s) g
  | queueOpen (h : g.dayActive = true) : Move (.queueActive m s) f g (.queueFull m s) g
  | queueFull (h : maxCountQueue ≤ (g.queues s).length) :
      Move (.queueFull m s) f g (.rejectUnlock m s) g
  | queueRoom (h : (g.queues s).length < maxCountQueue) : Move (.queueFull m s) f g (.stamp m s) g
  | stamp : Move (.stamp m s) f g (.push m s
      { userPid := m.userPid, userIndex := m.userIndex, requestedAtNs := g.clock }) g
  | push {t q} (h : serviceQueuePush (g.queues s) t = some q)
      (hq : q.toList = (g.queues s).toList ++ [t]) : Move (.push m s t) f g (.pushUnlock s)
      ((g.setQueue s q).log (.pushed s t g.currentDay))
  | pushFail {t} (h : serviceQueuePush (g.queues s) t = none) :
      Move (.push m s t) f g (.rejectUnlock m s) g
  | pushUnlock : Move (.pushUnlock s) f g (.postJob s) (g.up (.queueMutex s))
  | postJob : Move (.postJob s) f g .mainTest (g.up (.jobs s))
  | rejectUnlock : Move (.rejectUnlock m s) f g (.refuseLock m s) (g.up (.queueMutex s))
  | refuseLock (h : 0 < g.sem .stats) :
      Move (.refuseLock m s) f g (.refuseStats m s) (g.down .stats)
  | refuseStats :
      Move (.refuseStats m s) f g (.refuseUnlock m s) (g.setStats (g.stats.markNotServed s))
  | refuseUnlock : Move (.refuseUnlock m s) f g (.refuseReply m s) (g.up .stats)
  | refuseReply (hroom : g.msgs.length < c.msgCapacity) : Move (.refuseReply m s) f g .mainTest
      ((g.send (.userReply
        { mtype := userReplyBase + m.userPid, status := .notServed, service := s })).log
          (.replied .dispenser m.userPid .notServed s))
  | refuseGiveUp (h : f.terminateRequested = true) : Move (.refuseReply m s) f g .mainTest g

variable {s : Service} {l l' : Dispenser c} {g g' : Shared c}

theorem semOpRetry_cases {σ : Sem c.nofWorkerSeats} {next : DispPc c.nofWorkerSeats}
    (h : semOpRetry l g σ next = some (l', g')) :
    (l'.pc = l.pc ∧ l'.vars = l.vars ∧ g' = g) ∨
    (0 < g.sem σ ∧ l' = l.goto next ∧ g' = g.down σ) := by
  unfold semOpRetry Task.semWait at h
  repeat' split at h
  all_goals cases h
  all_goals first | exact .inl ⟨rfl, rfl, rfl⟩ | exact .inr ⟨‹_›, rfl, rfl⟩

theorem sendUserReply_cases {userPid : ℤ} {status : UserReplyStatus}
    {next : DispPc c.nofWorkerSeats} (h : sendUserReply l g userPid status s next = some (l', g')) :
    (l'.pc = l.pc ∧ l'.vars = l.vars ∧ g' = g) ∨
    (l.vars.terminateRequested = true ∧ l' = l.goto next ∧ g' = g) ∨
    (g.msgs.length < c.msgCapacity ∧ l' = l.goto next ∧
      g' = (g.send (.userReply { mtype := userReplyBase + userPid, status := status,
                                 service := s })).log
        (.replied .dispenser userPid status s)) := by
  unfold sendUserReply Task.msgSend at h
  repeat' split at h
  all_goals cases h
  · exact .inr (.inl ⟨‹_›, rfl, rfl⟩)
  · exact .inl ⟨rfl, rfl, rfl⟩
  · exact .inr (.inr ⟨‹_›, rfl, rfl⟩)
  · exact .inl ⟨rfl, rfl, rfl⟩

/-- Every step of the dispenser is in the table, and leaves its flag alone. -/
theorem step_move (h : step l g = some (l', g')) :
    Move l.pc l.vars g l'.pc g' ∧ l'.vars = l.vars := by
  have hstay : l'.pc = l.pc ∧ l'.vars = l.vars ∧ g' = g →
      Move l.pc l.vars g l'.pc g' ∧ l'.vars = l.vars := by
    rintro ⟨h1, h2, rfl⟩
    exact ⟨h1 ▸ .stay, h2⟩
  unfold step at h
  split at h
  · cases h
  unfold body at h
  cases hpc : l.pc <;> rw [hpc] at h hstay <;> simp only at h
  case sendInit =>
    unfold Task.msgSend at h
    repeat' split at h
    all_goals cases h
    all_goals first | exact hstay ⟨hpc, rfl, rfl⟩ | exact ⟨.init ‹_›, rfl⟩
  case mainTest =>
    split at h <;> cases h
    · exact ⟨.mainDone ‹_›, rfl⟩
    · exact ⟨.mainReceive, rfl⟩
  case receive =>
    split at h
    · split at h <;> cases h
      · exact ⟨.receiveDone ‹_›, rfl⟩
      · exact ⟨.receiveAgain, rfl⟩
    · split at h
      · rename_i m hm
        cases h
        cases hs : m.service? with
        | none => exact ⟨by simpa [hs] using .receiveInvalid hm hs, rfl⟩
        | some s => exact ⟨by simpa [hs] using .receive hm hs, rfl⟩
      · cases h
      · split at h <;> cases h
        exact hstay ⟨hpc, rfl, rfl⟩
  case invalidReply m =>
    rcases sendUserReply_cases h with h | ⟨ht, rfl, rfl⟩ | ⟨hroom, rfl, rfl⟩
    · exact hstay (hpc ▸ h)
    · exact ⟨.invalidGiveUp ht, rfl⟩
    · exact ⟨.invalidReply hroom, rfl⟩
  case countLock m s =>
    rcases semOpRetry_cases h with h | ⟨hσ, rfl, rfl⟩
    · exact hstay (hpc ▸ h)
    · exact ⟨.countLock hσ, rfl⟩
  case countStats m s => cases h; exact ⟨.countStats, rfl⟩
  case countUnlock m s => cases h; exact ⟨.countUnlock, rfl⟩
  case testActive m s =>
    cases h
    refine ⟨?_, rfl⟩
    cases hd : g.dayActive
    · exact .testClosed hd
    · simpa [forLoop, c.seats_pos] using Move.testOpen hd
  case offered m s i =>
    cases h
    refine ⟨?_, rfl⟩
    by_cases hs : (g.counters i).service = some s
    · simpa [hs] using Move.offeredYes hs
    · by_cases hi : i + 1 < c.nofWorkerSeats
      · simpa [hs, forLoop, hi] using Move.offeredNext hs hi
      · simpa [hs, forLoop, hi] using Move.offeredNo hs (Nat.not_lt.mp hi)
  case queueLock m s =>
    rcases semOpRetry_cases h with h | ⟨hσ, rfl, rfl⟩
    · exact hstay (hpc ▸ h)
    · exact ⟨.queueLock hσ, rfl⟩
  case queueActive m s =>
    cases h
    refine ⟨?_, rfl⟩
    cases hd : g.dayActive
    · exact .queueClosed hd
    · exact .queueOpen hd
  case queueFull m s =>
    cases h
    refine ⟨?_, rfl⟩
    by_cases hf : maxCountQueue ≤ (g.queues s).length
    · simpa [serviceQueueIsFull, hf] using Move.queueFull hf
    · simpa [serviceQueueIsFull, hf] using Move.queueRoom (by omega)
  case stamp m s => cases h; exact ⟨.stamp, rfl⟩
  case push m s t =>
    split at h <;> cases h
    · exact ⟨.push ‹_› (RingBuffer.toList_push ‹_›), rfl⟩
    · exact ⟨.pushFail ‹_›, rfl⟩
  case pushUnlock s => cases h; exact ⟨.pushUnlock, rfl⟩
  case postJob s => cases h; exact ⟨.postJob, rfl⟩
  case rejectUnlock m s => cases h; exact ⟨.rejectUnlock, rfl⟩
  case refuseLock m s =>
    rcases semOpRetry_cases h with h | ⟨hσ, rfl, rfl⟩
    · exact hstay (hpc ▸ h)
    · exact ⟨.refuseLock hσ, rfl⟩
  case refuseStats m s => cases h; exact ⟨.refuseStats, rfl⟩
  case refuseUnlock m s => cases h; exact ⟨.refuseUnlock, rfl⟩
  case refuseReply m s =>
    rcases sendUserReply_cases h with h | ⟨ht, rfl, rfl⟩ | ⟨hroom, rfl, rfl⟩
    · exact hstay (hpc ▸ h)
    · exact ⟨.refuseGiveUp ht, rfl⟩
    · exact ⟨.refuseReply hroom, rfl⟩
  case done => cases h

end Dispenser

end PostOffice
