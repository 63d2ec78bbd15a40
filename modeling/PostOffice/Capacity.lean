import PostOffice.Deadlock

/-! How full the queues get. A user waits for the reply before it asks again, so the tickets in the
    queues and the request in the dispenser's hands belong to different users:

        queue 0 + … + queue 5 + [queueFull … push]  ≤  users that may go out

    With at most `MAX_COUNT_QUEUE` such users no queue is ever found full, and with at most
    `EXPLODE_THRESHOLD` of them no day ends in an explosion, whatever the operators do. -/

namespace PostOffice

open Transition

variable {c : Setup}

/-! ### Tickets and users -/

theorem Setup.goers_le (c : Setup) : c.goers ≤ c.nofUsers :=
  (Finset.card_filter_le _ _).trans_eq (Finset.card_fin _)

namespace State

variable {s : State c}

/-- The tickets in a queue are requests of the users. -/
theorem length_queue_le (h : Reachable s) (q : Service) :
    (s.g.queues q).length ≤ ∑ u, s.g.queuing (c.pid (.user u)) q := by
  rw [← RingBuffer.length_toList]
  refine Family.length_le_sum_countP fun t ht => ?_
  obtain ⟨u, hu, -⟩ := (genuine h).queued q t ht
  exact ⟨u, decide_eq_true hu⟩

/-- What is queued, and what the dispenser has in its hands, is outstanding. -/
theorem queued_add_handled_le (h : Reachable s) :
    ∑ q, (s.g.queues q).length +
        ∑ x : Fin c.nofUsers × Service, ind (s.dispenser.pc.handles (c.pid (.user x.1)) x.2) ≤
      c.goers := by
  have hqueued : ∑ q, (s.g.queues q).length ≤
      ∑ x : Fin c.nofUsers × Service, s.g.queuing (c.pid (.user x.1)) x.2 := by
    rw [Fintype.sum_prod_type, Finset.sum_comm]
    exact Finset.sum_le_sum fun q _ => length_queue_le h q
  have hout : ∑ x : Fin c.nofUsers × Service, (s.g.queuing (c.pid (.user x.1)) x.2 +
      ind (s.dispenser.pc.handles (c.pid (.user x.1)) x.2)) ≤ s.totalOutstanding := by
    refine Finset.sum_le_sum fun x _ => ?_
    unfold outstanding unanswered
    omega
  rw [Finset.sum_add_distrib] at hout
  have hgoers := totalOutstanding_le h
  omega

theorem total_queued_le (h : Reachable s) : ∑ q, (s.g.queues q).length ≤ c.goers :=
  (Nat.le_add_right _ _).trans (queued_add_handled_le h)

/-- The user whose request the dispenser is about to push is in no queue. -/
theorem total_queued_lt (h : Reachable s) {m : TicketMessage} {r : Option Service}
    (hhand : s.dispenser.pc.hand = some (m, r)) : ∑ q, (s.g.queues q).length < c.goers := by
  obtain ⟨u, q, rfl, rfl⟩ := (genuine h).hand m r hhand
  have hone : ind (s.dispenser.pc.handles (c.pid (.user u)) q) = 1 := by
    refine ind_of ?_
    unfold DispPc.handles
    rw [hhand]
    rfl
  have hle := Finset.single_le_sum
    (f := fun x : Fin c.nofUsers × Service =>
      ind (s.dispenser.pc.handles (c.pid (.user x.1)) x.2))
    (fun _ _ => Nat.zero_le _) (Finset.mem_univ (u, q))
  have hall := queued_add_handled_le h
  dsimp only at hle
  omega

end State

/-! ### The push -/

/-- The queue the dispenser has found not full. -/
def DispPc.pushing {seats : ℕ} : DispPc seats → Option Service
  | .stamp _ s | .push _ s _ => some s
  | _ => none

/-- The room is seen inside the queue mutex, just before the push. -/
theorem Dispenser.Move.pushing {pc pc' : DispPc c.nofWorkerSeats} {f : DispFlags}
    {g g' : Shared c} (h : Dispenser.Move pc f g pc' g')
    (hI : ∀ q, pc.pushing = some q → (g.queues q).length < maxCountQueue) (q : Service)
    (hq : pc'.pushing = some q) : (g'.queues q).length < maxCountQueue := by
  cases h with
  | stay | stamp => exact hI q hq
  | queueRoom hlen =>
    obtain rfl := Option.some.inj hq
    exact hlen
  | _ => cases hq

/-- The director never lengthens a queue. -/
theorem Director.Move.queue_length {pc pc' : DirPc c.nofWorkerSeats c.nofWorkers c.nofUsers}
    {v v' : DirVars} {g g' : Shared c} (h : Director.Move pc v g pc' v' g') (q : Service) :
    (g'.queues q).length ≤ (g.queues q).length := by
  cases h with
  | @resetQueueNext v g s hs | @resetQueueLast v g s hs =>
    by_cases hq : q = s
    · subst hq
      simp [serviceQueueReset, RingBuffer.reset]
    · simp [hq]
  | @flushTake v g s t qu hlen hqu =>
    have hl := congrArg List.length hqu
    simp only [RingBuffer.length_toList, List.length_cons] at hl
    by_cases hq : q = s
    · subst hq
      simp
      omega
    · simp [hq]
  | _ => exact le_rfl

namespace State

/-- There is room for the ticket that is about to be pushed. -/
def RoomToPush (s : State c) : Prop :=
  ∀ q, s.dispenser.pc.pushing = some q → (s.g.queues q).length < maxCountQueue

variable {s s' : State c}

/-- The queues of the others' steps are no longer. -/
theorem RoomToPush.mono (hI : s.RoomToPush) (hpc : s'.dispenser.pc = s.dispenser.pc)
    (hle : ∀ q, (s'.g.queues q).length ≤ (s.g.queues q).length) : s'.RoomToPush := by
  intro q hq
  rw [hpc] at hq
  exact (hle q).trans_lt (hI q hq)

theorem RoomToPush.step (hI : s.RoomToPush) (h : s.Move s') : s'.RoomToPush := by
  cases h with
  | director hm => exact hI.mono rfl hm.queue_length
  | operator w hstep hm => exact hI.mono rfl hm.queue_length
  | user u hm hf =>
    rw [hm.frame]
    exact hI.mono rfl fun _ => le_rfl
  | deliver p sigs => exact hI.mono (by simp) fun q => by simp
  | interrupt sig => exact hI
  | tick ns => exact hI
  | dispenser hm hf => exact hm.pushing hI

theorem RoomToPush.init : (State.init c).RoomToPush := by
  intro q hq
  cases hq

end State

theorem roomToPush {s : State c} (h : Reachable s) : s.RoomToPush :=
  h.invariant .init fun _ _ _ hI hm => hI.step hm

/-! ### The explosion -/

/-- `count_pending_users` begins at 0 and ends with the total that the decision is taken on. -/
theorem Director.Move.counting {pc pc' : DirPc c.nofWorkerSeats c.nofWorkers c.nofUsers}
    {v v' : DirVars} {g g' : Shared c} (h : Director.Move pc v g pc' v' g') :
    (v'.total = v.total ∨ v'.total = 0 ∨ pc'.tallying = true ∧ pc'.flushing = false) ∧
    (v'.pendingBeforeFlush = v.pendingBeforeFlush ∨ v'.pendingBeforeFlush = v.total) ∧
    (g'.terminationCause = .explode → g.terminationCause = .explode ∨
      (v.total : ℤ) > c.explodeThreshold) := by
  cases h
  case explode hx => exact ⟨.inl rfl, .inr rfl, fun _ => .inr hx⟩
  case noExplode hx => exact ⟨.inl rfl, .inr rfl, .inl⟩
  case countInit => exact ⟨.inr (.inl rfl), .inl rfl, .inl⟩
  case countRead => exact ⟨.inr (.inr ⟨rfl, rfl⟩), .inl rfl, .inl⟩
  case timeout hx => exact ⟨.inl rfl, .inl rfl, fun h => by cases h⟩
  case initLast | dayEndLast =>
    subst_vars
    exact ⟨.inl rfl, .inl rfl, .inl⟩
  all_goals exact ⟨.inl rfl, .inl rfl, .inl⟩

namespace State

/-- What is counted, and decided on, is at most the number of users that may go out. -/
structure FewPending (s : State c) : Prop where
  total : s.director.vars.total ≤ c.goers
  pendingBeforeFlush : s.director.vars.pendingBeforeFlush ≤ c.goers
  cause : s.g.terminationCause = .explode → c.explodeThreshold < (c.goers : ℤ)

variable {s s' : State c}

/-- While the queues are counted the total is in the queues. -/
theorem total_le_goers (h : Reachable s) (ht : s.director.pc.tallying = true)
    (hf : s.director.pc.flushing = false) : s.director.vars.total ≤ c.goers := by
  have htotal := (tally h).total ht
  rw [flushCount, hf, if_neg Bool.false_ne_true, Nat.zero_add] at htotal
  refine (htotal.trans_le (Family.total_le_total fun q => ?_)).trans (total_queued_le h)
  split
  · exact le_rfl
  · exact Nat.zero_le _

theorem FewPending.step (hr : Reachable s') (hI : s.FewPending) (h : s.Move s') :
    s'.FewPending := by
  cases h with
  | director hm =>
    obtain ⟨htotal, hpending, hcause⟩ := hm.counting
    refine ⟨?_, ?_, fun hx => ?_⟩
    · rcases htotal with heq | hzero | ⟨ht, hf⟩
      · exact heq.trans_le hI.total
      · exact hzero.trans_le (Nat.zero_le _)
      · exact total_le_goers hr ht hf
    · exact hpending.elim (fun h => h.trans_le hI.pendingBeforeFlush) fun h => h.trans_le hI.total
    · rcases hcause hx with hx | hx
      · exact hI.cause hx
      · exact lt_of_lt_of_le hx (by exact_mod_cast hI.total)
  | dispenser hm hf =>
    rw [hm.frame]
    exact ⟨hI.total, hI.pendingBeforeFlush, hI.cause⟩
  | operator w hstep hm =>
    rw [hm.frame]
    exact ⟨hI.total, hI.pendingBeforeFlush, hI.cause⟩
  | user u hm hf =>
    rw [hm.frame]
    exact ⟨hI.total, hI.pendingBeforeFlush, hI.cause⟩
  | deliver p sigs =>
    obtain ⟨b, hb⟩ := s.deliverTo_director_vars sigs p
    refine ⟨?_, ?_, ?_⟩
    · rw [hb]
      exact hI.total
    · rw [hb]
      exact hI.pendingBeforeFlush
    · rw [deliverTo_g]
      exact hI.cause
  | interrupt | tick => exact ⟨hI.total, hI.pendingBeforeFlush, hI.cause⟩

theorem FewPending.init : (State.init c).FewPending :=
  ⟨Nat.zero_le _, Nat.zero_le _, fun h => by cases h⟩

end State

theorem fewPending {s : State c} (h : Reachable s) : s.FewPending :=
  ReachBy.invariant .init (fun _ _ _ hr hI _ hs =>
    hI.step (hr.tail trivial hs) (step_moveBy hs fun _ _ _ => trivial)) h

/-- CORRECT: the queues within their capacity. There are never more tickets queued than users that
    may go out; a push never fails after the test of the queue; when at most `MAX_COUNT_QUEUE` users
    may go out no queue is ever found full, and when at most `EXPLODE_THRESHOLD` may, the simulation
    never explodes. -/
theorem queues_within_capacity {s : State c} (h : Reachable s) :
    ∑ q, (s.g.queues q).length ≤ c.goers ∧
    (∀ m q t, s.dispenser.pc = .push m q t → serviceQueuePush (s.g.queues q) t ≠ none) ∧
    (c.goers ≤ maxCountQueue →
      ∀ m q, s.dispenser.pc = .queueFull m q → serviceQueueIsFull (s.g.queues q) = false) ∧
    s.director.vars.pendingBeforeFlush ≤ c.goers ∧
    ((c.goers : ℤ) ≤ c.explodeThreshold → s.g.terminationCause ≠ .explode) := by
  have hF := fewPending h
  refine ⟨State.total_queued_le h, fun m q t hpc hnone => ?_, fun hgoers m q hpc => ?_,
    hF.pendingBeforeFlush, fun hle hx => absurd (hF.cause hx) (not_lt.mpr hle)⟩
  · have hroom := roomToPush h q (by rw [hpc]; rfl)
    exact absurd ((RingBuffer.push_eq_none_iff _ _).mp hnone) (Nat.not_le.mpr hroom)
  · have hlt : ∑ r, (s.g.queues r).length < c.goers :=
      State.total_queued_lt h (m := m) (r := some q) (by rw [hpc]; rfl)
    have hone := Finset.single_le_sum (f := fun r => (s.g.queues r).length)
      (fun _ _ => Nat.zero_le _) (Finset.mem_univ q)
    refine Bool.eq_false_iff.mpr fun hfull => ?_
    have hfull := (RingBuffer.isFull_iff _).mp hfull
    omega

/-- In the small office two users may go out, fewer than the threshold: with a ticket queued and
    pending at the end of the day it does not explode. -/
theorem queues_within_capacity_small : ∃ s : State smallOffice,
    exec step (SmallOffice.queued ++ SmallOffice.own .director 6 ++
      SmallOffice.signal (.operator 0) .usr2 ++ SmallOffice.own (.operator 0) 8 ++
      SmallOffice.own .director 52) (State.init smallOffice) = some s ∧
    s.director.vars.pendingBeforeFlush = 1 ∧ s.g.terminationCause ≠ .explode := by
  have hrun : ((exec step (SmallOffice.queued ++ SmallOffice.own .director 6 ++
      SmallOffice.signal (.operator 0) .usr2 ++ SmallOffice.own (.operator 0) 8 ++
      SmallOffice.own .director 52) (State.init smallOffice)).any fun s =>
        decide (s.director.vars.pendingBeforeFlush = 1)) = true := by decide +kernel
  obtain ⟨s, hs, h⟩ := (Option.any_eq_true _ _).mp hrun
  exact ⟨s, hs, of_decide_eq_true h,
    (queues_within_capacity (reach_of_exec _ hs)).2.2.2.2 (by decide)⟩

end PostOffice
