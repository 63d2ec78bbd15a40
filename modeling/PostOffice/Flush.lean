import PostOffice.Closing

/-! The count and the flush of the pending users, and the explode decision between them. From the
    moment `count_pending_users` has read a queue, what it read is still there or has been popped by
    `flush_pending_users`:

        total = popped by the flush + what is left in the queues read -/

namespace PostOffice

open Transition

variable {c : Setup}

/-- A pop by `flush_pending_users`: whose request it was, and for which service. -/
def Event.flushedOf {workers users : ℕ} : Event workers users → Option (ℤ × Service)
  | .flushed s t => some (t.userPid, s)
  | _ => none

/-- A `NOT_SERVED` reply of `flush_pending_users`. -/
def Event.turnedAway {workers users : ℕ} : Event workers users → Option (ℤ × Service)
  | .replied .director userPid .notServed s => some (userPid, s)
  | _ => none

/-- The ticket that `flush_pending_users` has popped and not answered. -/
def DirPc.unanswered {seats workers users : ℕ} : DirPc seats workers users → List (ℤ × Service)
  | .flushReply s t => [(t.userPid, s)]
  | _ => []

namespace State

/-- What `count_pending_users` has read and is still in the queues. -/
def remaining (pc : DirPc c.nofWorkerSeats c.nofWorkers c.nofUsers)
    (queues : Service → ServiceQueue) : ℕ :=
  Family.total (fun q qu => if pc.counted q then qu.length else 0) queues

/-- One queue is read or changed. -/
theorem remaining_exchange {pc pc' : DirPc c.nofWorkerSeats c.nofWorkers c.nofUsers}
    {queues queues' : Service → ServiceQueue} (s : Service)
    (h : ∀ q, q ≠ s → pc'.counted q = pc.counted q ∧ queues' q = queues q) :
    remaining pc' queues' + (if pc.counted s then (queues s).length else 0) =
      remaining pc queues + (if pc'.counted s then (queues' s).length else 0) := by
  refine Family.total_exchange (fun q qu => if pc'.counted q then qu.length else 0)
    (fun q qu => if pc.counted q then qu.length else 0) queues' queues s fun q hq => ?_
  simp only [(h q hq).1, (h q hq).2]

/-- How many tickets `flush_pending_users` has popped. -/
def flushCount (pc : DirPc c.nofWorkerSeats c.nofWorkers c.nofUsers) (pendingTotal : ℕ) : ℕ :=
  if pc.flushing then pendingTotal else 0

/-- The books of the end of a day. -/
structure Tally (s : State c) : Prop where
  total : s.director.pc.tallying = true → s.director.vars.total =
    flushCount s.director.pc s.director.vars.pendingTotal + remaining s.director.pc s.g.queues
  pendingBeforeFlush : s.director.pc.decided = true →
    s.director.vars.pendingBeforeFlush = s.director.vars.total
  cause : s.director.pc.ending = false → s.g.terminationCause =
    if s.director.pc.decided = true ∧ (s.director.vars.total : ℤ) > c.explodeThreshold then .explode
    else .none
  answered : s.director.pc.inDay = true → s.g.today.filterMap Event.flushedOf =
    s.g.today.filterMap Event.turnedAway ++ s.director.pc.unanswered
  flushed : s.director.pc.inDay = true → (s.g.today.filterMap Event.flushedOf).length =
    flushCount s.director.pc s.director.vars.pendingTotal

end State

namespace Director

open State

variable {pc pc' : DirPc c.nofWorkerSeats c.nofWorkers c.nofUsers} {v v' : DirVars}
  {g g' : Shared c}

theorem Move.total (h : Move pc v g pc' v' g')
    (hI : pc.tallying = true → v.total = flushCount pc v.pendingTotal + remaining pc g.queues)
    (ht : pc'.tallying = true) :
    v'.total = flushCount pc' v'.pendingTotal + remaining pc' g'.queues := by
  cases h
  case countInit =>
    refine (Nat.zero_add _).trans (Family.total_eq_zero fun q => ?_) |>.symm
    simp [DirPc.counted]
  case countRead s =>
    have htotal := hI rfl
    have hread := @remaining_exchange c (.countRead s) (.countUnlock s) g.queues g.queues s
      fun q hq => ⟨by simp [DirPc.counted, le_iff_lt_or_eq, hq], rfl⟩
    simp [DirPc.counted] at hread
    simp [flushCount, DirPc.flushing] at htotal ⊢
    omega
  case countNext s hs => 
    refine (hI rfl).trans (congrArg _ (Family.total_congr fun q => ?_))
    simp only [DirPc.counted, Fin.le_def, Fin.lt_def, decide_eq_true_eq, Nat.lt_succ_iff]
    rfl
  case countLast s hs => 
    refine (hI rfl).trans (congrArg _ (Family.total_congr fun q => ?_))
    have hle : q ≤ s := Fin.le_def.mpr (by have := q.isLt; omega)
    simp [DirPc.counted, hle]
  case flushInit => exact hI rfl
  case flushTake s t qu hlen hq =>
    have htotal := hI rfl
    have hpop := @remaining_exchange c (.flushTake s) (.flushReply s t) g.queues
      (Function.update g.queues s qu) s fun q hne => ⟨rfl, Function.update_of_ne hne _ _⟩
    have hlength := congrArg List.length hq
    simp at hlength
    simp [DirPc.counted] at hpop
    simp [flushCount, DirPc.flushing] at htotal
    show v.total = (v.pendingTotal + 1) + @remaining c (.flushReply s t)
      (Function.update g.queues s qu)
    omega
  all_goals first | exact hI ht | exact hI rfl | exact absurd ht Bool.false_ne_true

theorem Move.cause (h : Move pc v g pc' v' g')
    (hI : pc.ending = false → g.terminationCause =
      if pc.decided = true ∧ (v.total : ℤ) > c.explodeThreshold then .explode else .none)
    (he : pc'.ending = false) : g'.terminationCause =
      if pc'.decided = true ∧ (v'.total : ℤ) > c.explodeThreshold then .explode else .none := by
  cases h
  case explode hx => exact (if_pos ⟨rfl, hx⟩).symm
  case noExplode hx => exact (hI rfl).trans (if_neg fun h => hx h.2).symm
  case dayEnd hx =>
    refine (hI rfl).trans ?_
    rw [if_neg fun h => hx ((hI rfl).trans (if_pos h)), if_neg fun h => Bool.false_ne_true h.1]
  all_goals first | exact hI he | exact hI rfl | exact absurd he.symm Bool.false_ne_true

theorem Move.pendingBeforeFlush (h : Move pc v g pc' v' g')
    (hI : pc.decided = true → v.pendingBeforeFlush = v.total) (hd : pc'.decided = true) :
    v'.pendingBeforeFlush = v'.total := by
  cases h
  all_goals first | rfl | exact hI hd | exact hI rfl | exact absurd hd Bool.false_ne_true

theorem Move.flushed (h : Move pc v g pc' v' g')
    (hI : pc.inDay = true → (g.today.filterMap Event.flushedOf =
      g.today.filterMap Event.turnedAway ++ pc.unanswered) ∧
      (g.today.filterMap Event.flushedOf).length = flushCount pc v.pendingTotal)
    (hd : pc'.inDay = true) : (g'.today.filterMap Event.flushedOf =
      g'.today.filterMap Event.turnedAway ++ pc'.unanswered) ∧
      (g'.today.filterMap Event.flushedOf).length = flushCount pc' v'.pendingTotal := by
  cases h
  case assignInit =>
    rw [Shared.today_log_boundary _ (by rfl)]
    exact ⟨rfl, rfl⟩
  case dayBrokenOff hs =>
    simp only [Shared.today_filterMap_log _
      (show Event.isBoundary (.brokenOff : c.Event) = false from rfl)]
    simpa [Event.flushedOf, Event.turnedAway, DirPc.unanswered, flushCount, DirPc.flushing]
      using hI rfl
  case flushTake s t qu hlen hq =>
    obtain ⟨h1, h2⟩ := hI rfl
    simp only [Shared.today_filterMap_log _ (show Event.isBoundary (.flushed s t) = false from rfl)]
    refine ⟨?_, by simpa [Event.flushedOf, flushCount, DirPc.flushing] using h2⟩
    simpa [Event.flushedOf, Event.turnedAway, DirPc.unanswered] using h1
  case flushReply s t hroom =>
    obtain ⟨h1, h2⟩ := hI rfl
    simp only [Shared.today_filterMap_log _ (show Event.isBoundary
      (.replied .director t.userPid .notServed s) = false from rfl)]
    refine ⟨?_, by simpa [Event.flushedOf, flushCount, DirPc.flushing] using h2⟩
    simpa [Event.flushedOf, Event.turnedAway, DirPc.unanswered] using h1
  case printDaily =>
    simp only [Shared.today_filterMap_log _ (show Event.isBoundary
      (.dailyStatistics v.day v.activeToday v.activeTotal g.stats) = false from rfl)]
    simpa [Event.flushedOf, Event.turnedAway, DirPc.unanswered, flushCount, DirPc.flushing]
      using hI rfl
  all_goals first | exact hI hd | exact hI rfl | exact absurd hd Bool.false_ne_true

end Director

namespace State.Tally

variable {s s' : State c}

/-- Who touches neither the director, nor the queues it has read, nor its part of the history. -/
theorem congr (hI : s.Tally) (hpc : s'.director.pc = s.director.pc)
    (hvars : ∃ b, s'.director.vars = { s.director.vars with shutdownRequested := b })
    (hqueues : s.director.pc.tallying = true → ∀ q, s.director.pc.counted q = true →
      s'.g.queues q = s.g.queues q)
    (hcause : s'.g.terminationCause = s.g.terminationCause)
    (htoday : ∀ f : c.Event → Option (ℤ × Service), (∀ e, e.actor ≠ .director → f e = none) →
      s'.g.today.filterMap f = s.g.today.filterMap f) : s'.Tally := by
  obtain ⟨b, hb⟩ := hvars
  have hflushed := htoday Event.flushedOf fun e he => by
    cases e <;> first | rfl | exact absurd rfl he
  have hturned := htoday Event.turnedAway fun e he => by
    unfold Event.turnedAway
    split
    · exact absurd rfl he
    · rfl
  refine ⟨fun ht => ?_, ?_, ?_, ?_, ?_⟩ <;> rw [hpc] at *
  · rw [hb]
    refine (hI.total ht).trans (congrArg _ (Family.total_congr fun q => ?_))
    split
    · rw [hqueues ht q ‹_›]
    · rfl
  · rw [hb]
    exact hI.pendingBeforeFlush
  · rw [hb, hcause]
    exact hI.cause
  · rw [hflushed, hturned]
    exact hI.answered
  · rw [hb, hflushed]
    exact hI.flushed

/-- The director is done with a queue that it has counted: nobody else touches it. -/
theorem step (hB : s.Barrier) (hC : s.Closing) (hI : s.Tally) (h : s.Move s') : s'.Tally := by
  have hlive (ht : s.director.pc.tallying = true) (w) : s.director.pc.live w = false := by
    have : s.director.pc.dayOpen = false := DirPc.dayOpen_of_tallying ht
    simp [DirPc.live, this]
  cases h with
  | @director l' g' hm =>
    refine ⟨hm.total hI.total, hm.pendingBeforeFlush hI.pendingBeforeFlush, hm.cause hI.cause,
      fun hd => (hm.flushed (fun hd => ⟨hI.answered hd, hI.flushed hd⟩) hd).1,
      fun hd => (hm.flushed (fun hd => ⟨hI.answered hd, hI.flushed hd⟩) hd).2⟩
  | dispenser hm hf =>
    exact hI.congr rfl ⟨_, rfl⟩
      (fun ht q hq => hm.queues (hC.closed q (DirPc.closed_of_counted ht hq)))
      (by rw [hm.frame]; rfl)
      fun f hf => hm.logs.today_filterMap_eq (by simp) fun e he => hf e (by simp [he])
  | operator w hstep hm =>
    exact hI.congr rfl ⟨_, rfl⟩
      (fun ht q hq => congrFun (hm.queues (hB.not_inRun (hlive ht w))) q)
      (by rw [hm.frame]; rfl)
      fun f hf => hm.logs.today_filterMap_eq (by simp) fun e he => hf e (by simp [he])
  | user u hm hf =>
    exact hI.congr rfl ⟨_, rfl⟩ (fun _ _ _ => by rw [hm.frame]; rfl) (by rw [hm.frame]; rfl)
      fun f hf => hm.logs.today_filterMap_eq (by simp) fun e he => hf e (by simp [he])
  | deliver p sigs hp =>
    exact hI.congr (s.deliverTo_director_pc sigs p) (s.deliverTo_director_vars sigs p)
      (fun _ _ _ => by simp) (by simp) fun _ _ => by simp
  | interrupt sig hsig => exact hI.congr rfl ⟨_, rfl⟩ (fun _ _ _ => rfl) rfl fun _ _ => rfl
  | tick ns => exact hI.congr rfl ⟨_, rfl⟩ (fun _ _ _ => rfl) rfl fun _ _ => rfl

theorem init : (State.init c).Tally :=
  ⟨nofun, nofun, fun _ => (if_neg fun h => Bool.false_ne_true h.1).symm, nofun, nofun⟩

end State.Tally

theorem tally {s : State c} (h : Reachable s) : s.Tally :=
  h.invariant .init fun _ _ hr hI hm => hI.step (barrier hr) (closing hr) hm

/-- CORRECT: the explode decision is taken on exactly the users that are then turned away. When
    `flush_pending_users` returns it has popped as many tickets as `count_pending_users` returned
    and answered each of them `NOT_SERVED`, and `TERMINATION_CAUSE` is `EXPLODE` exactly when these
    are more than `EXPLODE_THRESHOLD`; and a queue it has finished with stays empty until the next
    `DAY_ACTIVE = 1`. -/
theorem explode_decision_exact {s : State c} (h : Reachable s) :
    (s.director.pc = .printActive →
      (s.g.today.filterMap Event.flushedOf).length = s.director.vars.pendingBeforeFlush ∧
      s.g.today.filterMap Event.turnedAway = s.g.today.filterMap Event.flushedOf ∧
      (s.g.terminationCause = .explode ↔
        ((s.g.today.filterMap Event.turnedAway).length : ℤ) > c.explodeThreshold)) ∧
    ∀ q, s.director.pc.emptied q = true → (s.g.queues q).toList = [] := by
  have hC := closing h
  have hT := tally h
  refine ⟨fun hpc => ?_, fun q hq => (RingBuffer.toList_eq_nil_iff _).mpr (hC.emptied q hq)⟩
  have hleft : State.remaining s.director.pc s.g.queues = 0 := by
    refine Family.total_eq_zero ?_
    intro q
    rw [hC.emptied q (by rw [hpc]; rfl)]
    split <;> rfl
  have htotal := hT.total (by rw [hpc]; rfl)
  have hflushed := hT.flushed (by rw [hpc]; rfl)
  have hanswered := hT.answered (by rw [hpc]; rfl)
  have hcause := hT.cause (by rw [hpc]; rfl)
  have hnone : s.director.pc.unanswered = [] := by rw [hpc]; rfl
  rw [hnone, List.append_nil] at hanswered
  rw [hleft, ← hflushed] at htotal
  refine ⟨?_, hanswered.symm, ?_⟩
  · rw [hT.pendingBeforeFlush (by rw [hpc]; rfl), htotal]
    rfl
  · rw [hcause, ← hanswered, htotal, hpc]
    simp [DirPc.decided, DirPc.flushing]

/-- In the small office the day ends before the operator has popped the ticket. -/
theorem explode_decision_exact_small : ∃ s : State smallOffice,
    exec step (SmallOffice.queued ++ SmallOffice.own .director 6 ++
      SmallOffice.signal (.operator 0) .usr2 ++ SmallOffice.own (.operator 0) 8 ++
      SmallOffice.own .director 52) (State.init smallOffice) = some s ∧
    s.g.today.filterMap Event.turnedAway = [(103, 0)] ∧ s.director.vars.pendingBeforeFlush = 1 ∧
    (s.g.terminationCause = .explode ↔ (1 : ℤ) > 10) := by
  have hrun : ((exec step (SmallOffice.queued ++ SmallOffice.own .director 6 ++
      SmallOffice.signal (.operator 0) .usr2 ++ SmallOffice.own (.operator 0) 8 ++
      SmallOffice.own .director 52) (State.init smallOffice)).any fun s =>
        decide (s.director.pc = .printActive ∧
          s.g.today.filterMap Event.turnedAway = [(103, 0)])) = true := by decide +kernel
  obtain ⟨s, hs, h⟩ := (Option.any_eq_true _ _).mp hrun
  obtain ⟨hpc, haway⟩ := of_decide_eq_true h
  obtain ⟨hcount, hanswered, hcause⟩ := (explode_decision_exact (reach_of_exec _ hs)).1 hpc
  rw [← hanswered, haway] at hcount
  rw [haway] at hcause
  exact ⟨s, hs, haway, hcount.symm, hcause⟩

end PostOffice
