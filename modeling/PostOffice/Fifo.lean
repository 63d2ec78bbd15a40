import PostOffice.Flush

/-! First come, first served. Over one day, each queue is the list of the tickets pushed less those
    popped, and the operators pop before the director flushes:

        pushed today = popped by operators ++ flushed by the director ++ still queued

    At the end of a day the queue is empty, so nothing is carried over. Since one dispenser stamps
    and pushes the tickets one after the other, the stamps never decrease along a queue. -/

namespace PostOffice

variable {c : Setup}

namespace Event

variable {workers users : ℕ}

/-- A ticket the dispenser pushed onto the queue `q`. -/
def pushedOnto (q : Service) : Event workers users → Option QueueTicket
  | .pushed s t _ => if s = q then some t else none
  | _ => none

/-- A ticket an operator popped from the queue `q`. -/
def poppedFrom (q : Service) : Event workers users → Option QueueTicket
  | .popped _ s t => if s = q then some t else none
  | _ => none

/-- A ticket `flush_pending_users` popped from the queue `q`. -/
def flushedFrom (q : Service) : Event workers users → Option QueueTicket
  | .flushed s t => if s = q then some t else none
  | _ => none

/-- A push or a pop. -/
def movesTicket : Event workers users → Bool
  | .pushed _ _ _ | .popped _ _ _ | .flushed _ _ => true
  | _ => false

end Event

/-- The pops of a day, by the operators and then by the director. -/
def taken {workers users : ℕ} (q : Service) (day : List (Event workers users)) :
    List QueueTicket :=
  day.filterMap (Event.poppedFrom q) ++ day.filterMap (Event.flushedFrom q)

/-- The pushes of a day. -/
def pushes {workers users : ℕ} (q : Service) (day : List (Event workers users)) :
    List QueueTicket :=
  day.filterMap (Event.pushedOnto q)

/-- Any other event is no part of the story. -/
theorem Shared.today_other {g : Shared c} {e : c.Event} (hb : e.isBoundary = false)
    (hm : e.movesTicket = false) (q : Service) :
    pushes q (g.log e).today = pushes q g.today ∧ taken q (g.log e).today = taken q g.today := by
  unfold pushes taken
  simp only [g.today_filterMap_log hb]
  cases e <;> first
    | exact Bool.noConfusion hm
    | simp [Event.pushedOnto, Event.poppedFrom, Event.flushedFrom]

namespace State

/-- Each queue is what was pushed today and not taken yet; on the days that are over everything
    pushed was taken. -/
structure Fifo (s : State c) : Prop where
  today : ∀ q, pushes q s.g.today = taken q s.g.today ++ (s.g.queues q).toList
  past : ∀ day ∈ s.g.pastDays, ∀ q, pushes q day = taken q day

end State

/-- Before the flush of the day nothing was flushed from any queue. -/
theorem State.Tally.none_flushed {s : State c} (hI : s.Tally) {w : Fin c.nofWorkers}
    (h : s.director.pc.live w = true) (q : Service) :
    s.g.today.filterMap (Event.flushedFrom q) = [] := by
  obtain ⟨hday, hflush, -⟩ := DirPc.not_flushing_of_live h
  have hlen := hI.flushed hday
  rw [State.flushCount, hflush] at hlen
  have hnil := List.filterMap_eq_nil_iff.mp (List.length_eq_zero_iff.mp hlen)
  refine List.filterMap_eq_nil_iff.mpr ?_
  intro e he
  have := hnil e he
  cases e with
  | flushed => cases this
  | _ => rfl

namespace Director

variable {pc pc' : DirPc c.nofWorkerSeats c.nofWorkers c.nofUsers} {v v' : DirVars}
  {g g' : Shared c}

/-- The director takes from the front of a queue, and ends a day only when the queues are empty. -/
theorem Move.fifo (h : Move pc v g pc' v' g')
    (hempty : ∀ q, pc.emptied q = true → (g.queues q).toList = [])
    (hI : ∀ q, pushes q g.today = taken q g.today ++ (g.queues q).toList) (q : Service) :
    pushes q g'.today = taken q g'.today ++ (g'.queues q).toList := by
  cases h
  case assignInit | finalPrint =>
    rw [Shared.today_log_boundary _ (by rfl)]
    exact (hempty q rfl).symm
  case resetQueueNext s _ | resetQueueLast s _ =>
    have hq : (Function.update g.queues s serviceQueueReset q).toList = (g.queues q).toList := by
      by_cases hs : q = s
      · subst hs
        rw [Function.update_self, hempty q rfl]
        exact RingBuffer.toList_reset _ _
      · rw [Function.update_of_ne hs]
    exact (hI q).trans (congrArg _ hq.symm)
  case flushTake s t qu hlen hqu =>
    have hlog (f : c.Event → Option QueueTicket) :=
      (g.setQueue s qu).today_filterMap_log (show Event.isBoundary (.flushed s t) = false from rfl) f
    have hq := hI q
    unfold pushes taken at hq ⊢
    simp only [hlog, Shared.today_setQueue]
    by_cases hs : q = s
    · subst hs
      simp [Event.pushedOnto, Event.poppedFrom, Event.flushedFrom, hq, hqu]
    · simp [Event.pushedOnto, Event.poppedFrom, Event.flushedFrom, hq, hs, Ne.symm hs]
  case flushReply s t hroom =>
    rw [(Shared.today_other (by rfl) (by rfl) q).1, (Shared.today_other (by rfl) (by rfl) q).2]
    exact hI q
  case dayBrokenOff | printDaily =>
    rw [(Shared.today_other (by rfl) (by rfl) q).1, (Shared.today_other (by rfl) (by rfl) q).2]
    exact hI q
  all_goals exact hI q

end Director

/-- The dispenser appends. -/
theorem Dispenser.Move.fifo {pc pc' : DispPc c.nofWorkerSeats} {f : DispFlags} {g g' : Shared c}
    (h : Dispenser.Move pc f g pc' g')
    (hI : ∀ q, pushes q g.today = taken q g.today ++ (g.queues q).toList) (q : Service) :
    pushes q g'.today = taken q g'.today ++ (g'.queues q).toList := by
  cases h with
  | push hpush hqu =>
    rename_i m s t qu
    have hlog (f : c.Event → Option QueueTicket) := (g.setQueue s qu).today_filterMap_log
      (show Event.isBoundary (.pushed s t g.currentDay) = false from rfl) f
    have hq := hI q
    unfold pushes taken at hq ⊢
    simp only [hlog, Shared.today_setQueue]
    by_cases hs : q = s
    · subst hs
      simp [Event.pushedOnto, Event.poppedFrom, Event.flushedFrom, hq, hqu]
    · simp [Event.pushedOnto, Event.poppedFrom, Event.flushedFrom, hq, hs, Ne.symm hs]
  | init | invalidReply | refuseReply =>
    rw [(Shared.today_other (by rfl) (by rfl) q).1, (Shared.today_other (by rfl) (by rfl) q).2]
    exact hI q
  | _ => exact hI q

/-- An operator takes from the front, as long as nothing has been flushed. -/
theorem Operator.Move.fifo {w : Fin c.nofWorkers} {l l' : Operator c} {g g' : Shared c}
    (h : Operator.Move w l g l' g')
    (hflush : (view w l).inRun = true → ∀ q, g.today.filterMap (Event.flushedFrom q) = [])
    (hI : ∀ q, pushes q g.today = taken q g.today ++ (g.queues q).toList) (q : Service) :
    pushes q g'.today = taken q g'.today ++ (g'.queues q).toList := by
  cases h with
  | pop hf k t qu hlen hqu hpc hpc' =>
    have hnone := hflush (by rw [view, hpc]; rfl) q
    have hlog (f : c.Event → Option QueueTicket) :=
      (g.setQueue (c.workerService w) qu).today_filterMap_log
        (show Event.isBoundary (.popped w (c.workerService w) t) = false from rfl) f
    have hq := hI q
    unfold pushes taken at hq ⊢
    simp only [hlog, Shared.today_setQueue]
    by_cases hs : q = c.workerService w
    · subst hs
      simp [Event.pushedOnto, Event.poppedFrom, Event.flushedFrom, hq, hqu, hnone]
    · simp [Event.pushedOnto, Event.poppedFrom, Event.flushedFrom, hq, hs, Ne.symm hs]
  | init | «begin» | popEmpty | count | reply | finish =>
    rw [(Shared.today_other (by rfl) (by rfl) q).1, (Shared.today_other (by rfl) (by rfl) q).2]
    exact hI q
  | _ => exact hI q

theorem User.Move.fifo {u : Fin c.nofUsers} {pc pc' : UserPc} {f : UserFlags} {g g' : Shared c}
    (h : User.Move u pc f g pc' g')
    (hI : ∀ q, pushes q g.today = taken q g.today ++ (g.queues q).toList) (q : Service) :
    pushes q g'.today = taken q g'.today ++ (g'.queues q).toList := by
  cases h with
  | init | «begin» | request =>
    rw [(Shared.today_other (by rfl) (by rfl) q).1, (Shared.today_other (by rfl) (by rfl) q).2]
    exact hI q
  | _ => exact hI q

namespace State.Fifo

variable {s s' : State c}

theorem step (hB : s.Barrier) (hC : s.Closing) (hT : s.Tally) (hI : s.Fifo) (h : s.Move s') :
    s'.Fifo := by
  have hempty (q) (hq : s.director.pc.emptied q = true) : (s.g.queues q).toList = [] :=
    (RingBuffer.toList_eq_nil_iff _).mpr (hC.emptied q hq)
  cases h with
  | director hm =>
    refine ⟨hm.fifo hempty hI.today, hm.pastDays hI.past fun hend q => ?_⟩
    have hq : s.director.pc.emptied q = true := DirPc.emptied_of_endsDay hend q
    rw [hI.today q, hempty q hq, List.append_nil]
  | dispenser hm hf => exact ⟨hm.fifo hI.today, (hm.logs.pastDays_eq (by simp)).symm ▸ hI.past⟩
  | operator w hstep hm =>
    exact ⟨hm.fifo (fun hrun => hT.none_flushed (hB.live_of_inRun hrun)) hI.today,
      (hm.logs.pastDays_eq (by simp)).symm ▸ hI.past⟩
  | user u hm hf => exact ⟨hm.fifo hI.today, (hm.logs.pastDays_eq (by simp)).symm ▸ hI.past⟩
  | deliver p sigs hp =>
    refine ⟨?_, ?_⟩
    · intro q
      simpa using hI.today q
    · simpa [Shared.pastDays] using hI.past
  | interrupt sig hsig => exact ⟨hI.today, hI.past⟩
  | tick ns => exact ⟨hI.today, hI.past⟩

theorem init : (State.init c).Fifo := ⟨fun _ => rfl, nofun⟩

end State.Fifo

theorem fifo {s : State c} (h : Reachable s) : s.Fifo :=
  h.invariant .init fun _ _ hr hI hm => hI.step (barrier hr) (closing hr) (tally hr) hm

end PostOffice
