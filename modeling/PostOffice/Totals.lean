import PostOffice.Requests

/-! The simulation totals. A request that `mark_request` has counted is counted once more, as served
    or as not served, or is still open: in the dispenser's hands, in a queue, or in the hands of an
    operator or of the director's flush before their statistics update.

        requests = served + not served + open

    The day's figures are reset every day, the totals never; the equation is one between the totals
    and the places of the requests, so it does not see the days. -/

namespace PostOffice

open Transition

variable {c : Setup}

/-- The request `flush_pending_users` has popped and not counted as not served. -/
def DirPc.uncounted {seats workers users : ℕ} : DirPc seats workers users → Option Service
  | .flushReply s _ | .flushStatsLock s | .flushStats s => some s
  | _ => none

/-- An operator of the given service has a ticket of `q` in its hands that is not counted as
    served. -/
def OpView.uncounted {seats : ℕ} (service : Service) (v : OpView seats) (q : Service) : Prop :=
  service = q ∧ v.hand.isSome = true ∧ v.counted = false

instance {seats : ℕ} (service : Service) (v : OpView seats) (q : Service) :
    Decidable (v.uncounted service q) := by unfold OpView.uncounted; infer_instance

namespace SimulationStats

variable (st : SimulationStats)

/-- The totals over the services are the simulation totals. -/
structure Balanced : Prop where
  users : st.totalUsersServed = st.totalServicesServed
  served : st.totalServicesServed = Family.total (fun _ x => x.served) st.totalByService
  notServed : st.totalServicesNotServed = Family.total (fun _ x => x.notServed) st.totalByService

variable {st}

theorem Balanced.serve (h : st.Balanced) (s : Service) (wait : ℚ) (minutes : ℕ) :
    (st.serve s wait minutes).Balanced := by
  obtain ⟨h1, h2, h3⟩ := h
  refine ⟨congrArg (· + 1) h1, ?_, ?_⟩
  · exact (congrArg (· + 1) h2).trans (Family.total_update_succ (by rfl)).symm
  · exact h3.trans (Family.total_update_eq (by rfl)).symm

theorem Balanced.markRequest (h : st.Balanced) (s : Service) : (st.markRequest s).Balanced := by
  obtain ⟨h1, h2, h3⟩ := h
  refine ⟨h1, ?_, ?_⟩
  · exact h2.trans (Family.total_update_eq (by rfl)).symm
  · exact h3.trans (Family.total_update_eq (by rfl)).symm

theorem Balanced.markNotServed (h : st.Balanced) (s : Service) :
    (st.markNotServed s).Balanced := by
  obtain ⟨h1, h2, h3⟩ := h
  refine ⟨h1, ?_, ?_⟩
  · exact h2.trans (Family.total_update_eq (by rfl)).symm
  · exact (congrArg (· + 1) h3).trans (Family.total_update_succ (by rfl)).symm

end SimulationStats

/-! ### The moves -/

section Moves

variable {g g' : Shared c} {q : Service}

theorem Director.Move.balanced {pc pc' : DirPc c.nofWorkerSeats c.nofWorkers c.nofUsers}
    {v v' : DirVars} (h : Director.Move pc v g pc' v' g') (hI : g.stats.Balanced) :
    g'.stats.Balanced := by
  cases h with
  | resetStats => exact ⟨hI.users, hI.served, hI.notServed⟩
  | flushStats => exact hI.markNotServed _
  | _ => exact hI

theorem Dispenser.Move.balanced {pc pc' : DispPc c.nofWorkerSeats} {f : DispFlags}
    (h : Dispenser.Move pc f g pc' g') (hI : g.stats.Balanced) : g'.stats.Balanced := by
  cases h with
  | countStats => exact hI.markRequest _
  | refuseStats => exact hI.markNotServed _
  | _ => exact hI

theorem Operator.Move.balanced {w : Fin c.nofWorkers} {l l' : Operator c}
    (h : Operator.Move w l g l' g') (hI : g.stats.Balanced) : g'.stats.Balanced := by
  cases h with
  | count => exact hI.serve _ _ _
  | pauseStats => exact ⟨hI.users, hI.served, hI.notServed⟩
  | _ => exact hI

namespace Shared

/-- The requests for `q` counted so far, by what has become of them. -/
def outcomes (g : Shared c) (q : Service) : ℕ :=
  (g.stats.totalByService q).served + (g.stats.totalByService q).notServed

/-- The requests for `q` counted so far. -/
def requests (g : Shared c) (q : Service) : ℕ := (g.stats.totalByService q).requests

theorem length_pop {s : Service} {qu : ServiceQueue} {t : QueueTicket}
    (hqu : (g.queues s).toList = t :: qu.toList) :
    ((g.setQueue s qu).queues q).length + ind (s = q) = (g.queues q).length := by
  have hlen := congrArg List.length hqu
  simp only [List.length_cons, RingBuffer.length_toList] at hlen
  by_cases hs : s = q
  · subst hs
    simp [ind]
    omega
  · simp [hs, Ne.symm hs]

theorem length_push {s : Service} {qu : ServiceQueue} {t : QueueTicket}
    (hqu : qu.toList = (g.queues s).toList ++ [t]) :
    ((g.setQueue s qu).queues q).length = (g.queues q).length + ind (s = q) := by
  have hlen := congrArg List.length hqu
  simp only [List.length_append, List.length_singleton, RingBuffer.length_toList] at hlen
  by_cases hs : s = q
  · subst hs
    simp [ind]
    omega
  · simp [hs, Ne.symm hs]

end Shared

/-- The flush takes a request from the queue and counts it as not served. -/
theorem Director.Move.account {pc pc' : DirPc c.nofWorkerSeats c.nofWorkers c.nofUsers}
    {v v' : DirVars} (h : Director.Move pc v g pc' v' g')
    (hempty : ∀ q, pc.emptied q = true → (g.queues q).length = 0) (q : Service) :
    g'.requests q = g.requests q ∧
    g'.outcomes q + (g'.queues q).length + ind (pc'.uncounted = some q) =
      g.outcomes q + (g.queues q).length + ind (pc.uncounted = some q) := by
  cases h with
  | @resetQueueNext _ _ s | @resetQueueLast _ _ s =>
    have hlen : ((g.setQueue s serviceQueueReset).queues q).length = (g.queues q).length := by
      by_cases hs : q = s
      · subst hs
        rw [hempty q rfl]
        simp [serviceQueueReset, RingBuffer.reset]
      · simp [hs]
    rw [hlen]
    exact ⟨rfl, rfl⟩
  | @flushTake v g s t qu hlen hqu =>
    have hpop := @Shared.length_pop c g q s qu t hqu
    refine ⟨rfl, ?_⟩
    simp [DirPc.uncounted, Shared.outcomes, ind] at hpop ⊢
    omega
  | @flushStats v g s =>
    by_cases hs : q = s
    · subst hs
      simp [DirPc.uncounted, Shared.outcomes, Shared.requests, SimulationStats.markNotServed, ind]
      omega
    · simp [DirPc.uncounted, Shared.outcomes, Shared.requests, SimulationStats.markNotServed, hs,
        Ne.symm hs]
  | _ => exact ⟨rfl, rfl⟩

/-- The dispenser counts a request, and then either pushes it or counts it as not served. -/
theorem Dispenser.Move.account {pc pc' : DispPc c.nofWorkerSeats} {f : DispFlags}
    (h : Dispenser.Move pc f g pc' g') (q : Service) :
    g'.outcomes q + (g'.queues q).length + ind (pc'.counted = some q) + g.requests q =
      g.outcomes q + (g.queues q).length + ind (pc.counted = some q) + g'.requests q := by
  cases h with
  | push hpush hqu =>
    rename_i m s t qu
    have hq := @Shared.length_push c g q s qu t hqu
    simp [DispPc.counted, Shared.outcomes, Shared.requests, ind] at hq ⊢
    omega
  | countStats =>
    rename_i m s
    by_cases hs : q = s
    · subst hs
      simp [DispPc.counted, Shared.outcomes, Shared.requests, SimulationStats.markRequest, ind]
      omega
    · simp [DispPc.counted, Shared.outcomes, Shared.requests, SimulationStats.markRequest, hs,
        Ne.symm hs]
  | refuseStats =>
    rename_i m s
    by_cases hs : q = s
    · subst hs
      simp [DispPc.counted, Shared.outcomes, Shared.requests, SimulationStats.markNotServed, ind]
      omega
    · simp [DispPc.counted, Shared.outcomes, Shared.requests, SimulationStats.markNotServed, hs,
        Ne.symm hs]
  | _ => rfl

/-- An operator takes a request from the queue and counts it as served. -/
theorem Operator.Move.account {w : Fin c.nofWorkers} {l l' : Operator c}
    (h : Operator.Move w l g l' g')
    (hpos : ∀ q, ∀ t ∈ (g.queues q).toList, 0 < t.userPid) (q : Service) :
    g'.requests q = g.requests q ∧
    g'.outcomes q + (g'.queues q).length + ind ((view w l').uncounted (c.workerService w) q) =
      g.outcomes q + (g.queues q).length + ind ((view w l).uncounted (c.workerService w) q) := by
  have hview (x : Operator c) : view w x = x.pc.view (c.workerService w) := rfl
  cases h with
  | silent hf hv => rw [hv]; exact ⟨rfl, rfl⟩
  | acquire hf σ hm hl hσ hv | release hf σ hm hl hv => rw [hv]; exact ⟨rfl, rfl⟩
  | pop hf k t qu hlen hqu hpc hpc' =>
    have hpop := @Shared.length_pop c g q _ qu t hqu
    have ht : 0 < t.userPid := hpos _ t (hqu ▸ List.mem_cons_self)
    rw [hview, hview, hpc, hpc']
    refine ⟨rfl, ?_⟩
    simp [OpView.uncounted, OpPc.view, OpView.seated, OpView.running, OpView.starting, OpView.idle,
      Shared.outcomes, ht] at hpop ⊢
    omega
  | count hf k t n m hpc hpc' =>
    rw [hview, hview, hpc, hpc']
    by_cases hs : q = c.workerService w
    · subst hs
      simp [OpView.uncounted, OpPc.view, OpView.seated, OpView.running, OpView.starting,
        OpView.idle, Shared.outcomes, Shared.requests, SimulationStats.serve]
      omega
    · simp [OpView.uncounted, OpPc.view, OpView.seated, OpView.running, OpView.starting,
        OpView.idle, Shared.outcomes, Shared.requests, SimulationStats.serve, hs, Ne.symm hs]
  | init hf hpc hpc' | consume hf hpc hpc' | «begin» hf hpc hpc' | popEmpty hf k hlen hpc hpc'
  | serveStart hf k t m hpc hpc' | reply hf k t hpc hpc' | pauseCount hf k hpc hpc'
  | pauseStats hf k hpc hpc' | raiseStop hf k hpc hpc' | finish hf hpc hpc' =>
    rw [hview, hview, hpc, hpc']
    simp [OpView.uncounted, OpPc.view, OpView.seated, OpView.running, OpView.starting,
      OpView.idle, Shared.outcomes, Shared.requests, SimulationStats.pause, noTicket]
  | takeToken hf hσ hv hv' | giveToken hf p hv hv' | dropToken hf hi p hv hv'
  | pass hf i hi hv hv' | sit hf i hi hv hv' | stand hf k hv hv' | dropSeat hf hi k hv hv'
  | takeJob hf hσ k hv hv' | dropJob hf hi k hv hv' =>
    rw [hv, hv']
    exact ⟨rfl, rfl⟩

end Moves

/-! ### The invariant -/

namespace State

/-- The requests for `q` that are counted and still open. -/
def openRequests (s : State c) (q : Service) : ℕ :=
  ind (s.dispenser.pc.counted = some q) + (s.g.queues q).length +
    Family.total (fun w v => ind (v.uncounted (c.workerService w) q)) s.view +
    ind (s.director.pc.uncounted = some q)

/-- The books of the totals. -/
structure Totals (s : State c) : Prop where
  account : ∀ q, s.g.requests q = s.g.outcomes q + s.openRequests q
  balanced : s.g.stats.Balanced

namespace Totals

variable {s s' : State c}

theorem step (hG : s.Genuine) (hC : s.Closing) (hI : s.Totals) (h : s.Move s') : s'.Totals := by
  have hacc := hI.account
  unfold openRequests at hacc
  cases h with
  | @director l' g' hm =>
    refine ⟨fun q => ?_, hm.balanced hI.balanced⟩
    obtain ⟨h1, h2⟩ := hm.account hC.emptied q
    have := hacc q
    simp only [openRequests, setDirector_g, setDirector_director, setDirector_dispenser,
      view_setDirector]
    omega
  | @dispenser l' g' hm hf =>
    refine ⟨fun q => ?_, hm.balanced hI.balanced⟩
    have := hm.account q
    have := hacc q
    simp only [openRequests, setDispenser_g, setDispenser_director, setDispenser_dispenser,
      view_setDispenser]
    omega
  | @operator n l' g' w hstep hm =>
    refine ⟨fun q => ?_, hm.balanced hI.balanced⟩
    obtain ⟨h1, h2⟩ := hm.account (fun q t ht => (hG.queued q t ht).pos) q
    have htotal := s.total_view_setOperator
      (fun w v => ind (v.uncounted (c.workerService w) q)) w (l', g')
    dsimp only at htotal
    have := hacc q
    rw [view_eq] at h2
    simp only [openRequests, setOperator_g, setOperator_director, setOperator_dispenser]
    omega
  | user u hm hf =>
    rw [hm.frame]
    exact ⟨hacc, hI.balanced⟩
  | deliver p sigs hp =>
    refine ⟨?_, ?_⟩
    · intro q
      simpa [openRequests, Shared.requests, Shared.outcomes] using hacc q
    · simpa using hI.balanced
  | interrupt sig hsig => exact ⟨hacc, hI.balanced⟩
  | tick ns => exact ⟨hacc, hI.balanced⟩

theorem init : (State.init c).Totals := by
  refine ⟨?_, rfl, ?_, ?_⟩
  · intro q
    have hview : Family.total (fun w v => ind (v.uncounted (c.workerService w) q))
        (State.init c).view = 0 := Family.total_eq_zero fun w => ind_of_not fun h => nomatch h.2.1
    unfold openRequests
    rw [hview]
    rfl
  · exact (Family.total_eq_zero fun _ => rfl).symm
  · exact (Family.total_eq_zero fun _ => rfl).symm

/-- When the flush is over, only the dispenser still has an open request. -/
theorem open_eq (hB : s.Barrier) (hC : s.Closing) (hpc : s.director.pc = .printActive)
    (q : Service) : s.openRequests q = ind (s.dispenser.pc.counted = some q) := by
  have hview : Family.total (fun w v => ind (v.uncounted (c.workerService w) q)) s.view = 0 := by
    refine Family.total_eq_zero fun w => ind_of_not ?_
    intro h
    have hrun : (s.view w).inRun = false := hB.not_inRun (by rw [hpc]; rfl)
    obtain ⟨i, b, hidle⟩ := OpPc.view_of_not_inRun hrun
    have hhand : (s.view w).hand.isSome = true := h.2.1
    rw [view, Operator.view, hidle] at hhand
    exact Bool.false_ne_true hhand
  unfold openRequests
  rw [hview, hC.emptied q (by rw [hpc]; rfl), hpc]
  rfl

end Totals

end State

theorem totals {s : State c} (h : Reachable s) : s.Totals :=
  h.invariant .init fun _ _ hr hI hm => hI.step (genuine hr) (closing hr) hm

/-- CORRECT: the simulation totals are conserved. For every service the requests counted are those
    served, those not served and those still open (a request counts as open until its statistics
    update); the totals are the sums over the services; and when `flush_pending_users` returns, the
    only open request is the one the dispenser has counted and not pushed. -/
theorem totals_conserved {s : State c} (h : Reachable s) :
    (∀ q, (s.g.stats.totalByService q).requests = (s.g.stats.totalByService q).served +
      (s.g.stats.totalByService q).notServed + s.openRequests q) ∧
    s.g.stats.totalUsersServed = s.g.stats.totalServicesServed ∧
    s.g.stats.totalServicesServed = ∑ q, (s.g.stats.totalByService q).served ∧
    s.g.stats.totalServicesNotServed = ∑ q, (s.g.stats.totalByService q).notServed ∧
    (s.director.pc = .printActive →
      ∀ q, s.openRequests q = ind (s.dispenser.pc.counted = some q)) :=
  ⟨(totals h).account, (totals h).balanced.users, (totals h).balanced.served,
    (totals h).balanced.notServed, fun hpc q => State.Totals.open_eq (barrier h) (closing h) hpc q⟩

/-- In the small office the first day ends with its request served. -/
theorem totals_conserved_small : ∃ s : State smallOffice,
    exec step SmallOffice.closing (State.init smallOffice) = some s ∧
    (s.g.stats.totalByService 0).served = 1 ∧
    (s.g.stats.totalByService 0).requests = (s.g.stats.totalByService 0).served +
      (s.g.stats.totalByService 0).notServed + s.openRequests 0 ∧
    ∀ q, s.openRequests q = ind (s.dispenser.pc.counted = some q) := by
  have hrun : ((exec step SmallOffice.closing (State.init smallOffice)).any fun s =>
      decide (s.director.pc = .printActive ∧ (s.g.stats.totalByService 0).served = 1)) = true := by
    decide +kernel
  obtain ⟨s, hs, h⟩ := (Option.any_eq_true _ _).mp hrun
  obtain ⟨hpc, hserved⟩ := of_decide_eq_true h
  obtain ⟨haccount, -, -, -, hopen⟩ := totals_conserved (reach_of_exec _ hs)
  exact ⟨s, hs, hserved, haccount 0, hopen hpc⟩

end PostOffice
