import PostOffice.Fifo
import PostOffice.Tickets

/-! The time stamps. The dispenser reads the clock for one ticket and pushes it before it reads the
    clock for the next, so the stamps along a queue never decrease; and no ticket is stamped after
    the present, so no operator finds a negative waiting time. -/

namespace PostOffice

open Transition

variable {c : Setup}

/-- No ticket pushed so far is stamped later: the stamp of the ticket about to be pushed, or else
    the clock. -/
def DispPc.stampOr {seats : ℕ} (clock : ℤ) : DispPc seats → ℤ
  | .push _ _ t => t.requestedAtNs
  | _ => clock

/-- Time passes. -/
theorem DispPc.stampOr_mono {seats : ℕ} {pc : DispPc seats} {clock clock' : ℤ}
    (h : clock ≤ clock') (hle : pc.stampOr clock ≤ clock) :
    pc.stampOr clock ≤ pc.stampOr clock' ∧ pc.stampOr clock' ≤ clock' := by
  cases pc with
  | push m s t => exact ⟨le_rfl, hle.trans h⟩
  | _ => exact ⟨h, le_rfl⟩

/-- The stamps along the list do not decrease. -/
def InOrder (ts : List QueueTicket) : Prop :=
  ts.Pairwise fun t t' => t.requestedAtNs ≤ t'.requestedAtNs

namespace State

/-- What is known of the stamps. -/
structure Stamps (s : State c) : Prop where
  stampOr_le : s.dispenser.pc.stampOr s.g.clock ≤ s.g.clock
  pushed_le : ∀ q, ∀ t ∈ pushes q s.g.today,
    t.requestedAtNs ≤ s.dispenser.pc.stampOr s.g.clock
  inOrder : ∀ q, InOrder (pushes q s.g.today)
  past : ∀ day ∈ s.g.pastDays, ∀ q, InOrder (pushes q day)
  hand_le : ∀ w t, (s.view w).hand = some t → t.requestedAtNs ≤ s.g.clock
  waiting : ∀ w x, (s.view w).waiting = some x → 0 ≤ x
  served : ∀ w q t x, Event.served w q t x ∈ s.g.hist → 0 ≤ x

end State

/-- The director pushes nothing; it may begin a new day. -/
theorem Director.Move.pushes_eq {pc pc' : DirPc c.nofWorkerSeats c.nofWorkers c.nofUsers}
    {v v' : DirVars} {g g' : Shared c} (h : Director.Move pc v g pc' v' g') (q : Service) :
    pushes q g'.today = pushes q g.today ∨ pushes q g'.today = [] := by
  cases h
  case assignInit | finalPrint =>
    rw [Shared.today_log_boundary _ (by rfl)]
    exact .inr rfl
  case flushTake s t qu hlen hqu =>
    refine .inl ?_
    have hlog := (g.setQueue s qu).today_filterMap_log
      (show Event.isBoundary (.flushed s t) = false from rfl) (Event.pushedOnto q)
    simpa [pushes, Event.pushedOnto] using hlog
  case dayBrokenOff | flushReply | printDaily => exact .inl (Shared.today_other (by rfl) (by rfl) q).1
  all_goals exact .inl rfl

/-- The dispenser pushes only the ticket it has stamped, and stamps with the clock. -/
theorem Dispenser.Move.pushes_eq {pc pc' : DispPc c.nofWorkerSeats} {f : DispFlags}
    {g g' : Shared c} (h : Dispenser.Move pc f g pc' g') (q : Service) :
    (pushes q g'.today = pushes q g.today ∧
      (pc'.stampOr g.clock = g.clock ∨ pc' = pc)) ∨
    ∃ t, pushes q g'.today = pushes q g.today ++ [t] ∧ pc.stampOr g.clock = t.requestedAtNs ∧
      pc'.stampOr g.clock = g.clock := by
  cases h with
  | stay => exact .inl ⟨rfl, .inr rfl⟩
  | push hpush hqu =>
    rename_i m s t qu
    have hlog := (g.setQueue s qu).today_filterMap_log
      (show Event.isBoundary (.pushed s t g.currentDay) = false from rfl) (Event.pushedOnto q)
    by_cases hs : s = q
    · exact .inr ⟨t, by simpa [pushes, Event.pushedOnto, hs] using hlog, rfl, rfl⟩
    · exact .inl ⟨by simpa [pushes, Event.pushedOnto, hs] using hlog, .inl rfl⟩
  | init | invalidReply | refuseReply =>
    exact .inl ⟨(Shared.today_other (by rfl) (by rfl) q).1, .inl rfl⟩
  | _ => exact .inl ⟨rfl, .inl rfl⟩

/-- Nobody but the dispenser pushes. -/
theorem Logs.pushes_eq {p : c.Proc} {g g' : Shared c} (h : Logs p g g') (hp : p ≠ .director)
    (hd : p ≠ .dispenser) (q : Service) : pushes q g'.today = pushes q g.today := by
  refine h.today_filterMap_eq hp ?_
  intro e he
  cases e with
  | pushed => exact absurd he.symm hd
  | _ => rfl

namespace Operator

variable {w : Fin c.nofWorkers} {l l' : Operator c} {g g' : Shared c}

/-- The waiting time is the present less the stamp of the ticket in the operator's hands. -/
theorem Move.waiting (h : Move w l g l' g') {x : ℤ} (hx : (view w l').waiting = some x) :
    (view w l).waiting = some x ∨
      ∃ t, (view w l).hand = some t ∧ x = g.clock - t.requestedAtNs := by
  have hview (x : Operator c) : view w x = x.pc.view (c.workerService w) := rfl
  cases h with
  | silent hf hv => exact .inl (hv ▸ hx)
  | acquire hf σ hm hl hσ hv | release hf σ hm hl hv =>
    rw [hv] at hx
    exact .inl hx
  | serveStart hf k t m hpc hpc' =>
    rw [hview, hpc'] at hx
    rw [hview, hpc]
    exact .inr ⟨t, rfl, (Option.some.inj hx).symm⟩
  | init hf hpc hpc' | consume hf hpc hpc' | «begin» hf hpc hpc' | pauseCount hf k hpc hpc'
  | pauseStats hf k hpc hpc' | raiseStop hf k hpc hpc' | finish hf hpc hpc'
  | pop hf k t' qu hlen hqu hpc hpc' | popEmpty hf k hlen hpc hpc' | count hf k t n m hpc hpc'
  | reply hf k t hpc hpc' =>
    rw [hview, hpc'] at hx
    cases hx
  | takeToken hf hσ hv hv' | giveToken hf p hv hv' | dropToken hf hi p hv hv'
  | pass hf i hi hv hv' | sit hf i hi hv hv' | stand hf k hv hv' | dropSeat hf hi k hv hv'
  | takeJob hf hσ k hv hv' | dropJob hf hi k hv hv' =>
    rw [hv'] at hx
    cases hx

/-- A ticket is served with the waiting time taken for it. -/
theorem Move.served (h : Move w l g l' g') {v : Fin c.nofWorkers} {q : Service} {t : QueueTicket}
    {x : ℤ} (hx : Event.served v q t x ∈ g'.hist) :
    Event.served v q t x ∈ g.hist ∨ (view w l).waiting = some x := by
  cases h with
  | count hf k t' n m hpc hpc' =>
    rw [Shared.log_hist, List.mem_append, List.mem_singleton] at hx
    refine hx.imp_right ?_
    intro hx
    cases hx
    rw [view, hpc]
    rfl
  | init | «begin» | pop | popEmpty | reply | finish =>
    rw [Shared.log_hist, List.mem_append, List.mem_singleton] at hx
    exact .inl (hx.resolve_right (by simp))
  | _ => exact .inl hx

end Operator

theorem Director.Move.clock {pc pc' : DirPc c.nofWorkerSeats c.nofWorkers c.nofUsers}
    {v v' : DirVars} {g g' : Shared c} (h : Director.Move pc v g pc' v' g') :
    g'.clock = g.clock := by
  cases h <;> rfl

/-- Only the operator itself serves its tickets. -/
theorem Logs.served {p : c.Proc} {g g' : Shared c} (h : Logs p g g') (hp : ∀ w, p ≠ .operator w)
    {v : Fin c.nofWorkers} {q : Service} {t : QueueTicket} {x : ℤ}
    (hx : Event.served v q t x ∈ g'.hist) : Event.served v q t x ∈ g.hist :=
  (h.mem hx).resolve_right fun he => hp v he.symm

namespace State.Stamps

variable {s s' : State c}

/-- A ticket in a queue was pushed today. -/
theorem queued_le (hF : s.Fifo) (hI : s.Stamps) {q : Service} {t : QueueTicket}
    (ht : t ∈ (s.g.queues q).toList) : t.requestedAtNs ≤ s.g.clock := by
  have hmem : t ∈ pushes q s.g.today := by
    rw [hF.today q]
    exact List.mem_append_right _ ht
  exact (hI.pushed_le q t hmem).trans hI.stampOr_le

/-- The dispenser's step: the ticket it pushes is the latest of all. -/
theorem dispenser {l' : Dispenser c} {g' : Shared c}
    (hm : Dispenser.Move s.dispenser.pc s.dispenser.vars s.g l'.pc g') (hI : s.Stamps) :
    (s.setDispenser (l', g')).Stamps := by
  have hclock : g'.clock = s.g.clock := by rw [hm.frame]
  have hstamp : l'.pc.stampOr s.g.clock ≤ s.g.clock := by
    rcases hm.pushes_eq 0 with ⟨-, h | h⟩ | ⟨t, -, -, h⟩
    · exact h.le
    · exact h ▸ hI.stampOr_le
    · exact h.le
  refine ⟨?_, ?_, ?_, ?_, ?_, hI.waiting, ?_⟩
  · rw [State.setDispenser_g, hclock]
    exact hstamp
  · intro q t ht
    rw [State.setDispenser_g] at ht
    rw [State.setDispenser_g, hclock]
    show _ ≤ l'.pc.stampOr s.g.clock
    rcases hm.pushes_eq q with ⟨hp, h | h⟩ | ⟨t', hp, hpc, h⟩
    · exact ((hI.pushed_le q t (hp ▸ ht)).trans hI.stampOr_le).trans h.ge
    · exact h ▸ hI.pushed_le q t (hp ▸ ht)
    · rw [hp, List.mem_append, List.mem_singleton] at ht
      rcases ht with ht | rfl
      · exact ((hI.pushed_le q t ht).trans hI.stampOr_le).trans h.ge
      · exact (hpc ▸ hI.stampOr_le).trans h.ge
  · intro q
    show InOrder (pushes q g'.today)
    rcases hm.pushes_eq q with ⟨hp, -⟩ | ⟨t, hp, hpc, -⟩
    · exact hp ▸ hI.inOrder q
    · rw [hp]
      refine List.pairwise_append.mpr ⟨hI.inOrder q, List.pairwise_singleton _ _, fun t' ht' => ?_⟩
      simpa [hpc] using hI.pushed_le q t' ht'
  · rw [State.setDispenser_g, hm.logs.pastDays_eq (by simp)]
    exact hI.past
  · rw [State.setDispenser_g, hclock]
    exact hI.hand_le
  · intro v q t x hx
    exact hI.served v q t x (hm.logs.served (by simp) hx)

/-- An operator's step: its ticket was in the queue, its waiting time is not negative. -/
theorem operator (hF : s.Fifo) {w : Fin c.nofWorkers} {l' : Operator c} {g' : Shared c}
    (hm : Operator.Move w (s.operators w) s.g l' g') (hI : s.Stamps) :
    (s.setOperator w (l', g')).Stamps := by
  have hclock : g'.clock = s.g.clock := by rw [hm.frame]
  have hpushes (q) : pushes q g'.today = pushes q s.g.today :=
    hm.logs.pushes_eq (by simp) (by simp) q
  refine ⟨?_, fun q t ht => ?_, fun q => ?_, ?_, fun v t ht => ?_, fun v x hx => ?_,
    fun v q t x hx => ?_⟩
  · rw [State.setOperator_g, hclock]
    exact hI.stampOr_le
  · rw [State.setOperator_g] at ht
    rw [State.setOperator_g, hclock]
    exact hI.pushed_le q t (hpushes q ▸ ht)
  · show InOrder (pushes q g'.today)
    exact hpushes q ▸ hI.inOrder q
  · rw [State.setOperator_g, hm.logs.pastDays_eq (by simp)]
    exact hI.past
  · rw [State.setOperator_g, hclock]
    rw [State.view_setOperator] at ht
    by_cases hv : v = w
    · subst hv
      rw [Function.update_self] at ht
      exact (hm.hand ht).elim (hI.hand_le v t) (hI.queued_le hF)
    · rw [Function.update_of_ne hv] at ht
      exact hI.hand_le v t ht
  · rw [State.view_setOperator] at hx
    by_cases hv : v = w
    · subst hv
      rw [Function.update_self] at hx
      rcases hm.waiting hx with hx | ⟨t, ht, rfl⟩
      · exact hI.waiting v x hx
      · exact Int.sub_nonneg_of_le (hI.hand_le v t ht)
    · rw [Function.update_of_ne hv] at hx
      exact hI.waiting v x hx
  · exact (hm.served hx).elim (hI.served v q t x) (hI.waiting w x)

theorem step (hF : s.Fifo) (hI : s.Stamps) (h : s.Move s') : s'.Stamps := by
  cases h with
  | @director l' g' hm =>
    have hclock := hm.clock
    refine ⟨?_, fun q t ht => ?_, fun q => ?_, hm.pastDays hI.past fun _ => hI.inOrder, ?_,
      hI.waiting, fun v q t x hx => hI.served v q t x (hm.logs.served (by simp) hx)⟩
    · rw [State.setDirector_g, hclock]
      exact hI.stampOr_le
    · rw [State.setDirector_g, hclock]
      rcases hm.pushes_eq q with hp | hp
      · exact hI.pushed_le q t (hp ▸ ht)
      · exact absurd (hp ▸ ht) List.not_mem_nil
    · show InOrder (pushes q g'.today)
      rcases hm.pushes_eq q with hp | hp
      · exact hp ▸ hI.inOrder q
      · exact hp ▸ List.Pairwise.nil
    · rw [State.setDirector_g, hclock]
      exact hI.hand_le
  | dispenser hm hf => exact hI.dispenser hm
  | operator w hstep hm => exact hI.operator hF hm
  | @user l' g' u hm hf =>
    have hclock : g'.clock = s.g.clock := by rw [hm.frame]
    have hpushes (q) : pushes q g'.today = pushes q s.g.today :=
      hm.logs.pushes_eq (by simp) (by simp) q
    refine ⟨?_, fun q t ht => ?_, fun q => hpushes q ▸ hI.inOrder q, ?_, ?_, hI.waiting,
      fun v q t x hx => hI.served v q t x (hm.logs.served (by simp) hx)⟩
    · rw [State.setUser_g, hclock]
      exact hI.stampOr_le
    · rw [State.setUser_g] at ht
      rw [State.setUser_g, hclock]
      exact hI.pushed_le q t (hpushes q ▸ ht)
    · rw [State.setUser_g, hm.logs.pastDays_eq (by simp)]
      exact hI.past
    · rw [State.setUser_g, hclock]
      exact hI.hand_le
  | deliver p sigs hp =>
    refine ⟨?_, ?_, ?_, ?_, ?_, ?_, ?_⟩
    · simpa using hI.stampOr_le
    · simpa using hI.pushed_le
    · simpa using hI.inOrder
    · simpa [Shared.pastDays] using hI.past
    · simpa using hI.hand_le
    · simpa using hI.waiting
    · simpa using hI.served
  | interrupt sig hsig =>
    exact ⟨hI.stampOr_le, hI.pushed_le, hI.inOrder, hI.past, hI.hand_le, hI.waiting, hI.served⟩
  | tick ns =>
    have hle : s.g.clock ≤ s.g.clock + ns := by omega
    have hmono := DispPc.stampOr_mono hle hI.stampOr_le
    exact ⟨hmono.2, fun q t ht => (hI.pushed_le q t ht).trans hmono.1, hI.inOrder, hI.past,
      fun w t ht => (hI.hand_le w t ht).trans hle, hI.waiting, hI.served⟩

theorem init : (State.init c).Stamps :=
  ⟨le_rfl, fun _ _ => nofun, fun _ => .nil, nofun, nofun, nofun, nofun⟩

end State.Stamps

theorem stamps {s : State c} (h : Reachable s) : s.Stamps :=
  h.invariant .init fun _ _ hr hI hm => hI.step (fifo hr) hm

/-- CORRECT: first come, first served, and nothing carried over. On every day that is over, the
    tickets pushed onto a queue are those its operators popped, in that order, followed by those
    `flush_pending_users` popped; on the current day the queue holds the rest. Only operators of the
    service pop, the stamps do not decrease along the pushes, and no waiting time is negative. -/
theorem first_come_first_served {s : State c} (h : Reachable s) :
    (∀ day ∈ s.g.pastDays, ∀ q, pushes q day = taken q day ∧ InOrder (pushes q day)) ∧
    (∀ q, pushes q s.g.today = taken q s.g.today ++ (s.g.queues q).toList ∧
      InOrder (pushes q s.g.today)) ∧
    (∀ w q t, Event.popped w q t ∈ s.g.hist → c.workerService w = q ∧ 0 < t.userPid) ∧
    ∀ w q t x, Event.served w q t x ∈ s.g.hist → 0 ≤ x := by
  have hF := fifo h
  have hS := stamps h
  have hG := genuine h
  refine ⟨fun day hd q => ⟨hF.past day hd q, hS.past day hd q⟩,
    fun q => ⟨hF.today q, hS.inOrder q⟩, fun w q t hx => ?_, hS.served⟩
  obtain ⟨rfl, ht⟩ := hG.popped w q t hx
  exact ⟨rfl, ht.pos⟩

/-- The first day of the small office is over: one ticket was pushed, and popped. -/
theorem first_come_first_served_small : ∃ s : State smallOffice,
    exec step SmallOffice.night (State.init smallOffice) = some s ∧
    s.g.pastDays.map (pushes 0) =
      [[], [{ userPid := 103, userIndex := 0, requestedAtNs := 0 }]] ∧
    ∀ day ∈ s.g.pastDays, ∀ q, pushes q day = taken q day ∧ InOrder (pushes q day) := by
  have hrun : ((exec step SmallOffice.night (State.init smallOffice)).any fun s =>
      decide (s.g.pastDays.map (pushes 0) =
        [[], [{ userPid := 103, userIndex := 0, requestedAtNs := 0 }]])) = true := by
    decide +kernel
  obtain ⟨s, hs, hday⟩ := (Option.any_eq_true _ _).mp hrun
  exact ⟨s, hs, of_decide_eq_true hday, (first_come_first_served (reach_of_exec _ hs)).1⟩

end PostOffice
