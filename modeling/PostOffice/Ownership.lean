import PostOffice.Counters

/-! Counter ownership and tokens in an active day. As long as nobody but an operator itself stops
    its day, no claim and no release is interrupted, so no token and no counter is left behind:

        free tokens + operators with a token = counters of the service

    and a counter with a worker on it belongs to the one operator that sits there. -/

namespace PostOffice

open Transition

variable {c : Setup}

/-- In an active day no `SIGUSR2` is delivered to an operator inside `run_day`: its
    `day_stop_requested` is raised by its own pause only. -/
def CalmDay (s : State c) (p : c.Proc) (sigs : List Signal) : Prop :=
  ∀ w, p = .operator w → .usr2 ∈ sigs → s.g.dayActive = true → (s.view w).inRun = false

/-- The operator holds a free-counter token, or the counter it took with one. -/
def OpView.holdsToken {seats : ℕ} (v : OpView seats) : Prop :=
  v.pos.isSome = true ∨ v.seat.isSome = true

instance {seats : ℕ} (v : OpView seats) : Decidable v.holdsToken := by
  unfold OpView.holdsToken
  infer_instance

/-- A ticket is served at a counter. -/
theorem OpPc.seat_of_hand {seats : ℕ} {service : Service} {pc : OpPc seats}
    (h : (pc.view service).hand.isSome = true) : (pc.view service).seat.isSome = true := by
  cases pc <;> first | rfl | exact Bool.noConfusion h

/-! ### The moves -/

namespace Operator

variable {w : Fin c.nofWorkers} {l l' : Operator c} {g g' : Shared c}

/-- No operator changes the service of a counter. -/
theorem Move.offering (h : Move w l g l' g') (q : Service) (n : ℕ) :
    g'.offering q n = g.offering q n := by
  cases h with
  | sit hf i | stand hf i =>
    refine Family.total_congr fun j => ind_congr (and_congr_right fun _ => ?_)
    exact Eq.congr_left (Family.update_of_eq Counter.service (by rfl) j)
  | _ => rfl

/-- Uninterrupted, an operator gives back every token it takes. -/
theorem Move.balance (h : Move w l g l' g') (hm : (view w l).inRun = true → l.mode ≠ .eintr)
    (q : Service) :
    g'.sem (.freeCounter q) + ind (c.workerService w = q ∧ (view w l').holdsToken) =
      g.sem (.freeCounter q) + ind (c.workerService w = q ∧ (view w l).holdsToken) := by
  have hview (x : Operator c) : view w x = x.pc.view (c.workerService w) := rfl
  cases h with
  | silent hf hv => rw [hv]
  | acquire hf σ hσ hl hs hv | release hf σ hσ hl hv =>
    have hne := (hσ.ne_freeCounter q).symm
    rw [hv]
    simp only [Shared.down_sem, Shared.up_sem, Function.update_of_ne hne]
    rfl
  | init hf hpc hpc' | consume hf hpc hpc' | «begin» hf hpc hpc' | pop hf k t qu hlen hqu hpc hpc'
  | popEmpty hf k hlen hpc hpc' | serveStart hf k t m hpc hpc' | count hf k t n m hpc hpc'
  | reply hf k t hpc hpc' | pauseCount hf k hpc hpc' | pauseStats hf k hpc hpc'
  | raiseStop hf k hpc hpc' | finish hf hpc hpc' =>
    rw [hview, hview, hpc, hpc']
    rfl
  | dropToken hf hi p hv | dropSeat hf hi p hv | dropJob hf hi p hv =>
    exact absurd hi (hm (by rw [hv]; rfl))
  | pass hf i hi hv hv' =>
    rw [hv, hv']
    rfl
  | sit hf i hi hv hv' | stand hf i hv hv' | takeJob hf hσ i hv hv' =>
    rw [hv, hv']
    simp [OpView.holdsToken, OpView.scanning, OpView.seated]
  | takeToken hf hσ hv hv' =>
    rw [hv, hv']
    by_cases hq : c.workerService w = q
    · subst hq
      simp [OpView.holdsToken, OpView.scanning, OpView.running, OpView.starting, OpView.idle]
      omega
    · simp [hq, Ne.symm hq]
  | giveToken hf p hv hv' =>
    rw [hv, hv']
    by_cases hq : c.workerService w = q
    · subst hq
      simp [OpView.holdsToken, OpView.scanning, OpView.running, OpView.starting, OpView.idle]
    · simp [hq, Ne.symm hq]

/-- Uninterrupted, an operator leaves its counter only by clearing it. -/
theorem Move.keeps (h : Move w l g l' g') (hm : (view w l).inRun = true → l.mode ≠ .eintr)
    {i : Fin c.nofWorkerSeats} (hi : (g'.counters i).workerPid ≠ -1) :
    (view w l').seat = some i ∧ (g'.counters i).workerPid = c.pid (.operator w) ∨
      g'.counters i = g.counters i ∧
        ((view w l).seat = some i → (view w l').seat = some i) := by
  have hview (x : Operator c) : view w x = x.pc.view (c.workerService w) := rfl
  cases h with
  | silent hf hv => exact .inr ⟨rfl, fun h => hv ▸ h⟩
  | acquire hf σ hσ hl hs hv | release hf σ hσ hl hv =>
    exact .inr ⟨rfl, fun h => by rw [hv]; exact h⟩
  | init hf hpc hpc' | consume hf hpc hpc' | «begin» hf hpc hpc' | pop hf k t qu hlen hqu hpc hpc'
  | popEmpty hf k hlen hpc hpc' | serveStart hf k t m hpc hpc' | count hf k t n m hpc hpc'
  | reply hf k t hpc hpc' | pauseCount hf k hpc hpc' | pauseStats hf k hpc hpc'
  | raiseStop hf k hpc hpc' | finish hf hpc hpc' =>
    rw [hview, hview, hpc, hpc']
    exact .inr ⟨rfl, id⟩
  | dropToken hf h p hv | dropSeat hf h p hv | dropJob hf h p hv =>
    exact absurd h (hm (by rw [hv]; rfl))
  | takeToken hf hσ hv hv' | giveToken hf p hv hv' | pass hf j hj hv hv'
  | takeJob hf hσ k hv hv' =>
    rw [hv, hv']
    exact .inr ⟨rfl, id⟩
  | sit hf j hj hv hv' =>
    by_cases hij : i = j
    · subst hij
      exact .inl ⟨by rw [hv']; rfl, by simp⟩
    · exact .inr ⟨Function.update_of_ne hij _ _, fun h => by rw [hv] at h; cases h⟩
  | stand hf k hv hv' =>
    have hij : i ≠ k := by
      rintro rfl
      exact hi (by simp)
    refine .inr ⟨Function.update_of_ne hij _ _, fun h => ?_⟩
    rw [hv] at h
    exact absurd (Option.some.inj h).symm hij

end Operator

/-- A day becomes active only by `activate`, and while it is active the director leaves counters and
    tokens alone. -/
theorem Director.Move.activeDay {pc pc' : DirPc c.nofWorkerSeats c.nofWorkers c.nofUsers}
    {v v' : DirVars} {g g' : Shared c} (h : Director.Move pc v g pc' v' g')
    (ha : pc'.active = true) : (pc = .activate ∨ pc.active = true) ∧ g'.counters = g.counters ∧
      ∀ q, g'.sem (.freeCounter q) = g.sem (.freeCounter q) := by
  cases h
  all_goals first
    | exact absurd ha Bool.false_ne_true
    | exact ⟨.inl rfl, rfl, fun _ => rfl⟩
    | exact ⟨.inr rfl, rfl, fun _ => rfl⟩
    | exact ⟨.inr ha, rfl, fun _ => rfl⟩

/-! ### The invariant -/

namespace State

/-- The operators of service `q` that hold a token. -/
def tokenHolders (s : State c) (q : Service) : ℕ :=
  Family.total (fun w v => ind (c.workerService w = q ∧ v.holdsToken)) s.view

/-- The operators of service `q` between a successful pop and the end of `serve_ticket`. -/
def servers (s : State c) (q : Service) : ℕ :=
  Family.total (fun w v => ind (c.workerService w = q ∧ v.hand.isSome = true)) s.view

/-- What a calm day keeps. -/
structure Ownership (s : State c) : Prop where
  calm : s.g.dayActive = true → ∀ w, (s.view w).inRun = true → (s.operators w).mode ≠ .eintr
  owners : s.g.dayActive = true → ∀ i, (s.g.counters i).workerPid ≠ -1 →
    ∃ w, (s.g.counters i).workerPid = c.pid (.operator w) ∧ (s.view w).seat = some i
  balance : s.g.dayActive = true → ∀ q,
    s.g.sem (.freeCounter q) + s.tokenHolders q = s.g.offering q c.nofWorkerSeats

/-- Before the day opens nobody holds a token or sits at a counter. -/
theorem Barrier.nobody_seated {s : State c} (hB : s.Barrier) {w : Fin c.nofWorkers}
    (h : s.director.pc.preStart w = true) : ¬ (s.view w).holdsToken := by
  have hrun : (s.view w).inRun = false := hB.not_inRun (by simp [DirPc.live, h])
  obtain ⟨i, b, hidle⟩ := OpPc.view_of_not_inRun hrun
  rw [view, Operator.view, hidle]
  simp [OpView.holdsToken, OpView.idle]

namespace Ownership

variable {s s' : State c}

theorem director (hB : s.Barrier) (hC : s.Closing) (hS : s.Seating) (hI : s.Ownership)
    {l' : Director c} {g' : Shared c}
    (hm : Director.Move s.director.pc s.director.vars s.g l'.pc l'.vars g') :
    (s.setDirector (l', g')).Ownership := by
  have hact (h : g'.dayActive = true) := hm.activeDay ((hm.active hC.active).symm.trans h)
  have hpre (h : s.director.pc = .activate) (w : Fin c.nofWorkers) :
      s.director.pc.preStart w = true := by rw [h]; rfl
  refine ⟨?_, ?_, ?_⟩
  · intro h w hrun
    obtain ⟨hpc | hpc, -, -⟩ := hact h
    · have := hB.not_inRun (w := w) (by simp [DirPc.live, hpre hpc w])
      exact absurd (this.symm.trans hrun) Bool.false_ne_true
    · exact hI.calm (hC.active.trans hpc) w hrun
  · intro h i hi
    obtain ⟨hpc | hpc, hcounters, -⟩ := hact h
    · rw [setDirector_g, hcounters] at hi
      exact absurd ((hS.written _ (by rw [hpc]; rfl)).2 i i.isLt) hi
    · rw [setDirector_g, hcounters] at hi ⊢
      exact hI.owners (hC.active.trans hpc) i hi
  · intro h q
    obtain ⟨hpc, hcounters, hsem⟩ := hact h
    have hoff : g'.offering q c.nofWorkerSeats = s.g.offering q c.nofWorkerSeats := by
      unfold Shared.offering
      rw [hcounters]
    show g'.sem _ + s.tokenHolders q = g'.offering q c.nofWorkerSeats
    rw [hsem, hoff]
    rcases hpc with hpc | hpc
    · have hnone : s.tokenHolders q = 0 := Family.total_eq_zero fun w =>
        ind_of_not fun h => hB.nobody_seated (hpre hpc w) h.2
      rw [hnone, hS.allotted _ q (by rw [hpc]; rfl) (by rw [hpc]; rfl)]
      exact (hS.written _ (by rw [hpc]; rfl)).1 q
    · exact hI.balance (hC.active.trans hpc) q

theorem operator (hI : s.Ownership) {w : Fin c.nofWorkers} {n : ℕ}
    {l' : Operator c} {g' : Shared c}
    (hstep : Operator.step w (s.operators w) s.g n = some (l', g'))
    (hm : Operator.Move w (s.operators w) s.g l' g') : (s.setOperator w (l', g')).Ownership := by
  have hday : g'.dayActive = s.g.dayActive := by rw [hm.frame]
  have hcalm (h : g'.dayActive = true) := hI.calm (hday.symm.trans h) w
  refine ⟨?_, ?_, ?_⟩
  · intro h v hrun
    rw [setOperator_operators, Function.update_apply]
    rw [view_setOperator, Function.update_apply] at hrun
    split
    · exact Operator.step_mode hstep
    · rw [if_neg ‹_›] at hrun
      exact hI.calm (hday.symm.trans h) v hrun
  · intro h i hi
    rw [view_setOperator]
    rcases hm.keeps (hcalm h) hi with ⟨hseat, hpid⟩ | ⟨hsame, hseat⟩
    · exact ⟨w, hpid, by rw [Function.update_self]; exact hseat⟩
    · obtain ⟨v, hpid, hv⟩ := hI.owners (hday.symm.trans h) i (by rw [← hsame]; exact hi)
      refine ⟨v, (congrArg _ hsame).trans hpid, ?_⟩
      rw [Function.update_apply]
      split
      · subst_vars
        exact hseat hv
      · exact hv
  · intro h q
    have hbal := hm.balance (hcalm h) q
    have htotal := s.total_view_setOperator
      (fun w v => ind (c.workerService w = q ∧ v.holdsToken)) w (l', g')
    dsimp only at htotal
    have hold := hI.balance (hday.symm.trans h) q
    rw [view_eq] at hbal
    show g'.sem _ + _ = g'.offering q c.nofWorkerSeats
    rw [hm.offering, tokenHolders]
    unfold tokenHolders at hold
    omega

theorem step (hB : s.Barrier) (hT : s.Termination)
    (hint : ∀ p, p ≠ .director → s.g.pending p .int = false) (hC : s.Closing) (hS : s.Seating)
    (hI : s.Ownership) (h : State.MoveBy (CalmDay s) s s') : s'.Ownership := by
  cases h with
  | director hm => exact hI.director hB hC hS hm
  | dispenser hm hf =>
    have hfree := hm.freeCounter
    rw [hm.frame]
    refine ⟨hI.calm, hI.owners, fun h q => ?_⟩
    rw [setDispenser_g, hfree q]
    exact hI.balance h q
  | operator w hstep hm => exact hI.operator hstep hm
  | user u hm hf =>
    rw [hm.frame]
    exact ⟨hI.calm, hI.owners, hI.balance⟩
  | deliver p sigs hp hne hd =>
    refine ⟨?_, ?_, ?_⟩
    · intro h w hrun
      rw [deliverTo_g] at h
      rw [deliverTo_view] at hrun
      rw [deliverTo_operators]
      split
      · obtain ⟨sig, hsig⟩ := List.exists_mem_of_ne_nil sigs hne
        subst_vars
        obtain rfl := hB.only_usr2 hT hint hrun (hp sig hsig)
        exact absurd ((hd w rfl hsig h).symm.trans hrun) Bool.false_ne_true
      · exact hI.calm h w hrun
    · simpa using hI.owners
    · simpa [tokenHolders] using hI.balance
  | interrupt sig hsig => exact ⟨hI.calm, hI.owners, hI.balance⟩
  | tick ns => exact ⟨hI.calm, hI.owners, hI.balance⟩

theorem init : (State.init c).Ownership := ⟨nofun, nofun, nofun⟩

end Ownership

end State

theorem ownership {s : State c} (h : ReachableBy (Delivers CalmDay) s) : s.Ownership :=
  h.invariant .init fun _ _ hr hI hm =>
    hI.step (barrier hr) (termination hr) (no_sigint hr) (closing hr) (seating hr) hm

/-- CORRECT: counter ownership and token accounting in an active day. A counter with a worker on it
    is held by one operator, which has its process id, its `current_counter` and its service there,
    and no two counters have the same worker; the free tokens of a service and the operators that
    hold one are together as many as its counters; so no more operators of a service are serving
    than there are counters for it, and who pops sits at a counter of the service. -/
theorem counter_ownership {s : State c} (h : ReachableBy (Delivers CalmDay) s)
    (hday : s.g.dayActive = true) :
    (∀ i, (s.g.counters i).workerPid ≠ -1 → ∃ w, (s.view w).seat = some i ∧
      (s.g.counters i).workerPid = c.pid (.operator w) ∧
      (s.g.workers w).currentCounter = some i ∧
      (s.g.counters i).service = some (c.workerService w) ∧
      ∀ v, (s.view v).seat = some i → v = w) ∧
    (∀ i j, (s.g.counters i).workerPid ≠ -1 →
      (s.g.counters i).workerPid = (s.g.counters j).workerPid → i = j) ∧
    (∀ q, s.g.sem (.freeCounter q) + s.tokenHolders q = s.g.offering q c.nofWorkerSeats) ∧
    (∀ q, s.servers q ≤ s.g.offering q c.nofWorkerSeats) ∧
    ∀ w k, (s.operators w).pc = .popTake k → s.g.counters k =
      { service := some (c.workerService w), workerPid := c.pid (.operator w) } := by
  have hO := ownership h
  have hS := seating h.reach
  have hpid {v w : Fin c.nofWorkers} (he : c.pid (.operator v) = c.pid (.operator w)) : v = w := by
    simpa using c.pid_injective he
  refine ⟨?_, ?_, hO.balance hday, ?_, ?_⟩
  · intro i hi
    obtain ⟨w, hw, hseat⟩ := hO.owners hday i hi
    obtain ⟨hcounter, hcurrent⟩ := hS.seated w i hseat
    refine ⟨w, hseat, hw, hcurrent, by rw [hcounter], fun v hv => hpid ?_⟩
    rw [← hw, (hS.seated v i hv).1]
  · intro i j hi hij
    obtain ⟨v, hv, hi⟩ := hO.owners hday i hi
    obtain ⟨w, hw, hj⟩ := hO.owners hday j (hij ▸ ‹_›)
    obtain rfl : v = w := hpid (hv.symm.trans (hij.trans hw))
    exact Option.some.inj (hi.symm.trans hj)
  · intro q
    have hle : s.servers q ≤ s.tokenHolders q :=
      Family.total_le_total fun w => ind_mono fun h => ⟨h.1, .inr (OpPc.seat_of_hand h.2)⟩
    have hbal := hO.balance hday q
    omega
  · intro w k hpc
    refine (hS.seated w k ?_).1
    rw [State.view, Operator.view, hpc]
    rfl

/-- In the small office the operator is serving at its counter. -/
theorem counter_ownership_small : ∃ s : State smallOffice,
    exec step SmallOffice.serving (State.init smallOffice) = some s ∧ s.servers 0 = 1 ∧
    s.g.sem (.freeCounter 0) + s.tokenHolders 0 = s.g.offering 0 1 ∧
    s.servers 0 ≤ s.g.offering 0 1 := by
  have hrun : ((exec step SmallOffice.serving (State.init smallOffice)).any fun s =>
      decide (s.g.dayActive = true ∧ s.servers 0 = 1)) = true := by decide +kernel
  obtain ⟨s, hs, h⟩ := (Option.any_eq_true _ _).mp hrun
  obtain ⟨hday, hserving⟩ := of_decide_eq_true h
  have hok : Allowed step (Delivers CalmDay) SmallOffice.serving (State.init smallOffice) :=
    allowed_of_quiet (fun _ _ _ h _ _ hmem => absurd hmem h) (by decide +kernel) _
  obtain ⟨-, -, hbalance, hservers, -⟩ := counter_ownership (ReachBy.of_exec _ .refl hs hok) hday
  exact ⟨s, hs, hserving, hbalance 0, hservers 0⟩

end PostOffice
