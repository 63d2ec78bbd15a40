import PostOffice.History
import PostOffice.Tickets
import PostOffice.Leaving

/-! One run of an operator through `run_day`. The operator enters it, pops tickets, counts and
    answers each of them, and leaves with `DAY_FINISHED`:

        runDay ─▶ popped ─▶ served ─▶ replied ─▶ … ─▶ dayFinished
                    └── in hand ──────────┘

    The one thing that can stop it half-way is `lock_stats`, which takes an interruption for a
    failure and exits: a `SIGUSR2` that finds the operator asleep there ends the process, with the
    ticket still in its hands. -/

namespace PostOffice

open Transition

namespace Event

variable {workers users : ℕ} (w : Fin workers)

/-- The operator enters `run_day`. -/
def isRunDay : Event workers users → Bool
  | .runDay (.operator v) _ => v = w
  | _ => false

/-- The ticket of a successful pop by the operator. -/
def poppedBy : Event workers users → Option QueueTicket
  | .popped v _ t => if v = w then some t else none
  | _ => none

/-- The ticket the operator counts as served. -/
def servedBy : Event workers users → Option QueueTicket
  | .served v _ t _ => if v = w then some t else none
  | _ => none

/-- The user the operator answers with `USER_REPLY_SERVED`. -/
def answeredBy : Event workers users → Option ℤ
  | .replied (.operator v) userPid .served _ => if v = w then some userPid else none
  | _ => none

variable {w} {e : Event workers users} {p : Proc workers users}

theorem isRunDay_eq_false (hp : p ≠ .operator w) (he : e.actor = p) : e.isRunDay w = false := by
  cases e with
  | runDay q day =>
    obtain rfl : q = p := he
    cases q <;> first | rfl | exact decide_eq_false fun h => hp (h ▸ rfl)
  | _ => rfl

theorem poppedBy_eq_none (hp : p ≠ .operator w) (he : e.actor = p) : e.poppedBy w = none := by
  cases e with
  | popped v q t => exact if_neg fun h : v = w => hp (he ▸ h ▸ rfl)
  | _ => rfl

theorem servedBy_eq_none (hp : p ≠ .operator w) (he : e.actor = p) : e.servedBy w = none := by
  cases e with
  | served v q t ns => exact if_neg fun h : v = w => hp (he ▸ h ▸ rfl)
  | _ => rfl

theorem answeredBy_eq_none (hp : p ≠ .operator w) (he : e.actor = p) :
    e.answeredBy w = none := by
  cases e with
  | replied q userPid status s =>
    obtain rfl : q = p := he
    cases q with
    | operator v =>
      have hv : v ≠ w := fun h => hp (h ▸ rfl)
      cases status <;> simp [answeredBy, hv]
    | director | dispenser | user => rfl
  | _ => rfl

end Event

variable {c : Setup}

namespace Shared

variable (g : Shared c) (w : Fin c.nofWorkers)

/-- How often the operator has entered `run_day`. -/
def runs : ℕ := g.hist.countP (Event.isRunDay w)

/-- What has happened since the operator last entered `run_day`. -/
def thisRun : List c.Event := Segments.current (Event.isRunDay w) g.hist

/-- What happened before, cut at each entry. -/
def pastRuns : List (List c.Event) := Segments.closed (Event.isRunDay w) g.hist

variable {g w}

theorem thisRun_log {e : c.Event} (h : e.isRunDay w = false) :
    (g.log e).thisRun w = g.thisRun w ++ [e] :=
  Segments.current_append h

theorem thisRun_runDay {day : ℕ} : (g.log (.runDay (.operator w) day)).thisRun w = [] :=
  Segments.current_append_mark (decide_eq_true rfl)

end Shared

/-! ### The tickets of a run -/

/-- Every ticket of the run has been counted as served once and its user has been answered once,
    in the order of the pops. -/
structure Settled (w : Fin c.nofWorkers) (run : List c.Event) : Prop where
  served : run.filterMap (Event.servedBy w) = run.filterMap (Event.poppedBy w)
  answered : run.filterMap (Event.answeredBy w) =
    (run.filterMap (Event.poppedBy w)).map (·.userPid)

/-- The same, but for the ticket the operator has in its hands. -/
structure Account (w : Fin c.nofWorkers) (run : List c.Event) (v : OpView c.nofWorkerSeats) :
    Prop where
  served : run.filterMap (Event.poppedBy w) =
    run.filterMap (Event.servedBy w) ++ (if v.counted then none else v.hand).toList
  answered : (run.filterMap (Event.poppedBy w)).map (·.userPid) =
    run.filterMap (Event.answeredBy w) ++ (v.hand.map (·.userPid)).toList

namespace Account

variable {w : Fin c.nofWorkers} {run : List c.Event} {v v' : OpView c.nofWorkerSeats}

theorem settled (h : Account w run v) (hv : v.hand = none) : Settled w run :=
  ⟨by simpa [hv] using h.served.symm, by simpa [hv] using h.answered.symm⟩

theorem congr (h : Account w run v) (hh : v'.hand = v.hand) (hc : v'.counted = v.counted) :
    Account w run v' :=
  ⟨by rw [hh, hc]; exact h.served, by rw [hh]; exact h.answered⟩

theorem nil (hv : v.hand = none) : Account w ([] : List c.Event) v := ⟨by simp [hv], by simp [hv]⟩

/-- An event that is no pop, no count and no answer of the operator. -/
theorem other (h : Account w run v) {e : c.Event} (hp : e.poppedBy w = none)
    (hs : e.servedBy w = none) (ha : e.answeredBy w = none) : Account w (run ++ [e]) v :=
  ⟨by simpa [hp, hs] using h.served, by simpa [hp, ha] using h.answered⟩

variable {t : QueueTicket} {q : Service}

theorem pop (h : Account w run v) (hv : v.hand = none) (hv' : v'.hand = some t)
    (hc' : v'.counted = false) : Account w (run ++ [.popped w q t]) v' := by
  obtain ⟨hserved, hanswered⟩ := h
  constructor <;> simp_all [List.filterMap_cons, Event.poppedBy, Event.servedBy, Event.answeredBy]

theorem count {waitingNs : ℤ} (h : Account w run v) (hv : v.hand = some t)
    (hc : v.counted = false) (hv' : v'.hand = some t) (hc' : v'.counted = true) :
    Account w (run ++ [.served w q t waitingNs]) v' := by
  obtain ⟨hserved, hanswered⟩ := h
  constructor <;> simp_all [List.filterMap_cons, Event.poppedBy, Event.servedBy, Event.answeredBy]

theorem reply (h : Account w run v) (hv : v.hand = some t) (hc : v.counted = true)
    (hv' : v'.hand = none) :
    Account w (run ++ [.replied (.operator w) t.userPid .served q]) v' := by
  obtain ⟨hserved, hanswered⟩ := h
  constructor <;> simp_all [List.filterMap_cons, Event.poppedBy, Event.servedBy, Event.answeredBy]

end Account

namespace Operator

variable {w : Fin c.nofWorkers} {l l' : Operator c} {g g' : Shared c}

/-- Popping takes a ticket into the hands, and answering takes it out. -/
theorem Move.tickets (h : Move w l g l' g')
    (hpos : ∀ t ∈ (g.queues (c.workerService w)).toList, 0 < t.userPid)
    (hI : Account w (g.thisRun w) (view w l)) : Account w (g'.thisRun w) (view w l') := by
  have hview (x : Operator c) : view w x = x.pc.view (c.workerService w) := rfl
  cases h with
  | silent hf hv => exact hv ▸ hI
  | acquire hf σ hσ hl hs hv | release hf σ hσ hl hv => exact hI.congr (by rw [hv]) (by rw [hv])
  | «begin» hf hpc hpc' =>
    rw [Shared.thisRun_runDay, hview, hpc']
    exact .nil rfl
  | init hf hpc hpc' | finish hf hpc hpc' | popEmpty hf k hlen hpc hpc' =>
    rw [Shared.thisRun_log (by rfl), hview, hpc']
    rw [hview, hpc] at hI
    exact (hI.congr (by rfl) (by rfl)).other (by rfl) (by rfl) (by rfl)
  | pop hf k t q hlen hq hpc hpc' =>
    have ht : 0 < t.userPid := hpos t (hq ▸ List.mem_cons_self)
    rw [Shared.thisRun_log (by rfl)]
    exact hI.pop (by rw [hview, hpc]; rfl) (by rw [hview, hpc']; exact if_pos ht)
      (by rw [hview, hpc']; rfl)
  | count hf k t waitingNs minutes hpc hpc' =>
    rw [Shared.thisRun_log (by rfl)]
    exact hI.count (by rw [hview, hpc]; rfl) (by rw [hview, hpc]; rfl)
      (by rw [hview, hpc']; rfl) (by rw [hview, hpc']; rfl)
  | reply hf k t hpc hpc' hroom =>
    rw [Shared.thisRun_log (by rfl)]
    exact hI.reply (by rw [hview, hpc]; rfl) (by rw [hview, hpc]; rfl)
      (by rw [hview, hpc']; rfl)
  | consume hf hpc hpc' | serveStart hf k t m hpc hpc' | pauseCount hf k hpc hpc'
  | pauseStats hf k hpc hpc' | raiseStop hf k hpc hpc' =>
    rw [hview, hpc']
    rw [hview, hpc] at hI
    exact hI.congr (by rfl) (by rfl)
  | takeToken hf hσ hv hv' | giveToken hf p hv hv' | dropToken hf hi p hv hv'
  | pass hf i hi hv hv' | sit hf i hi hv hv' | stand hf k hv hv' | dropSeat hf hi k hv hv'
  | takeJob hf hσ k hv hv' | dropJob hf hi k hv hv' =>
    exact hI.congr (by simp [hv, hv', OpView.scanning, OpView.seated])
      (by simp [hv, hv', OpView.scanning, OpView.seated])

/-- `run_day` is left by `DAY_FINISHED`. -/
theorem Move.runs (h : Move w l g l' g') :
    g'.runs w + g.finished w + ind ((view w l).inRun = true) =
      g.runs w + g'.finished w + ind ((view w l').inRun = true) := by
  have hview (x : Operator c) : view w x = x.pc.view (c.workerService w) := rfl
  unfold Shared.runs Shared.finished
  cases h with
  | silent hf hv => rw [hv]
  | acquire hf σ hm hl hσ hv | release hf σ hm hl hv => simp [hv]
  | init hf hpc hpc' | consume hf hpc hpc' | «begin» hf hpc hpc' | pop hf k t q hlen hq hpc hpc'
  | popEmpty hf k hlen hpc hpc' | serveStart hf k t m hpc hpc' | count hf k t n m hpc hpc'
  | reply hf k t hpc hpc' | pauseCount hf k hpc hpc' | pauseStats hf k hpc hpc'
  | raiseStop hf k hpc hpc' | finish hf hpc hpc' =>
    simp [hview, hpc, hpc', OpPc.view, OpView.idle, OpView.starting, OpView.running,
      OpView.seated, Event.isDayFinished, Event.isRunDay]
    try omega
  | takeToken hf hσ hv hv' | giveToken hf p hv hv' | dropToken hf hi p hv hv'
  | pass hf i hi hv hv' | sit hf i hi hv hv' | stand hf k hv hv' | dropSeat hf hi k hv hv'
  | takeJob hf hσ k hv hv' | dropJob hf hi k hv hv' =>
    simp [hv, hv', OpView.scanning, OpView.seated]

/-- An operator enters `run_day` with the tickets of its last run settled. -/
theorem Move.pastRuns (h : Move w l g l' g') (hI : Account w (g.thisRun w) (view w l))
    (hpast : ∀ run ∈ g.pastRuns w, Settled w run) : ∀ run ∈ g'.pastRuns w, Settled w run := by
  have hlog {g₁ : Shared c} {e : c.Event} (hg : g₁.hist = g.hist)
      (he : e.isRunDay w = true → Settled w (g.thisRun w)) :
      ∀ run ∈ (g₁.log e).pastRuns w, Settled w run := by
    simp only [Shared.pastRuns, Shared.log_hist, hg]
    exact Segments.forall_closed_append hpast he
  cases h with
  | «begin» hf hpc hpc' => exact hlog rfl fun _ => hI.settled (by rw [view, hpc]; rfl)
  | init | pop | popEmpty | count | reply | finish => exact hlog rfl fun he => Bool.noConfusion he
  | _ => exact hpast

/-! ### The way out -/

end Operator

/-- At the `semop` of `lock_stats`. -/
def OpPc.lockingStats {seats : ℕ} : OpPc seats → Bool
  | .serveLock _ _ _ _ | .pauseLock _ => true
  | _ => false

namespace Operator

variable {w : Fin c.nofWorkers} {l l' : Operator c} {g g' : Shared c}

theorem semOpInterruptible_exited {σ : Sem c.nofWorkerSeats} {next : OpPc c.nofWorkerSeats}
    {onInterrupt : Operator c} (h : semOpInterruptible l g σ next onInterrupt = some (l', g'))
    (hx : l'.exited = true) : l' = onInterrupt ∧ l.mode = .eintr := by
  unfold semOpInterruptible Task.semWait at h
  repeat' split at h
  all_goals cases h
  all_goals simp_all [Task.exited]

theorem msgSendRetry_exited {m : Message} {e : c.Event} {next : OpPc c.nofWorkerSeats}
    (h : msgSendRetry l g m e next = some (l', g')) : l'.exited = false := by
  unfold msgSendRetry Task.msgSend at h
  repeat' split at h
  all_goals cases h
  all_goals simp [Task.exited]

/-- An operator exits out of an interrupted `lock_stats`, or when it is told to terminate. -/
theorem step_exit {n : ℕ} (h : step w l g n = some (l', g')) (hx : l'.exited = true) :
    (l.pc.lockingStats = true ∧ l.mode = .eintr ∧ l'.pc = l.pc) ∨
      (l'.pc = .done ∧ l'.vars.terminateRequested = true) := by
  unfold step at h
  split at h
  · cases h
  unfold body at h
  cases hpc : l.pc <;> rw [hpc] at h <;> simp only at h
  case claimToken | scanLock | waitTicket | popLock | releaseLock =>
    obtain ⟨rfl, -⟩ := semOpInterruptible_exited h hx
    exact Bool.noConfusion hx
  case serveLock | pauseLock =>
    obtain ⟨rfl, hmode⟩ := semOpInterruptible_exited h hx
    exact .inl ⟨rfl, hmode, hpc⟩
  case sendInit | serveReply | dayFinished =>
    exact absurd ((msgSendRetry_exited h).symm.trans hx) Bool.false_ne_true
  case mainTest | mainBreak =>
    split at h <;> cases h
    · exact .inr ⟨rfl, ‹_›⟩
    · exact Bool.noConfusion hx
  case serveSleep =>
    unfold Task.nanosleep at h
    repeat' split at h
    all_goals cases h; exact Bool.noConfusion hx
  case done => cases h
  all_goals first
    | cases h; exact Bool.noConfusion hx
    | (repeat' split at h) <;> cases h <;> exact Bool.noConfusion hx

/-- Inside `run_day` an operator exits only out of an interrupted `lock_stats`. -/
theorem step_exited {n : ℕ} (h : step w l g n = some (l', g')) (hx : l'.exited = true)
    (hrun : (view w l').inRun = true) : l.pc.lockingStats = true ∧ l.mode = .eintr := by
  rcases step_exit h hx with ⟨hlock, hmode, -⟩ | ⟨hdone, -⟩
  · exact ⟨hlock, hmode⟩
  · rw [view, hdone] at hrun
    exact Bool.noConfusion hrun

/-- A `SIGUSR2` that finds the operator asleep in `lock_stats` ends the process. -/
theorem exit_of_lockingStats (hpc : l.pc.lockingStats = true)
    (hm : l.mode = .asleep) {sigs : List Signal} (hs : .usr2 ∈ sigs) (n : ℕ) :
    step w (l.deliver handleOperatorSignal sigs) g n =
      some ((l.deliver handleOperatorSignal sigs).exit 1, g) := by
  obtain ⟨pc, mode, vars⟩ := l
  dsimp only at hm hpc
  subst hm
  cases pc <;> first
    | exact Bool.noConfusion hpc
    | simp [step, body, lockStats, semOpInterruptible, interrupted, Task.deliver, Task.exited,
        foldl_handleOperatorSignal, hs]

end Operator

/-! ### The invariant -/

namespace State

/-- The books of the operators' runs. -/
structure Runs (s : State c) : Prop where
  once : ∀ w, s.g.runs w = s.g.finished w + ind ((s.view w).inRun = true)
  account : ∀ w, Account w (s.g.thisRun w) (s.view w)
  past : ∀ w, ∀ run ∈ s.g.pastRuns w, Settled w run

namespace Runs

variable {s s' : State c}

/-- The books of an operator are kept by itself. -/
theorem frame (hI : s.Runs) {p : c.Proc} (hlogs : Logs p s.g s'.g) {w : Fin c.nofWorkers}
    (hp : p ≠ .operator w) (hview : s'.view w = s.view w) :
    s'.g.runs w = s'.g.finished w + ind ((s'.view w).inRun = true) ∧
      Account w (s'.g.thisRun w) (s'.view w) ∧ ∀ run ∈ s'.g.pastRuns w, Settled w run := by
  have hmark (e : c.Event) (he : e.actor = p) : e.isRunDay w = false :=
    Event.isRunDay_eq_false hp he
  have hread {β : Type} (f : c.Event → Option β) (hf : ∀ e, e.actor = p → f e = none) :
      (s'.g.thisRun w).filterMap f = (s.g.thisRun w).filterMap f :=
    hlogs.current_filterMap_eq hmark hf
  rw [hview]
  refine ⟨?_, ⟨?_, ?_⟩, ?_⟩
  · rw [Shared.runs, hlogs.countP_eq hmark, hlogs.finished_eq hp]
    exact hI.once w
  · rw [hread _ fun e => Event.poppedBy_eq_none hp, hread _ fun e => Event.servedBy_eq_none hp]
    exact (hI.account w).served
  · rw [hread _ fun e => Event.poppedBy_eq_none hp, hread _ fun e => Event.answeredBy_eq_none hp]
    exact (hI.account w).answered
  · rw [Shared.pastRuns, hlogs.closed_eq hmark]
    exact hI.past w

theorem of_frame (h : ∀ w, s'.g.runs w = s'.g.finished w + ind ((s'.view w).inRun = true) ∧
      Account w (s'.g.thisRun w) (s'.view w) ∧ ∀ run ∈ s'.g.pastRuns w, Settled w run) : s'.Runs :=
  ⟨fun w => (h w).1, fun w => (h w).2.1, fun w => (h w).2.2⟩

theorem step (hG : s.Genuine) (hI : s.Runs) (h : s.Move s') : s'.Runs := by
  cases h with
  | director hm => exact of_frame fun w => hI.frame hm.logs (by simp) rfl
  | dispenser hm hf => exact of_frame fun w => hI.frame hm.logs (by simp) rfl
  | user u hm hf => exact of_frame fun w => hI.frame hm.logs (by simp) rfl
  | @operator n l' g' v hstep hm =>
    refine of_frame ?_
    intro w
    by_cases hw : w = v
    · subst hw
      have hruns := hm.runs
      have hold := hI.once w
      have hself : (s.setOperator w (l', g')).view w = Operator.view w l' := by
        rw [view_setOperator, Function.update_self]
      rw [hself]
      refine ⟨?_, hm.tickets (fun t ht => (hG.queued _ t ht).pos) (hI.account w),
        hm.pastRuns (hI.account w) (hI.past w)⟩
      rw [view_eq] at hruns
      show g'.runs w = g'.finished w + _
      omega
    · refine hI.frame hm.logs (fun h => hw (Proc.operator.inj h).symm) ?_
      rw [view_setOperator, Function.update_of_ne hw]
  | deliver p sigs hp =>
    refine ⟨?_, ?_, ?_⟩ <;> simp only [deliverTo_view, deliverTo_g]
    · exact hI.once
    · exact hI.account
    · exact hI.past
  | interrupt sig hsig => exact ⟨hI.once, hI.account, hI.past⟩
  | tick ns => exact ⟨hI.once, hI.account, hI.past⟩

theorem init : (State.init c).Runs :=
  ⟨fun _ => rfl, fun _ => .nil rfl, fun _ => nofun⟩

end Runs

end State

theorem runs {s : State c} (h : Reachable s) : s.Runs :=
  h.invariant .init fun _ _ hr hI hm => hI.step (genuine hr) hm

/-- No `SIGUSR2` is delivered to an operator asleep in `lock_stats`. -/
def StatsUndisturbed (s : State c) (p : c.Proc) (sigs : List Signal) : Prop :=
  ∀ w, p = .operator w → .usr2 ∈ sigs → (s.operators w).mode = .asleep →
    (s.operators w).pc.lockingStats = false

instance (s : State c) (p : c.Proc) (sigs : List Signal) :
    Decidable (StatsUndisturbed s p sigs) := by
  unfold StatsUndisturbed
  infer_instance

theorem OpPc.inRun_of_lockingStats {seats : ℕ} {service : Service} {pc : OpPc seats}
    (h : pc.lockingStats = true) : (pc.view service).inRun = true := by
  cases pc <;> first | rfl | exact Bool.noConfusion h

namespace State

/-- Nobody has been interrupted in `lock_stats`, and nobody inside `run_day` has exited. -/
structure Undisturbed (s : State c) : Prop where
  locking : ∀ w, (s.operators w).pc.lockingStats = true → (s.operators w).mode ≠ .eintr
  alive : ∀ w, (s.view w).inRun = true → (s.operators w).exited = false

namespace Undisturbed

variable {s s' : State c}

theorem step (hB : s.Barrier) (hT : s.Termination)
    (hint : ∀ p, p ≠ .director → s.g.pending p .int = false) (hI : s.Undisturbed)
    (h : State.MoveBy (StatsUndisturbed s) s s') : s'.Undisturbed := by
  cases h with
  | director | dispenser | user | interrupt | tick => exact ⟨hI.locking, hI.alive⟩
  | @operator n l' g' w hstep hm =>
    refine ⟨?_, ?_⟩
    · intro v hv
      rw [setOperator_operators, Function.update_apply] at hv ⊢
      split at hv
      · rw [if_pos ‹_›]
        exact Operator.step_mode hstep
      · rw [if_neg ‹_›]
        exact hI.locking v hv
    · intro v hv
      rw [view_setOperator, Function.update_apply] at hv
      rw [setOperator_operators, Function.update_apply]
      split at hv
      · rw [if_pos ‹_›]
        by_contra hx
        rw [Bool.not_eq_false] at hx
        obtain ⟨hpc, hmode⟩ := Operator.step_exited hstep hx hv
        exact hI.locking w hpc hmode
      · rw [if_neg ‹_›]
        exact hI.alive v hv
  | deliver p sigs hp hne hd =>
    refine ⟨?_, ?_⟩
    · intro w hpc
      rw [deliverTo_operators_pc] at hpc
      rw [deliverTo_operators]
      split
      · subst_vars
        -- Whatever is delivered inside `run_day` is a `SIGUSR2`, so the operator is not asleep.
        obtain ⟨sig, hsig⟩ := List.exists_mem_of_ne_nil sigs hne
        obtain rfl := hB.only_usr2 hT hint (OpPc.inRun_of_lockingStats hpc) (hp sig hsig)
        have hawake : (s.operators w).mode ≠ .asleep := fun hm =>
          Bool.false_ne_true ((hd w rfl hsig hm).symm.trans hpc)
        rw [Task.deliver_mode, if_neg hawake]
        exact hI.locking w hpc
      · exact hI.locking w hpc
    · intro w hrun
      rw [deliverTo_view] at hrun
      have halive := hI.alive w hrun
      rw [deliverTo_operators]
      split
      · rw [Task.exited_deliver]
        exact halive
      · exact halive

theorem init : (State.init c).Undisturbed := ⟨fun _ => nofun, nofun⟩

end Undisturbed

end State

theorem undisturbed {s : State c} (h : ReachableBy (Delivers StatsUndisturbed) s) :
    s.Undisturbed :=
  h.invariant .init fun _ _ hr hI hm =>
    hI.step (barrier hr) (termination hr) (no_sigint hr) hm

/-- The operator completes its days: it has not exited inside `run_day`, it has sent one
    `DAY_FINISHED` for each entry into `run_day` it has left again, and outside `run_day` every
    ticket it popped, in each of its runs, has been counted and answered once. A `SIGUSR2` that
    interrupts one of its semops, the lock of the statistics apart, sets it on its way out of
    `run_day`; from there every run comes to its `DAY_FINISHED` within the steps that are left to
    it, and when the mutex of its counter is free its own steps do. -/
structure State.CompletesDays (s : State c) (w : Fin c.nofWorkers) : Prop where
  alive : (s.view w).inRun = true → (s.operators w).exited = false
  once : s.g.runs w = s.g.finished w + ind ((s.view w).inRun = true)
  settled : (s.view w).inRun = false → Settled w (s.g.thisRun w)
  past : ∀ run ∈ s.g.pastRuns w, Settled w run
  interrupted : ∀ sigs s', PostOffice.step s (.deliver (.operator w) sigs) = some s' →
    .usr2 ∈ sigs → (s.operators w).mode = .asleep → (s.operators w).pc.stoppable = true →
    ((s.operators w).pc.rejoins = true → s.g.dayActive = false) → s'.Leaving w
  leaves : s.Leaving w → ∀ as s', exec PostOffice.step as s = some s' →
    (∃ bs cs t, as = bs ++ cs ∧ exec PostOffice.step bs s = some t ∧
      (t.operators w).pc = .dayFinished) ∨
    s'.Leaving w ∧
      as.countP (fun a => a.owner == some (.operator w)) + s'.toFinish w ≤ s.toFinish w
  finishes : s.Leaving w →
    (∀ k, (s.operators w).pc.toRelease = some k → 0 < s.g.sem (.counterMutex k)) →
    ∃ n s', exec PostOffice.step (List.replicate n (.own (.operator w) 0)) s = some s' ∧
      (s'.operators w).pc = .dayFinished

/-- CORRECT: in a run in which no `SIGUSR2` finds an operator asleep in `lock_stats`, every operator
    completes its days. -/
theorem operator_completes_days {s : State c} (h : ReachableBy (Delivers StatsUndisturbed) s)
    (w : Fin c.nofWorkers) : s.CompletesDays w := by
  have hR := runs h.reach
  have hsettled (hrun : (s.view w).inRun = false) : Settled w (s.g.thisRun w) := by
    obtain ⟨i, b, hidle⟩ := OpPc.view_of_not_inRun hrun
    refine (hR.account w).settled ?_
    rw [State.view, Operator.view, hidle]
    rfl
  exact
    { alive := (undisturbed h).alive w
      once := hR.once w
      settled := hsettled
      past := hR.past w
      interrupted := fun _ _ hs husr2 hm hpc hover =>
        State.leaving_of_deliver hs husr2 hm hpc hover
      leaves := fun hI _ _ he => finished_or_leaving h.reach hI he
      finishes := fun hI hfree => hI.finishes hfree }

/-- The condition is the exact one: after a delivery that violates it, the operator's next step is
    to exit inside `run_day`. -/
theorem exits_of_disturbed {s s' : State c} {w : Fin c.nofWorkers} {sigs : List Signal}
    (hd : ¬ StatsUndisturbed s (.operator w) sigs)
    (hs : step s (.deliver (.operator w) sigs) = some s') :
    ∃ t, step s' (.own (.operator w) 0) = some t ∧ ¬ t.CompletesDays w := by
  unfold StatsUndisturbed at hd
  push Not at hd
  obtain ⟨v, hv, husr2, hmode, hpc⟩ := hd
  obtain rfl := Proc.operator.inj hv
  rw [ne_eq, Bool.not_eq_false] at hpc
  obtain rfl := State.eq_deliverTo hs
  have hexit := @Operator.exit_of_lockingStats c w (s.operators w)
    (s.deliverTo sigs (.operator w)).g hpc hmode sigs husr2 0
  have hstep : step (s.deliverTo sigs (.operator w)) (.own (.operator w) 0) =
      some ((s.deliverTo sigs (.operator w)).setOperator w
        (((s.operators w).deliver handleOperatorSignal sigs).exit 1,
          (s.deliverTo sigs (.operator w)).g)) := by
    simp only [step, State.deliverTo_operators, if_true, hexit, Option.map_some]
  refine ⟨_, hstep, fun hC => ?_⟩
  have halive := hC.alive (by
    rw [State.view_setOperator, Function.update_self]
    exact OpPc.inRun_of_lockingStats hpc)
  rw [State.setOperator_operators, Function.update_self] at halive
  exact Bool.false_ne_true halive.symm

/-- The first day of the small office, with the `SIGUSR2` that ends it. -/
theorem operator_completes_days_small : ∃ s : State smallOffice,
    exec step SmallOffice.evening (State.init smallOffice) = some s ∧
    s.g.runs (0 : Fin 1) = 1 ∧ s.CompletesDays (0 : Fin 1) := by
  have hrun : ((exec step SmallOffice.evening (State.init smallOffice)).any fun s =>
      decide (s.g.runs (0 : Fin 1) = 1)) = true := by decide +kernel
  obtain ⟨s, hs, h⟩ := (Option.any_eq_true _ _).mp hrun
  have hok : Allowed step (Delivers StatsUndisturbed) SmallOffice.evening
      (State.init smallOffice) := by decide +kernel
  exact ⟨s, hs, of_decide_eq_true h, operator_completes_days (ReachBy.of_exec _ .refl hs hok) _⟩

/-- The dispenser holds the statistics mutex, the operator falls asleep on it with the first ticket
    in its hands, and the day ends. -/
def SmallOffice.contested : List (Act smallOffice) :=
  queued ++ own clerk 8 ++ signal second .usr1 ++ own second 14 ++
    own .dispenser 3 ++ own clerk 1 ++ own .director 4 ++ signal clerk .usr2 ++
      own clerk 1

/-- There the operator exits inside `run_day`: its ticket is popped, neither counted nor answered,
    and its `DAY_FINISHED` is never sent. -/
theorem operator_exits_in_lock_stats : ∃ s : State smallOffice,
    exec step SmallOffice.contested (State.init smallOffice) = some s ∧
    ¬ s.CompletesDays (0 : Fin 1) ∧
    (s.operators (0 : Fin 1)).mode = .exited 1 ∧ s.g.finished (0 : Fin 1) = 0 ∧
    (s.g.hist.filterMap (Event.poppedBy (0 : Fin 1))).length = 1 ∧
    s.g.hist.filterMap (Event.servedBy (0 : Fin 1)) = [] ∧
    s.g.hist.filterMap (Event.answeredBy (0 : Fin 1)) = [] := by
  have hrun : ((exec step SmallOffice.contested (State.init smallOffice)).any fun s =>
      decide ((s.view (0 : Fin 1)).inRun = true ∧ (s.operators (0 : Fin 1)).mode = .exited 1 ∧
        s.g.finished (0 : Fin 1) = 0 ∧
        (s.g.hist.filterMap (Event.poppedBy (0 : Fin 1))).length = 1 ∧
        s.g.hist.filterMap (Event.servedBy (0 : Fin 1)) = [] ∧
        s.g.hist.filterMap (Event.answeredBy (0 : Fin 1)) = [])) = true := by decide +kernel
  obtain ⟨s, hs, h⟩ := (Option.any_eq_true _ _).mp hrun
  obtain ⟨hin, hmode, hrest⟩ := of_decide_eq_true h
  refine ⟨s, hs, fun hC => ?_, hmode, hrest⟩
  have halive := hC.alive hin
  unfold Task.exited at halive
  rw [hmode] at halive
  exact Bool.false_ne_true halive.symm

end PostOffice
