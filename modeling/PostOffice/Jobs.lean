import Mathlib.Algebra.BigOperators.Ring.Finset
import Mathlib.Data.Int.Cast.Basic
import PostOffice.Ownership

/-! Job tokens and tickets. A ticket is pushed and its job posted in two steps, outside one lock, and
    the director overwrites the semaphore twice and empties the queue in between. So a post of
    yesterday's can reach today's semaphore, but one at most: the dispenser is alone, and between the
    last `SETVAL` and the start of the day it can finish one post and begin none.

        credits = free job tokens + operators on their way to pop + [pushed and not yet posted]
        slack   = credits - length of the queue

    During a day no step adds slack, and a pop that finds the queue empty uses one up. -/

namespace PostOffice

open Transition

variable {c : Setup}

/-- A pop by an operator that found the queue empty. -/
def Event.isEmptyPop {workers users : ℕ} : Event workers users → Bool
  | .poppedEmpty _ _ => true
  | _ => false

/-- How many pops of the day found the queue empty. -/
def emptyPops {workers users : ℕ} (day : List (Event workers users)) : ℕ :=
  day.countP Event.isEmptyPop

namespace DirPc

variable {seats workers users : ℕ}

/-- The job semaphore of `q` has been set to 0 for the day to come. -/
def zeroed : DirPc seats workers users → Service → Bool
  | .setJobs s, q => q < s
  | .setFree s, q | .resetQueue s, q => q ≤ s
  | .activate, _ => true
  | _, _ => false

/-- From `DAY_ACTIVE = 1` to the end of `wait_for_workers_day_end`. -/
def running : DirPc seats workers users → Bool
  | .startWorkers _ | .startUsers _ | .daySleep | .deactivate | .stopWorkers _ | .stopUsers _
  | .dayEndInit | .waitDayEnd => true
  | _ => false

theorem written_of_zeroed {pc : DirPc seats workers users} {q : Service}
    (h : pc.zeroed q = true) : pc.written = some seats := by
  cases pc <;> simp [zeroed, written] at h ⊢

theorem closed_of_zeroed {pc : DirPc seats workers users} {q : Service}
    (h : pc.zeroed q = true) (r : Service) : pc.closed r = true := by
  cases pc <;> simp [zeroed, closed] at h ⊢

theorem running_of_active {pc : DirPc seats workers users} (h : pc.active = true) :
    pc.running = true := by
  cases pc <;> simp [active, running] at h ⊢

theorem running_of_live {pc : DirPc seats workers users} {w : Fin workers}
    (h : pc.live w = true) : pc.running = true := by
  cases pc <;> simp [live, dayOpen, preStart, running] at h ⊢

end DirPc

/-! ### The moves -/

section Moves

variable {g g' : Shared c} {q : Service}

theorem Shared.emptyPops_log {e : c.Event} (h : e.isBoundary = false) :
    emptyPops (g.log e).today = emptyPops g.today + if e.isEmptyPop then 1 else 0 := by
  unfold emptyPops
  rw [g.today_log h, List.countP_append, List.countP_singleton]

/-- A day begins to run only by `activate`; while it runs the director leaves queues and jobs
    alone. -/
theorem Director.Move.running {pc pc' : DirPc c.nofWorkerSeats c.nofWorkers c.nofUsers}
    {v v' : DirVars} (h : Director.Move pc v g pc' v' g') (hr : pc'.running = true) :
    (pc = .activate ∨ pc.running = true) ∧ g'.queues = g.queues ∧
      emptyPops g'.today = emptyPops g.today ∧ ∀ q, g'.sem (.jobs q) = g.sem (.jobs q) := by
  cases h
  case dayBrokenOff => exact ⟨.inr rfl, rfl, Shared.emptyPops_log (by rfl), fun _ => rfl⟩
  all_goals first
    | exact absurd hr Bool.false_ne_true
    | exact ⟨.inl rfl, rfl, rfl, fun _ => rfl⟩
    | exact ⟨.inr rfl, rfl, rfl, fun _ => rfl⟩
    | exact ⟨.inr hr, rfl, rfl, fun _ => rfl⟩

/-- The job tokens among the semaphores already set to 0. -/
def stock (pc : DirPc c.nofWorkerSeats c.nofWorkers c.nofUsers) (g : Shared c) : ℕ :=
  Family.total (fun q (_ : Unit) => if pc.zeroed q then g.sem (.jobs q) else 0) fun _ => ()

/-- Setting a semaphore to 0 adds no job token. -/
theorem Director.Move.stock {pc pc' : DirPc c.nofWorkerSeats c.nofWorkers c.nofUsers}
    {v v' : DirVars} (h : Director.Move pc v g pc' v' g') :
    PostOffice.stock pc' g' ≤ PostOffice.stock pc g := by
  cases h
  case stay => exact le_rfl
  case assignLast => exact Family.total_le_total fun q => by simp [DirPc.zeroed]
  case setJobs s =>
    refine Family.total_le_total ?_
    intro q
    simp only [DirPc.zeroed, decide_eq_true_eq, Shared.setSemValue_sem, Function.update_apply,
      Sem.jobs.injEq]
    grind
  case setFree s => exact le_rfl
  case resetQueueNext s hs =>
    refine Family.total_le_total ?_
    intro q
    simp only [DirPc.zeroed, decide_eq_true_eq, Fin.lt_def, Fin.le_def, Nat.lt_succ_iff]
    exact le_rfl
  case resetQueueLast s hs =>
    refine Family.total_le_total ?_
    intro q
    have hle : q ≤ s := Fin.le_def.mpr (by omega)
    simp only [DirPc.zeroed, decide_eq_true_eq, hle]
    exact le_rfl
  all_goals exact Family.total_le_total fun q => Nat.zero_le _

/-- While the semaphores are set to 0 the dispenser posts at most what it has pushed before. -/
theorem Dispenser.Move.stock {pc pc' : DispPc c.nofWorkerSeats} {f : DispFlags}
    (h : Dispenser.Move pc f g pc' g') (dir : DirPc c.nofWorkerSeats c.nofWorkers c.nofUsers)
    (hclosed : ∀ q, dir.zeroed q = true → ∀ r, pc.window ≠ some r)
    (hI : PostOffice.stock dir g + ind (pc.posting.isSome = true) ≤ 1) :
    PostOffice.stock dir g' + ind (pc'.posting.isSome = true) ≤ 1 := by
  cases h with
  | push hpush hqu =>
    rename_i m s t qu
    have hzero : PostOffice.stock dir ((g.setQueue s qu).log (.pushed s t g.currentDay)) = 0 :=
      Family.total_eq_zero fun q => if_neg fun hq => hclosed q hq s rfl
    rw [hzero, Nat.zero_add]
    exact ind_le_one _
  | postJob =>
    rename_i s
    have hex := Family.total_exchange
      (fun q (_ : Unit) => if dir.zeroed q then (g.up (.jobs s)).sem (.jobs q) else 0)
      (fun q (_ : Unit) => if dir.zeroed q then g.sem (.jobs q) else 0) (fun _ => ())
      (fun _ => ()) s fun q hq => by simp [hq]
    have hold : ind ((DispPc.postJob s : DispPc c.nofWorkerSeats).posting.isSome = true) = 1 := rfl
    have hnew : ind ((DispPc.mainTest : DispPc c.nofWorkerSeats).posting.isSome = true) = 0 := rfl
    rw [hold] at hI
    rw [hnew]
    unfold PostOffice.stock at hI ⊢
    simp only [Shared.up_sem, Function.update_self] at hex ⊢
    split at hex <;> omega
  | stay => exact hI
  | _ => exact hI

/-- Push and post keep the credits level with the queue. -/
theorem Dispenser.Move.credits {pc pc' : DispPc c.nofWorkerSeats} {f : DispFlags}
    (h : Dispenser.Move pc f g pc' g') (q : Service) :
    g'.sem (.jobs q) + ind (pc'.posting = some q) + (g.queues q).length =
      g.sem (.jobs q) + ind (pc.posting = some q) + (g'.queues q).length := by
  cases h with
  | push hpush hqu =>
    rename_i m s t qu
    have hlen := @Shared.length_push c g q s qu t hqu
    have hpost : ind ((DispPc.pushUnlock s : DispPc c.nofWorkerSeats).posting = some q) =
        ind (s = q) := ind_congr (by simp [DispPc.posting])
    rw [hpost]
    show g.sem _ + _ + _ = g.sem _ + 0 + ((g.setQueue s qu).queues q).length
    omega
  | postJob => 
    rename_i s
    simp only [Shared.up_sem, Shared.up_queues, Function.update_apply, DispPc.posting, ind]
    grind
  | _ => rfl

theorem Director.Move.fresh {pc pc' : DirPc c.nofWorkerSeats c.nofWorkers c.nofUsers}
    {v v' : DirVars} (h : Director.Move pc v g pc' v' g')
    (hI : ∀ n, pc.written = some n → emptyPops g.today = 0) (n : ℕ) (hn : pc'.written = some n) :
    emptyPops g'.today = 0 := by
  cases h
  case assignInit =>
    rw [Shared.today_log_boundary _ (by rfl)]
    rfl
  all_goals first | exact hI _ hn | exact hI _ rfl | cases hn

/-- The director may begin a new day. -/
theorem Director.Move.emptyPops {pc pc' : DirPc c.nofWorkerSeats c.nofWorkers c.nofUsers}
    {v v' : DirVars} (h : Director.Move pc v g pc' v' g') :
    emptyPops g'.today = emptyPops g.today ∨ emptyPops g'.today = 0 := by
  cases h
  case assignInit | finalPrint =>
    rw [Shared.today_log_boundary _ (by rfl)]
    exact .inr rfl
  case dayBrokenOff | flushTake | flushReply | printDaily =>
    exact .inl (Shared.emptyPops_log (by rfl))
  all_goals exact .inl rfl

/-- Nobody but an operator pops for it. -/
theorem Logs.emptyPops_eq {p : c.Proc} (h : Logs p g g') (hp : p ≠ .director)
    (hw : ∀ w, p ≠ .operator w) : emptyPops g'.today = emptyPops g.today := by
  obtain ⟨es, hes, hact⟩ := h.today_append hp
  have hzero : es.countP Event.isEmptyPop = 0 := List.countP_eq_zero.mpr fun e he => by
    have := hact e he
    cases e with
    | poppedEmpty w => exact absurd this.symm (hw w)
    | _ => simp [Event.isEmptyPop]
  unfold emptyPops
  rw [hes, List.countP_append, hzero]
  rfl

/-- An operator takes one ticket for one job token, except that it may find the queue empty, or be
    interrupted on its way to the queue. -/
theorem Operator.Move.credits {w : Fin c.nofWorkers} {l l' : Operator c}
    (h : Operator.Move w l g l' g') :
    ((∀ q, g'.sem (.jobs q) + ind (c.workerService w = q ∧ (view w l').job = true) +
          (g.queues q).length =
        g.sem (.jobs q) + ind (c.workerService w = q ∧ (view w l).job = true) +
          (g'.queues q).length) ∧ emptyPops g'.today = emptyPops g.today) ∨
      (view w l).inRun = true ∧ (view w l).job = true ∧ (view w l').job = false ∧
        g'.sem = g.sem ∧ g'.queues = g.queues ∧
        ((g.queues (c.workerService w)).length = 0 ∧
            emptyPops g'.today = emptyPops g.today + 1 ∨
          l.mode = .eintr ∧ emptyPops g'.today = emptyPops g.today) := by
  have hview (x : Operator c) : view w x = x.pc.view (c.workerService w) := rfl
  cases h with
  | silent hf hv => exact .inl ⟨fun q => by rw [hv], rfl⟩
  | acquire hf σ hσ hl hs hv | release hf σ hσ hl hv =>
    refine .inl ⟨fun q => ?_, rfl⟩
    have hne := (hσ.ne_jobs q).symm
    rw [hv]
    simp only [Shared.down_sem, Shared.up_sem, Function.update_of_ne hne]
    rfl
  | popEmpty hf k hlen hpc hpc' =>
    rw [hview, hview, hpc, hpc']
    exact .inr ⟨rfl, rfl, rfl, rfl, rfl, .inl ⟨hlen, Shared.emptyPops_log (by rfl)⟩⟩
  | dropJob hf hi k hv hv' =>
    rw [hv, hv']
    exact .inr ⟨rfl, rfl, rfl, rfl, rfl, .inr ⟨hi, rfl⟩⟩
  | pop hf k t qu hlen hqu hpc hpc' =>
    refine .inl ⟨fun q => ?_, Shared.emptyPops_log (by rfl)⟩
    have hpop := @Shared.length_pop c g q _ qu t hqu
    rw [hview, hview, hpc, hpc']
    simp [OpPc.view, OpView.seated, OpView.running, OpView.starting, OpView.idle] at hpop ⊢
    omega
  | takeJob hf hσ k hv hv' =>
    refine .inl ⟨fun q => ?_, rfl⟩
    rw [hv, hv']
    by_cases hq : q = c.workerService w
    · subst hq
      simp [OpView.seated, OpView.running, OpView.starting, OpView.idle]
      omega
    · simp [hq, Ne.symm hq]
  | init hf hpc hpc' | «begin» hf hpc hpc' | count hf k t n m hpc hpc' | reply hf k t hpc hpc'
  | finish hf hpc hpc' =>
    rw [hview, hview, hpc, hpc']
    exact .inl ⟨fun _ => rfl, Shared.emptyPops_log (by rfl)⟩
  | consume hf hpc hpc' | serveStart hf k t m hpc hpc' | pauseCount hf k hpc hpc'
  | pauseStats hf k hpc hpc' | raiseStop hf k hpc hpc' =>
    rw [hview, hview, hpc, hpc']
    exact .inl ⟨fun _ => rfl, rfl⟩
  | takeToken hf hσ hv hv' | giveToken hf p hv hv' =>
    refine .inl ⟨fun q => ?_, rfl⟩
    rw [hv, hv']
    simp [OpView.scanning, OpView.running, OpView.starting, OpView.idle]
  | dropToken hf hi p hv hv' | pass hf i hi hv hv' | sit hf i hi hv hv' | stand hf k hv hv'
  | dropSeat hf hi k hv hv' =>
    rw [hv, hv']
    exact .inl ⟨fun _ => rfl, rfl⟩

/-- Outside `run_day` an operator touches no job token. -/
theorem Operator.Move.jobs {w : Fin c.nofWorkers} {l l' : Operator c}
    (h : Operator.Move w l g l' g') (hrun : (view w l).inRun = false) (q : Service) :
    g'.sem (.jobs q) = g.sem (.jobs q) := by
  cases h with
  | acquire hf σ hm hl hσ hv | release hf σ hm hl hv => simp [(hm.ne_jobs q).symm]
  | takeJob hf hσ k hv hv' =>
    rw [hv] at hrun
    exact absurd hrun.symm Bool.false_ne_true
  | takeToken | giveToken => simp
  | _ => rfl

end Moves

/-! ### The invariant -/

namespace State

/-- The job tokens of `q`, free or taken, and the one still to be posted. -/
def credits (s : State c) (q : Service) : ℕ :=
  s.g.sem (.jobs q) + Family.total (fun w v => ind (c.workerService w = q ∧ v.job = true)) s.view +
    ind (s.dispenser.pc.posting = some q)

/-- The credits of `q` beyond the length of its queue. -/
def slack (s : State c) (q : Service) : ℕ := s.credits q - (s.g.queues q).length

/-- The accounts of the job tokens. -/
structure Jobs (s : State c) : Prop where
  stock : stock s.director.pc s.g + ind (s.dispenser.pc.posting.isSome = true) ≤ 1
  fresh : ∀ n, s.director.pc.written = some n → emptyPops s.g.today = 0
  running : s.director.pc.running = true → emptyPops s.g.today + ∑ q, s.slack q ≤ 1
  today : emptyPops s.g.today ≤ 1
  past : ∀ day ∈ s.g.pastDays, emptyPops day ≤ 1

theorem credits_setOperator (s : State c) (w : Fin c.nofWorkers) (x : Operator c × Shared c)
    (q : Service) : (s.setOperator w x).credits q + s.g.sem (.jobs q) +
      ind (c.workerService w = q ∧ (s.view w).job = true) =
        s.credits q + x.2.sem (.jobs q) +
          ind (c.workerService w = q ∧ (Operator.view w x.1).job = true) := by
  have htotal :=
    s.total_view_setOperator (fun w v => ind (c.workerService w = q ∧ v.job = true)) w x
  rw [credits, credits]
  simp only [setOperator_g, setOperator_dispenser]
  omega

namespace Jobs

variable {s s' : State c}

theorem director (hB : s.Barrier) (hI : s.Jobs) {l' : Director c} {g' : Shared c}
    (hm : Director.Move s.director.pc s.director.vars s.g l'.pc l'.vars g') :
    (s.setDirector (l', g')).Jobs := by
  refine ⟨(Nat.add_le_add_right hm.stock _).trans hI.stock, hm.fresh hI.fresh, fun hr => ?_, ?_,
    hm.pastDays hI.past fun _ => hI.today⟩
  · obtain ⟨hpc, hqueues, hpops, hsem⟩ := hm.running hr
    have hslack (q) : (s.setDirector (l', g')).slack q = s.slack q := by
      unfold slack credits
      simp only [setDirector_g, setDirector_dispenser, view_setDirector, hqueues, hsem]
    simp only [hslack, setDirector_g, hpops]
    rcases hpc with hpc | hpc
    · -- The day begins: nobody is on its way to pop, and the queues are empty.
      have hview (q) : Family.total (fun w v => ind (c.workerService w = q ∧ v.job = true)) s.view =
          0 := by
        refine Family.total_eq_zero fun w => ind_of_not ?_
        intro h
        have hrun : (s.view w).inRun = false := hB.not_inRun (by rw [hpc]; rfl)
        obtain ⟨i, b, hidle⟩ := OpPc.view_of_not_inRun hrun
        have hjob := h.2
        rw [view, Operator.view, hidle] at hjob
        exact Bool.false_ne_true hjob
      have hle : ∑ q, s.slack q ≤
          ∑ q, (s.g.sem (.jobs q) + ind (s.dispenser.pc.posting = some q)) := by
        refine Finset.sum_le_sum fun q _ => (Nat.sub_le _ _).trans ?_
        rw [credits, hview, Nat.add_zero]
      have hpost : ∑ q, ind (s.dispenser.pc.posting = some q) ≤
          ind (s.dispenser.pc.posting.isSome = true) := by
        cases s.dispenser.pc.posting <;> simp [ind]
      have hstock := hI.stock
      rw [hpc] at hstock
      rw [Finset.sum_add_distrib] at hle
      have hfresh := hI.fresh _ (by rw [hpc]; rfl)
      have hsum : PostOffice.stock (.activate : DirPc c.nofWorkerSeats c.nofWorkers c.nofUsers) s.g =
          ∑ q, s.g.sem (.jobs q) := rfl
      omega
    · exact hI.running hpc
  · exact hm.emptyPops.elim (fun h => h.le.trans hI.today) fun h => h.le.trans (Nat.zero_le _)

theorem dispenser (hC : s.Closing) (hI : s.Jobs) {l' : Dispenser c} {g' : Shared c}
    (hm : Dispenser.Move s.dispenser.pc s.dispenser.vars s.g l'.pc g') :
    (s.setDispenser (l', g')).Jobs := by
  have hpops : emptyPops g'.today = emptyPops s.g.today := hm.logs.emptyPops_eq (by simp) (by simp)
  refine ⟨hm.stock s.director.pc (fun q hq r => hC.closed r (DirPc.closed_of_zeroed hq r)) hI.stock,
    fun n hn => hpops.trans (hI.fresh n hn), fun hr => ?_, hpops.le.trans hI.today,
    (hm.logs.pastDays_eq (by simp)).symm ▸ hI.past⟩
  have hslack (q) : (s.setDispenser (l', g')).slack q = s.slack q := by
    have := hm.credits q
    unfold slack credits
    simp only [setDispenser_g, setDispenser_dispenser, view_setDispenser]
    omega
  simp only [hslack, setDispenser_g, hpops]
  exact hI.running hr

theorem operator (hB : s.Barrier) (hI : s.Jobs) {w : Fin c.nofWorkers} {l' : Operator c}
    {g' : Shared c} (hm : Operator.Move w (s.operators w) s.g l' g') :
    (s.setOperator w (l', g')).Jobs := by
  have hidle {n} (hn : s.director.pc.written = some n) : (s.view w).inRun = false :=
    hB.not_inRun (by simp [DirPc.live, DirPc.preStart_of_written hn w])
  have hcredits (q) := s.credits_setOperator w (l', g') q
  dsimp only at hcredits
  have hmoves := hm.credits
  rw [view_eq] at hmoves
  -- Running and today's pops, by what the step does to the slack.
  have hrun (hr : s.director.pc.running = true) :
      emptyPops g'.today + ∑ q, (s.setOperator w (l', g')).slack q ≤ 1 := by
    have hold := hI.running hr
    rcases hmoves with ⟨hsame, hpops⟩ | ⟨-, hjob, hjob', hsem, hqueues, hwhy⟩
    · have hslack (q) : (s.setOperator w (l', g')).slack q = s.slack q := by
        have := hcredits q
        have := hsame q
        unfold slack
        simp only [setOperator_g]
        omega
      simp only [hslack, hpops]
      exact hold
    · simp only [hjob, hjob', hsem] at hcredits
      have hle (q) : (s.setOperator w (l', g')).slack q ≤ s.slack q := by
        have := hcredits q
        unfold slack
        simp only [setOperator_g, hqueues]
        simp at this
        omega
      rcases hwhy with ⟨hlen, hpops⟩ | ⟨-, hpops⟩
      · have hlt : ∑ q, (s.setOperator w (l', g')).slack q < ∑ q, s.slack q := by
          refine Finset.sum_lt_sum (fun q _ => hle q) ⟨c.workerService w, Finset.mem_univ _, ?_⟩
          have := hcredits (c.workerService w)
          unfold slack
          simp only [setOperator_g, hqueues, hlen]
          simp at this
          omega
        omega
      · have hsum : ∑ q, (s.setOperator w (l', g')).slack q ≤ ∑ q, s.slack q :=
          Finset.sum_le_sum fun q _ => hle q
        omega
  refine ⟨(Nat.add_le_add_right ?_ _).trans hI.stock, fun n hn => ?_, hrun, ?_,
    (hm.logs.pastDays_eq (by simp)).symm ▸ hI.past⟩
  · refine Family.total_le_total ?_
    intro q
    by_cases hq : s.director.pc.zeroed q = true
    · simp only [setOperator_director, setOperator_g, hq, if_true]
      exact (hm.jobs (hidle (DirPc.written_of_zeroed hq)) q).le
    · simp [hq]
  · rcases hmoves with ⟨-, hpops⟩ | ⟨hin, -⟩
    · exact hpops.trans (hI.fresh n hn)
    · exact absurd ((hidle hn).symm.trans hin) Bool.false_ne_true
  · rcases hmoves with ⟨-, hpops⟩ | ⟨hin, -⟩
    · exact hpops.le.trans hI.today
    · exact (Nat.le_add_right _ _).trans (hrun (DirPc.running_of_live (hB.live_of_inRun hin)))

theorem step (hB : s.Barrier) (hC : s.Closing) (hI : s.Jobs) (h : s.Move s') : s'.Jobs := by
  cases h with
  | director hm => exact hI.director hB hm
  | dispenser hm hf => exact hI.dispenser hC hm
  | operator w hstep hm => exact hI.operator hB hm
  | @user l' g' u hm hf =>
    have hpops : emptyPops g'.today = emptyPops s.g.today := hm.logs.emptyPops_eq (by simp) (by simp)
    have hpast : g'.pastDays = s.g.pastDays := hm.logs.pastDays_eq (by simp)
    have hsem : g'.sem = s.g.sem := by rw [hm.frame]
    have hqueues : g'.queues = s.g.queues := by rw [hm.frame]
    have hslack (q) : (s.setUser u (l', g')).slack q = s.slack q := by
      unfold slack credits
      simp only [setUser_g, setUser_dispenser, view_setUser, hsem, hqueues]
    refine ⟨?_, fun n hn => hpops.trans (hI.fresh n hn), fun hr => ?_, hpops.le.trans hI.today,
      fun day hday => hI.past day (hpast ▸ hday)⟩
    · unfold PostOffice.stock
      simp only [setUser_g, hsem]
      exact hI.stock
    · simp only [hslack, setUser_g, hpops]
      exact hI.running hr
  | deliver p sigs hp =>
    have hslack (q) : (s.deliverTo sigs p).slack q = s.slack q := by
      simp [slack, credits]
    refine ⟨?_, ?_, ?_, ?_, ?_⟩
    · simpa [PostOffice.stock] using hI.stock
    · simpa using hI.fresh
    · simpa [hslack] using hI.running
    · simpa using hI.today
    · rw [deliverTo_g]
      exact hI.past
  | interrupt sig hsig => exact ⟨hI.stock, hI.fresh, hI.running, hI.today, hI.past⟩
  | tick ns => exact ⟨hI.stock, hI.fresh, hI.running, hI.today, hI.past⟩

theorem init : (State.init c).Jobs :=
  ⟨by simp [PostOffice.stock, State.init, DirPc.zeroed, DispPc.posting, Family.total, ind], nofun,
    nofun, Nat.zero_le _, nofun⟩

end Jobs

end State

theorem jobs {s : State c} (h : Reachable s) : s.Jobs :=
  h.invariant .init fun _ _ hr hI hm => hI.step (barrier hr) (closing hr) hm

/-! ### No ticket is stranded -/

namespace State

/-- Every ticket in a queue has a credit that brings an operator to it. -/
def Supply (s : State c) : Prop :=
  s.g.dayActive = true → ∀ q, (s.g.queues q).length ≤ s.credits q

variable {s s' : State c}

theorem Supply.operator (hO : s.Ownership) (hI : s.Supply) {w : Fin c.nofWorkers}
    {l' : Operator c} {g' : Shared c} (hm : Operator.Move w (s.operators w) s.g l' g') :
    (s.setOperator w (l', g')).Supply := by
  intro hday q
  replace hday : s.g.dayActive = true := by
    rw [setOperator_g, hm.frame] at hday
    exact hday
  have hold := hI hday q
  have hcredits := s.credits_setOperator w (l', g') q
  have hmove := hm.credits
  rw [view_eq] at hmove
  dsimp only at hcredits
  show (g'.queues q).length ≤ _
  rcases hmove with ⟨hsame, -⟩ | ⟨hrun, hjob, hjob', hsem, hqueues, ⟨hlen, -⟩ | ⟨hint, -⟩⟩
  · have := hsame q
    omega
  · -- A pop that finds the queue empty takes the credit of no ticket.
    rw [hqueues]
    simp only [hjob, hjob', hsem] at hcredits
    by_cases hq : c.workerService w = q
    · rw [← hq, hlen]
      exact Nat.zero_le _
    · simp [hq] at hcredits
      omega
  · exact absurd hint (hO.calm hday w hrun)

theorem Supply.step (hC : s.Closing) (hO : s.Ownership) (hI : s.Supply)
    (h : State.MoveBy (CalmDay s) s s') : s'.Supply := by
  cases h with
  | @director l' g' hm =>
    intro hday q
    have hact : l'.pc.active = true := (hm.active hC.active).symm.trans hday
    obtain ⟨hpc, hqueues, -, hsem⟩ := hm.running (DirPc.running_of_active hact)
    obtain ⟨hpc' | hpc', -⟩ := hm.activeDay hact
    · -- The day begins with empty queues.
      have hempty := hC.emptied q (by rw [hpc']; rfl)
      rw [setDirector_g, hqueues, hempty]
      exact Nat.zero_le _
    · have hold := hI (hC.active.trans hpc') q
      unfold credits at hold ⊢
      simp only [setDirector_g, setDirector_dispenser, view_setDirector, hqueues, hsem]
      exact hold
  | @dispenser l' g' hm hf =>
    intro hday q
    have hold := hI (by rw [setDispenser_g, hm.frame] at hday; exact hday) q
    have hmove := hm.credits q
    unfold credits at hold ⊢
    simp only [setDispenser_g, setDispenser_dispenser, view_setDispenser]
    omega
  | operator w hstep hm => exact hI.operator hO hm
  | user u hm hf =>
    rw [hm.frame]
    exact hI
  | deliver p sigs hp => simpa [Supply, credits] using hI
  | interrupt sig hsig => exact hI
  | tick ns => exact hI

theorem Supply.init : (State.init c).Supply := nofun

end State

theorem supply {s : State c} (h : ReachableBy (Delivers CalmDay) s) : s.Supply := by
  refine (ReachableBy.invariant (I := fun s => s.Ownership ∧ s.Supply) ⟨.init, .init⟩ ?_ h).2
  intro s s' hr hI hm
  exact ⟨hI.1.step (barrier hr) (termination hr) (no_sigint hr) (closing hr) (seating hr) hm,
    hI.2.step (closing hr) hI.1 hm⟩

/-- The credits of `q` less the length of its queue. -/
def State.surplus (s : State c) (q : Service) : ℤ := s.credits q - (s.g.queues q).length

/-- CORRECT: job tokens match tickets. In an active day every ticket in a queue has a credit, all
    services together have at most one credit too many, and so at most one pop of any day finds its
    queue empty. -/
theorem job_tokens_match {s : State c} (h : ReachableBy (Delivers CalmDay) s) :
    (s.g.dayActive = true → (∀ q, 0 ≤ s.surplus q) ∧ ∑ q, s.surplus q ≤ 1) ∧
    emptyPops s.g.today ≤ 1 ∧ ∀ day ∈ s.g.pastDays, emptyPops day ≤ 1 := by
  have hJ := jobs h.reach
  refine ⟨fun hday => ?_, hJ.today, hJ.past⟩
  have hsupply := supply h hday
  have hslack (q) : s.surplus q = (s.slack q : ℤ) := by
    rw [State.surplus, State.slack, Nat.cast_sub (hsupply q)]
  have hact := (closing h.reach).active.symm.trans hday
  have hone := hJ.running (DirPc.running_of_active hact)
  simp only [hslack, ← Nat.cast_sum]
  exact ⟨fun q => Int.natCast_nonneg _, by exact_mod_cast (Nat.le_add_left _ _).trans hone⟩

/-- In the small office a ticket waits in the queue of service 0. -/
theorem job_tokens_match_small : ∃ s : State smallOffice,
    exec step SmallOffice.queued (State.init smallOffice) = some s ∧
    (s.g.queues 0).length = 1 ∧ s.g.sem (.jobs 0) = 1 ∧ ∑ q, s.surplus q ≤ 1 := by
  have hrun : ((exec step SmallOffice.queued (State.init smallOffice)).any fun s =>
      decide (s.g.dayActive = true ∧ (s.g.queues 0).length = 1 ∧ s.g.sem (.jobs 0) = 1)) =
        true := by decide +kernel
  obtain ⟨s, hs, h⟩ := (Option.any_eq_true _ _).mp hrun
  obtain ⟨hday, hlen, hjobs⟩ := of_decide_eq_true h
  have hok : Allowed step (Delivers CalmDay) SmallOffice.queued (State.init smallOffice) :=
    allowed_of_quiet (fun _ _ _ h _ _ hmem => absurd hmem h) (by decide +kernel) _
  obtain ⟨hactive, -⟩ := job_tokens_match (ReachBy.of_exec _ .refl hs hok)
  exact ⟨s, hs, hlen, hjobs, (hactive hday).2⟩

end PostOffice
