import PostOffice.Lib.Family
import PostOffice.Lib.Mailbox
import PostOffice.Lib.Segments
import PostOffice.OperatorMove
import PostOffice.DispenserMove
import PostOffice.UserMove
import PostOffice.DirectorMove
import PostOffice.System

/-! What one step of the system can do: an own step of one process, as its own list of moves has it,
    or the delivery of signals to one process, a signal to the director from outside, a tick.

    Every invariant below is proved once over `State.Move`; what signal delivery does to a process
    is said by the lemmas about the handlers here. -/

namespace PostOffice

variable {c : Setup}

/-! ### What stays -/

/-- An operator writes the counters, its own worker entry, the statistics, the queue of its service,
    semaphores, messages and the history. -/
theorem Operator.Move.frame {w : Fin c.nofWorkers} {l l' : Operator c} {g g' : Shared c}
    (h : Operator.Move w l g l' g') : g' =
      { g with counters := g'.counters, workers := g'.workers, stats := g'.stats,
               queues := g'.queues, sem := g'.sem, msgs := g'.msgs, hist := g'.hist } := by
  cases h <;> rfl

/-- The dispenser writes the statistics, the queues, semaphores, messages and the history. -/
theorem Dispenser.Move.frame {pc pc' : DispPc c.nofWorkerSeats} {f : DispFlags}
    {g g' : Shared c} (h : Dispenser.Move pc f g pc' g') : g' =
      { g with stats := g'.stats, queues := g'.queues, sem := g'.sem, msgs := g'.msgs,
               hist := g'.hist } := by
  cases h <;> rfl

/-! ### Who records what -/

/-- The step of `p` records events of its own, if any. -/
def Logs (p : c.Proc) (g g' : Shared c) : Prop :=
  ∃ es, g'.hist = g.hist ++ es ∧ ∀ e ∈ es, e.actor = p

namespace Logs

variable {p : c.Proc} {g g' : Shared c}

theorem none (h : g'.hist = g.hist) : Logs p g g' := ⟨[], by simp [h], by simp⟩

theorem one {e : c.Event} (h : g'.hist = g.hist ++ [e]) (he : e.actor = p) : Logs p g g' :=
  ⟨[e], h, by simp [he]⟩

/-- The events of the other processes are counted as before. -/
theorem countP_eq (h : Logs p g g') {q : c.Event → Bool} (hq : ∀ e, e.actor = p → q e = false) :
    g'.hist.countP q = g.hist.countP q := by
  obtain ⟨es, hes, hp⟩ := h
  have hzero : es.countP q = 0 := List.countP_eq_zero.mpr fun e he => by simp [hq e (hp e he)]
  rw [hes, List.countP_append, hzero]
  rfl

/-- An event of the history was there before or is the process's own. -/
theorem mem (h : Logs p g g') {e : c.Event} (he : e ∈ g'.hist) : e ∈ g.hist ∨ e.actor = p := by
  obtain ⟨es, hes, hp⟩ := h
  rw [hes, List.mem_append] at he
  exact he.imp_right (hp e)

/-- No event is forgotten. -/
theorem countP_le (h : Logs p g g') (q : c.Event → Bool) :
    g.hist.countP q ≤ g'.hist.countP q := by
  obtain ⟨es, hes, -⟩ := h
  rw [hes, List.countP_append]
  exact Nat.le_add_right _ _

end Logs

theorem Operator.Move.logs {w : Fin c.nofWorkers} {l l' : Operator c} {g g' : Shared c}
    (h : Operator.Move w l g l' g') : Logs (.operator w) g g' := by
  cases h <;> first | exact .none rfl | exact .one (by rfl) (by rfl)

theorem Dispenser.Move.logs {pc pc' : DispPc c.nofWorkerSeats} {f : DispFlags} {g g' : Shared c}
    (h : Dispenser.Move pc f g pc' g') : Logs .dispenser g g' := by
  cases h <;> first | exact .none rfl | exact .one (by rfl) (by rfl)

theorem User.Move.logs {u : Fin c.nofUsers} {pc pc' : UserPc} {f : UserFlags} {g g' : Shared c}
    (h : User.Move u pc f g pc' g') : Logs (.user u) g g' := by
  cases h <;> first | exact .none rfl | exact .one (by rfl) (by rfl)

theorem Director.Move.logs {pc pc' : DirPc c.nofWorkerSeats c.nofWorkers c.nofUsers}
    {v v' : DirVars} {g g' : Shared c} (h : Director.Move pc v g pc' v' g') :
    Logs .director g g' := by
  cases h <;> first | exact .none rfl | exact .one (by rfl) (by rfl)

/-! ### Messages of other types -/

/-- A reception leaves the count of the messages of other types. -/
theorem Shared.countP_received {g : Shared c} {mtype : ℤ} {m : Message}
    (hm : g.firstOfType mtype = some m) {q : Message → Bool}
    (hq : ∀ m : Message, m.mtype = mtype → q m = false) :
    (g.received mtype).msgs.countP q = g.msgs.countP q := by
  have hcount := Mailbox.countP_eraseP q hm
  have hmtype : m.mtype = mtype := by simpa using (Mailbox.mem_of_find hm).2
  rw [hq m hmtype] at hcount
  exact hcount

/-! ### The handlers -/

/-- All signals of the list have been handled. -/
theorem foldl_handleOperatorSignal (sigs : List Signal) (v : OpFlags) :
    sigs.foldl handleOperatorSignal v =
      { dayStarted := v.dayStarted || decide (.usr1 ∈ sigs) || decide (.term ∈ sigs)
        dayStopRequested := v.dayStopRequested || decide (.usr2 ∈ sigs) || decide (.term ∈ sigs)
        terminateRequested := v.terminateRequested || decide (.term ∈ sigs) } := by
  induction sigs generalizing v with
  | nil => simp
  | cons sig sigs ih =>
    rw [List.foldl_cons, ih]
    cases sig <;> simp [handleOperatorSignal, Bool.or_left_comm, Bool.or_comm]

theorem foldl_handleTicketSignal (sigs : List Signal) (v : DispFlags) :
    sigs.foldl handleTicketSignal v =
      { terminateRequested := v.terminateRequested || decide (.term ∈ sigs) } := by
  induction sigs generalizing v with
  | nil => simp
  | cons sig sigs ih =>
    rw [List.foldl_cons, ih]
    cases sig <;> simp [handleTicketSignal]

theorem foldl_handleUserSignal (sigs : List Signal) (v : UserFlags) :
    (sigs.foldl handleUserSignal v).terminateRequested =
      (v.terminateRequested || decide (.term ∈ sigs)) := by
  induction sigs generalizing v with
  | nil => simp
  | cons sig sigs ih =>
    rw [List.foldl_cons, ih]
    cases sig <;> simp [handleUserSignal]

/-- The handler raises the start flag for `SIGUSR1` and for `SIGTERM`. -/
theorem foldl_handleUserSignal_dayStarted (sigs : List Signal) (v : UserFlags) :
    (sigs.foldl handleUserSignal v).dayStarted =
      (v.dayStarted || decide (.usr1 ∈ sigs) || decide (.term ∈ sigs)) := by
  induction sigs generalizing v with
  | nil => simp
  | cons sig sigs ih =>
    rw [List.foldl_cons, ih]
    cases sig <;> simp [handleUserSignal, Bool.or_comm]

/-- A signal raises the shutdown flag. -/
theorem foldl_shutdownRequested (sigs : List Signal) (v : DirVars) :
    (sigs.foldl handleDirectorSignal v).shutdownRequested =
      (v.shutdownRequested || decide (.int ∈ sigs) || decide (.term ∈ sigs)) := by
  induction sigs generalizing v with
  | nil => simp
  | cons sig sigs ih =>
    rw [List.foldl_cons, ih]
    cases sig <;> simp [handleDirectorSignal]

/-- The director's handler only raises the shutdown flag. -/
theorem foldl_handleDirectorSignal (sigs : List Signal) (v : DirVars) :
    ∃ b, sigs.foldl handleDirectorSignal v = { v with shutdownRequested := b } := by
  induction sigs generalizing v with
  | nil => exact ⟨v.shutdownRequested, rfl⟩
  | cons sig sigs ih =>
    obtain ⟨b, hb⟩ := ih (handleDirectorSignal v sig)
    refine ⟨b, ?_⟩
    rw [List.foldl_cons, hb]
    cases sig <;> rfl

/-! ### The moves of the system -/

namespace State

/-- What each operator holds. -/
def view (s : State c) (w : Fin c.nofWorkers) : OpView c.nofWorkerSeats :=
  Operator.view w (s.operators w)

/-- Where each user is. -/
def userPc (s : State c) (u : Fin c.nofUsers) : UserPc := (s.users u).pc

theorem userPc_eq (s : State c) (u : Fin c.nofUsers) : (s.users u).pc = s.userPc u := rfl

theorem view_eq (s : State c) (w : Fin c.nofWorkers) :
    Operator.view w (s.operators w) = s.view w := rfl

section Frame

variable (s : State c) (sigs : List Signal) (p : c.Proc)

theorem view_setOperator (w : Fin c.nofWorkers) (x : Operator c × Shared c) :
    (s.setOperator w x).view = Function.update s.view w (Operator.view w x.1) := by
  funext w'
  by_cases h : w' = w
  · subst h
    simp [view]
  · simp [view, h]

/-- What the operators hold together, after a step of one of them. -/
theorem total_view_setOperator (f : Fin c.nofWorkers → OpView c.nofWorkerSeats → ℕ)
    (w : Fin c.nofWorkers) (x : Operator c × Shared c) :
    Family.total f (s.setOperator w x).view + f w (s.view w) =
      Family.total f s.view + f w (Operator.view w x.1) := by
  rw [view_setOperator]
  exact Family.total_update f s.view w (Operator.view w x.1)

theorem userPc_setUser (u : Fin c.nofUsers) (x : User × Shared c) :
    (s.setUser u x).userPc = Function.update s.userPc u x.1.pc := by
  funext u'
  by_cases h : u' = u
  · subst h
    simp [userPc]
  · simp [userPc, h]

@[simp] theorem view_setDirector (x : Director c × Shared c) : (s.setDirector x).view = s.view := rfl

@[simp] theorem view_setDispenser (x : Dispenser c × Shared c) :
    (s.setDispenser x).view = s.view := rfl

@[simp] theorem view_setUser (u : Fin c.nofUsers) (x : User × Shared c) :
    (s.setUser u x).view = s.view := rfl

@[simp] theorem view_setG (g : Shared c) : (s.setG g).view = s.view := rfl

/-- A signal handler moves no process. -/
@[simp] theorem deliverTo_g : (s.deliverTo sigs p).g = s.g.delivered p sigs := by cases p <;> rfl

theorem deliverTo_director : (s.deliverTo sigs p).director =
    if p = .director then s.director.deliver handleDirectorSignal sigs else s.director := by
  cases p <;> rfl

theorem deliverTo_dispenser : (s.deliverTo sigs p).dispenser =
    if p = .dispenser then s.dispenser.deliver handleTicketSignal sigs else s.dispenser := by
  cases p <;> rfl

theorem deliverTo_operators (w : Fin c.nofWorkers) : (s.deliverTo sigs p).operators w =
    if p = .operator w then (s.operators w).deliver handleOperatorSignal sigs
    else s.operators w := by
  cases p with
  | operator v =>
    by_cases h : w = v
    · subst h
      simp [deliverTo]
    · simp [deliverTo, h, Ne.symm h]
  | director | dispenser | user v => rfl

theorem deliverTo_users (u : Fin c.nofUsers) : (s.deliverTo sigs p).users u =
    if p = .user u then (s.users u).deliver handleUserSignal sigs else s.users u := by
  cases p with
  | user v =>
    by_cases h : u = v
    · subst h
      simp [deliverTo]
    · simp [deliverTo, h, Ne.symm h]
  | director | dispenser | operator v => rfl

@[simp] theorem deliverTo_director_pc : (s.deliverTo sigs p).director.pc = s.director.pc := by
  rw [deliverTo_director]
  split <;> rfl

@[simp] theorem deliverTo_dispenser_pc : (s.deliverTo sigs p).dispenser.pc = s.dispenser.pc := by
  rw [deliverTo_dispenser]
  split <;> rfl

@[simp] theorem deliverTo_operators_pc (w : Fin c.nofWorkers) :
    ((s.deliverTo sigs p).operators w).pc = (s.operators w).pc := by
  rw [deliverTo_operators]
  split <;> rfl

@[simp] theorem deliverTo_users_pc (u : Fin c.nofUsers) :
    ((s.deliverTo sigs p).users u).pc = (s.users u).pc := by
  rw [deliverTo_users]
  split <;> rfl

@[simp] theorem deliverTo_view : (s.deliverTo sigs p).view = s.view := by
  funext w
  simp [view, Operator.view]

@[simp] theorem deliverTo_userPc : (s.deliverTo sigs p).userPc = s.userPc := by
  funext u
  simp [userPc]

/-- Of the director's variables a handler changes the shutdown flag only. -/
theorem deliverTo_director_vars :
    ∃ b, (s.deliverTo sigs p).director.vars = { s.director.vars with shutdownRequested := b } := by
  rw [deliverTo_director]
  split
  · exact foldl_handleDirectorSignal sigs s.director.vars
  · exact ⟨s.director.vars.shutdownRequested, rfl⟩

/-- No delivery takes the shutdown flag down. -/
theorem shutdownRequested_deliverTo (h : s.director.vars.shutdownRequested = true) :
    (s.deliverTo sigs p).director.vars.shutdownRequested = true := by
  rw [deliverTo_director]
  split
  · simp [foldl_shutdownRequested, h]
  · exact h

end Frame

/-- A delivery runs the handlers and does nothing else. -/
theorem eq_deliverTo {s s' : State c} {p : c.Proc} {sigs : List Signal}
    (h : step s (.deliver p sigs) = some s') : s' = s.deliverTo sigs p := by
  simp only [step] at h
  split at h
  · exact (Option.some.inj h).symm
  · cases h

/-- The moves of the system whose signal deliveries satisfy `D`. -/
inductive MoveBy (D : c.Proc → List Signal → Prop) (s : State c) : State c → Prop where
  | director {l' g'} (hm : Director.Move s.director.pc s.director.vars s.g l'.pc l'.vars g') :
      MoveBy D s (s.setDirector (l', g'))
  | dispenser {l' g'} (hm : Dispenser.Move s.dispenser.pc s.dispenser.vars s.g l'.pc g')
      (hf : l'.vars = s.dispenser.vars) : MoveBy D s (s.setDispenser (l', g'))
  | operator {n l' g'} (w : Fin c.nofWorkers)
      (hstep : Operator.step w (s.operators w) s.g n = some (l', g'))
      (hm : Operator.Move w (s.operators w) s.g l' g') : MoveBy D s (s.setOperator w (l', g'))
  | user {l' g'} (u : Fin c.nofUsers)
      (hm : User.Move u (s.users u).pc (s.users u).vars s.g l'.pc g')
      (hf : l'.vars.terminateRequested = (s.users u).vars.terminateRequested) :
      MoveBy D s (s.setUser u (l', g'))
  | deliver (p : c.Proc) (sigs : List Signal) (hp : ∀ sig ∈ sigs, s.g.pending p sig = true)
      (hne : sigs ≠ []) (hd : D p sigs) : MoveBy D s (s.deliverTo sigs p)
  | interrupt (sig : Signal) (hs : sig = .term ∨ sig = .int) :
      MoveBy D s (s.setG (s.g.kill .director sig))
  | tick (ns : ℕ) : MoveBy D s (s.setG { s.g with clock := s.g.clock + ns })

/-- The moves of the system. -/
abbrev Move (s : State c) : State c → Prop := MoveBy (fun _ _ => True) s

end State

/-- Every step is one of the moves. -/
theorem step_moveBy {D : c.Proc → List Signal → Prop} {s s' : State c} {a : Act c}
    (h : step s a = some s') (hD : ∀ p sigs, a = .deliver p sigs → D p sigs) :
    State.MoveBy D s s' := by
  cases a with
  | own p n =>
    cases p with
    | director =>
      obtain ⟨⟨l', g'⟩, hx, rfl⟩ := Option.map_eq_some_iff.mp h
      exact .director (Director.step_move hx)
    | dispenser =>
      obtain ⟨⟨l', g'⟩, hx, rfl⟩ := Option.map_eq_some_iff.mp h
      exact .dispenser (Dispenser.step_move hx).1 (Dispenser.step_move hx).2
    | operator w =>
      obtain ⟨⟨l', g'⟩, hx, rfl⟩ := Option.map_eq_some_iff.mp h
      exact .operator w hx (Operator.step_move hx)
    | user u =>
      obtain ⟨⟨l', g'⟩, hx, rfl⟩ := Option.map_eq_some_iff.mp h
      exact .user u (User.step_move hx).1 (User.step_move hx).2
  | deliver p sigs =>
    simp only [step] at h
    split at h
    · rename_i hsigs
      obtain rfl := Option.some.inj h
      exact .deliver p sigs hsigs.2.2.1 hsigs.1 (hD p sigs rfl)
    · cases h
  | interrupt term =>
    obtain rfl := Option.some.inj h
    cases term
    · exact .interrupt .int (.inr rfl)
    · exact .interrupt .term (.inl rfl)
  | tick ns =>
    obtain rfl := Option.some.inj h
    exact .tick ns

/-- The process whose own step it is. -/
def Act.owner : Act c → Option c.Proc
  | .own p _ => some p
  | _ => none

/-- The steps of the system by action, each with the program's own step behind it. -/
inductive State.StepOf (s : State c) : Act c → State c → Prop where
  | director {n l' g'} (hstep : Director.step s.director s.g s.exited n = some (l', g')) :
      StepOf s (.own .director n) (s.setDirector (l', g'))
  | dispenser {n l' g'} (hstep : Dispenser.step s.dispenser s.g = some (l', g')) :
      StepOf s (.own .dispenser n) (s.setDispenser (l', g'))
  | operator {n l' g'} (w : Fin c.nofWorkers)
      (hstep : Operator.step w (s.operators w) s.g n = some (l', g')) :
      StepOf s (.own (.operator w) n) (s.setOperator w (l', g'))
  | user {n l' g'} (u : Fin c.nofUsers) (hstep : User.step u (s.users u) s.g n = some (l', g')) :
      StepOf s (.own (.user u) n) (s.setUser u (l', g'))
  | deliver (p : c.Proc) (sigs : List Signal) (hp : ∀ sig ∈ sigs, s.g.pending p sig = true)
      (hne : sigs ≠ []) (hx : s.exited p = false) :
      StepOf s (.deliver p sigs) (s.deliverTo sigs p)
  | interrupt (term : Bool) :
      StepOf s (.interrupt term) (s.setG (s.g.kill .director (if term then .term else .int)))
  | tick (ns : ℕ) : StepOf s (.tick ns) (s.setG { s.g with clock := s.g.clock + ns })

theorem step_stepOf {s s' : State c} {a : Act c} (h : step s a = some s') : s.StepOf a s' := by
  cases a with
  | own p n =>
    cases p with
    | director => obtain ⟨⟨l', g'⟩, hx, rfl⟩ := Option.map_eq_some_iff.mp h; exact .director hx
    | dispenser => obtain ⟨⟨l', g'⟩, hx, rfl⟩ := Option.map_eq_some_iff.mp h; exact .dispenser hx
    | operator w => obtain ⟨⟨l', g'⟩, hx, rfl⟩ := Option.map_eq_some_iff.mp h; exact .operator w hx
    | user u => obtain ⟨⟨l', g'⟩, hx, rfl⟩ := Option.map_eq_some_iff.mp h; exact .user u hx
  | deliver p sigs =>
    simp only [step] at h
    split at h
    · rename_i hsigs
      obtain rfl := Option.some.inj h
      exact .deliver p sigs hsigs.2.2.1 hsigs.1 hsigs.2.2.2
    · cases h
  | interrupt term => obtain rfl := Option.some.inj h; exact .interrupt term
  | tick ns => obtain rfl := Option.some.inj h; exact .tick ns

/-- A delivery ends no process. -/
theorem State.exited_deliverTo (s : State c) (sigs : List Signal) (p q : c.Proc) :
    (s.deliverTo sigs p).exited q = s.exited q := by
  cases q with
  | director => simp only [exited, deliverTo_director]; split <;> simp [Task.exited_deliver]
  | dispenser => simp only [exited, deliverTo_dispenser]; split <;> simp [Task.exited_deliver]
  | operator w => simp only [exited, deliverTo_operators]; split <;> simp [Task.exited_deliver]
  | user u => simp only [exited, deliverTo_users]; split <;> simp [Task.exited_deliver]

/-- Signals are delivered to the living only. -/
theorem State.ne_of_exited_deliverTo {s : State c} {sigs : List Signal} {p q : c.Proc}
    (hp : s.exited p = false) (hq : (s.deliverTo sigs p).exited q = true) :
    p ≠ q ∧ s.exited q = true := by
  have hold : s.exited q = true := (s.exited_deliverTo sigs p q).symm.trans hq
  exact ⟨fun he => Bool.false_ne_true (hp.symm.trans (he ▸ hold)), hold⟩

/-- A terminated process stays terminated. -/
theorem State.StepOf.exited {s s' : State c} {a : Act c} {p : c.Proc} (h : s.StepOf a s')
    (hx : s.exited p = true) : s'.exited p = true := by
  cases h with
  | director hstep =>
    cases p with
    | director => simp [Director.step, show s.director.exited = true from hx] at hstep
    | dispenser | operator w | user u => exact hx
  | dispenser hstep =>
    cases p with
    | dispenser => simp [Dispenser.step, show s.dispenser.exited = true from hx] at hstep
    | director | operator w | user u => exact hx
  | operator w hstep =>
    cases p with
    | operator v =>
      have hne : v ≠ w := fun he => by
        subst he
        simp [Operator.step, show (s.operators v).exited = true from hx] at hstep
      simpa [State.exited, hne] using hx
    | director | dispenser | user u => exact hx
  | user u hstep =>
    cases p with
    | user v =>
      have hne : v ≠ u := fun he => by
        subst he
        simp [User.step, show (s.users v).exited = true from hx] at hstep
      simpa [State.exited, hne] using hx
    | director | dispenser | operator w => exact hx
  | deliver q sigs => exact (s.exited_deliverTo sigs q p).trans hx
  | interrupt term | tick ns => cases p <;> exact hx

/-- A predicate that holds at the start and that every move preserves holds in every reachable
    state. -/
theorem Reachable.invariant {I : State c → Prop} (h0 : I (State.init c))
    (hstep : ∀ s s', Reachable s → I s → s.Move s' → I s') {s : State c} (h : Reachable s) : I s :=
  Transition.ReachBy.invariant h0
    (fun _ _ _ hr hi _ hs => hstep _ _ hr hi (step_moveBy hs fun _ _ _ => trivial)) h

/-- The same for a state and those that come after it. -/
theorem Reachable.since {r : State c} (hr : Reachable r) {I : State c → Prop} (h0 : I r)
    (hstep : ∀ s s', Reachable s → I s → s.Move s' → I s') {s : State c}
    (h : Transition.Reach step r s) : I s :=
  Transition.ReachBy.invariant h0
    (fun _ _ _ ht hi _ hs => hstep _ _ (hr.trans ht) hi (step_moveBy hs fun _ _ _ => trivial)) h

/-- The same over the runs whose signal deliveries satisfy `D`. -/
theorem ReachableBy.invariant {D : State c → c.Proc → List Signal → Prop} {I : State c → Prop}
    (h0 : I (State.init c)) (hstep : ∀ s s', Reachable s → I s → State.MoveBy (D s) s s' → I s')
    {s : State c} (h : ReachableBy (Delivers D) s) : I s :=
  Transition.ReachBy.invariant h0
    (fun _ _ _ hr hi hok hs => hstep _ _ hr.reach hi (step_moveBy hs hok)) h

/-- The rule for a condition on any steps: a predicate that holds at the start and that every
    allowed step preserves holds in every state reached by allowed steps. -/
theorem ReachableBy.induct {ok : State c → Act c → Prop} {I : State c → Prop}
    (h0 : I (State.init c))
    (hstep : ∀ s a s', ReachableBy ok s → I s → ok s a → s.StepOf a s' → I s') {s : State c}
    (h : ReachableBy ok s) : I s :=
  Transition.ReachBy.invariant h0
    (fun _ _ _ hr hi hok hs => hstep _ _ _ hr hi hok (step_stepOf hs)) h

end PostOffice
