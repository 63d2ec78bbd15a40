import PostOffice.Termination

/-! The announcements. `wait_for_initialization` counts `INIT` messages as the barrier of the day
    counts `DAY_FINISHED`: each child sends one, so when as many have come as there are children,
    every child has sent its own and none is left in the queue.

        INIT messages + those received = children that have announced themselves -/

namespace PostOffice

/-- `INIT` by the process. -/
def Event.isInit {workers users : ℕ} (p : Proc workers users) : Event workers users → Bool
  | .init q => q = p
  | _ => false

/-- A director message of the kind. -/
def Message.isOfKind (kind : DirectorMessageKind) : Message → Bool
  | .director m => m.kind = kind
  | _ => false

@[simp] theorem Message.isOfKind_director (kind : DirectorMessageKind) (m : DirectorMessage) :
    Message.isOfKind kind (.director m) = decide (m.kind = kind) := rfl

variable {c : Setup}

/-- How many `INIT` the process has sent. -/
def Shared.announced (g : Shared c) (p : c.Proc) : ℕ := g.hist.countP (Event.isInit p)

/-- Nobody announces another process. -/
theorem Logs.announced_eq {p q : c.Proc} {g g' : Shared c} (h : Logs p g g') (hq : q ≠ p) :
    g'.announced q = g.announced q := by
  refine h.countP_eq ?_
  intro e he
  cases e with
  | init r => simpa [Event.isInit] using fun hr : r = q => hq (hr ▸ he)
  | _ => rfl

/-! ### The moves -/

namespace Director

variable {pc pc' : DirPc c.nofWorkerSeats c.nofWorkers c.nofUsers} {v v' : DirVars}
  {g g' : Shared c}

/-- `received` of the loop the director is in for messages of the kind. -/
def receivedOf (kind : DirectorMessageKind)
    (pc : DirPc c.nofWorkerSeats c.nofWorkers c.nofUsers) (received : ℕ) : ℕ :=
  match kind, pc with
  | .init, .waitInit => received
  | .init, _ => c.nofWorkers + c.nofUsers + 1
  | .dayFinished, .waitDayEnd => received
  | .dayFinished, _ => 0

/-- Each `INIT` message that leaves the queue is counted. -/
theorem Move.initMessages (h : Move pc v g pc' v' g')
    (hend : pc = .waitDayEnd → g.msgs.countP (Message.isOfKind .init) = 0)
    (hrecv : pc = .waitInit → v.received < c.nofWorkers + c.nofUsers + 1) :
    g'.msgs.countP (Message.isOfKind .init) + receivedOf .init pc' v'.received =
        g.msgs.countP (Message.isOfKind .init) + receivedOf .init pc v.received ∧
      (pc' = .waitInit → v'.received < c.nofWorkers + c.nofUsers + 1) := by
  cases h with
  | stay => exact ⟨rfl, hrecv⟩
  | initOther hm hk hr | initMore hm hk hr =>
    have hcount := Mailbox.countP_eraseP (Message.isOfKind .init) hm
    simp only [Message.isOfKind_director, hk, decide_true, decide_false, if_true,
      Bool.false_eq_true, if_false] at hcount
    refine ⟨?_, fun _ => hr⟩
    simp only [receivedOf, Shared.received_msgs]
    omega
  | @initLast _ _ _ m hm hv hr =>
    have hcount := Mailbox.countP_eraseP (Message.isOfKind .init) hm
    have hlt := hrecv rfl
    by_cases hk : m.kind = .init
    · simp only [Message.isOfKind_director, hk, decide_true, if_true] at hcount hv
      refine ⟨?_, by simp⟩
      simp only [receivedOf, Shared.received_msgs]
      rw [hv] at hr
      simp only at hr
      omega
    · rw [hv, if_neg hk] at hr
      exact absurd hlt (Nat.not_lt.mpr hr)
  | dayEndOther hm hk hr | dayEndMore hm hk hr | dayEndLast hm hk hr =>
    have hcount := Mailbox.countP_eraseP (Message.isOfKind .init) hm
    have hzero := hend rfl
    refine ⟨?_, by simp⟩
    simp only [receivedOf, Shared.received_msgs]
    omega
  | flushReply => exact ⟨by simp [receivedOf, Message.isOfKind], by simp⟩
  | _ => exact ⟨rfl, by simp⟩

end Director

/-- Every director message has the director's type. -/
theorem isOfKind_of_mtype {mtype : ℤ} (h : mtype ≠ directorMtype) {kind : DirectorMessageKind}
    (m : Message) (hm : m.mtype = mtype) : m.isOfKind kind = false := by
  cases m with
  | director => exact absurd hm.symm h
  | ticket | userReply => rfl

theorem replyMtype_ne (u : Fin c.nofUsers) :
    userReplyBase + c.pid (.user u) ≠ directorMtype := by
  have := c.pid_pos (.user u)
  unfold userReplyBase directorMtype
  omega

theorem Operator.Move.announces {w : Fin c.nofWorkers} {l l' : Operator c} {g g' : Shared c}
    (h : Operator.Move w l g l' g') :
    g'.announced (.operator w) + ind ((view w l).inited = true) =
        g.announced (.operator w) + ind ((view w l').inited = true) ∧
      g'.msgs.countP (Message.isOfKind .init) + ind ((view w l).inited = true) =
        g.msgs.countP (Message.isOfKind .init) + ind ((view w l').inited = true) := by
  unfold Shared.announced
  have hview (x : Operator c) : view w x = x.pc.view (c.workerService w) := rfl
  cases h with
  | silent hf hv => rw [hv]; exact ⟨rfl, rfl⟩
  | acquire hf σ hm hl hσ hv | release hf σ hm hl hv => simp [hv]
  | init hf hpc hpc' | consume hf hpc hpc' | «begin» hf hpc hpc' | pop hf k t q hlen hq hpc hpc'
  | popEmpty hf k hlen hpc hpc' | serveStart hf k t m hpc hpc' | count hf k t n m hpc hpc'
  | reply hf k t hpc hpc' | pauseCount hf k hpc hpc' | pauseStats hf k hpc hpc'
  | raiseStop hf k hpc hpc' | finish hf hpc hpc' =>
    simp [hview, hpc, hpc', OpPc.view, OpView.idle, OpView.starting, OpView.running,
      OpView.seated, Event.isInit, Message.isOfKind]
  | takeToken hf hσ hv hv' | giveToken hf p hv hv' | dropToken hf hi p hv hv'
  | pass hf i hi hv hv' | sit hf i hi hv hv' | stand hf k hv hv' | dropSeat hf hi k hv hv'
  | takeJob hf hσ k hv hv' | dropJob hf hi k hv hv' =>
    simp [hv, hv', OpView.scanning, OpView.seated, OpView.running, OpView.starting,
      OpView.idle]

theorem Dispenser.Move.announces {pc pc' : DispPc c.nofWorkerSeats} {f : DispFlags}
    {g g' : Shared c} (h : Dispenser.Move pc f g pc' g') :
    g'.announced .dispenser + ind (pc.inited = true) =
        g.announced .dispenser + ind (pc'.inited = true) ∧
      g'.msgs.countP (Message.isOfKind .init) + ind (pc.inited = true) =
        g.msgs.countP (Message.isOfKind .init) + ind (pc'.inited = true) := by
  unfold Shared.announced
  cases h with
  | stay => exact ⟨rfl, rfl⟩
  | receive hm hs | receiveInvalid hm hs =>
    rw [Shared.countP_received hm (isOfKind_of_mtype (by decide))]
    exact ⟨rfl, rfl⟩
  | _ => simp [DispPc.inited, Event.isInit, Message.isOfKind]

theorem User.Move.announces {u : Fin c.nofUsers} {pc pc' : UserPc} {f : UserFlags}
    {g g' : Shared c} (h : User.Move u pc f g pc' g') :
    g'.announced (.user u) + ind (pc.inited = true) =
        g.announced (.user u) + ind (pc'.inited = true) ∧
      g'.msgs.countP (Message.isOfKind .init) + ind (pc.inited = true) =
        g.msgs.countP (Message.isOfKind .init) + ind (pc'.inited = true) := by
  unfold Shared.announced
  cases h with
  | silent hi => rw [hi]; exact ⟨rfl, rfl⟩
  | receive hm =>
    rw [Shared.countP_received hm (isOfKind_of_mtype (replyMtype_ne u))]
    exact ⟨rfl, rfl⟩
  | _ => simp [UserPc.inited, Event.isInit, Message.isOfKind]

/-! ### The invariant -/

namespace State

/-- How many children have announced themselves. -/
def inited (pc : DispPc c.nofWorkerSeats) (view : Fin c.nofWorkers → OpView c.nofWorkerSeats)
    (userPc : Fin c.nofUsers → UserPc) : ℕ :=
  ind (pc.inited = true) + Family.total (fun _ v => ind (v.inited = true)) view +
    Family.total (fun _ pc => ind (pc.inited = true)) userPc

/-- Who has announced itself, and what the director has received of it. -/
structure Announced (s : State c) : Prop where
  dispenser : s.g.announced .dispenser = ind (s.dispenser.pc.inited = true)
  operator : ∀ w, s.g.announced (.operator w) = ind ((s.view w).inited = true)
  user : ∀ u, s.g.announced (.user u) = ind ((s.userPc u).inited = true)
  received : s.director.pc = .waitInit →
    s.director.vars.received < c.nofWorkers + c.nofUsers + 1
  messages : s.g.msgs.countP (Message.isOfKind .init) +
    Director.receivedOf .init s.director.pc s.director.vars.received =
      inited s.dispenser.pc s.view s.userPc

namespace Announced

variable {s s' : State c}

/-- After `wait_for_initialization` every child has announced itself, and no announcement is left
    in the queue. -/
theorem all (hI : s.Announced) (hpc : s.director.pc ≠ .waitInit) :
    s.g.msgs.countP (Message.isOfKind .init) = 0 ∧ ∀ p, p ≠ .director → s.g.announced p = 1 := by
  have hrecv : Director.receivedOf .init s.director.pc s.director.vars.received =
      c.nofWorkers + c.nofUsers + 1 := by
    unfold Director.receivedOf
    split
    · exact absurd ‹_› hpc
    · rfl
    · contradiction
    · contradiction
  have hm := hI.messages
  have hd := ind_le_one (s.dispenser.pc.inited = true)
  have hw := Family.total_le_card (fun _ v => ind (v.inited = true)) s.view fun _ => ind_le_one _
  have hu := Family.total_le_card (fun _ pc => ind (pc.inited = true)) s.userPc
    fun _ => ind_le_one _
  rw [Fintype.card_fin] at hw hu
  unfold State.inited at hm
  refine ⟨by omega, fun p hp => ?_⟩
  cases p with
  | director => exact absurd rfl hp
  | dispenser => rw [hI.dispenser]; omega
  | operator w =>
    rw [hI.operator]
    exact Family.eq_of_card_mul_le (fun _ v => ind (v.inited = true)) s.view
      (fun _ => ind_le_one _) (by rw [Fintype.card_fin]; omega) w
  | user u =>
    rw [hI.user]
    exact Family.eq_of_card_mul_le (fun _ pc => ind (pc.inited = true)) s.userPc
      (fun _ => ind_le_one _) (by rw [Fintype.card_fin]; omega) u

end Announced

end State

namespace State.Announced

variable {s s' : State c}

theorem step (hI : s.Announced) (h : s.Move s') : s'.Announced := by
  obtain ⟨hd, hw, hu, hr, hm⟩ := hI
  have hall : s.director.pc = .waitDayEnd → s.g.msgs.countP (Message.isOfKind .init) = 0 :=
    fun hpc => (State.Announced.all ⟨hd, hw, hu, hr, hm⟩ (by simp [hpc])).1
  cases h with
  | director h =>
    obtain ⟨h1, h2⟩ := h.initMessages hall hr
    have hother (p : c.Proc) (hp : p ≠ .director) := h.logs.announced_eq hp
    exact ⟨(hother .dispenser (by simp)).trans hd,
      fun w => (hother (.operator w) (by simp)).trans (hw w),
      fun u => (hother (.user u) (by simp)).trans (hu u), h2, h1.trans hm⟩
  | @dispenser l' g' h hf =>
    obtain ⟨h1, h2⟩ := h.announces
    have hother (p : c.Proc) (hp : p ≠ .dispenser) := h.logs.announced_eq hp
    refine ⟨?_, fun w => (hother (.operator w) (by simp)).trans (hw w),
      fun u => (hother (.user u) (by simp)).trans (hu u), hr, ?_⟩
    · show g'.announced .dispenser = ind (l'.pc.inited = true)
      omega
    · show g'.msgs.countP _ + Director.receivedOf _ s.director.pc s.director.vars.received =
        inited l'.pc s.view s.userPc
      unfold inited at hm ⊢
      omega
  | @operator n l' g' w hstep h =>
    obtain ⟨h1, h2⟩ := h.announces
    have hother (p : c.Proc) (hp : p ≠ .operator w) := h.logs.announced_eq hp
    rw [State.view_eq] at h1 h2
    refine ⟨(hother .dispenser (by simp)).trans hd, fun v => ?_,
      fun u => (hother (.user u) (by simp)).trans (hu u), hr, ?_⟩
    · rw [State.view_setOperator]
      by_cases hv : v = w
      · subst hv
        have := hw v
        rw [Function.update_self]
        show g'.announced (.operator v) = ind ((Operator.view v l').inited = true)
        omega
      · rw [Function.update_of_ne hv]
        exact (hother (.operator v) (by simpa using hv)).trans (hw v)
    · have htotal := Family.total_update (fun _ v => ind (v.inited = true)) s.view w
        (Operator.view w l')
      rw [State.view_setOperator]
      show g'.msgs.countP _ + Director.receivedOf _ s.director.pc s.director.vars.received =
        inited s.dispenser.pc (Function.update s.view w (Operator.view w l')) s.userPc
      unfold inited at hm ⊢
      omega
  | @user l' g' u h hf =>
    obtain ⟨h1, h2⟩ := h.announces
    have hother (p : c.Proc) (hp : p ≠ .user u) := h.logs.announced_eq hp
    rw [State.userPc_eq] at h1 h2
    refine ⟨(hother .dispenser (by simp)).trans hd,
      fun w => (hother (.operator w) (by simp)).trans (hw w),
      fun v => ?_, hr, ?_⟩
    · rw [State.userPc_setUser]
      by_cases hv : v = u
      · subst hv
        have := hu v
        rw [Function.update_self]
        show g'.announced (.user v) = ind (l'.pc.inited = true)
        omega
      · rw [Function.update_of_ne hv]
        exact (hother (.user v) (by simpa using hv)).trans (hu v)
    · have htotal := Family.total_update (fun _ pc => ind (pc.inited = true)) s.userPc u l'.pc
      rw [State.userPc_setUser]
      show g'.msgs.countP _ + Director.receivedOf _ s.director.pc s.director.vars.received =
        inited s.dispenser.pc s.view (Function.update s.userPc u l'.pc)
      unfold inited at hm ⊢
      omega
  | deliver p sigs hp =>
    obtain ⟨b, hb⟩ := s.deliverTo_director_vars sigs p
    refine ⟨?_, ?_, ?_, ?_, ?_⟩
    · simpa [Shared.announced] using hd
    · intro w
      simpa [Shared.announced] using hw w
    · intro u
      simpa [Shared.announced] using hu u
    · simpa [hb] using hr
    · simpa [hb] using hm
  | interrupt sig hsig => exact ⟨hd, hw, hu, hr, hm⟩
  | tick ns => exact ⟨hd, hw, hu, hr, hm⟩

theorem init : (State.init c).Announced := by
  refine ⟨rfl, fun _ => rfl, fun _ => rfl, fun _ => Nat.succ_pos _, ?_⟩
  show 0 = inited _ _ _
  unfold inited
  rw [Family.total_eq_zero fun _ => by rfl, Family.total_eq_zero fun _ => by rfl]
  rfl

end State.Announced

theorem announced {s : State c} (h : Reachable s) : s.Announced :=
  h.invariant .init fun _ _ _ hI hm => hI.step hm

end PostOffice
