import PostOffice.Lib.TicketOffice
import PostOffice.Outstanding

/-! The post office is a ticket office. Its visible events, in the order they happen, are a run of
    the sequential machine of `Lib/TicketOffice.lean`, whatever the interleaving of the processes:

        requested      pushed       popped        flushed       replied
          ask           line         call         dismiss        reply

    The state of that machine is read off the queues, the hands of the processes and the messages
    (`State.Represents`); each step of a process is one event of it or none. -/

namespace PostOffice

open Transition TicketOffice

/-- The customers are the users' process ids, the clerks the operators. -/
abbrev Setup.Office (c : Setup) := TicketOffice.Office ℤ Service (Fin c.nofWorkers)

/-- The desk at which a process answers. -/
def Proc.desk {workers users : ℕ} : Proc workers users → Option (Desk (Fin workers))
  | .director => some .closing
  | .dispenser => some .door
  | .operator w => some (.clerk w)
  | .user _ => none

/-- What an event is to the customers. -/
def Event.label (c : Setup) : c.Event → Option (Label ℤ Service (Fin c.nofWorkers))
  | .requested u s => some (.ask (c.pid (.user u)) s)
  | .pushed s t _ => some (.line t.userPid s)
  | .popped w _ t => some (.call w t.userPid)
  | .flushed s t => some (.dismiss t.userPid s)
  | .replied p userPid status s =>
      p.desk.map fun d => .reply d userPid s (decide (status = .served))
  | _ => none

variable {c : Setup}

/-- The run of the office so far. -/
def Shared.labels (g : Shared c) : List (Label ℤ Service (Fin c.nofWorkers)) :=
  g.hist.filterMap (Event.label c)

theorem Shared.labels_log (g : Shared c) (e : c.Event) :
    (g.log e).labels = g.labels ++ (Event.label c e).toList := by
  rw [labels, labels, log_hist, List.filterMap_append]
  rfl

namespace State

/-- The office `o` is what the state `s` implements. -/
structure Represents (s : State c) (o : c.Office) : Prop where
  queues : ∀ q, (s.g.queues q).toList.map QueueTicket.userPid = o.queue q
  hands : ∀ w, (s.view w).hand.map QueueTicket.userPid = o.clerk w
  asking : ∀ u q, 0 < s.g.asking (c.pid (.user u)) q +
      ind (s.dispenser.pc.handles (c.pid (.user u)) q) → o.place (c.pid (.user u)) = .asking q
  flushing : ∀ p q, (p, q) ∈ s.director.pc.unanswered → o.place p = .dismissed q
  answered : ∀ u q, 0 < s.g.answering (c.pid (.user u)) q → o.place (c.pid (.user u)) = .away
  waiting : ∀ u, o.place (c.pid (.user u)) = .away ∨
    (o.place (c.pid (.user u))).service c.workerService = (s.userPc u).waiting ∨
    (s.users u).Leaving

/-- The events so far are a run of the office, and it leads to what the state implements. -/
def Simulates (s : State c) : Prop :=
  ∃ o : c.Office, exec (Office.step c.workerService) s.g.labels .opening = some o ∧
    o.WellFormed ∧ s.Represents o

@[simp] theorem userPc_setDirector (s : State c) (x : Director c × Shared c) :
    (s.setDirector x).userPc = s.userPc := rfl

@[simp] theorem userPc_setDispenser (s : State c) (x : Dispenser c × Shared c) :
    (s.setDispenser x).userPc = s.userPc := rfl

@[simp] theorem userPc_setOperator (s : State c) (w : Fin c.nofWorkers)
    (x : Operator c × Shared c) : (s.setOperator w x).userPc = s.userPc := rfl

namespace Represents

variable {s s' : State c} {o : c.Office}

/-- A step that no customer notices. -/
theorem silent (hR : s.Represents o)
    (hq : ∀ q, (s'.g.queues q).toList = (s.g.queues q).toList)
    (hh : ∀ w, (s'.view w).hand = (s.view w).hand)
    (ha : ∀ u q, s'.g.asking (c.pid (.user u)) q +
        ind (s'.dispenser.pc.handles (c.pid (.user u)) q) ≤
      s.g.asking (c.pid (.user u)) q + ind (s.dispenser.pc.handles (c.pid (.user u)) q))
    (hf : ∀ x ∈ s'.director.pc.unanswered, x ∈ s.director.pc.unanswered)
    (hn : ∀ u q, s'.g.answering (c.pid (.user u)) q ≤ s.g.answering (c.pid (.user u)) q)
    (hw : ∀ u, o.place (c.pid (.user u)) = .away ∨ (s'.users u).Leaving ∨
      (s'.userPc u).waiting = (s.userPc u).waiting ∧ ((s.users u).Leaving → (s'.users u).Leaving)) :
    s'.Represents o := by
  refine ⟨fun q => ?_, fun w => ?_, fun u q h => hR.asking u q (h.trans_le (ha u q)),
    fun p q h => hR.flushing p q (hf _ h), fun u q h => hR.answered u q (h.trans_le (hn u q)),
    fun u => ?_⟩
  · rw [hq, hR.queues]
  · rw [hh, hR.hands]
  · rcases hw u with haway | hleave | ⟨hwait, hleave⟩
    · exact .inl haway
    · exact .inr (.inr hleave)
    · rw [hwait]
      exact (hR.waiting u).imp_right (Or.imp_right hleave)

/-- One customer moves: it goes away, or stays with the service it asked for. -/
theorem waiting_move (hR : s.Represents o) {p : ℤ} {a b : Place Service (Fin c.nofWorkers)}
    (hp : o.place p = a)
    (hb : b = .away ∨ a ≠ .away ∧ b.service c.workerService = a.service c.workerService)
    (u : Fin c.nofUsers) : (o.move p b).place (c.pid (.user u)) = .away ∨
      ((o.move p b).place (c.pid (.user u))).service c.workerService = (s.userPc u).waiting ∨
      (s.users u).Leaving := by
  have hu := hR.waiting u
  by_cases he : c.pid (.user u) = p
  · rw [Office.move_place, he, Function.update_self]
    rw [he, hp] at hu
    exact hb.imp_right fun ⟨haway, hserv⟩ => hserv ▸ hu.resolve_left haway
  · rwa [Office.move_place, Function.update_of_ne he]

/-- A reply is sent: its customer goes away. -/
theorem answered_move (hR : s.Represents o) {p : ℤ} {status : UserReplyStatus} {x : Service}
    {u : Fin c.nofUsers} {q : Service} (h : 0 < (s.g.send (.userReply
      { mtype := userReplyBase + p, status := status, service := x })).answering
        (c.pid (.user u)) q) : (o.move p .away).place (c.pid (.user u)) = .away := by
  by_cases he : c.pid (.user u) = p
  · rw [he, Office.move_place, Function.update_self]
  · have hold : 0 < s.g.answering (c.pid (.user u)) q := by
      simpa [Message.answers, Ne.symm he] using h
    rw [Office.move_place, Function.update_of_ne he, hR.answered u q hold]

end Represents

namespace Simulates

variable {s s' : State c}

/-- A step without an event. -/
theorem stay (hI : s.Simulates) (hlab : s'.g.labels = s.g.labels)
    (hR : ∀ o, s.Represents o → s'.Represents o) : s'.Simulates := by
  obtain ⟨o, hrun, hwf, hrep⟩ := hI
  exact ⟨o, hlab ▸ hrun, hwf, hR o hrep⟩

/-- A step that is one event of the office. -/
theorem visible (hI : s.Simulates) {l : Label ℤ Service (Fin c.nofWorkers)}
    (hlab : s'.g.labels = s.g.labels ++ [l])
    (hstep : ∀ o : c.Office, o.WellFormed → s.Represents o →
      ∃ o', Office.step c.workerService o l = some o' ∧ s'.Represents o') : s'.Simulates := by
  obtain ⟨o, hrun, hwf, hrep⟩ := hI
  obtain ⟨o', ho, hrep'⟩ := hstep o hwf hrep
  refine ⟨o', ?_, hwf.step ho, hrep'⟩
  rw [hlab, exec_concat, hrun]
  exact ho

/-- The director takes a ticket off a queue. -/
theorem flushTake (hI : s.Simulates) {l' : Director c} {x : Service} {t : QueueTicket}
    {qu : ServiceQueue} (hqu : (s.g.queues x).toList = t :: qu.toList)
    (hpc' : l'.pc = .flushReply x t) :
    (s.setDirector (l', (s.g.setQueue x qu).log (.flushed x t))).Simulates := by
  refine hI.visible (l := .dismiss t.userPid x) ((s.g.setQueue x qu).labels_log _) fun o hwf hR => ?_
  have hqueue : o.queue x = t.userPid :: qu.toList.map QueueTicket.userPid := by
    rw [← hR.queues, hqu]
    rfl
  have hplace : o.place t.userPid = .queued x := (hwf.queued _ _).mp (by simp [hqueue])
  refine ⟨_, if_pos (by rw [hqueue]; rfl), ?_, hR.hands, fun u q h => ?_, fun p q h => ?_,
    fun u q h => ?_, fun u => ?_⟩
  · intro q
    by_cases hq : q = x
    · subst hq
      simp [hqueue]
    · simp [hq, hR.queues]
  · exact o.place_move (hR.asking u q h) hplace (by simp)
  · simp only [setDirector_director, hpc', DirPc.mem_unanswered_flushReply] at h
    simp [← h.1, h.2]
  · exact o.place_move (hR.answered u q h) hplace (by simp)
  · exact hR.waiting_move (b := .dismissed x) hplace (.inr ⟨by simp, rfl⟩) u

/-- The director answers the ticket it took. -/
theorem flushReply (hI : s.Simulates) {l' : Director c} {x : Service} {t : QueueTicket}
    (hpc : s.director.pc = .flushReply x t) (hpc' : l'.pc = .flushStatsLock x) :
    (s.setDirector (l', (s.g.send (.userReply
      { mtype := userReplyBase + t.userPid, status := .notServed, service := x })).log
        (.replied .director t.userPid .notServed x))).Simulates := by
  refine hI.visible (l := .reply .closing t.userPid x false) ?_ fun o hwf hR => ?_
  · exact (s.g.send _).labels_log _
  have hplace : o.place t.userPid = .dismissed x :=
    hR.flushing _ _ (by rw [hpc]; exact DirPc.mem_unanswered_flushReply.mpr ⟨rfl, rfl⟩)
  refine ⟨_, if_pos ⟨hplace, rfl⟩, hR.queues, hR.hands, fun u q h => ?_, fun p q h => ?_,
    fun u q h => ?_, fun u => ?_⟩
  · exact o.place_move (hR.asking u q (by simpa [Message.asks] using h)) hplace (by simp)
  · simp [hpc', DirPc.unanswered] at h
  · exact hR.answered_move h
  · exact hR.waiting_move hplace (.inl rfl) u

theorem director (hr : Reachable s) (hI : s.Simulates) {l' : Director c} {g' : Shared c}
    (hm : Director.Move s.director.pc s.director.vars s.g l'.pc l'.vars g') :
    (s.setDirector (l', g')).Simulates := by
  have hempty := (closing hr).emptied
  generalize hpc : s.director.pc = pc at hm hempty
  generalize hpc' : l'.pc = pc' at hm
  generalize s.director.vars = v at hm
  generalize l'.vars = v' at hm
  generalize hg : s.g = g at hm hempty
  cases hm with
  | flushTake hlen hqu => subst hg; exact hI.flushTake hqu hpc'
  | flushReply hroom => subst hg; exact hI.flushReply hpc hpc'
  | @resetQueueNext v g x hx | @resetQueueLast v g x hx =>
    subst hg
    refine hI.stay rfl fun o hR => hR.silent (fun q => ?_) (fun _ => rfl) (fun _ _ => le_rfl)
      (by rw [setDirector_director, hpc']; simp [DirPc.unanswered]) (fun _ _ => le_rfl)
      fun _ => .inr (.inr ⟨rfl, id⟩)
    by_cases hq : q = x
    · subst hq
      simp [serviceQueueReset, (RingBuffer.toList_eq_nil_iff _).mpr (hempty q rfl)]
    · simp [hq]
  | initOther hm | initMore hm | initLast hm | dayEndOther hm | dayEndMore hm | dayEndLast hm =>
    subst hg
    exact hI.stay rfl fun o hR => hR.silent (fun _ => rfl) (fun _ => rfl)
      (fun u q => Nat.add_le_add_right (Nat.le.intro (Shared.asking_received _ hm)) _)
      (by rw [setDirector_director, hpc']; simp [DirPc.unanswered])
      (fun u q => Nat.le.intro (Shared.answering_received _ hm)) fun _ => .inr (.inr ⟨rfl, id⟩)
  | stay =>
    subst hg
    exact hI.stay rfl fun o hR => hR.silent (fun _ => rfl) (fun _ => rfl) (fun _ _ => le_rfl)
      (by rw [setDirector_director, hpc', hpc]; exact fun _ h => h) (fun _ _ => le_rfl)
      fun _ => .inr (.inr ⟨rfl, id⟩)
  | assignInit | dayBrokenOff | printDaily | finalPrint =>
    subst hg
    exact hI.stay ((s.g.labels_log _).trans (List.append_nil _)) fun o hR =>
      hR.silent (fun _ => rfl) (fun _ => rfl) (fun _ _ => le_rfl)
        (by rw [setDirector_director, hpc']; simp [DirPc.unanswered]) (fun _ _ => le_rfl)
        fun _ => .inr (.inr ⟨rfl, id⟩)
  | _ =>
    subst hg
    exact hI.stay rfl fun o hR => hR.silent (fun _ => rfl) (fun _ => rfl) (fun _ _ => le_rfl)
      (by rw [setDirector_director, hpc']; simp [DirPc.unanswered]) (fun _ _ => le_rfl)
      fun _ => .inr (.inr ⟨rfl, id⟩)

/-! #### The dispenser -/

/-- The dispenser holds one request of a user, and no second one of it is on the way. -/
theorem asking_handled (hr : Reachable s) {u : Fin c.nofUsers} {q : Service}
    (hh : s.dispenser.pc.handles (c.pid (.user u)) q) :
    s.g.asking (c.pid (.user u)) q = 0 := by
  obtain ⟨r, -, -, hone⟩ := at_most_one hr u
  have hle := (hone q).trans (ind_le_one _)
  unfold outstanding unanswered at hle
  rw [ind_of hh] at hle
  omega

/-- The dispenser pushes a ticket. -/
theorem push (hr : Reachable s) (hI : s.Simulates) {l' : Dispenser c} {m : TicketMessage}
    {x : Service} {t : QueueTicket} {qu : ServiceQueue} (hpc : s.dispenser.pc = .push m x t)
    (hqu : qu.toList = (s.g.queues x).toList ++ [t]) (hpc' : l'.pc = .pushUnlock x) :
    (s.setDispenser (l', (s.g.setQueue x qu).log (.pushed x t s.g.currentDay))).Simulates := by
  refine hI.visible (l := .line t.userPid x) ((s.g.setQueue x qu).labels_log _) fun o hwf hR => ?_
  obtain ⟨u, _, rfl, hx⟩ := (genuine hr).hand m (some x) (by rw [hpc]; rfl)
  obtain rfl := Option.some.inj hx
  have hpid : t.userPid = c.pid (.user u) := ((genuine hr).stamped _ _ _ hpc).1
  have hh : s.dispenser.pc.handles (c.pid (.user u)) x := by rw [hpc]; rfl
  have hplace : o.place t.userPid = .asking x :=
    hpid ▸ hR.asking u x (by rw [ind_of hh]; omega)
  have hnone := asking_handled hr hh
  refine ⟨_, if_pos hplace, fun q => ?_, hR.hands, fun v q h => ?_, fun p q h => ?_,
    fun v q h => ?_, fun v => ?_⟩
  · by_cases hq : q = x
    · subst hq
      simp [hqu, hR.queues]
    · simp [hq, hR.queues]
  · have hold : 0 < s.g.asking (c.pid (.user v)) q := by
      simpa [hpc', DispPc.handles, DispPc.hand, ind] using h
    have hv := hR.asking v q (Nat.add_pos_left hold _)
    have hne : c.pid (.user v) ≠ t.userPid := fun he => by
      rw [he, hplace] at hv
      obtain rfl := Place.asking.inj hv
      rw [he, hpid] at hold
      omega
    simpa [hne] using hv
  · exact o.place_move (hR.flushing p q h) hplace (by simp)
  · exact o.place_move (hR.answered v q h) hplace (by simp)
  · exact hR.waiting_move (b := .queued x) hplace (.inr ⟨by simp, rfl⟩) v

/-- The dispenser turns a user away. -/
theorem refuseReply (hr : Reachable s) (hI : s.Simulates) {l' : Dispenser c} {m : TicketMessage}
    {x : Service} (hpc : s.dispenser.pc = .refuseReply m x) (hpc' : l'.pc = .mainTest) :
    (s.setDispenser (l', (s.g.send (.userReply
      { mtype := userReplyBase + m.userPid, status := .notServed, service := x })).log
        (.replied .dispenser m.userPid .notServed x))).Simulates := by
  refine hI.visible (l := .reply .door m.userPid x false) ?_ fun o hwf hR => ?_
  · exact (s.g.send _).labels_log _
  obtain ⟨u, _, rfl, hx⟩ := (genuine hr).hand m (some x) (by rw [hpc]; rfl)
  obtain rfl := Option.some.inj hx
  have hh : s.dispenser.pc.handles (c.pid (.user u)) x := by rw [hpc]; rfl
  have hplace := hR.asking u x (by rw [ind_of hh]; omega)
  have hnone := asking_handled hr hh
  refine ⟨_, if_pos ⟨hplace, rfl⟩, hR.queues, hR.hands, fun v q h => ?_, fun p q h => ?_,
    fun v q h => ?_, fun v => ?_⟩
  · have hold : 0 < s.g.asking (c.pid (.user v)) q := by
      simpa [hpc', DispPc.handles, DispPc.hand, ind, Message.asks] using h
    have hv := hR.asking v q (Nat.add_pos_left hold _)
    have hne : c.pid (.user v) ≠ c.pid (.user u) := fun he => by
      rw [he, hplace] at hv
      obtain rfl := Place.asking.inj hv
      rw [he] at hold
      omega
    simpa [Setup.request, hne] using hv
  · exact o.place_move (hR.flushing p q h) hplace (by simp)
  · exact hR.answered_move h
  · exact hR.waiting_move hplace (.inl rfl) v

theorem dispenser (hr : Reachable s) (hI : s.Simulates) {l' : Dispenser c} {g' : Shared c}
    (hm : Dispenser.Move s.dispenser.pc s.dispenser.vars s.g l'.pc g') :
    (s.setDispenser (l', g')).Simulates := by
  have hvalid (m) : s.dispenser.pc.hand ≠ some (m, none) := fun hx => by
    obtain ⟨_, _, _, h⟩ := (genuine hr).hand m none hx
    cases h
  generalize hpc : s.dispenser.pc = pc at hm hvalid
  generalize hpc' : l'.pc = pc' at hm
  cases hm with
  | push hpush hqu => exact push hr hI hpc hqu hpc'
  | refuseReply hroom => exact refuseReply hr hI hpc hpc'
  | invalidReply | invalidGiveUp => exact absurd rfl (hvalid _)
  | receive hm hs =>
    refine hI.stay rfl fun o hR => hR.silent (fun _ => rfl) (fun _ => rfl) (fun u q => ?_)
      (fun _ h => h) (fun u q => Nat.le.intro (Shared.answering_received _ hm)) fun _ => .inr (.inr ⟨rfl, id⟩)
    have hask := @Shared.asking_received c s.g (c.pid (.user u)) q _ _ hm
    simp [hpc, hpc', DispPc.handles, DispPc.hand, Message.asks, hs, ind] at hask ⊢
    omega
  | receiveInvalid hm hs =>
    obtain ⟨u, q, rfl⟩ := (genuine hr).messages _ (Mailbox.mem_of_find hm).1
    rw [Setup.request_service] at hs
    cases hs
  | refuseGiveUp ht =>
    refine hI.stay rfl fun o hR => hR.silent (fun _ => rfl) (fun _ => rfl) (fun u q => ?_)
      (fun _ h => h) (fun _ _ => le_rfl) fun _ => .inr (.inr ⟨rfl, id⟩)
    simp [hpc', DispPc.handles, DispPc.hand, ind]
  | init hroom =>
    refine hI.stay (((s.g.send _).labels_log _).trans (List.append_nil _)) fun o hR =>
      hR.silent (fun _ => rfl) (fun _ => rfl) (fun u q => ?_) (fun _ h => h)
        (fun u q => ?_) fun _ => .inr (.inr ⟨rfl, id⟩)
    · simp [hpc', DispPc.handles, DispPc.hand, ind, Message.asks]
    · simp [Message.answers]
  | _ =>
    refine hI.stay rfl fun o hR => hR.silent (fun _ => rfl) (fun _ => rfl) (fun u q => ?_)
      (fun _ h => h) (fun _ _ => le_rfl) fun _ => .inr (.inr ⟨rfl, id⟩)
    rw [setDispenser_dispenser, hpc', hpc]
    exact le_rfl

/-! #### The operators -/

/-- An operator pops a ticket: it has no other in its hands. -/
theorem pop (hr : Reachable s) (hI : s.Simulates) {w : Fin c.nofWorkers} {l' : Operator c}
    {k : Fin c.nofWorkerSeats} {t : QueueTicket} {qu : ServiceQueue}
    (hqu : (s.g.queues (c.workerService w)).toList = t :: qu.toList)
    (hpc : (s.operators w).pc = .popTake k) (hpc' : l'.pc = .popUnlock k t) :
    (s.setOperator w (l', (s.g.setQueue (c.workerService w) qu).log
      (.popped w (c.workerService w) t))).Simulates := by
  refine hI.visible (l := .call w t.userPid) ((s.g.setQueue _ qu).labels_log _) fun o hwf hR => ?_
  have hticket : 0 < t.userPid :=
    ((genuine hr).queued (c.workerService w) t (by rw [hqu]; exact List.mem_cons_self)).pos
  have hqueue : o.queue (c.workerService w) =
      t.userPid :: qu.toList.map QueueTicket.userPid := by
    rw [← hR.queues, hqu]
    rfl
  have hplace : o.place t.userPid = .queued (c.workerService w) :=
    (hwf.queued _ _).mp (by simp [hqueue])
  have hfree : o.clerk w = none := by
    rw [← hR.hands, ← view_eq, Operator.view, hpc]
    rfl
  refine ⟨_, if_pos ⟨by rw [hqueue]; rfl, hfree⟩, fun q => ?_, fun v => ?_, fun u q h => ?_,
    fun p q h => ?_, fun u q h => ?_, fun u => ?_⟩
  · by_cases hq : q = c.workerService w
    · subst hq
      simp [hqueue]
    · simp [hq, hR.queues]
  · rw [view_setOperator]
    by_cases hv : v = w
    · subst hv
      simp [Operator.view, hpc', OpPc.view, hticket]
    · simp [hv, hR.hands]
  · exact o.place_move (hR.asking u q h) hplace (by simp)
  · exact o.place_move (hR.flushing p q h) hplace (by simp)
  · exact o.place_move (hR.answered u q h) hplace (by simp)
  · exact hR.waiting_move (b := .called w) hplace (.inr ⟨by simp, rfl⟩) u

/-- An operator answers the user it has called. -/
theorem reply (hI : s.Simulates) {w : Fin c.nofWorkers} {l' : Operator c}
    {k : Fin c.nofWorkerSeats} {t : QueueTicket} (hpc : (s.operators w).pc = .serveReply k t)
    (hpc' : l'.pc = .afterTerminate k) :
    (s.setOperator w (l', (s.g.send (.userReply
      { mtype := userReplyBase + t.userPid, status := .served, service := c.workerService w })).log
        (.replied (.operator w) t.userPid .served (c.workerService w)))).Simulates := by
  refine hI.visible (l := .reply (.clerk w) t.userPid (c.workerService w) true) ?_
    fun o hwf hR => ?_
  · exact (s.g.send _).labels_log _
  have hclerk : o.clerk w = some t.userPid := by
    rw [← hR.hands, ← view_eq, Operator.view, hpc]
    rfl
  have hplace : o.place t.userPid = .called w := (hwf.called _ _).mp hclerk
  refine ⟨_, if_pos ⟨hclerk, rfl, rfl⟩, hR.queues, fun v => ?_, fun u q h => ?_,
    fun p q h => ?_, fun u q h => ?_, fun u => ?_⟩
  · rw [view_setOperator]
    by_cases hv : v = w
    · subst hv
      simp [Operator.view, hpc', OpPc.view, OpView.seated, OpView.running, OpView.starting,
        OpView.idle]
    · simp [hv, hR.hands]
  · exact o.place_move (hR.asking u q (by simpa [Message.asks] using h)) hplace (by simp)
  · exact o.place_move (hR.flushing p q h) hplace (by simp)
  · exact hR.answered_move h
  · exact hR.waiting_move hplace (.inl rfl) u

theorem operator (hr : Reachable s) (hI : s.Simulates) {w : Fin c.nofWorkers} {l' : Operator c}
    {g' : Shared c} (hm : Operator.Move w (s.operators w) s.g l' g') :
    (s.setOperator w (l', g')).Simulates := by
  have hview (x : Operator c) : Operator.view w x = x.pc.view (c.workerService w) := rfl
  have hhand (h : (Operator.view w l').hand = (s.view w).hand) (v : Fin c.nofWorkers) :
      ((s.setOperator w (l', g')).view v).hand = (s.view v).hand := by
    rw [view_setOperator]
    exact Family.update_of_eq OpView.hand h v
  have hquiet (hg : g'.labels = s.g.labels) (hq : ∀ q, (g'.queues q).toList = (s.g.queues q).toList)
      (hh : (Operator.view w l').hand = (s.view w).hand)
      (hn : ∀ u q, g'.answering (c.pid (.user u)) q ≤ s.g.answering (c.pid (.user u)) q) :
      (s.setOperator w (l', g')).Simulates :=
    hI.stay hg fun o hR => hR.silent hq (hhand hh)
      (fun u q => (congrArg (· + _) (hm.requests (c.pid_pos _) q).1).le) (fun _ h => h) hn
      fun _ => .inr (.inr ⟨rfl, id⟩)
  rw [← view_eq] at hhand hquiet
  cases hm with
  | pop hf k t qu hlen hqu hpc hpc' => exact pop hr hI hqu hpc hpc'
  | reply hf k t hpc hpc' hroom => exact reply hI hpc hpc'
  | silent hf hv => exact hquiet rfl (fun _ => rfl) (congrArg _ hv) fun _ _ => le_rfl
  | acquire hf σ hm hl hσ hv | release hf σ hm hl hv =>
    exact hquiet rfl (fun _ => rfl) (by rw [hv]) fun _ _ => le_rfl
  | init hf hpc hpc' | finish hf hpc hpc' =>
    refine hquiet (((s.g.send _).labels_log _).trans (List.append_nil _)) (fun _ => rfl) ?_
      fun u q => by simp [Message.answers]
    rw [hview, hview, hpc, hpc']
    rfl
  | «begin» hf hpc hpc' | popEmpty hf k hlen hpc hpc' | count hf k t n m hpc hpc' =>
    refine hquiet ((Shared.labels_log _ _).trans (List.append_nil _)) (fun _ => rfl) ?_
      fun _ _ => le_rfl
    rw [hview, hview, hpc, hpc']
    rfl
  | consume hf hpc hpc' | serveStart hf k t m hpc hpc' | pauseCount hf k hpc hpc'
  | pauseStats hf k hpc hpc' | raiseStop hf k hpc hpc' =>
    refine hquiet rfl (fun _ => rfl) ?_ fun _ _ => le_rfl
    rw [hview, hview, hpc, hpc']
    rfl
  | takeToken hf hσ hv hv' | giveToken hf p hv hv' | dropToken hf hi p hv hv'
  | pass hf i hi hv hv' | sit hf i hi hv hv' | stand hf k hv hv' | dropSeat hf hi k hv hv'
  | takeJob hf hσ k hv hv' | dropJob hf hi k hv hv' =>
    have hh : (Operator.view w l').hand = none := congrArg OpView.hand hv'
    exact hquiet rfl (fun _ => rfl) (hh.trans (congrArg OpView.hand hv).symm) fun _ _ => le_rfl

/-! #### The users -/

/-- A user asks when its last request is done with. -/
theorem request (hr : Reachable s) (hI : s.Simulates) {u : Fin c.nofUsers} {l' : User}
    {x : Service} (hpc : (s.users u).pc = .requestSend x) (hpc' : l'.pc = .requestWait x) :
    (s.setUser u (l', (s.g.send (.ticket (c.request u x))).log (.requested u x))).Simulates := by
  refine hI.visible (l := .ask (c.pid (.user u)) x) ?_ fun o hwf hR => ?_
  · exact (s.g.send _).labels_log _
  have hplace : o.place (c.pid (.user u)) = .away := by
    rcases hR.waiting u with h | h | h
    · exact h
    · rw [← userPc_eq, hpc] at h
      exact Place.service_eq_none.mp h
    · simp [User.Leaving, hpc] at h
  have hnone := (nothing_outstanding hr hpc).1
  have hpid (u v : Fin c.nofUsers) : c.pid (.user u) = c.pid (.user v) ↔ u = v :=
    c.pid_injective.eq_iff.trans (by simp)
  refine ⟨_, if_pos hplace, hR.queues, hR.hands, fun v q h => ?_, fun p q h => ?_,
    fun v q h => ?_, fun v => ?_⟩
  · by_cases hv : u = v
    · subst hv
      have hzero := hnone q
      simp only [outstanding, unanswered] at hzero
      by_cases hq : x = q
      · subst hq
        rw [Office.move_place, Function.update_self]
      · have hold : (s.g.send (.ticket (c.request u x))).asking (c.pid (.user u)) q =
            s.g.asking (c.pid (.user u)) q := by
          simp [Message.asks, hq]
        simp only [setUser_g, setUser_dispenser, Shared.asking_log, hold] at h
        omega
    · have hold : 0 < s.g.asking (c.pid (.user v)) q +
          ind (s.dispenser.pc.handles (c.pid (.user v)) q) := by
        simpa [Message.asks, Setup.request, hpid, hv] using h
      exact o.place_move (hR.asking v q hold) hplace (by simp)
  · exact o.place_move (hR.flushing p q h) hplace (by simp)
  · have hv : u ≠ v := by
      rintro rfl
      have hzero := hnone q
      simp only [outstanding] at hzero
      simp [Message.answers] at h
      omega
    have hold : 0 < s.g.answering (c.pid (.user v)) q := by simpa [Message.answers] using h
    rw [Office.move_place, Function.update_of_ne (mt (hpid v u).mp (Ne.symm hv))]
    exact hR.answered v q hold
  · by_cases hv : v = u
    · subst hv
      refine .inr (.inl ?_)
      simp [userPc_setUser, hpc', Place.service, UserPc.waiting]
    · rw [Office.move_place, Function.update_of_ne (mt (hpid v u).mp hv), userPc_setUser,
        Function.update_of_ne hv, setUser_users, Function.update_of_ne hv]
      exact hR.waiting v

theorem user (hr : Reachable s) (hI : s.Simulates) {n : ℕ} {u : Fin c.nofUsers} {l' : User}
    {g' : Shared c} (hstep : User.step u (s.users u) s.g n = some (l', g')) :
    (s.setUser u (l', g')).Simulates := by
  obtain ⟨hm, hterm⟩ := User.step_move hstep
  have hleave (hl : (s.users u).Leaving) : l'.Leaving := (User.step_leaving hstep hl).1
  -- What the step does to the others' business is nothing; `hown` is about `u` itself.
  have hquiet (hg : g'.labels = s.g.labels)
      (ha : ∀ v q, g'.asking (c.pid (.user v)) q ≤ s.g.asking (c.pid (.user v)) q)
      (hn : ∀ v q, g'.answering (c.pid (.user v)) q ≤ s.g.answering (c.pid (.user v)) q)
      (hown : ∀ o, s.Represents o → o.place (c.pid (.user u)) = .away ∨ l'.Leaving ∨
        l'.pc.waiting = (s.userPc u).waiting) : (s.setUser u (l', g')).Simulates := by
    refine hI.stay hg fun o hR => hR.silent (fun q => ?_) (fun _ => rfl)
      (fun v q => Nat.add_le_add_right (ha v q) _) (fun _ h => h) hn fun v => ?_
    · rw [setUser_g, hm.frame]
    · rw [userPc_setUser, setUser_users]
      by_cases hv : v = u
      · subst hv
        rw [Function.update_self, Function.update_self]
        exact (hown o hR).imp_right (Or.imp_right fun h => ⟨h, hleave⟩)
      · rw [Function.update_of_ne hv, Function.update_of_ne hv]
        exact .inr (.inr ⟨rfl, id⟩)
  rw [← userPc_eq] at hquiet
  generalize hpc : (s.users u).pc = pc at hm hquiet
  generalize hpc' : l'.pc = pc' at hm hquiet
  cases hm with
  | silent hi hw => exact hquiet rfl (fun _ _ => le_rfl) (fun _ _ => le_rfl) fun _ _ => .inr (.inr hw)
  | request hroom => exact request hr hI hpc hpc'
  | init hroom =>
    exact hquiet (((s.g.send _).labels_log _).trans (List.append_nil _))
      (fun v q => by simp [Message.asks]) (fun v q => by simp [Message.answers])
      fun _ _ => .inr (.inr rfl)
  | «begin» =>
    exact hquiet ((Shared.labels_log _ _).trans (List.append_nil _)) (fun _ _ => le_rfl)
      (fun _ _ => le_rfl) fun _ _ => .inr (.inr rfl)
  | giveUp ht =>
    exact hquiet rfl (fun _ _ => le_rfl) (fun _ _ => le_rfl) fun _ _ =>
      .inr (.inl (.inl ⟨hpc', hterm.trans ht⟩))
  | receive hm =>
    refine hquiet rfl (fun v q => Nat.le.intro (Shared.asking_received _ hm))
      (fun v q => Nat.le.intro (Shared.answering_received _ hm)) fun o hR => .inl ?_
    -- The reply it takes was in the queue: the office is done with it.
    obtain ⟨hmem, hmtype⟩ := Mailbox.mem_of_find hm
    obtain ⟨r, rfl, hr'⟩ := exists_reply (by simpa using hmtype)
    refine hR.answered u r.service (List.countP_pos_iff.mpr ⟨_, hmem, ?_⟩)
    simp [Message.answers, hr']

theorem step {a : Act c} (hr : Reachable s) (hI : s.Simulates) (h : s.StepOf a s') :
    s'.Simulates := by
  cases h with
  | director hstep => exact director hr hI (Director.step_move hstep)
  | dispenser hstep => exact dispenser hr hI (Dispenser.step_move hstep).1
  | operator w hstep => exact operator hr hI (Operator.step_move hstep)
  | user u hstep => exact user hr hI hstep
  | deliver p sigs hp =>
    refine hI.stay (by simp [Shared.labels]) fun o hR => hR.silent (fun q => by simp)
      (fun w => by simp) (fun u q => by simp [Shared.asking]) (fun x h => by simpa using h)
      (fun u q => by simp [Shared.answering]) fun u => .inr (.inr ⟨by simp, fun hl => ?_⟩)
    rw [deliverTo_users]
    split
    · exact hl.deliver sigs
    · exact hl
  | interrupt term | tick ns =>
    exact hI.stay rfl fun o hR => hR.silent (fun _ => rfl) (fun _ => rfl) (fun _ _ => le_rfl)
      (fun _ h => h) (fun _ _ => le_rfl) fun _ => .inr (.inr ⟨rfl, id⟩)

theorem init : (State.init c).Simulates := by
  refine ⟨.opening, rfl, .opening, fun q => ?_, fun w => rfl, fun u q h => ?_, fun p q h => ?_,
    fun u q h => rfl, fun u => .inl rfl⟩
  · simp [State.init, Shared.init, serviceQueueReset, Office.opening]
  · exact absurd h (lt_irrefl 0)
  · exact absurd h List.not_mem_nil

end Simulates

end State

/-- CORRECT: the post office refines the ticket office. In every reachable state of every
    interleaving, `stop_children` included, the visible events so far are a run of the sequential
    machine, each enabled in its turn, and the state the run leads to is the one that the queues,
    the processes' hands and the messages implement. -/
theorem events_are_ticket_office_run {s : State c} (h : Reachable s) :
    ∃ o : c.Office, exec (Office.step c.workerService) s.g.labels .opening = some o ∧
      o.WellFormed ∧ s.Represents o :=
  ReachableBy.induct (I := State.Simulates) .init (fun _ _ _ hr hI _ hs => hI.step hr hs) h

/-- In the small office the first user asks, lines up, is called and served. -/
theorem events_are_ticket_office_run_small : ∃ s : State smallOffice,
    exec step SmallOffice.evening (State.init smallOffice) = some s ∧
    s.g.labels = [.ask 103 0, .line 103 0, .call (0 : Fin 1) 103,
      .reply (.clerk (0 : Fin 1)) 103 0 true] ∧
    ∃ o : smallOffice.Office,
      exec (Office.step smallOffice.workerService) s.g.labels .opening = some o ∧
      o.WellFormed ∧ s.Represents o := by
  have hrun : ((exec step SmallOffice.evening (State.init smallOffice)).any fun s =>
      decide (s.g.labels = [.ask 103 0, .line 103 0, .call (0 : Fin 1) 103,
        .reply (.clerk (0 : Fin 1)) 103 0 true])) = true := by decide +kernel
  obtain ⟨s, hs, h⟩ := (Option.any_eq_true _ _).mp hrun
  exact ⟨s, hs, of_decide_eq_true h, events_are_ticket_office_run (reach_of_exec _ hs)⟩

end PostOffice
