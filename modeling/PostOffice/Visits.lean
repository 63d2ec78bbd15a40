import PostOffice.Lib.Journal
import PostOffice.Requests

/-! The visits of the users. A start signal makes a user begin one `run_day`, which sends at most one
    request, which the dispenser pushes at most once:

        SIGUSR1 to come ─▶ pending ─▶ day_started ─▶ run_day ─▶ ticket message ─▶ dispenser ─▶ pushed

    The director does not wait for the users at the end of a day. What is left in one of these
    places when the next day begins is taken for a part of that day. -/

namespace PostOffice

open Transition

namespace UserPc

/-- Inside `run_day`, before the request is sent. -/
def touring : UserPc → Bool
  | .drawGo | .drawService | .drawArrival _ | .arrive _ _ | .wakeTerminate _ _ | .wakeClosed _ _
  | .wakeActive _ _ | .goTerminate _ | .goClosed _ | .goActive _ | .requestSend _ => true
  | _ => false

/-- From the end of `wait_for_next_day` to the request. -/
def visiting : UserPc → Bool
  | .clearStarted | .clearClosed => true
  | pc => pc.touring

/-- The user has decided to go, and has no reply yet. -/
def out : UserPc → Bool
  | .drawGo => false
  | .requestWait _ => true
  | pc => pc.touring

theorem visiting_of_touring {pc : UserPc} (h : pc.touring = true) : pc.visiting = true := by
  cases pc <;> first | exact h | rfl

end UserPc

/-- The request the dispenser may still push. -/
def DispPc.bringing {seats : ℕ} : DispPc seats → Option (TicketMessage × Service)
  | .countLock m s | .countStats m s | .countUnlock m s | .testActive m s | .offered m s _
  | .queueLock m s | .queueActive m s | .queueFull m s | .stamp m s | .push m s _ => some (m, s)
  | _ => none

/-- From the new `CURRENT_DAY` to the `SIGUSR1` to user `u`. -/
def DirPc.preUser {seats workers users : ℕ} : DirPc seats workers users → Fin users → Bool
  | .resetLock, _ | .resetStats, _ | .resetUnlock, _ | .resetWorker _, _ | .assignInit, _
  | .assignLock _, _ | .assignWrite _, _ | .assignUnlock _, _ | .setJobs _, _ | .setFree _, _
  | .resetQueue _, _ | .activate, _ | .startWorkers _, _ => true
  | .startUsers i, u => i ≤ u
  | _, _ => false

namespace User

/-- The start signal is noticed and `day_started` not reset yet. -/
def Noticed (l : User) : Prop :=
  l.vars.dayStarted = true ∧ l.vars.terminateRequested = false ∧ l.pc ≠ .clearStarted

instance (l : User) : Decidable l.Noticed := inferInstanceAs (Decidable (_ ∧ _))

/-- The visits the user is bound to make. -/
def starts (l : User) : ℕ := ind l.Noticed + ind (l.pc.visiting = true)

theorem starts_of_visiting {l : User} (h : l.pc.visiting = true) : 1 ≤ l.starts := by
  rw [starts, ind_of h]
  exact Nat.le_add_left _ _

variable {c : Setup} {u : Fin c.nofUsers} {l l' : User} {g g' : Shared c}

/-- The user leaves `wait_for_next_day` with one of the flags raised that it tests. -/
def Headed (l : User) : Prop :=
  l.pc = .mainBreak → l.vars.dayStarted = true ∨ l.vars.terminateRequested = true

/-- What one step does to a visit: only the two resets change a flag, `run_day` begins at the second
    of them, only who draws less than its probability goes out, and no visit comes from nothing. -/
theorem step_visit {n : ℕ} (h : step u l g n = some (l', g')) (hl : l.Headed) :
    l'.Headed ∧ l'.starts ≤ l.starts ∧
      (l.pc.touring = true → l'.vars = l.vars) ∧
      (l'.pc.touring = true → l.pc.touring = true ∧ g' = g ∨
        l.pc = .clearClosed ∧ g' = g.log (.runDay (.user u) g.currentDay)) ∧
      (l'.pc.out = true → l.pc.out = true ∨ 0 < c.goProbability u) := by
  unfold step at h
  split at h
  · cases h
  unfold body at h
  cases hpc : l.pc <;> rw [hpc] at h <;> simp only at h
  case drawGo =>
    by_cases hgo : ((n % 100 : ℕ) : ℤ) ≥ c.goProbability u
    · rw [if_pos hgo] at h
      cases h
      simp [Headed, starts, Noticed, UserPc.touring, UserPc.visiting, UserPc.out, hpc]
    · rw [if_neg hgo] at h
      cases h
      have hpos : 0 < c.goProbability u := by omega
      simp [hpos, Headed, starts, Noticed, UserPc.touring, UserPc.visiting, hpc]
  case mainBreak =>
    split at h <;> cases h
    · simp_all [Headed, starts, Noticed, UserPc.touring, UserPc.visiting, UserPc.out]
    · have hstart := (hl hpc).resolve_right ‹_›
      simp_all [Headed, starts, Noticed, UserPc.touring, UserPc.visiting, UserPc.out]
  case done => cases h
  all_goals
    try simp only [Task.msgSend, Task.nanosleep, receiveReply] at h
    repeat' split at h
    all_goals cases h
    all_goals
      simp_all [Headed, starts, Noticed, UserPc.touring, UserPc.visiting, UserPc.out]

end User

/-! ### What is counted -/

/-- A ticket request of the user with this process id. -/
def Message.isRequestFrom (userPid : ℤ) : Message → Bool
  | .ticket m => m.userPid = userPid
  | _ => false

namespace Event

variable {workers users : ℕ}

/-- A request of that user is pushed while `CURRENT_DAY` is `day`. -/
def isPushFor (userPid : ℤ) (day : ℕ) : Event workers users → Bool
  | .pushed _ t d => t.userPid = userPid ∧ d = day
  | _ => false

/-- User `u` enters `run_day` or sends a request. -/
def isVisitOf (u : Fin users) : Event workers users → Bool
  | .runDay p _ => p = .user u
  | .requested v _ => v = u
  | _ => false

end Event

variable {c : Setup}

namespace Shared

variable (g : Shared c)

/-- The requests of the user in the message queue. -/
def tickets (userPid : ℤ) : ℕ := g.msgs.countP (Message.isRequestFrom userPid)

/-- The requests of the user pushed on the day. -/
def pushes (userPid : ℤ) (day : ℕ) : ℕ := g.hist.countP (Event.isPushFor userPid day)

/-- What the user has begun and asked for, in order. -/
def visits (u : Fin c.nofUsers) : List c.Event := g.hist.filter (Event.isVisitOf u)

/-- The last thing the user did was to send a request for `q`, from a `run_day` it began today. -/
def RequestedToday (u : Fin c.nofUsers) (q : Service) : Prop :=
  [.runDay (.user u) g.currentDay, .requested u q] <:+ g.visits u

variable {g} {m : Message} {p : ℤ}

@[simp] theorem tickets_send : (g.send m).tickets p =
    g.tickets p + if m.isRequestFrom p then 1 else 0 := by
  simp [tickets, List.countP_append]

@[simp] theorem tickets_log (e : c.Event) : (g.log e).tickets p = g.tickets p := rfl

@[simp] theorem tickets_setQueue (s : Service) (qu : ServiceQueue) :
    (g.setQueue s qu).tickets p = g.tickets p := rfl

theorem tickets_received {mtype : ℤ} (hm : g.firstOfType mtype = some m) :
    (g.received mtype).tickets p + (if m.isRequestFrom p then 1 else 0) = g.tickets p :=
  Mailbox.countP_eraseP _ hm

@[simp] theorem pushes_log {e : c.Event} {d : ℕ} : (g.log e).pushes p d =
    g.pushes p d + if e.isPushFor p d then 1 else 0 := by
  simp [pushes, List.countP_append]

theorem visits_log {e : c.Event} {u : Fin c.nofUsers} (h : e.isVisitOf u = false) :
    (g.log e).visits u = g.visits u := by
  simp [visits, h]

theorem visits_log_self {e : c.Event} {u : Fin c.nofUsers} (h : e.isVisitOf u = true) :
    (g.log e).visits u = g.visits u ++ [e] := by
  simp [visits, h]

/-- No request of the user is in the message queue. -/
theorem not_ticket {u : Fin c.nofUsers} (h : g.tickets (c.pid (.user u)) = 0) (q : Service) :
    Message.ticket (c.request u q) ∉ g.msgs := by
  intro hmem
  have hfrom := Mailbox.not_mem_of_countP h hmem
  simp [Message.isRequestFrom, Setup.request] at hfrom

@[simp] theorem pushes_send {d : ℕ} : (g.send m).pushes p d = g.pushes p d := rfl

@[simp] theorem pushes_setQueue {d : ℕ} (s : Service) (qu : ServiceQueue) :
    (g.setQueue s qu).pushes p d = g.pushes p d := rfl

end Shared

namespace Logs

variable {p : c.Proc} {g g' : Shared c}

/-- Only the dispenser pushes. -/
theorem countPushes_eq (h : Logs p g g') (hp : p ≠ .dispenser) (userPid : ℤ) (d : ℕ) :
    g'.pushes userPid d = g.pushes userPid d := by
  refine h.countP_eq ?_
  intro e he
  cases e with
  | pushed => exact absurd he.symm hp
  | _ => rfl

/-- Only the user itself visits. -/
theorem visits_eq (h : Logs p g g') {u : Fin c.nofUsers} (hp : p ≠ .user u) :
    g'.visits u = g.visits u := by
  obtain ⟨es, hes, hact⟩ := h
  have hnone : es.filter (Event.isVisitOf u) = [] := by
    refine List.filter_eq_nil_iff.mpr fun e he hv => hp ?_
    rw [← hact e he]
    cases e <;> simp [Event.isVisitOf, Event.actor] at hv ⊢ <;> exact hv
  rw [Shared.visits, hes, List.filter_append, hnone, List.append_nil]
  rfl

end Logs

/-! ### The moves -/

/-- The dispenser's local message is a request of that user that it may still push. -/
def DispPc.brings {seats : ℕ} (pc : DispPc seats) (userPid : ℤ) : Prop :=
  pc.bringing.map (fun x => x.1.userPid) = some userPid

instance {seats : ℕ} (pc : DispPc seats) (userPid : ℤ) : Decidable (pc.brings userPid) := by
  unfold DispPc.brings
  infer_instance

theorem DispPc.brings_of {seats : ℕ} {pc : DispPc seats} {u : Fin c.nofUsers} {q : Service}
    (h : pc.bringing = some (c.request u q, q)) : pc.brings (c.pid (.user u)) := by
  rw [DispPc.brings, h]
  rfl

section Moves

variable {g g' : Shared c}

/-- After `CURRENT_DAY` is set the director sends each user one start signal. -/
theorem Director.Move.userStart {pc pc' : DirPc c.nofWorkerSeats c.nofWorkers c.nofUsers}
    {v v' : DirVars} (h : Director.Move pc v g pc' v' g') (hpc : pc ≠ .setDay)
    (u : Fin c.nofUsers) :
    ind (pc'.preUser u = true) + ind (g'.pending (.user u) .usr1 = true) ≤
        ind (pc.preUser u = true) + ind (g.pending (.user u) .usr1 = true) := by
  cases h
  case setDay => exact absurd rfl hpc
  case startUsersNext i hi | startUsersLast i hi =>
    simp only [DirPc.preUser, decide_eq_true_eq, Shared.kill_pending, Fin.le_def,
      Function.update_apply]
    grind [ind]
  case startWorkersNext | startWorkersLast | stopWorkersNext | stopWorkersLast | stopUsersNext
      | stopUsersLast | termDispenser | termWorkersNext | termWorkersLast | termUsersNext
      | termUsersLast =>
    simp only [DirPc.preUser, Shared.kill_pending, Function.update_apply]
    grind [ind]
  all_goals exact le_rfl

theorem Director.Move.ofSetDay {pc' : DirPc c.nofWorkerSeats c.nofWorkers c.nofUsers}
    {v v' : DirVars} (h : Director.Move .setDay v g pc' v' g') :
    pc' = .setDay ∧ g' = g ∨ g' = { g with currentDay := v.day } := by
  cases h with
  | stay => exact .inl ⟨rfl, rfl⟩
  | setDay => exact .inr rfl

/-- The director sends no request. -/
theorem Director.Move.tickets_le {pc pc' : DirPc c.nofWorkerSeats c.nofWorkers c.nofUsers}
    {v v' : DirVars} (h : Director.Move pc v g pc' v' g') (p : ℤ) :
    g'.tickets p ≤ g.tickets p := by
  cases h with
  | initOther hm | initMore hm | initLast hm | dayEndOther hm | dayEndMore hm | dayEndLast hm =>
    exact Nat.le.intro (Shared.tickets_received hm)
  | flushReply => simp [Message.isRequestFrom]
  | _ => exact le_rfl

/-- An operator sends no request either. -/
theorem Operator.Move.tickets_eq {w : Fin c.nofWorkers} {l l' : Operator c}
    (h : Operator.Move w l g l' g') (p : ℤ) : g'.tickets p = g.tickets p := by
  cases h with
  | init | reply | finish => simp [Message.isRequestFrom]
  | _ => rfl

/-- The dispenser pushes on the day that is current. -/
theorem Dispenser.Move.pushes {pc pc' : DispPc c.nofWorkerSeats} {f : DispFlags}
    (h : Dispenser.Move pc f g pc' g') {d : ℕ} (hd : d ≠ g.currentDay) (p : ℤ) :
    g'.pushes p d = g.pushes p d := by
  cases h with
  | init | invalidReply | refuseReply => simp [Event.isPushFor]
  | push => simp [Event.isPushFor, hd.symm]
  | _ => rfl

/-- The dispenser takes a request off the queue of messages and pushes it at most once. -/
theorem Dispenser.Move.tickets_le {pc pc' : DispPc c.nofWorkerSeats} {f : DispFlags}
    (h : Dispenser.Move pc f g pc' g')
    (hstamped : ∀ m q t, pc = .push m q t → t.userPid = m.userPid) (p : ℤ) :
    g'.tickets p + ind (pc'.brings p) + g'.pushes p g.currentDay ≤
      g.tickets p + ind (pc.brings p) + g.pushes p g.currentDay := by
  cases h with
  | receive hm hs | receiveInvalid hm hs =>
    have h1 := @Shared.tickets_received c g _ p _ hm
    simp [DispPc.brings, DispPc.bringing, Message.isRequestFrom, ind] at h1 ⊢
    show _ + g.pushes p g.currentDay ≤ _
    omega
  | push hpush hqu =>
    rename_i m s t qu
    have ht := hstamped m s t rfl
    simp [DispPc.brings, DispPc.bringing, Event.isPushFor, ht, ind]
    omega
  | init | invalidReply | refuseReply =>
    simp [DispPc.brings, DispPc.bringing, Message.isRequestFrom, Event.isPushFor]
  | queueClosed | queueFull | testClosed | offeredNo | pushFail =>
    simp [DispPc.brings, DispPc.bringing]
  | _ => exact le_rfl

/-- What the dispenser may push it had before or has received. -/
theorem Dispenser.Move.bringing {pc pc' : DispPc c.nofWorkerSeats} {f : DispFlags}
    (h : Dispenser.Move pc f g pc' g') {m : TicketMessage} {q : Service}
    (hb : pc'.bringing = some (m, q)) :
    pc.bringing = some (m, q) ∨ Message.ticket m ∈ g.msgs := by
  cases h with
  | receive hm hs =>
    obtain ⟨rfl, rfl⟩ := Prod.mk.inj (Option.some.inj hb)
    exact .inr (Mailbox.mem_of_find hm).1
  | _ => first | exact .inl hb | cases hb

namespace User

variable {u : Fin c.nofUsers} {l l' : User}

/-- The others send no request of the user. -/
theorem Move.tickets_ne {pc pc' : UserPc} {f : UserFlags} (h : Move u pc f g pc' g') {p : ℤ}
    (hp : c.pid (.user u) ≠ p) : g'.tickets p ≤ g.tickets p := by
  cases h with
  | init => simp [Message.isRequestFrom]
  | request => simp [Message.isRequestFrom, hp]
  | receive hm => exact Nat.le.intro (Shared.tickets_received hm)
  | _ => exact le_rfl

/-- A visit becomes a request message or nothing. -/
theorem step_starts {n : ℕ} (h : step u l g n = some (l', g')) (hl : l.Headed) :
    l'.starts + g'.tickets (c.pid (.user u)) ≤ l.starts + g.tickets (c.pid (.user u)) := by
  obtain ⟨-, hstarts, hvars, -⟩ := step_visit h hl
  have hm := (step_move h).1
  generalize hpc : l.pc = pc at hm hvars
  generalize hpc' : l'.pc = pc' at hm
  generalize l.vars = f at hm
  cases hm with
  | request hroom =>
    have hsent : l'.starts + 1 = l.starts := by
      simp [starts, Noticed, hpc, hpc', hvars rfl, UserPc.visiting, UserPc.touring]
    simp [Message.isRequestFrom]
    omega
  | init => simpa [Message.isRequestFrom] using hstarts
  | receive hm =>
    have := Nat.le.intro (Shared.tickets_received (p := c.pid (.user u)) hm)
    omega
  | _ => exact Nat.add_le_add_right hstarts _

/-- A delivered start signal is one more visit to make. -/
theorem starts_deliver (l : User) (sigs : List Signal) :
    starts (l.deliver handleUserSignal sigs) ≤ l.starts + ind (.usr1 ∈ sigs) := by
  have hnoticed (h : Noticed (l.deliver handleUserSignal sigs)) : l.Noticed ∨ .usr1 ∈ sigs := by
    obtain ⟨hstart, hterm, hpc⟩ := h
    rw [Task.deliver_vars, foldl_handleUserSignal_dayStarted] at hstart
    rw [Task.deliver_vars, foldl_handleUserSignal] at hterm
    simp only [Bool.or_eq_true, Bool.or_eq_false_iff, decide_eq_true_eq,
      decide_eq_false_iff_not] at hstart hterm
    rcases hstart with (hstart | hstart) | hstart
    · exact .inl ⟨hstart, hterm.1, hpc⟩
    · exact .inr hstart
    · exact absurd hstart hterm.2
  unfold starts
  rw [Task.deliver_pc]
  by_cases h : Noticed (l.deliver handleUserSignal sigs)
  · rcases hnoticed h with h' | h' <;> rw [ind_of h, ind_of h'] <;> omega
  · rw [ind_of_not h]
    omega

theorem Headed.deliver (hl : l.Headed) (sigs : List Signal) :
    Headed (l.deliver handleUserSignal sigs) := by
  intro hpc
  rw [Task.deliver_vars, foldl_handleUserSignal, foldl_handleUserSignal_dayStarted]
  rcases hl hpc with h | h <;> simp [h]

end User

end Moves

/-! ### The invariant -/

namespace State

/-- The visits of the user that are to come today, under way or pushed today. -/
def visitsToday (s : State c) (u : Fin c.nofUsers) : ℕ :=
  ind (s.director.pc.preUser u = true) + ind (s.g.pending (.user u) .usr1 = true) +
    (s.users u).starts + s.g.tickets (c.pid (.user u)) +
    ind (s.dispenser.pc.brings (c.pid (.user u))) + s.g.pushes (c.pid (.user u)) s.g.currentDay

/-- Nothing is left of the user's earlier days: no start signal, no visit and no request that is
    still to be pushed. -/
def AtRest (s : State c) (u : Fin c.nofUsers) : Prop :=
  s.g.pending (.user u) .usr1 = false ∧ (s.users u).starts = 0 ∧
    s.g.tickets (c.pid (.user u)) = 0 ∧ ¬ s.dispenser.pc.brings (c.pid (.user u))

instance (s : State c) (u : Fin c.nofUsers) : Decidable (s.AtRest u) :=
  inferInstanceAs (Decidable (_ ∧ _))

/-- Where the visit of the day is. -/
structure Isolated (s : State c) (u : Fin c.nofUsers) : Prop where
  once : s.visitsToday u ≤ 1
  begun : (s.users u).pc.touring = true → [.runDay (.user u) s.g.currentDay] <:+ s.g.visits u
  asked : ∀ q, Message.ticket (c.request u q) ∈ s.g.msgs → s.g.RequestedToday u q
  brought : ∀ q, s.dispenser.pc.bringing = some (c.request u q, q) → s.g.RequestedToday u q

end State

/-- When the director begins a day, nothing is left of an earlier day of a user that may go out. -/
def DaysApart (s : State c) (a : Act c) : Prop :=
  a.owner = some .director → s.director.pc = .setDay →
    ∀ u, 0 < c.goProbability u → s.AtRest u

instance (s : State c) (a : Act c) : Decidable (DaysApart s a) :=
  inferInstanceAs (Decidable (_ → _ → _))

namespace State

variable {s s' : State c} {u : Fin c.nofUsers}

/-- Nothing is pushed on a day to come. -/
theorem pushes_to_come {s : State c} (h : Reachable s) {d : ℕ} (hd : s.g.currentDay < d) (p : ℤ) :
    s.g.pushes p d = 0 := by
  suffices hI : ∀ d, s.g.currentDay < d → s.g.pushes p d = 0 from hI d hd
  refine @Reachable.invariant c (fun s => ∀ d, s.g.currentDay < d → s.g.pushes p d = 0)
    (fun _ _ => rfl) (fun s s' hr hI hm d hd => ?_) s h
  cases hm with
  | @director l' g' hm =>
    have hle : s.g.currentDay ≤ g'.currentDay := by
      rcases hm.currentDay with heq | ⟨hpc, heq⟩
      · exact heq.ge
      · have hday := (barrier hr).day (by rw [hpc]; rfl)
        exact (Nat.le.intro hday.symm).trans heq.ge
    exact (hm.logs.countPushes_eq (by simp) p d).trans (hI d (hle.trans_lt hd))
  | dispenser hm hf =>
    rw [setDispenser_g, hm.frame] at hd
    exact (hm.pushes hd.ne' p).trans (hI d hd)
  | operator w hstep hm =>
    exact (hm.logs.countPushes_eq (by simp) p d).trans (hI d (by rw [hm.frame] at hd; exact hd))
  | user u hm hf =>
    exact (hm.logs.countPushes_eq (by simp) p d).trans (hI d (by rw [hm.frame] at hd; exact hd))
  | deliver q sigs hq =>
    rw [deliverTo_g] at hd ⊢
    exact hI d hd
  | interrupt sig hsig => exact hI d hd
  | tick ns => exact hI d hd

/-- A user leaves `wait_for_next_day` for a reason, and who goes out has a positive probability. -/
theorem headed_home {s : State c} (h : Reachable s) (u : Fin c.nofUsers) :
    (s.users u).Headed ∧ ((s.users u).pc.out = true → 0 < c.goProbability u) := by
  refine @ReachableBy.induct c _
    (fun s => (s.users u).Headed ∧ ((s.users u).pc.out = true → 0 < c.goProbability u))
    ⟨nofun, nofun⟩ (fun s a s' _ hI _ hs => ?_) s h
  cases hs with
  | @user n l' g' v hstep =>
    rw [setUser_users]
    by_cases hv : u = v
    · subst hv
      rw [Function.update_self]
      obtain ⟨hhead, -, -, -, hout⟩ := User.step_visit hstep hI.1
      exact ⟨hhead, fun ho => (hout ho).elim hI.2 id⟩
    · rw [Function.update_of_ne hv]
      exact hI
  | deliver p sigs =>
    rw [deliverTo_users]
    split
    · exact ⟨hI.1.deliver sigs, hI.2⟩
    · exact hI
  | _ => exact hI

/-- The director's steps: a new day starts from nothing. -/
theorem visitsToday_director {l' : Director c} {g' : Shared c} (hr : Reachable s)
    (hm : Director.Move s.director.pc s.director.vars s.g l'.pc l'.vars g')
    (hok : s.director.pc = .setDay → s.AtRest u) (hI : s.visitsToday u ≤ 1) :
    (s.setDirector (l', g')).visitsToday u ≤ 1 := by
  have hpush := hm.logs.countPushes_eq (by simp) (c.pid (.user u))
  have htickets := hm.tickets_le (c.pid (.user u))
  unfold visitsToday at hI ⊢
  simp only [setDirector_director, setDirector_g, setDirector_users, setDirector_dispenser]
  by_cases hpc : s.director.pc = .setDay
  · obtain ⟨hpend, hstarts, htick, hbrings⟩ := hok hpc
    have hday := (barrier hr).day (by rw [hpc]; rfl)
    rw [hpc] at hm hday
    rcases hm.ofSetDay with ⟨hpc', hg⟩ | hg
    · rw [hpc', hg, ← hpc]
      exact hI
    · have hnew : g'.pushes (c.pid (.user u)) g'.currentDay = 0 := by
        rw [hpush, hg]
        exact pushes_to_come hr (by rw [hday]; simp [DirPc.betweenDays]) _
      have hpend' : g'.pending (.user u) .usr1 = false := by rw [hg]; exact hpend
      have hone := ind_le_one (l'.pc.preUser u = true)
      rw [hnew, hstarts, hpend', ind_of_not hbrings, ind_of_not Bool.false_ne_true]
      omega
  · have hstart := hm.userStart hpc u
    have hcur : g'.currentDay = s.g.currentDay :=
      hm.currentDay.resolve_right fun h => hpc h.1
    rw [hcur, hpush]
    omega

theorem visitsToday_user {n : ℕ} {v : Fin c.nofUsers} {l' : User} {g' : Shared c}
    (hr : Reachable s) (hstep : User.step v (s.users v) s.g n = some (l', g')) :
    (s.setUser v (l', g')).visitsToday u ≤ s.visitsToday u := by
  have hm := (User.step_move hstep).1
  have hpush := hm.logs.countPushes_eq (by simp) (c.pid (.user u)) s.g.currentDay
  have hpend : g'.pending = s.g.pending := by rw [hm.frame]
  have hcur : g'.currentDay = s.g.currentDay := by rw [hm.frame]
  unfold visitsToday
  simp only [setUser_director, setUser_g, setUser_users, setUser_dispenser, hpend, hcur, hpush]
  by_cases hv : u = v
  · subst hv
    have hstarts := User.step_starts hstep (headed_home hr u).1
    rw [Function.update_self]
    omega
  · have hpid : c.pid (.user v) ≠ c.pid (.user u) := fun h =>
      hv (by simpa using (c.pid_injective h).symm)
    have htickets := hm.tickets_ne hpid
    rw [Function.update_of_ne hv]
    omega

theorem visitsToday_deliver {p : c.Proc} {sigs : List Signal}
    (hp : ∀ sig ∈ sigs, s.g.pending p sig = true) :
    (s.deliverTo sigs p).visitsToday u ≤ s.visitsToday u := by
  unfold visitsToday
  rw [deliverTo_director_pc, deliverTo_dispenser_pc, deliverTo_users, deliverTo_g]
  by_cases hpu : p = .user u
  · subst hpu
    have hstarts := User.starts_deliver (s.users u) sigs
    have hpend : ind ((s.g.delivered (.user u) sigs).pending (.user u) .usr1 = true) +
        ind (Signal.usr1 ∈ sigs) ≤ ind (s.g.pending (.user u) .usr1 = true) := by
      by_cases hu : Signal.usr1 ∈ sigs
      · simp [hu, hp .usr1 hu]
      · simp [hu]
    rw [if_pos rfl]
    show _ + _ + _ + s.g.tickets _ + _ + s.g.pushes _ s.g.currentDay ≤ _
    omega
  · have hpend : (s.g.delivered p sigs).pending (.user u) .usr1 = s.g.pending (.user u) .usr1 := by
      simp [Ne.symm hpu]
    rw [if_neg hpu, hpend]
    exact le_rfl

/-- A user is bound to at most one visit each day. -/
theorem visitsToday_step {a : Act c} (hr : Reachable s) (hs : s.StepOf a s')
    (hok : DaysApart s a) (hu : 0 < c.goProbability u) (hI : s.visitsToday u ≤ 1) :
    s'.visitsToday u ≤ 1 := by
  cases hs with
  | director hstep =>
    exact visitsToday_director hr (Director.step_move hstep) (fun hpc => hok rfl hpc u hu) hI
  | @dispenser n l' g' hstep =>
    have hm := (Dispenser.step_move hstep).1
    have hle := hm.tickets_le (fun m q t h => ((genuine hr).stamped m q t h).1) (c.pid (.user u))
    have hpend : g'.pending = s.g.pending := by rw [hm.frame]
    have hcur : g'.currentDay = s.g.currentDay := by rw [hm.frame]
    unfold visitsToday at hI ⊢
    simp only [setDispenser_director, setDispenser_g, setDispenser_users, setDispenser_dispenser,
      hpend, hcur]
    omega
  | @operator n l' g' w hstep =>
    have hm := Operator.step_move hstep
    have hpush := hm.logs.countPushes_eq (by simp) (c.pid (.user u)) s.g.currentDay
    have hpend : g'.pending = s.g.pending := by rw [hm.frame]
    have hcur : g'.currentDay = s.g.currentDay := by rw [hm.frame]
    unfold visitsToday at hI ⊢
    simp only [setOperator_director, setOperator_g, setOperator_users, setOperator_dispenser,
      hpend, hcur, hpush, hm.tickets_eq]
    exact hI
  | user v hstep => exact (visitsToday_user hr hstep).trans hI
  | deliver p sigs hp => exact (visitsToday_deliver hp).trans hI
  | interrupt term =>
    have hpend : (s.g.kill .director (if term then .term else .int)).pending (.user u) .usr1 =
        s.g.pending (.user u) .usr1 := by simp
    unfold visitsToday at hI ⊢
    simp only [setG_director, setG_g, setG_users, setG_dispenser, hpend]
    exact hI
  | tick ns => exact hI

namespace Isolated

/-- A step that adds nothing to the user's visit. -/
theorem frame (hI : s.Isolated u) (honce : s'.visitsToday u ≤ 1)
    (hcur : s'.g.currentDay = s.g.currentDay) (hvis : s'.g.visits u = s.g.visits u)
    (htour : (s'.users u).pc.touring = true → (s.users u).pc.touring = true)
    (hmsg : ∀ q, Message.ticket (c.request u q) ∈ s'.g.msgs →
      Message.ticket (c.request u q) ∈ s.g.msgs)
    (hbring : s'.dispenser.pc.bringing = s.dispenser.pc.bringing) : s'.Isolated u := by
  refine ⟨honce, fun ht => ?_, fun q hq => ?_, fun q hq => ?_⟩
  · rw [hcur, hvis]
    exact hI.begun (htour ht)
  · rw [Shared.RequestedToday, hcur, hvis]
    exact hI.asked q (hmsg q hq)
  · rw [Shared.RequestedToday, hcur, hvis]
    exact hI.brought q (hbring ▸ hq)

/-- During a visit nothing is asked for yet. -/
theorem nothing_asked (hI : s.Isolated u) (hv : (s.users u).pc.visiting = true) :
    s.g.tickets (c.pid (.user u)) = 0 ∧ ¬ s.dispenser.pc.brings (c.pid (.user u)) := by
  have honce := hI.once
  have hstarts := User.starts_of_visiting hv
  unfold visitsToday at honce
  refine ⟨by omega, fun hb => ?_⟩
  rw [ind_of hb] at honce
  omega

theorem director {l' : Director c} {g' : Shared c} (hI : s.Isolated u)
    (hm : Director.Move s.director.pc s.director.vars s.g l'.pc l'.vars g')
    (hok : s.director.pc = .setDay → s.AtRest u)
    (honce : (s.setDirector (l', g')).visitsToday u ≤ 1) :
    (s.setDirector (l', g')).Isolated u := by
  by_cases hpc : s.director.pc = .setDay
  · obtain ⟨-, hstarts, htickets, hbrings⟩ := hok hpc
    have hmsgs : g'.msgs = s.g.msgs := by
      rw [hpc] at hm
      rcases hm.ofSetDay with ⟨-, hg⟩ | hg <;> rw [hg]
    refine ⟨honce, fun ht => ?_, fun q hq => ?_, fun q hq => ?_⟩
    · have := User.starts_of_visiting (UserPc.visiting_of_touring ht)
      exact absurd (hstarts ▸ this) (by simp)
    · rw [setDirector_g, hmsgs] at hq
      exact absurd hq (Shared.not_ticket htickets q)
    · exact absurd (DispPc.brings_of hq) hbrings
  · exact hI.frame honce (hm.currentDay.resolve_right fun h => hpc h.1)
      (hm.logs.visits_eq (by simp)) id (fun q hq => hm.ticket hq) rfl

theorem dispenser {l' : Dispenser c} {g' : Shared c} (hI : s.Isolated u)
    (hm : Dispenser.Move s.dispenser.pc s.dispenser.vars s.g l'.pc g')
    (honce : (s.setDispenser (l', g')).visitsToday u ≤ 1) :
    (s.setDispenser (l', g')).Isolated u := by
  have hvis : g'.visits u = s.g.visits u := hm.logs.visits_eq (by simp)
  have hcur : g'.currentDay = s.g.currentDay := by rw [hm.frame]
  have hreq (q : Service) : g'.RequestedToday u q ↔ s.g.RequestedToday u q := by
    rw [Shared.RequestedToday, Shared.RequestedToday, hcur, hvis]
  refine ⟨honce, fun ht => ?_, fun q hq => (hreq q).mpr ?_, fun q hq => (hreq q).mpr ?_⟩
  · rw [setDispenser_g, hcur, hvis]
    exact hI.begun ht
  · exact hI.asked q (hm.ticket hq)
  · exact (hm.bringing hq).elim (hI.brought q) (hI.asked q)

theorem user {n : ℕ} {l' : User} {g' : Shared c} (hI : s.Isolated u)
    (hl : (s.users u).Headed) (hstep : User.step u (s.users u) s.g n = some (l', g'))
    (honce : (s.setUser u (l', g')).visitsToday u ≤ 1) : (s.setUser u (l', g')).Isolated u := by
  obtain ⟨-, -, -, htour, -⟩ := User.step_visit hstep hl
  have hm := (User.step_move hstep).1
  have hcur : g'.currentDay = s.g.currentDay := by rw [hm.frame]
  have hbegun : l'.pc.touring = true → [.runDay (.user u) s.g.currentDay] <:+ g'.visits u := by
    intro ht
    rcases htour ht with ⟨ht, rfl⟩ | ⟨-, rfl⟩
    · exact hI.begun ht
    · rw [Shared.visits_log_self (by simp [Event.isVisitOf])]
      exact List.suffix_append _ _
  have hreq (hvis : g'.visits u = s.g.visits u) (q : Service) :
      g'.RequestedToday u q ↔ s.g.RequestedToday u q := by
    rw [Shared.RequestedToday, Shared.RequestedToday, hcur, hvis]
  have hkeep (hvis : g'.visits u = s.g.visits u)
      (hmsg : ∀ q, Message.ticket (c.request u q) ∈ g'.msgs →
        Message.ticket (c.request u q) ∈ s.g.msgs) : (s.setUser u (l', g')).Isolated u := by
    refine ⟨honce, fun ht => ?_, fun q hq => (hreq hvis q).mpr (hI.asked q (hmsg q hq)),
      fun q hq => (hreq hvis q).mpr (hI.brought q hq)⟩
    rw [setUser_g, hcur]
    exact hbegun (by simpa using ht)
  generalize hpc : (s.users u).pc = pc at hm
  generalize hpc' : l'.pc = pc' at hm
  generalize (s.users u).vars = f at hm
  cases hm with
  | silent | giveUp => exact hkeep rfl fun q hq => hq
  | init =>
    exact hkeep (Shared.visits_log (by simp [Event.isVisitOf])) fun q hq =>
      Shared.ticket_send hq (by simp)
  | receive => exact hkeep rfl fun q hq => Shared.ticket_received hq
  | «begin» =>
    obtain ⟨htickets, hbrings⟩ := hI.nothing_asked (by rw [hpc]; rfl)
    refine ⟨honce, fun ht => hbegun (by simpa using ht), fun q hq => ?_, fun q hq => ?_⟩
    · exact absurd hq (Shared.not_ticket htickets q)
    · exact absurd (DispPc.brings_of hq) hbrings
  | @request _ _ r hroom =>
    have htouring : (s.users u).pc.touring = true := by rw [hpc]; rfl
    obtain ⟨htickets, hbrings⟩ := hI.nothing_asked (UserPc.visiting_of_touring htouring)
    refine ⟨honce, fun ht => hbegun (by simpa using ht), fun q hq => ?_, fun q hq => ?_⟩
    · -- The request it has just sent is the only one.
      have hq : c.request u q = c.request u r := by
        simp only [setUser_g, Shared.log_msgs, Shared.send_msgs, List.mem_append,
          List.mem_singleton] at hq
        exact Message.ticket.inj (hq.resolve_left (Shared.not_ticket htickets q))
      obtain rfl : q = r := by
        have := congrArg TicketMessage.service? hq
        simpa using this
      rw [setUser_g, Shared.RequestedToday, Shared.visits_log_self (by simp [Event.isVisitOf])]
      exact List.suffix_append_self_iff.mpr (hI.begun htouring)
    · exact absurd (DispPc.brings_of hq) hbrings

theorem step {a : Act c} (hr : Reachable s) (hu : 0 < c.goProbability u) (hI : s.Isolated u)
    (hok : DaysApart s a) (hs : s.StepOf a s') : s'.Isolated u := by
  have honce := visitsToday_step hr hs hok hu hI.once
  cases hs with
  | director hstep =>
    exact hI.director (Director.step_move hstep) (fun hpc => hok rfl hpc u hu) honce
  | dispenser hstep => exact hI.dispenser (Dispenser.step_move hstep).1 honce
  | @operator n l' g' w hstep =>
    have hm := Operator.step_move hstep
    exact hI.frame honce (by rw [setOperator_g, hm.frame]) (hm.logs.visits_eq (by simp)) id
      (fun q hq => hm.ticket hq) rfl
  | @user n l' g' v hstep =>
    by_cases hv : v = u
    · subst hv
      exact hI.user (headed_home hr v).1 hstep honce
    · have hm := (User.step_move hstep).1
      refine hI.frame honce (by rw [setUser_g, hm.frame]) (hm.logs.visits_eq (by simpa using hv))
        (fun ht => by simpa [Ne.symm hv] using ht) (fun q hq => ?_) rfl
      refine (hm.ticket hq).resolve_right ?_
      rintro ⟨r, hr⟩
      have hpid := c.pid_injective (congrArg TicketMessage.userPid hr)
      exact hv (by simpa using hpid.symm)
  | deliver p sigs =>
    exact hI.frame honce (by rw [deliverTo_g]; rfl) (by rw [deliverTo_g]; rfl)
      (fun ht => by simpa using ht) (fun q hq => by simpa using hq) (by simp)
  | interrupt term => exact hI.frame honce rfl rfl id (fun q hq => hq) rfl
  | tick ns => exact hI.frame honce rfl rfl id (fun q hq => hq) rfl

theorem init : (State.init c).Isolated u := by
  refine ⟨?_, nofun, nofun, nofun⟩
  simp [visitsToday, State.init, Shared.init, DirPc.preUser, User.starts, User.Noticed,
    UserPc.visiting, UserPc.touring, Shared.tickets, Shared.pushes, DispPc.brings, DispPc.bringing]

end Isolated

end State

/-! ### The pushes of a run -/

/-- A push while `CURRENT_DAY` is `d`: the user's last request comes from a `run_day` it began while
    `CURRENT_DAY` was `d`, it is for that service, and no other request of it was pushed that
    day. -/
def PushedOnItsDay (before : List c.Event) : c.Event → Prop
  | .pushed q t d => ∀ u, t.userPid = c.pid (.user u) →
      [.runDay (.user u) d, .requested u q] <:+ before.filter (Event.isVisitOf u) ∧
        before.countP (Event.isPushFor t.userPid d) = 0
  | _ => True

theorem Logs.pushedOnItsDay {p : c.Proc} {g g' : Shared c} (h : Logs p g g') (hp : p ≠ .dispenser)
    (hI : Journal.Kept PushedOnItsDay g.hist) : Journal.Kept PushedOnItsDay g'.hist := by
  obtain ⟨es, hes, hact⟩ := h
  rw [hes]
  refine Journal.kept_append_list hI fun e he pre => ?_
  cases e with
  | pushed => exact absurd (hact _ he).symm hp
  | _ => trivial

theorem DirPc.closed_of_stopping {seats workers users : ℕ} {pc : DirPc seats workers users}
    (h : pc.stopping = true) (q : Service) : pc.closed q = true := by
  cases pc <;> simp [stopping, closed] at h ⊢

/-- A user whose request is about to be pushed is out. -/
theorem State.out_of_push {s : State c} (hr : Reachable s) {u : Fin c.nofUsers} {q r : Service}
    {t : QueueTicket} (hpc : s.dispenser.pc = .push (c.request u r) q t) :
    (s.users u).pc.out = true := by
  have hstop : s.director.pc.stopping = false := Bool.eq_false_iff.mpr fun h =>
    (closing hr).closed q (DirPc.closed_of_stopping h q) (by rw [hpc]; rfl)
  have hhandles : s.dispenser.pc.handles (c.pid (.user u)) q := by
    rw [hpc]
    rfl
  have hone := (requests hr hstop u q).1
  have hwaiting : (s.userPc u).waiting = some q := by
    by_contra hne
    rw [State.unanswered, ind_of hhandles, ind_of_not hne] at hone
    omega
  rw [← State.userPc_eq] at hwaiting
  generalize (s.users u).pc = pc at hwaiting ⊢
  cases pc <;> first | rfl | cases hwaiting

/-- A push by the dispenser, with every user that may go out isolated. -/
theorem Dispenser.Move.pushedOnItsDay {s : State c} {pc' : DispPc c.nofWorkerSeats} {g' : Shared c}
    (hr : Reachable s) (hm : Dispenser.Move s.dispenser.pc s.dispenser.vars s.g pc' g')
    (hiso : ∀ u, 0 < c.goProbability u → s.Isolated u)
    (hI : Journal.Kept PushedOnItsDay s.g.hist) : Journal.Kept PushedOnItsDay g'.hist := by
  generalize hpc : s.dispenser.pc = pc at hm
  cases hm with
  | push hpush hqu =>
    rename_i m q t qu
    refine Journal.kept_append hI fun u hu => ?_
    obtain ⟨v, r, rfl, hrq⟩ := (genuine hr).hand m (some q) (by rw [hpc]; rfl)
    obtain rfl := Option.some.inj hrq
    have ht : t.userPid = c.pid (.user v) := ((genuine hr).stamped _ q t hpc).1
    obtain rfl : v = u := by simpa using c.pid_injective (ht.symm.trans hu)
    have hv := hiso v ((State.headed_home hr v).2 (State.out_of_push hr hpc))
    have hbring : s.dispenser.pc.bringing = some (c.request v q, q) := by rw [hpc]; rfl
    refine ⟨hv.brought q hbring, ?_⟩
    have honce := hv.once
    rw [State.visitsToday, ind_of (DispPc.brings_of hbring)] at honce
    rw [ht]
    show s.g.pushes (c.pid (.user v)) s.g.currentDay = 0
    omega
  | init | invalidReply | refuseReply => exact Journal.kept_append hI trivial
  | _ => exact hI

/-- CORRECT: in a run in which every day begins with nothing left of the earlier days of the users
    that may go out, every request that is pushed while `CURRENT_DAY` is `d` comes from a `run_day`
    its user began while `CURRENT_DAY` was `d`, and is the only one of that user pushed that day. -/
theorem days_isolated {s : State c} (h : ReachableBy DaysApart s) :
    Journal.Kept PushedOnItsDay s.g.hist := by
  suffices hI : Journal.Kept PushedOnItsDay s.g.hist ∧
      ∀ u, 0 < c.goProbability u → s.Isolated u from hI.1
  refine ReachableBy.induct (I := fun s => Journal.Kept PushedOnItsDay s.g.hist ∧
      ∀ u, 0 < c.goProbability u → s.Isolated u) ⟨Journal.kept_nil, fun _ _ => .init⟩
    (fun s a s' hr hI hok hs => ⟨?_, fun u hu => (hI.2 u hu).step hr.reach hu hok hs⟩) h
  cases hs with
  | director hstep => exact (Director.step_move hstep).logs.pushedOnItsDay (by simp) hI.1
  | dispenser hstep => exact (Dispenser.step_move hstep).1.pushedOnItsDay hr.reach hI.2 hI.1
  | operator w hstep => exact (Operator.step_move hstep).logs.pushedOnItsDay (by simp) hI.1
  | user u hstep => exact (User.step_move hstep).1.logs.pushedOnItsDay (by simp) hI.1
  | deliver p sigs => rw [State.deliverTo_g]; exact hI.1
  | interrupt term | tick ns => exact hI.1

/-- What is pushed on its day is pushed once a day. -/
theorem pushes_le_one {l : List c.Event} (hl : Journal.Kept PushedOnItsDay l) (u : Fin c.nofUsers)
    (d : ℕ) : l.countP (Event.isPushFor (c.pid (.user u)) d) ≤ 1 := by
  induction l using List.reverseRecOn with
  | nil => exact Nat.zero_le _
  | append_singleton l e ih =>
    rw [List.countP_append, List.countP_singleton]
    split
    · rename_i he
      cases e with
      | pushed q t day =>
        obtain ⟨ht, rfl⟩ : t.userPid = c.pid (.user u) ∧ day = d := by
          simpa [Event.isPushFor] using he
        have hnone := (Journal.good_of_append hl u ht).2
        rw [ht] at hnone
        exact hnone ▸ le_rfl
      | _ => cases he
    · exact ih (Journal.kept_of_append hl)

/-- The first user is served on the first day and goes again on the second; the other user stays at
    home. -/
def SmallOffice.twoVisits : List (Act smallOffice) :=
  serving ++ own clerk 3 ++ own first 5 ++ signal second .usr1 ++ own second 5 ++
    [.own second 99] ++ own second 2 ++ own .director 6 ++ signal clerk .usr2 ++ own clerk 8 ++
    own .director 84 ++ signal first .usr1 ++ own first 14 ++ own .dispenser 15

/-- One push each day. -/
theorem days_isolated_small : ∃ s : State smallOffice,
    exec step SmallOffice.twoVisits (State.init smallOffice) = some s ∧
      s.g.pushes 103 1 = 1 ∧ s.g.pushes 103 2 = 1 ∧ Journal.Kept PushedOnItsDay s.g.hist := by
  have hrun : ((exec step SmallOffice.twoVisits (State.init smallOffice)).any fun s =>
      decide (s.g.pushes 103 1 = 1 ∧ s.g.pushes 103 2 = 1)) = true := by decide +kernel
  obtain ⟨s, hs, h⟩ := (Option.any_eq_true _ _).mp hrun
  obtain ⟨hfirst, hsecond⟩ := of_decide_eq_true h
  have hok : Allowed step DaysApart SmallOffice.twoVisits (State.init smallOffice) := by
    decide +kernel
  exact ⟨s, hs, hfirst, hsecond, days_isolated (ReachBy.of_exec _ .refl hs hok)⟩

/-- The first user's request of the first day is still in the message queue when the second day
    begins; it is pushed and served then, and the user goes once more. -/
def SmallOffice.carriedOver : List (Act smallOffice) :=
  arrival ++ own .director 6 ++ signal clerk .usr2 ++ own clerk 7 ++ own .director 84 ++
    own .dispenser 15 ++ signal clerk .usr1 ++ own clerk 30 ++ own first 2 ++
    signal first .usr1 ++ own first 14 ++ own .dispenser 15

/-- Two requests of the user are pushed on the second day. -/
theorem two_pushes_in_one_day : ∃ s : State smallOffice,
    exec step SmallOffice.carriedOver (State.init smallOffice) = some s ∧
      s.g.pushes 103 2 = 2 ∧ ¬ Journal.Kept PushedOnItsDay s.g.hist := by
  have hrun : ((exec step SmallOffice.carriedOver (State.init smallOffice)).any fun s =>
      decide (s.g.pushes 103 2 = 2)) = true := by decide +kernel
  obtain ⟨s, hs, h⟩ := (Option.any_eq_true _ _).mp hrun
  have htwo : s.g.pushes 103 2 = 2 := of_decide_eq_true h
  refine ⟨s, hs, htwo, fun hkept => ?_⟩
  have hone : s.g.pushes 103 2 ≤ 1 := pushes_le_one hkept (0 : Fin 2) 2
  omega

end PostOffice
