import Mathlib.Data.Fintype.BigOperators
import PostOffice.Visits

/-! Outstanding requests. A user asks again only after the reply, or not at all: told to terminate it
    may leave without the reply, but then it exits.

        requestSend ─▶ requestWait ─ reply ─▶ mainTest
                            └─── SIGTERM ───▶ mainTest ─▶ done

    So over the whole run, `stop_children` included, each user that may go out has at most one
    request or reply in the system, and only these users and the director are sent anything. -/

namespace PostOffice

variable {c : Setup}

/-- The user is about to exit, or has. -/
def User.Leaving (l : User) : Prop :=
  l.pc = .mainTest ∧ l.vars.terminateRequested = true ∨ l.pc = .done

/-- A user that leaves touches nothing and goes on leaving. -/
theorem User.step_leaving {u : Fin c.nofUsers} {l l' : User} {g g' : Shared c} {n : ℕ}
    (h : User.step u l g n = some (l', g')) (hl : l.Leaving) : l'.Leaving ∧ g' = g := by
  unfold step at h
  split at h
  · cases h
  unfold body at h
  rcases hl with ⟨hpc, hterm⟩ | hpc <;> rw [hpc] at h
  · rw [hterm] at h
    cases h
    exact ⟨.inr rfl, rfl⟩
  · cases h

theorem User.Leaving.deliver {l : User} (hl : l.Leaving) (sigs : List Signal) :
    User.Leaving (l.deliver handleUserSignal sigs) := by
  refine hl.imp_left fun ⟨hpc, hterm⟩ => ⟨hpc, ?_⟩
  rw [Task.deliver_vars, foldl_handleUserSignal, hterm]
  rfl

theorem User.waiting_of_not_out {pc : UserPc} (h : pc.out = false) : pc.waiting = none := by
  cases pc <;> first | rfl | cases h

namespace State

/-- The requests of user `u` for service `q` and the replies to them, wherever they are. -/
def outstanding (s : State c) (u : Fin c.nofUsers) (q : Service) : ℕ :=
  s.unanswered u q + s.g.answering (c.pid (.user u)) q

/-- User `u` has at most one request outstanding: the one it waits for, or one it has left behind. -/
def AtMostOne (s : State c) (u : Fin c.nofUsers) : Prop :=
  ∃ r : Option Service, (r = (s.userPc u).waiting ∨ (s.users u).Leaving) ∧
    (r ≠ none → 0 < c.goProbability u) ∧ ∀ q, s.outstanding u q ≤ ind (r = some q)

namespace AtMostOne

variable {s s' : State c} {u : Fin c.nofUsers}

/-- The other processes add nothing. -/
theorem mono (hI : s.AtMostOne u) (hu : s'.users u = s.users u)
    (hle : ∀ q, s'.outstanding u q ≤ s.outstanding u q) : s'.AtMostOne u := by
  obtain ⟨r, hr, hgo, hone⟩ := hI
  refine ⟨r, ?_, hgo, fun q => (hle q).trans (hone q)⟩
  rwa [userPc, hu]

/-- The user's own step: it asks when nothing is outstanding, and the reply it takes is to its one
    request. -/
theorem own {n : ℕ} {l' : User} {g' : Shared c} (hI : s.AtMostOne u)
    (hgo : l'.pc.out = true → 0 < c.goProbability u)
    (hstep : User.step u (s.users u) s.g n = some (l', g')) :
    (s.setUser u (l', g')).AtMostOne u := by
  obtain ⟨r, hr, hrgo, hone⟩ := hI
  obtain ⟨hm, hterm⟩ := User.step_move hstep
  have hask (q : Service) := s.unanswered_setUser u q hm
  have hwaiting : l'.pc.waiting ≠ none → 0 < c.goProbability u := by
    intro hw
    refine hgo ?_
    by_contra hout
    exact hw (User.waiting_of_not_out (Bool.eq_false_iff.mpr hout))
  simp only [AtMostOne, outstanding, userPc_setUser, Function.update_self, setUser_users,
    setUser_g] at *
  by_cases hleave : (s.users u).Leaving
  · obtain ⟨hleave', rfl⟩ := User.step_leaving hstep hleave
    refine ⟨r, .inr hleave', hrgo, fun q => ?_⟩
    have := hask q
    have := hone q
    omega
  obtain rfl := hr.resolve_right hleave
  rw [← userPc_eq] at hone
  rcases hm.waits_or_leaves with ⟨ht, hpc, rfl⟩ | hwait | ⟨hnone, hreq, q₀, hrep⟩
  · refine ⟨_, .inr (.inl ⟨hpc, hterm.trans ht⟩), hrgo, fun q => ?_⟩
    have := hask q
    have := hone q
    rw [← userPc_eq]
    omega
  · refine ⟨_, .inl rfl, hwaiting, fun q => ?_⟩
    have := hask q
    have := hone q
    obtain ⟨hans, hw⟩ := hwait q
    omega
  · -- The reply was the one thing outstanding.
    have htake (q : Service) : (s.setUser u (l', g')).unanswered u q +
        g'.answering (c.pid (.user u)) q + ind (q₀ = q) =
        s.unanswered u q + s.g.answering (c.pid (.user u)) q := by
      have := hask q
      have := hreq q
      have := hrep q
      omega
    exact ⟨none, .inl hnone.symm, fun h => absurd rfl h, fun q =>
      (nothing_left q hone htake).trans_le (Nat.zero_le _)⟩

/-- A handler changes nothing but flags. -/
theorem deliver (hI : s.AtMostOne u) (p : c.Proc) (sigs : List Signal) :
    (s.deliverTo sigs p).AtMostOne u := by
  obtain ⟨r, hr, hgo, hone⟩ := hI
  refine ⟨r, ?_, hgo, fun q => ?_⟩
  · rw [deliverTo_userPc]
    refine hr.imp_right fun hl => ?_
    rw [deliverTo_users]
    split
    · exact hl.deliver sigs
    · exact hl
  · simpa [outstanding, unanswered, Shared.asking, Shared.queuing, Shared.answering] using hone q

theorem step {a : Act c} (hr : Reachable s) (hI : s.AtMostOne u) (h : s.StepOf a s') :
    s'.AtMostOne u := by
  cases h with
  | @director n l' g' hstep =>
    have hm := Director.step_move hstep
    refine hI.mono rfl fun q => ?_
    have hbooks := s.unanswered_setDirector u q (closing hr) hm
    have hreplies := (hm.requests (closing hr).emptied (c.pid (.user u)) q).2
    simp only [outstanding, setDirector_g]
    omega
  | @dispenser n l' g' hstep =>
    have hm := (Dispenser.step_move hstep).1
    refine hI.mono rfl fun q => ?_
    simp only [outstanding, setDispenser_g]
    rcases s.unanswered_setDispenser u q (genuine hr) hm with ⟨-, rfl, hle⟩ | ⟨hbooks, hreplies⟩
    · exact Nat.add_le_add_right hle _
    · omega
  | @operator n l' g' w hstep =>
    have hm := Operator.step_move hstep
    refine hI.mono rfl fun q => ?_
    have hbooks := s.unanswered_setOperator u q hm
    obtain ⟨-, -, hreplies⟩ := hm.requests (c.pid_pos (.user u)) q
    simp only [outstanding, setOperator_g]
    omega
  | @user n l' g' v hstep =>
    by_cases hv : v = u
    · subst hv
      obtain ⟨hhead, hout⟩ := headed_home hr v
      obtain ⟨-, -, -, -, hout'⟩ := User.step_visit hstep hhead
      exact hI.own (fun ho => (hout' ho).elim hout id) hstep
    · have hm := (User.step_move hstep).1
      refine hI.mono (by simp [Ne.symm hv]) fun q => ?_
      have hbooks := s.unanswered_setUser u q hm
      have hans := (hm.requests u q).2.2 (Ne.symm hv)
      have hreq : g'.requested q u = s.g.requested q u :=
        hm.logs.requested_eq (by simpa using hv)
      simp only [outstanding, setUser_g]
      omega
  | deliver p sigs => exact hI.deliver p sigs
  | interrupt term | tick ns => exact hI.mono rfl fun q => le_rfl

theorem init : (State.init c).AtMostOne u :=
  ⟨none, .inl rfl, fun h => absurd rfl h, fun q => (Requests.init rfl u q).1.le⟩

end AtMostOne

end State

/-- In every reachable state, also while the processes are told to terminate, every user has at most
    one request outstanding, and only the users that may go out have one. -/
theorem at_most_one {s : State c} (h : Reachable s) (u : Fin c.nofUsers) : s.AtMostOne u :=
  ReachableBy.induct (I := fun s => s.AtMostOne u) .init (fun _ _ _ hr hI _ hs => hI.step hr hs) h

/-- A user that is about to ask has nothing outstanding, and may go out. -/
theorem nothing_outstanding {s : State c} (h : Reachable s) {u : Fin c.nofUsers} {q : Service}
    (hpc : (s.users u).pc = .requestSend q) :
    (∀ r, s.outstanding u r = 0) ∧ 0 < c.goProbability u := by
  obtain ⟨r, hr, -, hone⟩ := at_most_one h u
  have hnone : r = none := by
    rcases hr with hr | hleave
    · rw [hr, ← State.userPc_eq, hpc]
      rfl
    · simp [User.Leaving, hpc] at hleave
  refine ⟨fun r => Nat.le_zero.mp ((hone r).trans ?_), (State.headed_home h u).2 (by rw [hpc]; rfl)⟩
  rw [hnone]
  exact le_rfl

/-- The users that may go out have together at most as many requests outstanding as there are of
    them. -/
theorem total_outstanding {s : State c} (h : Reachable s) (u : Fin c.nofUsers) :
    ∑ q, s.outstanding u q ≤ ind (0 < c.goProbability u) := by
  obtain ⟨r, -, hgo, hone⟩ := at_most_one h u
  calc ∑ q, s.outstanding u q ≤ ∑ q, ind (r = some q) := Finset.sum_le_sum fun q _ => hone q
    _ ≤ ind (0 < c.goProbability u) := by
      cases r with
      | none => simp [ind]
      | some q => simp [ind, hgo (Option.some_ne_none q)]

/-! ### Before the first day -/

namespace State

/-- Until the director leaves `wait_for_initialization` the user is not started. -/
def Unstarted (s : State c) (u : Fin c.nofUsers) : Prop :=
  s.director.pc = .waitInit → s.g.pending (.user u) .usr1 = false ∧ (s.users u).starts = 0 ∧
    (s.users u).pc.waiting = none

namespace Unstarted

variable {s s' : State c} {u : Fin c.nofUsers}

/-- A step that neither starts nor moves the user. -/
theorem frame (hI : s.Unstarted u) (hdir : s'.director.pc = .waitInit → s.director.pc = .waitInit)
    (hpend : s'.director.pc = .waitInit →
      s'.g.pending (.user u) .usr1 = s.g.pending (.user u) .usr1)
    (hu : s'.users u = s.users u) : s'.Unstarted u := by
  intro hpc
  rw [hu, hpend hpc]
  exact hI (hdir hpc)

/-- The user's own step sends no request and begins no visit. -/
theorem own {n : ℕ} {l' : User} {g' : Shared c} (hr : Reachable s) (hI : s.Unstarted u)
    (hstep : User.step u (s.users u) s.g n = some (l', g')) :
    (s.setUser u (l', g')).Unstarted u := by
  intro hpc
  obtain ⟨hpend, hstarts, hwait⟩ := hI hpc
  obtain ⟨-, hle, -⟩ := User.step_visit hstep (headed_home hr u).1
  have hm := (User.step_move hstep).1
  rw [setUser_users, Function.update_self]
  refine ⟨?_, Nat.le_zero.mp (hle.trans hstarts.le), ?_⟩
  · rw [setUser_g, hm.frame]
    exact hpend
  · generalize hat : (s.users u).pc = pc at hm hwait
    generalize l'.pc = pc' at hm
    cases hm with
    | silent hi hw => exact hw.trans hwait
    | request =>
      have := User.starts_of_visiting (l := s.users u) (by rw [hat]; rfl)
      exact absurd (hstarts ▸ this) (by simp)
    | _ => rfl

theorem step {a : Act c} (hr : Reachable s) (hI : s.Unstarted u) (h : s.StepOf a s') :
    s'.Unstarted u := by
  cases h with
  | @director n l' g' hstep =>
    have hm := Director.step_move hstep
    have hstay (hpc : l'.pc = .waitInit) : s.director.pc = .waitInit ∧ g'.pending = s.g.pending := by
      rw [hpc] at hm
      generalize s.director.pc = pc at hm ⊢
      generalize s.director.vars = v at hm
      generalize l'.vars = v' at hm
      cases hm <;> exact ⟨rfl, rfl⟩
    exact hI.frame (fun hpc => (hstay hpc).1) (fun hpc => by rw [setDirector_g, (hstay hpc).2]) rfl
  | dispenser hstep =>
    exact hI.frame id (fun _ => by rw [setDispenser_g, (Dispenser.step_move hstep).1.frame]) rfl
  | operator w hstep =>
    exact hI.frame id (fun _ => by rw [setOperator_g, (Operator.step_move hstep).frame]) rfl
  | user v hstep =>
    by_cases hv : v = u
    · subst hv
      exact hI.own hr hstep
    · exact hI.frame id (fun _ => by rw [setUser_g, (User.step_move hstep).1.frame])
        (by simp [Ne.symm hv])
  | deliver p sigs hp =>
    intro hpc
    obtain ⟨hpend, hstarts, hwait⟩ := hI (by simpa using hpc)
    refine ⟨?_, ?_, by simpa using hwait⟩
    · simp only [deliverTo_g, Shared.delivered_pending, Function.update_apply]
      split
      · subst_vars
        simp [hpend]
      · exact hpend
    · rw [deliverTo_users]
      split
      · have hnot : Signal.usr1 ∉ sigs := fun hmem => by
          subst_vars
          exact Bool.false_ne_true (hpend.symm.trans (hp _ hmem))
        have := User.starts_deliver (s.users u) sigs
        rw [ind_of_not hnot] at this
        omega
      · exact hstarts
  | interrupt term => exact hI.frame id (fun _ => by cases term <;> simp) rfl
  | tick ns => exact hI.frame id (fun _ => rfl) rfl

theorem init : (State.init c).Unstarted u := fun _ => ⟨rfl, rfl, rfl⟩

end Unstarted

end State

/-- Before the first day nothing is outstanding. -/
theorem nothing_before {s : State c} (h : Reachable s) (hpc : s.director.pc = .waitInit)
    (u : Fin c.nofUsers) (q : Service) : s.outstanding u q = 0 := by
  have hI : s.Unstarted u :=
    ReachableBy.induct (I := fun s => s.Unstarted u) .init (fun _ _ _ hr hI _ hs => hI.step hr hs) h
  obtain ⟨-, -, hwait⟩ := hI hpc
  have hone := (requests h (by rw [hpc]; rfl) u q).1
  rw [← State.userPc_eq, hwait] at hone
  exact hone

/-! ### The messages -/

section Moves

variable {g g' : Shared c} {r : UserReplyMessage}

theorem Shared.mem_send {x m : Message} (h : x ∈ (g.send m).msgs) : x ∈ g.msgs ∨ x = m := by
  simpa using h

theorem Director.Move.reply {pc pc' : DirPc c.nofWorkerSeats c.nofWorkers c.nofUsers}
    {v v' : DirVars} (h : Director.Move pc v g pc' v' g') (hm : Message.userReply r ∈ g'.msgs) :
    Message.userReply r ∈ g.msgs ∨
      ∃ q t, pc = .flushReply q t ∧ r.mtype = userReplyBase + t.userPid := by
  cases h
  case flushReply q t hroom =>
    refine (Shared.mem_send hm).imp_right fun he => ⟨q, t, rfl, ?_⟩
    rw [Message.userReply.inj he]
  case initOther | initMore | initLast | dayEndOther | dayEndMore | dayEndLast =>
    exact .inl (List.mem_of_mem_eraseP hm)
  all_goals exact .inl hm

/-- The ticket that the director answers comes from a queue. -/
theorem Director.Move.flushes {pc pc' : DirPc c.nofWorkerSeats c.nofWorkers c.nofUsers}
    {v v' : DirVars} (h : Director.Move pc v g pc' v' g') {q : Service} {t : QueueTicket}
    (hpc : pc' = .flushReply q t) : pc = .flushReply q t ∨ t ∈ (g.queues q).toList := by
  cases h
  case stay => exact .inl hpc
  case flushTake s t' qu hlen hqu =>
    obtain ⟨rfl, rfl⟩ := DirPc.flushReply.inj hpc
    exact .inr (hqu ▸ List.mem_cons_self)
  all_goals cases hpc

theorem Dispenser.Move.reply {pc pc' : DispPc c.nofWorkerSeats} {f : DispFlags}
    (h : Dispenser.Move pc f g pc' g') (hm : Message.userReply r ∈ g'.msgs) :
    Message.userReply r ∈ g.msgs ∨
      ∃ m x, pc.hand = some (m, x) ∧ r.mtype = userReplyBase + m.userPid := by
  cases h with
  | init => exact .inl ((Shared.mem_send hm).resolve_right (by simp))
  | invalidReply | refuseReply =>
    refine (Shared.mem_send hm).imp_right fun he => ⟨_, _, rfl, ?_⟩
    rw [Message.userReply.inj he]
  | receive | receiveInvalid => exact .inl (List.mem_of_mem_eraseP hm)
  | _ => exact .inl hm

theorem Operator.Move.reply_mem {w : Fin c.nofWorkers} {l l' : Operator c}
    (h : Operator.Move w l g l' g') (hm : Message.userReply r ∈ g'.msgs) :
    Message.userReply r ∈ g.msgs ∨
      ∃ t, (view w l).hand = some t ∧ r.mtype = userReplyBase + t.userPid := by
  cases h with
  | init | finish => exact .inl ((Shared.mem_send hm).resolve_right (by simp))
  | reply hf k t hpc hpc' hroom =>
    refine (Shared.mem_send hm).imp_right fun he => ⟨t, ?_, ?_⟩
    · rw [view, hpc]
      rfl
    · rw [Message.userReply.inj he]
  | _ => exact .inl hm

theorem User.Move.reply {u : Fin c.nofUsers} {pc pc' : UserPc} {f : UserFlags}
    (h : User.Move u pc f g pc' g') (hm : Message.userReply r ∈ g'.msgs) :
    Message.userReply r ∈ g.msgs := by
  cases h with
  | init | request => exact (Shared.mem_send hm).resolve_right (by simp)
  | receive => exact List.mem_of_mem_eraseP hm
  | _ => exact hm

end Moves

namespace State

/-- Every reply is for a user. -/
structure Addressed (s : State c) : Prop where
  replies : ∀ r, Message.userReply r ∈ s.g.msgs → ∃ u, r.mtype = userReplyBase + c.pid (.user u)
  flushing : ∀ q t, s.director.pc = .flushReply q t → c.IsTicket t

theorem Addressed.step {s s' : State c} (hG : s.Genuine) (hI : s.Addressed) (h : s.Move s') :
    s'.Addressed := by
  cases h with
  | director hm =>
    refine ⟨fun r hr => ?_, fun q t hpc => ?_⟩
    · rcases hm.reply hr with hr | ⟨q, t, hpc, hmtype⟩
      · exact hI.replies r hr
      · obtain ⟨u, hu, -⟩ := hI.flushing q t hpc
        exact ⟨u, hu ▸ hmtype⟩
    · exact (hm.flushes hpc).elim (hI.flushing q t) (hG.queued q t)
  | dispenser hm hf =>
    refine ⟨fun r hr => ?_, hI.flushing⟩
    rcases hm.reply hr with hr | ⟨m, x, hhand, hmtype⟩
    · exact hI.replies r hr
    · obtain ⟨u, q, rfl, -⟩ := hG.hand m x hhand
      exact ⟨u, hmtype⟩
  | operator w hstep hm =>
    refine ⟨fun r hr => ?_, hI.flushing⟩
    rcases hm.reply_mem hr with hr | ⟨t, hhand, hmtype⟩
    · exact hI.replies r hr
    · obtain ⟨u, hu, -⟩ := hG.held w t hhand
      exact ⟨u, hu ▸ hmtype⟩
  | user u hm hf => exact ⟨fun r hr => hI.replies r (hm.reply hr), hI.flushing⟩
  | deliver p sigs hp =>
    exact ⟨by simpa using hI.replies, by simpa using hI.flushing⟩
  | interrupt sig hsig | tick ns => exact ⟨hI.replies, hI.flushing⟩

end State

theorem addressed {s : State c} (h : Reachable s) : s.Addressed :=
  h.invariant ⟨fun _ => nofun, fun _ _ => nofun⟩ fun _ _ hr hI hm => hI.step (genuine hr) hm

/-- A request of the user for the service, or a reply to it. -/
def Message.concerns (userPid : ℤ) (q : Service) (m : Message) : Bool :=
  m.asks userPid q || m.answers userPid q

theorem Shared.countP_concerns (g : Shared c) (userPid : ℤ) (q : Service) :
    g.msgs.countP (Message.concerns userPid q) = g.asking userPid q + g.answering userPid q := by
  unfold Shared.asking Shared.answering
  induction g.msgs with
  | nil => rfl
  | cons m msgs ih =>
    simp only [List.countP_cons, ih]
    cases m <;> simp [Message.concerns, Message.asks, Message.answers] <;> omega

/-- A message queue without director messages holds at most what is asked and answered. -/
theorem length_msgs_le {s : State c} (h : Reachable s)
    (hdir : ∀ m, Message.director m ∉ s.g.msgs) :
    s.g.msgs.length ≤ ∑ x : Fin c.nofUsers × Service,
      (s.g.asking (c.pid (.user x.1)) x.2 + s.g.answering (c.pid (.user x.1)) x.2) := by
  simp only [← Shared.countP_concerns]
  refine Family.length_le_sum_countP fun m hm => ?_
  cases m with
  | director m => exact absurd hm (hdir m)
  | ticket m =>
    obtain ⟨u, q, rfl⟩ := (genuine h).messages m hm
    have hasks : (Message.ticket (c.request u q)).asks (c.pid (.user u)) q = true :=
      decide_eq_true ⟨rfl, Setup.request_service u q⟩
    exact ⟨(u, q), by simp [Message.concerns, hasks]⟩
  | userReply r =>
    obtain ⟨u, hu⟩ := (addressed h).replies r hm
    exact ⟨(u, r.service), by simp [Message.concerns, Message.answers, hu]⟩

end PostOffice
