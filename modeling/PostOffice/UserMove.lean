import PostOffice.User

/-! What one step of a user can do, as far as the other processes can notice: announce itself,
    begin a day, send a request, receive the reply, or leave without it when told to terminate. -/

namespace PostOffice

namespace UserPc

/-- It has announced itself to the director. -/
def inited : UserPc → Bool
  | .sendInit => false
  | _ => true

/-- The service of the request it waits for the reply to. -/
def waiting : UserPc → Option Service
  | .requestWait s => some s
  | _ => none

end UserPc

namespace User

variable {c : Setup}

/-- The moves of user `u`, from program point, flags and shared state. -/
inductive Move (u : Fin c.nofUsers) :
    UserPc → UserFlags → Shared c → UserPc → Shared c → Prop where
  /-- A test, a draw, a sleep, a retry, an exit. -/
  | silent {pc f g pc'} (hi : pc'.inited = pc.inited) (hw : pc'.waiting = pc.waiting) :
      Move u pc f g pc' g
  | init {f g} (hroom : g.msgs.length < c.msgCapacity) : Move u .sendInit f g .mainTest
      ((g.send (.director { kind := .init, index := u, pid := c.pid (.user u) })).log
        (.init (.user u)))
  | begin {f g} : Move u .clearClosed f g .drawGo (g.log (.runDay (.user u) g.currentDay))
  | request {f g s} (hroom : g.msgs.length < c.msgCapacity) :
      Move u (.requestSend s) f g (.requestWait s)
        ((g.send (.ticket { userIndex := u, userPid := c.pid (.user u), service := s })).log
          (.requested u s))
  | receive {f g s m} (hm : g.firstOfType (userReplyBase + c.pid (.user u)) = some m) :
      Move u (.requestWait s) f g .mainTest (g.received (userReplyBase + c.pid (.user u)))
  | giveUp {f g s} (h : f.terminateRequested = true) : Move u (.requestWait s) f g .mainTest g

variable {u : Fin c.nofUsers} {l l' : User} {g g' : Shared c}

/-- Every step of a user is one of the moves, and leaves the termination flag alone. -/
theorem step_move {n : ℕ} (h : step u l g n = some (l', g')) :
    Move u l.pc l.vars g l'.pc g' ∧ l'.vars.terminateRequested = l.vars.terminateRequested := by
  have hstay : l'.pc = l.pc ∧ l'.vars = l.vars ∧ g' = g →
      Move u l.pc l.vars g l'.pc g' ∧ l'.vars.terminateRequested = l.vars.terminateRequested := by
    rintro ⟨h1, h2, rfl⟩
    exact ⟨h1 ▸ .silent rfl rfl, h2 ▸ rfl⟩
  unfold step at h
  split at h
  · cases h
  unfold body at h
  cases hpc : l.pc <;> rw [hpc] at h hstay <;> simp only at h
  case sendInit =>
    unfold Task.msgSend at h
    repeat' split at h
    all_goals cases h
    all_goals first | exact hstay ⟨hpc, rfl, rfl⟩ | exact ⟨.init ‹_›, rfl⟩
  case suspend =>
    repeat' split at h
    all_goals cases h
    all_goals exact ⟨.silent (by simp [hpc, UserPc.inited]) (by simp [hpc, UserPc.waiting]), rfl⟩
  case arrive s minute =>
    unfold Task.nanosleep at h
    repeat' split at h
    all_goals cases h
    all_goals exact ⟨.silent (by simp [hpc, UserPc.inited]) (by simp [hpc, UserPc.waiting]), rfl⟩
  case clearClosed => cases h; exact ⟨.begin, rfl⟩
  case requestSend s =>
    unfold Task.msgSend at h
    repeat' split at h
    all_goals cases h
    · exact ⟨.silent rfl rfl, rfl⟩
    · exact hstay ⟨hpc, rfl, rfl⟩
    · exact ⟨.request ‹_›, rfl⟩
    · exact hstay ⟨hpc, rfl, rfl⟩
  case requestWait s =>
    unfold receiveReply at h
    simp only at h
    repeat' split at h
    all_goals cases h
    · exact ⟨.giveUp ‹_›, rfl⟩
    · exact hstay ⟨hpc, rfl, rfl⟩
    · exact ⟨.receive ‹_›, rfl⟩
    · exact hstay ⟨hpc, rfl, rfl⟩
  case done => cases h
  case mainTest | mainBreak =>
    split at h <;> cases h
    all_goals exact ⟨.silent rfl rfl, rfl⟩
  case clearStarted | drawService | drawArrival => cases h; exact ⟨.silent rfl rfl, rfl⟩
  all_goals
    cases h
    refine ⟨?_, rfl⟩
    rw [Task.goto_pc]
    split <;> exact .silent rfl rfl

/-- A user changes nothing shared but the messages and the history. -/
theorem Move.frame {pc pc' : UserPc} {f : UserFlags} (h : Move u pc f g pc' g') :
    g' = { g with msgs := g'.msgs, hist := g'.hist } := by
  cases h <;> rfl

end User

end PostOffice
