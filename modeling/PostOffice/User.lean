import PostOffice.Shared

/-! The user (`user.c`): once a day decides whether to go, sleeps until the arrival minute, and if
    the office is still open sends one request and waits for the reply.

        sendInit ─▶ mainTest ─▶ wait… ─▶ clearStarted ─▶ clearClosed ─▶ drawGo ─▶ drawArrival
                       ▲                                                   │          │
                       └── requestWait ◀─ requestSend ◀─ go… ◀─ arrive ◀───┼──────────┘
                       ▲                                          │        │
                       └──────────────────────────────────────────┴────────┘ -/

namespace PostOffice

/-- The program points of the user; `s` is the requested service. -/
inductive UserPc where
  -- main and wait_for_next_day
  | sendInit | mainTest | waitDayStarted | waitTerminate | suspend | mainBreak
  | clearStarted | clearClosed
  -- run_day and sleep_until_arrival
  | drawGo | drawService
  | drawArrival (s : Service)
  | arrive (s : Service) (minute : ℕ)
  | wakeTerminate (s : Service) (minute : ℕ) | wakeClosed (s : Service) (minute : ℕ)
  | wakeActive (s : Service) (minute : ℕ)
  | goTerminate (s : Service) | goClosed (s : Service) | goActive (s : Service)
  -- request_service
  | requestSend (s : Service) | requestWait (s : Service)
  | done
  deriving DecidableEq

/-- The user's flags. -/
structure UserFlags where
  dayStarted : Bool
  dayClosed : Bool
  terminateRequested : Bool
  deriving DecidableEq

/-- `handle_user_signal`. -/
def handleUserSignal (v : UserFlags) : Signal → UserFlags
  | .usr1 => { v with dayStarted := true, dayClosed := false }
  | .usr2 => { v with dayClosed := true }
  | .term => { v with terminateRequested := true, dayStarted := true, dayClosed := true }
  | .int => v

/-- A user process. -/
abbrev User := Task UserPc UserFlags

namespace User

variable {c : Setup} (u : Fin c.nofUsers) (l : User) (g : Shared c)

/-- `msgrcv` of the reply; a message of that type always is a reply. -/
def receiveReply (next : UserPc) : Option (User × Shared c) :=
  let mtype := userReplyBase + c.pid (.user u)
  match g.firstOfType mtype with
  | some _ => some (l.goto next, g.received mtype)
  | none => if l.mode = .asleep then none else some (l.sleep, g)

/-- One step of a live user; `n` is what `rand()` returns, where the step calls it. -/
def body (n : ℕ) : Option (User × Shared c) :=
  match l.pc with
  | .sendInit =>
      if l.mode = .eintr then some (l.retry, g)
      else l.msgSend g (.director { kind := .init, index := u, pid := c.pid (.user u) })
        (.init (.user u)) .mainTest
  | .mainTest =>
      if l.vars.terminateRequested then some ((l.goto .done).exit 0, g)
      else some (l.goto .waitDayStarted, g)
  | .waitDayStarted =>
      some (l.goto (if l.vars.dayStarted then .mainBreak else .waitTerminate), g)
  | .waitTerminate =>
      some (l.goto (if l.vars.terminateRequested then .mainBreak else .suspend), g)
  | .suspend =>
      -- sigsuspend sleeps until a handler has run
      if l.mode = .eintr then some (l.goto .waitDayStarted, g)
      else if l.mode = .asleep then none else some (l.sleep, g)
  | .mainBreak =>
      if l.vars.terminateRequested then some ((l.goto .done).exit 0, g)
      else some (l.goto .clearStarted, g)
  | .clearStarted => some ((l.setVars { l.vars with dayStarted := false }).goto .clearClosed, g)
  | .clearClosed =>
      some ((l.setVars { l.vars with dayClosed := false }).goto .drawGo,
        g.log (.runDay (.user u) g.currentDay))
  -- run_day
  | .drawGo =>
      some (l.goto (if ((n % 100 : ℕ) : ℤ) ≥ c.goProbability u then .mainTest else .drawService), g)
  | .drawService => some (l.goto (.drawArrival (drawnService n)), g)
  | .drawArrival s => some (l.goto (.arrive s (n % workdayMinutes)), g)
  -- sleep_until_arrival
  | .arrive s minute =>
      if l.mode = .eintr then some (l.goto (.wakeTerminate s minute), g)
      else l.nanosleep g (.goTerminate s)
  | .wakeTerminate s minute =>
      some (l.goto (if l.vars.terminateRequested then .mainTest else .wakeClosed s minute), g)
  | .wakeClosed s minute =>
      some (l.goto (if l.vars.dayClosed then .mainTest else .wakeActive s minute), g)
  | .wakeActive s minute =>
      some (l.goto (if g.dayActive then .arrive s minute else .mainTest), g)
  | .goTerminate s =>
      some (l.goto (if l.vars.terminateRequested then .mainTest else .goClosed s), g)
  | .goClosed s => some (l.goto (if l.vars.dayClosed then .mainTest else .goActive s), g)
  | .goActive s => some (l.goto (if g.dayActive then .requestSend s else .mainTest), g)
  -- request_service
  | .requestSend s =>
      if l.mode = .eintr then
        if l.vars.terminateRequested then some (l.goto .mainTest, g) else some (l.retry, g)
      else l.msgSend g
        (.ticket { userIndex := u, userPid := c.pid (.user u), service := s })
        (.requested u s) (.requestWait s)
  | .requestWait _ =>
      if l.mode = .eintr then
        if l.vars.terminateRequested then some (l.goto .mainTest, g) else some (l.retry, g)
      else receiveReply u l g .mainTest
  | .done => none

/-- One step of a user. -/
def step (n : ℕ) : Option (User × Shared c) := if l.exited then none else body u l g n

end User

end PostOffice
