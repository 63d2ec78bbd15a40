import Mathlib.Logic.Function.Basic
import Mathlib.Tactic.Simps.Basic
import PostOffice.Lib.Transition

/-! A ticket office, as its customers see it: any customers `U`, services `S` and clerks `W`, each
    clerk for one service.

        away ─ ask ─▶ asking s ─ line ─▶ queued s ─ call w ─▶ called w
         ▲                │                  └─ dismiss ─▶ dismissed s │
         └──── reply ─────┴──────────────────────────────────┴─────────┘

    The office is a sequential machine: `step` runs one label or refuses it. What a concurrent
    implementation does is right when its visible events, in the order they happen, are a run of
    this machine. -/

namespace TicketOffice

open Transition

/-- Where the business of a customer stands. -/
inductive Place (S W : Type*) where
  | away
  /-- Its request is on the way to the queue. -/
  | asking (s : S)
  | queued (s : S)
  | called (w : W)
  /-- Taken off the queue unserved, and not told yet. -/
  | dismissed (s : S)
  deriving DecidableEq

/-- Who answers a customer. -/
inductive Desk (W : Type*) where
  | door
  | clerk (w : W)
  | closing
  deriving DecidableEq

/-- The events of the office. -/
inductive Label (U S W : Type*) where
  | ask (u : U) (s : S)
  | line (u : U) (s : S)
  | call (w : W) (u : U)
  | dismiss (u : U) (s : S)
  | reply (d : Desk W) (u : U) (s : S) (served : Bool)
  deriving DecidableEq

/-- The state of the office. -/
structure Office (U S W : Type*) where
  place : U → Place S W
  queue : S → List U
  clerk : W → Option U

variable {U S W : Type*}

/-- The service a customer has asked for. -/
def Place.service (serves : W → S) : Place S W → Option S
  | .away => none
  | .asking s | .queued s | .dismissed s => some s
  | .called w => some (serves w)

theorem Place.service_eq_none {serves : W → S} {p : Place S W} :
    p.service serves = none ↔ p = .away := by
  cases p <;> simp [service]

namespace Office

/-- Nobody has asked for anything. -/
def opening : Office U S W := { place := fun _ => .away, queue := fun _ => [], clerk := fun _ => none }

/-- Queues and clerks agree with where each customer is. -/
structure WellFormed (o : Office U S W) : Prop where
  nodup : ∀ s, (o.queue s).Nodup
  queued : ∀ u s, u ∈ o.queue s ↔ o.place u = .queued s
  called : ∀ w u, o.clerk w = some u ↔ o.place u = .called w

theorem WellFormed.opening : (opening : Office U S W).WellFormed :=
  ⟨fun _ => List.nodup_nil, fun u s => by simp [Office.opening],
    fun w u => by simp [Office.opening]⟩

variable [DecidableEq U]

@[simps] def move (o : Office U S W) (u : U) (p : Place S W) : Office U S W :=
  { o with place := Function.update o.place u p }

variable [DecidableEq S] [DecidableEq W]

@[simps] def setQueue (o : Office U S W) (s : S) (l : List U) : Office U S W :=
  { o with queue := Function.update o.queue s l }

@[simps] def setClerk (o : Office U S W) (w : W) (u : Option U) : Office U S W :=
  { o with clerk := Function.update o.clerk w u }

omit [DecidableEq S] [DecidableEq W] in
/-- The others stay where they are. -/
theorem place_move (o : Office U S W) {u v : U} {a b p : Place S W} (hv : o.place v = b)
    (hu : o.place u = a) (hab : b ≠ a) : (o.move u p).place v = b := by
  have hne : v ≠ u := fun he => hab (by rw [← hv, ← hu, he])
  rw [move_place, Function.update_of_ne hne, hv]

/-- One event. A queue is served from the front, a clerk has one customer at a time and serves it
    for its own service; the other desks only send away. -/
def step (serves : W → S) (o : Office U S W) : Label U S W → Option (Office U S W)
  | .ask u s => if o.place u = .away then some (o.move u (.asking s)) else none
  | .line u s =>
      if o.place u = .asking s then some ((o.move u (.queued s)).setQueue s (o.queue s ++ [u]))
      else none
  | .call w u =>
      if (o.queue (serves w)).head? = some u ∧ o.clerk w = none then
        some (((o.move u (.called w)).setQueue (serves w) (o.queue (serves w)).tail).setClerk w
          (some u))
      else none
  | .dismiss u s =>
      if (o.queue s).head? = some u then
        some ((o.move u (.dismissed s)).setQueue s (o.queue s).tail)
      else none
  | .reply .door u s served =>
      if o.place u = .asking s ∧ served = false then some (o.move u .away) else none
  | .reply (.clerk w) u s served =>
      if o.clerk w = some u ∧ serves w = s ∧ served = true then
        some ((o.move u .away).setClerk w none)
      else none
  | .reply .closing u s served =>
      if o.place u = .dismissed s ∧ served = false then some (o.move u .away) else none

namespace WellFormed

variable {serves : W → S} {o o' : Office U S W}

omit [DecidableEq S] [DecidableEq W] in
/-- A customer that is in no queue and at no clerk moves to such a place. -/
theorem move (h : o.WellFormed) {u : U} {p : Place S W} (hu : ∀ s, o.place u ≠ .queued s)
    (hu' : ∀ w, o.place u ≠ .called w) (hp : ∀ s, p ≠ .queued s) (hp' : ∀ w, p ≠ .called w) :
    (o.move u p).WellFormed := by
  refine ⟨h.nodup, fun v s => ?_, fun w v => ?_⟩
  · by_cases hv : v = u
    · subst hv
      simp [h.queued, hu, hp]
    · simp [h.queued, hv]
  · by_cases hv : v = u
    · subst hv
      simp [h.called, hu', hp']
    · simp [h.called, hv]

omit [DecidableEq W] in
/-- The customer at the front of a queue leaves it. -/
theorem pop (h : o.WellFormed) {u : U} {s : S} {p : Place S W} (hu : (o.queue s).head? = some u)
    (hp : ∀ s, p ≠ .queued s) (hp' : ∀ w, p ≠ .called w) :
    ((o.move u p).setQueue s (o.queue s).tail).WellFormed := by
  obtain ⟨us, hus⟩ := List.head?_eq_some_iff.mp hu
  have hplace : o.place u = .queued s := (h.queued u s).mp (by simp [hus])
  have hnodup := h.nodup s
  rw [hus, List.nodup_cons] at hnodup
  refine ⟨fun r => ?_, fun v r => ?_, fun w v => ?_⟩
  · by_cases hr : r = s
    · subst hr
      simpa [hus] using hnodup.2
    · simpa [hr] using h.nodup r
  · by_cases hv : v = u
    · subst hv
      by_cases hr : r = s
      · subst hr
        simpa [hus, hp] using hnodup.1
      · simp [hr, hp, h.queued, hplace, Ne.symm hr]
    · by_cases hr : r = s
      · subst hr
        have := h.queued v r
        rw [hus, List.mem_cons] at this
        simpa [hus, hv] using this
      · simp [hr, hv, h.queued]
  · by_cases hv : v = u
    · subst hv
      simp [h.called, hplace, hp']
    · simp [h.called, hv]

omit [DecidableEq S] in
/-- A clerk without a customer gets one who is at no clerk and in no queue. -/
theorem seat (h : o.WellFormed) {u : U} {w : W} (hw : o.clerk w = none)
    (hu : ∀ s, o.place u ≠ .queued s) (hu' : ∀ v, o.place u ≠ .called v) :
    ((o.move u (.called w)).setClerk w (some u)).WellFormed := by
  refine ⟨h.nodup, fun v s => ?_, fun x v => ?_⟩
  · by_cases hv : v = u
    · subst hv
      simp [h.queued, hu]
    · simp [h.queued, hv]
  · have hfree (v : U) : o.place v ≠ .called w := fun hv => by simp [(h.called w v).mpr hv] at hw
    by_cases hx : x = w
    · subst hx
      by_cases hv : v = u
      · simp [hv]
      · simp [hv, Ne.symm hv, hfree]
    · by_cases hv : v = u
      · subst hv
        simp [hx, h.called, hu', Ne.symm hx]
      · simp [hx, hv, h.called]

omit [DecidableEq S] in
/-- A customer leaves its clerk. -/
theorem rise (h : o.WellFormed) {u : U} {w : W} (hw : o.clerk w = some u) :
    ((o.move u .away).setClerk w none).WellFormed := by
  have hplace : o.place u = .called w := (h.called w u).mp hw
  refine ⟨h.nodup, fun v s => ?_, fun x v => ?_⟩
  · by_cases hv : v = u
    · subst hv
      simp [h.queued, hplace]
    · simp [h.queued, hv]
  · by_cases hx : x = w
    · subst hx
      by_cases hv : v = u
      · simp [hv]
      · have hother : o.place v ≠ .called x := fun hp =>
          hv (Option.some.inj (((h.called x v).mpr hp).symm.trans hw))
        simp [hv, hother]
    · by_cases hv : v = u
      · subst hv
        simp [hx, h.called, hplace, Ne.symm hx]
      · simp [hx, hv, h.called]

/-- Every event keeps the office well formed. -/
theorem step (h : o.WellFormed) {l : Label U S W} (hs : o.step serves l = some o') :
    o'.WellFormed := by
  cases l with
  | ask u s =>
    obtain ⟨hu, ⟨⟩⟩ := Option.ite_none_right_eq_some.mp hs
    exact h.move (by simp [hu]) (by simp [hu]) nofun nofun
  | line u s =>
    obtain ⟨hu, ⟨⟩⟩ := Option.ite_none_right_eq_some.mp hs
    have hnot (r : S) : u ∉ o.queue r := fun hmem => by simp [(h.queued u r).mp hmem] at hu
    refine ⟨fun r => ?_, fun v r => ?_, fun w v => ?_⟩
    · by_cases hr : r = s
      · subst hr
        have hother : ∀ v ∈ o.queue r, v ≠ u := fun v hv he => hnot r (he ▸ hv)
        simpa [List.nodup_append, h.nodup r] using hother
      · simpa [hr] using h.nodup r
    · by_cases hr : r = s
      · subst hr
        by_cases hv : v = u
        · simp [hv]
        · simp [hv, h.queued]
      · by_cases hv : v = u
        · subst hv
          simp [hr, hnot r, Ne.symm hr]
        · simp [hr, hv, h.queued]
    · by_cases hv : v = u
      · subst hv
        simp [h.called, hu]
      · simp [h.called, hv]
  | call w u =>
    obtain ⟨⟨hu, hw⟩, ⟨⟩⟩ := Option.ite_none_right_eq_some.mp hs
    -- First off the queue, to nowhere, then to the clerk.
    have hpop := (h.pop hu (p := .away) nofun nofun).seat (u := u) (w := w) hw (by simp) (by simp)
    simpa [Office.move, Office.setQueue, Office.setClerk] using hpop
  | dismiss u s =>
    obtain ⟨hu, ⟨⟩⟩ := Option.ite_none_right_eq_some.mp hs
    exact h.pop hu nofun nofun
  | reply d u s served =>
    cases d with
    | door | closing =>
      obtain ⟨⟨hu, -⟩, ⟨⟩⟩ := Option.ite_none_right_eq_some.mp hs
      exact h.move (by simp [hu]) (by simp [hu]) nofun nofun
    | clerk w =>
      obtain ⟨⟨hw, -⟩, ⟨⟩⟩ := Option.ite_none_right_eq_some.mp hs
      exact h.rise hw

end WellFormed

end Office

end TicketOffice
