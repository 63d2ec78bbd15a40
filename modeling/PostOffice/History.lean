import PostOffice.SystemMove
import PostOffice.Phases

/-! The history of the system by days. `assign_daily_counters` opens a day; the next one, or
    `print_final_statistics` for the last day, closes it. Only the director opens and closes days,
    so what another process records belongs to the day that is current. -/

namespace PostOffice

variable {c : Setup}

/-- The events that end one day: the start of the next or the final statistics. -/
def Event.isBoundary {workers users : ℕ} : Event workers users → Bool
  | .assigned _ | .finalStatistics _ _ _ => true
  | _ => false

namespace Shared

/-- What has happened since the day began. -/
def today (g : Shared c) : List c.Event := Segments.current Event.isBoundary g.hist

/-- The days that are over. -/
def pastDays (g : Shared c) : List (List c.Event) := Segments.closed Event.isBoundary g.hist

variable (g : Shared c)

@[simp] theorem today_setQueue (s : Service) (q : ServiceQueue) :
    (g.setQueue s q).today = g.today := rfl

@[simp] theorem today_setStats (stats : SimulationStats) : (g.setStats stats).today = g.today := rfl

@[simp] theorem today_delivered (p : c.Proc) (sigs : List Signal) :
    (g.delivered p sigs).today = g.today := rfl

@[simp] theorem today_send (m : Message) : (g.send m).today = g.today := rfl

theorem today_log {e : c.Event} (h : e.isBoundary = false) : (g.log e).today = g.today ++ [e] :=
  Segments.current_append h

theorem today_log_boundary {e : c.Event} (h : e.isBoundary = true) : (g.log e).today = [] :=
  Segments.current_append_mark h

theorem today_filterMap_log {e : c.Event} (h : e.isBoundary = false) {β : Type}
    (f : c.Event → Option β) :
    (g.log e).today.filterMap f = g.today.filterMap f ++ (f e).toList := by
  rw [g.today_log h, List.filterMap_append]
  rfl

end Shared

namespace Logs

variable {p : c.Proc} {g g' : Shared c}

theorem not_boundary (hp : p ≠ .director) {e : c.Event} (he : e.actor = p) :
    e.isBoundary = false := by
  cases e with
  | assigned | finalStatistics => exact absurd he.symm hp
  | _ => rfl

section Marks

variable {mark : c.Event → Bool} (hmark : ∀ e, e.actor = p → mark e = false)

include hmark

/-- Who records no marks closes no segment. -/
theorem closed_eq (h : Logs p g g') :
    Segments.closed mark g'.hist = Segments.closed mark g.hist := by
  obtain ⟨es, hes, hact⟩ := h
  rw [hes, Segments.closed_append_list fun e he => hmark e (hact e he)]

/-- Who records no marks adds to the current segment. -/
theorem current_append (h : Logs p g g') :
    ∃ es, Segments.current mark g'.hist = Segments.current mark g.hist ++ es ∧
      ∀ e ∈ es, e.actor = p := by
  obtain ⟨es, hes, hact⟩ := h
  exact ⟨es, by rw [hes, Segments.current_append_list fun e he => hmark e (hact e he)], hact⟩

/-- What is read off the events of other processes in the current segment is read as before. -/
theorem current_filterMap_eq (h : Logs p g g') {β : Type} {f : c.Event → Option β}
    (hf : ∀ e, e.actor = p → f e = Option.none) :
    (Segments.current mark g'.hist).filterMap f = (Segments.current mark g.hist).filterMap f := by
  obtain ⟨es, hes, hact⟩ := h.current_append hmark
  rw [hes, List.filterMap_append, List.filterMap_eq_nil_iff.mpr fun e he => hf e (hact e he),
    List.append_nil]

end Marks

/-- Nobody but the director ends a day. -/
theorem pastDays_eq (h : Logs p g g') (hp : p ≠ .director) : g'.pastDays = g.pastDays :=
  h.closed_eq fun _ => not_boundary hp

/-- What the other processes record comes after what the day has seen. -/
theorem today_append (h : Logs p g g') (hp : p ≠ .director) :
    ∃ es, g'.today = g.today ++ es ∧ ∀ e ∈ es, e.actor = p :=
  h.current_append fun _ => not_boundary hp

/-- What is read off the events of other processes today is read as before. -/
theorem today_filterMap_eq (h : Logs p g g') (hp : p ≠ .director) {β : Type}
    {f : c.Event → Option β} (hf : ∀ e, e.actor = p → f e = Option.none) :
    g'.today.filterMap f = g.today.filterMap f :=
  h.current_filterMap_eq (fun _ => not_boundary hp) hf

end Logs

/-- What holds of the days that are over holds of the day the director ends. -/
theorem Director.Move.pastDays {pc pc' : DirPc c.nofWorkerSeats c.nofWorkers c.nofUsers}
    {v v' : DirVars} {g g' : Shared c} (h : Director.Move pc v g pc' v' g')
    {P : List c.Event → Prop} (hpast : ∀ day ∈ g.pastDays, P day)
    (hclose : pc.endsDay = true → P g.today) : ∀ day ∈ g'.pastDays, P day := by
  have hlog {g₁ : Shared c} {e : c.Event} (hg : g₁.hist = g.hist)
      (he : e.isBoundary = true → P g.today) : ∀ day ∈ (g₁.log e).pastDays, P day := by
    simp only [Shared.pastDays, Shared.log_hist, hg]
    exact Segments.forall_closed_append hpast he
  cases h
  case assignInit | finalPrint => exact hlog rfl fun _ => hclose rfl
  case dayBrokenOff | flushTake | flushReply | printDaily =>
    exact hlog rfl fun he => Bool.noConfusion he
  all_goals exact hpast

end PostOffice
