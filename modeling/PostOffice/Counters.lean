import PostOffice.Totals

/-! One scan of the counters suffices. While an operator moves along the counters, others sit down
    and stand up behind it and before it; but the operators that have passed position `p` never
    outnumber the free counters of their service from `p` on:

        0 ─────────── p ────────────────── seats
        tokens        ▷ ▷  scanners past p
                      □ □ □ free counters from p on

    For `p = 0` the free tokens count as scanners that have not started. At the end of the scan no
    counter is left, so no scanner gets there. -/

namespace PostOffice

open Transition

variable {c : Setup}

namespace DirPc

variable {seats workers users : ℕ}

/-- How many counters `assign_daily_counters` has written, until `DAY_ACTIVE = 1`. -/
def written : DirPc seats workers users → Option ℕ
  | .assignLock i | .assignWrite i => some i
  | .assignUnlock i => some (i + 1)
  | .setJobs _ | .setFree _ | .resetQueue _ | .activate => some seats
  | _ => none

/-- The tokens of service `q` are those of the counters as they are. -/
def granted : DirPc seats workers users → Service → Bool
  | .assignLock _, _ | .assignWrite _, _ | .assignUnlock _, _ => false
  | .setJobs s, q | .setFree s, q => q < s
  | .resetQueue s, q => q ≤ s
  | _, _ => true

theorem preStart_of_written {pc : DirPc seats workers users} {n : ℕ} (h : pc.written = some n)
    (w : Fin workers) : pc.preStart w = true := by
  cases pc <;> simp [written, preStart] at h ⊢

theorem granted_of_dayOpen {pc : DirPc seats workers users} {w : Fin workers}
    (h : pc.live w = true) (q : Service) : pc.granted q = true := by
  cases pc <;> simp [live, dayOpen, preStart, granted] at h ⊢

end DirPc

/-- The operator holds a token and its scan has passed the first `p` counters. -/
def OpView.passed {seats : ℕ} (v : OpView seats) (p : ℕ) : Prop := ∃ p' ∈ v.pos, p ≤ p'

instance {seats : ℕ} (v : OpView seats) (p : ℕ) : Decidable (v.passed p) := by
  unfold OpView.passed
  infer_instance

theorem OpView.passed_iff {seats p p' : ℕ} {v : OpView seats} (h : v.pos = some p') :
    v.passed p ↔ p ≤ p' := by
  simp [passed, h]

theorem OpView.not_passed {seats p : ℕ} {v : OpView seats} (h : v.pos = none) : ¬ v.passed p := by
  simp [passed, h]

namespace Shared

variable (g : Shared c) (q : Service) (p : ℕ)

/-- The free counters of the service from position `p` on. -/
def free : ℕ :=
  Family.total (fun (i : Fin c.nofWorkerSeats) x => ind (p ≤ i ∧ Operator.Takes q x)) g.counters

/-- Before the first counter wait the free tokens of the service. -/
def tokens : ℕ := if p = 0 then g.sem (.freeCounter q) else 0

/-- The counters of the service among the first `n`. -/
def offering (n : ℕ) : ℕ :=
  Family.total (fun (i : Fin c.nofWorkerSeats) x => ind ((i : ℕ) < n ∧ x.service = some q))
    g.counters

variable {g q p}

theorem tokens_down {σ : Sem c.nofWorkerSeats} (hσ : 0 < g.sem σ) :
    (g.down σ).tokens q p + ind (σ = .freeCounter q ∧ p = 0) = g.tokens q p := by
  unfold tokens
  simp only [down_sem, Function.update_apply, ind]
  grind

theorem tokens_up (σ : Sem c.nofWorkerSeats) : (g.up σ).tokens q p =
    g.tokens q p + ind (σ = .freeCounter q ∧ p = 0) := by
  unfold tokens
  simp only [up_sem, Function.update_apply, ind]
  grind

@[simp] theorem tokens_delivered (r : c.Proc) (sigs : List Signal) :
    (g.delivered r sigs).tokens q p = g.tokens q p := rfl

@[simp] theorem free_delivered (r : c.Proc) (sigs : List Signal) :
    (g.delivered r sigs).free q p = g.free q p := rfl

@[simp] theorem offering_delivered (r : c.Proc) (sigs : List Signal) :
    (g.delivered r sigs).offering q p = g.offering q p := rfl

theorem free_setCounter (i : Fin c.nofWorkerSeats) (x : Counter) :
    (g.setCounter i x).free q p + ind (p ≤ i ∧ Operator.Takes q (g.counters i)) =
      g.free q p + ind (p ≤ i ∧ Operator.Takes q x) :=
  Family.total_update (fun (i : Fin c.nofWorkerSeats) x => ind (p ≤ i ∧ Operator.Takes q x))
    g.counters i x

/-- `assign_daily_counters` writes one more counter. -/
theorem offering_write (i : Fin c.nofWorkerSeats) (s : Service) :
    (g.setCounter i { service := some s, workerPid := -1 }).offering q (i + 1) =
      g.offering q i + ind (q = s) := by
  have hex := Family.total_exchange
    (fun (j : Fin c.nofWorkerSeats) x => ind ((j : ℕ) < i + 1 ∧ x.service = some q))
    (fun (j : Fin c.nofWorkerSeats) x => ind ((j : ℕ) < i ∧ x.service = some q))
    (Function.update g.counters i { service := some s, workerPid := -1 }) g.counters i
    fun j hj => by
      have hne : (j : ℕ) ≠ i := fun h => hj (Fin.ext h)
      rw [Function.update_of_ne hj]
      exact ind_congr (and_congr_left fun _ => by omega)
  have hold : ind ((i : ℕ) < i ∧ (g.counters i).service = some q) = 0 :=
    ind_of_not fun h => lt_irrefl _ h.1
  have hnew : ind ((i : ℕ) < i + 1 ∧ (some s = some q)) = ind (q = s) :=
    ind_congr (by simp [eq_comm])
  rw [Function.update_self, hold, hnew] at hex
  exact hex

/-- A counter that cannot be taken makes no difference. -/
theorem free_succ {i : Fin c.nofWorkerSeats} (h : ¬ Operator.Takes q (g.counters i)) :
    g.free q (i + 1) = g.free q i := by
  refine Family.total_congr fun j => ind_congr ?_
  by_cases hj : j = i
  · subst hj
    simp [h]
  · have hne : (j : ℕ) ≠ i := fun h => hj (Fin.ext h)
    exact and_congr_left fun _ => by omega

end Shared

/-! ### The moves -/

/-- Whoever passes a counter has found it taken; every other step of an operator leaves at least as
    much room from any position on as before. -/
theorem Operator.Move.room {w : Fin c.nofWorkers} {l l' : Operator c} {g g' : Shared c}
    (h : Operator.Move w l g l' g')
    (hseat : ∀ k, (view w l).seat = some k →
      g.counters k = { service := some (c.workerService w), workerPid := c.pid (.operator w) })
    (q : Service) (p : ℕ) :
    g.free q p + ind (c.workerService w = q ∧ (view w l').passed p) + g'.tokens q p ≤
        g'.free q p + ind (c.workerService w = q ∧ (view w l).passed p) + g.tokens q p ∨
      ∃ i : Fin c.nofWorkerSeats, p = i + 1 ∧ c.workerService w = q ∧
        ¬ Operator.Takes q (g.counters i) ∧ (view w l).pos = some (i : ℕ) ∧
        (view w l').pos = some ((i : ℕ) + 1) ∧ g' = g := by
  have hview (x : Operator c) : view w x = x.pc.view (c.workerService w) := rfl
  have hne (σ : Sem c.nofWorkerSeats) (hm : σ.IsMutex) : ind (σ = .freeCounter q ∧ p = 0) = 0 :=
    ind_of_not fun h => hm.ne_freeCounter q h.1
  cases h with
  | silent hf hv => exact .inl (by rw [hv])
  | acquire hf σ hm hl hσ hv =>
    have := @Shared.tokens_down c g q p σ hσ
    have := hne σ hm
    rw [hv]
    exact .inl (Nat.add_le_add_left (by omega) _)
  | release hf σ hm hl hv =>
    have := @Shared.tokens_up c g q p σ
    have := hne σ hm
    rw [hv]
    exact .inl (Nat.add_le_add_left (by omega) _)
  | init hf hpc hpc' | consume hf hpc hpc' | «begin» hf hpc hpc' | pop hf k t qu hlen hqu hpc hpc'
  | popEmpty hf k hlen hpc hpc' | serveStart hf k t m hpc hpc' | count hf k t n m hpc hpc'
  | reply hf k t hpc hpc' | pauseCount hf k hpc hpc' | pauseStats hf k hpc hpc'
  | raiseStop hf k hpc hpc' | finish hf hpc hpc' =>
    rw [hview, hview, hpc, hpc']
    exact .inl le_rfl
  | takeToken hf hσ hv hv' =>
    have htok := @Shared.tokens_down c g q p _ hσ
    have hpos : (view w l').pos = some 0 := by rw [hv']; rfl
    have hstart : ind (c.workerService w = q ∧ (view w l').passed p) =
        ind (Sem.freeCounter (c.workerService w) = (.freeCounter q : Sem c.nofWorkerSeats) ∧
          p = 0) :=
      ind_congr (by simp [OpView.passed_iff hpos])
    left
    show g.free q p + _ + _ ≤ g.free q p + _ + _
    omega
  | giveToken hf p' hv hv' =>
    have htok := @Shared.tokens_up c g q p (.freeCounter (c.workerService w))
    have hpos : (view w l).pos = some p' := by rw [hv]; rfl
    have hnone : (view w l').pos = none := by rw [hv']; rfl
    have hend : ind (c.workerService w = q ∧ (view w l').passed p) = 0 :=
      ind_of_not fun h => OpView.not_passed hnone h.2
    have hback : ind (Sem.freeCounter (c.workerService w) =
        (.freeCounter q : Sem c.nofWorkerSeats) ∧ p = 0) ≤
        ind (c.workerService w = q ∧ (view w l).passed p) :=
      ind_mono fun h => ⟨by simpa using h.1, (OpView.passed_iff hpos).mpr (by omega)⟩
    left
    show g.free q p + _ + _ ≤ g.free q p + _ + _
    omega
  | dropToken hf hi p' hv hv' =>
    have hnone : (view w l').pos = none := by rw [hv']; rfl
    have hend : ind (c.workerService w = q ∧ (view w l').passed p) = 0 :=
      ind_of_not fun h => OpView.not_passed hnone h.2
    exact .inl (by omega)
  | dropSeat hf hi k hv hv' | takeJob hf hσ k hv hv' | dropJob hf hi k hv hv' =>
    rw [hv, hv']
    exact .inl le_rfl
  | pass hf i hi hv hv' =>
    have hpos : (view w l).pos = some (i : ℕ) := by rw [hv]; rfl
    have hpos' : (view w l').pos = some ((i : ℕ) + 1) := by rw [hv']; rfl
    by_cases hp : p = i + 1 ∧ c.workerService w = q
    · exact .inr ⟨i, hp.1, hp.2, hp.2 ▸ hi, hpos, hpos', rfl⟩
    · have hsame : ind (c.workerService w = q ∧ (view w l').passed p) ≤
          ind (c.workerService w = q ∧ (view w l).passed p) := by
        refine ind_mono fun h => ⟨h.1, (OpView.passed_iff hpos).mpr ?_⟩
        have hle := (OpView.passed_iff hpos').mp h.2
        have hne : p ≠ i + 1 := fun he => hp ⟨he, h.1⟩
        omega
      exact .inl (by omega)
  | sit hf i hi hv hv' =>
    have hpos : (view w l).pos = some (i : ℕ) := by rw [hv]; rfl
    have hnone : (view w l').pos = none := by rw [hv']; rfl
    have hend : ind (c.workerService w = q ∧ (view w l').passed p) = 0 :=
      ind_of_not fun h => OpView.not_passed hnone h.2
    have hfree := @Shared.free_setCounter c g q p i
      { g.counters i with workerPid := c.pid (.operator w) }
    have htaken : ind (p ≤ i ∧ Takes q { g.counters i with workerPid := c.pid (.operator w) }) = 0 :=
      ind_of_not fun h => by
        have hpid := c.pid_pos (.operator w)
        have := h.2.2
        simp only at this
        omega
    have hle : ind (p ≤ i ∧ Takes q (g.counters i)) ≤
        ind (c.workerService w = q ∧ (view w l).passed p) :=
      ind_mono fun h => ⟨Option.some.inj (hi.1.symm.trans h.2.1), (OpView.passed_iff hpos).mpr h.1⟩
    left
    show _ + _ + g.tokens q p ≤ (g.setCounter i _).free q p + _ + _
    omega
  | stand hf k hv hv' =>
    have hpos : (view w l').pos = some 0 := by rw [hv']; rfl
    have hk := hseat k (by rw [hv]; rfl)
    have hfree := @Shared.free_setCounter c g q p k { g.counters k with workerPid := -1 }
    have htaken : ind (p ≤ k ∧ Takes q (g.counters k)) = 0 := ind_of_not fun h => by
      have hpid := c.pid_pos (.operator w)
      have := h.2.2
      simp only [hk] at this
      omega
    have hle : ind (c.workerService w = q ∧ (view w l').passed p) ≤
        ind (p ≤ k ∧ Takes q { g.counters k with workerPid := -1 }) := by
      refine ind_mono fun h => ⟨?_, by rw [hk, h.1], rfl⟩
      have := (OpView.passed_iff hpos).mp h.2
      omega
    left
    show _ + _ + g.tokens q p ≤ (g.setCounter k _).free q p + _ + _
    omega

namespace Operator

variable {w : Fin c.nofWorkers} {l l' : Operator c} {g g' : Shared c}

/-- Outside `run_day` an operator touches no counter and no token. -/
theorem Move.outside (h : Move w l g l' g') (hrun : (view w l).inRun = false) :
    g'.counters = g.counters ∧ ∀ q, g'.sem (.freeCounter q) = g.sem (.freeCounter q) := by
  cases h with
  | acquire hf σ hm hl hσ hv | release hf σ hm hl hv =>
    exact ⟨rfl, fun q => by simp [(hm.ne_freeCounter q).symm]⟩
  | takeToken hf hσ hv hv' | giveToken hf p hv hv' | sit hf i hi hv hv' | stand hf k hv hv' =>
    rw [hv] at hrun
    exact absurd hrun.symm Bool.false_ne_true
  | takeJob => exact ⟨rfl, fun q => by simp⟩
  | _ => exact ⟨rfl, fun _ => rfl⟩

/-- An operator leaves the counters of the others alone. -/
theorem Move.counters (h : Move w l g l' g')
    (hseat : ∀ k, (view w l).seat = some k →
      g.counters k = { service := some (c.workerService w), workerPid := c.pid (.operator w) })
    {k : Fin c.nofWorkerSeats} (hfree : (g.counters k).workerPid ≠ -1)
    (hother : (g.counters k).workerPid ≠ c.pid (.operator w)) :
    g'.counters k = g.counters k := by
  cases h with
  | sit hf i hi hv hv' =>
    have hne : k ≠ i := by
      rintro rfl
      exact hfree hi.2
    exact Function.update_of_ne hne _ _
  | stand hf i hv hv' =>
    have hne : k ≠ i := by
      rintro rfl
      exact hother (by rw [hseat k (by rw [hv]; rfl)])
    exact Function.update_of_ne hne _ _
  | _ => rfl

theorem Move.workers (h : Move w l g l' g') {v : Fin c.nofWorkers} (hv : v ≠ w) :
    g'.workers v = g.workers v := by
  cases h with
  | sit | stand | pauseCount => exact Function.update_of_ne hv _ _
  | _ => rfl

/-- An operator sits where its counter and its own entry say it does. -/
theorem Move.seated (h : Move w l g l' g')
    (hseat : ∀ k, (view w l).seat = some k →
      g.counters k = { service := some (c.workerService w), workerPid := c.pid (.operator w) } ∧
      (g.workers w).currentCounter = some k)
    {k : Fin c.nofWorkerSeats} (hk : (view w l').seat = some k) :
    g'.counters k = { service := some (c.workerService w), workerPid := c.pid (.operator w) } ∧
      (g'.workers w).currentCounter = some k := by
  have hview (x : Operator c) : view w x = x.pc.view (c.workerService w) := rfl
  cases h with
  | silent hf hv => exact hseat k (hv ▸ hk)
  | acquire hf σ hm hl hσ hv | release hf σ hm hl hv =>
    rw [hv] at hk
    exact hseat k hk
  | sit hf i hi hv hv' =>
    rw [hv'] at hk
    obtain rfl : i = k := Option.some.inj hk
    simp [hi.1]
  | pauseCount hf i hpc hpc' =>
    rw [hview, hpc'] at hk
    have := hseat k (by rw [hview, hpc]; exact hk)
    exact ⟨this.1, by simpa using this.2⟩
  | init hf hpc hpc' | consume hf hpc hpc' | «begin» hf hpc hpc' | pop hf i t qu hlen hqu hpc hpc'
  | popEmpty hf i hlen hpc hpc' | serveStart hf i t m hpc hpc' | count hf i t n m hpc hpc'
  | reply hf i t hpc hpc' | pauseStats hf i hpc hpc' | raiseStop hf i hpc hpc'
  | finish hf hpc hpc' =>
    rw [hview, hpc'] at hk
    exact hseat k (by rw [hview, hpc]; exact hk)
  | takeJob hf hσ i hv hv' | dropJob hf hi i hv hv' =>
    rw [hv'] at hk
    exact hseat k (by rw [hv]; exact hk)
  | takeToken hf hσ hv hv' | giveToken hf p hv hv' | dropToken hf hi p hv hv'
  | pass hf i hi hv hv' | stand hf i hv hv' | dropSeat hf hi i hv hv' =>
    rw [hv'] at hk
    cases hk

end Operator

namespace Director

variable {pc pc' : DirPc c.nofWorkerSeats c.nofWorkers c.nofUsers} {v v' : DirVars}
  {g g' : Shared c}

theorem Move.counters (h : Move pc v g pc' v' g') :
    g'.counters = g.counters ∨ ∃ n, pc.written = some n := by
  cases h <;> first | exact .inl rfl | exact .inr ⟨_, rfl⟩

theorem Move.workers (h : Move pc v g pc' v' g') :
    g'.workers = g.workers ∨ ∀ w, pc.preStart w = true := by
  cases h <;> first | exact .inl rfl | exact .inr fun _ => rfl

end Director

namespace Director

variable {pc pc' : DirPc c.nofWorkerSeats c.nofWorkers c.nofUsers} {v v' : DirVars}
  {g g' : Shared c}

/-- `assign_daily_counters` counts the counters it writes. -/
theorem Move.written (h : Move pc v g pc' v' g')
    (hI : ∀ n, pc.written = some n → (∀ q, v.countersPerService q = g.offering q n) ∧
      ∀ j : Fin c.nofWorkerSeats, (j : ℕ) < n → (g.counters j).workerPid = -1)
    (n : ℕ) (hn : pc'.written = some n) : (∀ q, v'.countersPerService q = g'.offering q n) ∧
      ∀ j : Fin c.nofWorkerSeats, (j : ℕ) < n → (g'.counters j).workerPid = -1 := by
  cases h
  case assignInit =>
    obtain rfl : 0 = n := Option.some.inj hn
    exact ⟨fun q => (Family.total_eq_zero fun j => by simp).symm, fun j hj => by omega⟩
  case assignWrite i s =>
    obtain rfl : (i : ℕ) + 1 = n := Option.some.inj hn
    obtain ⟨h1, h2⟩ := hI i rfl
    refine ⟨?_, ?_⟩
    · intro q
      rw [Shared.offering_write, ← h1 q]
      by_cases hs : q = s
      · subst hs
        simp
      · simp [hs]
    · intro j hj
      rw [Shared.setCounter_counters, Function.update_apply]
      split
      · rfl
      · have hne : (j : ℕ) ≠ i := fun h => ‹¬ j = i› (Fin.ext h)
        exact h2 j (by omega)
  case assignLast i hi =>
    obtain rfl : c.nofWorkerSeats = n := Option.some.inj hn
    have heq : c.nofWorkerSeats = i + 1 := by omega
    exact hI _ (congrArg some heq.symm)
  all_goals first | exact hI n hn | cases hn

/-- The tokens handed out are as many as the counters written. -/
theorem Move.allotted (h : Move pc v g pc' v' g')
    (hI : ∀ n q, pc.written = some n → pc.granted q = true →
      g.sem (.freeCounter q) = v.countersPerService q)
    (n : ℕ) (q : Service) (hn : pc'.written = some n) (hq : pc'.granted q = true) :
    g'.sem (.freeCounter q) = v'.countersPerService q := by
  cases h
  case assignInit | assignWrite => exact absurd hq Bool.false_ne_true
  case setFree s =>
    by_cases hs : q = s
    · subst hs
      simp
    · have hlt : q < s := lt_of_le_of_ne (by simpa [DirPc.granted] using hq) hs
      have := hI _ q rfl (by simpa [DirPc.granted] using hlt)
      simpa [hs] using this
  case assignLast i hi => simp [DirPc.granted] at hq
  case resetQueueNext s hs =>
    have hlt : q ≤ s := by
      simp only [DirPc.granted, decide_eq_true_eq, Fin.lt_def] at hq
      exact Fin.le_def.mpr (Nat.lt_succ_iff.mp hq)
    exact hI _ q rfl (by simpa [DirPc.granted] using hlt)
  case resetQueueLast s hs =>
    have hlt : q ≤ s := Fin.le_def.mpr (by omega)
    exact hI _ q rfl (by simpa [DirPc.granted] using hlt)
  case setJobs s => simpa using hI _ q rfl hq
  all_goals first | exact hI n q hn hq | cases hn

/-- When all counters are written and nobody sits at one, the free ones are those of the service. -/
theorem free_eq_offering {q : Service}
    (h : ∀ j : Fin c.nofWorkerSeats, (j : ℕ) < c.nofWorkerSeats → (g.counters j).workerPid = -1) :
    g.free q 0 = g.offering q c.nofWorkerSeats :=
  Family.total_congr fun j => ind_congr
    ⟨fun hj => ⟨j.isLt, hj.2.1⟩, fun hj => ⟨Nat.zero_le _, hj.2, h j j.isLt⟩⟩

/-- With nobody at the counters the director keeps the tokens within the free counters. -/
theorem Move.room (h : Move pc v g pc' v' g')
    (hwritten : ∀ n, pc.written = some n → (∀ q, v.countersPerService q = g.offering q n) ∧
      ∀ j : Fin c.nofWorkerSeats, (j : ℕ) < n → (g.counters j).workerPid = -1)
    (scanners : Service → ℕ → ℕ) (hnone : ∀ n, pc.written = some n → ∀ q p, scanners q p = 0)
    (hI : ∀ q p, (p = 0 → pc.granted q = true) → scanners q p + g.tokens q p ≤ g.free q p)
    (q : Service) (p : ℕ) (hp : p = 0 → pc'.granted q = true) :
    scanners q p + g'.tokens q p ≤ g'.free q p := by
  have hpos (hp : p ≠ 0) : scanners q p + g.tokens q p ≤ g.free q p := hI q p fun h => absurd h hp
  cases h
  case assignInit => exact hpos fun h => Bool.false_ne_true (hp h)
  case assignWrite i s =>
    have hne : p ≠ 0 := fun h => Bool.false_ne_true (hp h)
    have hzero : (g.setCounter i { service := some s, workerPid := -1 }).tokens q p = 0 := if_neg hne
    rw [hnone _ rfl, hzero]
    exact Nat.zero_le _
  case setJobs s =>
    have htok : (g.setSemValue (.jobs s) 0).tokens q p = g.tokens q p := by simp [Shared.tokens]
    rw [htok]
    exact hI q p hp
  case setFree s =>
    by_cases hs : q = s ∧ p = 0
    · obtain ⟨rfl, rfl⟩ := hs
      obtain ⟨h1, h2⟩ := hwritten _ rfl
      have hfree := @free_eq_offering c g q h2
      have htok : (g.setSemValue (.freeCounter q) (v.countersPerService q)).tokens q 0 =
          v.countersPerService q := by simp [Shared.tokens]
      rw [hnone _ rfl, htok, h1]
      exact hfree.ge.trans' (Nat.zero_add _).le
    · have htok : (g.setSemValue (.freeCounter s) (v.countersPerService s)).tokens q p =
          g.tokens q p := by
        unfold Shared.tokens
        simp only [Shared.setSemValue_sem, Function.update_apply, Sem.freeCounter.injEq]
        grind
      rw [htok]
      refine hI q p ?_
      intro h
      have hle := hp h
      simp only [DirPc.granted, decide_eq_true_eq] at hle ⊢
      exact lt_of_le_of_ne hle fun he => hs ⟨he, h⟩
  case assignLast i hi => exact hI q p fun h => absurd (hp h) (by simp [DirPc.granted])
  case resetQueueNext s hs =>
    refine hI q p ?_
    intro h
    have hlt := hp h
    simp only [DirPc.granted, decide_eq_true_eq, Fin.lt_def, Fin.le_def] at hlt ⊢
    exact Nat.lt_succ_iff.mp hlt
  case resetQueueLast s hs =>
    refine hI q p ?_
    intro h
    simp only [DirPc.granted, decide_eq_true_eq, Fin.le_def]
    omega
  all_goals exact hI q p hp

end Director

theorem Dispenser.Move.freeCounter {pc pc' : DispPc c.nofWorkerSeats} {f : DispFlags}
    {g g' : Shared c} (h : Dispenser.Move pc f g pc' g') (q : Service) :
    g'.sem (.freeCounter q) = g.sem (.freeCounter q) := by
  cases h <;> rfl

/-! ### The invariant -/

namespace State

/-- The operators of service `q` whose scan has passed the first `p` counters. -/
def scanners (s : State c) (q : Service) (p : ℕ) : ℕ :=
  Family.total (fun w v => ind (c.workerService w = q ∧ v.passed p)) s.view

theorem scanners_setOperator (s : State c) (w : Fin c.nofWorkers) (x : Operator c × Shared c)
    (q : Service) (p : ℕ) : (s.setOperator w x).scanners q p +
      ind (c.workerService w = q ∧ (Operator.view w (s.operators w)).passed p) =
        s.scanners q p + ind (c.workerService w = q ∧ (Operator.view w x.1).passed p) :=
  s.total_view_setOperator (fun w v => ind (c.workerService w = q ∧ v.passed p)) w x

/-- Who sits where, and how much room is left for those who look for a counter. -/
structure Seating (s : State c) : Prop where
  written : ∀ n, s.director.pc.written = some n →
    (∀ q, s.director.vars.countersPerService q = s.g.offering q n) ∧
      ∀ j : Fin c.nofWorkerSeats, (j : ℕ) < n → (s.g.counters j).workerPid = -1
  allotted : ∀ n q, s.director.pc.written = some n → s.director.pc.granted q = true →
    s.g.sem (.freeCounter q) = s.director.vars.countersPerService q
  seated : ∀ w k, (s.view w).seat = some k → s.g.counters k =
      { service := some (c.workerService w), workerPid := c.pid (.operator w) } ∧
    (s.g.workers w).currentCounter = some k
  room : ∀ q p, (p = 0 → s.director.pc.granted q = true) →
    s.scanners q p + s.g.tokens q p ≤ s.g.free q p

/-- Nobody looks for a counter while the counters are being written. -/
theorem Barrier.no_scanners {s : State c} (hB : s.Barrier) {n : ℕ}
    (hn : s.director.pc.written = some n) (q : Service) (p : ℕ) : s.scanners q p = 0 := by
  refine Family.total_eq_zero fun w => ind_of_not ?_
  intro h
  have hrun : (s.view w).inRun = false :=
    hB.not_inRun (by simp [DirPc.live, DirPc.preStart_of_written hn w])
  obtain ⟨i, b, hidle⟩ := OpPc.view_of_not_inRun hrun
  refine OpView.not_passed ?_ h.2
  rw [view, Operator.view, hidle]
  rfl

namespace Seating

variable {s s' : State c}

theorem director (hB : s.Barrier) (hI : s.Seating) {l' : Director c} {g' : Shared c}
    (hm : Director.Move s.director.pc s.director.vars s.g l'.pc l'.vars g') :
    (s.setDirector (l', g')).Seating := by
  have hidle {w : Fin c.nofWorkers} (h : s.director.pc.preStart w = true) (k) :
      (s.view w).seat ≠ some k := by
    have hrun : (s.view w).inRun = false := hB.not_inRun (by simp [DirPc.live, h])
    obtain ⟨i, b, hidle⟩ := OpPc.view_of_not_inRun hrun
    rw [view, Operator.view, hidle]
    simp [OpView.idle]
  refine ⟨hm.written hI.written, hm.allotted hI.allotted, fun w k hk => ?_,
    hm.room hI.written s.scanners (fun n hn => hB.no_scanners hn) hI.room⟩
  obtain ⟨h1, h2⟩ := hI.seated w k hk
  have hcounters : g'.counters = s.g.counters := by
    refine hm.counters.resolve_right ?_
    rintro ⟨n, hn⟩
    exact hidle (DirPc.preStart_of_written hn w) k hk
  have hworkers : g'.workers = s.g.workers := hm.workers.resolve_right fun h => hidle (h w) k hk
  exact ⟨hcounters ▸ h1, hworkers ▸ h2⟩

theorem operator (hB : s.Barrier) (hI : s.Seating) {w : Fin c.nofWorkers} {l' : Operator c}
    {g' : Shared c} (hm : Operator.Move w (s.operators w) s.g l' g') :
    (s.setOperator w (l', g')).Seating := by
  have hout (n) (hn : s.director.pc.written = some n) := hm.outside
    (hB.not_inRun (by simp [DirPc.live, DirPc.preStart_of_written hn w]))
  refine ⟨?_, ?_, ?_, ?_⟩
  · intro n hn
    have hcounters : g'.counters = s.g.counters := (hout n hn).1
    unfold Shared.offering
    rw [setOperator_g, hcounters]
    exact hI.written n hn
  · intro n q hn hq
    exact ((hout n hn).2 q).trans (hI.allotted n q hn hq)
  · intro v k hk
    rw [view_setOperator] at hk
    by_cases hv : v = w
    · subst hv
      rw [Function.update_self] at hk
      exact hm.seated (hI.seated v) hk
    · rw [Function.update_of_ne hv] at hk
      obtain ⟨h1, h2⟩ := hI.seated v k hk
      have hpid : c.pid (.operator v) ≠ c.pid (.operator w) :=
        c.pid_injective.ne (by simpa using hv)
      have hpos := c.pid_pos (.operator v)
      have hcounters : g'.counters k = s.g.counters k :=
        hm.counters (fun k hk => (hI.seated w k hk).1) (by rw [h1]; simp only; omega)
          (by rw [h1]; exact hpid)
      exact ⟨hcounters.trans h1, (congrArg _ (hm.workers hv)).trans h2⟩
  · intro q p hp
    have hscan := s.scanners_setOperator w (l', g') q p
    dsimp only at hscan
    show _ + g'.tokens q p ≤ g'.free q p
    obtain h | ⟨i, rfl, hw, htakes, hpos, hpos', rfl⟩ :=
      hm.room (fun k hk => (hI.seated w k hk).1) q p
    · have hroom := hI.room q p hp
      omega
    · -- The operator passes a counter: those at the counter were more than those past it.
      have hrun : (s.view w).inRun = true := by
        by_contra hrun
        obtain ⟨a, b, hidle⟩ := OpPc.view_of_not_inRun (Bool.eq_false_iff.mpr hrun)
        rw [Operator.view, hidle] at hpos
        cases hpos
      have hroom := hI.room q i fun _ => DirPc.granted_of_dayOpen (hB.live_of_inRun hrun) q
      have hlt : s.scanners q (i + 1) < s.scanners q i := by
        refine Family.total_lt_total (fun v => ind_mono fun h => ⟨h.1, ?_⟩) w ?_
        · obtain ⟨p', hp', hle⟩ := h.2
          exact ⟨p', hp', by omega⟩
        · have hno : ¬ (s.view w).passed (i + 1) := fun h => by
            have := (OpView.passed_iff hpos).mp h
            omega
          rw [ind_of_not fun h => hno h.2, ind_of ⟨hw, (OpView.passed_iff hpos).mpr le_rfl⟩]
          exact Nat.zero_lt_one
      have hold : ind (c.workerService w = q ∧
          (Operator.view w (s.operators w)).passed ((i : ℕ) + 1)) = 0 :=
        ind_of_not fun h => by
          have := (OpView.passed_iff hpos).mp h.2
          omega
      have hnew : ind (c.workerService w = q ∧ (Operator.view w l').passed ((i : ℕ) + 1)) = 1 :=
        ind_of ⟨hw, (OpView.passed_iff hpos').mpr le_rfl⟩
      have hfree := Shared.free_succ htakes
      have hzero : s.g.tokens q ((i : ℕ) + 1) = 0 := if_neg (Nat.succ_ne_zero _)
      omega

theorem step (hB : s.Barrier) (hI : s.Seating) (h : s.Move s') : s'.Seating := by
  cases h with
  | director hm => exact hI.director hB hm
  | dispenser hm hf =>
    have hfree := hm.freeCounter
    rw [hm.frame]
    refine ⟨hI.written, fun n q hn hq => (hfree q).trans (hI.allotted n q hn hq), hI.seated,
      fun q p hp => ?_⟩
    unfold Shared.tokens
    rw [setDispenser_g, hfree q]
    exact hI.room q p hp
  | operator w hstep hm => exact hI.operator hB hm
  | user u hm hf =>
    rw [hm.frame]
    exact ⟨hI.written, hI.allotted, hI.seated, hI.room⟩
  | deliver p sigs hp =>
    obtain ⟨b, hb⟩ := s.deliverTo_director_vars sigs p
    refine ⟨?_, ?_, ?_, ?_⟩
    · simpa [hb] using hI.written
    · simpa [hb] using hI.allotted
    · simpa using hI.seated
    · simpa [scanners] using hI.room
  | interrupt sig hsig => exact ⟨hI.written, hI.allotted, hI.seated, hI.room⟩
  | tick ns => exact ⟨hI.written, hI.allotted, hI.seated, hI.room⟩

theorem init : (State.init c).Seating := by
  refine ⟨by rintro _ ⟨⟩, by rintro _ _ ⟨⟩, by rintro _ _ ⟨⟩, fun q p _ => ?_⟩
  have hscan : (State.init c).scanners q p = 0 :=
    Family.total_eq_zero fun w => ind_of_not fun h => OpView.not_passed rfl h.2
  have htok : (State.init c).g.tokens q p = 0 := by
    unfold Shared.tokens
    split <;> rfl
  rw [hscan, htok]
  exact Nat.zero_le _

end Seating

end State

theorem seating {s : State c} (h : Reachable s) : s.Seating :=
  h.invariant .init fun _ _ hr hI hm => hI.step (barrier hr) hm

/-- CORRECT: one scan always suffices. The operators of a service past position `p` never outnumber
    its free counters from `p` on, so no operator reaches the end of the for-loop: the fallback of
    `claim_counter_for_service` is never executed. -/
theorem one_scan_suffices {s : State c} (h : Reachable s) :
    (∀ q p, p ≠ 0 → s.scanners q p ≤ s.g.free q p) ∧
    ∀ w, (s.operators w).pc ≠ .scanFallback := by
  have hroom (q p) (hp : p ≠ 0) : s.scanners q p ≤ s.g.free q p :=
    (Nat.le_add_right _ _).trans ((seating h).room q p fun h => absurd h hp)
  refine ⟨hroom, fun w hpc => ?_⟩
  have hpos : (s.view w).pos = some c.nofWorkerSeats := by
    rw [State.view, Operator.view, hpc]
    rfl
  have hfree : s.g.free (c.workerService w) c.nofWorkerSeats = 0 :=
    Family.total_eq_zero fun i => ind_of_not fun hi => absurd i.isLt (Nat.not_lt.mpr hi.1)
  have hle := hroom (c.workerService w) c.nofWorkerSeats c.seats_pos.ne'
  have hone := Family.le_total
    (fun v x => ind (c.workerService v = c.workerService w ∧ x.passed c.nofWorkerSeats)) s.view w
  rw [ind_of ⟨rfl, (OpView.passed_iff hpos).mpr le_rfl⟩] at hone
  have := hone.trans hle
  omega

/-- In the small office the operator has sat down at the only counter. -/
theorem one_scan_suffices_small : ∃ s : State smallOffice,
    exec step SmallOffice.arrival (State.init smallOffice) = some s ∧
    (s.view (0 : Fin 1)).seat.isSome = true ∧
    ∀ w, (s.operators w).pc ≠ .scanFallback := by
  have hrun : ((exec step SmallOffice.arrival (State.init smallOffice)).any fun s =>
      decide ((s.view (0 : Fin 1)).seat.isSome = true)) = true := by decide +kernel
  obtain ⟨s, hs, hseat⟩ := (Option.any_eq_true _ _).mp hrun
  exact ⟨s, hs, of_decide_eq_true hseat, (one_scan_suffices (reach_of_exec _ hs)).2⟩

end PostOffice
