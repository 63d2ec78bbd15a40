import PostOffice.Ipc

/-! What the runs of the director leave to each other. A run may end with objects left behind, and the
    next one removes them before it creates its own:

        run, killed ──▶ leftovers ──cleanup_stale_ipc_resources──▶ nothing ──▶ new objects ──▶ run

    So no run works with what an earlier one has left, and no leftover keeps a run from working. -/

namespace PostOffice

open KeyTable Transition

theorem kept {table : IpcTable} (hmine : ∀ r : Resource, table.Mine r.key) {s : Life}
    (h : Reach Life.step (Life.init table) s) : s.Kept :=
  ReachBy.invariant (.init hmine) (fun _ _ _ _ hK _ hs => hK.step hs) h

/-- CORRECT: every run starts afresh. Whatever earlier runs left and wherever they ended, a run that
    has passed `allocate_ipc` works with objects that have been created in this run, of the sizes
    that its configuration asks for, and has read its file into a segment of zeros; when `main` has
    returned after `cleanup_ipc` none of the objects is left. No object of another program is
    touched. -/
theorem runs_start_afresh {table : IpcTable} (hmine : ∀ r : Resource, table.Mine r.key) {s : Life}
    (h : Reach Life.step (Life.init table) s) :
    (s.pc = .attach ∨ s.pc = .work →
      readConfigFile s.file .zero = .ok s.config ∧ ∀ r, s.Holds r) ∧
    (s.pc = .attach → s.Silent) ∧
    (s.pc = .exited → ∀ r, s.Lacks r) ∧
    s.table.others Resource.ours = s.outside := by
  have hK := kept hmine h
  have hat := hK.at_pc
  refine ⟨?_, fun hpc => ?_, fun hpc => ?_, hK.outside⟩
  · rintro (hpc | hpc) <;> simp only [Life.At, hpc] at hat
    · exact ⟨hat.2.2.2, hat.1⟩
    · exact ⟨hat.2.2, hat.1⟩
  · simp only [Life.At, hpc] at hat
    exact hat.2.1
  · simp only [Life.At, hpc] at hat
    exact hat

/-- The system before the first run: a message queue from an older version with a message in it, and
    a segment of another program. -/
def usedTable : IpcTable where
  objs :=
    [{ key := (.msg, 0x5678), id := 3, size := 1, shared := true, owned := true
       contents := { parameters := .zero, messages := [.director { kind := .init, index := 0, pid := 7 }] } },
     { key := (.shm, 0x77), id := 5, size := 64, shared := true, owned := false, contents := .fresh }]
  next := 9
  keys_nodup := by decide
  ids_nodup := by decide
  ids_lt := by decide

/-- The first run is killed between two calls of `allocate_ipc`, the second one gets to work. -/
def twoRuns : List LifeAct :=
  .start (Checked.seatsConfig "3") :: List.replicate 16 (.call true) ++ [.kill] ++
    .start (Checked.seatsConfig "2") :: List.replicate 25 (.call true)

theorem runs_start_afresh_small : ∃ s, exec Life.step twoRuns (Life.init usedTable) = some s ∧
    s.pc = .work ∧ s.table.objs.length = 9 ∧ ∀ r, s.Holds r := by
  have hrun : ((exec Life.step twoRuns (Life.init usedTable)).any fun s =>
      decide (s.pc = .work ∧ s.table.objs.length = 9)) = true := by decide +kernel
  obtain ⟨s, hs, h⟩ := (Option.any_eq_true _ _).mp hrun
  obtain ⟨hpc, hlen⟩ := of_decide_eq_true h
  have hfresh := runs_start_afresh (by decide) (reach_of_exec _ hs)
  exact ⟨s, hs, hpc, hlen, (hfresh.1 (.inr hpc)).2⟩

/-! ### No leftover blocks a run -/

theorem sizeT_pos {x : ℤ} (hpos : 0 < x) (hlt : x < 2 ^ 64) : 0 < (x % 2 ^ 64).toNat := by
  rw [Int.emod_eq_of_lt hpos.le hlt]
  exact Int.pos_iff_toNat_pos.mp hpos

/-- The sizes that an accepted configuration asks for. -/
theorem Resource.exists_size {config : SimulationParameter} (h : Checked.Accepted config)
    (hmax : config.nofWorkerSeats ≤ Checked.maxSeats) (r : Resource) :
    ∃ n, 0 < n ∧ r.size config = some n := by
  have hseats := Checked.int_iff.mp (h.ints .nofWorkerSeats)
  have hworkers := Checked.int_iff.mp (h.ints .nofWorkers)
  have husers := Checked.int_iff.mp (h.ints .nofUsers)
  have hpos := h.seats_pos
  have hpos' := h.workers_pos
  have hpos'' := h.users_pos
  simp only [SimulationParameter.get] at hseats hworkers husers
  cases r with
  | config | stats | queues | messages =>
    simp only [size, Option.some.injEq, exists_eq_right', maxCountQueue, serviceCount]
    omega
  | counters | workers | users =>
    simp only [size, Option.some.injEq, exists_eq_right']
    exact sizeT_pos (by omega) (by omega)
  | semaphores =>
    simp only [size, Checked.totalSems_eq hpos.le hmax, Option.map_some, Option.some.injEq,
      exists_eq_right']
    omega

namespace Life

variable {s s' s'' : Life}

/-- Later in the same run, everything being granted. -/
def Granted (s s' : Life) : Prop := ReachBy Life.step (fun _ a => a = .call true) s s'

theorem Granted.call (h : s.call true = some s') (h' : Granted s' s'') : Granted s s'' :=
  ReachBy.trans (.tail .refl (a := .call true) rfl h) h'

theorem Granted.trans (h : Granted s s') (h' : Granted s' s'') : Granted s s'' := ReachBy.trans h h'

theorem Kept.granted (h : s.Kept) (h' : Granted s s') : s'.Kept :=
  ReachBy.invariant h (fun _ _ _ _ hK _ hs => hK.step hs) h'

theorem stale_ends {rest : List Resource} (h : s.Kept) (hpc : s.pc = .staleGet rest) :
    ∃ s', Granted s s' ∧ s'.pc = .getConfig ∧ s'.file = s.file := by
  induction rest generalizing s with
  | nil => exact ⟨{ s with pc := .getConfig }, .call (by simp [Life.call, hpc]) .refl, rfl, rfl⟩
  | cons r rest ih =>
    cases hf : s.table.find r.key with
    | none =>
      have hcall : s.call true = some { s with pc := .staleGet rest } := by
        simp [Life.call, hpc, (h.mine r).get_one, hf]
      obtain ⟨s', hs', hpc', hfile⟩ := ih (h.call hcall) rfl
      exact ⟨s', .call hcall hs', hpc', hfile⟩
    | some o =>
      have hcall : s.call true = some { s with pc := .staleRemove r o.id rest } := by
        simp [Life.call, hpc, (h.mine r).get_one, hf]
      have hcall' : ({ s with pc := .staleRemove r o.id rest } : Life).call true =
          some { s with table := s.table.remove o.id, pc := .staleGet rest } := rfl
      obtain ⟨s', hs', hpc', hfile⟩ := ih ((h.call hcall).call hcall') rfl
      exact ⟨s', .call hcall (.call hcall' hs'), hpc', hfile⟩

theorem getConfig_granted (h : s.Kept) (hpc : s.pc = .getConfig) :
    ∃ s', s.call true = some s' ∧ s'.pc = .attachConfig ∧ s'.file = s.file := by
  have habsent := h.at_pc
  simp only [At, hpc] at habsent
  have hcall : s.call true = some { s.inserted .config (12 * 4) (habsent .config).1 with
      pc := .attachConfig } := by
    simp only [Life.call, hpc, Resource.size, Option.map_some, create_eq (habsent .config)]
    rfl
  exact ⟨_, hcall, rfl, rfl⟩

theorem attachConfig_granted (h : s.Kept) (hpc : s.pc = .attachConfig) :
    ∃ s', s.call true = some s' ∧ s'.pc = .readConfig ∧ s'.file = s.file := by
  have hat := h.at_pc
  simp only [At, hpc] at hat
  obtain ⟨⟨o, ho, -⟩, -⟩ := hat
  simp only [Life.call, hpc, ho, Option.some.injEq, exists_eq_left', if_true, and_self]

theorem readConfig_granted (h : s.Kept) (hpc : s.pc = .readConfig) {config : SimulationParameter}
    (hread : readConfigFile s.file .zero = .ok config) :
    ∃ s', s.call true = some s' ∧ s'.pc = .allocate Resource.allocations ∧ s'.config = config ∧
      ∀ r ∉ Resource.allocations, s'.Holds r := by
  have hat := h.at_pc
  simp only [At, hpc] at hat
  have hcall : s.call true = some { s.setConfig config with pc := .allocate Resource.allocations } := by
    simp only [Life.call, hpc, if_true, hat.2.1, hread]
  have hat' := (h.call hcall).at_pc
  exact ⟨_, hcall, rfl, rfl, fun r hr => (hat'.2.1 r hr).resolve_right fun hmem => hr hmem.1⟩

theorem allocate_ends {rest : List Resource} (h : s.Kept) (hpc : s.pc = .allocate rest)
    (hheld : ∀ r ∉ rest, s.Holds r) (hsize : ∀ r : Resource, ∃ n, 0 < n ∧ r.size s.config = some n) :
    ∃ s', Granted s s' ∧ s'.pc = .attach ∧ s'.config = s.config := by
  induction rest generalizing s with
  | nil =>
    have hids : ¬ ∃ r ∈ Resource.allocations, s.ids r = none := by
      rintro ⟨r, -, hnone⟩
      obtain ⟨o, -, hid, -⟩ := hheld r List.not_mem_nil
      exact absurd (hid.symm.trans hnone) (Option.some_ne_none _)
    refine ⟨{ s with pc := .attach }, .call ?_ .refl, rfl, rfl⟩
    simp only [Life.call, hpc, if_neg hids]
  | cons r rest ih =>
    obtain ⟨n, hpos, hn⟩ := hsize r
    have hat := h.at_pc
    simp only [At, hpc] at hat
    have habsent := (hat.1 r List.mem_cons_self).2
    have hl := habsent.1
    have hcall : s.call true = some { s.inserted r n hl with pc := .allocate rest } := by
      simp only [Life.call, hpc, hn, Option.map_some, create_eq habsent, hpos, and_self, if_true]
    have hheld' : ∀ r' ∉ rest, (s.inserted r n hl).Holds r' := fun r' hr' => by
      by_cases heq : r' = r
      · subst heq
        exact holds_inserted hl h hn
      · exact (hheld r' (List.not_mem_cons_of_ne_of_not_mem heq hr')).inserted hl
    obtain ⟨s', hs', hpc', hconfig⟩ := ih (h.call hcall) rfl hheld' hsize
    exact ⟨s', .call hcall hs', hpc', hconfig⟩

theorem cleanup_ends {rest : List Resource} (hpc : s.pc = .cleanup rest) :
    ∃ s', Granted s s' ∧ s'.pc = .exited := by
  induction rest generalizing s with
  | nil => exact ⟨{ s with pc := .exited }, .call (by simp [Life.call, hpc]) .refl, rfl⟩
  | cons r rest ih =>
    cases hid : s.ids r with
    | none =>
      have hcall : s.call true = some { s with pc := .cleanup rest } := by
        simp [Life.call, hpc, hid]
      obtain ⟨s', hs', hpc'⟩ := ih (s := { s with pc := .cleanup rest }) rfl
      exact ⟨s', .call hcall hs', hpc'⟩
    | some id =>
      have hcall : s.call true =
          some { s with table := s.table.remove id, pc := .cleanup rest } := by
        simp [Life.call, hpc, hid]
      obtain ⟨s', hs', hpc'⟩ :=
        ih (s := { s with table := s.table.remove id, pc := .cleanup rest }) rfl
      exact ⟨s', .call hcall hs', hpc'⟩

end Life

/-- CORRECT: no leftover blocks a run. From every state without a director that any runs lead to, a
    director started with an acceptable file gets to work when the system grants what it asks for,
    and from there to the end of `cleanup_ipc`. -/
theorem leftovers_block_no_run {table : IpcTable} (hmine : ∀ r : Resource, table.Mine r.key)
    {s : Life} (h : Reach Life.step (Life.init table) s) (hidle : s.idle = true)
    {file : List Char} {config : SimulationParameter} (hread : readConfigFile file .zero = .ok config)
    (hints : config.Ints) (hmax : config.nofWorkerSeats ≤ Checked.maxSeats) :
    ∃ s₁ s₂ s₃, s.step (.start file) = some s₁ ∧
      Life.Granted s₁ s₂ ∧ s₂.pc = .work ∧ s₂.config = config ∧
      Life.Granted s₂ s₃ ∧ s₃.pc = .exited ∧ ∀ r, s₃.Lacks r := by
  have hsize := Resource.exists_size (Checked.Accepted.of_readConfigFile hints hread) hmax
  obtain ⟨s₁, hstart, hpc₁, hfile₁⟩ : ∃ s₁, s.step (.start file) = some s₁ ∧
      s₁.pc = .staleGet Resource.removals ∧ s₁.file = file := ⟨_, if_pos hidle, rfl, rfl⟩
  have hK := (kept hmine h).step hstart
  obtain ⟨a, ha, hpca, hfilea⟩ := Life.stale_ends hK hpc₁
  have hK := hK.granted ha
  obtain ⟨b, hb, hpcb, hfileb⟩ := Life.getConfig_granted hK hpca
  have hK := hK.call hb
  obtain ⟨d, hd, hpcd, hfiled⟩ := Life.attachConfig_granted hK hpcb
  have hK := hK.call hd
  have hfile : d.file = file := hfiled.trans (hfileb.trans (hfilea.trans hfile₁))
  obtain ⟨e, he, hpce, rfl, hheld⟩ := Life.readConfig_granted hK hpcd (hfile ▸ hread)
  have hK := hK.call he
  obtain ⟨f, hf, hpcf, hconfigf⟩ := Life.allocate_ends hK hpce hheld hsize
  have hwork : f.call true = some { f with pc := .work } := by simp [Life.call, hpcf]
  have hcleanup : ({ f with pc := .work } : Life).call true =
    some { f with pc := .cleanup Resource.removals } := rfl
  have hK := ((hK.granted hf).call hwork).call hcleanup
  obtain ⟨s₃, hs₃, hpc₃⟩ := Life.cleanup_ends (s := { f with pc := .cleanup Resource.removals }) rfl
  have hat := (hK.granted hs₃).at_pc
  simp only [Life.At, hpc₃] at hat
  refine ⟨s₁, { f with pc := .work }, s₃, hstart, ?_, rfl, hconfigf, .call hcleanup hs₃, hpc₃, hat⟩
  exact ha.trans (.call hb (.call hd (.call he (hf.trans (.call hwork .refl)))))

/-- After a run that was killed on the way through `allocate_ipc`. -/
theorem leftovers_block_no_run_small :
    ∃ s, exec Life.step (.start (Checked.seatsConfig "3") :: List.replicate 16 (.call true) ++ [.kill])
      (Life.init usedTable) = some s ∧ s.table.objs.length = 5 ∧
    ∃ s₁ s₂, s.step (.start (Checked.seatsConfig "2")) = some s₁ ∧ Life.Granted s₁ s₂ ∧
      s₂.pc = .work := by
  have hrun : ((exec Life.step
      (.start (Checked.seatsConfig "3") :: List.replicate 16 (.call true) ++ [.kill])
      (Life.init usedTable)).any fun s => decide (s.table.objs.length = 5 ∧ s.idle = true)) = true := by
    decide +kernel
  obtain ⟨s, hs, h⟩ := (Option.any_eq_true _ _).mp hrun
  obtain ⟨hlen, hidle⟩ := of_decide_eq_true h
  obtain ⟨s₁, s₂, -, hstart, hgranted, hwork, -⟩ := leftovers_block_no_run (by decide)
    (reach_of_exec _ hs) hidle (show readConfigFile (Checked.seatsConfig "2") .zero =
      .ok (Checked.seatsParameter 2) by decide +kernel) (by decide) (by decide)
  exact ⟨s, hs, hlen, s₁, s₂, hstart, hgranted, hwork⟩

end PostOffice
