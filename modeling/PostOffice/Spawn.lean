import PostOffice.IpcRuns
import PostOffice.Lib.Strtol
import PostOffice.Logger

/-! From `create_children` to the loops of the children. A child is given its index and the director's
    pid as texts, and finds the objects of the office by their keys:

        i, getpid() ──snprintf──▶ argv ──execl──▶ strtol ──▶ worker_index, user_index
                                                    │ *endptr
                                                    ▼
                                              shmget(config) ──▶ shmget, semget, msgget ──▶ INIT
                                                    │ -1                  │ -1
                                                    └──────▶ exit ◀───────┘

    The children are those of this run: a child of a killed run that is still starting up would find
    the same objects and send an `INIT` of its own. -/

namespace PostOffice

open KeyTable Transition Scanf

/-! ### The arguments -/

/-- The children that `create_children` spawns. -/
inductive Child where
  | dispenser
  | operator (i : ℕ)
  | user (i : ℕ)
  deriving DecidableEq

/-- `create_children`: the ticket dispenser, the operators, the users. -/
def spawned (config : SimulationParameter) : List Child :=
  .dispenser :: (List.range config.nofWorkers.toNat).map .operator ++
    (List.range config.nofUsers.toNat).map .user

/-- The `argv` that `spawn_process` passes on; `none` is `NULL`. -/
def spawnProcess (path : List Char) : Option (List Char) → Option (List Char) → List (List Char)
  | some arg1, some arg2 => [path, arg1, arg2]
  | some arg1, none => [path, arg1]
  | none, _ => [path]

/-- An `int` or a `long` in a buffer of 32 bytes. -/
def printArgument (n : ℤ) : List Char := (vsnprintf 32 (writeInt n)).1

def Child.argv (directorPid : ℤ) : Child → List (List Char)
  | .dispenser => spawnProcess "./build/erogatore_ticket".toList none none
  | .operator i =>
      spawnProcess "./build/operator".toList (some (printArgument i)) (some (printArgument directorPid))
  | .user i =>
      spawnProcess "./build/user".toList (some (printArgument i)) (some (printArgument directorPid))

/-- The conversion of a `long` to an `int`. -/
def toInt (v : ℤ) : ℤ := Int.bmod v (2 ^ 32)

/-- The beginning of `main` of `operator.c` and of `user.c`, which differ in the name of the index:
    the index, or the message. -/
def parseArguments (name : List Char) : List (List Char) → Except (List Char) ℤ
  | [_, index, directorPid] =>
      if (strtol index).2 ≠ [] then .error (name ++ " non valido".toList)
      else if (strtol directorPid).2 ≠ [] then .error "director_pid non valido".toList
      else .ok (toInt (strtol index).1)
  | argv => .error ("Uso: ".toList ++ argv.head?.getD "(null)".toList ++ " <".toList ++ name ++
      "> <director_pid>".toList)

/-- What a child has to be told; `main` of `erogatore_ticket.c` has no parameters. -/
def Child.parse (argv : List (List Char)) : Child → Except (List Char) (Option ℤ)
  | .dispenser => .ok none
  | .operator _ => (parseArguments "worker_index".toList argv).map some
  | .user _ => (parseArguments "user_index".toList argv).map some

/-! ### The objects -/

/-- The name in the messages. -/
def Child.name : Child → List Char
  | .dispenser => "ticket".toList
  | .operator _ => "operator".toList
  | .user _ => "user".toList

/-- What a child attaches after the configuration. -/
def Child.resources : Child → List Resource
  | .dispenser => [.counters, .stats, .queues, .semaphores, .messages]
  | .operator _ => [.counters, .workers, .stats, .queues, .semaphores, .messages]
  | .user _ => [.users, .messages]

/-- The ids that a child finds, with the sizes that the segment of the configuration tells it. -/
def Child.attach (s : Life) (child : Child) : Except (List Char) (List ℕ) :=
  match s.table.get Resource.config.key (12 * 4), s.table.find Resource.config.key with
  | some id, some o =>
      match child.resources.mapM fun r => (r.size o.contents.parameters).bind (s.table.get r.key) with
      | some ids => .ok (id :: ids)
      | none => .error (child.name ++ " attach".toList)
  | _, _ => .error (child.name ++ " config attach".toList)

/-- `main` of a child up to its announcement: its index and the ids of its objects, or the message it
    ends with. -/
def Child.start (s : Life) (argv : List (List Char)) (child : Child) :
    Except (List Char) (Option ℤ × List ℕ) := do
  let index ← child.parse argv
  let ids ← child.attach s
  return (index, ids)

/-! ### What the children are told -/

/-- The text of an argument, and the number that it stands for. -/
def IsArgument (text : List Char) (v : ℤ) : Prop :=
  text = [] ∧ v = 0 ∨ ∃ sp num, Blank sp ∧ text = sp ++ num ∧ Numeral num v

theorem strtol_eq_iff {text : List Char} {v : ℤ} :
    strtol text = (v, []) ↔ ∃ w, IsArgument text w ∧ v = clampLong w := by
  constructor
  · intro h
    rcases strtol_end_iff.mp (congrArg Prod.snd h) with rfl | ⟨sp, num, w, hsp, rfl, hnum⟩
    · obtain rfl := congrArg Prod.fst h
      exact ⟨0, .inl ⟨rfl, rfl⟩, rfl⟩
    · rw [strtol_of_numeral hsp hnum] at h
      exact ⟨w, .inr ⟨sp, num, hsp, rfl, hnum⟩, (congrArg Prod.fst h).symm⟩
  · rintro ⟨w, ⟨rfl, rfl⟩ | ⟨sp, num, hsp, rfl, hnum⟩, rfl⟩
    · rfl
    · exact strtol_of_numeral hsp hnum

/-- CORRECT: what `main` of `operator.c` and of `user.c` accepts. There have to be two arguments; each
    is a decimal numeral, with a sign or without, behind white space or not, or nothing at all. The
    index is the number, cut off at the limits of `long` and reduced to an `int`; it is not
    compared with the number of operators or users. -/
theorem arguments_accepted_iff (name : List Char) (argv : List (List Char)) (k : ℤ) :
    parseArguments name argv = .ok k ↔ ∃ path index directorPid v w,
      argv = [path, index, directorPid] ∧ IsArgument index v ∧ IsArgument directorPid w ∧
        k = toInt (clampLong v) := by
  constructor
  · intro h
    unfold parseArguments at h
    split at h
    · rename_i path index directorPid
      simp only [ne_eq, ite_not] at h
      split at h
      · rename_i hindex
        split at h
        · rename_i hpid
          obtain ⟨v, hv, heq⟩ := strtol_eq_iff.mp (Prod.ext rfl hindex)
          obtain ⟨w, hw, -⟩ := strtol_eq_iff.mp (Prod.ext rfl hpid)
          exact ⟨path, index, directorPid, v, w, rfl, hv, hw, heq ▸ (Except.ok.inj h).symm⟩
        · cases h
      · cases h
    · cases h
  · rintro ⟨path, index, directorPid, v, w, rfl, hv, hw, rfl⟩
    have hindex := strtol_eq_iff.mpr ⟨v, hv, rfl⟩
    have hpid := strtol_eq_iff.mpr ⟨w, hw, rfl⟩
    simp only [parseArguments, hindex, hpid, ne_eq, not_true_eq_false, if_false]

/-- An index that no array has is accepted, and an empty one is 0. -/
example : parseArguments "user_index".toList ["user".toList, " +4294967295".toList, []] = .ok (-1) := by
  decide

/-- A `long` fits into the buffer. -/
theorem printArgument_eq {n : ℤ} (hmin : -2 ^ 63 ≤ n) (hmax : n < 2 ^ 63) :
    printArgument n = writeInt n :=
  List.take_of_length_le ((length_writeInt_le hmin hmax).trans (by decide))

theorem strtol_printArgument {n : ℤ} (hmin : -2 ^ 63 ≤ n) (hmax : n < 2 ^ 63) :
    strtol (printArgument n) = (n, []) := by
  rw [printArgument_eq hmin hmax, strtol_writeInt hmin hmax]

theorem toInt_eq {n : ℤ} (h : CInt.InRange 32 n) : toInt n = n := by
  have := Checked.int_iff.mp h
  exact Int.bmod_eq_of_le (by omega) (by omega)

/-- What `spawn_process` passes on is parsed back. -/
theorem parseArguments_spawned {name path : List Char} {i directorPid : ℤ}
    (hi : CInt.InRange 32 i) (hmin : -2 ^ 63 ≤ directorPid) (hmax : directorPid < 2 ^ 63) :
    parseArguments name (spawnProcess path (some (printArgument i))
      (some (printArgument directorPid))) = .ok i := by
  have hint := Checked.int_iff.mp hi
  simp only [spawnProcess, parseArguments, strtol_printArgument (n := i) (by omega) (by omega),
    strtol_printArgument hmin hmax, ne_eq, not_true_eq_false, if_false, toInt_eq hi]

/-- The index of a child, for the children that have one. -/
def Child.index : Child → Option ℤ
  | .dispenser => none
  | .operator i | .user i => some i

/-- The index is one of the array that the child uses it for. -/
def Child.InArray (config : SimulationParameter) : Child → Prop
  | .dispenser => True
  | .operator i => (i : ℤ) < config.nofWorkers
  | .user i => (i : ℤ) < config.nofUsers

theorem Child.inArray {config : SimulationParameter} {child : Child} (h : child ∈ spawned config) :
    child.InArray config := by
  simp only [spawned, List.mem_append, List.mem_cons, List.mem_map, List.mem_range] at h
  rcases h with (rfl | ⟨i, hi, rfl⟩) | ⟨i, hi, rfl⟩
  · trivial
  · exact Int.lt_toNat.mp hi
  · exact Int.lt_toNat.mp hi

theorem Child.parse_argv {config : SimulationParameter} {child : Child}
    (h : child ∈ spawned config) (haccepted : Checked.Accepted config) {directorPid : ℤ}
    (hmin : -2 ^ 63 ≤ directorPid) (hmax : directorPid < 2 ^ 63) :
    child.parse (child.argv directorPid) = .ok child.index := by
  have hlt := child.inArray h
  cases child with
  | dispenser => rfl
  | operator i =>
    have hi : CInt.InRange 32 (i : ℤ) :=
      (haccepted.ints .nofWorkers).of_le (Int.natCast_nonneg i) (le_of_lt hlt)
    simp only [parse, argv, parseArguments_spawned hi hmin hmax]
    rfl
  | user i =>
    have hi : CInt.InRange 32 (i : ℤ) :=
      (haccepted.ints .nofUsers).of_le (Int.natCast_nonneg i) (le_of_lt hlt)
    simp only [parse, argv, parseArguments_spawned hi hmin hmax]
    rfl

/-! ### What the children find -/

/-- The sizes depend on the parameters of the file only. -/
theorem Resource.size_congr {p q : SimulationParameter} (h : ∀ key, p.get key = q.get key)
    (r : Resource) : r.size p = r.size q := by
  have hseats := h .nofWorkerSeats
  have hworkers := h .nofWorkers
  have husers := h .nofUsers
  simp only [SimulationParameter.get] at hseats hworkers husers
  cases r <;> simp only [size, hseats, hworkers, husers]

/-- The object of the run is found with its size. -/
theorem Life.Holds.get {s : Life} {r : Resource} (h : s.Holds r) (hmine : s.table.Mine r.key) :
    ∃ id, s.ids r = some id ∧ (r.size s.config).bind (s.table.get r.key) = some id := by
  obtain ⟨o, ho, hid, -, hsize⟩ := h
  refine ⟨o.id, hid, ?_⟩
  rw [hsize, Option.bind_some]
  exact Table.get_eq_some ho (hmine o ho).1 le_rfl

/-- Lookups that all succeed. -/
theorem mapM_eq_some {ι α : Type*} {f g : ι → Option α} {l : List ι}
    (h : ∀ i ∈ l, ∃ a, f i = some a ∧ g i = some a) :
    ∃ as, l.mapM g = some as ∧ as.map some = l.map f := by
  induction l with
  | nil => exact ⟨[], rfl, rfl⟩
  | cons i l ih =>
    obtain ⟨a, hf, hg⟩ := h i List.mem_cons_self
    obtain ⟨as, has, hmap⟩ := ih fun j hj => h j (List.mem_cons_of_mem i hj)
    refine ⟨a :: as, ?_, ?_⟩
    · rw [List.mapM_cons, hg, has]
      rfl
    · rw [List.map_cons, List.map_cons, hmap, hf]

theorem Child.attach_eq {s : Life} (hmine : ∀ r : Resource, s.table.Mine r.key)
    (hholds : ∀ r, s.Holds r) (hagrees : s.Agrees) (child : Child) :
    ∃ ids, child.attach s = .ok ids ∧ ids.map some = (Resource.config :: child.resources).map s.ids := by
  obtain ⟨o, ho, hid, -, hsize⟩ := hholds .config
  have hconfig : s.table.get Resource.config.key (12 * 4) = some o.id :=
    Table.get_eq_some ho (hmine _ o ho).1 (Option.some.inj hsize).le
  obtain ⟨ids, hids, hmap⟩ := mapM_eq_some (l := child.resources) (f := s.ids)
    (g := fun r => (r.size o.contents.parameters).bind (s.table.get r.key)) fun r _ => by
      rw [Resource.size_congr (hagrees o ho)]
      exact (hholds r).get (hmine r)
  refine ⟨o.id :: ids, ?_, ?_⟩
  · simp only [attach, hconfig, ho, hids]
  · rw [List.map_cons, List.map_cons, hmap, hid]

/-- CORRECT: the children join the office. While a director works, each child that `create_children`
    spawns parses its own index out of its arguments, an index of the array that it uses it for, and
    attaches the very objects that the director has created in this run, whatever is left of
    earlier runs. -/
theorem children_join_the_office {table : IpcTable} (hmine : ∀ r : Resource, table.Mine r.key)
    {s : Life} (h : Reach Life.step (Life.init table) s) (hpc : s.pc = .work)
    (hints : s.config.Ints) {directorPid : ℤ} (hmin : -2 ^ 63 ≤ directorPid)
    (hmax : directorPid < 2 ^ 63) {child : Child} (hchild : child ∈ spawned s.config) :
    ∃ ids, child.start s (child.argv directorPid) = .ok (child.index, ids) ∧
      ids.map some = (Resource.config :: child.resources).map s.ids ∧
      (∀ r ∈ Resource.config :: child.resources, s.Holds r) ∧ child.InArray s.config := by
  have hK := kept hmine h
  have hat := hK.at_pc
  simp only [Life.At, hpc] at hat
  obtain ⟨hholds, hagrees, hread⟩ := hat
  have hparse := Child.parse_argv hchild (Checked.Accepted.of_readConfigFile hints hread) hmin hmax
  obtain ⟨ids, hids, hmap⟩ := child.attach_eq hK.mine hholds hagrees
  refine ⟨ids, ?_, hmap, fun r _ => hholds r, child.inArray hchild⟩
  simp only [Child.start, hparse, hids]
  rfl

/-- The operator of the second run, after a first run that was killed. -/
theorem children_join_the_office_small : ∃ s ids,
    exec Life.step twoRuns (Life.init usedTable) = some s ∧
    (Child.operator 0).start s ((Child.operator 0).argv 100) = .ok (some 0, ids) ∧
    ids.map some = [s.ids .config, s.ids .counters, s.ids .workers, s.ids .stats, s.ids .queues,
      s.ids .semaphores, s.ids .messages] := by
  have hrun : ((exec Life.step twoRuns (Life.init usedTable)).any fun s =>
      decide (s.pc = .work ∧ s.config = Checked.seatsParameter 2)) = true := by decide +kernel
  obtain ⟨s, hs, h⟩ := (Option.any_eq_true _ _).mp hrun
  obtain ⟨hpc, hconfig⟩ := of_decide_eq_true h
  obtain ⟨ids, hstart, hids, -⟩ := children_join_the_office (by decide) (reach_of_exec _ hs) hpc
    (by rw [hconfig]; decide) (show -2 ^ 63 ≤ (100 : ℤ) by decide) (by decide)
    (show Child.operator 0 ∈ spawned s.config by rw [hconfig]; decide)
  exact ⟨s, ids, hs, hstart, hids⟩

end PostOffice
