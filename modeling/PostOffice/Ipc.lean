import PostOffice.Lib.KeyTable
import PostOffice.Lib.Transition
import PostOffice.Arithmetic

/-! The System V objects over the runs of the director (`main` of `director.c`). The keys are fixed, so
    that a run meets what an earlier one left, and an earlier one may have ended anywhere: on each
    of the ways out that do not go by `cleanup_ipc`, or killed.

        cleanup_stale_ipc_resources ──▶ shmget(config) ──▶ shmat ──▶ read_config_file
                                            │ -1             │ -1       │ 0       │ -1
                     died ◀─────────────────┴────────────────┘          ▼         ▼
                       ▲                                          allocate_ipc  cleanup_ipc ──▶ exited
                       └────────────────── one is -1 ───────────────────┤         ▲
                                                                        ▼         │
                                                                       work ──────┘

    One director runs at a time, and no child of a killed run is still starting up: it would find the
    new objects by their keys. What other programs do to their objects can happen at any moment. -/

namespace PostOffice

open KeyTable Transition

/-! ### The objects of the office -/

inductive IpcKind where | shm | sem | msg
  deriving DecidableEq

namespace Resource

def key : Resource → IpcKind × ℕ
  | .config => (.shm, 0x0209)
  | .counters => (.shm, 0x1234)
  | .workers => (.shm, 0x020A)
  | .users => (.shm, 0x020B)
  | .stats => (.shm, 0x020C)
  | .queues => (.shm, 0x020D)
  | .messages => (.msg, 0x5678)
  | .semaphores => (.sem, 0x9100)

theorem key_injective : Function.Injective key := by decide

/-- The key is one of the program's. -/
def ours (k : IpcKind × ℕ) : Bool := decide (∃ r : Resource, r.key = k)

theorem ours_key (r : Resource) : ours r.key = true := decide_eq_true ⟨r, rfl⟩

/-- What is asked for: bytes, a `size_t`, with the records of a 64-bit system; semaphores, which may
    be more than an `int` counts. The size of a message queue, which has none, is 1. -/
def size (config : SimulationParameter) : Resource → Option ℕ
  | .config => some (12 * 4)
  | .counters => some (3 * 4 * config.nofWorkerSeats % 2 ^ 64).toNat
  | .workers => some (7 * 4 * config.nofWorkers % 2 ^ 64).toNat
  | .users => some (2 * 4 * config.nofUsers % 2 ^ 64).toNat
  | .stats => some (2 * (5 * 8 + serviceCount * (5 * 8)) + 2 * 8)
  | .queues => some ((maxCountQueue * 16 + 16) * serviceCount)
  | .messages => some 1
  | .semaphores => (Checked.totalSems config.nofWorkerSeats).map Int.toNat

/-- The order of `allocate_ipc`. -/
def allocations : List Resource :=
  [.counters, .workers, .users, .stats, .queues, .messages, .semaphores]

end Resource

/-- What the start-up finds in an object before it writes there: the parameters in the segment of
    the configuration, the messages in the queue. -/
structure Contents where
  parameters : SimulationParameter
  messages : List Message
  deriving DecidableEq

def Contents.fresh : Contents := { parameters := .zero, messages := [] }

abbrev IpcTable := Table (IpcKind × ℕ) Contents

/-! ### The runs of the director -/

/-- Where a run stands; the loops over the objects keep those that are still to come. -/
inductive LifePc where
  /-- There is no director, and the last one did not come to the end of `cleanup_ipc`. -/
  | died
  /-- There is no director; the last one returned from `main` after `cleanup_ipc`. -/
  | exited
  /-- `cleanup_stale_ipc_resources`: look for the next object. -/
  | staleGet (rest : List Resource)
  /-- The same: remove the object found. -/
  | staleRemove (r : Resource) (id : ℕ) (rest : List Resource)
  | getConfig
  | attachConfig
  | readConfig
  | allocate (rest : List Resource)
  | attach
  /-- From `initialize_shared_state` to `stop_children`. -/
  | work
  | cleanup (rest : List Resource)
  deriving DecidableEq

/-- The objects of the system and the director's part of the state. -/
structure Life where
  table : IpcTable
  pc : LifePc
  /-- `shmid_config`, ..., `semid`, `msgid`; `none` is -1. -/
  ids : Resource → Option ℕ
  /-- What `config` points to. -/
  config : SimulationParameter
  /-- The content of the file named in `argv[1]`. -/
  file : List Char
  /-- History: the first id that can be given in this run. -/
  born : ℕ
  /-- History: the objects of other programs, as these left them. -/
  outside : List (Obj (IpcKind × ℕ) Contents)

inductive LifeAct where
  /-- A director is started with one argument. -/
  | start (file : List Char)
  /-- The director's next calls; `ok` says whether the system grants what is asked for. -/
  | call (ok : Bool)
  /-- The office works with its objects; nobody changes the parameters. -/
  | use (contents : Resource → Contents)
  /-- The director is killed. -/
  | kill
  /-- Other programs create, change and remove their objects. -/
  | others (table : IpcTable)

namespace Life

variable (s : Life)

/-- A call with `IPC_CREAT`; a new object is empty. -/
def create (ok : Bool) (r : Resource) (size : ℕ) : Life :=
  let (id, table) := s.table.create ok r.key size .fresh
  { s with table := table, ids := Function.update s.ids r id }

/-- Write to the objects of the office. -/
def write (contents : Resource → Contents) : Life :=
  { s with table := s.table.rewrite fun o =>
      match Resource.removals.find? fun r => r.key = o.key with
      | none => o.contents
      | some r => contents r }

/-- The parameters that `read_config_file` assigns. -/
def setConfig (config : SimulationParameter) : Life :=
  { s with config := config
           table := s.table.rewrite fun o =>
             if o.key = Resource.config.key then { o.contents with parameters := config }
             else o.contents }

def call (ok : Bool) : Option Life :=
  match s.pc with
  | .died | .exited => none
  | .staleGet [] => some { s with pc := .getConfig }
  | .staleGet (r :: rest) =>
      match s.table.get r.key 1 with
      | none => some { s with pc := .staleGet rest }
      | some id => some { s with pc := .staleRemove r id rest }
  | .staleRemove _ id rest => some { s with table := s.table.remove id, pc := .staleGet rest }
  | .getConfig =>
      (Resource.size s.config .config).map fun size =>
        let s := s.create ok .config size
        { s with pc := if s.ids .config = none then .died else .attachConfig }
  | .attachConfig =>
      match s.table.find Resource.config.key with
      | some o => some { s with pc := if ok then .readConfig else .died,
                                config := if ok then o.contents.parameters else s.config }
      | none => some { s with pc := .died }
  | .readConfig =>
      -- `fopen` may fail as well
      match if ok then readConfigFile s.file s.config else .error "fopen" with
      | .error _ => some { s with pc := .cleanup Resource.removals }
      | .ok config => some { s.setConfig config with pc := .allocate Resource.allocations }
  | .allocate [] =>
      some { s with pc := if ∃ r ∈ Resource.allocations, s.ids r = none then .died else .attach }
  | .allocate (r :: rest) =>
      (r.size s.config).map fun size => { s.create ok r size with pc := .allocate rest }
  | .attach => some { s with pc := if ok then .work else .died }
  | .work => some { s with pc := if ok then .cleanup Resource.removals else .died }
  | .cleanup [] => some { s with pc := .exited }
  | .cleanup (r :: rest) =>
      match s.ids r with
      | none => some { s with pc := .cleanup rest }
      | some id => some { s with table := s.table.remove id, pc := .cleanup rest }

/-- There is no director. -/
def idle : Bool := s.pc = .died ∨ s.pc = .exited

def step : LifeAct → Option Life
  | .start file =>
      if s.idle then
        some { s with pc := .staleGet Resource.removals, ids := fun _ => none, file := file,
                      born := s.table.next }
      else none
  | .call ok => s.call ok
  | .use contents =>
      if s.pc = .work ∧ ∀ key, (contents .config).parameters.get key = s.config.get key then
        some (s.write contents)
      else none
  | .kill => if s.idle then none else some { s with pc := .died }
  | .others table =>
      if table.own Resource.ours = s.table.own Resource.ours ∧ s.table.next ≤ table.next then
        some { s with table := table, outside := table.others Resource.ours }
      else none

/-- Before the first run. -/
def init (table : IpcTable) : Life where
  table := table
  pc := .died
  ids _ := none
  config := .zero
  file := []
  born := table.next
  outside := table.others Resource.ours

end Life

/-! ### What a run finds and leaves -/

namespace Life

variable (s : Life)

/-- There is no such object. -/
def Lacks (r : Resource) : Prop := s.table.find r.key = none

/-- There is none, and none is noted. -/
def Absent (r : Resource) : Prop := s.Lacks r ∧ s.ids r = none

/-- The object exists and its id is noted. -/
def Noted (r : Resource) : Prop := ∃ o, s.table.find r.key = some o ∧ s.ids r = some o.id

/-- The object has been created in this run, with the size that the configuration asks for. -/
def Holds (r : Resource) : Prop :=
  ∃ o, s.table.find r.key = some o ∧ s.ids r = some o.id ∧ s.born ≤ o.id ∧
    r.size s.config = some o.size

/-- No message has been sent. -/
def Silent : Prop :=
  ∀ o, s.table.find Resource.messages.key = some o → o.contents.messages = []

/-- The segment of the configuration has the parameters of the run. -/
def Agrees : Prop :=
  ∀ o, s.table.find Resource.config.key = some o →
    ∀ key, o.contents.parameters.get key = s.config.get key

/-- What holds at each place of a run. -/
def At : Prop :=
  match s.pc with
  | .died => True
  | .exited => ∀ r, s.Lacks r
  | .staleGet rest => (∀ r, s.ids r = none) ∧ ∀ r ∉ rest, s.Lacks r
  | .staleRemove r id rest =>
      (∀ r, s.ids r = none) ∧ (∃ o, s.table.find r.key = some o ∧ o.id = id) ∧
        ∀ r' ∉ r :: rest, s.Lacks r'
  | .getConfig => ∀ r, s.Absent r
  | .attachConfig =>
      s.Holds .config ∧ (∀ o, s.table.find Resource.config.key = some o →
        o.contents.parameters = .zero) ∧ ∀ r ≠ .config, s.Absent r
  | .readConfig => s.Holds .config ∧ s.config = .zero ∧ ∀ r ≠ .config, s.Absent r
  | .allocate rest =>
      (∀ r ∈ rest, r ∈ Resource.allocations ∧ s.Absent r) ∧
        (∀ r ∉ rest, s.Holds r ∨ r ∈ Resource.allocations ∧ s.Absent r) ∧
        rest.Nodup ∧ s.Silent ∧ s.Agrees ∧ readConfigFile s.file .zero = .ok s.config
  | .attach =>
      (∀ r, s.Holds r) ∧ s.Silent ∧ s.Agrees ∧ readConfigFile s.file .zero = .ok s.config
  | .work => (∀ r, s.Holds r) ∧ s.Agrees ∧ readConfigFile s.file .zero = .ok s.config
  | .cleanup rest => (∀ r ∈ rest, s.Noted r ∨ s.Absent r) ∧ (∀ r ∉ rest, s.Lacks r) ∧ rest.Nodup

/-- The invariant of the runs: the objects under our keys are ours, the others are as the other
    programs left them. -/
structure Kept : Prop where
  mine : ∀ r : Resource, s.table.Mine r.key
  outside : s.table.others Resource.ours = s.outside
  born : s.born ≤ s.table.next
  at_pc : s.At

variable {s}

theorem Kept.init {table : IpcTable} (h : ∀ r : Resource, table.Mine r.key) :
    (init table).Kept :=
  ⟨h, rfl, le_rfl, trivial⟩

/-- The run goes on and touches nothing. -/
theorem Kept.goto (h : s.Kept) {pc : LifePc} (hat : ({ s with pc := pc } : Life).At) :
    ({ s with pc := pc } : Life).Kept :=
  ⟨h.mine, h.outside, h.born, hat⟩

/-- The object under a key of ours is removed. -/
theorem Kept.remove (h : s.Kept) {r : Resource} {o : Obj (IpcKind × ℕ) Contents}
    (ho : s.table.find r.key = some o) {pc : LifePc}
    (hat : ({ s with table := s.table.remove o.id, pc := pc } : Life).At) :
    ({ s with table := s.table.remove o.id, pc := pc } : Life).Kept :=
  ⟨fun r' => (h.mine r').remove, (Table.others_remove ho (Resource.ours_key r)).trans h.outside,
    h.born, hat⟩

theorem find_remove {r r' : Resource} {o : Obj (IpcKind × ℕ) Contents}
    (hmine : s.table.Mine r.key) (ho : s.table.find r.key = some o) :
    (s.table.remove o.id).find r'.key = if r' = r then none else s.table.find r'.key := by
  split
  · rename_i heq
    subst heq
    exact Table.find_remove_self ho (hmine o ho).2.1
  · rename_i hne
    exact Table.find_remove_of_ne ho fun hkey => hne (Resource.key_injective hkey)

/-- The run has a new object. -/
def inserted (s : Life) (r : Resource) (size : ℕ) (h : s.Lacks r) : Life :=
  { s with table := s.table.insert r.key size .fresh h
           ids := Function.update s.ids r (some s.table.next) }

/-- A call with `IPC_CREAT` where there is no object. -/
theorem create_eq {ok : Bool} {r : Resource} {size : ℕ} (h : s.Absent r) :
    s.create ok r size = if ok = true ∧ 0 < size then s.inserted r size h.1 else s := by
  unfold create
  rw [Table.create_of_none h.1]
  by_cases hok : ok = true ∧ 0 < size
  · rw [if_pos hok, if_pos hok]
    rfl
  · rw [if_neg hok, if_neg hok]
    simp only [← h.2, Function.update_eq_self]

theorem create_cases (ok : Bool) {r : Resource} (size : ℕ) (h : s.Absent r) :
    s.create ok r size = s ∨ 0 < size ∧ s.create ok r size = s.inserted r size h.1 := by
  rw [create_eq h]
  split
  · rename_i hok
    exact .inr ⟨hok.2, rfl⟩
  · exact .inl rfl

theorem find_insert {r r' : Resource} {size : ℕ} {a : Contents} (h : s.Lacks r) :
    (s.table.insert r.key size a h).find r'.key =
      if r' = r then some { key := r.key, id := s.table.next, size := size, shared := true
                            owned := true, contents := a }
      else s.table.find r'.key := by
  split
  · rename_i heq
    subst heq
    exact Table.find_insert_self h
  · rename_i hne
    exact Table.find_insert_of_ne h fun hkey => hne (Resource.key_injective hkey)

theorem Kept.inserted (h : s.Kept) {r : Resource} {size : ℕ} (hl : s.Lacks r) (hsize : 0 < size)
    {pc : LifePc} (hat : ({ s.inserted r size hl with pc := pc } : Life).At) :
    ({ s.inserted r size hl with pc := pc } : Life).Kept :=
  ⟨fun r' => (h.mine r').insert hl hsize,
    (Table.others_insert hl (Resource.ours_key r)).trans h.outside,
    h.born.trans (Nat.le_succ _), hat⟩

section Inserted

variable {r r' : Resource} {size : ℕ} (hl : s.Lacks r)

theorem ids_inserted : (s.inserted r size hl).ids r = some s.table.next := Function.update_self ..

theorem holds_inserted (h : s.Kept) (hsize : r.size s.config = some size) :
    (s.inserted r size hl).Holds r :=
  ⟨_, Table.find_insert_self hl, ids_inserted hl, h.born, hsize⟩

theorem Holds.inserted (h : s.Holds r') : (s.inserted r size hl).Holds r' := by
  obtain ⟨o, ho, hid, hborn, hsize⟩ := h
  have hne : r' ≠ r := by
    rintro rfl
    exact absurd (ho.symm.trans hl) (Option.some_ne_none o)
  refine ⟨o, (find_insert hl).trans ?_, (Function.update_of_ne hne ..).trans hid, hborn, hsize⟩
  rw [if_neg hne, ho]

theorem Absent.inserted (h : s.Absent r') (hne : r' ≠ r) : (s.inserted r size hl).Absent r' := by
  refine ⟨(find_insert hl).trans ?_, (Function.update_of_ne hne ..).trans h.2⟩
  rw [if_neg hne]
  exact h.1

theorem Silent.inserted (h : s.Silent) : (s.inserted r size hl).Silent := fun o ho => by
  have ho := (find_insert hl).symm.trans ho
  split at ho
  · obtain rfl := Option.some.inj ho
    rfl
  · exact h o ho

theorem Agrees.inserted (h : s.Agrees) (hne : r ≠ .config) : (s.inserted r size hl).Agrees :=
  fun o ho => by
    have ho := (find_insert hl).symm.trans ho
    rw [if_neg hne.symm] at ho
    exact h o ho

end Inserted

theorem Holds.noted {r : Resource} (h : s.Holds r) : s.Noted r := by
  obtain ⟨o, ho, hid, -⟩ := h
  exact ⟨o, ho, hid⟩

/-- `cleanup_stale_ipc_resources` leaves no object under our keys. -/
theorem Kept.staleGet (h : s.Kept) {rest : List Resource} (hpc : s.pc = .staleGet rest) {ok : Bool}
    {s' : Life} (hs : s.call ok = some s') : s'.Kept := by
  have hat := h.at_pc
  simp only [At, hpc] at hat
  obtain ⟨hids, hlacks⟩ := hat
  cases rest with
  | nil =>
    simp only [call, hpc, Option.some.injEq] at hs
    subst hs
    exact h.goto fun r => ⟨hlacks r List.not_mem_nil, hids r⟩
  | cons r rest =>
    simp only [call, hpc, (h.mine r).get_one] at hs
    cases hf : s.table.find r.key with
    | none =>
      simp only [hf, Option.map_none, Option.some.injEq] at hs
      subst hs
      refine h.goto ⟨hids, fun r' hr' => ?_⟩
      by_cases heq : r' = r
      · subst heq
        exact hf
      · exact hlacks r' (List.not_mem_cons_of_ne_of_not_mem heq hr')
    | some o =>
      simp only [hf, Option.map_some, Option.some.injEq] at hs
      subst hs
      exact h.goto ⟨hids, ⟨o, hf, rfl⟩, hlacks⟩

theorem Kept.staleRemove (h : s.Kept) {r : Resource} {id : ℕ} {rest : List Resource}
    (hpc : s.pc = .staleRemove r id rest) {ok : Bool} {s' : Life} (hs : s.call ok = some s') :
    s'.Kept := by
  have hat := h.at_pc
  simp only [At, hpc] at hat
  obtain ⟨hids, ⟨o, ho, rfl⟩, hlacks⟩ := hat
  simp only [call, hpc, Option.some.injEq] at hs
  subst hs
  refine h.remove ho ⟨hids, fun r' hr' => ?_⟩
  rw [Lacks, find_remove (h.mine r) ho]
  split
  · rfl
  · rename_i hne
    exact hlacks r' (List.not_mem_cons_of_ne_of_not_mem hne hr')

/-- The segment of the configuration is new, or there is none and the run is over. -/
theorem Kept.getConfig (h : s.Kept) (hpc : s.pc = .getConfig) {ok : Bool} {s' : Life}
    (hs : s.call ok = some s') : s'.Kept := by
  have habsent := h.at_pc
  simp only [At, hpc] at habsent
  simp only [call, hpc, Resource.size, Option.map_some, Option.some.injEq] at hs
  subst hs
  rcases create_cases ok (12 * 4) (habsent .config) with he | ⟨hsize, he⟩
  · rw [he, if_pos (habsent .config).2]
    exact h.goto trivial
  · have hl := (habsent .config).1
    rw [he, if_neg (by rw [ids_inserted]; exact Option.some_ne_none _)]
    refine h.inserted hl hsize ⟨holds_inserted hl h rfl, fun o ho => ?_, fun r hr => ?_⟩
    · obtain rfl := Option.some.inj (ho.symm.trans (Table.find_insert_self hl))
      rfl
    · exact (habsent r).inserted hl hr

theorem Kept.attachConfig (h : s.Kept) (hpc : s.pc = .attachConfig) {ok : Bool} {s' : Life}
    (hs : s.call ok = some s') : s'.Kept := by
  have hat := h.at_pc
  simp only [At, hpc] at hat
  obtain ⟨⟨o, ho, hid, hborn, hsize⟩, hzero, habsent⟩ := hat
  simp only [call, hpc, ho, Option.some.injEq] at hs
  subst hs
  refine ⟨h.mine, h.outside, h.born, ?_⟩
  cases ok with
  | false => trivial
  | true => exact ⟨⟨o, ho, hid, hborn, hsize⟩, hzero o ho, habsent⟩

/-- What `read_config_file` assigns is written to the segment. -/
theorem find_setConfig {config : SimulationParameter} {k : IpcKind × ℕ} :
    (s.setConfig config).table.find k = (s.table.find k).map fun o =>
      { o with contents := if o.key = Resource.config.key
                           then { o.contents with parameters := config } else o.contents } :=
  Table.find_rewrite

theorem Absent.setConfig {config : SimulationParameter} {r : Resource} (h : s.Absent r) :
    (s.setConfig config).Absent r := by
  refine ⟨find_setConfig.trans ?_, h.2⟩
  rw [show s.table.find r.key = none from h.1]
  rfl

theorem Kept.readConfig (h : s.Kept) (hpc : s.pc = .readConfig) {ok : Bool} {s' : Life}
    (hs : s.call ok = some s') : s'.Kept := by
  have hat := h.at_pc
  simp only [At, hpc] at hat
  obtain ⟨hholds, hzero, habsent⟩ := hat
  simp only [call, hpc] at hs
  split at hs
  · obtain rfl := Option.some.inj hs
    refine h.goto ⟨fun r _ => ?_, fun r hr => absurd (by cases r <;> decide) hr, by decide⟩
    by_cases hr : r = .config
    · exact .inl (hr ▸ hholds.noted)
    · exact .inr (habsent r hr)
  · rename_i config hread
    obtain rfl := Option.some.inj hs
    have hok : readConfigFile s.file .zero = .ok config := by
      cases ok with
      | false => simp at hread
      | true => rw [← hzero]; exact hread
    have hours (o : Obj (IpcKind × ℕ) Contents) (ho : Resource.ours o.key = false) :
        (if o.key = Resource.config.key then { o.contents with parameters := config }
          else o.contents) = o.contents := by
      refine if_neg fun hkey => ?_
      rw [hkey, Resource.ours_key] at ho
      exact absurd ho (by simp)
    refine ⟨fun r => (h.mine r).rewrite, (Table.others_rewrite hours).trans h.outside, h.born,
      fun r hr => ?_, fun r hr => ?_, by decide, fun o ho => ?_, fun o ho => ?_, hok⟩
    · have hne : r ≠ .config := by
        rintro rfl
        exact absurd hr (by decide)
      exact ⟨hr, (habsent r hne).setConfig⟩
    · obtain rfl : r = .config := by
        revert hr
        cases r <;> decide
      obtain ⟨o, ho, hid, hborn, hsize⟩ := hholds
      exact .inl ⟨_, find_setConfig.trans (congrArg _ ho), hid, hborn, hsize⟩
    · have hnone : (s.setConfig config).Absent .messages :=
        (habsent .messages (by decide)).setConfig
      exact absurd (ho.symm.trans hnone.1) (Option.some_ne_none o)
    · obtain ⟨x, hx, rfl⟩ := Option.map_eq_some_iff.mp (find_setConfig.symm.trans ho)
      rw [if_pos (Table.find_eq_some_iff.mp hx).2]
      exact fun _ => rfl

theorem Kept.allocate (h : s.Kept) {rest : List Resource} (hpc : s.pc = .allocate rest) {ok : Bool}
    {s' : Life} (hs : s.call ok = some s') : s'.Kept := by
  have hat := h.at_pc
  simp only [At, hpc] at hat
  obtain ⟨hleft, hdone, hnodup, hsilent, hagrees, hread⟩ := hat
  cases rest with
  | nil =>
    simp only [call, hpc, Option.some.injEq] at hs
    subst hs
    by_cases hfail : ∃ r ∈ Resource.allocations, s.ids r = none
    · rw [if_pos hfail]
      exact h.goto trivial
    · rw [if_neg hfail]
      refine h.goto ⟨fun r => (hdone r List.not_mem_nil).resolve_right ?_, hsilent, hagrees,
        hread⟩
      rintro ⟨hr, -, hid⟩
      exact hfail ⟨r, hr, hid⟩
  | cons r rest =>
    simp only [call, hpc, Option.map_eq_some_iff] at hs
    obtain ⟨size, hsize, rfl⟩ := hs
    obtain ⟨hr, habsent⟩ := hleft r List.mem_cons_self
    obtain ⟨hnotMem, hnodup⟩ := List.nodup_cons.mp hnodup
    rcases create_cases ok size habsent with he | ⟨hpos, he⟩
    · rw [he]
      refine h.goto ⟨fun r' hr' => hleft r' (List.mem_cons_of_mem r hr'), fun r' hr' => ?_, hnodup,
        hsilent, hagrees, hread⟩
      by_cases heq : r' = r
      · subst heq
        exact .inr ⟨hr, habsent⟩
      · exact hdone r' (List.not_mem_cons_of_ne_of_not_mem heq hr')
    · have hl := habsent.1
      rw [he]
      refine h.inserted hl hpos ⟨fun r' hr' => ?_, fun r' hr' => ?_, hnodup, hsilent.inserted hl,
        hagrees.inserted hl ?_, hread⟩
      · obtain ⟨hr'', habsent'⟩ := hleft r' (List.mem_cons_of_mem r hr')
        exact ⟨hr'', habsent'.inserted hl (ne_of_mem_of_not_mem hr' hnotMem)⟩
      · by_cases heq : r' = r
        · subst heq
          exact .inl (holds_inserted hl h hsize)
        · refine (hdone r' (List.not_mem_cons_of_ne_of_not_mem heq hr')).imp (Holds.inserted hl) ?_
          exact fun ⟨hmem, habsent'⟩ => ⟨hmem, habsent'.inserted hl heq⟩
      · rintro rfl
        exact absurd hr (by decide)

/-- `cleanup_ipc` removes what the run has created. -/
theorem Kept.cleanup (h : s.Kept) {rest : List Resource} (hpc : s.pc = .cleanup rest) {ok : Bool}
    {s' : Life} (hs : s.call ok = some s') : s'.Kept := by
  have hat := h.at_pc
  simp only [At, hpc] at hat
  obtain ⟨hleft, hdone, hnodup⟩ := hat
  cases rest with
  | nil =>
    simp only [call, hpc, Option.some.injEq] at hs
    subst hs
    exact h.goto fun r => hdone r List.not_mem_nil
  | cons r rest =>
    obtain ⟨hnotMem, hnodup⟩ := List.nodup_cons.mp hnodup
    simp only [call, hpc] at hs
    rcases hleft r List.mem_cons_self with ⟨o, ho, hid⟩ | ⟨hnone, hid⟩
    · simp only [hid, Option.some.injEq] at hs
      subst hs
      refine h.remove ho ⟨fun r' hr' => ?_, fun r' hr' => ?_, hnodup⟩
      · have hfind : (s.table.remove o.id).find r'.key = s.table.find r'.key :=
          (find_remove (h.mine r) ho).trans (if_neg (ne_of_mem_of_not_mem hr' hnotMem))
        refine (hleft r' (List.mem_cons_of_mem r hr')).imp ?_ fun ⟨hnone, hid'⟩ => ?_
        · exact fun ⟨o', ho', hid'⟩ => ⟨o', hfind.trans ho', hid'⟩
        · exact ⟨hfind.trans hnone, hid'⟩
      · rw [Lacks, find_remove (h.mine r) ho]
        split
        · rfl
        · rename_i hne
          exact hdone r' (List.not_mem_cons_of_ne_of_not_mem hne hr')
    · simp only [hid, Option.some.injEq] at hs
      subst hs
      refine h.goto ⟨fun r' hr' => hleft r' (List.mem_cons_of_mem r hr'), fun r' hr' => ?_, hnodup⟩
      by_cases heq : r' = r
      · subst heq
        exact hnone
      · exact hdone r' (List.not_mem_cons_of_ne_of_not_mem heq hr')

theorem Kept.call (h : s.Kept) {ok : Bool} {s' : Life} (hs : s.call ok = some s') : s'.Kept := by
  cases hpc : s.pc with
  | died | exited => simp [Life.call, hpc] at hs
  | staleGet => exact h.staleGet hpc hs
  | staleRemove => exact h.staleRemove hpc hs
  | getConfig => exact h.getConfig hpc hs
  | attachConfig => exact h.attachConfig hpc hs
  | readConfig => exact h.readConfig hpc hs
  | allocate => exact h.allocate hpc hs
  | cleanup => exact h.cleanup hpc hs
  | attach =>
    have hat := h.at_pc
    simp only [At, hpc] at hat
    simp only [Life.call, hpc, Option.some.injEq] at hs
    subst hs
    cases ok with
    | false => exact h.goto trivial
    | true => exact h.goto ⟨hat.1, hat.2.2⟩
  | work =>
    have hat := h.at_pc
    simp only [At, hpc] at hat
    simp only [Life.call, hpc, Option.some.injEq] at hs
    subst hs
    cases ok with
    | false => exact h.goto trivial
    | true =>
      exact h.goto ⟨fun r _ => .inl (hat.1 r).noted, fun r hr => absurd (by cases r <;> decide) hr,
        by decide⟩

/-- The work of the office changes what its objects hold. -/
theorem Kept.use (h : s.Kept) (hpc : s.pc = .work) {contents : Resource → Contents}
    (hkeep : ∀ key, (contents .config).parameters.get key = s.config.get key) :
    (s.write contents).Kept := by
  have hat := h.at_pc
  simp only [At, hpc] at hat
  refine ⟨fun r => (h.mine r).rewrite, (Table.others_rewrite fun o ho => ?_).trans h.outside, h.born,
    ?_⟩
  · have hnone : (Resource.removals.find? fun r => r.key = o.key) = none := by
      refine List.find?_eq_none.mpr fun r _ hkey => ?_
      rw [← of_decide_eq_true hkey, Resource.ours_key] at ho
      exact Bool.noConfusion ho
    simp only [hnone]
  · have hpc' : (s.write contents).pc = .work := hpc
    simp only [At, hpc']
    refine ⟨fun r => ?_, fun o ho => ?_, hat.2.2⟩
    · obtain ⟨o, ho, hid, hborn, hsize⟩ := hat.1 r
      exact ⟨_, Table.find_rewrite.trans (congrArg _ ho), hid, hborn, hsize⟩
    · obtain ⟨x, hx, rfl⟩ := Option.map_eq_some_iff.mp (Table.find_rewrite.symm.trans ho)
      have hkey : Resource.removals.find? (fun r => r.key = x.key) = some .config := by
        rw [(Table.find_eq_some_iff.mp hx).2]
        decide
      simp only [hkey]
      exact hkeep

/-- The other programs have no part in the run. -/
theorem At.others (h : s.At) {table : IpcTable} {outside : List (Obj (IpcKind × ℕ) Contents)}
    (hfind : ∀ r : Resource, table.find r.key = s.table.find r.key) :
    ({ s with table := table, outside := outside } : Life).At := by
  unfold At at h ⊢
  dsimp only
  generalize s.pc = pc at h ⊢
  cases pc <;> simp only [Absent, Lacks, Holds, Noted, Silent, Agrees, hfind] at h ⊢ <;> exact h

theorem Kept.step (h : s.Kept) {a : LifeAct} {s' : Life} (hs : s.step a = some s') : s'.Kept := by
  cases a with
  | call ok => exact h.call hs
  | start file =>
    simp only [Life.step, Option.ite_none_right_eq_some, Option.some.injEq] at hs
    obtain ⟨-, rfl⟩ := hs
    refine ⟨h.mine, h.outside, le_rfl, fun _ => rfl, fun r hr => ?_⟩
    exact absurd (by cases r <;> decide) hr
  | use contents =>
    simp only [Life.step, Option.ite_none_right_eq_some, Option.some.injEq] at hs
    obtain ⟨⟨hpc, hkeep⟩, rfl⟩ := hs
    exact h.use hpc hkeep
  | kill =>
    simp only [Life.step, Option.ite_none_left_eq_some, Option.some.injEq] at hs
    obtain ⟨-, rfl⟩ := hs
    exact h.goto trivial
  | others table =>
    simp only [Life.step, Option.ite_none_right_eq_some, Option.some.injEq] at hs
    obtain ⟨⟨hown, hnext⟩, rfl⟩ := hs
    have hfind (r : Resource) : table.find r.key = s.table.find r.key :=
      Table.find_eq_of_own hown (Resource.ours_key r)
    refine ⟨fun r o ho => h.mine r o ((hfind r).symm.trans ho), rfl, h.born.trans hnext,
      h.at_pc.others hfind⟩

end Life

end PostOffice
