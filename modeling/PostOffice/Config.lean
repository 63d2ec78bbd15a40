import Mathlib.Data.Fintype.Basic
import PostOffice.Lib.Scanf
import PostOffice.Commons

/-! The configuration file (`read_config_file` of `director.c`). The loop reads a word and an integer
    at a time and assigns the parameter of that name; it ends as soon as `fscanf` does not return 2,
    which is the end of the file or a place where no pair can be read.

        fscanf ──2──▶ key known? ──yes──▶ assign ─┐
          ▲ │            │ no                     │
          │ │ not 2      ▼                        │
          │ ▼           -1                        │
          │ checks ──▶ 0 or -1                    │
          └───────────────────────────────────────┘ -/

namespace PostOffice

open Scanf

/-- `struct simulation_parameter`. -/
structure SimulationParameter where
  nofWorkerSeats : ℤ
  nofWorkers : ℤ
  nofUsers : ℤ
  nofPause : ℤ
  pServMin : ℤ
  pServMax : ℤ
  simDuration : ℤ
  nNanoSeconds : ℤ
  explodeThreshold : ℤ
  currentDay : ℤ
  dayActive : Bool
  terminationCause : TerminationCause
  deriving DecidableEq

/-- The new segment. -/
def SimulationParameter.zero : SimulationParameter where
  nofWorkerSeats := 0
  nofWorkers := 0
  nofUsers := 0
  nofPause := 0
  pServMin := 0
  pServMax := 0
  simDuration := 0
  nNanoSeconds := 0
  explodeThreshold := 0
  currentDay := 0
  dayActive := false
  terminationCause := .none

def clampPercentage (value : ℤ) : ℤ := if value < 0 then 0 else if value > 100 then 100 else value

/-- What the string functions see of a buffer. -/
def cString (buffer : List Char) : List Char := buffer.takeWhile fun ch => ch ≠ '\x00'

/-- The chain of `strcmp` in the loop of `read_config_file`. -/
def assignParameter (config : SimulationParameter) (key : List Char) (value : ℤ) :
    Option SimulationParameter :=
  if cString key = "NOF_WORKER_SEATS".toList then some { config with nofWorkerSeats := value }
  else if cString key = "NOF_WORKERS".toList then some { config with nofWorkers := value }
  else if cString key = "NOF_USERS".toList then some { config with nofUsers := value }
  else if cString key = "NOF_PAUSE".toList then some { config with nofPause := value }
  else if cString key = "P_SERV_MIN".toList then some { config with pServMin := value }
  else if cString key = "P_SERV_MAX".toList then some { config with pServMax := value }
  else if cString key = "SIM_DURATION".toList then some { config with simDuration := value }
  else if cString key = "N_NANO_SECONDS".toList then some { config with nNanoSeconds := value }
  else if cString key = "EXPLODE_THRESHOLD".toList then
    some { config with explodeThreshold := value }
  else none

/-- `fscanf(fp, "%127s %d", key, &value)` when it returns 2. -/
def fscanfPair (content : List Char) : Option ((List Char × ℤ) × List Char) :=
  (readWord 127 content).bind fun x => (readInt x.2).map fun y => ((x.1, y.1), y.2)

/-- The loop of `read_config_file`; every round shortens the content, so that its length bounds the
    rounds. -/
def readPairs : ℕ → List Char → SimulationParameter → Except String SimulationParameter
  | 0, _, config => .ok config
  | rounds + 1, content, config =>
    match fscanfPair content with
    | none => .ok config
    | some ((key, value), rest) =>
      match assignParameter config key value with
      | none => .error ("Parametro sconosciuto nel file di config: " ++ String.ofList (cString key))
      | some config => readPairs rounds rest config

/-- `read_config_file` on a file with this content: the parameters it leaves when it returns 0, or
    the message it prints when it returns -1. -/
def readConfigFile (content : List Char) (config : SimulationParameter) :
    Except String SimulationParameter :=
  match readPairs content.length content config with
  | .error message => .error message
  | .ok config =>
    if config.nofWorkerSeats ≤ 0 ∨ config.nofWorkers ≤ 0 ∨ config.nofUsers ≤ 0 ∨
        config.simDuration ≤ 0 ∨ config.nNanoSeconds ≤ 0 then
      .error "Configurazione non valida"
    else if config.pServMin > config.pServMax then .error "Intervallo P_SERV non valido"
    else .ok { config with
      pServMin := clampPercentage config.pServMin
      pServMax := clampPercentage config.pServMax
      currentDay := 0
      dayActive := false
      terminationCause := .none }

/-! ### The format -/

/-- The nine keys. -/
inductive ConfigKey where
  | nofWorkerSeats | nofWorkers | nofUsers | nofPause | pServMin | pServMax | simDuration
  | nNanoSeconds | explodeThreshold
  deriving DecidableEq

/-- The key as it is written. -/
def ConfigKey.text : ConfigKey → List Char
  | .nofWorkerSeats => "NOF_WORKER_SEATS".toList
  | .nofWorkers => "NOF_WORKERS".toList
  | .nofUsers => "NOF_USERS".toList
  | .nofPause => "NOF_PAUSE".toList
  | .pServMin => "P_SERV_MIN".toList
  | .pServMax => "P_SERV_MAX".toList
  | .simDuration => "SIM_DURATION".toList
  | .nNanoSeconds => "N_NANO_SECONDS".toList
  | .explodeThreshold => "EXPLODE_THRESHOLD".toList

/-- The content is a sequence of these pairs: white space between a key and its integer and behind
    an integer that is not the last thing in the file. -/
inductive Written : List Char → List (ConfigKey × ℤ) → Prop
  | blank {l} (h : Blank l) : Written l []
  | pair {sp gap num rest ps} {key : ConfigKey} {value : ℤ} (hsp : Blank sp) (hgap : Blank gap)
      (hne : gap ≠ []) (hnum : Numeral num value) (hsep : NoHead (fun ch => !isSpace ch) rest)
      (h : Written rest ps) :
      Written (sp ++ (key.text ++ (gap ++ (num ++ rest)))) ((key, value) :: ps)

/-- The last value given for the key, 0 if there is none. -/
def lastValue (ps : List (ConfigKey × ℤ)) (key : ConfigKey) : ℤ := (ps.reverse.lookup key).getD 0

/-- The constraints. -/
def Acceptable (value : ConfigKey → ℤ) : Prop :=
  0 < value .nofWorkerSeats ∧ 0 < value .nofWorkers ∧ 0 < value .nofUsers ∧
    0 < value .simDuration ∧ 0 < value .nNanoSeconds ∧ value .pServMin ≤ value .pServMax

/-- The parameters with these values. -/
def SimulationParameter.ofValues (value : ConfigKey → ℤ) : SimulationParameter where
  nofWorkerSeats := value .nofWorkerSeats
  nofWorkers := value .nofWorkers
  nofUsers := value .nofUsers
  nofPause := value .nofPause
  pServMin := value .pServMin
  pServMax := value .pServMax
  simDuration := value .simDuration
  nNanoSeconds := value .nNanoSeconds
  explodeThreshold := value .explodeThreshold
  currentDay := 0
  dayActive := false
  terminationCause := .none

/-- The parameters an accepted file leaves: the percentages are clamped. -/
def parametersOf (value : ConfigKey → ℤ) : SimulationParameter :=
  { SimulationParameter.ofValues value with
    pServMin := clampPercentage (value .pServMin)
    pServMax := clampPercentage (value .pServMax) }

/-- On this content `read_config_file` accepts what the format allows, with the values it gives, and
    nothing else. -/
def KeepsFormat (content : List Char) : Prop :=
  ∀ config, readConfigFile content .zero = .ok config ↔
    ∃ ps, Written content ps ∧ Acceptable (lastValue ps) ∧ config = parametersOf (lastValue ps)

/-! ### One round of the loop -/

namespace ConfigKey

instance : Fintype ConfigKey :=
  ⟨{.nofWorkerSeats, .nofWorkers, .nofUsers, .nofPause, .pServMin, .pServMax, .simDuration,
    .nNanoSeconds, .explodeThreshold}, fun key => by cases key <;> decide⟩

theorem text_injective : Function.Injective text := by
  have h : ∀ a b : ConfigKey, a.text = b.text → a = b := by decide +kernel
  exact h

/-- A key is a word that `%127s` reads in one piece, and a string without a terminator inside. -/
theorem text_solid (key : ConfigKey) : key.text ≠ [] ∧ key.text.length < 127 ∧
    (∀ ch ∈ key.text, isSpace ch = false) ∧ '\x00' ∉ key.text := by
  have hsolid : (key.text.all fun ch => !isSpace ch) = true := by cases key <;> rfl
  have hrest : key.text ≠ [] ∧ key.text.length < 127 ∧ '\x00' ∉ key.text := by
    cases key <;> decide
  exact ⟨hrest.1, hrest.2.1, by simpa using hsolid, hrest.2.2⟩

end ConfigKey

namespace SimulationParameter

/-- The assignment to the parameter of this name. -/
def set (config : SimulationParameter) (key : ConfigKey) (value : ℤ) : SimulationParameter :=
  match key with
  | .nofWorkerSeats => { config with nofWorkerSeats := value }
  | .nofWorkers => { config with nofWorkers := value }
  | .nofUsers => { config with nofUsers := value }
  | .nofPause => { config with nofPause := value }
  | .pServMin => { config with pServMin := value }
  | .pServMax => { config with pServMax := value }
  | .simDuration => { config with simDuration := value }
  | .nNanoSeconds => { config with nNanoSeconds := value }
  | .explodeThreshold => { config with explodeThreshold := value }

theorem set_ofValues (value : ConfigKey → ℤ) (key : ConfigKey) (v : ℤ) :
    (ofValues value).set key v = ofValues (Function.update value key v) := by
  cases key <;> simp [set, ofValues]

end SimulationParameter

/-- The chain of `strcmp` assigns the parameter whose key it is. -/
theorem assignParameter_eq_some_iff {config config' : SimulationParameter} {key : List Char}
    {value : ℤ} : assignParameter config key value = some config' ↔
      ∃ k : ConfigKey, cString key = k.text ∧ config' = config.set k value := by
  constructor
  · intro h
    unfold assignParameter at h
    split_ifs at h with h1 h2 h3 h4 h5 h6 h7 h8 h9 <;> cases h
    · exact ⟨.nofWorkerSeats, h1, rfl⟩
    · exact ⟨.nofWorkers, h2, rfl⟩
    · exact ⟨.nofUsers, h3, rfl⟩
    · exact ⟨.nofPause, h4, rfl⟩
    · exact ⟨.pServMin, h5, rfl⟩
    · exact ⟨.pServMax, h6, rfl⟩
    · exact ⟨.simDuration, h7, rfl⟩
    · exact ⟨.nNanoSeconds, h8, rfl⟩
    · exact ⟨.explodeThreshold, h9, rfl⟩
  · rintro ⟨k, hk, rfl⟩
    unfold assignParameter
    rw [hk]
    cases k <;> rfl

/-- The last value of one more pair. -/
theorem lastValue_append (ps : List (ConfigKey × ℤ)) (key : ConfigKey) (v : ℤ) :
    lastValue (ps ++ [(key, v)]) = Function.update (lastValue ps) key v := by
  funext k
  rw [lastValue, List.reverse_append, List.reverse_singleton, List.singleton_append,
    List.lookup_cons, Function.update_apply]
  by_cases hk : k = key
  · simp [hk]
  · rw [if_neg hk, beq_eq_false_iff_ne.mpr hk]
    rfl

/-- The assignments of the loop, one after the other. -/
theorem foldl_set (ps : List (ConfigKey × ℤ)) :
    ps.foldl (fun config x => config.set x.1 x.2) SimulationParameter.zero =
      .ofValues (lastValue ps) := by
  induction ps using List.reverseRecOn with
  | nil => rfl
  | append_singleton ps x ih =>
    rw [List.foldl_append, ih, List.foldl_cons, List.foldl_nil, SimulationParameter.set_ofValues,
      lastValue_append]

/-! ### What `fscanf` reads -/

/-- The text begins with this word and this integer, as `fscanf` reads them. -/
def Pair (l word : List Char) (value : ℤ) (rest : List Char) : Prop :=
  ∃ sp gap num, l = sp ++ (word ++ (gap ++ (num ++ rest))) ∧ Blank sp ∧ Blank gap ∧
    IsWord 127 word (gap ++ (num ++ rest)) ∧ Numeral num value ∧ NoHead Char.isDigit rest

/-- No pair can be read here. -/
def Stuck (l : List Char) : Prop := ∀ word value rest, ¬ Pair l word value rest

/-- The pairs at the front of the text, with known keys. -/
inductive Leads : List Char → List (ConfigKey × ℤ) → List Char → Prop
  | done {l} : Leads l [] l
  | pair {l word value next ps rest} {key : ConfigKey} (hpair : Pair l word value next)
      (hkey : cString word = key.text) (h : Leads next ps rest) :
      Leads l ((key, value) :: ps) rest

/-- The whole text consists of words and integers, no word holds a terminator, and white space or
    the end follows each integer. -/
inductive Tidy : List Char → Prop
  | blank {l} (h : Blank l) : Tidy l
  | pair {l word value rest} (hpair : Pair l word value rest) (hnul : '\x00' ∉ word)
      (hsep : NoHead (fun ch => !isSpace ch) rest) (h : Tidy rest) : Tidy l

/-- The pairs that can be read from the front of the text have known keys and acceptable values. -/
def LeadsToAcceptable (l : List Char) : Prop :=
  ∃ ps rest, Leads l ps rest ∧ Stuck rest ∧ Acceptable (lastValue ps)

variable {l word rest : List Char} {value : ℤ} {ps : List (ConfigKey × ℤ)}

theorem fscanfPair_eq_some_iff :
    fscanfPair l = some ((word, value), rest) ↔ Pair l word value rest := by
  constructor
  · intro h
    obtain ⟨⟨w, l'⟩, hw, h⟩ := Option.bind_eq_some_iff.mp h
    obtain ⟨⟨v, r⟩, hv, h⟩ := Option.map_eq_some_iff.mp h
    cases h
    obtain ⟨sp, hsp, rfl, hword⟩ := readWord_eq_some_iff.mp hw
    obtain ⟨gap, num, hgap, rfl, hnum, hrest⟩ := readInt_eq_some_iff.mp hv
    exact ⟨sp, gap, num, rfl, hsp, hgap, hword, hnum, hrest⟩
  · rintro ⟨sp, gap, num, rfl, hsp, hgap, hword, hnum, hrest⟩
    refine Option.bind_eq_some_iff.mpr ⟨_, readWord_eq_some_iff.mpr ⟨sp, hsp, rfl, hword⟩, ?_⟩
    exact Option.map_eq_some_iff.mpr
      ⟨_, readInt_eq_some_iff.mpr ⟨gap, num, hgap, rfl, hnum, hrest⟩, rfl⟩

theorem stuck_iff : Stuck l ↔ fscanfPair l = none := by
  constructor
  · intro h
    refine Option.eq_none_iff_forall_ne_some.mpr ?_
    rintro ⟨⟨w, v⟩, r⟩ heq
    exact h w v r (fscanfPair_eq_some_iff.mp heq)
  · intro h w v r hpair
    exact absurd (h.symm.trans (fscanfPair_eq_some_iff.mpr hpair)) (by simp)

/-- A pair shortens the text. -/
theorem Pair.length_lt (h : Pair l word value rest) : rest.length < l.length := by
  obtain ⟨sp, gap, num, rfl, -, -, hword, -⟩ := h
  have := List.length_pos_iff.mpr hword.ne_nil
  simp only [List.length_append]
  omega

/-- At most one pair can be read. -/
theorem Pair.unique {word' rest' : List Char} {value' : ℤ} (h : Pair l word value rest)
    (h' : Pair l word' value' rest') : word = word' ∧ value = value' ∧ rest = rest' := by
  have heq := (fscanfPair_eq_some_iff.mpr h).symm.trans (fscanfPair_eq_some_iff.mpr h')
  simpa [and_assoc] using heq

theorem Stuck.of_blank (h : Blank l) : Stuck l := by
  rintro word value rest ⟨sp, gap, num, rfl, -, -, hword, -⟩
  obtain ⟨ch, hch⟩ := List.exists_mem_of_ne_nil word hword.ne_nil
  have hspace := h ch (by simp [hch])
  exact Bool.false_ne_true ((hword.solid ch hch).symm.trans hspace)

/-! ### The loop -/

/-- What the loop leaves of the parameters: the pairs that can be read are assigned in order. -/
def Assigned (l : List Char) (config config' : SimulationParameter) : Prop :=
  ∃ ps rest, Leads l ps rest ∧ Stuck rest ∧
    config' = ps.foldl (fun config x => config.set x.1 x.2) config

variable {config config' : SimulationParameter}

/-- Where no pair can be read nothing is assigned. -/
theorem assigned_of_stuck (hs : Stuck l) : Assigned l config config' ↔ config = config' := by
  constructor
  · rintro ⟨ps, rest, hl, -, rfl⟩
    cases hl with
    | done => rfl
    | pair hpair => exact absurd hpair (hs _ _ _)
  · rintro rfl
    exact ⟨[], l, .done, hs, rfl⟩

/-- Where one can be read its key has to be known. -/
theorem assigned_of_pair (hpair : Pair l word value rest) : Assigned l config config' ↔
    ∃ k : ConfigKey, cString word = k.text ∧ Assigned rest (config.set k value) config' := by
  constructor
  · rintro ⟨ps, last, hl, hs, rfl⟩
    cases hl with
    | done => exact absurd hpair (hs _ _ _)
    | pair hpair' hkey h =>
      obtain ⟨rfl, rfl, rfl⟩ := hpair.unique hpair'
      exact ⟨_, hkey, _, last, h, hs, rfl⟩
  · rintro ⟨k, hkey, ps, last, h, hs, rfl⟩
    exact ⟨(k, value) :: ps, last, .pair hpair hkey h, hs, rfl⟩

/-- The loop assigns the pairs that can be read, when all their keys are known. -/
theorem readPairs_eq_ok_iff {rounds : ℕ} (hrounds : l.length ≤ rounds) :
    readPairs rounds l config = .ok config' ↔ Assigned l config config' := by
  induction rounds generalizing l config with
  | zero =>
    obtain rfl := List.length_eq_zero_iff.mp (Nat.le_zero.mp hrounds)
    rw [readPairs, Except.ok.injEq, assigned_of_stuck (Stuck.of_blank blank_nil)]
  | succ rounds ih =>
    rw [readPairs]
    split
    · rename_i hnone
      rw [Except.ok.injEq, assigned_of_stuck (stuck_iff.mpr hnone)]
    · rename_i word value next hsome
      have hpair := fscanfPair_eq_some_iff.mp hsome
      have hnext : next.length ≤ rounds := by
        have := hpair.length_lt
        omega
      rw [assigned_of_pair hpair]
      split
      · rename_i hunknown
        refine ⟨fun h => absurd h (by simp), ?_⟩
        rintro ⟨k, hkey, -⟩
        have hknown : assignParameter config word value = some (config.set k value) :=
          assignParameter_eq_some_iff.mpr ⟨k, hkey, rfl⟩
        exact absurd (hunknown.symm.trans hknown) (by simp)
      · rename_i config₁ hknown
        obtain ⟨k, hkey, rfl⟩ := assignParameter_eq_some_iff.mp hknown
        rw [ih hnext]
        constructor
        · exact fun h => ⟨k, hkey, h⟩
        · rintro ⟨k', hkey', h⟩
          obtain rfl := ConfigKey.text_injective (hkey.symm.trans hkey')
          exact h

/-- The checks after the loop. -/
theorem Acceptable.iff_checks (value : ConfigKey → ℤ) : Acceptable value ↔
    ¬ (value .nofWorkerSeats ≤ 0 ∨ value .nofWorkers ≤ 0 ∨ value .nofUsers ≤ 0 ∨
      value .simDuration ≤ 0 ∨ value .nNanoSeconds ≤ 0) ∧ ¬ value .pServMin > value .pServMax := by
  unfold Acceptable
  omega

/-- `read_config_file` returns 0 exactly when the pairs that can be read have known keys and
    acceptable values, whatever follows them. -/
theorem readConfigFile_eq_ok_iff : readConfigFile l .zero = .ok config ↔
    ∃ ps rest, Leads l ps rest ∧ Stuck rest ∧ Acceptable (lastValue ps) ∧
      config = parametersOf (lastValue ps) := by
  have hloop (config' : SimulationParameter) :
      readPairs l.length l .zero = .ok config' ↔ Assigned l .zero config' :=
    readPairs_eq_ok_iff le_rfl
  unfold readConfigFile
  constructor
  · intro h
    cases hr : readPairs l.length l .zero with
    | error message => simp [hr] at h
    | ok config₁ =>
      obtain ⟨ps, rest, hl, hs, rfl⟩ := (hloop _).mp hr
      rw [foldl_set] at hr
      rw [hr] at h
      simp only at h
      split_ifs at h with h1 h2
      exact ⟨ps, rest, hl, hs, (Acceptable.iff_checks _).mpr ⟨h1, h2⟩, (Except.ok.inj h).symm⟩
  · rintro ⟨ps, rest, hl, hs, hok, rfl⟩
    obtain ⟨h1, h2⟩ := (Acceptable.iff_checks _).mp hok
    have hr := (hloop _).mpr ⟨ps, rest, hl, hs, rfl⟩
    rw [foldl_set] at hr
    rw [hr]
    exact (if_neg h1).trans (if_neg h2)

/-! ### The format and the loop -/

theorem cString_of_not_mem (h : '\x00' ∉ word) : cString word = word := by
  refine List.takeWhile_eq_self_iff.mpr ?_
  intro ch hch
  simp only [ne_eq, decide_eq_true_eq]
  rintro rfl
  exact h hch

/-- White space ends a number. -/
theorem noHead_isDigit (h : NoHead (fun ch => !isSpace ch) l) : NoHead Char.isDigit l := by
  intro ch hch
  have hspace := h ch hch
  by_contra hdigit
  simp [isSpace_of_isDigit (Bool.eq_true_of_not_eq_false hdigit)] at hspace

/-- A content in the format is tidy, and the pairs that can be read are its pairs. -/
theorem Written.leads (h : Written l ps) : Tidy l ∧ ∃ rest, Leads l ps rest ∧ Stuck rest := by
  induction h with
  | blank h => exact ⟨.blank h, _, .done, .of_blank h⟩
  | @pair sp gap num rest ps key value hsp hgap hne hnum hsep h ih =>
    obtain ⟨htidy, last, hl, hs⟩ := ih
    obtain ⟨hkey, hlen, hsolid, hnul⟩ := key.text_solid
    have hgap' : NoHead (fun ch => !isSpace ch) (gap ++ (num ++ rest)) := by
      refine noHead_append (fun ch hch => ?_) hne
      simp [hgap ch (List.mem_of_mem_head? hch)]
    have hpair : Pair (sp ++ (key.text ++ (gap ++ (num ++ rest)))) key.text value rest :=
      ⟨sp, gap, num, rfl, hsp, hgap, ⟨hkey, hsolid, hlen.le, .inr hgap'⟩, hnum,
        noHead_isDigit hsep⟩
    exact ⟨.pair hpair hnul hsep htidy, last, .pair hpair (cString_of_not_mem hnul) hl, hs⟩

/-- A tidy content whose pairs have known keys is in the format. -/
theorem Written.of_tidy (h : Tidy l) (hl : Leads l ps rest) (hs : Stuck rest) : Written l ps := by
  induction h generalizing ps with
  | blank h =>
    cases hl with
    | done => exact .blank h
    | pair hpair => exact absurd hpair (Stuck.of_blank h _ _ _)
  | pair hpair hnul hsep h ih =>
    cases hl with
    | done => exact absurd hpair (hs _ _ _)
    | @pair _ _ _ _ ps _ key hpair' hkey hl =>
      obtain ⟨rfl, rfl, rfl⟩ := hpair.unique hpair'
      obtain ⟨sp, gap, num, rfl, hsp, hgap, hword, hnum, -⟩ := hpair
      rw [cString_of_not_mem hnul] at hkey
      subst hkey
      refine .pair hsp hgap ?_ hnum hsep (ih hl)
      -- The word is a key, shorter than the width, so white space ends it.
      rintro rfl
      rcases hword.ends with hlen | hspace
      · exact absurd hlen key.text_solid.2.1.ne
      · obtain ⟨ch, num', rfl⟩ := List.exists_cons_of_ne_nil hnum.ne_nil
        have hch : isSpace ch = false := noHead_cons.mp (hnum.noHead [])
        have hch' : (!isSpace ch) = false := noHead_cons.mp hspace
        simp [hch] at hch'

/-- CORRECT: `read_config_file` keeps its format on a content if and only if the content is tidy, or
    the pairs that can be read from its front have an unknown key or unacceptable values. -/
theorem config_format_iff (content : List Char) :
    KeepsFormat content ↔ Tidy content ∨ ¬ LeadsToAcceptable content := by
  constructor
  · intro hkeeps
    by_cases hlead : LeadsToAcceptable content
    · obtain ⟨ps, rest, hl, hs, hok⟩ := hlead
      have hread := readConfigFile_eq_ok_iff.mpr ⟨ps, rest, hl, hs, hok, rfl⟩
      obtain ⟨ps', hw, -⟩ := (hkeeps _).mp hread
      exact .inl hw.leads.1
    · exact .inr hlead
  · intro hcond config
    rw [readConfigFile_eq_ok_iff]
    constructor
    · rintro ⟨ps, rest, hl, hs, hok, rfl⟩
      have htidy := hcond.resolve_right fun h => h ⟨ps, rest, hl, hs, hok⟩
      exact ⟨ps, .of_tidy htidy hl hs, hok, rfl⟩
    · rintro ⟨ps, hw, hok, rfl⟩
      obtain ⟨-, rest, hl, hs⟩ := hw.leads
      exact ⟨ps, rest, hl, hs, hok, rfl⟩

theorem clampPercentage_mono {a b : ℤ} (h : a ≤ b) :
    0 ≤ clampPercentage a ∧ clampPercentage a ≤ clampPercentage b ∧ clampPercentage b ≤ 100 := by
  unfold clampPercentage
  split_ifs <;> omega

/-- What an accepted file promises to the rest of the program: there are seats, operators, users and
    days, a minute takes time, and the service probability is drawn from a range of percentages. -/
theorem accepted_bounds (h : readConfigFile l .zero = .ok config) :
    0 < config.nofWorkerSeats ∧ 0 < config.nofWorkers ∧ 0 < config.nofUsers ∧
      0 < config.simDuration ∧ 0 < config.nNanoSeconds ∧
      0 ≤ config.pServMin ∧ config.pServMin ≤ config.pServMax ∧ config.pServMax ≤ 100 := by
  obtain ⟨ps, rest, -, -, ⟨h1, h2, h3, h4, h5, hle⟩, rfl⟩ := readConfigFile_eq_ok_iff.mp h
  exact ⟨h1, h2, h3, h4, h5, clampPercentage_mono hle⟩

/-- No content in the format has a small `t`. -/
theorem Written.not_mem (h : Written l ps) : 't' ∉ l := by
  have hblank {sp : List Char} (hsp : Blank sp) : 't' ∉ sp := fun hmem => by cases hsp _ hmem
  have hdigits {ds : List Char} (hds : ∀ ch ∈ ds, ch.isDigit = true) : 't' ∉ ds := fun hmem => by
    cases hds _ hmem
  have hnumeral {num : List Char} {v : ℤ} (hnum : Numeral num v) : 't' ∉ num := by
    cases hnum with
    | plain hne hds => exact hdigits hds
    | plus hne hds | minus hne hds =>
      exact List.not_mem_cons_of_ne_of_not_mem (by decide) (hdigits hds)
  have htext (key : ConfigKey) : 't' ∉ key.text := by cases key <;> decide
  induction h with
  | blank h => exact hblank h
  | @pair sp gap num rest ps key value hsp hgap hne hnum hsep h ih =>
    simp only [List.mem_append, not_or]
    exact ⟨hblank hsp, htext key, hblank hgap, hnumeral hnum, ih⟩

/-- The sixth value is malformed; a seventh pair follows. -/
def malformedConfig : List Char :=
  ("NOF_WORKER_SEATS 1\nNOF_WORKERS 1\nNOF_USERS 1\nSIM_DURATION 1\nN_NANO_SECONDS 1\n" ++
    "NOF_PAUSE three\nNOF_USERS 5\n").toList

/-- `read_config_file` returns 0 and ignores the rest of the file. -/
theorem malformed_config_accepted :
    (readConfigFile malformedConfig .zero).toOption.map SimulationParameter.nofUsers = some 1 ∧
      ¬ KeepsFormat malformedConfig := by
  have hread : (readConfigFile malformedConfig .zero).toOption.map SimulationParameter.nofUsers =
      some 1 := by decide +kernel
  refine ⟨hread, fun hkeeps => ?_⟩
  cases hr : readConfigFile malformedConfig .zero with
  | error message => simp [hr, Except.toOption] at hread
  | ok config =>
    obtain ⟨ps, hw, -⟩ := (hkeeps config).mp hr
    have hmem : 't' ∈ malformedConfig := by decide +kernel
    exact hw.not_mem hmem

end PostOffice
