import PostOffice.Lib.Lines
import PostOffice.Config

/-! The log (`logger.c`). `vlogx_impl` formats a message into a buffer that grows with it and hands
    the buffer to `write_buffer`, which prints it in chunks of at most 80 characters, each on a line
    of its own:

        text ──vsnprintf──▶ buffer ──strlen──▶ message ──▶ [chunk] [chunk] ...
                  │ too long                       │ fp = NULL
                  ▼                                ▼
                 -1                              errno

    A newline ends a chunk and is dropped. The loop looks for it in the next 80 characters only, so
    the newline directly after a full chunk is found by the next round, which prints nothing between
    the brackets. -/

namespace PostOffice

def logInitialBufsz : ℕ := 256

def logMaxBufsz : ℕ := 2 ^ 20

def prefixBufsz : ℕ := 128

def maxContentWidth : ℕ := 80

inductive LogLevel where
  | debug
  | trace
  | appinfo
  | apperr
  | sysinfo
  | syserr
  deriving DecidableEq

def getLogLevel : LogLevel → List Char
  | .debug => "DEBUG".toList
  | .trace => "TRACE".toList
  | .apperr => "APPER".toList
  | .syserr => "SYSER".toList
  | .sysinfo => "SYSIN".toList
  | .appinfo => "APPIN".toList

/-- What a log call finds: whether `fp` is open, `errno`, the process and the time. -/
structure LogEnv where
  fpOpen : Bool
  errno : ℤ
  pid : ℕ
  ts : List Char

/-- What `vsnprintf` leaves in a buffer of `bufsz` bytes, and what it returns. -/
def vsnprintf (bufsz : ℕ) (text : List Char) : List Char × ℕ := (text.take (bufsz - 1), text.length)

/-- The `prefix` of the first line, and `prefix_len`. -/
def linePrefix (env : LogEnv) (level : LogLevel) : List Char × ℕ :=
  let full := vsnprintf prefixBufsz ("[".toList ++ getLogLevel level ++ "] - [PID:".toList ++
    (toString env.pid).toList ++ "] - [".toList ++ env.ts ++ "] --> ".toList)
  if full.2 ≥ prefixBufsz then
    vsnprintf prefixBufsz ("[".toList ++ env.ts ++ "] --> ".toList)
  else full

def dashes (prefixLen : ℕ) : List Char :=
  List.replicate (if prefixLen < prefixBufsz then prefixLen else prefixBufsz - 1) '-'

/-- Where the first `ch` is. -/
def memchr (l : List Char) (ch : Char) : Option ℕ := l.findIdx? fun x => x = ch

/-- A printed chunk, and the place of `p` in the message at that time. -/
structure Chunk where
  start : ℕ
  text : List Char
  deriving DecidableEq

/-- The line of a chunk, in `fp` and on `stdout`. -/
def chunkLine (env : LogEnv) (level : LogLevel) (chunkNo : ℕ) (chunk : Chunk) : List Char :=
  if chunkNo = 0 then
    (linePrefix env level).1 ++ "[".toList ++ chunk.text ++ "]\n".toList
  else
    dashes (linePrefix env level).2 ++ "] --> [".toList ++ chunk.text ++ "]\n".toList

/-- The loop of `write_buffer`: `pos` is the place of `p`, `rest` the `rem` characters from there
    on. The result is `none` when `rounds` rounds are not enough. -/
def splitLoop : ℕ → ℕ → List Char → Option (List Chunk)
  | _, _, [] => some []
  | 0, _, _ => none
  | rounds + 1, pos, rest =>
      let scanLen := if rest.length < maxContentWidth then rest.length else maxContentWidth
      let nl := memchr (rest.take scanLen) '\n'
      let chunkLen := nl.getD scanLen
      let skip := if nl.isSome ∧ (rest.drop chunkLen).head? = some '\n' then 1 else 0
      (splitLoop rounds (pos + chunkLen + skip) (rest.drop (chunkLen + skip))).map fun chunks =>
        { start := pos, text := rest.take chunkLen } :: chunks

/-- What a call returns, and what it prints; `chunks` is `none` when the loop is not reached. -/
structure Logged where
  rc : ℤ
  chunks : Option (List Chunk)
  lines : List (List Char)

def writeBuffer (rounds : ℕ) (env : LogEnv) (level : LogLevel) (buffer : List Char) :
    Option Logged :=
  if env.fpOpen = false then
    some { rc := env.errno, chunks := none, lines := [] }
  else
    (splitLoop rounds 0 (cString buffer)).map fun chunks =>
      { rc := 0, chunks := some chunks, lines := chunks.mapIdx (chunkLine env level) }

/-- The loop of `vlogx_impl` that makes room. The result is `none` when `rounds` rounds are not
    enough, and `some none` when the call gives up. -/
def formatLoop : ℕ → ℕ → List Char → Option (Option (List Char))
  | 0, _, _ => none
  | rounds + 1, bufsz, text =>
      let (buf, n) := vsnprintf bufsz text
      if n < bufsz then some (some buf)
      else
        let newSz := if n + 1 > bufsz * 2 then n + 1 else bufsz * 2
        if newSz > logMaxBufsz then some none else formatLoop rounds newSz text

/-- `logx` (by `vlogx_impl`), with the text that the format and its arguments stand for. -/
def logx (rounds : ℕ) (env : LogEnv) (level : LogLevel) (text : List Char) : Option Logged :=
  match formatLoop rounds logInitialBufsz text with
  | none => none
  | some none => some { rc := -1, chunks := none, lines := [] }
  | some (some buf) => writeBuffer rounds env level buf

/-! ### The loop over the message -/

/-- The ways a message is split, a constructor for each way round the loop. -/
inductive Splits : ℕ → List Char → List Chunk → Prop
  | done {pos : ℕ} : Splits pos [] []
  | line {pos : ℕ} {run rest : List Char} {chunks : List Chunk} (hrun : '\n' ∉ run)
      (hlen : run.length < maxContentWidth) (h : Splits (pos + run.length + 1) rest chunks) :
      Splits pos (run ++ '\n' :: rest) ({ start := pos, text := run } :: chunks)
  | full {pos : ℕ} {run rest : List Char} {chunks : List Chunk} (hrun : '\n' ∉ run)
      (hlen : run.length = maxContentWidth) (h : Splits (pos + maxContentWidth) rest chunks) :
      Splits pos (run ++ rest) ({ start := pos, text := run } :: chunks)
  | last {pos : ℕ} {run : List Char} (hrun : '\n' ∉ run) (hlen : run.length < maxContentWidth)
      (hne : run ≠ []) : Splits pos run [{ start := pos, text := run }]

section Loop

variable {rounds pos : ℕ} {run rest : List Char} {chunks : List Chunk}

theorem memchr_eq_none {l : List Char} {ch : Char} (h : ch ∉ l) : memchr l ch = none :=
  List.findIdx?_eq_none_iff.mpr fun x hx => by
    simpa using fun hch : x = ch => h (hch ▸ hx)

theorem memchr_append {l : List Char} {ch : Char} (h : ch ∉ run) :
    memchr (run ++ ch :: l) ch = some run.length := by
  have hnone := memchr_eq_none h
  unfold memchr at hnone ⊢
  rw [List.findIdx?_append, hnone]
  simp [List.findIdx?_cons]

/-- A round: what is scanned is at most `maxContentWidth` characters. -/
theorem splitLoop_succ {nl : Option ℕ} (hne : rest ≠ [])
    (hnl : memchr (rest.take maxContentWidth) '\n' = nl) {chunkLen skip : ℕ}
    (hlen : nl.getD (min rest.length maxContentWidth) = chunkLen)
    (hskip : (if nl.isSome ∧ (rest.drop chunkLen).head? = some '\n' then 1 else 0) = skip) :
    splitLoop (rounds + 1) pos rest =
      (splitLoop rounds (pos + chunkLen + skip) (rest.drop (chunkLen + skip))).map
        ({ start := pos, text := rest.take chunkLen } :: ·) := by
  have hscan : (if rest.length < maxContentWidth then rest.length else maxContentWidth) =
      min rest.length maxContentWidth := by
    split <;> omega
  have htake : rest.take (min rest.length maxContentWidth) = rest.take maxContentWidth := by
    rw [Nat.min_comm, ← List.take_take, List.take_length]
  subst hlen hskip hnl
  cases rest with
  | nil => exact absurd rfl hne
  | cons a l =>
    rw [splitLoop.eq_3 _ _ _ (List.cons_ne_nil a l)]
    simp only [hscan, htake]

theorem splitLoop_line (hrun : '\n' ∉ run) (hlen : run.length < maxContentWidth) :
    splitLoop (rounds + 1) pos (run ++ '\n' :: rest) =
      (splitLoop rounds (pos + run.length + 1) rest).map ({ start := pos, text := run } :: ·) := by
  obtain ⟨k, hk⟩ : ∃ k, maxContentWidth = run.length + (k + 1) :=
    ⟨maxContentWidth - run.length - 1, by omega⟩
  have hnl : memchr ((run ++ '\n' :: rest).take maxContentWidth) '\n' = some run.length := by
    rw [hk, List.take_length_add_append, List.take_succ_cons, memchr_append hrun]
  rw [splitLoop_succ (by simp) hnl rfl (if_pos ⟨rfl, by simp⟩)]
  simp [← List.drop_drop]

theorem splitLoop_full (hrun : '\n' ∉ run) (hlen : run.length = maxContentWidth) :
    splitLoop (rounds + 1) pos (run ++ rest) =
      (splitLoop rounds (pos + maxContentWidth) rest).map ({ start := pos, text := run } :: ·) := by
  have hne : run ++ rest ≠ [] := by
    rintro h
    rw [(List.append_eq_nil_iff.mp h).1] at hlen
    cases hlen
  have hnl : memchr ((run ++ rest).take maxContentWidth) '\n' = none := by
    rw [← hlen, List.take_left, memchr_eq_none hrun]
  have hmin : min (run ++ rest).length maxContentWidth = run.length := by
    rw [List.length_append]
    omega
  rw [splitLoop_succ hne hnl hmin (if_neg (by simp)), ← hlen]
  simp

theorem splitLoop_last (hrun : '\n' ∉ run) (hlen : run.length < maxContentWidth) (hne : run ≠ []) :
    splitLoop (rounds + 1) pos run = some [{ start := pos, text := run }] := by
  have hnl : memchr (run.take maxContentWidth) '\n' = none := by
    rw [List.take_of_length_le hlen.le, memchr_eq_none hrun]
  rw [splitLoop_succ hne hnl (min_eq_left hlen.le) (if_neg (by simp)), Nat.add_zero,
    Nat.add_zero, List.drop_length, List.take_length, splitLoop]
  rfl

/-- What `memchr` can find in the next characters. -/
theorem lookahead (rest : List Char) :
    (∃ run l, rest = run ++ '\n' :: l ∧ '\n' ∉ run ∧ run.length < maxContentWidth) ∨
    (∃ run l, rest = run ++ l ∧ '\n' ∉ run ∧ run.length = maxContentWidth) ∨
    ('\n' ∉ rest ∧ rest.length < maxContentWidth) := by
  by_cases hmem : '\n' ∈ rest.take maxContentWidth
  · obtain ⟨run, l, htake, hrun⟩ := List.eq_append_cons_of_mem hmem
    have hlen := congrArg List.length htake
    rw [List.length_take, List.length_append, List.length_cons] at hlen
    refine .inl ⟨run, l ++ rest.drop maxContentWidth, ?_, hrun, by omega⟩
    rw [← List.cons_append, ← List.append_assoc, ← htake, List.take_append_drop]
  · rcases Nat.lt_or_ge rest.length maxContentWidth with hlt | hge
    · rw [List.take_of_length_le hlt.le] at hmem
      exact .inr (.inr ⟨hmem, hlt⟩)
    · exact .inr (.inl ⟨_, _, (List.take_append_drop ..).symm, hmem, List.length_take_of_le hge⟩)

/-- Every message is split. -/
theorem exists_splits (pos : ℕ) (rest : List Char) : ∃ chunks, Splits pos rest chunks := by
  induction hn : rest.length using Nat.strong_induction_on generalizing pos rest with
  | _ n ih =>
    rcases lookahead rest with ⟨run, l, rfl, hrun, hlen⟩ | ⟨run, l, rfl, hrun, hlen⟩ | ⟨hrest, hlen⟩
    · obtain ⟨chunks, h⟩ := ih l.length (by simp at hn; omega) (pos + run.length + 1) l rfl
      exact ⟨_, .line hrun hlen h⟩
    · have hpos : 0 < run.length := by rw [hlen]; decide
      obtain ⟨chunks, h⟩ := ih l.length (by simp at hn; omega) (pos + maxContentWidth) l rfl
      exact ⟨_, .full hrun hlen h⟩
    · by_cases hne : rest = []
      · subst hne
        exact ⟨_, .done⟩
      · exact ⟨_, .last hrest hlen hne⟩

/-- The loop ends with the chunks of the message, after at most as many rounds as characters. -/
theorem Splits.splitLoop_eq (h : Splits pos rest chunks) (hrounds : rest.length ≤ rounds) :
    splitLoop rounds pos rest = some chunks := by
  induction h generalizing rounds with
  | done => rw [splitLoop]
  | line hrun hlen _ ih =>
    rw [List.length_append, List.length_cons] at hrounds
    obtain ⟨k, rfl⟩ := Nat.exists_eq_add_of_le' (show 1 ≤ rounds by omega)
    rw [splitLoop_line hrun hlen, ih (by omega)]
    rfl
  | full hrun hlen _ ih =>
    have hpos : 0 < maxContentWidth := by decide
    rw [List.length_append] at hrounds
    obtain ⟨k, rfl⟩ := Nat.exists_eq_add_of_le' (show 1 ≤ rounds by omega)
    rw [splitLoop_full hrun hlen, ih (by omega)]
    rfl
  | last hrun hlen hne =>
    have hpos := List.length_pos_of_ne_nil hne
    obtain ⟨k, rfl⟩ := Nat.exists_eq_add_of_le' (show 1 ≤ rounds by omega)
    rw [splitLoop_last hrun hlen hne]

end Loop

/-! ### The chunks of a message -/

/-- The places of the chunks with nothing in them. -/
def emptyStarts (chunks : List Chunk) : List ℕ :=
  (chunks.filter fun chunk => chunk.text = []).map Chunk.start

/-- An empty line of `message`, by the place of the newline that ends it. -/
def EmptyLine (message : List Char) (i : ℕ) : Prop :=
  message[i]? = some '\n' ∧ (i = 0 ∨ 0 < i ∧ message[i - 1]? = some '\n')

/-- The chunks are `message` without its newlines, and its empty lines are the empty chunks. -/
structure SplitInLines (message : List Char) (chunks : List Chunk) : Prop where
  noNewline : ∀ chunk ∈ chunks, '\n' ∉ chunk.text
  width : ∀ chunk ∈ chunks, chunk.text.length ≤ maxContentWidth
  concat : chunks.flatMap Chunk.text = message.filter fun ch => ch ≠ '\n'
  within : ∀ chunk ∈ chunks, chunk.text <+: message.drop chunk.start
  once : (emptyStarts chunks).Nodup
  empty : ∀ i, i ∈ emptyStarts chunks ↔ EmptyLine message i

section Chunks

variable {pos col i : ℕ} {message rest : List Char} {chunks : List Chunk}

theorem emptyStarts_nil : emptyStarts ({ start := pos, text := [] } :: chunks) =
    pos :: emptyStarts chunks := rfl

theorem emptyStarts_cons {run : List Char} (h : run ≠ []) :
    emptyStarts ({ start := pos, text := run } :: chunks) = emptyStarts chunks := by
  unfold emptyStarts
  rw [List.filter_cons_of_neg (by simpa using h)]

theorem filter_eq_self {run : List Char} (h : '\n' ∉ run) :
    (run.filter fun ch => ch ≠ '\n') = run :=
  List.filter_eq_self.mpr fun ch hch => by
    simpa using fun heq : ch = '\n' => h (heq ▸ hch)

namespace Splits

theorem bounds (h : Splits pos rest chunks) :
    ∀ chunk ∈ chunks, '\n' ∉ chunk.text ∧ chunk.text.length ≤ maxContentWidth := by
  induction h with
  | done => exact List.forall_mem_nil _
  | line hrun hlen _ ih => exact List.forall_mem_cons.mpr ⟨⟨hrun, hlen.le⟩, ih⟩
  | full hrun hlen _ ih => exact List.forall_mem_cons.mpr ⟨⟨hrun, hlen.le⟩, ih⟩
  | last hrun hlen _ => exact List.forall_mem_singleton.mpr ⟨hrun, hlen.le⟩

theorem concat (h : Splits pos rest chunks) :
    chunks.flatMap Chunk.text = rest.filter fun ch => ch ≠ '\n' := by
  induction h with
  | done => rfl
  | line hrun _ _ ih =>
    rw [List.flatMap_cons, ih, List.filter_append, List.filter_cons_of_neg (by simp),
      filter_eq_self hrun]
  | full hrun _ _ ih => rw [List.flatMap_cons, ih, List.filter_append, filter_eq_self hrun]
  | last hrun _ _ => rw [List.flatMap_singleton, filter_eq_self hrun]

theorem within (h : Splits pos rest chunks) (hrest : message.drop pos = rest) :
    ∀ chunk ∈ chunks, chunk.text <+: message.drop chunk.start := by
  induction h with
  | done => exact List.forall_mem_nil _
  | line _ _ _ ih =>
    refine List.forall_mem_cons.mpr ⟨hrest ▸ List.prefix_append _ _, ih ?_⟩
    rw [← List.drop_drop, ← List.drop_drop, hrest, List.drop_left]
    rfl
  | full _ hlen _ ih =>
    refine List.forall_mem_cons.mpr ⟨hrest ▸ List.prefix_append _ _, ih ?_⟩
    rw [← List.drop_drop, hrest, ← hlen, List.drop_left]
  | last _ _ _ => exact List.forall_mem_singleton.mpr (hrest ▸ List.prefix_refl _)

/-- The empty chunks are the newlines that end a line of full chunks, and those of empty lines. -/
theorem emptyStarts_eq (h : Splits pos rest chunks) (hcol : maxContentWidth ∣ col) :
    emptyStarts chunks =
      ((Lines.ends '\n' pos col rest).filter fun e => maxContentWidth ∣ e.2).map Prod.fst := by
  induction h generalizing col with
  | done => rfl
  | @line pos run rest chunks hrun hlen _ ih =>
    have hdvd : maxContentWidth ∣ col + run.length ↔ run = [] := by
      rw [Nat.dvd_add_right hcol]
      exact ⟨fun h => List.length_eq_zero_iff.mp (Nat.eq_zero_of_dvd_of_lt h hlen),
        fun h => h ▸ dvd_zero _⟩
    rw [Lines.ends_append hrun, Lines.ends_sep]
    by_cases hnil : run = []
    · rw [List.filter_cons_of_pos (by simpa using hdvd.mpr hnil), hnil, emptyStarts_nil,
        ih (dvd_zero _), hnil]
      rfl
    · rw [List.filter_cons_of_neg (by simpa using mt hdvd.mp hnil), emptyStarts_cons hnil,
        ih (dvd_zero _)]
  | full hrun hlen _ ih =>
    have hne := List.ne_nil_of_length_pos (hlen ▸ (by decide : 0 < maxContentWidth))
    rw [emptyStarts_cons hne, ih (Nat.dvd_add hcol (dvd_refl _)), Lines.ends_append hrun, hlen]
  | @last pos run hrun _ hne =>
    have hends := @Lines.ends_append _ _ '\n' pos col [] run hrun
    rw [List.append_nil] at hends
    rw [emptyStarts_cons hne, hends]
    rfl

end Splits

/-- A line of the message and its length: only those of length 0 are empty. -/
theorem emptyLine_iff : EmptyLine message i ↔ (i, 0) ∈ Lines.ends '\n' 0 0 message :=
  Lines.mem_ends_zero.symm

/-- The newlines that print an empty chunk are those of the empty lines when no line of the message
    ends with a full chunk. -/
theorem Splits.splitInLines_iff (h : Splits 0 message chunks) :
    SplitInLines message chunks ↔
      ∀ e ∈ Lines.ends '\n' 0 0 message, e.2 ≠ 0 → ¬ maxContentWidth ∣ e.2 := by
  have hstarts := h.emptyStarts_eq (dvd_zero _)
  have hmem (i : ℕ) : i ∈ emptyStarts chunks ↔
      ∃ n, (i, n) ∈ Lines.ends '\n' 0 0 message ∧ maxContentWidth ∣ n := by
    rw [hstarts]
    simp
  constructor
  · rintro hsplit ⟨i, n⟩ he hne hdvd
    have hempty := (hsplit.empty i).mp ((hmem i).mpr ⟨n, he, hdvd⟩)
    exact hne (Lines.ends_unique he (emptyLine_iff.mp hempty))
  · intro hfull
    refine {
      noNewline := fun chunk hc => (h.bounds chunk hc).1
      width := fun chunk hc => (h.bounds chunk hc).2
      concat := h.concat
      within := h.within rfl
      once := ?_
      empty := fun i => ?_ }
    · rw [hstarts]
      exact Lines.nodup_ends.sublist (List.filter_sublist.map _)
    · rw [hmem, emptyLine_iff]
      constructor
      · rintro ⟨n, he, hdvd⟩
        have hzero : n = 0 := by_contra fun hne => hfull _ he hne hdvd
        exact hzero ▸ he
      · exact fun he => ⟨0, he, dvd_zero _⟩

end Chunks

/-! ### The log call -/

section Calls

variable {rounds : ℕ} {env : LogEnv} {level : LogLevel} {text : List Char} {chunks : List Chunk}

theorem length_cString_le : (cString text).length ≤ text.length :=
  (List.takeWhile_sublist _).length_le

/-- `write_buffer` on an open file. -/
theorem writeBuffer_eq (hfp : env.fpOpen = true) (h : Splits 0 (cString text) chunks)
    (hrounds : text.length ≤ rounds) :
    writeBuffer rounds env level text =
      some { rc := 0, chunks := some chunks, lines := chunks.mapIdx (chunkLine env level) } := by
  unfold writeBuffer
  rw [if_neg (by simp [hfp]), h.splitLoop_eq (length_cString_le.trans hrounds)]
  rfl

/-- What is printed for a chunk is one line of the file. -/
theorem chunkLine_newline {chunkNo : ℕ} {chunk : Chunk} (hhead : '\n' ∉ (linePrefix env level).1)
    (h : '\n' ∉ chunk.text) :
    ∃ body, chunkLine env level chunkNo chunk = body ++ ['\n'] ∧ '\n' ∉ body := by
  have hclose : "]\n".toList = [']'] ++ ['\n'] := rfl
  unfold chunkLine
  split
  · refine ⟨(linePrefix env level).1 ++ "[".toList ++ chunk.text ++ [']'], ?_, ?_⟩
    · rw [hclose, ← List.append_assoc]
    · simp [hhead, h]
  · refine ⟨dashes (linePrefix env level).2 ++ "] --> [".toList ++ chunk.text ++ [']'], ?_, ?_⟩
    · rw [hclose, ← List.append_assoc]
    · simp [dashes, h]

/-- As many lines as chunks, each with its own newline and no other. -/
theorem writeBuffer_lines (hfp : env.fpOpen = true) (hhead : '\n' ∉ (linePrefix env level).1)
    (h : Splits 0 (cString text) chunks) :
    ∃ logged, writeBuffer text.length env level text = some logged ∧
      logged.lines.length = chunks.length ∧
      ∀ line ∈ logged.lines, ∃ body, line = body ++ ['\n'] ∧ '\n' ∉ body := by
  refine ⟨_, writeBuffer_eq hfp h le_rfl, List.length_mapIdx, fun line hline => ?_⟩
  obtain ⟨chunkNo, hno, rfl⟩ := List.mem_mapIdx.mp hline
  exact chunkLine_newline hhead (h.bounds _ (List.getElem_mem hno)).1

theorem writeBuffer_closed (hfp : env.fpOpen = false) :
    writeBuffer rounds env level text = some { rc := env.errno, chunks := none, lines := [] } :=
  if_pos hfp

theorem formatLoop_fits {bufsz : ℕ} (h : text.length < bufsz) :
    formatLoop (rounds + 1) bufsz text = some (some text) := by
  have htake : text.take (bufsz - 1) = text := List.take_of_length_le (Nat.le_sub_one_of_lt h)
  simp only [formatLoop, vsnprintf, if_pos h, htake]

theorem formatLoop_grows {bufsz newSz : ℕ} (h : bufsz ≤ text.length)
    (hnew : (if text.length + 1 > bufsz * 2 then text.length + 1 else bufsz * 2) = newSz) :
    formatLoop (rounds + 1) bufsz text =
      if newSz > logMaxBufsz then some none else formatLoop rounds newSz text := by
  subst hnew
  exact if_neg (Nat.not_lt.mpr h)

/-- The second round is the last one: the new buffer has room for all of the text. -/
theorem formatLoop_eq {bufsz : ℕ} (hbuf : bufsz * 2 ≤ logMaxBufsz) (hrounds : 2 ≤ rounds) :
    formatLoop rounds bufsz text =
      some (if text.length < logMaxBufsz then some text else none) := by
  obtain ⟨k, rfl⟩ := Nat.exists_eq_add_of_le' hrounds
  rcases Nat.lt_or_ge text.length bufsz with hfits | hgrows
  · rw [formatLoop_fits hfits, if_pos (by omega)]
  · obtain ⟨newSz, hnew⟩ : ∃ newSz, (if text.length + 1 > bufsz * 2 then text.length + 1
        else bufsz * 2) = newSz := ⟨_, rfl⟩
    have hroom : text.length < newSz := by
      rw [← hnew]
      split <;> omega
    have hcap : newSz > logMaxBufsz ↔ ¬ text.length < logMaxBufsz := by
      rw [← hnew]
      split <;> omega
    rw [formatLoop_grows hgrows hnew, formatLoop_fits hroom]
    by_cases hlong : text.length < logMaxBufsz
    · rw [if_neg (fun h => hcap.mp h hlong), if_pos hlong]
    · rw [if_pos (hcap.mpr hlong), if_neg hlong]

theorem logx_short (h : text.length < logMaxBufsz) (hrounds : 2 ≤ rounds) :
    logx rounds env level text = writeBuffer rounds env level text := by
  unfold logx
  rw [formatLoop_eq (by decide) hrounds, if_pos h]

theorem logx_long (h : logMaxBufsz ≤ text.length) (hrounds : 2 ≤ rounds) :
    logx rounds env level text = some { rc := -1, chunks := none, lines := [] } := by
  unfold logx
  rw [formatLoop_eq (by decide) hrounds, if_neg (Nat.not_lt.mpr h)]

end Calls

/-- The call of `write_buffer` ends, and it has printed the lines of the message. -/
def WritesLines (env : LogEnv) (level : LogLevel) (message : List Char) : Prop :=
  ∃ logged chunks, (∀ rounds ≥ message.length, writeBuffer rounds env level message = some logged) ∧
    logged.chunks = some chunks ∧ SplitInLines message chunks

/-- CORRECT: `write_buffer` splits a message without loss and without invented lines if and only if
    none of its lines that end with a newline fills its last chunk. -/
theorem write_buffer_splits_lines (env : LogEnv) (level : LogLevel) (message : List Char)
    (hfp : env.fpOpen = true) (hnul : '\x00' ∉ message) :
    WritesLines env level message ↔
      ∀ e ∈ Lines.ends '\n' 0 0 message, e.2 ≠ 0 → ¬ maxContentWidth ∣ e.2 := by
  obtain ⟨chunks, h⟩ := exists_splits 0 message
  have hrun (rounds) (hrounds : rounds ≥ message.length) :
      writeBuffer rounds env level message = _ :=
    writeBuffer_eq hfp ((cString_of_not_mem hnul).symm ▸ h) hrounds
  rw [← h.splitInLines_iff]
  constructor
  · rintro ⟨logged, chunks', hends, hprinted, hsplit⟩
    obtain rfl := Option.some.inj ((hends _ le_rfl).symm.trans (hrun _ le_rfl))
    exact Option.some.inj hprinted ▸ hsplit
  · exact fun hsplit => ⟨_, chunks, hrun, rfl, hsplit⟩

/-- A process that logs. -/
def logEnv (fpOpen : Bool) (errno : ℤ) : LogEnv where
  fpOpen := fpOpen
  errno := errno
  pid := 7
  ts := "01/01/2025 - 09:00.00.000".toList

/-- Two lines with an empty one between them. -/
theorem write_buffer_splits_lines_small :
    WritesLines (logEnv true 0) .appinfo "one\n\ntwo".toList :=
  (write_buffer_splits_lines _ _ _ rfl (by decide)).mpr (by decide)

/-- A full chunk and a newline: an empty line is printed that the message does not have. -/
theorem full_chunk_prints_empty_line :
    ¬ WritesLines (logEnv true 0) .appinfo (List.replicate 80 'a' ++ "\nb".toList) := by
  rintro ⟨logged, chunks, hends, hprinted, hsplit⟩
  have hchunks : (writeBuffer 82 (logEnv true 0) .appinfo
      (List.replicate 80 'a' ++ "\nb".toList)).bind Logged.chunks = some [
        { start := 0, text := List.replicate 80 'a' }, { start := 80, text := [] },
        { start := 81, text := ['b'] }] := by
    decide +kernel
  rw [hends 82 (by decide), Option.bind_some, hprinted] at hchunks
  obtain rfl := Option.some.inj hchunks
  have hempty := (hsplit.empty 80).mp (by decide)
  exact absurd hempty.2 (by decide)

/-- `write_buffer` has printed all of `text`, newlines apart. It has not when its loop is not
    reached, whatever the text. -/
def Logged.Printed (logged : Logged) (text : List Char) : Prop :=
  ∃ chunks, logged.chunks = some chunks ∧
    chunks.flatMap Chunk.text = text.filter fun ch => ch ≠ '\n'

/-- What the result of a log call tells about the log. -/
structure TrueResult (env : LogEnv) (text : List Char) (logged : Logged) : Prop where
  success : logged.rc = 0 ↔ logged.Printed text
  complete : env.fpOpen = true → '\x00' ∉ text → text.length < logMaxBufsz →
    logged.rc = 0 ∧ logged.Printed text
  refused : env.fpOpen = false ∨ logMaxBufsz ≤ text.length →
    logged.rc ≠ 0 ∧ logged.chunks = none ∧ logged.lines = []

/-- The log call ends, with a result that is true. -/
def LogsTruly (env : LogEnv) (level : LogLevel) (text : List Char) : Prop :=
  ∃ logged, (∀ rounds ≥ max 2 text.length, logx rounds env level text = some logged) ∧
    TrueResult env text logged

section Results

variable {env : LogEnv} {level : LogLevel} {text : List Char} {chunks : List Chunk}

theorem nul_notMem_cString : '\x00' ∉ cString text := fun h => by
  simpa using List.mem_takeWhile_imp h

/-- The part of a text that is printed is all of it when no NUL cuts it short. -/
theorem printed_iff (h : Splits 0 (cString text) chunks) :
    (chunks.flatMap Chunk.text = text.filter fun ch => ch ≠ '\n') ↔ '\x00' ∉ text := by
  rw [h.concat]
  constructor
  · intro heq hmem
    have hnul : '\x00' ∈ text.filter fun ch => ch ≠ '\n' := List.mem_filter.mpr ⟨hmem, rfl⟩
    rw [← heq] at hnul
    exact nul_notMem_cString (List.mem_filter.mp hnul).1
  · exact fun hnul => by rw [cString_of_not_mem hnul]

theorem logsTruly_iff {logged : Logged}
    (hrun : ∀ rounds ≥ max 2 text.length, logx rounds env level text = some logged) :
    LogsTruly env level text ↔ TrueResult env text logged := by
  constructor
  · rintro ⟨logged', hends, h⟩
    obtain rfl := Option.some.inj ((hends _ le_rfl).symm.trans (hrun _ le_rfl))
    exact h
  · exact fun h => ⟨logged, hrun, h⟩

/-- A call that has to fail, and does not reach the loop. -/
theorem trueResult_refused {rc : ℤ} (h : env.fpOpen = false ∨ logMaxBufsz ≤ text.length) :
    TrueResult env text { rc := rc, chunks := none, lines := [] } ↔ rc ≠ 0 := by
  constructor
  · exact fun htrue => (htrue.refused h).1
  · intro hrc
    refine {
      success := ⟨fun h => absurd h hrc, ?_⟩
      complete := fun hfp _ hlen => ?_
      refused := fun _ => ⟨hrc, rfl, rfl⟩ }
    · rintro ⟨chunks, hsome, -⟩
      cases hsome
    · rcases h with hclosed | hlong
      · cases hfp.symm.trans hclosed
      · exact absurd hlen (Nat.not_lt.mpr hlong)

/-- A call that reaches the loop. -/
theorem trueResult_printed {lines : List (List Char)} (hfp : env.fpOpen = true)
    (hlen : text.length < logMaxBufsz) (h : Splits 0 (cString text) chunks) :
    TrueResult env text { rc := 0, chunks := some chunks, lines := lines } ↔ '\x00' ∉ text := by
  rw [← printed_iff h]
  constructor
  · intro htrue
    obtain ⟨chunks', hsome, hprinted⟩ := htrue.success.mp rfl
    exact Option.some.inj hsome ▸ hprinted
  · intro hprinted
    refine {
      success := ⟨fun _ => ⟨chunks, rfl, hprinted⟩, fun _ => rfl⟩
      complete := fun _ _ _ => ⟨rfl, chunks, rfl, hprinted⟩
      refused := ?_ }
    rintro (hclosed | hlong)
    · cases hfp.symm.trans hclosed
    · exact absurd hlen (Nat.not_lt.mpr hlong)

end Results

/-- CORRECT: the result of a log call tells whether the text has been logged if and only if the text
    is too long for any buffer, or goes to an open log and holds no NUL, or finds no log and `errno`
    set. -/
theorem log_result_true (env : LogEnv) (level : LogLevel) (text : List Char) :
    LogsTruly env level text ↔
      logMaxBufsz ≤ text.length ∨ (env.fpOpen = true ∧ '\x00' ∉ text) ∨
        (env.fpOpen = false ∧ env.errno ≠ 0) := by
  rcases Nat.lt_or_ge text.length logMaxBufsz with hshort | hlong
  · have hrun (rounds) (hrounds : rounds ≥ max 2 text.length) :
        logx rounds env level text = writeBuffer rounds env level text :=
      logx_short hshort (le_of_max_le_left hrounds)
    rw [or_iff_right (Nat.not_le.mpr hshort)]
    cases hfp : env.fpOpen with
    | true =>
      obtain ⟨chunks, h⟩ := exists_splits 0 (cString text)
      rw [logsTruly_iff fun rounds hrounds => (hrun rounds hrounds).trans
        (writeBuffer_eq hfp h (le_of_max_le_right hrounds)), trueResult_printed hfp hshort h]
      simp
    | false =>
      rw [logsTruly_iff fun rounds hrounds => (hrun rounds hrounds).trans (writeBuffer_closed hfp),
        trueResult_refused (.inl hfp)]
      simp
  · rw [logsTruly_iff fun rounds hrounds => logx_long hlong (le_of_max_le_left hrounds),
      trueResult_refused (.inr hlong)]
    exact ⟨fun _ => .inl hlong, fun _ => by decide⟩

/-- No log file and no `errno`: the result 0 of a call that prints nothing. -/
theorem closed_log_reports_success : ¬ LogsTruly (logEnv false 0) .appinfo "hello".toList := by
  rintro ⟨logged, hends, h⟩
  have hrun : logx 5 (logEnv false 0) .appinfo "hello".toList =
      some { rc := 0, chunks := none, lines := [] } := by
    rfl
  obtain rfl := Option.some.inj ((hends 5 (by decide)).symm.trans hrun)
  exact (h.refused (.inl rfl)).1 rfl

end PostOffice
