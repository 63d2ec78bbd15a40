import PostOffice.Logger

/-! What the log keeps of a message (`write_buffer` of `logger.c`). The chunks tell a newline apart
    from a line that goes on, because a chunk that is not full ends with one, unless it is the last:

        [full] [full] [rest]        one line of 160 characters and more
        [full] [    ] [rest]        a line of 80, a line

    Only after the last chunk there is nothing to tell: a message whose last line is not a full
    chunk prints the same with a newline at its end and without. -/

namespace PostOffice

/-- The message that chunks with these texts are printed for, without a newline at its end if they
    are printed without it as well. -/
def joinChunks : List (List Char) → List Char
  | [] => []
  | text :: texts =>
      if text.length = maxContentWidth then text ++ joinChunks texts
      else if texts = [] ∧ text ≠ [] then text
      else text ++ '\n' :: joinChunks texts

section

variable {text : List Char} {texts : List (List Char)}

theorem joinChunks_full (h : text.length = maxContentWidth) :
    joinChunks (text :: texts) = text ++ joinChunks texts := if_pos h

theorem joinChunks_last (h : text.length < maxContentWidth) (hne : text ≠ []) :
    joinChunks [text] = text := by
  rw [joinChunks, if_neg h.ne, if_pos ⟨rfl, hne⟩]

theorem joinChunks_line (h : text.length < maxContentWidth) (hmore : ¬ (texts = [] ∧ text ≠ [])) :
    joinChunks (text :: texts) = text ++ '\n' :: joinChunks texts := by
  rw [joinChunks, if_neg h.ne, if_neg hmore]

end

/-- The last line of the message has a chunk that is not full. -/
def OpenEnded (col : ℕ) (message : List Char) : Prop :=
  ¬ maxContentWidth ∣ Lines.column '\n' col message

instance (col : ℕ) (message : List Char) : Decidable (OpenEnded col message) :=
  inferInstanceAs (Decidable (¬ _))

namespace Splits

variable {pos col : ℕ} {message : List Char} {chunks chunks' : List Chunk}

theorem eq_nil (h : Splits pos message []) : message = [] := by
  cases h
  rfl

theorem unique (h : Splits pos message chunks) (h' : Splits pos message chunks') :
    chunks = chunks' :=
  Option.some.inj ((h.splitLoop_eq le_rfl).symm.trans (h'.splitLoop_eq le_rfl))

/-- The chunks have their message, but for a newline at its end. -/
theorem join (h : Splits pos message chunks) (hcol : maxContentWidth ∣ col) :
    message = joinChunks (chunks.map Chunk.text) ∨
    message = joinChunks (chunks.map Chunk.text) ++ ['\n'] ∧
      OpenEnded col (joinChunks (chunks.map Chunk.text)) := by
  induction h generalizing col with
  | done => exact .inl rfl
  | last hrun hlen hne =>
    rw [List.map_singleton, joinChunks_last hlen hne]
    exact .inl rfl
  | @line pos run rest chunks hrun hlen h ih =>
    by_cases hlast : chunks.map Chunk.text = [] ∧ run ≠ []
    · obtain ⟨hnil, hne⟩ := hlast
      obtain rfl := List.map_eq_nil_iff.mp hnil
      obtain rfl := h.eq_nil
      have hpos := List.length_pos_of_ne_nil hne
      rw [List.map_singleton, joinChunks_last hlen hne]
      refine .inr ⟨rfl, fun hdvd => ?_⟩
      have hend : Lines.column '\n' col (run ++ []) = col + run.length := Lines.column_run hrun
      rw [List.append_nil] at hend
      rw [hend] at hdvd
      exact Nat.not_dvd_of_pos_of_lt hpos hlen ((Nat.dvd_add_right hcol).mp hdvd)
    · rw [List.map_cons, joinChunks_line hlen hlast]
      rcases ih (Nat.dvd_zero _) with hrest | ⟨hrest, hopen⟩
      · exact .inl (by rw [← hrest])
      · refine .inr ⟨?_, ?_⟩
        · rw [List.append_assoc, List.cons_append, ← hrest]
        · rwa [OpenEnded, Lines.column_sep]
  | full hrun hlen h ih =>
    rw [List.map_cons, joinChunks_full hlen]
    rcases ih (Nat.dvd_add hcol (Nat.dvd_refl _)) with hrest | ⟨hrest, hopen⟩
    · exact .inl (by rw [← hrest])
    · refine .inr ⟨?_, ?_⟩
      · rw [List.append_assoc, ← hrest]
      · rwa [OpenEnded, Lines.column_run hrun, hlen]

/-- A newline at an open end is not printed. -/
theorem append_newline (h : Splits pos message chunks) (hcol : maxContentWidth ∣ col)
    (hopen : OpenEnded col message) : Splits pos (message ++ ['\n']) chunks := by
  induction h generalizing col with
  | done => exact absurd hcol hopen
  | line hrun hlen _ ih =>
    rw [List.append_assoc, List.cons_append]
    refine .line hrun hlen (ih (Nat.dvd_zero _) ?_)
    rwa [OpenEnded, Lines.column_sep] at hopen
  | full hrun hlen _ ih =>
    rw [List.append_assoc]
    refine .full hrun hlen (ih (Nat.dvd_add hcol (Nat.dvd_refl _)) ?_)
    rwa [OpenEnded, Lines.column_run hrun, hlen] at hopen
  | last hrun hlen _ => exact .line hrun hlen .done

end Splits

/-! ### The lines -/

section

variable {env : LogEnv} {level : LogLevel} {chunkNo : ℕ} {chunk chunk' : Chunk}
  {chunks chunks' : List Chunk}

/-- The place of a chunk is not printed, its text is. -/
theorem chunkLine_inj :
    chunkLine env level chunkNo chunk = chunkLine env level chunkNo chunk' ↔
      chunk.text = chunk'.text := by
  unfold chunkLine
  constructor
  · intro h
    split at h
    · exact List.append_cancel_left (List.append_cancel_right h)
    · exact List.append_cancel_left (List.append_cancel_right h)
  · intro h
    rw [h]

theorem map_chunkLine_inj {o o' : Option Chunk} :
    o.map (chunkLine env level chunkNo) = o'.map (chunkLine env level chunkNo) ↔
      o.map Chunk.text = o'.map Chunk.text := by
  cases o <;> cases o' <;> simp [chunkLine_inj]

theorem mapIdx_chunkLine_inj :
    chunks.mapIdx (chunkLine env level) = chunks'.mapIdx (chunkLine env level) ↔
      chunks.map Chunk.text = chunks'.map Chunk.text := by
  simp only [List.ext_getElem?_iff, List.getElem?_mapIdx, List.getElem?_map, map_chunkLine_inj]

end

/-- What a call prints to the file. -/
def printed (env : LogEnv) (level : LogLevel) (buffer : List Char) : Option (List Char) :=
  (writeBuffer buffer.length env level buffer).map fun logged => logged.lines.flatten

theorem printed_eq {env : LogEnv} {level : LogLevel} {message : List Char} {chunks : List Chunk}
    (hfp : env.fpOpen = true) (h : Splits 0 (cString message) chunks) :
    printed env level message = some (chunks.mapIdx (chunkLine env level)).flatten := by
  rw [printed, writeBuffer_eq hfp h le_rfl]
  rfl

/-- CORRECT: the log determines the message. Two messages print the same to the file if and only if
    they are the same, or one of them is the other with a newline after a last line that does not
    end with a full chunk. -/
theorem log_determines_message (env : LogEnv) (level : LogLevel) (m m' : List Char)
    (hfp : env.fpOpen = true) (hhead : '\n' ∉ (linePrefix env level).1) :
    printed env level m = printed env level m' ↔
      cString m = cString m' ∨
      cString m' = cString m ++ ['\n'] ∧ OpenEnded 0 (cString m) ∨
      cString m = cString m' ++ ['\n'] ∧ OpenEnded 0 (cString m') := by
  obtain ⟨chunks, h⟩ := exists_splits 0 (cString m)
  obtain ⟨chunks', h'⟩ := exists_splits 0 (cString m')
  rw [printed_eq hfp h, printed_eq hfp h']
  have hlines {cs : List Chunk} {message : List Char} (hs : Splits 0 message cs) :
      ∀ line ∈ cs.mapIdx (chunkLine env level), ∃ body, line = body ++ ['\n'] ∧ '\n' ∉ body := by
    intro line hline
    obtain ⟨chunkNo, hno, rfl⟩ := List.mem_mapIdx.mp hline
    exact chunkLine_newline hhead (hs.bounds _ (List.getElem_mem hno)).1
  constructor
  · intro heq
    have hsame := mapIdx_chunkLine_inj.mp
      (Lines.flatten_inj (hlines h) (hlines h') (Option.some.inj heq))
    have hcol : maxContentWidth ∣ 0 := Nat.dvd_zero _
    rcases h.join hcol with hm | ⟨hm, hopen⟩ <;> rcases h'.join hcol with hm' | ⟨hm', hopen'⟩
    · exact .inl (hm.trans ((congrArg joinChunks hsame).trans hm'.symm))
    · refine .inr (.inl ⟨?_, ?_⟩)
      · rw [hm, hm', hsame]
      · rw [hm, hsame]
        exact hopen'
    · refine .inr (.inr ⟨?_, ?_⟩)
      · rw [hm, hm', hsame]
      · rw [hm', ← hsame]
        exact hopen
    · exact .inl (by rw [hm, hm', hsame])
  · rintro (heq | ⟨heq, hopen⟩ | ⟨heq, hopen⟩)
    · rw [heq] at h
      rw [h.unique h']
    · have hnew := h.append_newline (Nat.dvd_zero _) hopen
      rw [← heq] at hnew
      rw [hnew.unique h']
    · have hnew := h'.append_newline (Nat.dvd_zero _) hopen
      rw [← heq] at hnew
      rw [hnew.unique h]

/-- A message of one line, with and without its newline. -/
theorem log_determines_message_small :
    printed (logEnv true 0) .appinfo "done\n".toList = printed (logEnv true 0) .appinfo "done".toList :=
  (log_determines_message (logEnv true 0) .appinfo "done\n".toList "done".toList rfl
    (by decide)).mpr (.inr (.inr (by decide)))

end PostOffice
