import PostOffice.Commons

/-! The service queue of `commons.h` as it lies in memory: an array and three `int`s, with nothing to
    keep them in range, and every array access checked. Whatever the sequence of operations, no
    check fails, and what the callers see is a list of at most `MAX_COUNT_QUEUE` tickets.

        memory (QueueMemory) ──ofQueue── ServiceQueue ──toList──▶ list (QueueOp.onList) -/

namespace PostOffice

/-- `struct service_queue`, its indices plain `int`s. -/
structure QueueMemory where
  entries : Fin maxCountQueue → QueueTicket
  head : ℤ
  tail : ℤ
  length : ℤ

namespace QueueMemory

variable (q : QueueMemory)

/-- `entries[i]`, when in bounds. -/
def entry (i : ℤ) : Option QueueTicket :=
  if h : 0 ≤ i ∧ i < maxCountQueue then some (q.entries ⟨i.toNat, by omega⟩) else none

/-- `entries[i] = ticket`, when in bounds. -/
def setEntry (i : ℤ) (ticket : QueueTicket) : Option QueueMemory :=
  if h : 0 ≤ i ∧ i < maxCountQueue then
    some { q with entries := Function.update q.entries ⟨i.toNat, by omega⟩ ticket }
  else none

/-- `service_queue_reset`. -/
def reset : QueueMemory where
  entries _ := { userPid := 0, userIndex := 0, requestedAtNs := 0 }
  head := 0
  tail := 0
  length := 0

/-- `service_queue_is_full`. -/
def isFull : Bool := decide (q.length ≥ maxCountQueue)

/-- `service_queue_push`: the return value and the memory after it; `%` is C's. -/
def push (ticket : QueueTicket) : Option (ℤ × QueueMemory) :=
  if q.isFull then some (-1, q)
  else do
    let q ← q.setEntry q.tail ticket
    some (0, { q with tail := (q.tail + 1).tmod maxCountQueue, length := q.length + 1 })

/-- `service_queue_pop`. -/
def pop : Option (QueueTicket × QueueMemory) :=
  if q.length ≤ 0 then some (noTicket, q)
  else do
    let ticket ← q.entry q.head
    let q ← q.setEntry q.head noTicket
    some (ticket, { q with head := (q.head + 1).tmod maxCountQueue, length := q.length - 1 })

/-- The tickets from the head on, oldest first. -/
def live : List QueueTicket :=
  (List.range q.length.toNat).map fun i =>
    q.entries ⟨(q.head.toNat + i) % maxCountQueue, Nat.mod_lt _ (by decide)⟩

/-- The indices are in range and fit together. -/
structure WellFormed : Prop where
  length : 0 ≤ q.length ∧ q.length ≤ maxCountQueue
  head : 0 ≤ q.head ∧ q.head < maxCountQueue
  tail : 0 ≤ q.tail ∧ q.tail < maxCountQueue
  tail_eq : q.tail = (q.head + q.length) % maxCountQueue

end QueueMemory

/-! ### Sequences of operations -/

/-- An operation on a service queue. -/
inductive QueueOp where
  | push (ticket : QueueTicket)
  | pop
  | reset
  deriving DecidableEq

/-- What an operation returns to its caller. -/
inductive QueueResult where
  | pushed (code : ℤ)
  | popped (ticket : QueueTicket)
  | reset
  deriving DecidableEq

/-- The operation on the memory. -/
def QueueMemory.apply (q : QueueMemory) : QueueOp → Option (QueueResult × QueueMemory)
  | .push t => (q.push t).map fun x => (.pushed x.1, x.2)
  | .pop => q.pop.map fun x => (.popped x.1, x.2)
  | .reset => some (.reset, .reset)

/-- The operation on a list of at most `MAX_COUNT_QUEUE` tickets. -/
def QueueOp.onList : QueueOp → List QueueTicket → QueueResult × List QueueTicket
  | .push t, ts => if ts.length < maxCountQueue then (.pushed 0, ts ++ [t]) else (.pushed (-1), ts)
  | .pop, [] => (.popped noTicket, [])
  | .pop, t :: ts => (.popped t, ts)
  | .reset, _ => (.reset, [])

/-- The operations one after the other; `none` as soon as an access is out of bounds. -/
def QueueMemory.run : List QueueOp → QueueMemory → Option (List QueueResult × QueueMemory)
  | [], q => some ([], q)
  | op :: ops, q => do
    let (r, q) ← q.apply op
    let (rs, q) ← run ops q
    some (r :: rs, q)

/-- The same on the list. -/
def QueueOp.runOnList : List QueueOp → List QueueTicket → List QueueResult × List QueueTicket
  | [], ts => ([], ts)
  | op :: ops, ts => ((op.onList ts).1 :: (runOnList ops (op.onList ts).2).1,
      (runOnList ops (op.onList ts).2).2)

/-! ### The queue of the model in memory -/

namespace QueueMemory

/-- A well-formed queue as it lies in memory. -/
def ofQueue (q : ServiceQueue) : QueueMemory where
  entries := q.entries
  head := q.head
  tail := q.tail
  length := q.length

theorem reset_eq : reset = ofQueue serviceQueueReset := rfl

theorem live_ofQueue (q : ServiceQueue) : (ofQueue q).live = q.toList := rfl

theorem wellFormed_ofQueue (q : ServiceQueue) : (ofQueue q).WellFormed where
  length := ⟨Int.natCast_nonneg _, Int.ofNat_le.mpr q.length_le⟩
  head := ⟨Int.natCast_nonneg _, Int.ofNat_lt.mpr q.head_lt⟩
  tail := ⟨Int.natCast_nonneg _, Int.ofNat_lt.mpr q.tail_lt⟩
  tail_eq := congrArg Nat.cast q.tail_eq

theorem entry_of_lt (q : QueueMemory) {i : ℕ} (hi : i < maxCountQueue) :
    q.entry i = some (q.entries ⟨i, hi⟩) :=
  dif_pos ⟨Int.natCast_nonneg i, Int.ofNat_lt.mpr hi⟩

theorem setEntry_of_lt (q : QueueMemory) {i : ℕ} (hi : i < maxCountQueue) (t : QueueTicket) :
    q.setEntry i t = some { q with entries := Function.update q.entries ⟨i, hi⟩ t } :=
  dif_pos ⟨Int.natCast_nonneg i, Int.ofNat_lt.mpr hi⟩

/-- `service_queue_push` on the memory is `serviceQueuePush`. -/
theorem push_ofQueue (q : ServiceQueue) (t : QueueTicket) :
    (ofQueue q).push t = some (match serviceQueuePush q t with
      | some q' => (0, ofQueue q')
      | none => (-1, ofQueue q)) := by
  have hset : (ofQueue q).setEntry (ofQueue q).tail t = _ := setEntry_of_lt _ q.tail_lt t
  by_cases hfull : maxCountQueue ≤ q.length
  · have hfull' : (ofQueue q).isFull = true := by simpa [isFull, ofQueue] using hfull
    rw [push, if_pos hfull', serviceQueuePush, (RingBuffer.push_eq_none_iff q t).mpr hfull]
  · have hfull' : ¬ (ofQueue q).isFull = true := by simpa [isFull, ofQueue] using hfull
    rw [push, if_neg hfull', serviceQueuePush, RingBuffer.push, dif_neg hfull]
    rw [hset]
    rfl

/-- `service_queue_pop` on the memory is `serviceQueuePop`. -/
theorem pop_ofQueue (q : ServiceQueue) :
    (ofQueue q).pop = some ((serviceQueuePop q).1, ofQueue (serviceQueuePop q).2) := by
  have hentry : (ofQueue q).entry (ofQueue q).head = _ := entry_of_lt _ q.head_lt
  have hset : (ofQueue q).setEntry (ofQueue q).head noTicket = _ :=
    setEntry_of_lt _ q.head_lt noTicket
  by_cases hempty : q.length = 0
  · have hempty' : (ofQueue q).length ≤ 0 := by simpa [ofQueue] using hempty
    rw [pop, if_pos hempty', serviceQueuePop, RingBuffer.pop_of_empty hempty]
  · have hempty' : ¬ (ofQueue q).length ≤ 0 := by simpa [ofQueue] using hempty
    rw [pop, if_neg hempty', serviceQueuePop, RingBuffer.pop, dif_neg hempty]
    have hlen : (q.length : ℤ) - 1 = (q.length - 1 : ℕ) := by omega
    rw [hentry, hset]
    exact congrArg some (Prod.ext rfl (congrArg (QueueMemory.mk _ _ _) hlen))

/-- One operation on the memory of a well-formed queue is that operation on its list. -/
theorem apply_ofQueue (q : ServiceQueue) (op : QueueOp) : ∃ q' : ServiceQueue,
    (ofQueue q).apply op = some ((op.onList q.toList).1, ofQueue q') ∧
      (op.onList q.toList).2 = q'.toList := by
  cases op with
  | push t =>
    rw [apply, QueueOp.onList, push_ofQueue, q.length_toList]
    cases hpush : serviceQueuePush q t with
    | none =>
      have hfull := (RingBuffer.push_eq_none_iff q t).mp hpush
      exact ⟨q, by simp [Nat.not_lt.mpr hfull]⟩
    | some q' =>
      have hroom : q.length < maxCountQueue := by
        by_contra hfull
        rw [serviceQueuePush, (RingBuffer.push_eq_none_iff q t).mpr (Nat.not_lt.mp hfull)] at hpush
        cases hpush
      exact ⟨q', by simp [hroom], by simp [hroom, RingBuffer.toList_push hpush]⟩
  | pop =>
    rw [apply, pop_ofQueue]
    refine ⟨(serviceQueuePop q).2, ?_⟩
    by_cases hempty : q.length = 0
    · have hnil := (q.toList_eq_nil_iff).mpr hempty
      rw [hnil, serviceQueuePop, RingBuffer.pop_of_empty hempty]
      exact ⟨rfl, hnil.symm⟩
    · rw [RingBuffer.toList_pop noTicket hempty]
      exact ⟨rfl, rfl⟩
  | reset => exact ⟨serviceQueueReset, rfl, (RingBuffer.toList_reset _ _).symm⟩

/-- So is a sequence of operations. -/
theorem run_ofQueue (ops : List QueueOp) (q : ServiceQueue) : ∃ q' : ServiceQueue,
    run ops (ofQueue q) = some ((QueueOp.runOnList ops q.toList).1, ofQueue q') ∧
      (QueueOp.runOnList ops q.toList).2 = q'.toList := by
  induction ops generalizing q with
  | nil => exact ⟨q, rfl, rfl⟩
  | cons op ops ih =>
    obtain ⟨q₁, hop, hlist⟩ := apply_ofQueue q op
    obtain ⟨q₂, hrun, hlist₂⟩ := ih q₁
    refine ⟨q₂, ?_, ?_⟩
    · rw [run, hop]
      simp only [Option.bind_eq_bind, Option.bind_some, hrun, QueueOp.runOnList, hlist]
    · rw [QueueOp.runOnList, hlist]
      exact hlist₂

end QueueMemory

/-- The list never outgrows the bound and holds nothing but pushed tickets. -/
theorem QueueOp.mem_runOnList (ops : List QueueOp) (ts : List QueueTicket) {t : QueueTicket}
    (ht : t ∈ (runOnList ops ts).2) : t ∈ ts ∨ .push t ∈ ops := by
  induction ops generalizing ts with
  | nil => exact .inl ht
  | cons op ops ih =>
    rcases ih _ ht with hold | hnew
    · cases op with
      | push t' =>
        rw [onList] at hold
        split at hold
        · rcases List.mem_append.mp hold with hold | hold
          · exact .inl hold
          · exact .inr (by simp [List.mem_singleton.mp hold])
        · exact .inl hold
      | pop =>
        cases ts with
        | nil => exact .inl hold
        | cons t' ts => exact .inl (List.mem_cons_of_mem _ hold)
      | reset => cases hold
    · exact .inr (List.mem_cons_of_mem _ hnew)

/-- CORRECT: the service queue is a bounded FIFO. From a reset queue any sequence of operations stays
    in bounds, keeps the indices well-formed, and returns what the list of at most
    `MAX_COUNT_QUEUE` tickets returns; a push onto the full queue and a pop from the empty one
    change nothing; and where only tickets with a positive pid were pushed, a pop returns a positive
    pid exactly when the queue was not empty. -/
theorem service_queue_bounded_fifo (ops : List QueueOp) : ∃ rs q,
    QueueMemory.run ops .reset = some (rs, q) ∧ q.WellFormed ∧
    QueueOp.runOnList ops [] = (rs, q.live) ∧
    (¬ q.live.length < maxCountQueue → ∀ t, q.push t = some (-1, q)) ∧
    (q.live = [] → q.pop = some (noTicket, q)) ∧
    ((∀ t, .push t ∈ ops → 0 < t.userPid) →
      ∃ t q', q.pop = some (t, q') ∧ (0 < t.userPid ↔ q.live ≠ [])) := by
  obtain ⟨q, hrun, hlist⟩ := QueueMemory.run_ofQueue ops serviceQueueReset
  rw [← QueueMemory.reset_eq, serviceQueueReset, RingBuffer.toList_reset] at hrun
  rw [serviceQueueReset, RingBuffer.toList_reset] at hlist
  refine ⟨_, .ofQueue q, hrun, QueueMemory.wellFormed_ofQueue q, ?_, fun hfull t => ?_,
    fun hempty => ?_, fun hpos => ⟨_, _, QueueMemory.pop_ofQueue q, ?_⟩⟩
  · exact Prod.ext rfl hlist
  · rw [QueueMemory.live_ofQueue, q.length_toList, Nat.not_lt] at hfull
    rw [QueueMemory.push_ofQueue, serviceQueuePush, (RingBuffer.push_eq_none_iff q t).mpr hfull]
  · rw [QueueMemory.live_ofQueue, q.toList_eq_nil_iff] at hempty
    rw [QueueMemory.pop_ofQueue, serviceQueuePop, RingBuffer.pop_of_empty hempty]
  · rw [QueueMemory.live_ofQueue, ne_eq, q.toList_eq_nil_iff]
    by_cases hempty : q.length = 0
    · rw [serviceQueuePop, RingBuffer.pop_of_empty hempty]
      simp [noTicket, hempty]
    · have hmem : (serviceQueuePop q).1 ∈ (QueueOp.runOnList ops []).2 := by
        rw [hlist, RingBuffer.toList_pop noTicket hempty]
        exact List.mem_cons_self
      have hpushed := (QueueOp.mem_runOnList ops [] hmem).resolve_left List.not_mem_nil
      simp [hempty, hpos _ hpushed]

/-- A ticket comes out once; the next pop finds the queue empty. -/
theorem service_queue_bounded_fifo_small : ∃ q,
    QueueMemory.run [.push ⟨7, 0, 0⟩, .pop, .pop] .reset =
      some ([.pushed 0, .popped ⟨7, 0, 0⟩, .popped noTicket], q) ∧
    ∃ t q', q.pop = some (t, q') ∧ (0 < t.userPid ↔ q.live ≠ []) := by
  obtain ⟨rs, q, hrun, -, hlist, -, -, hpop⟩ :=
    service_queue_bounded_fifo [.push ⟨7, 0, 0⟩, .pop, .pop]
  have hrs : QueueOp.runOnList [.push ⟨7, 0, 0⟩, .pop, .pop] [] =
      ([.pushed 0, .popped ⟨7, 0, 0⟩, .popped noTicket], []) := by decide
  obtain ⟨rfl, -⟩ := Prod.ext_iff.mp (hrs.symm.trans hlist)
  refine ⟨q, hrun, hpop ?_⟩
  intro t ht
  simp only [List.mem_cons, QueueOp.push.injEq, reduceCtorEq, List.not_mem_nil, or_false] at ht
  rw [ht]
  decide

end PostOffice
