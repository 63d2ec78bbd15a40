import Mathlib.Data.List.Nodup

/-! Objects that a kernel keeps under keys, as System V does with segments, semaphore sets and message
    queues. A program finds an object by its key, and uses it by its id from then on:

                     no object ──create──▶ a new object, a new id
        key ──find──▶
                     an object ──permission, size──▶ its id

    A table holds at most one object under a key and at most one with an id, and never gives an id
    twice. -/

namespace KeyTable

variable {κ α : Type*}

/-- An object, and what the calling user may do with it. -/
structure Obj (κ α : Type*) where
  key : κ
  id : ℕ
  size : ℕ
  /-- The permissions let the user open it. -/
  shared : Bool
  /-- The user may remove it. -/
  owned : Bool
  contents : α
  deriving DecidableEq

/-- The objects, and the next id. -/
structure Table (κ α : Type*) where
  objs : List (Obj κ α)
  next : ℕ
  keys_nodup : (objs.map Obj.key).Nodup
  ids_nodup : (objs.map Obj.id).Nodup
  ids_lt : ∀ o ∈ objs, o.id < next

namespace Table

/-- Drop the objects that do not pass a test. -/
def filter (t : Table κ α) (p : Obj κ α → Bool) : Table κ α where
  objs := t.objs.filter p
  next := t.next
  keys_nodup := t.keys_nodup.sublist (List.filter_sublist.map _)
  ids_nodup := t.ids_nodup.sublist (List.filter_sublist.map _)
  ids_lt o ho := t.ids_lt o (List.mem_of_mem_filter ho)

/-- Give every object other contents. -/
def rewrite (t : Table κ α) (f : Obj κ α → α) : Table κ α where
  objs := t.objs.map fun o => { o with contents := f o }
  next := t.next
  keys_nodup := by simpa [List.map_map, Function.comp_def] using t.keys_nodup
  ids_nodup := by simpa [List.map_map, Function.comp_def] using t.ids_nodup
  ids_lt := by
    intro o ho
    obtain ⟨x, hx, rfl⟩ := List.mem_map.mp ho
    exact t.ids_lt x hx

/-- The objects under our keys. -/
def own (t : Table κ α) (ours : κ → Bool) : List (Obj κ α) := t.objs.filter fun o => ours o.key

/-- The objects under other keys. -/
def others (t : Table κ α) (ours : κ → Bool) : List (Obj κ α) := t.objs.filter fun o => !ours o.key

theorem others_rewrite {t : Table κ α} {ours : κ → Bool} {f : Obj κ α → α}
    (hf : ∀ o, ours o.key = false → f o = o.contents) :
    (t.rewrite f).others ours = t.others ours := by
  unfold others rewrite
  rw [List.filter_map]
  refine (List.map_congr_left fun o ho => ?_).trans (List.map_id _)
  have hkey : ours o.key = false := by simpa using (List.mem_filter.mp ho).2
  rw [hf o hkey]
  rfl

variable [DecidableEq κ]

/-- The object under a key. -/
def find (t : Table κ α) (k : κ) : Option (Obj κ α) := t.objs.find? fun o => o.key = k

/-- Find without creating: it fails when there is no object, when the user may not open it and when
    it is smaller than asked for. -/
def get (t : Table κ α) (k : κ) (size : ℕ) : Option ℕ :=
  (t.find k).bind fun o => if o.shared = true ∧ size ≤ o.size then some o.id else none

/-- A new object of the user. -/
def insert (t : Table κ α) (k : κ) (size : ℕ) (a : α) (h : t.find k = none) : Table κ α where
  objs := { key := k, id := t.next, size := size, shared := true, owned := true, contents := a } ::
    t.objs
  next := t.next + 1
  keys_nodup := by
    refine List.nodup_cons.mpr ⟨fun hmem => ?_, t.keys_nodup⟩
    obtain ⟨o, ho, hk⟩ := List.mem_map.mp hmem
    exact absurd hk (by simpa using List.find?_eq_none.mp h o ho)
  ids_nodup := by
    refine List.nodup_cons.mpr ⟨fun hmem => ?_, t.ids_nodup⟩
    obtain ⟨o, ho, hid⟩ := List.mem_map.mp hmem
    exact absurd hid (Nat.ne_of_lt (t.ids_lt o ho))
  ids_lt := List.forall_mem_cons.mpr
    ⟨Nat.lt_succ_self _, fun o ho => Nat.lt_succ_of_lt (t.ids_lt o ho)⟩

/-- Find or create: a new object has a size, and the limits of the system have to admit it. -/
def create (t : Table κ α) (admitted : Bool) (k : κ) (size : ℕ) (a : α) : Option ℕ × Table κ α :=
  match h : t.find k with
  | some _ => (t.get k size, t)
  | none =>
      if admitted = true ∧ 0 < size then (some t.next, t.insert k size a h) else (none, t)

/-- Remove an object by its id; nothing happens when there is none or the user does not own it. -/
def remove (t : Table κ α) (id : ℕ) : Table κ α := t.filter fun o => !(o.id = id && o.owned)

variable {t : Table κ α} {k k' : κ} {o : Obj κ α} {id size : ℕ}

theorem find_eq_some_iff : t.find k = some o ↔ o ∈ t.objs ∧ o.key = k := by
  refine ⟨fun h => ⟨List.mem_of_find?_eq_some h, by simpa using List.find?_some h⟩, ?_⟩
  rintro ⟨ho, rfl⟩
  cases hx : t.objs.find? fun x => x.key = o.key with
  | none => exact absurd (List.find?_eq_none.mp hx o ho) (by simp)
  | some x =>
    have hkey : x.key = o.key := by simpa using List.find?_some hx
    have heq := List.inj_on_of_nodup_map t.keys_nodup (List.mem_of_find?_eq_some hx) ho hkey
    exact hx.trans (congrArg some heq)

theorem find_eq_none_iff : t.find k = none ↔ ∀ o ∈ t.objs, o.key ≠ k := by
  simp [find, List.find?_eq_none]

/-- Objects under different keys have different ids. -/
theorem id_ne_of_find {o' : Obj κ α} (h : t.find k = some o) (h' : t.find k' = some o')
    (hne : k ≠ k') : o.id ≠ o'.id := by
  obtain ⟨ho, rfl⟩ := find_eq_some_iff.mp h
  obtain ⟨ho', rfl⟩ := find_eq_some_iff.mp h'
  exact fun hid => hne (congrArg Obj.key (List.inj_on_of_nodup_map t.ids_nodup ho ho' hid))

theorem find_insert_self {a : α} (h : t.find k = none) : (t.insert k size a h).find k =
    some { key := k, id := t.next, size := size, shared := true, owned := true, contents := a } :=
  List.find?_cons_of_pos (by simp)

theorem find_insert_of_ne {a : α} (h : t.find k = none) (hne : k' ≠ k) :
    (t.insert k size a h).find k' = t.find k' :=
  List.find?_cons_of_neg (by simpa using hne.symm)

/-- What is found in a part of the table. -/
theorem find_filter {p : Obj κ α → Bool} : (t.filter p).find k = (t.find k).filter p := by
  cases hf : t.find k with
  | none =>
    rw [find_eq_none_iff] at hf
    exact find_eq_none_iff.mpr fun o ho => hf o (List.mem_of_mem_filter ho)
  | some o =>
    obtain ⟨ho, rfl⟩ := find_eq_some_iff.mp hf
    by_cases hp : p o = true
    · rw [Option.filter_some_pos hp]
      exact find_eq_some_iff.mpr ⟨List.mem_filter.mpr ⟨ho, hp⟩, rfl⟩
    · rw [Option.filter_some_neg (by simpa using hp)]
      refine find_eq_none_iff.mpr fun x hx hkey => hp ?_
      obtain ⟨hx, hpx⟩ := List.mem_filter.mp hx
      exact List.inj_on_of_nodup_map t.keys_nodup hx ho hkey ▸ hpx

theorem find_rewrite {f : Obj κ α → α} :
    (t.rewrite f).find k = (t.find k).map fun o => { o with contents := f o } := by
  unfold find rewrite
  rw [List.find?_map]
  rfl

theorem find_remove_self (h : t.find k = some o) (ho : o.owned = true) :
    (t.remove o.id).find k = none := by
  rw [remove, find_filter, h, Option.filter_some_neg (by simpa using ho)]

/-- Only the object with the id goes. -/
theorem find_remove_of_ne (h : t.find k = some o) (hne : k' ≠ k) :
    (t.remove o.id).find k' = t.find k' := by
  rw [remove, find_filter]
  cases h' : t.find k' with
  | none => rfl
  | some o' => rw [Option.filter_some_pos (by simp [id_ne_of_find h' h hne])]

theorem create_of_none {b : Bool} {a : α} (h : t.find k = none) : t.create b k size a =
    if b = true ∧ 0 < size then (some t.next, t.insert k size a h) else (none, t) := by
  unfold create
  split
  · rename_i h'
    exact absurd (h'.symm.trans h) (Option.some_ne_none _)
  · rfl

/-- An object large enough that the user may open. -/
theorem get_eq_some (h : t.find k = some o) (hs : o.shared = true) (hsize : size ≤ o.size) :
    t.get k size = some o.id := by
  rw [get, h, Option.bind_some, if_pos ⟨hs, hsize⟩]

/-! ### The objects of one user -/

/-- What is under the key belongs to the user. -/
def Mine (t : Table κ α) (k : κ) : Prop :=
  ∀ o ∈ t.find k, o.shared = true ∧ o.owned = true ∧ 0 < o.size

instance : Decidable (t.Mine k) := inferInstanceAs (Decidable (∀ o ∈ t.find k, _))

theorem Mine.remove (h : t.Mine k) : (t.remove id).Mine k := fun o ho => by
  rw [Table.remove, find_filter] at ho
  exact h o (Option.filter_eq_some_iff.mp ho).1

theorem Mine.rewrite {f : Obj κ α → α} (h : t.Mine k) : (t.rewrite f).Mine k := fun o ho => by
  rw [find_rewrite] at ho
  obtain ⟨x, hx, rfl⟩ := Option.map_eq_some_iff.mp ho
  exact h x hx

theorem Mine.insert {a : α} (h : t.Mine k) (hf : t.find k' = none) (hsize : 0 < size) :
    (t.insert k' size a hf).Mine k := fun o ho => by
  by_cases hk : k = k'
  · subst hk
    obtain rfl := Option.some.inj (ho.symm.trans (find_insert_self hf))
    exact ⟨rfl, rfl, hsize⟩
  · exact h o ((find_insert_of_ne hf hk).symm.trans ho)

theorem Mine.get_one (h : t.Mine k) : t.get k 1 = (t.find k).map Obj.id := by
  cases hf : t.find k with
  | none => simp [get, hf]
  | some o =>
    obtain ⟨hs, -, hsize⟩ := h o hf
    exact get_eq_some hf hs hsize

variable {ours : κ → Bool}

theorem others_remove (h : t.find k = some o) (hk : ours k = true) :
    (t.remove o.id).others ours = t.others ours := by
  obtain ⟨ho, rfl⟩ := find_eq_some_iff.mp h
  unfold others remove filter
  rw [List.filter_filter]
  refine List.filter_congr fun x hx => ?_
  by_cases hid : x.id = o.id
  · obtain rfl := List.inj_on_of_nodup_map t.ids_nodup hx ho hid
    simp [hk]
  · simp [hid]

theorem others_insert {a : α} (h : t.find k = none) (hk : ours k = true) :
    (t.insert k size a h).others ours = t.others ours :=
  List.filter_cons_of_neg (by simp [hk])

/-- Tables with the same objects of ours find the same under our keys. -/
theorem find_eq_of_own {t' : Table κ α} (h : t.own ours = t'.own ours) (hk : ours k = true) :
    t.find k = t'.find k := by
  have hfind (x : Table κ α) : (x.own ours).find? (fun o => o.key = k) = x.find k := by
    unfold own find
    rw [List.find?_filter]
    congr 1
    funext o
    by_cases ho : o.key = k <;> simp [ho, hk]
  rw [← hfind t, h, hfind t']

end Table

end KeyTable
