/-
  Finite maps with at most one entry per key.

  The rows of every store and both cache tiers are tables.  A table is a list
  of entries whose keys differ; that they differ is part of the type, so a
  look-up has one answer and the size counts keys.

  Main statements: `get?_insert`, `get?_erase` and `get?_filter` say what each
  operation does to look-ups; nothing else needs to open the list.
-/

namespace Bearer

/-- A finite map from `κ` to `α`. -/
structure Table (κ α : Type) where
  /-- The entries, the latest insertion first. -/
  entries : List (κ × α)
  /-- No key occurs twice. -/
  distinct : (entries.map Prod.fst).Nodup

namespace Table

variable {κ α : Type}

/-- The table without entries. -/
def empty : Table κ α := ⟨[], by simp⟩

instance : Inhabited (Table κ α) := ⟨empty⟩

/-- The number of entries. -/
def size (t : Table κ α) : Nat := t.entries.length

/-- Whether there is no entry. -/
def isEmpty (t : Table κ α) : Bool := t.entries.isEmpty

/-- The keys, the latest insertion first. -/
def keys (t : Table κ α) : List κ := t.entries.map Prod.fst

/-- Keeps the entries that satisfy `p`. -/
def filter (p : κ → α → Bool) (t : Table κ α) : Table κ α where
  entries := t.entries.filter fun e => p e.1 e.2
  distinct := t.distinct.sublist (List.filter_sublist.map _)

/-- Some entry that satisfies `p`. -/
def find? (p : κ → α → Bool) (t : Table κ α) : Option (κ × α) :=
  t.entries.find? fun e => p e.1 e.2

/-- Whether some entry satisfies `p`. -/
def any (p : κ → α → Bool) (t : Table κ α) : Bool :=
  t.entries.any fun e => p e.1 e.2

/-- The number of entries that satisfy `p`. -/
def count (p : κ → α → Bool) (t : Table κ α) : Nat := t.entries.countP fun e => p e.1 e.2

/-- A filter removes what does not satisfy it. -/
theorem size_sub_filter (t : Table κ α) (p : κ → α → Bool) :
    t.size - (t.filter p).size = t.count fun key value => !p key value := by
  have htotal := List.length_eq_countP_add_countP (fun e : κ × α => p e.1 e.2) (l := t.entries)
  have hkept : (t.filter p).size = t.entries.countP fun e => p e.1 e.2 :=
    List.countP_eq_length_filter.symm
  simp only [Bool.not_eq_true, Bool.decide_eq_false] at htotal
  rw [size, htotal, hkept, Nat.add_sub_cancel_left, count]

theorem count_filter_not (t : Table κ α) (p : κ → α → Bool) :
    (t.filter p).count (fun key value => !p key value) = 0 := by
  rw [count, List.countP_eq_zero]
  intro e he
  simpa using (List.mem_filter.1 he).2

variable [DecidableEq κ]

/-- The value stored under `key`. -/
def get? (t : Table κ α) (key : κ) : Option α :=
  (t.entries.find? fun e => e.1 = key).map Prod.snd

/-- Whether there is an entry under `key`. -/
def contains (t : Table κ α) (key : κ) : Bool := t.entries.any fun e => e.1 = key

/-- Removes the entry under `key`. -/
def erase (t : Table κ α) (key : κ) : Table κ α :=
  if t.contains key then t.filter fun k _ => k ≠ key else t

theorem not_mem_keys_erase (t : Table κ α) (key : κ) : key ∉ (t.erase key).keys := by
  unfold erase
  split
  · simp [keys, filter]
  · next h => simpa [keys, contains] using h

/-- Stores `value` under `key`, in place of any older value. -/
def insert (t : Table κ α) (key : κ) (value : α) : Table κ α where
  entries := (key, value) :: (t.erase key).entries
  distinct := by
    have h := t.not_mem_keys_erase key
    simp only [List.map_cons, List.nodup_cons]
    exact ⟨h, (t.erase key).distinct⟩

/-! ## Look-ups after each operation -/

@[simp] theorem get?_empty (key : κ) : (empty : Table κ α).get? key = none := rfl

/-- A pair is an entry exactly if the look-up of its key gives its value. -/
theorem mem_entries_iff (t : Table κ α) (key : κ) (value : α) :
    (key, value) ∈ t.entries ↔ t.get? key = some value := by
  obtain ⟨entries, distinct⟩ := t
  simp only [get?]
  induction entries with
  | nil => simp
  | cons e rest ih =>
    obtain ⟨k, v⟩ := e
    simp only [List.map_cons, List.nodup_cons] at distinct
    by_cases h : k = key
    · subst h
      have : (k, value) ∉ rest := fun m => distinct.1 (List.mem_map.2 ⟨_, m, rfl⟩)
      simp only [List.mem_cons, Prod.mk.injEq, true_and, this, or_false, List.find?_cons,
        decide_true, Option.map_some, Option.some.injEq]
      exact eq_comm
    · have hne : ¬ key = k := fun e => h e.symm
      simp [hne, h, ih distinct.2]

theorem get?_eq_none_iff (t : Table κ α) (key : κ) : t.get? key = none ↔ key ∉ t.keys := by
  simp only [get?, keys, Option.map_eq_none_iff, List.find?_eq_none, decide_eq_true_eq,
    List.mem_map, not_exists, not_and]

theorem mem_keys_iff (t : Table κ α) (key : κ) : key ∈ t.keys ↔ (t.get? key).isSome = true := by
  have hnone := t.get?_eq_none_iff key
  cases hget : t.get? key with
  | none => simpa using hnone.1 hget
  | some value =>
    have hmem : key ∈ t.keys := List.mem_map.2 ⟨_, (t.mem_entries_iff key value).2 hget, rfl⟩
    simpa using hmem

theorem contains_eq_isSome (t : Table κ α) (key : κ) :
    t.contains key = (t.get? key).isSome := by
  obtain ⟨entries, distinct⟩ := t
  simp only [contains, get?]
  clear distinct
  induction entries with
  | nil => rfl
  | cons e rest ih => by_cases h : e.1 = key <;> simp [h, ih]

theorem get?_filter (p : κ → α → Bool) (t : Table κ α) (key : κ) :
    (t.filter p).get? key = (t.get? key).filter (p key) := by
  apply Option.ext
  intro value
  rw [Option.filter_eq_some_iff, ← mem_entries_iff, ← mem_entries_iff]
  simp [filter]

@[simp] theorem get?_erase_self (t : Table κ α) (key : κ) : (t.erase key).get? key = none :=
  (get?_eq_none_iff _ _).2 (t.not_mem_keys_erase key)

theorem get?_erase (t : Table κ α) (key other : κ) :
    (t.erase key).get? other = if other = key then none else t.get? other := by
  by_cases h : other = key
  · simp [h]
  · unfold erase
    split
    · rw [get?_filter]
      cases t.get? other <;> simp [h]
    · rfl

theorem get?_insert (t : Table κ α) (key other : κ) (value : α) :
    (t.insert key value).get? other = if other = key then some value else t.get? other := by
  by_cases h : other = key
  · subst h
    simp [get?, insert]
  · have hne : ¬ key = other := fun e => h e.symm
    have := t.get?_erase key other
    rw [if_neg h] at this
    simpa [get?, insert, h, hne] using this

@[simp] theorem get?_insert_self (t : Table κ α) (key : κ) (value : α) :
    (t.insert key value).get? key = some value := by simp [get?_insert]

end Table

end Bearer
