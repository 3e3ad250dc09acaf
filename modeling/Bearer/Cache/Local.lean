/-
  The cache inside one process.

  A timed map: every entry has a deadline on the monotonic clock and is seen
  strictly before it.  Entries past their deadline stay until something removes
  them: a look-up of their key, a sweep, or closing.  None of that shows in what
  look-ups find; only the size counts them.

  Main statements: `lookup_set`, `lookup_delete`, `lookup_evict` and
  `lookup_purge` say what each operation does to what is seen.
-/
import Bearer.Cache.Key
import Bearer.Table

namespace Bearer

/-- A cached text and its deadline. -/
structure LocalEntry where
  value : String
  deadline : Moment
  deriving DecidableEq, Repr

/-- A cache inside one process. -/
structure LocalCache where
  entries : Table String LocalEntry
  closed : Bool
  deriving Inhabited

namespace LocalCache

/-- The open cache without entries. -/
def empty : LocalCache := ⟨Table.empty, false⟩

/-- Whether an entry is seen at `now`. -/
def live (now : Moment) (e : LocalEntry) : Bool := now < e.deadline

/-- What is seen under a key at `now`. -/
def lookup (c : LocalCache) (now : Moment) (key : String) : Option String :=
  ((c.entries.get? key).filter (live now)).map LocalEntry.value

/-- Drops the entry of a key if it is past its deadline. -/
def evict (c : LocalCache) (now : Moment) (key : String) : LocalCache :=
  match c.entries.get? key with
  | some e => if live now e then c else { c with entries := c.entries.erase key }
  | none => c

/-- What is seen under a key; an entry past its deadline is dropped. -/
def get (c : LocalCache) (now : Moment) (key : String) : Option String × LocalCache :=
  (c.lookup now key, c.evict now key)

/-- Caches a text for `ttl`; for no time at all means not to cache it. -/
def set (c : LocalCache) (now : Moment) (key value : String) (ttl : Duration) : LocalCache :=
  { c with
    entries :=
      if ttl.isZero then c.entries.erase key
      else c.entries.insert key ⟨value, now.expiry ttl⟩ }

/-- Removes the entry of a key. -/
def delete (c : LocalCache) (key : String) : LocalCache :=
  { c with entries := c.entries.erase key }

/-- Whether there is an entry under a key, past its deadline or not. -/
def holds (c : LocalCache) (key : String) : Bool := c.entries.contains key

/-- Removes all entries. -/
def clear (c : LocalCache) : LocalCache := { c with entries := Table.empty }

/-- The number of entries, counting those past their deadline. -/
def size (c : LocalCache) : Nat := c.entries.size

/-- Removes the entries past their deadline. -/
def purge (c : LocalCache) (now : Moment) : LocalCache :=
  { c with entries := c.entries.filter fun _ e => live now e }

/-- Removes the entries past their deadline and answers how many there were. -/
def purgeExpired (c : LocalCache) (now : Moment) : Nat × LocalCache :=
  (c.size - (c.purge now).size, c.purge now)

/-- Closes the cache.  The first time, that removes all entries. -/
def close (c : LocalCache) : LocalCache := if c.closed then c else { c.clear with closed := true }

/-! ## What each operation leaves -/

theorem closed_evict (c : LocalCache) (now : Moment) (key : String) :
    (c.evict now key).closed = c.closed := by
  unfold evict
  split
  · split <;> rfl
  · rfl

theorem closed_close (c : LocalCache) : c.close.closed = true := by
  unfold close
  split
  · assumption
  · rfl

/-- A purge answers how many entries are at or past their deadline. -/
theorem purgeExpired_fst (c : LocalCache) (now : Moment) :
    (c.purgeExpired now).1 = c.entries.count fun _ e => e.deadline ≤ now := by
  have hdead : (fun (_ : String) (e : LocalEntry) => !live now e) =
      fun _ e => decide (e.deadline ≤ now) := by
    funext _ e
    simp only [live, ← decide_not, Moment.lt_def, Moment.le_def, Nat.not_lt]
  rw [← hdead]
  exact c.entries.size_sub_filter _

/-- A purge leaves the entries before their deadline as they are, and no others. -/
theorem get?_purgeExpired (c : LocalCache) (now : Moment) (key : String) :
    (c.purgeExpired now).2.entries.get? key =
      (c.entries.get? key).filter fun e => now < e.deadline :=
  c.entries.get?_filter _ key

/-! ## What is seen after each operation -/

@[simp] theorem lookup_empty (now : Moment) (key : String) : empty.lookup now key = none := rfl

theorem lookup_set (c : LocalCache) (now later : Moment) (key other value : String)
    (ttl : Duration) :
    (c.set now key value ttl).lookup later other =
      if other = key then
        if ttl.isZero = false ∧ later < now.expiry ttl then some value else none
      else c.lookup later other := by
  by_cases hz : ttl.isZero
  · by_cases h : other = key <;> simp [lookup, set, hz, Table.get?_erase, h]
  · by_cases h : other = key
    · by_cases hl : later < now.expiry ttl <;>
        simp [lookup, set, hz, h, live, Option.filter, hl]
    · simp [lookup, set, hz, Table.get?_insert, h]

theorem lookup_delete (c : LocalCache) (now : Moment) (key other : String) :
    (c.delete key).lookup now other = if other = key then none else c.lookup now other := by
  by_cases h : other = key <;> simp [lookup, delete, Table.get?_erase, h]

@[simp] theorem lookup_clear (c : LocalCache) (now : Moment) (key : String) :
    c.clear.lookup now key = none := rfl

theorem live_of_le {now later : Moment} (h : now ≤ later) (e : LocalEntry)
    (hl : live later e = true) : live now e = true := by
  simp only [live, decide_eq_true_eq, Moment.lt_def, Moment.le_def] at *
  omega

/-- Dropping an entry past its deadline changes nothing that is seen from then on. -/
theorem lookup_evict (c : LocalCache) {now later : Moment} (h : now ≤ later) (key other : String) :
    (c.evict now key).lookup later other = c.lookup later other := by
  unfold evict
  cases hk : c.entries.get? key with
  | none => rfl
  | some e =>
    dsimp only
    split
    · rfl
    · next hl =>
      by_cases ho : other = key
      · subst ho
        have : live later e = false := by
          cases hlate : live later e with
          | false => rfl
          | true => exact absurd (live_of_le h e hlate) hl
        simp [lookup, hk, Option.filter, this]
      · simp [lookup, Table.get?_erase, ho]

/-- A sweep changes nothing that is seen from then on. -/
theorem lookup_purge (c : LocalCache) {now later : Moment} (h : now ≤ later) (key : String) :
    (c.purge now).lookup later key = c.lookup later key := by
  simp only [lookup, purge, Table.get?_filter]
  cases c.entries.get? key with
  | none => rfl
  | some e =>
    cases hlate : live later e with
    | false => by_cases hn : live now e = true <;> simp [Option.filter, hn, hlate]
    | true => simp [Option.filter, live_of_le h e hlate, hlate]

end LocalCache

end Bearer
