/-
  A shared cache that drops its entries late.

  An entry of the cache in memory outlives its deadline until something comes
  across it, and each call deals with such an entry in its own way.  None of it
  shows: every call answers as a store does that drops each entry at the instant
  of its deadline, so that no call to it asks whether an entry is still alive.
  What carries this is that the live entries of the cache are the entries of the
  store.

  The calls that change a counter, a hash or a set are one: they look at what the
  key holds and answer, with a new value or with an error, and the entry keeps
  its deadline.

  Main statements: `StandsFor.perform` for one call, and `answers_as_prompt`.
-/
import Bearer.Proofs.Cache.Tiers
import Mathlib.Data.Multiset.Basic

namespace Bearer

/-! ## Changes -/

namespace SharedCall

/-- What a call makes of what its key holds: an answer, and a new value if there is one. -/
abbrev Change (α : Type) : Type := Option SharedValue → Except CacheFault (α × Option SharedValue)

/-- The text that a key holds, unless it holds something else. -/
def heldText (key : String) : Option SharedValue → Except CacheFault (Option String)
  | some (.text s) => .ok (some s)
  | some _ => .error (.wrongType key)
  | none => .ok none

/-- The hash that a key holds, unless it holds something else. -/
def heldHash (key : String) : Option SharedValue → Except CacheFault (Option (Table String String))
  | some (.hash fields) => .ok (some fields)
  | some _ => .error (.wrongType key)
  | none => .ok none

/-- The set that a key holds, unless it holds something else. -/
def heldSet (key : String) : Option SharedValue → Except CacheFault (Option (Table String Unit))
  | some (.set members) => .ok (some members)
  | some _ => .error (.wrongType key)
  | none => .ok none

/-- Adds to a counter, which starts from zero. -/
def add (key : String) (delta : Int) : Change Int := fun held =>
  (heldText key held).bind fun
    | none => .ok (delta, some (.text (Text.Decimal.intText delta)))
    | some s =>
      match Text.Decimal.readInt64? s with
      | some n => .ok (n + delta, some (.text (Text.Decimal.intText (n + delta))))
      | none => .error .notAnInteger

/-- Sets a field of a hash, which starts without any. -/
def setField (key field value : String) : Change Unit := fun held =>
  (heldHash key held).map fun fields =>
    ((), some (.hash ((fields.getD Table.empty).insert field value)))

/-- Removes a field of a hash, if there is one. -/
def removeField (key field : String) : Change Bool := fun held =>
  (heldHash key held).map fun fields =>
    (fields.any (·.contains field), fields.map fun fields => .hash (fields.erase field))

/-- Adds a member to a set, which starts without any. -/
def addMember (key member : String) : Change Bool := fun held =>
  (heldSet key held).map fun members =>
    (!members.any (·.contains member), some (.set ((members.getD Table.empty).insert member ())))

/-- Removes a member of a set, if there is one. -/
def removeMember (key member : String) : Change Bool := fun held =>
  (heldSet key held).map fun members =>
    (members.any (·.contains member), members.map fun members => .set (members.erase member))

/-- The key and the change of a call that updates a counter, a hash or a set. -/
def change? : (c : SharedCall) → Option (String × Change c.Answer)
  | increment key delta => some (key, add key delta)
  | decrement key delta => some (key, add key (-delta))
  | hashSet key field value => some (key, setField key field value)
  | hashDelete key field => some (key, removeField key field)
  | setAdd key member => some (key, addMember key member)
  | setRemove key member => some (key, removeMember key member)
  | _ => none

/-- The key under which a call updates a counter, a hash or a set. -/
def updates (c : SharedCall) : Option String := c.change?.map Prod.fst

/-- Whether two results of a call are the same, those of a scan in any order of the keys. -/
def Agrees {ε : Type} : (c : SharedCall) → Except ε c.Answer → Except ε c.Answer → Prop
  | scan _ => fun result other => result.map Multiset.ofList = other.map Multiset.ofList
  | _ => fun result other => result = other

theorem Agrees.of_eq {ε : Type} {c : SharedCall} {result other : Except ε c.Answer}
    (h : result = other) : c.Agrees result other := by
  subst h
  cases c <;> rfl

theorem Agrees.mapError {ε δ : Type} {c : SharedCall} {result other : Except ε c.Answer}
    (h : c.Agrees result other) (f : ε → δ) :
    c.Agrees (result.mapError f) (other.mapError f) := by
  cases c with
  | scan pattern =>
    cases result <;> cases other <;> simp_all [Agrees, Except.map, Except.mapError]
  | _ => exact congrArg (Except.mapError f) h

end SharedCall

/-! ## The store -/

/-- A store that holds an entry until the instant of its deadline and no longer. -/
structure PromptStore where
  now : Moment
  entries : Table String SharedEntry
  offline : Bool

namespace PromptStore

/-- The store without entries, available. -/
def empty (now : Moment) : PromptStore := ⟨now, Table.empty, false⟩

/-- Lets time pass, in which entries come to their deadlines. -/
def pass (s : PromptStore) (d : Duration) : PromptStore :=
  { s with
    now := s.now.after d
    entries := s.entries.filter fun _ e => e.live (s.now.after d) }

/-- Stores an entry, which is gone at once if it is at its deadline already. -/
def hold (s : PromptStore) (key : String) (e : SharedEntry) : PromptStore :=
  { s with entries := if e.live s.now then s.entries.insert key e else s.entries.erase key }

/-- What a key holds. -/
def value? (s : PromptStore) (key : String) : Option SharedValue :=
  (s.entries.get? key).map SharedEntry.value

/-- The deadline of a key, if it has one. -/
def deadline? (s : PromptStore) (key : String) : Option Moment :=
  (s.entries.get? key).bind SharedEntry.deadline

/-- Changes what a key holds, until the same deadline as before. -/
def update {α : Type} (s : PromptStore) (key : String) (change : SharedCall.Change α) :
    Except CacheFault α × PromptStore :=
  match change (s.value? key) with
  | .ok (answer, some value) => (.ok answer, s.hold key ⟨value, s.deadline? key⟩)
  | .ok (answer, none) => (.ok answer, s)
  | .error fault => (.error fault, s)

/-- What an available store answers, and what it is afterwards. -/
def answer (s : PromptStore) : (c : SharedCall) → Except CacheFault c.Answer × PromptStore
  | .get key => (SharedCall.heldText key (s.value? key), s)
  | .getWithTtl key =>
    ((SharedCall.heldText key (s.value? key)).map fun text =>
      text.map fun text => (text, (s.deadline? key).map s.now.timeTo), s)
  | .set key value ttl => (.ok (), s.hold key ⟨.text value, some (s.now.expiry ttl)⟩)
  | .delete key => (.ok (s.entries.contains key), { s with entries := s.entries.erase key })
  | .deleteMany keys =>
    (.ok (s.entries.filter fun key _ => key ∈ keys).size,
      { s with entries := s.entries.filter fun key _ => key ∉ keys })
  | .contains key => (.ok (s.entries.contains key), s)
  | .expire key ttl =>
    match s.entries.get? key with
    | some e => (.ok true, s.hold key { e with deadline := some (s.now.expiry ttl) })
    | none => (.ok false, s)
  | .scan pattern => (.ok (s.entries.filter fun key _ => Text.Glob.isMatch pattern key).keys, s)
  | .hashGet key field =>
    ((SharedCall.heldHash key (s.value? key)).map fun fields => fields.bind (·.get? field), s)
  | .setContains key member =>
    ((SharedCall.heldSet key (s.value? key)).map fun members =>
      members.any (·.contains member), s)
  | .increment key delta => s.update key (SharedCall.add key delta)
  | .decrement key delta => s.update key (SharedCall.add key (-delta))
  | .hashSet key field value => s.update key (SharedCall.setField key field value)
  | .hashDelete key field => s.update key (SharedCall.removeField key field)
  | .setAdd key member => s.update key (SharedCall.addMember key member)
  | .setRemove key member => s.update key (SharedCall.removeMember key member)

/-- What a store answers: offline, nothing that touches a key is done. -/
def perform (c : SharedCall) (s : PromptStore) : c.Reply × PromptStore :=
  if s.offline && SharedMemory.touchesKeys c then (.error (.unavailable .offline), s)
  else ((s.answer c).1.mapError .unavailable, (s.answer c).2)

end PromptStore

/-! ## The cache and the store -/

namespace SharedMemory

variable {m : SharedMemory} {s : PromptStore} {now : Moment} {key : String}

/-- After dropping an entry that is not live, the entry of the key is its live one. -/
theorem get?_evict_self (m : SharedMemory) (now : Moment) (key : String) :
    (m.evict now key).entries.get? key = m.lookup now key := by
  unfold evict lookup
  cases hentry : m.entries.get? key with
  | none => exact hentry
  | some e =>
    by_cases hlive : e.live now = true
    · simp only [hlive, if_true, hentry, Option.filter]
    · simp only [hlive, Bool.false_eq_true, if_false, remove, Table.get?_erase_self,
        Option.filter]

/-- Changes what a key holds, after dropping an entry that is not live. -/
def update {α : Type} (m : SharedMemory) (now : Moment) (key : String)
    (change : SharedCall.Change α) : Except CacheFault α × SharedMemory :=
  match change ((m.lookup now key).map SharedEntry.value) with
  | .ok (answer, some value) =>
    (.ok answer,
      (m.evict now key).put key ⟨value, (m.lookup now key).bind SharedEntry.deadline⟩)
  | .ok (answer, none) => (.ok answer, m.evict now key)
  | .error fault => (.error fault, m.evict now key)

theorem add_eq_update (m : SharedMemory) (now : Moment) (key : String) (delta : Int) :
    m.add now key delta = m.update now key (SharedCall.add key delta) := by
  simp only [add, update, get?_evict_self]
  cases m.lookup now key with
  | none => rfl
  | some e =>
    obtain ⟨value, deadline⟩ := e
    cases value with
    | text s =>
      simp only [Option.map_some, SharedCall.add, SharedCall.heldText, Except.bind]
      cases Text.Decimal.readInt64? s <;> rfl
    | hash fields => rfl
    | set members => rfl

/-- All calls that update a key do so in the same way. -/
theorem answer_eq_update {c : SharedCall} {change : SharedCall.Change c.Answer}
    (h : c.change? = some (key, change)) (m : SharedMemory) (now : Moment) :
    m.answer now c = m.update now key change := by
  cases c <;> cases h
  case increment delta => exact m.add_eq_update now key delta
  case decrement delta => exact m.add_eq_update now key (-delta)
  all_goals
    simp only [answer, update, get?_evict_self]
    cases m.lookup now key with
    | none => rfl
    | some e =>
      obtain ⟨value, deadline⟩ := e
      cases value <;> rfl

end SharedMemory

namespace PromptStore

theorem answer_eq_update {c : SharedCall} {key : String}
    {change : SharedCall.Change c.Answer} (h : c.change? = some (key, change)) (s : PromptStore) :
    s.answer c = s.update key change := by
  cases c <;> cases h <;> rfl

theorem now_update {α : Type} (s : PromptStore) (key : String) (change : SharedCall.Change α) :
    (s.update key change).2.now = s.now := by
  unfold update
  split <;> rfl

/-- No call takes time. -/
theorem now_perform (s : PromptStore) (c : SharedCall) : (s.perform c).2.now = s.now := by
  unfold perform
  split
  · rfl
  show (s.answer c).2.now = s.now
  cases hchange : c.change? with
  | some target =>
    obtain ⟨key, change⟩ := target
    rw [answer_eq_update hchange]
    exact s.now_update key change
  | none =>
    cases c with
    | expire key ttl =>
      simp only [answer]
      split <;> rfl
    | increment | decrement | hashSet | hashDelete | setAdd | setRemove => cases hchange
    | _ => rfl

theorem get?_hold (s : PromptStore) (key other : String) (e : SharedEntry) :
    (s.hold key e).entries.get? other =
      if other = key then if e.live s.now then some e else none else s.entries.get? other := by
  unfold hold
  by_cases hlive : e.live s.now = true
  · simp only [hlive, if_true, Table.get?_insert]
  · simp only [hlive, Bool.false_eq_true, if_false, Table.get?_erase]

/-- Removing one key and then others counts the key if it is there, and those that are left. -/
theorem size_filter_mem_cons (entries : Table String SharedEntry) (key : String)
    (keys : List String) :
    (entries.filter fun other _ => other ∈ key :: keys).size =
      ((entries.erase key).filter fun other _ => other ∈ keys).size +
        if (entries.get? key).isSome then 1 else 0 := by
  -- Both sides list distinct keys, so they are as long if they have the same members.
  have hsize (t : Table String SharedEntry) : t.size = t.keys.length := by
    simp [Table.size, Table.keys]
  have hrest : key ∉ ((entries.erase key).filter fun other _ => other ∈ keys).keys := by
    simp [Table.mem_keys_iff, Table.get?_filter]
  rw [hsize, hsize]
  cases hentry : entries.get? key with
  | none =>
    refine List.Perm.length_eq ((List.perm_ext_iff_of_nodup (Table.distinct _)
      (Table.distinct _)).2 fun other => ?_)
    show other ∈ Table.keys _ ↔ other ∈ Table.keys _
    simp only [Table.mem_keys_iff, Table.get?_filter, Table.get?_erase]
    by_cases hother : other = key <;> simp [hother, hentry]
  | some e =>
    have hperm : (entries.filter fun other _ => other ∈ key :: keys).keys.Perm
        (key :: ((entries.erase key).filter fun other _ => other ∈ keys).keys) := by
      refine (List.perm_ext_iff_of_nodup (Table.distinct _)
        (List.nodup_cons.2 ⟨hrest, Table.distinct _⟩)).2 fun other => ?_
      show other ∈ Table.keys _ ↔ other ∈ key :: Table.keys _
      simp only [List.mem_cons, Table.mem_keys_iff, Table.get?_filter, Table.get?_erase]
      by_cases hother : other = key <;> simp [hother, hentry]
    exact hperm.length_eq

end PromptStore

/-- Whether the live entries of a cache are the entries of a store. -/
structure SharedMemory.StandsFor (m : SharedMemory) (s : PromptStore) : Prop where
  live : ∀ key, m.lookup s.now key = s.entries.get? key
  offline : m.offline = s.offline
  timingOut : m.timingOut = false

namespace SharedMemory.StandsFor

variable {m : SharedMemory} {s : PromptStore}

theorem evict (h : m.StandsFor s) (key : String) : (m.evict s.now key).StandsFor s where
  live other := (m.lookup_evict (Nat.le_refl _) key other).trans (h.live other)
  offline := (offline_evict m s.now key).1.trans h.offline
  timingOut := (offline_evict m s.now key).2.trans h.timingOut

theorem put (h : m.StandsFor s) (key : String) (e : SharedEntry) :
    (m.put key e).StandsFor (s.hold key e) where
  live other := by
    show (m.put key e).lookup s.now other = _
    rw [lookup_put, PromptStore.get?_hold, h.live]
  offline := h.offline
  timingOut := h.timingOut

theorem remove (h : m.StandsFor s) (key : String) :
    (m.remove key).StandsFor { s with entries := s.entries.erase key } where
  live other := by
    show (m.remove key).lookup s.now other = _
    rw [lookup_remove, Table.get?_erase, h.live]
  offline := h.offline
  timingOut := h.timingOut

theorem value? (h : m.StandsFor s) (key : String) :
    (m.lookup s.now key).map SharedEntry.value = s.value? key := by
  rw [h.live, PromptStore.value?]

theorem deadline? (h : m.StandsFor s) (key : String) :
    (m.lookup s.now key).bind SharedEntry.deadline = s.deadline? key := by
  rw [h.live, PromptStore.deadline?]

theorem update {α : Type} (h : m.StandsFor s) (key : String) (change : SharedCall.Change α) :
    (m.update s.now key change).1 = (s.update key change).1 ∧
      (m.update s.now key change).2.StandsFor (s.update key change).2 := by
  unfold SharedMemory.update PromptStore.update
  rw [h.value?, h.deadline?]
  split
  · exact ⟨rfl, (h.evict key).put key _⟩
  · exact ⟨rfl, h.evict key⟩
  · exact ⟨rfl, h.evict key⟩

theorem removeMany (h : m.StandsFor s) (keys : List String) :
    (m.removeMany s.now keys).1 = (s.entries.filter fun key _ => key ∈ keys).size ∧
      (m.removeMany s.now keys).2.StandsFor
        { s with entries := s.entries.filter fun key _ => key ∉ keys } := by
  constructor
  · -- The first key is gone from both sides before the others are counted.
    induction keys generalizing m s with
    | nil => simp [SharedMemory.removeMany, Table.size, Table.filter]
    | cons key keys ih =>
      show (if (m.lookup s.now key).isSome then _ + 1 else _) = _
      rw [PromptStore.size_filter_mem_cons, ← ih (h.remove key), h.live]
      split <;> rfl
  · obtain ⟨hoffline, htimingOut⟩ := offline_removeMany m s.now keys
    refine ⟨fun other => ?_, hoffline.trans h.offline, htimingOut.trans h.timingOut⟩
    show (m.removeMany s.now keys).2.lookup s.now other = _
    rw [lookup_removeMany, h.live, Table.get?_filter]
    cases s.entries.get? other <;> by_cases hmem : other ∈ keys <;> simp [Option.filter, hmem]

/-- A call to an available cache answers as the store does, and keeps standing for it. -/
theorem answer (h : m.StandsFor s) (c : SharedCall) :
    c.Agrees (m.answer s.now c).1 (s.answer c).1 ∧
      (m.answer s.now c).2.StandsFor (s.answer c).2 := by
  cases hchange : c.change? with
  | some target =>
    obtain ⟨key, change⟩ := target
    rw [answer_eq_update hchange, PromptStore.answer_eq_update hchange]
    obtain ⟨hreply, hstands⟩ := h.update key change
    exact ⟨.of_eq hreply, hstands⟩
  | none =>
    -- What is left reads, or writes entries as a whole.
    cases c with
    | get key | getWithTtl key =>
      simp only [SharedMemory.answer, PromptStore.answer, PromptStore.value?, PromptStore.deadline?,
        h.live key]
      cases s.entries.get? key with
      | none => exact ⟨rfl, h.evict key⟩
      | some e =>
        obtain ⟨value, deadline⟩ := e
        cases value <;> exact ⟨rfl, h⟩
    | set key value ttl => exact ⟨rfl, h.put key _⟩
    | delete key =>
      refine ⟨?_, h.remove key⟩
      simp only [SharedCall.Agrees, SharedMemory.answer, PromptStore.answer, h.live,
        Table.contains_eq_isSome]
    | deleteMany keys =>
      obtain ⟨hcount, hstands⟩ := h.removeMany keys
      exact ⟨congrArg Except.ok hcount, hstands⟩
    | contains key =>
      refine ⟨?_, h⟩
      simp only [SharedCall.Agrees, SharedMemory.answer, PromptStore.answer, h.live,
        Table.contains_eq_isSome]
    | expire key ttl =>
      simp only [SharedMemory.answer, PromptStore.answer, get?_evict_self, h.live key]
      cases s.entries.get? key with
      | none => exact ⟨rfl, h.evict key⟩
      | some e => exact ⟨rfl, (h.evict key).put key _⟩
    | scan pattern =>
      refine ⟨congrArg Except.ok (Multiset.coe_eq_coe.2 ?_), h⟩
      refine (List.perm_ext_iff_of_nodup (m.nodup_liveKeys s.now _) (Table.distinct _)).2 ?_
      intro key
      show _ ↔ key ∈ Table.keys _
      rw [mem_liveKeys_iff, h.live, Table.mem_keys_iff, Table.get?_filter]
      cases s.entries.get? key <;> simp
    | hashGet key _ | setContains key _ =>
      simp only [SharedMemory.answer, PromptStore.answer, PromptStore.value?, h.live key]
      cases s.entries.get? key with
      | none => exact ⟨rfl, h⟩
      | some e =>
        obtain ⟨value, deadline⟩ := e
        cases value <;> exact ⟨rfl, h⟩
    | _ => cases hchange

/-- Every call answers as the store does, and the cache goes on standing for it. -/
theorem perform (h : m.StandsFor s) (c : SharedCall) :
    c.Agrees (m.perform c s.now).1 (s.perform c).1 ∧
      (m.perform c s.now).2.StandsFor (s.perform c).2 := by
  unfold SharedMemory.perform PromptStore.perform
  rw [h.timingOut, h.offline, if_neg Bool.false_ne_true]
  split
  · exact ⟨.of_eq rfl, h⟩
  · obtain ⟨hreply, hstands⟩ := h.answer c
    exact ⟨hreply.mapError CacheError.unavailable, hstands⟩

theorem switch (h : m.StandsFor s) (offline : Bool) :
    { m with offline }.StandsFor { s with offline } :=
  ⟨h.live, rfl, h.timingOut⟩

theorem pass (h : m.StandsFor s) (d : Duration) : m.StandsFor (s.pass d) where
  live key := by
    have hlater : s.now ≤ s.now.after d := Nat.le_add_right s.now.nanos d.nanos
    show m.lookup (s.now.after d) key = _
    rw [m.lookup_later hlater, h.live, PromptStore.pass, Table.get?_filter]
  offline := h.offline
  timingOut := h.timingOut

end SharedMemory.StandsFor

/-! ## What a call leaves behind -/

namespace SharedMemory

variable {m : SharedMemory} {now later : Moment} {key : String} {c : SharedCall}

/-- A change that fails leaves alone what is live. -/
theorem lookup_update_of_error {α : Type} {change : SharedCall.Change α} {fault : CacheFault}
    (h : (m.update now key change).1 = .error fault) (hle : now ≤ later) (other : String) :
    (m.update now key change).2.lookup later other = m.lookup later other := by
  unfold update at h ⊢
  split at h
  · cases h
  · cases h
  · exact m.lookup_evict hle key other

/-- A call that fails leaves alone what is live. -/
theorem lookup_answer_of_error {fault : CacheFault} (h : (m.answer now c).1 = .error fault)
    (hle : now ≤ later) (other : String) :
    (m.answer now c).2.lookup later other = m.lookup later other := by
  cases hchange : c.change? with
  | some target =>
    obtain ⟨key, change⟩ := target
    rw [answer_eq_update hchange] at h ⊢
    exact lookup_update_of_error h hle other
  | none =>
    cases c with
    | set | delete | deleteMany | contains | scan => cases h
    | get key | getWithTtl key | hashGet key _ | setContains key _ =>
      simp only [answer] at h ⊢
      split at h
      · cases h
      · rfl
      · cases h
    | expire key ttl =>
      simp only [answer] at h
      split at h <;> cases h
    | _ => cases hchange

/-- A call is refused, or it is answered. -/
theorem perform_cases (m : SharedMemory) (c : SharedCall) (now : Moment) :
    (∃ e, m.perform c now = (.error e, m)) ∨
      m.perform c now =
        ((m.answer now c).1.mapError CacheError.unavailable, (m.answer now c).2) := by
  unfold perform
  split
  · exact Or.inl ⟨_, rfl⟩
  split
  · exact Or.inl ⟨_, rfl⟩
  · exact Or.inr rfl

theorem lookup_perform_of_error {e : CacheError} (h : (m.perform c now).1 = .error e)
    (hle : now ≤ later) (other : String) :
    (m.perform c now).2.lookup later other = m.lookup later other := by
  rcases m.perform_cases c now with ⟨fault, hrefused⟩ | hanswered
  · rw [hrefused]
  · rw [hanswered] at h ⊢
    cases hresult : (m.answer now c).1 with
    | ok answer =>
      rw [hresult] at h
      cases h
    | error fault => exact lookup_answer_of_error hresult hle other

/-- Whether what is under a key stays there, until the same deadline, and what is new has none. -/
structure KeepsDeadline (m m' : SharedMemory) (now : Moment) (key : String) : Prop where
  old : ∀ e, m.lookup now key = some e → ∃ value, m'.lookup now key = some ⟨value, e.deadline⟩
  new : m.lookup now key = none → ∀ e, m'.lookup now key = some e → e.deadline = none

theorem KeepsDeadline.of_lookup_eq {m' : SharedMemory}
    (h : m'.lookup now key = m.lookup now key) : m.KeepsDeadline m' now key where
  old e he := ⟨e.value, h.trans he⟩
  new hnone e he := by
    rw [h, hnone] at he
    cases he

theorem keepsDeadline_update {α : Type} (m : SharedMemory) (now : Moment) (key : String)
    (change : SharedCall.Change α) : m.KeepsDeadline (m.update now key change).2 now key := by
  have hevict : (m.evict now key).lookup now key = m.lookup now key :=
    m.lookup_evict (Nat.le_refl _) key key
  unfold update
  split
  · next answer value _ =>
    constructor
    · intro e he
      -- The old entry is live, so the new one is, which has the same deadline.
      have hlive : e.live now = true := (Option.filter_eq_some_iff.1 he).2
      refine ⟨value, ?_⟩
      rw [lookup_put, if_pos rfl, he]
      exact if_pos hlive
    · intro hnone e he
      rw [lookup_put, if_pos rfl, hnone] at he
      obtain rfl := Option.some.inj (Option.ite_none_right_eq_some.1 he).2
      rfl
  · exact .of_lookup_eq hevict
  · exact .of_lookup_eq hevict

/-- Updating a counter, a hash or a set keeps the deadline of the key. -/
theorem keepsDeadline_perform (h : c.updates = some key) (m : SharedMemory) (now : Moment) :
    m.KeepsDeadline (m.perform c now).2 now key := by
  obtain ⟨⟨_, change⟩, hchange, rfl⟩ := Option.map_eq_some_iff.1 h
  rcases m.perform_cases c now with ⟨fault, hrefused⟩ | hanswered
  · rw [hrefused]
    exact .of_lookup_eq rfl
  · rw [hanswered, answer_eq_update hchange]
    exact m.keepsDeadline_update now _ change

/-- Setting a text replaces the deadline. -/
theorem lookup_perform_set {value : String} {ttl : Duration}
    (h : (m.perform (.set key value ttl) now).1 = .ok ()) :
    (m.perform (.set key value ttl) now).2.lookup now key =
      if ttl.isZero then none else some ⟨.text value, some (now.expiry ttl)⟩ := by
  rcases m.perform_cases (.set key value ttl) now with ⟨fault, hrefused⟩ | hanswered
  · rw [hrefused] at h
    cases h
  · rw [hanswered]
    show (m.put key _).lookup now key = _
    rw [lookup_put, if_pos rfl]
    cases hzero : ttl.isZero with
    | false => exact if_pos (by simpa [SharedEntry.live] using now.lt_expiry hzero)
    | true => exact if_neg (by simpa [SharedEntry.live] using now.not_lt_expiry hzero)

end SharedMemory

/-! ## Runs -/

/-- What can happen to a shared cache in memory. -/
inductive SharedStep where
  | call (c : SharedCall)
  /-- The cache is taken offline or brought back. -/
  | switch (offline : Bool)
  | pass (d : Duration)

/-- A shared cache in memory at a moment. -/
structure SharedState where
  now : Moment
  memory : SharedMemory

/-- The cache before anything is stored. -/
def SharedState.start (now : Moment) : SharedState := ⟨now, .empty⟩

/-- What a step makes of the cache. -/
def SharedState.step (s : SharedState) : SharedStep → SharedState
  | .call c => { s with memory := (s.memory.perform c s.now).2 }
  | .switch offline => { s with memory := { s.memory with offline } }
  | .pass d => { s with now := s.now.after d }

/-- What a step makes of the store. -/
def PromptStore.step (s : PromptStore) : SharedStep → PromptStore
  | .call c => (s.perform c).2
  | .switch offline => { s with offline }
  | .pass d => s.pass d

namespace SharedState

/-- Whether a cache stands for a store, at the same moment. -/
structure StandsFor (s : SharedState) (store : PromptStore) : Prop where
  now : store.now = s.now
  memory : s.memory.StandsFor store

theorem standsFor_start (now : Moment) : (start now).StandsFor (.empty now) where
  now := rfl
  memory := ⟨fun _ => rfl, rfl, rfl⟩

theorem StandsFor.after {s : SharedState} {store : PromptStore} (h : s.StandsFor store)
    (e : SharedStep) : (s.step e).StandsFor (store.step e) := by
  cases e with
  | call c =>
    refine ⟨(store.now_perform c).trans h.now, ?_⟩
    show (s.memory.perform c s.now).2.StandsFor _
    rw [← h.now]
    exact (h.memory.perform c).2
  | switch offline => exact ⟨h.now, h.memory.switch offline⟩
  | pass d => exact ⟨congrArg (Moment.after · d) h.now, h.memory.pass d⟩

theorem StandsFor.run {s : SharedState} {store : PromptStore} (h : s.StandsFor store)
    (steps : List SharedStep) :
    (steps.foldl step s).StandsFor (steps.foldl PromptStore.step store) := by
  induction steps generalizing s store with
  | nil => exact h
  | cons e steps ih => exact ih (h.after e)

end SharedState

/-- Whatever has been called, whenever the cache was offline and however time has passed: the next
call answers as a store does that drops each entry at its deadline; if it fails, everything live
stays as it is; and of the calls that write, only those that are about the deadline change it. -/
theorem answers_as_prompt (start : Moment) (steps : List SharedStep) (c : SharedCall) :
    let cache := steps.foldl SharedState.step (.start start)
    let store := steps.foldl PromptStore.step (.empty start)
    let reply := (cache.memory.perform c cache.now).1
    let memory := (cache.memory.perform c cache.now).2
    c.Agrees reply (store.perform c).1 ∧
      (∀ e, reply = .error e → ∀ later, cache.now ≤ later →
        ∀ key, memory.lookup later key = cache.memory.lookup later key) ∧
      (∀ key, c.updates = some key → cache.memory.KeepsDeadline memory cache.now key) ∧
      ∀ key value ttl, c = .set key value ttl → (∃ answer, reply = .ok answer) →
        memory.lookup cache.now key =
          if ttl.isZero then none else some ⟨.text value, some (cache.now.expiry ttl)⟩ := by
  intro cache store reply memory
  obtain ⟨hnow, hmemory⟩ : cache.StandsFor store := (SharedState.standsFor_start start).run steps
  refine ⟨?agrees, ?failed, ?updated, ?replaced⟩
  case agrees =>
    have hagrees := (hmemory.perform c).1
    rw [hnow] at hagrees
    exact hagrees
  case failed =>
    intro e he later hle key
    exact SharedMemory.lookup_perform_of_error he hle key
  case updated =>
    intro key hkey
    exact SharedMemory.keepsDeadline_perform hkey cache.memory cache.now
  case replaced =>
    rintro key value ttl rfl ⟨⟨⟩, hset⟩
    exact SharedMemory.lookup_perform_set hset

namespace SharedState

/-- A counter at its deadline, beside a set. -/
def demo : SharedState :=
  [.call (.set "k" "7" (.ofSeconds 1)), .call (.setAdd "s" "m"), .pass (.ofSeconds 1)].foldl step
    (start ⟨0⟩)

/-- The counter starts anew and for ever, the set is no counter, and a text has its own deadline. -/
theorem answers_as_prompt_demo :
    demo.memory.entries.size = 2 ∧
      (demo.memory.perform (.increment "k" 5) demo.now).1 = .ok 5 ∧
      ((SharedCall.increment "k" 5).updates = some "k" ∧
        demo.memory.KeepsDeadline (demo.memory.perform (.increment "k" 5) demo.now).2 demo.now
          "k") ∧
      ((demo.memory.perform (.increment "s" 1) demo.now).1 =
          .error (.unavailable (.wrongType "s")) ∧
        ∀ later, demo.now ≤ later → ∀ key,
          (demo.memory.perform (.increment "s" 1) demo.now).2.lookup later key =
            demo.memory.lookup later key) ∧
      (demo.memory.perform (.set "s" "v" (.ofSeconds 2)) demo.now).2.lookup demo.now "s" =
        some ⟨.text "v", some ⟨3000000000⟩⟩ := by
  have hall := answers_as_prompt ⟨0⟩
    [.call (.set "k" "7" (.ofSeconds 1)), .call (.setAdd "s" "m"), .pass (.ofSeconds 1)]
  obtain ⟨hfive, -, hkept, -⟩ := hall (.increment "k" 5)
  obtain ⟨hwrong, hunchanged, -⟩ := hall (.increment "s" 1)
  obtain ⟨-, -, -, hset⟩ := hall (.set "s" "v" (.ofSeconds 2))
  exact ⟨rfl, hfive.trans rfl, ⟨rfl, hkept "k" rfl⟩,
    ⟨hwrong.trans rfl, hunchanged _ (hwrong.trans rfl)⟩, hset "s" "v" _ rfl ⟨(), rfl⟩⟩

end SharedState

end Bearer
