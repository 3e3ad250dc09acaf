/-
  What the two tiers of a cache may hold.

  A rule says which texts may be held under which keys until when.  If it
  allows an entry, it allows the same entry for a shorter time, because that is
  all that a copy from the shared tier to a local one can be.  Look-ups,
  removals and sweeps keep any such rule; only caching a text can break it.

  Main statements: `LocalCache.within_set`, `SharedMemory.within_perform` and
  `SharedMemory.perform_unreachable`.
-/
import Bearer.Cache.Local
import Bearer.Cache.SharedMemory

namespace Bearer

/-- Which texts may be held under which keys, and until when; without a deadline means for ever. -/
abbrev EntryRule := (key text : String) → Option Moment → Prop

/-- Whether what may be held may also be held for a shorter time. -/
def EntryRule.Shortens (rule : EntryRule) : Prop :=
  ∀ ⦃key text : String⦄ ⦃deadline : Option Moment⦄ ⦃sooner : Moment⦄, rule key text deadline →
    (∀ d ∈ deadline, sooner ≤ d) → rule key text (some sooner)

variable {rule : EntryRule} {key value text : String} {now : Moment} {ttl : Duration}

/-- What is stored for some time is stored beyond now. -/
theorem Moment.lt_expiry (now : Moment) {ttl : Duration} (hsome : ttl.isZero = false) :
    now < now.expiry ttl := by
  have hmax : 0 < maxTtl.nanos := by decide
  simp only [Duration.isZero, beq_eq_false_iff_ne] at hsome
  simp only [Moment.lt_def, Moment.expiry, Moment.nanos_after, Duration.nanos_min]
  omega

/-- What is stored for no time is stored until now. -/
theorem Moment.not_lt_expiry (now : Moment) {ttl : Duration} (hzero : ttl.isZero = true) :
    ¬ now < now.expiry ttl := by
  simp only [Duration.isZero, beq_iff_eq] at hzero
  simp only [Moment.lt_def, Moment.expiry, Moment.nanos_after, Duration.nanos_min]
  omega

/-! ## The local tier -/

namespace LocalCache

variable {c : LocalCache}

/-- Whether a rule allows every entry, past its deadline or not. -/
def Within (rule : EntryRule) (c : LocalCache) : Prop :=
  ∀ key e, c.entries.get? key = some e → rule key e.value (some e.deadline)

theorem within_empty (rule : EntryRule) : empty.Within rule := by
  intro key e h
  rw [empty, Table.get?_empty] at h
  cases h

theorem within_clear (c : LocalCache) (rule : EntryRule) : c.clear.Within rule := by
  intro key e h
  rw [clear, Table.get?_empty] at h
  cases h

/-- Without the entry of a key, a rule need allow nothing under it. -/
theorem within_delete_of {rule' : EntryRule} (h : c.Within rule)
    (hother : ∀ other text deadline, other ≠ key → rule other text deadline →
      rule' other text deadline) : (c.delete key).Within rule' := by
  intro other e he
  rw [delete, Table.get?_erase] at he
  split at he
  · cases he
  · next hne => exact hother other e.value _ hne (h other e he)

theorem within_delete (h : c.Within rule) (key : String) : (c.delete key).Within rule :=
  within_delete_of h fun _ _ _ _ hallowed => hallowed

theorem within_evict (h : c.Within rule) (now : Moment) (key : String) :
    (c.evict now key).Within rule := by
  unfold evict
  split
  · split
    · exact h
    · exact within_delete h key
  · exact h

theorem within_purge (h : c.Within rule) (now : Moment) : (c.purge now).Within rule := by
  intro other e he
  rw [purge, Table.get?_filter, Option.filter_eq_some_iff] at he
  exact h other e he.1

theorem within_close (h : c.Within rule) : c.close.Within rule := by
  unfold close
  split
  · exact h
  · exact within_clear c rule

/-- With a new entry under a key, a rule need allow no other one under it. -/
theorem within_set_of {rule' : EntryRule} (h : c.Within rule)
    (hother : ∀ other text deadline, other ≠ key → rule other text deadline →
      rule' other text deadline)
    (hrule : rule' key value (some (now.expiry ttl))) :
    (c.set now key value ttl).Within rule' := by
  intro other e he
  unfold set at he
  dsimp only at he
  split at he
  · exact within_delete_of h hother other e he
  · rw [Table.get?_insert] at he
    split at he
    · next hkey =>
      obtain rfl := Option.some.inj he
      exact hkey ▸ hrule
    · next hne => exact hother other e.value _ hne (h other e he)

theorem within_set (h : c.Within rule) (hrule : rule key value (some (now.expiry ttl))) :
    (c.set now key value ttl).Within rule :=
  within_set_of h (fun _ _ _ _ hallowed => hallowed) hrule

/-- What a look-up finds, the rule allows. -/
theorem rule_of_lookup (h : c.Within rule) (hfound : c.lookup now key = some text) :
    ∃ deadline, rule key text (some deadline) ∧ now < deadline := by
  obtain ⟨e, he, rfl⟩ := Option.map_eq_some_iff.1 hfound
  obtain ⟨he, hlive⟩ := Option.filter_eq_some_iff.1 he
  exact ⟨e.deadline, h key e he, by simpa [live] using hlive⟩

end LocalCache

/-! ## The shared tier -/

namespace SharedMemory

variable {m : SharedMemory}

/-- Whether a rule allows every text held, past its deadline or not. -/
def Within (rule : EntryRule) (m : SharedMemory) : Prop :=
  ∀ key e, m.entries.get? key = some e → ∀ text, e.value = .text text → rule key text e.deadline

/-- Whether calls are refused. -/
def Unreachable (m : SharedMemory) : Prop := m.timingOut = true ∨ m.offline = true

instance (m : SharedMemory) : Decidable m.Unreachable :=
  inferInstanceAs (Decidable (m.timingOut = true ∨ m.offline = true))

theorem within_remove (h : m.Within rule) (key : String) : (m.remove key).Within rule := by
  intro other e he
  rw [remove, Table.get?_erase] at he
  split at he
  · cases he
  · exact h other e he

theorem within_evict (h : m.Within rule) (now : Moment) (key : String) :
    (m.evict now key).Within rule := by
  unfold evict
  split
  · split
    · exact h
    · exact within_remove h key
  · exact h

theorem within_removeMany (h : m.Within rule) (now : Moment) (keys : List String) :
    (m.removeMany now keys).2.Within rule := by
  induction keys generalizing m with
  | nil => exact h
  | cons key keys ih => exact ih (within_remove h key)

theorem within_put (h : m.Within rule) {deadline : Option Moment}
    (hrule : rule key value deadline) : (m.put key ⟨.text value, deadline⟩).Within rule := by
  intro other e he text htext
  rw [put, Table.get?_insert] at he
  split at he
  · next hkey =>
    obtain rfl := Option.some.inj he
    obtain rfl := SharedValue.text.inj htext
    exact hkey ▸ hrule
  · exact h other e he text htext

/-- Whether a call reads, removes, or caches a text that a rule allows. -/
def Keeps (rule : EntryRule) (now : Moment) : SharedCall → Prop
  | .set key value ttl => rule key value (some (now.expiry ttl))
  | .get _ | .getWithTtl _ | .delete _ | .deleteMany _ | .contains _ | .scan _ => True
  | _ => False

theorem within_perform (h : m.Within rule) {c : SharedCall} (hc : Keeps rule now c) :
    (m.perform c now).2.Within rule := by
  unfold perform
  split
  · exact h
  split
  · exact h
  cases c with
  | get key =>
    simp only [answer]
    split
    · exact h
    · exact h
    · exact within_evict h now key
  | getWithTtl key =>
    simp only [answer]
    split
    · exact h
    · exact h
    · exact within_evict h now key
  | set key value ttl => exact within_put h hc
  | delete key => exact within_remove h key
  | deleteMany keys => exact within_removeMany h now keys
  | contains key => exact h
  | scan pattern => exact h
  | _ => exact absurd hc id

/-- A text that is found with its remaining time, the rule allows until then. -/
theorem rule_of_getWithTtl (h : m.Within rule) {remaining : Option Duration}
    (hfound : (m.perform (.getWithTtl key) now).1 = .ok (some (text, remaining))) :
    ∃ deadline, rule key text deadline ∧ (∀ d ∈ deadline, now < d) ∧
      remaining = deadline.map now.timeTo := by
  unfold perform at hfound
  split at hfound
  · cases hfound
  split at hfound
  · cases hfound
  simp only [answer] at hfound
  split at hfound
  · next s deadline hlookup =>
    cases hfound
    obtain ⟨hentry, hlive⟩ := Option.filter_eq_some_iff.1 hlookup
    refine ⟨deadline, h key _ hentry text rfl, ?_, rfl⟩
    intro d hd
    have hall : Option.all (fun d => decide (now < d)) deadline = true := hlive
    rw [Option.mem_def.1 hd] at hall
    simpa using hall
  · cases hfound
  · cases hfound

/-! ## Removing what matches -/

theorem get?_removeMany (m : SharedMemory) (now : Moment) (keys : List String) (key : String) :
    (m.removeMany now keys).2.entries.get? key =
      if key ∈ keys then none else m.entries.get? key := by
  induction keys generalizing m with
  | nil => simp [removeMany]
  | cons other keys ih =>
    show ((m.remove other).removeMany now keys).2.entries.get? key = _
    rw [ih, remove, Table.get?_erase]
    by_cases hother : key = other <;> simp [hother]

/-- A scan finds the live keys that match. -/
theorem mem_liveKeys (m : SharedMemory) (now : Moment) (p : String → Bool) (key : String) :
    key ∈ m.liveKeys now p ↔
      ∃ e, m.entries.get? key = some e ∧ e.live now = true ∧ p key = true := by
  rw [liveKeys, Text.mem_sortDistinct, Table.mem_keys_iff, Option.isSome_iff_exists]
  simp only [Table.get?_filter, Option.filter_eq_some_iff, Bool.and_eq_true]

/-- What a scan does not find is not live or does not match. -/
theorem live_of_not_mem_liveKeys {p : String → Bool} {e : SharedEntry}
    (hnot : key ∉ m.liveKeys now p) (hentry : m.entries.get? key = some e) (hp : p key = true) :
    e.live now = false := by
  cases hlive : e.live now with
  | false => rfl
  | true => exact absurd ((m.mem_liveKeys now p key).2 ⟨e, hentry, hlive, hp⟩) hnot

/-- Nothing live that matches is left when what a scan finds has been removed. -/
theorem live_of_removeMany {p : String → Bool} {e : SharedEntry}
    (hentry : (m.removeMany now (m.liveKeys now p)).2.entries.get? key = some e)
    (hp : p key = true) : e.live now = false := by
  rw [get?_removeMany] at hentry
  split at hentry
  · cases hentry
  · next hnot => exact live_of_not_mem_liveKeys hnot hentry hp

theorem get?_evict_of_ne (m : SharedMemory) (now : Moment) {other : String} (hne : other ≠ key) :
    (m.evict now key).entries.get? other = m.entries.get? other := by
  unfold evict
  split
  · split
    · rfl
    · rw [remove, Table.get?_erase, if_neg hne]
  · rfl

/-! ## Live entries after each operation -/

theorem lookup_put (m : SharedMemory) (now : Moment) (key other : String) (e : SharedEntry) :
    (m.put key e).lookup now other =
      if other = key then if e.live now then some e else none else m.lookup now other := by
  rw [lookup, put, Table.get?_insert]
  split
  · by_cases hlive : e.live now = true <;> simp [Option.filter, hlive]
  · rfl

theorem lookup_remove (m : SharedMemory) (now : Moment) (key other : String) :
    (m.remove key).lookup now other = if other = key then none else m.lookup now other := by
  rw [lookup, remove, Table.get?_erase]
  split <;> rfl

theorem lookup_removeMany (m : SharedMemory) (now later : Moment) (keys : List String)
    (key : String) :
    (m.removeMany now keys).2.lookup later key =
      if key ∈ keys then none else m.lookup later key := by
  rw [lookup, get?_removeMany]
  split <;> rfl

theorem live_of_le {now later : Moment} (h : now ≤ later) (e : SharedEntry)
    (hlive : e.live later = true) : e.live now = true := by
  obtain ⟨value, deadline⟩ := e
  cases deadline with
  | none => rfl
  | some d =>
    simp only [SharedEntry.live, Option.all_some, decide_eq_true_eq, Moment.lt_def] at hlive ⊢
    rw [Moment.le_def] at h
    omega

/-- What is live later is what was live and still is. -/
theorem lookup_later (m : SharedMemory) {now later : Moment} (h : now ≤ later) (key : String) :
    m.lookup later key = (m.lookup now key).filter (SharedEntry.live later) := by
  unfold lookup
  cases m.entries.get? key with
  | none => rfl
  | some e =>
    by_cases hlater : e.live later = true
    · simp [Option.filter, hlater, live_of_le h e hlater]
    · by_cases hnow : e.live now = true <;> simp [Option.filter, hlater, hnow]

/-- Dropping an entry that is not live changes nothing that is live from then on. -/
theorem lookup_evict (m : SharedMemory) {now later : Moment} (h : now ≤ later)
    (key other : String) : (m.evict now key).lookup later other = m.lookup later other := by
  rw [lookup_later _ h, m.lookup_later h]
  congr 1
  unfold evict
  cases hentry : m.entries.get? key with
  | none => rfl
  | some e =>
    dsimp only
    split
    · rfl
    · next hdead =>
      rw [lookup_remove]
      split
      · next hkey => simp [lookup, hkey, hentry, Option.filter, hdead]
      · rfl

/-- Looking up a key changes nothing that is live from then on. -/
theorem lookup_getWithTtl (m : SharedMemory) {now later : Moment} (h : now ≤ later)
    (key other : String) :
    (m.perform (.getWithTtl key) now).2.lookup later other = m.lookup later other := by
  unfold perform
  split
  · rfl
  split
  · rfl
  simp only [answer]
  split
  · rfl
  · rfl
  · exact m.lookup_evict h key other

/-- Removing keys that are live, each once, counts them all. -/
theorem removeMany_count {keys : List String} (hdistinct : keys.Nodup)
    (hlive : ∀ key ∈ keys, (m.lookup now key).isSome = true) :
    (m.removeMany now keys).1 = keys.length := by
  induction keys generalizing m with
  | nil => rfl
  | cons key keys ih =>
    obtain ⟨hnot, hrest⟩ := List.nodup_cons.1 hdistinct
    -- The keys that follow are other keys, so the first removal leaves them live.
    have hcount : ((m.remove key).removeMany now keys).1 = keys.length := by
      apply ih hrest
      intro other hother
      have hne : other ≠ key := fun heq => hnot (heq ▸ hother)
      rw [lookup_remove, if_neg hne]
      exact hlive other (List.mem_cons_of_mem key hother)
    show (if (m.lookup now key).isSome then _ else _) = _
    rw [if_pos (hlive key List.mem_cons_self), hcount, List.length_cons]

theorem nodup_liveKeys (m : SharedMemory) (now : Moment) (p : String → Bool) :
    (m.liveKeys now p).Nodup :=
  Text.nodup_sortDistinct _

/-- A scan finds the keys under which something is live, as far as they match. -/
theorem mem_liveKeys_iff (m : SharedMemory) (now : Moment) (p : String → Bool) (key : String) :
    key ∈ m.liveKeys now p ↔ (m.lookup now key).isSome = true ∧ p key = true := by
  rw [mem_liveKeys, lookup, Option.isSome_iff_exists]
  simp only [Option.filter_eq_some_iff]
  constructor
  · rintro ⟨e, hentry, hlive, hp⟩
    exact ⟨⟨e, hentry, hlive⟩, hp⟩
  · rintro ⟨⟨e, hentry, hlive⟩, hp⟩
    exact ⟨e, hentry, hlive, hp⟩

/-! ## Failing calls -/

theorem offline_evict (m : SharedMemory) (now : Moment) (key : String) :
    (m.evict now key).offline = m.offline ∧ (m.evict now key).timingOut = m.timingOut := by
  unfold evict
  split
  · split <;> exact ⟨rfl, rfl⟩
  · exact ⟨rfl, rfl⟩

theorem offline_removeMany (m : SharedMemory) (now : Moment) (keys : List String) :
    (m.removeMany now keys).2.offline = m.offline ∧
      (m.removeMany now keys).2.timingOut = m.timingOut := by
  induction keys generalizing m with
  | nil => exact ⟨rfl, rfl⟩
  | cons key keys ih => exact ih (m.remove key)

/-- No call takes the cache offline or brings it back. -/
theorem offline_perform (m : SharedMemory) (c : SharedCall) (now : Moment) :
    (m.perform c now).2.offline = m.offline ∧ (m.perform c now).2.timingOut = m.timingOut := by
  -- Both kinds of counting go through one addition.
  have hadd : ∀ key delta, (m.add now key delta).2.offline = m.offline ∧
      (m.add now key delta).2.timingOut = m.timingOut := by
    intro key delta
    have hevict := offline_evict m now key
    simp only [add]
    split
    · split <;> exact hevict
    · exact hevict
    · exact hevict
  unfold perform
  split
  · exact ⟨rfl, rfl⟩
  split
  · exact ⟨rfl, rfl⟩
  cases c with
  | increment key delta => exact hadd key delta
  | decrement key delta => exact hadd key (-delta)
  | deleteMany keys => exact offline_removeMany m now keys
  | set | delete | contains | scan => exact ⟨rfl, rfl⟩
  | _ =>
    simp only [answer]
    split <;> first
      | exact ⟨rfl, rfl⟩
      | exact offline_evict m now _

theorem unreachable_perform_iff (m : SharedMemory) (c : SharedCall) (now : Moment) :
    (m.perform c now).2.Unreachable ↔ m.Unreachable := by
  obtain ⟨hoffline, htimingOut⟩ := offline_perform m c now
  simp only [Unreachable, hoffline, htimingOut]

theorem reachable_perform (h : ¬ m.Unreachable) (c : SharedCall) (now : Moment) :
    ¬ (m.perform c now).2.Unreachable :=
  fun hu => h ((m.unreachable_perform_iff c now).1 hu)

/-- What a look-up answers depends on the entry of its key. -/
theorem getWithTtl_congr {m' : SharedMemory} (hoffline : m'.offline = m.offline)
    (htimingOut : m'.timingOut = m.timingOut)
    (hentry : m'.entries.get? key = m.entries.get? key) (now : Moment) :
    (m'.perform (.getWithTtl key) now).1 = (m.perform (.getWithTtl key) now).1 := by
  simp only [perform, answer, lookup, hoffline, htimingOut, hentry]
  split
  · rfl
  split
  · rfl
  split <;> rfl

/-- Looking up, removing or setting one key leaves the others alone. -/
theorem getWithTtl_perform_of_ne {other : String} (hne : other ≠ key) {c : SharedCall}
    (hc : c = .getWithTtl key ∨ c = .delete key ∨ ∃ value ttl, c = .set key value ttl)
    (m : SharedMemory) (now : Moment) :
    ((m.perform c now).2.perform (.getWithTtl other) now).1 =
      (m.perform (.getWithTtl other) now).1 := by
  obtain ⟨hoffline, htimingOut⟩ := offline_perform m c now
  refine getWithTtl_congr hoffline htimingOut ?_ now
  unfold perform
  split
  · rfl
  split
  · rfl
  rcases hc with rfl | rfl | ⟨value, ttl, rfl⟩
  · simp only [answer]
    split
    · rfl
    · rfl
    · exact get?_evict_of_ne m now hne
  · simp only [answer, remove, Table.get?_erase, if_neg hne]
  · simp only [answer, put, Table.get?_insert, if_neg hne]

/-- A cache that does not refuse calls answers them. -/
theorem perform_reachable (h : ¬ m.Unreachable) (c : SharedCall) (now : Moment) :
    m.perform c now = ((m.answer now c).1.mapError .unavailable, (m.answer now c).2) := by
  obtain ⟨htimingOut, hoffline⟩ := not_or.1 h
  unfold perform
  rw [if_neg htimingOut, if_neg (by simp [hoffline])]

/-- Asking whether a key is there changes nothing. -/
@[simp] theorem perform_contains (m : SharedMemory) (key : String) (now : Moment) :
    (m.perform (.contains key) now).2 = m := by
  unfold perform
  split
  · rfl
  split <;> rfl

/-- A cache that answers finds the texts that are live. -/
theorem getWithTtl_eq_ok_iff (h : ¬ m.Unreachable) :
    (∃ remaining, (m.perform (.getWithTtl key) now).1 = .ok (some (text, remaining))) ↔
      ∃ deadline, m.lookup now key = some ⟨.text text, deadline⟩ := by
  rw [perform_reachable h]
  simp only [answer]
  split
  · next s deadline hlookup =>
    constructor
    · rintro ⟨remaining, heq⟩
      cases heq
      exact ⟨deadline, hlookup⟩
    · rintro ⟨deadline', heq⟩
      cases hlookup.symm.trans heq
      exact ⟨_, rfl⟩
  · next e hnot hlookup =>
    constructor
    · rintro ⟨remaining, heq⟩
      cases heq
    · rintro ⟨deadline, heq⟩
      cases hlookup.symm.trans heq
      exact absurd rfl (hnot text deadline)
  · next hlookup =>
    constructor
    · rintro ⟨remaining, heq⟩
      cases heq
    · rintro ⟨deadline, heq⟩
      cases hlookup.symm.trans heq

/-- A cache that refuses calls finds nothing. -/
theorem perform_getWithTtl_ne_ok (h : m.Unreachable) (key : String)
    (found : Option (String × Option Duration)) :
    (m.perform (.getWithTtl key) now).1 ≠ .ok found := by
  unfold perform
  intro heq
  split at heq
  · cases heq
  · next htimingOut =>
    have hoffline : m.offline = true := h.resolve_left htimingOut
    rw [if_pos (by simp [hoffline, touchesKeys])] at heq
    cases heq

/-- A cache that refuses calls stays as it is. -/
theorem perform_unreachable (h : m.Unreachable) (c : SharedCall) (now : Moment) :
    (m.perform c now).2 = m := by
  unfold perform
  split
  · rfl
  split
  · rfl
  next htimingOut htouches =>
  -- Only a call that touches no key is answered.
  have hoffline : m.offline = true := h.resolve_left htimingOut
  have hnone : touchesKeys c = false := by simpa [hoffline] using htouches
  unfold touchesKeys at hnone
  split at hnone
  · rfl
  · cases hnone

end SharedMemory

end Bearer
