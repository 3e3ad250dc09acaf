/-
  A cache in two tiers is one timed map.

  Copies with shorter deadlines, entries that are dropped late, sweeps, a local
  tier that is emptied as a whole and closing are all invisible: as long as the
  shared cache answers and only this cache writes to it, every answer is that
  of one map from keys to texts with deadlines.  What carries this is that
  every live local entry has a live shared entry with the same text and no
  earlier deadline.

  Main statements: `Refines.call` and `Refines.step` for one step, and
  `answers_eq_timedMap` for a run.
-/
import Bearer.Proofs.Cache.Tiered

namespace Bearer

/-! ## The map -/

/-- One map from keys to texts, each with its deadline. -/
structure TimedMap where
  entries : Table String LocalEntry

namespace TimedMap

/-- The map without entries. -/
def empty : TimedMap := ⟨Table.empty⟩

/-- The entry that is visible under a key: one whose deadline is after now. -/
def visible (m : TimedMap) (now : Moment) (key : String) : Option LocalEntry :=
  (m.entries.get? key).filter (LocalCache.live now)

/-- The text that is visible under a key. -/
def find (m : TimedMap) (now : Moment) (key : String) : Option String :=
  (m.visible now key).map LocalEntry.value

/-- Removes the entry of a key. -/
def remove (m : TimedMap) (key : String) : TimedMap := ⟨m.entries.erase key⟩

/-- Stores a text for `ttl`; for no time at all means to remove it. -/
def set (m : TimedMap) (now : Moment) (key value : String) (ttl : Duration) : TimedMap :=
  if ttl.isZero then m.remove key else ⟨m.entries.insert key ⟨value, now.expiry ttl⟩⟩

/-- Whether an entry is visible and its key matches a pattern. -/
def matching (pattern : String) (now : Moment) (key : String) (e : LocalEntry) : Bool :=
  LocalCache.live now e && Text.Glob.isMatch pattern key

/-- What a cache call answers on one map, and what it makes of the map. -/
def perform (defaultTtl : Duration) (now : Moment) (m : TimedMap) :
    (c : CacheCall) → c.Reply × TimedMap
  | .getString key => (m.find now key, m)
  | .setString key value ttl => (.ok (), m.set now key value (ttl.getD defaultTtl))
  | .fetch kind key =>
    match m.find now key with
    | none => (none, m)
    | some text =>
      match Envelope.decode kind text with
      | .ok value => (some value, m)
      | .error _ => (none, m.remove key)
  | .store kind key value ttl =>
    (.ok (), m.set now key (Envelope.encode kind value) (ttl.getD defaultTtl))
  | .delete key => (.ok (), m.remove key)
  | .contains key => ((m.find now key).isSome, m)
  | .invalidate pattern =>
    (.ok (m.entries.filter (matching pattern now)).size,
      ⟨m.entries.filter fun key e => !matching pattern now key e⟩)

/-! ### What is visible after each operation -/

theorem visible_remove (m : TimedMap) (now : Moment) (key other : String) :
    (m.remove key).visible now other = if other = key then none else m.visible now other := by
  rw [visible, remove, Table.get?_erase]
  split <;> rfl

theorem visible_set (m : TimedMap) (now : Moment) (key other value : String) {ttl : Duration}
    (hsome : ttl.isZero = false) :
    (m.set now key value ttl).visible now other =
      if other = key then some ⟨value, now.expiry ttl⟩ else m.visible now other := by
  have hlive : LocalCache.live now ⟨value, now.expiry ttl⟩ = true := by
    simp only [LocalCache.live, decide_eq_true_eq]
    exact now.lt_expiry hsome
  rw [set, if_neg (by simp [hsome]), visible, Table.get?_insert]
  split
  · simp [Option.filter, hlive]
  · rfl

/-- What is visible later is what was visible and still is. -/
theorem visible_later (m : TimedMap) {now later : Moment} (h : now ≤ later) (key : String) :
    m.visible later key = (m.visible now key).filter (LocalCache.live later) := by
  unfold visible
  cases m.entries.get? key with
  | none => rfl
  | some e =>
    by_cases hlater : LocalCache.live later e = true
    · simp [Option.filter, hlater, LocalCache.live_of_le h e hlater]
    · by_cases hnow : LocalCache.live now e = true <;> simp [Option.filter, hlater, hnow]

/-- After invalidating a pattern, nothing is visible under the keys that match. -/
theorem visible_invalidate (m : TimedMap) (now : Moment) (defaultTtl : Duration)
    (pattern key : String) :
    (m.perform defaultTtl now (.invalidate pattern)).2.visible now key =
      if Text.Glob.isMatch pattern key then none else m.visible now key := by
  simp only [perform, visible, Table.get?_filter, matching]
  cases m.entries.get? key with
  | none => simp
  | some e =>
    cases hlive : LocalCache.live now e <;>
      cases Text.Glob.isMatch pattern key <;> simp [Option.filter, hlive]

/-- Which local copies the map backs: while a copy lives, the map shows the same text, and for at
least as long. -/
def backs (m : TimedMap) (now : Moment) : EntryRule := fun key text deadline =>
  ∀ d ∈ deadline, now < d →
    ∃ e, m.visible now key = some e ∧ e.value = text ∧ d ≤ e.deadline

end TimedMap

/-! ## The cache and the map -/

namespace TieredCache

variable {defaultTtl : Duration} {now later : Moment} {cache : TieredCache}
variable {shared : SharedMemory} {map : TimedMap} {key : String}

/-- Whether a cache over a shared cache that answers stands for a map. -/
structure Refines (defaultTtl : Duration) (now : Moment) (cache : TieredCache)
    (shared : SharedMemory) (map : TimedMap) : Prop where
  defaultTtl : cache.config.defaultTtl = defaultTtl
  hasShared : cache.hasShared = true
  reach : ¬ shared.Unreachable
  /-- What is live in the shared cache is what the map shows. -/
  shared : ∀ key, shared.lookup now key =
    (map.visible now key).map fun e => ⟨.text e.value, some e.deadline⟩
  /-- Live local copies are backed by the map. -/
  near : cache.near.Within (map.backs now)

namespace Refines

/-- The passing of time alone breaks nothing. -/
theorem mono (h : Refines defaultTtl now cache shared map) (hle : now ≤ later) :
    Refines defaultTtl later cache shared map where
  defaultTtl := h.defaultTtl
  hasShared := h.hasShared
  reach := h.reach
  shared key := by
    rw [shared.lookup_later hle, map.visible_later hle, h.shared]
    cases map.visible now key with
    | none => rfl
    | some e =>
      by_cases hlive : later < e.deadline <;>
        simp [Option.filter, SharedEntry.live, LocalCache.live, hlive]
  near key e he := by
    intro d hd hlive
    have hnow : now < d := by
      rw [Moment.lt_def] at hlive ⊢
      rw [Moment.le_def] at hle
      omega
    obtain ⟨backing, hvisible, htext, hdeadline⟩ := h.near key e he d hd hnow
    refine ⟨backing, ?_, htext, hdeadline⟩
    -- The map's entry lives for at least as long as the copy, which is live.
    have hlater : LocalCache.live later backing = true := by
      simp only [LocalCache.live, decide_eq_true_eq, Moment.lt_def]
      rw [Moment.lt_def] at hlive
      rw [Moment.le_def] at hdeadline
      omega
    rw [map.visible_later hle, hvisible]
    simp [Option.filter, hlater]

/-- What the shared cache answers to a look-up. -/
theorem getWithTtl (h : Refines defaultTtl now cache shared map) (key : String) :
    (shared.perform (.getWithTtl key) now).1 =
      .ok ((map.visible now key).map fun e => (e.value, some (now.timeTo e.deadline))) := by
  rw [SharedMemory.perform_reachable h.reach]
  simp only [SharedMemory.answer, h.shared key]
  cases map.visible now key with
  | none => rfl
  | some e => rfl

/-- What is found through both tiers is what the map shows. -/
theorem seen_eq (h : Refines defaultTtl now cache shared map) (key : String) :
    cache.seen now shared key = map.find now key := by
  unfold seen TimedMap.find
  cases hlookup : cache.near.lookup now key with
  | some text =>
    obtain ⟨deadline, hbacked, hlive⟩ := LocalCache.rule_of_lookup h.near hlookup
    obtain ⟨e, hvisible, htext, -⟩ := hbacked deadline rfl hlive
    rw [hvisible, Option.map_some, htext]
  | none =>
    dsimp only
    rw [if_pos h.hasShared, h.getWithTtl]
    cases map.visible now key with
    | none => rfl
    | some e => rfl

/-- Counting changes nothing that matters. -/
theorem stats (h : Refines defaultTtl now cache shared map) (stats : CacheStats) :
    Refines defaultTtl now { cache with stats } shared map :=
  ⟨h.defaultTtl, h.hasShared, h.reach, h.shared, h.near⟩

/-- A look-up changes neither what the cache stands for nor the map. -/
theorem readAt (key : String) : ReadAt key now (Refines defaultTtl now · · map) where
  stats h stats := h.stats stats
  evict h :=
    ⟨h.defaultTtl, h.hasShared, h.reach, h.shared, LocalCache.within_evict h.near now key⟩
  copy := by
    intro c s text remaining h _ hreply
    refine ⟨h.defaultTtl, h.hasShared, h.reach, h.shared, LocalCache.within_set h.near ?_⟩
    rw [h.getWithTtl, Except.ok.injEq, Option.map_eq_some_iff] at hreply
    obtain ⟨e, hvisible, heq⟩ := hreply
    obtain ⟨rfl, rfl⟩ := Prod.mk.inj heq
    intro d hd _
    obtain rfl := Option.some.inj hd
    refine ⟨e, hvisible, rfl, ?_⟩
    -- The copy lives for what is left of the entry at most.
    have hlive : now < e.deadline := by
      have := (Option.filter_eq_some_iff.1 hvisible).2
      simpa [LocalCache.live] using this
    simp only [Option.getD_some, Moment.le_def, Moment.lt_def, Moment.expiry, localTtl,
      Moment.nanos_after, Duration.nanos_min, Moment.nanos_timeTo] at hlive ⊢
    omega
  ask h :=
    ⟨h.defaultTtl, h.hasShared, SharedMemory.reachable_perform h.reach _ now,
      fun other => (SharedMemory.lookup_getWithTtl _ (Nat.le_refl _) key other).trans
        (h.shared other), h.near⟩

/-- Removing a key from both tiers removes it from the map. -/
theorem remove (h : Refines defaultTtl now cache shared map) (key : String) :
    Refines defaultTtl now { cache with near := cache.near.delete key } (shared.remove key)
      (map.remove key) where
  defaultTtl := h.defaultTtl
  hasShared := h.hasShared
  reach := h.reach
  shared other := by
    rw [SharedMemory.lookup_remove, TimedMap.visible_remove, h.shared]
    split <;> rfl
  near := by
    refine LocalCache.within_delete_of h.near ?_
    intro other text deadline hne hbacked d hd hlive
    rw [TimedMap.visible_remove, if_neg hne]
    exact hbacked d hd hlive

/-- Setting a text in both tiers, with the time cut off locally, sets it in the map. -/
theorem set (h : Refines defaultTtl now cache shared map) (key value : String) {ttl : Duration}
    (hsome : ttl.isZero = false) :
    Refines defaultTtl now
      { cache with near := cache.near.set now key value (cache.localTtl ttl) }
      (shared.put key ⟨.text value, some (now.expiry ttl)⟩) (map.set now key value ttl) where
  defaultTtl := h.defaultTtl
  hasShared := h.hasShared
  reach := h.reach
  shared other := by
    -- The new entry is live, as it is in the map.
    have hvisible := map.visible_set now key key value hsome
    rw [if_pos rfl] at hvisible
    have hlive := (Option.filter_eq_some_iff.1 hvisible).2
    rw [SharedMemory.lookup_put, map.visible_set now key other value hsome, h.shared other]
    split
    · exact if_pos hlive
    · rfl
  near := by
    refine LocalCache.within_set_of h.near ?_ ?_
    · intro other text deadline hne hbacked d hd hlive
      rw [map.visible_set now key other value hsome, if_neg hne]
      exact hbacked d hd hlive
    · intro d hd _
      obtain rfl := Option.some.inj hd
      refine ⟨_, (map.visible_set now key key value hsome).trans (if_pos rfl), rfl, ?_⟩
      -- The local limit can only make the time shorter.
      simp only [Moment.le_def, Moment.expiry, localTtl, Moment.nanos_after, Duration.nanos_min]
      omega

/-! ### Operations -/

/-- Whether an operation ends with the answer expected, and standing for the map expected. -/
def Matches {α : Type} (defaultTtl : Duration) (now : Moment) (expected : α × TimedMap) (reply : α)
    (cache : TieredCache) (shared : SharedMemory) : Prop :=
  reply = expected.1 ∧ Refines defaultTtl now cache shared expected.2

theorem getString (h : Refines defaultTtl now cache shared map) (key : String) :
    Ends now (TieredCache.getString key) (Matches defaultTtl now (map.find now key, map)) cache
      shared :=
  ends_getString (readAt key) h fun _ _ hcs => ⟨h.seen_eq key, hcs⟩

theorem delete (h : Refines defaultTtl now cache shared map) (key : String) :
    Ends now (TieredCache.delete key) (Matches defaultTtl now (.ok (), map.remove key)) cache
      shared := by
  rw [TieredCache.delete, ends_bind, ends_modifyNear, ends_bind, ends_get]
  dsimp only
  rw [if_pos h.hasShared, ends_bind]
  apply ends_counted
  intro stats
  rw [SharedMemory.perform_reachable h.reach]
  exact ⟨rfl, (h.remove key).stats stats⟩

theorem setString (h : Refines defaultTtl now cache shared map) (key value : String)
    (ttl : Option Duration) :
    Ends now (TieredCache.setString key value ttl)
      (Matches defaultTtl now (.ok (), map.set now key value (ttl.getD defaultTtl))) cache
      shared := by
  have hdefault := h.defaultTtl
  refine ends_setString (fun hzero => ?_) fun hsome stats => ?_
  · rw [hdefault] at hzero
    rw [TimedMap.set, if_pos hzero]
    exact h.delete key
  · rw [hdefault] at hsome ⊢
    generalize ttl.getD defaultTtl = ttl at hsome ⊢
    dsimp only
    rw [if_pos h.hasShared, SharedMemory.perform_reachable h.reach]
    exact ⟨rfl, (h.set key value hsome).stats stats⟩

theorem fetch (h : Refines defaultTtl now cache shared map) (kind : Kind) (key : String) :
    Ends now (TieredCache.fetch kind key)
      (Matches defaultTtl now (map.perform defaultTtl now (.fetch kind key))) cache shared := by
  rw [TieredCache.fetch, ends_bind]
  apply ends_getString (readAt key) h
  intro c s hcs
  rw [h.seen_eq key, TimedMap.perform]
  cases map.find now key with
  | none => exact ⟨rfl, hcs⟩
  | some text =>
    dsimp only
    cases Envelope.decode kind text with
    | ok value => exact ⟨rfl, hcs⟩
    | error e =>
      dsimp only
      rw [ends_bind]
      have hdelete := hcs.delete key
      exact ⟨rfl, hdelete.2⟩

theorem contains (h : Refines defaultTtl now cache shared map) (key : String) :
    Ends now (TieredCache.contains key)
      (Matches defaultTtl now ((map.find now key).isSome, map)) cache shared := by
  apply ends_contains (readAt key) h
  intro c s hcs
  refine ⟨?_, hcs⟩
  have hshared : (shared.perform (.contains key) now).1 = .ok (map.find now key).isSome := by
    rw [SharedMemory.perform_reachable h.reach]
    simp only [SharedMemory.answer, h.shared key, TimedMap.find, Option.isSome_map]
    rfl
  have hseen := h.seen_eq key
  unfold seen at hseen
  rw [hshared, h.hasShared]
  cases hlookup : cache.near.lookup now key with
  | some text =>
    rw [hlookup] at hseen
    rw [← hseen]
    rfl
  | none => rfl

/-- A scan finds as many keys as the map shows under keys that match. -/
theorem length_liveKeys (h : Refines defaultTtl now cache shared map) (pattern : String) :
    (shared.liveKeys now (Text.Glob.isMatch pattern)).length =
      (map.entries.filter (TimedMap.matching pattern now)).size := by
  have hkeys : (map.entries.filter (TimedMap.matching pattern now)).size =
      (map.entries.filter (TimedMap.matching pattern now)).keys.length := by
    simp [Table.size, Table.keys]
  rw [hkeys]
  apply List.Perm.length_eq
  refine (List.perm_ext_iff_of_nodup (shared.nodup_liveKeys now _) (Table.distinct _)).2 ?_
  intro key
  show _ ↔ key ∈ Table.keys _
  rw [SharedMemory.mem_liveKeys_iff, h.shared key, Table.mem_keys_iff, Table.get?_filter,
    Option.isSome_map, TimedMap.visible]
  unfold TimedMap.matching
  cases map.entries.get? key with
  | none => simp
  | some e => cases hlive : LocalCache.live now e <;> simp [Option.filter, hlive]

theorem invalidate (h : Refines defaultTtl now cache shared map) (pattern : String) :
    Ends now (TieredCache.invalidate pattern)
      (Matches defaultTtl now (map.perform defaultTtl now (.invalidate pattern))) cache
      shared := by
  apply ends_invalidate h.hasShared h.reach
  have hlive : ∀ key ∈ shared.liveKeys now (Text.Glob.isMatch pattern),
      (shared.lookup now key).isSome = true := fun key hkey =>
    ((shared.mem_liveKeys_iff now _ key).1 hkey).1
  refine ⟨?_, h.defaultTtl, h.hasShared, ?_, ?_, LocalCache.within_clear cache.near _⟩
  · rw [SharedMemory.removeMany_count (shared.nodup_liveKeys now _) hlive,
      h.length_liveKeys pattern]
    rfl
  · obtain ⟨hoffline, htimingOut⟩ := shared.offline_removeMany now
      (shared.liveKeys now (Text.Glob.isMatch pattern))
    unfold SharedMemory.Unreachable
    rw [hoffline, htimingOut]
    exact h.reach
  · intro key
    rw [SharedMemory.lookup_removeMany, TimedMap.visible_invalidate]
    simp only [SharedMemory.mem_liveKeys_iff]
    cases hmatch : Text.Glob.isMatch pattern key with
    | false => simpa using h.shared key
    | true => simp

/-- Every call answers as the map does, and goes on standing for what the call makes of it. -/
theorem perform (h : Refines defaultTtl now cache shared map) (c : CacheCall) :
    Ends now (operation c) (Matches defaultTtl now (map.perform defaultTtl now c)) cache
      shared := by
  cases c with
  | getString key => exact h.getString key
  | setString key value ttl => exact h.setString key value ttl
  | fetch kind key => exact h.fetch kind key
  | store kind key value ttl => exact h.setString key (Envelope.encode kind value) ttl
  | delete key => exact h.delete key
  | contains key => exact h.contains key
  | invalidate pattern => exact h.invalidate pattern

end Refines

end TieredCache

/-! ## Runs -/

/-- What the calls among some steps answer on one map, from a moment on. -/
def TimedMap.answers (defaultTtl : Duration) : Moment → TimedMap → List CacheStep → List Answered
  | _, _, [] => []
  | now, m, .call c :: steps =>
    ⟨c, (m.perform defaultTtl now c).1⟩ :: answers defaultTtl now (m.perform defaultTtl now c).2 steps
  | now, m, .pass d :: steps => answers defaultTtl (now.after d) m steps
  -- A sweep and the closing of a tier are nothing to the map.
  | now, m, .sweep :: steps => answers defaultTtl now m steps
  | now, m, .close :: steps => answers defaultTtl now m steps

namespace CacheState

variable {defaultTtl : Duration} {s : CacheState} {map : TimedMap}

/-- Whether a cache stands for a map at the moment of its state. -/
def Refines (defaultTtl : Duration) (s : CacheState) (map : TimedMap) : Prop :=
  TieredCache.Refines defaultTtl s.now s.cache s.shared map

theorem Refines.call (h : s.Refines defaultTtl map) (c : CacheCall) :
    (s.cache.perform c s.now s.shared).1.1 = (map.perform defaultTtl s.now c).1 ∧
      (s.step (.call c)).Refines defaultTtl (map.perform defaultTtl s.now c).2 := by
  obtain ⟨hreply, hrefines⟩ := TieredCache.Refines.perform h c
  refine ⟨hreply, ?_⟩
  have hclock : (s.step (.call c)).now = s.now := s.cache.perform_clock c s.now s.shared
  unfold Refines
  rw [hclock]
  exact hrefines

/-- Sweeps, closing and the passing of time leave the map as it is. -/
theorem Refines.step (h : s.Refines defaultTtl map) {step : CacheStep}
    (hstep : ∀ c, step ≠ .call c) : (s.step step).Refines defaultTtl map := by
  cases step with
  | call c => exact absurd rfl (hstep c)
  | sweep =>
    exact ⟨h.defaultTtl, h.hasShared, h.reach, h.shared, LocalCache.within_purge h.near s.now⟩
  | close =>
    exact ⟨h.defaultTtl, h.hasShared, h.reach, h.shared, LocalCache.within_close h.near⟩
  | pass d => exact TieredCache.Refines.mono h (Nat.le_add_right s.now.nanos d.nanos)

/-- A cache that stands for a map answers as the map does from then on. -/
theorem answers_eq (h : s.Refines defaultTtl map) (steps : List CacheStep) :
    s.answers steps = map.answers defaultTtl s.now steps := by
  induction steps generalizing s map with
  | nil => rfl
  | cons step steps ih =>
    cases step with
    | call c =>
      obtain ⟨hreply, hrefines⟩ := h.call c
      have hclock : (s.step (.call c)).now = s.now := s.cache.perform_clock c s.now s.shared
      have hrest := ih hrefines
      rw [hclock] at hrest
      show Sigma.mk c _ :: _ = Sigma.mk c _ :: _
      rw [hreply, hrest]
    | sweep => exact ih (h.step (by simp))
    | close => exact ih (h.step (by simp))
    | pass d => exact ih (h.step (by simp))

/-- A cache over a shared cache of its own, before anything is cached. -/
def start (config : CacheConfig) (now : Moment) : CacheState := ⟨.new config true, now, .empty⟩

theorem refines_start {config : CacheConfig} (henabled : config.sharedEnabled = true)
    (now : Moment) : (start config now).Refines config.defaultTtl .empty where
  defaultTtl := rfl
  hasShared := by rw [start, TieredCache.new, henabled]; rfl
  reach := show ¬ SharedMemory.empty.Unreachable by decide
  shared _ := rfl
  near := LocalCache.within_empty _

/-- Whatever is called, swept or closed, and however time passes: a cache that uses a shared cache
of its own answers as one timed map does. -/
theorem answers_eq_timedMap {config : CacheConfig} (henabled : config.sharedEnabled = true)
    (now : Moment) (steps : List CacheStep) :
    (start config now).answers steps = TimedMap.empty.answers config.defaultTtl now steps :=
  answers_eq (refines_start henabled now) steps

/-- A text stored for longer than it may stay locally, read before and after its deadline. -/
theorem answers_eq_timedMap_expired :
    CacheConfig.default.sharedEnabled = true ∧
      (start .default ⟨0⟩).answers
        [.call (.setString "k" "v" (some (.ofSeconds 90))), .pass (.ofSeconds 60), .sweep,
          .call (.getString "k"), .pass (.ofSeconds 30), .call (.getString "k")] =
      [⟨.setString "k" "v" (some (.ofSeconds 90)), .ok ()⟩, ⟨.getString "k", some "v"⟩,
        ⟨.getString "k", none⟩] :=
  ⟨rfl, (answers_eq_timedMap rfl ⟨0⟩ _).trans rfl⟩

end CacheState

end Bearer
