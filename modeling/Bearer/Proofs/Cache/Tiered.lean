/-
  Operations of a cache in two tiers.

  Every operation leaves the monotonic clock where it is, keeps any rule about
  what the tiers hold that the texts it caches satisfy, and does nothing to a
  shared cache that refuses calls.  A copy made by a look-up satisfies the rule
  because it expires no later than what it was copied from.

  Main statements: `perform_steady`, `perform_delete`, `perform_store`,
  `perform_fetch`, `perform_aside`, `perform_invalidate` and `lookup_perform`.
-/
import Bearer.Proofs.Cache.Backend

namespace Bearer

/-- Whether a call is about what is cached under a key. -/
def CacheCall.Reaches : CacheCall → String → Prop
  | .getString key, other | .setString key .., other | .fetch _ key, other
  | .store _ key _ _, other | .delete key, other | .contains key, other => other = key
  | .invalidate pattern, other => Text.Glob.isMatch pattern other = true

namespace TieredCache

variable {α β : Type} {now : Moment} {cache : TieredCache} {shared : SharedMemory}

/-- The clock stands still while a program asks a shared cache in memory. -/
theorem clock_run (p : Prog SharedRequest SharedRequest.Reply α) (now : Moment)
    (shared : SharedMemory) : (p.run SharedBackend.answer (now, shared)).2.1 = now := by
  induction p generalizing shared with
  | done value => rfl
  | ask r next ih =>
    cases r with
    | moment => exact ih now shared
    | shared c => exact ih _ (shared.perform c now).2

/-- Whether an operation that runs at a moment ends as `post` says. -/
def Ends (now : Moment) (m : CacheM α) (post : α → TieredCache → SharedMemory → Prop)
    (cache : TieredCache) (shared : SharedMemory) : Prop :=
  post ((m.run cache).run SharedBackend.answer (now, shared)).1.1
    ((m.run cache).run SharedBackend.answer (now, shared)).1.2
    ((m.run cache).run SharedBackend.answer (now, shared)).2.2

/-! ## Rules -/

variable {post : α → TieredCache → SharedMemory → Prop}

theorem ends_iff_finishes {m : CacheM α} :
    Ends now m post cache shared ↔ Finishes m (fun a c s => post a c s.2) cache (now, shared) :=
  Iff.rfl

theorem ends_bind (m : CacheM α) (f : α → CacheM β)
    {post : β → TieredCache → SharedMemory → Prop} :
    Ends now (m >>= f) post cache shared ↔
      Ends now m (fun a c s => Ends now (f a) post c s) cache shared := by
  -- The rest runs at the same moment, since the clock has stood still.
  have hclock : ((m.run cache).run SharedBackend.answer (now, shared)).2 =
      (now, ((m.run cache).run SharedBackend.answer (now, shared)).2.2) :=
    Prod.ext (clock_run (m.run cache) now shared) rfl
  rw [ends_iff_finishes, finishes_bind]
  unfold Finishes
  rw [hclock]
  exact Iff.rfl

theorem ends_get {post : TieredCache → TieredCache → SharedMemory → Prop} :
    Ends now get post cache shared ↔ post cache cache shared :=
  Iff.rfl

theorem ends_shared (c : SharedCall) {post : c.Reply → TieredCache → SharedMemory → Prop} :
    Ends now (TieredCache.shared c) post cache shared ↔
      post (shared.perform c now).1 cache (shared.perform c now).2 :=
  Iff.rfl

theorem ends_modifyNear (f : LocalCache → LocalCache)
    {post : Unit → TieredCache → SharedMemory → Prop} :
    Ends now (modifyNear f) post cache shared ↔
      post () { cache with near := f cache.near } shared :=
  Iff.rfl

theorem ends_counted (c : SharedCall) {post : c.Reply → TieredCache → SharedMemory → Prop}
    (next : ∀ stats, post (shared.perform c now).1 { cache with stats }
      (shared.perform c now).2) :
    Ends now (counted c) post cache shared :=
  ends_iff_finishes.2 (finishes_counted c next)

/-! ## What every operation keeps -/

/-- What stays the same from one state of a cache and a shared cache to a later one. -/
structure Steady (rule : EntryRule) (cache : TieredCache) (shared : SharedMemory)
    (cache' : TieredCache) (shared' : SharedMemory) : Prop where
  config : cache'.config = cache.config
  hasShared : cache'.hasShared = cache.hasShared
  reach : shared'.Unreachable ↔ shared.Unreachable
  untouched : shared.Unreachable → shared' = shared
  within : shared.Within rule → shared'.Within rule
  near : (cache.hasShared = true → shared.Within rule) → cache.near.Within rule →
    cache'.near.Within rule

section

variable {rule : EntryRule} {cache' : TieredCache} {shared' : SharedMemory}
variable {key value : String} {ttl : Duration}

theorem Steady.refl (rule : EntryRule) (cache : TieredCache) (shared : SharedMemory) :
    Steady rule cache shared cache shared :=
  ⟨rfl, rfl, Iff.rfl, fun _ => rfl, id, fun _ => id⟩

/-- Counting changes nothing that matters. -/
theorem Steady.stats (h : Steady rule cache shared cache' shared') (stats : CacheStats) :
    Steady rule cache shared { cache' with stats } shared' :=
  ⟨h.config, h.hasShared, h.reach, h.untouched, h.within, h.near⟩

/-- Asking the shared cache to read, remove, or cache what the rule allows. -/
theorem Steady.perform (h : Steady rule cache shared cache' shared') (now : Moment)
    {c : SharedCall} (hc : SharedMemory.Keeps rule now c) :
    Steady rule cache shared cache' (shared'.perform c now).2 where
  config := h.config
  hasShared := h.hasShared
  reach := (shared'.unreachable_perform_iff c now).trans h.reach
  untouched hu := (SharedMemory.perform_unreachable (h.reach.2 hu) c now).trans (h.untouched hu)
  within hw := SharedMemory.within_perform (h.within hw) hc
  near := h.near

/-- Changing the local tier in a way that keeps the rule. -/
theorem Steady.modifyNear (h : Steady rule cache shared cache' shared') (near : LocalCache)
    (hnear : (cache.hasShared = true → shared.Within rule) → cache.near.Within rule →
      near.Within rule) :
    Steady rule cache shared { cache' with near } shared' :=
  ⟨h.config, h.hasShared, h.reach, h.untouched, h.within, hnear⟩

/-! ## Reading -/

/-- What a look-up of a key finds. -/
def seen (c : TieredCache) (now : Moment) (shared : SharedMemory) (key : String) :
    Option String :=
  match c.near.lookup now key with
  | some text => some text
  | none =>
    if c.hasShared then
      match (shared.perform (.getWithTtl key) now).1 with
      | .ok (some (text, _)) => some text
      | _ => none
    else none

/-- A copy of what the shared cache holds does not outlive it. -/
theorem rule_of_copy (hrule : rule.Shortens) (hw : shared.Within rule)
    {remaining : Option Duration} {text : String}
    (hfound : (shared.perform (.getWithTtl key) now).1 = .ok (some (text, remaining)))
    (c : TieredCache) :
    rule key text (some (now.expiry (c.localTtl (remaining.getD c.config.localTtl)))) := by
  obtain ⟨deadline, hallowed, hlive, rfl⟩ := SharedMemory.rule_of_getWithTtl hw hfound
  -- The copy lives for the time that is left, or less if the local limit is shorter.
  refine hrule hallowed fun d hd => ?_
  have hlater := hlive d hd
  rw [Option.mem_def.1 hd, Option.map_some, Option.getD_some]
  simp only [Moment.lt_def, Moment.le_def, Moment.expiry, localTtl, Moment.nanos_after,
    Duration.nanos_min, Moment.nanos_timeTo] at hlater ⊢
  omega

/-- What the parts of a look-up of a key keep. -/
structure ReadAt (key : String) (now : Moment) (inv : TieredCache → SharedMemory → Prop) :
    Prop where
  stats : ∀ {c s}, inv c s → ∀ stats, inv { c with stats } s
  evict : ∀ {c s}, inv c s → inv { c with near := c.near.evict now key } s
  copy : ∀ {c s text remaining}, inv c s → c.hasShared = true →
    (s.perform (.getWithTtl key) now).1 = .ok (some (text, remaining)) →
    inv { c with near := c.near.set now key text (c.localTtl (remaining.getD c.config.localTtl)) } s
  ask : ∀ {c s}, inv c s → inv c (s.perform (.getWithTtl key) now).2

/-- What the parts of a look-up or a removal of a key keep. -/
structure KeptAt (key : String) (now : Moment) (inv : TieredCache → SharedMemory → Prop) : Prop
    extends ReadAt key now inv where
  delete : ∀ {c s}, inv c s → inv { c with near := c.near.delete key } s
  remove : ∀ {c s}, inv c s → inv c (s.perform (.delete key) now).2

variable {inv : TieredCache → SharedMemory → Prop}

theorem ends_getString (keeps : ReadAt key now inv) (h : inv cache shared)
    {post : Option String → TieredCache → SharedMemory → Prop}
    (next : ∀ c s, inv c s → post (cache.seen now shared key) c s) :
    Ends now (getString key) post cache shared := by
  have hevict := keeps.evict h
  unfold seen at next
  rw [ends_iff_finishes]
  refine finishes_getString (fun text stats hlookup => ?hit)
    (fun text remaining stats hlookup hshared hreply => ?copy)
    (fun stats hlookup hshared hnot => ?miss) fun stats hlookup hshared => ?alone
  case hit =>
    rw [hlookup] at next
    exact next _ _ (keeps.stats hevict stats)
  case copy =>
    have hanswer : (shared.perform (.getWithTtl key) now).1 = .ok (some (text, remaining)) := hreply
    rw [hlookup] at next
    dsimp only at next
    rw [if_pos hshared, hanswer] at next
    exact next _ _ (keeps.stats (keeps.ask (keeps.copy hevict hshared hreply)) stats)
  case miss =>
    rw [hlookup] at next
    dsimp only at next
    rw [if_pos hshared] at next
    have hasked := keeps.stats (keeps.ask hevict) stats
    rcases hreply : (shared.perform (.getWithTtl key) now).1 with e | _ | found
    · rw [hreply] at next
      exact next _ _ hasked
    · rw [hreply] at next
      exact next _ _ hasked
    · exact absurd hreply (hnot found)
  case alone =>
    rw [hlookup] at next
    dsimp only at next
    rw [if_neg (Bool.eq_false_iff.1 hshared)] at next
    exact next _ _ (keeps.stats hevict stats)

theorem ends_delete (keeps : KeptAt key now inv) (h : inv cache shared)
    {post : Except CacheError Unit → TieredCache → SharedMemory → Prop}
    (next : ∀ reply c s, inv c s → post reply c s) :
    Ends now (delete key) post cache shared := by
  have hdelete := keeps.delete h
  rw [ends_iff_finishes]
  refine finishes_delete fun reply stats => ?_
  split
  · exact next _ _ _ (keeps.remove (keeps.stats hdelete stats))
  · exact next _ _ _ (keeps.stats hdelete stats)

theorem ends_fetch (keeps : KeptAt key now inv) (h : inv cache shared) (kind : Kind)
    {post : Option kind.Content → TieredCache → SharedMemory → Prop}
    (next : ∀ c s, inv c s →
      post ((cache.seen now shared key).bind fun text => (Envelope.decode kind text).toOption)
        c s) :
    Ends now (fetch kind key) post cache shared := by
  rw [fetch, ends_bind]
  refine ends_getString keeps.toReadAt h fun c s hcs => ?_
  cases hseen : cache.seen now shared key with
  | none =>
    rw [hseen] at next
    exact next c s hcs
  | some text =>
    rw [hseen, Option.bind_some] at next
    dsimp only
    -- A text that is no value of the kind is removed, and counts as none.
    cases hdecode : Envelope.decode kind text with
    | ok value =>
      rw [hdecode] at next
      exact next c s hcs
    | error e =>
      rw [hdecode] at next
      dsimp only
      rw [ends_bind]
      exact ends_delete keeps hcs fun reply c' s' hcs' => next c' s' hcs'

theorem ends_contains (keeps : ReadAt key now inv) (h : inv cache shared)
    {post : Bool → TieredCache → SharedMemory → Prop}
    (next : ∀ c s, inv c s →
      post ((cache.near.lookup now key).isSome ||
        cache.hasShared && (shared.perform (.contains key) now).1.toOption.getD false) c s) :
    Ends now (contains key) post cache shared := by
  have hevict := keeps.evict h
  rw [ends_iff_finishes]
  refine finishes_contains (fun text hlookup => ?hit) (fun stats hlookup hshared => ?ask)
    fun hlookup hshared => ?alone
  case hit =>
    rw [hlookup] at next
    exact next _ _ hevict
  case ask =>
    rw [hlookup, hshared] at next
    have hasked : (SharedBackend.perform (.contains key) now shared).2 = (now, shared) :=
      congrArg (now, ·) (SharedMemory.perform_contains ..)
    rw [hasked]
    exact next _ _ (keeps.stats hevict stats)
  case alone =>
    rw [hlookup, hshared] at next
    exact next _ _ hevict

/-- What stays the same, the parts of a look-up or a removal keep. -/
theorem Steady.keptAt (hrule : rule.Shortens) (key : String) (now : Moment) (cache : TieredCache)
    (shared : SharedMemory) : KeptAt key now (Steady rule cache shared) where
  stats h stats := h.stats stats
  evict h := h.modifyNear _ fun hs hc => LocalCache.within_evict (h.near hs hc) now key
  delete h := h.modifyNear _ fun hs hc => LocalCache.within_delete (h.near hs hc) key
  copy h hshared hreply := h.modifyNear _ fun hs hc => LocalCache.within_set (h.near hs hc)
    (rule_of_copy hrule (h.within (hs (h.hasShared ▸ hshared))) hreply _)
  ask h := h.perform now (c := .getWithTtl key) trivial
  remove h := h.perform now (c := .delete key) trivial

/-- What stays the same under one key while another one is looked up, removed or set. -/
structure Aside (key : String) (now : Moment) (cache : TieredCache) (shared : SharedMemory)
    (cache' : TieredCache) (shared' : SharedMemory) : Prop where
  hasShared : cache'.hasShared = cache.hasShared
  near : cache'.near.lookup now key = cache.near.lookup now key
  shared : (shared'.perform (.getWithTtl key) now).1 = (shared.perform (.getWithTtl key) now).1

theorem Aside.keptAt {other : String} (hne : other ≠ key) (now : Moment) (cache : TieredCache)
    (shared : SharedMemory) : KeptAt key now (Aside other now cache shared) where
  stats h _ := ⟨h.hasShared, h.near, h.shared⟩
  evict h := ⟨h.hasShared, (LocalCache.lookup_evict _ (Nat.le_refl _) ..).trans h.near, h.shared⟩
  delete h := ⟨h.hasShared, by rw [LocalCache.lookup_delete, if_neg hne, h.near], h.shared⟩
  copy h _ _ := ⟨h.hasShared, by rw [LocalCache.lookup_set, if_neg hne, h.near], h.shared⟩
  ask h := ⟨h.hasShared, h.near,
    (SharedMemory.getWithTtl_perform_of_ne hne (Or.inl rfl) ..).trans h.shared⟩
  remove h := ⟨h.hasShared, h.near,
    (SharedMemory.getWithTtl_perform_of_ne hne (Or.inr (Or.inl rfl)) ..).trans h.shared⟩

theorem Aside.seen_eq (h : Aside key now cache shared cache' shared') :
    cache'.seen now shared' key = cache.seen now shared key := by
  simp only [seen, h.hasShared, h.near, h.shared]

/-! ## Writing -/

/-- Caching a text for no time is removing it; for some time, both tiers get it. -/
theorem ends_setString {ttl : Option Duration}
    {post : Except CacheError Unit → TieredCache → SharedMemory → Prop}
    (remove : (ttl.getD cache.config.defaultTtl).isZero = true →
      Ends now (delete key) post cache shared)
    (set : (ttl.getD cache.config.defaultTtl).isZero = false → ∀ stats,
      let near := cache.near.set now key value (cache.localTtl (ttl.getD cache.config.defaultTtl))
      let call := SharedCall.set key value (ttl.getD cache.config.defaultTtl)
      if cache.hasShared then
        post (shared.perform call now).1 { cache with near, stats } (shared.perform call now).2
      else post (.ok ()) { cache with near } shared) :
    Ends now (setString key value ttl) post cache shared :=
  ends_iff_finishes.2 (finishes_setString remove set)

/-- Setting a text keeps what a rule allows that allows the text. -/
theorem Steady.setString (hrule : rule.Shortens) (h : Steady rule cache shared cache' shared')
    {ttl : Option Duration}
    (hallowed : rule key value (some (now.expiry (ttl.getD cache'.config.defaultTtl)))) :
    Ends now (setString key value ttl) (fun _ c s => Steady rule cache shared c s) cache'
      shared' := by
  refine ends_setString (fun _ => ends_delete (Steady.keptAt hrule key now cache shared) h
    fun _ _ _ hcs => hcs) fun _ stats => ?_
  generalize ttl.getD cache'.config.defaultTtl = ttl at hallowed
  -- The local limit can only make the time shorter.
  have hlocal : rule key value (some (now.expiry (cache'.localTtl ttl))) := by
    refine hrule hallowed fun d hd => ?_
    rw [← Option.some.inj hd]
    simp only [Moment.le_def, Moment.expiry, localTtl, Moment.nanos_after, Duration.nanos_min]
    omega
  have hnear := h.modifyNear (cache'.near.set now key value (cache'.localTtl ttl))
    fun hs hc => LocalCache.within_set (h.near hs hc) hlocal
  dsimp only
  split
  · exact (hnear.stats stats).perform now (c := .set key value ttl) hallowed
  · exact hnear

/-- In a shared cache that answers, invalidating removes what a scan finds, and answers how many
keys that were. -/
theorem ends_invalidate (hshared : cache.hasShared = true) (hreach : ¬ shared.Unreachable)
    (pattern : String) {post : Except CacheError Nat → TieredCache → SharedMemory → Prop}
    (next :
      let removed := shared.removeMany now (shared.liveKeys now (Text.Glob.isMatch pattern))
      post (.ok removed.1) { cache with near := cache.near.clear } removed.2) :
    Ends now (invalidate pattern) post cache shared := by
  have hscan : shared.perform (.scan pattern) now =
      (.ok (shared.liveKeys now (Text.Glob.isMatch pattern)), shared) :=
    SharedMemory.perform_reachable hreach _ now
  rw [invalidate, ends_bind, ends_modifyNear, ends_bind, ends_get]
  dsimp only
  rw [if_pos hshared, ends_bind, ends_shared, hscan]
  cases hkeys : shared.liveKeys now (Text.Glob.isMatch pattern) with
  | nil =>
    rw [hkeys] at next
    exact next
  | cons first rest =>
    rw [hkeys] at next
    dsimp only
    rw [ends_shared, SharedMemory.perform_reachable hreach]
    exact next

theorem Steady.invalidate (h : Steady rule cache shared cache' shared') (pattern : String) :
    Ends now (invalidate pattern) (fun _ c s => Steady rule cache shared c s ∧
      c.near = cache'.near.clear) cache' shared' := by
  have hclear : Steady rule cache shared { cache' with near := cache'.near.clear } shared' :=
    h.modifyNear _ fun _ _ => LocalCache.within_clear cache'.near rule
  rw [TieredCache.invalidate, ends_bind, ends_modifyNear, ends_bind, ends_get]
  dsimp only
  split
  · rw [ends_bind, ends_shared]
    have hscan := hclear.perform now (c := .scan pattern) trivial
    cases (shared'.perform (.scan pattern) now).1 with
    | error e => exact ⟨hscan, rfl⟩
    | ok keys =>
      cases keys with
      | nil => exact ⟨hscan, rfl⟩
      | cons key keys => exact ⟨hscan.perform now (c := .deleteMany (key :: keys)) trivial, rfl⟩
  · exact ⟨hclear, rfl⟩

end

/-! ## Calls -/

section

variable {rule : EntryRule} {now : Moment} {cache : TieredCache} {shared : SharedMemory}

/-- Whether a rule allows what a call caches, for all the time that it is cached. -/
def Keeps (rule : EntryRule) (now : Moment) (config : CacheConfig) : CacheCall → Prop
  | .setString key value ttl => rule key value (some (now.expiry (ttl.getD config.defaultTtl)))
  | .store kind key value ttl =>
    rule key (Envelope.encode kind value) (some (now.expiry (ttl.getD config.defaultTtl)))
  | _ => True

theorem perform_clock (cache : TieredCache) (c : CacheCall) (now : Moment)
    (shared : SharedMemory) : (cache.perform c now shared).2.1 = now :=
  clock_run ((operation c).run cache) now shared

/-- A call changes neither settings nor reach, and keeps what the tiers may hold. -/
theorem perform_steady (hrule : rule.Shortens) {c : CacheCall}
    (hc : Keeps rule now cache.config c) :
    Steady rule cache shared (cache.perform c now shared).1.2
      (cache.perform c now shared).2.2 := by
  have h := Steady.refl rule cache shared
  have hends : Ends now (operation c) (fun _ c s => Steady rule cache shared c s) cache shared := by
    cases c with
    | getString key =>
      exact ends_getString (Steady.keptAt hrule key now cache shared).toReadAt h fun _ _ hcs => hcs
    | setString key value ttl => exact h.setString hrule hc
    | fetch kind key => exact ends_fetch (Steady.keptAt hrule ..) h kind fun _ _ hcs => hcs
    | store kind key value ttl => exact h.setString hrule hc
    | delete key => exact ends_delete (Steady.keptAt hrule ..) h fun _ _ _ hcs => hcs
    | contains key =>
      exact ends_contains (Steady.keptAt hrule key now cache shared).toReadAt h fun _ _ hcs => hcs
    | invalidate pattern => exact (h.invalidate pattern).1
  exact hends

/-- No call changes whether there is a shared cache and whether it refuses calls. -/
theorem perform_reach (cache : TieredCache) (c : CacheCall) (now : Moment)
    (shared : SharedMemory) :
    (cache.perform c now shared).1.2.hasShared = cache.hasShared ∧
      ((cache.perform c now shared).2.2.Unreachable ↔ shared.Unreachable) := by
  -- Reach does not depend on any rule, so the one that allows everything will do.
  have hkeeps : Keeps (fun _ _ _ => True) now cache.config c := by cases c <;> trivial
  have hsteady : Steady _ cache shared _ _ := perform_steady (fun _ _ _ _ _ _ => trivial) hkeeps
  exact ⟨hsteady.hasShared, hsteady.reach⟩

/-- No call changes the settings. -/
theorem perform_config (cache : TieredCache) (c : CacheCall) (now : Moment)
    (shared : SharedMemory) : (cache.perform c now shared).1.2.config = cache.config := by
  have hkeeps : Keeps (fun _ _ _ => True) now cache.config c := by cases c <;> trivial
  have hsteady : Steady _ cache shared _ _ := perform_steady (fun _ _ _ _ _ _ => trivial) hkeeps
  exact hsteady.config

/-- A call does nothing to a shared cache that refuses calls. -/
theorem perform_untouched (hrefuses : shared.Unreachable) (cache : TieredCache) (c : CacheCall)
    (now : Moment) : (cache.perform c now shared).2.2 = shared := by
  have hkeeps : Keeps (fun _ _ _ => True) now cache.config c := by cases c <;> trivial
  have hsteady : Steady _ cache shared _ _ := perform_steady (fun _ _ _ _ _ _ => trivial) hkeeps
  exact hsteady.untouched hrefuses

/-- Removing a key removes it from the local tier and, where there is one, from the shared tier. -/
theorem perform_delete (cache : TieredCache) (key : String) (now : Moment)
    (shared : SharedMemory) :
    (cache.perform (.delete key) now shared).1.2.near = cache.near.delete key ∧
      (cache.perform (.delete key) now shared).2.2 =
        if cache.hasShared then (shared.perform (.delete key) now).2 else shared := by
  have hends : Ends now (delete key) (fun _ c s => c.near = cache.near.delete key ∧
      s = if cache.hasShared then (shared.perform (.delete key) now).2 else shared)
      cache shared := by
    rw [delete, ends_bind, ends_modifyNear, ends_bind, ends_get]
    dsimp only
    split
    · rw [ends_bind]
      exact ends_counted _ fun stats => ⟨rfl, rfl⟩
    · exact ⟨rfl, rfl⟩
  exact hends

/-- Caching a value for some time sets it in the local tier, for no longer than the local limit,
and, where there is one, in the shared tier. -/
theorem perform_store (cache : TieredCache) (kind : Kind) (key : String) (value : kind.Content)
    {ttl : Duration} (hsome : ttl.isZero = false) (now : Moment) (shared : SharedMemory) :
    (cache.perform (.store kind key value (some ttl)) now shared).1.2.near =
        cache.near.set now key (Envelope.encode kind value) (cache.localTtl ttl) ∧
      (cache.perform (.store kind key value (some ttl)) now shared).2.2 =
        if cache.hasShared then
          (shared.perform (.set key (Envelope.encode kind value) ttl) now).2
        else shared := by
  have hends : Ends now (store kind key value (some ttl)) (fun _ c s =>
      c.near = cache.near.set now key (Envelope.encode kind value) (cache.localTtl ttl) ∧
      s = if cache.hasShared then
          (shared.perform (.set key (Envelope.encode kind value) ttl) now).2
        else shared) cache shared := by
    refine ends_setString (fun hzero => absurd hzero (by simp [hsome])) fun _ stats => ?_
    dsimp only
    split <;> exact ⟨rfl, rfl⟩
  exact hends

/-- Caching a value for no time is removing it. -/
theorem perform_store_zero (cache : TieredCache) (kind : Kind) (key : String)
    (value : kind.Content) {ttl : Duration} (hzero : ttl.isZero = true) (now : Moment)
    (shared : SharedMemory) :
    cache.perform (.store kind key value (some ttl)) now shared =
      cache.perform (.delete key) now shared := by
  have hoperation : (store kind key value (some ttl)).run cache = (delete key).run cache := by
    show (if ttl.isZero then delete key else _ : CacheM _).run cache = _
    rw [if_pos hzero]
  exact congrArg (fun p => Prog.run SharedBackend.answer p (now, shared)) hoperation

/-- A look-up finds what either tier shows. -/
theorem perform_getString (cache : TieredCache) (key : String) (now : Moment)
    (shared : SharedMemory) :
    (cache.perform (.getString key) now shared).1.1 = cache.seen now shared key := by
  have keeps : ReadAt key now fun _ _ => True := by
    refine ⟨?_, ?_, ?_, ?_⟩ <;> intros <;> trivial
  have hends : Ends now (getString key) (fun found _ _ => found = cache.seen now shared key)
      cache shared :=
    ends_getString keeps trivial fun _ _ _ => rfl
  exact hends

/-- A look-up finds what either tier shows, if it is a value of the kind. -/
theorem perform_fetch (cache : TieredCache) (kind : Kind) (key : String) (now : Moment)
    (shared : SharedMemory) :
    (cache.perform (.fetch kind key) now shared).1.1 =
      (cache.seen now shared key).bind fun text => (Envelope.decode kind text).toOption := by
  have keeps : KeptAt key now fun _ _ => True := by
    refine ⟨⟨?_, ?_, ?_, ?_⟩, ?_, ?_⟩ <;> intros <;> trivial
  have hends : Ends now (fetch kind key) (fun found _ _ => found =
      (cache.seen now shared key).bind fun text => (Envelope.decode kind text).toOption)
      cache shared :=
    ends_fetch keeps trivial kind fun _ _ _ => rfl
  exact hends

/-- A call about one key leaves what is seen under another one as it is, in both tiers. -/
theorem perform_aside {c : CacheCall} {other : String} (hreach : ¬ c.Reaches other)
    (hkey : ∀ pattern, c ≠ .invalidate pattern) (cache : TieredCache) (now : Moment)
    (shared : SharedMemory) :
    Aside other now cache shared (cache.perform c now shared).1.2
      (cache.perform c now shared).2.2 := by
  have hrefl : Aside other now cache shared cache shared := ⟨rfl, rfl, rfl⟩
  -- Setting a text goes on as removing it does, or sets it in both tiers.
  have hset : ∀ {key : String}, other ≠ key → ∀ value ttl,
      Ends now (setString key value ttl) (fun _ c s => Aside other now cache shared c s) cache
        shared := by
    intro key hne value ttl
    refine ends_setString (fun _ => ends_delete (Aside.keptAt hne now cache shared) hrefl
      fun _ _ _ haside => haside) fun _ stats => ?_
    have hnear := LocalCache.lookup_set cache.near now now key other value
      (cache.localTtl (ttl.getD cache.config.defaultTtl))
    rw [if_neg hne] at hnear
    dsimp only
    split
    · exact ⟨rfl, hnear, SharedMemory.getWithTtl_perform_of_ne hne (Or.inr (Or.inr ⟨_, _, rfl⟩)) ..⟩
    · exact ⟨rfl, hnear, rfl⟩
  have hends : Ends now (operation c) (fun _ c s => Aside other now cache shared c s) cache
      shared := by
    cases c with
    | getString key =>
      exact ends_getString (Aside.keptAt hreach now cache shared).toReadAt hrefl fun _ _ h => h
    | setString key value ttl => exact hset hreach value ttl
    | fetch kind key =>
      exact ends_fetch (Aside.keptAt hreach now cache shared) hrefl kind fun _ _ h => h
    | store kind key value ttl => exact hset hreach _ ttl
    | delete key =>
      exact ends_delete (Aside.keptAt hreach now cache shared) hrefl fun _ _ _ h => h
    | contains key =>
      exact ends_contains (Aside.keptAt hreach now cache shared).toReadAt hrefl fun _ _ h => h
    | invalidate pattern => exact absurd rfl (hkey pattern)
  exact hends

/-- Invalidating removes what a scan finds from a shared cache that answers; without one, nothing
happens there. -/
theorem perform_invalidate_shared (cache : TieredCache) (pattern : String) (now : Moment)
    (shared : SharedMemory) :
    (cache.perform (.invalidate pattern) now shared).2.2 =
      if cache.hasShared = true ∧ ¬ shared.Unreachable then
        (shared.removeMany now (shared.liveKeys now (Text.Glob.isMatch pattern))).2
      else shared := by
  split
  · next hanswers =>
    have hends : Ends now (invalidate pattern) (fun _ _ s => s =
        (shared.removeMany now (shared.liveKeys now (Text.Glob.isMatch pattern))).2)
        cache shared :=
      ends_invalidate hanswers.1 hanswers.2 pattern rfl
    exact hends
  · next hnot =>
    by_cases hshared : cache.hasShared = true
    · exact perform_untouched (Decidable.not_not.1 fun hu => hnot ⟨hshared, hu⟩) cache _ now
    · have hends : Ends now (invalidate pattern) (fun _ _ s => s = shared) cache shared := by
        rw [invalidate, ends_bind, ends_modifyNear, ends_bind, ends_get]
        dsimp only
        rw [if_neg hshared]
        exact rfl
      exact hends

/-- Invalidating empties the local tier, and leaves nothing live in a shared cache that answers
under a key that matches. -/
theorem perform_invalidate (cache : TieredCache) (pattern : String) (now : Moment)
    (shared : SharedMemory) :
    (cache.perform (.invalidate pattern) now shared).1.2.near = cache.near.clear ∧
      (cache.hasShared = true → ¬ shared.Unreachable → ∀ key e,
        Text.Glob.isMatch pattern key = true →
        (cache.perform (.invalidate pattern) now shared).2.2.entries.get? key = some e →
        e.live now = false) := by
  have hends : Ends now (invalidate pattern) _ cache shared :=
    (Steady.refl (fun _ _ _ => True) cache shared).invalidate pattern
  refine ⟨hends.2, fun hshared hreach key e hmatch he => ?_⟩
  rw [perform_invalidate_shared, if_pos ⟨hshared, hreach⟩] at he
  exact SharedMemory.live_of_removeMany he hmatch

/-- The parts of a look-up or a removal leave what is live under another key. -/
theorem keptAt_lookup {key other : String} (hne : other ≠ key) (now : Moment)
    (live : Option SharedEntry) :
    KeptAt key now fun _ s => s.lookup now other = live where
  stats h _ := h
  evict h := h
  copy h _ _ := h
  ask h := (SharedMemory.lookup_getWithTtl _ (Nat.le_refl _) ..).trans h
  delete h := h
  remove {_ s} h := by
    unfold SharedMemory.perform
    split
    · exact h
    split
    · exact h
    simp only [SharedMemory.answer, SharedMemory.lookup_remove, if_neg hne]
    exact h

theorem lookup_setString {key other : String} (hne : other ≠ key) (value : String)
    (ttl : Option Duration) :
    Ends now (setString key value ttl) (fun _ _ s => s.lookup now other = shared.lookup now other)
      cache shared := by
  refine ends_setString (fun _ => ends_delete (keptAt_lookup hne now _) rfl fun _ _ _ h => h)
    fun _ stats => ?_
  dsimp only
  split
  · unfold SharedMemory.perform
    split
    · rfl
    split
    · rfl
    simp only [SharedMemory.answer, SharedMemory.lookup_put, if_neg hne]
  · rfl

/-- What a call does not reach stays as it is in the shared cache, as far as it is live. -/
theorem lookup_perform (cache : TieredCache) {c : CacheCall} {other : String}
    (hreach : ¬ c.Reaches other) (now : Moment) (shared : SharedMemory) :
    (cache.perform c now shared).2.2.lookup now other = shared.lookup now other := by
  have hends : Ends now (operation c) (fun _ _ s => s.lookup now other = shared.lookup now other)
      cache shared := by
    cases c with
    | getString key =>
      exact ends_getString (keptAt_lookup hreach now _).toReadAt rfl fun _ _ h => h
    | setString key value ttl => exact lookup_setString hreach value ttl
    | fetch kind key => exact ends_fetch (keptAt_lookup hreach now _) rfl kind fun _ _ h => h
    | store kind key value ttl => exact lookup_setString hreach _ ttl
    | delete key => exact ends_delete (keptAt_lookup hreach now _) rfl fun _ _ _ h => h
    | contains key =>
      exact ends_contains (keptAt_lookup hreach now _).toReadAt rfl fun _ _ h => h
    | invalidate pattern =>
      -- What is removed are the keys that a scan finds, all of which match.
      have hshared := perform_invalidate_shared cache pattern now shared
      show (cache.perform (.invalidate pattern) now shared).2.2.lookup now other = _
      rw [hshared]
      split
      · rw [SharedMemory.lookup_removeMany, if_neg]
        exact fun hmem => hreach ((SharedMemory.mem_liveKeys_iff ..).1 hmem).2
      · rfl
  exact hends

/-- A cache without an entry of its own sees the texts that are live in a shared cache that
answers. -/
theorem seen_eq_some_iff {key text : String} (hnear : cache.near.lookup now key = none)
    (hreach : ¬ shared.Unreachable) :
    cache.seen now shared key = some text ↔
      cache.hasShared = true ∧ ∃ deadline, shared.lookup now key = some ⟨.text text, deadline⟩ := by
  rw [← SharedMemory.getWithTtl_eq_ok_iff hreach]
  unfold seen
  rw [hnear]
  dsimp only
  split
  · next hshared =>
    refine Iff.trans ?_ (and_iff_right hshared).symm
    split
    · next found remaining hreply =>
      rw [hreply]
      constructor
      · rintro heq
        exact ⟨remaining, by rw [Option.some.inj heq]⟩
      · rintro ⟨remaining', heq⟩
        cases heq
        rfl
    · next hnot =>
      constructor
      · intro heq
        cases heq
      · rintro ⟨remaining, heq⟩
        exact absurd heq (hnot text remaining)
  · next hshared =>
    constructor
    · intro heq
      cases heq
    · rintro ⟨hhas, -⟩
      exact absurd hhas hshared

/-- What has just been cached is found, or nothing is. -/
theorem seen_store (cache : TieredCache) (kind : Kind) (key : String)
    (value : kind.Content) {ttl : Duration} (hsome : ttl.isZero = false) (now : Moment)
    (shared : SharedMemory) {text : String}
    (hseen : (cache.perform (.store kind key value (some ttl)) now shared).1.2.seen now
      (cache.perform (.store kind key value (some ttl)) now shared).2.2 key = some text) :
    text = Envelope.encode kind value := by
  obtain ⟨hnear, hshared⟩ := cache.perform_store kind key value hsome now shared
  obtain ⟨hhas, -⟩ := cache.perform_reach (.store kind key value (some ttl)) now shared
  unfold seen at hseen
  rw [hnear, hshared, hhas, LocalCache.lookup_set, if_pos rfl] at hseen
  split at hseen
  · next found hfound =>
    split at hfound
    · exact (Option.some.inj hseen).symm.trans (Option.some.inj hfound).symm
    · cases hfound
  split at hseen
  · split at hseen
    · next found remaining hreply =>
      -- A shared cache that answers now has taken what was written.
      by_cases hreach : shared.Unreachable
      · rw [SharedMemory.perform_unreachable hreach] at hreply
        exact absurd hreply (SharedMemory.perform_getWithTtl_ne_ok hreach key _)
      · obtain ⟨deadline, hlookup⟩ := (SharedMemory.getWithTtl_eq_ok_iff
          (SharedMemory.reachable_perform hreach _ now)).1 ⟨remaining, hreply⟩
        rw [SharedMemory.perform_reachable hreach] at hlookup
        dsimp only [SharedMemory.answer] at hlookup
        rw [SharedMemory.lookup_put, if_pos rfl] at hlookup
        split at hlookup
        · obtain ⟨hvalue, -⟩ := SharedEntry.mk.inj (Option.some.inj hlookup)
          obtain rfl := Option.some.inj hseen
          exact (SharedValue.text.inj hvalue).symm
        · cases hlookup
    · cases hseen
  · cases hseen

/-- What is seen under a key, a rule allows, until a deadline that has not passed. -/
theorem rule_of_seen (hs : cache.hasShared = true → shared.Within rule)
    (hc : cache.near.Within rule) {key text : String}
    (hseen : cache.seen now shared key = some text) :
    ∃ deadline, rule key text deadline ∧ ∀ d ∈ deadline, now < d := by
  unfold seen at hseen
  -- Whichever tier shows the text holds it under the rule.
  split at hseen
  · next hlookup =>
    obtain rfl := Option.some.inj hseen
    obtain ⟨deadline, hallowed, hlive⟩ := LocalCache.rule_of_lookup hc hlookup
    exact ⟨some deadline, hallowed, fun d hd => Option.some.inj hd ▸ hlive⟩
  split at hseen
  · next hshared =>
    split at hseen
    · next hreply =>
      obtain rfl := Option.some.inj hseen
      obtain ⟨deadline, hallowed, hlive, -⟩ := SharedMemory.rule_of_getWithTtl (hs hshared) hreply
      exact ⟨deadline, hallowed, hlive⟩
    · cases hseen
  · cases hseen

end

end TieredCache

/-! ## Steps -/

/-- A cache, the shared cache it uses, and the time. -/
structure CacheState where
  cache : TieredCache
  now : Moment
  shared : SharedMemory

/-- What can happen around a cache. -/
inductive CacheStep where
  | call (c : CacheCall)
  | sweep
  | close
  | pass (d : Duration)

/-- A call with what it was answered. -/
abbrev Answered := (c : CacheCall) × c.Reply

namespace CacheState

/-- The state after a step. -/
def step (s : CacheState) : CacheStep → CacheState
  | .call c =>
    ⟨(s.cache.perform c s.now s.shared).1.2, (s.cache.perform c s.now s.shared).2.1,
      (s.cache.perform c s.now s.shared).2.2⟩
  | .sweep => { s with cache := { s.cache with near := s.cache.near.purge s.now } }
  | .close => { s with cache := s.cache.close }
  | .pass d => { s with now := s.now.after d }

/-- What the calls among some steps are answered. -/
def answers (s : CacheState) : List CacheStep → List Answered
  | [] => []
  | .call c :: steps =>
    ⟨c, (s.cache.perform c s.now s.shared).1.1⟩ :: (s.step (.call c)).answers steps
  | step :: steps => (s.step step).answers steps

end CacheState

end Bearer
