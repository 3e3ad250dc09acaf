/-
  Operations of a cache over any backend.

  How an operation on one key can end is said here once, of whatever answers for
  the shared cache and however long that takes; what is known of one backend is
  put in where it is used.  The local tier only comes to hold a text that an
  operation is given or that the shared cache answers to a look-up.  So an
  operation on one key lets every rule about the local entries of other keys
  hold, and removing or counting lets every rule hold.

  Main statements: `finishes_getString`, `finishes_delete`, `finishes_fetch`,
  `finishes_contains`, `finishes_setString` and `within_perform_of_frees`.
-/
import Bearer.Cache.Tiered
import Bearer.Proofs.Cache.Tiers

namespace Bearer

/-- The key under which a call may bring a text into the local tier. -/
def CacheCall.brings? : CacheCall → Option String
  | getString key | setString key .. | fetch _ key | store _ key .. => some key
  | delete _ | contains _ | invalidate _ => none

namespace TieredCache

variable {ρ : Type} [SharedBackend ρ] {state : Moment × ρ}
variable {α β : Type} {cache : TieredCache}

/-- Whether an operation over a backend ends as `post` says. -/
def Finishes (m : CacheM α) (post : α → TieredCache → Moment × ρ → Prop) (cache : TieredCache)
    (state : Moment × ρ) : Prop :=
  post ((m.run cache).run SharedBackend.answer state).1.1
    ((m.run cache).run SharedBackend.answer state).1.2
    ((m.run cache).run SharedBackend.answer state).2

/-! ## Rules -/

theorem finishes_bind (m : CacheM α) (f : α → CacheM β)
    {post : β → TieredCache → Moment × ρ → Prop} :
    Finishes (m >>= f) post cache state ↔
      Finishes m (fun a c s => Finishes (f a) post c s) cache state := by
  have hrun : ((m >>= f).run cache).run SharedBackend.answer state =
      ((f ((m.run cache).run SharedBackend.answer state).1.1).run
        ((m.run cache).run SharedBackend.answer state).1.2).run SharedBackend.answer
        ((m.run cache).run SharedBackend.answer state).2 := Prog.run_bind ..
  unfold Finishes
  rw [hrun]

theorem Finishes.mono {m : CacheM α} {post post' : α → TieredCache → Moment × ρ → Prop}
    (h : Finishes m post cache state) (hpost : ∀ a c s, post a c s → post' a c s) :
    Finishes m post' cache state :=
  hpost _ _ _ h

theorem finishes_get {post : TieredCache → TieredCache → Moment × ρ → Prop} :
    Finishes get post cache state ↔ post cache cache state := Iff.rfl

theorem finishes_count (f : CacheStats → CacheStats)
    {post : Unit → TieredCache → Moment × ρ → Prop} :
    Finishes (count f) post cache state ↔ post () { cache with stats := f cache.stats } state :=
  Iff.rfl

theorem finishes_modifyNear (f : LocalCache → LocalCache)
    {post : Unit → TieredCache → Moment × ρ → Prop} :
    Finishes (modifyNear f) post cache state ↔
      post () { cache with near := f cache.near } state := Iff.rfl

theorem finishes_getNear (key : String) {post : Option String → TieredCache → Moment × ρ → Prop} :
    Finishes (getNear key) post cache state ↔
      post (cache.near.lookup state.1 key)
        { cache with near := cache.near.evict state.1 key } state := Iff.rfl

theorem finishes_setNear (key value : String) (ttl : Duration)
    {post : Unit → TieredCache → Moment × ρ → Prop} :
    Finishes (setNear key value ttl) post cache state ↔
      post () { cache with near := cache.near.set state.1 key value (cache.localTtl ttl) } state :=
  Iff.rfl

theorem finishes_shared (c : SharedCall) {post : c.Reply → TieredCache → Moment × ρ → Prop} :
    Finishes (shared c) post cache state ↔
      post (SharedBackend.perform c state.1 state.2).1 cache
        (SharedBackend.perform c state.1 state.2).2 := Iff.rfl

theorem finishes_counted (c : SharedCall) {post : c.Reply → TieredCache → Moment × ρ → Prop}
    (next : ∀ stats, post (SharedBackend.perform c state.1 state.2).1 { cache with stats }
      (SharedBackend.perform c state.1 state.2).2) :
    Finishes (counted c) post cache state := by
  rw [counted, finishes_bind, finishes_shared]
  cases hreply : (SharedBackend.perform c state.1 state.2).1 with
  | ok answer =>
    rw [hreply] at next
    exact next cache.stats
  | error e =>
    rw [hreply] at next
    dsimp only
    rw [finishes_bind, finishes_count]
    exact next _

/-! ## Operations -/

variable {rule : EntryRule} {key value pattern : String}

/-- A look-up finds what the local tier shows.  If that shows nothing, it finds what the shared
cache answers, which is copied for as long as it may be kept; it finds nothing if the shared cache
answers no text, or is not there. -/
theorem finishes_getString {post : Option String → TieredCache → Moment × ρ → Prop}
    (hit : ∀ text stats, cache.near.lookup state.1 key = some text →
      post (some text) { cache with near := cache.near.evict state.1 key, stats } state)
    (copy : ∀ text remaining stats, cache.near.lookup state.1 key = none →
      cache.hasShared = true →
      (SharedBackend.perform (.getWithTtl key) state.1 state.2).1 = .ok (some (text, remaining)) →
      post (some text)
        { cache with
          near := (cache.near.evict state.1 key).set
            (SharedBackend.perform (.getWithTtl key) state.1 state.2).2.1 key text
            (cache.localTtl (remaining.getD cache.config.localTtl))
          stats }
        (SharedBackend.perform (.getWithTtl key) state.1 state.2).2)
    (miss : ∀ stats, cache.near.lookup state.1 key = none → cache.hasShared = true →
      (∀ found, (SharedBackend.perform (.getWithTtl key) state.1 state.2).1 ≠ .ok (some found)) →
      post none { cache with near := cache.near.evict state.1 key, stats }
        (SharedBackend.perform (.getWithTtl key) state.1 state.2).2)
    (alone : ∀ stats, cache.near.lookup state.1 key = none → cache.hasShared = false →
      post none { cache with near := cache.near.evict state.1 key, stats } state) :
    Finishes (getString key) post cache state := by
  rw [getString, finishes_bind, finishes_getNear]
  cases hlookup : cache.near.lookup state.1 key with
  | some text =>
    dsimp only
    rw [finishes_bind, finishes_count]
    exact hit text _ hlookup
  | none =>
    dsimp only
    rw [finishes_bind, finishes_get]
    dsimp only
    split
    · next hshared =>
      rw [finishes_bind]
      refine finishes_counted _ fun stats => ?_
      rcases hreply : (SharedBackend.perform (.getWithTtl key) state.1 state.2).1 with
        e | _ | ⟨text, remaining⟩
      · dsimp only
        rw [finishes_bind, finishes_count]
        refine miss _ hlookup hshared fun found hfound => ?_
        rw [hreply] at hfound
        cases hfound
      · dsimp only
        rw [finishes_bind, finishes_count]
        refine miss _ hlookup hshared fun found hfound => ?_
        rw [hreply] at hfound
        cases hfound
      · dsimp only
        rw [finishes_bind, finishes_count, finishes_bind, finishes_get, finishes_bind,
          finishes_setNear]
        exact copy text remaining _ hlookup hshared hreply
    · next hshared =>
      rw [finishes_bind, finishes_count]
      exact alone _ hlookup (Bool.not_eq_true _ ▸ hshared)

/-- A removal is one from the local tier, and then from the shared cache if that is there. -/
theorem finishes_delete {post : Except CacheError Unit → TieredCache → Moment × ρ → Prop}
    (next : ∀ reply stats,
      if cache.hasShared then
        post reply { cache with near := cache.near.delete key, stats }
          (SharedBackend.perform (.delete key) state.1 state.2).2
      else post reply { cache with near := cache.near.delete key, stats } state) :
    Finishes (delete key) post cache state := by
  rw [delete, finishes_bind, finishes_modifyNear, finishes_bind, finishes_get]
  dsimp only
  split
  · next hshared =>
    simp only [if_pos hshared] at next
    rw [finishes_bind]
    exact finishes_counted _ fun stats => next _ stats
  · next hshared =>
    simp only [if_neg hshared] at next
    exact next _ cache.stats

/-- A look-up of a value is one of a text, which is removed if it is no value of the kind. -/
theorem finishes_fetch (kind : Kind)
    {post : Option kind.Content → TieredCache → Moment × ρ → Prop}
    (looked : Finishes (getString key) (fun found c s =>
      match found with
      | none => post none c s
      | some text =>
        match Envelope.decode kind text with
        | .ok value => post (some value) c s
        | .error _ => Finishes (delete key) (fun _ => post none) c s) cache state) :
    Finishes (fetch kind key) post cache state := by
  rw [fetch, finishes_bind]
  refine looked.mono fun found c s hfound => ?_
  cases found with
  | none => exact hfound
  | some text =>
    dsimp only at hfound ⊢
    cases hdecode : Envelope.decode kind text with
    | ok value =>
      rw [hdecode] at hfound
      exact hfound
    | error e =>
      rw [hdecode] at hfound
      dsimp only at hfound ⊢
      rw [finishes_bind]
      exact hfound

/-- A key is cached if the local tier shows it or else the shared cache answers that it is there;
the shared cache is not asked for more. -/
theorem finishes_contains {post : Bool → TieredCache → Moment × ρ → Prop}
    (hit : ∀ text, cache.near.lookup state.1 key = some text →
      post true { cache with near := cache.near.evict state.1 key } state)
    (ask : ∀ stats, cache.near.lookup state.1 key = none → cache.hasShared = true →
      post ((SharedBackend.perform (.contains key) state.1 state.2).1.toOption.getD false)
        { cache with near := cache.near.evict state.1 key, stats }
        (SharedBackend.perform (.contains key) state.1 state.2).2)
    (alone : cache.near.lookup state.1 key = none → cache.hasShared = false →
      post false { cache with near := cache.near.evict state.1 key } state) :
    Finishes (contains key) post cache state := by
  rw [contains, finishes_bind, finishes_getNear]
  cases hlookup : cache.near.lookup state.1 key with
  | some text => exact hit text hlookup
  | none =>
    dsimp only
    rw [finishes_bind, finishes_get]
    dsimp only
    split
    · next hshared =>
      rw [finishes_bind]
      refine finishes_counted _ fun stats => ?_
      have hask := ask stats hlookup hshared
      cases hreply : (SharedBackend.perform (.contains key) state.1 state.2).1 with
      | ok found =>
        rw [hreply] at hask
        exact hask
      | error e =>
        rw [hreply] at hask
        exact hask
    · next hshared => exact alone hlookup (Bool.not_eq_true _ ▸ hshared)

/-- Caching a text for no time is removing it; for some time, both tiers get it. -/
theorem finishes_setString {ttl : Option Duration}
    {post : Except CacheError Unit → TieredCache → Moment × ρ → Prop}
    (remove : (ttl.getD cache.config.defaultTtl).isZero = true →
      Finishes (delete key) post cache state)
    (set : (ttl.getD cache.config.defaultTtl).isZero = false → ∀ stats,
      let near := cache.near.set state.1 key value
        (cache.localTtl (ttl.getD cache.config.defaultTtl))
      let asked := SharedBackend.perform
        (.set key value (ttl.getD cache.config.defaultTtl)) state.1 state.2
      if cache.hasShared then post asked.1 { cache with near, stats } asked.2
      else post (.ok ()) { cache with near } state) :
    Finishes (setString key value ttl) post cache state := by
  rw [setString, finishes_bind, finishes_get]
  dsimp only at set ⊢
  split
  · next hzero => exact remove hzero
  · next hzero =>
    have set := set (Bool.not_eq_true _ ▸ hzero)
    rw [finishes_bind, finishes_setNear, finishes_bind, finishes_get]
    dsimp only
    split
    · next hshared =>
      simp only [if_pos hshared] at set
      exact finishes_counted _ set
    · next hshared =>
      simp only [if_neg hshared] at set
      exact set cache.stats

/-! ## Rules about the local tier -/

/-- Whether a rule allows everything under a key. -/
def Frees (rule : EntryRule) (key : String) : Prop := ∀ text deadline, rule key text deadline

theorem within_getString (hfree : Frees rule key) (h : cache.near.Within rule) :
    Finishes (getString key) (fun _ c _ => c.near.Within rule) cache state := by
  have hevict := LocalCache.within_evict h state.1 key
  refine finishes_getString (fun _ _ _ => hevict) (fun text remaining stats _ _ _ => ?_)
    (fun _ _ _ _ => hevict) fun _ _ _ => hevict
  exact LocalCache.within_set hevict (hfree _ _)

theorem within_delete (h : cache.near.Within rule) :
    Finishes (delete key) (fun _ c _ => c.near.Within rule) cache state := by
  have hdelete := LocalCache.within_delete h key
  refine finishes_delete fun _ _ => ?_
  split
  · exact hdelete
  · exact hdelete

theorem within_fetch (kind : Kind) (hfree : Frees rule key) (h : cache.near.Within rule) :
    Finishes (fetch kind key) (fun _ c _ => c.near.Within rule) cache state := by
  refine finishes_fetch kind ((within_getString hfree h).mono fun found c s hc => ?_)
  cases found with
  | none => exact hc
  | some text =>
    dsimp only
    cases Envelope.decode kind text with
    | ok value => exact hc
    | error e => exact within_delete hc

theorem within_setString (hfree : Frees rule key) (h : cache.near.Within rule)
    (ttl : Option Duration) :
    Finishes (setString key value ttl) (fun _ c _ => c.near.Within rule) cache state := by
  refine finishes_setString (fun _ => within_delete h) fun _ _ => ?_
  have hset : (cache.near.set state.1 key value
      (cache.localTtl (ttl.getD cache.config.defaultTtl))).Within rule :=
    LocalCache.within_set h (hfree value _)
  dsimp only
  split
  · exact hset
  · exact hset

theorem within_contains (h : cache.near.Within rule) :
    Finishes (contains key) (fun _ c _ => c.near.Within rule) cache state := by
  have hevict := LocalCache.within_evict h state.1 key
  exact finishes_contains (fun _ _ => hevict) (fun _ _ _ => hevict) fun _ _ => hevict

theorem within_invalidate :
    Finishes (invalidate pattern) (fun _ c _ => c.near.Within rule) cache state := by
  have hclear := LocalCache.within_clear cache.near rule
  rw [invalidate, finishes_bind, finishes_modifyNear, finishes_bind, finishes_get]
  dsimp only
  split
  · rw [finishes_bind, finishes_shared]
    rcases (SharedBackend.perform (.scan pattern) state.1 state.2).1 with e | keys
    · exact hclear
    cases keys with
    | nil => exact hclear
    | cons first rest => exact hclear
  · exact hclear

/-- A call lets a rule about the local tier hold that allows whatever the call may bring in. -/
theorem within_perform_of_frees {c : CacheCall}
    (hfree : ∀ key, c.brings? = some key → Frees rule key) (h : cache.near.Within rule)
    (now : Moment) (shared : ρ) : (cache.perform c now shared).1.2.near.Within rule := by
  have hwithin : Finishes (operation c) (fun _ c _ => c.near.Within rule) cache (now, shared) := by
    cases c with
    | getString key => exact within_getString (hfree key rfl) h
    | setString key value ttl => exact within_setString (hfree key rfl) h ttl
    | fetch kind key => exact within_fetch kind (hfree key rfl) h
    | store kind key value ttl => exact within_setString (hfree key rfl) h ttl
    | delete key => exact within_delete h
    | contains key => exact within_contains h
    | invalidate pattern => exact within_invalidate
  exact hwithin

end TieredCache

end Bearer
