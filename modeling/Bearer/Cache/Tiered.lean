/-
  The cache in two tiers.

  A local cache in front of a shared one.  Reads look locally, then in the
  shared cache, and keep what they find there locally, for no longer than the
  local limit and than the shared cache will.  Writes go to both.  A shared
  cache that fails makes a read miss, but makes a write fail, because a caller
  must know that other processes may still see the old value.

  An operation is a program over the shared cache and the monotonic clock.
-/
import Bearer.Cache.Envelope
import Bearer.Cache.Local
import Bearer.Cache.Shared
import Bearer.Cache.Stats
import Bearer.Prog

namespace Bearer

/-- The settings of a two-tier cache. -/
structure CacheConfig where
  /-- The longest time that anything is kept locally. -/
  localTtl : Duration
  /-- How long a text is cached if the caller does not say. -/
  defaultTtl : Duration
  /-- The time between sweeps of the local cache. -/
  cleanupInterval : Duration
  /-- Whether the shared cache is used at all. -/
  sharedEnabled : Bool
  deriving DecidableEq, Repr

/-- The settings where nothing else is said. -/
def CacheConfig.default : CacheConfig where
  localTtl := .ofSeconds 60
  defaultTtl := .ofSeconds (30 * 60)
  cleanupInterval := .ofSeconds 30
  sharedEnabled := true

instance : Inhabited CacheConfig := ⟨.default⟩

/-- A cache in two tiers; the shared tier is only known to be there or not. -/
structure TieredCache where
  near : LocalCache
  hasShared : Bool
  config : CacheConfig
  stats : CacheStats
  deriving Inhabited

/-- What a cache operation asks: the time, or the shared cache. -/
inductive SharedRequest where
  | moment
  | shared (c : SharedCall)

/-- What is answered. -/
abbrev SharedRequest.Reply : SharedRequest → Type
  | moment => Moment
  | shared c => c.Reply

/-- An operation on a two-tier cache. -/
abbrev CacheM := StateT TieredCache (Prog SharedRequest SharedRequest.Reply)

namespace TieredCache

/-- The cache of some settings, before anything is cached. -/
def new (config : CacheConfig) (sharedGiven : Bool) : TieredCache where
  near := .empty
  hasShared := sharedGiven && config.sharedEnabled
  config := config
  stats := .zero

/-- The time for which something with this much left is kept locally. -/
def localTtl (c : TieredCache) (ttl : Duration) : Duration := min ttl c.config.localTtl

/-- The time of the monotonic clock. -/
def moment : CacheM Moment := StateT.lift (Prog.call SharedRequest.moment)

/-- Asks the shared cache. -/
def shared (c : SharedCall) : CacheM c.Reply := StateT.lift (Prog.call (SharedRequest.shared c))

/-- Updates the statistics. -/
def count (f : CacheStats → CacheStats) : CacheM Unit :=
  modify fun c => { c with stats := f c.stats }

/-- Updates the local tier. -/
def modifyNear (f : LocalCache → LocalCache) : CacheM Unit :=
  modify fun c => { c with near := f c.near }

/-- Looks up a key in the local tier. -/
def getNear (key : String) : CacheM (Option String) := do
  let now ← moment
  modifyGet fun c => ((c.near.get now key).1, { c with near := (c.near.get now key).2 })

/-- Caches a text in the local tier, for at most the local limit. -/
def setNear (key value : String) (ttl : Duration) : CacheM Unit := do
  let now ← moment
  modify fun c => { c with near := c.near.set now key value (c.localTtl ttl) }

/-- Asks the shared cache and counts a failure. -/
def counted (c : SharedCall) : CacheM c.Reply := do
  let reply ← shared c
  if let .error _ := reply then count .countSharedError
  return reply

/-- The text cached under a key. -/
def getString (key : String) : CacheM (Option String) := do
  match ← getNear key with
  | some value => do
    count .countLocalHit
    return some value
  | none =>
    if (← get).hasShared then
      match ← counted (.getWithTtl key) with
      | .ok (some (value, remaining)) => do
        count .countSharedHit
        let config := (← get).config
        -- The copy must not outlive the value in the shared cache.
        setNear key value (remaining.getD config.localTtl)
        return some value
      -- A shared cache that fails is a miss: the caller goes on to the record.
      | _ => do
        count .countMiss
        return none
    else do
      count .countMiss
      return none

/-- Removes a key from both tiers. -/
def delete (key : String) : CacheM (Except CacheError Unit) := do
  -- Locally first: this process must not see the value again, whatever the shared cache does.
  modifyNear fun near => near.delete key
  if (← get).hasShared then
    return (← counted (.delete key)).map fun _ => ()
  else return .ok ()

/-- Caches a text in both tiers; for no time at all means to remove it. -/
def setString (key value : String) (ttl : Option Duration) : CacheM (Except CacheError Unit) := do
  let ttl := ttl.getD (← get).config.defaultTtl
  if ttl.isZero then delete key
  else do
    setNear key value ttl
    if (← get).hasShared then counted (.set key value ttl)
    else return .ok ()

/-- The value of a kind cached under a key.  What does not hold one is removed. -/
def fetch (kind : Kind) (key : String) : CacheM (Option kind.Content) := do
  match ← getString key with
  | none => return none
  | some text =>
    match Envelope.decode kind text with
    | .ok value => return some value
    | .error _ => do
      -- Left in place, it would spoil every later read as well.
      let _ ← delete key
      return none

/-- Caches a value of a kind in both tiers. -/
def store (kind : Kind) (key : String) (value : kind.Content) (ttl : Option Duration) :
    CacheM (Except CacheError Unit) :=
  setString key (Envelope.encode kind value) ttl

/-- Whether a key is cached in either tier. -/
def contains (key : String) : CacheM Bool := do
  match ← getNear key with
  | some _ => return true
  | none =>
    if (← get).hasShared then
      match ← counted (.contains key) with
      | .ok found => return found
      | .error _ => return false
    else return false

/-- Removes everything from the local tier, which cannot be searched, and the keys that match a
pattern from the shared one.  Answers how many of those there were. -/
def invalidate (pattern : String) : CacheM (Except CacheError Nat) := do
  modifyNear LocalCache.clear
  if (← get).hasShared then
    match ← shared (.scan pattern) with
    | .error e => return .error e
    -- Nothing to delete needs no second call.
    | .ok [] => return .ok 0
    | .ok keys => shared (.deleteMany keys)
  else return .ok 0

/-- Closes the local tier. -/
def close (c : TieredCache) : TieredCache := { c with near := c.near.close }

end TieredCache

/-! ## Operations as calls -/

/-- A call to a two-tier cache. -/
inductive CacheCall where
  | getString (key : String)
  | setString (key value : String) (ttl : Option Duration)
  | fetch (kind : Kind) (key : String)
  | store (kind : Kind) (key : String) (value : kind.Content) (ttl : Option Duration)
  | delete (key : String)
  | contains (key : String)
  | invalidate (pattern : String)

/-- What a call answers. -/
abbrev CacheCall.Reply : CacheCall → Type
  | getString _ => Option String
  | setString .. | store .. | delete _ => Except CacheError Unit
  | fetch kind _ => Option kind.Content
  | contains _ => Bool
  | invalidate _ => Except CacheError Nat

/-- The operation that a call asks for. -/
def TieredCache.operation : (c : CacheCall) → CacheM c.Reply
  | .getString key => getString key
  | .setString key value ttl => setString key value ttl
  | .fetch kind key => fetch kind key
  | .store kind key value ttl => store kind key value ttl
  | .delete key => delete key
  | .contains key => contains key
  | .invalidate pattern => invalidate pattern

/-- Answers the requests of a cache operation from a clock and a backend. -/
def SharedBackend.answer {ρ : Type} [SharedBackend ρ] :
    (r : SharedRequest) → Moment × ρ → r.Reply × (Moment × ρ)
  | .moment, (now, shared) => (now, now, shared)
  | .shared c, (now, shared) => perform c now shared

/-- Runs a call against a clock and a backend of the shared cache. -/
def TieredCache.perform {ρ : Type} [SharedBackend ρ] (cache : TieredCache) (c : CacheCall)
    (now : Moment) (shared : ρ) : (c.Reply × TieredCache) × (Moment × ρ) :=
  ((operation c).run cache).run SharedBackend.answer (now, shared)

end Bearer
