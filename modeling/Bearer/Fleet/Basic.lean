/-
  A fleet of instances.

  Instances of the program share the stores of record and the shared cache, and
  each has a cache of its own and an issuer that remembers revocations.  The
  fleet answers the requests of the services of any instance; running a service
  is running its program against these answers.
-/
import Bearer.Fleet.Timer
import Bearer.Service.Auth
import Bearer.Service.Janitor
import Bearer.Store.Origin
import Bearer.Token.Id
import Bearer.Token.Revoked

namespace Bearer

/-- One instance of the program. -/
structure Instance where
  cache : TieredCache
  issuer : Issuer
  revoked : RevokedTokens
  /-- The timer of the sweep of the local cache, if there is one. -/
  sweep : Option Timer

/-- Instances that share clocks, stores of record and a shared cache. -/
structure Fleet (σ ρ : Type) (n : Nat) where
  /-- The wall clock. -/
  wall : Instant
  /-- The monotonic clock. -/
  clock : Moment
  /-- Where token ids come from. -/
  ids : IdSupply
  /-- The number of token ids drawn. -/
  minted : Nat
  origin : σ
  shared : ρ
  instances : Vector Instance n
  /-- The janitors that run by themselves, each with the instance whose services it uses. -/
  janitors : List (Fin n × Timer)

namespace Instance

/-- An instance that has not done anything; with sweeps, the first is due one interval from now. -/
def new (now : Moment) (config : CacheConfig) (sharedGiven sweeps : Bool) (issuer : Issuer) :
    Instance where
  cache := .new config sharedGiven
  issuer := issuer
  revoked := .empty
  sweep := if sweeps then some (.start now (max config.cleanupInterval shortestSweep)) else none

/-- The instance after a sweep, if one is due; a closed cache is not swept any more. -/
def sweepIfDue (i : Instance) (now : Moment) : Instance :=
  match i.sweep with
  | some timer =>
    if i.cache.near.closed then { i with sweep := none }
    else if timer.isDue now then
      { i with
        cache := { i.cache with near := i.cache.near.purge now }
        sweep := some (timer.keepRhythm now) }
    else i
  | none => i

end Instance

namespace Fleet

variable {σ ρ : Type} {n : Nat} [Origin σ] [SharedBackend ρ]

/-- Updates one instance. -/
def modifyInstance (f : Fleet σ ρ n) (i : Fin n) (g : Instance → Instance) : Fleet σ ρ n :=
  { f with instances := f.instances.set i (g f.instances[i]) }

/-- Answers one request of a service of an instance. -/
def answer (i : Fin n) : (r : Request) → Fleet σ ρ n → r.Reply × Fleet σ ρ n
  | .now, f => (f.wall, f)
  | .freshTokenId, f => (f.ids.id (f.minted + 1), { f with minted := f.minted + 1 })
  | .session c, f =>
    let (reply, origin) := Origin.session c f.wall f.origin
    (reply, { f with origin })
  | .revocation c, f =>
    let (reply, origin) := Origin.revocation c f.wall f.origin
    (reply, { f with origin })
  | .user c, f =>
    let (reply, origin) := Origin.user c f.wall f.origin
    (reply, { f with origin })
  | .cache c, f =>
    let ((reply, cache), (clock, shared)) := f.instances[i].cache.perform c f.clock f.shared
    (reply, { f with clock, shared }.modifyInstance i fun x => { x with cache })
  | .isRemembered tokenId, f => (f.instances[i].revoked.contains f.wall tokenId, f)
  | .remember tokenId expiresAt, f =>
    ((), f.modifyInstance i fun x =>
      { x with revoked := x.revoked.remember f.wall tokenId expiresAt })

/-- Runs a service of an instance from beginning to end. -/
def perform {α : Type} (i : Fin n) (s : Service α) (f : Fleet σ ρ n) :
    Except AuthError α × Fleet σ ρ n :=
  Prog.run (answer i) s.run f

/-- Makes a call to the shared cache directly. -/
def callShared (c : SharedCall) (f : Fleet σ ρ n) : c.Reply × Fleet σ ρ n :=
  let (reply, clock, shared) := SharedBackend.perform c f.clock f.shared
  (reply, { f with clock, shared })

/-- Sweeps the local caches whose sweep is due. -/
def sweepAll (f : Fleet σ ρ n) : Fleet σ ρ n :=
  { f with instances := f.instances.map fun x => x.sweepIfDue f.clock }

/-- Starts a janitor that uses the services of an instance. -/
def startJanitor (i : Fin n) (interval : Duration) (f : Fleet σ ρ n) : Fleet σ ρ n :=
  { f with janitors := f.janitors ++ [(i, .start f.clock interval)] }

/-- Stops all janitors. -/
def stopJanitors (f : Fleet σ ρ n) : Fleet σ ρ n := { f with janitors := [] }

/-- Runs a janitor if it is due; its errors are lost. -/
def runJanitor (f : Fleet σ ρ n) (janitor : Fin n × Timer) : Fleet σ ρ n :=
  if janitor.2.isDue f.clock then
    let f := (f.perform janitor.1 Janitor.tick).2
    { f with janitors := f.janitors ++ [(janitor.1, janitor.2.rest f.clock)] }
  else { f with janitors := f.janitors ++ [janitor] }

/-- Runs the janitors that are due, in the order in which they were started. -/
def runJanitors (f : Fleet σ ρ n) : Fleet σ ρ n :=
  -- Each is put back once it has had its turn, so that none has two.
  f.janitors.foldl runJanitor f.stopJanitors

/-- Moves both clocks forward, and then does what is due: each sweep and each janitor at most
once. -/
def advance? (f : Fleet σ ρ n) (span : Duration) : Option (Fleet σ ρ n) :=
  (f.wall.deadline? span).map fun wall =>
    { f with wall, clock := f.clock.after span }.sweepAll.runJanitors

/-- Sets the wall clock, forward or back. -/
def setWall (f : Fleet σ ρ n) (wall : Instant) : Fleet σ ρ n := { f with wall }

end Fleet

end Bearer
