/-
  The server.

  Wires the services to the backends that the settings name, and starts the
  janitor.  Backends are opened in a fixed order, the stores of record first,
  and the first that fails ends it.
-/
import Bearer.Fleet.Backends
import Bearer.Fleet.Basic
import Bearer.Settings.Config

namespace Bearer

/-- Why a server does not start. -/
inductive ServerFault where
  | config (fault : ConfigFault)
  | unknownStore (backend : String)
  | storeAddressMissing
  | storeUnreachable
  /-- The database does not answer a query. -/
  | storeSilent (fault : Sql.Fault)
  | schema (fault : Sql.Fault)
  | unknownShared (backend : String)
  | sharedAddressMissing
  /-- The address of the shared cache is none. -/
  | sharedAddressInvalid
  | sharedUnreachable
  /-- The server of the shared cache does not answer a greeting. -/
  | sharedSilent
  deriving DecidableEq, Repr

/-- The words for a fault. -/
def ServerFault.message : ServerFault → String
  | config fault => fault.message
  | unknownStore backend => "Unknown store backend: " ++ backend
  | storeAddressMissing => "store.dsn is required for the mysql backend"
  | storeUnreachable => "connect to mysql"
  | storeSilent fault => fault.message
  | schema _ => "apply mysql schema"
  | unknownShared backend => "Unknown redis backend: " ++ backend
  | sharedAddressMissing => "redis.dsn is required for the redis backend"
  | sharedAddressInvalid => "Redis URL did not parse"
  | sharedUnreachable => "connect to redis"
  | sharedSilent => "no answer to a greeting"

/-- The servers that can be reached. -/
structure Network where
  /-- Whether the database answers at an address. -/
  hasDatabase : String → Bool
  database : Sql.Peer
  /-- Whether the server of the shared cache answers at an address. -/
  hasShared : String → Bool
  shared : Redis.Peer

/-- The start of a server: what is sent stays sent, even if the start fails. -/
abbrev Startup := ExceptT ServerFault (StateM Network)

/-- A server is one instance with backends of its own. -/
abbrev Server := Fleet (Guarded Records) SharedStore 1

namespace Server

/-- Runs a query on the database. -/
def query {α : Type} (q : Sql.Query α) (fault : Sql.Fault → ServerFault) : Startup α := do
  let network ← get
  let (reply, database) := q.run network.database
  set { network with database }
  match reply with
  | .ok a => return a
  | .error e => throw (fault e)

/-- Opens the stores of record. -/
def openRecords (s : StoreSettings) : Startup Records := do
  let hasher := Hasher.argon2 Crypto.PasswordHash.defaultCost
  if s.backend = "memory" then return .memory (.empty hasher)
  else if s.backend = "mysql" then
    let some address := s.address | throw .storeAddressMissing
    if !(← get).hasDatabase address then throw .storeUnreachable
    -- A connection that answers no query is of no use.
    query Sql.greet .storeSilent
    if s.migrate then query Sql.migrate .schema
    return .database ⟨(← get).database, hasher, 0⟩
  else throw (.unknownStore s.backend)

/-- Whether a text can be the address of a server of the shared cache. -/
def isSharedAddress (address : String) : Bool :=
  ["redis://", "valkey://", "unix://", "redis+unix://", "valkey+unix://"].any fun scheme =>
    scheme.toList.isPrefixOf address.toList

/-- Opens the shared cache. -/
def openShared (s : Settings) : Startup SharedStore := do
  if s.shared.backend = "memory" then return .memory .empty
  else if s.shared.backend = "redis" then
    let some address := s.shared.address | throw .sharedAddressMissing
    if !(← get).hasShared address then
      throw (if isSharedAddress address then .sharedUnreachable else .sharedAddressInvalid)
    let network ← get
    let (answers, shared) := network.shared.ping
    set { network with shared }
    if !answers then throw .sharedSilent
    return .redis ⟨⟨s.cache.keySpace, s.sharedTimeout⟩, shared⟩
  else throw (.unknownShared s.shared.backend)

/-- Starts a server.  A signing key from elsewhere beats the one in the settings. -/
def start (wall : Instant) (clock : Moment) (ids : IdSupply) (s : Settings)
    (signingKey : Option String) : Startup Server := do
  -- Settings that make no sense are found before anything is opened.
  let tokens ← ((s.tokenConfig signingKey).mapError .config : Except ServerFault TokenConfig)
  let config ← (s.cacheConfig.mapError .config : Except ServerFault CacheConfig)
  let origin ← openRecords s.store
  let shared ← openShared s
  let server : Server := {
    wall, clock, ids, minted := 0, origin := .working origin, shared
    instances := #v[.new clock config true true ⟨tokens, true⟩]
    janitors := [] }
  return server.startJanitor 0 s.janitorInterval

end Server

/-- Stops the janitors, closes the local caches, and closes the pool of connections to the
database. -/
def Fleet.shutdown {n : Nat} (f : Fleet (Guarded Records) SharedStore n) :
    Fleet (Guarded Records) SharedStore n :=
  let inner := match f.origin.inner with
    | .database d => Records.database { d with peer := { d.peer with closed := true } }
    | .memory m => .memory m
  { f.stopJanitors with
    origin := { f.origin with inner }
    instances := f.instances.map fun i => { i with cache := i.cache.close } }

end Bearer
