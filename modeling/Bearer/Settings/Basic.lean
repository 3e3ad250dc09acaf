/-
  The settings of the program.

  Six sections, each a group of fields by name or a list of them in order.
  What has no name here is ignored; a field that is missing has a default or
  makes the settings unreadable.
-/
import Bearer.Settings.Node

namespace Bearer

/-- Who issues tokens for whom, with which key, and how long they live. -/
structure AuthSettings where
  issuer : String
  audience : String
  signingKey : String
  accessSeconds : UInt64
  refreshSeconds : UInt64
  deriving DecidableEq, Repr

/-- How values are cached. -/
structure CacheSettings where
  localSeconds : UInt64
  defaultSeconds : UInt64
  /-- The time between sweeps; zero means one second. -/
  cleanupSeconds : UInt64
  /-- Whether the shared cache is used at all. -/
  sharedEnabled : Bool
  /-- How long an operation on the shared cache may take; zero means one millisecond. -/
  timeoutMillis : UInt64
  /-- What stands before every key in the shared cache. -/
  keySpace : String
  deriving DecidableEq, Repr

/-- Where the stores of record are. -/
structure StoreSettings where
  backend : String
  /-- The address of the database, if there is one. -/
  address : Option String
  /-- Whether missing tables are created. -/
  migrate : Bool
  deriving DecidableEq, Repr

/-- Where the shared cache is. -/
structure SharedSettings where
  backend : String
  /-- The address of the server, if there is one. -/
  address : Option String
  deriving DecidableEq, Repr

/-- The settings of the program. -/
structure Settings where
  auth : AuthSettings
  cache : CacheSettings
  store : StoreSettings
  shared : SharedSettings
  /-- The time between runs of the janitor; zero means one second. -/
  janitorSeconds : UInt64
  /-- Which events are logged. -/
  logFilter : String
  deriving DecidableEq, Repr

namespace Settings

/-! ## Reading -/

/-- The fields of a section. -/
inductive Fields where
  | named (members : List (String × Node))
  | listed (items : List Node)

namespace Fields

/-- The fields of a node, if it can be a section. -/
def of? : Node → Option Fields
  | .group ms => some (.named ms)
  | .list vs => some (.listed vs)
  | _ => none

/-- A field by its name, or by its place. -/
def get? (f : Fields) (place : Nat) (name : String) : Option Node :=
  match f with
  | named ms => Node.get? name ms
  | listed vs => vs[place]?

/-- A field that must be there. -/
def required {α : Type} (f : Fields) (place : Nat) (name : String) (read : Node → Option α) :
    Option α :=
  (f.get? place name).bind read

/-- A text that may be missing, though it has its place in a list. -/
def optionalText (f : Fields) (place : Nat) (name : String) : Option (Option String) :=
  match f, f.get? place name with
  | _, some v => v.optionalText?
  | named _, none => some none
  | listed _, none => none

/-- A field with a default. -/
def orDefault {α : Type} (f : Fields) (place : Nat) (name : String) (read : Node → Option α)
    (value : α) : Option α :=
  match f.get? place name with
  | some v => read v
  | none => some value

end Fields

/-- Reads the section on tokens. -/
def readAuth (f : Fields) : Option AuthSettings := do
  return {
    issuer := ← f.required 0 "issuer" Node.text?
    audience := ← f.required 1 "audience" Node.text?
    signingKey := ← f.required 2 "signing_key" Node.text?
    accessSeconds := ← f.required 3 "access_ttl_secs" Node.word?
    refreshSeconds := ← f.required 4 "refresh_ttl_secs" Node.word? }

/-- Reads the section on caching. -/
def readCache (f : Fields) : Option CacheSettings := do
  return {
    localSeconds := ← f.required 0 "local_ttl_secs" Node.word?
    defaultSeconds := ← f.required 1 "default_ttl_secs" Node.word?
    cleanupSeconds := ← f.required 2 "cleanup_interval_secs" Node.word?
    sharedEnabled := ← f.required 3 "l2_enabled" Node.bool?
    timeoutMillis := ← f.required 4 "op_timeout_ms" Node.word?
    keySpace := ← f.required 5 "key_prefix" Node.text? }

/-- Reads the section on the stores of record. -/
def readStore (f : Fields) : Option StoreSettings := do
  return {
    backend := ← f.required 0 "backend" Node.text?
    address := ← f.optionalText 1 "dsn"
    migrate := ← f.orDefault 2 "migrate" Node.bool? false }

/-- Reads the section on the shared cache. -/
def readShared (f : Fields) : Option SharedSettings := do
  return {
    backend := ← f.required 0 "backend" Node.text?
    address := ← f.optionalText 1 "dsn" }

/-- Reads settings from a tree. -/
def ofNode? (tree : Node) : Option Settings := do
  let fields (name : String) : Option Fields := (Node.get? name tree.members).bind Fields.of?
  return {
    auth := ← readAuth (← fields "auth")
    cache := ← readCache (← fields "cache")
    store := ← readStore (← fields "store")
    shared := ← readShared (← fields "redis")
    janitorSeconds := ← (← fields "janitor").required 0 "interval_secs" Node.word?
    logFilter := ← (← fields "log").required 0 "filter" Node.text? }

/-- Reads settings from a TOML document. -/
def read? (document : String) : Option Settings := do
  ofNode? (Node.ofDocument (← Toml.read? document))

end Settings

end Bearer
