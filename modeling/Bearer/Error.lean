/-
  What can go wrong.

  Every failure is a cause, and each type of cause has one function to its
  words.  Failures of the authentication facade and of the caches are two
  types, because a cache failure never fails an authentication by itself.
-/
import Bearer.Sql.Fault
import Bearer.Time.Duration

namespace Bearer

/-- Why a store of record could not do what was asked. -/
inductive StorageFault where
  /-- The store is switched to fail. -/
  | injected
  /-- Another user's session holds the refresh token. -/
  | duplicateRefreshToken
  /-- A user of this name is already stored. -/
  | duplicateUsername (username : String)
  /-- The user name is already taken in the database. -/
  | usernameTaken (username : String)
  /-- A statement failed, or a row of its result could not be read. -/
  | statement (purpose : String) (fault : Sql.Fault)
  deriving DecidableEq, Repr

/-- The words for a storage fault. -/
def StorageFault.message : StorageFault → String
  | injected => "injected failure"
  | duplicateRefreshToken => "duplicate refresh token"
  | duplicateUsername username => "duplicate username " ++ username
  | usernameTaken username => "username " ++ username ++ " already taken"
  | statement purpose fault => purpose ++ ": " ++ fault.message

/-- A fault that is not the fault of the caller's credentials or of a store. -/
inductive InternalFault where
  | emptySigningKey
  | accessLifetimeZero
  | refreshLifetimeTooShort
  /-- A time plus this span lies past the end of the calendar. -/
  | lifetimeOutOfRange (span : Duration)
  | issuedTokenExpired
  /-- A stored password hash is no password hash. -/
  | invalidPasswordHash
  /-- A stored password hash names what cannot be computed. -/
  | unusablePasswordHash
  deriving DecidableEq, Repr

/-- The words for an internal fault. -/
def InternalFault.message : InternalFault → String
  | emptySigningKey => "empty signing key"
  | accessLifetimeZero => "access ttl must be positive"
  | refreshLifetimeTooShort => "refresh ttl must exceed access ttl"
  | lifetimeOutOfRange span => "ttl out of range: " ++ span.text
  | issuedTokenExpired => "issued refresh token already expired"
  | invalidPasswordHash => "invalid PHC hash"
  | unusablePasswordHash => "verify error"

/-- Why an authentication operation fails. -/
inductive AuthError where
  | authenticationFailed
  | userNotFound
  | sessionExpired
  | sessionNotFound
  | tokenInvalid
  | tokenMalformed
  | tokenExpired
  | tokenBlacklisted
  | persistence (fault : StorageFault)
  | internal (fault : InternalFault)
  deriving DecidableEq, Repr

/-- The words for an authentication error. -/
def AuthError.message : AuthError → String
  | authenticationFailed => "authentication failed"
  | userNotFound => "user not found"
  | sessionExpired => "session expired"
  | sessionNotFound => "session not found"
  | tokenInvalid => "token invalid"
  | tokenMalformed => "token malformed"
  | tokenExpired => "token expired"
  | tokenBlacklisted => "token blacklisted"
  | persistence fault => "persistence error: " ++ fault.message
  | internal fault => "internal error: " ++ fault.message

/-- Why the shared cache is not available for an operation. -/
inductive CacheFault where
  | offline
  /-- The key holds a value of another type. -/
  | wrongType (key : String)
  | notAnInteger
  /-- The server answered a command with an error, or with what the command does not answer. -/
  | command (name : String) (reason : String)
  deriving DecidableEq, Repr

/-- The words for a cache fault. -/
def CacheFault.message : CacheFault → String
  | offline => "memory cache offline"
  | wrongType key =>
    "WRONGTYPE operation against key " ++ key ++ " holding the wrong kind of value"
  | notAnInteger => "value is not an integer"
  | command name reason => name ++ ": " ++ reason

/-- Why a cached text is no value of the wanted kind. -/
inductive CodecFault where
  /-- The text is not the record that it should be. -/
  | malformed
  /-- The text holds a value of another kind or version. -/
  | mismatch (expected : String) (expectedVersion : Nat) (found : String) (foundVersion : Nat)
  deriving DecidableEq, Repr

/-- The words for a codec fault. -/
def CodecFault.message : CodecFault → String
  | malformed => "malformed value"
  | mismatch expected expectedVersion found foundVersion =>
    "expected " ++ expected ++ "/v" ++ Text.Decimal.natText expectedVersion ++ ", found " ++
      found ++ "/v" ++ Text.Decimal.natText foundVersion

/-- Why a cache operation fails. -/
inductive CacheError where
  | unavailable (fault : CacheFault)
  | timeout
  | codec (fault : CodecFault)
  deriving DecidableEq, Repr

/-- The words for a cache error. -/
def CacheError.message : CacheError → String
  | unavailable fault => "cache unavailable: " ++ fault.message
  | timeout => "cache operation timed out"
  | codec fault => "cache codec error: " ++ fault.message

end Bearer
