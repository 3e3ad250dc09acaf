/-
  Claims and token pairs.

  A token states who it was issued to, its own id, what it is good for and
  when it was issued and expires.  Tokens are issued in pairs: an access token
  for requests, and a refresh token that buys the next pair.
-/
import Bearer.User

namespace Bearer

/-- What a token is good for. -/
inductive TokenKind where
  | access
  | refresh
  deriving DecidableEq, Repr

/-- The name of a kind. -/
def TokenKind.name : TokenKind → String
  | access => "access"
  | refresh => "refresh"

/-- The kind of a name. -/
def TokenKind.ofName? : String → Option TokenKind
  | "access" => some access
  | "refresh" => some refresh
  | _ => none

theorem TokenKind.ofName?_name (k : TokenKind) : ofName? k.name = some k := by cases k <;> rfl

/-- What an accepted token states. -/
structure Claims where
  user : UserId
  username : String
  tokenId : String
  kind : TokenKind
  issuedAt : Instant
  expiresAt : Instant
  deriving DecidableEq, Repr

/-- An access token and a refresh token issued together, each with its expiry. -/
structure TokenPair where
  access : String
  refresh : String
  accessExpiresAt : Instant
  refreshExpiresAt : Instant
  deriving DecidableEq, Repr

end Bearer
