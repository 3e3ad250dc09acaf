/-
  The settings of a token issuer.
-/
import Bearer.Error
import Bearer.Token.Claims

namespace Bearer

/-- Who issues tokens for whom, for how long, and with which key. -/
structure TokenConfig where
  issuer : String
  audience : String
  accessLifetime : Duration
  refreshLifetime : Duration
  signingKey : List UInt8
  deriving DecidableEq, Repr

namespace TokenConfig

/-- Why the settings make no sense, if they do not: there is a key, access tokens live for some
time, and refresh tokens live longer. -/
def validate (c : TokenConfig) : Except InternalFault Unit :=
  if c.signingKey = [] then .error .emptySigningKey
  else if c.accessLifetime.isZero then .error .accessLifetimeZero
  else if c.refreshLifetime ≤ c.accessLifetime then .error .refreshLifetimeTooShort
  else .ok ()

/-- How long a token of a kind lives. -/
def lifetime (c : TokenConfig) : TokenKind → Duration
  | .access => c.accessLifetime
  | .refresh => c.refreshLifetime

/-- The longest time that a token lives. -/
def longestLifetime (c : TokenConfig) : Duration := max c.accessLifetime c.refreshLifetime

end TokenConfig

end Bearer
