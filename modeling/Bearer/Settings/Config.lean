/-
  What the parts of the program make of the settings.

  Intervals and timeouts of zero are too short to be meant and become the
  shortest that makes sense; lifetimes of zero are faults.
-/
import Bearer.Cache.Tiered
import Bearer.Settings.Basic
import Bearer.Text.Utf8
import Bearer.Token.Config

namespace Bearer

/-- Why settings that can be read make no sense. -/
inductive ConfigFault where
  | auth (fault : InternalFault)
  | cacheLifetimeZero
  deriving DecidableEq, Repr

/-- The words for a fault of the settings. -/
def ConfigFault.message : ConfigFault → String
  | auth fault => "invalid auth settings: " ++ (AuthError.internal fault).message
  | cacheLifetimeZero => "cache ttls must be positive"

namespace Settings

/-- The settings of the token issuer.  A signing key from elsewhere beats the one in the
settings. -/
def tokenConfig (s : Settings) (signingKey : Option String) : Except ConfigFault TokenConfig := do
  let config : TokenConfig := {
    issuer := s.auth.issuer
    audience := s.auth.audience
    accessLifetime := .ofSeconds s.auth.accessSeconds.toNat
    refreshLifetime := .ofSeconds s.auth.refreshSeconds.toNat
    signingKey := Text.Utf8.bytes (signingKey.getD s.auth.signingKey) }
  config.validate.mapError .auth
  return config

/-- The settings of the caches. -/
def cacheConfig (s : Settings) : Except ConfigFault CacheConfig :=
  if s.cache.localSeconds = 0 ∨ s.cache.defaultSeconds = 0 then .error .cacheLifetimeZero
  else .ok {
    localTtl := .ofSeconds s.cache.localSeconds.toNat
    defaultTtl := .ofSeconds s.cache.defaultSeconds.toNat
    cleanupInterval := .ofSeconds (max s.cache.cleanupSeconds.toNat 1)
    sharedEnabled := s.cache.sharedEnabled }

/-- How long an operation on the shared cache may take. -/
def sharedTimeout (s : Settings) : Duration := .ofMillis (max s.cache.timeoutMillis.toNat 1)

/-- The time between runs of the janitor. -/
def janitorInterval (s : Settings) : Duration := .ofSeconds (max s.janitorSeconds.toNat 1)

end Settings

end Bearer
