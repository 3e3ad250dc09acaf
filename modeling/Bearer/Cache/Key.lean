/-
  Cache keys and lifetimes.

  Every kind of cached value has its own name space of keys, and each kind how
  long it may be cached.
-/
import Bearer.Time.Moment
import Bearer.User

namespace Bearer.Key

/-- The key of a user. -/
def user (id : UserId) : String := "user:" ++ id.text

/-- The pattern of the keys that belong to a user. -/
def userPattern (id : UserId) : String := "user:" ++ id.text ++ ":*"

/-- The key of a user's session. -/
def session (id : UserId) : String := "session:" ++ id.text

/-- The key of a user's revocation cutoff. -/
def cutoff (id : UserId) : String := "user:" ++ id.text ++ ":revoked_before"

/-- The key of one user following another. -/
def follow (follower followee : UserId) : String :=
  "follow:" ++ follower.text ++ ":" ++ followee.text

/-- The pattern of the keys of everyone whom a user follows. -/
def followPattern (follower : UserId) : String := "follow:" ++ follower.text ++ ":*"

/-- The key of a revoked token. -/
def blacklist (tokenId : String) : String := "token:blacklist:" ++ tokenId

/-- The key of a page of a feed. -/
def feed (cursor : String) : String := "feed:" ++ cursor

/-- How long a user may be cached. -/
def userLifetime : Duration := .ofSeconds (30 * 60)

/-- How long a follow relation may be cached. -/
def followLifetime : Duration := .ofSeconds (10 * 60)

/-- How long a page of a feed may be cached. -/
def feedLifetime : Duration := .ofSeconds 60

/-- How long a session may be cached. -/
def sessionLifetime : Duration := .ofSeconds (5 * 60)

/-- How long a revocation cutoff may be cached. -/
def cutoffLifetime : Duration := .ofSeconds 60

/-- How long a session that ends at `expiresAt` may be cached at `now`; not at all once it ended. -/
def sessionTtl (expiresAt now : Instant) : Option Duration :=
  (expiresAt.remaining? now).map fun d => min d sessionLifetime

/-- How long a revocation that ends at `expiresAt` may be cached at `now`. -/
def blacklistTtl (expiresAt now : Instant) : Option Duration := expiresAt.remaining? now

end Bearer.Key

namespace Bearer

/-- The longest time that a cache keeps anything: a hundred years. -/
def maxTtl : Duration := .ofSeconds (100 * 365 * 24 * 3600)

/-- The moment at which something cached for `ttl` expires. -/
def Moment.expiry (now : Moment) (ttl : Duration) : Moment := now.after (min ttl maxTtl)

end Bearer
