/-
  The session service.

  Sessions of record with a cache in front.  Only reads by user go through the
  cache; a failure of the cache never fails an operation.  What has been cached
  of a user is dropped whenever the user's token changes, and a cached session
  that has ended is dropped and looked up again.
-/
import Bearer.Service.Request

namespace Bearer.Sessions

open Service

/-- Drops what is cached of a user's session. -/
def invalidate (user : UserId) : Service Unit := do
  let _ ← cache (.delete (Key.session user))

/-- Caches a session for as long as it may be, or drops what is cached if it has ended. -/
def keep (s : Session) : Service Unit := do
  match Key.sessionTtl s.expiresAt (← now) with
  | some ttl => do
    let _ ← cache (.store .session (Key.session s.user) s (some ttl))
  | none => invalidate s.user

/-- Gives a user a session that holds a refresh token. -/
def create (user : UserId) (token : String) (expiresAt : Instant) : Service Session := do
  let createdAt ← now
  let s ← session (.upsert user token expiresAt createdAt)
  keep s
  return s

/-- The session of record of a user; `ended` tells whether a cached one has just been found to have
ended. -/
def load (user : UserId) (ended : Bool) : Service Session := do
  match ← session (.findByUser user (← now)) with
  | some s => do
    keep s
    return s
  | none => throw (if ended then .sessionExpired else .sessionNotFound)

/-- The session of a user. -/
def get (user : UserId) : Service Session := do
  match ← cache (.fetch .session (Key.session user)) with
  | some s => do
    if s.expired (← now) then
      invalidate user
      -- There was a session; whether there still is one, the record knows.
      load user true
    else return s
  | none => load user false

/-- The session that holds a refresh token, as it is on record. -/
def getByToken (token : String) : Service Session := do
  match ← session (.findByToken token (← now)) with
  | some s => return s
  | none => throw .sessionNotFound

/-- Writes a new refresh token into a user's session, if it holds the expected one. -/
def writeToken (user : UserId) (expected : Option String) (token : String) (ttl : Duration) :
    Service Unit := do
  let expiresAt ← deadline (← now) ttl
  let written ← session (.updateToken user expected token expiresAt)
  -- What is cached still holds the old token.
  if written then invalidate user else throw .sessionNotFound

/-- Writes a new refresh token into a user's session. -/
def update (user : UserId) (token : String) (ttl : Duration) : Service Unit :=
  writeToken user none token ttl

/-- Writes a new refresh token in place of an old one. -/
def rotate (user : UserId) (old token : String) (ttl : Duration) : Service Unit :=
  writeToken user (some old) token ttl

/-- Removes a user's session. -/
def delete (user : UserId) : Service Unit := do
  let _ ← session (.deleteByUser user)
  invalidate user

/-- Removes the sessions that have ended from the record, and counts them. -/
def purge : Service Nat := do
  session (.deleteExpired (← now))

end Bearer.Sessions
