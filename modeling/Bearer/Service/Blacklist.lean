/-
  The revocation service.

  Revocations of record with a cache in front, in which only the answer "yes"
  is kept: a revoked token until it would expire anyway, a user's cutoff for a
  short time, since a later one may replace it.
-/
import Bearer.Service.Request

namespace Bearer.Blacklist

open Service

/-- Caches a revocation for as long as it matters. -/
def keep (r : Revocation) : Service Unit := do
  match Key.blacklistTtl r.expiresAt (← now) with
  | some ttl => do
    let _ ← cache (.store .revocation (Key.blacklist r.tokenId) r (some ttl))
  | none => return ()

/-- Revokes a token until it expires. -/
def add (tokenId : String) (expiresAt : Instant) : Service Unit := do
  let _ ← revocation (.insert tokenId expiresAt)
  let createdAt ← now
  keep { tokenId, expiresAt, createdAt }

/-- Whether the record has a revocation that matters at a time. -/
def isRecorded (tokenId : String) (time : Instant) : Service Bool := do
  match ← revocation (.findActive tokenId time) with
  | some r => do
    keep r
    return true
  | none => return false

/-- Whether a token is revoked. -/
def contains (tokenId : String) : Service Bool := do
  let time ← now
  match ← cache (.fetch .revocation (Key.blacklist tokenId)) with
  -- A cached revocation that has run out says nothing: the record may hold a later expiry.
  | some r => if r.active time then return true else isRecorded tokenId time
  | none => isRecorded tokenId time

/-- The cutoff of record of a user, which is cached. -/
def loadCutoff (user : UserId) : Service (Option Cutoff) := do
  match ← revocation (.findCutoff user (← now)) with
  | some revokedBefore => do
    let cutoff : Cutoff := { user, revokedBefore }
    let _ ← cache (.store .cutoff (Key.cutoff user) cutoff (some Key.cutoffLifetime))
    return some cutoff
  | none => return none

/-- Revokes the tokens of a user issued up to a time, until the last of them expires.  What is
cached is the record's cutoff, which may be a later one. -/
def revokeUser (user : UserId) (revokedBefore expiresAt : Instant) : Service Unit := do
  let _ ← revocation (.insertCutoff user revokedBefore expiresAt)
  let _ ← loadCutoff user

/-- Whether the tokens of a user issued at a time are revoked. -/
def isUserRevoked (user : UserId) (issuedAt : Instant) : Service Bool := do
  let cutoff ← match ← cache (.fetch .cutoff (Key.cutoff user)) with
    | some cutoff => pure (some cutoff)
    | none => loadCutoff user
  return cutoff.any fun c => c.revokes issuedAt

/-- Removes the revocations that no longer matter from the record, and counts them. -/
def purge : Service Nat := do
  revocation (.deleteExpired (← now))

end Bearer.Blacklist
