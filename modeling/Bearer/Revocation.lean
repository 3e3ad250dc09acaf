/-
  Revocations.

  A token is revoked by its id until it would have expired anyway.  All tokens
  of a user are revoked by a cutoff: those issued up to it are refused.
-/
import Bearer.User

namespace Bearer

/-- The revocation of one token. -/
structure Revocation where
  tokenId : String
  expiresAt : Instant
  createdAt : Instant
  deriving DecidableEq, Repr

/-- Whether the revocation still matters at `now`. -/
def Revocation.active (r : Revocation) (now : Instant) : Bool := now < r.expiresAt

/-- The revocation of every token of a user issued up to a time. -/
structure Cutoff where
  user : UserId
  revokedBefore : Instant
  deriving DecidableEq, Repr

/-- Whether a token issued at `issuedAt` is revoked; one issued at the cutoff itself is. -/
def Cutoff.revokes (c : Cutoff) (issuedAt : Instant) : Bool := issuedAt ≤ c.revokedBefore

end Bearer
