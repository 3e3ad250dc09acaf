/-
  Sessions.

  A user has at most one session.  It holds the one refresh token that can be
  redeemed, and ends at its expiry: an expired session is as good as none.
-/
import Bearer.User

namespace Bearer

/-- A session of a user. -/
structure Session where
  id : UInt64
  user : UserId
  refreshToken : String
  expiresAt : Instant
  createdAt : Instant
  deriving DecidableEq, Repr

namespace Session

/-- Whether the session has ended by `now`; it ends at its expiry, not after. -/
def expired (s : Session) (now : Instant) : Bool := s.expiresAt ≤ now

theorem expired_eq_false_iff (s : Session) (now : Instant) :
    s.expired now = false ↔ now < s.expiresAt := by
  simp [expired, Instant.not_le]

end Session

end Bearer
