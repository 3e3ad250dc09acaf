/-
  The token issuer.

  Issues tokens in pairs, judges them, and revokes them.  A revoked token is
  remembered by the issuer itself and, where the issuer reports revocations,
  put on the blacklist that all instances share.
-/
import Bearer.Service.Blacklist
import Bearer.Token.Verify

namespace Bearer

/-- An issuer: its settings, and whether it reports revocations to the blacklist. -/
structure Issuer where
  config : TokenConfig
  reports : Bool
  deriving DecidableEq, Repr

namespace Issuer

open Service

/-- Issues one token.  No id is drawn if the token would expire past the end of the calendar. -/
def issue (i : Issuer) (kind : TokenKind) (user : UserId) (username : String) (time : Instant) :
    Service (String × Instant) := do
  let expiresAt ← deadline time (i.config.lifetime kind)
  let tokenId ← ask .freshTokenId
  return (i.config.mint (i.config.payload kind user username time expiresAt tokenId), expiresAt)

/-- Issues a pair of tokens, both at the same time. -/
def issuePair (i : Issuer) (user : UserId) (username : String) : Service TokenPair := do
  let time ← now
  let (access, accessExpiresAt) ← i.issue .access user username time
  let (refresh, refreshExpiresAt) ← i.issue .refresh user username time
  return { access, refresh, accessExpiresAt, refreshExpiresAt }

/-- The claims of a token of a kind that is good now. -/
def verify (i : Issuer) (kind : TokenKind) (token : String) : Service Claims := do
  i.config.verify kind (← now) token

/-- The claims of a token, expired or not. -/
def peek (i : Issuer) (token : String) : Service Claims := do
  i.config.peek token

/-- Revokes a token of a kind; one that has expired needs no revocation. -/
def revoke (i : Issuer) (kind : TokenKind) (token : String) : Service Unit := do
  let claims ← i.config.peek token
  if claims.kind ≠ kind then throw .tokenInvalid
  if claims.expiresAt ≤ (← now) then return ()
  ask (.remember claims.tokenId claims.expiresAt)
  if i.reports then Blacklist.add claims.tokenId claims.expiresAt

end Issuer

end Bearer
