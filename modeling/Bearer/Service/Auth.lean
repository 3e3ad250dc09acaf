/-
  The authentication facade.

  Login, refresh, logout, verification and revocation, made of the issuer, the
  session service and the revocation service.  A refresh redeems its token once:
  the token is put on the blacklist, and the session must still hold it when
  the new one is written in its place.
-/
import Bearer.Service.Issuer
import Bearer.Service.Sessions

namespace Bearer.Auth

open Service

/-- Whether a token is revoked, as the issuer remembers or as the blacklist says. -/
def isRevoked (tokenId : String) : Service Bool := do
  -- The issuer's own memory is asked first: it takes no look-up in a store.
  if ← ask (.isRemembered tokenId) then return true
  else Blacklist.contains tokenId

/-- Refuses a token that is revoked, by itself or with all tokens of its user. -/
def requireNotRevoked (claims : Claims) : Service Unit := do
  if ← isRevoked claims.tokenId then throw .tokenBlacklisted
  if ← Blacklist.isUserRevoked claims.user claims.issuedAt then throw .tokenBlacklisted

/-- Puts a token on the blacklist if it belongs to the user and has not expired; any other text is
passed over. -/
def revokeOwned (issuer : Issuer) (user : UserId) (token : String) : Service Unit := do
  match issuer.config.peek token with
  | .error _ => return ()
  | .ok claims => do
    if claims.user ≠ user then return ()
    if claims.expiresAt ≤ (← now) then return ()
    Blacklist.add claims.tokenId claims.expiresAt

/-- Records the time of a login, as far as that succeeds. -/
def recordLogin (user : User) : Service User := do
  let user := { user with lastLoginAt := some (← now) }
  -- The user is logged in whether or not this can be written.
  let _ ← ask (.user (.update user))
  return user

/-- Logs a user in: a new pair of tokens and a session that holds the refresh token. -/
def login (issuer : Issuer) (username password : String) : Service (User × TokenPair) := do
  let user ← Service.user (.verify username password)
  let tokens ← issuer.issuePair user.id user.username
  -- Tokens are handed out only once a session stands behind them.
  let _ ← Sessions.create user.id tokens.refresh tokens.refreshExpiresAt
  let user ← recordLogin user
  return (user, tokens)

/-- Redeems a refresh token for a new pair. -/
def refresh (issuer : Issuer) (token : String) : Service TokenPair := do
  let claims ← issuer.verify .refresh token
  requireNotRevoked claims
  let session ← Sessions.getByToken token
  -- A token that names another user than its session is no token of ours.
  if session.user ≠ claims.user then throw .tokenInvalid
  let tokens ← issuer.issuePair claims.user claims.username
  Blacklist.add claims.tokenId claims.expiresAt
  -- The old token is dead by now, even if the session cannot be written.
  match tokens.refreshExpiresAt.remaining? (← now) with
  | some ttl => do
    Sessions.rotate claims.user token tokens.refresh ttl
    return tokens
  | none => throw (.internal .issuedTokenExpired)

/-- Logs a user out: revokes the user's tokens among the two and removes the session. -/
def logout (issuer : Issuer) (user : UserId) (accessToken refreshToken : String) :
    Service Unit := do
  revokeOwned issuer user accessToken
  revokeOwned issuer user refreshToken
  Sessions.delete user

/-- The claims of an access token that is good and not revoked. -/
def verify (issuer : Issuer) (token : String) : Service Claims := do
  let claims ← issuer.verify .access token
  requireNotRevoked claims
  return claims

/-- Revokes a token of either kind. -/
def revoke (issuer : Issuer) (token : String) : Service Unit := do
  let claims ← issuer.peek token
  issuer.revoke claims.kind token

/-- Revokes every token issued to a user so far, and removes the session. -/
def revokeAll (issuer : Issuer) (user : UserId) : Service Unit := do
  let cutoff ← now
  let lastExpiry ← deadline cutoff issuer.config.longestLifetime
  -- The cutoff is written first: it alone makes every token void.
  Blacklist.revokeUser user cutoff lastExpiry
  Sessions.delete user
  let _ ← cache (.invalidate (Key.userPattern user))

/-- The session of a user. -/
def session (user : UserId) : Service Session := Sessions.get user

/-- Whether a user's session holds a refresh token.  A cached session may be older than the token,
so the record decides where they differ. -/
def holdsToken (user : UserId) (token : String) : Service Bool := do
  let found ← ExceptT.lift (Sessions.get user).run
  match found with
  | .ok s =>
    if s.refreshToken = token then return true
    else do
      let byToken ← ExceptT.lift (Sessions.getByToken token).run
      match byToken with
      | .ok s => return s.user = user
      | .error .sessionNotFound => return false
      | .error e => throw e
  | .error .sessionNotFound | .error .sessionExpired => return false
  | .error e => throw e

end Bearer.Auth
