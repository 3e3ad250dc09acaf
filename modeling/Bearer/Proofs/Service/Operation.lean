/-
  Operations as data.

  What a user of an instance can ask for, and what an instance does by itself,
  is one type of operations, so that a run of a fleet can be written down as
  the list of what happened.
-/
import Bearer.Service.Auth
import Bearer.Service.Janitor

namespace Bearer

/-- An operation of an instance. -/
inductive Operation where
  | login (username password : String)
  | refresh (token : String)
  | logout (user : UserId) (accessToken refreshToken : String)
  | verify (token : String)
  | revoke (token : String)
  | revokeAll (user : UserId)
  | session (user : UserId)
  | holdsToken (user : UserId) (token : String)
  | isRevoked (tokenId : String)
  /-- One run of the janitor. -/
  | tidy
  deriving DecidableEq, Repr

namespace Operation

/-- What an operation answers if it succeeds. -/
abbrev Answer : Operation → Type
  | login .. => User × TokenPair
  | refresh _ => TokenPair
  | logout .. | revoke _ | revokeAll _ => Unit
  | verify _ => Claims
  | session _ => Session
  | holdsToken .. | isRevoked _ => Bool
  | tidy => PurgeReport

/-- What an operation answers. -/
abbrev Result (o : Operation) : Type := Except AuthError o.Answer

/-- The service of an operation. -/
def service (issuer : Issuer) : (o : Operation) → Service o.Answer
  | login username password => Auth.login issuer username password
  | refresh token => Auth.refresh issuer token
  | logout user accessToken refreshToken => Auth.logout issuer user accessToken refreshToken
  | verify token => Auth.verify issuer token
  | revoke token => Auth.revoke issuer token
  | revokeAll user => Auth.revokeAll issuer user
  | session user => Auth.session user
  | holdsToken user token => Auth.holdsToken user token
  | isRevoked tokenId => Auth.isRevoked tokenId
  | tidy => Janitor.tick

/-- The tokens that an operation takes out of use. -/
def retired : Operation → List String
  | refresh token | revoke token => [token]
  | logout _ accessToken refreshToken => [accessToken, refreshToken]
  | _ => []

end Operation

end Bearer
