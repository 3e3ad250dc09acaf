/-
  Minting tokens and judging them.

  A token is accepted if it has three parts, its header names the algorithm,
  its signature is that of its text, its payload is complete, and issuer and
  audience are the configured ones.  Whether it has expired is a separate
  question, asked before issuer and audience: a token is good through the whole
  second of its expiry.
-/
import Bearer.Token.Compact
import Bearer.Token.Config
import Bearer.Token.Payload

namespace Bearer

open Token

namespace TokenConfig

/-- The payload of a token. -/
def payload (c : TokenConfig) (kind : TokenKind) (user : UserId) (username : String)
    (now expiresAt : Instant) (tokenId : String) : Payload :=
  { subject := user.text
    name := username
    kind
    expiry := expiresAt.second
    issued := now.second
    issuedMillis := some now.millis
    issuer := c.issuer
    audience := c.audience
    tokenId }

/-- The token of a payload, signed with the key of the settings. -/
def mint (c : TokenConfig) (p : Payload) : String := String.ofList (sign c.signingKey p.toJson)

/-- The payload of a token whose form, algorithm and signature are right. -/
def authentic (c : TokenConfig) (token : String) : Except AuthError Payload := do
  let some parts := Parts.ofText? token.toList | throw .tokenMalformed
  let some stated := (partJson? parts.header).bind headerAlgorithm? | throw .tokenMalformed
  -- A token does not choose how it is judged.
  if stated ≠ algorithm then throw .tokenInvalid
  if parts.signature ≠ signature c.signingKey parts.signed then throw .tokenInvalid
  let some payload := (partJson? parts.payload).bind Payload.ofJson? | throw .tokenMalformed
  return payload

/-- The claims of a token.  With a time, the token must not have expired by then. -/
def decode (c : TokenConfig) (time : Option Instant) (token : String) :
    Except AuthError Claims := do
  let payload ← c.authentic token
  -- A time before 1970 is no expiry at all.
  if payload.expiry < 0 then throw .tokenInvalid
  if time.any fun now => payload.expiry < now.second then throw .tokenExpired
  -- Asked last: an expired token is expired, whoever issued it.
  if payload.issuer ≠ c.issuer ∨ payload.audience ≠ c.audience then throw .tokenInvalid
  let some claims := payload.claims? | throw .tokenInvalid
  return claims

/-- The claims of a token of a kind that has not expired by `now`. -/
def verify (c : TokenConfig) (kind : TokenKind) (now : Instant) (token : String) :
    Except AuthError Claims := do
  let claims ← c.decode (some now) token
  if claims.kind ≠ kind then throw .tokenInvalid
  return claims

/-- The claims of a token, expired or not. -/
def peek (c : TokenConfig) (token : String) : Except AuthError Claims := c.decode none token

end TokenConfig

/-- The id that a token states, whoever signed it. -/
def Token.statedId (token : String) : Except AuthError String := do
  let some parts := Parts.ofText? token.toList | throw .tokenMalformed
  let some _ := (partJson? parts.header).bind headerAlgorithm? | throw .tokenMalformed
  let some payload := (partJson? parts.payload).bind Payload.ofJson? | throw .tokenMalformed
  if payload.tokenId = "" then throw .tokenMalformed
  return payload.tokenId

end Bearer
