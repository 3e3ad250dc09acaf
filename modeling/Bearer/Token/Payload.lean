/-
  The payload of a token.

  The payload is a JSON object in which the claims have short names.  Times
  are whole seconds since 1970; the time of issue is stated in milliseconds
  too, because revocations compare it.  A reader ignores members that it does
  not know, with one exception: `nbf`, which it looks at without using it.
-/
import Bearer.Json.Reader
import Bearer.Json.Writer
import Bearer.Token.Claims

namespace Bearer.Token

open Json (Value)

/-- The payload of a token, as it is written. -/
structure Payload where
  /-- The user's number in decimal. -/
  subject : String
  name : String
  kind : TokenKind
  /-- Seconds since 1970. -/
  expiry : Int
  /-- Seconds since 1970. -/
  issued : Int
  /-- Milliseconds since 1970. -/
  issuedMillis : Option Int
  issuer : String
  audience : String
  tokenId : String
  deriving DecidableEq, Repr

namespace Payload

/-- The JSON object of a payload. -/
def toJson (p : Payload) : Value :=
  let millis := match p.issuedMillis with
    | some n => [("iat_ms", Value.int n)]
    | none => []
  .record <|
    [("sub", .text p.subject), ("name", .text p.name), ("typ", .text p.kind.name),
     ("exp", .int p.expiry), ("iat", .int p.issued)] ++ millis ++
    [("iss", .text p.issuer), ("aud", .text p.audience), ("jti", .text p.tokenId)]

/-- The kind that a value names, either as a string or as the one member of an object. -/
def kind? : Value → Option TokenKind
  | .string (some name) => TokenKind.ofName? name
  | .object [(some name, .null)] => TokenKind.ofName? name
  | _ => none

/-- A time in milliseconds, which may be missing or null. -/
def millis? : Option Value → Option (Option Int)
  | none | some .null => some none
  | some v => v.int64?.map some

/-- Whether a reader can pass over the value of `nbf`: it may be anything but a list or object
with something in it, or a string without a text. -/
def canPassOver : Value → Bool
  | .array items => items.isEmpty
  | .object members => members.isEmpty
  | .string text => text.isSome
  | _ => true

/-- The payload of a JSON object. -/
def ofJson? (v : Value) : Option Payload := do
  -- A list of the members is no payload.
  match v with
  | .object _ => some ()
  | _ => none
  let fields ← v.members? ["sub", "name", "typ", "exp", "iat", "iat_ms", "iss", "aud", "jti", "nbf"]
  match fields with
  | [some subject, some name, some kind, some expiry, some issued, millis, some issuer,
      some audience, some tokenId, notBefore] => do
    let subject ← subject.text?
    let name ← name.text?
    let kind ← kind? kind
    let expiry ← expiry.int64?
    let issued ← issued.int64?
    let issuedMillis ← millis? millis
    let issuer ← issuer.text?
    let audience ← audience.text?
    let tokenId ← tokenId.text?
    if notBefore.all canPassOver then
      some { subject, name, kind, expiry, issued, issuedMillis, issuer, audience, tokenId }
    else none
  | _ => none

/-- The claims of a payload, if its subject is a user and its times exist. -/
def claims? (p : Payload) : Option Claims := do
  let user ← (UserId.read p.subject).toOption
  let issuedAt ← match p.issuedMillis with
    | some n => Instant.ofMillis? n
    | none => Instant.ofSeconds? p.issued
  let expiresAt ← Instant.ofSeconds? p.expiry
  some { user, username := p.name, tokenId := p.tokenId, kind := p.kind, issuedAt, expiresAt }

end Payload

end Bearer.Token
