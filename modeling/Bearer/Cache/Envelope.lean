/-
  Typed values in a cache.

  A cached value is a text: a JSON object that states the kind and the version
  of what it holds.  A text of another kind or version is refused, as is one
  that does not hold a record of its kind.
-/
import Bearer.Error
import Bearer.Json.Reader
import Bearer.Json.Writer
import Bearer.Revocation
import Bearer.Session
import Bearer.Time.Rfc3339

namespace Bearer

open Json (Value)

/-- The kinds of value that are cached. -/
inductive Kind where
  | session
  | revocation
  | cutoff
  deriving DecidableEq, Repr

namespace Kind

/-- The name by which a cached text states its kind. -/
def name : Kind → String
  | session => "session"
  | revocation => "blacklist"
  | cutoff => "revocation_cutoff"

/-- What a kind of cached text holds. -/
abbrev Content : Kind → Type
  | session => Session
  | revocation => Revocation
  | cutoff => Cutoff

/-- The version of every kind of cached text. -/
def version : Nat := 1

end Kind

namespace Envelope

/-- An instant as a JSON value. -/
def instant (t : Instant) : Value := .text (Rfc3339.text t)

/-- The instant of a JSON value. -/
def instant? (v : Value) : Option Instant := v.text?.bind fun s => Rfc3339.read? s.toList

/-- A session as a JSON value. -/
def session (s : Session) : Value :=
  .record [("id", .nat s.id.toNat), ("user_id", .nat s.user.number.toNat),
    ("refresh_token", .text s.refreshToken), ("expires_at", instant s.expiresAt),
    ("created_at", instant s.createdAt)]

/-- The session of a JSON value. -/
def session? (v : Value) : Option Session := do
  match ← v.members? ["id", "user_id", "refresh_token", "expires_at", "created_at"] with
  | [some id, some user, some token, some expiresAt, some createdAt] =>
    some {
      id := ← id.word?
      user := ⟨← user.word?⟩
      refreshToken := ← token.text?
      expiresAt := ← instant? expiresAt
      createdAt := ← instant? createdAt }
  | _ => none

/-- A revocation as a JSON value. -/
def revocation (r : Revocation) : Value :=
  .record [("token_id", .text r.tokenId), ("expires_at", instant r.expiresAt),
    ("created_at", instant r.createdAt)]

/-- The revocation of a JSON value. -/
def revocation? (v : Value) : Option Revocation := do
  match ← v.members? ["token_id", "expires_at", "created_at"] with
  | [some tokenId, some expiresAt, some createdAt] =>
    some {
      tokenId := ← tokenId.text?
      expiresAt := ← instant? expiresAt
      createdAt := ← instant? createdAt }
  | _ => none

/-- A cutoff as a JSON value. -/
def cutoff (c : Cutoff) : Value :=
  .record [("user_id", .nat c.user.number.toNat), ("revoked_before", instant c.revokedBefore)]

/-- The cutoff of a JSON value. -/
def cutoff? (v : Value) : Option Cutoff := do
  match ← v.members? ["user_id", "revoked_before"] with
  | [some user, some revokedBefore] =>
    some { user := ⟨← user.word?⟩, revokedBefore := ← instant? revokedBefore }
  | _ => none

/-- A value of a kind as a JSON value. -/
def content : (kind : Kind) → kind.Content → Value
  | .session => session
  | .revocation => revocation
  | .cutoff => cutoff

/-- The value of a kind of a JSON value. -/
def content? : (kind : Kind) → Value → Option kind.Content
  | .session => session?
  | .revocation => revocation?
  | .cutoff => cutoff?

/-- The text that a value of a kind is cached as. -/
def encode (kind : Kind) (value : kind.Content) : String :=
  (Value.record [("v", .nat Kind.version), ("kind", .text kind.name),
    ("data", content kind value)]).render

/-- The version and the kind that a JSON value states. -/
def label? (v : Value) : Option (Nat × String) := do
  match ← v.members? ["v", "kind"] with
  | [some version, some kind] => some ((← version.intIn? 0 UInt16.size).toNat, ← kind.text?)
  | _ => none

/-- The data of a JSON value. -/
def data? (v : Value) : Option Value := do
  match ← v.members? ["data"] with
  | [data] => data
  | _ => none

/-- The value that a cached text holds, if it holds one of the kind. -/
def decode (kind : Kind) (text : String) : Except CodecFault kind.Content := do
  let some v := Json.readText? text | throw .malformed
  let some (version, name) := label? v | throw .malformed
  if name ≠ kind.name ∨ version ≠ Kind.version then
    throw (.mismatch kind.name Kind.version name version)
  let some content := (data? v).bind (content? kind) | throw .malformed
  return content

end Envelope

end Bearer
