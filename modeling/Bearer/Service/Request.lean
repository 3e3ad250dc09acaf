/-
  What services ask.

  A service reads the wall clock, draws token ids, and calls the stores of
  record, its cache and the revocations that its issuer remembers.  All of that
  is one type of requests, each of them one step: between two requests of one
  service, others may have theirs answered.
-/
import Bearer.Cache.Tiered
import Bearer.Store.Revocation
import Bearer.Store.Session
import Bearer.Store.User

namespace Bearer

/-- One request of a service. -/
inductive Request where
  /-- The time of the wall clock. -/
  | now
  /-- The next token id. -/
  | freshTokenId
  | session (c : SessionCall)
  | revocation (c : RevocationCall)
  | user (c : UserCall)
  | cache (c : CacheCall)
  /-- Whether the issuer remembers a token as revoked. -/
  | isRemembered (tokenId : String)
  /-- The issuer is to remember a token as revoked until it expires. -/
  | remember (tokenId : String) (expiresAt : Instant)

/-- What a request is answered. -/
abbrev Request.Reply : Request → Type
  | now => Instant
  | freshTokenId => String
  | session c => c.Reply
  | revocation c => c.Reply
  | user c => c.Reply
  | cache c => c.Reply
  | isRemembered _ => Bool
  | remember .. => Unit

/-- A program over requests. -/
abbrev Program := Prog Request Request.Reply

/-- A program over requests that may end with an error. -/
abbrev Service := ExceptT AuthError Program

namespace Service

/-- One request. -/
def ask (r : Request) : Service r.Reply := ExceptT.lift (Prog.call r)

/-- The time of the wall clock. -/
def now : Service Instant := ask .now

/-- A call to the sessions of record; its error ends the program. -/
def session (c : SessionCall) : Service c.Answer := ExceptT.mk (Prog.call (Request.session c))

/-- A call to the revocations of record; its error ends the program. -/
def revocation (c : RevocationCall) : Service c.Answer :=
  ExceptT.mk (Prog.call (Request.revocation c))

/-- A call to the users of record; its error ends the program. -/
def user (c : UserCall) : Service c.Answer := ExceptT.mk (Prog.call (Request.user c))

/-- A call to the cache. -/
def cache (c : CacheCall) : Service c.Reply := ask (.cache c)

/-- The time a span from `start`, which fails past the end of the calendar. -/
def deadline (start : Instant) (span : Duration) : Except AuthError Instant :=
  match start.deadline? span with
  | some t => .ok t
  | none => .error (.internal (.lifetimeOutOfRange span))

end Service

end Bearer
