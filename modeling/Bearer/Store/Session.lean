/-
  The sessions of record.

  One row per user, found by user or by refresh token.  No two users' rows hold
  the same refresh token: writing one that another user's row holds is refused,
  before anything else is looked at.  A look-up sees only sessions that have
  not ended; writing does not ask.
-/
import Bearer.Error
import Bearer.Session
import Bearer.Table

namespace Bearer

/-- A call to the sessions of record. -/
inductive SessionCall where
  | upsert (user : UserId) (token : String) (expiresAt createdAt : Instant)
  | findByUser (user : UserId) (now : Instant)
  | findByToken (token : String) (now : Instant)
  | updateToken (user : UserId) (expected : Option String) (token : String) (expiresAt : Instant)
  | deleteByUser (user : UserId)
  | deleteExpired (now : Instant)
  deriving DecidableEq, Repr

/-- What a call answers if it succeeds. -/
abbrev SessionCall.Answer : SessionCall → Type
  | upsert .. => Session
  | findByUser .. | findByToken .. => Option Session
  | updateToken .. | deleteByUser _ => Bool
  | deleteExpired _ => Nat

/-- What a call answers. -/
abbrev SessionCall.Reply (c : SessionCall) : Type := Except AuthError c.Answer

/-- Sessions kept in memory. -/
structure SessionStore where
  rows : Table UserId Session
  /-- The number of rows ever made; the next row's id is one more. -/
  created : Nat
  /-- The number of look-ups. -/
  reads : Nat
  deriving Inhabited

namespace SessionStore

/-- No sessions. -/
def empty : SessionStore := ⟨Table.empty, 0, 0⟩

/-- Whether another user's row holds the token. -/
def takenByOther (s : SessionStore) (user : UserId) (token : String) : Bool :=
  s.rows.any fun owner row => owner ≠ user && row.refreshToken = token

/-- Writes a user's row; a new row gets the next id, an old one keeps its own. -/
def upsert (s : SessionStore) (user : UserId) (token : String) (expiresAt createdAt : Instant) :
    Session × SessionStore :=
  match s.rows.get? user with
  | some old =>
    let row := { old with refreshToken := token, expiresAt, createdAt }
    (row, { s with rows := s.rows.insert user row })
  | none =>
    let row : Session :=
      { id := UInt64.ofNat (s.created + 1), user, refreshToken := token, expiresAt, createdAt }
    (row, { s with rows := s.rows.insert user row, created := s.created + 1 })

/-- Gives a user's row another token and expiry, if there is a row and it holds the expected
token. -/
def updateToken (s : SessionStore) (user : UserId) (expected : Option String) (token : String)
    (expiresAt : Instant) : Bool × SessionStore :=
  match s.rows.get? user with
  | some row =>
    if expected.all (· = row.refreshToken) then
      (true, { s with rows := s.rows.insert user { row with refreshToken := token, expiresAt } })
    else (false, s)
  | none => (false, s)

/-- The row of a user, if the session has not ended. -/
def findByUser (s : SessionStore) (user : UserId) (now : Instant) : Option Session :=
  (s.rows.get? user).filter fun row => !row.expired now

/-- The row that holds a token, if the session has not ended. -/
def findByToken (s : SessionStore) (token : String) (now : Instant) : Option Session :=
  (s.rows.find? fun _ row => row.refreshToken = token && !row.expired now).map Prod.snd

/-- The sessions that have not ended. -/
def live (s : SessionStore) (now : Instant) : SessionStore :=
  { s with rows := s.rows.filter fun _ row => !row.expired now }

/-- Answers a call. -/
def perform (s : SessionStore) : (c : SessionCall) → c.Reply × SessionStore
  | .upsert user token expiresAt createdAt =>
    if s.takenByOther user token then (.error (.persistence .duplicateRefreshToken), s)
    else
      let (row, s) := s.upsert user token expiresAt createdAt
      (.ok row, s)
  | .findByUser user now => (.ok (s.findByUser user now), { s with reads := s.reads + 1 })
  | .findByToken token now => (.ok (s.findByToken token now), { s with reads := s.reads + 1 })
  -- A token of another user is refused even if there is no row to write it into.
  | .updateToken user expected token expiresAt =>
    if s.takenByOther user token then (.error (.persistence .duplicateRefreshToken), s)
    else
      let (done, s) := s.updateToken user expected token expiresAt
      (.ok done, s)
  | .deleteByUser user => (.ok (s.rows.contains user), { s with rows := s.rows.erase user })
  | .deleteExpired now => (.ok (s.rows.size - (s.live now).rows.size), s.live now)

end SessionStore

end Bearer
