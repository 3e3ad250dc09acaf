/-
  The stores of record in a database.

  Each call is one statement, and removing expired revocations is two.  A fault
  is reported with what the statement was for; a duplicate key where another
  session holds the token, or another user the name, is told apart.
-/
import Bearer.Sql.Peer
import Bearer.Store.Origin

namespace Bearer.Sql

/-- Reports the fault of a query with what it was for. -/
def reporting {α : Type} (purpose : String) (q : Query α) : ExceptT AuthError (StateM Peer) α :=
  ExceptT.mk do
    return (← q.run).mapError fun fault => .persistence (.statement purpose fault)

/-- Reports the fault of a query, and a duplicate key as something else. -/
def reportingDuplicate {α : Type} (purpose : String) (duplicate : StorageFault) (q : Query α) :
    ExceptT AuthError (StateM Peer) α :=
  ExceptT.mk do
    return (← q.run).mapError fun fault =>
      .persistence (if fault.isDuplicateKey then duplicate else .statement purpose fault)

/-- A field of a row of a table. -/
def field {α : Type} (table : String) (row : Row) (name : String) (read : Cell → Option α) :
    Except AuthError α :=
  (row.get name read).mapError fun fault => .persistence (.statement (table ++ "." ++ name) fault)

/-! ## Sessions -/

/-- The session of a row. -/
def sessionOfRow (row : Row) : Except AuthError Session := do
  return {
    id := ← field "user_sessions" row "id" Cell.word?
    user := ⟨← field "user_sessions" row "user_id" Cell.word?⟩
    refreshToken := ← field "user_sessions" row "refresh_token" Cell.text?
    expiresAt := ← field "user_sessions" row "expires_at" Cell.instant?
    createdAt := ← field "user_sessions" row "created_at" Cell.instant? }

/-- The statements of a call to the sessions. -/
def performSession : (c : SessionCall) → ExceptT AuthError (StateM Peer) c.Answer
  | .upsert user token expiresAt createdAt => do
    let (_, id) ← reporting "upsert session"
      (execute (.upsertSession user token expiresAt createdAt))
    return { id := UInt64.ofNat id, user, refreshToken := token, expiresAt, createdAt }
  | .findByUser user now => do
    let row ← reporting "query session by user" (fetch (.sessionByUser user now))
    row.mapM fun row => (sessionOfRow row : Except AuthError Session)
  | .findByToken token now => do
    let row ← reporting "query session by token" (fetch (.sessionByToken token now))
    row.mapM fun row => (sessionOfRow row : Except AuthError Session)
  | .updateToken user expected token expiresAt => do
    let (affected, _) ← reportingDuplicate "update session" .duplicateRefreshToken
      (execute (.updateSession user expected token expiresAt))
    return 0 < affected
  | .deleteByUser user => do
    let (affected, _) ← reporting "delete session" (execute (.deleteSession user))
    return 0 < affected
  | .deleteExpired now => do
    let (affected, _) ← reporting "purge sessions" (execute (.purgeSessions now))
    return affected

/-! ## Revocations -/

/-- The revocation of a row. -/
def revocationOfRow (row : Row) : Except AuthError Revocation := do
  return {
    tokenId := ← field "token_blacklist" row "token_id" Cell.text?
    expiresAt := ← field "token_blacklist" row "expires_at" Cell.instant?
    createdAt := ← field "token_blacklist" row "created_at" Cell.instant? }

/-- The statements of a call to the revocations, made at the time `now`. -/
def performRevocation (now : Instant) :
    (c : RevocationCall) → ExceptT AuthError (StateM Peer) c.Answer
  | .insert tokenId expiresAt => do
    let _ ← reporting "insert blacklist entry" (execute (.insertRevocation tokenId expiresAt now))
  | .findActive tokenId now => do
    let row ← reporting "query blacklist entry" (fetch (.revocation tokenId now))
    row.mapM fun row => (revocationOfRow row : Except AuthError Revocation)
  | .insertCutoff user revokedBefore expiresAt => do
    let _ ← reporting "insert user cutoff" (execute (.insertCutoff user revokedBefore expiresAt))
  | .findCutoff user now => do
    let row ← reporting "query user cutoff" (fetch (.cutoff user now))
    row.mapM fun row =>
      (field "user_token_cutoffs" row "revoked_before" Cell.instant? : Except AuthError Instant)
  | .deleteExpired now => do
    let (tokens, _) ← reporting "purge blacklist" (execute (.purgeRevocations now))
    let (cutoffs, _) ← reporting "purge user cutoffs" (execute (.purgeCutoffs now))
    return tokens + cutoffs

/-! ## Users -/

/-- The user of a row. -/
def userOfRow (row : Row) : Except AuthError User := do
  -- The first field that cannot be read, in this order, is the one reported.
  let id ← field "users" row "id" Cell.word?
  let username ← field "users" row "username" Cell.text?
  let isActive ← field "users" row "is_active" Cell.bool?
  let lastLoginAt ← (row.get? "last_login_at" Cell.instant?).mapError fun fault =>
    AuthError.persistence (.statement "users.last_login_at" fault)
  let createdAt ← field "users" row "created_at" Cell.instant?
  return { id := ⟨id⟩, username, isActive, lastLoginAt, createdAt }

/-- The statements of a call to the users, made at the time `now`; `number` is that of the next
hash. -/
def performUser (hasher : Hasher) (number : Nat) (now : Instant) :
    (c : UserCall) → ExceptT AuthError (StateM Peer) c.Answer
  | .verify username password => do
    let row ← reporting "query user" (fetch (.user username))
    let some row := row | throw .authenticationFailed
    let user ← (userOfRow row : Except AuthError User)
    if !user.isActive then throw .authenticationFailed
    -- The hash of a user who may not log in is never read.
    let hash ← (field "users" row "password_hash" Cell.text? : Except AuthError String)
    match hasher.verify password hash with
    | .error fault => throw (.internal fault)
    | .ok false => throw .authenticationFailed
    | .ok true => return user
  | .update user => do
    let (affected, _) ← reporting "update user" (execute (.updateUser user))
    if affected = 0 then throw .userNotFound
  | .create username password => do
    let hash ← (hasher.hash number password).mapError AuthError.internal
    let (_, id) ← reportingDuplicate "insert user" (.usernameTaken username)
      (execute (.insertUser username hash now))
    let id : UserId := ⟨UInt64.ofNat id⟩
    return { id, username, isActive := true, lastLoginAt := none, createdAt := now }

/-- The stores of record in a database. -/
structure Database where
  peer : Peer
  hasher : Hasher
  /-- The number of hashes made. -/
  hashes : Nat

namespace Database

/-- Runs the statements of a call. -/
def run {α : Type} (s : Database) (q : ExceptT AuthError (StateM Peer) α) :
    Except AuthError α × Database :=
  let (reply, peer) := q.run s.peer
  (reply, { s with peer })

instance : Origin Database where
  session c _ s := s.run (performSession c)
  revocation c now s := s.run (performRevocation now c)
  user c now s := { s with hashes := s.hashes + 1 }.run (performUser s.hasher s.hashes now c)

end Database

end Bearer.Sql
