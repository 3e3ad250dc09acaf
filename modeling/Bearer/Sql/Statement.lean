/-
  The statements that are sent.

  One statement for every call to the stores of record.  A row that is there
  already is overwritten by an insertion, or keeps the later of each time where
  revocations are merged.
-/
import Bearer.Sql.Row

namespace Bearer.Sql

/-- The parameter of a user's number. -/
def Param.user (id : UserId) : Param := .int id.number.toNat

namespace Statement

/-! ## Sessions -/

/-- Writes the session of a user; the last id is that of the row, new or old. -/
def upsertSession (user : UserId) (token : String) (expiresAt createdAt : Instant) : Statement where
  text :=
    "INSERT INTO user_sessions (user_id, refresh_token, expires_at, created_at) " ++
    "VALUES (?, ?, ?, ?) " ++
    "ON DUPLICATE KEY UPDATE id = LAST_INSERT_ID(id), refresh_token = VALUES(refresh_token), " ++
    "expires_at = VALUES(expires_at), created_at = VALUES(created_at)"
  params := [.user user, .text token, .instant expiresAt, .instant createdAt]

/-- The session of a user that has not ended. -/
def sessionByUser (user : UserId) (now : Instant) : Statement where
  text :=
    "SELECT id, user_id, refresh_token, expires_at, created_at FROM user_sessions " ++
    "WHERE user_id = ? AND expires_at > ?"
  params := [.user user, .instant now]

/-- The session that holds a token and has not ended. -/
def sessionByToken (token : String) (now : Instant) : Statement where
  text :=
    "SELECT id, user_id, refresh_token, expires_at, created_at FROM user_sessions " ++
    "WHERE refresh_token = ? AND expires_at > ?"
  params := [.text token, .instant now]

/-- Writes another token into the session of a user, if it holds the expected one. -/
def updateSession (user : UserId) (expected : Option String) (token : String)
    (expiresAt : Instant) : Statement where
  text :=
    "UPDATE user_sessions SET refresh_token = ?, expires_at = ? " ++
    "WHERE user_id = ? AND (? IS NULL OR refresh_token = ?)"
  params :=
    [.text token, .instant expiresAt, .user user, .ofOption .text expected,
     .ofOption .text expected]

/-- Removes the session of a user. -/
def deleteSession (user : UserId) : Statement where
  text := "DELETE FROM user_sessions WHERE user_id = ?"
  params := [.user user]

/-- Removes the sessions that have ended. -/
def purgeSessions (now : Instant) : Statement where
  text := "DELETE FROM user_sessions WHERE expires_at <= ?"
  params := [.instant now]

/-! ## Revocations -/

/-- Writes the revocation of a token. -/
def insertRevocation (tokenId : String) (expiresAt createdAt : Instant) : Statement where
  text :=
    "INSERT INTO token_blacklist (token_id, expires_at, created_at) VALUES (?, ?, ?) " ++
    "ON DUPLICATE KEY UPDATE expires_at = GREATEST(expires_at, VALUES(expires_at))"
  params := [.text tokenId, .instant expiresAt, .instant createdAt]

/-- The revocation of a token that still matters. -/
def revocation (tokenId : String) (now : Instant) : Statement where
  text :=
    "SELECT token_id, expires_at, created_at FROM token_blacklist " ++
    "WHERE token_id = ? AND expires_at > ?"
  params := [.text tokenId, .instant now]

/-- Writes the cutoff of a user. -/
def insertCutoff (user : UserId) (revokedBefore expiresAt : Instant) : Statement where
  text :=
    "INSERT INTO user_token_cutoffs (user_id, revoked_before, expires_at) VALUES (?, ?, ?) " ++
    "ON DUPLICATE KEY UPDATE " ++
    "revoked_before = GREATEST(revoked_before, VALUES(revoked_before)), " ++
    "expires_at = GREATEST(expires_at, VALUES(expires_at))"
  params := [.user user, .instant revokedBefore, .instant expiresAt]

/-- The cutoff of a user that still matters. -/
def cutoff (user : UserId) (now : Instant) : Statement where
  text := "SELECT revoked_before FROM user_token_cutoffs WHERE user_id = ? AND expires_at > ?"
  params := [.user user, .instant now]

/-- Removes the revocations that no longer matter. -/
def purgeRevocations (now : Instant) : Statement where
  text := "DELETE FROM token_blacklist WHERE expires_at <= ?"
  params := [.instant now]

/-- Removes the cutoffs that no longer matter. -/
def purgeCutoffs (now : Instant) : Statement where
  text := "DELETE FROM user_token_cutoffs WHERE expires_at <= ?"
  params := [.instant now]

/-! ## Users -/

/-- The user of a name, with the hash of the password. -/
def user (username : String) : Statement where
  text :=
    "SELECT id, username, password_hash, is_active, last_login_at, created_at FROM users " ++
    "WHERE username = ?"
  params := [.text username]

/-- Writes a user. -/
def updateUser (user : User) : Statement where
  text := "UPDATE users SET username = ?, is_active = ?, last_login_at = ? WHERE id = ?"
  params :=
    [.text user.username, .int (if user.isActive then 1 else 0),
     .ofOption .instant user.lastLoginAt, .user user.id]

/-- Adds a user, who is active. -/
def insertUser (username passwordHash : String) (createdAt : Instant) : Statement where
  text := "INSERT INTO users (username, password_hash, is_active, created_at) VALUES (?, ?, 1, ?)"
  params := [.text username, .passwordHash passwordHash, .instant createdAt]

/-! ## The database itself -/

/-- A query that any database answers. -/
def greeting : Statement := ⟨"SELECT 1", []⟩

/-- The statements that create the tables that are missing. -/
def createTables : List Statement :=
  [⟨"CREATE TABLE IF NOT EXISTS users ( id BIGINT UNSIGNED NOT NULL AUTO_INCREMENT, " ++
    "username VARCHAR(64) NOT NULL, password_hash VARCHAR(255) NOT NULL, " ++
    "is_active TINYINT(1) NOT NULL DEFAULT 1, last_login_at DATETIME(6) NULL, " ++
    "created_at DATETIME(6) NOT NULL, PRIMARY KEY (id), " ++
    "UNIQUE KEY uk_users_username (username) )", []⟩,
   ⟨"CREATE TABLE IF NOT EXISTS user_sessions ( id BIGINT UNSIGNED NOT NULL AUTO_INCREMENT, " ++
    "user_id BIGINT UNSIGNED NOT NULL, refresh_token VARCHAR(768) CHARACTER SET ascii NOT NULL, " ++
    "expires_at DATETIME(6) NOT NULL, created_at DATETIME(6) NOT NULL, PRIMARY KEY (id), " ++
    "UNIQUE KEY uk_user_sessions_user_id (user_id), " ++
    "UNIQUE KEY uk_user_sessions_refresh_token (refresh_token), " ++
    "KEY idx_user_sessions_expires_at (expires_at) )", []⟩,
   ⟨"CREATE TABLE IF NOT EXISTS token_blacklist ( " ++
    "token_id VARCHAR(64) CHARACTER SET ascii NOT NULL, expires_at DATETIME(6) NOT NULL, " ++
    "created_at DATETIME(6) NOT NULL, PRIMARY KEY (token_id), " ++
    "KEY idx_token_blacklist_expires_at (expires_at) )", []⟩,
   ⟨"CREATE TABLE IF NOT EXISTS user_token_cutoffs ( user_id BIGINT UNSIGNED NOT NULL, " ++
    "revoked_before DATETIME(6) NOT NULL, expires_at DATETIME(6) NOT NULL, " ++
    "PRIMARY KEY (user_id), KEY idx_user_token_cutoffs_expires_at (expires_at) )", []⟩]

end Statement

end Bearer.Sql
