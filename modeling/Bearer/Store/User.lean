/-
  The users of record.

  Users are kept by name, each with the hash of a password.  The hasher is a
  parameter: what is kept here does not depend on how passwords are hashed.
-/
import Bearer.Crypto.PasswordHash
import Bearer.Error
import Bearer.Table
import Bearer.User

namespace Bearer

/-- A call to the users of record. -/
inductive UserCall where
  | verify (username password : String)
  | update (user : User)
  | create (username password : String)
  deriving DecidableEq, Repr

/-- What a call answers if it succeeds. -/
abbrev UserCall.Answer : UserCall → Type
  | verify .. | create .. => User
  | update _ => Unit

/-- What a call answers. -/
abbrev UserCall.Reply (c : UserCall) : Type := Except AuthError c.Answer

/-- How passwords are hashed and verified.  Hashes are numbered, so that no two have the same
salt. -/
structure Hasher where
  hash : (number : Nat) → (password : String) → Except InternalFault String
  verify : (password hash : String) → Except InternalFault Bool

namespace Hasher

/-- The salt of the `n`-th hash: its number in sixteen bytes. -/
def salt (n : Nat) : List UInt8 :=
  (List.range 16).map fun i => UInt8.ofNat (n >>> (8 * (15 - i)))

/-- The hasher that makes password hashes of a cost, and verifies those of any. -/
def argon2 (cost : Crypto.Argon2.Cost) : Hasher where
  hash n password := .ok (Crypto.PasswordHash.create cost (salt n) password)
  verify password hash := do
    let some parsed := Crypto.PasswordHash.read? hash | throw .invalidPasswordHash
    let some verified := parsed.verify? password | throw .unusablePasswordHash
    return verified

end Hasher

/-- A user and the hash of the password. -/
structure Account where
  user : User
  passwordHash : String
  deriving DecidableEq, Repr

/-- Users kept in memory. -/
structure UserStore where
  accounts : Table String Account
  /-- The id of the next user that is created. -/
  nextId : Nat
  /-- The number of hashes made. -/
  hashes : Nat
  hasher : Hasher

namespace UserStore

/-- No users. -/
def empty (hasher : Hasher) : UserStore := ⟨Table.empty, 1, 0, hasher⟩

/-- The user of a name. -/
def find? (s : UserStore) (username : String) : Option User :=
  (s.accounts.get? username).map Account.user

/-- Adds a user of a given id at the time `now`, unless the name is taken.  Ids of created users
stay above every id added. -/
def insert (s : UserStore) (now : Instant) (id : UserId) (username password : String) :
    Except AuthError User × UserStore :=
  -- The password is hashed before the name is looked at.
  match s.hasher.hash s.hashes password with
  | .error fault => (.error (.internal fault), s)
  | .ok passwordHash =>
    let s := { s with hashes := s.hashes + 1 }
    if s.accounts.contains username then
      (.error (.persistence (.duplicateUsername username)), s)
    else
      let user : User := { id, username, isActive := true, lastLoginAt := none, createdAt := now }
      (.ok user,
        { s with
          accounts := s.accounts.insert username ⟨user, passwordHash⟩
          nextId := max s.nextId (id.number.toNat + 1) })

/-- The user of a name, if active and if the password is the user's. -/
def verify (s : UserStore) (username password : String) : Except AuthError User := do
  let some account := s.accounts.get? username | throw .authenticationFailed
  if !account.user.isActive then throw .authenticationFailed
  match s.hasher.verify password account.passwordHash with
  | .error fault => throw (.internal fault)
  | .ok false => throw .authenticationFailed
  | .ok true => return account.user

/-- Writes a user over the one of the same name and id. -/
def update (s : UserStore) (user : User) : Except AuthError Unit × UserStore :=
  match s.accounts.get? user.username with
  | some account =>
    if account.user.id = user.id then
      (.ok (), { s with accounts := s.accounts.insert user.username { account with user } })
    else (.error .userNotFound, s)
  | none => (.error .userNotFound, s)

/-- Answers a call made at the time `now`. -/
def perform (s : UserStore) (now : Instant) : (c : UserCall) → c.Reply × UserStore
  | .verify username password => (s.verify username password, s)
  | .update user => s.update user
  -- The id is spent even if the name turns out to be taken.
  | .create username password =>
    { s with nextId := s.nextId + 1 }.insert now ⟨UInt64.ofNat s.nextId⟩ username password

end UserStore

end Bearer
