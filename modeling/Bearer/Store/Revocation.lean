/-
  The revocations of record.

  One row per revoked token and one row per user whose tokens were all revoked.
  Writing a row that is there already keeps the later of each of its times, so
  the order in which revocations arrive does not matter and none is weakened.
-/
import Bearer.Error
import Bearer.Revocation
import Bearer.Table

namespace Bearer

/-- A call to the revocations of record. -/
inductive RevocationCall where
  | insert (tokenId : String) (expiresAt : Instant)
  | findActive (tokenId : String) (now : Instant)
  | insertCutoff (user : UserId) (revokedBefore expiresAt : Instant)
  | findCutoff (user : UserId) (now : Instant)
  | deleteExpired (now : Instant)
  deriving DecidableEq, Repr

/-- What a call answers if it succeeds. -/
abbrev RevocationCall.Answer : RevocationCall → Type
  | insert .. | insertCutoff .. => Unit
  | findActive .. => Option Revocation
  | findCutoff .. => Option Instant
  | deleteExpired _ => Nat

/-- What a call answers. -/
abbrev RevocationCall.Reply (c : RevocationCall) : Type := Except AuthError c.Answer

/-- The revocation of all tokens of a user issued up to a time, kept until none of them lives. -/
structure CutoffRow where
  revokedBefore : Instant
  expiresAt : Instant
  deriving DecidableEq, Repr

/-- The later of each of the times of two rows. -/
def CutoffRow.merge (a b : CutoffRow) : CutoffRow :=
  ⟨max a.revokedBefore b.revokedBefore, max a.expiresAt b.expiresAt⟩

/-- Revocations kept in memory. -/
structure RevocationStore where
  rows : Table String Revocation
  cutoffs : Table UserId CutoffRow
  /-- The number of look-ups of tokens. -/
  reads : Nat
  deriving Inhabited

namespace RevocationStore

/-- No revocations. -/
def empty : RevocationStore := ⟨Table.empty, Table.empty, 0⟩

/-- Writes the row of a token at the time `now`; an older row keeps its creation time and the later
expiry. -/
def insert (s : RevocationStore) (now : Instant) (tokenId : String) (expiresAt : Instant) :
    RevocationStore :=
  let row := match s.rows.get? tokenId with
    -- A revocation never gets shorter.
    | some old => { old with expiresAt := max old.expiresAt expiresAt }
    | none => { tokenId, expiresAt, createdAt := now }
  { s with rows := s.rows.insert tokenId row }

/-- Writes the cutoff of a user; an older one keeps the later of each of its times. -/
def insertCutoff (s : RevocationStore) (user : UserId) (row : CutoffRow) : RevocationStore :=
  let row := match s.cutoffs.get? user with
    | some old => old.merge row
    | none => row
  { s with cutoffs := s.cutoffs.insert user row }

/-- The row of a token that matters at `now`. -/
def findActive (s : RevocationStore) (tokenId : String) (now : Instant) : Option Revocation :=
  (s.rows.get? tokenId).filter fun row => row.active now

/-- The cutoff of a user that matters at `now`. -/
def findCutoff (s : RevocationStore) (user : UserId) (now : Instant) : Option Instant :=
  ((s.cutoffs.get? user).filter fun row => now < row.expiresAt).map CutoffRow.revokedBefore

/-- The number of rows and cutoffs. -/
def size (s : RevocationStore) : Nat := s.rows.size + s.cutoffs.size

/-- The rows and cutoffs that matter at `now`. -/
def live (s : RevocationStore) (now : Instant) : RevocationStore :=
  { s with
    rows := s.rows.filter fun _ row => row.active now
    cutoffs := s.cutoffs.filter fun _ row => now < row.expiresAt }

/-- Answers a call made at the time `now`. -/
def perform (s : RevocationStore) (now : Instant) : (c : RevocationCall) → c.Reply × RevocationStore
  | .insert tokenId expiresAt => (.ok (), s.insert now tokenId expiresAt)
  | .findActive tokenId now => (.ok (s.findActive tokenId now), { s with reads := s.reads + 1 })
  | .insertCutoff user revokedBefore expiresAt =>
    (.ok (), s.insertCutoff user ⟨revokedBefore, expiresAt⟩)
  | .findCutoff user now => (.ok (s.findCutoff user now), s)
  | .deleteExpired now => (.ok (s.size - (s.live now).size), s.live now)

end RevocationStore

end Bearer
